import Cimogus.Daemon.ExcludeAddresses

/-!
# The masks of `IPAddress`

`netmask`, `hostmask` and `broadcastAddress`: shifts of a word for IPv4, bytes filled one by one for IPv6. A mask is
known by its bits (`getLsbD_netmask6` and the like), and what is left of an address under the mask by the prefix of the
address.
-/

namespace Cimogus.Daemon

open Lib.Blocks Lib.Octets

namespace QHostAddress

/-- The bitwise operations; there is none between the families. -/
def and : QHostAddress → QHostAddress → QHostAddress
  | .ipv4 a, .ipv4 b => .ipv4 (a &&& b)
  | .ipv6 a, .ipv6 b => .ipv6 (a &&& b)
  | _, _ => .null

def or : QHostAddress → QHostAddress → QHostAddress
  | .ipv4 a, .ipv4 b => .ipv4 (a ||| b)
  | .ipv6 a, .ipv6 b => .ipv6 (a ||| b)
  | _, _ => .null

def complement : QHostAddress → QHostAddress
  | .ipv4 a => .ipv4 (~~~a)
  | .ipv6 a => .ipv6 (~~~a)
  | .null => .null

theorem exists_of_value_lt (a : QHostAddress) {v : Nat} (hv : v < 2 ^ a.width) :
    ∃ b : QHostAddress, b.width = a.width ∧ b.value = v := by
  cases a with
  | null => exact ⟨.null, rfl, (Nat.lt_one_iff.mp hv).symm⟩
  | ipv4 _ => exact ⟨.ipv4 (BitVec.ofNat 32 v), rfl, (BitVec.toNat_ofNat v 32).trans (Nat.mod_eq_of_lt hv)⟩
  | ipv6 _ => exact ⟨.ipv6 (BitVec.ofNat 128 v), rfl, (BitVec.toNat_ofNat v 128).trans (Nat.mod_eq_of_lt hv)⟩

end QHostAddress

/-- `rawAddress[i] = b`. -/
def setByte (a : BitVec 128) (i : Nat) (b : BitVec 8) : BitVec 128 :=
  (a &&& ~~~((0xff#8).zeroExtend 128 <<< (8 * (15 - i)))) ||| (b.zeroExtend 128 <<< (8 * (15 - i)))

/-- `memset(&rawAddress[offset], 0xff, bytes)`. -/
def memset (a : BitVec 128) (offset bytes : Nat) : BitVec 128 :=
  (List.range bytes).foldl (fun a i => setByte a (offset + i) 0xff#8) a

variable (a : BitVec 128)

namespace IPAddress

def netmask6 (length : Nat) : BitVec 128 :=
  let rawNetmask := memset 0 0 (length / 8)
  if length % 8 ≠ 0 then setByte rawNetmask (length / 8) (0xff#8 ^^^ (0xff#8 >>> (length % 8))) else rawNetmask

def netmask4 (length : Nat) : BitVec 32 :=
  if length < 32 then 0xffffffff#32 ^^^ (0xffffffff#32 >>> length) else 0xffffffff#32

def netmask (ip : IPAddress) : QHostAddress :=
  match ip.address with
  | .ipv6 _ => .ipv6 (netmask6 ip.prefixLength.toNat)
  | .ipv4 _ => .ipv4 (netmask4 ip.prefixLength.toNat)
  | .null => .null

def hostmask6 (length : Nat) : BitVec 128 :=
  let offset := (length + 7) / 8
  let rawHostmask := memset 0 offset (16 - offset)
  if length % 8 ≠ 0 then setByte rawHostmask (length / 8) (0xff#8 >>> (length % 8)) else rawHostmask

def hostmask4 (length : Nat) : BitVec 32 := if length < 32 then 0xffffffff#32 >>> length else 0#32

def hostmask (ip : IPAddress) : QHostAddress :=
  match ip.address with
  | .ipv6 _ => .ipv6 (hostmask6 ip.prefixLength.toNat)
  | .ipv4 _ => .ipv4 (hostmask4 ip.prefixLength.toNat)
  | .null => .null

def broadcast6 (a : BitVec 128) (length : Nat) : BitVec 128 :=
  let offset := (length + 7) / 8
  let rawAddress := memset a offset (16 - offset)
  if length % 8 ≠ 0 then orByte rawAddress (length / 8) (0xff#8 >>> (length % 8)) else rawAddress

def broadcast4 (a : BitVec 32) (length : Nat) : BitVec 32 := if length < 32 then a ||| (0xffffffff#32 >>> length) else a

def broadcastAddress (ip : IPAddress) : QHostAddress :=
  match ip.address with
  | .ipv6 a => .ipv6 (broadcast6 a ip.prefixLength.toNat)
  | .ipv4 a => .ipv4 (broadcast4 a ip.prefixLength.toNat)
  | .null => .null

/-! ## The bits of the masks -/

theorem getLsbD_ones_shift {w : Nat} (r j : Nat) : (BitVec.allOnes w >>> r).getLsbD j = decide (r + j < w) := by
  rw [BitVec.getLsbD_ushiftRight, BitVec.getLsbD_allOnes]

theorem getLsbD_shift_byte (b : BitVec 8) {i j : Nat} (hi : i < 16) (hj : j < 128) :
    ((b.zeroExtend 128) <<< (8 * (15 - i))).getLsbD j = (decide (15 - j / 8 = i) && b.getLsbD (j % 8)) := by
  rw [BitVec.getLsbD_shiftLeft, BitVec.getLsbD_setWidth]
  by_cases hb : 15 - j / 8 = i
  · have hp : j - 8 * (15 - i) = j % 8 := by omega
    have hl : ¬j < 8 * (15 - i) := by omega
    have hlt : j % 8 < 128 := by omega
    simp only [hp, hj, hl, hlt, hb, decide_true, decide_false, Bool.not_false, Bool.true_and]
  · rw [decide_eq_false hb, Bool.false_and]
    rcases Nat.lt_or_ge j (8 * (15 - i)) with hl | hh
    · rw [decide_eq_true hl, Bool.not_true, Bool.and_false, Bool.false_and]
    · rw [BitVec.getLsbD_of_ge b _ (by omega), Bool.and_false, Bool.and_false]

theorem getLsbD_setByte (b : BitVec 8) {i j : Nat} (hi : i < 16) (hj : j < 128) :
    (setByte a i b).getLsbD j = if 15 - j / 8 = i then b.getLsbD (j % 8) else a.getLsbD j := by
  have ho : (0xff#8).getLsbD (j % 8) = true := by
    rw [show 0xff#8 = BitVec.allOnes 8 from rfl, BitVec.getLsbD_allOnes]
    exact decide_eq_true (by omega)
  rw [setByte, BitVec.getLsbD_or, BitVec.getLsbD_and, BitVec.getLsbD_not, getLsbD_shift_byte _ hi hj,
    getLsbD_shift_byte _ hi hj]
  split
  · simp [*]
  · simp [*]

theorem getLsbD_orByte (b : BitVec 8) {i j : Nat} (hi : i < 16) (hj : j < 128) :
    (orByte a i b).getLsbD j = (a.getLsbD j || (decide (15 - j / 8 = i) && b.getLsbD (j % 8))) := by
  rw [orByte, BitVec.getLsbD_or, getLsbD_shift_byte b hi hj]

/-- The bits of the filled bytes. -/
theorem getLsbD_memset {offset bytes j : Nat} (h : offset + bytes ≤ 16) (hj : j < 128) :
    (memset a offset bytes).getLsbD j =
    (a.getLsbD j || decide (offset ≤ 15 - j / 8 ∧ 15 - j / 8 < offset + bytes)) := by
  induction bytes with
  | zero =>
    rw [decide_eq_false (by omega), Bool.or_false]
    rfl
  | succ bytes ih =>
    have hlast : memset a offset (bytes + 1) = setByte (memset a offset bytes) (offset + bytes) (0xff#8) := by
      rw [memset, List.range_succ, List.foldl_append]
      rfl
    rw [hlast, getLsbD_setByte _ _ (by omega) hj, ih (by omega), show 0xff#8 = BitVec.allOnes 8 from rfl,
      BitVec.getLsbD_allOnes]
    split
    · rw [decide_eq_true (by omega), decide_eq_true (by omega), Bool.or_true]
    · congr 1
      exact decide_eq_decide.mpr (by omega)

variable {n j : Nat}

theorem getLsbD_hostmask6 (hn : n ≤ 128) (hj : j < 128) : (hostmask6 n).getLsbD j = decide (j < 128 - n) := by
  have hfi := getLsbD_memset 0 (show (n + 7) / 8 + (16 - (n + 7) / 8) ≤ 16 by omega) hj
  rw [show (0 : BitVec 128).getLsbD j = false from BitVec.getLsbD_zero] at hfi
  simp only [hostmask6]
  split
  · rw [getLsbD_setByte _ _ (by omega) hj, hfi, show 0xff#8 = BitVec.allOnes 8 from rfl, getLsbD_ones_shift]
    split
    · exact decide_eq_decide.mpr (by omega)
    · exact decide_eq_decide.mpr (by omega)
  · rw [hfi]
    exact decide_eq_decide.mpr (by omega)

theorem getLsbD_netmask6 (hn : n ≤ 128) (hj : j < 128) : (netmask6 n).getLsbD j = decide (128 - n ≤ j) := by
  have hfi := getLsbD_memset 0 (show 0 + n / 8 ≤ 16 by omega) hj
  rw [show (0 : BitVec 128).getLsbD j = false from BitVec.getLsbD_zero] at hfi
  simp only [netmask6]
  split
  · rw [getLsbD_setByte _ _ (by omega) hj, hfi, BitVec.getLsbD_xor, show 0xff#8 = BitVec.allOnes 8 from rfl,
      getLsbD_ones_shift,
      BitVec.getLsbD_allOnes, decide_eq_true (show j % 8 < 8 by omega), Bool.true_xor, ← decide_not]
    split
    · exact decide_eq_decide.mpr (by omega)
    · exact decide_eq_decide.mpr (by omega)
  · rw [hfi]
    exact decide_eq_decide.mpr (by omega)

theorem getLsbD_broadcast6 (hn : n ≤ 128) (hj : j < 128) :
    (broadcast6 a n).getLsbD j = (a.getLsbD j || decide (j < 128 - n)) := by
  have hfi := getLsbD_memset a (show (n + 7) / 8 + (16 - (n + 7) / 8) ≤ 16 by omega) hj
  simp only [broadcast6]
  split
  · rw [getLsbD_orByte _ _ (by omega) hj, hfi, show 0xff#8 = BitVec.allOnes 8 from rfl, getLsbD_ones_shift,
      Bool.or_assoc,
      ← Bool.decide_and, ← Bool.decide_or]
    congr 1
    exact decide_eq_decide.mpr (by omega)
  · rw [hfi]
    congr 1
    exact decide_eq_decide.mpr (by omega)

theorem getLsbD_hostmask4 (hj : j < 32) : (hostmask4 n).getLsbD j = decide (j < 32 - n) := by
  rw [hostmask4]
  split
  · rw [show 0xffffffff#32 = BitVec.allOnes 32 from rfl, getLsbD_ones_shift]
    exact decide_eq_decide.mpr (by omega)
  · rw [BitVec.getLsbD_zero]
    exact (decide_eq_false (by omega)).symm

theorem getLsbD_netmask4 (hj : j < 32) : (netmask4 n).getLsbD j = decide (32 - n ≤ j) := by
  rw [netmask4, show 0xffffffff#32 = BitVec.allOnes 32 from rfl]
  split
  · rw [BitVec.getLsbD_xor, getLsbD_ones_shift, BitVec.getLsbD_allOnes, decide_eq_true hj, Bool.true_xor,
      ← decide_not]
    exact decide_eq_decide.mpr (by omega)
  · rw [BitVec.getLsbD_allOnes]
    exact decide_eq_decide.mpr (by omega)

/-! ## Masks -/

section Masks

variable {w k : Nat} {net host a b : BitVec w}

theorem and_eq_and_iff (hne : ∀ j < w, net.getLsbD j = decide (k ≤ j)) :
    a &&& net = b &&& net ↔ a.toNat / 2 ^ k = b.toNat / 2 ^ k := by
  rw [div_eq_iff_bits]
  constructor
  · intro h j hk hj
    have hb := congrArg (fun v : BitVec w => v.getLsbD j) h
    simpa only [BitVec.getLsbD_and, hne j hj, hk, decide_true, Bool.and_true] using hb
  · intro h
    refine BitVec.eq_of_getLsbD_eq fun j hj => ?_
    rw [BitVec.getLsbD_and, BitVec.getLsbD_and, hne j hj]
    by_cases hk : k ≤ j
    · rw [h j hk hj]
    · rw [decide_eq_false hk, Bool.and_false, Bool.and_false]

theorem hostmask_eq_not (hne : ∀ j < w, net.getLsbD j = decide (k ≤ j))
    (hh : ∀ j < w, host.getLsbD j = decide (j < k)) :
    host = ~~~net := by
  refine BitVec.eq_of_getLsbD_eq fun j hj => ?_
  rw [BitVec.getLsbD_not, hne j hj, hh j hj, decide_eq_true hj, ← decide_not]
  exact decide_eq_decide.mpr not_le.symm

end Masks

/-! ## Prefixes -/

variable {ip other : IPAddress}

open QHostAddress

theorem mem_hosts_iff_and (h : ip.Valid) (a : QHostAddress) :
    a ∈ ip.hosts ↔ a.and ip.netmask = ip.address.and ip.netmask := by
  obtain ⟨address, n⟩ := ip
  cases address with
  | null => exact absurd rfl h.address
  | ipv4 x =>
    cases a with
    | ipv4 y =>
      have ha := @and_eq_and_iff 32 (32 - n.toNat) (netmask4 n.toNat) y x fun j hj => getLsbD_netmask4 hj
      exact ⟨fun hm => congrArg ipv4 (ha.mpr hm.2), fun heq => ⟨rfl, ha.mp (ipv4.inj heq)⟩⟩
    | null | ipv6 _ => exact iff_of_false (fun hm => nomatch hm.1) fun heq => nomatch heq
  | ipv6 x =>
    have hn : n.toNat ≤ 128 := h.toNat_le
    cases a with
    | ipv6 y =>
      have ha := @and_eq_and_iff 128 (128 - n.toNat) (netmask6 n.toNat) y x fun j hj => getLsbD_netmask6 hn hj
      exact ⟨fun hm => congrArg ipv6 (ha.mpr hm.2), fun heq => ⟨rfl, ha.mp (ipv6.inj heq)⟩⟩
    | null | ipv4 _ => exact iff_of_false (fun hm => nomatch hm.1) fun heq => nomatch heq

theorem hostmask_eq_complement (h : ip.Valid) : ip.hostmask = ip.netmask.complement := by
  obtain ⟨address, n⟩ := ip
  cases address with
  | null => rfl
  | ipv4 x => exact congrArg ipv4 (hostmask_eq_not (fun j hj => getLsbD_netmask4 hj) fun j hj => getLsbD_hostmask4 hj)
  | ipv6 x =>
    have hn : n.toNat ≤ 128 := h.toNat_le
    exact congrArg ipv6 (hostmask_eq_not (fun j hj => getLsbD_netmask6 hn hj) fun j hj => getLsbD_hostmask6 hn hj)

theorem broadcastAddress_eq_or (h : ip.Valid) : ip.broadcastAddress = ip.address.or ip.hostmask := by
  obtain ⟨address, n⟩ := ip
  cases address with
  | null => rfl
  | ipv4 x =>
    have hw : broadcast4 x n.toNat = x ||| hostmask4 n.toNat := by
      rw [broadcast4, hostmask4]
      split
      · rfl
      · rw [BitVec.or_zero]
    exact congrArg ipv4 hw
  | ipv6 x =>
    have hn : n.toNat ≤ 128 := h.toNat_le
    refine congrArg ipv6 (BitVec.eq_of_getLsbD_eq fun j hj => ?_)
    rw [getLsbD_broadcast6 x hn hj, BitVec.getLsbD_or, getLsbD_hostmask6 hn hj]

/-- A shorter prefix has an address that the longer one has not: its own, with the last bit of the longer one flipped.
-/
theorem length_le_of_hosts_subset (h : ip.Valid) (ho : other.Valid) (hs : ip.hosts ⊆ other.hosts) :
    other.prefixLength ≤ ip.prefixLength := by
  have hm := hs ip.address_mem_hosts
  by_contra hlt
  have hnonneg := h.length_nonneg
  have hle := ho.length_le
  have hbi : other.hostBits < ip.hostBits := by
    rw [hostBits, hostBits, hm.1]
    omega
  have hw : ip.hostBits ≤ ip.address.width := Nat.sub_le _ _
  obtain ⟨b, hbw, hbv⟩ := exists_of_value_lt ip.address
    (Nat.xor_lt_two_pow (value_lt ip.address) (Nat.pow_lt_pow_right (by decide) (hbi.trans_le hw)))
  have hb : b ∈ other.hosts := hs ⟨hbw, hbv ▸ flip_mem_block hbi _⟩
  have hbl := hb.2
  rw [hbv, ← block_eq_of_mem hm.2] at hbl
  exact flip_notMem_block _ _ hbl

theorem subnetOf_iff_subset (h : ip.Valid) (ho : other.Valid) :
    ip.subnetOf other = true ↔ ip.hosts ⊆ other.hosts := by
  rw [subnetOf_iff ho]
  constructor
  · rintro ⟨hl, hm⟩
    exact hosts_subset hm.1 hl hm
  · intro hs
    exact ⟨length_le_of_hosts_subset h ho hs, hs ip.address_mem_hosts⟩

/-- **The prefix operations are set operations**, for prefixes of both families, with host bits or without. -/
theorem prefix_operations (h : ip.Valid) (ho : other.Valid) :
    (∀ a, ip.contains a = true ↔ a.and ip.netmask = ip.address.and ip.netmask) ∧
    ip.hosts = {a | a.and ip.netmask = ip.address.and ip.netmask} ∧ ip.hostmask = ip.netmask.complement ∧
    ip.broadcastAddress = ip.address.or ip.hostmask ∧
    (ip.overlaps other = true ↔ (ip.hosts ∩ other.hosts).Nonempty) ∧
    (ip.subnetOf other = true ↔ ip.hosts ⊆ other.hosts) := by
  refine ⟨fun a => ?_, Set.ext (mem_hosts_iff_and h), hostmask_eq_complement h, broadcastAddress_eq_or h, ?_,
    subnetOf_iff_subset h ho⟩
  · rw [contains_iff h, mem_hosts_iff_and h]
  · rw [overlaps_iff h ho, Set.not_disjoint_iff_nonempty_inter]

/-- An IPv4 prefix with host bits, and an IPv6 prefix that ends inside a byte. -/
theorem prefix_operations_mixed :
    let ip : IPAddress := ⟨.ipv4 0x0A010203#32, 9⟩
    let other : IPAddress := ⟨.ipv6 0xfe800000000000000000000000000001#128, 10⟩
    ip.Valid ∧ other.Valid ∧ (ip.overlaps other = true ↔ (ip.hosts ∩ other.hosts).Nonempty) := by
  have hip : IPAddress.Valid ⟨.ipv4 0x0A010203#32, 9⟩ := ⟨by decide, by decide, by decide⟩
  have ho : IPAddress.Valid ⟨.ipv6 0xfe800000000000000000000000000001#128, 10⟩ :=
    ⟨by decide, by decide, by decide⟩
  exact ⟨hip, ho, (prefix_operations hip ho).2.2.2.2.1⟩

end IPAddress

end Cimogus.Daemon
