import Cimogus.Daemon.Config
import Cimogus.Lib.Blocks
import Cimogus.Lib.Octets

/-!
# `IPAddress::excludeAddresses`

The set operations of `IPAddress`: containment by comparing bits, the two halves of a prefix, and the difference of two
lists of prefixes. `excludeAddress` halves a prefix until one half is the excluded prefix, and keeps the other halves.

An IPv6 address is a bit vector here and an array of bytes in the source; `byte` and `orByte` are the accesses to the
array. `none` is a failed assertion, or a loop that has not ended.
-/

namespace Cimogus.Daemon

open Lib.Blocks Lib.Octets

namespace QHostAddress

/-- The bits of the family; `null` has none. -/
def width : QHostAddress → Nat
  | .null => 0
  | .ipv4 _ => 32
  | .ipv6 _ => 128

def value : QHostAddress → Nat
  | .null => 0
  | .ipv4 a => a.toNat
  | .ipv6 a => a.toNat

theorem width_le : ∀ a : QHostAddress, a.width ≤ 128
  | .null => Nat.zero_le _
  | .ipv4 _ => show 32 ≤ 128 by decide
  | .ipv6 _ => Nat.le_refl _

theorem value_lt : ∀ a : QHostAddress, a.value < 2 ^ a.width
  | .null => by decide
  | .ipv4 a => a.isLt
  | .ipv6 a => a.isLt

theorem eq_of_value {a b : QHostAddress} (hw : a.width = b.width) (hv : a.value = b.value) : a = b := by
  cases a with
  | null =>
    cases b with
    | null => rfl
    | ipv4 _ | ipv6 _ => cases hw
  | ipv4 x =>
    cases b with
    | ipv4 y => rw [BitVec.eq_of_toNat_eq (show x.toNat = y.toNat from hv)]
    | null | ipv6 _ => cases hw
  | ipv6 x =>
    cases b with
    | ipv6 y => rw [BitVec.eq_of_toNat_eq (show x.toNat = y.toNat from hv)]
    | null | ipv4 _ => cases hw

end QHostAddress

/-- `Q_IPV6ADDR::operator[]`. -/
def byte (a : BitVec 128) (i : Nat) : BitVec 8 := a.extractLsb' (8 * (15 - i)) 8

/-- `rawAddress[i] |= b`. -/
def orByte (a : BitVec 128) (i : Nat) (b : BitVec 8) : BitVec 128 := a ||| (b.zeroExtend 128 <<< (8 * (15 - i)))

/-- `memcmp(&a, &b, bytes) == 0`. -/
def sameBytes (a b : BitVec 128) (bytes : Nat) : Bool := (List.range bytes).all fun i => byte a i == byte b i

namespace IPAddress

/-- The comparison of `contains` for IPv6. -/
def sameNetwork6 (length : Nat) (a b : BitVec 128) : Bool :=
  let bytes := length / 8
  if 0 < bytes ∧ sameBytes a b bytes = false then false
  else if length % 8 ≠ 0 then (byte a bytes ^^^ byte b bytes) >>> (8 - length % 8) == 0#8
  else true

/-- The comparison of `contains` for IPv4. -/
def sameNetwork4 (length : Nat) (a b : BitVec 32) : Bool :=
  let diff := a ^^^ b
  (if length < 32 then diff >>> (32 - length) else diff) == 0#32

def contains (ip : IPAddress) (address : QHostAddress) : Bool :=
  if address.width ≠ ip.address.width then false
  else if ip.prefixLength = 0 then true
  else
    match ip.address, address with
    | .ipv6 a, .ipv6 b => sameNetwork6 ip.prefixLength.toNat a b
    | .ipv4 a, .ipv4 b => sameNetwork4 ip.prefixLength.toNat a b
    | _, _ => false

def overlaps (ip other : IPAddress) : Bool :=
  if ip.prefixLength < other.prefixLength then ip.contains other.address else other.contains ip.address

def subnetOf (ip other : IPAddress) : Bool :=
  if other.address.width ≠ ip.address.width then false
  else if ip.prefixLength < other.prefixLength then false
  else other.contains ip.address

/-- The two halves; an address alone is its own subnet. What is no IPv4 address is taken for IPv6. -/
def subnets (ip : IPAddress) : List IPAddress :=
  match ip.address with
  | .ipv4 a =>
    if 32 ≤ ip.prefixLength then [ip]
    else [⟨.ipv4 a, ip.prefixLength + 1⟩,
      ⟨.ipv4 (a ||| (0x80000000#32 >>> ip.prefixLength.toNat)), ip.prefixLength + 1⟩]
  | .ipv6 a => ipv6Subnets a
  | .null => ipv6Subnets 0
where
  ipv6Subnets (a : BitVec 128) : List IPAddress :=
    if 128 ≤ ip.prefixLength then [ip]
    else
      let length := ip.prefixLength.toNat
      [⟨.ipv6 a, ip.prefixLength + 1⟩,
        ⟨.ipv6 (orByte a (length / 8) (0x80#8 >>> (length % 8))), ip.prefixLength + 1⟩]

/-- The loop of `excludeAddresses(ip)`: the half that holds `ip` is halved again, the other one is kept. -/
def excludeLoop (ip : IPAddress) : Nat → List IPAddress → List IPAddress → Option (List IPAddress)
  | fuel + 1, [lower, upper], result =>
    if lower ≠ ip ∧ upper ≠ ip then
      if ip.subnetOf lower then excludeLoop ip fuel lower.subnets (result ++ [upper])
      else if ip.subnetOf upper then excludeLoop ip fuel upper.subnets (result ++ [lower])
      else none
    else if lower = ip then some (result ++ [upper])
    else some (result ++ [lower])
  | _, _, _ => none

/-- `excludeAddresses(const IPAddress&)`; a prefix is halved at most 128 times. -/
def excludeAddress (self ip : IPAddress) : Option (List IPAddress) := excludeLoop ip 128 self.subnets []

/-- What the body of the loop over `results` appends for one prefix. -/
def left (exclude ip : IPAddress) : Option (List IPAddress) :=
  if !ip.overlaps exclude then some [ip]
  else if exclude.subnetOf ip ∧ exclude ≠ ip then ip.excludeAddress exclude
  else some []

/-- The loop over `results`. -/
def exclude (exclude : IPAddress) : List IPAddress → Option (List IPAddress)
  | [] => some []
  | ip :: results => do
    let new ← left exclude ip
    return new ++ (← IPAddress.exclude exclude results)

def excludeAddresses (sourceList excludeList : List IPAddress) : Option (List IPAddress) :=
  excludeList.foldlM (fun results exclude => IPAddress.exclude exclude results) sourceList

/-! ## Prefixes as blocks -/

def hostBits (ip : IPAddress) : Nat := ip.address.width - ip.prefixLength.toNat

def hosts (ip : IPAddress) : Set QHostAddress :=
  {a | a.width = ip.address.width ∧ a.value ∈ block ip.hostBits ip.address.value}

structure Valid (ip : IPAddress) : Prop where
  address : ip.address ≠ .null
  length_nonneg : 0 ≤ ip.prefixLength
  length_le : ip.prefixLength ≤ ip.address.width

/-- An address with a length of its family and no host bits. -/
structure Canonical (ip : IPAddress) : Prop where
  address : ip.address ≠ .null
  length_nonneg : 0 ≤ ip.prefixLength
  length_le : ip.prefixLength ≤ ip.address.width
  dvd : 2 ^ ip.hostBits ∣ ip.address.value

variable {ip other : IPAddress}

theorem Valid.toNat_le (h : ip.Valid) : ip.prefixLength.toNat ≤ ip.address.width := Int.toNat_le.mpr h.length_le

theorem Canonical.valid (h : ip.Canonical) : ip.Valid := ⟨h.address, h.length_nonneg, h.length_le⟩

theorem byte_eq_octet (a : BitVec 128) (i : Nat) : byte a i = octet a i := by
  rw [byte, octet, show 8 * (15 - i) = 128 - 8 * (i + 1) by omega]

theorem sameBytes_iff {a b : BitVec 128} {bytes : Nat} :
    sameBytes a b bytes = true ↔ ∀ i < bytes, octet a i = octet b i := by
  simp only [sameBytes, List.all_eq_true, List.mem_range, beq_iff_eq, byte_eq_octet]

variable {n : Nat}

theorem sameNetwork4_iff {a b : BitVec 32} (hn : n ≤ 32) :
    sameNetwork4 n a b = true ↔ a.toNat / 2 ^ (32 - n) = b.toNat / 2 ^ (32 - n) := by
  rw [sameNetwork4, beq_iff_eq]
  split
  · exact xor_shift_eq_zero_iff a b _
  · rw [show 32 - n = 0 by omega, ← xor_shift_eq_zero_iff, BitVec.ushiftRight_zero]

theorem sameNetwork6_iff {a b : BitVec 128} (hn : n ≤ 128) :
    sameNetwork6 n a b = true ↔ a.toNat / 2 ^ (128 - n) = b.toNat / 2 ^ (128 - n) := by
  have hlast : (byte a (n / 8) ^^^ byte b (n / 8)) >>> (8 - n % 8) = 0#8 ↔
      octet a (n / 8) >>> (8 - n % 8) = octet b (n / 8) >>> (8 - n % 8) := by
    rw [byte_eq_octet, byte_eq_octet, xor_shift_eq_zero_iff, shift_eq_iff]
  rw [← prefix_eq_iff (by decide) hn, ← sameBytes_iff, ← hlast, sameNetwork6]
  split
  · -- the bytes before the last one differ
    rename_i hd
    exact iff_of_false Bool.false_ne_true fun h => Bool.false_ne_true (hd.2.symm.trans h.1)
  · rename_i hs
    have hs : sameBytes a b (n / 8) = true := by
      rcases Nat.eq_zero_or_pos (n / 8) with h0 | hp
      · rw [h0]
        rfl
      · exact Bool.of_not_eq_false fun hne => hs ⟨hp, hne⟩
    split
    · rename_i hrest
      rw [beq_iff_eq]
      exact ⟨fun h => ⟨hs, fun _ => h⟩, fun h => h.2 hrest⟩
    · rename_i hrest
      exact iff_of_true rfl ⟨hs, fun h => absurd h hrest⟩

theorem contains_iff (h : ip.Valid) (a : QHostAddress) : ip.contains a = true ↔ a ∈ ip.hosts := by
  obtain ⟨address, n⟩ := ip
  have hle := h.length_le
  simp only [contains]
  split
  · rename_i hw
    exact iff_of_false Bool.false_ne_true fun ha => hw ha.1
  rename_i hw
  have hw : a.width = address.width := not_not.mp hw
  split
  · -- every address of the family
    rename_i h0
    refine iff_of_true rfl ⟨hw, ?_⟩
    rw [mem_block, hostBits, h0, Int.toNat_zero, Nat.sub_zero, Nat.div_eq_of_lt (QHostAddress.value_lt address),
      Nat.div_eq_of_lt (hw ▸ QHostAddress.value_lt a)]
  · cases address with
    | null => exact absurd rfl h.address
    | ipv4 x =>
      cases a with
      | ipv4 y =>
        refine (sameNetwork4_iff (Int.toNat_le.mpr hle)).trans ?_
        exact ⟨fun he => ⟨rfl, he.symm⟩, fun he => he.2.symm⟩
      | null | ipv6 _ => cases hw
    | ipv6 x =>
      cases a with
      | ipv6 y =>
        refine (sameNetwork6_iff (Int.toNat_le.mpr hle)).trans ?_
        exact ⟨fun he => ⟨rfl, he.symm⟩, fun he => he.2.symm⟩
      | null | ipv4 _ => cases hw

/-! ## Nested or disjoint -/

theorem address_mem_hosts (ip : IPAddress) : ip.address ∈ ip.hosts := ⟨rfl, self_mem_block _ _⟩

theorem hosts_subset (hw : other.address.width = ip.address.width) (hl : ip.prefixLength ≤ other.prefixLength)
    (hm : other.address ∈ ip.hosts) : other.hosts ⊆ ip.hosts := by
  have hb : other.hostBits ≤ ip.hostBits := by
    rw [hostBits, hostBits]
    omega
  exact fun a ha => ⟨ha.1.trans hw, block_subset hb hm.2 ha.2⟩

theorem disjoint_hosts (hl : ip.prefixLength ≤ other.prefixLength) (hm : other.address ∉ ip.hosts) :
    Disjoint other.hosts ip.hosts := by
  rw [Set.disjoint_left]
  intro a ha ha'
  have hw : other.address.width = ip.address.width := ha.1.symm.trans ha'.1
  have hb : other.hostBits ≤ ip.hostBits := by
    rw [hostBits, hostBits]
    omega
  exact Set.disjoint_left.mp (disjoint_block hb fun h => hm ⟨hw, h⟩) ha.2 ha'.2

theorem overlaps_iff (h : ip.Valid) (ho : other.Valid) :
    ip.overlaps other = true ↔ ¬Disjoint ip.hosts other.hosts := by
  rw [overlaps]
  split
  · rename_i hlt
    rw [contains_iff h]
    constructor
    · exact fun hm hd => Set.disjoint_left.mp hd hm other.address_mem_hosts
    · intro hd
      by_contra hm
      exact hd (disjoint_hosts hlt.le hm).symm
  · rename_i hge
    rw [contains_iff ho]
    constructor
    · exact fun hm hd => Set.disjoint_left.mp hd ip.address_mem_hosts hm
    · intro hd
      by_contra hm
      exact hd (disjoint_hosts (not_lt.mp hge) hm)

theorem subnetOf_iff (h : ip.Valid) :
    other.subnetOf ip = true ↔ ip.prefixLength ≤ other.prefixLength ∧ other.address ∈ ip.hosts := by
  rw [subnetOf]
  split
  · rename_i hw
    exact iff_of_false Bool.false_ne_true fun hm => hw hm.2.1.symm
  · split
    · rename_i hlt
      exact iff_of_false Bool.false_ne_true fun hm => absurd hm.1 (not_le.mpr hlt)
    · rename_i hge
      rw [contains_iff h]
      exact ⟨fun hm => ⟨not_lt.mp hge, hm⟩, fun hm => hm.2⟩

/-! ## Halves -/

theorem or_half {k v : Nat} (hv : 2 ^ (k + 1) ∣ v) : v ||| 2 ^ k = v + 2 ^ k := by
  obtain ⟨q, rfl⟩ := hv
  exact (Nat.two_pow_add_eq_or_of_lt (Nat.pow_lt_pow_right (by decide) (Nat.lt_succ_self k)) q).symm

theorem toNat_upper4 (hn : n < 32) : (0x80000000#32 >>> n).toNat = 2 ^ (31 - n) := by
  rw [BitVec.toNat_ushiftRight, Nat.shiftRight_eq_div_pow, show (0x80000000#32).toNat = 2 ^ 31 by decide,
    Nat.pow_div (by omega) (by decide)]

theorem toNat_orByte {a : BitVec 128} (hn : n < 128) :
    (orByte a (n / 8) (0x80#8 >>> (n % 8))).toNat = a.toNat ||| 2 ^ (127 - n) := by
  have hb : (0x80#8 >>> (n % 8)).toNat = 2 ^ (7 - n % 8) := by
    rw [BitVec.toNat_ushiftRight, Nat.shiftRight_eq_div_pow, show (0x80#8).toNat = 2 ^ 7 by decide,
      Nat.pow_div (by omega) (by decide)]
  have hlt : 2 ^ (7 - n % 8) < 2 ^ 128 := Nat.pow_lt_pow_right (by decide) (by omega)
  have hl' : 2 ^ (127 - n) < 2 ^ 128 := Nat.pow_lt_pow_right (by decide) (by omega)
  rw [orByte, BitVec.toNat_or, BitVec.toNat_shiftLeft, BitVec.toNat_setWidth, hb, Nat.mod_eq_of_lt hlt,
    Nat.shiftLeft_eq,
    ← pow_add, show 7 - n % 8 + 8 * (15 - n / 8) = 127 - n by omega, Nat.mod_eq_of_lt hl']

/-- Two canonical prefixes, one bit longer, that split a prefix. -/
structure Halves (ip lower upper : IPAddress) : Prop where
  canonical_lower : lower.Canonical
  canonical_upper : upper.Canonical
  length_lower : lower.prefixLength = ip.prefixLength + 1
  length_upper : upper.prefixLength = ip.prefixLength + 1
  cover : ip.hosts = lower.hosts ∪ upper.hosts
  disjoint : Disjoint lower.hosts upper.hosts

theorem halves_of_value {a : QHostAddress} {n : Int} {b : QHostAddress} (h : Canonical ⟨a, n⟩) (hlt : n < a.width)
    (hw : b.width = a.width) (hv : b.value = a.value ||| 2 ^ (a.width - 1 - n.toNat)) :
    Halves ⟨a, n⟩ ⟨a, n + 1⟩ ⟨b, n + 1⟩ := by
  have hn : 0 ≤ n := h.length_nonneg
  have hbi : hostBits ⟨a, n⟩ = a.width - 1 - n.toNat + 1 := by
    simp only [hostBits]
    omega
  have hb' : ∀ c : QHostAddress, c.width = a.width → hostBits ⟨c, n + 1⟩ = a.width - 1 - n.toNat := by
    intro c hc
    simp only [hostBits, hc]
    omega
  have hd := h.dvd
  rw [hbi] at hd
  rw [or_half hd] at hv
  have hd' : 2 ^ (a.width - 1 - n.toNat) ∣ a.value := (pow_dvd_pow 2 (Nat.le_succ _)).trans hd
  refine ⟨⟨h.address, by simp only; omega, by simp only; omega, ?_⟩, ⟨?_, by simp only; omega, ?_, ?_⟩, rfl,
    rfl, ?_, ?_⟩
  · rwa [hb' a rfl]
  · intro hb
    have hnu : b = .null := hb
    rw [hnu] at hw
    have : a.width = 0 := hw.symm
    omega
  · show n + 1 ≤ b.width
    omega
  · rw [hb' b hw]
    rw [hv]
    exact Nat.dvd_add hd' (Nat.dvd_refl _)
  · ext c
    simp only [hosts, Set.mem_union, Set.mem_ofPred_eq]
    rw [hbi, hb' a rfl, hb' b hw, hv, hw, block_succ hd]
    exact and_or_left
  · rw [Set.disjoint_left]
    intro c hc hc'
    have hc₁ := hc.2
    have hc₂ := hc'.2
    rw [hb' a rfl] at hc₁
    rw [hb' b hw, hv] at hc₂
    exact Set.disjoint_left.mp (disjoint_halves hd') hc₁ hc₂

theorem subnets_halves (h : ip.Canonical) (hlt : ip.prefixLength < ip.address.width) :
    ∃ lower upper, ip.subnets = [lower, upper] ∧ Halves ip lower upper := by
  obtain ⟨address, n⟩ := ip
  cases address with
  | null => exact absurd rfl h.address
  | ipv4 a =>
    have hlt : n < 32 := hlt
    have hna : n.toNat < 32 := by omega
    refine ⟨_, _, if_neg (not_le.mpr hlt), halves_of_value h hlt rfl ?_⟩
    show (a ||| _).toNat = _
    rw [BitVec.toNat_or, toNat_upper4 hna]
    rfl
  | ipv6 a =>
    have hlt : n < 128 := hlt
    have hna : n.toNat < 128 := by omega
    refine ⟨_, _, if_neg (not_le.mpr hlt), halves_of_value h hlt rfl ?_⟩
    exact toNat_orByte hna

/-! ## The difference of two prefixes -/

theorem Canonical.eq_of_mem (h : ip.Canonical) (ho : other.Canonical) (hl : other.prefixLength = ip.prefixLength)
    (hm : other.address ∈ ip.hosts) : other = ip := by
  obtain ⟨a, n⟩ := ip
  obtain ⟨b, m⟩ := other
  obtain rfl : m = n := hl
  have hw : b.width = a.width := hm.1
  have hd := h.dvd
  have hd' := ho.dvd
  have hin := hm.2
  have hb : a.value ∈ block (hostBits ⟨a, m⟩) b.value := (mem_block.mp hin).symm
  rw [show hostBits ⟨b, m⟩ = hostBits ⟨a, m⟩ by simp only [hostBits, hw]] at hd'
  rw [mem_block_of_dvd hd] at hin
  rw [mem_block_of_dvd hd'] at hb
  rw [QHostAddress.eq_of_value hw (le_antisymm hb.1 hin.1)]

/-- Canonical prefixes that split a set of addresses. -/
structure Splits (l : List IPAddress) (s : Set QHostAddress) : Prop where
  canonical : ∀ ip ∈ l, ip.Canonical
  mem_iff : ∀ a, (∃ ip ∈ l, a ∈ ip.hosts) ↔ a ∈ s
  disjoint : l.Pairwise fun ip other => Disjoint ip.hosts other.hosts

theorem Splits.nil : Splits [] ∅ := ⟨by simp, by simp, List.Pairwise.nil⟩

theorem Splits.cons {l : List IPAddress} {s : Set QHostAddress} (h : ip.Canonical) (hs : Splits l s)
    (hd : Disjoint ip.hosts s) : Splits (ip :: l) (ip.hosts ∪ s) := by
  refine ⟨?_, fun a => ?_, List.pairwise_cons.mpr ⟨fun other ho => ?_, hs.disjoint⟩⟩
  · intro other ho
    rcases List.mem_cons.mp ho with rfl | ho
    · exact h
    · exact hs.canonical other ho
  · simp only [List.mem_cons, exists_eq_or_imp, hs.mem_iff, Set.mem_union]
  · exact hd.mono_right fun a ha => (hs.mem_iff a).mp ⟨other, ho, ha⟩

theorem Splits.single (h : ip.Canonical) : Splits [ip] ip.hosts := by
  have hs := Splits.nil.cons h (Set.disjoint_empty _)
  rwa [Set.union_empty] at hs

theorem union_diff_of_subset {α : Type} {s t u : Set α} (hd : Disjoint s t) (hu : u ⊆ s) :
    (s ∪ t) \ u = t ∪ (s \ u) := by
  ext a
  constructor
  · rintro ⟨ha | ha, hau⟩
    · exact .inr ⟨ha, hau⟩
    · exact .inl ha
  · rintro (ha | ⟨ha, hau⟩)
    · exact ⟨.inr ha, fun hau => Set.disjoint_left.mp hd (hu hau) ha⟩
    · exact ⟨.inl ha, hau⟩

section Halves

variable {half kept : IPAddress}

variable (h : Halves ip half kept)

include h

theorem Halves.symm : Halves ip kept half where
  canonical_lower := h.canonical_upper
  canonical_upper := h.canonical_lower
  length_lower := h.length_upper
  length_upper := h.length_lower
  cover := h.cover.trans (Set.union_comm _ _)
  disjoint := h.disjoint.symm

theorem Halves.ne : half ≠ kept := by
  rintro rfl
  exact Set.disjoint_left.mp h.disjoint half.address_mem_hosts half.address_mem_hosts

/-- Without one half there is the other one. -/
theorem Halves.splits_single : Splits [kept] (ip.hosts \ half.hosts) := by
  rw [h.cover, Set.union_sdiff_left, h.disjoint.symm.sdiff_eq_left]
  exact .single h.canonical_upper

/-- What is left of one half, with the other one. -/
theorem Halves.splits_cons {l : List IPAddress} (hs : other.hosts ⊆ half.hosts)
    (hl : Splits l (half.hosts \ other.hosts)) : Splits (kept :: l) (ip.hosts \ other.hosts) := by
  rw [h.cover, union_diff_of_subset h.disjoint hs]
  exact hl.cons h.canonical_upper (h.disjoint.symm.mono_right Set.sdiff_subset)

end Halves

/-- The loop ends, and the halves kept split what is left of the prefix; `d` is how many times it halves again. -/
theorem excludeLoop_spec (hip : ip.Canonical) :
    ∀ (d fuel : Nat) {p : IPAddress} (result : List IPAddress), d < fuel →
    p.Canonical → p.prefixLength + d + 1 = ip.prefixLength → ip.address ∈ p.hosts →
    ∃ kept, excludeLoop ip fuel p.subnets result = some (result ++ kept) ∧ Splits kept (p.hosts \ ip.hosts)
  | d, 0, p, result, hfu, _, _, _ => absurd hfu (Nat.not_lt_zero d)
  | d, fuel + 1, p, result, hfu, hp, hlen, hm => by
    have hw := hip.length_le
    rw [hm.1] at hw
    obtain ⟨lower, upper, hsu, hh⟩ := subnets_halves hp (by omega)
    have hl := hh.length_lower
    have hu := hh.length_upper
    have hsi := hm
    rw [hh.cover] at hsi
    rw [hsu, excludeLoop]
    cases d with
    | zero =>
      -- the excluded prefix is one of the halves
      rcases hsi with hs | hs
      · obtain rfl := hh.canonical_lower.eq_of_mem hip (by omega) hs
        exact ⟨[upper], by simp, hh.splits_single⟩
      · obtain rfl := hh.canonical_upper.eq_of_mem hip (by omega) hs
        exact ⟨[lower], by simp [hh.ne], hh.symm.splits_single⟩
    | succ d =>
      have hln : lower ≠ ip := fun he => by rw [he] at hl; omega
      have hun : upper ≠ ip := fun he => by rw [he] at hu; omega
      rw [if_pos ⟨hln, hun⟩]
      have hlo := @subnetOf_iff lower ip hh.canonical_lower.valid
      have hupp := @subnetOf_iff upper ip hh.canonical_upper.valid
      rcases hsi with hs | hs
      · obtain ⟨kept, hk, hsp⟩ := excludeLoop_spec hip d fuel (result ++ [upper]) (by omega) hh.canonical_lower
          (by omega) hs
        refine ⟨upper :: kept, ?_, hh.splits_cons (hosts_subset hs.1 (by omega) hs) hsp⟩
        rw [if_pos (hlo.mpr ⟨by omega, hs⟩), hk, List.append_assoc]
        rfl
      · have hno : ¬ip.subnetOf lower = true := fun h =>
          Set.disjoint_left.mp hh.disjoint (hlo.mp h).2 hs
        obtain ⟨kept, hk, hsp⟩ := excludeLoop_spec hip d fuel (result ++ [lower]) (by omega) hh.canonical_upper
          (by omega) hs
        refine ⟨lower :: kept, ?_, hh.symm.splits_cons (hosts_subset hs.1 (by omega) hs) hsp⟩
        rw [if_neg hno, if_pos (hupp.mpr ⟨by omega, hs⟩), hk, List.append_assoc]
        rfl

/-! ## The difference of two lists -/

theorem left_spec {e : IPAddress} (he : e.Canonical) (h : ip.Canonical) :
    ∃ new, left e ip = some new ∧ Splits new (ip.hosts \ e.hosts) := by
  have hov := overlaps_iff h.valid he.valid
  have hs := @subnetOf_iff ip e h.valid
  rw [left]
  by_cases hd : Disjoint ip.hosts e.hosts
  · refine ⟨[ip], if_pos ?_, ?_⟩
    · rw [Bool.not_eq_true', Bool.eq_false_iff]
      exact fun ho => hov.mp ho hd
    · rw [hd.sdiff_eq_left]
      exact .single h
  have ho := hov.mpr hd
  rw [if_neg (by simp [ho])]
  by_cases hi : e.subnetOf ip = true ∧ e ≠ ip
  · obtain ⟨hl, hm⟩ := hs.mp hi.1
    have hlt : ip.prefixLength < e.prefixLength :=
      lt_of_le_of_ne hl fun heq => hi.2 (h.eq_of_mem he heq.symm hm)
    have hp := h.length_nonneg
    have hw := he.length_le
    have hb := e.address.width_le
    obtain ⟨kept, hk, hsp⟩ := excludeLoop_spec he (e.prefixLength - ip.prefixLength - 1).toNat 128 [] (by omega) h
      (by omega) hm
    exact ⟨kept, by rw [if_pos hi]; exact hk, hsp⟩
  · refine ⟨[], if_neg hi, ?_⟩
    have hsu : ip.hosts ⊆ e.hosts := by
      by_cases hsa : e = ip
      · rw [hsa]
      · have hno : ¬e.subnetOf ip = true := fun hsu => hi ⟨hsu, hsa⟩
        rw [overlaps] at ho
        split at ho
        · rename_i hlt
          exact absurd (hs.mpr ⟨hlt.le, (contains_iff h.valid _).mp ho⟩) hno
        · rename_i hge
          have hm := (contains_iff he.valid _).mp ho
          exact hosts_subset hm.1 (not_lt.mp hge) hm
    rw [Set.sdiff_eq_empty.mpr hsu]
    exact .nil

/-- The pass for one excluded prefix. -/
theorem exclude_spec {e : IPAddress} (he : e.Canonical) :
    ∀ {results : List IPAddress}, (∀ ip ∈ results, ip.Canonical) →
    ∃ new, exclude e results = some new ∧ (∀ ip ∈ new, ip.Canonical) ∧
      (∀ a, (∃ ip ∈ new, a ∈ ip.hosts) ↔ (∃ ip ∈ results, a ∈ ip.hosts) ∧ a ∉ e.hosts) ∧
      (results.Pairwise (fun ip other => Disjoint ip.hosts other.hosts) →
        new.Pairwise fun ip other => Disjoint ip.hosts other.hosts)
  | [], _ => ⟨[], rfl, by simp, by simp, id⟩
  | ip :: results, h => by
    obtain ⟨new, hnew, hs⟩ := left_spec he (h ip List.mem_cons_self)
    obtain ⟨rest, hrest, hc, hm, hpa⟩ := exclude_spec he fun p hp => h p (List.mem_cons_of_mem _ hp)
    refine ⟨new ++ rest, by rw [exclude, hnew, hrest]; rfl, ?_, fun a => ?_, fun hd => ?_⟩
    · intro p hp
      rcases List.mem_append.mp hp with hp | hp
      · exact hs.canonical p hp
      · exact hc p hp
    · simp only [List.mem_append, or_and_right, exists_or, hs.mem_iff, hm, List.mem_cons, exists_eq_left,
        Set.mem_sdiff]
    · obtain ⟨hfi, hl⟩ := List.pairwise_cons.mp hd
      refine List.pairwise_append.mpr ⟨hs.disjoint, hpa hl, fun p hp q hq => ?_⟩
      -- a piece of the first prefix and a piece of a later one
      rw [Set.disjoint_left]
      intro a ha ha'
      have ha₁ := ((hs.mem_iff a).mp ⟨p, hp, ha⟩).1
      obtain ⟨⟨other, ho, ha₂⟩, _⟩ := (hm a).mp ⟨q, hq, ha'⟩
      exact Set.disjoint_left.mp (hfi other ho) ha₁ ha₂

/-- **Exclusion of prefixes.** For canonical prefixes `excludeAddresses` ends, and its prefixes are canonical, cover the
addresses of the source list that no excluded prefix has, and are disjoint if those of the source list are. -/
theorem excludeAddresses_exact (sourceList excludeList : List IPAddress) (hsource : ∀ ip ∈ sourceList, ip.Canonical)
    (hexclude : ∀ ip ∈ excludeList, ip.Canonical) :
      ∃ result, excludeAddresses sourceList excludeList = some result ∧
      (∀ a, (∃ ip ∈ result, a ∈ ip.hosts) ↔ (∃ ip ∈ sourceList, a ∈ ip.hosts) ∧
        ∀ ip ∈ excludeList, a ∉ ip.hosts) ∧
      (∀ ip ∈ result, ip.Canonical) ∧ (sourceList.Pairwise (fun ip other => Disjoint ip.hosts other.hosts) →
        result.Pairwise fun ip other => Disjoint ip.hosts other.hosts) := by
  induction excludeList generalizing sourceList with
  | nil => exact ⟨sourceList, rfl, by simp, hsource, id⟩
  | cons e excludeList ih =>
    obtain ⟨new, hnew, hc, hm, hp⟩ := exclude_spec (hexclude e List.mem_cons_self) hsource
    obtain ⟨result, hres, hco, hr, hre⟩ :=
      ih new hc fun ip hip => hexclude ip (List.mem_cons_of_mem _ hip)
    refine ⟨result, ?_, fun a => ?_, hr, fun hd => hre (hp hd)⟩
    · rw [excludeAddresses, List.foldlM_cons, hnew]
      exact hres
    · rw [hco, hm, List.forall_mem_cons, and_assoc]

/-- `0.0.0.0/0` without `10.0.0.0/8`, with `::/0` beside them. -/
theorem excludeAddresses_exact_private :
    (∃ result, excludeAddresses [⟨.ipv4 0, 0⟩, ⟨.ipv6 0, 0⟩] [⟨.ipv4 0x0a000000, 8⟩] = some result ∧
      ∀ ip ∈ result, ip.Canonical) := by
  have hs : ∀ ip ∈ [(⟨.ipv4 0, 0⟩ : IPAddress), ⟨.ipv6 0, 0⟩], ip.Canonical := by
    intro ip hip
    simp only [List.mem_cons, List.not_mem_nil, or_false] at hip
    rcases hip with rfl | rfl <;> exact ⟨by decide, by decide, by decide, Nat.dvd_zero _⟩
  have he : ∀ ip ∈ [(⟨.ipv4 0x0a000000, 8⟩ : IPAddress)], ip.Canonical := by
    intro ip hip
    rw [List.mem_singleton.mp hip]
    exact ⟨by decide, by decide, by decide, by decide⟩
  obtain ⟨result, hr, _, hc, _⟩ := excludeAddresses_exact _ _ hs he
  exact ⟨result, hr, hc⟩

end IPAddress

end Cimogus.Daemon
