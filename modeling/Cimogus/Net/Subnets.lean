import Cimogus.Net.IpRangeSet

/-!
# Ranges and networks

The two directions between `IpRange` and `InetNetwork`: the constructor `IpRange(inetNetwork)` and `subnets`, which
splits a range into CIDR blocks.
-/

namespace Cimogus.Net

open Lib.Bytes List
open IpAddress (Adj)

/-! ## Networks -/

namespace InetNetwork

def ip (n : InetNetwork) : IpAddress := .ofInetAddress n.address

/-- The bits below the prefix; a mask longer than the address leaves none. -/
def hostBits (n : InetNetwork) : Nat := n.ip.maxMask - n.mask

/-- `a` is of the network's family and shares its prefix. -/
def Contains (n : InetNetwork) (a : IpAddress) : Prop :=
  a.size = n.ip.size ∧ a.toNat / 2 ^ n.hostBits = n.ip.toNat / 2 ^ n.hostBits

instance (n : InetNetwork) (a : IpAddress) : Decidable (n.Contains a) := inferInstanceAs (Decidable (_ ∧ _))

/-- `InetNetwork(address: String, mask)`; unknown hosts throw. -/
def ofText (address : List Char) (mask : Nat) : Except String InetNetwork :=
  match parseInetAddress address with
  | some a => .ok ⟨a, mask⟩
  | none => .error (String.ofList address)

end InetNetwork

/-! ## The range of a network -/

/-- `UByteArray.fill`. -/
def fill (bs : List UInt8) (v : UInt8) (fromByte : Nat) : List UInt8 :=
  bs.take fromByte ++ List.replicate (bs.length - fromByte) v

theorem length_fill (bs : List UInt8) (v : UInt8) (i : Nat) : (fill bs v i).length = bs.length := by
  simp [fill]; omega

theorem fill_modify (f : UInt8 → UInt8) (v : UInt8) (as : List UInt8) (b : UInt8) (cs : List UInt8) :
    fill ((as ++ b :: cs).modify as.length f) v (as.length + 1) = as ++ f b :: List.replicate cs.length v := by
  have hm : (as ++ b :: cs).modify as.length f = as ++ f b :: cs := by
    induction as with
    | nil => rfl
    | cons a as ih => simp [modify_succ_cons, ih]
  have hl : (as ++ f b :: cs).length - (as.length + 1) = cs.length := by
    rw [length_append, length_cons]; omega
  rw [hm, fill, hl, take_append]
  simp

variable (n : InetNetwork) {block : IpAddress × Nat}

namespace IpRange

/-- The bytes that `from` computes: byte `mask / 8` is changed by `f` and the bytes after it are filled. -/
def fromBytes (f : UInt8 → UInt8) (v : UInt8) (mask : Nat) (bs : List UInt8) : List UInt8 :=
  let lastByte := mask / 8
  if lastByte < bs.length then fill (bs.modify lastByte f) v (lastByte + 1) else bs

theorem length_fromBytes (f : UInt8 → UInt8) (v : UInt8) (mask : Nat) (bs : List UInt8) :
    (fromBytes f v mask bs).length = bs.length := by
  unfold fromBytes
  simp only
  split
  · rw [length_fill, length_modify]
  · rfl

/-- `from`: the first and the last address of a network. -/
def fromStart (n : InetNetwork) : IpAddress :=
  ⟨fromBytes (keepHigh (8 - n.mask % 8)) 0 n.mask n.ip.address, by rw [length_fromBytes]; exact n.ip.size_eq⟩

@[inherit_doc fromStart] def fromEnd (n : InetNetwork) : IpAddress :=
  ⟨fromBytes (setLow (8 - n.mask % 8)) 0xff n.mask n.ip.address, by rw [length_fromBytes]; exact n.ip.size_eq⟩

/-- `IpRange(inetNetwork)`. -/
def fromNetwork (n : InetNetwork) : Except String IpRange := init (fromStart n) (fromEnd n)

theorem size_fromStart : (fromStart n).size = n.ip.size := length_fromBytes ..

theorem size_fromEnd : (fromEnd n).size = n.ip.size := length_fromBytes ..

open IpAddress InetNetwork

theorem split_at_mask (h : n.mask / 8 < n.ip.address.length) :
    ∃ as b cs, n.ip.address = as ++ b :: cs ∧ as.length = n.mask / 8 ∧
      8 * cs.length + (8 - n.mask % 8) = n.hostBits := by
  refine ⟨n.ip.address.take (n.mask / 8), n.ip.address[n.mask / 8], n.ip.address.drop (n.mask / 8 + 1), ?_, ?_, ?_⟩
  · rw [getElem_cons_drop, take_append_drop]
  · rw [length_take]; omega
  · rw [length_drop, hostBits, maxMask, size]; omega

theorem toNat_fromStart : (fromStart n).toNat = n.ip.toNat / 2 ^ n.hostBits * 2 ^ n.hostBits := by
  show value (fromBytes _ _ _ _) = _
  unfold fromBytes
  simp only
  split
  · rename_i h
    obtain ⟨as, b, cs, hbs, has, hb⟩ := split_at_mask n h
    rw [← hb, ← has, hbs, fill_modify, value_keepHigh (by omega), ← hbs]
    rfl
  · have : n.hostBits = 0 := by rw [hostBits, maxMask, size]; omega
    rw [this, pow_zero, Nat.div_one, Nat.mul_one]
    rfl

theorem toNat_fromEnd : (fromEnd n).toNat + 1 = n.ip.toNat / 2 ^ n.hostBits * 2 ^ n.hostBits + 2 ^ n.hostBits := by
  show value (fromBytes _ _ _ _) + 1 = _
  unfold fromBytes
  simp only
  split
  · rename_i h
    obtain ⟨as, b, cs, hbs, has, hb⟩ := split_at_mask n h
    rw [← hb, ← has, hbs, fill_modify, value_setLow (by omega), ← hbs]
    rfl
  · have : n.hostBits = 0 := by rw [hostBits, maxMask, size]; omega
    rw [this, pow_zero, Nat.div_one, Nat.mul_one]
    rfl

/-- Sharing a quotient is lying in one block. -/
theorem div_eq_iff_mem_block {m v : Nat} (hm : 0 < m) (a : Nat) :
    a / m = v / m ↔ v / m * m ≤ a ∧ a < v / m * m + m := by
  rw [Nat.div_eq_iff hm]
  omega

theorem fromNetwork_spec : ∃ r, fromNetwork n = .ok r ∧ ∀ a, a ∈ r.toSet ↔ n.Contains a := by
  have hs := size_fromStart n
  have he := size_fromEnd n
  have hst := toNat_fromStart n
  have hen := toNat_fromEnd n
  have hp : 0 < 2 ^ n.hostBits := by positivity
  have hsi : (fromStart n).size = (fromEnd n).size := hs.trans he.symm
  have hle : fromStart n ≤ fromEnd n := by rw [le_iff_toNat hsi]; omega
  refine ⟨⟨⟨fromStart n, fromEnd n, hle⟩, hsi⟩, init_eq hsi hle, fun a => ?_⟩
  constructor
  · rintro ⟨h₁, h₂⟩
    have ha : a.size = (fromStart n).size := size_of_between hsi h₁ h₂
    rw [le_iff_toNat ha.symm] at h₁
    rw [le_iff_toNat (ha.trans hsi)] at h₂
    refine ⟨ha.trans hs, (div_eq_iff_mem_block hp _).mpr ?_⟩
    omega
  · rintro ⟨ha, hd⟩
    obtain ⟨h₁, h₂⟩ := (div_eq_iff_mem_block hp _).mp hd
    refine ⟨(le_iff_toNat (hs.trans ha.symm)).mpr ?_, (le_iff_toNat (ha.trans he.symm)).mpr ?_⟩
    · omega
    · omega

/-! ## The blocks of a range -/

/-- `UByte.countTrailingZeroBits`. -/
def countTrailingZeroBits (b : UInt8) : Nat := ((List.range 8).find? fun i => b.toNat.testBit i).getD 8

/-- The loop of `getPossibleMaxMask` from the last byte (the head here) down. -/
def possibleMaxMaskLoop : List UInt8 → Nat → Nat
  | [], mask => mask
  | b :: bs, mask =>
    let lastZeroBits := countTrailingZeroBits b
    if lastZeroBits ≠ 8 then mask - lastZeroBits else possibleMaxMaskLoop bs (mask - lastZeroBits)

def getPossibleMaxMask (ip : IpAddress) : Nat := possibleMaxMaskLoop ip.address.reverse ip.maxMask

/-- The loop of `getLastIpForMask`, from the last byte down, while bits remain. -/
def lastIpLoop : Nat → List UInt8 → List UInt8
  | _, [] => []
  | remainingBits, b :: bs =>
    if remainingBits = 0 then b :: bs
    else (if remainingBits > 8 then b ||| 0xff else setLow remainingBits b) :: lastIpLoop (remainingBits - 8) bs

theorem length_lastIpLoop : ∀ (n : Nat) (bs : List UInt8), (lastIpLoop n bs).length = bs.length
  | _, [] => rfl
  | n, b :: bs => by
    unfold lastIpLoop
    split
    · rfl
    · rw [length_cons, length_cons, length_lastIpLoop]

def getLastIpForMask (ip : IpAddress) (mask : Nat) : IpAddress :=
  ⟨(lastIpLoop (ip.maxMask - mask) ip.address.reverse).reverse, by
    rw [length_reverse, length_lastIpLoop, length_reverse]; exact ip.size_eq⟩

/-- `while (lastIp > end) lastIp = getLastIpForMask(currentIp, ++mask)`; `bits` are left when it starts at `mask`. -/
def fitMask (currentIp stop : IpAddress) : Nat → Nat → Nat × IpAddress
  | 0, mask => (mask, getLastIpForMask currentIp mask)
  | bits + 1, mask =>
    let lastIp := getLastIpForMask currentIp mask
    if lastIp > stop then fitMask currentIp stop bits (mask + 1) else (mask, lastIp)

/-- The main loop of `subnets`, which collects `currentIp` and `mask`; `fuel` bounds the addresses left. -/
def subnetsLoop (stop : IpAddress) : Nat → IpAddress → Except String (List (IpAddress × Nat))
  | 0, _ => .ok []
  | fuel + 1, currentIp =>
    if currentIp ≤ stop then
      let mask := getPossibleMaxMask currentIp
      let (mask, lastIp) := fitMask currentIp stop (currentIp.maxMask - mask) mask
      if lastIp.isMaxIp then .ok [(currentIp, mask)]
      else do
        let next ← lastIp.inc
        return (currentIp, mask) :: (← subnetsLoop stop fuel next)
    else .ok []

def subnetBlocks (r : IpRange) : Except String (List (IpAddress × Nat)) :=
  subnetsLoop r.stop (r.stop.key + 1 - r.start.key) r.start

/-- `subnets`: every block becomes a network through its text. -/
def subnets (r : IpRange) : Except String (List InetNetwork) := do
  (← r.subnetBlocks).mapM fun block => ofText block.1.toString block.2

/-! ## What the loops compute -/

theorem countTrailingZeroBits_aux : ∀ n < 256, countTrailingZeroBits n.toUInt8 ≤ 8 ∧
    (countTrailingZeroBits n.toUInt8 = 8 → n = 0) ∧ n % 2 ^ countTrailingZeroBits n.toUInt8 = 0 ∧
    (countTrailingZeroBits n.toUInt8 ≠ 8 → n % 2 ^ (countTrailingZeroBits n.toUInt8 + 1) ≠ 0) := by decide +kernel

theorem countTrailingZeroBits_spec (b : UInt8) : countTrailingZeroBits b ≤ 8 ∧
    (countTrailingZeroBits b = 8 → b.toNat = 0) ∧ 2 ^ countTrailingZeroBits b ∣ b.toNat ∧
    (countTrailingZeroBits b ≠ 8 → ¬2 ^ (countTrailingZeroBits b + 1) ∣ b.toNat) := by
  have h := countTrailingZeroBits_aux b.toNat (toNat_lt b)
  rw [show b.toNat.toUInt8 = b from UInt8.ofNat_toNat] at h
  exact ⟨h.1, h.2.1, Nat.dvd_of_mod_eq_zero h.2.2.1, fun hne hd => h.2.2.2 hne (Nat.mod_eq_zero_of_dvd hd)⟩

/-- The bits counted down are zero in the address. -/
theorem possibleMaxMaskLoop_spec : ∀ (bs : List UInt8) (mask : Nat), 8 * bs.length ≤ mask →
    possibleMaxMaskLoop bs mask ≤ mask ∧ 2 ^ (mask - possibleMaxMaskLoop bs mask) ∣ value bs.reverse
  | [], mask, _ => by simp [possibleMaxMaskLoop]
  | b :: bs, mask, h => by
    rw [length_cons] at h
    obtain ⟨h8, hze, hdv, _⟩ := countTrailingZeroBits_spec b
    rw [possibleMaxMaskLoop, value_reverse_cons]
    split
    · refine ⟨by omega, ?_⟩
      rw [show mask - (mask - countTrailingZeroBits b) = countTrailingZeroBits b by omega]
      refine Nat.dvd_add (Nat.dvd_mul_left_of_dvd ?_ _) hdv
      rw [split_256 h8]
      exact Nat.dvd_mul_left _ _
    · rename_i hz
      have hz : countTrailingZeroBits b = 8 := not_not.mp hz
      obtain ⟨hle, hd⟩ := possibleMaxMaskLoop_spec bs (mask - 8) (by omega)
      rw [hz, hze hz, Nat.add_zero]
      refine ⟨by omega, ?_⟩
      rw [show mask - possibleMaxMaskLoop bs (mask - 8) = (mask - 8 - possibleMaxMaskLoop bs (mask - 8)) + 8 by
        omega, pow_add]
      exact Nat.mul_dvd_mul hd (by norm_num)

theorem possibleMaxMaskLoop_least {n : Nat} : ∀ (bs : List UInt8) (mask : Nat), 8 * bs.length ≤ mask →
    n ≤ 8 * bs.length → 2 ^ n ∣ value bs.reverse → possibleMaxMaskLoop bs mask + n ≤ mask
  | [], mask, _, hn, _ => by
    rw [length_nil] at hn
    rw [possibleMaxMaskLoop]
    omega
  | b :: bs, mask, h, hn, hd => by
    rw [length_cons] at h hn
    obtain ⟨h8, hze, _, hno⟩ := countTrailingZeroBits_spec b
    rw [value_reverse_cons] at hd
    rw [possibleMaxMaskLoop]
    split
    · rename_i hz
      have hle : n ≤ countTrailingZeroBits b := by
        by_contra hgt
        refine hno hz ?_
        have h256 : 2 ^ (countTrailingZeroBits b + 1) ∣ value bs.reverse * 256 :=
          Nat.dvd_mul_left_of_dvd (pow_dvd_pow 2 (show countTrailingZeroBits b + 1 ≤ 8 by omega)) _
        exact (Nat.dvd_add_right h256).mp ((pow_dvd_pow 2 (by omega)).trans hd)
      omega
    · rename_i hz
      have hz : countTrailingZeroBits b = 8 := not_not.mp hz
      rw [hze hz, Nat.add_zero] at hd
      have hd' : 2 ^ (n - 8) ∣ value bs.reverse := by
        rcases Nat.le_total n 8 with hn8 | hn8
        · rw [show n - 8 = 0 by omega, pow_zero]
          exact Nat.one_dvd _
        · rw [show n = (n - 8) + 8 by omega, pow_add] at hd
          exact Nat.dvd_of_mul_dvd_mul_right (by norm_num) hd
      have ih := possibleMaxMaskLoop_least (n := n - 8) bs (mask - 8) (by omega) (by omega) hd'
      rw [hz]
      omega

variable (ip : IpAddress)

theorem getPossibleMaxMask_spec :
    getPossibleMaxMask ip ≤ ip.maxMask ∧ 2 ^ (ip.maxMask - getPossibleMaxMask ip) ∣ ip.toNat := by
  have h := possibleMaxMaskLoop_spec ip.address.reverse ip.maxMask (by
    rw [length_reverse, maxMask, size]; omega)
  rwa [reverse_reverse] at h

theorem getPossibleMaxMask_least {ip : IpAddress} {mask : Nat} (hd : 2 ^ (ip.maxMask - mask) ∣ ip.toNat) :
    getPossibleMaxMask ip ≤ mask := by
  have hl : 8 * ip.address.reverse.length = ip.maxMask := by
    rw [length_reverse, maxMask, size]
    omega
  have h := possibleMaxMaskLoop_least (n := ip.maxMask - mask) ip.address.reverse ip.maxMask hl.le (by omega)
    (by rwa [reverse_reverse])
  rw [getPossibleMaxMask]
  omega

theorem value_lastIpLoop : ∀ (bs : List UInt8) (n : Nat), n ≤ 8 * bs.length →
    value (lastIpLoop n bs).reverse + 1 = value bs.reverse / 2 ^ n * 2 ^ n + 2 ^ n
  | [], n, h => by
    obtain rfl : n = 0 := by simpa using h
    simp [lastIpLoop]
  | b :: bs, n, h => by
    rw [length_cons] at h
    unfold lastIpLoop
    split
    · rename_i h0
      simp [h0]
    rw [value_reverse_cons, value_reverse_cons]
    split
    · rename_i hn
      have ih := value_lastIpLoop bs (n - 8) (by omega)
      have hff : (b ||| 0xff).toNat = 255 := by
        have : ∀ n < 256, (n.toUInt8 ||| 0xff).toNat = 255 := by decide +kernel
        have h := this b.toNat (toNat_lt b)
        rwa [show b.toNat.toUInt8 = b from UInt8.ofNat_toNat] at h
      have hp : 2 ^ n = 256 * 2 ^ (n - 8) := by
        rw [show (256 : Nat) = 2 ^ 8 by norm_num, ← pow_add, show 8 + (n - 8) = n by omega]
      have hd : (value bs.reverse * 256 + b.toNat) / 2 ^ n = value bs.reverse / 2 ^ (n - 8) := by
        have hb := toNat_lt b
        rw [hp, ← Nat.div_div_eq_div_mul, show (value bs.reverse * 256 + b.toNat) / 256 = value bs.reverse by omega]
      rw [hd, hff, hp]
      calc value (lastIpLoop (n - 8) bs).reverse * 256 + 255 + 1
          = (value (lastIpLoop (n - 8) bs).reverse + 1) * 256 := by ring
        _ = _ := by rw [ih]; ring
    · rename_i h0 hn
      have hn : n ≤ 8 := by omega
      have hlo := setLow_toNat hn b
      have hl : lastIpLoop (n - 8) bs = bs := by
        cases bs with
        | nil => rfl
        | cons c cs => rw [lastIpLoop, if_pos (by omega)]
      have hd : (value bs.reverse * 256 + b.toNat) / 2 ^ n = value bs.reverse * 2 ^ (8 - n) + b.toNat / 2 ^ n := by
        rw [split_256 hn, ← mul_assoc, Nat.add_comm, Nat.add_mul_div_right _ _ (by positivity), Nat.add_comm]
      rw [hl, hd, Nat.add_assoc, hlo, Nat.add_mul, mul_assoc, ← split_256 hn, Nat.add_assoc]

theorem size_getLastIpForMask (mask : Nat) : (getLastIpForMask ip mask).size = ip.size := by
  show (lastIpLoop _ _).reverse.length = _
  rw [length_reverse, length_lastIpLoop, length_reverse]
  rfl

theorem toNat_getLastIpForMask (mask : Nat) : (getLastIpForMask ip mask).toNat + 1 =
    ip.toNat / 2 ^ (ip.maxMask - mask) * 2 ^ (ip.maxMask - mask) + 2 ^ (ip.maxMask - mask) := by
  have h := value_lastIpLoop ip.address.reverse (ip.maxMask - mask) (by
    rw [length_reverse, maxMask, size]; omega)
  rwa [reverse_reverse] at h

/-- The network of a block, before it is written as text. -/
def blockNetwork (block : IpAddress × Nat) : InetNetwork := ⟨block.1.toInetAddress, block.2⟩

/-- A block's mask fits its family and its host bits are zero. -/
structure Aligned (block : IpAddress × Nat) : Prop where
  mask_le : block.2 ≤ block.1.maxMask
  dvd : 2 ^ (block.1.maxMask - block.2) ∣ block.1.toNat

/-- The last address of an aligned block. -/
theorem Aligned.toNat_last (h : Aligned block) :
    (getLastIpForMask block.1 block.2).toNat + 1 = block.1.toNat + 2 ^ (block.1.maxMask - block.2) := by
  rw [toNat_getLastIpForMask, Nat.div_mul_cancel h.dvd]

theorem Aligned.le_last (h : Aligned block) : block.1 ≤ getLastIpForMask block.1 block.2 := by
  have hlast := h.toNat_last
  have : 0 < 2 ^ (block.1.maxMask - block.2) := by positivity
  rw [le_iff_toNat (size_getLastIpForMask _ _).symm]
  omega

theorem Aligned.contains_iff (h : Aligned block) (a : IpAddress) :
    (blockNetwork block).Contains a ↔ block.1 ≤ a ∧ a ≤ getLastIpForMask block.1 block.2 := by
  have hlast := h.toNat_last
  have hs := size_getLastIpForMask block.1 block.2
  have hm := div_eq_iff_mem_block (v := block.1.toNat) (show 0 < 2 ^ (block.1.maxMask - block.2) by positivity) a.toNat
  rw [Nat.div_mul_cancel h.dvd] at hm
  constructor
  · rintro ⟨ha, hd⟩
    obtain ⟨h₁, h₂⟩ := hm.mp hd
    exact ⟨(le_iff_toNat ha.symm).mpr h₁, (le_iff_toNat (ha.trans hs.symm)).mpr (by omega)⟩
  · rintro ⟨h₁, h₂⟩
    have ha : a.size = block.1.size := size_of_between hs.symm h₁ h₂
    rw [le_iff_toNat ha.symm] at h₁
    rw [le_iff_toNat (ha.trans hs.symm)] at h₂
    exact ⟨ha, hm.mpr ⟨h₁, by omega⟩⟩

/-- The largest block at an address that ends in the range. -/
structure Largest (stop currentIp : IpAddress) (mask : Nat) : Prop where
  aligned : Aligned (currentIp, mask)
  fits : getLastIpForMask currentIp mask ≤ stop
  mask_le : ∀ m, Aligned (currentIp, m) → getLastIpForMask currentIp m ≤ stop → mask ≤ m

theorem fitMask_spec {currentIp stop : IpAddress} (hle : currentIp ≤ stop) : ∀ (bits mask : Nat),
    mask + bits = currentIp.maxMask → Aligned (currentIp, mask) →
    (∀ m, Aligned (currentIp, m) → getLastIpForMask currentIp m ≤ stop → mask ≤ m) →
    ∃ m, fitMask currentIp stop bits mask = (m, getLastIpForMask currentIp m) ∧ Largest stop currentIp m
  | 0, mask, hbi, h, hb => by
    refine ⟨mask, rfl, h, ?_, hb⟩
    have hlast := h.toNat_last
    simp only [← hbi, Nat.add_zero, Nat.sub_self, pow_zero, Nat.add_right_cancel_iff] at hlast
    rwa [eq_of_toNat (size_getLastIpForMask _ _) hlast]
  | bits + 1, mask, hbi, h, hb => by
    rw [fitMask]
    split
    · rename_i hgt
      have h' : Aligned (currentIp, mask + 1) :=
        ⟨by simp only; omega, (pow_dvd_pow 2 (by simp only; omega)).trans h.dvd⟩
      refine fitMask_spec hle bits (mask + 1) (by omega) h' fun m hm hfits => ?_
      refine Nat.lt_of_le_of_ne (hb m hm hfits) ?_
      rintro rfl
      exact absurd hfits (not_le.mpr hgt)
    · rename_i hl'
      exact ⟨mask, rfl, h, not_lt.mp hl', hb⟩

/-- The blocks that `subnets` collects from an address on. -/
inductive Greedy (stop : IpAddress) : IpAddress → List (IpAddress × Nat) → Prop
  | done {currentIp : IpAddress} (h : ¬currentIp ≤ stop) : Greedy stop currentIp []
  /-- The end of the family is the end of the range. -/
  | last {currentIp : IpAddress} {mask : Nat} (h : Largest stop currentIp mask)
    (hstop : getLastIpForMask currentIp mask = stop) : Greedy stop currentIp [(currentIp, mask)]
  | next {currentIp next : IpAddress} {mask : Nat} {blocks : List (IpAddress × Nat)} (h : Largest stop currentIp mask)
    (hnext : Adj (getLastIpForMask currentIp mask) next) (hblocks : Greedy stop next blocks) :
    Greedy stop currentIp ((currentIp, mask) :: blocks)

/-- The main loop collects the blocks of the range. -/
theorem subnetsLoop_greedy {stop : IpAddress} : ∀ (fuel : Nat) {currentIp : IpAddress}, currentIp.size = stop.size →
    stop.key < currentIp.key + fuel → ∃ blocks, subnetsLoop stop fuel currentIp = .ok blocks ∧
    Greedy stop currentIp blocks
  | 0, currentIp, _, hfu => ⟨[], rfl, .done fun h => by rw [le_iff_key] at h; omega⟩
  | fuel + 1, currentIp, hs, hfu => by
    rw [subnetsLoop]
    by_cases hle : currentIp ≤ stop
    swap
    · exact ⟨[], if_neg hle, .done hle⟩
    obtain ⟨hma, hd⟩ := getPossibleMaxMask_spec currentIp
    obtain ⟨m, hfit, hl⟩ := fitMask_spec hle (currentIp.maxMask - getPossibleMaxMask currentIp)
      (getPossibleMaxMask currentIp) (by omega) ⟨hma, hd⟩ fun _ hm _ => getPossibleMaxMask_least hm.dvd
    have hla := size_getLastIpForMask currentIp m
    simp only [if_pos hle, hfit]
    rcases (getLastIpForMask currentIp m).inc_spec with ⟨hmax, _⟩ | ⟨hmax, next, hi, _, _⟩
    · refine ⟨[(currentIp, m)], if_pos hmax, .last hl (le_antisymm hl.fits ?_)⟩
      have h₁ := isMaxIp_iff.mp hmax
      have h₂ := stop.toNat_lt_capacity
      rw [capacity, hla, hs] at h₁
      rw [capacity] at h₂
      rw [le_iff_toNat (hs.symm.trans hla.symm)]
      omega
    · have ha : Adj (getLastIpForMask currentIp m) next := hi
      have hkey := ha.key
      have hfi : currentIp.key ≤ (getLastIpForMask currentIp m).key := le_iff_key.mp hl.aligned.le_last
      have hne : next.size = stop.size := by rw [(adj_iff.mp ha).1, hla, hs]
      obtain ⟨blocks, hlo, hblocks⟩ := subnetsLoop_greedy fuel hne (by omega)
      refine ⟨(currentIp, m) :: blocks, ?_, .next hl ha hblocks⟩
      rw [if_neg (by simp [hmax]), hi]
      show (do return (currentIp, m) :: (← subnetsLoop stop fuel next) : Except String _) = _
      rw [hlo]
      rfl

namespace Greedy

variable {stop currentIp : IpAddress} {blocks : List (IpAddress × Nat)}

theorem aligned (h : Greedy stop currentIp blocks) : ∀ block ∈ blocks, Aligned block := by
  induction h with
  | done _ => simp
  | last h _ => simpa using h.aligned
  | next h _ _ ih => simpa using ⟨h.aligned, fun a b hb => ih (a, b) hb⟩

/-- The blocks cover exactly the addresses up to the end. -/
theorem contains_iff (h : Greedy stop currentIp blocks) (a : IpAddress) :
    (∃ block ∈ blocks, (blockNetwork block).Contains a) ↔ currentIp ≤ a ∧ a ≤ stop := by
  induction h with
  | done h => exact iff_of_false (by simp) fun ha => h (ha.1.trans ha.2)
  | last h hstop =>
    rw [← hstop]
    simpa using h.aligned.contains_iff a
  | @next currentIp next mask blocks h hnext _ ih =>
    simp only [mem_cons, exists_eq_or_imp, ih, h.aligned.contains_iff]
    have hfi : currentIp ≤ getLastIpForMask currentIp mask := h.aligned.le_last
    constructor
    · rintro (⟨h₁, h₂⟩ | ⟨h₁, h₂⟩)
      · exact ⟨h₁, h₂.trans h.fits⟩
      · exact ⟨hfi.trans (hnext.covBy.lt.le.trans h₁), h₂⟩
    · rintro ⟨h₁, h₂⟩
      rcases le_or_gt a (getLastIpForMask currentIp mask) with hle | hgt
      · exact .inl ⟨h₁, hle⟩
      · exact .inr ⟨not_lt.mp fun hlt => hnext.covBy.2 hgt hlt, h₂⟩

end Greedy

theorem subnetBlocks_greedy (r : IpRange) :
    ∃ blocks, r.subnetBlocks = .ok blocks ∧ Greedy r.stop r.start blocks := by
  exact subnetsLoop_greedy _ r.same_size (by omega)

/-! ## From blocks to networks -/

/-- An IPv6 address that `InetAddress` reads as an IPv4 address. -/
def Mapped (ip : IpAddress) : Prop := ip.size = 16 ∧ isIpv4Mapped ip.address = true

instance (ip : IpAddress) : Decidable (Mapped ip) := inferInstanceAs (Decidable (_ ∧ _))

theorem mapped_iff {ip : IpAddress} (h16 : ip.size = 16) : Mapped ip ↔ ip.toNat / 2 ^ 32 = 65535 := by
  have hl : ip.address.length = 16 := h16
  have hp := value_div_eq_iff ip.address (List.replicate 10 0 ++ [0xff, 0xff]) (by rw [hl]; decide)
  rw [hl, show value (List.replicate 10 0 ++ [0xff, 0xff]) = 65535 by decide] at hp
  refine Iff.trans ?_ hp.symm
  simp [Mapped, h16, isIpv4Mapped]

theorem Mapped.toNat_div {ip : IpAddress} (h : Mapped ip) : ip.toNat / 2 ^ 32 = 65535 := (mapped_iff h.1).mp h

def readBack (block : IpAddress × Nat) : InetNetwork :=
  if h : Mapped block.1 then
    ⟨⟨block.1.address.drop 12, .inl (by rw [length_drop, show block.1.address.length = 16 from h.1])⟩, block.2⟩
  else blockNetwork block

theorem readBack_of_not_mapped (h : ¬Mapped block.1) : readBack block = blockNetwork block := dif_neg h

theorem ofText_block (block : IpAddress × Nat) : ofText block.1.toString block.2 = .ok (readBack block) := by
  by_cases h : Mapped block.1
  · rw [ofText, parseInetAddress_toString_mapped block.1 h.1 h.2, readBack, dif_pos h]
  · have hma : block.1.size = 16 → isIpv4Mapped block.1.address = false := fun h16 => by
      rw [Bool.eq_false_iff]
      exact fun hm => h ⟨h16, hm⟩
    rw [ofText, parseInetAddress_toString block.1 hma, readBack_of_not_mapped h]
    rfl

theorem subnets_eq {r : IpRange} {blocks : List (IpAddress × Nat)} (h : r.subnetBlocks = .ok blocks) :
    r.subnets = .ok (blocks.map readBack) := by
  have hm : ∀ blocks : List (IpAddress × Nat),
      blocks.mapM (fun block => ofText block.1.toString block.2) = .ok (blocks.map readBack) := by
    intro blocks
    induction blocks with
    | nil => rfl
    | cons block blocks ih =>
      rw [mapM_cons, ofText_block, ih]
      rfl
  rw [subnets, h]
  exact hm blocks

end IpRange

end Cimogus.Net
