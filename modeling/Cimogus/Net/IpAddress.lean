import Cimogus.Lib.Bytes
import Mathlib.Order.Cover

/-!
# `IpAddress`

The Android client's `IpAddress`: an array of 4 or 16 unsigned bytes with increment, decrement and a total order.
Throwing functions return `Except String`; the string is the exception's message.

`compareTo` puts every IPv4 address before every IPv6 address and compares the bytes inside one family. The order
`a < b` is `a.compareTo b < 0` by definition, as Kotlin's operators are; `key` embeds it into the naturals
(`lt_iff_key`), with the IPv6 addresses after the `2 ^ 32` IPv4 ones. Increment is the next key of the same family
(`inc_spec`), decrement the one before (`dec_spec`), and both throw exactly at the end of the family.
-/

namespace Cimogus.Net

open Lib.Bytes List

structure IpAddress where
  address : List UInt8
  /-- Addresses come from `InetAddress`, which has 4 or 16 bytes. -/
  size_eq : address.length = 4 ∨ address.length = 16

variable {ip : IpAddress}

namespace IpAddress

def size (ip : IpAddress) : Nat := ip.address.length

def maxMask (ip : IpAddress) : Nat := ip.size * 8

variable {a b : IpAddress}

@[ext] theorem ext' (h : a.address = b.address) : a = b := by
  cases a; cases b; simp_all

theorem size_cases (ip : IpAddress) : ip.size = 4 ∨ ip.size = 16 := ip.size_eq

/-! ## Increment and decrement -/

/-- The loop of `inc` from the last byte (the head here) down, until a byte does not wrap to zero. -/
def incLoop : List UInt8 → List UInt8
  | [] => []
  | b :: bs => if b + 1 ≠ 0 then (b + 1) :: bs else (b + 1) :: incLoop bs

/-- The loop of `dec`, until a byte does not wrap to `0xff`. -/
def decLoop : List UInt8 → List UInt8
  | [] => []
  | b :: bs => if b - 1 ≠ 0xff then (b - 1) :: bs else (b - 1) :: decLoop bs

theorem length_incLoop : ∀ bs : List UInt8, (incLoop bs).length = bs.length
  | [] => rfl
  | b :: bs => by
    unfold incLoop; split
    · simp
    · simp [length_incLoop bs]

theorem length_decLoop : ∀ bs : List UInt8, (decLoop bs).length = bs.length
  | [] => rfl
  | b :: bs => by
    unfold decLoop; split
    · simp
    · simp [length_decLoop bs]

def inc (ip : IpAddress) : Except String IpAddress :=
  if ip.address.all (· == 0xff) then .error "IP address overflow"
  else .ok ⟨(incLoop ip.address.reverse).reverse, by simpa [length_incLoop] using ip.size_eq⟩

def dec (ip : IpAddress) : Except String IpAddress :=
  if ip.address.all (· == 0) then .error "IP address overflow"
  else .ok ⟨(decLoop ip.address.reverse).reverse, by simpa [length_decLoop] using ip.size_eq⟩

def isMinIp (ip : IpAddress) : Bool := ip.address.all (· == 0)

def isMaxIp (ip : IpAddress) : Bool := ip.address.all (· == 0xff)

theorem value_reverse_cons (b : UInt8) (bs : List UInt8) :
    value (b :: bs).reverse = value bs.reverse * 256 + b.toNat := by
  rw [reverse_cons, value_concat]

theorem toNat_succ {b : UInt8} (h : b + 1 ≠ 0) : (b + 1).toNat = b.toNat + 1 := by
  have hb := toNat_lt b
  rw [UInt8.toNat_add, show (1 : UInt8).toNat = 1 from rfl]
  by_contra hge
  refine h (UInt8.toNat_inj.mp ?_)
  rw [UInt8.toNat_add, show b.toNat = 255 by omega]
  rfl

theorem toNat_wrap {b : UInt8} (h : b + 1 = 0) : b.toNat = 255 := by
  have hb := toNat_lt b
  have e := congrArg UInt8.toNat h
  rw [UInt8.toNat_add, show (1 : UInt8).toNat = 1 from rfl, show (0 : UInt8).toNat = 0 from rfl] at e
  omega

theorem toNat_pred {b : UInt8} (h : b - 1 ≠ 0xff) : (b - 1).toNat + 1 = b.toNat := by
  have hb := toNat_lt b
  rw [UInt8.toNat_sub, show (1 : UInt8).toNat = 1 from rfl]
  have h0 : b.toNat ≠ 0 := by
    intro h0
    exact h (by rw [UInt8.toNat_inj.mp (show b.toNat = (0 : UInt8).toNat from h0)]; rfl)
  omega

theorem toNat_borrow {b : UInt8} (h : b - 1 = 0xff) : b.toNat = 0 := by
  have hb := toNat_lt b
  have e := congrArg UInt8.toNat h
  rw [UInt8.toNat_sub, show (1 : UInt8).toNat = 1 from rfl, show (0xff : UInt8).toNat = 255 from rfl] at e
  omega

theorem value_incLoop : ∀ bs : List UInt8,
    value (incLoop bs).reverse = if value bs.reverse + 1 = 256 ^ bs.length then 0 else value bs.reverse + 1
  | [] => by simp [incLoop]
  | b :: bs => by
    have hlt := value_lt bs.reverse
    rw [length_reverse] at hlt
    unfold incLoop
    split
    · rename_i h
      have hs := toNat_succ h
      rw [value_reverse_cons, value_reverse_cons, hs, if_neg]
      · omega
      · have := toNat_lt (b + 1)
        rw [length_cons, pow_succ]
        omega
    · rename_i h
      have h' : b + 1 = 0 := by simpa using h
      have hw := toNat_wrap h'
      rw [value_reverse_cons, value_reverse_cons, value_incLoop bs, h', hw, length_cons, pow_succ]
      rw [show (0 : UInt8).toNat = 0 from rfl, Nat.add_zero]
      generalize 256 ^ bs.length = n
      generalize value bs.reverse = v
      by_cases hv : v + 1 = n
      · rw [if_pos hv, if_pos (by omega)]
      · rw [if_neg hv, if_neg (by omega)]
        omega

theorem value_decLoop :
    ∀ bs : List UInt8, value bs.reverse ≠ 0 → value (decLoop bs).reverse + 1 = value bs.reverse
  | [], h => by simp at h
  | b :: bs, h => by
    unfold decLoop
    split
    · rename_i hb
      have hs := toNat_pred hb
      rw [value_reverse_cons, value_reverse_cons]
      omega
    · rename_i hb
      have h' : b - 1 = 0xff := by simpa using hb
      have hw := toNat_borrow h'
      rw [value_reverse_cons, hw] at h
      rw [value_reverse_cons, value_reverse_cons, h', hw, show (0xff : UInt8).toNat = 255 from rfl]
      have ih := value_decLoop bs (by omega)
      omega

/-! ## The order -/

def compareTo (a b : IpAddress) : Int :=
  if a.size ≠ b.size then a.size - b.size else compareBytes a.address b.address

def toNat (ip : IpAddress) : Nat := value ip.address

def capacity (ip : IpAddress) : Nat := 256 ^ ip.size

theorem toNat_lt_capacity (ip : IpAddress) : ip.toNat < ip.capacity := value_lt ip.address

/-- The position of an address among all addresses, IPv4 first. -/
def key (ip : IpAddress) : Nat := if ip.size = 4 then ip.toNat else 2 ^ 32 + ip.toNat

theorem key_of_size_four (h : ip.size = 4) : ip.key = ip.toNat := by simp [key, h]

theorem key_of_size_sixteen (h : ip.size = 16) : ip.key = 2 ^ 32 + ip.toNat := by simp [key, h]

theorem toNat_lt_of_size_four (h : ip.size = 4) : ip.toNat < 2 ^ 32 := by
  have := ip.toNat_lt_capacity
  rwa [capacity, h] at this

theorem eq_of_toNat (hs : a.size = b.size) (hv : a.toNat = b.toNat) : a = b := ext' (value_inj hs hv)

theorem key_sub (hs : a.size = b.size) : a.key + b.toNat = b.key + a.toNat := by
  unfold key
  rw [hs]
  split <;> omega

theorem key_inj (h : a.key = b.key) : a = b := by
  rcases a.size_cases with ha | ha <;> rcases b.size_cases with hb | hb
  · rw [key_of_size_four ha, key_of_size_four hb] at h
    exact eq_of_toNat (ha.trans hb.symm) h
  · have := toNat_lt_of_size_four ha
    rw [key_of_size_four ha, key_of_size_sixteen hb] at h
    omega
  · have := toNat_lt_of_size_four hb
    rw [key_of_size_sixteen ha, key_of_size_four hb] at h
    omega
  · rw [key_of_size_sixteen ha, key_of_size_sixteen hb] at h
    exact eq_of_toNat (ha.trans hb.symm) (by omega)

theorem compareTo_neg : a.compareTo b < 0 ↔ a.key < b.key := by
  unfold compareTo
  by_cases hs : a.size = b.size
  · rw [if_neg (by simpa using hs), compareBytes_neg hs]
    have := key_sub hs
    show a.toNat < b.toNat ↔ _
    omega
  · rcases a.size_cases with ha | ha <;> rcases b.size_cases with hb | hb
    · exact absurd (ha.trans hb.symm) hs
    · have := toNat_lt_of_size_four ha
      rw [key_of_size_four ha, key_of_size_sixteen hb]
      omega
    · have := toNat_lt_of_size_four hb
      rw [key_of_size_sixteen ha, key_of_size_four hb]
      omega
    · exact absurd (ha.trans hb.symm) hs

theorem compareTo_eq_zero : a.compareTo b = 0 ↔ a = b := by
  unfold compareTo
  by_cases hs : a.size = b.size
  · rw [if_neg (by simpa using hs), compareBytes_eq_zero hs]
    exact ⟨ext', fun h => by rw [h]⟩
  · exact ⟨fun h => absurd (by omega) hs, fun h => absurd (by rw [h]) hs⟩

theorem compareTo_nonpos : a.compareTo b ≤ 0 ↔ a.key ≤ b.key := by
  rw [le_iff_lt_or_eq, compareTo_neg, compareTo_eq_zero, le_iff_lt_or_eq]
  exact or_congr Iff.rfl ⟨fun h => by rw [h], key_inj⟩

/-- Kotlin's comparison operators on a `Comparable`. -/
instance : LinearOrder IpAddress where
  le a b := a.compareTo b ≤ 0
  lt a b := a.compareTo b < 0
  le_refl a := compareTo_nonpos.mpr le_rfl
  le_trans a b c h₁ h₂ := compareTo_nonpos.mpr ((compareTo_nonpos.mp h₁).trans (compareTo_nonpos.mp h₂))
  lt_iff_le_not_ge a b := by
    show a.compareTo b < 0 ↔ a.compareTo b ≤ 0 ∧ ¬b.compareTo a ≤ 0
    rw [compareTo_neg, compareTo_nonpos, compareTo_nonpos]
    omega
  le_antisymm a b h₁ h₂ := key_inj (Nat.le_antisymm (compareTo_nonpos.mp h₁) (compareTo_nonpos.mp h₂))
  le_total a b := (Nat.le_total a.key b.key).imp compareTo_nonpos.mpr compareTo_nonpos.mpr
  toDecidableLE a b := inferInstanceAs (Decidable (a.compareTo b ≤ 0))
  toDecidableLT a b := inferInstanceAs (Decidable (a.compareTo b < 0))
  toDecidableEq _ _ := decidable_of_iff _ compareTo_eq_zero

theorem le_iff_key : a ≤ b ↔ a.key ≤ b.key := compareTo_nonpos

theorem lt_iff_key : a < b ↔ a.key < b.key := compareTo_neg

/-- Inside one family the order is that of the values. -/
theorem le_iff_toNat (hs : a.size = b.size) : a ≤ b ↔ a.toNat ≤ b.toNat := by
  have := key_sub hs
  rw [le_iff_key]
  omega

theorem size_of_between {a b c : IpAddress} (hs : a.size = c.size) (h₁ : a ≤ b) (h₂ : b ≤ c) :
    b.size = a.size := by
  rw [le_iff_key] at h₁ h₂
  rcases a.size_cases with ha | ha <;> rcases b.size_cases with hb | hb
  · rw [ha, hb]
  · have := toNat_lt_of_size_four (hs ▸ ha)
    rw [key_of_size_sixteen hb, key_of_size_four (hs ▸ ha)] at h₂
    omega
  · have := toNat_lt_of_size_four hb
    rw [key_of_size_sixteen ha, key_of_size_four hb] at h₁
    omega
  · rw [ha, hb]

/-! ## What increment and decrement do -/

theorem isMaxIp_iff : ip.isMaxIp = true ↔ ip.toNat + 1 = ip.capacity := value_all_ff

theorem isMinIp_iff : ip.isMinIp = true ↔ ip.toNat = 0 := value_all_zero

theorem inc_spec (ip : IpAddress) : (ip.isMaxIp = true ∧ ip.inc = .error "IP address overflow") ∨
    (ip.isMaxIp = false ∧ ∃ next, ip.inc = .ok next ∧ next.size = ip.size ∧ next.toNat = ip.toNat + 1) := by
  cases h : ip.isMaxIp with
  | true => exact .inl ⟨rfl, if_pos h⟩
  | false =>
    have h' : ip.address.all (· == 0xff) = false := h
    refine .inr ⟨rfl, _, if_neg (by simp [h']), ?_, ?_⟩
    · simp [size, length_incLoop]
    · have hne : ip.toNat + 1 ≠ ip.capacity := fun e => by simp [isMaxIp_iff.mpr e] at h
      have hv := value_incLoop ip.address.reverse
      rw [reverse_reverse, length_reverse] at hv
      exact hv.trans (if_neg hne)

theorem dec_spec (ip : IpAddress) : (ip.isMinIp = true ∧ ip.dec = .error "IP address overflow") ∨
    (ip.isMinIp = false ∧ ∃ prev, ip.dec = .ok prev ∧ prev.size = ip.size ∧ prev.toNat + 1 = ip.toNat) := by
  cases h : ip.isMinIp with
  | true => exact .inl ⟨rfl, if_pos h⟩
  | false =>
    have h' : ip.address.all (· == 0) = false := h
    refine .inr ⟨rfl, _, if_neg (by simp [h']), ?_, ?_⟩
    · simp [size, length_decLoop]
    · have hne : ip.toNat ≠ 0 := fun e => by simp [isMinIp_iff.mpr e] at h
      have hv := value_decLoop ip.address.reverse (by rwa [reverse_reverse])
      rwa [reverse_reverse] at hv

/-- `b` is the increment of `a`. -/
def Adj (a b : IpAddress) : Prop := a.inc = .ok b

theorem adj_iff : Adj a b ↔ b.size = a.size ∧ b.toNat = a.toNat + 1 := by
  rcases a.inc_spec with ⟨hm, he⟩ | ⟨_, next, he, hs, hv⟩
  · rw [Adj, he]
    refine ⟨fun h => by simp at h, fun ⟨hs, hv⟩ => ?_⟩
    have h₁ := isMaxIp_iff.mp hm
    have h₂ := b.toNat_lt_capacity
    rw [capacity, hs] at h₂
    rw [capacity] at h₁
    omega
  · rw [Adj, he]
    refine ⟨fun h => ?_, fun ⟨hs', hv'⟩ => ?_⟩
    · cases h; exact ⟨hs, hv⟩
    · rw [eq_of_toNat (hs.trans hs'.symm) (hv.trans hv'.symm)]

theorem Adj.key (h : Adj a b) : b.key = a.key + 1 := by
  obtain ⟨hs, hv⟩ := adj_iff.mp h
  have := key_sub hs
  omega

/-- Nothing lies between an address and its increment. -/
theorem Adj.covBy (h : Adj a b) : a ⋖ b := by
  have hk := h.key
  refine ⟨lt_iff_key.mpr (by omega), fun c h₁ h₂ => ?_⟩
  rw [lt_iff_key] at h₁ h₂
  omega

/-- Decrement is the inverse of increment. -/
theorem dec_eq_iff : b.dec = .ok a ↔ Adj a b := by
  rw [adj_iff]
  rcases b.dec_spec with ⟨hm, he⟩ | ⟨_, prev, he, hs, hv⟩
  · rw [he]
    have := isMinIp_iff.mp hm
    exact ⟨fun h => by simp at h, fun h => by omega⟩
  · rw [he]
    refine ⟨fun h => ?_, fun ⟨hs', hv'⟩ => ?_⟩
    · cases h; exact ⟨hs.symm, hv.symm⟩
    · rw [eq_of_toNat (hs.trans hs') (by omega)]

/-- A larger address of the family can be decremented. -/
theorem exists_dec (hs : a.size = b.size) (h : a < b) : ∃ p, b.dec = .ok p ∧ Adj p b := by
  have hk := key_sub hs
  rw [lt_iff_key] at h
  rcases b.dec_spec with ⟨hm, _⟩ | ⟨_, prev, he, _, _⟩
  · have := isMinIp_iff.mp hm
    omega
  · exact ⟨prev, he, dec_eq_iff.mp he⟩

/-- A smaller address of the family can be incremented. -/
theorem exists_inc (hs : a.size = b.size) (h : a < b) : ∃ n, a.inc = .ok n ∧ Adj a n := by
  have hk := key_sub hs
  rw [lt_iff_key] at h
  rcases a.inc_spec with ⟨hm, _⟩ | ⟨_, next, he, _, _⟩
  · have h₁ := isMaxIp_iff.mp hm
    have h₂ := b.toNat_lt_capacity
    rw [capacity, ← hs] at h₂
    rw [capacity] at h₁
    omega
  · exact ⟨next, he, he⟩

end IpAddress

end Cimogus.Net
