import Mathlib.Data.Nat.Bitwise

/-!
# Bit vectors as bytes in network order

A program that holds an address as bytes compares a prefix of it in two steps: the bytes that lie in the prefix as a
whole, and the high bits of the byte in which it ends.

* `div_eq_iff_bits`: agreement above the low bits, bit by bit.
* `prefix_eq_iff`: the two steps are the comparison of the numbers above the low bits.
-/

namespace Lib.Octets

variable {w : Nat} (a b : BitVec w)

def octet (i : Nat) : BitVec 8 := a.extractLsb' (w - 8 * (i + 1)) 8

theorem getLsbD_octet {i j : Nat} (hj : j < 8) : (octet a i).getLsbD j = a.getLsbD (w - 8 * (i + 1) + j) := by
  simp [octet, hj]

theorem shift_eq_iff (m : Nat) : a >>> m = b >>> m ↔ a.toNat / 2 ^ m = b.toNat / 2 ^ m := by
  rw [← BitVec.toNat_inj, BitVec.toNat_ushiftRight, BitVec.toNat_ushiftRight, Nat.shiftRight_eq_div_pow,
    Nat.shiftRight_eq_div_pow]

theorem xor_shift_eq_zero_iff (m : Nat) : (a ^^^ b) >>> m = 0#w ↔ a.toNat / 2 ^ m = b.toNat / 2 ^ m := by
  rw [BitVec.ushiftRight_xor_distrib, BitVec.xor_eq_zero_iff, shift_eq_iff]

/-- Agreement above the low bits, bit by bit. -/
theorem div_eq_iff_bits (m : Nat) :
    a.toNat / 2 ^ m = b.toNat / 2 ^ m ↔ ∀ i, m ≤ i → i < w → a.getLsbD i = b.getLsbD i := by
  rw [← xor_shift_eq_zero_iff]
  constructor
  · intro h i hm _
    have hb := congrArg (fun v : BitVec w => v.getLsbD (i - m)) h
    simp only [BitVec.getLsbD_ushiftRight, BitVec.getLsbD_xor, BitVec.getLsbD_zero, show m + (i - m) = i by omega] at hb
    simpa using hb
  · intro h
    refine BitVec.eq_of_getLsbD_eq fun i _ => ?_
    by_cases hi : m + i < w
    · simp [h (m + i) (by omega) hi]
    · simp [BitVec.getLsbD_of_ge _ _ (show w ≤ m + i by omega)]

variable {a b}

/-- The first bytes agree where their bits do. -/
theorem octets_eq_iff (hw : 8 ∣ w) {bytes : Nat} (h : 8 * bytes ≤ w) :
    (∀ i < bytes, octet a i = octet b i) ↔ ∀ i, w - 8 * bytes ≤ i → i < w → a.getLsbD i = b.getLsbD i := by
  obtain ⟨k, rfl⟩ := hw
  constructor
  · intro hb i hi hlt
    have hbit := congrArg (fun v : BitVec 8 => v.getLsbD (i % 8)) (hb (k - 1 - i / 8) (by omega))
    simp only [getLsbD_octet _ (Nat.mod_lt i (by decide))] at hbit
    rwa [show 8 * k - 8 * (k - 1 - i / 8 + 1) + i % 8 = i by omega] at hbit
  · intro hbi i hi
    refine BitVec.eq_of_getLsbD_eq fun j hj => ?_
    rw [getLsbD_octet _ hj, getLsbD_octet _ hj]
    exact hbi _ (by omega) (by omega)

/-- The bits of the byte in which a prefix ends. -/
theorem octet_shift_eq_iff {i r : Nat} (hi : 8 * (i + 1) ≤ w) (hr : r ≤ 8) :
    octet a i >>> (8 - r) = octet b i >>> (8 - r) ↔
      ∀ j, w - (8 * i + r) ≤ j → j < w - 8 * i → a.getLsbD j = b.getLsbD j := by
  rw [shift_eq_iff, div_eq_iff_bits]
  constructor
  · intro h j hj hlt
    have hb := h (j - (w - 8 * (i + 1))) (by omega) (by omega)
    rw [getLsbD_octet _ (by omega), getLsbD_octet _ (by omega)] at hb
    rwa [show w - 8 * (i + 1) + (j - (w - 8 * (i + 1))) = j by omega] at hb
  · intro h j hj hlt
    rw [getLsbD_octet _ hlt, getLsbD_octet _ hlt]
    exact h _ (by omega) (by omega)

/-- **Comparing the bytes of a prefix and the bits after them is comparing the numbers above the low bits.** -/
theorem prefix_eq_iff (hw : 8 ∣ w) {n : Nat} (hn : n ≤ w) : ((∀ i < n / 8, octet a i = octet b i) ∧
        (n % 8 ≠ 0 → octet a (n / 8) >>> (8 - n % 8) = octet b (n / 8) >>> (8 - n % 8))) ↔
      a.toNat / 2 ^ (w - n) = b.toNat / 2 ^ (w - n) := by
  rw [octets_eq_iff hw (by omega), div_eq_iff_bits]
  constructor
  · rintro ⟨hb, hlast⟩ i hi hlt
    rcases Nat.lt_or_ge i (w - 8 * (n / 8)) with hin | ho
    · -- the bit lies in the byte in which the prefix ends
      have hrest : n % 8 ≠ 0 := by omega
      exact (octet_shift_eq_iff (by omega) (by omega)).mp (hlast hrest) i (by omega) hin
    · exact hb i ho hlt
  · intro h
    refine ⟨fun i hi hlt => h i (by omega) hlt, fun hrest => ?_⟩
    exact (octet_shift_eq_iff (by omega) (by omega)).mpr fun j hj hlt => h j (by omega) (by omega)

end Lib.Octets
