import Mathlib.Tactic.Ring
import Mathlib.Tactic.Linarith

/-!
# Big-endian byte strings as numbers

* `value` reads a byte string as a number, most significant byte first; it is injective on strings of one length
  (`value_inj`) and bounded by `256 ^ length` (`value_lt`).
* `compareBytes` is the byte-by-byte three-way comparison; on strings of one length it compares the values
  (`compareBytes_neg`, `compareBytes_eq_zero`).
* `keepHigh` and `setLow` clear and set the low bits of one byte; with what follows the byte filled accordingly they
  round the value down and up to a multiple of a power of two (`value_keepHigh`, `value_setLow`).
-/

namespace Lib.Bytes

open List

/-! ## Values -/

/-- The number denoted by a big-endian byte string. -/
def value : List UInt8 → Nat
  | [] => 0
  | b :: bs => b.toNat * 256 ^ bs.length + value bs

@[simp] theorem value_nil : value [] = 0 := rfl

theorem value_cons (b : UInt8) (bs : List UInt8) : value (b :: bs) = b.toNat * 256 ^ bs.length + value bs := rfl

theorem toNat_lt (b : UInt8) : b.toNat < 256 := b.toNat_lt

theorem value_append (as : List UInt8) (bs : List UInt8) :
    value (as ++ bs) = value as * 256 ^ bs.length + value bs := by
  induction as with
  | nil => simp
  | cons a as ih =>
    simp only [cons_append, value_cons, length_append, ih, pow_add]
    ring

/-- The last byte is the least significant one. -/
theorem value_concat (bs : List UInt8) (b : UInt8) : value (bs ++ [b]) = value bs * 256 + b.toNat := by
  rw [value_append]; simp [value_cons]

theorem value_lt : ∀ bs : List UInt8, value bs < 256 ^ bs.length
  | [] => by simp
  | b :: bs => by
    have h := value_lt bs
    have hb := toNat_lt b
    rw [value_cons, length_cons, pow_succ]
    calc b.toNat * 256 ^ bs.length + value bs < b.toNat * 256 ^ bs.length + 256 ^ bs.length := by omega
      _ = (b.toNat + 1) * 256 ^ bs.length := by ring
      _ ≤ 256 * 256 ^ bs.length := Nat.mul_le_mul_right _ hb
      _ = 256 ^ bs.length * 256 := by ring

theorem digit_inj {n x y u v : Nat} (hu : u < n) (hv : v < n) (h : x * n + u = y * n + v) : x = y ∧ u = v := by
  have hx : (x * n + u) / n = x := by
    rw [Nat.add_comm, Nat.add_mul_div_right _ _ (by omega), Nat.div_eq_of_lt hu, Nat.zero_add]
  have hy : (y * n + v) / n = y := by
    rw [Nat.add_comm, Nat.add_mul_div_right _ _ (by omega), Nat.div_eq_of_lt hv, Nat.zero_add]
  have e : x = y := by rw [← hx, ← hy, h]
  subst e
  exact ⟨rfl, by omega⟩

theorem value_inj : ∀ {as bs : List UInt8}, as.length = bs.length → value as = value bs → as = bs
  | [], [], _, _ => rfl
  | a :: as, b :: bs, hl, h => by
    simp only [length_cons, Nat.add_right_cancel_iff] at hl
    rw [value_cons, value_cons, hl] at h
    obtain ⟨hab, hv⟩ := digit_inj (hl ▸ value_lt as) (value_lt bs) h
    rw [UInt8.toNat_inj.mp hab, value_inj hl hv]

/-- The high digits are the first bytes. -/
theorem value_div_eq_iff (as bs : List UInt8) (hl : bs.length ≤ as.length) :
    value as / 256 ^ (as.length - bs.length) = value bs ↔ as.take bs.length = bs := by
  have hd : (as.drop bs.length).length = as.length - bs.length := length_drop
  have hv := value_lt (as.drop bs.length)
  have hs := value_append (as.take bs.length) (as.drop bs.length)
  rw [take_append_drop, hd, Nat.mul_comm] at hs
  rw [hd] at hv
  rw [hs, Nat.mul_add_div (by positivity), Nat.div_eq_of_lt hv, Nat.add_zero]
  exact ⟨value_inj (by rw [length_take, Nat.min_eq_left hl]), fun h => by rw [h]⟩

theorem value_replicate_zero : ∀ n, value (List.replicate n 0) = 0
  | 0 => rfl
  | n + 1 => by rw [replicate_succ, value_cons, value_replicate_zero n]; simp

theorem value_replicate_ff : ∀ n, value (List.replicate n 0xff) + 1 = 256 ^ n
  | 0 => rfl
  | n + 1 => by
    have h := value_replicate_ff n
    rw [replicate_succ, value_cons, length_replicate, pow_succ]
    have e : (0xff : UInt8).toNat = 255 := rfl
    rw [e]
    omega

/-- All bytes `0xff` is the largest value. -/
theorem value_all_ff {bs : List UInt8} : bs.all (· == 0xff) = true ↔ value bs + 1 = 256 ^ bs.length := by
  constructor
  · intro h
    have e : bs = List.replicate bs.length 0xff :=
      eq_replicate_iff.mpr ⟨rfl, fun b hb => by simpa using all_eq_true.mp h b hb⟩
    rw [e, value_replicate_ff, length_replicate]
  · intro h
    have e : bs = List.replicate bs.length 0xff := by
      refine value_inj (by simp) ?_
      have := value_replicate_ff bs.length
      omega
    rw [e]; simp

/-- All bytes zero is the value zero. -/
theorem value_all_zero {bs : List UInt8} : bs.all (· == 0) = true ↔ value bs = 0 := by
  constructor
  · intro h
    have e : bs = List.replicate bs.length 0 :=
      eq_replicate_iff.mpr ⟨rfl, fun b hb => by simpa using all_eq_true.mp h b hb⟩
    rw [e, value_replicate_zero]
  · intro h
    have e : bs = List.replicate bs.length 0 := value_inj (by simp) (by rw [value_replicate_zero, h])
    rw [e]; simp

/-! ## Comparison -/

/-- The difference of the first bytes that differ, zero when there is none. -/
def compareBytes : List UInt8 → List UInt8 → Int
  | a :: as, b :: bs =>
    let d : Int := a.toNat - b.toNat
    if d ≠ 0 then d else compareBytes as bs
  | _, _ => 0

theorem compareBytes_neg :
    ∀ {as bs : List UInt8}, as.length = bs.length → (compareBytes as bs < 0 ↔ value as < value bs)
  | [], [], _ => by simp [compareBytes]
  | a :: as, b :: bs, hl => by
    simp only [length_cons, Nat.add_right_cancel_iff] at hl
    have ha := value_lt as
    have hb := value_lt bs
    rw [hl] at ha
    simp only [compareBytes, value_cons, hl]
    split
    · rename_i hd
      constructor
      · intro h
        have hlt : a.toNat + 1 ≤ b.toNat := by omega
        have := Nat.mul_le_mul_right (256 ^ bs.length) hlt
        linarith
      · intro h
        by_contra hge
        have hle : b.toNat + 1 ≤ a.toNat := by omega
        have := Nat.mul_le_mul_right (256 ^ bs.length) hle
        linarith
    · rename_i hd
      have e : a.toNat = b.toNat := by omega
      rw [compareBytes_neg hl, e]
      omega

theorem compareBytes_eq_zero : ∀ {as bs : List UInt8}, as.length = bs.length → (compareBytes as bs = 0 ↔ as = bs)
  | [], [], _ => by simp [compareBytes]
  | a :: as, b :: bs, hl => by
    simp only [length_cons, Nat.add_right_cancel_iff] at hl
    simp only [compareBytes, List.cons.injEq]
    split
    · rename_i hd
      refine ⟨fun h => absurd h hd, ?_⟩
      rintro ⟨rfl, _⟩
      simp at hd
    · rename_i hd
      rw [compareBytes_eq_zero hl]
      exact ⟨fun h => ⟨UInt8.toNat_inj.mp (by omega), h⟩, fun h => h.2⟩

/-! ## Rounding to a power of two -/

/-- Clear the `s` low bits of a byte. -/
def keepHigh (s : Nat) (b : UInt8) : UInt8 := b &&& (0xff <<< s).toUInt8

/-- Set the `s` low bits of a byte. -/
def setLow (s : Nat) (b : UInt8) : UInt8 := b ||| ~~~((0xff <<< s).toUInt8)

theorem keepHigh_toNat_aux : ∀ s < 9, ∀ n < 256,
    (keepHigh s n.toUInt8).toNat = n / 2 ^ s * 2 ^ s ∧
    (setLow s n.toUInt8).toNat + 1 = n / 2 ^ s * 2 ^ s + 2 ^ s := by
  decide +kernel

variable {s : Nat}

theorem keepHigh_toNat (hs : s ≤ 8) (b : UInt8) : (keepHigh s b).toNat = b.toNat / 2 ^ s * 2 ^ s := by
  have h := (keepHigh_toNat_aux s (by omega) b.toNat (toNat_lt b)).1
  rwa [show b.toNat.toUInt8 = b from UInt8.ofNat_toNat] at h

theorem setLow_toNat (hs : s ≤ 8) (b : UInt8) : (setLow s b).toNat + 1 = b.toNat / 2 ^ s * 2 ^ s + 2 ^ s := by
  have h := (keepHigh_toNat_aux s (by omega) b.toNat (toNat_lt b)).2
  rwa [show b.toNat.toUInt8 = b from UInt8.ofNat_toNat] at h

theorem pow_256 (n : Nat) : 256 ^ n = 2 ^ (8 * n) := by
  rw [pow_mul]; norm_num

/-- A byte's range, split at bit `s`. -/
theorem split_256 (hs : s ≤ 8) : 256 = 2 ^ (8 - s) * 2 ^ s := by
  rw [← pow_add, Nat.sub_add_cancel hs]; norm_num

/-- The quotient by `2 ^ s` with `n` whole bytes below. -/
theorem value_div (hs : s ≤ 8) (as : List UInt8) (b : UInt8) (bs : List UInt8) :
    value (as ++ b :: bs) / 2 ^ (8 * bs.length + s) = value as * 2 ^ (8 - s) + b.toNat / 2 ^ s := by
  have hb := value_lt bs
  have h8 := pow_256 bs.length
  have hsplit := split_256 hs
  have hv : value (as ++ b :: bs) = (value as * 256 + b.toNat) * 2 ^ (8 * bs.length) + value bs := by
    rw [value_append, value_cons, length_cons, pow_succ, h8]; ring
  have hq : value (as ++ b :: bs) / 2 ^ (8 * bs.length) = value as * 256 + b.toNat := by
    rw [hv, Nat.add_comm, Nat.add_mul_div_right _ _ (by positivity), Nat.div_eq_of_lt (h8 ▸ hb), Nat.zero_add]
  rw [pow_add, ← Nat.div_div_eq_div_mul, hq]
  calc (value as * 256 + b.toNat) / 2 ^ s = (b.toNat + value as * 2 ^ (8 - s) * 2 ^ s) / 2 ^ s := by
        rw [mul_assoc, ← hsplit, Nat.add_comm]
    _ = value as * 2 ^ (8 - s) + b.toNat / 2 ^ s := by
        rw [Nat.add_mul_div_right _ _ (by positivity), Nat.add_comm]

/-- Clearing the low bits of a byte and all bytes after it rounds down. -/
theorem value_keepHigh (hs : s ≤ 8) (as : List UInt8) (b : UInt8) (bs : List UInt8) :
    value (as ++ keepHigh s b :: List.replicate bs.length 0) =
      value (as ++ b :: bs) / 2 ^ (8 * bs.length + s) * 2 ^ (8 * bs.length + s) := by
  have h8 := pow_256 bs.length
  have hsplit := split_256 hs
  rw [value_div hs, value_append, value_cons, value_replicate_zero, keepHigh_toNat hs, length_cons,
    length_replicate, pow_succ, h8]
  nth_rewrite 1 [hsplit]
  ring

theorem value_setLow (hs : s ≤ 8) (as : List UInt8) (b : UInt8) (bs : List UInt8) :
    value (as ++ setLow s b :: List.replicate bs.length 0xff) + 1 =
      value (as ++ b :: bs) / 2 ^ (8 * bs.length + s) * 2 ^ (8 * bs.length + s) + 2 ^ (8 * bs.length + s) := by
  have h8 := pow_256 bs.length
  have hsplit := split_256 hs
  have hff := value_replicate_ff bs.length
  have hl := setLow_toNat hs b
  rw [value_div hs, value_append, value_cons, length_cons, length_replicate, pow_succ, Nat.add_assoc,
    Nat.add_assoc, hff, h8]
  calc value as * (2 ^ (8 * bs.length) * 256) + ((setLow s b).toNat * 2 ^ (8 * bs.length) + 2 ^ (8 * bs.length))
      = value as * (2 ^ (8 * bs.length) * 256) + ((setLow s b).toNat + 1) * 2 ^ (8 * bs.length) := by ring
    _ = _ := by
      rw [hl]
      nth_rewrite 1 [hsplit]
      ring

end Lib.Bytes
