/-!
# Percent-encoding

Texts in which some characters are written as `%` and two hexadecimal digits. Only characters below 128 are written so
here; what a decoder makes of larger ones depends on the encoding of the text.

* `decode_encode`: decoding gives the text back, whichever characters were encoded, if `%` was.
* `encode_eq_self_iff`: a text is its own encoding just if it has none of these characters.
-/

namespace Lib.Percent

open List

/-- The number of a hexadecimal digit of either case. -/
def value? (c : Char) : Option Nat :=
  if '0' ≤ c ∧ c ≤ '9' then some (c.toNat - 48)
  else if 'a' ≤ c ∧ c ≤ 'f' then some (c.toNat - 87)
  else if 'A' ≤ c ∧ c ≤ 'F' then some (c.toNat - 55)
  else none

def escape (c : Char) : List Char := ['%', Nat.digitChar (c.toNat / 16), Nat.digitChar (c.toNat % 16)]

variable (encoded : Char → Bool)

/-- The characters for which `encoded` holds are escaped, and the others stay. -/
def encode (s : List Char) : List Char := s.flatMap fun c => if encoded c then escape c else [c]

/-- A `%` that no digits follow stands for itself. -/
def decode : List Char → List Char
  | [] => []
  | [c] => [c]
  | [c, a] => [c, a]
  | c :: a :: b :: s =>
    if c = '%' then
      match value? a, value? b with
      | some x, some y => Char.ofNat (16 * x + y) :: decode s
      | _, _ => c :: decode (a :: b :: s)
    else c :: decode (a :: b :: s)

example : decode "100%25 %2x".toList = "100% %2x".toList := by decide

theorem value?_digitChar {n : Nat} (h : n < 16) : value? (Nat.digitChar n) = some n :=
  (by decide : ∀ n : Fin 16, value? (Nat.digitChar n) = some n.val) ⟨n, h⟩

theorem decode_cons {c : Char} (hc : c ≠ '%') (s : List Char) : decode (c :: s) = c :: decode s := by
  match s with
  | [] => rfl
  | [_] => rfl
  | _ :: _ :: _ => rw [decode, if_neg hc]

theorem decode_escape {c : Char} (hc : c.toNat < 128) (s : List Char) : decode (escape c ++ s) = c :: decode s := by
  have hch : Char.ofNat (16 * (c.toNat / 16) + c.toNat % 16) = c := by
    rw [Nat.div_add_mod]
    exact Char.ofNat_toNat c
  show decode ('%' :: _ :: _ :: s) = _
  rw [decode, if_pos rfl, value?_digitChar (by omega), value?_digitChar (by omega)]
  simp only [hch]

variable {encoded}

/-- Decoding gives the text back, if `%` was encoded. -/
theorem decode_encode (hp : encoded '%' = true) (ha : ∀ c, encoded c = true → c.toNat < 128) (s : List Char) :
    decode (encode encoded s) = s := by
  induction s with
  | nil => rfl
  | cons c s ih =>
    rw [encode, flatMap_cons, ← encode]
    split
    next hc => rw [decode_escape (ha c hc), ih]
    next hc =>
      have hne : c ≠ '%' := by
        rintro rfl
        exact hc hp
      rw [singleton_append, decode_cons hne, ih]

theorem length_le_encode (s : List Char) : s.length ≤ (encode encoded s).length := by
  induction s with
  | nil => exact Nat.le_refl 0
  | cons c s ih =>
    rw [encode, flatMap_cons, ← encode, length_append]
    split
    · simp only [escape, length_cons, length_nil]
      omega
    · simp only [length_cons, length_nil]
      omega

theorem encode_eq_self_iff (s : List Char) : encode encoded s = s ↔ ∀ c ∈ s, encoded c = false := by
  induction s with
  | nil => simp [encode]
  | cons c s ih =>
    rw [encode, flatMap_cons, ← encode, forall_mem_cons, ← ih]
    constructor
    · intro heq
      split at heq
      next hc =>
        have hl := congrArg List.length heq
        have hle : s.length ≤ (encode encoded s).length := length_le_encode s
        simp only [escape, length_append, length_cons, length_nil] at hl
        omega
      next hc => exact ⟨Bool.not_eq_true _ ▸ hc, (List.cons.inj heq).2⟩
    · rintro ⟨hc, heq⟩
      rw [hc, heq]
      rfl

end Lib.Percent
