import Mathlib.Data.List.Induction

/-!
# Hexadecimal dumps

Bytes as two digits each, on lines of a fixed number of bytes, and a reader that takes the digits from the end and
passes over everything else.

* `fromHex_of_digits`: a text is read as the bytes whose digits it has; `fromHex_dump`: a dump is read as what was
  dumped.
-/

namespace Lib.Hex

open List

def digit (n : Nat) : UInt8 := if n < 10 then (48 + n).toUInt8 else (87 + n).toUInt8

def value? (c : UInt8) : Option Nat :=
  if 48 ≤ c.toNat ∧ c.toNat ≤ 57 then some (c.toNat - 48)
  else if 97 ≤ c.toNat ∧ c.toNat ≤ 102 then some (c.toNat - 87)
  else if 65 ≤ c.toNat ∧ c.toNat ≤ 70 then some (c.toNat - 55)
  else none

def newline : UInt8 := 10

/-- The dump from a place on a line on, with a line break before the byte that the line is too short for. -/
def dumpFrom (width : Nat) : Nat → List UInt8 → List UInt8
  | _, [] => []
  | n, b :: bytes =>
    if n < width then digit (b.toNat / 16) :: digit (b.toNat % 16) :: dumpFrom width (n + 1) bytes
    else newline :: digit (b.toNat / 16) :: digit (b.toNat % 16) :: dumpFrom width 1 bytes

def dump (width : Nat) (bytes : List UInt8) : List UInt8 := dumpFrom width 0 bytes

/-- The bytes of the numbers of digits, the last ones first; the first digit may be missing. -/
def bytesBack : List Nat → List UInt8
  | [] => []
  | [low] => [low.toUInt8]
  | low :: high :: digits => (16 * high + low).toUInt8 :: bytesBack digits

def fromHex (text : List UInt8) : List UInt8 := (bytesBack (text.reverse.filterMap value?)).reverse

example : dump 2 [1, 0xab, 0xff] = [0x30, 0x31, 0x61, 0x62, newline, 0x66, 0x66] := by decide

theorem value?_digit {n : Nat} (h : n < 16) : value? (digit n) = some n :=
  (by decide : ∀ n : Fin 16, value? (digit n) = some n.val) ⟨n, h⟩

theorem value?_newline : value? newline = none := by decide

def digits (bytes : List UInt8) : List Nat := bytes.flatMap fun b => [b.toNat / 16, b.toNat % 16]

theorem bytesBack_digits (bytes : List UInt8) : bytesBack (digits bytes).reverse = bytes.reverse := by
  induction bytes using List.reverseRecOn with
  | nil => rfl
  | append_singleton bytes b ih =>
    have hd : (digits (bytes ++ [b])).reverse = b.toNat % 16 :: b.toNat / 16 :: (digits bytes).reverse := by
      simp [digits]
    have hb : (16 * (b.toNat / 16) + b.toNat % 16).toUInt8 = b := by
      rw [Nat.div_add_mod]
      simp
    rw [hd, bytesBack, ih, hb, reverse_append, reverse_singleton, singleton_append]

variable {text bytes : List UInt8}

theorem fromHex_of_digits (h : text.filterMap value? = digits bytes) : fromHex text = bytes := by
  rw [fromHex, filterMap_reverse, h, bytesBack_digits, reverse_reverse]

theorem filterMap_dumpFrom (width n : Nat) (bytes : List UInt8) :
    (dumpFrom width n bytes).filterMap value? = digits bytes := by
  induction bytes generalizing n with
  | nil => rfl
  | cons b bytes ih =>
    have hh : b.toNat / 16 < 16 := by
      have := b.toNat_lt
      omega
    have hl : b.toNat % 16 < 16 := Nat.mod_lt _ (by decide)
    have hc : digits (b :: bytes) = b.toNat / 16 :: b.toNat % 16 :: digits bytes := rfl
    rw [dumpFrom, hc]
    split
    · rw [filterMap_cons, value?_digit hh, filterMap_cons, value?_digit hl, ih]
    · rw [filterMap_cons, value?_newline, filterMap_cons, value?_digit hh, filterMap_cons, value?_digit hl, ih]

/-- A dump with line breaks behind it. -/
theorem fromHex_dump (width : Nat) (bytes : List UInt8) (n : Nat) :
    fromHex (dump width bytes ++ List.replicate n newline) = bytes := by
  refine fromHex_of_digits ?_
  rw [filterMap_append, dump, filterMap_dumpFrom, filterMap_replicate_of_none value?_newline, append_nil]

/-! ## The bytes of a dump -/

theorem digit_mem_ascii {n : Nat} (h : n < 16) : digit n ≠ 0 ∧ (digit n).toNat < 128 :=
  (by decide : ∀ n : Fin 16, digit n ≠ 0 ∧ (digit n).toNat < 128) ⟨n, h⟩

theorem dumpFrom_ascii (width n : Nat) (bytes : List UInt8) :
    ∀ c ∈ dumpFrom width n bytes, c ≠ 0 ∧ c.toNat < 128 := by
  induction bytes generalizing n with
  | nil => simp [dumpFrom]
  | cons b bytes ih =>
    have hh : b.toNat / 16 < 16 := by
      have := b.toNat_lt
      omega
    have hl : b.toNat % 16 < 16 := Nat.mod_lt _ (by decide)
    rw [dumpFrom]
    split
    · simp only [forall_mem_cons]
      exact ⟨digit_mem_ascii hh, digit_mem_ascii hl, ih _⟩
    · simp only [forall_mem_cons]
      exact ⟨by decide, digit_mem_ascii hh, digit_mem_ascii hl, ih _⟩

end Lib.Hex
