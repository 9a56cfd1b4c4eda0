import Mathlib.Data.List.Chain
import Mathlib.Tactic.Ring

/-!
# Byte buffers

Buffers that are written in place, as through a pointer; a write that does not fit is `none`. Numbers are little-endian,
and a wide string is a list of 16-bit units.

* `write_segment`, `read_segment`: what is done in one of the segments that a buffer is made of.
* `write_field`, `read_field`: what is done with a field of a record.
* `read_records`: a field of a record, where the records have one length.
-/

namespace Lib.Buffers

open List

abbrev Buffer := List UInt8

def zeros (n : Nat) : Buffer := List.replicate n 0

def write (o : Nat) (bytes b : Buffer) : Option Buffer :=
  if o + bytes.length ≤ b.length then some (b.take o ++ (bytes ++ b.drop (o + bytes.length))) else none

/-- The `n` bytes at an offset. -/
def read (o n : Nat) (b : Buffer) : Buffer := (b.drop o).take n

/-- The `n` low bytes of a number. -/
def le : Nat → Nat → Buffer
  | 0, _ => []
  | n + 1, v => v.toUInt8 :: le n (v / 256)

def leValue : Buffer → Nat
  | [] => 0
  | x :: b => x.toNat + 256 * leValue b

def readLe (o n : Nat) (b : Buffer) : Nat := leValue (read o n b)

abbrev WString := List UInt16

def wide (s : WString) : Buffer := s.flatMap fun u => le 2 u.toNat

def units : Buffer → WString
  | x :: y :: b => (leValue [x, y]).toUInt16 :: units b
  | _ => []

/-! ## Numbers -/

@[simp] theorem length_zeros (n : Nat) : (zeros n).length = n := length_replicate

theorem zeros_add (m n : Nat) : zeros (m + n) = zeros m ++ zeros n := by
  simp [zeros]

@[simp] theorem length_le (n v : Nat) : (le n v).length = n := by
  induction n generalizing v with
  | zero => rfl
  | succ n ih => rw [le, length_cons, ih]

/-- Reading a number again. -/
theorem leValue_le (n v : Nat) : leValue (le n v) = v % 256 ^ n := by
  induction n generalizing v with
  | zero => simp [le, leValue, Nat.mod_one]
  | succ n ih =>
    rw [le, leValue, ih, Nat.pow_succ', Nat.mod_mul]
    simp

theorem leValue_le_of_lt {n v : Nat} (h : v < 256 ^ n) : leValue (le n v) = v := by
  rw [leValue_le, Nat.mod_eq_of_lt h]

theorem length_wide (s : WString) : (wide s).length = 2 * s.length := by
  induction s with
  | nil => rfl
  | cons u s ih =>
    rw [wide, flatMap_cons, length_append, length_le, ← wide, ih, length_cons]
    ring

theorem units_wide (s : WString) : units (wide s) = s := by
  induction s with
  | nil => rfl
  | cons u s ih =>
    have hu : leValue [u.toNat.toUInt8, (u.toNat / 256).toUInt8] = u.toNat :=
      leValue_le_of_lt (n := 2) (v := u.toNat) u.toNat_lt
    have hc : wide (u :: s) = u.toNat.toUInt8 :: (u.toNat / 256).toUInt8 :: wide s := rfl
    rw [hc, units, hu, ih]
    simp

/-! ## Segments -/

variable {a c s t w : Buffer} {k n o : Nat}

/-- A write into one segment of a buffer. -/
theorem write_segment (ho : o = a.length + k) (h : write k w s = some t) :
    write o w (a ++ (s ++ c)) = some (a ++ (t ++ c)) := by
  subst ho
  obtain ⟨hle, ht⟩ := Option.ite_none_right_eq_some.mp h
  obtain rfl := Option.some.inj ht
  have hfits : a.length + k + w.length ≤ (a ++ (s ++ c)).length := by
    rw [length_append, length_append]
    omega
  rw [write, if_pos hfits, take_length_add_append, Nat.add_assoc, drop_length_add_append,
    take_append_of_le_length (by omega), drop_append_of_le_length hle]
  simp only [append_assoc]

/-- A write of a whole segment. -/
theorem write_whole (ho : o = a.length) (h : w.length = s.length) :
    write o w (a ++ (s ++ c)) = some (a ++ (w ++ c)) := by
  refine write_segment (k := 0) ho ?_
  rw [write, h]
  simp

theorem write_next (ho : o = a.length) (hn : n = w.length + k) :
    write o w (a ++ zeros n) = some (a ++ w ++ zeros k) := by
  rw [hn, zeros_add, write_whole ho (length_zeros _).symm, append_assoc]

theorem eq_of_write_nil {b : Buffer} (h : write o [] b = some c) : c = b := by
  obtain ⟨-, hc⟩ := Option.ite_none_right_eq_some.mp h
  rw [← Option.some.inj hc, nil_append, length_nil, Nat.add_zero, take_append_drop]

/-- What is read in one segment of a buffer. -/
theorem read_segment (h : k + n ≤ s.length) : read (a.length + k) n (a ++ (s ++ c)) = read k n s := by
  rw [read, read, drop_length_add_append, drop_append_of_le_length (by omega),
    take_append_of_le_length (by rw [length_drop]; omega)]

theorem read_whole (a s c : Buffer) : read a.length s.length (a ++ (s ++ c)) = s := by
  rw [read]
  simp

theorem read_first (s c : Buffer) : read 0 s.length (s ++ c) = s := read_whole [] s c

variable {fields : List Buffer} {i : Nat}

theorem flatten_eq (hi : fields[i]? = some s) :
    fields.flatten = (fields.take i).flatten ++ (s ++ (fields.drop (i + 1)).flatten) := by
  obtain ⟨hlt, rfl⟩ := List.getElem?_eq_some_iff.mp hi
  rw [← flatten_cons, ← drop_eq_getElem_cons hlt, ← flatten_append, take_append_drop]

/-- A write of a whole field of a record. -/
theorem write_field (hi : fields[i]? = some s) (ho : o = (fields.take i).flatten.length)
    (h : w.length = s.length) : write o w fields.flatten = some (fields.set i w).flatten := by
  have hlt : i < fields.length := (List.getElem?_eq_some_iff.mp hi).1
  rw [flatten_eq hi, write_whole ho h, set_eq_take_append_cons_drop, if_pos hlt, flatten_append, flatten_cons]

theorem read_field (hi : fields[i]? = some s) (ho : o = (fields.take i).flatten.length)
    (hn : n = s.length) : read o n fields.flatten = s := by
  rw [flatten_eq hi, ho, hn, read_whole]

/-- A field of one of the records. -/
theorem read_records {size : Nat} {records : List Buffer} (hs : ∀ r ∈ records, r.length = size) {r : Buffer}
    (hr : records[i]? = some r) (h : k + n ≤ size) :
    read (a.length + size * i + k) n (a ++ (records.flatten ++ c)) = read k n r := by
  have hb : ((records.take i).flatten).length = size * i := by
    have hl : (records.take i).map List.length = List.replicate i size := by
      have hi : i < records.length := (List.getElem?_eq_some_iff.mp hr).1
      refine eq_replicate_iff.mpr ⟨by simp; omega, fun x hx => ?_⟩
      obtain ⟨r, hr, rfl⟩ := mem_map.mp hx
      exact hs r (mem_of_mem_take hr)
    rw [length_flatten, hl, sum_replicate_nat, Nat.mul_comm]
  have hsplit : a ++ (records.flatten ++ c) = (a ++ (records.take i).flatten) ++
      (r ++ ((records.drop (i + 1)).flatten ++ c)) := by
    rw [flatten_eq hr]
    simp only [append_assoc]
  have hlen : a.length + size * i = (a ++ (records.take i).flatten).length := by
    rw [length_append, hb]
  rw [hsplit, hlen, read_segment (by rw [hs r (mem_of_getElem? hr)]; exact h)]

/-! ## Loops -/

/-- A loop over items whose rounds take the state for what is done and what is left to the next one. -/
theorem foldlM_done {α σ : Type} {items : List α} {step : σ → α → Option σ}
    {state : List α → List α → σ}
    (hs : ∀ done x rest, done ++ x :: rest = items →
      step (state done (x :: rest)) x = some (state (done ++ [x]) rest)) :
    items.foldlM step (state [] items) = some (state items []) := by
  have hl : ∀ rest done, done ++ rest = items → rest.foldlM step (state done rest) = some (state items []) := by
    intro rest
    induction rest with
    | nil =>
      intro done hd
      rw [append_nil] at hd
      rw [hd]
      rfl
    | cons x rest ih =>
      intro done hd
      rw [foldlM_cons, hs done x rest hd]
      exact ih (done ++ [x]) (by rw [append_assoc, singleton_append, hd])
  exact hl items [] rfl

end Lib.Buffers
