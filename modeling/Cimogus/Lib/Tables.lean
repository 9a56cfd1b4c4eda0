import Cimogus.Lib.Steps

/-!
# Tables with one entry for a key

The requests that a kernel takes for such a table: `add` refuses a key that has an entry, `change` one that has none,
`replace` takes both, and `delete` takes out an entry that matches.

* `ActsAs get g f`: in the table that `get` finds in the state, the step `f` does `g` to the entry of its own key and
  nothing to the others.
* `ActsAs.each`: what a loop of such steps leaves, for a `g` that doing it again does not change.
-/

namespace Lib

abbrev Table (κ α : Type) := κ → Option α

namespace Table

variable {κ α σ : Type} [DecidableEq κ]

def empty : Table κ α := fun _ => none

def add (k : κ) (v : α) : Step (Table κ α) := fun t =>
  if (t k).isSome then (false, t) else (true, Function.update t k (some v))

def change (k : κ) (v : α) : Step (Table κ α) := fun t =>
  if (t k).isSome then (true, Function.update t k (some v)) else (false, t)

def replace (k : κ) (v : α) : Step (Table κ α) := .update fun t => Function.update t k (some v)

def delete (matching : α → Bool) (k : κ) : Step (Table κ α) := fun t =>
  if (t k).any matching then (true, Function.update t k none) else (false, t)

section Entries

variable (k k' : κ) (v : α) (t : Table κ α)

theorem add_apply : (add k v t).2 k' = if k' = k then (t k').or (some v) else t k' := by
  by_cases hkey : k' = k
  · subst hkey
    cases h : t k' <;> simp [add, h]
  · cases h : t k <;> simp [add, h, hkey]

theorem change_apply : (change k v t).2 k' = if k' = k then (t k').map fun _ => v else t k' := by
  by_cases hkey : k' = k
  · subst hkey
    cases h : t k' <;> simp [change, h]
  · cases h : t k <;> simp [change, h, hkey]

theorem delete_apply (matching : α → Bool) :
    (delete matching k t).2 k' = if k' = k then (t k').filter (! matching ·) else t k' := by
  by_cases hkey : k' = k
  · subst hkey
    cases h : t k' with
    | none => simp [delete, h]
    | some v => cases hv : matching v <;> simp [delete, h, hv, Option.filter]
  · by_cases hm : (t k).any matching <;> simp [delete, hm, hkey]

end Entries

/-- The step does `g` to the entry of its key. -/
def ActsAs (get : σ → Table κ α) (g : κ → Option α → Option α) (f : κ → Step σ) : Prop :=
  ∀ k s k', get (f k s).2 k' = if k' = k then g k' (get s k') else get s k'

/-- A loop of such steps does `g` to the entries of its keys, also where a key comes twice. -/
theorem ActsAs.each {get : σ → Table κ α} {g : κ → Option α → Option α} {f : κ → Step σ}
    (h : ActsAs get g f)
    (hg : ∀ k o, g k (g k o) = g k o) (l : List κ) (s : σ) (k : κ) :
    get (Step.each (fun _ => f) l s).2 k = if k ∈ l then g k (get s k) else get s k := by
  induction l generalizing s with
  | nil => simp
  | cons i l ih =>
    rw [Step.each_cons, ih, h]
    by_cases hi : k = i
    · simp [hi, hg]
    · simp [hi]

end Table

end Lib
