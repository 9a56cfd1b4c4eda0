import Mathlib.Data.List.Basic

/-!
# Stores and the ids taken from them

A store gives every item that is put into it an id it has not given before; whoever put the item there has to remember
the id to take it out again. A `Ledger` is a store with the ids that are remembered. An item whose id is not remembered
is a stray: nothing takes it out any more.

* `Extends`: items are put in and their ids remembered; `Extends.items` and `Extends.strays` say what that changes,
  `Extends.rollback` is the same for a transaction that is undone in the store and not in the memory.
-/

namespace Lib

open List

variable {α : Type}

structure Store (α : Type) where
  entries : List (Nat × α)
  /-- The id of the next item. -/
  next : Nat
  fresh : ∀ e ∈ entries, e.1 < next

namespace Store

def empty : Store α := ⟨[], 0, nofun⟩

def add (a : α) (s : Store α) : Store α where
  entries := s.entries ++ [(s.next, a)]
  next := s.next + 1
  fresh e he := by
    rcases mem_append.mp he with he | he
    · exact Nat.lt_succ_of_lt (s.fresh e he)
    · rw [mem_singleton.mp he]
      exact Nat.lt_succ_self _

/-- Without the items of the ids; an id that is not in the store does nothing. -/
def delete (ids : List Nat) (s : Store α) : Store α where
  entries := s.entries.filter (·.1 ∉ ids)
  next := s.next
  fresh e he := s.fresh e (mem_of_mem_filter he)

/-- Back to the items of `start`; the ids given since then are not given again. -/
def rollback (start s : Store α) : Store α where
  entries := start.entries
  next := max start.next s.next
  fresh e he := Nat.lt_of_lt_of_le (start.fresh e he) (Nat.le_max_left _ _)

end Store

structure Ledger (α : Type) where
  store : Store α
  recorded : List Nat

namespace Ledger

def items (l : Ledger α) : List α := l.store.entries.map Prod.snd

def strays (l : Ledger α) : List α := (l.store.entries.filter (·.1 ∉ l.recorded)).map Prod.snd

def Accounted (l : Ledger α) : Prop := ∀ e ∈ l.store.entries, e.1 ∈ l.recorded

instance (l : Ledger α) : Decidable l.Accounted := inferInstanceAs (Decidable (∀ e ∈ l.store.entries, _))

/-- `l'` has the items of `l` and new ones, which it remembers, as everything that `l` remembers. -/
structure Extends (l : Ledger α) (as : List α) (l' : Ledger α) : Prop where
  added : ∃ new : List (Nat × α), l'.store.entries = l.store.entries ++ new ∧ new.map Prod.snd = as ∧
    ∀ e ∈ new, e.1 ∈ l'.recorded
  next : l.store.next ≤ l'.store.next
  kept : l.recorded ⊆ l'.recorded
  fresh : ∀ id ∈ l'.recorded, id ∈ l.recorded ∨ l.store.next ≤ id

namespace Extends

variable {l l' l'' : Ledger α} {as bs : List α}

theorem refl (l : Ledger α) : Extends l [] l where
  added := ⟨[], (append_nil _).symm, rfl, nofun⟩
  next := Nat.le_refl _
  kept := List.Subset.refl _
  fresh _ h := .inl h

variable (h : Extends l as l')

include h

theorem trans (h' : Extends l' bs l'') : Extends l (as ++ bs) l'' where
  added := by
    obtain ⟨new, hen, hnew, hr⟩ := h.added
    obtain ⟨new', he', hn', hr'⟩ := h'.added
    refine ⟨new ++ new', by rw [he', hen, append_assoc], by rw [map_append, hnew, hn'], ?_⟩
    intro e he
    rcases mem_append.mp he with he | he
    · exact h'.kept (hr e he)
    · exact hr' e he
  next := Nat.le_trans h.next h'.next
  kept := List.Subset.trans h.kept h'.kept
  fresh id hid := by
    rcases h'.fresh id hid with hid | hid
    · exact h.fresh id hid
    · exact .inr (Nat.le_trans h.next hid)

/-- The items are undone, and what is remembered of them stays. -/
theorem rollback : Extends l [] ⟨l.store.rollback l'.store, l'.recorded⟩ where
  added := ⟨[], (append_nil _).symm, rfl, nofun⟩
  next := Nat.le_max_left _ _
  kept := h.kept
  fresh := h.fresh

theorem items : l'.items = l.items ++ as := by
  obtain ⟨new, he, hnew, _⟩ := h.added
  rw [Ledger.items, he, map_append, hnew]
  rfl

/-- Of the old items the same ones are remembered, for what is remembered since then is new. -/
theorem strays : l'.strays = l.strays := by
  obtain ⟨new, hen, _, hr⟩ := h.added
  have hold : ∀ e ∈ l.store.entries, (e.1 ∈ l'.recorded ↔ e.1 ∈ l.recorded) := by
    intro e he
    refine ⟨fun hid => ?_, fun hid => h.kept hid⟩
    rcases h.fresh _ hid with hid | hid
    · exact hid
    · exact absurd (l.store.fresh e he) (Nat.not_lt.mpr hid)
  have hnew : new.filter (·.1 ∉ l'.recorded) = [] := by
    simpa [filter_eq_nil_iff] using fun i a he => hr (i, a) he
  rw [Ledger.strays, hen, filter_append, hnew, append_nil]
  congr 1
  apply filter_congr
  intro e he
  simp [hold e he]

end Extends

theorem accounted_iff_strays (l : Ledger α) : l.Accounted ↔ l.strays = [] := by
  simp [Accounted, strays, filter_eq_nil_iff]

/-- Where nothing is remembered, everything is a stray. -/
theorem strays_of_nil (s : Store α) : strays ⟨s, []⟩ = items ⟨s, []⟩ := by simp [strays, items]

end Ledger

end Lib
