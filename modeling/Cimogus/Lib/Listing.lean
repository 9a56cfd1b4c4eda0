import Cimogus.Lib.Tables
import Mathlib.Data.List.Nodup
import Mathlib.Data.String.Basic

/-!
# Maps and lists of their entries

What a map has for a key after an insertion or a removal, with the condition on the keys an equation.

`t.ListedBy rows` says that `rows` has the entries of the table `t`, each key once. A row is added, changed or taken out
where the entry of its key is; a second row for a key that has one breaks it (`not_listedBy_append`).
-/

namespace Lib

open List

/-- A list around one of its places. -/
theorem split_of_getElem? {β : Type} {l : List β} {i : Nat} {a : β} (h : l[i]? = some a) :
    ∃ before after, l = before ++ a :: after ∧ l.eraseIdx i = before ++ after := by
  obtain ⟨hlt, rfl⟩ := List.getElem?_eq_some_iff.mp h
  refine ⟨l.take i, l.drop (i + 1), ?_, eraseIdx_eq_take_drop_succ l i⟩
  rw [← drop_eq_getElem_cons hlt, take_append_drop]

section Erase

variable {α : Type} {p : α → Bool} {q : α}

theorem cons_eraseP_ne (hq : ¬p q) (l : List α) : q :: l.eraseP p ≠ l := by
  intro h
  induction l with
  | nil => cases h
  | cons a l ih =>
    obtain ⟨rfl, h⟩ := cons.inj h
    rw [eraseP_cons_of_neg hq] at h
    exact ih h

theorem eq_replicate_of_append_singleton {a : α} {l : List α} (h : l ++ [q] = a :: l) :
    a :: l = replicate (l.length + 1) q := by
  induction l generalizing a with
  | nil => exact h.symm
  | cons b l ih =>
    obtain ⟨rfl, hl⟩ := cons.inj h
    have hall := ih hl
    rw [length_cons, replicate_succ, ← hall, (cons.inj hall).1]

/-- Erasing takes out a place behind `before` if the element is there, or if it goes through copies of it. -/
theorem eraseP_append_cons_iff (before after : List α) : (before ++ q :: after).eraseP p = before ++ after ↔
    p q ∧ ∃ first n, before = first ++ replicate n q ∧ ∀ a ∈ first, ¬p a := by
  induction before with
  | nil => by_cases hq : p q <;> simp [hq, cons_eraseP_ne]
  | cons a before ih =>
    by_cases ha : p a
    · rw [cons_append, eraseP_cons_of_pos ha]
      constructor
      · intro h
        have hall := eq_replicate_of_append_singleton (append_cancel_right (by simpa using h))
        obtain ⟨rfl, -⟩ := cons.inj hall
        exact ⟨ha, [], before.length + 1, hall, by simp⟩
      · rintro ⟨-, first, n, h, hfirst⟩
        cases first with
        | nil =>
          cases n with
          | zero => cases h
          | succ n =>
            obtain ⟨rfl, rfl⟩ := cons.inj h
            rw [← singleton_append, ← append_assoc, ← replicate_succ', replicate_succ]
        | cons b first => exact absurd ((cons.inj h).1 ▸ ha) (hfirst b mem_cons_self)
    · rw [cons_append, eraseP_cons_of_neg ha, cons_append, cons.injEq, ih]
      refine ⟨fun ⟨_, hq, first, n, h, hfirst⟩ => ⟨hq, a :: first, n, by rw [h, cons_append],
        forall_mem_cons.mpr ⟨ha, hfirst⟩⟩, fun ⟨hq, first, n, h, hfirst⟩ => ⟨rfl, hq, ?_⟩⟩
      cases first with
      | nil =>
        have heq : a = q := eq_of_mem_replicate (h ▸ mem_cons_self)
        exact absurd (heq ▸ hq) ha
      | cons b first =>
        exact ⟨first, n, (cons.inj h).2, fun x hx => hfirst x (mem_cons_of_mem _ hx)⟩

end Erase

section Maps

variable {κ α : Type} [Ord κ] [Std.TransOrd κ] [Std.LawfulEqOrd κ] [DecidableEq κ]
    (m : Std.ExtTreeMap κ α) (k k' : κ)

theorem getElem?_insert_eq_ite (v : α) : (m.insert k v)[k']? = if k' = k then some v else m[k']? := by
  by_cases h : k' = k
  · subst h
    simp
  · rw [Std.ExtTreeMap.getElem?_insert, if_neg h, if_neg fun heq => h (Std.LawfulEqOrd.eq_of_compare heq).symm]

theorem getElem?_erase_eq_ite : (m.erase k)[k']? = if k' = k then none else m[k']? := by
  by_cases h : k' = k
  · subst h
    simp
  · rw [Std.ExtTreeMap.getElem?_erase, if_neg h, if_neg fun heq => h (Std.LawfulEqOrd.eq_of_compare heq).symm]

omit [DecidableEq κ] in
theorem getElem?_filter_eq_ite (p : κ → Bool) : (m.filter fun k _ => p k)[k']? = if p k' then m[k']? else none := by
  rw [Std.ExtTreeMap.getElem?_filter']
  cases p k' <;> cases m[k']? <;> simp [Option.filter]

end Maps

namespace Table

variable {κ α : Type}

/-- The table without the entries whose keys fail the test. -/
def restrict (p : κ → Bool) (t : Table κ α) : Table κ α := fun k => if p k then t k else none

theorem restrict_update_of_pos [DecidableEq κ] {p : κ → Bool} {t : Table κ α} {k : κ} (h : p k = true)
    (o : Option α) :
    restrict p (Function.update t k o) = Function.update (restrict p t) k o := by
  funext k'
  by_cases hkey : k' = k
  · subst hkey
    simp [restrict, h]
  · simp [restrict, hkey]

theorem restrict_update_of_neg [DecidableEq κ] {p : κ → Bool} {t : Table κ α} {k : κ} (h : p k = false)
    (o : Option α) :
    restrict p (Function.update t k o) = restrict p t := by
  funext k'
  by_cases hkey : k' = k
  · subst hkey
    simp [restrict, h]
  · simp [restrict, hkey]

structure ListedBy (t : Table κ α) (rows : List (κ × α)) : Prop where
  nodup : (rows.map Prod.fst).Nodup
  mem_iff : ∀ k v, (k, v) ∈ rows ↔ t k = some v

namespace ListedBy

variable {t : Table κ α} {rows before after : List (κ × α)} {k : κ} {v w : α}

/-- The entries of a map in the order of their keys. -/
theorem toList [Ord κ] [Std.TransOrd κ] [Std.LawfulEqOrd κ] (m : Std.ExtTreeMap κ α) :
    ListedBy (fun k => m[k]?) m.toList where
  nodup := by
    rw [nodup_iff_pairwise_ne, pairwise_map]
    exact Std.ExtTreeMap.distinct_keys_toList.imp fun {a b} h heq => h (by rw [heq]; exact Std.ReflOrd.compare_self)
  mem_iff _ _ := Std.ExtTreeMap.mem_toList_iff_getElem?_eq_some

/-- The keys of the rows are those with an entry. -/
theorem key_mem_iff (h : t.ListedBy rows) : k ∈ rows.map Prod.fst ↔ (t k).isSome := by
  rw [Option.isSome_iff_exists, mem_map]
  constructor
  · rintro ⟨⟨k, v⟩, hm, rfl⟩
    exact ⟨v, (h.mem_iff k v).mp hm⟩
  · rintro ⟨v, hv⟩
    exact ⟨(k, v), (h.mem_iff k v).mpr hv, rfl⟩

theorem filter (p : κ → Bool) (h : t.ListedBy rows) : (restrict p t).ListedBy (rows.filter fun row => p row.1) where
  nodup := h.nodup.sublist (filter_sublist.map _)
  mem_iff k v := by
    rw [mem_filter, h.mem_iff, restrict]
    cases hp : p k <;> simp

theorem nodup_split (h : t.ListedBy (before ++ (k, v) :: after)) :
    k ∉ (before ++ after).map Prod.fst ∧ ((before ++ after).map Prod.fst).Nodup := by
  have hno := h.nodup
  rw [map_append, map_cons, nodup_middle, nodup_cons] at hno
  rwa [map_append]

section Updates

variable [DecidableEq κ]

theorem erase (h : t.ListedBy (before ++ (k, v) :: after)) : ListedBy (Function.update t k none) (before ++ after) where
  nodup := h.nodup_split.2
  mem_iff k' v' := by
    by_cases hkey : k' = k
    · subst hkey
      exact iff_of_false (fun hm => h.nodup_split.1 (mem_map_of_mem hm)) (by simp)
    · rw [Function.update_of_ne hkey, ← h.mem_iff]
      simp [hkey]

theorem replace (h : t.ListedBy (before ++ (k, v) :: after)) :
    ListedBy (Function.update t k (some w)) (before ++ (k, w) :: after) where
  nodup := by simpa using h.nodup
  mem_iff k' v' := by
    by_cases hkey : k' = k
    · subst hkey
      rw [Function.update_self]
      constructor
      · intro hm
        rw [mem_append, mem_cons, or_left_comm, ← mem_append] at hm
        rcases hm with heq | hm
        · rw [(Prod.mk.inj heq).2]
        · exact absurd (mem_map_of_mem hm) h.nodup_split.1
      · intro heq
        simp [Option.some.inj heq]
    · rw [Function.update_of_ne hkey, ← h.mem_iff]
      simp [hkey]

theorem append (h : t.ListedBy rows) (hk : t k = none) :
    ListedBy (Function.update t k (some v)) (rows ++ [(k, v)]) where
  nodup := by
    rw [map_append, map_singleton, nodup_append_comm, singleton_append, nodup_cons, h.key_mem_iff]
    exact ⟨by simp [hk], h.nodup⟩
  mem_iff k' v' := by
    by_cases hkey : k' = k
    · subst hkey
      have hno : (k', v') ∉ rows := by simp [h.mem_iff, hk]
      simp [hno, eq_comm]
    · rw [Function.update_of_ne hkey, ← h.mem_iff]
      simp [hkey]

end Updates

end ListedBy

/-- A second row for a key. -/
theorem not_listedBy_append {t : Table κ α} {rows : List (κ × α)} {k : κ} {v w : α} (h : (k, v) ∈ rows) :
    ¬t.ListedBy (rows ++ [(k, w)]) := by
  intro hl
  have hno := hl.nodup
  rw [map_append, map_singleton, nodup_append_comm, singleton_append, nodup_cons] at hno
  exact hno.1 (mem_map.mpr ⟨(k, v), h, rfl⟩)

end Table

end Lib
