import Mathlib.Data.List.Induction

/-!
# Substitution of names in a text

A list of names with their values is substituted at once: the text is read from the left, and where a name begins its
value is written. A program that replaces one name after the other in the whole text does the same as long as no value
completes a name. All names begin with one character that they do not have at another place.

* `substitute_concat`: one name more; `foldl_substitute`: all names, one after the other.
* `substitute_cut`, `splitOn_substitute`: one name in the parts of a text.
-/

namespace Lib.Substitution

open List

variable {α : Type} [DecidableEq α]

/-- Replaces the names; `skip` characters of a name are still to be passed over. -/
def substFrom (vars : List (List α × List α)) : Nat → List α → List α
  | _, [] => []
  | skip + 1, _ :: text => substFrom vars skip text
  | 0, c :: text =>
    match vars.find? fun var => var.1.isPrefixOf (c :: text) with
    | some var => var.2 ++ substFrom vars (var.1.length - 1) text
    | none => c :: substFrom vars 0 text

def substitute (vars : List (List α × List α)) (text : List α) : List α := substFrom vars 0 text

example : substitute [("$A".toList, "$B".toList), ("$B".toList, "b".toList)] "$A$B".toList = "$Bb".toList := by decide

/-- The name begins with the character, which is nowhere else in it. -/
def Begins (x : α) (name : List α) : Prop := ∃ rest, name = x :: rest ∧ x ∉ rest

variable {x : α} {vars : List (List α × List α)} {var : List α × List α} {text rest : List α}

theorem substFrom_skip (vars : List (List α × List α)) (s rest : List α) :
    substFrom vars s.length (s ++ rest) = substitute vars rest := by
  induction s with
  | nil => rfl
  | cons c s ih => exact ih

theorem substitute_name (hne : var.1 ≠ []) (hfi : (vars.find? fun v => v.1.isPrefixOf (var.1 ++ rest)) = some var) :
    substitute vars (var.1 ++ rest) = var.2 ++ substitute vars rest := by
  obtain ⟨c, s, hna⟩ := exists_cons_of_ne_nil hne
  rw [hna, cons_append] at hfi ⊢
  rw [substitute, substFrom, hfi]
  simp only [hna, length_cons, Nat.add_sub_cancel, substFrom_skip]

theorem substitute_cons {c : α} (hfi : (vars.find? fun v => v.1.isPrefixOf (c :: rest)) = none) :
    substitute vars (c :: rest) = c :: substitute vars rest := by
  rw [substitute, substFrom, hfi]
  rfl

theorem substitute_self (hne : var.1 ≠ []) (rest : List α) :
    substitute [var] (var.1 ++ rest) = var.2 ++ substitute [var] rest := substitute_name hne (by simp)

theorem substitute_other {c : α} (h : ¬var.1 <+: c :: rest) :
    substitute [var] (c :: rest) = c :: substitute [var] rest := by
  refine substitute_cons ?_
  rw [find?_singleton, if_neg (mt isPrefixOf_iff_prefix.mp h)]

/-- What is at the beginning of a text. -/
theorem text_cases (hna : ∀ v ∈ vars, v.1 ≠ []) (text : List α) : text = [] ∨
      (∃ var rest, var ∈ vars ∧ text = var.1 ++ rest ∧ (vars.find? fun v => v.1.isPrefixOf text) = some var ∧
        rest.length < text.length) ∨
      ∃ c rest, text = c :: rest ∧ (vars.find? fun v => v.1.isPrefixOf text) = none := by
  cases text with
  | nil => exact .inl rfl
  | cons c text =>
    cases hfi : vars.find? fun v => v.1.isPrefixOf (c :: text) with
    | none => exact .inr (.inr ⟨c, text, rfl, rfl⟩)
    | some var =>
      have hm : var ∈ vars := mem_of_find?_eq_some hfi
      have hp : var.1.isPrefixOf (c :: text) = true :=
        find?_some (p := fun v : List α × List α => v.1.isPrefixOf (c :: text)) hfi
      obtain ⟨rest, hrest⟩ := isPrefixOf_iff_prefix.mp hp
      refine .inr (.inl ⟨var, rest, hm, hrest.symm, rfl, ?_⟩)
      have hpo : 0 < var.1.length := length_pos_iff.mpr (hna var hm)
      rw [← hrest, length_append]
      omega

omit [DecidableEq α] in
theorem Begins.ne_nil {name : List α} (h : Begins x name) : name ≠ [] := by
  obtain ⟨rest, rfl, -⟩ := h
  exact cons_ne_nil x rest

/-- No name begins in characters without the first one of all names. -/
theorem substitute_append (hva : ∀ v ∈ vars, Begins x v.1) {s : List α} (hs : x ∉ s) (rest : List α) :
    substitute vars (s ++ rest) = s ++ substitute vars rest := by
  induction s with
  | nil => rfl
  | cons c s ih =>
    have hc : x ≠ c := fun h => hs (h ▸ mem_cons_self)
    have hfi : (vars.find? fun v => v.1.isPrefixOf (c :: (s ++ rest))) = none := by
      refine find?_eq_none.mpr fun v hv hp => ?_
      obtain ⟨w, hw, -⟩ := hva v hv
      rw [hw] at hp
      exact hc (cons_prefix_cons.mp (List.isPrefixOf_iff_prefix.mp hp)).1
    rw [cons_append, substitute_cons hfi, ih fun h => hs (mem_cons_of_mem c h), cons_append]

/-! ## One name more -/

theorem find?_concat {hfo : Option (List α × List α)} {head : List α} (vars : List (List α × List α))
    (var : List α × List α)
    (hfi : (vars.find? fun v => v.1.isPrefixOf head) = hfo) :
    ((vars ++ [var]).find? fun v => v.1.isPrefixOf head) =
    hfo.or (if var.1.isPrefixOf head then some var else none) := by
  rw [find?_append, hfi, find?_singleton]

/-- One name more changes nothing before the first place where it is. -/
theorem prefix_substitute_concat (hva : ∀ v ∈ vars, Begins x v.1) (hvar : Begins x var.1) {s : List α}
    (hs : x ∉ s)
    (text : List α) (h : s <+: substitute vars text) : s <+: substitute (vars ++ [var]) text := by
  rcases text_cases (fun v hv => (hva v hv).ne_nil) text
    with rfl | ⟨u, rest, hu, ht, hfi, hlt⟩ | ⟨c, rest, ht, hfi⟩
  · exact h
  · -- a name of the list comes first in both
    have hb := find?_concat vars var hfi
    rw [ht] at hfi hb h ⊢
    rw [substitute_name (hva u hu).ne_nil hfi] at h
    rw [substitute_name (hva u hu).ne_nil hb]
    rcases prefix_or_prefix_of_prefix h (prefix_append u.2 _) with hin | ⟨s', hs'⟩
    · exact hin.trans (prefix_append u.2 _)
    · rw [← hs'] at h hs ⊢
      exact (prefix_append_right_inj u.2).mpr
        (prefix_substitute_concat hva hvar (fun hm => hs (mem_append_right u.2 hm))
        rest ((prefix_append_right_inj u.2).mp h))
  · cases s with
    | nil => exact nil_prefix
    | cons d s =>
      have hb := find?_concat vars var hfi
      rw [ht] at hfi hb h ⊢
      rw [substitute_cons hfi] at h
      obtain ⟨hd, h⟩ := cons_prefix_cons.mp h
      -- the name that is added begins with another character
      have hno : ¬var.1.isPrefixOf (c :: rest) = true := by
        intro hp
        obtain ⟨w, hw, -⟩ := hvar
        rw [hw] at hp
        obtain ⟨hx, -⟩ := cons_prefix_cons.mp (List.isPrefixOf_iff_prefix.mp hp)
        exact hs (by rw [hx, hd]; exact mem_cons_self)
      rw [if_neg hno] at hb
      rw [substitute_cons hb]
      exact cons_prefix_cons.mpr
        ⟨hd, prefix_substitute_concat hva hvar (fun hm => hs (mem_cons_of_mem d hm)) rest h⟩
termination_by text.length

/-- A name that does not begin in the first part of a text. -/
theorem substitute_singleton_append {front back : List α}
    (h : ∀ t, t <:+ front → t ≠ [] → ¬var.1 <+: t ++ back) :
    substitute [var] (front ++ back) = front ++ substitute [var] back := by
  induction front with
  | nil => rfl
  | cons c front ih =>
    have ho : ¬var.1 <+: c :: (front ++ back) := h (c :: front) suffix_rfl (cons_ne_nil _ _)
    rw [cons_append, substitute_other ho, ih fun t ht => h t (ht.trans (suffix_cons c front)), cons_append]

theorem not_prefix_of_not_infix (hv : ∀ v ∈ vars, Begins x v.1) (hva : Begins x var.1) {blank front : List α}
    (h : ¬var.1 <:+: front ++ substitute (vars ++ [(var.1, blank)]) rest) {t : List α} (ht : t <:+ front)
    (hne : t ≠ []) :
    ¬var.1 <+: t ++ substitute vars rest := by
  intro hp
  have hsu : t ++ substitute (vars ++ [(var.1, blank)]) rest <:+ front ++
      substitute (vars ++ [(var.1, blank)]) rest := by
    obtain ⟨a, rfl⟩ := ht
    rw [append_assoc]
    exact suffix_append a _
  refine h (List.IsInfix.trans (List.IsPrefix.isInfix ?_) hsu.isInfix)
  rcases prefix_or_prefix_of_prefix hp (prefix_append t _) with hin | ⟨s, hs⟩
  · exact hin.trans (prefix_append t _)
  · -- the rest of the name has no first character of a name
    obtain ⟨w, hw, hx⟩ := hva
    have hsx : x ∉ s := by
      obtain ⟨c, t, rfl⟩ := exists_cons_of_ne_nil hne
      rw [hw] at hs
      obtain ⟨-, rfl⟩ := List.cons.inj hs
      exact fun hm => hx (mem_append_right t hm)
    have hba : s <+: substitute vars rest := (prefix_append_right_inj t).mp (hs ▸ hp)
    have hbe : Begins x (var.1, blank).1 := ⟨w, hw, hx⟩
    have hb := prefix_substitute_concat hv hbe hsx rest hba
    rw [← hs] at hb ⊢
    exact (prefix_append_right_inj t).mpr hb

/-- **One name more.** Where the name is not in the text with the other values and a blank for it, it is replaced in the
text with the other values just where it is in the first text. -/
theorem substitute_concat (hva : ∀ v ∈ vars, Begins x v.1) (hvar : Begins x var.1) (blank : List α)
    (text : List α)
    (h : ¬var.1 <:+: substitute (vars ++ [(var.1, blank)]) text) :
    substitute [var] (substitute vars text) = substitute (vars ++ [var]) text := by
  rcases text_cases (fun v hv => (hva v hv).ne_nil) text
    with rfl | ⟨u, rest, hu, hte, hfi, hlt⟩ | ⟨c, rest, hte, hfi⟩
  · rfl
  · -- the value of another name
    have hbo := find?_concat vars var hfi
    have hb := find?_concat vars (var.1, blank) hfi
    rw [hte] at hfi hbo hb h ⊢
    rw [substitute_name (hva u hu).ne_nil hb] at h
    rw [substitute_name (hva u hu).ne_nil hfi, substitute_name (hva u hu).ne_nil hbo,
      substitute_singleton_append fun t => not_prefix_of_not_infix hva hvar h,
      substitute_concat hva hvar blank rest fun ht => h (ht.trans (suffix_append u.2 _).isInfix)]
  · have hbo := find?_concat vars var hfi
    have hb := find?_concat vars (var.1, blank) hfi
    by_cases hp : var.1.isPrefixOf text = true
    · -- the name itself
      rw [if_pos hp, Option.none_or] at hbo
      rw [if_pos (show (var.1, blank).1.isPrefixOf text = true from hp), Option.none_or] at hb
      obtain ⟨w, hw, hx⟩ := hvar
      obtain ⟨after, ha⟩ := isPrefixOf_iff_prefix.mp hp
      have hlt : after.length < text.length := by
        rw [← ha, hw, length_append, length_cons]
        omega
      rw [← ha] at hfi hbo hb h ⊢
      have hna : substitute vars (var.1 ++ after) = var.1 ++ substitute vars after := by
        rw [hw, cons_append] at hfi ⊢
        rw [substitute_cons hfi, substitute_append hva hx, cons_append]
      have hne : var.1 ≠ [] := hw ▸ cons_ne_nil x w
      have hrest : substitute (vars ++ [(var.1, blank)]) (var.1 ++ after) = blank ++
          substitute (vars ++ [(var.1, blank)]) after :=
        substitute_name (show (var.1, blank).1 ≠ [] from hne) hb
      rw [hrest] at h
      rw [hna, substitute_self hne, substitute_name hne hbo,
        substitute_concat hva ⟨w, hw, hx⟩ blank after fun ht => h (ht.trans (suffix_append blank _).isInfix)]
    · -- another character
      rw [if_neg hp] at hbo hb
      rw [hte] at hfi hbo hb h ⊢
      rw [substitute_cons hb] at h
      have hpa : substitute [var] ([c] ++ substitute vars rest) = [c] ++ substitute [var] (substitute vars rest) :=
        substitute_singleton_append fun t => not_prefix_of_not_infix hva hvar h
      rw [singleton_append, singleton_append] at hpa
      rw [substitute_cons hfi, substitute_cons hbo, hpa, substitute_concat hva hvar blank rest fun ht =>
        h (infix_cons ht)]
termination_by text.length

theorem substitute_nil (text : List α) : substitute [] text = text := by
  induction text with
  | nil => rfl
  | cons c text ih => rw [substitute_cons rfl, ih]

/-- **One name after the other.** No name is in the text with the values of the names before it and a blank for itself.
-/
theorem foldl_substitute (hva : ∀ v ∈ vars, Begins x v.1) (blank text : List α)
    (h : ∀ before var after, vars = before ++ var :: after →
      ¬var.1 <:+: substitute (before ++ [(var.1, blank)]) text) :
    vars.foldl (fun s var => substitute [var] s) text = substitute vars text := by
  induction vars using List.reverseRecOn with
  | nil => exact (substitute_nil text).symm
  | append_singleton vars var ih =>
    have hb : ∀ v ∈ vars, Begins x v.1 := fun v hv => hva v (mem_append_left _ hv)
    have hvar : Begins x var.1 := hva var (mem_append_right _ (mem_singleton_self var))
    rw [List.foldl_append, foldl_cons, ih hb]
    · exact substitute_concat hb hvar blank text (h vars var [] rfl)
    · intro before v after hsplit
      exact h before v (after ++ [var]) (by rw [hsplit, append_assoc, cons_append])

/-! ## One name in a text of several parts -/

theorem mem_substitute {c : α} (text : List α) (hna : ∀ v ∈ vars, v.1 ≠ []) (h : c ∈ substitute vars text) :
    c ∈ text ∨ ∃ v ∈ vars, c ∈ v.2 := by
  rcases text_cases hna text with rfl | ⟨u, rest, hu, ht, hfi, hlt⟩ | ⟨d, rest, ht, hfi⟩
  · cases h
  · rw [ht] at hfi h
    rw [substitute_name (hna u hu) hfi, mem_append] at h
    rcases h with h | h
    · exact .inr ⟨u, hu, h⟩
    · exact (mem_substitute rest hna h).imp_left fun hrest => ht ▸ mem_append_right u.1 hrest
  · rw [ht] at hfi h
    rw [substitute_cons hfi, mem_cons] at h
    rcases h with rfl | h
    · exact .inl (ht ▸ mem_cons_self)
    · exact (mem_substitute rest hna h).imp_left fun hrest => ht ▸ mem_cons_of_mem d hrest
termination_by text.length

/-- A character that the name does not have cuts the text. -/
theorem substitute_cut {d : α} (hne : var.1 ≠ []) (hd : d ∉ var.1) (text back : List α) :
    substitute [var] (text ++ d :: back) = substitute [var] text ++ d :: substitute [var] back := by
  by_cases hp : var.1 <+: text
  · obtain ⟨rest, hrest⟩ := hp
    have hs : rest.length < text.length := by
      rw [← hrest, length_append]
      exact Nat.lt_add_of_pos_left (length_pos_iff.mpr hne)
    rw [← hrest, append_assoc, substitute_self hne, substitute_self hne, substitute_cut hne hd rest back,
      append_assoc]
  · have hl : ¬var.1 <+: text ++ d :: back := by
      intro hl
      rcases prefix_or_prefix_of_prefix hl (prefix_append text _) with hin | ⟨w, hw⟩
      · exact hp hin
      · -- the name would begin before the character and end behind it
        rw [← hw] at hp hl hd
        cases w with
        | nil => exact hp (by simp)
        | cons e w =>
          have hh := (cons_prefix_cons.mp ((prefix_append_right_inj text).mp hl)).1
          exact hd (mem_append_right text (hh ▸ mem_cons_self))
    cases text with
    | nil =>
      rw [nil_append, substitute_other hl]
      rfl
    | cons c text =>
      rw [cons_append] at hl ⊢
      rw [substitute_other hl, substitute_other hp, substitute_cut hne hd text back, cons_append]
termination_by text.length

/-- The parts between such characters. -/
theorem splitOn_substitute {d : α} (hne : var.1 ≠ []) (hd : d ∉ var.1) (hva : d ∉ var.2) (text : List α) :
    (substitute [var] text).splitOn d = (text.splitOn d).map (substitute [var]) := by
  have hna : ∀ v ∈ [var], v.1 ≠ [] := by simpa using hne
  have hp (s : List α) (hs : d ∉ s) : (substitute [var] s).splitOn d = [substitute [var] s] := by
    refine splitOn_eq_singleton fun hm => ?_
    rcases mem_substitute s hna hm with h | ⟨v, hv, h⟩
    · exact hs h
    · exact hva (mem_singleton.mp hv ▸ h)
  by_cases hm : d ∈ text
  · obtain ⟨l, r, ht, hl⟩ := eq_append_cons_of_mem hm
    have hsh : r.length < text.length := by simp [ht]; omega
    rw [ht, substitute_cut hne hd, splitOn_append_cons_self, hp l hl, splitOn_substitute hne hd hva r,
      splitOn_append_cons_self_of_not_mem hl, map_cons, singleton_append]
  · rw [hp text hm, splitOn_eq_singleton hm, map_singleton]
termination_by text.length

end Lib.Substitution
