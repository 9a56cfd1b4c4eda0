/-!
# Lines of a stream

A stream is cut at a separator into the lines that end in one and the rest. A reader that keeps the rest in a buffer and
cuts what it gets sees the same lines, however the stream is split.

* `lines_append`, `rest_append`: a stream that is read in two parts.
* `splitOn_border`: the one line that a border takes apart.
* `lines_flatMap_iff`: texts that are written one on a line.
* `intercalate_cons`: parts with the separator in front.
-/

namespace Lib.Lines

open List

variable {α : Type} [DecidableEq α] (sep : α)

/-- The first line of a buffer, and what follows it. -/
def takeLine (buffer : List α) : Option (List α × List α) :=
  (buffer.findIdx? (· == sep)).map fun pos => (buffer.take pos, buffer.drop (pos + 1))

def lines (s : List α) : List (List α) := (s.splitOn sep).dropLast

def rest (s : List α) : List α := (s.splitOn sep).getLastD []

variable {sep} {a b l r s : List α}

theorem takeLine_of_notMem (h : sep ∉ s) : takeLine sep s = none := by
  rw [takeLine, Option.map_eq_none_iff, findIdx?_eq_none_iff]
  intro x hx
  exact beq_eq_false_iff_ne.mpr fun heq => h (heq ▸ hx)

theorem takeLine_cut (h : sep ∉ l) : takeLine sep (l ++ sep :: r) = some (l, r) := by
  have hno : l.findIdx? (· == sep) = none := by
    rw [findIdx?_eq_none_iff]
    intro x hx
    exact beq_eq_false_iff_ne.mpr fun heq => h (heq ▸ hx)
  have hi : (l ++ sep :: r).findIdx? (· == sep) = some l.length := by
    rw [findIdx?_append, hno, findIdx?_cons, beq_self_eq_true]
    simp
  rw [takeLine, hi, Option.map_some, drop_append]
  simp

theorem takeLine_eq_some_iff : takeLine sep s = some (l, r) ↔ s = l ++ sep :: r ∧ sep ∉ l := by
  constructor
  · intro h
    have hm : sep ∈ s := Decidable.byContradiction fun hno => by
      rw [takeLine_of_notMem hno] at h
      cases h
    obtain ⟨l', r', rfl, hl'⟩ := eq_append_cons_of_mem hm
    rw [takeLine_cut hl'] at h
    cases h
    exact ⟨rfl, hl'⟩
  · rintro ⟨rfl, hl⟩
    exact takeLine_cut hl

theorem takeLine_eq_none_iff : takeLine sep s = none ↔ sep ∉ s := by
  constructor
  · intro h hm
    obtain ⟨l, r, rfl, hl⟩ := eq_append_cons_of_mem hm
    rw [takeLine_cut hl] at h
    cases h
  · exact takeLine_of_notMem

theorem lines_of_notMem (h : sep ∉ s) : lines sep s = [] := by
  rw [lines, splitOn_eq_singleton h]
  rfl

theorem rest_of_notMem (h : sep ∉ s) : rest sep s = s := by
  rw [rest, splitOn_eq_singleton h]
  rfl

theorem lines_cut (h : sep ∉ l) : lines sep (l ++ sep :: r) = l :: lines sep r := by
  rw [lines, splitOn_append_cons_self_of_not_mem h, dropLast_cons_of_ne_nil (splitOn_ne_nil sep r), lines]

theorem rest_cut (h : sep ∉ l) : rest sep (l ++ sep :: r) = rest sep r := by
  rw [rest, splitOn_append_cons_self_of_not_mem h, rest]
  obtain ⟨x, xs, hxs⟩ := exists_cons_of_ne_nil (splitOn_ne_nil sep r)
  rw [hxs]
  rfl

/-! ## Streams in parts -/

/-- A stream that is read in two parts: the rest of the first one is read again. -/
theorem append_eq (s t : List α) :
    lines sep (s ++ t) = lines sep s ++ lines sep (rest sep s ++ t) ∧
    rest sep (s ++ t) = rest sep (rest sep s ++ t) := by
  by_cases hm : sep ∈ s
  · -- the cut makes the first part shorter
    obtain ⟨l, r, hs, hl⟩ := eq_append_cons_of_mem hm
    have hsh : r.length < s.length := by simp [hs]; omega
    obtain ⟨hli, hrest⟩ := append_eq r t
    rw [hs, append_assoc, cons_append, lines_cut hl, lines_cut hl, rest_cut hl, rest_cut hl, hli]
    exact ⟨rfl, hrest⟩
  · rw [lines_of_notMem hm, rest_of_notMem hm]
    exact ⟨rfl, rfl⟩
termination_by s.length

theorem lines_append (s t : List α) : lines sep (s ++ t) = lines sep s ++ lines sep (rest sep s ++ t) :=
  (append_eq s t).1

theorem rest_append (s t : List α) : rest sep (s ++ t) = rest sep (rest sep s ++ t) := (append_eq s t).2

variable (sep) in
/-- The first line of what is put before `t` ends with the first line of `t`. -/
theorem splitOn_first (t : List α) : ∃ after, ∀ s : List α, sep ∉ s →
    (s ++ t).splitOn sep = (s ++ t.takeWhile (· ≠ sep)) :: after := by
  have hw {l : List α} (hl : sep ∉ l) (r : List α) : (l ++ r).takeWhile (· ≠ sep) = l ++
      r.takeWhile (· ≠ sep) :=
    takeWhile_append_of_pos fun x hx => by simpa using fun heq : x = sep => hl (heq ▸ hx)
  by_cases hm : sep ∈ t
  · obtain ⟨l, r, rfl, hl⟩ := eq_append_cons_of_mem hm
    refine ⟨r.splitOn sep, fun s hs => ?_⟩
    rw [hw hl, ← append_assoc, splitOn_append_cons_self_of_not_mem (by simp [hs, hl])]
    simp
  · refine ⟨[], fun s hs => ?_⟩
    have ht := hw hm []
    rw [append_nil, takeWhile_nil, append_nil] at ht
    rw [ht, splitOn_eq_singleton (by simp [hs, hm])]

variable {texts : List (List α)}

theorem lines_flatMap (h : ∀ t ∈ texts, sep ∉ t) : lines sep (texts.flatMap (· ++ [sep])) = texts := by
  induction texts with
  | nil => rw [flatMap_nil, lines_of_notMem not_mem_nil]
  | cons t texts ih =>
    rw [flatMap_cons, append_assoc, singleton_append, lines_cut (h t mem_cons_self),
      ih fun t' ht' => h t' (mem_cons_of_mem _ ht')]

theorem mem_splitOn (s : List α) (h : l ∈ s.splitOn sep) : sep ∉ l ∧ l <:+: s := by
  by_cases hm : sep ∈ s
  · obtain ⟨l', r, hs, hl'⟩ := eq_append_cons_of_mem hm
    have hsh : r.length < s.length := by simp [hs]; omega
    rw [hs, splitOn_append_cons_self_of_not_mem hl'] at h
    rw [hs]
    rcases mem_cons.mp h with rfl | hr
    · exact ⟨hl', (prefix_append l _).isInfix⟩
    · obtain ⟨hse, hi⟩ := mem_splitOn r hr
      exact ⟨hse, hi.trans ((suffix_cons sep r).trans (suffix_append l' _)).isInfix⟩
  · rw [splitOn_eq_singleton hm, mem_singleton] at h
    rw [h]
    exact ⟨hm, infix_rfl⟩
termination_by s.length

theorem sep_notMem_of_mem_splitOn (s : List α) (h : l ∈ s.splitOn sep) : sep ∉ l := (mem_splitOn s h).1

theorem sep_notMem_of_mem_lines (s : List α) (h : l ∈ lines sep s) : sep ∉ l :=
  sep_notMem_of_mem_splitOn s ((dropLast_sublist (s.splitOn sep)).subset h)

/-- **Texts that are written one on a line are read back if none has a separator.** -/
theorem lines_flatMap_iff : lines sep (texts.flatMap (· ++ [sep])) = texts ↔ ∀ t ∈ texts, sep ∉ t := by
  constructor
  · intro h t ht
    rw [← h] at ht
    exact sep_notMem_of_mem_lines _ ht
  · exact lines_flatMap

/-! ## Parts of a text -/

theorem infix_of_mem_splitOn (s : List α) (h : l ∈ s.splitOn sep) : l <:+: s := (mem_splitOn s h).2

/-- The parts of a text of separators. -/
theorem eq_nil_of_mem_splitOn {s : List α} (hs : ∀ x ∈ s, x = sep) (h : l ∈ s.splitOn sep) : l = [] := by
  refine eq_nil_iff_forall_not_mem.mpr fun x hx => ?_
  have hse := hs x ((infix_of_mem_splitOn s h).subset hx)
  exact sep_notMem_of_mem_splitOn s h (hse ▸ hx)

/-- Parts with the separator behind them, and what follows. -/
theorem splitOn_flatMap_append (parts : List (List α)) (s : List α) :
    (parts.flatMap (· ++ [sep]) ++ s).splitOn sep = parts.flatMap (List.splitOn sep) ++ s.splitOn sep := by
  induction parts with
  | nil => rfl
  | cons p parts ih =>
    rw [flatMap_cons, append_assoc, append_assoc, singleton_append, splitOn_append_cons_self, ih, flatMap_cons,
      append_assoc]

theorem flatMap_splitOn (h : ∀ t ∈ texts, sep ∉ t) : texts.flatMap (List.splitOn sep) = texts := by
  induction texts with
  | nil => rfl
  | cons t texts ih =>
    rw [flatMap_cons, splitOn_eq_singleton (h t mem_cons_self), singleton_append,
      ih fun t ht => h t (mem_cons_of_mem _ ht)]

theorem splitOn_flatMap (h : ∀ t ∈ texts, sep ∉ t) :
    (texts.flatMap (· ++ [sep])).splitOn sep = texts ++ [[]] := by
  rw [← append_nil (texts.flatMap (· ++ [sep])), splitOn_flatMap_append, flatMap_splitOn h, splitOn_nil]

/-- The last part is longer by what is put behind the text. -/
theorem splitOn_append_last (s : List α) (ht : sep ∉ b) :
    ∃ parts r, (s ++ b).splitOn sep = parts ++ [r ++ b] ∧ r <:+ s ∧ sep ∉ r := by
  by_cases hm : sep ∈ s
  · obtain ⟨l, r, hs, hl⟩ := eq_append_cons_of_mem hm
    have hsh : r.length < s.length := by simp [hs]; omega
    obtain ⟨parts, r', hp, hr', hno⟩ := splitOn_append_last r ht
    refine ⟨l :: parts, r', ?_, ?_, hno⟩
    · rw [hs, append_assoc, cons_append, splitOn_append_cons_self_of_not_mem hl, hp, cons_append]
    · rw [hs]
      exact hr'.trans ((suffix_cons sep r).trans (suffix_append l _))
  · refine ⟨[], s, ?_, suffix_rfl, hm⟩
    rw [splitOn_eq_singleton fun h => (mem_append.mp h).elim hm ht, nil_append]
termination_by s.length

theorem splitOn_append_flatMap (l : List α) (parts : List (List α)) :
    (l ++ parts.flatMap (sep :: ·)).splitOn sep = l.splitOn sep ++ parts.flatMap (List.splitOn sep) := by
  induction parts generalizing l with
  | nil => rw [flatMap_nil, append_nil, flatMap_nil, append_nil]
  | cons p parts ih => rw [flatMap_cons, cons_append, splitOn_append_cons_self, ih, flatMap_cons]

omit [DecidableEq α] in
theorem intercalate_cons (l : List α) (parts : List (List α)) :
    [sep].intercalate (l :: parts) = l ++ parts.flatMap (sep :: ·) := by
  induction parts generalizing l with
  | nil => rw [intercalate_singleton, flatMap_nil, append_nil]
  | cons p parts ih =>
    rw [intercalate_cons_cons, ih, flatMap_cons, append_assoc, singleton_append, cons_append]

omit [DecidableEq α] in
theorem intercalate_concat (parts : List (List α)) (l : List α) :
    [sep].intercalate (parts ++ [l]) = parts.flatMap (· ++ [sep]) ++ l := by
  induction parts with
  | nil => rw [nil_append, intercalate_singleton, flatMap_nil, nil_append]
  | cons p parts ih =>
    obtain ⟨q, rest, hrest⟩ := exists_cons_of_ne_nil (append_ne_nil_of_right_ne_nil parts (cons_ne_nil l []))
    rw [cons_append, hrest, intercalate_cons_cons, ← hrest, ih, flatMap_cons]
    simp only [append_assoc]

end Lib.Lines
