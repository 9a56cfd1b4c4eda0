import Mathlib.Order.CompletePartialOrder
import Mathlib.Order.Cover
import Mathlib.Data.Set.Lattice
import Mathlib.Data.List.Pairwise

/-!
# Lists of separated closed ranges

Closed, non-empty ranges of a linear order, together with a relation `Adj` that says which points are direct
neighbours (`Adj a b` implies `a ⋖ b`; the order may have covering pairs that are not neighbours).

* `Before r s`: `r` ends before `s` starts and the two do not touch; `Apart` is its symmetric closure.
* Ranges that are not apart have a hull that is their union (`hull_toSet`), and what is apart from both of them is
  apart from the hull (`Apart.hull`).
* Sub-ranges of ranges that are apart are apart (`Apart.mono`).
* `Separated` lists are ordered by `Before`; inserting a range that is apart from all members keeps this
  (`separated_insertSorted`).
-/

namespace Lib.Ranges

open List

@[ext] structure Rng (α : Type*) [LE α] where
  start : α
  stop : α
  start_le_stop : start ≤ stop

variable {α : Type*} [LinearOrder α]

def Rng.toSet (r : Rng α) : Set α := Set.Icc r.start r.stop

theorem Rng.mem_toSet {r : Rng α} {a : α} : a ∈ r.toSet ↔ r.start ≤ a ∧ a ≤ r.stop := Iff.rfl

theorem Rng.toSet_subset {r s : Rng α} : r.toSet ⊆ s.toSet ↔ s.start ≤ r.start ∧ r.stop ≤ s.stop :=
  Set.Icc_subset_Icc_iff r.start_le_stop

def Rng.hull (r s : Rng α) : Rng α :=
  ⟨min r.start s.start, max r.stop s.stop, (min_le_left _ _).trans (r.start_le_stop.trans (le_max_left _ _))⟩

/-! ## Separation -/

section Separation

variable {Adj : α → α → Prop}

/-- `r` ends before `s` starts, and they do not touch. -/
def Before (Adj : α → α → Prop) (r s : Rng α) : Prop := r.stop < s.start ∧ ¬Adj r.stop s.start

def Apart (Adj : α → α → Prop) (r s : Rng α) : Prop := Before Adj r s ∨ Before Adj s r

theorem Before.start_lt {r s : Rng α} (h : Before Adj r s) : r.start < s.start := lt_of_le_of_lt r.start_le_stop h.1

theorem Before.disjoint {r s : Rng α} (h : Before Adj r s) : Disjoint r.toSet s.toSet := by
  rw [Set.disjoint_left]
  intro a ha hb
  exact absurd (lt_of_le_of_lt ha.2 h.1) (not_lt.mpr hb.1)

/-- Overlapping ranges are not apart. -/
theorem not_apart_of_overlap {r s : Rng α} (h₁ : r.start ≤ s.stop) (h₂ : s.start ≤ r.stop) :
    ¬Apart Adj r s := by
  rintro (h | h)
  · exact absurd h.1 (not_lt.mpr h₂)
  · exact absurd h.1 (not_lt.mpr h₁)

theorem overlap_or_adj_of_not_apart {r s : Rng α} (h : ¬Apart Adj r s) :
    (r.start ≤ s.stop ∧ s.start ≤ r.stop) ∨ Adj r.stop s.start ∨ Adj s.stop r.start := by
  by_cases h₁ : r.stop < s.start
  · by_cases ha : Adj r.stop s.start
    · exact .inr (.inl ha)
    · exact absurd (.inl ⟨h₁, ha⟩) h
  · by_cases h₂ : s.stop < r.start
    · by_cases ha : Adj s.stop r.start
      · exact .inr (.inr ha)
      · exact absurd (.inr ⟨h₂, ha⟩) h
    · exact .inl ⟨not_lt.mp h₂, not_lt.mp h₁⟩

variable (hAdj : ∀ {a b : α}, Adj a b → a ⋖ b)
include hAdj

/-- A range strictly between two points keeps them from being neighbours. -/
theorem not_adj_of_between {a b : α} {r : Rng α} (h₁ : a < r.start) (h₂ : r.stop < b) : ¬Adj a b := fun h =>
  (hAdj h).2 h₁ (lt_of_le_of_lt r.start_le_stop h₂)

theorem Before.trans {r s t : Rng α} (h₁ : Before Adj r s) (h₂ : Before Adj s t) : Before Adj r t :=
  ⟨h₁.1.trans (lt_of_le_of_lt s.start_le_stop h₂.1), not_adj_of_between hAdj h₁.1 h₂.1⟩

/-- Sub-ranges of separated ranges are separated. -/
theorem Before.mono {r s r' s' : Rng α} (h : Before Adj r s) (hr : r'.toSet ⊆ r.toSet) (hs : s'.toSet ⊆ s.toSet) :
    Before Adj r' s' := by
  have hr' := (Rng.toSet_subset.mp hr).2
  have hs' := (Rng.toSet_subset.mp hs).1
  refine ⟨lt_of_le_of_lt hr' (lt_of_lt_of_le h.1 hs'), fun ha => h.2 ?_⟩
  -- neighbours leave no room, so the sub-ranges share the touching end points
  have hc := hAdj ha
  have e₁ : r'.stop = r.stop := by
    rcases hr'.lt_or_eq with hlt | he
    · exact absurd (lt_of_lt_of_le h.1 hs') (hc.2 hlt)
    · exact he
  have e₂ : s'.start = s.start := by
    rcases hs'.lt_or_eq with hlt | he
    · exact absurd hlt (hc.2 (lt_of_le_of_lt hr' h.1))
    · exact he.symm
  rw [← e₁, ← e₂]; exact ha

theorem Apart.mono {r s r' s' : Rng α} (h : Apart Adj r s) (hr : r'.toSet ⊆ r.toSet) (hs : s'.toSet ⊆ s.toSet) :
    Apart Adj r' s' := by
  rcases h with h | h
  · exact .inl (h.mono hAdj hr hs)
  · exact .inr (h.mono hAdj hs hr)

/-- A point inside the hull of two ranges that are not apart is in one of them. -/
theorem mem_of_mem_hull {r s : Rng α} (h : ¬Apart Adj r s) {a : α} (ha : a ∈ (r.hull s).toSet) :
    a ∈ r.toSet ∨ a ∈ s.toSet := by
  obtain ⟨h₁, h₂⟩ := ha
  simp only [Rng.hull, min_le_iff, le_max_iff] at h₁ h₂
  rcases overlap_or_adj_of_not_apart h with ⟨ho₁, ho₂⟩ | had | had
  · rcases h₁ with h₁ | h₁ <;> rcases h₂ with h₂ | h₂
    · exact .inl ⟨h₁, h₂⟩
    · rcases le_total a r.stop with hle | hle
      · exact .inl ⟨h₁, hle⟩
      · exact .inr ⟨ho₂.trans hle, h₂⟩
    · rcases le_total a s.stop with hle | hle
      · exact .inr ⟨h₁, hle⟩
      · exact .inl ⟨ho₁.trans hle, h₂⟩
    · exact .inr ⟨h₁, h₂⟩
  · have hlt := (hAdj had).lt
    rcases le_or_gt a r.stop with hle | hgt
    · refine .inl ⟨?_, hle⟩
      rcases h₁ with h₁ | h₁
      · exact h₁
      · exact absurd (lt_of_lt_of_le hlt h₁) (not_lt.mpr hle)
    · refine .inr ⟨?_, ?_⟩
      · exact not_lt.mp (fun hl' => (hAdj had).2 hgt hl')
      · rcases h₂ with h₂ | h₂
        · exact absurd hgt (not_lt.mpr h₂)
        · exact h₂
  · have hlt := (hAdj had).lt
    rcases le_or_gt a s.stop with hle | hgt
    · refine .inr ⟨?_, hle⟩
      rcases h₁ with h₁ | h₁
      · exact absurd (lt_of_lt_of_le hlt h₁) (not_lt.mpr hle)
      · exact h₁
    · refine .inl ⟨?_, ?_⟩
      · exact not_lt.mp (fun hl' => (hAdj had).2 hgt hl')
      · rcases h₂ with h₂ | h₂
        · exact h₂
        · exact absurd hgt (not_lt.mpr h₂)

/-- Ranges that are not apart have their union as hull. -/
theorem hull_toSet {r s : Rng α} (h : ¬Apart Adj r s) : (r.hull s).toSet = r.toSet ∪ s.toSet := by
  refine Set.Subset.antisymm (fun a ha => mem_of_mem_hull hAdj h ha) (Set.union_subset ?_ ?_)
  · exact Rng.toSet_subset.mpr ⟨min_le_left _ _, le_max_left _ _⟩
  · exact Rng.toSet_subset.mpr ⟨min_le_right _ _, le_max_right _ _⟩

/-- What is apart from two ranges that are not apart is on one side of both. -/
theorem Apart.hull {c r s : Rng α} (h : ¬Apart Adj r s) (hr : Apart Adj c r) (hs : Apart Adj c s) :
    Apart Adj c (r.hull s) := by
  rcases hr with hr | hr <;> rcases hs with hs | hs
  · refine .inl ⟨lt_min hr.1 hs.1, ?_⟩
    rcases min_choice r.start s.start with e | e
    · show ¬Adj c.stop (min r.start s.start); rw [e]; exact hr.2
    · show ¬Adj c.stop (min r.start s.start); rw [e]; exact hs.2
  · exact absurd (.inr (hs.trans hAdj hr)) h
  · exact absurd (.inl (hr.trans hAdj hs)) h
  · refine .inr ⟨max_lt hr.1 hs.1, ?_⟩
    rcases max_choice r.stop s.stop with e | e
    · show ¬Adj (max r.stop s.stop) c.start; rw [e]; exact hr.2
    · show ¬Adj (max r.stop s.stop) c.start; rw [e]; exact hs.2

end Separation

/-! ## Lists of ranges -/

section Lists

variable {ρ : Type*} (f : ρ → Rng α)

/-- The points covered by a list of things that denote ranges. -/
def cover (l : List ρ) : Set α := {a | ∃ r ∈ l, a ∈ (f r).toSet}

theorem mem_cover {l : List ρ} {a : α} : a ∈ cover f l ↔ ∃ r ∈ l, a ∈ (f r).toSet := Iff.rfl

@[simp] theorem cover_nil : cover f [] = ∅ := by ext a; simp [mem_cover]

@[simp] theorem cover_cons (r : ρ) (l : List ρ) : cover f (r :: l) = (f r).toSet ∪ cover f l := by
  ext a; simp [mem_cover]

@[simp] theorem cover_append (l l' : List ρ) : cover f (l ++ l') = cover f l ∪ cover f l' := by
  ext a
  simp only [mem_cover, mem_append, Set.mem_union]
  constructor
  · rintro ⟨r, hr | hr, h⟩
    · exact .inl ⟨r, hr, h⟩
    · exact .inr ⟨r, hr, h⟩
  · rintro (⟨r, hr, h⟩ | ⟨r, hr, h⟩)
    · exact ⟨r, .inl hr, h⟩
    · exact ⟨r, .inr hr, h⟩

theorem cover_congr {l l' : List ρ} (h : ∀ r, r ∈ l ↔ r ∈ l') : cover f l = cover f l' := by
  ext a; simp only [mem_cover, h]

variable (Adj : α → α → Prop)

/-- Ordered, pairwise disjoint and nowhere touching. -/
def Separated (l : List ρ) : Prop := l.Pairwise (fun r s => Before Adj (f r) (f s))

variable {f Adj}

theorem Separated.sublist {l l' : List ρ} (h : Separated f Adj l) (hs : l'.Sublist l) : Separated f Adj l' :=
  List.Pairwise.sublist hs h

theorem Separated.apart_of_cons {r : ρ} {l : List ρ} (h : Separated f Adj (r :: l)) :
    ∀ s ∈ l, Apart Adj (f r) (f s) := fun _ hs => .inl (rel_of_pairwise_cons h hs)

/-- A range that a separated list covers lies in one of its members. -/
theorem Separated.exists_subset (hAdj : ∀ {a b : α}, Adj a b → a ⋖ b) {l : List ρ}
    (h : Separated f Adj l) {q : Rng α}
    (hnext : ∀ {a b : α}, a ∈ q.toSet → b ∈ q.toSet → a < b → ∃ n, Adj a n)
    (hq : q.toSet ⊆ cover f l) :
    ∃ r ∈ l, q.toSet ⊆ (f r).toSet := by
  obtain ⟨r, hr, hst⟩ := hq ⟨le_rfl, q.start_le_stop⟩
  refine ⟨r, hr, fun a ha => ⟨hst.1.trans ha.1, not_lt.mp fun hlt => ?_⟩⟩
  -- the point after the member is covered by another one, which would touch it
  obtain ⟨n, hn⟩ := hnext ⟨hst.2, hlt.le.trans ha.2⟩ ha hlt
  have hna : n ≤ a := not_lt.mp fun h => (hAdj hn).2 hlt h
  obtain ⟨s, hs, hns⟩ := hq ⟨hst.2.trans (hAdj hn).lt.le, hna.trans ha.2⟩
  have hne : r ≠ s := by
    rintro rfl
    exact absurd hns.2 (not_le.mpr (hAdj hn).lt)
  have : Std.Symm fun r s => Apart Adj (f r) (f s) := ⟨fun _ _ => Or.symm⟩
  have hap : l.Pairwise fun r s => Apart Adj (f r) (f s) := h.imp Or.inl
  rcases hap.forall hr hs hne with hb | hb
  · obtain rfl : n = (f s).start := le_antisymm (not_lt.mp fun h => (hAdj hn).2 hb.1 h) hns.1
    exact hb.2 hn
  · exact absurd (hns.2.trans_lt (hb.1.trans_le (f r).start_le_stop)) (hAdj hn).lt.asymm

/-- Insert into a list ordered by the three-way comparison `cmp`; an equal member is kept instead. -/
def insertSorted (cmp : ρ → ρ → Int) (r : ρ) : List ρ → List ρ
  | [] => [r]
  | c :: l => if cmp r c < 0 then r :: c :: l else if cmp r c = 0 then c :: l else c :: insertSorted cmp r l

section Insert

variable {cmp : ρ → ρ → Int} (hlt : ∀ {r s}, Before Adj (f r) (f s) → cmp r s < 0)
  (hgt : ∀ {r s}, Before Adj (f s) (f r) → 0 < cmp r s)
include hlt hgt

theorem mem_insertSorted {r s : ρ} : ∀ {l : List ρ}, (∀ c ∈ l, Apart Adj (f c) (f r)) →
    (s ∈ insertSorted cmp r l ↔ s = r ∨ s ∈ l)
  | [], _ => by simp [insertSorted]
  | c :: l, ha => by
    rcases ha c mem_cons_self with hb | hb
    · have h := hgt hb
      rw [insertSorted, if_neg (by omega), if_neg (by omega)]
      simp only [mem_cons, mem_insertSorted (fun d hd => ha d (mem_cons_of_mem _ hd))]
      tauto
    · rw [insertSorted, if_pos (hlt hb)]
      simp

/-- Inserting a range that is apart from all members keeps a list separated. -/
theorem separated_insertSorted (hAdj : ∀ {a b : α}, Adj a b → a ⋖ b) {r : ρ} : ∀ {l : List ρ},
    Separated f Adj l → (∀ c ∈ l, Apart Adj (f c) (f r)) → Separated f Adj (insertSorted cmp r l)
  | [], _, _ => by simp [insertSorted, Separated]
  | c :: l, hl, ha => by
    obtain ⟨hc, hl'⟩ := pairwise_cons.mp hl
    have ha' : ∀ d ∈ l, Apart Adj (f d) (f r) := fun d hd => ha d (mem_cons_of_mem _ hd)
    rcases ha c mem_cons_self with hb | hb
    · have h := hgt hb
      rw [insertSorted, if_neg (by omega), if_neg (by omega)]
      refine pairwise_cons.mpr ⟨fun s hs => ?_, separated_insertSorted hAdj hl' ha'⟩
      rcases (mem_insertSorted hlt hgt ha').mp hs with rfl | hs
      · exact hb
      · exact hc s hs
    · rw [insertSorted, if_pos (hlt hb)]
      refine pairwise_cons.mpr ⟨fun s hs => ?_, hl⟩
      rcases mem_cons.mp hs with rfl | hs
      · exact hb
      · exact hb.trans hAdj (hc s hs)

end Insert

end Lists

end Lib.Ranges
