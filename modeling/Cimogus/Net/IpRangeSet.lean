import Cimogus.Net.IpRange

/-!
# `IpRangeSet`

The sorted set of ranges that `add` and `remove` keep: a list ordered by `IpRange.compareTo`, as a `TreeSet` iterates.
Both functions walk the set with an iterator that they also remove through; here the loops return the members that stay
together with what has to be put in afterwards.

`addLoop_spec` and `removeLoop_spec` say what one walk does; `run_spec` follows a whole history of calls: no call
throws, the ranges stay separated (`Separated`: strictly sorted, disjoint, and not adjacent inside a family), and the
addresses covered are those of the same history of set unions and differences.
-/

namespace Cimogus.Net

open Lib.Ranges
open IpAddress (Adj)

structure IpRangeSet where
  ranges : List IpRange

variable {l : List IpRange}

namespace IpRangeSet

def empty : IpRangeSet := ⟨[]⟩

open IpRange

/-- `TreeSet.add`. -/
def insert (ranges : List IpRange) (r : IpRange) : List IpRange := insertSorted compareTo r ranges

/-- `rangeToAdd.end < curRange.start && !rangeToAdd.end.isMaxIp() && rangeToAdd.end.inc() != curRange.start`. -/
def endsBefore (rangeToAdd curRange : IpRange) : Except String Bool :=
  if rangeToAdd.stop < curRange.start ∧ rangeToAdd.stop.isMaxIp = false then
    rangeToAdd.stop.inc.map (· != curRange.start)
  else .ok false

/-- The loop of `add`: the members that stay, and the range to put in (`none` if a member contains it already). -/
def addLoop (rangeToAdd : IpRange) : List IpRange → Except String (List IpRange × Option IpRange)
  | [] => .ok ([], some rangeToAdd)
  | curRange :: rest => do
    if ← endsBefore rangeToAdd curRange then return (curRange :: rest, some rangeToAdd)
    match ← curRange.plus rangeToAdd with
    | none =>
      let (ranges, r) ← addLoop rangeToAdd rest
      return (curRange :: ranges, r)
    | some resultRange =>
      if resultRange.compareTo curRange = 0 then return (curRange :: rest, none)
      else addLoop resultRange rest

def add (s : IpRangeSet) (ipRange : IpRange) : Except String IpRangeSet := do
  let (ranges, r) ← addLoop ipRange s.ranges
  return ⟨r.elim ranges (insert ranges)⟩

/-- The loop of `remove`: the members that stay, and `splitRanges`. -/
def removeLoop (ipRange : IpRange) : List IpRange → Except String (List IpRange × List IpRange)
  | [] => .ok ([], [])
  | curRange :: rest =>
    if ipRange.stop < curRange.start then .ok (curRange :: rest, [])
    else do
      match ← curRange.minus ipRange with
      | none =>
        let (ranges, splitRanges) ← removeLoop ipRange rest
        return (curRange :: ranges, splitRanges)
      | some resultRanges =>
        let (ranges, splitRanges) ← removeLoop ipRange rest
        return (ranges, resultRanges ++ splitRanges)

def remove (s : IpRangeSet) (ipRange : IpRange) : Except String IpRangeSet := do
  let (ranges, splitRanges) ← removeLoop ipRange s.ranges
  return ⟨splitRanges.foldl insert ranges⟩

def addresses (s : IpRangeSet) : Set IpAddress := cover toRng s.ranges

/-- Strictly sorted, pairwise disjoint and, inside one family, never adjacent. -/
def WellFormed (s : IpRangeSet) : Prop := Separated toRng Adj s.ranges

/-! ## `add` -/

theorem endsBefore_spec (r c : IpRange) :
    ∃ b, endsBefore r c = .ok b ∧ (b = true → Before Adj r.toRng c.toRng) := by
  unfold endsBefore
  split
  · rename_i h
    rcases r.stop.inc_spec with ⟨hm, _⟩ | ⟨_, next, he, _, _⟩
    · simp [hm] at h
    · rw [he]
      refine ⟨next != c.start, rfl, fun hb => ⟨h.1, fun ha => ?_⟩⟩
      rw [IpAddress.Adj, he] at ha
      cases ha
      simp at hb
  · exact ⟨false, rfl, fun h => by cases h⟩

/-- What the loop of `add` leaves: `o` still has to be put in between the members that stay. -/
structure AddOutcome (r : IpRange) (l : List IpRange) (l' : List IpRange) (o : Option IpRange) : Prop where
  sublist : l'.Sublist l
  covers : cover toRng l' ∪ cover toRng o.toList = cover toRng l ∪ r.toSet
  apart : ∀ r' ∈ o, ∀ d ∈ l', Apart Adj d.toRng r'.toRng
  /-- What was apart from everything stays so. -/
  apart_of : ∀ r' ∈ o, ∀ c : Rng IpAddress, Apart Adj c r.toRng → (∀ d ∈ l, Apart Adj c d.toRng) →
    Apart Adj c r'.toRng

open IpAddress.Adj

theorem before_of_cons {r c : IpRange} (hl : Separated toRng Adj (c :: l)) (h : Before Adj r.toRng c.toRng) :
    ∀ d ∈ c :: l, Before Adj r.toRng d.toRng := by
  intro d hd
  rcases List.mem_cons.mp hd with rfl | hd
  · exact h
  · exact h.trans covBy (List.rel_of_pairwise_cons hl hd)

theorem addLoop_spec : ∀ (l : List IpRange) (r : IpRange), Separated toRng Adj l →
    ∃ l' o, addLoop r l = .ok (l', o) ∧ AddOutcome r l l' o
  | [], r, _ => ⟨[], some r, rfl, List.Sublist.refl _, by simp, by simp, by simp⟩
  | c :: l, r, hl => by
    have hl' : Separated toRng Adj l := hl.sublist (List.sublist_cons_self c l)
    obtain ⟨b, hb, hbe⟩ := endsBefore_spec r c
    rw [addLoop, hb]
    cases b with
    | true =>
      -- every later member lies after the range as well
      have ha := before_of_cons hl (hbe rfl)
      refine ⟨c :: l, some r, rfl, List.Sublist.refl _, by simp, ?_, ?_⟩
      · intro r' hr' d hd
        cases hr'
        exact .inr (ha d hd)
      · intro r' hr' x hx _
        cases hr'
        exact hx
    | false =>
      rcases c.plus_spec r with ⟨hap, hp⟩ | ⟨hno, t, hp, hh⟩
      · obtain ⟨l', o, hlo, ho⟩ := addLoop_spec l r hl'
        refine ⟨c :: l', o, ?_, ho.sublist.cons_cons c, ?_, ?_, ?_⟩
        · simp only [hp, hlo]; rfl
        · rw [cover_cons, cover_cons, Set.union_assoc, ho.covers, Set.union_assoc]
        · intro r' hr' d hd
          rcases List.mem_cons.mp hd with rfl | hd
          · exact ho.apart_of r' hr' _ hap hl.apart_of_cons
          · exact ho.apart r' hr' d hd
        · exact fun r' hr' x hx hxl => ho.apart_of r' hr' x hx fun d hd => hxl d (List.mem_cons_of_mem _ hd)
      · have hs : t.toSet = c.toSet ∪ r.toSet := by rw [hh]; exact hull_toSet covBy hno
        by_cases heq : t.compareTo c = 0
        · -- the member contains the range already
          obtain rfl := compareTo_eq_zero.mp heq
          refine ⟨t :: l, none, ?_, List.Sublist.refl _, ?_, by simp, by simp⟩
          · rw [hp]; exact if_pos heq
          · have hsu : r.toSet ⊆ t.toSet := by rw [hs]; exact Set.subset_union_right
            simp only [Option.toList_none, cover_nil, Set.union_empty, cover_cons]
            rw [eq_comm, Set.union_eq_left]
            exact hsu.trans Set.subset_union_left
        · obtain ⟨l', o, hlo, ho⟩ := addLoop_spec l t hl'
          refine ⟨l', o, ?_, ho.sublist.cons c, ?_, ho.apart, ?_⟩
          · rw [hp]; exact (if_neg heq).trans hlo
          · rw [ho.covers, hs, cover_cons, ← Set.union_assoc, Set.union_comm (cover _ l)]
          · intro r' hr' x hx hxl
            refine ho.apart_of r' hr' x ?_ fun d hd => hxl d (List.mem_cons_of_mem _ hd)
            rw [hh]
            exact Apart.hull covBy hno (hxl c List.mem_cons_self) hx

theorem mem_insert {r s : IpRange} (h : ∀ c ∈ l, Apart Adj c.toRng r.toRng) :
    s ∈ insert l r ↔ s = r ∨ s ∈ l :=
  mem_insertSorted compareTo_neg_of_before compareTo_pos_of_before h

theorem separated_insert {r : IpRange} (hl : Separated toRng Adj l) (h : ∀ c ∈ l, Apart Adj c.toRng r.toRng) :
    Separated toRng Adj (insert l r) :=
      separated_insertSorted compareTo_neg_of_before compareTo_pos_of_before covBy hl h

theorem cover_insert {r : IpRange} (h : ∀ c ∈ l, Apart Adj c.toRng r.toRng) :
    cover toRng (insert l r) = cover toRng l ∪ r.toSet := by
  have hm : ∀ s, s ∈ insert l r ↔ s ∈ r :: l := fun s => by rw [mem_insert h, List.mem_cons]
  rw [cover_congr _ hm, cover_cons, Set.union_comm]

variable {s : IpRangeSet}

theorem add_spec (hs : s.WellFormed) (r : IpRange) :
    ∃ s', s.add r = .ok s' ∧ s'.WellFormed ∧ s'.addresses = s.addresses ∪ r.toSet := by
  obtain ⟨l, o, hlo, ho⟩ := addLoop_spec s.ranges r hs
  have hl : Separated toRng Adj l := hs.sublist ho.sublist
  refine ⟨⟨o.elim l (insert l)⟩, by rw [add, hlo]; rfl, ?_⟩
  have hc := ho.covers
  cases o with
  | none =>
    simp only [Option.toList_none, cover_nil, Set.union_empty] at hc
    exact ⟨hl, hc⟩
  | some r' =>
    have ha := ho.apart r' rfl
    simp only [Option.toList_some, cover_cons, cover_nil, Set.union_empty] at hc
    exact ⟨separated_insert hl ha, (cover_insert ha).trans hc⟩

/-! ## `remove` -/

/-- What the loop of `remove` leaves: members that stay, and the pieces of those that overlapped. -/
structure RemoveOutcome (r : IpRange) (l l' ps : List IpRange) : Prop where
  sublist : l'.Sublist l
  covers : cover toRng l' ∪ cover toRng ps = cover toRng l \ r.toSet
  separated : Separated toRng Adj ps
  apart : ∀ p ∈ ps, ∀ d ∈ l', Apart Adj d.toRng p.toRng
  pieces : ∀ p ∈ ps, ∃ c ∈ l, p.toSet ⊆ c.toSet

theorem removeLoop_spec (r : IpRange) : ∀ l : List IpRange, Separated toRng Adj l →
    ∃ l' ps, removeLoop r l = .ok (l', ps) ∧ RemoveOutcome r l l' ps
  | [], _ => ⟨[], [], rfl, List.Sublist.refl _, by simp, List.Pairwise.nil, by simp, by simp⟩
  | c :: l, hl => by
    have hl' : Separated toRng Adj l := hl.sublist (List.sublist_cons_self c l)
    have haf : ∀ d ∈ l, Before Adj c.toRng d.toRng := fun d hd => List.rel_of_pairwise_cons hl hd
    rw [removeLoop]
    by_cases hb : r.stop < c.start
    · refine ⟨c :: l, [], if_pos hb, List.Sublist.refl _, ?_, List.Pairwise.nil, by simp, by simp⟩
      -- every member starts after the range
      have hdi : Disjoint (cover toRng (c :: l)) r.toSet := by
        rw [Set.disjoint_left]
        rintro a ⟨d, hd, ha⟩ hr
        have hcd : c.start ≤ d.start := by
          rcases List.mem_cons.mp hd with rfl | hd
          · exact le_rfl
          · exact (haf d hd).start_lt.le
        exact absurd (hcd.trans (ha.1.trans hr.2)) (not_le.mpr hb)
      rw [cover_nil, Set.union_empty, hdi.sdiff_eq_left]
    · obtain ⟨l', ps, hlo, ho⟩ := removeLoop_spec r l hl'
      have hme : ∀ {d}, d ∈ l' → d ∈ l := fun h => ho.sublist.subset h
      rw [if_neg hb, hlo]
      rcases c.minus_spec r with ⟨hdi, hm⟩ | ⟨qs, hm, hse, hc⟩
      · refine ⟨c :: l', ps, by rw [hm]; rfl, ho.sublist.cons_cons c, ?_, ho.separated, ?_, ?_⟩
        · rw [cover_cons, cover_cons, Set.union_assoc, ho.covers, Set.union_sdiff_distrib, hdi.sdiff_eq_left]
        · intro p hp d hd
          rcases List.mem_cons.mp hd with rfl | hd
          · obtain ⟨e, he, hs⟩ := ho.pieces p hp
            exact Apart.mono covBy (.inl (haf e he)) subset_rfl hs
          · exact ho.apart p hp d hd
        · intro p hp
          obtain ⟨e, he, hs⟩ := ho.pieces p hp
          exact ⟨e, List.mem_cons_of_mem _ he, hs⟩
      · have hqs : ∀ q ∈ qs, q.toSet ⊆ c.toSet := by
          intro q hq
          refine (toSet_subset_cover hq).trans ?_
          rw [hc]
          exact Set.sdiff_subset
        refine ⟨l', qs ++ ps, by rw [hm]; rfl, ho.sublist.cons c, ?_, ?_, ?_, ?_⟩
        · rw [cover_append, cover_cons, Set.union_sdiff_distrib, ← hc, ← ho.covers, Set.union_left_comm]
        · refine List.pairwise_append.mpr ⟨hse, ho.separated, fun q hq p hp => ?_⟩
          obtain ⟨e, he, hs⟩ := ho.pieces p hp
          exact (haf e he).mono covBy (hqs q hq) hs
        · intro p hp d hd
          rcases List.mem_append.mp hp with hp | hp
          · exact Apart.mono covBy (.inr (haf d (hme hd))) subset_rfl (hqs p hp)
          · exact ho.apart p hp d hd
        · intro p hp
          rcases List.mem_append.mp hp with hp | hp
          · exact ⟨c, List.mem_cons_self, hqs p hp⟩
          · obtain ⟨e, he, hs⟩ := ho.pieces p hp
            exact ⟨e, List.mem_cons_of_mem _ he, hs⟩

theorem foldl_insert_spec : ∀ (ps l : List IpRange), Separated toRng Adj l → Separated toRng Adj ps →
    (∀ p ∈ ps, ∀ d ∈ l, Apart Adj d.toRng p.toRng) → Separated toRng Adj (ps.foldl insert l) ∧
      cover toRng (ps.foldl insert l) = cover toRng l ∪ cover toRng ps
  | [], l, hl, _, _ => ⟨hl, by simp⟩
  | p :: ps, l, hl, hps, ha => by
    have hp := ha p List.mem_cons_self
    obtain ⟨h₁, h₂⟩ := foldl_insert_spec ps (insert l p) (separated_insert hl hp)
      (hps.sublist (List.sublist_cons_self p ps)) (fun q hq d hd => by
        rcases (mem_insert hp).mp hd with rfl | hd
        · exact hps.apart_of_cons q hq
        · exact ha q (List.mem_cons_of_mem _ hq) d hd)
    refine ⟨h₁, ?_⟩
    rw [List.foldl_cons, h₂, cover_insert hp, cover_cons, Set.union_assoc]

theorem remove_spec (hs : s.WellFormed) (r : IpRange) :
    ∃ s', s.remove r = .ok s' ∧ s'.WellFormed ∧ s'.addresses = s.addresses \ r.toSet := by
  obtain ⟨l, ps, hl, ho⟩ := removeLoop_spec r s.ranges hs
  obtain ⟨hse, hc⟩ := foldl_insert_spec ps l (hs.sublist ho.sublist) ho.separated ho.apart
  exact ⟨⟨ps.foldl insert l⟩, by rw [remove, hl]; rfl, hse, hc.trans ho.covers⟩

/-! ## Histories of calls -/

inductive Op
  | add (r : IpRange)
  | remove (r : IpRange)

def step (s : IpRangeSet) : Op → Except String IpRangeSet
  | .add r => s.add r
  | .remove r => s.remove r

/-- The calls one after the other; the first exception ends the run. -/
def run (s : IpRangeSet) (ops : List Op) : Except String IpRangeSet := ops.foldlM step s

def Op.onSet (A : Set IpAddress) : Op → Set IpAddress
  | .add r => A ∪ r.toSet
  | .remove r => A \ r.toSet

theorem step_spec (hs : s.WellFormed) (op : Op) :
    ∃ s', s.step op = .ok s' ∧ s'.WellFormed ∧ s'.addresses = op.onSet s.addresses := by
  cases op with
  | add r => exact add_spec hs r
  | remove r => exact remove_spec hs r

theorem run_spec : ∀ (ops : List Op) {s : IpRangeSet}, s.WellFormed →
    ∃ s', s.run ops = .ok s' ∧ s'.WellFormed ∧ s'.addresses = ops.foldl Op.onSet s.addresses
  | [], s, hs => ⟨s, rfl, hs, rfl⟩
  | op :: ops, s, hs => by
    obtain ⟨s₁, h₁, hs₁, ha₁⟩ := step_spec hs op
    obtain ⟨s₂, h₂, hs₂, ha₂⟩ := run_spec ops hs₁
    refine ⟨s₂, ?_, hs₂, by rw [ha₂, ha₁]; rfl⟩
    rw [run, List.foldlM_cons, h₁]
    exact h₂

theorem wellFormed_empty : empty.WellFormed := List.Pairwise.nil

/-- **Every history of calls on an empty set** runs without an exception and leaves strictly sorted, pairwise disjoint
ranges, none of which starts at the increment of another's end, that cover what the history covers. -/
theorem run_empty_exact (ops : List Op) :
    ∃ s, empty.run ops = .ok s ∧ s.ranges.Pairwise (fun r t => r.compareTo t < 0) ∧
      s.ranges.Pairwise (fun r t => Disjoint r.toSet t.toSet) ∧
      s.ranges.Pairwise (fun r t => r.stop.inc ≠ .ok t.start ∧ t.stop.inc ≠ .ok r.start) ∧
      {a | ∃ r ∈ s.ranges, r.start ≤ a ∧ a ≤ r.stop} = ops.foldl Op.onSet ∅ := by
  obtain ⟨s, hr, hs, ha⟩ := run_spec ops wellFormed_empty
  refine ⟨s, hr, hs.imp compareTo_neg_of_before, hs.imp Before.disjoint,
    hs.imp fun h => ⟨h.2, not_adj_of_before h⟩, ?_⟩
  rw [show empty.addresses = ∅ from cover_nil _] at ha
  exact ha

end IpRangeSet

end Cimogus.Net
