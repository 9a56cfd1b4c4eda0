import Cimogus.Lib.Ranges
import Cimogus.Net.AddressText

/-!
# `IpRange`

A closed range of addresses of one family. The source's constructor checks are `IpRange.init`; the structure carries
what they establish, so a value of type `IpRange` is one that the constructor let through.

`plus` and `minus` do not throw: `dec` and `inc` are called only where a smaller or larger address of the family exists.
-/

namespace Cimogus.Net

open Lib.Ranges

structure IpRange extends Rng IpAddress where
  same_size : start.size = stop.size

namespace IpAddress

def text (ip : IpAddress) : String := String.ofList ip.toString

instance : DecidableRel Adj := fun _ _ => decidable_of_iff _ adj_iff.symm

end IpAddress

open IpAddress (Adj)

namespace IpRange

variable {r s : IpRange}

@[ext] theorem ext' (h : r.toRng = s.toRng) : r = s := by
  cases r; cases s; simp_all

def init (start stop : IpAddress) : Except String IpRange :=
  if hs : start.size ≠ stop.size then
    .error ("Unable to create a range between IPv4 and IPv6 addresses (start IP: [" ++ start.text ++ "], end IP: ["
      ++ stop.text ++ "])")
  else if hle : start > stop then
    .error ("Start IP: [" ++ start.text ++ "] is greater then end IP: [" ++ stop.text ++ "]")
  else .ok ⟨⟨start, stop, not_lt.mp hle⟩, not_not.mp hs⟩

theorem init_eq {start stop : IpAddress} (hs : start.size = stop.size) (hle : start ≤ stop) :
    init start stop = .ok ⟨⟨start, stop, hle⟩, hs⟩ := by
  rw [init, dif_neg (not_not.mpr hs), dif_neg (not_lt.mpr hle)]

def contains (r other : IpRange) : Bool := r.start ≤ other.start && r.stop ≥ other.stop

def isIntersect (r other : IpRange) : Bool := r.start ≤ other.stop && r.stop ≥ other.start

/-- `start > end && !start.isMinIp() && start.dec() == end`, where `dec` runs only if the first two hold. -/
def startsRightAfter (start stop : IpAddress) : Except String Bool :=
  if start > stop ∧ start.isMinIp = false then start.dec.map (· == stop) else .ok false

/-- `end < start && !end.isMaxIp() && end.inc() == start`. -/
def endsRightBefore (stop start : IpAddress) : Except String Bool :=
  if stop < start ∧ stop.isMaxIp = false then stop.inc.map (· == start) else .ok false

def plus (r other : IpRange) : Except String (Option IpRange) := do
  if ← startsRightAfter r.start other.stop then return some (← init other.start r.stop)
  if ← endsRightBefore r.stop other.start then return some (← init r.start other.stop)
  if !r.isIntersect other then return none
  return some (← init (min r.start other.start) (max r.stop other.stop))

/-- `if (start < other.start) resultRanges += IpRange(start, other.start.dec())`. -/
def partBefore (r other : IpRange) : Except String (List IpRange) :=
  if r.start < other.start then do return [← init r.start (← other.start.dec)] else return []

/-- `if (end > other.end) resultRanges += IpRange(other.end.inc(), end)`. -/
def partAfter (r other : IpRange) : Except String (List IpRange) :=
  if r.stop > other.stop then do return [← init (← other.stop.inc) r.stop] else return []

def minus (r other : IpRange) : Except String (Option (List IpRange)) := do
  if other.contains r then return some []
  if !r.isIntersect other then return none
  return some ((← r.partBefore other) ++ (← r.partAfter other))

def compareTo (r other : IpRange) : Int :=
  let d := r.start.compareTo other.start
  if d = 0 then r.stop.compareTo other.stop else d

/-! ## What the operations compute -/

theorem startsRightAfter_eq (start stop : IpAddress) : startsRightAfter start stop = .ok (decide (Adj stop start)) := by
  unfold startsRightAfter
  split
  · rename_i h
    rcases start.dec_spec with ⟨hm, _⟩ | ⟨_, prev, he, _, _⟩
    · simp [hm] at h
    · rw [he]
      have := IpAddress.dec_eq_iff (a := stop) (b := start)
      rw [he] at this
      simp only [Except.map, Except.ok.injEq] at this ⊢
      rw [← decide_eq_decide.mpr this]
      rfl
  · rename_i h
    congr 1
    rw [eq_comm, decide_eq_false_iff_not]
    intro ha
    refine h ⟨ha.covBy.lt, ?_⟩
    have hn := (IpAddress.adj_iff.mp ha).2
    rw [Bool.eq_false_iff]
    intro hmi
    have := IpAddress.isMinIp_iff.mp hmi
    omega

theorem endsRightBefore_eq (stop start : IpAddress) : endsRightBefore stop start = .ok (decide (Adj stop start)) := by
  unfold endsRightBefore
  split
  · rename_i h
    rcases stop.inc_spec with ⟨hm, _⟩ | ⟨_, next, he, _, _⟩
    · simp [hm] at h
    · simp only [Except.map, IpAddress.Adj, he, Except.ok.injEq]
      rfl
  · rename_i h
    congr 1
    rw [eq_comm, decide_eq_false_iff_not]
    intro ha
    refine h ⟨ha.covBy.lt, ?_⟩
    rcases stop.inc_spec with ⟨_, he⟩ | ⟨hm, _⟩
    · rw [IpAddress.Adj, he] at ha; cases ha
    · exact hm

theorem isIntersect_iff : r.isIntersect s = true ↔ r.start ≤ s.stop ∧ s.start ≤ r.stop := by
  simp [isIntersect]

theorem contains_iff : r.contains s = true ↔ s.toSet ⊆ r.toSet := by
  rw [Rng.toSet_subset]
  simp [contains]

/-- Overlapping ranges are of one family. -/
theorem size_eq_of_isIntersect (h : r.isIntersect s = true) : r.start.size = s.start.size := by
  obtain ⟨h₁, h₂⟩ := isIntersect_iff.mp h
  rcases le_total r.start s.start with h | h
  · exact (IpAddress.size_of_between r.same_size h h₂).symm
  · exact IpAddress.size_of_between s.same_size h h₁

theorem not_adj_of_before {r s : Rng IpAddress} (h : Before Adj r s) : ¬Adj s.stop r.start := by
  intro ha
  have hlt : s.stop < r.stop := ha.covBy.lt.trans_le r.start_le_stop
  exact lt_asymm h.1 (lt_of_le_of_lt s.start_le_stop hlt)

theorem exists_init_hull (h : ¬Apart Adj r.toRng s.toRng) :
    ∃ t, init (min r.start s.start) (max r.stop s.stop) = .ok t ∧ t.toRng = r.toRng.hull s.toRng := by
  have hs : r.start.size = s.start.size := by
    rcases overlap_or_adj_of_not_apart h with ho | ha | ha
    · exact size_eq_of_isIntersect (isIntersect_iff.mpr ho)
    · rw [r.same_size]; exact (IpAddress.adj_iff.mp ha).1.symm
    · rw [s.same_size]; exact (IpAddress.adj_iff.mp ha).1
  have hmi : (min r.start s.start).size = r.start.size := by
    rcases min_choice r.start s.start with e | e <;> rw [e]
    exact hs.symm
  have hm : (max r.stop s.stop).size = r.start.size := by
    rcases max_choice r.stop s.stop with e | e <;> rw [e]
    · exact r.same_size.symm
    · rw [← s.same_size, hs]
  exact ⟨_, init_eq (hmi.trans hm.symm) (r.toRng.hull s.toRng).start_le_stop, rfl⟩

theorem plus_spec (r s : IpRange) : (Apart Adj r.toRng s.toRng ∧ r.plus s = .ok none) ∨
    (¬Apart Adj r.toRng s.toRng ∧ ∃ t, r.plus s = .ok (some t) ∧ t.toRng = r.toRng.hull s.toRng) := by
  have hp : r.plus s =
      if Adj s.stop r.start then (init s.start r.stop).map some
      else if Adj r.stop s.start then (init r.start s.stop).map some
      else if r.isIntersect s then (init (min r.start s.start) (max r.stop s.stop)).map some
      else .ok none := by
    unfold plus
    rw [startsRightAfter_eq, endsRightBefore_eq]
    by_cases h₁ : Adj s.stop r.start
    · simp only [h₁, decide_true, if_true]; rfl
    by_cases h₂ : Adj r.stop s.start
    · simp only [h₁, h₂, decide_true, decide_false, if_true, if_false]; rfl
    cases h₃ : r.isIntersect s <;> simp only [h₁, h₂, decide_false, if_false] <;> rfl
  by_cases h : Apart Adj r.toRng s.toRng
  · refine .inl ⟨h, ?_⟩
    have h₁ : ¬Adj s.stop r.start := h.elim not_adj_of_before And.right
    have h₂ : ¬Adj r.stop s.start := h.elim And.right not_adj_of_before
    have h₃ : ¬r.isIntersect s = true := fun hi =>
      not_apart_of_overlap (isIntersect_iff.mp hi).1 (isIntersect_iff.mp hi).2 h
    rw [hp, if_neg h₁, if_neg h₂, if_neg h₃]
  · refine .inr ⟨h, ?_⟩
    obtain ⟨t, ht, hh⟩ := exists_init_hull h
    refine ⟨t, ?_, hh⟩
    -- the two touching cases build the hull without `min` and `max`
    have hs : s.start ≤ s.stop := s.start_le_stop
    have hr : r.start ≤ r.stop := r.start_le_stop
    rw [hp]
    split
    · rename_i ha
      have hlt := ha.covBy.lt
      rw [min_eq_right (hs.trans hlt.le), max_eq_left (hlt.le.trans hr)] at ht
      rw [ht]; rfl
    · split
      · rename_i ha
        have hlt := ha.covBy.lt
        rw [min_eq_left (hr.trans hlt.le), max_eq_right (hlt.le.trans hs)] at ht
        rw [ht]; rfl
      · rename_i h₁ h₂
        rcases overlap_or_adj_of_not_apart h with ho | had | had
        · rw [if_pos (isIntersect_iff.mpr ho), ht]; rfl
        · exact absurd had h₂
        · exact absurd had h₁

theorem partBefore_spec (hi : r.isIntersect s = true) :
    ∃ ps, r.partBefore s = .ok ps ∧ ps.length ≤ 1 ∧ cover IpRange.toRng ps = r.toSet ∩ Set.Iio s.start := by
  obtain ⟨_, h₂⟩ := isIntersect_iff.mp hi
  unfold partBefore
  split
  · rename_i hlt
    obtain ⟨e, he, had⟩ := IpAddress.exists_dec (size_eq_of_isIntersect hi) hlt
    have hle : r.start ≤ e := not_lt.mp fun h => had.covBy.2 h hlt
    have hs : r.start.size = e.size := (size_eq_of_isIntersect hi).trans (IpAddress.adj_iff.mp had).1
    refine ⟨[⟨⟨r.start, e, hle⟩, hs⟩], by
      rw [he]; exact congrArg (Except.map ([·])) (init_eq hs hle), le_rfl, ?_⟩
    rw [cover_cons, cover_nil, Set.union_empty]
    refine Set.Subset.antisymm (fun a ha => ?_) (fun a ha => ⟨ha.1.1, not_lt.mp fun h => had.covBy.2 h ha.2⟩)
    have hl' := lt_of_le_of_lt ha.2 had.covBy.lt
    exact ⟨⟨ha.1, (hl'.trans_le h₂).le⟩, hl'⟩
  · rename_i hge
    refine ⟨[], rfl, by simp, ?_⟩
    rw [cover_nil, eq_comm, Set.eq_empty_iff_forall_notMem]
    rintro a ⟨ha, hlt⟩
    exact hge (lt_of_le_of_lt ha.1 hlt)

/-- The part of an overlapping range after the other one. -/
theorem partAfter_spec (hi : r.isIntersect s = true) :
    ∃ ps, r.partAfter s = .ok ps ∧ ps.length ≤ 1 ∧ cover IpRange.toRng ps = r.toSet ∩ Set.Ioi s.stop := by
  obtain ⟨h₁, _⟩ := isIntersect_iff.mp hi
  have hfa : s.stop.size = r.stop.size := by
    rw [← s.same_size, ← r.same_size, size_eq_of_isIntersect hi]
  unfold partAfter
  split
  · rename_i hlt
    obtain ⟨n, hn, had⟩ := IpAddress.exists_inc hfa hlt
    have hle : n ≤ r.stop := not_lt.mp fun h => had.covBy.2 hlt h
    have hs : n.size = r.stop.size := (IpAddress.adj_iff.mp had).1.trans hfa
    refine ⟨[⟨⟨n, r.stop, hle⟩, hs⟩], by
      rw [hn]; exact congrArg (Except.map ([·])) (init_eq hs hle), le_rfl, ?_⟩
    rw [cover_cons, cover_nil, Set.union_empty]
    refine Set.Subset.antisymm (fun a ha => ?_) (fun a ha => ⟨not_lt.mp fun h => had.covBy.2 ha.2 h, ha.1.2⟩)
    have hl' := lt_of_lt_of_le had.covBy.lt ha.1
    exact ⟨⟨(lt_of_le_of_lt h₁ hl').le, ha.2⟩, hl'⟩
  · rename_i hge
    refine ⟨[], rfl, by simp, ?_⟩
    rw [cover_nil, eq_comm, Set.eq_empty_iff_forall_notMem]
    rintro a ⟨ha, hlt⟩
    exact hge (lt_of_lt_of_le hlt ha.2)

theorem separated_of_length_le_one {ps : List IpRange} (h : ps.length ≤ 1) : Separated IpRange.toRng Adj ps := by
  match ps, h with
  | [], _ => exact List.Pairwise.nil
  | [p], _ => exact List.pairwise_singleton _ p

theorem start_mem (r : IpRange) : r.start ∈ r.toSet := ⟨le_rfl, r.start_le_stop⟩

theorem stop_mem (r : IpRange) : r.stop ∈ r.toSet := ⟨r.start_le_stop, le_rfl⟩

theorem toSet_subset_cover {p : IpRange} {ps : List IpRange} (hp : p ∈ ps) : p.toSet ⊆ cover IpRange.toRng ps :=
  fun _ ha => ⟨p, hp, ha⟩

theorem minus_spec (r s : IpRange) : (Disjoint r.toSet s.toSet ∧ r.minus s = .ok none) ∨
    ∃ ps, r.minus s = .ok (some ps) ∧ Separated IpRange.toRng Adj ps ∧
      cover IpRange.toRng ps = r.toSet \ s.toSet := by
  unfold minus
  by_cases hc : s.contains r = true
  · rw [if_pos hc]
    refine .inr ⟨[], rfl, List.Pairwise.nil, ?_⟩
    rw [cover_nil, eq_comm, Set.sdiff_eq_empty]
    exact contains_iff.mp hc
  rw [if_neg hc]
  by_cases hi : r.isIntersect s = true
  · obtain ⟨left, hl, hl₁, hlc⟩ := partBefore_spec hi
    obtain ⟨right, hr, hr₁, hrc⟩ := partAfter_spec hi
    rw [hl, hr]
    simp only [hi]
    refine .inr ⟨left ++ right, rfl, ?_, ?_⟩
    · refine List.pairwise_append.mpr ⟨separated_of_length_le_one hl₁, separated_of_length_le_one hr₁, ?_⟩
      intro p hp q hq
      have hp' : p.stop < s.start := (hlc ▸ toSet_subset_cover hp p.stop_mem).2
      have hq' : s.stop < q.start := (hrc ▸ toSet_subset_cover hq q.start_mem).2
      exact ⟨hp'.trans (lt_of_le_of_lt s.start_le_stop hq'), not_adj_of_between IpAddress.Adj.covBy hp' hq'⟩
    · rw [cover_append, hlc, hrc, ← Set.inter_union_distrib_left]
      ext a
      simp only [Set.mem_inter_iff, Set.mem_union, Set.mem_Iio, Set.mem_Ioi, Set.mem_sdiff, Rng.mem_toSet,
        not_and_or, not_le]
  · refine .inl ⟨?_, by simp only [hi]; rfl⟩
    rw [Set.disjoint_left]
    intro a ha hb
    exact hi (isIntersect_iff.mpr ⟨ha.1.trans hb.2, hb.1.trans ha.2⟩)

/-! ## The order of ranges -/

theorem compareTo_neg_of_before (h : Before Adj r.toRng s.toRng) : r.compareTo s < 0 := by
  have hlt : r.start.compareTo s.start < 0 := h.start_lt
  have hne : r.start.compareTo s.start ≠ 0 := by omega
  rw [compareTo]
  simpa only [if_neg hne] using hlt

theorem compareTo_pos_of_before (h : Before Adj s.toRng r.toRng) : 0 < r.compareTo s := by
  have hlt : s.start < r.start := h.start_lt
  have hne : r.start.compareTo s.start ≠ 0 := fun he => hlt.ne (IpAddress.compareTo_eq_zero.mp he).symm
  have hge : ¬r.start.compareTo s.start < 0 := fun he =>
    lt_asymm (show r.start < s.start from he) hlt
  rw [compareTo]
  omega

theorem compareTo_eq_zero : r.compareTo s = 0 ↔ r = s := by
  rw [compareTo]
  constructor
  · intro h
    by_cases hd : r.start.compareTo s.start = 0
    · simp only [if_pos hd] at h
      exact ext' (Rng.ext (IpAddress.compareTo_eq_zero.mp hd) (IpAddress.compareTo_eq_zero.mp h))
    · simp only [if_neg hd] at h
      exact absurd h hd
  · rintro rfl
    have h₁ := IpAddress.compareTo_eq_zero.mpr (rfl : r.start = r.start)
    have h₂ := IpAddress.compareTo_eq_zero.mpr (rfl : r.stop = r.stop)
    simp only [h₁, h₂, if_true]

end IpRange

end Cimogus.Net
