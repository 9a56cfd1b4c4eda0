import Cimogus.Lib.Regex

/-!
# The canonical form of IPv6 texts

`convertIpv6ToCanonicalForm`, a regular expression that replaces a run of zero blocks by `::`.
-/

namespace Cimogus.Net

open Lib.Regex List

/-! ## The canonical form -/

def nonSpace : Re := .chars fun x => !x.isWhitespace

/-- `(?:^|:)0+\b`. -/
def zeroBlock : Re := .seq (.alt .startOfText (.chr ':')) (.seq (.plus (.chr '0')) .wordBoundary)

/-- `((?:(?:^|:)0+\b){2,})`. -/
def zeroRun : Re := .group 1 (.twoOrMore zeroBlock)

/-- `\S*\b\1:0+\b`: the run of group 1, and one more zero block, later in the text. -/
def longerRun : Re :=
  .seq (.star nonSpace)
    (.seq .wordBoundary (.seq (.backref 1) (.seq (.chr ':') (.seq (.plus (.chr '0')) .wordBoundary))))

/-- `:?(?!\S*\b\1:0+\b)(\S*)`. -/
def afterRun : Re := .seq (.opt (.chr ':')) (.seq (.notAhead longerRun) (.group 2 (.star nonSpace)))

def convertIpv6ToCanonicalForm (ipv6 : List Char) : List Char :=
  replaceAll (.seq zeroRun afterRun) (fun caps => "::".toList ++ (caps 2).getD []) ipv6

/-- Texts made of word characters and colons, as the blocks are. -/
def Plain (t : List Char) : Prop := ∀ x ∈ t, isWord x = true ∨ x = ':'

theorem Plain.tail (x : Char) (xs : List Char) (h : Plain (x :: xs)) : Plain xs :=
  fun y hy => h y (mem_cons_of_mem _ hy)

theorem not_isWhitespace {x : Char} (h : isWord x = true ∨ x = ':') : (!x.isWhitespace) = true := by
  rw [Bool.not_eq_true', Bool.eq_false_iff]
  intro hw
  simp only [Char.isWhitespace, Bool.or_eq_true, decide_eq_true_eq] at hw
  rcases hw with ((rfl | rfl) | rfl) | rfl <;> revert h <;> decide

/-- `":" z` for every `z`. -/
def joinTail (zs : List (List Char)) : List Char := zs.flatMap (':' :: ·)

def Zeros (z : List Char) : Prop := ∃ n, z = List.replicate (n + 1) '0'

variable {c : Cursor} {zs : List (List Char)}

open Re

variable {c' : Cursor}

theorem chr_matches {x : Char} (h : (chr x).Matches c c') : c.rest = x :: c'.rest ∧ c' = c.advance [x] := by
  obtain ⟨y, ys, hy, he, rfl⟩ := h
  obtain rfl : y = x := by simpa using he
  exact ⟨by rw [rest_advance (t := [y]) hy, hy], rfl⟩

/-- `0+\b` takes a whole block of zeros. -/
theorem zeros_matches (h : (seq (.plus (.chr '0')) .wordBoundary).Matches c c') :
    ∃ z, Zeros z ∧ c.rest = z ++ c'.rest ∧ c' = c.advance z ∧ wordAt c'.rest.head? = false := by
  obtain ⟨d, ⟨e, ho, hm⟩, hw, rfl⟩ := h
  obtain ⟨hr, rfl⟩ := chr_matches ho
  obtain ⟨s, hs, hrest, ha⟩ := star_chars_matches hm
  have hs : s = List.replicate s.length '0' := eq_replicate_iff.mpr ⟨rfl, fun x hx => by simpa using hs x hx⟩
  have hz : Zeros ('0' :: s) := ⟨s.length, by rw [replicate_succ, ← hs]⟩
  refine ⟨'0' :: s, hz, by rw [hr, hrest]; rfl, by rw [ha, advance_advance]; rfl, ?_⟩
  have hlast : wordAt c'.before.head? = true := by
    rw [ha, before_advance, hs]
    cases s.length with
    | zero => rfl
    | succ n => rw [reverse_replicate]; rfl
  rw [hlast] at hw
  exact Bool.eq_false_iff.mpr (Ne.symm hw)

theorem Zeros.ne_nil {z : List Char} (hz : Zeros z) : z ≠ [] := by
  obtain ⟨n, rfl⟩ := hz
  exact cons_ne_nil _ _

theorem before_advance_ne_nil {t : List Char} (ht : t ≠ []) : (c.advance t).before ≠ [] := by
  rw [before_advance]
  simp [ht]

theorem zeroBlock_matches (h : zeroBlock.Matches c c') :
    ∃ z p, Zeros z ∧ (c.before = [] ∧ p = z ∨ p = ':' :: z) ∧ c.rest = p ++ c'.rest ∧ c' = c.advance p ∧
      wordAt c'.rest.head? = false := by
  obtain ⟨d, hs, hze⟩ := h
  obtain ⟨z, hz, hrest, ha, hw⟩ := zeros_matches hze
  rcases hs with ⟨hb, rfl⟩ | hc
  · exact ⟨z, z, hz, .inl ⟨hb, rfl⟩, hrest, ha, hw⟩
  · obtain ⟨hr, rfl⟩ := chr_matches hc
    refine ⟨z, ':' :: z, hz, .inr rfl, by rw [hr, hrest]; rfl, ?_, hw⟩
    rw [ha, advance_advance]
    rfl

/-- Further blocks, each after a colon. -/
theorem star_zeroBlock_matches (h : Relation.ReflTransGen zeroBlock.Matches c c') (hc : c.before ≠ [])
    (hw : wordAt c.rest.head? = false) :
    ∃ zs, (∀ z ∈ zs, Zeros z) ∧ c.rest = joinTail zs ++ c'.rest ∧ c' = c.advance (joinTail zs) ∧
      wordAt c'.rest.head? = false := by
  induction h with
  | refl => exact ⟨[], by simp, rfl, (advance_nil c).symm, hw⟩
  | tail _ hs ih =>
    obtain ⟨zs, hzs, hrest, rfl, _⟩ := ih
    obtain ⟨z, p, hz, hp, hbl, ha, hw'⟩ := zeroBlock_matches hs
    have hbe : (c.advance (joinTail zs)).before ≠ [] := by
      rw [before_advance]
      simp [hc]
    obtain rfl := hp.resolve_left fun hb => hbe hb.1
    refine ⟨zs ++ [z], ?_, ?_, ?_, hw'⟩
    · intro y hy
      rcases mem_append.mp hy with hy | hy
      · exact hzs y hy
      · rw [mem_singleton.mp hy]; exact hz
    · rw [hrest, hbl]
      simp [joinTail]
    · rw [ha, advance_advance]
      simp [joinTail]

/-! ### Where the matcher goes -/

section Steps

variable {c : Cursor} {z u : List Char} {k : Cursor → Option Cursor}

theorem starLoop_zero_go (hu : wordAt u.head? = false) : ∀ (n len : Nat) {c : Cursor}, n ≤ len →
    c.before.head? = some '0' → c.rest = List.replicate n '0' ++ u →
    starLoop (chr '0').go len c (fun c' => wordBoundary.go c' k) = k (c.advance (List.replicate n '0'))
  | 0, len, c, _, hb, hrest => by
    have hstop : wordBoundary.go c k = k (c.advance (List.replicate 0 '0')) := by
      rw [replicate_zero, advance_nil, go, hb, hrest]
      simp [hu, show wordAt (some '0') = true by decide]
    cases len with
    | zero => exact hstop
    | succ len =>
      have hfa : ∀ k', (chr '0').go c k' = none := by
        intro k'
        cases hu' : u with
        | nil => simp [chr, go, hrest, hu']
        | cons x xs =>
          have hx : x ≠ '0' := by
            rintro rfl
            rw [hu'] at hu
            simp [wordAt, show isWord '0' = true by decide] at hu
          simp [chr, go, hrest, hu', hx]
      rw [starLoop, hfa, Option.none_or, hstop]
  | n + 1, len + 1, c, hl, hb, hrest => by
    have hc : c.rest = '0' :: (List.replicate n '0' ++ u) := by rw [hrest, replicate_succ, cons_append]
    have hs : (c.advance ['0']).rest.length < c.rest.length := by
      rw [rest_advance (t := ['0']) hc, hc, length_cons]
      exact Nat.lt_succ_self _
    have hi : wordBoundary.go c k = none := by
      rw [go, hb, hc]
      rfl
    rw [starLoop, go_chr hc, if_pos hs,
      starLoop_zero_go hu n len (by omega) rfl (rest_advance (t := ['0']) hc), hi, Option.or_none, advance_advance]
    rfl

/-- `0+\b` passes over a whole block of zeros. -/
theorem zeros_go (hz : Zeros z) (hu : wordAt u.head? = false) (hrest : c.rest = z ++ u) :
    (seq (.plus (.chr '0')) .wordBoundary).go c k = k (c.advance z) := by
  obtain ⟨n, rfl⟩ := hz
  have hc : c.rest = '0' :: (List.replicate n '0' ++ u) := by rw [hrest, replicate_succ, cons_append]
  have ha := rest_advance (t := ['0']) hc
  rw [go, plus, go, go_chr hc, go, ha, starLoop_zero_go hu n _ (by simp) rfl ha, advance_advance]
  rfl

theorem Zeros.exists_cons (hz : Zeros z) : ∃ zs, z = '0' :: zs := by
  obtain ⟨n, rfl⟩ := hz
  exact ⟨List.replicate n '0', rfl⟩

/-- One block of the run, after a colon. -/
theorem zeroBlock_go (hz : Zeros z) (hu : wordAt u.head? = false) (hrest : c.rest = ':' :: (z ++ u)) :
    zeroBlock.go c k = k (c.advance (':' :: z)) := by
  have hs : ∀ k', startOfText.go c (fun c' => (seq (.plus (.chr '0')) .wordBoundary).go c' k') = none := by
    intro k'
    rw [go]
    split
    · simp [go, plus, chr, hrest]
    · rfl
  rw [zeroBlock, go, go, hs, go_chr hrest, zeros_go hz hu (rest_advance (t := [':']) hrest), advance_advance]
  rfl

/-- The first block of the text. -/
theorem zeroBlock_go_start (hz : Zeros z) (hu : wordAt u.head? = false) (hb : c.before = []) (hrest : c.rest = z ++ u) :
    zeroBlock.go c k = k (c.advance z) := by
  have hc : ∀ k', (chr ':').go c k' = none := by
    obtain ⟨zs, rfl⟩ := hz.exists_cons
    simp [chr, go, hrest]
  rw [zeroBlock, go, go, hc, Option.or_none, go, hb]
  exact zeros_go hz hu hrest

theorem wordAt_head_joinTail (hu : wordAt u.head? = false) (zs : List (List Char)) :
    wordAt (joinTail zs ++ u).head? = false := by
  cases zs with
  | nil => exact hu
  | cons z zs => rfl

theorem starLoop_zeroBlock_none (hu : wordAt u.head? = false) : ∀ (zs : List (List Char)) (len : Nat) {c : Cursor},
    (∀ z ∈ zs, Zeros z) → c.rest = joinTail zs ++ u → c.rest.length ≤ len →
    starLoop zeroBlock.go len c k = none →
    k (c.advance (joinTail zs)) = none
  | [], len, c, _, _, _, h => by
    rw [show joinTail [] = [] from rfl, advance_nil]
    cases len with
    | zero => exact h
    | succ len =>
      rw [starLoop, Option.or_eq_none_iff] at h
      exact h.2
  | z :: zs, len, c, hz, hrest, hl, h => by
    have hc : c.rest = ':' :: (z ++ (joinTail zs ++ u)) := by rw [hrest]; simp [joinTail]
    have ha : (c.advance (':' :: z)).rest = joinTail zs ++ u := rest_advance (t := ':' :: z) (by rw [hc]; rfl)
    have hs : (c.advance (':' :: z)).rest.length < c.rest.length := by
      simp only [ha, hc, length_cons, length_append]
      omega
    cases len with
    | zero => rw [hc] at hl; simp at hl
    | succ len =>
      rw [starLoop, zeroBlock_go (hz z mem_cons_self) (wordAt_head_joinTail hu zs) hc, if_pos hs, Option.or_eq_none_iff]
        at h
      have ih := starLoop_zeroBlock_none hu zs len (fun x hx => hz x (mem_cons_of_mem _ hx)) ha (by omega) h.1
      rwa [advance_advance] at ih

end Steps

/-- The text of a run of blocks of zeros, with the colon before it unless the text begins there. -/
structure IsRun (c : Cursor) (t z : List Char) (zs : List (List Char)) : Prop where
  two : zs ≠ []
  zeros : ∀ x ∈ z :: zs, Zeros x
  text : c.before = [] ∧ t = z ++ joinTail zs ∨ t = joinTail (z :: zs)

variable {d : Cursor}

/-- The run of group 1: at least two blocks of zeros, up to a colon or the end. Where one more block follows, the
matcher has tried to take it. -/
theorem zeroRun_go {k : Cursor → Option Cursor} (h : zeroRun.go c k = some d) :
    ∃ t z zs u, IsRun c t z zs ∧ c.rest = t ++ u ∧ wordAt u.head? = false ∧
      k ((c.advance t).capture 1 c) = some d ∧
      ∀ y v, Zeros y → u = ':' :: (y ++ v) → wordAt v.head? = false →
        k ((c.advance (t ++ ':' :: y)).capture 1 c) = none := by
  obtain ⟨c₁, h₁, h⟩ := go_sound zeroBlock h
  obtain ⟨c₂, h₂, h⟩ := go_sound zeroBlock h
  obtain ⟨z₁, p₁, hz₁, hp₁, hr₁, rfl, hw₁⟩ := zeroBlock_matches h₁
  obtain ⟨z₂, p₂, hz₂, hp₂, hr₂, rfl, hw₂⟩ := zeroBlock_matches h₂
  have hn₁ : p₁ ≠ [] := by
    rcases hp₁ with ⟨_, rfl⟩ | rfl
    · exact hz₁.ne_nil
    · exact cons_ne_nil _ _
  obtain rfl := hp₂.resolve_left fun hb => before_advance_ne_nil hn₁ hb.1
  obtain ⟨c₃, h₃, hk, hlast⟩ := starLoop_cases (m := zeroBlock.go) (fun _ _ _ => go_sound zeroBlock) _ h
  obtain ⟨len, hl, hlast⟩ := hlast (Nat.le_refl _)
  obtain ⟨zs, hzs, hr₃, rfl, hw₃⟩ := star_zeroBlock_matches h₃ (before_advance_ne_nil (cons_ne_nil _ _)) hw₂
  simp only [advance_advance] at hr₂ hr₃ hk hlast hw₃ hl
  obtain ⟨t, ht⟩ : ∃ t, t = p₁ ++ ':' :: z₂ ++ joinTail zs := ⟨_, rfl⟩
  rw [← ht] at hr₃ hk hlast hw₃ hl
  have hrest : c.rest = t ++ (c.advance t).rest := by
    rw [hr₁, hr₂, hr₃, ht]
    simp
  refine ⟨t, z₁, z₂ :: zs, (c.advance t).rest, ⟨by simp, ?_, ?_⟩, hrest, hw₃, hk, ?_⟩
  · intro x hx
    rcases mem_cons.mp hx with rfl | hx
    · exact hz₁
    · rcases mem_cons.mp hx with rfl | hx
      · exact hz₂
      · exact hzs x hx
  · rcases hp₁ with ⟨hb, rfl⟩ | rfl
    · exact .inl ⟨hb, by simp [ht, joinTail]⟩
    · exact .inr (by simp [ht, joinTail])
  · intro y v hy hu hv
    have hs : ((c.advance t).advance (':' :: y)).rest.length < (c.advance t).rest.length := by
      rw [rest_advance (t := ':' :: y) (by rw [hu]; rfl), hu, length_cons, length_append]
      omega
    rw [zeroBlock_go hy hv hu, if_pos hs] at hlast
    have hno := starLoop_zeroBlock_none hv [] len (by simp) (rest_advance (t := ':' :: y) (by rw [hu]; rfl))
      (by omega) hlast
    rwa [show joinTail [] = [] from rfl, advance_nil, advance_advance] at hno

/-! ### What may follow -/

/-- The run `t` and one more block of zeros, later in the text. -/
def LongerAhead (e : Cursor) (t : List Char) : Prop :=
  ∃ s y v, e.rest = s ++ (t ++ ':' :: (y ++ v)) ∧
    wordAt (s.reverse ++ e.before).head? ≠ wordAt t.head? ∧ Zeros y ∧
    wordAt v.head? = false

theorem head?_append_of_ne_nil {t u : List Char} (ht : t ≠ []) : (t ++ u).head? = t.head? := by
  obtain ⟨x, xs, rfl⟩ := exists_cons_of_ne_nil ht
  rfl

theorem longerRun_isSome_iff {e : Cursor} {t : List Char} (he : Plain e.rest) (hca : e.caps 1 = some t)
    (ht : t ≠ []) :
    (longerRun.go e some).isSome = true ↔ LongerAhead e t := by
  constructor
  · intro h
    obtain ⟨d, hd⟩ := Option.isSome_iff_exists.mp h
    obtain ⟨_, ⟨c₁, h₁, _, ⟨hwo, rfl⟩, c₃, ⟨t', ht', hp, rfl⟩, c₄, h₄, h₅⟩, _⟩ :=
      go_sound longerRun hd
    obtain ⟨s, _, hrest, rfl⟩ := star_chars_matches h₁
    obtain rfl : t = t' := Option.some.inj (hca.symm.trans ht')
    obtain ⟨w, hw⟩ := hp
    obtain ⟨hc, rfl⟩ := chr_matches h₄
    obtain ⟨y, hy, hyr, _, hv⟩ := zeros_matches h₅
    rw [rest_advance hw.symm] at hc
    refine ⟨s, y, _, ?_, ?_, hy, hv⟩
    · rw [hrest, ← hw, hc, hyr]
    · rw [← hw, head?_append_of_ne_nil ht] at hwo
      exact hwo
  · rintro ⟨s, y, v, hrest, hwo, hy, hv⟩
    have hs := rest_advance hrest
    have ht' := rest_advance hs
    have hc := rest_advance (t := [':']) ht'
    refine go_star_isSome s hrest (fun x hx => not_isWhitespace (he x ?_)) ?_
    · rw [hrest]
      exact mem_append_left _ hx
    · have hb : wordAt (e.advance s).before.head? ≠ wordAt (e.advance s).rest.head? := by
        rw [hs, head?_append_of_ne_nil ht]
        exact hwo
      rw [go, go, if_pos (by simpa using hb), go, go, caps_advance, hca]
      simp only [hs, isPrefixOf_iff_prefix, prefix_append, if_true]
      rw [go, go_chr ht', zeros_go hy hv hc]
      rfl

theorem Plain.eq_colon {u : List Char} (h : Plain u) (hw : wordAt u.head? = false) (hne : u ≠ []) :
    ∃ r, u = ':' :: r := by
  obtain ⟨x, r, rfl⟩ := exists_cons_of_ne_nil hne
  refine ⟨r, ?_⟩
  rw [(h x mem_cons_self).resolve_left (by simpa [wordAt] using hw)]

open Cursor

/-- What follows the run: the optional colon is always taken, no longer run comes after it, and group 2 is the rest of
the text. -/
theorem afterRun_go (hc : Plain c.rest) (hw : wordAt c.rest.head? = false) (h : afterRun.go c some = some d) :
    d.rest = [] ∧ (c.rest = [] ∧ d.caps 2 = some [] ∨
      ∃ t, c.rest = ':' :: t ∧ d.caps 2 = some t ∧ (longerRun.go (c.advance [':']) some).isSome = false) := by
  have hs : ∀ e : Cursor, Plain e.rest →
      (star nonSpace).go e (fun c' => some (c'.capture 2 e)) = some ((e.advance e.rest).capture 2 e) :=
    fun e he => go_star_all e.rest rfl (fun x hx => not_isWhitespace (he x hx)) rfl
  have hal : ∀ e : Cursor, Plain e.rest →
      ∀ d, (seq (.notAhead longerRun) (.group 2 (.star nonSpace))).go e some = some d →
      d.rest = [] ∧ d.caps 2 = some e.rest ∧ (longerRun.go e some).isSome = false := by
    intro e he d hd
    rw [go, go] at hd
    split at hd
    · cases hd
    · rename_i ha
      obtain rfl := Option.some.inj ((hs e he).symm.trans hd)
      refine ⟨by simp [capture, advance], by simp [capture, advance], ?_⟩
      exact Bool.eq_false_iff.mpr ha
  rw [afterRun, go, go, Option.or_eq_some_iff] at h
  cases hrest : c.rest with
  | nil =>
    rcases h with h | ⟨_, h⟩
    · simp [chr, go, hrest] at h
    · obtain ⟨h₁, h₂, _⟩ := hal c hc d h
      exact ⟨h₁, .inl ⟨rfl, by rw [h₂, hrest]⟩⟩
  | cons x t =>
    obtain ⟨r, hr⟩ := hc.eq_colon hw (by rw [hrest]; exact cons_ne_nil x t)
    obtain ⟨rfl, rfl⟩ := List.cons.inj (hrest.symm.trans hr)
    have had : (c.advance [':']).rest = t := rest_advance (t := [':']) hrest
    have hp : Plain (c.advance [':']).rest := by rw [had]; rw [hrest] at hc; exact hc.tail
    rw [go_chr hrest] at h
    rcases h with h | ⟨hnon, h⟩
    · obtain ⟨h₁, h₂, h₃⟩ := hal _ hp d h
      exact ⟨h₁, .inr ⟨t, rfl, by rw [h₂, had], h₃⟩⟩
    · -- the look-ahead stopped the match after the colon, so it stops it before the colon as well
      have ha : (longerRun.go (c.advance [':']) some).isSome = true := by
        by_contra hno
        rw [go, go, if_neg hno, go, hs _ hp] at hnon
        cases hnon
      obtain ⟨e, he⟩ := Option.isSome_iff_exists.mp ha
      have : longerRun.go c some = some e := by
        exact go_star_cons hrest (by decide) he
      rw [go, go, this] at h
      cases h

theorem afterRun_none (hc : Plain c.rest) (h : afterRun.go c some = none) : (longerRun.go c some).isSome = true := by
  rw [afterRun, go, go, Option.or_eq_none_iff] at h
  by_contra hno
  have hs : (star nonSpace).go c (fun c' => some (c'.capture 2 c)) = some ((c.advance c.rest).capture 2 c) :=
    go_star_all c.rest rfl (fun x hx => not_isWhitespace (hc x hx)) rfl
  rw [go, go, if_neg hno, go, hs] at h
  cases h.2

/-! ### Matches -/

theorem IsRun.ne_nil {t z : List Char} (h : IsRun c t z zs) : t ≠ [] := by
  rcases h.text with ⟨_, rfl⟩ | rfl
  · exact append_ne_nil_of_left_ne_nil (h.zeros z mem_cons_self).ne_nil _
  · exact cons_ne_nil _ _

theorem Plain.append_right {t u : List Char} (h : Plain (t ++ u)) : Plain u := fun x hx => h x (mem_append_right _ hx)

theorem longerRun_captured_iff {t s u : List Char} (hc : Plain c.rest) (hrest : c.rest = t ++ (s ++ u))
    (ht : t ≠ []) :
    (longerRun.go (((c.fresh.advance t).capture 1 c.fresh).advance s) some).isSome = true ↔
    LongerAhead (c.advance (t ++ s)) t := by
  have ha : ((c.fresh.advance t).capture 1 c.fresh).rest = s ++ u := rest_advance (show c.fresh.rest = _ from hrest)
  have hca : (((c.fresh.advance t).capture 1 c.fresh).advance s).caps 1 = some t :=
    caps_capture_self (by rw [rest_advance (show c.fresh.rest = _ from hrest)]; exact hrest) 1
  have hp : Plain (((c.fresh.advance t).capture 1 c.fresh).advance s).rest := by
    rw [rest_advance ha]
    rw [hrest] at hc
    exact hc.append_right.append_right
  rw [longerRun_isSome_iff hp hca ht, ← advance_advance]
  -- only the text and the place in it are looked at
  exact Iff.rfl

theorem longerAhead_of_stopped {t u : List Char} (hc : Plain c.rest) (hrest : c.rest = t ++ u) (ht : t ≠ [])
    (h : afterRun.go ((c.fresh.advance t).capture 1 c.fresh) some = none) : LongerAhead (c.advance t) t := by
  have hp : Plain ((c.fresh.advance t).capture 1 c.fresh).rest := by
    rw [show ((c.fresh.advance t).capture 1 c.fresh).rest = u from rest_advance (show c.fresh.rest = _ from hrest)]
    rw [hrest] at hc
    exact hc.append_right
  have ha := longerRun_captured_iff (s := []) hc hrest ht
  rw [append_nil] at ha
  exact ha.mp (afterRun_none hp h)

theorem LongerAhead.of_cons {t y v : List Char} (hrest : c.rest = t ++ ':' :: (y ++ v)) (ht : t ≠ []) (hy : Zeros y)
    (h : LongerAhead (c.advance (t ++ ':' :: y)) (t ++ ':' :: y)) : LongerAhead (c.advance (t ++ [':'])) t := by
  obtain ⟨s, y', v', hs, hw, -, -⟩ := h
  rw [rest_advance (u := v) (by rw [hrest]; simp)] at hs
  refine ⟨y ++ s, y, ':' :: (y' ++ v'), ?_, ?_, hy, rfl⟩
  · rw [rest_advance (t := t ++ [':']) (u := y ++ v) (by rw [hrest]; simp), hs]
    simp
  · have hb : s.reverse ++ (c.advance (t ++ ':' :: y)).before = (y ++ s).reverse ++
        (c.advance (t ++ [':'])).before := by
      simp [advance]
    rwa [hb, head?_append_of_ne_nil ht] at hw

/-- Every match takes a whole run of zero blocks and then the rest of the text, of which group 2 misses the first colon;
no longer run follows. -/
theorem canonical_go (hc : Plain c.rest) (h : (seq zeroRun afterRun).go c.fresh some = some d) :
    d.rest = [] ∧ ∃ t z zs u r, IsRun c t z zs ∧ c.rest = t ++ u ∧ (u = [] ∧ r = [] ∨ u = ':' :: r) ∧
      d.caps 2 = some r ∧
      wordAt u.head? = false ∧ (∀ y v, Zeros y → u = ':' :: (y ++ v) → wordAt v.head? = true) ∧
      (u ≠ [] → ¬LongerAhead (c.advance (t ++ [':'])) t) := by
  rw [go] at h
  obtain ⟨t, z, zs, u, hru, hrest, hw, haf, hm⟩ := zeroRun_go h
  have hr' : c.rest = t ++ u := hrest
  have hu : (c.fresh.advance t).rest = u := rest_advance hrest
  have hp : Plain u := by
    rw [hr'] at hc
    exact hc.append_right
  obtain ⟨hd, hca⟩ := afterRun_go (c := (c.fresh.advance t).capture 1 c.fresh) (by rw [← hu] at hp; exact hp)
    (by rw [← hu] at hw; exact hw) haf
  have ha : u ≠ [] → ¬LongerAhead (c.advance (t ++ [':'])) t := by
    intro hne hl
    rcases hca with ⟨hni, _⟩ | ⟨r, hr, _, hno⟩
    · exact hne (hu.symm.trans hni)
    · have hr : c.rest = t ++ ([':'] ++ r) := by rw [hr', hu.symm.trans hr]; rfl
      rw [(longerRun_captured_iff hc hr hru.ne_nil).mpr hl] at hno
      cases hno
  have hwh : ∀ y v, Zeros y → u = ':' :: (y ++ v) → wordAt v.head? = true := by
    intro y v hy hyu
    by_contra hv
    have hs := hm y v hy hyu (Bool.eq_false_iff.mpr hv)
    have hlo : c.rest = (t ++ ':' :: y) ++ v := by
      rw [hr', hyu]
      simp
    rw [hyu] at hr'
    exact ha (by rw [hyu]; exact cons_ne_nil _ _)
      (.of_cons hr' hru.ne_nil hy (longerAhead_of_stopped hc hlo (by simp) hs))
  refine ⟨hd, t, z, zs, u, ?_⟩
  rcases hca with ⟨hni, hc2⟩ | ⟨r, hr, hc2, _⟩
  · exact ⟨[], ⟨hru.two, hru.zeros, hru.text⟩, hr', .inl ⟨hu.symm.trans hni, rfl⟩, hc2, hw, hwh, ha⟩
  · exact ⟨r, ⟨hru.two, hru.zeros, hru.text⟩, hr', .inr (hu.symm.trans hr), hc2, hw, hwh, ha⟩

theorem canonical_go_before {p z₀ z u : List Char} (hz₀ : Zeros z₀)
    (hp : c.before = [] ∧ p = z₀ ∨ p = ':' :: z₀)
    (hc : Plain c.rest) (hrest : c.rest = p ++ (joinTail (z :: zs) ++ u)) (hz : ∀ x ∈ z :: zs, Zeros x)
    (hu : wordAt u.head? = false)
    (hah : u ≠ [] → ¬LongerAhead (c.advance (p ++ joinTail (z :: zs) ++ [':'])) (joinTail (z :: zs))) :
    (seq zeroRun afterRun).go c.fresh some ≠ none := by
  intro h
  have hr' : c.fresh.rest = p ++ (joinTail (z :: zs) ++ u) := hrest
  have hco : (c.fresh.advance p).rest = ':' :: (z ++ (joinTail zs ++ u)) := by
    rw [rest_advance hr']
    simp [joinTail]
  have ho : ∀ k, zeroBlock.go c.fresh k = k (c.fresh.advance p) := by
    intro k
    have hw := wordAt_head_joinTail hu (z :: zs)
    rcases hp with ⟨hb, rfl⟩ | rfl
    · exact zeroBlock_go_start hz₀ hw hb hr'
    · exact zeroBlock_go hz₀ hw (by rw [hr']; rfl)
  rw [go, zeroRun, go, twoOrMore, go, ho, go, zeroBlock_go (hz z mem_cons_self) (wordAt_head_joinTail hu zs) hco] at h
  have ha : ((c.fresh.advance p).advance (':' :: z)).rest = joinTail zs ++ u :=
    rest_advance (t := ':' :: z) (by rw [hco]; rfl)
  have he := starLoop_zeroBlock_none hu zs _ (fun x hx => hz x (mem_cons_of_mem _ hx)) ha (Nat.le_refl _) h
  have had : ((c.fresh.advance p).advance (':' :: z)).advance (joinTail zs) =
      c.fresh.advance (p ++ joinTail (z :: zs)) := by
    rw [advance_advance, advance_advance]
    simp [joinTail]
  rw [had] at he
  have hl : c.rest = (p ++ joinTail (z :: zs)) ++ u := by rw [hrest, append_assoc]
  obtain ⟨s, y, v, hs, _, hy, hv⟩ := longerAhead_of_stopped hc hl (by simp [joinTail]) he
  rw [rest_advance hl] at hs
  have hpl : Plain u := by
    rw [hl] at hc
    exact hc.append_right
  -- the run that was found is the end of a longer one, and one more block follows that one
  have hlast : ∃ w, s ++ p = ':' :: (w ++ ['0']) := by
    obtain ⟨q, rfl⟩ : ∃ q, p = q ++ ['0'] := by
      obtain ⟨n, rfl⟩ := hz₀
      rcases hp with ⟨_, rfl⟩ | rfl
      · exact ⟨List.replicate n '0', replicate_succ'⟩
      · exact ⟨':' :: List.replicate n '0', by rw [replicate_succ']; rfl⟩
    obtain ⟨r, hr⟩ := hpl.eq_colon hu (by rw [hs]; simp)
    have hsq : s ++ q ++ ('0' :: (joinTail (z :: zs) ++ ':' :: (y ++ v))) = ':' :: r := by
      rw [← hr, hs]
      simp
    rw [← append_assoc]
    cases hfi : s ++ q with
    | nil => simp [hfi] at hsq
    | cons x w =>
      rw [hfi] at hsq
      exact ⟨w, by rw [(List.cons.inj hsq).1]; rfl⟩
  obtain ⟨w, hw⟩ := hlast
  have hsplit : u = ':' :: (w ++ ['0'] ++ (joinTail (z :: zs) ++ ':' :: (y ++ v))) := by
    calc u = (s ++ p) ++ (joinTail (z :: zs) ++ ':' :: (y ++ v)) := by rw [hs]; simp
      _ = _ := by rw [hw]; simp
  refine hah (by rw [hsplit]; exact cons_ne_nil _ _) ⟨w ++ ['0'], y, v, ?_, ?_, hy, hv⟩
  · refine rest_advance ?_
    rw [hrest, hsplit]
    simp
  · rw [reverse_append]
    exact Bool.noConfusion

/-! ## Joined blocks -/

def join (bs : List (List Char)) : List Char := [':'].intercalate bs

theorem join_cons : ∀ (z : List Char) (zs : List (List Char)), join (z :: zs) = z ++ joinTail zs
  | z, [] => by simp [join, joinTail]
  | z, y :: ys => by
    rw [join, intercalate_cons_cons, ← join, join_cons y ys]
    simp [joinTail]

theorem splitOn_join {bs : List (List Char)} (hne : bs ≠ []) (hb : ∀ b ∈ bs, ':' ∉ b) :
    (join bs).splitOn ':' = bs :=
  splitOn_intercalate ':' hb hne

theorem join_splitOn (s : List Char) : join (s.splitOn ':') = s := intercalate_splitOn ':'

theorem Zeros.colon_notMem {z : List Char} (hz : Zeros z) : ':' ∉ z := by
  obtain ⟨n, rfl⟩ := hz
  simp [mem_replicate]

theorem colon_notMem_of_isWord {b : List Char} (hb : ∀ x ∈ b, isWord x = true) : ':' ∉ b :=
  fun h => absurd (hb ':' h) (by decide)

theorem plain_join : ∀ {bs : List (List Char)}, (∀ b ∈ bs, ∀ x ∈ b, isWord x = true) → Plain (join bs)
  | [], _ => by simp [join, Plain]
  | z :: zs, hb => by
    rw [join_cons]
    intro x hx
    rcases mem_append.mp hx with hx | hx
    · exact .inl (hb z mem_cons_self x hx)
    · obtain ⟨y, hy, hx⟩ := mem_flatMap.mp hx
      rcases mem_cons.mp hx with rfl | hx
      · exact .inr rfl
      · exact .inl (hb y (mem_cons_of_mem _ hy) x hx)

theorem splitOn_run {z : List Char} (hz : ∀ x ∈ z :: zs, Zeros x) {u t : List Char}
    (hu : u = [] ∧ t = [] ∨ u = ':' :: t) :
    ∃ r, (join (z :: zs) ++ u).splitOn ':' = (z :: zs) ++ r ∧ join r = t ∧
      (r = [] ∨ u = ':' :: t ∧ r = t.splitOn ':') := by
  have hr := splitOn_join (cons_ne_nil z zs) fun x hx => (hz x hx).colon_notMem
  rcases hu with ⟨rfl, rfl⟩ | rfl
  · exact ⟨[], by rw [append_nil, append_nil, hr], rfl, .inl rfl⟩
  · exact ⟨t.splitOn ':', by rw [splitOn_append_cons_self, hr], join_splitOn t, .inr ⟨rfl, rfl⟩⟩

/-- The block after a run is not of zeros. -/
theorem not_zeros_of_head {u r y : List Char} {ys : List (List Char)}
    (hw : ∀ y v, Zeros y → u = ':' :: (y ++ v) → wordAt v.head? = true) (hu : u = ':' :: r)
    (hr : r.splitOn ':' = y :: ys) : ¬Zeros y := by
  intro hy
  have hjo : r = y ++ joinTail ys := by rw [← join_splitOn r, hr, join_cons]
  have ht := hw y (joinTail ys) hy (by rw [hu, hjo])
  cases ys with
  | nil => cases ht
  | cons _ _ => cases ht

/-- The text of blocks up to the last one. -/
theorem join_concat {l : List (List Char)} {b : List Char} :
    join (l ++ [b]) = b ∧ l = [] ∨ join (l ++ [b]) = join l ++ ':' :: b := by
  cases l with
  | nil => exact .inl ⟨by simp [join], rfl⟩
  | cons x l =>
    rw [cons_append, join_cons, join_cons]
    simp [joinTail]

theorem not_zeros_of_getLast {text s z u : List Char} (hpl : Plain text)
    (ht : text = s ++ (joinTail (z :: zs) ++ u)) (hz : ∀ x ∈ z :: zs, Zeros x) (hu : wordAt u.head? = false)
    (ha : u ≠ [] →
      ¬LongerAhead (((start text).advance s).advance (joinTail (z :: zs) ++ [':'])) (joinTail (z :: zs)))
    (hfi : ∀ t₁ t₂, s = t₁ ++ t₂ → t₂ ≠ [] →
      (seq zeroRun afterRun).go ((start text).advance t₁).fresh some = none) :
    ∀ z₀ ∈ (s.splitOn ':').getLast?, ¬Zeros z₀ := by
  intro z₀ hlast hz₀
  obtain ⟨l, hl⟩ := getLast?_eq_some_iff.mp hlast
  have hs : s = join (l ++ [z₀]) := by rw [← hl, join_splitOn]
  obtain ⟨s₀, p, hsp, hp⟩ : ∃ s₀ p, s = s₀ ++ p ∧ (s₀ = [] ∧ p = z₀ ∨ p = ':' :: z₀) := by
    rcases join_concat (l := l) (b := z₀) with ⟨hj, _⟩ | hj
    · exact ⟨[], z₀, hs.trans hj, .inl ⟨rfl, rfl⟩⟩
    · exact ⟨join l, ':' :: z₀, hs.trans hj, .inr rfl⟩
  have hpn : p ≠ [] := by
    rcases hp with ⟨_, rfl⟩ | rfl
    · exact hz₀.ne_nil
    · exact cons_ne_nil _ _
  have hrest : (start text).rest = s₀ ++ (p ++ (joinTail (z :: zs) ++ u)) := by
    rw [← append_assoc, ← hsp]
    exact ht
  refine canonical_go_before (c := (start text).advance s₀) (u := u) hz₀ ?_ ?_ (rest_advance hrest) hz hu ?_
    (hfi s₀ p hsp hpn)
  · refine hp.imp_left fun h => ⟨?_, h.2⟩
    rw [h.1]
    rfl
  · rw [rest_advance hrest]
    rw [show text = _ from hrest] at hpl
    exact hpl.append_right
  · intro hun hlo
    refine ha hun ?_
    rw [advance_advance, ← append_assoc, ← append_assoc, ← hsp] at hlo
    rwa [advance_advance, ← append_assoc]

/-- The canonical form is the text itself, or the text with one run of at least two zero blocks, all of it, replaced by
`::`. -/
theorem convertIpv6ToCanonicalForm_cases {bs : List (List Char)} (hne : bs ≠ [])
    (hb : ∀ b ∈ bs, ∀ x ∈ b, isWord x = true) :
    convertIpv6ToCanonicalForm (join bs) = join bs ∨
      ∃ l zs r, bs = l ++ zs ++ r ∧ 2 ≤ zs.length ∧ (∀ z ∈ zs, Zeros z) ∧
        (∀ b ∈ l.getLast?, ¬Zeros b) ∧
        (∀ b ∈ r.head?, ¬Zeros b) ∧ convertIpv6ToCanonicalForm (join bs) = join l ++ ':' :: ':' :: join r := by
  have hsplit := splitOn_join hne fun b h => colon_notMem_of_isWord (hb b h)
  have he : ∀ c d, Plain c.rest → (seq zeroRun afterRun).go (fresh c) some = some d →
      d.rest = [] ∧ c.rest ≠ [] := by
    intro c d hc h
    obtain ⟨hd, t, z, zs, u, r, hru, hrest, _⟩ := canonical_go hc h
    refine ⟨hd, fun hni => hru.ne_nil ?_⟩
    exact (append_eq_nil_iff.mp (hrest.symm.trans hni)).1
  have hp : Plain (join bs) := plain_join hb
  rcases replaceFrom_of_greedy (f := fun caps => "::".toList ++ (caps 2).getD []) he Plain.tail _ (.start (join bs))
    hp (Nat.lt_succ_self _) with h | ⟨s, rest, d, hs, hgo, hre, hfi⟩
  · exact .inl h
  have hs : join bs = s ++ rest := hs
  have hcr : ((start (join bs)).advance s).rest = rest := rest_advance hs
  have hc : Plain ((start (join bs)).advance s).rest := by
    rw [hcr]
    rw [hs] at hp
    exact hp.append_right
  obtain ⟨_, t, z, zs, u, r, hru, hrest, hu, hca, hw, hwh, ha⟩ := canonical_go hc hgo
  rw [hcr] at hrest
  obtain ⟨r', hr', hjo, hblocks⟩ := splitOn_run hru.zeros hu
  have hl : 2 ≤ (z :: zs).length := by
    have := length_pos_iff.mpr hru.two
    rw [length_cons]
    omega
  have ho : convertIpv6ToCanonicalForm (join bs) = s ++ ':' :: ':' :: join r' := by
    refine hre.trans ?_
    rw [hca, hjo]
    rfl
  have hr : ∀ b ∈ r'.head?, ¬Zeros b := by
    intro b hb
    rcases hblocks with rfl | ⟨hco, rfl⟩
    · cases hb
    · obtain ⟨ys, hys⟩ := head?_eq_some_iff.mp hb
      exact not_zeros_of_head hwh hco hys
  right
  rcases hru.text with ⟨hni, ht⟩ | ht
  · -- the run begins the text
    obtain rfl : s = [] := by simpa [start, advance] using hni
    refine ⟨[], z :: zs, r', ?_, hl, hru.zeros, by simp, hr, ho⟩
    rw [← hsplit, hs, hrest, ht, ← join_cons, nil_append, hr']
    rfl
  · have hte : join bs = s ++ ':' :: (join (z :: zs) ++ u) := by
      rw [hs, hrest, ht, join_cons]
      simp [joinTail]
    refine ⟨s.splitOn ':', z :: zs, r', ?_, hl, hru.zeros, ?_, hr, by rw [ho, join_splitOn]⟩
    · rw [← hsplit, hte, splitOn_append_cons_self, hr', append_assoc]
    · rw [ht] at hrest ha
      exact not_zeros_of_getLast hp (hs.trans (by rw [hrest])) hru.zeros hw ha hfi

end Cimogus.Net
