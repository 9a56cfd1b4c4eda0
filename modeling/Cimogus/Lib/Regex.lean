import Mathlib.Data.List.Infix
import Mathlib.Data.List.TakeWhile
import Mathlib.Logic.Relation

/-!
# Backtracking regular expressions

Regular expressions with greedy repetition, captured groups, back references and negative look-ahead, run as a
backtracking matcher does: `go r c k` matches `r` at the cursor `c` and hands every cursor it can reach to `k`, in the
order of preference, until `k` accepts. A repetition stops at an iteration that consumes nothing.

* `go_sound`: what a successful match has consumed is related by `Matches`.
* `starLoop_cases`: a greedy repetition stops only where one more iteration leads nowhere.
* `go_star_greedy`: a greedy repetition of a character class takes all of the class that there is.
-/

namespace Lib.Regex

inductive Re
  | chars (p : Char → Bool)
  | startOfText
  | wordBoundary
  | seq (a b : Re)
  | alt (a b : Re)
  | opt (a : Re)
  | star (a : Re)
  | group (n : Nat) (a : Re)
  | backref (n : Nat)
  | notAhead (a : Re)

namespace Re

def chr (x : Char) : Re := .chars (· == x)

/-- The characters one after the other, and then `r`. -/
def after (text : String) (r : Re) : Re := text.toList.foldr (fun x r => .seq (.chr x) r) r

/-- From one to `n + 1` times. -/
def upTo (a : Re) : Nat → Re
  | 0 => a
  | n + 1 => .seq a (.opt (upTo a n))

def plus (a : Re) : Re := .seq a (.star a)

def twoOrMore (a : Re) : Re := .seq a (.seq a (.star a))

end Re

/-- A position in the subject: what lies before it (nearest character first), what follows, and the groups captured. -/
structure Cursor where
  before : List Char
  rest : List Char
  caps : Nat → Option (List Char)

namespace Cursor

def start (s : List Char) : Cursor := ⟨[], s, fun _ => none⟩

/-- Move over `t`. -/
def advance (c : Cursor) (t : List Char) : Cursor :=
  { c with before := t.reverse ++ c.before, rest := c.rest.drop t.length }

/-- Record what lies between `c` and `c'` as group `n`. -/
def capture (c' : Cursor) (n : Nat) (c : Cursor) : Cursor :=
  { c' with caps := Function.update c'.caps n (some (c.rest.take (c.rest.length - c'.rest.length))) }

end Cursor

def isWord (x : Char) : Bool := x.isAlphanum || x == '_'

def wordAt (o : Option Char) : Bool := o.any isWord

/-- The loop of a greedy repetition; `len` bounds the characters left. -/
def starLoop (m : Cursor → (Cursor → Option Cursor) → Option Cursor) :
    Nat → Cursor → (Cursor → Option Cursor) → Option Cursor
  | 0, c, k => k c
  | len + 1, c, k =>
    (m c (fun c' => if c'.rest.length < c.rest.length then starLoop m len c' k else none)).or (k c)

def Re.go : Re → Cursor → (Cursor → Option Cursor) → Option Cursor
  | .chars p, c, k =>
    match c.rest with
    | [] => none
    | x :: _ => if p x then k (c.advance [x]) else none
  | .startOfText, c, k => if c.before.isEmpty then k c else none
  | .wordBoundary, c, k => if wordAt c.before.head? != wordAt c.rest.head? then k c else none
  | .seq a b, c, k => a.go c (fun c' => b.go c' k)
  | .alt a b, c, k => (a.go c k).or (b.go c k)
  | .opt a, c, k => (a.go c k).or (k c)
  | .star a, c, k => starLoop a.go c.rest.length c k
  | .group n a, c, k => a.go c (fun c' => k (c'.capture n c))
  | .backref n, c, k =>
    match c.caps n with
    | none => none
    | some t => if t.isPrefixOf c.rest then k (c.advance t) else none
  | .notAhead a, c, k => if (a.go c some).isSome then none else k c

open Re

theorem go_seq (a b : Re) (c : Cursor) (k : Cursor → Option Cursor) :
    (seq a b).go c k = a.go c fun d => b.go d k := by
  rw [go]

def Re.Matches : Re → Cursor → Cursor → Prop
  | .chars p, c, c' => ∃ x xs, c.rest = x :: xs ∧ p x = true ∧ c' = c.advance [x]
  | .startOfText, c, c' => c.before = [] ∧ c' = c
  | .wordBoundary, c, c' => wordAt c.before.head? ≠ wordAt c.rest.head? ∧ c' = c
  | .seq a b, c, c' => ∃ d, a.Matches c d ∧ b.Matches d c'
  | .alt a b, c, c' => a.Matches c c' ∨ b.Matches c c'
  | .opt a, c, c' => a.Matches c c' ∨ c' = c
  | .star a, c, c' => Relation.ReflTransGen a.Matches c c'
  | .group n a, c, c' => ∃ d, a.Matches c d ∧ c' = d.capture n c
  | .backref n, c, c' => ∃ t, c.caps n = some t ∧ t <+: c.rest ∧ c' = c.advance t
  | .notAhead a, c, c' => a.go c some = none ∧ c' = c

theorem starLoop_cases {m : Cursor → (Cursor → Option Cursor) → Option Cursor} {R : Cursor → Cursor → Prop}
    (hm : ∀ c k d, m c k = some d → ∃ c', R c c' ∧ k c' = some d) : ∀ (len : Nat) {c : Cursor}
    {k : Cursor → Option Cursor} {d : Cursor}, starLoop m len c k = some d →
      ∃ c', Relation.ReflTransGen R c c' ∧ k c' = some d ∧
        (c.rest.length ≤ len → ∃ len', c'.rest.length ≤ len' + 1 ∧
        m c' (fun c'' => if c''.rest.length < c'.rest.length then starLoop m len' c'' k else none) = none)
  | 0, c, k, d, h => by
    refine ⟨c, .refl, h, fun hl => ⟨0, by omega, ?_⟩⟩
    rw [Option.eq_none_iff_forall_not_mem]
    intro d' hd'
    obtain ⟨c'', _, hk⟩ := hm _ _ _ hd'
    split at hk
    · omega
    · cases hk
  | len + 1, c, k, d, h => by
    rw [starLoop, Option.or_eq_some_iff] at h
    rcases h with h | ⟨hno, h⟩
    · obtain ⟨c₁, h₁, h₂⟩ := hm _ _ _ h
      split at h₂
      · obtain ⟨c', hr, hk, hlast⟩ := starLoop_cases hm len h₂
        exact ⟨c', .head h₁ hr, hk, fun hl => hlast (by omega)⟩
      · cases h₂
    · exact ⟨c, .refl, h, fun hl => ⟨len, hl, hno⟩⟩

/-- A successful match is one of the declared ones. -/
theorem go_sound : ∀ (r : Re) {c : Cursor} {k : Cursor → Option Cursor} {d : Cursor}, r.go c k = some d →
    ∃ c', r.Matches c c' ∧ k c' = some d
  | .chars p, c, k, d, h => by
    unfold go at h
    split at h
    · cases h
    · rename_i x xs hx
      split at h
      · exact ⟨_, ⟨x, xs, hx, ‹_›, rfl⟩, h⟩
      · cases h
  | .startOfText, c, k, d, h => by
    unfold go at h
    split at h
    · exact ⟨c, ⟨List.isEmpty_iff.mp ‹_›, rfl⟩, h⟩
    · cases h
  | .wordBoundary, c, k, d, h => by
    unfold go at h
    split at h
    · rename_i hb
      exact ⟨c, ⟨by simpa using hb, rfl⟩, h⟩
    · cases h
  | .seq a b, c, k, d, h => by
    obtain ⟨c₁, h₁, h⟩ := go_sound a h
    obtain ⟨c₂, h₂, h⟩ := go_sound b h
    exact ⟨c₂, ⟨c₁, h₁, h₂⟩, h⟩
  | .alt a b, c, k, d, h => by
    rw [go, Option.or_eq_some_iff] at h
    rcases h with h | ⟨_, h⟩
    · obtain ⟨c', h', hk⟩ := go_sound a h
      exact ⟨c', .inl h', hk⟩
    · obtain ⟨c', h', hk⟩ := go_sound b h
      exact ⟨c', .inr h', hk⟩
  | .opt a, c, k, d, h => by
    rw [go, Option.or_eq_some_iff] at h
    rcases h with h | ⟨_, h⟩
    · obtain ⟨c', h', hk⟩ := go_sound a h
      exact ⟨c', .inl h', hk⟩
    · exact ⟨c, .inr rfl, h⟩
  | .star a, c, k, d, h =>
    have ⟨c', hm, hk, _⟩ := starLoop_cases (m := a.go) (fun _ _ _ h' => go_sound a h') _ h
    ⟨c', hm, hk⟩
  | .group n a, c, k, d, h => by
    obtain ⟨c', h', hk⟩ := go_sound a h
    exact ⟨_, ⟨c', h', rfl⟩, hk⟩
  | .backref n, c, k, d, h => by
    unfold go at h
    split at h
    · cases h
    · rename_i t ht
      split at h
      · exact ⟨_, ⟨t, ht, List.isPrefixOf_iff_prefix.mp ‹_›, rfl⟩, h⟩
      · cases h
  | .notAhead a, c, k, d, h => by
    unfold go at h
    split at h
    · cases h
    · rename_i hn
      exact ⟨c, ⟨by simpa using hn, rfl⟩, h⟩

/-! ## Greedy repetition of a class -/

theorem advance_advance (c : Cursor) (s t : List Char) : (c.advance s).advance t = c.advance (s ++ t) := by
  simp [Cursor.advance, List.drop_drop]

theorem advance_nil (c : Cursor) : c.advance [] = c := by
  simp [Cursor.advance]

variable {k : Cursor → Option Cursor} {p : Char → Bool} {c : Cursor}

theorem rest_advance {t u : List Char} (h : c.rest = t ++ u) : (c.advance t).rest = u := by
  simp [Cursor.advance, h]

theorem before_advance (c : Cursor) (t : List Char) : (c.advance t).before = t.reverse ++ c.before := rfl

theorem caps_advance (c : Cursor) (t : List Char) : (c.advance t).caps = c.caps := rfl

theorem go_chr {x : Char} {xs : List Char} (h : c.rest = x :: xs) (k : Cursor → Option Cursor) :
    (chr x).go c k = k (c.advance [x]) := by
  simp [chr, go, h]

theorem go_after_none {text : String} {r : Re} (h : ¬text.toList <+: c.rest) : (after text r).go c k = none := by
  unfold after
  generalize text.toList = xs at h ⊢
  induction xs generalizing c with
  | nil => exact absurd List.nil_prefix h
  | cons x xs ih =>
    rw [List.foldr_cons, go]
    cases hc : c.rest with
    | nil => simp [chr, go, hc]
    | cons y ys =>
      by_cases hy : y = x
      · subst hy
        rw [go_chr hc]
        refine ih fun hb => h ?_
        rw [rest_advance (t := [y]) hc] at hb
        rw [hc]
        exact List.cons_prefix_cons.mpr ⟨rfl, hb⟩
      · simp [chr, go, hc, hy]

theorem go_after {text : String} {r : Re} {t : List Char} (h : c.rest = text.toList ++ t)
    (k : Cursor → Option Cursor) :
    (after text r).go c k = r.go (c.advance text.toList) k := by
  unfold after
  generalize text.toList = xs at h ⊢
  induction xs generalizing c with
  | nil => rw [List.foldr_nil, advance_nil]
  | cons x xs ih =>
    rw [List.foldr_cons, go, go_chr h, ih (rest_advance (t := [x]) h), advance_advance]
    rfl

/-- A repetition of a class takes some characters of it. -/
theorem star_chars_matches {c' : Cursor} (h : (star (.chars p)).Matches c c') :
    ∃ s, (∀ x ∈ s, p x = true) ∧ c.rest = s ++ c'.rest ∧ c' = c.advance s := by
  induction h with
  | refl => exact ⟨[], by simp, rfl, (advance_nil c).symm⟩
  | tail _ hst ih =>
    obtain ⟨s, hs, hrest, rfl⟩ := ih
    obtain ⟨x, xs, hx, hp, rfl⟩ := hst
    refine ⟨s ++ [x], ?_, ?_, advance_advance c s [x]⟩
    · intro y hy
      rcases List.mem_append.mp hy with hy | hy
      · exact hs y hy
      · rw [List.mem_singleton.mp hy]
        exact hp
    · rw [rest_advance (show (c.advance s).rest = [x] ++ xs from hx), hrest, hx]
      simp

theorem caps_capture_self {e : Cursor} {t : List Char} (h : c.rest = t ++ e.rest) (n : Nat) :
    (e.capture n c).caps n = some t := by
  simp [Cursor.capture, h]

theorem go_star_cons {x : Char} {xs : List Char} (hx : c.rest = x :: xs) (hp : p x = true)
    {k : Cursor → Option Cursor}
    {d : Cursor} (h : (star (.chars p)).go (c.advance [x]) k = some d) : (star (.chars p)).go c k = some d := by
  have hrest : (c.advance [x]).rest = xs := by simp [Cursor.advance, hx]
  rw [go, hrest] at h
  rw [go, hx, List.length_cons, starLoop, Option.or_eq_some_iff]
  left
  simp only [go, hx, hp, if_true, hrest, List.length_cons, Nat.lt_succ_self]
  exact h

/-- A repetition can stop after any characters of its class. -/
theorem go_star_isSome {p : Char → Bool} {k : Cursor → Option Cursor} :
    ∀ (s : List Char) {c : Cursor} {t : List Char},
    c.rest = s ++ t → (∀ x ∈ s, p x = true) → (k (c.advance s)).isSome = true →
    ((star (.chars p)).go c k).isSome = true
  | [], c, t, _, _, hk => by
    rw [advance_nil] at hk
    rw [go]
    cases c.rest.length with
    | zero => exact hk
    | succ n => rw [starLoop, Option.isSome_or, hk, Bool.or_true]
  | x :: s, c, t, hc, hp, hk => by
    have ih := go_star_isSome (k := k) s (rest_advance (t := [x]) hc) (fun y hy => hp y (List.mem_cons_of_mem _ hy))
      (by rwa [advance_advance])
    obtain ⟨d, hd⟩ := Option.isSome_iff_exists.mp ih
    rw [go_star_cons hc (hp x List.mem_cons_self) hd]
    rfl

theorem go_star_greedy {p : Char → Bool} {k : Cursor → Option Cursor} {d : Cursor} :
    ∀ (s : List Char) {c : Cursor}
    {t : List Char}, c.rest = s ++ t → (∀ x ∈ s, p x = true) → (∀ x ∈ t.head?, p x = false) →
      k (c.advance s) = some d →
      (star (.chars p)).go c k = some d
  | [], c, t, hc, _, hstop, hk => by
    rw [advance_nil] at hk
    rw [go, hc]
    cases t with
    | nil => exact hk
    | cons y ys =>
      have hy : p y = false := hstop y rfl
      have hfa (k : Cursor → Option Cursor) : (chars p).go c k = none := by
        simp [go, hc, hy]
      rw [List.nil_append, List.length_cons, starLoop, hfa, Option.none_or]
      exact hk
  | x :: s, c, t, hc, hp, hstop, hk => by
    refine go_star_cons hc (hp x List.mem_cons_self) ?_
    refine go_star_greedy s (rest_advance (t := [x]) hc) (fun y hy => hp y (List.mem_cons_of_mem _ hy)) hstop ?_
    rwa [advance_advance]

theorem go_star_all {d : Cursor} (t : List Char) {c : Cursor} (hc : c.rest = t) (hp : ∀ x ∈ t, p x = true)
    (hk : k (c.advance t) = some d) : (star (.chars p)).go c k = some d :=
  go_star_greedy t (hc.trans (List.append_nil t).symm) hp (by simp) hk

theorem go_plus_greedy {d : Cursor} {s t : List Char} (hne : s ≠ []) (hc : c.rest = s ++ t)
    (hp : ∀ x ∈ s, p x = true)
    (hstop : ∀ x ∈ t.head?, p x = false) (hk : k (c.advance s) = some d) : (plus (.chars p)).go c k = some d := by
  obtain ⟨x, s, rfl⟩ := List.exists_cons_of_ne_nil hne
  have hs : (star (.chars p)).go (c.advance [x]) k = some d :=
    go_star_greedy s (rest_advance (t := [x]) hc) (fun y hy => hp y (List.mem_cons_of_mem _ hy)) hstop
      (by rwa [advance_advance])
  simpa [plus, go, hc, hp x List.mem_cons_self] using hs

theorem plus_chars_matches {c' : Cursor} (h : (plus (.chars p)).Matches c c') :
    ∃ s, s ≠ [] ∧ (∀ x ∈ s, p x = true) ∧ c.rest = s ++ c'.rest ∧ c' = c.advance s := by
  obtain ⟨_, ⟨x, xs, hx, hp, rfl⟩, hst⟩ := h
  obtain ⟨s, hs, hrest, rfl⟩ := star_chars_matches hst
  refine ⟨x :: s, List.cons_ne_nil _ _, List.forall_mem_cons.mpr ⟨hp, hs⟩, ?_, advance_advance c [x] s⟩
  rw [rest_advance (t := [x]) hx] at hrest
  rw [hx, hrest, List.cons_append]

theorem head?_dropWhile (p : Char → Bool) (s : List Char) : ∀ x ∈ (s.dropWhile p).head?, p x = false := by
  intro x hx
  have hstop := List.head?_dropWhile_not p s
  rw [Option.mem_def.mp hx] at hstop
  simpa using hstop

/-- A repetition takes all characters of its class, if what follows cannot begin at one of them. -/
theorem go_star_eq (hk : ∀ c, (∃ x ∈ c.rest.head?, p x = true) → k c = none) (c : Cursor) :
    (star (.chars p)).go c k = k (c.advance (c.rest.takeWhile p)) := by
  have ha : ∀ x ∈ c.rest.takeWhile p, p x = true := fun x hx => List.mem_takeWhile_imp hx
  cases hg : k (c.advance (c.rest.takeWhile p)) with
  | some d =>
    exact go_star_greedy _ (List.takeWhile_append_dropWhile (p := p)).symm ha (head?_dropWhile p c.rest) hg
  | none =>
    rw [Option.eq_none_iff_forall_not_mem]
    intro d hd
    obtain ⟨c', hm, hd⟩ := go_sound _ hd
    obtain ⟨s, hs, hrest, rfl⟩ := star_chars_matches hm
    by_cases hstop : ∃ x ∈ (c.advance s).rest.head?, p x = true
    · rw [hk _ hstop] at hd
      cases hd
    · have ht : c.rest.takeWhile p = s := by
        rw [hrest, List.takeWhile_append_of_pos hs]
        cases hnext : (c.advance s).rest with
        | nil => simp
        | cons x xs =>
          have hx : ¬p x = true := fun hp => hstop ⟨x, by rw [hnext]; rfl, hp⟩
          rw [List.takeWhile_cons_of_neg hx, List.append_nil]
      rw [ht, hd] at hg
      cases hg

/-- One or more of a class, with a continuation that takes anything. -/
theorem go_plus_eq (hk : ∀ c, (k c).isSome) (c : Cursor) :
    (plus (.chars p)).go c k = if c.rest.takeWhile p = [] then none else k (c.advance (c.rest.takeWhile p)) := by
  split
  · rename_i hno
    rw [Option.eq_none_iff_forall_not_mem]
    intro d hd
    obtain ⟨c', hm, -⟩ := go_sound _ hd
    obtain ⟨s, hne, hs, hrest, rfl⟩ := plus_chars_matches hm
    obtain ⟨x, s, rfl⟩ := List.exists_cons_of_ne_nil hne
    rw [hrest, List.cons_append, List.takeWhile_cons_of_pos (hs x List.mem_cons_self)] at hno
    cases hno
  · rename_i hne
    obtain ⟨d, hd⟩ := Option.isSome_iff_exists.mp (hk (c.advance (c.rest.takeWhile p)))
    rw [hd]
    exact go_plus_greedy hne (List.takeWhile_append_dropWhile (p := p)).symm (fun x hx => List.mem_takeWhile_imp hx)
      (head?_dropWhile p c.rest) hd

/-- The cursor with no group captured, where a new match begins. -/
def Cursor.fresh (c : Cursor) : Cursor := { c with caps := fun _ => none }

/-! ## Searching -/

/-- The end of the first match from the cursor on, with its groups; `len` bounds the positions left. -/
def searchFrom (r : Re) : Nat → Cursor → Option Cursor
  | 0, c => r.go c.fresh some
  | len + 1, c =>
    match r.go c.fresh some, c.rest with
    | some d, _ => some d
    | none, [] => none
    | none, x :: _ => searchFrom r len (c.advance [x])

theorem searchFrom_of_go {r : Re} {d : Cursor} (h : r.go c.fresh some = some d) (len : Nat) :
    searchFrom r len c = some d := by
  cases len with
  | zero => exact h
  | succ len => rw [searchFrom, h]

theorem searchFrom_end {r : Re} (hc : c.rest = []) (len : Nat) : searchFrom r len c = r.go c.fresh some := by
  cases len with
  | zero => rfl
  | succ len =>
    rw [searchFrom, hc]
    cases r.go c.fresh some <;> rfl

/-- **Searching.** If a match depends on what follows only, the first one is at the first place where what follows has
one. -/
theorem searchFrom_eq_findSome {α : Type} {r : Re} {g : Cursor → α} {f : List Char → Option α}
    (hf : ∀ c, (r.go c some).map g = f c.rest) (len : Nat) {c : Cursor} (hl : c.rest.length ≤ len) :
    (searchFrom r len c).map g = c.rest.tails.findSome? f := by
  have hgo : (r.go c.fresh some).map g = f c.rest := hf c.fresh
  induction len generalizing c with
  | zero =>
    have hrest : c.rest = [] := List.length_eq_zero_iff.mp (Nat.le_zero.mp hl)
    rw [searchFrom, hgo, hrest]
    simp
  | succ len ih =>
    cases hrest : c.rest with
    | nil =>
      rw [searchFrom_end hrest, hgo, hrest]
      simp
    | cons x xs =>
      have hnext : (c.advance [x]).rest = xs := rest_advance (t := [x]) hrest
      have ht := ih (c := c.advance [x]) (by rw [hnext]; simpa [hrest] using hl) (hf _)
      rw [hnext] at ht
      rw [List.tails_cons, List.findSome?_cons, ← hrest, ← hgo, searchFrom]
      cases hm : r.go c.fresh some with
      | some d => simp
      | none => simpa [hrest] using ht

/-- Characters that no match begins with are passed over. -/
theorem searchFrom_skip {r : Re} {q : Char → Bool}
    (hq : ∀ c, (∀ x ∈ c.rest.head?, q x = false) → r.go c some = none) :
    ∀ (s : List Char) {c : Cursor} {t : List Char} {len : Nat}, c.rest = s ++ t → (∀ x ∈ s, q x = false) →
      s.length ≤ len →
      searchFrom r len c = searchFrom r (len - s.length) (c.advance s)
  | [], c, t, len, _, _, _ => by rw [advance_nil, List.length_nil, Nat.sub_zero]
  | x :: s, c, t, 0, _, _, hl => absurd hl (Nat.not_succ_le_zero _)
  | x :: s, c, t, len + 1, hc, hs, hl => by
    have hfa : r.go c.fresh some = none := hq _ (by
      intro y hy
      rw [show c.fresh.rest = x :: (s ++ t) from hc, List.head?_cons, Option.mem_some_iff] at hy
      exact hy ▸ hs x List.mem_cons_self)
    have hrest := searchFrom_skip hq s (rest_advance (t := [x]) hc) (fun y hy => hs y (List.mem_cons_of_mem _ hy))
      (Nat.le_of_succ_le_succ hl)
    rw [advance_advance] at hrest
    rw [searchFrom, hfa, List.length_cons, Nat.add_sub_add_right]
    simp only [hc, List.cons_append]
    exact hrest

/-- All matches from the cursor on, at most `len` of them. -/
def searchAllFrom (r : Re) : Nat → Cursor → List Cursor
  | 0, _ => []
  | len + 1, c =>
    match searchFrom r c.rest.length c with
    | none => []
    | some d => d :: searchAllFrom r len (if d.rest.length < c.rest.length then d else d.advance (d.rest.take 1))

def search (r : Re) (s : List Char) : Option (Nat → Option (List Char)) :=
  (searchFrom r s.length (.start s)).map (·.caps)

def searchAll (r : Re) (s : List Char) : List (Nat → Option (List Char)) :=
  (searchAllFrom r (s.length + 1) (.start s)).map (·.caps)

/-! ## Replacing -/

/-- Replace the matches of `r` from the cursor on; `len` bounds the positions left. After an empty match one character
is passed over. -/
def replaceFrom (r : Re) (f : (Nat → Option (List Char)) → List Char) : Nat → Cursor → List Char
  | 0, c => c.rest
  | len + 1, c =>
    match r.go c.fresh some, c.rest with
    | some d, [] => f d.caps
    | some d, x :: xs =>
      if d.rest.length < (x :: xs).length then f d.caps ++ replaceFrom r f len d
      else f d.caps ++ x :: replaceFrom r f len (c.advance [x])
    | none, [] => []
    | none, x :: _ => x :: replaceFrom r f len (c.advance [x])

def replaceAll (r : Re) (f : (Nat → Option (List Char)) → List Char) (s : List Char) : List Char :=
  replaceFrom r f (s.length + 1) (.start s)

section Greedy

variable {r : Re} {f : (Nat → Option (List Char)) → List Char} {P : List Char → Prop}
  (hend : ∀ c d, P c.rest → r.go (Cursor.fresh c) some = some d → d.rest = [] ∧ c.rest ≠ [])
include hend

theorem replaceFrom_nil (len : Nat) {c : Cursor} (hc : c.rest = []) (hp : P c.rest) : replaceFrom r f len c = [] := by
  cases len with
  | zero => rw [replaceFrom, hc]
  | succ len =>
    rw [replaceFrom, hc]
    cases hg : r.go c.fresh some with
    | none => rfl
    | some d => exact absurd hc (hend c d hp hg).2

variable (hP : ∀ x xs, P (x :: xs) → P xs)
include hP

/-- When every match extends to the end of the text, at most the first one is replaced, and everything before it stays.
-/
theorem replaceFrom_of_greedy : ∀ (len : Nat) (c : Cursor), P c.rest → c.rest.length < len →
    replaceFrom r f len c = c.rest ∨ ∃ t u d, c.rest = t ++ u ∧ r.go (c.advance t).fresh some = some d ∧
      replaceFrom r f len c = t ++ f d.caps ∧ ∀ t₁ t₂, t = t₁ ++ t₂ → t₂ ≠ [] →
      r.go (c.advance t₁).fresh some = none
  | 0, c, _, h => by omega
  | len + 1, c, hp, h => by
    rw [replaceFrom]
    cases hg : r.go c.fresh some with
    | some d =>
      obtain ⟨hd, hc⟩ := hend c d hp hg
      obtain ⟨x, xs, hx⟩ := List.exists_cons_of_ne_nil hc
      refine .inr ⟨[], c.rest, d, rfl, by rw [advance_nil, hg], ?_, ?_⟩
      · have hni : P d.rest := by
          rw [hd]
          have : ∀ l, P l → P [] := fun l => by
            induction l with
            | nil => exact id
            | cons y ys ih => exact fun h => ih (hP y ys h)
          exact this _ hp
        simp only [hx, hd, List.length_nil, List.length_cons, Nat.zero_lt_succ, if_true, List.nil_append]
        rw [replaceFrom_nil hend len hd hni, List.append_nil]
      · intro t₁ t₂ ht hne
        exact absurd (List.append_eq_nil_iff.mp ht.symm).2 hne
    | none =>
      cases hx : c.rest with
      | nil => exact .inl rfl
      | cons x xs =>
        have hrest : (c.advance [x]).rest = xs := rest_advance (t := [x]) hx
        rw [hx] at h hp
        rcases replaceFrom_of_greedy len (c.advance [x]) (by rw [hrest]; exact hP x xs hp)
          (by rw [hrest]; simpa using h) with ih | ⟨t, u, d, h₁, h₂, h₃, h₄⟩
        · exact .inl (by simp only [ih, hrest])
        · refine .inr ⟨x :: t, u, d, by rw [← hrest, h₁]; rfl, ?_, by simp only [h₃, List.cons_append], ?_⟩
          · rwa [advance_advance] at h₂
          · -- the first position failed just now, the others are those of the rest
            intro t₁ t₂ ht hne
            rcases List.cons_eq_append_iff.mp ht with ⟨rfl, _⟩ | ⟨t₁', rfl, ht'⟩
            · rw [advance_nil, hg]
            · have hfa := h₄ t₁' t₂ ht' hne
              rwa [advance_advance] at hfa

end Greedy

end Lib.Regex
