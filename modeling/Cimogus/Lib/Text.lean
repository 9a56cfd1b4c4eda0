import Mathlib.Data.List.DropRight

/-!
# Texts

Looking for parts of a text and cutting it where they are found. Where there is no such place, both sides of the cut are
the whole text.

* `splitTextFrom_append`, `splitTextFrom_intercalate`: the parts of a text that is split.
* `strip_eq_self`, `strip_cut`: trimming.
* `cut_first_iff`, `cut_last_iff`: the two sides of a cut.
-/

namespace Lib.Text

open List

def startsWith (text start : String) : Bool := start.toList.isPrefixOf text.toList

def endsWith (text finish : String) : Bool := finish.toList.isSuffixOf text.toList

def hasInfix (part : List Char) : List Char → Bool
  | [] => part.isEmpty
  | x :: xs => part.isPrefixOf (x :: xs) || hasInfix part xs

def contains (text part : String) : Bool := hasInfix part.toList text.toList

def asciiSpaces : List Char := [' ', '\t', '\n', '\x0b', '\x0c', '\r']

def isAsciiSpace (c : Char) : Bool := c ∈ asciiSpaces

theorem isAsciiSpace_of_isAlphanum {c : Char} (h : c.isAlphanum = true) : isAsciiSpace c = false := by
  have hno : asciiSpaces.all (!·.isAlphanum) = true := by decide
  refine decide_eq_false fun hm => ?_
  simpa [h] using List.all_eq_true.mp hno c hm

def drop (n : Nat) (text : String) : String := String.ofList (text.toList.drop n)

def split (text : String) (c : Char) : List String := (text.toList.splitOn c).map String.ofList

/-- Splits at a separator of several characters; `skip` of them are still to be passed over. -/
def splitTextFrom (separator : List Char) : Nat → List Char → List Char → List (List Char)
  | _, part, [] => [part.reverse]
  | skip + 1, part, _ :: xs => splitTextFrom separator skip part xs
  | 0, part, x :: xs =>
    if separator.isPrefixOf (x :: xs) then part.reverse :: splitTextFrom separator (separator.length - 1) [] xs
    else splitTextFrom separator 0 (x :: part) xs

def splitText (text separator : String) : List String :=
  (splitTextFrom separator.toList 0 [] text.toList).map String.ofList

def indexOf (c : Char) (text : String) : Option Nat := text.toList.findIdx? (· == c)

def lastIndexOf (c : Char) (text : String) : Option Nat :=
  (text.toList.reverse.findIdx? (· == c)).map fun i => text.toList.length - 1 - i

def before (i : Option Nat) (text : String) : String := i.elim text fun i => String.ofList (text.toList.take i)

def after (i : Option Nat) (text : String) : String := i.elim text fun i => String.ofList (text.toList.drop (i + 1))

def replaceChar (a b : Char) (text : String) : String := String.ofList (text.toList.map fun c => if c = a then b else c)

def remove (part text : String) : String := String.join (splitText text part)

example : splitText "AllowedIPs = 0.0.0.0/0, ::/0" " = " = ["AllowedIPs", "0.0.0.0/0, ::/0"] := by decide

example :
    (before (lastIndexOf '#' "link#a#b") "link#a#b", after (lastIndexOf '#' "link#a#b") "link#a#b") = ("link#a", "b") :=
      by decide

/-! ## What is kept -/

variable {c : Char}

theorem hasInfix_iff {part xs : List Char} : hasInfix part xs = true ↔ part <:+: xs := by
  induction xs with
  | nil => simp [hasInfix]
  | cons x xs ih => rw [hasInfix, Bool.or_eq_true, ih, isPrefixOf_iff_prefix, infix_cons_iff]

variable {text : String} {separator : List Char} {parts : List (List Char)}

variable {part : String}

theorem mem_of_mem_before {i : Option Nat} (h : c ∈ (before i text).toList) : c ∈ text.toList := by
  cases i with
  | none => exact h
  | some i =>
    rw [before, Option.elim_some, String.toList_ofList] at h
    exact mem_of_mem_take h

/-! ## Splitting at a text -/

theorem splitText_ofList (s : List Char) (separator : String) :
    splitText (String.ofList s) separator = (splitTextFrom separator.toList 0 [] s).map String.ofList := by
  unfold splitText
  rw [show (String.ofList s).toList = s from String.toList_ofList]

theorem splitTextFrom_skip (separator s part rest : List Char) :
    splitTextFrom separator s.length part (s ++ rest) = splitTextFrom separator 0 part rest := by
  induction s with
  | nil => rfl
  | cons x s ih => exact ih

theorem splitTextFrom_single (part : List Char) {s : List Char} (h : ¬separator <:+: s) :
    splitTextFrom separator 0 part s = [part.reverse ++ s] := by
  induction s generalizing part with
  | nil => simp [splitTextFrom]
  | cons x s ih =>
    rw [splitTextFrom, if_neg fun hb => h (List.isPrefixOf_iff_prefix.mp hb).isInfix, ih _ fun hp => h (infix_cons hp)]
    simp

theorem remove_of_not_infix (h : ¬part.toList <:+: text.toList) : remove part text = text := by
  rw [remove, splitText, splitTextFrom_single [] h]
  simp

theorem splitTextFrom_ne_nil (separator : List Char) (skip : Nat) (part xs : List Char) :
    splitTextFrom separator skip part xs ≠ [] := by
  induction xs generalizing skip part with
  | nil => simp [splitTextFrom]
  | cons x xs ih =>
    cases skip with
    | succ skip => exact ih skip part
    | zero =>
      rw [splitTextFrom]
      split
      · exact cons_ne_nil _ _
      · exact ih 0 (x :: part)

theorem splitText_ne_nil (text separator : String) : splitText text separator ≠ [] := by
  rw [splitText, Ne, map_eq_nil_iff]
  exact splitTextFrom_ne_nil _ _ _ _

/-- The parts put together again. -/
theorem intercalate_splitTextFrom (hne : separator ≠ []) (skip : Nat) (part xs : List Char) :
    separator.intercalate (splitTextFrom separator skip part xs) = part.reverse ++ xs.drop skip := by
  induction xs generalizing skip part with
  | nil => simp [splitTextFrom]
  | cons x xs ih =>
    cases skip with
    | succ skip => exact ih skip part
    | zero =>
      rw [splitTextFrom]
      split
      · rename_i hb
        obtain ⟨rest, hrest⟩ := isPrefixOf_iff_prefix.mp hb
        obtain ⟨next, parts, hp⟩ :=
          exists_cons_of_ne_nil (splitTextFrom_ne_nil separator (separator.length - 1) [] xs)
        obtain ⟨y, ys, rfl⟩ := exists_cons_of_ne_nil hne
        obtain ⟨rfl, rfl⟩ := List.cons.inj hrest
        rw [hp, intercalate_cons_cons, ← hp, ih]
        simp
      · rw [ih]
        simp

/-- There is a second part just where the separator is in the text. -/
theorem two_le_length_splitTextFrom_iff (hne : separator ≠ []) (part xs : List Char) :
    2 ≤ (splitTextFrom separator 0 part xs).length ↔ separator <:+: xs := by
  constructor
  · intro hl
    by_contra hno
    rw [splitTextFrom_single part hno] at hl
    simp at hl
  · intro hin
    induction xs generalizing part with
    | nil => exact absurd (infix_nil.mp hin) hne
    | cons x xs ih =>
      rw [splitTextFrom]
      split
      · have hpo := length_pos_iff.mpr (splitTextFrom_ne_nil separator (separator.length - 1) [] xs)
        rw [length_cons]
        omega
      · rename_i hb
        rcases infix_cons_iff.mp hin with hp | hin
        · exact absurd (List.isPrefixOf_iff_prefix.mpr hp) hb
        · exact ih (x :: part) hin

/-- The first part, if the separator does not begin earlier. -/
theorem splitTextFrom_append (hne : separator ≠ []) (part : List Char) {s : List Char} (rest : List Char)
    (hfi : ∀ t, t <:+ s → t ≠ [] → ¬separator <+: t ++ (separator ++ rest)) :
    splitTextFrom separator 0 part (s ++ (separator ++ rest)) = (part.reverse ++ s) ::
    splitTextFrom separator 0 [] rest := by
  induction s generalizing part with
  | nil =>
    obtain ⟨x, xs, rfl⟩ := exists_cons_of_ne_nil hne
    have hb : (x :: xs).isPrefixOf (x :: (xs ++ rest)) = true :=
      isPrefixOf_iff_prefix.mpr (prefix_append (x :: xs) rest)
    rw [nil_append, cons_append, splitTextFrom, if_pos hb, length_cons, Nat.add_sub_cancel,
      splitTextFrom_skip, append_nil]
  | cons x s ih =>
    have hno : separator.isPrefixOf (x :: (s ++ (separator ++ rest))) = false :=
      Bool.eq_false_iff.mpr fun hb =>
        hfi (x :: s) suffix_rfl (cons_ne_nil _ _) (List.isPrefixOf_iff_prefix.mp hb)
    rw [cons_append, splitTextFrom, if_neg (by simp [hno]), ih (x :: part) fun t ht =>
      hfi t (ht.trans (suffix_cons x s))]
    simp

/-- Parts without the first character of the separator are found again. -/
theorem splitTextFrom_intercalate {x : Char} {xs : List Char} (hne : parts ≠ []) (hx : ∀ p ∈ parts, x ∉ p) :
    splitTextFrom (x :: xs) 0 [] ((x :: xs).intercalate parts) = parts := by
  induction parts with
  | nil => exact absurd rfl hne
  | cons p parts ih =>
    have hp : x ∉ p := hx p mem_cons_self
    cases parts with
    | nil =>
      rw [intercalate_singleton, splitTextFrom_single [] fun hpa => hp (hpa.subset mem_cons_self)]
      rfl
    | cons next parts =>
      rw [intercalate_cons_cons, append_assoc, splitTextFrom_append (cons_ne_nil x xs) [],
        ih (cons_ne_nil _ _) fun p hp => hx p (mem_cons_of_mem _ hp)]
      · rfl
      · intro t ht hne hb
        obtain ⟨y, t, rfl⟩ := exists_cons_of_ne_nil hne
        obtain ⟨rfl, -⟩ := cons_prefix_cons.mp hb
        exact hp (ht.subset mem_cons_self)

def join (c : Char) (parts : List String) : String := String.ofList ([c].intercalate (parts.map String.toList))

/-- Splitting gives the parts that a text was joined from, and no others without the separator. -/
theorem split_eq_iff {c : Char} {parts : List String} (hp : ∀ p ∈ parts, c ∉ p.toList) :
    split text c = parts ↔ parts ≠ [] ∧ text = join c parts := by
  have hb : (parts.map String.toList).map String.ofList = parts := by
    rw [map_map]
    exact (map_congr_left fun p _ => String.ofList_toList).trans (map_id _)
  constructor
  · rintro rfl
    refine ⟨fun hni => splitOn_ne_nil c text.toList (map_eq_nil_iff.mp hni), ?_⟩
    have hl : (split text c).map String.toList = text.toList.splitOn c := by
      rw [split, map_map]
      exact (map_congr_left fun p _ => String.toList_ofList).trans (map_id _)
    rw [join, hl, intercalate_splitOn, String.ofList_toList]
  · rintro ⟨hne, rfl⟩
    have hsplit := splitOn_intercalate c (forall_mem_map.mpr hp) (mt map_eq_nil_iff.mp hne)
    rw [split, join, String.toList_ofList, hsplit, hb]

/-! ## Trimming -/

section Strip

variable {α : Type} {space : α → Bool} {s t : List α}

def strip (space : α → Bool) (s : List α) : List α := (s.dropWhile space).rdropWhile space

theorem strip_infix (s : List α) : strip space s <:+: s :=
  (List.rdropWhile_prefix _ _).isInfix.trans (dropWhile_suffix _).isInfix

theorem strip_eq_self (hh : ∀ x ∈ s.head?, space x = false) (hlast : ∀ x ∈ s.getLast?, space x = false) :
    strip space s = s := by
  have hd {s : List α} (hh : ∀ x ∈ s.head?, space x = false) : s.dropWhile space = s := by
    cases s with
    | nil => rfl
    | cons x s => simp [hh x rfl]
  rw [strip, hd hh, List.rdropWhile, hd (by simpa using hlast), reverse_reverse]

/-- Only spaces at the beginning are taken from a text that ends in another character. -/
theorem strip_cut {x y : α} (hx : space x = false) (hy : space y = false) :
    strip space (s ++ x :: (t ++ [y])) = s.dropWhile space ++ x :: (t ++ [y]) := by
  have hd : (s ++ x :: (t ++ [y])).dropWhile space = (s.dropWhile space ++ x :: t) ++ [y] := by
    rw [append_assoc, cons_append, dropWhile_append]
    split
    · rename_i he
      rw [List.isEmpty_iff.mp he, nil_append, dropWhile_cons_of_neg (by simp [hx])]
    · rfl
  rw [strip, hd, rdropWhile_concat_neg _ _ _ (by simp [hy]), append_assoc, cons_append]

end Strip

/-! ## Where a text is cut -/

theorem findIdx?_eq_some_iff_cut {l : List Char} {i : Nat} :
    l.findIdx? (· == c) = some i ↔ ∃ a b, l = a ++ c :: b ∧ c ∉ a ∧ a.length = i := by
  induction l generalizing i with
  | nil => simp
  | cons x l ih =>
    by_cases hx : x = c
    · subst hx
      rw [findIdx?_cons, beq_self_eq_true]
      constructor
      · intro h
        cases h
        exact ⟨[], l, rfl, not_mem_nil, rfl⟩
      · rintro ⟨_ | ⟨y, a⟩, b, hl, ha, rfl⟩
        · rfl
        · cases hl
          exact absurd mem_cons_self ha
    · rw [findIdx?_cons, beq_eq_false_iff_ne.mpr hx, if_neg Bool.false_ne_true, Option.map_eq_some_iff]
      constructor
      · rintro ⟨j, hj, rfl⟩
        obtain ⟨a, b, rfl, ha, rfl⟩ := ih.mp hj
        exact ⟨x :: a, b, rfl, by simp [ha, Ne.symm hx], rfl⟩
      · rintro ⟨_ | ⟨y, a⟩, b, hl, ha, rfl⟩
        · cases hl
          exact absurd rfl hx
        · cases hl
          exact ⟨a.length, ih.mpr ⟨a, b, rfl, fun h => ha (mem_cons_of_mem x h), rfl⟩, rfl⟩

theorem indexOf_eq_some_iff {i : Nat} :
    indexOf c text = some i ↔ ∃ a b, text.toList = a ++ c :: b ∧ c ∉ a ∧ a.length = i :=
  findIdx?_eq_some_iff_cut

theorem lastIndexOf_eq_some_iff {i : Nat} :
    lastIndexOf c text = some i ↔ ∃ a b, text.toList = a ++ c :: b ∧ c ∉ b ∧ a.length = i := by
  rw [lastIndexOf, Option.map_eq_some_iff]
  constructor
  · rintro ⟨j, hj, rfl⟩
    obtain ⟨b, a, ht, hb, rfl⟩ := findIdx?_eq_some_iff_cut.mp hj
    have ht : text.toList = a.reverse ++ c :: b.reverse := by
      rw [← reverse_reverse text.toList, ht]
      simp
    exact ⟨a.reverse, b.reverse, ht, by simpa using hb, by rw [ht]; simp⟩
  · rintro ⟨a, b, ht, hb, rfl⟩
    refine ⟨b.length,
      findIdx?_eq_some_iff_cut.mpr ⟨b.reverse, a.reverse, by simp [ht], by simpa using hb, by simp⟩, ?_⟩
    rw [ht]
    simp

theorem before_cut {a b : List Char} (h : text.toList = a ++ c :: b) :
    before (some a.length) text = String.ofList a := by
  rw [before, Option.elim_some, h, take_left]

theorem after_cut {a b : List Char} (h : text.toList = a ++ c :: b) : after (some a.length) text = String.ofList b := by
  rw [after, Option.elim_some, h, drop_append]
  simp

theorem cut_iff {text a b : String} {place : Option Nat} {P : List Char → List Char → Prop}
    (hpl : ∀ i, place = some i ↔ ∃ x y, text.toList = x ++ c :: y ∧ P x y ∧ x.length = i) :
    (place ≠ none ∧ before place text = a ∧ after place text = b) ↔
      text.toList = a.toList ++ c :: b.toList ∧ P a.toList b.toList := by
  constructor
  · rintro ⟨hs, rfl, rfl⟩
    obtain ⟨i, hi⟩ := Option.ne_none_iff_exists'.mp hs
    obtain ⟨x, y, ht, hp, rfl⟩ := (hpl i).mp hi
    rw [hi, before_cut ht, after_cut ht, String.toList_ofList, String.toList_ofList]
    exact ⟨ht, hp⟩
  · rintro ⟨ht, hp⟩
    have hi : place = some a.toList.length := (hpl _).mpr ⟨a.toList, b.toList, ht, hp, rfl⟩
    rw [hi, before_cut ht, after_cut ht, String.ofList_toList, String.ofList_toList]
    exact ⟨Option.some_ne_none _, rfl, rfl⟩

/-- **A cut at the first place.** -/
theorem cut_first_iff {text a b : String} :
    (indexOf c text ≠ none ∧ before (indexOf c text) text = a ∧ after (indexOf c text) text = b) ↔
      text.toList = a.toList ++ c :: b.toList ∧ c ∉ a.toList :=
  @cut_iff c text a b _ (fun x _ => c ∉ x) fun _ => indexOf_eq_some_iff

/-- **A cut at the last place.** -/
theorem cut_last_iff {text a b : String} :
    (lastIndexOf c text ≠ none ∧ before (lastIndexOf c text) text = a ∧ after (lastIndexOf c text) text = b) ↔
      text.toList = a.toList ++ c :: b.toList ∧ c ∉ b.toList :=
  @cut_iff c text a b _ (fun _ y => c ∉ y) fun _ => lastIndexOf_eq_some_iff

theorem indexOf_eq_none_iff : indexOf c text = none ↔ c ∉ text.toList := by
  rw [indexOf, findIdx?_eq_none_iff]
  constructor
  · intro h hm
    simpa using h c hm
  · intro h x hx
    exact beq_eq_false_iff_ne.mpr fun heq => h (heq ▸ hx)

end Lib.Text
