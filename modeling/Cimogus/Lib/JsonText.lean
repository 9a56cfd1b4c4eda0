import Cimogus.Lib.Json

/-!
# JSON texts

A JSON text as it is written: its syntax tree with the blanks between the tokens, with the string literals before they
are read, and with the members of an object in their order. How a literal is read is left open.

* `Tree.chars`: the text.
* `Tree.value`: what it says.
* `Tree.members`: all members of all objects in it, in the order in which they begin.
-/

namespace Lib.JsonText

open Json List

/-! ## Tokens -/

/-- A piece of a string literal: a character that stands for itself, or one behind a backslash. The digits of `\u` are
plain. -/
inductive Piece
  | plain (c : Char) (h : c ≠ '"' ∧ c ≠ '\\')
  | escaped (c : Char)
  deriving DecidableEq

/-- What is between the quotes of a string literal. -/
abbrev Raw := List Piece

def Piece.chars : Piece → List Char
  | .plain c _ => [c]
  | .escaped c => ['\\', c]

def rawChars (raw : Raw) : List Char := raw.flatMap Piece.chars

def quoted (raw : Raw) : List Char := inQuotes (rawChars raw)

/-- The literal of characters that stand for themselves. -/
def plainRaw (s : List Char) : Raw :=
  s.filterMap fun c => if h : c ≠ '"' ∧ c ≠ '\\' then some (.plain c h) else none

inductive Blank
  | space
  | tab
  | newline
  | carriageReturn

def Blank.char : Blank → Char
  | .space => ' '
  | .tab => '\t'
  | .newline => '\n'
  | .carriageReturn => '\r'

abbrev Gap := List Blank

def blankChars (blanks : Gap) : List Char := blanks.map Blank.char

structure Literal where
  chars : List Char
  nonempty : chars ≠ []
  allowed : ∀ c ∈ chars, c.isAlphanum = true ∨ c ∈ ['-', '+', '.']

/-! ## Trees -/

mutual

inductive Tree
  | literal (l : Literal)
  | text (raw : Raw)
  | emptyArray (blanks : Gap)
  | array (items : Items)
  | emptyObject (blanks : Gap)
  | object (members : Members)

/-- The items of an array, with the blanks around them. -/
inductive Items
  | last (before : Gap) (v : Tree) (after : Gap)
  | cons (before : Gap) (v : Tree) (after : Gap) (rest : Items)

/-- The members of an object, with the blanks before and behind the key, and around the value. -/
inductive Members
  | last (before : Gap) (key : Raw) (gap gap' : Gap) (v : Tree) (after : Gap)
  | cons (before : Gap) (key : Raw) (gap gap' : Gap) (v : Tree) (after : Gap) (rest : Members)

end

structure Member where
  key : Raw
  gap : Gap
  value : Tree

structure Reading where
  text : Raw → String
  literal : Literal → Json

mutual

def Tree.chars : Tree → List Char
  | .literal l => l.chars
  | .text raw => quoted raw
  | .emptyArray blanks => '[' :: (blankChars blanks ++ [']'])
  | .array items => '[' :: (items.chars ++ [']'])
  | .emptyObject blanks => '{' :: (blankChars blanks ++ ['}'])
  | .object members => '{' :: (members.chars ++ ['}'])

def Items.chars : Items → List Char
  | .last before v after => blankChars before ++ (v.chars ++ blankChars after)
  | .cons before v after rest => blankChars before ++ (v.chars ++ (blankChars after ++ ',' :: rest.chars))

def Members.chars : Members → List Char
  | .last before key gap gap' v after =>
    blankChars before ++ (quoted key ++ (blankChars gap ++ ':' :: (blankChars gap' ++ (v.chars ++ blankChars after))))
  | .cons before key gap gap' v after rest =>
    blankChars before ++ (quoted key ++ (blankChars gap ++ ':' :: (blankChars gap' ++ (v.chars ++
      (blankChars after ++ ',' :: rest.chars)))))

end

mutual

def Tree.members : Tree → List Member
  | .literal _ | .text _ | .emptyArray _ | .emptyObject _ => []
  | .array items => items.members
  | .object members => members.members

def Items.members : Items → List Member
  | .last _ v _ => v.members
  | .cons _ v _ rest => v.members ++ rest.members

def Members.members : Members → List Member
  | .last _ key gap _ v _ => ⟨key, gap, v⟩ :: v.members
  | .cons _ key gap _ v _ rest => ⟨key, gap, v⟩ :: (v.members ++ rest.members)

end

section

variable (r : Reading)

mutual

def Tree.value : Tree → Json
  | .literal l => r.literal l
  | .text raw => .str (r.text raw)
  | .emptyArray _ => .arr []
  | .array items => .arr items.values
  | .emptyObject _ => .obj []
  | .object members => .obj (members.insertInto [])

def Items.values : Items → List Json
  | .last _ v _ => [v.value]
  | .cons _ v _ rest => v.value :: rest.values

/-- Of several members with one key the last one counts. -/
def Members.insertInto : Object → Members → Object
  | o, .last _ key _ _ v _ => o.set (r.text key) v.value
  | o, .cons _ key _ _ v _ rest => rest.insertInto (o.set (r.text key) v.value)

end

end

structure Document where
  before : Gap
  tree : Tree
  after : Gap

def Document.chars (d : Document) : List Char := blankChars d.before ++ (d.tree.chars ++ blankChars d.after)

def Document.value (r : Reading) (d : Document) : Json := d.tree.value r

def Document.members (d : Document) : List Member := d.tree.members

/-! ## Characters -/

section

variable {rest : List Char}

variable (c : Char)

theorem rawChars_plain (h : c ≠ '"' ∧ c ≠ '\\') (raw : Raw) :
    rawChars (.plain c h :: raw) = c :: rawChars raw := rfl

theorem rawChars_escaped (raw : Raw) : rawChars (.escaped c :: raw) = '\\' :: c :: rawChars raw := rfl

theorem quoted_append (raw : Raw) (rest : List Char) : quoted raw ++ rest = '"' :: (rawChars raw ++ '"' :: rest) := by
  rw [quoted, inQuotes, cons_append, append_assoc, singleton_append]

theorem plainRaw_cons {c : Char} (h : c ≠ '"' ∧ c ≠ '\\') (s : List Char) :
    plainRaw (c :: s) = .plain c h :: plainRaw s := by
  simp [plainRaw, h]

theorem escaped_notMem_plainRaw (s : List Char) : .escaped c ∉ plainRaw s := by
  intro hm
  obtain ⟨d, -, hd⟩ := mem_filterMap.mp hm
  split at hd <;> cases hd

/-- **The end of a literal.** A word with a quote behind it begins a literal just if it is all of it. -/
theorem closed_isPrefix_iff {word : List Char} (hw : ∀ c ∈ word, c ≠ '"' ∧ c ≠ '\\') {raw : Raw} :
    word ++ ['"'] <+: rawChars raw ++ '"' :: rest ↔ raw = plainRaw word := by
  induction word generalizing raw with
  | nil =>
    cases raw with
    | nil => exact iff_of_true (prefix_append ['"'] rest) rfl
    | cons piece raw =>
      cases piece with
      | plain c h =>
        rw [rawChars_plain, cons_append, nil_append, cons_prefix_cons]
        exact iff_of_false (fun heq => h.1 heq.1.symm) (cons_ne_nil _ _)
      | escaped c =>
        rw [rawChars_escaped, cons_append, nil_append, cons_prefix_cons]
        exact iff_of_false (fun heq => absurd heq.1 (by decide)) (cons_ne_nil _ _)
  | cons x word ih =>
    obtain ⟨hx, hw⟩ := forall_mem_cons.mp hw
    rw [plainRaw_cons hx, cons_append]
    cases raw with
    | nil => exact iff_of_false (fun hb => hx.1 (cons_prefix_cons.mp hb).1) (cons_ne_nil _ _).symm
    | cons piece raw =>
      cases piece with
      | plain c h =>
        rw [rawChars_plain, cons_append, cons_prefix_cons, ih hw, List.cons.injEq, Piece.plain.injEq]
        exact and_congr_left fun _ => eq_comm
      | escaped c =>
        rw [rawChars_escaped, cons_append, cons_prefix_cons]
        exact iff_of_false (fun heq => hx.2 heq.1) (by simp)

theorem mem_blankChars {c : Char} {blanks : Gap} (h : c ∈ blankChars blanks) : c ∈ [' ', '\t', '\n', '\r'] := by
  obtain ⟨blank, -, rfl⟩ := mem_map.mp h
  cases blank <;> decide

theorem Tree.text_or_chars (v : Tree) :
    (∃ raw, v = .text raw) ∨ ∃ x s, v.chars = x :: s ∧
    (x.isAlphanum = true ∨ x ∈ ['-', '+', '.', '[', '{']) := by
  cases v with
  | text raw => exact .inl ⟨raw, rfl⟩
  | literal l =>
    obtain ⟨x, s, hx⟩ := exists_cons_of_ne_nil l.nonempty
    refine .inr ⟨x, s, hx, (l.allowed x (by rw [hx]; exact mem_cons_self)).imp_right fun h => ?_⟩
    exact mem_append_left ['[', '{'] h
  | emptyArray blanks => exact .inr ⟨'[', _, rfl, .inr (by decide)⟩
  | array items => exact .inr ⟨'[', _, rfl, .inr (by decide)⟩
  | emptyObject blanks => exact .inr ⟨'{', _, rfl, .inr (by decide)⟩
  | object members => exact .inr ⟨'{', _, rfl, .inr (by decide)⟩

end

end Lib.JsonText
