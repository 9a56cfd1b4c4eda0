import Cimogus.Lib.Json

/-!
# Writing JSON

The text of a value, in a style that says what stands between the tokens and how characters and numbers are written. The
members of an object are written in their order.

* `write`: a value inside a document.
* `document`: a whole document.
* `sorted`: the members of all objects by their keys, for a writer that keeps them so.
-/

namespace Lib.JsonWrite

open Json List

structure Style where
  escape : Char → List Char
  number : Rat → List Char
  newline : List Char
  indent : Nat → List Char
  colon : List Char

namespace Style

variable (style : Style)

def string (s : String) : List Char := inQuotes (s.toList.flatMap style.escape)

end Style

/-- What stands behind an item or a member if others follow. -/
def comma {α : Type} (rest : List α) : List Char := if rest.isEmpty then [] else [',']

mutual

def write (style : Style) (depth : Nat) : Json → List Char
  | .null => "null".toList
  | .bool b => (toString b).toList
  | .num x => style.number x
  | .str s => style.string s
  | .arr items => '[' :: (style.newline ++ (writeItems style (depth + 1) items ++ (style.indent depth ++ [']'])))
  | .obj members => '{' :: (style.newline ++ (writeMembers style (depth + 1) members ++ (style.indent depth ++ ['}'])))

def writeItems (style : Style) (depth : Nat) : List Json → List Char
  | [] => []
  | v :: rest =>
    style.indent depth ++ (write style depth v ++ (comma rest ++ (style.newline ++ writeItems style depth rest)))

def writeMembers (style : Style) (depth : Nat) : Object → List Char
  | [] => []
  | (key, v) :: rest =>
    style.indent depth ++ (style.string key ++ (style.colon ++ (write style depth v ++ (comma rest ++
      (style.newline ++ writeMembers style depth rest)))))

end

def document (style : Style) (v : Json) : List Char := write style 0 v ++ style.newline

def insertByKey (member : String × Json) : Object → Object
  | [] => [member]
  | other :: rest => if other.1 < member.1 then other :: insertByKey member rest else member :: other :: rest

mutual

def sorted : Json → Json
  | .arr items => .arr (sortedItems items)
  | .obj members => .obj (sortedMembers members)
  | v => v

def sortedItems : List Json → List Json
  | [] => []
  | v :: rest => sorted v :: sortedItems rest

def sortedMembers : Object → Object
  | [] => []
  | (key, v) :: rest => insertByKey (key, sorted v) (sortedMembers rest)

end

/-! ## Styles -/

/-- The two characters that no string has as they are; control characters are left aside. -/
def escapeQuote (c : Char) : List Char := if c = '"' ∨ c = '\\' then ['\\', c] else [c]

/-- Whole numbers only. -/
def wholeNumber (x : Rat) : List Char := (toString x.num).toList

/-- Nothing between the tokens. -/
def compact : Style where
  escape := escapeQuote
  number := wholeNumber
  newline := []
  indent _ := []
  colon := [':']

/-- Every item and every member on its own line, with four blanks for each level. -/
def indented : Style :=
  { compact with newline := ['\n'], indent := fun depth => replicate (4 * depth) ' ', colon := [':', ' '] }

example : document compact (sorted (.obj [("b", .arr [.num 1, .bool true]), ("a", .obj [])])) =
    "\x7b\"a\":\x7b\x7d,\"b\":[1,true]\x7d".toList := by decide +kernel

end Lib.JsonWrite
