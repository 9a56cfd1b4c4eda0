import Cimogus.Client.Import
import Cimogus.Lib.JsonText

/-!
# The host name of an Xray configuration

`extractXrayConfig` takes the host name from the first match of `"address":\s*"([^"]+)` in the text. In a text of JSON
such a match is at a member for the key `address`, or for one whose name ends in `"address`, that has no blank before
the colon and a value that is a string literal and not empty; wherever it is in the document. So a server of the DNS
before the outbounds is taken for the server of the VPN (`dns_server_taken`).
-/

namespace Cimogus.Client.Import

open Lib Lib.Json Lib.Regex Lib.JsonText List
open Text (isAsciiSpace isAsciiSpace_of_isAlphanum)

/-! ## The expression -/

/-- What is captured in a string literal, from behind its first quote on. -/
def capturedIn (s : List Char) : Option (List Char) :=
  if s.takeWhile (· != '"') = [] then none else some (s.takeWhile (· != '"'))

def valueBehind : List Char → Option (List Char)
  | ':' :: s =>
    match s.dropWhile isAsciiSpace with
    | '"' :: t => capturedIn t
    | _ => none
  | _ => none

def addressKey : List Char := "address".toList

def matchHere (s : List Char) : Option (List Char) :=
  if '"' :: (addressKey ++ ['"']) <+: s then valueBehind (s.drop 9) else none

def firstMatch (s : List Char) : Option (List Char) := s.tails.findSome? matchHere

theorem valueBehind_of_head? {s : List Char} (h : s.head? ≠ some ':') : valueBehind s = none := by
  unfold valueBehind
  split
  · exact absurd rfl h
  · rfl

theorem matchHere_key (s : List Char) : matchHere ('"' :: (addressKey ++ '"' :: s)) = valueBehind s := by
  have hb : '"' :: (addressKey ++ ['"']) <+: '"' :: (addressKey ++ '"' :: s) := ⟨s, by simp⟩
  rfl

def firstGroup (c : Cursor) : List Char := (c.caps 1).getD []

theorem go_value (c : Cursor) :
    ((Re.seq (.star (.chars isAsciiSpace)) (.seq (.chr '"') (.group 1 (.plus (.chars (· != '"')))))).go c some).map
      firstGroup =
      valueBehind (':' :: c.rest) := by
  have hstop : ∀ d : Cursor, (∃ x ∈ d.rest.head?, isAsciiSpace x = true) →
      (Re.seq (.chr '"') (.group 1 (.plus (.chars (· != '"'))))).go d some = none := by
    rintro d ⟨x, hx, hsp⟩
    have hne : x ≠ '"' := by
      rintro rfl
      exact absurd hsp (by decide)
    cases hrest : d.rest with
    | nil => simp [hrest] at hx
    | cons y ys =>
      rw [hrest, head?_cons, Option.mem_some_iff] at hx
      simp [Re.chr, Re.go, hrest, hx, hne]
  have hs : (c.advance (c.rest.takeWhile isAsciiSpace)).rest = c.rest.dropWhile isAsciiSpace :=
    rest_advance (takeWhile_append_dropWhile (p := isAsciiSpace)).symm
  rw [go_seq, go_star_eq hstop, valueBehind]
  cases hrest : c.rest.dropWhile isAsciiSpace with
  | nil =>
    rw [hrest] at hs
    simp [Re.chr, Re.go, hs]
  | cons x t =>
    rw [hrest] at hs
    by_cases hx : x = '"'
    · subst hx
      have hb : ((c.advance (c.rest.takeWhile isAsciiSpace)).advance ['"']).rest = t := rest_advance (t := ['"']) hs
      have hsplit : t = t.takeWhile (· != '"') ++ t.dropWhile (· != '"') := takeWhile_append_dropWhile.symm
      rw [go_seq, go_chr hs, Re.go, go_plus_eq (fun _ => rfl), hb]
      simp only [capturedIn]
      split
      · rfl
      · rw [Option.map_some, firstGroup, caps_capture_self (t := t.takeWhile (· != '"'))]
        · rfl
        · rw [rest_advance (hb.trans hsplit), hb]
          exact hsplit
    · simp [Re.chr, Re.go, hs, hx]

theorem go_xrayHostNameRe (c : Cursor) : (xrayHostNameRe.go c some).map firstGroup = matchHere c.rest := by
  have hw : "\"address\":".toList = '"' :: (addressKey ++ ['"', ':']) := by decide
  by_cases hb : "\"address\":".toList <+: c.rest
  · obtain ⟨t, ht⟩ := hb
    have hrest : (c.advance "\"address\":".toList).rest = t := rest_advance ht.symm
    have hkey : c.rest = '"' :: (addressKey ++ '"' :: ':' :: t) := by
      rw [← ht, hw]
      simp
    rw [xrayHostNameRe, go_after ht.symm, hkey, ← hrest]
    exact go_value _
  · rw [xrayHostNameRe, go_after_none hb, matchHere]
    split
    · -- a key without a colon directly behind it
      rename_i hkey
      obtain ⟨t, ht⟩ := hkey
      have hd : c.rest.drop 9 = t := by
        rw [← ht]
        rfl
      rw [hd, valueBehind_of_head?]
      · rfl
      · intro hc
        obtain ⟨t', rfl⟩ := head?_eq_some_iff.mp hc
        refine hb ⟨t', ?_⟩
        rw [← ht, hw]
        simp
    · rfl

theorem search_eq_firstMatch (s : List Char) :
    (Regex.search xrayHostNameRe s).elim "" (captured 1) = (firstMatch s).elim "" String.ofList := by
  have hs : (searchFrom xrayHostNameRe s.length (.start s)).map firstGroup = firstMatch s :=
    searchFrom_eq_findSome go_xrayHostNameRe s.length (Nat.le_refl s.length)
  rw [← hs, Regex.search]
  cases searchFrom xrayHostNameRe s.length (.start s) <;> rfl

/-! ## Texts with string literals -/

section

variable {s rest : List Char}

theorem firstMatch_cons (x : Char) (s : List Char) : firstMatch (x :: s) = (matchHere (x :: s)).or (firstMatch s) := by
  rw [firstMatch, tails_cons, findSome?_cons]
  cases matchHere (x :: s) <;> rfl

theorem matchHere_of_ne {x : Char} (hx : x ≠ '"') (s : List Char) : matchHere (x :: s) = none :=
  if_neg fun hb => hx (cons_prefix_cons.mp hb).1.symm

/-- Before the first quote there is no match. -/
theorem firstMatch_append (hs : '"' ∉ s) (rest : List Char) : firstMatch (s ++ rest) = firstMatch rest := by
  induction s with
  | nil => rfl
  | cons x s ih =>
    rw [mem_cons, not_or] at hs
    rw [cons_append, firstMatch_cons, matchHere_of_ne (Ne.symm hs.1), Option.none_or, ih hs.2]

def addressRaw : Raw := plainRaw addressKey

theorem addressKey_plain : ∀ c ∈ addressKey, c ≠ '"' ∧ c ≠ '\\' := by
  have ha : addressKey.all (fun c => c ≠ '"' ∧ c ≠ '\\') = true := by decide
  exact fun c hc => of_decide_eq_true (all_eq_true.mp ha c hc)

theorem matchHere_quote (raw : Raw) (rest : List Char) :
    matchHere ('"' :: (rawChars raw ++ '"' :: rest)) = if raw = addressRaw then valueBehind rest else none := by
  split
  · rename_i heq
    rw [heq]
    exact matchHere_key rest
  · rename_i hne
    refine if_neg fun hb => hne ?_
    exact (closed_isPrefix_iff addressKey_plain).mp (cons_prefix_cons.mp hb).2

/-- A key that ends in `"address`. -/
def EndsInAddress (raw : Raw) : Prop := .escaped '"' :: addressRaw <:+ raw

instance (raw : Raw) : Decidable (EndsInAddress raw) := inferInstanceAs (Decidable (_ <:+ _))

theorem not_endsInAddress_addressRaw : ¬EndsInAddress addressRaw := fun h =>
  escaped_notMem_plainRaw '"' addressKey (h.subset mem_cons_self)

/-- From inside a literal on. The quote that ends it begins no match, since no letter follows it. -/
theorem firstMatch_raw (hrest : rest.head? ≠ some 'a') (raw : Raw) :
    firstMatch (rawChars raw ++ '"' :: rest) = if EndsInAddress raw then (valueBehind rest).or (firstMatch rest)
    else firstMatch rest := by
  induction raw with
  | nil =>
    have hno : matchHere ('"' :: rest) = none := by
      refine if_neg fun hb => hrest ?_
      obtain ⟨t, ht⟩ := (cons_prefix_cons.mp hb).2
      rw [← ht]
      rfl
    rw [if_neg (by simp [EndsInAddress]), rawChars, flatMap_nil, nil_append, firstMatch_cons, hno, Option.none_or]
  | cons piece raw ih =>
    cases piece with
    | plain c h =>
      have he : EndsInAddress (.plain c h :: raw) ↔ EndsInAddress raw := by
        rw [EndsInAddress, suffix_cons_iff]
        exact or_iff_right (by simp)
      rw [rawChars_plain, cons_append, firstMatch_cons, matchHere_of_ne h.1, Option.none_or, ih]
      simp only [he]
    | escaped c =>
      have he : EndsInAddress (.escaped c :: raw) ↔ c = '"' ∧ raw = addressRaw ∨ EndsInAddress raw := by
        rw [EndsInAddress, suffix_cons_iff, List.cons.injEq, Piece.escaped.injEq, eq_comm, eq_comm (a := addressRaw)]
        exact Iff.rfl
      rw [rawChars_escaped, cons_append, cons_append, firstMatch_cons, matchHere_of_ne (by decide), Option.none_or,
        firstMatch_cons, ih]
      by_cases hc : c = '"'
      · subst hc
        rw [matchHere_quote]
        by_cases hr : raw = addressRaw
        · rw [if_pos hr, if_neg (hr ▸ not_endsInAddress_addressRaw), if_pos (he.mpr (.inl ⟨rfl, hr⟩))]
        · rw [if_neg hr, Option.none_or]
          simp only [he, hr, and_false, false_or]
      · rw [matchHere_of_ne hc, Option.none_or]
        simp only [he, hc, false_and, false_or]

def isAddressKey (raw : Raw) : Bool := raw = addressRaw ∨ EndsInAddress raw

theorem isAddressKey_iff {raw : Raw} : isAddressKey raw = true ↔ raw = addressRaw ∨ EndsInAddress raw :=
  decide_eq_true_iff

theorem firstMatch_quoted (hrest : rest.head? ≠ some 'a') (raw : Raw) :
    firstMatch (quoted raw ++ rest) = if isAddressKey raw then (valueBehind rest).or (firstMatch rest)
    else firstMatch rest := by
  rw [quoted_append, firstMatch_cons, matchHere_quote, firstMatch_raw hrest]
  by_cases hr : raw = addressRaw
  · rw [if_pos hr, if_neg (hr ▸ not_endsInAddress_addressRaw), if_pos (isAddressKey_iff.mpr (.inl hr))]
  · rw [if_neg hr, Option.none_or]
    simp only [isAddressKey_iff, hr, false_or]

end

/-! ## Documents -/

/-- What the expression captures of a member, if it matches there: the value up to its first quote, which may be an
escaped one. -/
def addressOf (m : Member) : Option (List Char) :=
  match m.gap, m.value with
  | [], .text raw =>
    if isAddressKey m.key ∧ raw ≠ [] then some ((rawChars raw).takeWhile (· != '"')) else none
  | _, _ => none

def Ends (rest : List Char) : Prop := rest.head? ≠ some 'a' ∧ rest.head? ≠ some ':'

section

variable {rest : List Char}

theorem quote_notMem_blankChars (blanks : Gap) : '"' ∉ blankChars blanks :=
  fun h => absurd (mem_blankChars h) (by decide)

theorem Ends.blanks (h : Ends rest) (blanks : Gap) : Ends (blankChars blanks ++ rest) := by
  cases blanks with
  | nil => exact h
  | cons blank blanks => cases blank <;> exact ⟨by simp [blankChars, Blank.char], by simp [blankChars, Blank.char]⟩

variable {x : Char}

theorem ends_cons (hx : x ∈ [',', ']', '}']) (rest : List Char) : Ends (x :: rest) := by
  constructor <;> (rw [head?_cons]; rintro ⟨⟩; exact absurd hx (by decide))

theorem capturedIn_raw (raw : Raw) (rest : List Char) :
    capturedIn (rawChars raw ++ '"' :: rest) = if raw ≠ [] then some ((rawChars raw).takeWhile (· != '"'))
    else none := by
  have ht : (rawChars raw ++ '"' :: rest).takeWhile (· != '"') = (rawChars raw).takeWhile (· != '"') := by
    rw [takeWhile_append]
    split
    · rename_i hl
      rw [takeWhile_cons_of_neg (by simp), append_nil]
      exact ((List.takeWhile_prefix _).eq_of_length hl).symm
    · rfl
  rw [capturedIn, ht]
  cases raw with
  | nil => rfl
  | cons piece raw =>
    have hne : (rawChars (piece :: raw)).takeWhile (· != '"') ≠ [] := by
      cases piece with
      | plain c h => rw [rawChars_plain, takeWhile_cons_of_pos (by simpa using h.1)]; exact cons_ne_nil _ _
      | escaped c => rw [rawChars_escaped]; exact cons_ne_nil _ _
    rw [if_neg hne, if_pos (cons_ne_nil _ _)]

theorem isAsciiSpace_of_mem_blankChars {blanks : Gap} : ∀ c ∈ blankChars blanks, isAsciiSpace c = true := by
  intro c hc
  have hb := mem_blankChars hc
  simp only [mem_cons, not_mem_nil, or_false] at hb
  rcases hb with rfl | rfl | rfl | rfl <;> decide

theorem not_space_of_allowed (h : x.isAlphanum = true ∨ x ∈ ['-', '+', '.', '[', '{']) :
    isAsciiSpace x = false ∧ x ≠ '"' := by
  have hm : ['-', '+', '.', '[', '{'].all (fun c => !isAsciiSpace c && c != '"') = true := by decide
  rcases h with ha | hma
  · refine ⟨isAsciiSpace_of_isAlphanum ha, ?_⟩
    rintro rfl
    cases ha
  · simpa using all_eq_true.mp hm x hma

/-- Behind the key of a member. -/
theorem valueBehind_member {key : Raw} (hkey : isAddressKey key = true) (gap gap' : Gap) (v : Tree) (rest : List Char) :
    valueBehind (blankChars gap ++ ':' :: (blankChars gap' ++ (v.chars ++ rest))) = addressOf ⟨key, gap, v⟩ := by
  cases gap with
  | cons blank gap =>
    refine valueBehind_of_head? ?_
    cases blank <;> simp [blankChars, Blank.char]
  | nil =>
    rw [blankChars, map_nil, nil_append, valueBehind, dropWhile_append_of_pos isAsciiSpace_of_mem_blankChars]
    rcases v.text_or_chars with ⟨raw, rfl⟩ | ⟨x, s, hx, ha⟩
    · rw [Tree.chars, quoted_append, dropWhile_cons_of_neg (by decide)]
      simp only [capturedIn_raw, addressOf, hkey, true_and]
    · obtain ⟨hs, hq⟩ := not_space_of_allowed ha
      have hno : addressOf ⟨key, [], v⟩ = none := by
        unfold addressOf
        split
        · rename_i raw _ ht
          rw [show v = .text raw from ht] at hx
          exact absurd (List.cons.inj hx).1.symm hq
        · rfl
      rw [hx, cons_append, dropWhile_cons_of_neg (by simp [hs]), hno]
      split
      · rename_i heq
        exact absurd (List.cons.inj heq).1 hq
      · rfl

/-- One member, with what follows it. -/
theorem firstMatch_member (key : Raw) (gap gap' : Gap) (v : Tree) (rest : List Char) :
    firstMatch (quoted key ++ (blankChars gap ++ ':' :: (blankChars gap' ++ (v.chars ++ rest)))) =
      (addressOf ⟨key, gap, v⟩).or (firstMatch (v.chars ++ rest)) := by
  have hh : (blankChars gap ++ ':' :: (blankChars gap' ++ (v.chars ++ rest))).head? ≠ some 'a' := by
    cases gap with
    | nil => simp [blankChars]
    | cons blank gap => cases blank <;> simp [blankChars, Blank.char]
  have hs : firstMatch (blankChars gap ++ ':' :: (blankChars gap' ++ (v.chars ++ rest))) =
      firstMatch (v.chars ++ rest) := by
    rw [firstMatch_append (quote_notMem_blankChars gap), firstMatch_cons, matchHere_of_ne (by decide), Option.none_or,
      firstMatch_append (quote_notMem_blankChars gap')]
  rw [firstMatch_quoted hh, hs]
  split
  · rename_i hkey
    rw [valueBehind_member hkey]
  · rename_i hkey
    have hno : addressOf ⟨key, gap, v⟩ = none := by
      unfold addressOf
      split
      · exact if_neg fun h => hkey h.1
      · rfl
    rw [hno, Option.none_or]

/-- A mark between the tokens. -/
theorem firstMatch_mark (hx : x ∈ ['[', ']', '{', '}', ',']) (s : List Char) :
    firstMatch (x :: s) = firstMatch s := by
  have hne : x ≠ '"' := by
    rintro rfl
    exact absurd hx (by decide)
  rw [firstMatch_cons, matchHere_of_ne hne, Option.none_or]

end

mutual

/-- **The first match in a value.** -/
theorem firstMatch_tree : ∀ (v : Tree) {rest : List Char}, Ends rest →
    firstMatch (v.chars ++ rest) = (v.members.findSome? addressOf).or (firstMatch rest)
  | .literal l, rest, _ => by
    refine firstMatch_append (fun hm => ?_) rest
    rcases l.allowed _ hm with h | h <;> exact absurd h (by decide)
  | .text raw, rest, hrest => by
    rw [Tree.chars, firstMatch_quoted hrest.1, valueBehind_of_head? hrest.2, Option.none_or, ite_self]
    rfl
  | .emptyArray blanks, rest, _ => by
    rw [Tree.chars, cons_append, firstMatch_mark (by decide), append_assoc,
      firstMatch_append (quote_notMem_blankChars blanks),
      singleton_append, firstMatch_mark (by decide)]
    rfl
  | .array items, rest, hrest => by
    rw [Tree.chars, cons_append, firstMatch_mark (by decide), append_assoc, singleton_append,
      firstMatch_items items (ends_cons (by decide) rest), firstMatch_mark (by decide)]
    rfl
  | .emptyObject blanks, rest, _ => by
    rw [Tree.chars, cons_append, firstMatch_mark (by decide), append_assoc,
      firstMatch_append (quote_notMem_blankChars blanks),
      singleton_append, firstMatch_mark (by decide)]
    rfl
  | .object members, rest, hrest => by
    rw [Tree.chars, cons_append, firstMatch_mark (by decide), append_assoc, singleton_append,
      firstMatch_members members (ends_cons (by decide) rest), firstMatch_mark (by decide)]
    rfl

theorem firstMatch_items : ∀ (items : Items) {rest : List Char}, Ends rest →
    firstMatch (items.chars ++ rest) = (items.members.findSome? addressOf).or (firstMatch rest)
  | .last before v after, rest, hrest => by
    rw [Items.chars, append_assoc, append_assoc, firstMatch_append (quote_notMem_blankChars before),
      firstMatch_tree v (hrest.blanks after), firstMatch_append (quote_notMem_blankChars after)]
    rfl
  | .cons before v after items, rest, hrest => by
    have hc : Ends (',' :: (items.chars ++ rest)) := ends_cons (by decide) _
    rw [Items.chars, append_assoc, append_assoc, append_assoc, cons_append,
      firstMatch_append (quote_notMem_blankChars before), firstMatch_tree v (hc.blanks after),
      firstMatch_append (quote_notMem_blankChars after), firstMatch_mark (by decide), firstMatch_items items hrest,
      Items.members,
      findSome?_append, Option.or_assoc]

theorem firstMatch_members : ∀ (members : Members) {rest : List Char}, Ends rest →
    firstMatch (members.chars ++ rest) = (members.members.findSome? addressOf).or (firstMatch rest)
  | .last before key gap gap' v after, rest, hrest => by
    rw [Members.chars]
    simp only [append_assoc, cons_append]
    rw [firstMatch_append (quote_notMem_blankChars before), firstMatch_member, firstMatch_tree v (hrest.blanks after),
      firstMatch_append (quote_notMem_blankChars after), Members.members, findSome?_cons, ← Option.or_assoc]
    cases addressOf ⟨key, gap, v⟩ <;> rfl
  | .cons before key gap gap' v after members, rest, hrest => by
    have hc : Ends (',' :: (members.chars ++ rest)) := ends_cons (by decide) _
    rw [Members.chars]
    simp only [append_assoc, cons_append]
    rw [firstMatch_append (quote_notMem_blankChars before), firstMatch_member, firstMatch_tree v (hc.blanks after),
      firstMatch_append (quote_notMem_blankChars after), firstMatch_mark (by decide), firstMatch_members members hrest,
      Members.members, findSome?_cons, findSome?_append]
    cases addressOf ⟨key, gap, v⟩ with
    | none => simp only [Option.none_or, Option.or_assoc]
    | some found => rfl

end

/-! ## The host name -/

def hostName (config : Object) : String := (config.value "hostName").toText

/-- The address at the first member where the expression matches. -/
def firstAddress (d : Document) : String := (d.members.findSome? addressOf).elim "" String.ofList

/-- The first outbound has the address as that of its first server. -/
def HasServerAddress (v : Json) (address : String) : Prop :=
  let first (v : Value) : Value := v.toArray.head?
  let outbound := (first ((Value.toObject (some v)).value "outbounds")).toObject
  let settings := (outbound.value "settings").toObject
  ∃ key ∈ ["vnext", "servers"], (first (settings.value key)).toObject.value "address" = some (.str address)

theorem firstMatch_document (d : Document) : firstMatch d.chars = d.members.findSome? addressOf := by
  have he : Ends (blankChars d.after ++ []) := Ends.blanks ⟨by simp, by simp⟩ d.after
  rw [append_nil] at he
  have ha : firstMatch (blankChars d.after) = none := by
    rw [← append_nil (blankChars d.after), firstMatch_append (quote_notMem_blankChars d.after)]
    rfl
  rw [Document.chars, firstMatch_append (quote_notMem_blankChars d.before), firstMatch_tree d.tree he, ha,
    Option.or_none]
  rfl

variable (sys : System) (configType : ConfigTypes) (serverName description : String)

theorem hostName_extractXrayConfig (d : Document) :
    hostName (extractXrayConfig sys configType serverName (String.ofList d.chars) description) = firstAddress d := by
  have hv (config : Object) (container description name : String) :
      hostName (serverOf container config description name []) = name := by
    simp [hostName, serverOf, Object.value_cons]
  rw [extractXrayConfig, hv, String.toList_ofList, search_eq_firstMatch, firstMatch_document, firstAddress]

/-- **The server.** -/
theorem hostName_iff (r : Reading) (d : Document) : (∀ address, HasServerAddress (d.value r) address →
        hostName (extractXrayConfig sys configType serverName (String.ofList d.chars) description) = address) ↔
      ∀ address, HasServerAddress (d.value r) address → firstAddress d = address := by
  rw [hostName_extractXrayConfig]

/-- Literals as they are. -/
def plainReading : Reading where
  text raw := String.ofList (rawChars raw)
  literal _ := .null

def memberOf (key : String) (v : Tree) : Tree := .object (.last [] (plainRaw key.toList) [] [] v [])

def only (v : Tree) : Tree := .array (.last [] v [])

def addressTree (address : String) : Tree := memberOf "address" (.text (plainRaw address.toList))

/-- A server for DNS, and then the server of the VPN. -/
def dnsFirst : Document where
  before := []
  tree := .object (.cons [] (plainRaw "dns".toList) [] [] (memberOf "servers" (only (addressTree "1.1.1.1"))) []
    (.last [] (plainRaw "outbounds".toList) [] []
      (only (memberOf "settings" (memberOf "vnext" (only (addressTree "203.0.113.7"))))) []))
  after := []

theorem dns_server_taken :
    dnsFirst.chars = ("\x7b\"dns\":\x7b\"servers\":[\x7b\"address\":\"1.1.1.1\"\x7d]\x7d,\"outbounds\":" ++
        "[\x7b\"settings\":\x7b\"vnext\":[\x7b\"address\":\"203.0.113.7\"\x7d]\x7d\x7d]\x7d").toList ∧
      HasServerAddress (dnsFirst.value plainReading) "203.0.113.7" ∧
      hostName (extractXrayConfig exampleSystem .Xray "Server 1" (String.ofList dnsFirst.chars) "") = "1.1.1.1" := by
  refine ⟨?_, ?_, ?_⟩
  · decide
  · exact ⟨"vnext", by decide, by decide⟩
  · rw [hostName_extractXrayConfig]
    decide

end Cimogus.Client.Import
