import Cimogus.Client.Import

/-!
# Dangerous lines of an imported configuration

`checkForMaliciousStrings` looks through the OpenVPN configurations of an imported server for directives that run
scripts. A line is collected if the first match of `(\w+-\w+|\w+)` in it is one of ten tags, and three such lines in one
configuration make a warning.
-/

namespace Cimogus.Client.Import

open Lib Lib.Json Lib.Regex List

def wordRe : Re := .plus (.chars isWord)

/-- `(\w+-\w+|\w+)` -/
def tagRe : Re := .group 1 (.alt (.seq wordRe (.seq (.chr '-') wordRe)) wordRe)

def dangerousTags : List String :=
  ["up", "tls-verify", "ipchange", "client-connect", "route-up", "route-pre-down", "client-disconnect", "down",
    "learn-address", "auth-user-pass-verify"]

def dangerousTagsMaxCount : Nat := 3

/-- `match.captured(0)`, which is empty if nothing matches. -/
def capturedTag (line : String) : String := (Regex.search (.group 0 tagRe) line.toList).elim "" (captured 0)

def configLines (config : String) : List String := Text.split (Text.remove "\r" config) '\n'

def maliciousStrings (config : String) : List String :=
  (configLines config).filter fun line => capturedTag line ∈ dangerousTags

def warningHeading : String := "In the imported configuration, potentially dangerous lines were found:"

def warningText (lines : List String) : String :=
  warningHeading ++ String.join (lines.map fun line => "<br><i>" ++ line ++ "</i>")

/-- The OpenVPN configuration of a container that has one. -/
def openVpnConfig (sys : System) (container : Json) : Option String :=
  let containerConfig := Value.toObject (some container)
  if (containerConfig.value "container").toText ∈
    ["amnezia-openvpn", "amnezia-openvpn-cloak", "amnezia-shadowsocks"] then
    let protocolConfig := ((containerConfig.value "openvpn").toObject.value "last_config").toText
    some ((objectOf sys protocolConfig).value "config").toText
  else none

/-- `warning` is the member `m_maliciousWarningText`. -/
def checkForMaliciousStrings (sys : System) (serverConfig : Object) (warning : String) : String :=
  (serverConfig.value "containers").toArray.foldl (fun warning container =>
    match openVpnConfig sys container with
    | none => warning
    | some config =>
      if (maliciousStrings config).length ≥ dangerousTagsMaxCount then warningText (maliciousStrings config)
        else warning) warning

/-! ## What the expression finds -/

def hyphenated : List Char → List Char
  | '-' :: x :: xs => if isWord x then '-' :: (x :: xs).takeWhile isWord else []
  | _ => []

def wordOf (s : List Char) : List Char := s.takeWhile isWord ++ hyphenated (s.dropWhile isWord)

def firstWord (line : String) : String := String.ofList (wordOf (line.toList.dropWhile (!isWord ·)))

variable {c : Cursor}

theorem wordRe_go_none (hc : ∀ x ∈ c.rest.head?, isWord x = false) (k : Cursor → Option Cursor) :
    wordRe.go c k = none := by
  cases hrest : c.rest with
  | nil => simp [wordRe, Re.plus, Re.go, hrest]
  | cons x xs =>
    have hx : isWord x = false := hc x (by rw [hrest]; rfl)
    simp [wordRe, Re.plus, Re.go, hrest, hx]

theorem tagRe_go_none (c : Cursor) (hc : ∀ x ∈ c.rest.head?, isWord x = false) :
    (Re.group 0 tagRe).go c some = none := by
  simp [tagRe, Re.go, wordRe_go_none hc]

theorem hyphenated_cases (s : List Char) :
    (∃ x xs, s = '-' :: x :: xs ∧ isWord x = true ∧ hyphenated s = '-' :: (x :: xs).takeWhile isWord) ∨
      (∀ x xs, s = '-' :: x :: xs → isWord x = false) ∧ hyphenated s = [] := by
  unfold hyphenated
  split
  · rename_i x xs
    by_cases hx : isWord x
    · exact .inl ⟨x, xs, rfl, hx, if_pos hx⟩
    · refine .inr ⟨fun y ys heq => ?_, if_neg hx⟩
      cases heq
      exact Bool.eq_false_iff.mpr hx
  · rename_i hne
    exact .inr ⟨fun x xs heq => absurd heq (hne x xs), rfl⟩

/-- Without a second word the first branch of the expression fails: the hyphen would have to be the sign that ends the
word. -/
theorem twoWords_go_none (hno : ∀ x xs, c.rest.dropWhile isWord = '-' :: x :: xs → isWord x = false)
    (k : Cursor → Option Cursor) : (Re.seq wordRe (.seq (.chr '-') wordRe)).go c k = none := by
  rw [Option.eq_none_iff_forall_not_mem]
  intro d hd
  obtain ⟨e, ⟨_, hw, _, ⟨y, ys, hy, hh, rfl⟩, hse⟩, -⟩ := go_sound _ hd
  obtain ⟨s, -, hs, hrest, rfl⟩ := plus_chars_matches hw
  obtain ⟨t, ht, htw, htr, -⟩ := plus_chars_matches hse
  obtain ⟨x, t, rfl⟩ := exists_cons_of_ne_nil ht
  have hy' : y = '-' := by simpa using hh
  subst hy'
  rw [rest_advance (t := ['-']) hy] at htr
  have hdr : c.rest.dropWhile isWord = '-' :: x :: (t ++ e.rest) := by
    rw [hrest, dropWhile_append_of_pos hs, hy, htr]
    rfl
  exact absurd (htw x mem_cons_self) (by simp [hno _ _ hdr])

theorem tagRe_go (hc : c.rest.takeWhile isWord ≠ []) {k : Cursor → Option Cursor} {d : Cursor}
    (hk : k (c.advance (wordOf c.rest)) = some d) :
    (Re.alt (.seq wordRe (.seq (.chr '-') wordRe)) wordRe).go c k = some d := by
  have hsplit : c.rest = c.rest.takeWhile isWord ++ c.rest.dropWhile isWord := takeWhile_append_dropWhile.symm
  have ht : ∀ (s : List Char), ∀ x ∈ s.takeWhile isWord, isWord x = true := fun s x hx => mem_takeWhile_imp hx
  have hstop := head?_dropWhile isWord c.rest
  rw [Re.go, Option.or_eq_some_iff]
  obtain ⟨x, xs, hu, hx, htw⟩ | ⟨hno, ho⟩ := hyphenated_cases (c.rest.dropWhile isWord)
  · left
    rw [wordOf, htw, ← advance_advance, ← singleton_append, ← advance_advance] at hk
    have hrest := rest_advance hsplit
    rw [hu] at hrest
    refine go_plus_greedy hc hsplit (ht _) hstop ?_
    rw [Re.go, go_chr hrest]
    have hs' : (x :: xs) = (x :: xs).takeWhile isWord ++ (x :: xs).dropWhile isWord := takeWhile_append_dropWhile.symm
    refine go_plus_greedy (by simp [hx]) ((rest_advance (t := ['-']) hrest).trans hs') (ht _)
      (head?_dropWhile isWord _) hk
  · right
    rw [wordOf, ho, append_nil] at hk
    exact ⟨twoWords_go_none hno k, go_plus_greedy hc hsplit (ht _) hstop hk⟩

theorem wordOf_append (s : List Char) : ∃ t, s = wordOf s ++ t := by
  obtain ⟨x, xs, hu, hx, ht⟩ | ⟨-, ho⟩ := hyphenated_cases (s.dropWhile isWord)
  · refine ⟨(x :: xs).dropWhile isWord, ?_⟩
    rw [wordOf, ht, append_assoc, cons_append, takeWhile_append_dropWhile, ← hu, takeWhile_append_dropWhile]
  · exact ⟨s.dropWhile isWord, by rw [wordOf, ho, append_nil, takeWhile_append_dropWhile]⟩

theorem captured_eq_firstWord (line : String) : capturedTag line = firstWord line := by
  have hsplit : line.toList = line.toList.takeWhile (!isWord ·) ++ line.toList.dropWhile (!isWord ·) :=
    takeWhile_append_dropWhile.symm
  have hs := searchFrom_skip tagRe_go_none (line.toList.takeWhile (!isWord ·)) (c := .start line.toList) hsplit
    (fun x hx => by simpa using mem_takeWhile_imp hx) (List.takeWhile_prefix _).length_le
  rw [capturedTag, firstWord, search, hs]
  have hrest : ((Cursor.start line.toList).advance (line.toList.takeWhile (!isWord ·))).fresh.rest =
      line.toList.dropWhile (!isWord ·) := rest_advance (c := .start line.toList) hsplit
  generalize (Cursor.start line.toList).advance (line.toList.takeWhile (!isWord ·)) = c at hrest ⊢
  cases hw : line.toList.dropWhile (!isWord ·) with
  | nil =>
    rw [hw] at hrest
    rw [searchFrom_end (c := c) hrest, tagRe_go_none _ (by simp [hrest])]
    rfl
  | cons x xs =>
    have hx : isWord x = true := by
      have hh := head?_dropWhile (!isWord ·) line.toList
      simpa [hw] using hh
    have hta : (Re.group 0 tagRe).go c.fresh some =
        some (((c.fresh.advance (wordOf c.fresh.rest)).capture 1 c.fresh).capture 0 c.fresh) := by
      exact tagRe_go (by simp [hrest, hw, hx]) rfl
    obtain ⟨t, ht⟩ := wordOf_append c.fresh.rest
    have hc := caps_capture_self (e := (c.fresh.advance (wordOf c.fresh.rest)).capture 1 c.fresh)
      (ht.trans (congrArg _ (rest_advance ht).symm)) 0
    rw [searchFrom_of_go hta, Option.map_some, Option.elim_some, captured, hc, hrest, hw, Option.getD_some]

/-! ## Tokens

For any notion of blanks that are neither signs of a word nor hyphens. -/

section Tokens

variable {blank : Char → Bool}

def firstToken (blank : Char → Bool) (line : String) : String :=
  String.ofList ((line.toList.dropWhile blank).takeWhile (!blank ·))

variable {s t : List Char}

theorem takeWhile_append_of_head? {p : Char → Bool} (ht : ∀ x ∈ t.head?, p x = false) :
    (s ++ t).takeWhile p = s.takeWhile p ∧ (s ++ t).dropWhile p = s.dropWhile p ++ t := by
  induction s with
  | nil =>
    cases t with
    | nil => exact ⟨rfl, rfl⟩
    | cons y ys => simp [ht y rfl]
  | cons x s ih =>
    by_cases hx : p x
    · simp [hx, ih.1, ih.2]
    · simp [hx]

theorem hyphenated_append (ht : ∀ x ∈ t.head?, isWord x = false ∧ x ≠ '-') :
    hyphenated (s ++ t) = hyphenated s := by
  have htw : ∀ x ∈ t.head?, isWord x = false := fun x hx => (ht x hx).1
  obtain ⟨x, xs, rfl, hx, htwo⟩ | ⟨hno, ho⟩ := hyphenated_cases s
  · rw [htwo, ← (takeWhile_append_of_head? (s := x :: xs) htw).1]
    simp [hyphenated, hx]
  · rw [ho]
    obtain ⟨x, xs, heq, hx, -⟩ | ⟨-, ho⟩ := hyphenated_cases (s ++ t)
    · -- the two signs would be of `s`, or the second one the first of `t`
      match s, heq with
      | [], heq =>
        rw [nil_append] at heq
        exact absurd rfl (ht '-' (by rw [heq]; rfl)).2
      | [_], heq =>
        cases heq
        exact absurd hx (by simp [htw x rfl])
      | _ :: _ :: _, heq =>
        cases heq
        exact absurd hx (by simp [hno x _ rfl])
    · exact ho

theorem wordOf_append_of_head? (ht : ∀ x ∈ t.head?, isWord x = false ∧ x ≠ '-') :
    wordOf (s ++ t) = wordOf s := by
  obtain ⟨hta, hd⟩ := takeWhile_append_of_head? (s := s) fun x hx => (ht x hx).1
  rw [wordOf, hta, hd, hyphenated_append ht, wordOf]

theorem wordOf_of_parts {blanks token rest : List Char} {x : Char} (hb : ∀ y ∈ blanks, (!isWord y) = true)
    (hx : token.head? = some x) (hw : isWord x = true) (hrest : ∀ y ∈ rest.head?, isWord y = false ∧ y ≠ '-') :
    wordOf ((blanks ++ (token ++ rest)).dropWhile (!isWord ·)) = wordOf (token.dropWhile (!isWord ·)) := by
  obtain ⟨token, rfl⟩ := head?_eq_some_iff.mp hx
  have hd (s : List Char) : (x :: s).dropWhile (!isWord ·) = x :: s := by simp [hw]
  rw [dropWhile_append_of_pos hb, cons_append, hd, hd, ← cons_append, wordOf_append_of_head? hrest]

theorem firstWord_eq_of_firstToken (hblank : ∀ x, blank x = true → isWord x = false ∧ x ≠ '-')
    {line : String} {x : Char}
    (hx : (firstToken blank line).toList.head? = some x) (hw : isWord x = true) :
    firstWord line = firstWord (firstToken blank line) := by
  rw [firstToken, String.toList_ofList] at hx
  have hl : line.toList = line.toList.takeWhile blank ++ ((line.toList.dropWhile blank).takeWhile (!blank ·) ++
      (line.toList.dropWhile blank).dropWhile (!blank ·)) := by
    rw [takeWhile_append_dropWhile, takeWhile_append_dropWhile]
  have hrest : ∀ y ∈ ((line.toList.dropWhile blank).dropWhile (!blank ·)).head?, isWord y = false ∧
      y ≠ '-' := by
    intro y hy
    exact hblank y (by simpa using head?_dropWhile (!blank ·) _ y hy)
  have hb : ∀ y ∈ line.toList.takeWhile blank, (!isWord y) = true := by
    intro y hy
    rw [(hblank y (mem_takeWhile_imp hy)).1]
    rfl
  have hp := wordOf_of_parts hb hx hw hrest
  rw [← hl] at hp
  rw [firstWord, firstWord, firstToken, String.toList_ofList, hp]

theorem firstWord_of_mem_dangerousTags : ∀ tag ∈ dangerousTags,
    firstWord tag = if tag = "route-pre-down" then "route-pre" else if tag = "auth-user-pass-verify" then "auth-user"
    else tag := by
  decide

theorem head?_of_mem_dangerousTags : ∀ tag ∈ dangerousTags, tag.toList.head?.any isWord = true := by
  decide

/-- The first token is no tag with two hyphens, and a tag is found only if it is the first token. -/
def Plain (blank : Char → Bool) (line : String) : Prop :=
  firstToken blank line ∉ ["route-pre-down", "auth-user-pass-verify"] ∧
    (firstWord line ∈ dangerousTags → firstToken blank line = firstWord line)

instance (line : String) : Decidable (Plain blank line) := inferInstanceAs (Decidable (_ ∧ _))

variable (hblank : ∀ x, blank x = true → isWord x = false ∧ x ≠ '-')

include hblank

theorem firstWord_of_firstToken_mem {line : String}
    (ht : firstToken blank line ∈ dangerousTags) : firstWord line = firstWord (firstToken blank line) := by
  obtain ⟨x, hx, hw⟩ := (Option.any_eq_true _ _).mp (head?_of_mem_dangerousTags _ ht)
  exact firstWord_eq_of_firstToken hblank hx hw

theorem captured_mem_iff_iff_plain (line : String) :
    (capturedTag line ∈ dangerousTags ↔ firstToken blank line ∈ dangerousTags) ↔ Plain blank line := by
  rw [captured_eq_firstWord]
  have hta : firstToken blank line ∈ dangerousTags → firstWord line = _ := fun ht =>
    (firstWord_of_firstToken_mem hblank ht).trans (firstWord_of_mem_dangerousTags _ ht)
  constructor
  · intro hi
    have htw : firstToken blank line ∉ ["route-pre-down", "auth-user-pass-verify"] := by
      intro htw
      simp only [mem_cons, not_mem_nil, or_false] at htw
      rcases htw with heq | heq
      · have hw := hta (by rw [heq]; decide)
        rw [heq] at hi hw
        exact absurd (hi.mpr (by decide)) (by rw [hw]; decide)
      · have hw := hta (by rw [heq]; decide)
        rw [heq] at hi hw
        exact absurd (hi.mpr (by decide)) (by rw [hw]; decide)
    refine ⟨htw, fun hfo => ?_⟩
    rw [hta (hi.mp hfo), if_neg fun heq => htw (by simp [heq]), if_neg fun heq => htw (by simp [heq])]
  · rintro ⟨htw, hfo⟩
    refine ⟨fun h => hfo h ▸ h, fun ht => ?_⟩
    rw [hta ht, if_neg fun heq => htw (by simp [heq]), if_neg fun heq => htw (by simp [heq])]
    exact ht

end Tokens

/-! ## The warning -/

variable (sys : System)

def openVpnConfigs (serverConfig : Object) : List String :=
  (serverConfig.value "containers").toArray.filterMap (openVpnConfig sys)

/-- The warning is that of the last configuration with enough lines; without one, an earlier warning stays. -/
theorem checkForMaliciousStrings_eq (serverConfig : Object) (warning : String) :
    checkForMaliciousStrings sys serverConfig warning = ((openVpnConfigs sys serverConfig).filter fun config =>
        (maliciousStrings config).length ≥ dangerousTagsMaxCount).getLast?.elim warning
          fun config => warningText (maliciousStrings config) := by
  unfold checkForMaliciousStrings openVpnConfigs
  induction (serverConfig.value "containers").toArray generalizing warning with
  | nil => rfl
  | cons container containers ih =>
    rw [foldl_cons, ih, filterMap_cons]
    cases openVpnConfig sys container with
    | none => rfl
    | some config =>
      dsimp only
      by_cases hw : (maliciousStrings config).length ≥ dangerousTagsMaxCount
      · rw [if_pos hw, filter_cons_of_pos (by simpa using hw), getLast?_cons]
        cases ((containers.filterMap (openVpnConfig sys)).filter fun config =>
          (maliciousStrings config).length ≥ dangerousTagsMaxCount).getLast? <;> rfl
      · rw [if_neg hw, filter_cons_of_neg (by simpa using hw)]

theorem warningText_ne (lines : List String) : warningText lines ≠ "" := by
  intro h
  exact absurd (String.append_eq_empty_iff.mp h).1 (by decide)

theorem checkForMaliciousStrings_ne_iff (serverConfig : Object) :
    checkForMaliciousStrings sys serverConfig "" ≠ "" ↔
      ∃ config ∈ openVpnConfigs sys serverConfig, (maliciousStrings config).length ≥ dangerousTagsMaxCount := by
  rw [checkForMaliciousStrings_eq]
  cases hlast : ((openVpnConfigs sys serverConfig).filter fun config =>
      (maliciousStrings config).length ≥ dangerousTagsMaxCount).getLast? with
  | none =>
    have hno := filter_eq_nil_iff.mp (getLast?_eq_none_iff.mp hlast)
    refine iff_of_false (fun h => h rfl) ?_
    rintro ⟨config, hc, hw⟩
    exact hno config hc (by simpa using hw)
  | some config =>
    have hc := mem_filter.mp (mem_of_getLast? hlast)
    exact iff_of_true (warningText_ne _) ⟨config, hc.1, by simpa using hc.2⟩

/-- **Dangerous lines.** The lines that are collected are those whose first token is a tag just when all lines are
plain, and there is a warning just when enough lines of a configuration are collected. -/
theorem collected_iff {blank : Char → Bool} (hblank : ∀ x, blank x = true → isWord x = false ∧ x ≠ '-')
    (serverConfig : Object) : ((∀ config ∈ openVpnConfigs sys serverConfig,
        maliciousStrings config = (configLines config).filter fun line => firstToken blank line ∈ dangerousTags) ↔
      ∀ config ∈ openVpnConfigs sys serverConfig, ∀ line ∈ configLines config, Plain blank line) ∧
    (checkForMaliciousStrings sys serverConfig "" ≠ "" ↔
      ∃ config ∈ openVpnConfigs sys serverConfig, (maliciousStrings config).length ≥ dangerousTagsMaxCount) := by
  refine ⟨forall₂_congr fun config _ => ?_, checkForMaliciousStrings_ne_iff sys serverConfig⟩
  have hli (line : String) := captured_mem_iff_iff_plain hblank line
  constructor
  · intro heq line hl
    rw [← hli]
    have hm := congrArg (line ∈ ·) heq
    simpa [maliciousStrings, hl] using hm
  · intro hp
    refine filter_congr fun line hl => ?_
    simp only [(hli line).mpr (hp line hl)]

/-- Has one document, the configuration of an OpenVPN container. -/
def oneDocument (config : String) : System :=
  { exampleSystem with qt := { linkQt with fromJson := fun _ => .ok (.obj [("config", .str config)]) } }

def openVpnServer : Object :=
  [("containers",
    .arr [.obj [("container", .str "amnezia-openvpn"), ("openvpn", .obj [("last_config", .str "document")])]])]

theorem isWord_of_isWhitespace (x : Char) (hx : x.isWhitespace = true) : isWord x = false ∧ x ≠ '-' := by
  simp only [Char.isWhitespace, Bool.or_eq_true, decide_eq_true_eq] at hx
  rcases hx with ((rfl | rfl) | rfl) | rfl <;> decide

theorem openVpnConfigs_oneDocument (config : String) :
    openVpnConfigs (oneDocument config) openVpnServer = [config] := rfl

/-- Indented directives, and line ends of Windows. -/
theorem collected_indented :
    let config := "client\r\n\tup /a.sh\r\n  down\t/b.sh\r\nroute-up /c.sh"
    maliciousStrings config =
      ((configLines config).filter fun line => firstToken Char.isWhitespace line ∈ dangerousTags) ∧
      checkForMaliciousStrings (oneDocument config) openVpnServer "" ≠ "" := by
  intro config
  have hl : configLines config = ["client", "\tup /a.sh", "  down\t/b.sh", "route-up /c.sh"] := by decide +kernel
  have hp : ∀ line ∈ configLines config, Plain Char.isWhitespace line := by
    rw [hl]
    decide +kernel
  have hi := collected_iff (oneDocument config) isWord_of_isWhitespace openVpnServer
  rw [openVpnConfigs_oneDocument] at hi
  have hc := hi.1.mpr (by simpa using hp) config (by simp)
  refine ⟨hc, hi.2.mpr ⟨config, by simp, ?_⟩⟩
  rw [hc, hl]
  decide +kernel

/-- Three directives that are missed, and three comments that are reported. -/
theorem tags_missed :
    let missed := "route-pre-down /a.sh\nauth-user-pass-verify /b.sh via-env\nroute-pre-down /c.sh"
    let comments := "# up and running\n; down\n#up"
    (configLines missed).map (firstToken Char.isWhitespace) =
      ["route-pre-down", "auth-user-pass-verify", "route-pre-down"] ∧
      maliciousStrings missed = [] ∧ checkForMaliciousStrings (oneDocument missed) openVpnServer "" = "" ∧
      (configLines comments).map (firstToken Char.isWhitespace) = ["#", ";", "#up"] ∧
      maliciousStrings comments = configLines comments ∧
      checkForMaliciousStrings (oneDocument comments) openVpnServer "" ≠ "" := by
  intro missed comments
  have hm : configLines missed =
      ["route-pre-down /a.sh", "auth-user-pass-verify /b.sh via-env", "route-pre-down /c.sh"] := by
    decide +kernel
  have hc : configLines comments = ["# up and running", "; down", "#up"] := by decide +kernel
  have hno : maliciousStrings missed = [] := by
    rw [maliciousStrings, hm]
    decide +kernel
  have ha : maliciousStrings comments = configLines comments := by
    rw [maliciousStrings, hc]
    decide +kernel
  refine ⟨by rw [hm]; decide +kernel, hno, ?_, by rw [hc]; decide +kernel, ha, ?_⟩
  · by_contra hw
    rw [← ne_eq, checkForMaliciousStrings_ne_iff, openVpnConfigs_oneDocument] at hw
    obtain ⟨config, hcon, hco⟩ := hw
    rw [mem_singleton.mp hcon, hno] at hco
    exact absurd hco (by decide)
  · rw [checkForMaliciousStrings_ne_iff, openVpnConfigs_oneDocument]
    exact ⟨comments, by simp, by rw [ha, hc]; decide⟩

end Cimogus.Client.Import
