import Cimogus.Client.OpenVpn
import Cimogus.Daemon.SocketLines

/-!
# The lines on the management socket

`onReadyReadDataFromManagementServer` has no buffer of its own: it reads line after line from the socket, where the last
one may not have arrived as a whole, and returns at a line that is blank or reports something fatal, which leaves the
lines behind it in the socket. An index that is out of range is `none`. What `QString(bytes).simplified()` is is a
parameter.
-/

namespace Cimogus.Client.OpenVpn

open Lib.Lines List
open Daemon (newline)

/-! ## One line -/

/-- `updateRouteGateway` finds the elements that it takes. -/
def routeInRange (line : List Char) : Bool := contains "net_route_v4_best_gw" line ||
    match splitParts "ROUTE_GATEWAY" line with
    | _ :: part :: _ => '/' ∉ part || splitParts "/" part ≠ []
    | _ => false

/-- There are two numbers behind the last `>BYTECOUNT:`. -/
def countInRange (data : List Char) : Bool := 2 ≤ (((splitAt ">BYTECOUNT:" data).getLastD []).splitOn ',').length

def otherResult (line : List Char) : Option Bool :=
  if (contains "ROUTE_GATEWAY" line || contains "net_route_v4_best_gw" line) && !routeInRange line then none
  else if contains "FATAL" line then some false
  else if contains ">BYTECOUNT:" (cString line) && !countInRange (cString line) then none
  else some true

/-- Whether the loop goes on behind a line. -/
def lineResult (line : List Char) : Option Bool :=
  if contains ">INFO:OpenVPN Management Interface" line then otherResult line
  else if startsWith ">STATE" line &&
      (contains "CONNECTED,SUCCESS" line || contains "EXITING,SIGTER" line || contains "RECONNECTING" line) then some
        true
  else otherResult line

theorem onOther_fst {b : Bool} {line : List Char} (h : otherResult line = some b) (killSwitch : Bool) (s : OpenVpn) :
    (s.onOther killSwitch line).1 = b := by
  unfold otherResult at h
  unfold onOther
  split at h
  · cases h
  split at h
  next hfa => simpa [hfa] using h
  next hfa =>
    split at h
    · cases h
    · simpa [hfa] using h

/-- The loop of `OpenVpn.onReadyRead` goes on behind the same lines. -/
theorem onLine_fst {b : Bool} {line : List Char} (h : lineResult line = some b) (killSwitch : Bool) (s : OpenVpn) :
    (s.onLine killSwitch line).1 = b := by
  unfold lineResult at h
  unfold onLine
  split
  next hi =>
    rw [if_pos hi] at h
    exact onOther_fst h killSwitch _
  next hi =>
    rw [if_neg hi] at h
    split
    next hstate =>
      simp only [hstate, Bool.true_and] at h
      split
      next hc => simpa [hc] using h
      split
      next hc => simpa [hc] using h
      split
      next hc => simpa [hc] using h
      next h1 h2 h3 =>
        simp only [h1, h2, h3, Bool.or_self, Bool.false_eq_true, if_false] at h
        exact onOther_fst h killSwitch s
    next hstate =>
      rw [if_neg (by simp [hstate])] at h
      exact onOther_fst h killSwitch s

/-! ## The socket -/

/-- What `readLine` returns, one call after the other: without a newline it is what there is. -/
def pieces (buffer : List UInt8) : List (List UInt8) :=
  (lines newline buffer).map (· ++ [newline]) ++ if rest newline buffer = [] then [] else [rest newline buffer]

variable (simplified : List UInt8 → List Char)

/-- `onReadyReadDataFromManagementServer`: the lines that are processed, and what stays in the socket. -/
def readLoop : List (List UInt8) → Option (List (List Char) × List UInt8)
  | [] => some ([], [])
  | piece :: rest =>
    let line := simplified piece
    if line = [] then some ([], rest.flatten)
    else
      match lineResult line with
      | none => none
      | some false => some ([line], rest.flatten)
      | some true => (readLoop rest).map fun r => (line :: r.1, r.2)

structure Reader where
  socket : List UInt8
  processed : List (List Char)
  deriving DecidableEq

def readyRead (r : Reader) (chunk : List UInt8) : Option Reader :=
  (readLoop simplified (pieces (r.socket ++ chunk))).map fun read => ⟨read.2, r.processed ++ read.1⟩

def lineText (line : List UInt8) : List Char := simplified (line ++ [newline])

/-- The lines of a stream that are to be processed. -/
def streamLines (stream : List UInt8) : List (List Char) :=
  ((lines newline stream).map (lineText simplified)).filter (· ≠ [])

/-- The chunks of a stream are read without an index out of range, and each line is processed, as a whole and once. -/
def HandledWhole (chunks : List (List UInt8)) : Prop :=
  (chunks.foldlM (readyRead simplified) ⟨[], []⟩).map Reader.processed =
    some (streamLines simplified chunks.flatten)

instance (chunks : List (List UInt8)) : Decidable (HandledWhole simplified chunks) :=
  inferInstanceAs (Decidable (_ = _))

/-- The chunk ends with a line, no line but the last one ends the loop, and no index is out of range. -/
structure Whole (chunk : List UInt8) : Prop where
  ends : rest newline chunk = []
  goesOn : ∀ line ∈ (lines newline chunk).dropLast,
    lineText simplified line ≠ [] ∧ lineResult (lineText simplified line) = some true
  inRange : ∀ line ∈ (lines newline chunk).getLast?, lineText simplified line = [] ∨
    lineResult (lineText simplified line) ≠ none

variable {simplified} {chunk : List UInt8}

theorem readLoop_lines {texts : List (List UInt8)}
    (hg : ∀ line ∈ texts.dropLast, lineText simplified line ≠ [] ∧
      lineResult (lineText simplified line) = some true)
    (hi : ∀ line ∈ texts.getLast?, lineText simplified line = [] ∨
      lineResult (lineText simplified line) ≠ none) :
    readLoop simplified (texts.map (· ++ [newline])) =
    some ((texts.map (lineText simplified)).filter (· ≠ []), []) := by
  induction texts with
  | nil => rfl
  | cons text texts ih =>
    rw [map_cons, readLoop, show simplified (text ++ [newline]) = lineText simplified text from rfl]
    cases texts with
    | nil =>
      by_cases hbl : lineText simplified text = []
      · simp [hbl]
      · obtain ⟨b, hb⟩ := Option.ne_none_iff_exists'.mp ((hi text rfl).resolve_left hbl)
        cases b <;> simp [readLoop, hbl, hb]
    | cons next texts =>
      obtain ⟨hl, ht⟩ := hg text mem_cons_self
      rw [ih (fun line hm => hg line (mem_cons_of_mem text hm)) hi]
      simp [hl, ht]

theorem readyRead_of_whole (h : Whole simplified chunk) (processed : List (List Char)) :
    readyRead simplified ⟨[], processed⟩ chunk = some ⟨[], processed ++ streamLines simplified chunk⟩ := by
  have hp : pieces chunk = (lines newline chunk).map (· ++ [newline]) := by
    rw [pieces, if_pos h.ends, append_nil]
  rw [readyRead, nil_append, hp, readLoop_lines h.goesOn h.inRange]
  rfl

theorem streamLines_append (h : rest newline chunk = []) (stream : List UInt8) :
    streamLines simplified (chunk ++ stream) = streamLines simplified chunk ++ streamLines simplified stream := by
  rw [streamLines, lines_append, h, map_append, filter_append]
  rfl

theorem readyRead_run {chunks : List (List UInt8)} (h : ∀ chunk ∈ chunks, Whole simplified chunk)
    (processed : List (List Char)) : chunks.foldlM (readyRead simplified) ⟨[], processed⟩ =
      some ⟨[], processed ++ streamLines simplified chunks.flatten⟩ := by
  induction chunks generalizing processed with
  | nil => simp [streamLines, lines_of_notMem]
  | cons chunk chunks ih =>
    have hc := h chunk mem_cons_self
    rw [foldlM_cons, readyRead_of_whole hc, flatten_cons, streamLines_append hc.ends, ← append_assoc]
    exact ih (fun chunk hm => h chunk (mem_cons_of_mem _ hm)) _

/-- **The lines are processed whole and once**, if every chunk ends with a line, only its last line ends the loop, and
the lines have what the handlers take out of them. -/
theorem management_lines_whole (simplified : List UInt8 → List Char) (chunks : List (List UInt8))
    (h : ∀ chunk ∈ chunks, Whole simplified chunk) : HandledWhole simplified chunks := by
  rw [HandledWhole, readyRead_run h []]
  rfl

/-! ## Examples -/

/-- `simplified` of a text in ASCII. -/
def asciiSimplified (bytes : List UInt8) : List Char :=
  [' '].intercalate (((bytes.map fun b => Char.ofNat b.toNat).splitOnP Char.isWhitespace).filter (· ≠ []))

def ascii (text : String) : List UInt8 := text.toList.map fun c => c.toNat.toUInt8

theorem management_lines_whole_two :
    HandledWhole asciiSimplified [ascii ">STATE:1,WAIT\n>BYTECOUNT:5,7\n", ascii "FATAL\n"] := by
  refine management_lines_whole _ _ fun chunk hm => ?_
  simp only [mem_cons, not_mem_nil, or_false] at hm
  rcases hm with rfl | rfl
  · exact ⟨by decide, by decide, by decide⟩
  · exact ⟨by decide, by decide, by decide⟩

/-- A line that comes in two chunks is processed in two pieces, a line behind a blank one is not processed, and a
counter without a comma is out of range. -/
theorem management_lines_not_whole : ¬HandledWhole asciiSimplified [ascii ">STATE:1,CONNECTED,", ascii "SUCCESS\n"] ∧
    ¬HandledWhole asciiSimplified [ascii "\n>STATE:1,WAIT\n"] ∧
      ¬HandledWhole asciiSimplified [ascii ">BYTECOUNT:5\n"] := by
  decide

end Cimogus.Client.OpenVpn
