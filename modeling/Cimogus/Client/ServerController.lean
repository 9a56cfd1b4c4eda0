import Cimogus.Client.Servers
import Cimogus.Client.VpnProtocol
import Cimogus.Lib.Hex
import Cimogus.Lib.Text

/-!
# Scripts on the server

`ServerController::runScript` sends a script to the server line by line; lines that end in a backslash are kept until
one that does not. `Client::executeCommand` reads what a command prints in chunks of at most 2048 bytes and hands each
of them over as a text.
-/

namespace Cimogus.Client

open Lib Lib.Text List

/-! ## Commands -/

namespace Ssh

def ascii (bytes : List UInt8) : String := String.ofList (bytes.map fun b => Char.ofNat b.toNat)

/-- `QString::fromUtf8` and `toUtf8`. -/
structure Utf8 where
  fromUtf8 : List UInt8 → String
  toUtf8 : String → List UInt8
  fromUtf8_ascii : ∀ bytes, (∀ b ∈ bytes, b.toNat < 128) → fromUtf8 bytes = ascii bytes
  toUtf8_ascii : ∀ bytes, (∀ b ∈ bytes, b.toNat < 128) → toUtf8 (ascii bytes) = bytes

/-- What `ssh_get_error_code` can be. -/
inductive LibsshError
  | SSH_NO_ERROR
  | SSH_REQUEST_DENIED
  | SSH_EINTR
  | SSH_FATAL
  deriving DecidableEq

/-- Nothing is `NoError`; the others are `SshTimeoutError`, `SshRequestDeniedError`, `SshInterruptedError` and
`SshInternalError`. -/
def fromLibsshErrorCode (code : LibsshError) (errorMessage : String) : Option ErrorCode :=
  if code ≠ .SSH_NO_ERROR ∧ Text.contains errorMessage "Timeout connecting to" = true then some (.other 305)
  else
    match code with
    | .SSH_NO_ERROR => none
    | .SSH_REQUEST_DENIED => some (.other 300)
    | .SSH_EINTR => some (.other 301)
    | .SSH_FATAL => some (.other 302)

structure Execution where
  /-- There is an open channel. -/
  opened : Bool
  /-- `ssh_channel_request_exec`. -/
  requested : Bool
  /-- What `ssh_channel_read` gives until there is nothing more. -/
  stdOut : List (List UInt8)
  stdErr : List (List UInt8)
  code : LibsshError
  message : String

def Execution.closeChannel (x : Execution) : Option ErrorCode := fromLibsshErrorCode x.code x.message

variable {σ τ : Type} (utf8 : Utf8)

/-- A function that is called with the texts that are read. -/
abbrev Callback (σ : Type) := Option (String → σ → Option ErrorCode × σ)

/-- A chunk ends at its first null for `QString`. -/
def chunkText (chunk : List UInt8) : String := utf8.fromUtf8 (chunk.takeWhile (· ≠ 0))

def readOutput (cb : Callback σ) : List (List UInt8) → σ → Option ErrorCode × σ
  | [], s => (none, s)
  | chunk :: chunks, s =>
    match cb with
    | none => readOutput cb chunks s
    | some f =>
      match f (chunkText utf8 chunk) s with
      | (some error, s) => (some error, s)
      | (none, s) => readOutput cb chunks s

/-- The server has a state of its own. -/
def executeCommand (server : String → τ → Execution × τ) (cbReadStdOut cbReadStdErr : Callback σ)
    (data : String) :
    τ × σ → Option ErrorCode × τ × σ := fun (t, s) =>
  let (x, t) := server data t
  if x.opened && x.requested then
    match readOutput utf8 cbReadStdOut x.stdOut s with
    | (some error, s) => (some error, t, s)
    | (none, s) =>
      match readOutput utf8 cbReadStdErr x.stdErr s with
      | (some error, s) => (some error, t, s)
      | (none, s) => (x.closeChannel, t, s)
  else (x.closeChannel, t, s)

end Ssh

/-! ## Scripts -/

variable {lines : List String}

namespace ServerController

variable {σ τ : Type} (execute : String → σ → Option ErrorCode × σ)

def runLines : String → List String → σ → Option ErrorCode × σ
  | _, [], s => (none, s)
  | totalLine, currentLine :: lines, s =>
    let totalLine := if totalLine = "" then currentLine else totalLine ++ "\n" ++ currentLine
    if endsWith currentLine "\\" then runLines totalLine lines s
    else if Text.startsWith totalLine "#" then runLines "" lines s
    else
      match execute totalLine s with
      | (some error, s) => (some error, s)
      | (none, s) => runLines "" lines s

def scriptLines (script : String) : List String := (split (remove "\r" script) '\n').filter (· ≠ "")

/-- The connection comes first. -/
def runScript (connectToHost : Option ErrorCode) (script : String) (s : σ) : Option ErrorCode × σ :=
  match connectToHost with
  | some error => (some error, s)
  | none => runLines execute "" (scriptLines script) s

/-! ## What a script should execute -/

/-- The lines, those that end in a backslash joined with the next one. -/
def joined : List String → List String
  | [] => []
  | line :: lines =>
    if endsWith line "\\" then
      match joined lines with
      | [] => [line]
      | next :: rest => (line ++ "\n" ++ next) :: rest
    else line :: joined lines

def isCommand (line : String) : Bool := !Text.startsWith line "#"

def commands (script : String) : List String := (joined (scriptLines script)).filter isCommand

/-- The commands up to the first one with an error. -/
def executed : List String → σ → List String
  | [], _ => []
  | command :: commands, s =>
    command ::
      match execute command s with
      | (some _, _) => []
      | (none, s) => executed commands s

/-! ## What it executes -/

def runAll : List String → σ → Option ErrorCode × σ
  | [], s => (none, s)
  | command :: commands, s =>
    match execute command s with
    | (some error, s) => (some error, s)
    | (none, s) => runAll commands s

def nextTotal (totalLine currentLine : String) : String :=
  if totalLine = "" then currentLine else totalLine ++ "\n" ++ currentLine

def completedFrom : String → List String → List String
  | _, [] => []
  | totalLine, line :: lines =>
    if endsWith line "\\" then completedFrom (nextTotal totalLine line) lines
      else nextTotal totalLine line :: completedFrom "" lines

def keptFrom : String → List String → Option String
  | totalLine, [] => if totalLine = "" then none else some totalLine
  | totalLine, line :: lines =>
    if endsWith line "\\" then keptFrom (nextTotal totalLine line) lines else keptFrom "" lines

variable {execute}

theorem runLines_eq (totalLine : String) (lines : List String) (s : σ) :
    runLines execute totalLine lines s = runAll execute ((completedFrom totalLine lines).filter isCommand) s := by
  induction lines generalizing totalLine s with
  | nil => rfl
  | cons line lines ih =>
    have ht : (if totalLine = "" then line else totalLine ++ "\n" ++ line) = nextTotal totalLine line := rfl
    simp only [runLines, completedFrom, ht]
    split
    · exact ih _ s
    · by_cases hc : Text.startsWith (nextTotal totalLine line) "#" = true
      · rw [if_pos hc, filter_cons_of_neg (by simp [isCommand, hc])]
        exact ih _ s
      · rw [if_neg hc, filter_cons_of_pos (by simpa [isCommand] using hc), runAll]
        split
        · rfl
        · exact ih _ _

def executedLines (script : String) : List String := (completedFrom "" (scriptLines script)).filter isCommand

theorem runScript_eq (script : String) (s : σ) :
    runScript execute none script s = runAll execute (executedLines script) s :=
  runLines_eq "" (scriptLines script) s

/-- The joined lines behind what is kept of the ones before. -/
def joinedFrom (totalLine : String) (lines : List String) : List String :=
  match joined lines with
  | [] => if totalLine = "" then [] else [totalLine]
  | next :: rest => nextTotal totalLine next :: rest

theorem joinedFrom_empty (lines : List String) : joinedFrom "" lines = joined lines := by
  unfold joinedFrom
  split
  next h => rw [h, if_pos rfl]
  next next rest h => rw [h, nextTotal, if_pos rfl]

theorem nextTotal_ne_empty {totalLine line : String} (h : line ≠ "") : nextTotal totalLine line ≠ "" := by
  unfold nextTotal
  split
  · exact h
  · intro heq
    have hl := congrArg String.length heq
    simp at hl

theorem nextTotal_nextTotal {totalLine line next : String} (h : line ≠ "") :
    nextTotal totalLine (line ++ "\n" ++ next) = nextTotal (nextTotal totalLine line) next := by
  rw [nextTotal.eq_def (nextTotal totalLine line), if_neg (nextTotal_ne_empty h)]
  unfold nextTotal
  split
  · rfl
  · simp only [String.append_assoc]

theorem joinedFrom_eq (h : ∀ line ∈ lines, line ≠ "") (totalLine : String) :
    joinedFrom totalLine lines = completedFrom totalLine lines ++ (keptFrom totalLine lines).toList := by
  induction lines generalizing totalLine with
  | nil =>
    simp only [joinedFrom, joined, completedFrom, keptFrom, nil_append]
    split <;> rfl
  | cons line lines ih =>
    have hne : line ≠ "" := h line mem_cons_self
    have hnext := ih fun line hl => h line (mem_cons_of_mem _ hl)
    unfold completedFrom keptFrom
    by_cases he : endsWith line "\\" = true
    · rw [if_pos he, if_pos he, ← hnext]
      unfold joinedFrom
      rw [joined, if_pos he]
      cases joined lines with
      | nil => simp only [if_neg (nextTotal_ne_empty hne)]
      | cons next rest => simp only [nextTotal_nextTotal hne]
    · rw [if_neg he, if_neg he, cons_append, ← hnext, joinedFrom_empty]
      unfold joinedFrom
      rw [joined, if_neg he]

/-- The last joined line, if the last line of the script ends in a backslash. -/
def kept (lines : List String) : Option String :=
  if lines.getLast?.any (endsWith · "\\") then (joined lines).getLast? else none

variable (h : ∀ line ∈ lines, line ≠ "")

include h

theorem isSome_keptFrom (hne : lines ≠ []) (totalLine : String) :
    (keptFrom totalLine lines).isSome = lines.getLast?.any (endsWith · "\\") := by
  induction lines generalizing totalLine with
  | nil => exact absurd rfl hne
  | cons line lines ih =>
    have hl : line ≠ "" := h line mem_cons_self
    cases lines with
    | nil =>
      rw [keptFrom, getLast?_singleton, Option.any_some]
      cases endsWith line "\\" with
      | false => rfl
      | true => simp [keptFrom, nextTotal_ne_empty hl]
    | cons next lines =>
      have hnext := ih (fun line hl => h line (mem_cons_of_mem _ hl)) (cons_ne_nil _ _)
      rw [keptFrom]
      split <;> exact hnext _

theorem keptFrom_empty : keptFrom "" lines = kept lines := by
  by_cases hne : lines = []
  · subst hne
    rfl
  · have hs := isSome_keptFrom h hne ""
    have hjo := (joinedFrom_empty lines).symm.trans (joinedFrom_eq h "")
    rw [kept, ← hs, hjo]
    cases keptFrom "" lines with
    | none => rfl
    | some line => simp

theorem joined_eq : joined lines = completedFrom "" lines ++ (kept lines).toList := by
  rw [← keptFrom_empty h, ← joinedFrom_eq h, joinedFrom_empty]

omit h

theorem ne_empty_of_mem_scriptLines {script line : String} (h : line ∈ scriptLines script) : line ≠ "" := by
  simpa using (mem_filter.mp h).2

/-! ## The commands that are executed -/

def logged (execute : String → σ → Option ErrorCode × σ) (command : String) :
    σ × List String → Option ErrorCode × σ × List String :=
  fun (s, log) => ((execute command s).1, (execute command s).2, log ++ [command])

theorem runAll_logged (commands : List String) (s : σ) (log : List String) :
    (runAll (logged execute) commands (s, log)).2.2 = log ++ executed execute commands s := by
  induction commands generalizing s log with
  | nil => simp [runAll, executed]
  | cons command commands ih =>
    rw [runAll, executed, logged]
    rcases he : execute command s with ⟨_ | error, s'⟩
    · simp only [ih, append_assoc, singleton_append]
    · rfl

theorem executed_append (first second : List String) (s : σ) :
    executed execute (first ++ second) s = executed execute first s ++
      match runAll execute first s with
      | (some _, _) => []
      | (none, s) => executed execute second s := by
  induction first generalizing s with
  | nil => rfl
  | cons command first ih =>
    rw [cons_append, executed, executed, runAll, cons_append]
    rcases execute command s with ⟨_ | error, s'⟩
    · simp only [ih]
    · rfl

/-- **Scripts.** A script executes its commands up to the first error unless its last line ends in a backslash and what
is joined with it is a command that would be reached. -/
theorem runScript_executed_iff (script : String) (s : σ) :
    (runScript (logged execute) none script (s, [])).2.2 = executed execute (commands script) s ↔
      (∀ line ∈ kept (scriptLines script), isCommand line = false) ∨
        (runAll execute ((joined (scriptLines script)).dropLast.filter isCommand) s).1 ≠ none := by
  have hjo := joined_eq fun line (hl : line ∈ scriptLines script) => ne_empty_of_mem_scriptLines hl
  rw [runScript_eq, runAll_logged, nil_append, commands, executedLines]
  cases hk : kept (scriptLines script) with
  | none =>
    rw [hk] at hjo
    rw [hjo]
    simp
  | some line =>
    rw [hk, Option.toList_some] at hjo
    rw [hjo, dropLast_concat, filter_append, executed_append]
    simp only [Option.mem_some_iff, forall_eq']
    rcases hr : runAll execute ((completedFrom "" (scriptLines script)).filter isCommand) s with ⟨_ | error, s'⟩
    · cases hc : isCommand line <;> simp [hc, executed]
    · simp

/-- The only line of the script is not executed. -/
theorem continued_line_not_executed :
    let execute := fun (_ : String) (s : Unit) => ((none : Option ErrorCode), s)
    (runScript (logged execute) none "echo a\\" ((), [])).2.2 = [] ∧
      executed execute (commands "echo a\\") () = ["echo a\\"] := by
  decide

/-! ## Reading a file -/

open Ssh

/-- `ContainerProps::containerToString`. -/
def containerToString : DockerContainer → String
  | .None => "none"
  | .Cloak => "amnezia-openvpn-cloak"
  | .Awg => "amnezia-awg"
  | .WireGuard => "amnezia-wireguard"
  | .OpenVpn => "amnezia-openvpn"
  | .ShadowSocks => "amnezia-shadowsocks"
  | .Ipsec => "amnezia-ipsec"
  | .Xray => "amnezia-xray"
  | .SSXray => "amnezia-ssxray"
  | .TorWebSite => "amnezia-torwebsite"
  | .Dns => "amnezia-dns"
  | .Sftp => "amnezia-sftp"
  | .Socks5Proxy => "amnezia-socks5proxy"

def dumpScript (container : DockerContainer) (path : String) : String :=
  "sudo docker exec -i " ++ containerToString container ++ " sh -c \"xxd -p '" ++ path ++ "'\""

def cbReadStdOut (data : String) (stdOut : String) : Option ErrorCode × String := (none, stdOut ++ data)

variable (utf8 : Utf8) (server : String → τ → Execution × τ)

def getTextFileFromContainer (connectToHost : Option ErrorCode) (container : DockerContainer) (path : String) (t : τ) :
    List UInt8 × Option ErrorCode :=
  let (errorCode, _, stdOut) :=
    runScript (executeCommand utf8 server (some cbReadStdOut) none) connectToHost (dumpScript container path) (t, "")
  (Hex.fromHex (utf8.toUtf8 stdOut), errorCode)

/-- The chunks that are read while commands are executed. -/
def chunksRead : List String → τ → List (List UInt8)
  | [], _ => []
  | command :: commands, t =>
    let (x, t) := server command t
    (if x.opened && x.requested then x.stdOut else []) ++ if x.closeChannel = none then chunksRead commands t else []

variable {utf8 server}

theorem readOutput_cbReadStdOut (chunks : List (List UInt8)) (stdOut : String) :
    readOutput utf8 (some cbReadStdOut) chunks stdOut =
    (none, stdOut ++ String.join (chunks.map (chunkText utf8))) := by
  induction chunks generalizing stdOut with
  | nil => simp [readOutput]
  | cons chunk chunks ih =>
    rw [readOutput]
    simp only [cbReadStdOut, ih, map_cons, String.join_cons, String.append_assoc]

theorem readOutput_none (chunks : List (List UInt8)) (s : σ) : readOutput utf8 none chunks s = (none, s) := by
  induction chunks with
  | nil => rfl
  | cons chunk chunks ih => exact ih

theorem executeCommand_cbReadStdOut (command : String) (t : τ) (stdOut : String) :
    executeCommand utf8 server (some cbReadStdOut) none command (t, stdOut) =
      ((server command t).1.closeChannel, (server command t).2, stdOut ++ String.join
        ((if (server command t).1.opened && (server command t).1.requested then (server command t).1.stdOut else []).map
          (chunkText utf8))) := by
  rw [executeCommand]
  rcases server command t with ⟨x, t'⟩
  cases hr : x.opened && x.requested with
  | false => simp [hr]
  | true => simp only [hr, if_true, readOutput_cbReadStdOut, readOutput_none]

/-- The chunks make up the text. -/
theorem runAll_cbReadStdOut (commands : List String) (t : τ) (stdOut : String) :
    (runAll (executeCommand utf8 server (some cbReadStdOut) none) commands (t, stdOut)).2.2 =
      stdOut ++ String.join ((chunksRead server commands t).map (chunkText utf8)) := by
  induction commands generalizing t stdOut with
  | nil => simp [runAll, chunksRead]
  | cons command commands ih =>
    rw [runAll, executeCommand_cbReadStdOut, chunksRead]
    cases he : (server command t).1.closeChannel with
    | none => simp only [ih, he, if_true, map_append, String.join_append, String.append_assoc]
    | some error => simp [he]

/-! ## Texts in ASCII -/

theorem ascii_append (a b : List UInt8) : ascii (a ++ b) = ascii a ++ ascii b := by
  rw [ascii, ascii, ascii, map_append, String.ofList_append]

theorem join_map_chunkText {chunks : List (List UInt8)} (h : ∀ b ∈ chunks.flatten, b ≠ 0 ∧ b.toNat < 128) :
    String.join (chunks.map (chunkText utf8)) = ascii chunks.flatten := by
  induction chunks with
  | nil => rfl
  | cons chunk chunks ih =>
    rw [flatten_cons, forall_mem_append] at h
    have hw : chunk.takeWhile (· ≠ 0) = chunk := takeWhile_eq_self_iff.mpr fun b hb => by simpa using (h.1 b hb).1
    rw [map_cons, String.join_cons, ih h.2, flatten_cons, ascii_append, chunkText, hw,
      utf8.fromUtf8_ascii chunk fun b hb => (h.1 b hb).2]

theorem getTextFileFromContainer_fst (connectToHost : Option ErrorCode) (container : DockerContainer)
    (path : String) (t : τ) :
    (getTextFileFromContainer utf8 server connectToHost container path t).1 = Hex.fromHex (utf8.toUtf8
      (runScript (executeCommand utf8 server (some cbReadStdOut) none) connectToHost (dumpScript container path)
        (t, "")).2.2) :=
  rfl

/-- **Files.** What is read is the file whose dump the chunks make up. -/
theorem getTextFileFromContainer_eq {container : DockerContainer} {path : String} {t : τ}
    {content : List UInt8} {n : Nat}
    (hread : (chunksRead server (executedLines (dumpScript container path)) t).flatten =
      Hex.dump 30 content ++ List.replicate n Hex.newline) :
    (getTextFileFromContainer utf8 server none container path t).1 = content := by
  have ha : ∀ b ∈ Hex.dump 30 content ++ List.replicate n Hex.newline, b ≠ 0 ∧ b.toNat < 128 := by
    refine forall_mem_append.mpr ⟨Hex.dumpFrom_ascii 30 0 content, fun b hb => ?_⟩
    obtain ⟨-, rfl⟩ := mem_replicate.mp hb
    decide
  have hs : (runScript (executeCommand utf8 server (some cbReadStdOut) none) none (dumpScript container path)
    (t, "")).2.2 =
      ascii (Hex.dump 30 content ++ List.replicate n Hex.newline) := by
    rw [runScript_eq, runAll_cbReadStdOut, join_map_chunkText (by rw [hread]; exact ha), hread, String.empty_append]
  rw [getTextFileFromContainer_fst, hs, utf8.toUtf8_ascii _ fun b hb => (ha b hb).2, Hex.fromHex_dump]

theorem scriptLines_of_line {script : String} (hne : script ≠ "") (hl : '\n' ∉ script.toList)
    (hcr : '\r' ∉ script.toList) :
    scriptLines script = [script] := by
  have hr : remove "\r" script = script := remove_of_not_infix fun hp => hcr (hp.subset (mem_singleton_self '\r'))
  rw [scriptLines, hr, split, splitOn_eq_singleton hl]
  simp [hne]

theorem containerToString_plain (container : DockerContainer) :
    '\n' ∉ (containerToString container).toList ∧ '\r' ∉ (containerToString container).toList := by
  cases container <;> decide

/-- A command in one line. -/
theorem executedLines_of_line {script : String} (hl : '\n' ∉ script.toList) (hcr : '\r' ∉ script.toList)
    (hh : ∀ c ∈ script.toList.head?, c ≠ '#') {c : Char} (hlast : script.toList.getLast? = some c)
    (hc : c ≠ '\\') :
    executedLines script = [script] := by
  have hne : script ≠ "" := by
    rintro rfl
    cases hlast
  have he : endsWith script "\\" = false := by
    refine Bool.eq_false_iff.mpr fun he => ?_
    obtain ⟨rest, hrest⟩ := isSuffixOf_iff_suffix.mp he
    rw [← hrest, show "\\".toList = ['\\'] from rfl, getLast?_concat] at hlast
    exact hc (Option.some.inj hlast).symm
  have hs : Text.startsWith script "#" = false := by
    refine Bool.eq_false_iff.mpr fun hs => ?_
    obtain ⟨rest, hrest⟩ := isPrefixOf_iff_prefix.mp hs
    exact hh '#' (by rw [← hrest]; rfl) rfl
  simp [executedLines, scriptLines_of_line hne hl hcr, completedFrom, he, nextTotal, isCommand, hs]

theorem executedLines_dumpScript (container : DockerContainer) {path : String} (hl : '\n' ∉ path.toList)
    (hcr : '\r' ∉ path.toList) :
    executedLines (dumpScript container path) = [dumpScript container path] := by
  obtain ⟨hna, hnam⟩ := containerToString_plain container
  have hm : ∀ c, c ∈ (dumpScript container path).toList ↔ c ∈ "sudo docker exec -i ".toList ∨
      c ∈ (containerToString container).toList ∨ c ∈ " sh -c \"xxd -p '".toList ∨ c ∈ path.toList ∨
      c ∈ "'\"".toList := by
    intro c
    unfold dumpScript
    simp only [String.toList_append, mem_append, or_assoc]
  have hlast : (dumpScript container path).toList.getLast? = some '"' := by
    unfold dumpScript
    rw [String.toList_append, getLast?_append]
    rfl
  have hh : ∀ c ∈ (dumpScript container path).toList.head?, c ≠ '#' := by
    unfold dumpScript
    simp only [String.toList_append, head?_append]
    intro c hc
    rw [← Option.some.inj hc]
    decide
  refine executedLines_of_line ?_ ?_ hh hlast (by decide)
  · simp only [hm, hna, hl, not_or, not_false_eq_true, true_and]
    decide
  · simp only [hm, hnam, hcr, not_or, not_false_eq_true, true_and]
    decide

def plainUtf8 : Utf8 where
  fromUtf8 := ascii
  toUtf8 text := text.toList.map fun c => c.toNat.toUInt8
  fromUtf8_ascii _ _ := rfl
  toUtf8_ascii bytes h := by
    have hbyte : ∀ b ∈ bytes, (Char.ofNat b.toNat).toNat.toUInt8 = b := fun b hb => by
      have hchar : (Char.ofNat b.toNat).toNat = b.toNat :=
        (by decide : ∀ n : Fin 128, (Char.ofNat n).toNat = n.val) ⟨b.toNat, h b hb⟩
      rw [hchar]
      simp
    rw [ascii, String.toList_ofList, map_map]
    exact (map_congr_left hbyte).trans (map_id' bytes)

/-- The dump of two bytes comes in three chunks, one of which begins inside a byte. -/
theorem getTextFileFromContainer_eq_in_chunks :
    let x : Execution := ⟨true, true, [[0x30], [0x31, 0x66], [0x66, Hex.newline]], [], .SSH_NO_ERROR, ""⟩
    (getTextFileFromContainer plainUtf8 (fun _ t => (x, t)) none .Awg "/opt/amnezia/awg/wg0.conf" ()).1 =
      [0x01, 0xff] := by
  intro x
  refine getTextFileFromContainer_eq (n := 1) ?_
  rw [executedLines_dumpScript .Awg (by decide) (by decide)]
  decide

end ServerController

end Cimogus.Client
