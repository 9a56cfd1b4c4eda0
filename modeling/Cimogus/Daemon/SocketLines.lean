import Cimogus.Lib.Lines
import Cimogus.Lib.Runs
import Mathlib.Data.List.DropRight

/-!
# The lines on the daemon's socket

The two ends of the socket read commands, one on a line: `DaemonLocalServerConnection::readData` reads the socket again
whenever its buffer has no line, until there is nothing more, and `LocalSocketController::readData` reads it once. What
`parseCommand` does is a parameter; neither end touches its buffer there. `readyRead` is not emitted again while it is
handled.
-/

namespace Cimogus.Daemon

open Lib.Lines Lib.Runs List

def newline : UInt8 := 10

/-- The blanks of `QByteArray::trimmed`. -/
def isBlank (b : UInt8) : Bool := b = 32 || (9 ≤ b && b ≤ 13)

def trimmed (line : List UInt8) : List UInt8 := (line.dropWhile isBlank).rdropWhile isBlank

/-- One end of the socket: its buffer, and what `parseCommand` works on. -/
structure SocketEnd (σ : Type) where
  buffer : List UInt8
  state : σ

/-- What one `readAll` returns, unless there is nothing to read. -/
abbrev Chunk := {bytes : List UInt8 // bytes ≠ []}

variable {σ : Type} (parseCommand : List UInt8 → σ → σ)

def handleLine (line : List UInt8) (s : σ) : σ :=
  let command := trimmed line
  if command = [] then s else parseCommand command s

theorem length_takeLine {buffer line rest : List UInt8} (h : takeLine newline buffer = some (line, rest)) :
    rest.length < buffer.length := by
  rw [(takeLine_eq_some_iff.mp h).1]
  simp
  omega

/-- `reads` is what `readAll` returns while the call lasts, before it returns nothing. -/
def DaemonLocalServerConnection.readData (reads : List Chunk) (e : SocketEnd σ) : SocketEnd σ :=
  match h : takeLine newline e.buffer with
  | none =>
    match reads with
    | [] => e
    | input :: reads => readData reads ⟨e.buffer ++ input.1, e.state⟩
  | some (line, buffer) =>
    have := length_takeLine h
    readData reads ⟨buffer, handleLine parseCommand line e.state⟩
termination_by (reads.length, e.buffer.length)

namespace LocalSocketController

def readLoop (e : SocketEnd σ) : SocketEnd σ :=
  match h : takeLine newline e.buffer with
  | none => e
  | some (line, buffer) =>
    have := length_takeLine h
    readLoop ⟨buffer, handleLine parseCommand line e.state⟩
termination_by e.buffer.length

def readData (input : List UInt8) (e : SocketEnd σ) : SocketEnd σ :=
  readLoop parseCommand ⟨e.buffer ++ input, e.state⟩

end LocalSocketController

/-! ## The stream -/

def commands (stream : List UInt8) : List (List UInt8) := ((lines newline stream).map trimmed).filter (· ≠ [])

/-- The end of the socket after a stream: its commands are carried out, and the rest is in the buffer. -/
def afterStream (stream : List UInt8) (s : σ) : SocketEnd σ :=
  ⟨rest newline stream, run parseCommand (commands stream) s⟩

theorem commands_append (s t : List UInt8) : commands (s ++ t) = commands s ++ commands (rest newline s ++ t) := by
  rw [commands, lines_append, map_append, filter_append, commands, commands]

variable {parseCommand}

theorem afterStream_of_notMem {stream : List UInt8} (h : newline ∉ stream) (s : σ) :
    afterStream parseCommand stream s = ⟨stream, s⟩ := by
  rw [afterStream, rest_of_notMem h, commands, lines_of_notMem h]
  rfl

theorem afterStream_cut {line stream : List UInt8} (h : newline ∉ line) (s : σ) :
    afterStream parseCommand (line ++ newline :: stream) s =
    afterStream parseCommand stream (handleLine parseCommand line s) := by
  rw [afterStream, rest_cut h, commands, lines_cut h, map_cons, handleLine]
  by_cases hb : trimmed line = []
  · rw [filter_cons_of_neg (by simpa using hb), if_pos hb]
    rfl
  · rw [filter_cons_of_pos (by simpa using hb), if_neg hb]
    rfl

/-- The rest of a stream is the start of the next one. -/
theorem afterStream_append (first second : List UInt8) (s : σ) : afterStream parseCommand (first ++ second) s =
      afterStream parseCommand (rest newline first ++ second) (afterStream parseCommand first s).state := by
  rw [afterStream, commands_append, rest_append, run_append]
  rfl

/-! ## The readers -/

theorem afterStream_of_takeLine {buffer line rest : List UInt8} (h : takeLine newline buffer = some (line, rest))
    (more : List UInt8) (s : σ) :
    afterStream parseCommand (buffer ++ more) s = afterStream parseCommand (rest ++ more)
      (handleLine parseCommand line s) := by
  obtain ⟨rfl, hl⟩ := takeLine_eq_some_iff.mp h
  rw [append_assoc, cons_append, afterStream_cut hl]

theorem DaemonLocalServerConnection.readData_eq (reads : List Chunk) (e : SocketEnd σ) :
    readData parseCommand reads e = afterStream parseCommand (e.buffer ++ (reads.map Subtype.val).flatten) e.state := by
  fun_induction readData parseCommand reads e with
  | case1 e hno =>
    rw [map_nil, flatten_nil, append_nil, afterStream_of_notMem (takeLine_eq_none_iff.mp hno)]
  | case2 e hno input reads ih => rw [ih, map_cons, flatten_cons, append_assoc]
  | case3 reads e line buffer hs _ ih => rw [ih, afterStream_of_takeLine hs]

theorem LocalSocketController.readLoop_eq (e : SocketEnd σ) :
    readLoop parseCommand e = afterStream parseCommand e.buffer e.state := by
  fun_induction readLoop parseCommand e with
  | case1 e hno => rw [afterStream_of_notMem (takeLine_eq_none_iff.mp hno)]
  | case2 e line buffer hs _ ih =>
    obtain ⟨hb, hl⟩ := takeLine_eq_some_iff.mp hs
    rw [ih, hb, afterStream_cut hl]

theorem LocalSocketController.readData_eq (input : List UInt8) (e : SocketEnd σ) :
    readData parseCommand input e = afterStream parseCommand (e.buffer ++ input) e.state := by
  rw [readData, readLoop_eq]

theorem run_reader {ι : Type} {bytes : ι → List UInt8} {read : ι → SocketEnd σ → SocketEnd σ}
    (hr : ∀ event e, read event e = afterStream parseCommand (e.buffer ++ bytes event) e.state) (events : List ι)
    (stream : List UInt8) (s : σ) :
    run read events (afterStream parseCommand stream s) =
    afterStream parseCommand (stream ++ (events.map bytes).flatten) s := by
  induction events generalizing stream with
  | nil => rw [run_nil, map_nil, flatten_nil, append_nil]
  | cons event events ih =>
    have hs : read event (afterStream parseCommand stream s) = afterStream parseCommand (stream ++ bytes event) s := by
      rw [hr, afterStream_append stream]
      rfl
    rw [run_cons, hs, ih, map_cons, flatten_cons, append_assoc]

/-- **The framing does not depend on the chunks.** The daemon's end gets the stream in events with any reads in each,
the controller's in chunks: both carry out the trimmed lines that are not blank, in order, and keep what has no newline
yet. -/
theorem readers_framing (parseCommand : List UInt8 → σ → σ) (stream : List UInt8) (s : σ) :
    (∀ events : List (List Chunk), (events.flatten.map Subtype.val).flatten = stream →
      run (DaemonLocalServerConnection.readData parseCommand) events ⟨[], s⟩ =
        ⟨rest newline stream, run parseCommand (commands stream) s⟩) ∧
      (∀ chunks : List (List UInt8), chunks.flatten = stream →
      run (LocalSocketController.readData parseCommand) chunks ⟨[], s⟩ =
        ⟨rest newline stream, run parseCommand (commands stream) s⟩) := by
  have he : (⟨[], s⟩ : SocketEnd σ) = afterStream parseCommand [] s := (afterStream_of_notMem not_mem_nil s).symm
  constructor
  · rintro events rfl
    have hb : (events.flatten.map Subtype.val).flatten =
        (events.map fun reads => (reads.map Subtype.val).flatten).flatten := by
      rw [map_flatten, flatten_flatten, map_map]
      rfl
    rw [he, run_reader DaemonLocalServerConnection.readData_eq, nil_append, hb]
    rfl
  · rintro chunks rfl
    have hr : ∀ input e, LocalSocketController.readData parseCommand input e =
        afterStream parseCommand (e.buffer ++ id input) e.state := LocalSocketController.readData_eq
    rw [he, run_reader hr, nil_append, map_id]
    rfl

end Cimogus.Daemon
