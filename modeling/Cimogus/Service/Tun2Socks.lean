import Cimogus.Lib.Runs
import Cimogus.Lib.Text

/-!
# `IpcProcessTun2Socks`

The service reports that tun2socks is connected when it reads the banner, and that it is disconnected when the process
is over. Every `start` connects the handlers once more, and each connection calls its handler; the banner is looked for
in what is read at once.
-/

namespace Cimogus.Service.IpcProcessTun2Socks

open Lib List

/-- A process that was launched, with the signals that were emitted on its account and the calls of `start` until its
end. -/
structure Process where
  chunks : List String := []
  connected : Nat := 0
  disconnected : Nat := 0
  ended : Bool := false
  starts : Nat := 0

/-- `connections` is how often each handler is connected. -/
structure State where
  connections : Nat := 0
  running : Option Process := none
  past : List Process := []
  starts : Nat := 0

def isBanner (text : String) : Bool :=
  Text.contains text "[STACK] tun://" && Text.contains text "<-> socks5://127.0.0.1"

/-- How many signals `bingus` emits for what it reads. -/
def bingus (line : String) : Nat := if isBanner line then 1 else 0

/-- The first handler reads the chunk, and nothing is left for the others. -/
def readyRead : Nat → String → Nat
  | 0, _ => 0
  | connections + 1, chunk => bingus chunk + connections * bingus ""

inductive Event
  /-- `launches` says whether there is a process afterwards, if there was none. -/
  | start (launches : Bool)
  | stop
  | readyReadStandardOutput (chunk : String)
  | finished

namespace State

/-- Every handler of `finished` emits a signal. If it calls `stop`, no process is running any more. -/
def finish (s : State) : State :=
  match s.running with
  | none => s
  | some p =>
    let p := { p with disconnected := p.disconnected + s.connections, ended := true, starts := s.starts }
    { s with running := none, past := s.past ++ [p] }

/-- `QProcess::start` does nothing while a process runs; `close` kills the process and waits for its end. -/
def step : Event → State → State
  | .start launches, s =>
    { s with
      connections := s.connections + 1
      starts := s.starts + 1
      running := if s.running.isNone ∧ launches = true then some {} else s.running }
  | .readyReadStandardOutput chunk, s =>
    { s with running := s.running.map fun p =>
        { p with chunks := p.chunks ++ [chunk], connected := p.connected + readyRead s.connections chunk } }
  | .stop, s | .finished, s => s.finish

def processes (s : State) : List Process := s.past ++ s.running.toList

end State

/-- The output has a line with the banner. -/
def Process.hasBanner (p : Process) : Bool := (Text.split (String.join p.chunks) '\n').any isBanner

/-- One signal for the banner, and one for the end. -/
def Process.Exact (p : Process) : Prop :=
  p.connected = (if p.hasBanner then 1 else 0) ∧ p.disconnected = if p.ended then 1 else 0

instance (p : Process) : Decidable p.Exact := inferInstanceAs (Decidable (_ ∧ _))

/-- What the signals of a process come down to. -/
structure Process.Counted (p : Process) : Prop where
  connected : p.connected = p.chunks.countP isBanner
  disconnected : p.disconnected = if p.ended then p.starts else 0

structure State.Counted (s : State) : Prop where
  connections : s.connections = s.starts
  processes : ∀ p ∈ s.processes, p.Counted
  running : ∀ p ∈ s.running, 0 < s.connections ∧ p.ended = false

theorem readyRead_eq {connections : Nat} (h : 0 < connections) (chunk : String) :
    readyRead connections chunk = if isBanner chunk then 1 else 0 := by
  obtain ⟨n, rfl⟩ := Nat.exists_eq_add_of_lt h
  have he : bingus "" = 0 := by decide
  rw [readyRead, he, Nat.mul_zero, Nat.add_zero, bingus]

theorem State.Counted.finish {s : State} (h : s.Counted) : s.finish.Counted := by
  unfold State.finish
  split
  · exact h
  next p hp =>
    refine ⟨h.connections, ?_, by simp⟩
    have hpr := h.processes
    have he := (h.running p hp).2
    simp only [State.processes, hp, Option.toList_some, forall_mem_append, forall_mem_singleton] at hpr
    simp only [State.processes, Option.toList_none, append_nil, forall_mem_append, forall_mem_singleton]
    refine ⟨hpr.1, hpr.2.connected, ?_⟩
    rw [hpr.2.disconnected, he, h.connections]
    simp

theorem State.Counted.step (e : Event) {s : State} (h : s.Counted) : (s.step e).Counted := by
  cases e with
  | stop => exact h.finish
  | finished => exact h.finish
  | start launches =>
    have hpr := forall_mem_append.mp h.processes
    refine ⟨congrArg (· + 1) h.connections, forall_mem_append.mpr ⟨hpr.1, ?_⟩, ?_⟩
    · simp only [State.step]
      split
      · simpa using ⟨rfl, rfl⟩
      · exact hpr.2
    · simp only [State.step]
      split
      · simp
      · exact fun p hp => ⟨Nat.succ_pos _, (h.running p hp).2⟩
  | readyReadStandardOutput chunk =>
    cases hrunning : s.running with
    | none =>
      have hs : s.step (.readyReadStandardOutput chunk) = s := by
        rw [State.step, hrunning, Option.map_none, ← hrunning]
      rwa [hs]
    | some p =>
      obtain ⟨hpo, he⟩ := h.running p hrunning
      have hpr := forall_mem_append.mp h.processes
      rw [hrunning, Option.toList_some, forall_mem_singleton] at hpr
      refine ⟨h.connections, forall_mem_append.mpr ⟨hpr.1, ?_⟩, ?_⟩
      · simp only [State.step, hrunning, Option.map_some, Option.toList_some, forall_mem_singleton]
        refine ⟨?_, hpr.2.disconnected⟩
        rw [hpr.2.connected, readyRead_eq hpo, countP_append, countP_singleton]
      · simpa [State.step, hrunning] using ⟨hpo, he⟩

theorem Process.Counted.exact_iff {p : Process} (h : p.Counted) :
    p.Exact ↔ p.chunks.countP isBanner = (if p.hasBanner then 1 else 0) ∧ (p.ended = true → p.starts = 1) := by
  rw [Process.Exact, h.connected, h.disconnected]
  cases p.ended <;> simp

/-- **The signals are exact** just if in every process as many chunks have both parts of the banner as it should be
reported connected, and `start` was called once until its end. -/
theorem signals_exact_iff (events : List Event) :
    (∀ p ∈ (Runs.run State.step events {}).processes, p.Exact) ↔
      ∀ p ∈ (Runs.run State.step events {}).processes,
      p.chunks.countP isBanner = (if p.hasBanner then 1 else 0) ∧ (p.ended = true → p.starts = 1) := by
  have hi : State.Counted {} := ⟨rfl, by simp [State.processes], by simp⟩
  have hc := Runs.run_invariant (fun e s => State.Counted.step e) events hi
  exact forall₂_congr fun p hp => (hc.processes p hp).exact_iff

/-- A second process is reported disconnected twice, and a banner that is read in two chunks not at all. -/
theorem signals_not_exact :
    (¬ ∀ p ∈ (Runs.run State.step [.start true, .finished, .start true, .finished] {}).processes, p.Exact) ∧
    ¬ ∀ p ∈ (Runs.run State.step [.start true, .readyReadStandardOutput "[STACK] tun://tun3 <-> so",
      .readyReadStandardOutput "cks5://127.0.0.1:10833\n"] {}).processes, p.Exact := by
  decide

end Cimogus.Service.IpcProcessTun2Socks
