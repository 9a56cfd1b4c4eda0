import Cimogus.Lib.Runs
import Mathlib.Logic.Function.Basic
import Mathlib.Tactic.Common

/-!
# `PingHelper`

The data of the last 32 pings, at their 16-bit sequence numbers modulo 32. `sent`, the times of the pings since `start`,
is not in the source.
-/

namespace Cimogus.Client

open List Lib.Runs

structure PingSendData where
  (timestamp latency : Int)
  sequence : Nat

structure PingHelper where
  sequence : Nat
  pingData : Nat → PingSendData
  sent : List Int

namespace PingHelper

def start : PingHelper := ⟨0, fun _ => ⟨-1, -1, 0⟩, []⟩

def nextPing (now : Int) (s : PingHelper) : PingHelper :=
  ⟨(s.sequence + 1) % 65536, Function.update s.pingData (s.sequence % 32) ⟨now, -1, s.sequence⟩,
    s.sent ++ [now]⟩

/-- With the latency that is emitted. -/
def pingReceived (now : Int) (sequence : Nat) (s : PingHelper) : PingHelper × Option Int :=
  let index := sequence % 32
  let data := s.pingData index
  if data.sequence = sequence then
    let latency := now - data.timestamp
    ({ s with pingData := Function.update s.pingData index { data with latency } }, some latency)
  else (s, none)

inductive Event
  | start
  | nextPing (now : Int)
  | pingReceived (now : Int) (sequence : Nat)

def step : Event → PingHelper → PingHelper
  | .start, _ => start
  | .nextPing now, s => s.nextPing now
  | .pingReceived now sequence, s => (s.pingReceived now sequence).1

/-- Every place has the last ping with its number modulo 32, or there was none. -/
structure Holds (s : PingHelper) : Prop where
  sequence : s.sequence = s.sent.length % 65536
  data : ∀ i < 32, (∃ k, k % 32 = i ∧ s.sent.length ≤ k + 32 ∧ s.sent[k]? = some (s.pingData i).timestamp ∧
    (s.pingData i).sequence = k % 65536) ∨
    s.sent.length ≤ i ∧ (s.pingData i).timestamp = -1 ∧ (s.pingData i).sequence = 0

theorem holds_start : Holds start := ⟨rfl, fun i _ => .inr ⟨i.zero_le, rfl, rfl⟩⟩

theorem holds_step (e : Event) (s : PingHelper) (h : Holds s) : Holds (step e s) := by
  cases e with
  | start => exact holds_start
  | nextPing now =>
    have hs := h.sequence
    refine ⟨?_, fun i hi => ?_⟩ <;> simp only [step, nextPing, length_append, length_singleton]
    · omega
    by_cases hix : i = s.sequence % 32
    · subst hix
      exact .inl ⟨s.sent.length, by omega, by omega, by simp, by simpa using hs⟩
    rw [Function.update_of_ne hix]
    rcases h.data i hi with ⟨k, hk, hlast, ht, hn⟩ | ⟨hle, hno⟩
    · exact .inl ⟨k, hk, by omega, by rw [getElem?_append_left (List.getElem?_eq_some_iff.mp ht).1, ht], hn⟩
    · exact .inr ⟨by omega, hno⟩
  | pingReceived now sequence =>
    simp only [step, pingReceived]
    split
    · refine ⟨h.sequence, fun i hi => ?_⟩
      simp only [Function.update_apply]
      split
      next hix => exact hix ▸ h.data i hi
      · exact h.data i hi
    · exact h

/-- **Whose reply it is.** In every run, a reply is taken for the one of the last 32 pings that has its sequence number,
however often the numbers have wrapped around, and before the first ping also for one with the number 0. -/
theorem pingReceived_iff (events : List Event) (now : Int) (sequence : Nat) (latency : Int) :
    let s := run step events start
    (s.pingReceived now sequence).2 = some latency ↔
      (∃ k time, s.sent[k]? = some time ∧ s.sent.length ≤ k + 32 ∧ k % 65536 = sequence ∧
        now - time = latency) ∨
      s.sent = [] ∧ sequence = 0 ∧ now + 1 = latency := by
  intro s
  have h : Holds s := run_invariant holds_step events holds_start
  have hr : (s.pingReceived now sequence).2 = some latency ↔ (s.pingData (sequence % 32)).sequence = sequence ∧
      now - (s.pingData (sequence % 32)).timestamp = latency := by
    simp only [pingReceived]
    split <;> simp_all
  rw [hr]
  rcases h.data (sequence % 32) (by omega) with ⟨k, hk, hlast, ht, hn⟩ | ⟨hle, ht, hn⟩
  · have hlt := (List.getElem?_eq_some_iff.mp ht).1
    constructor
    · rintro ⟨hq, hla⟩
      exact .inl ⟨k, _, ht, hlast, hn ▸ hq, hla⟩
    · rintro (⟨j, time, hj, hjl, hjs, hla⟩ | ⟨hnil, -⟩)
      · -- of 32 numbers one after the other no two have the same remainder
        have hjlt := (List.getElem?_eq_some_iff.mp hj).1
        obtain rfl : j = k := by omega
        cases ht.symm.trans hj
        exact ⟨hn.trans hjs, hla⟩
      · simp [hnil] at hlt
  · rw [ht, hn]
    constructor
    · rintro ⟨rfl, hla⟩
      exact .inr ⟨length_eq_zero_iff.mp (by omega), rfl, by omega⟩
    · rintro (⟨j, time, hj, -, hjs, -⟩ | ⟨-, rfl, hla⟩)
      · have hjlt := (List.getElem?_eq_some_iff.mp hj).1
        omega
      · exact ⟨rfl, by omega⟩

end PingHelper

end Cimogus.Client
