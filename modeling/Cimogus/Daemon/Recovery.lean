import Cimogus.Daemon.InForce
import Cimogus.Daemon.RefCounts

/-!
# After the tunnel has ended on its own

`deactivate` gives up when there is no interface, before it forgets the connections. A daemon whose tunnel process has
ended therefore keeps its connections over every `deactivate`, and an activation that has to take the connection down
first fails with it.
-/

namespace Cimogus.Daemon.State

open Lib Lib.Runs

variable {k : Kind} {qt : Qt}

theorem running_shutDown (k : Kind) (qt : Qt) (r : DownReplies) :
    Step.Keeps (fun d : State Backend => d.backend.running) (shutDown (platform k qt) r) := by
  refine .seq (fun d => ?_) (.seq (keeps_restoreResolvers k qt settled_running.resolvers _) (.ite .skip .stop))
  split <;> rfl

variable {d : State Backend}

theorem shutDown_gone (k : Kind) (qt : Qt) (r : DownReplies) (hg : d.backend.running = false) :
    (shutDown (platform k qt) r d).1 = false := by
  have hl : Step.Ensures (fun d : State Backend => d.backend.running = true) (shutDown (platform k qt) r) := by
    refine .last (.last fun d hok => ?_)
    rw [Step.ite] at hok ⊢
    split at hok
    · rename_i hrunning
      rw [if_pos hrunning]
      exact hrunning
    · cases hok
  cases hdown : (shutDown (platform k qt) r d).1 with
  | false => rfl
  | true =>
    have hrunning := (running_shutDown k qt r d).symm.trans (hl d hdown)
    exact absurd (hg.symm.trans hrunning) (by decide)

theorem deactivate_gone (k : Kind) (qt : Qt) (r : DownReplies) (hg : d.backend.running = false) :
    (deactivate (platform k qt) r d).1 = false ∧ (deactivate (platform k qt) r d).2.backend.running = false ∧
      (deactivate (platform k qt) r d).2.connections = d.connections := by
  have hstop := shutDown_gone k qt r hg
  have hc := counts_shutDown (P := platform k qt) r d
  simp only [counts, Prod.mk.injEq] at hc
  rw [deactivate, Step.seq_of_false hstop]
  exact ⟨hstop, (running_shutDown k qt r d).trans hg, hc.1⟩

/-- The activation has to take down the connection that is there. -/
def Reconnects (config : InterfaceConfig) (d : State Backend) : Prop :=
  ∃ lastConfig, d.connections config.hopType = some lastConfig ∧ supportServerSwitching lastConfig config = false

/-- Reconnecting without an interface is `deactivate`. -/
theorem activate_gone (r : Replies) {config : InterfaceConfig} (hg : d.backend.running = false)
    (hlast : Reconnects config d) : activate (platform k qt) qt r config d = deactivate (platform k qt) r.down d := by
  obtain ⟨lastConfig, hc, hs⟩ := hlast
  have ha : activate (platform k qt) qt r config d =
      Step.seq (deactivate (platform k qt) r.down) (activateFresh (platform k qt) qt r.fresh config) d := by
    simp [activate, hc, hs]
  rw [ha, Step.seq_of_false (deactivate_gone k qt r.down hg).1]

/-- The commands that do not bring the interface back: `deactivate`, an activation that takes down a connection, and
anything on the host that does not start the process. -/
def LeavesGone : Command Backend → State Backend → Prop
  | .activate _ config, d => Reconnects config d
  | .deactivate _, _ => True
  | .host f, d => (f d.backend).running = false

theorem step_gone {connections : HopType → Option InterfaceConfig} (cmd : Command Backend) (d : State Backend)
    (hc : LeavesGone cmd d) (h : d.backend.running = false ∧ d.connections = connections) :
    (cmd.step (platform k qt) qt d).backend.running = false ∧
    (cmd.step (platform k qt) qt d).connections = connections := by
  obtain ⟨hg, rfl⟩ := h
  cases cmd with
  | activate r config =>
    rw [Command.step, activate_gone r hg hc]
    exact (deactivate_gone k qt r.down hg).2
  | deactivate r => exact (deactivate_gone k qt r hg).2
  | host f => exact ⟨hc, rfl⟩

/-- **The daemon stays stuck.** Once the interface has disappeared, no run of such commands, whatever the system
answers, changes the connections. -/
theorem run_gone (cmds : List (Command Backend)) (hg : d.backend.running = false)
    (hc : Guarded (Command.step (platform k qt) qt) LeavesGone cmds d) :
    (run (Command.step (platform k qt) qt) cmds d).connections = d.connections :=
  (run_invariant_of_guarded step_gone cmds hc ⟨hg, rfl⟩).2

/-- The daemon can be brought down and up again: `deactivate` forgets the connections, and an activation after it
succeeds. -/
def Recovers (k : Kind) (qt : Qt) (r : DownReplies) (d : State Backend) : Prop :=
  (deactivate (platform k qt) r d).2.stored = [] ∧
    ∀ config, (activate (platform k qt) qt .ok config (deactivate (platform k qt) r d).2).1 = true

/-- **No recovery.** On no platform, and whatever the system answers, does `deactivate` bring back a daemon that has a
connection and whose interface has disappeared. -/
theorem deactivate_never_recovers (k : Kind) (qt : Qt) (r : DownReplies) {d : State Backend}
    (hgone : d.backend.running = false) (hstored : d.stored ≠ []) : ¬Recovers k qt r d := by
  rintro ⟨he, _⟩
  obtain ⟨_, _, hc⟩ := deactivate_gone k qt r hgone
  exact hstored (by rwa [stored, hc] at he)

/-! ## Examples -/

/-- An activation, the end of the tunnel process, and `deactivate`; every call succeeds. -/
def diedRun : List (Command Backend) :=
  [.activate .ok (Linux.sampleInterface [⟨.ipv4 0, 0⟩]), .host Backend.died, .deactivate .ok]

def diedState : State Backend := { activatedState with backend := activatedState.backend.died }

theorem deactivate_never_recovers_died : diedState.backend.running = false ∧ diedState.stored ≠ [] ∧
    ¬Recovers .linux Linux.sampleQt .ok diedState :=
  ⟨rfl, by decide, deactivate_never_recovers .linux Linux.sampleQt .ok rfl (by decide)⟩

theorem run_gone_died : (run (Command.step (platform .linux Linux.sampleQt) Linux.sampleQt)
      [.activate .ok retryConfig, .deactivate .ok] diedState).connections = diedState.connections :=
  run_gone _ rfl ⟨⟨_, rfl, by decide⟩, trivial, trivial⟩

/-- The connection is still there, and an activation with another key fails although every call succeeds. -/
theorem died_stays_connected :
    (run (Command.step (platform .linux Linux.sampleQt) Linux.sampleQt) diedRun .idle).stored ≠ [] ∧
      (activate (platform .linux Linux.sampleQt) Linux.sampleQt .ok retryConfig
        (run (Command.step (platform .linux Linux.sampleQt) Linux.sampleQt) diedRun .idle)).1 = false := by
  decide

end Cimogus.Daemon.State
