import Cimogus.Android.VpnService
import Cimogus.Lib.Runs

/-!
# The last command

What the service comes to when its coroutines have all ended. A `connectToVpn` or `reconnect` that finds other
coroutines under way, and a `disconnect` before the tunnel is up, can leave a state that nobody asked for; otherwise the
service goes through the phases of `Phase`.
-/

namespace Cimogus.Android

open Lib Lib.Runs

variable {Config : Type}

/-- A coroutine of `disconnect`. -/
def Coroutine.disconnects : Coroutine Config → Bool
  | .disconnect | .joinConnection _ | .waitForDisconnected => true
  | .connect _ | .joinDisconnection .. | .waitForConnection | .reconnect => false

variable {body : Coroutine Config} {config : Config}

namespace VpnService

variable {s : VpnService Config}

/-- The configurations that the running tunnels were started from. -/
def running (s : VpnService Config) : List Config := s.goBackend.entries.map Prod.snd

/-- The state and the tunnels are the ones that the last command asked for. -/
def Obeys (s : VpnService Config) : Prop :=
  match s.lastCommand with
  | none => s.protocolState = .UNKNOWN ∧ s.running = []
  | some (.connect vpnConfig) => s.protocolState = .CONNECTED ∧ some s.running = vpnConfig.map ([·])
  | some .disconnect => s.protocolState = .DISCONNECTED ∧ s.running = []

/-- The command is not taken for one that has been given already. -/
def Accepts : Event Config → VpnService Config → Prop
  | .connectToVpn _ _, s => ¬(s.protocolState = .CONNECTED ∨ s.protocolState = .CONNECTING)
  | .disconnect, s =>
    ¬(s.protocolState = .UNKNOWN ∨ s.protocolState = .DISCONNECTED ∨ s.protocolState = .DISCONNECTING)
  | .reconnect, s => s.protocolState = .CONNECTED
  | .resume .., _ | .timeout _, _ => True

/-- A command that is accepted finds no coroutine under way, or it is a `disconnect` and finds a tunnel and no other
`disconnect`. Configurations are valid, the permission is granted, and tunnels start. -/
def Orderly (e : Event Config) (s : VpnService Config) : Prop := Accepts e s →
    match e with
    | .connectToVpn vpnConfig permission => vpnConfig.isSome = true ∧ permission = true ∧ s.jobs.active = []
    | .disconnect => s.tunnelHandle.isSome = true ∧ ∀ j ∈ s.jobs.active, j.body.disconnects = false
    | .reconnect => s.jobs.active = []
    | .resume _ r => r = .ok
    | .timeout _ => True

/-! ## Phases -/

/-- One tunnel runs, started from the configuration, and the handle is its own. -/
def Up (config : Config) (s : VpnService Config) : Prop :=
  ∃ h, s.tunnelHandle = some h ∧ s.goBackend.entries = [(h, config)]

def Down (s : VpnService Config) : Prop := s.tunnelHandle = none ∧ s.goBackend.entries = []

theorem Up.start_of_down (h : s.Down) (config : Config) : (s.start config).Up config := by
  unfold start
  rw [h.1]
  exact ⟨s.goBackend.next, rfl, by simp [Store.add, h.2]⟩

theorem Up.stopVpn (h : s.Up config) : s.stopVpn.Down ∧ s.stopVpn.protocolState = .DISCONNECTED := by
  obtain ⟨handle, hh, he⟩ := h
  unfold VpnService.stopVpn
  rw [hh]
  exact ⟨⟨rfl, by simp [Store.delete, he]⟩, rfl⟩

/-- The job variables hold ids of jobs that have been launched. -/
structure Known (s : VpnService Config) : Prop where
  connectionJob : ∀ j ∈ s.connectionJob, j < s.jobs.launched
  disconnectionJob : ∀ j ∈ s.disconnectionJob, j < s.jobs.launched

/-- A coroutine that only has to report `CONNECTED`. -/
def Finishing (body : Coroutine Config) : Prop := body = .waitForConnection ∨ body = .reconnect

/-- The jobs under way, what they are about to do, and what they find. -/
inductive Phase (s : VpnService Config) : Prop
  | off (hjobs : s.jobs.active = []) (hdown : s.Down)
    (hstate : s.lastCommand = none ∧ s.protocolState = .UNKNOWN ∨
      s.lastCommand = some .disconnect ∧ s.protocolState = .DISCONNECTED)
  | starting (i : Nat) (config : Config) (body : Coroutine Config) (hjobs : s.jobs.active = [⟨i, body, false⟩])
    (hbody : body = .connect config ∧ (∀ j ∈ s.disconnectionJob, j ≠ i) ∨
      ∃ j, body = .joinDisconnection config j ∧ j ≠ i)
    (hdown : s.Down) (hstate : s.protocolState = .CONNECTING) (hlast : s.lastCommand = some (.connect (some config)))
    (hjob : s.connectionJob = some i)
  | finishing (i : Nat) (config : Config) (body : Coroutine Config) (hjobs : s.jobs.active = [⟨i, body, false⟩])
    (hbody : Finishing body) (hup : s.Up config)
    (hstate : s.protocolState = .CONNECTING ∨ s.protocolState = .RECONNECTING)
    (hlast : s.lastCommand = some (.connect (some config))) (hjob : s.connectionJob = some i)
  | on (config : Config) (hjobs : s.jobs.active = []) (hup : s.Up config) (hstate : s.protocolState = .CONNECTED)
    (hlast : s.lastCommand = some (.connect (some config)))
  | cancelling (d : Nat) (config : Config) (rest : List (Job (Coroutine Config)))
    (hjobs : s.jobs.active = ⟨d, .disconnect, false⟩ :: rest)
    (hrest : rest = [] ∧ (∀ j ∈ s.connectionJob, j ≠ d) ∨
      ∃ i body, rest = [⟨i, body, false⟩] ∧ Finishing body ∧ s.connectionJob = some i ∧ i ≠ d)
    (hup : s.Up config) (hstate : s.protocolState = .DISCONNECTING ∨ s.protocolState = .CONNECTED)
    (hlast : s.lastCommand = some .disconnect)
  | joining (d j : Nat) (config : Config) (rest : List (Job (Coroutine Config)))
    (hjobs : s.jobs.active = ⟨d, .joinConnection j, false⟩ :: rest)
    (hrest : rest = [] ∨ ∃ body, rest = [⟨j, body, true⟩] ∧ Finishing body) (hj : j ≠ d) (hup : s.Up config)
    (hstate : s.protocolState = .DISCONNECTING ∨ s.protocolState = .CONNECTED)
    (hlast : s.lastCommand = some .disconnect)
  | stopped (d : Nat) (hjobs : s.jobs.active = [⟨d, .waitForDisconnected, false⟩]) (hdown : s.Down)
    (hstate : s.protocolState = .DISCONNECTED) (hlast : s.lastCommand = some .disconnect)

theorem Phase.obeys (h : s.Phase) (hjobs : s.jobs.active = []) : s.Obeys := by
  unfold Obeys running
  cases h with
  | off _ hdown hstate =>
    rcases hstate with ⟨hlast, hstate⟩ | ⟨hlast, hstate⟩ <;> simp [hlast, hstate, hdown.2]
  | on config _ hup hstate hlast =>
    obtain ⟨handle, _, he⟩ := hup
    simp [hlast, hstate, he]
  | starting i config body hj' | finishing i config body hj' | cancelling d config rest hj'
  | joining d j config rest hj' | stopped d hj' =>
    rw [hjobs] at hj'
    cases hj'

/-! ## Commands -/

theorem connectToVpn_phase {vpnConfig : Option Config} {permission : Bool}
    (hg : Orderly (.connectToVpn vpnConfig permission) s) (hk : s.Known) (h : s.Phase) :
    (s.connectToVpn vpnConfig permission).Phase := by
  by_cases ha : s.protocolState = .CONNECTED ∨ s.protocolState = .CONNECTING
  · rw [connectToVpn, if_pos ha]
    exact h
  obtain ⟨hc, rfl, hjobs⟩ := hg ha
  obtain ⟨config, rfl⟩ := Option.isSome_iff_exists.mp hc
  have hdown : s.Down := by
    cases h with
    | off _ hdown => exact hdown
    | on _ _ _ hstate => exact absurd (.inl hstate) ha
    | starting i config body hj' | finishing i config body hj' | cancelling d config rest hj'
    | joining d j config rest hj' | stopped d hj' =>
      rw [hjobs] at hj'
      cases hj'
  rw [connectToVpn, if_neg ha]
  refine .starting s.jobs.launched config (.connect config) ?_ (.inl ⟨rfl, fun j hj => ?_⟩) hdown rfl rfl rfl
  · exact congrArg (_ :: ·) hjobs
  · exact Nat.ne_of_lt (hk.disconnectionJob j hj)

theorem reconnect_phase (hg : Orderly .reconnect s) (h : s.Phase) : s.reconnect.Phase := by
  by_cases ha : s.protocolState = .CONNECTED
  · have hjobs : s.jobs.active = [] := hg ha
    rw [reconnect, if_neg (not_not_intro ha)]
    cases h with
    | off _ _ hstate =>
      rcases hstate with ⟨_, hstate⟩ | ⟨_, hstate⟩ <;> exact absurd (hstate.symm.trans ha) nofun
    | on config _ hup _ hlast =>
      exact .finishing s.jobs.launched config .reconnect (congrArg (_ :: ·) hjobs) (.inr rfl) hup (.inr rfl) hlast rfl
    | starting i config body hj' | finishing i config body hj' | cancelling d config rest hj'
    | joining d j config rest hj' | stopped d hj' =>
      rw [hjobs] at hj'
      cases hj'
  · rw [reconnect, if_pos ha]
    exact h

theorem disconnect_phase (hg : Orderly .disconnect s) (hk : s.Known) (h : s.Phase) : s.disconnect.Phase := by
  by_cases ha : s.protocolState = .UNKNOWN ∨ s.protocolState = .DISCONNECTED ∨ s.protocolState = .DISCONNECTING
  · rw [disconnect, if_pos ha]
    exact h
  obtain ⟨hh, ho⟩ := hg ha
  rw [disconnect, if_neg ha]
  cases h with
  | off _ hdown => simp [hdown.1] at hh
  | starting _ _ _ _ _ hdown => simp [hdown.1] at hh
  | stopped _ _ hdown => simp [hdown.1] at hh
  | on config hjobs hup _ _ =>
    refine .cancelling s.jobs.launched config [] (congrArg (_ :: ·) hjobs) (.inl ⟨rfl, fun j hj => ?_⟩) hup
      (.inl rfl) rfl
    exact Nat.ne_of_lt (hk.connectionJob j hj)
  | finishing i config body hjobs hbody hup _ _ hjob =>
    refine .cancelling s.jobs.launched config [⟨i, body, false⟩] (congrArg (_ :: ·) hjobs) (.inr ?_) hup
      (.inl rfl) rfl
    exact ⟨i, body, rfl, hbody, hjob, Nat.ne_of_lt (hk.connectionJob i hjob)⟩
  | cancelling d config rest hjobs =>
    have hfa := ho ⟨d, .disconnect, false⟩ (by simp [hjobs])
    cases hfa
  | joining d j config rest hjobs =>
    have hfa := ho ⟨d, .joinConnection j, false⟩ (by simp [hjobs])
    cases hfa

/-! ## Coroutines -/

theorem resume_of_none {k : Nat} {r : StartResult} (h : s.jobs.get? k = none) : s.resume k r = s := by rw [resume, h]

/-- A coroutine with a tunnel to start starts it. -/
theorem startVpn_phase {i : Nat} (hjobs : s.jobs.active = [⟨i, body, false⟩]) (hdown : s.Down)
    (hstate : s.protocolState = .CONNECTING) (hlast : s.lastCommand = some (.connect (some config)))
    (hjob : s.connectionJob = some i) : (s.startVpn i .ok config).Phase := by
  have hs : ({ s with disconnectionJob := none } : VpnService Config).start config =
      { s with
        disconnectionJob := none
        tunnelHandle := some s.goBackend.next
        goBackend := s.goBackend.add config } := by
    simp only [start, hdown.1]
  have hd' : ({ s with disconnectionJob := none } : VpnService Config).Down := hdown
  have hup := Up.start_of_down hd' config
  rw [startVpn]
  rw [hs] at hup ⊢
  refine .finishing i config .waitForConnection ?_ (.inl rfl) hup (.inl hstate) hlast hjob
  simp [moveTo, hjobs]

theorem endVpn_phase {d : Nat} (hjobs : s.jobs.active = [⟨d, body, false⟩]) (hup : s.Up config)
    (hlast : s.lastCommand = some .disconnect) : (s.endVpn d).Phase := by
  have hu' : ({ s with connectionJob := none } : VpnService Config).Up config := hup
  obtain ⟨hdown, hstate⟩ := hu'.stopVpn
  obtain ⟨handle, hh, _⟩ := hup
  have hstop : ({ s with connectionJob := none } : VpnService Config).stopVpn =
      { s with connectionJob := none, tunnelHandle := none, goBackend := s.goBackend.delete [handle],
               protocolState := .DISCONNECTED } := by
    simp only [stopVpn, hh]
  rw [endVpn]
  rw [hstop] at hdown hstate ⊢
  refine .stopped d ?_ hdown hstate hlast
  simp [moveTo, hjobs]

open Jobs

theorem resume_phase_of_active (h : s.Phase) (ha : ∀ job ∈ s.jobs.active, (s.resume job.id .ok).Phase) (k : Nat) :
    (s.resume k .ok).Phase := by
  cases hg : s.jobs.get? k with
  | none => rwa [resume_of_none hg]
  | some job =>
    have hp := ha job (mem_of_get? hg)
    rwa [id_of_get? hg] at hp

theorem resume_starting {i : Nat} (hjobs : s.jobs.active = [⟨i, body, false⟩])
    (hbody : body = .connect config ∧ (∀ j ∈ s.disconnectionJob, j ≠ i) ∨
      ∃ j, body = .joinDisconnection config j ∧ j ≠ i)
    (hdown : s.Down) (hstate : s.protocolState = .CONNECTING) (hlast : s.lastCommand = some (.connect (some config)))
    (hjob : s.connectionJob = some i) : (s.resume i .ok).Phase := by
  rw [resume, get?_one hjobs, if_pos rfl]
  rcases hbody with ⟨rfl, ho⟩ | ⟨j, rfl, hj⟩
  · cases hd : s.disconnectionJob with
    | none => exact startVpn_phase hjobs hdown hstate hlast hjob
    | some j =>
      refine .starting i config (.joinDisconnection config j) ?_ (.inr ⟨j, rfl, ?_⟩) hdown hstate hlast hjob
      · simp [moveTo, hjobs]
      · exact ho j hd
  · have hi : s.jobs.isActive j = false := by simp [isActive, get?_one hjobs, hj.symm]
    simp only [hi, Bool.false_eq_true, if_false]
    exact startVpn_phase hjobs hdown hstate hlast hjob

theorem Finishing.resume_eq {i : Nat} (hbody : Finishing body) (hg : s.jobs.get? i = some ⟨i, body, false⟩) :
    s.resume i .ok = { s.complete i with protocolState := .CONNECTED } := by
  rw [resume, hg]
  rcases hbody with rfl | rfl <;> rfl

theorem resume_cancelling {d : Nat} {rest : List (Job (Coroutine Config))}
    (hjobs : s.jobs.active = ⟨d, .disconnect, false⟩ :: rest)
      (hrest : rest = [] ∧ (∀ j ∈ s.connectionJob, j ≠ d) ∨
      ∃ i body, rest = [⟨i, body, false⟩] ∧ Finishing body ∧ s.connectionJob = some i ∧ i ≠ d) (hup :
        s.Up config)
    (hstate : s.protocolState = .DISCONNECTING ∨ s.protocolState = .CONNECTED)
    (hlast : s.lastCommand = some .disconnect) : (s.resume d .ok).Phase := by
  rcases hrest with ⟨rfl, ho⟩ | ⟨i, body, rfl, hbody, hjob, hi⟩
  · rw [resume, get?_one hjobs, if_pos rfl]
    cases hc : s.connectionJob with
    | none => exact endVpn_phase hjobs hup hlast
    | some j =>
      have hj : j ≠ d := ho j hc
      refine .joining d j config [] ?_ (.inl rfl) hj hup hstate hlast
      simp [moveTo, cancel, hjobs, hj.symm]
  · rw [resume, get?_two hjobs, if_pos rfl]
    simp only [hjob, Bool.false_eq_true, if_false]
    refine .joining d i config [⟨i, body, true⟩] ?_ (.inr ⟨body, rfl, hbody⟩) hi hup hstate hlast
    simp [moveTo, cancel, hjobs, hi, hi.symm]

theorem resume_finishing_cancelling {d i : Nat}
    (hjobs : s.jobs.active = [⟨d, .disconnect, false⟩, ⟨i, body, false⟩])
    (hbody : Finishing body) (hjob : s.connectionJob = some i) (hi : i ≠ d) (hup : s.Up config)
    (hlast : s.lastCommand = some .disconnect) : (s.resume i .ok).Phase := by
  rw [hbody.resume_eq (by simp [get?_two hjobs, hi.symm])]
  refine .cancelling d config [] ?_ (.inl ⟨rfl, ?_⟩) hup (.inr rfl) hlast
  · simp [complete, hjobs, hi.symm]
  · simp [complete, hjob, hi]

theorem resume_joining {d j : Nat} {rest : List (Job (Coroutine Config))}
    (hjobs : s.jobs.active = ⟨d, .joinConnection j, false⟩ :: rest)
    (hrest : rest = [] ∨ ∃ body, rest = [⟨j, body, true⟩] ∧ Finishing body) (hj : j ≠ d) (hup : s.Up config)
    (hlast : s.lastCommand = some .disconnect) (hp : s.Phase) : (s.resume d .ok).Phase := by
  rcases hrest with rfl | ⟨body, rfl, hbody⟩
  · have hi : s.jobs.isActive j = false := by simp [isActive, get?_one hjobs, hj.symm]
    rw [resume, get?_one hjobs, if_pos rfl]
    simp only [hi, Bool.false_eq_true, if_false]
    exact endVpn_phase hjobs hup hlast
  · have ha : s.jobs.isActive j = true := by simp [isActive, get?_two hjobs, hj.symm]
    rw [resume, get?_two hjobs]
    simp only [ha, Bool.false_eq_true, if_false, if_true]
    exact hp

variable (k : Nat)

theorem resume_phase (h : s.Phase) : (s.resume k .ok).Phase := by
  refine resume_phase_of_active h (fun job hjob => ?_) k
  have hp := h
  cases h with
  | off hjobs | on _ hjobs => simp [hjobs] at hjob
  | starting i config body hjobs hbody hdown hstate hlast hc =>
    obtain rfl : job = _ := by simpa [hjobs] using hjob
    exact resume_starting hjobs hbody hdown hstate hlast hc
  | finishing i config body hjobs hbody hup hstate hlast =>
    obtain rfl : job = _ := by simpa [hjobs] using hjob
    rw [hbody.resume_eq (by simp [get?_one hjobs])]
    exact .on config (by simp [complete, hjobs]) hup rfl hlast
  | cancelling d config rest hjobs hrest hup hstate hlast =>
    rw [hjobs] at hjob
    rcases List.mem_cons.mp hjob with rfl | hjob
    · exact resume_cancelling hjobs hrest hup hstate hlast
    · rcases hrest with ⟨rfl, _⟩ | ⟨i, body, rfl, hbody, hc, hi⟩
      · cases hjob
      · obtain rfl := List.mem_singleton.mp hjob
        exact resume_finishing_cancelling hjobs hbody hc hi hup hlast
  | joining d j config rest hjobs hrest hj hup hstate hlast =>
    rw [hjobs] at hjob
    rcases List.mem_cons.mp hjob with rfl | hjob
    · exact resume_joining hjobs hrest hj hup hlast hp
    · rcases hrest with rfl | ⟨body, rfl, hbody⟩
      · cases hjob
      · -- the cancelled job finds the mark and completes
        obtain rfl := List.mem_singleton.mp hjob
        rw [resume, get?_two hjobs, if_neg hj.symm, if_pos rfl]
        refine .joining d j config [] ?_ (.inl rfl) hj hup hstate hlast
        simp [complete, hjobs, hj.symm]
  | stopped d hjobs hdown hstate hlast =>
    obtain rfl : job = _ := by simpa [hjobs] using hjob
    rw [resume, get?_one hjobs]
    simp only [hstate, Bool.false_eq_true, if_false, if_true]
    exact .off (by simp [complete, hjobs]) hdown (.inr ⟨hlast, hstate⟩)

theorem Finishing.ne_waitForDisconnected (h : Finishing body) : body ≠ .waitForDisconnected := by
  rcases h with rfl | rfl <;> exact nofun

theorem timeout_eq (h : ∀ j ∈ s.jobs.active, j.body ≠ .waitForDisconnected) : s.timeout k = s := by
  unfold timeout
  split
  · rename_i hg
    exact absurd rfl (h _ (mem_of_get? hg))
  · rfl

theorem timeout_phase (h : s.Phase) : (s.timeout k).Phase := by
  have hp := h
  cases h with
  | stopped d hjobs hdown hstate hlast =>
    have hg := get?_one (i := k) hjobs
    rw [timeout, hg]
    split
    · rename_i hs
      split at hs
      · obtain rfl : d = k := ‹_›
        exact .off (by simp [complete, hjobs]) hdown (.inr ⟨hlast, hstate⟩)
      · cases hs
    · exact hp
  | off hjobs | on _ hjobs => rwa [timeout_eq k (by simp [hjobs])]
  | starting i config body hjobs hbody =>
    rw [timeout_eq k]
    · exact hp
    · rcases hbody with ⟨rfl, _⟩ | ⟨j, rfl, _⟩ <;> simp [hjobs]
  | finishing i config body hjobs hbody => rwa [timeout_eq k (by simp [hjobs, hbody.ne_waitForDisconnected])]
  | cancelling d config rest hjobs hrest =>
    rw [timeout_eq k]
    · exact hp
    · rcases hrest with ⟨rfl, _⟩ | ⟨i, body, rfl, hbody, _⟩
      · simp [hjobs]
      · simp [hjobs, hbody.ne_waitForDisconnected]
  | joining d j config rest hjobs hrest =>
    rw [timeout_eq k]
    · exact hp
    · rcases hrest with rfl | ⟨body, rfl, hbody⟩
      · simp [hjobs]
      · simp [hjobs, hbody.ne_waitForDisconnected]

/-! ## Runs -/

/-- Nothing is launched, and the job variables are left or cleared. -/
structure Quiet (s s' : VpnService Config) : Prop where
  launched : s'.jobs.launched = s.jobs.launched
  connectionJob : s'.connectionJob = s.connectionJob ∨ s'.connectionJob = none
  disconnectionJob : s'.disconnectionJob = s.disconnectionJob ∨ s'.disconnectionJob = none

theorem Quiet.known {s' : VpnService Config} (h : Quiet s s') (hs : s.Known) : s'.Known := by
  constructor
  · rw [h.launched]
    rcases h.connectionJob with hjob | hjob <;> rw [hjob]
    · exact hs.connectionJob
    · exact nofun
  · rw [h.launched]
    rcases h.disconnectionJob with hjob | hjob <;> rw [hjob]
    · exact hs.disconnectionJob
    · exact nofun

theorem quiet_handler (i : Nat) (s : VpnService Config) : Quiet s (s.complete i).connectionExceptionHandler := by
  refine ⟨?_, .inr rfl, .inr rfl⟩
  unfold connectionExceptionHandler cancel
  split <;> split <;> rfl

theorem quiet_startVpn (i : Nat) (r : StartResult) (config : Config) (s : VpnService Config) :
    Quiet s (s.startVpn i r config) := by
  cases r with
  | ok =>
    unfold startVpn start
    dsimp only
    split <;> exact ⟨rfl, .inl rfl, .inr rfl⟩
  | badConfig =>
    have h := quiet_handler i { s with disconnectionJob := none }
    exact ⟨h.launched, h.connectionJob, .inr rfl⟩
  | startException =>
    unfold startVpn
    dsimp only
    split
    · exact ⟨rfl, .inl rfl, .inr rfl⟩
    · have h := quiet_handler i { s with disconnectionJob := none }
      exact ⟨h.launched, h.connectionJob, .inr rfl⟩

theorem quiet_endVpn (i : Nat) (s : VpnService Config) : Quiet s (s.endVpn i) := by
  unfold endVpn stopVpn
  split <;> exact ⟨rfl, .inr rfl, .inl rfl⟩

theorem quiet_resume (r : StartResult) (s : VpnService Config) : Quiet s (s.resume k r) := by
  have hr : Quiet s s := ⟨rfl, .inl rfl, .inl rfl⟩
  unfold resume
  split
  · exact hr
  split
  · exact ⟨rfl, .inl rfl, .inl rfl⟩
  split
  · split
    · exact ⟨rfl, .inl rfl, .inl rfl⟩
    · exact quiet_startVpn ..
  · split
    · exact hr
    · exact quiet_startVpn ..
  · exact ⟨rfl, .inl rfl, .inl rfl⟩
  · split
    · exact ⟨rfl, .inl rfl, .inl rfl⟩
    · exact quiet_endVpn ..
  · split
    · exact hr
    · exact quiet_endVpn ..
  · split
    · exact ⟨rfl, .inl rfl, .inl rfl⟩
    · exact hr
  · exact ⟨rfl, .inl rfl, .inl rfl⟩

/-- What is launched is stored under its own id. -/
theorem step_known (e : Event Config) (h : s.Known) : (step e s).Known := by
  have hl {job : Option Nat} (hjob : ∀ j ∈ job, j < s.jobs.launched) : ∀ j ∈ job, j < s.jobs.launched + 1 :=
    fun j hj => Nat.lt_succ_of_lt (hjob j hj)
  have hnew : ∀ j ∈ some s.jobs.launched, j < s.jobs.launched + 1 := by simp
  cases e with
  | connectToVpn vpnConfig permission =>
    simp only [step, connectToVpn]
    split
    · exact h
    split
    · exact ⟨h.connectionJob, h.disconnectionJob⟩
    split
    · exact ⟨hnew, hl h.disconnectionJob⟩
    · exact ⟨h.connectionJob, h.disconnectionJob⟩
  | disconnect =>
    simp only [step, disconnect]
    split
    · exact h
    · exact ⟨hl h.connectionJob, hnew⟩
  | reconnect =>
    simp only [step, reconnect]
    split
    · exact h
    · exact ⟨hnew, hl h.disconnectionJob⟩
  | resume k r => exact (quiet_resume k r s).known h
  | timeout k =>
    simp only [step, timeout]
    split
    · exact ⟨h.connectionJob, h.disconnectionJob⟩
    · exact h

/-- **One event** leads from phase to phase. -/
theorem step_phase {e : Event Config} (hg : Orderly e s) (hk : s.Known) (h : s.Phase) : (step e s).Phase := by
  cases e with
  | connectToVpn vpnConfig permission => exact connectToVpn_phase hg hk h
  | disconnect => exact disconnect_phase hg hk h
  | reconnect => exact reconnect_phase hg h
  | resume k r =>
    obtain rfl : r = .ok := hg trivial
    exact resume_phase k h
  | timeout k => exact timeout_phase k h

/-- **The last command.** In every run of the service in which each command that is accepted finds no coroutine under
way, or is a `disconnect` that finds a tunnel and no other `disconnect`, the last command is obeyed wherever no job is
active. -/
theorem run_obeys (events : List (Event Config)) (h : Guarded step Orderly events init)
    (hidle : (run step events (init : VpnService Config)).jobs.active = []) :
    (run step events (init : VpnService Config)).Obeys := by
  have hst (e : Event Config) (s : VpnService Config) (hg : Orderly e s) (hs : s.Known ∧ s.Phase) :
      (step e s).Known ∧ (step e s).Phase := ⟨step_known e hs.1, step_phase hg hs.1 hs.2⟩
  have hi : (init : VpnService Config).Known ∧ (init : VpnService Config).Phase :=
    ⟨⟨nofun, nofun⟩, .off rfl ⟨rfl, rfl⟩ (.inl ⟨rfl, rfl⟩)⟩
  have hp := run_invariant_of_guarded hst events h hi
  exact hp.2.obeys hidle

/-! ## Examples -/

instance (e : Event Config) (s : VpnService Config) : Decidable (Accepts e s) :=
  match e with
  | .connectToVpn .. | .disconnect => inferInstanceAs (Decidable (¬_))
  | .reconnect => inferInstanceAs (Decidable (_ = _))
  | .resume .. | .timeout _ => inferInstanceAs (Decidable True)

instance (e : Event Config) (s : VpnService Config) : Decidable (Orderly e s) :=
  match e with
  | .connectToVpn .. => inferInstanceAs (Decidable (_ → _ ∧ _ ∧ _))
  | .disconnect => inferInstanceAs (Decidable (_ → _ ∧ ∀ j ∈ s.jobs.active, _))
  | .reconnect | .resume .. => inferInstanceAs (Decidable (_ → _ = _))
  | .timeout _ => inferInstanceAs (Decidable (_ → True))

def connected (config : String) (job : Nat) : List (Event String) :=
  [.connectToVpn (some config) true, .resume job .ok, .resume job .ok]

/-- A `disconnect` during the wait for the handshake, which comes all the same, and another connection. -/
def orderlyRun : List (Event String) :=
  [.connectToVpn (some "first") true, .resume 0 .ok, .disconnect, .resume 0 .ok, .resume 1 .ok, .resume 1 .ok,
    .resume 1 .ok,
    .connectToVpn (some "second") true, .resume 2 .ok, .resume 2 .ok, .resume 2 .ok]

theorem orderlyRun_obeys : Guarded step Orderly orderlyRun init ∧ (run step orderlyRun init).running = ["second"] ∧
    (run step orderlyRun init).Obeys := ⟨by decide, by decide, run_obeys orderlyRun (by decide) (by decide)⟩

/-- A `disconnect` before the coroutine of the connection has run. -/
def hastyRun : List (Event String) :=
  [.connectToVpn (some "first") true, .disconnect, .resume 1 .ok, .resume 0 .ok, .resume 1 .ok, .timeout 1]

/-- Another connection before the coroutine of the `disconnect` has run, which cancels it. -/
def cancelledRun : List (Event String) :=
  connected "first" 0 ++ [.disconnect, .connectToVpn (some "second") true, .resume 1 .ok, .resume 2 .ok, .resume 1 .ok,
    .resume 1 .ok]

/-- Another connection during a reconnection, which finds the old tunnel. -/
def reconnectedRun : List (Event String) :=
  connected "first" 0 ++ [.reconnect, .connectToVpn (some "second") true, .resume 1 .ok, .resume 2 .ok, .resume 2 .ok]

/-- All jobs end: with `DISCONNECTING` for ever, without the connection that was asked for, and with the wrong one. -/
theorem last_command_disobeyed :
    ((run step hastyRun init).jobs.active = [] ∧ (run step hastyRun init).lastCommand = some .disconnect ∧
      (run step hastyRun init).protocolState = .DISCONNECTING) ∧
    ((run step cancelledRun init).jobs.active = [] ∧
      (run step cancelledRun init).lastCommand = some (.connect (some "second")) ∧
      (run step cancelledRun init).protocolState = .DISCONNECTED) ∧
      ((run step reconnectedRun init).jobs.active = [] ∧
      (run step reconnectedRun init).lastCommand = some (.connect (some "second")) ∧
      (run step reconnectedRun init).running = ["first"]) := by
  decide

end VpnService

end Cimogus.Android
