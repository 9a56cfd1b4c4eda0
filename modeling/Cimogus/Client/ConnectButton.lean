import Cimogus.Client.Connection

/-!
# The connect button

While the controller is in the state `Preparing` the button does nothing. The state is entered by emitting a signal of
`VpnConnection`, and it is left when something that is under way ends: the request for a connection string, the wait for
the configuration of a protocol, or a call of `connectToVpn`. One end is missed: the handlers for a failed import look
at the state of `VpnConnection`'s protocol, which is not the one of the controller.
-/

namespace Cimogus.Client

open Lib.Runs List

/-- Something is under way that will leave `Preparing`. -/
def Work.Busy (work : Work) : Prop :=
  work.requests ≠ [] ∨ work.waiting ≠ [] ∨ ∃ args, .connectToVpn args ∈ work.calls

variable {s : ConnectionController}

namespace ConnectionController

variable {env : Environment}

/-- The state is `Preparing` only while something is under way. -/
def Live (s : ConnectionController) : Prop := s.state = .Preparing → s.work.Busy

/-- `t` comes from `s` without a change to what is under way, and it does not get to `Preparing`. -/
structure Quiet (s t : ConnectionController) : Prop where
  work : t.work = s.work
  state : t.state = s.state ∨ t.state ≠ .Preparing

namespace Quiet

variable {s t u : ConnectionController}

theorem refl (s : ConnectionController) : Quiet s s := ⟨rfl, .inl rfl⟩

theorem trans (h : Quiet s t) (h' : Quiet t u) : Quiet s u := by
  refine ⟨h'.work.trans h.work, ?_⟩
  rcases h'.state with heq | hne
  · rw [heq]
    exact h.state
  · exact .inr hne

theorem live (h : Quiet s t) (hs : s.Live) : t.Live := by
  intro hp
  rw [h.work]
  rcases h.state with heq | hne
  · exact hs (heq ▸ hp)
  · exact absurd hp hne

theorem ne_preparing (h : Quiet s t) (hs : s.state ≠ .Preparing) : t.state ≠ .Preparing := by
  rcases h.state with heq | hne
  · rw [heq]
    exact hs
  · exact hne

end Quiet

/-! ## Reports and errors -/

theorem emit_quiet {signal : ControllerSignal} (h : signal.connect? = none) (s : ConnectionController) :
    Quiet s (s.emit signal) := ⟨work_emit h s, .inl rfl⟩

theorem onConnectionStateChanged_ne_preparing {state : ConnectionState} (h : state ≠ .Preparing) (getLastError : Bool)
    (s : ConnectionController) : (s.onConnectionStateChanged state getLastError).state ≠ .Preparing := by
  rw [onConnectionStateChanged]
  split
  · intro hp
    cases hp
  · exact h

theorem onConnectionStateChanged_quiet {state : ConnectionState} (h : state ≠ .Preparing) (getLastError : Bool)
    (s : ConnectionController) : Quiet s (s.onConnectionStateChanged state getLastError) :=
  ⟨work_onConnectionStateChanged state getLastError s,
    .inr (onConnectionStateChanged_ne_preparing h getLastError s)⟩

theorem onImportErrorOccurred_quiet {signal : ControllerSignal} (h : signal.connect? = none)
    (s : ConnectionController) :
    Quiet s (s.onImportErrorOccurred signal) := by
  refine ⟨work_onImportErrorOccurred h s, ?_⟩
  rw [onImportErrorOccurred]
  split
  · exact .inl rfl
  · right
    intro hp
    cases hp

theorem extractConfigFromData_quiet (data : String) (s : ConnectionController) :
    Quiet s (s.extractConfigFromData env data).2 := by
  refine ⟨work_extractConfigFromData env data s, ?_⟩
  unfold extractConfigFromData
  split
  · exact .inl rfl
  · split
    · exact (onImportErrorOccurred_quiet rfl s).state
    · exact .inl rfl
  · exact .inl rfl
  · exact (onImportErrorOccurred_quiet rfl s).state
  · split
    · split <;> exact .inl rfl
    · exact (onImportErrorOccurred_quiet rfl s).state

theorem change_quiet {c : ProtocolChange} (h : c.target ≠ .Preparing) (s : ConnectionController) :
    Quiet s (s.change c) := by
  refine ⟨work_change c s, ?_⟩
  rcases change_cases c s with heq | ⟨p, heq⟩ | ⟨p, heq⟩
  · rw [heq]
    exact .inl rfl
  · rw [heq]
    exact .inl rfl
  · rw [heq]
    exact .inr (onConnectionStateChanged_ne_preparing h true _)

theorem changes_quiet {cs : List ProtocolChange} (h : ∀ c ∈ cs, c.target ≠ .Preparing)
    (s : ConnectionController) :
    Quiet s (s.changes cs) := by
  induction cs generalizing s with
  | nil => exact .refl s
  | cons c cs ih =>
    exact (change_quiet (h c mem_cons_self) s).trans (ih (fun c hc => h c (mem_cons_of_mem _ hc)) (s.change c))

theorem connectToVpn_ne_preparing {r : VpnReplies} (hst : ∀ c ∈ r.stopping, c.target ≠ .Preparing)
    (hs : ∀ c ∈ r.starting, c.target ≠ .Preparing) (s : ConnectionController) :
    (s.connectToVpn r).state ≠ .Preparing := by
  have hc : (s.onConnectionStateChanged .Connecting true).state ≠ .Preparing :=
    onConnectionStateChanged_ne_preparing (by decide) true s
  have hsto := (changes_quiet hst (s.onConnectionStateChanged .Connecting true)).ne_preparing hc
  unfold connectToVpn
  split
  · exact onConnectionStateChanged_ne_preparing (by decide) true _
  · split
    · exact onConnectionStateChanged_ne_preparing (by decide) true _
    · exact (changes_quiet hs _).ne_preparing hsto

theorem disconnectFromVpn_quiet {r : VpnReplies} (hs : ∀ c ∈ r.stopping, c.target ≠ .Preparing)
    (s : ConnectionController) : Quiet s (s.disconnectFromVpn r) := by
  unfold disconnectFromVpn
  split
  · exact onConnectionStateChanged_quiet (by decide) true s
  · exact ⟨work_changes r.stopping s, (changes_quiet hs s).state⟩

/-! ## Events -/

/-- Where the reply to a request brings a configuration that is not imported, the protocol of `VpnConnection` is in the
state `Preparing`; and no protocol gets into that state. -/
def Handled (env : Environment) : Event → ConnectionController → Prop
  | .stringArrived i connectionString, s =>
    i < s.requests.length → ∀ c ∈ (env.extractConfigFromData connectionString).config? s.config,
      (imports env c s.serversModel).isOk = true ∨ s.vpnConnectionState = .Preparing
  | .deliver r, _ => ∀ c ∈ r.stopping ++ r.starting, c.target ≠ .Preparing
  | .protocolChanged c, _ => c.target ≠ .Preparing
  | _, _ => True

instance (env : Environment) : ∀ e s, Decidable (Handled env e s)
  | .stringArrived i connectionString, s =>
    inferInstanceAs
      (Decidable (i < s.requests.length → ∀ c ∈ (env.extractConfigFromData connectionString).config? s.config, _))
  | .deliver r, _ => inferInstanceAs (Decidable (∀ c ∈ r.stopping ++ r.starting, c.target ≠ .Preparing))
  | .protocolChanged c, _ => inferInstanceAs (Decidable (c.target ≠ .Preparing))
  | .selectRegion _, _ | .openConnection, _ | .closeConnection, _ | .toggleConnection, _
  | .onCurrentContainerUpdated, _ | .onTranslationsUpdated, _ | .errorOccurred _ _, _ | .extractConfig _, _
  | .importConfig, _ | .protocolConfigUpdated _, _ => inferInstanceAs (Decidable True)

theorem live_of_ne (h : s.state ≠ .Preparing) : s.Live := fun hp => absurd hp h

theorem openConnection_live (s : ConnectionController) : s.openConnection.Live := by
  rcases openConnection_cases s with ⟨hstate, _⟩ | hw
  · exact live_of_ne (by simp [hstate])
  · intro _
    rw [hw]
    exact .inl (by simp)

theorem closeConnection_live (hs : s.Live) : s.closeConnection.Live := by
  intro hp
  rcases hs hp with h | h | ⟨args, h⟩
  · exact .inl h
  · exact .inr (.inl h)
  · exact .inr (.inr ⟨args, mem_append_left _ h⟩)

theorem importConfig_live_of_isOk (h : (imports env s.config s.serversModel).isOk = true) :
    (s.importConfig env).Live := by
  rcases importConfig_cases env s with ⟨e, he, _⟩ | ⟨added, _, ⟨hstate, _⟩ | ⟨w, _, hw⟩⟩
  · rw [he] at h
    cases h
  · exact live_of_ne (by simp [hstate])
  · intro _
    rw [hw]
    exact .inr (.inl (cons_ne_nil _ _))

/-- An import that fails does nothing about the state, unless the protocol of `VpnConnection` is preparing. -/
theorem importConfig_error {e : ErrorCode} (h : imports env s.config s.serversModel = .error e) :
    Quiet s (s.importConfig env) ∧ (s.vpnConnectionState = .Preparing → (s.importConfig env).state = .Error) := by
  rcases importConfig_cases env s with ⟨e', _, heq⟩ | ⟨added, hok, _⟩
  · have hq : Quiet s (s.onImportErrorOccurred (.connectionErrorOccurred (some e'))) :=
      onImportErrorOccurred_quiet rfl s
    rw [heq]
    refine ⟨⟨hq.work, hq.state⟩, fun hp => ?_⟩
    rw [onImportErrorOccurred, if_neg (fun hne => hne hp)]
    rfl
  · rw [h] at hok
    cases hok

theorem importConfig_live (hs : s.Live) : (s.importConfig env).Live := by
  cases hi : imports env s.config s.serversModel with
  | error e => exact (importConfig_error hi).1.live hs
  | ok added => exact importConfig_live_of_isOk (by rw [hi]; rfl)

/-- A reply leaves `Preparing` or waits. -/
theorem onStringArrived_live {connectionString : String}
    (h : ∀ c ∈ (env.extractConfigFromData connectionString).config? s.config,
      (imports env c s.serversModel).isOk = true ∨ s.vpnConnectionState = .Preparing) :
    (s.onStringArrived env connectionString).Live := by
  rcases onStringArrived_cases env connectionString s with ⟨hstate, _⟩ | ⟨c, hc, heq⟩
  · exact live_of_ne (by simp [hstate])
  · rw [heq]
    cases hi : imports env c s.serversModel with
    | ok added => exact importConfig_live_of_isOk (by rw [hi]; rfl)
    | error e =>
      have hp : s.vpnConnectionState = .Preparing := by
        refine (h c hc).resolve_left ?_
        rw [hi]
        exact nofun
      have hstate := (importConfig_error (s := { s with config := c }) hi).2 hp
      exact live_of_ne (by simp [hstate])

theorem resume_live (r : ProtocolReply) (w : Waiting) (s : ConnectionController) : (s.resume env r w).Live := by
  rcases resume_cases env r w s with ⟨hstate, _⟩ | ⟨containerConfig, t, _, hw⟩
  · exact live_of_ne (by simp [hstate])
  · intro _
    rw [hw]
    exact .inr (.inr ⟨_, mem_append_right _ (mem_singleton_self _)⟩)

theorem live_of_tail {calls : List VpnCall} (h : s.calls = .disconnectFromVpn :: calls) (hs : s.Live) :
    ({ s with calls } : ConnectionController).Live := by
  intro hp
  rcases hs hp with hrequests | hw | ⟨args, ha⟩
  · exact .inl hrequests
  · exact .inr (.inl hw)
  · have hm : VpnCall.connectToVpn args ∈ s.calls := ha
    rw [h] at hm
    exact .inr (.inr ⟨args, (mem_cons.mp hm).resolve_left nofun⟩)

theorem step_live {e : Event} (h : Handled env e s) (hs : s.Live) : (step env e s).Live := by
  cases e with
  | selectRegion id => exact hs
  | openConnection => exact openConnection_live s
  | closeConnection => exact closeConnection_live hs
  | toggleConnection =>
    rw [step]
    rcases toggleConnection_cases s with ⟨_, heq⟩ | heq | heq
    · rw [heq]
      exact (emit_quiet rfl s).live hs
    · rw [heq]
      exact closeConnection_live hs
    · rw [heq]
      exact openConnection_live s
  | onCurrentContainerUpdated =>
    show s.onCurrentContainerUpdated.Live
    unfold onCurrentContainerUpdated
    split
    · exact openConnection_live _
    · exact (emit_quiet rfl s).live hs
  | onTranslationsUpdated =>
    by_cases hp : s.state = .Preparing
    · intro _
      rw [step, work_onConnectionStateChanged]
      exact hs hp
    · exact live_of_ne (onConnectionStateChanged_ne_preparing hp true s)
  | errorOccurred i errorMessage =>
    rw [step]
    split
    · exact live_of_ne nofun
    · exact hs
  | stringArrived i connectionString =>
    rw [step]
    split
    · rename_i hi
      exact onStringArrived_live (h hi)
    · exact hs
  | extractConfig data => exact (extractConfigFromData_quiet data s).live hs
  | importConfig => exact importConfig_live hs
  | protocolConfigUpdated r =>
    rw [step]
    cases hw : s.waiting with
    | nil => exact hs
    | cons w waiting => exact resume_live r w _
  | deliver r =>
    have hst : ∀ c ∈ r.stopping, c.target ≠ .Preparing := fun c hc => h c (mem_append_left _ hc)
    have hsta : ∀ c ∈ r.starting, c.target ≠ .Preparing := fun c hc => h c (mem_append_right _ hc)
    rw [step]
    cases hca : s.calls with
    | nil => exact hs
    | cons call calls =>
      cases call with
      | connectToVpn args => exact live_of_ne (connectToVpn_ne_preparing hst hsta _)
      | disconnectFromVpn => exact (disconnectFromVpn_quiet hst _).live (live_of_tail hca hs)
  | protocolChanged c => exact (change_quiet h s).live hs

/-! ## Runs -/

/-- No request is without a reply, no call waits in the queue, and no `continueConnection` waits either. -/
def Settled (s : ConnectionController) : Prop := s.requests = [] ∧ s.calls = [] ∧ s.waiting = []

instance (s : ConnectionController) : Decidable s.Settled := inferInstanceAs (Decidable (_ ∧ _))

theorem Live.ne_preparing (hs : s.Live) (h : s.Settled) : s.state ≠ .Preparing := by
  intro hp
  obtain ⟨hrequests, hc, hw⟩ := h
  rcases hs hp with hb | hb | ⟨args, hb⟩
  · exact hb hrequests
  · exact hb hw
  · have hm : VpnCall.connectToVpn args ∈ s.calls := hb
    rw [hc] at hm
    cases hm

theorem toggleConnection_acts (h : s.state ≠ .Preparing) :
    s.toggleConnection = s.openConnection ∨ s.toggleConnection = s.closeConnection := by
  rcases toggleConnection_cases s with ⟨hp, _⟩ | hc | ho
  · exact absurd hp h
  · exact .inr hc
  · exact .inl ho

/-- **The button.** In every run, from any list of servers, in which no reply brings a configuration that is not
imported while the protocol of `VpnConnection` is not preparing, the state is not `Preparing` wherever nothing is under
way, and the button acts. -/
theorem run_not_stuck (serversModel : ServersModel) (events : List Event)
    (h : Guarded (step env) (Handled env) events (init serversModel))
    (hsettled : (run (step env) events (init serversModel)).Settled) :
    (run (step env) events (init serversModel)).state ≠ .Preparing ∧
      ((run (step env) events (init serversModel)).toggleConnection =
          (run (step env) events (init serversModel)).openConnection ∨
        (run (step env) events (init serversModel)).toggleConnection =
          (run (step env) events (init serversModel)).closeConnection) := by
  have hst (e : Event) (s : ConnectionController) (hg : Handled env e s) (hs : s.Live) : (step env e s).Live :=
    step_live hg hs
  have hl : (run (step env) events (init serversModel)).Live := run_invariant_of_guarded hst events h (live_of_ne nofun)
  have hstate := hl.ne_preparing hsettled
  exact ⟨hstate, toggleConnection_acts hstate⟩

/-! ## Examples -/

def connectedRun : List Event :=
  [.selectRegion "region", .toggleConnection, .stringArrived 0 "host",
    .protocolConfigUpdated ⟨none, [], none, false⟩,
    .deliver ⟨[], true, [.state .Connecting], true⟩, .protocolChanged (.state .Connected)]

theorem connectedRun_not_stuck : (run (step sampleEnvironment) connectedRun (init noServers)).Settled ∧
      (run (step sampleEnvironment) connectedRun (init noServers)).state ≠ .Preparing ∧
      ((run (step sampleEnvironment) connectedRun (init noServers)).toggleConnection =
          (run (step sampleEnvironment) connectedRun (init noServers)).openConnection ∨
        (run (step sampleEnvironment) connectedRun (init noServers)).toggleConnection =
          (run (step sampleEnvironment) connectedRun (init noServers)).closeConnection) :=
  ⟨by decide, run_not_stuck noServers connectedRun (by decide) (by decide)⟩

/-- The reply brings a configuration that cannot be imported. -/
def brokenRun : List Event := [.selectRegion "region", .toggleConnection, .stringArrived 0 "api_key"]

/-- Nothing is under way, and the button only says that a configuration is being prepared. -/
theorem brokenRun_stuck : (run (step sampleEnvironment) brokenRun (init noServers)).Settled ∧
      (run (step sampleEnvironment) brokenRun (init noServers)).state = .Preparing ∧
      (run (step sampleEnvironment) brokenRun (init noServers)).toggleConnection =
        (run (step sampleEnvironment) brokenRun (init noServers)).emit .preparingConfig := by
  decide

end ConnectionController

end Cimogus.Client
