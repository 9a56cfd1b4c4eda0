import Cimogus.Daemon.Reentrant

/-!
# The order of the daemon's signals

`deactivate(true)` emits `disconnected` before it removes the peers, and the handshake timer is never stopped: a check
that runs while `deactivate` waits for the tunnel process can still find the handshake and emit `connected`.
-/

namespace Cimogus.Daemon

open Lib Lib.Runs List

variable {qt : Qt}

/-! ## What the stretches of the commands do to the interface -/

variable {o : Outcome Core Event Wait Answer} (shaken : Finset String) {E : Event → Prop} (s : Session)
  (config : InterfaceConfig)

namespace Reentrant

def Quiet : Stretch Core := fun c _ c' => c.running = false → c'.running = false

/-- A stretch of `deactivate`: it leaves no interface at its end, and without one it does not succeed. -/
def Closing : Stretch Core := fun c r c' =>
  (c.running = false → c'.running = false ∧ r ≠ some true) ∧ (r ≠ none → c'.running = false)

theorem keeps_onDaemon {s : Step (State Backend)} (h : Step.Keeps held s) : Task.Keeps Core.running (onDaemon s) :=
  fun c => running_of_held h c.daemon

theorem passes_onDaemon {s : Step (State Backend)} (h : Step.Keeps held s) (hok : ∀ d, (s d).1 = true) :
    Task.Passes Core.running (onDaemon s) := .lift (fun c => running_of_held h c.daemon) fun c => hok c.daemon

theorem keeps_store : Task.Keeps Core.running (store config) := .seq (fun _ => rfl) .emit

theorem keeps_uapi (accepted : Bool) (m : Message) : Task.Keeps Core.running (uapi accepted m) :=
  .ite .call fun _ => rfl

variable (r : Reply)

theorem keeps_updatePeer (config : InterfaceConfig) : Task.Keeps Core.running (updatePeer qt r config) := by
  unfold updatePeer
  split
  · exact fun _ => rfl
  · exact .seq (keeps_onDaemon (held_addRoutes r config)) (keeps_uapi _ _)

theorem keeps_deletePeer (config : InterfaceConfig) : Task.Keeps Core.running (deletePeer qt r config) :=
  .seq (keeps_onDaemon (held_deleteRoutes r config)) (keeps_uapi _ _)

theorem keeps_removePeer_task (r : DownReplies) (hop : HopType) : Task.Keeps Core.running (removePeer qt r hop) := by
  intro c
  unfold removePeer
  split
  · rfl
  · exact Task.Keeps.seq (keeps_onDaemon (.each (fun _ _ => held_deleteRoutePrefix _ _) _)) (keeps_deletePeer _ _) c

theorem keeps_finish : Task.Keeps Core.running (finish config) := .seq (keeps_store config) .emit

/-- What comes before the interface is deleted. -/
theorem closing_seq {a b : DaemonTask} (ha : Task.Passes Core.running a) (hb : Task.Stretches Closing Closing b) :
    Task.Stretches Closing Closing (.seq a b) := by
  have hjo : Joins (fun c r c' => Core.running c' = Core.running c ∧ r ≠ some false) Closing Closing :=
    Task.Passes.joins (fun hr h => ⟨fun hc => h.1 (hr.trans hc), h.2⟩)
      fun hr => ⟨fun hc => ⟨hr.trans hc, nofun⟩, fun h => absurd rfl h⟩
  exact Task.Stretches.seq ha hb hjo hjo

theorem joins_never {F R : Stretch Core} : Joins (fun _ _ _ => False) F R := ⟨nofun, nofun, nofun⟩

theorem deleteInterface_spec (b : Backend) :
    (Kind.linux.deleteInterface r b).1 = b.running ∧ (Kind.linux.deleteInterface r b).2.running = false := by
  cases h : b.running <;> simp [Kind.deleteInterface, Kind.stopped, h]

/-- The interface is deleted, or there was none. -/
theorem stretches_delete (qt : Qt) (r : Reply) : Task.Stretches Closing Closing
    (.seq (onDaemon (State.onBackend ((platform .linux qt).deleteInterface r)))
      (onDaemon (.update fun d => { d with connections := fun _ => none }))) := by
  have hd : Task.Stretches (fun c r c' => r = some c.running ∧ c'.running = false) (fun _ _ _ => False)
      (onDaemon (State.onBackend ((platform .linux qt).deleteInterface r))) := fun c =>
    ⟨congrArg some (deleteInterface_spec r c.daemon.backend).1, (deleteInterface_spec r c.daemon.backend).2⟩
  refine hd.seq (.lift (F := fun c _ c' => Core.running c' = Core.running c) fun _ => rfl) ⟨?_, ?_, ?_⟩ joins_never
  · rintro c c' r c'' ⟨hc, hc'⟩ hs
    have hrunning : c.running = true := (Option.some.inj hc).symm
    exact ⟨fun h => absurd (hrunning.symm.trans h) (by decide), fun _ => hs.trans hc'⟩
  · rintro c c' ⟨_, hc'⟩
    exact ⟨fun _ => ⟨hc', nofun⟩, fun _ => hc'⟩
  · rintro c c' ⟨hc, _⟩
    cases hc

theorem stretches_deactivate (emitSignals : Bool) (r : DownReplies) :
    Task.Stretches Closing Closing (deactivate qt emitSignals r) := by
  have hru : Task.Passes Core.running (onDaemon (runDown qt r)) := by
    refine passes_onDaemon (held_runDown r) fun d => ?_
    unfold runDown
    split <;> rfl
  have hem : Task.Passes Core.running
      (if emitSignals then .emit .disconnected else .lift .skip : DaemonTask) := by
    split
    · exact .emit
    · exact .lift .skip fun _ => rfl
  have hr : Task.Passes Core.running (onDaemon (State.onBackend ((platform .linux qt).restoreResolvers .ok))) :=
    passes_onDaemon (fun _ => rfl) fun _ => rfl
  have hex : Task.Passes Core.running (onDaemon (State.removeExclusions (platform .linux qt) r)) :=
    passes_onDaemon (held_removeExclusions r) (State.removeExclusions_fst r)
  -- the test for an interface ends `deactivate` only without one
  have he : Task.Stretches (fun c r c' => c' = c ∧ r = some c.running) (fun _ _ _ => False)
      (.ite Core.running (.lift .skip) (.lift .stop) : DaemonTask) := by
    intro c
    rw [Task.ite]
    split
    · rename_i hc
      exact ⟨rfl, by simp [hc]⟩
    · rename_i hc
      exact ⟨rfl, by simp [Bool.eq_false_iff.mpr hc]⟩
  have hjo : Joins (fun c r c' => c' = c ∧ r = some (Core.running c)) Closing Closing := by
    refine ⟨?_, ?_, ?_⟩
    · rintro c c' r c'' ⟨rfl, _⟩ h
      exact h
    · rintro c c' ⟨rfl, h⟩
      have hc : Core.running c' = false := (Option.some.inj h).symm
      exact ⟨fun _ => ⟨hc, fun hno => by cases hno⟩, fun _ => hc⟩
    · rintro c c' ⟨_, h⟩
      cases h
  have hp : Task.Passes Core.running (.each (removePeer qt r) hopTypes) := .each (keeps_removePeer_task r) hopTypes
  have hrest := closing_seq hp (closing_seq hex (stretches_delete qt r.deleteInterface))
  exact closing_seq hru (closing_seq hem (closing_seq hr (he.seq hrest hjo joins_never)))

theorem quiet_seq {a b : DaemonTask} (ha : Task.Stretches (fun _ _ _ => True) Quiet a)
    (hb : Task.Keeps Core.running b) :
    Task.Stretches (fun _ _ _ => True) Quiet (.seq a b) := by
  have hq : Task.Stretches (fun c _ c' => Core.running c' = Core.running c) Quiet b :=
    hb.mono (fun _ _ _ h => h) fun _ _ _ h hc => h.trans hc
  exact ha.seq hq ⟨fun _ _ => trivial, fun _ => trivial, fun _ => trivial⟩
    ⟨fun hfi hs hc => hs.trans (hfi hc), fun h => h, fun h => h⟩

theorem stretches_bringUp (config : InterfaceConfig) :
    Task.Stretches (fun _ _ _ => True) Quiet (bringUp qt r config) := by
  have hna : ∀ found, Task.Stretches (fun _ _ _ => True) Quiet (tunnelName found) := by
    intro found c
    refine ⟨trivial, fun a c => ?_⟩
    dsimp only
    split
    · exact id
    · exact fun _ => rfl
  have ha : Task.Stretches (fun _ _ _ => True) Quiet (addInterface qt r config) := by
    refine .ite (fun _ => trivial) ?_
    split
    · exact fun _ => trivial
    · have hs : Task.Stretches (fun _ _ _ => True) (fun _ _ _ => False) (.lift (.update Core.start) : DaemonTask) :=
        fun _ => trivial
      refine hs.seq (quiet_seq (hna _) ?_) ⟨fun _ _ => trivial, fun _ => trivial, fun _ => trivial⟩ joins_never
      exact .seq (fun _ => rfl) (.seq (keeps_uapi _ _) fun _ => rfl)
  exact .ite (fun _ => trivial) ha

theorem stretches_activateFresh (r : FreshReplies) (config : InterfaceConfig) :
    Task.Stretches (fun _ _ _ => True) Quiet (activateFresh qt r config) := by
  exact quiet_seq (stretches_bringUp _ _) <| .seq (keeps_onDaemon (held_addExclusions _ _)) <|
    .seq (keeps_updatePeer _ _) <| .seq (keeps_onDaemon (held_configureRest _ _)) (keeps_finish config)

theorem keeps_switchServer (r : SwitchReplies) (lastConfig config : InterfaceConfig) :
    Task.Keeps Core.running (switchServer qt r lastConfig config) := by
  have hp : Task.Keeps Core.running (if config.serverPublicKey ≠ lastConfig.serverPublicKey
      then deletePeer qt r.deletePeer lastConfig else .lift .skip : DaemonTask) := by
    split
    · exact keeps_deletePeer _ _
    · exact fun _ => rfl
  exact .seq (keeps_onDaemon (held_addExclusions _ _)) <| .seq (keeps_updatePeer _ _) <|
    .seq (keeps_onDaemon (held_switchRoutes _ _)) <| .seq (keeps_onDaemon (held_delExclusions _ _)) <|
    .seq (keeps_onDaemon (held_removeLastRoutes _ _ _)) <| .seq hp (keeps_store config)

theorem keeps_afterSwitch (r : SwitchReplies) (config : InterfaceConfig) :
    Task.Keeps Core.running (afterSwitch qt r config) :=
  .seq (fun _ => rfl) <|
  .seq (keeps_onDaemon (held_maybeUpdateResolvers _ _)) <|
  .seq (fun _ => rfl) (keeps_finish config)

/-- Only the first stretch of `activate`, or the one that begins it again after a `deactivate`, starts the interface. -/
theorem stretches_activateBody (r : Replies) (config : InterfaceConfig) :
    Task.Stretches (fun _ _ _ => True) Quiet (activateBody qt r config) := by
  intro c
  unfold activateBody
  split
  · exact stretches_activateFresh _ _ c
  · rename_i lastConfig _
    split
    · have hk : Task.Keeps Core.running
          (.seq (switchServer qt r.switch lastConfig config) (afterSwitch qt r.switch config)) :=
        .seq (keeps_switchServer _ _ _) (keeps_afterSwitch _ _)
      exact hk.mono (fun _ _ _ _ => trivial) (fun _ _ _ h hc => h.trans hc) c
    · have hfr : Task.Stretches (fun _ _ _ => True) Quiet
          (.seq (.emit .activating) (activateFresh qt r.fresh config)) :=
        stretches_activateFresh r.fresh config
      refine (stretches_deactivate false r.down).seq hfr
        ⟨fun _ _ => trivial, fun _ => trivial, fun _ => trivial⟩ ?_ c
      exact ⟨fun hcl _ hc => absurd rfl (hcl.1 hc).2, fun h hc => (h.1 hc).1, fun h hc => (h.1 hc).1⟩

/-! ## What the commands emit -/

/-- Neither `disconnected` nor `connected`. -/
def Mild : Event → Prop
  | .disconnected | .connected _ _ => False
  | _ => True

theorem emits_updatePeer (config : InterfaceConfig) : Task.Emits E (updatePeer qt r config) := by
  unfold updatePeer
  split
  · exact .lift
  · exact .seq .lift (.ite .call .lift)

theorem emits_deletePeer (config : InterfaceConfig) : Task.Emits E (deletePeer qt r config) :=
  .seq .lift (.ite .call .lift)

theorem emits_deactivate {emitSignals : Bool} (hE : emitSignals = true → E .disconnected) (r : DownReplies) :
    Task.Emits E (deactivate qt emitSignals r) := by
  have he : Task.Emits E (if emitSignals then .emit .disconnected else .lift .skip : DaemonTask) := by
    split
    · rename_i h
      exact .emit (hE h)
    · exact .lift
  have hbody : ∀ hop, Task.Emits E (removePeer qt r hop) := by
    intro hop c
    unfold removePeer
    split
    · trivial
    · exact Task.Emits.seq .lift (emits_deletePeer _ _) c
  exact .seq .lift <| .seq he <| .seq .lift <| .seq (.ite .lift .lift) <| .seq (.each hbody _) <| .seq .lift <|
    .seq .lift .lift

theorem emits_finish : Task.Emits Mild (finish config) := .seq (.seq .lift (.emit trivial)) (.emit trivial)

theorem emits_activateFresh (r : FreshReplies) (config : InterfaceConfig) :
    Task.Emits Mild (activateFresh qt r config) := by
  have hna : ∀ found, Task.Emits Mild (tunnelName found) := by
    intro found c a c'
    dsimp only
    split <;> trivial
  have ha : Task.Emits Mild (addInterface qt r.addInterface config) := by
    refine .ite .lift ?_
    split
    · exact .lift
    · exact .seq .lift <| .seq (hna _) <| .seq .lift <| .seq (.ite .call .lift) .lift
  exact .seq (.ite .lift ha) <| .seq .lift <| .seq (emits_updatePeer _ _) <| .seq .lift (emits_finish config)

theorem emits_activateBody (r : Replies) (config : InterfaceConfig) : Task.Emits Mild (activateBody qt r config) := by
  intro c
  unfold activateBody
  split
  · exact emits_activateFresh _ _ c
  · rename_i lastConfig _
    have hp : Task.Emits Mild (if config.serverPublicKey ≠ lastConfig.serverPublicKey
        then deletePeer qt r.switch.deletePeer lastConfig else .lift .skip : DaemonTask) := by
      split
      · exact emits_deletePeer _ _
      · exact .lift
    have hs : Task.Emits Mild (switchServer qt r.switch lastConfig config) :=
      .seq .lift <| .seq (emits_updatePeer _ _) <| .seq .lift <| .seq .lift <| .seq .lift <| .seq hp <|
      .seq .lift (.emit trivial)
    split
    · exact Task.Emits.seq hs (.seq .lift <| .seq .lift <| .seq .lift (emits_finish config)) c
    · exact Task.Emits.seq (emits_deactivate nofun _) (.seq (.emit trivial) (emits_activateFresh _ _)) c

end Reentrant

/-! ## The order -/

/-- `disconnected` was emitted and no `activate` has begun since. -/
def silenced : List Event → Bool
  | [] => false
  | .disconnected :: _ => true
  | .activating :: _ => false
  | _ :: events => silenced events

/-- No `connected` between a `disconnected` and the next `activate`; the last event comes first. -/
def Ordered : List Event → Prop
  | [] => True
  | .connected _ _ :: events => silenced events = false ∧ Ordered events
  | _ :: events => Ordered events

instance decidableOrdered : DecidablePred Ordered
  | [] => inferInstanceAs (Decidable True)
  | .connected _ _ :: events => @instDecidableAnd _ _ _ (decidableOrdered events)
  | .activating :: events | .disconnected :: events | .stored _ :: events | .timerStarted :: events =>
    decidableOrdered events

/-- The entry of the hop type has emitted `connected` since it was stored. -/
def announced (hop : HopType) : List Event → Bool
  | [] => false
  | .connected h _ :: events => h = hop || announced hop events
  | .stored h :: events => h ≠ hop && announced hop events
  | _ :: events => announced hop events

/-- Every entry emits `connected` at most once. -/
def OncePerEntry : List Event → Prop
  | [] => True
  | .connected hop _ :: events => announced hop events = false ∧ OncePerEntry events
  | _ :: events => OncePerEntry events

section Lists

open Reentrant (Mild)

variable {new events : List Event}

theorem silenced_of_mild (h : ∀ e ∈ new, Mild e) (hs : silenced (new ++ events) = true) :
    silenced events = true := by
  induction new with
  | nil => exact hs
  | cons e new ih =>
    have ht := ih fun e he => h e (mem_cons_of_mem _ he)
    cases e with
    | activating => cases hs
    | disconnected | connected => exact (h _ mem_cons_self).elim
    | stored | timerStarted => exact ht hs

theorem ordered_of_mild (h : ∀ e ∈ new, Mild e) (ho : Ordered events) : Ordered (new ++ events) := by
  induction new with
  | nil => exact ho
  | cons e new ih =>
    have ht := ih fun e he => h e (mem_cons_of_mem _ he)
    cases e with
    | disconnected | connected => exact (h _ mem_cons_self).elim
    | activating | stored | timerStarted => exact ht

theorem ordered_of_disconnected (h : ∀ e ∈ new, e = .disconnected) (ho : Ordered events) :
    Ordered (new ++ events) := by
  induction new with
  | nil => exact ho
  | cons e new ih =>
    obtain rfl := h e mem_cons_self
    exact ih fun e he => h e (mem_cons_of_mem _ he)

def Loud : Event → Prop
  | .connected _ _ | .timerStarted => True
  | _ => False

theorem ordered_of_loud (h : ∀ e ∈ new, Loud e) (hs : silenced events = false) (ho : Ordered events) :
    silenced (new ++ events) = false ∧ Ordered (new ++ events) := by
  induction new with
  | nil => exact ⟨hs, ho⟩
  | cons e new ih =>
    have ht := ih fun e he => h e (mem_cons_of_mem _ he)
    cases e with
    | connected hop pubkey => exact ⟨ht.1, ht.1, ht.2⟩
    | timerStarted => exact ht
    | activating | disconnected | stored => exact (h _ mem_cons_self).elim

end Lists

namespace Session

/-! ## What the parts of a step do -/

def activities (s : Session) : List Activity := s.stack.map Frame.activity

theorem proceed_spec {F R : Stretch Core} {c : Core} (ho : o.Stretches F R c) (he : o.Emits E) (client : Option Nat)
    (request : Request) (s : Session) :
      ∃ new, (∀ e ∈ new, E e) ∧ (s.proceed client request o).events = new ++ s.events ∧
      ((∃ ok, F c (some ok) (s.proceed client request o).core ∧
        (s.proceed client request o).activities = s.activities) ∨
        ∃ resume, F c none (s.proceed client request o).core ∧
          (s.proceed client request o).activities = .command request resume :: s.activities ∧
          ∀ a c, (resume a c).Stretches R R c ∧ (resume a c).Emits E) := by
  induction o generalizing s with
  | done ok x => exact ⟨[], nofun, rfl, .inl ⟨ok, ho, rfl⟩⟩
  | emit e rest ih =>
    obtain ⟨new, hnew, hev, hen⟩ := ih ho he.2 (s.record e)
    refine ⟨new ++ [e], ?_, ?_, hen⟩
    · intro e' h
      rcases mem_append.mp h with h | h
      · exact hnew e' h
      · exact mem_singleton.mp h ▸ he.1
    · rw [proceed, hev, append_assoc]
      rfl
  | wait w x resume ih => exact ⟨[], nofun, rfl, .inr ⟨resume, ho.1, rfl, fun a c => ⟨ho.2 a c, he a c⟩⟩⟩

theorem checkEntry_spec (hop : HopType) :
    checkEntry shaken s hop = s ∨ ∃ config, s.core.daemon.connections hop = some config ∧ s.dates hop = false ∧
      config.serverPublicKey ∈ shaken ∧
      checkEntry shaken s hop = s.record (.connected hop config.serverPublicKey) := by
  unfold checkEntry
  split
  · exact .inl rfl
  · rename_i config hc
    split
    · rename_i h
      simp only [Bool.and_eq_true, Bool.not_eq_true', decide_eq_true_eq] at h
      exact .inr ⟨config, hc, h.1, h.2, rfl⟩
    · exact .inl rfl

theorem foldl_checkEntry_spec (ho : List HopType) (s : Session) :
    ∃ new, (∀ e ∈ new, Loud e) ∧ (shaken = ∅ → new = []) ∧
      (ho.foldl (checkEntry shaken) s).events = new ++ s.events := by
  induction ho generalizing s with
  | nil => exact ⟨[], nofun, fun _ => rfl, rfl⟩
  | cons hop ho ih =>
    obtain ⟨new, hnew, hem, he⟩ := ih (checkEntry shaken s hop)
    rw [foldl_cons, he]
    rcases checkEntry_spec shaken s hop with heq | ⟨config, _, _, hkey, heq⟩
    · rw [heq]
      exact ⟨new, hnew, hem, rfl⟩
    · rw [heq]
      refine ⟨new ++ [.connected hop config.serverPublicKey], ?_, ?_, ?_⟩
      · intro e h
        rcases mem_append.mp h with h | h
        · exact hnew e h
        · rw [mem_singleton.mp h]
          trivial
      · rintro rfl
        simp at hkey
      · rw [append_assoc]
        rfl

theorem checkHandshake_spec :
    ∃ new, (∀ e ∈ new, Loud e) ∧ (shaken = ∅ → ∀ e ∈ new, Reentrant.Mild e) ∧
      (s.checkHandshake shaken).events = new ++ s.events := by
  obtain ⟨new, hnew, hem, hev⟩ := foldl_checkEntry_spec shaken hopTypes s
  unfold checkHandshake
  dsimp only
  split
  · refine ⟨.timerStarted :: new, ?_, ?_, ?_⟩
    · intro e h
      rcases mem_cons.mp h with rfl | h
      · trivial
      · exact hnew e h
    · intro h
      rw [hem h]
      intro e he
      rw [mem_singleton.mp he]
      trivial
    · rw [cons_append, ← hev]
      rfl
  · exact ⟨new, hnew, fun h e he => by simp [hem h] at he, hev⟩

theorem checkHandshake_core : (s.checkHandshake shaken).core = s.core := checkHandshake_keeps (fun _ _ => rfl) shaken s

theorem checkHandshake_activities :
    (s.checkHandshake shaken).activities = s.activities := checkHandshake_keeps (fun _ _ => rfl) shaken s

end Session

/-! ## The calls that wait -/

namespace Request

open Reentrant

def Rest : Request → Stretch Core
  | .activate .. => Quiet
  | .deactivate _ => Closing

def Emitted : Request → Event → Prop
  | .activate .. => Mild
  | .deactivate _ => (· = .disconnected)

theorem stretches (request : Request) : Task.Stretches (fun _ _ _ => True) request.Rest (request.task qt) := by
  cases request with
  | activate r config => exact stretches_activateBody r config
  | deactivate r => exact (stretches_deactivate true r).mono (fun _ _ _ _ => trivial) fun _ _ _ h => h

theorem emits (request : Request) : Task.Emits request.Emitted (request.task qt) := by
  cases request with
  | activate r config => exact .seq (.emit trivial) (emits_activateBody r config)
  | deactivate r => exact emits_deactivate (E := (· = .disconnected)) (fun _ => rfl) r

theorem emitted_not_connected {request : Request} {e : Event} (h : request.Emitted e) (hop : HopType)
    (pubkey : String) :
    e ≠ .connected hop pubkey := by
  rintro rfl
  cases request with
  | activate => exact h
  | deactivate => cases h

end Request

namespace Activity

def Checks : Activity → Prop
  | .check => True
  | _ => False

def Closes : Activity → Prop
  | .command (.deactivate _) _ => True
  | _ => False

/-- What is left of a command does what the command's stretches do. -/
def Tame : Activity → Prop
  | .command request resume =>
    ∀ a c, (resume a c).Stretches request.Rest request.Rest c ∧ (resume a c).Emits request.Emitted
  | _ => True

end Activity

theorem Wait.handled_running (w : Wait) (c : Core) : (w.handled c).running = c.running := by
  unfold Wait.handled
  split
  · cases w.message <;> rfl
  · rfl

theorem Session.activities_handled {depth : Nat} {f : Frame} (hf : s.stack[depth]? = some f) (answer : Option Answer) :
    (s.stack.set depth { f with answer }).map Frame.activity = s.activities := by
  obtain ⟨hlt, hg⟩ := List.getElem?_eq_some_iff.mp hf
  apply ext_getElem?
  intro i
  rw [map_set, getElem?_set, Session.activities]
  split
  · rename_i hi
    subst hi
    simp [hlt, hg]
  · rfl

/-- Every call that waits is in a state that its own stretches lead to. -/
def Tamed (s : Session) : Prop := ∀ a ∈ s.activities, a.Tame

namespace Tamed

variable {s : Session}

theorem proceed {F : Stretch Core} {c : Core} {request : Request} (h : Tamed s) (ho : o.Stretches F request.Rest c)
    (he : o.Emits request.Emitted) (client : Option Nat) : Tamed (s.proceed client request o) := by
  obtain ⟨_, _, _, ⟨_, _, hac⟩ | ⟨resume, _, hac, hr⟩⟩ := Session.proceed_spec ho he client request s
  · rw [Tamed, hac]
    exact h
  · rw [Tamed, hac]
    intro a ha
    rcases mem_cons.mp ha with rfl | ha
    · exact hr
    · exact h a ha

theorem step (c : Choice) (s : Session) (h : Tamed s) : Tamed (c.step qt s) := by
  have hg := c.step_goes qt s
  generalize c.step qt s = s' at hg
  have has : ∀ s' client a, Session.activities s' = s.activities → Activity.Tame a → Tamed (s'.ask client a) := by
    intro s' client a hac ht b hb
    rcases mem_cons.mp hb with rfl | hb
    · exact ht
    · exact h b (hac ▸ hb)
  cases hg with
  | idle => exact h
  | request client command =>
    exact proceed (s := { s with requests := command :: s.requests }) h (command.stretches s.core)
      (command.emits s.core) _
  | status client => exact has _ _ _ rfl trivial
  | check => exact has { s with timer := false } _ _ rfl trivial
  | checkFails =>
    rw [Tamed, Session.checkHandshake_activities]
    exact h
  | handle depth shaken f hf =>
    have hac := s.activities_handled hf (some (f.wait.answer shaken s.core))
    exact fun a ha => h a (hac ▸ ha)
  | wake read f rest hstack =>
    have hac : s.activities = f.activity :: { s with stack := rest }.activities := by simp [Session.activities, hstack]
    have hrest : Tamed { s with stack := rest } := fun b hb => h b (hac ▸ mem_cons_of_mem _ hb)
    have ht := h f.activity (hac ▸ mem_cons_self)
    unfold Session.wake
    cases hact : f.activity with
    | command request resume =>
      rw [hact] at ht
      exact hrest.proceed (ht _ _).1 (ht _ _).2 _
    | check =>
      rw [Tamed, Session.checkHandshake_activities]
      exact hrest
    | status => exact hrest
  | died => exact h

end Tamed

/-! ## One `connected` for an entry -/

/-- The dates say which entries have emitted `connected`. -/
structure Once (s : Session) : Prop where
  dates : ∀ hop, s.dates hop = announced hop s.events
  once : OncePerEntry s.events

namespace Once

variable {s : Session}

theorem record {e : Event} (h : Once s) (he : ∀ hop pubkey, e = .connected hop pubkey → s.dates hop = false) :
    Once (s.record e) := by
  cases e with
  | connected hop pubkey =>
    refine ⟨fun ho' => ?_, (h.dates hop).symm.trans (he hop pubkey rfl), h.once⟩
    by_cases hh : ho' = hop
    · subst hh
      simp [Session.record, announced]
    · simp [Session.record, announced, Function.update_of_ne hh, Ne.symm hh, h.dates]
  | stored hop =>
    refine ⟨fun ho' => ?_, h.once⟩
    by_cases hh : ho' = hop
    · subst hh
      simp [Session.record, announced]
    · simp [Session.record, announced, Function.update_of_ne hh, Ne.symm hh, h.dates]
  | activating | disconnected | timerStarted => exact ⟨h.dates, h.once⟩

theorem proceed {request : Request} (h : Once s) (he : o.Emits request.Emitted) (client : Option Nat) :
    Once (s.proceed client request o) := by
  induction o generalizing s with
  | done ok c => exact ⟨h.dates, h.once⟩
  | emit e rest ih =>
    exact ih (h.record fun hop pubkey hc => absurd hc (Request.emitted_not_connected he.1 hop pubkey)) he.2
  | wait w c resume => exact ⟨h.dates, h.once⟩

theorem checkHandshake (h : Once s) (shaken : Finset String) : Once (s.checkHandshake shaken) := by
  have hfo : ∀ (ho : List HopType) (s : Session), Once s → Once (ho.foldl (Session.checkEntry shaken) s) := by
    intro ho
    induction ho with
    | nil => exact fun _ h => h
    | cons hop ho ih =>
      intro s h
      refine ih _ ?_
      rcases s.checkEntry_spec shaken hop with heq | ⟨config, _, hd, _, heq⟩
      · rwa [heq]
      · rw [heq]
        refine h.record fun ho' pubkey hc => ?_
        cases hc
        exact hd
  unfold Session.checkHandshake
  dsimp only
  split
  · exact (hfo _ _ h).record nofun
  · exact hfo _ _ h

theorem step (c : Choice) (s : Session) (ht : Tamed s) (h : Once s) : Once (c.step qt s) := by
  have hg := c.step_goes qt s
  generalize c.step qt s = s' at hg
  cases hg with
  | idle => exact h
  | request client command =>
    exact proceed (s := { s with requests := command :: s.requests }) ⟨h.dates, h.once⟩ (command.emits s.core) _
  | status | check | handle | died => exact ⟨h.dates, h.once⟩
  | checkFails => exact checkHandshake (s := { s with timer := false }) ⟨h.dates, h.once⟩ ∅
  | wake read f rest hstack =>
    have hrest : Once { s with stack := rest } := ⟨h.dates, h.once⟩
    have hf := ht f.activity (by simp [Session.activities, hstack])
    unfold Session.wake
    cases hact : f.activity with
    | command request resume =>
      rw [hact] at hf
      exact hrest.proceed (hf _ _).2 _
    | check => exact hrest.checkHandshake _
    | status => exact hrest

end Once

/-! ## Runs in which checks and `deactivate` stay apart -/

/-- No `deactivate(true)` begins while a check is in progress, and no check while a `deactivate(true)` is. -/
def Apart : Choice → Session → Prop
  | .request _ (.deactivate _), s => ∀ a ∈ s.activities, ¬a.Checks
  | .timeout, s => ∀ a ∈ s.activities, ¬a.Closes
  | _, _ => True

instance : DecidablePred Activity.Checks
  | .check => inferInstanceAs (Decidable True)
  | .status | .command .. => inferInstanceAs (Decidable False)

instance : DecidablePred Activity.Closes
  | .command (.deactivate _) _ => inferInstanceAs (Decidable True)
  | .command (.activate ..) _ | .check | .status => inferInstanceAs (Decidable False)

instance : ∀ c s, Decidable (Apart c s)
  | .request _ (.deactivate _), s => inferInstanceAs (Decidable (∀ a ∈ s.activities, ¬a.Checks))
  | .timeout, s => inferInstanceAs (Decidable (∀ a ∈ s.activities, ¬a.Closes))
  | .request _ (.activate ..), _ | .status _, _ | .handle .., _ | .resume _, _ | .die, _ =>
    inferInstanceAs (Decidable True)

structure Orderly (s : Session) : Prop where
  ordered : Ordered s.events
  /-- After `disconnected` there is no interface, or `deactivate` is still at work. -/
  silent : silenced s.events = true → s.core.running = false ∨ ∃ a ∈ s.activities, a.Closes
  apart : (silenced s.events = true ∨ ∃ a ∈ s.activities, a.Closes) → ∀ a ∈ s.activities, ¬a.Checks

namespace Orderly

variable {s : Session}

theorem congr {s' : Session} (h : Orderly s) (he : s'.events = s.events) (hcore : s'.core.running = s.core.running)
    (ha : s'.activities = s.activities) : Orderly s' := by
  refine ⟨he ▸ h.ordered, ?_, ?_⟩
  · rw [he, hcore, ha]
    exact h.silent
  · rw [he, ha]
    exact h.apart

/-- A stretch of `activate` starts the interface only where `disconnected` is not the last word. -/
theorem proceed_activate {F : Stretch Core} (h : Orderly s) (ho : o.Stretches F Reentrant.Quiet s.core)
    (he : o.Emits Reentrant.Mild)
    (hF : silenced s.events = true → ∀ r c, F s.core r c → s.core.running = false → c.running = false)
    (client : Option Nat) (r : Replies) (config : InterfaceConfig) :
    Orderly (s.proceed client (.activate r config) o) := by
  obtain ⟨new, hnew, hev, hen⟩ := Session.proceed_spec ho he client (.activate r config) s
  have hsi : silenced (new ++ s.events) = true → silenced s.events = true := silenced_of_mild hnew
  have hor : Ordered (new ++ s.events) := ordered_of_mild hnew h.ordered
  rcases hen with ⟨ok, hcore, hac⟩ | ⟨resume, hcore, hac, _⟩
  · refine ⟨hev ▸ hor, ?_, ?_⟩
    · rw [hev, hac]
      exact fun hs => (h.silent (hsi hs)).imp_left (hF (hsi hs) _ _ hcore)
    · rw [hev, hac]
      exact fun hs => h.apart (hs.imp_left hsi)
  · have hc : (∃ a ∈ (s.proceed client (.activate r config) o).activities, a.Closes) ↔
        ∃ a ∈ s.activities, a.Closes := by
      simp [hac, Activity.Closes]
    refine ⟨hev ▸ hor, ?_, ?_⟩
    · rw [hev, hc]
      exact fun hs => (h.silent (hsi hs)).imp_left (hF (hsi hs) _ _ hcore)
    · rw [hev, hc, hac]
      intro hs a ha
      rcases mem_cons.mp ha with rfl | ha
      · exact id
      · exact h.apart (hs.imp_left hsi) a ha

theorem proceed_deactivate (hor : Ordered s.events) (hc : ∀ a ∈ s.activities, ¬a.Checks)
    (ho : o.Stretches Reentrant.Closing Reentrant.Closing s.core) (he : o.Emits (· = .disconnected))
    (client : Option Nat) (r : DownReplies) : Orderly (s.proceed client (.deactivate r) o) := by
  obtain ⟨new, hnew, hev, hen⟩ := Session.proceed_spec ho he client (.deactivate r) s
  have ho' : Ordered (new ++ s.events) := ordered_of_disconnected hnew hor
  rcases hen with ⟨ok, hcore, hac⟩ | ⟨resume, _, hac, _⟩
  · exact ⟨hev ▸ ho', fun _ => .inl (hcore.2 nofun), fun _ => hac ▸ hc⟩
  · refine ⟨hev ▸ ho', fun _ => .inr ?_, fun _ => ?_⟩
    · rw [hac]
      exact ⟨_, mem_cons_self, trivial⟩
    · rw [hac]
      intro a ha
      rcases mem_cons.mp ha with rfl | ha
      · exact id
      · exact hc a ha

theorem pop {s' : Session} {a : Activity} (h : Orderly s) (hac : s.activities = a :: s'.activities) (ha : ¬a.Closes)
    (he : s'.events = s.events) (hcore : s'.core = s.core) : Orderly s' := by
  have hc : (∃ a ∈ s.activities, a.Closes) ↔ ∃ a ∈ s'.activities, a.Closes := by simp [hac, ha]
  refine ⟨he ▸ h.ordered, ?_, ?_⟩
  · rw [he, hcore, ← hc]
    exact h.silent
  · rw [he, ← hc]
    exact fun hs b hb => h.apart hs b (hac ▸ mem_cons_of_mem _ hb)

theorem checkHandshake {shaken : Finset String} (h : Orderly s) (hs : silenced s.events = false ∨ shaken = ∅) :
    Orderly (s.checkHandshake shaken) := by
  obtain ⟨new, hnew, hem, he⟩ := s.checkHandshake_spec shaken
  have hkey : Ordered (new ++ s.events) ∧ (silenced (new ++ s.events) = true → silenced s.events = true) := by
    rcases hs with hs | hs
    · have hl := ordered_of_loud hnew hs h.ordered
      exact ⟨hl.2, fun h => absurd (hl.1.symm.trans h) (by decide)⟩
    · exact ⟨ordered_of_mild (hem hs) h.ordered, silenced_of_mild (hem hs)⟩
  refine ⟨he ▸ hkey.1, ?_, ?_⟩
  · rw [he, Session.checkHandshake_core, Session.checkHandshake_activities]
    exact fun hs => h.silent (hkey.2 hs)
  · rw [he, Session.checkHandshake_activities]
    exact fun hs => h.apart (hs.imp_left hkey.2)

theorem ask {client : Option Nat} {a : Activity} (h : Orderly s) (hclo : ¬a.Closes)
    (hc : (silenced s.events = true ∨ ∃ a ∈ s.activities, a.Closes) → ¬a.Checks) :
    Orderly (s.ask client a) := by
  have ha : (s.ask client a).activities = a :: s.activities := rfl
  have hcl : (∃ b ∈ (s.ask client a).activities, b.Closes) ↔ ∃ b ∈ s.activities, b.Closes := by
    simp [ha, hclo]
  refine ⟨h.ordered, ?_, ?_⟩
  · rw [hcl]
    exact h.silent
  · rw [hcl]
    intro hs b hb
    rcases mem_cons.mp hb with rfl | hb
    · exact hc hs
    · exact h.apart hs b hb

/-- The innermost call goes on. -/
theorem wake {f : Frame} {rest : List Frame} (h : Orderly s) (ht : Tamed s) (hstack : s.stack = f :: rest)
    (a : Answer) :
    Orderly ({ s with stack := rest }.wake f a) := by
  have ha : s.activities = f.activity :: { s with stack := rest }.activities := by simp [Session.activities, hstack]
  have hm : f.activity ∈ s.activities := ha ▸ mem_cons_self
  have hf := ht _ hm
  unfold Session.wake
  cases hact : f.activity with
  | command request resume =>
    rw [hact] at ha hf hm
    cases request with
    | activate r config =>
      exact (h.pop ha id rfl rfl).proceed_activate (hf a _).1 (hf a _).2 (fun _ _ _ hq => hq) _ r config
    | deactivate r =>
      have hc := h.apart (.inr ⟨_, hm, trivial⟩)
      exact proceed_deactivate (s := { s with stack := rest }) h.ordered
        (fun b hb => hc b (ha ▸ mem_cons_of_mem _ hb)) (hf a _).1 (hf a _).2 _ r
  | check =>
    rw [hact] at ha hm
    -- after `disconnected` no check is left
    have hs : silenced s.events = false := by
      cases hs : silenced s.events with
      | true => exact absurd trivial (h.apart (.inl hs) _ hm)
      | false => rfl
    exact (h.pop ha id rfl rfl).checkHandshake (.inl hs)
  | status =>
    rw [hact] at ha
    exact h.pop ha id rfl rfl

theorem step (c : Choice) (s : Session) (hg : Apart c s) (ht : Tamed s) (h : Orderly s) : Orderly (c.step qt s) := by
  have hgo := c.step_goes qt s
  generalize c.step qt s = s' at hgo
  cases hgo with
  | idle => exact h
  | request client command =>
    cases command with
    | activate r config =>
      have hnew : Orderly ({ s with requests := .activate r config :: s.requests }.record .activating) :=
        ⟨h.ordered, nofun, fun hs => h.apart (.inr (hs.resolve_left nofun))⟩
      exact hnew.proceed_activate (Reentrant.stretches_activateBody r config _)
        (Reentrant.emits_activateBody r config _) nofun
        _ r config
    | deactivate r =>
      exact proceed_deactivate (s := { s with requests := .deactivate r :: s.requests }) h.ordered hg
        (Reentrant.stretches_deactivate true r _) ((Request.deactivate r).emits s.core) _ r
  | status client => exact h.ask id fun _ => id
  | check hrunning =>
    have hfi : Orderly { s with timer := false } := h.congr rfl rfl rfl
    refine hfi.ask id fun hs => absurd hs ?_
    -- the interface is up and no `deactivate` is at work
    have hno : ¬∃ a ∈ s.activities, a.Closes := fun ⟨a, ha, hc⟩ => hg a ha hc
    rintro (hs | hs)
    · exact (h.silent hs).elim (fun hdown => absurd (hdown.symm.trans hrunning) (by decide)) hno
    · exact hno hs
  | checkFails =>
    have hfi : Orderly { s with timer := false } := h.congr rfl rfl rfl
    exact hfi.checkHandshake (.inr rfl)
  | handle depth shaken f hf => exact h.congr rfl (f.wait.handled_running s.core) (s.activities_handled hf _)
  | wake read f rest hstack => exact h.wake ht hstack _
  | died => exact ⟨h.ordered, fun _ => .inl rfl, h.apart⟩

end Orderly

structure Regular (s : Session) : Prop where
  tamed : Tamed s
  once : Once s
  orderly : Orderly s

theorem Regular.start : Regular .start := by
  refine ⟨?_, ⟨fun _ => rfl, trivial⟩, trivial, ?_, ?_⟩ <;> simp [Tamed, Session.start,
    Session.activities, silenced]

theorem Regular.step (c : Choice) (s : Session) (hg : Apart c s) (h : Regular s) : Regular (c.step qt s) :=
  ⟨h.tamed.step c s, h.once.step c s h.tamed, h.orderly.step c s hg h.tamed⟩

/-- **The order of the signals.** In every run from the start in which no handshake check and no `deactivate(true)`
overlap, no `connected` is emitted between a `disconnected` and the next call of `activate`, and every entry emits
`connected` at most once. -/
theorem connected_order {ops : List Choice} (h : Guarded (Choice.step qt) Apart ops .start) :
    Ordered (run (Choice.step qt) ops .start).events ∧ OncePerEntry (run (Choice.step qt) ops .start).events := by
  have hr : Regular (run (Choice.step qt) ops .start) := run_invariant_of_guarded Regular.step ops h Regular.start
  exact ⟨hr.orderly.ordered, hr.once.once⟩

/-! ## Examples -/

section Examples

/-- The process handles the message of the innermost call, which goes on with the answer. -/
def answered : List Choice := [.handle 0 ∅, .resume true]

/-- A client activates and every wait is answered. -/
def activation (config : InterfaceConfig) : List Choice :=
  .request 1 (.activate .ok config) :: (answered ++ answered ++ answered)

def sampleConfig : InterfaceConfig := Linux.sampleInterface [⟨.ipv4 0, 0⟩]

/-- The check after an activation, then a deactivation. -/
def orderlyRun : List Choice :=
  activation sampleConfig ++ [.timeout, .handle 0 {"peer"}, .resume true, .request 1 (.deactivate .ok)] ++ answered

/-- The timer fires while `deactivate(true)` waits for the peer to be removed. -/
def overtakenRun : List Choice :=
  activation sampleConfig ++ [.request 1 (.deactivate .ok), .timeout, .handle 0 {"peer"}, .resume true]

theorem connected_order_sample : Guarded (Choice.step Linux.sampleQt) Apart orderlyRun .start ∧
    Ordered (run (Choice.step Linux.sampleQt) orderlyRun .start).events :=
      ⟨by decide, (connected_order (by decide)).1⟩

/-- In the sample run the signals are `connected` and then `disconnected`; in the other one it is the other way round.
-/
theorem connected_after_disconnected : ¬Ordered (run (Choice.step Linux.sampleQt) overtakenRun .start).events ∧
      ∃ hop pubkey events, (run (Choice.step Linux.sampleQt) overtakenRun .start).events =
        .connected hop pubkey :: .disconnected :: events := by
  refine ⟨by decide, .singleHop, "peer", [.timerStarted, .stored .singleHop, .activating], by decide⟩

end Examples

end Cimogus.Daemon
