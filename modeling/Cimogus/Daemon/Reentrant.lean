import Cimogus.Daemon.Platforms
import Cimogus.Lib.Tasks

/-!
# The daemon inside its event loop

While `uapiCommand` and `waitForTunnelName` wait for the tunnel process, they let the event loop run: the handshake
timer and the commands of other clients are handled in the middle of a command. On Linux, with the commands as tasks
(`Lib.Tasks`), a session is what the daemon, its clients and the tunnel process do one after the other (`Choice.step`):
a stack of unfinished calls, of which only the innermost can go on.

What does not wait are the steps of `Daemon.lean`. `DnsUtilsLinux::restoreResolvers` cannot fail. The loop of
`deactivate` over `m_connections` reads the map as it finds it (`removePeer`); a nested command that clears the map
frees the node that the loop stands on, which is undefined, and here just ends the loop.
-/

namespace Cimogus.Daemon

open Lib

/-- What the daemon waits for: the socket of a new tunnel process, or the answer to a message. -/
inductive Message
  | name
  | interface (device : Device)
  | peer (key : String)
  | remove (key : String)
  | get

/-- A message, and whether the process accepts it or answers with an error. -/
structure Wait where
  message : Message
  accepted : Bool

/-- The answer that a wait ends with; without one it has failed. Only `get` asks for keys, those of the peers with a
handshake. -/
abbrev Answer := Option (Finset String)

structure Core where
  daemon : State Backend
  /-- How often the process was started. -/
  generation : Nat
  /-- The keys of the peers that the process has accepted since it was started. -/
  accepted : Finset String

inductive Event
  /-- A call of `activate` begins. -/
  | activating
  | disconnected
  | connected (hop : HopType) (pubkey : String)
  /-- An entry of `m_connections` is written; its date is not valid. -/
  | stored (hop : HopType)
  | timerStarted
  deriving DecidableEq

abbrev DaemonTask := Task Core Event Wait Answer

namespace Core

def running (c : Core) : Bool := c.daemon.backend.running

def onHost (f : Backend → Backend) (c : Core) : Core :=
  { c with daemon := { c.daemon with backend := f c.daemon.backend } }

def start (c : Core) : Core :=
  { c.onHost fun b => { b with running := true, device := none, peers := ∅ } with
    generation := c.generation + 1, accepted := ∅ }

def kill (c : Core) : Core := c.onHost fun b => { b with running := false, device := none, peers := ∅ }

end Core

/-- What the process does with a message that it accepts; the first one replaces its peers. -/
def Message.effect : Message → Core → Core
  | .name, c => c
  | .interface device, c => c.onHost fun b => { b with device := some device, peers := ∅ }
  | .peer key, c => { c.onHost fun b => { b with peers := insert key b.peers } with accepted := insert key c.accepted }
  | .remove key, c => c.onHost fun b => { b with peers := b.peers.erase key }
  | .get, c => c

namespace Wait

def handled (w : Wait) (c : Core) : Core := if w.accepted then w.message.effect c else c

/-- The answer to a message, where the peers of `shaken` have had a handshake. -/
def answer (w : Wait) (shaken : Finset String) (c : Core) : Answer :=
  if w.accepted then some (shaken ∩ c.daemon.backend.peers) else none

end Wait

namespace Reentrant

/-! ## The calls as tasks -/

variable (qt : Qt)

def onDaemon (s : Step (State Backend)) : DaemonTask :=
  .lift fun c => ((s c.daemon).1, { c with daemon := (s c.daemon).2 })

/-- `m_connections[config.m_hopType] = ConnectionState(config)`. -/
def store (config : InterfaceConfig) : DaemonTask :=
  .seq (onDaemon (.update (State.store config))) (.emit (.stored config.hopType))

/-- `uapiCommand`; it cannot connect to a process that does not run. -/
def uapi (accepted : Bool) (m : Message) : DaemonTask :=
  .ite Core.running (.call ⟨m, accepted⟩ Option.isSome) (.lift .stop)

/-- `waitForTunnelName`, and what `addInterface` does without a name. -/
def tunnelName (found : Bool) : DaemonTask := fun c =>
  .wait ⟨.name, found⟩ c fun a c => if a.isSome && c.running then .done true c else .done false c.kill

def addInterface (r : Reply) (config : InterfaceConfig) : DaemonTask := .ite Core.running (.lift .stop) <|
  if !r.request 0 then .lift .stop
  else
    .seq (.lift (.update Core.start)) <|
    .seq (tunnelName (r.request 1)) <|
    .seq (.lift (.update (Core.onHost fun b => { b with monitor := true }))) <|
    .seq (uapi (r.request 2) (.interface ⟨config.privateKey, config.junk⟩)) <|
    .lift <| .update <| Core.onHost fun b =>
      { b with firewall := if config.killSwitchEnabled then some (Linux.firewallParams qt config) else b.firewall }

def updatePeer (r : Reply) (config : InterfaceConfig) : DaemonTask :=
  if config.serverIpv4AddrIn = "" ∧ config.serverIpv6AddrIn = "" then .lift .stop
  else
    .seq (onDaemon (State.onBackend (Kind.linux.serverRoutes qt Kind.linux.addRoute r config)))
      (uapi (r.request 2) (.peer config.serverPublicKey))

def deletePeer (r : Reply) (config : InterfaceConfig) : DaemonTask :=
  .seq (onDaemon (State.onBackend (Kind.linux.serverRoutes qt Kind.linux.deleteRoute r config)))
    (uapi (r.request 2) (.remove config.serverPublicKey))

def bringUp (r : Reply) (config : InterfaceConfig) : DaemonTask :=
  .ite Core.running (.lift .skip) (addInterface qt r config)

/-- What a fresh activation does with the peer in place. -/
def configureRest (r : FreshReplies) (config : InterfaceConfig) : Step (State Backend) :=
  .seq (State.maybeUpdateResolvers (platform .linux qt) qt r.updateResolvers config) <|
  .seq (State.addresses (platform .linux qt) r config) <|
  .seq (.all (fun n ip => State.onBackend ((platform .linux qt).updateRoutePrefix (r.updateRoutePrefix n) ip))
    config.allowedIPAddressRanges) <|
  State.onBackend ((platform .linux qt).run r.run .Up config)

/-- The entry is stored and the handshake timer starts. -/
def finish (config : InterfaceConfig) : DaemonTask := .seq (store config) (.emit .timerStarted)

def activateFresh (r : FreshReplies) (config : InterfaceConfig) : DaemonTask :=
  .seq (bringUp qt r.addInterface config) <|
  .seq (onDaemon (State.addExclusions (platform .linux qt) qt r.addExclusionRoute config)) <|
  .seq (updatePeer qt r.updatePeer config) <|
  .seq (onDaemon (configureRest qt r config)) <|
  finish config

/-- The number of connections before a hop type, which counts the calls of the loop. -/
def position (hop : HopType) (d : State Backend) : Nat :=
  ((hopTypes.takeWhile (· ≠ hop)).filterMap d.connections).length

/-- The routes and the peer of the entry, if there is one when the loop comes to it. -/
def removePeer (r : DownReplies) (hop : HopType) : DaemonTask := fun c =>
  match c.daemon.connections hop with
  | none => .done true c
  | some config =>
    Task.seq
      (onDaemon (.each (fun n ip =>
        State.onBackend ((platform .linux qt).deleteRoutePrefix (r.deleteRoutePrefix (position hop c.daemon) n) ip))
        config.allowedIPAddressRanges))
      (deletePeer qt (r.deletePeer (position hop c.daemon)) config) c

/-- `run(Down, ..)` for the first entry. -/
def runDown (r : DownReplies) : Step (State Backend) := fun d =>
  match d.stored.head? with
  | some config => State.onBackend ((platform .linux qt).run r.run .Down config) d
  | none => (true, d)

def deactivate (emitSignals : Bool) (r : DownReplies) : DaemonTask := .seq (onDaemon (runDown qt r)) <|
  .seq (if emitSignals then .emit .disconnected else .lift .skip) <|
  .seq (onDaemon (State.onBackend ((platform .linux qt).restoreResolvers .ok))) <|
  .seq (.ite Core.running (.lift .skip) (.lift .stop)) <|
  .seq (.each (removePeer qt r) hopTypes) <|
  .seq (onDaemon (State.removeExclusions (platform .linux qt) r)) <|
  .seq (onDaemon (State.onBackend ((platform .linux qt).deleteInterface r.deleteInterface))) <|
  onDaemon (.update fun d => { d with connections := fun _ => none })

def removeLastRoutes (r : SwitchReplies) (lastConfig config : InterfaceConfig) : Step (State Backend) :=
  .each (fun n ip => if ip ∈ config.allowedIPAddressRanges then .skip
    else State.onBackend ((platform .linux qt).deleteRoutePrefix (r.deleteRoutePrefix n) ip))
    lastConfig.allowedIPAddressRanges

def switchServer (r : SwitchReplies) (lastConfig config : InterfaceConfig) : DaemonTask :=
  .seq (onDaemon (State.addExclusions (platform .linux qt) qt r.addExclusionRoute config)) <|
  .seq (updatePeer qt r.updatePeer config) <|
  .seq (onDaemon (State.switchRoutes (platform .linux qt) r config)) <|
  .seq (onDaemon (State.delExclusions (platform .linux qt) qt r lastConfig)) <|
  .seq (onDaemon (removeLastRoutes qt r lastConfig config)) <|
  .seq (if config.serverPublicKey ≠ lastConfig.serverPublicKey then deletePeer qt r.deletePeer lastConfig
    else .lift .skip) <|
  store config

def afterSwitch (r : SwitchReplies) (config : InterfaceConfig) : DaemonTask :=
  .seq (onDaemon (State.onBackend ((platform .linux qt).restoreResolvers .ok))) <|
  .seq (onDaemon (State.maybeUpdateResolvers (platform .linux qt) qt r.updateResolvers config)) <|
  .seq (onDaemon (State.onBackend ((platform .linux qt).run r.run .Switch config))) <|
  finish config

/-- After `deactivate(false)` the call of itself finds no entry. -/
def activateBody (r : Replies) (config : InterfaceConfig) : DaemonTask := fun c =>
  match c.daemon.connections config.hopType with
  | none => activateFresh qt r.fresh config c
  | some lastConfig =>
    if State.supportServerSwitching lastConfig config then
      Task.seq (switchServer qt r.switch lastConfig config) (afterSwitch qt r.switch config) c
    else Task.seq (deactivate qt false r.down) (.seq (.emit .activating) (activateFresh qt r.fresh config)) c

def activate (r : Replies) (config : InterfaceConfig) : DaemonTask :=
  .seq (.emit .activating) (activateBody qt r config)

end Reentrant

/-! ## Sessions -/

inductive Request
  | activate (r : Replies) (config : InterfaceConfig)
  | deactivate (r : DownReplies)

def Request.task (qt : Qt) : Request → DaemonTask
  | .activate r config => Reentrant.activate qt r config
  | .deactivate r => Reentrant.deactivate qt true r

inductive Activity
  | command (request : Request) (resume : Answer → Core → Outcome Core Event Wait Answer)
  | check
  | status

structure Frame where
  /-- The client whose command it is; the timer has none. -/
  client : Option Nat
  activity : Activity
  wait : Wait
  /-- The process that was there when the wait began. -/
  generation : Nat
  /-- The process's answer, once it has handled the message. -/
  answer : Option Answer

structure Session where
  core : Core
  /-- The entry of the hop type has a valid `m_date`. -/
  dates : HopType → Bool
  timer : Bool
  /-- What has happened, the last first. -/
  events : List Event
  /-- The commands that have begun, the last first. -/
  requests : List Request
  /-- The calls that wait, the innermost first. -/
  stack : List Frame

inductive Choice
  /-- A command arrives on the socket of a client. -/
  | request (client : Nat) (command : Request)
  | status (client : Nat)
  /-- The handshake timer fires. -/
  | timeout
  /-- The process handles the message of the call at this depth. -/
  | handle (depth : Nat) (shaken : Finset String)
  /-- The innermost call goes on, with the answer or without it. -/
  | resume (read : Bool)
  /-- The tunnel process ends on its own. -/
  | die

/-- The message of a call can still reach the process. -/
def Frame.reaches (f : Frame) (c : Core) : Bool := c.running && f.answer.isNone &&
    match f.wait.message with
    | .name => true
    | _ => f.generation = c.generation

namespace Session

def start : Session := ⟨⟨.idle, 0, ∅⟩, fun _ => false, false, [], [], []⟩

def record (e : Event) (s : Session) : Session :=
  { s with
    events := e :: s.events
    dates := match e with
      | .stored hop => Function.update s.dates hop false
      | .connected hop _ => Function.update s.dates hop true
      | _ => s.dates
    timer := match e with
      | .timerStarted => true
      | _ => s.timer }

/-- A command runs to its end or to its next wait. -/
def proceed (client : Option Nat) (request : Request) : Outcome Core Event Wait Answer → Session → Session
  | .done _ c, s => { s with core := c }
  | .emit e rest, s => proceed client request rest (s.record e)
  | .wait w c resume, s =>
    { s with core := c, stack := ⟨client, .command request resume, w, c.generation, none⟩ :: s.stack }

/-- `checkHandshake` at one entry. -/
def checkEntry (shaken : Finset String) (s : Session) (hop : HopType) : Session :=
  match s.core.daemon.connections hop with
  | none => s
  | some config =>
    if !s.dates hop && config.serverPublicKey ∈ shaken then s.record (.connected hop config.serverPublicKey) else s

/-- Some connection has not completed a handshake. -/
def pending (s : Session) : Bool := hopTypes.any fun hop => (s.core.daemon.connections hop).isSome && !s.dates hop

/-- The rest of `checkHandshake`, with the peers' status. -/
def checkHandshake (shaken : Finset String) (s : Session) : Session :=
  let s := hopTypes.foldl (checkEntry shaken) s
  if s.pending then s.record .timerStarted else s

def ask (client : Option Nat) (activity : Activity) (s : Session) : Session :=
  { s with stack := ⟨client, activity, ⟨.get, true⟩, s.core.generation, none⟩ :: s.stack }

def busy (client : Nat) (s : Session) : Bool := s.stack.any fun f => f.client = some client

def wake (f : Frame) (a : Answer) (s : Session) : Session :=
  match f.activity with
  | .command request resume => s.proceed f.client request (resume a s.core)
  | .check => s.checkHandshake (a.getD ∅)
  | .status => s

end Session

def Choice.step (qt : Qt) : Choice → Session → Session
  | .request client command, s =>
    if s.busy client then s
    else { s with requests := command :: s.requests }.proceed (some client) command (command.task qt s.core)
  | .status client, s =>
    if !s.busy client && s.core.running && s.core.daemon.stored ≠ [] then s.ask (some client) .status else s
  | .timeout, s =>
    if !s.timer then s
    else if s.core.running then { s with timer := false }.ask none .check
    else { s with timer := false }.checkHandshake ∅
  | .handle depth shaken, s =>
    match s.stack[depth]? with
    | none => s
    | some f =>
      if f.reaches s.core then
        { s with
          core := f.wait.handled s.core
          stack := s.stack.set depth { f with answer := some (f.wait.answer shaken s.core) } }
      else s
  | .resume read, s =>
    match s.stack with
    | [] => s
    | f :: rest => { s with stack := rest }.wake f (if read then f.answer.join else none)
  | .die, s => { s with core := s.core.onHost Backend.died }

namespace Session

theorem checkHandshake_keeps {τ : Type} {g : Session → τ} (hg : ∀ e s, g (record e s) = g s)
    (shaken : Finset String)
    (s : Session) : g (s.checkHandshake shaken) = g s := by
  have he : ∀ s hop, g (checkEntry shaken s hop) = g s := by
    intro s hop
    unfold checkEntry
    split
    · rfl
    split
    · exact hg _ s
    · rfl
  have hfo : ∀ (ho : List HopType) (s : Session), g (ho.foldl (checkEntry shaken) s) = g s := by
    intro ho
    induction ho with
    | nil => exact fun _ => rfl
    | cons hop ho ih => exact fun s => (ih _).trans (he s hop)
  unfold checkHandshake
  dsimp only
  split
  · exact (hg _ _).trans (hfo _ s)
  · exact hfo _ s

end Session

inductive Choice.Goes (qt : Qt) (s : Session) : Choice → Session → Prop
  | idle (c : Choice) : Goes qt s c s
  | request (client : Nat) (command : Request) (hfree : s.busy client = false) : Goes qt s (.request client command)
      ({ s with requests := command :: s.requests }.proceed (some client) command (command.task qt s.core))
  | status (client : Nat) : Goes qt s (.status client) (s.ask (some client) .status)
  | check (hrunning : s.core.running = true) : Goes qt s .timeout ({ s with timer := false }.ask none .check)
  | checkFails (hrunning : s.core.running = false) : Goes qt s .timeout ({ s with timer := false }.checkHandshake ∅)
  | handle (depth : Nat) (shaken : Finset String) (f : Frame) (hf : s.stack[depth]? = some f)
      (hreaches : f.reaches s.core = true) :
    Goes qt s (.handle depth shaken)
      { s with
        core := f.wait.handled s.core
        stack := s.stack.set depth { f with answer := some (f.wait.answer shaken s.core) } }
  | wake (read : Bool) (f : Frame) (rest : List Frame) (hstack : s.stack = f :: rest) :
    Goes qt s (.resume read) ({ s with stack := rest }.wake f (if read then f.answer.join else none))
  | died : Goes qt s .die { s with core := s.core.onHost Backend.died }

/-- Every step of a session is one that `Goes` describes. -/
theorem Choice.step_goes (qt : Qt) (c : Choice) (s : Session) : Choice.Goes qt s c (c.step qt s) := by
  cases c with
  | request client command =>
    simp only [step]
    split
    · exact .idle _
    · rename_i hfree
      exact .request client command (Bool.eq_false_iff.mpr hfree)
  | status client =>
    simp only [step]
    split
    · exact .status client
    · exact .idle _
  | timeout =>
    simp only [step]
    split
    · exact .idle _
    split
    · rename_i hrunning
      exact .check hrunning
    · rename_i hrunning
      exact .checkFails (Bool.eq_false_iff.mpr hrunning)
  | handle depth shaken =>
    simp only [step]
    split
    · exact .idle _
    · rename_i f hf
      split
      · rename_i hreaches
        exact .handle depth shaken f hf hreaches
      · exact .idle _
  | resume read =>
    simp only [step]
    split
    · exact .idle _
    · rename_i f rest hstack
      exact .wake read f rest hstack
  | die => exact .died

/-! ## What the parts without waits leave -/

variable (r : Reply) (config : InterfaceConfig) (ip : IPAddress)

namespace Reentrant

variable {qt : Qt}

/-- The connections, and whether there is an interface. -/
def held (d : State Backend) : (HopType → Option InterfaceConfig) × Bool := (d.connections, d.backend.running)

section Held

/-- A call of the platform that leaves the interface. -/
theorem held_onBackend {s : Step Backend} (h : Step.Keeps Backend.running s) : Step.Keeps held (State.onBackend s) :=
  fun d => Prod.ext rfl (h d.backend)

theorem held_addExclusionRoute : Step.Keeps held (State.onBackend ((platform .linux qt).addExclusionRoute r ip)) :=
  held_onBackend (Kind.linux.keeps_monitored (Kind.linux.keeps_addRoute State.settled_running.exclusionRoutes r ip))

theorem held_deleteExclusionRoute :
    Step.Keeps held (State.onBackend ((platform .linux qt).deleteExclusionRoute r ip)) :=
  held_onBackend (Kind.linux.keeps_monitored (Kind.linux.keeps_deleteRoute State.settled_running.exclusionRoutes r ip))

theorem held_updateRoutePrefix : Step.Keeps held (State.onBackend ((platform .linux qt).updateRoutePrefix r ip)) :=
  held_onBackend (Kind.linux.keeps_updateRoutePrefix State.settled_running.tunnelRoutes r ip)

theorem held_deleteRoutePrefix : Step.Keeps held (State.onBackend ((platform .linux qt).deleteRoutePrefix r ip)) :=
  held_onBackend (Kind.linux.keeps_deleteRoutePrefix State.settled_running.tunnelRoutes r ip)

/-- The exclusion routes leave what is held. -/
theorem held_addExclusions (r : Nat → Reply) (config : InterfaceConfig) :
    Step.Keeps held (State.addExclusions (platform .linux qt) qt r config) := by
  refine .each (fun n text d => ?_) _
  rw [State.addExclusionRoute]
  split
  · rfl
  · exact Step.Keeps.seq (held_addExclusionRoute _ _) (.update fun _ => by rfl) d

theorem held_delExclusions (r : SwitchReplies) (lastConfig : InterfaceConfig) :
    Step.Keeps held (State.delExclusions (platform .linux qt) qt r lastConfig) := by
  refine .each (fun n text d => ?_) _
  rw [State.delExclusionRoute]
  split
  · rfl
  · exact held_deleteExclusionRoute _ _ _

theorem held_removeExclusions (r : DownReplies) : Step.Keeps held (State.removeExclusions (platform .linux qt) r) := by
  intro d
  exact Step.Keeps.seq (f := held) (.each (fun _ _ => held_deleteExclusionRoute _ _) _) (.update fun _ => by rfl) d

theorem held_maybeUpdateResolvers : Step.Keeps held (State.maybeUpdateResolvers (platform .linux qt) qt r config) := by
  unfold State.maybeUpdateResolvers
  split
  · exact .skip
  split
  · exact held_onBackend (Kind.keeps_updateResolvers State.settled_running.resolvers _ _)
  · exact .skip

/-- Of a fresh activation, what follows the peer. -/
theorem held_configureRest (r : FreshReplies) (config : InterfaceConfig) :
    Step.Keeps held (configureRest qt r config) :=
  .seq (held_maybeUpdateResolvers _ _) <| .seq (.seq (fun _ => rfl) fun _ => rfl) <|
  .seq (.all (fun _ _ => held_updateRoutePrefix _ _) _) fun _ => rfl

/-- The routes of a switch leave what is held. -/
theorem held_switchRoutes (r : SwitchReplies) (config : InterfaceConfig) :
    Step.Keeps held (State.switchRoutes (platform .linux qt) r config) :=
  .ignore (.all (fun _ _ => held_updateRoutePrefix _ _) _)

theorem held_removeLastRoutes (r : SwitchReplies) (lastConfig config : InterfaceConfig) :
    Step.Keeps held (removeLastRoutes qt r lastConfig config) := by
  refine .each (fun _ ip => ?_) _
  split
  · exact .skip
  · exact held_deleteRoutePrefix _ _

/-- The scripts leave what is held. -/
theorem held_runDown (r : DownReplies) : Step.Keeps held (runDown qt r) := by
  intro d
  unfold runDown
  split <;> rfl

theorem held_addRoutes : Step.Keeps held (State.onBackend (Kind.linux.serverRoutes qt Kind.linux.addRoute r config)) :=
  held_onBackend
    (Kind.linux.keeps_serverRoutes qt (Kind.linux.keeps_addRoute State.settled_running.exclusionRoutes) r config)

theorem held_deleteRoutes :
    Step.Keeps held (State.onBackend (Kind.linux.serverRoutes qt Kind.linux.deleteRoute r config)) :=
  held_onBackend
    (Kind.linux.keeps_serverRoutes qt (Kind.linux.keeps_deleteRoute State.settled_running.exclusionRoutes) r config)

theorem running_of_held {s : Step (State Backend)} (h : Step.Keeps held s) :
    Step.Keeps (fun d : State Backend => d.backend.running) s := fun d => congrArg Prod.snd (h d)

end Held

end Reentrant

end Cimogus.Daemon
