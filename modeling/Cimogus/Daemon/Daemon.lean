import Cimogus.Daemon.Config
import Cimogus.Lib.Runs
import Cimogus.Lib.Steps
import Mathlib.Data.List.Dedup

/-!
# `Daemon`

The daemon that brings the tunnel up and down, over the platform's part of it (`Platform`): the virtual functions of
`Daemon`, `WireguardUtils`, `DnsUtils` and `IPUtils`. Every call of such a function gets a `Reply`, which says whether
the system does what the function asks of it; the replies of one command are grouped by the place of the call
(`FreshReplies`, `DownReplies`, `SwitchReplies`).

Signals, the handshake timer and the log are left out; the nested event loop of a platform call is not modelled here.
-/

namespace Cimogus.Daemon

open Lib

/-- What the system answers during one call: everything asked of it succeeds, or the `n`-th request fails. -/
inductive Reply
  | ok
  | failAt (n : Nat)
  deriving DecidableEq

inductive Op
  | Up
  | Down
  | Switch

/-- The functions that a platform supplies, over its own state. -/
structure Platform (σ : Type) where
  interfaceExists : σ → Bool
  addInterface : Reply → InterfaceConfig → Step σ
  deleteInterface : Reply → Step σ
  updatePeer : Reply → InterfaceConfig → Step σ
  deletePeer : Reply → InterfaceConfig → Step σ
  updateRoutePrefix : Reply → IPAddress → Step σ
  deleteRoutePrefix : Reply → IPAddress → Step σ
  addExclusionRoute : Reply → IPAddress → Step σ
  deleteExclusionRoute : Reply → IPAddress → Step σ
  supportDnsUtils : Bool
  updateResolvers : Reply → List QHostAddress → Step σ
  restoreResolvers : Reply → Step σ
  supportIPUtils : Bool
  addInterfaceIPs : Reply → InterfaceConfig → Step σ
  setMTUAndUp : Reply → InterfaceConfig → Step σ
  run : Reply → Op → InterfaceConfig → Step σ

/-- `m_excludedAddrSet` is a bag, in which a prefix occurs as often as its count says. -/
structure State (σ : Type) where
  connections : HopType → Option InterfaceConfig
  excludedAddrSet : List IPAddress
  backend : σ

/-- The replies to the calls of a fresh activation. -/
structure FreshReplies where
  addInterface : Reply
  addExclusionRoute : Nat → Reply
  updatePeer : Reply
  updateResolvers : Reply
  addInterfaceIPs : Reply
  setMTUAndUp : Reply
  updateRoutePrefix : Nat → Reply
  run : Reply

/-- The replies to the calls of `deactivate`; the first number of a reply counts the connections. -/
structure DownReplies where
  run : Reply
  restoreResolvers : Reply
  deleteRoutePrefix : Nat → Nat → Reply
  deletePeer : Nat → Reply
  deleteExclusionRoute : Nat → Reply
  deleteInterface : Reply

/-- The replies to the calls of `switchServer` and of what `activate` does after it. -/
structure SwitchReplies where
  addExclusionRoute : Nat → Reply
  updatePeer : Reply
  updateRoutePrefix : Nat → Reply
  deleteExclusionRoute : Nat → Reply
  deleteRoutePrefix : Nat → Reply
  deletePeer : Reply
  restoreResolvers : Reply
  updateResolvers : Reply
  run : Reply

/-- The replies to the calls of `activate`, whichever way it takes. -/
structure Replies where
  fresh : FreshReplies
  down : DownReplies
  switch : SwitchReplies

def SwitchReplies.ok : SwitchReplies :=
  ⟨fun _ => .ok, .ok, fun _ => .ok, fun _ => .ok, fun _ => .ok, .ok, .ok, .ok, .ok⟩

def FreshReplies.ok : FreshReplies := ⟨.ok, fun _ => .ok, .ok, .ok, .ok, .ok, fun _ => .ok, .ok⟩

def DownReplies.ok : DownReplies := ⟨.ok, .ok, fun _ _ => .ok, fun _ => .ok, fun _ => .ok, .ok⟩

def Replies.ok : Replies := ⟨.ok, .ok, .ok⟩

def excludedKeys (qt : Qt) (config : InterfaceConfig) : List IPAddress :=
  config.excludedAddresses.map (IPAddress.ofText qt)

/-- The keys under which a switch deletes the exclusions of the texts. -/
def deletedKeys (qt : Qt) (texts : List String) : List IPAddress :=
  texts.map fun text => IPAddress.ofHost (qt.hostAddress text)

/-- The hop types in the order of `m_connections`. -/
def hopTypes : List HopType := [.singleHop, .multiHopEntry, .multiHopExit]

namespace State

variable {σ : Type}

def fresh (b : σ) : State σ := ⟨fun _ => none, [], b⟩

/-- The configurations in `m_connections`. -/
def stored (d : State σ) : List InterfaceConfig := hopTypes.filterMap d.connections

/-- `m_connections[config.m_hopType] = ConnectionState(config)`. -/
def store (config : InterfaceConfig) (d : State σ) : State σ :=
  { d with connections := Function.update d.connections config.hopType (some config) }

def onBackend (s : Step σ) : Step (State σ) := fun d => ((s d.backend).1, { d with backend := (s d.backend).2 })

variable (P : Platform σ) (qt : Qt)

def addExclusionRoute (r : Reply) (ip : IPAddress) : Step (State σ) := fun d =>
  if ip ∈ d.excludedAddrSet then (true, { d with excludedAddrSet := ip :: d.excludedAddrSet })
  else
    Step.seq (onBackend (P.addExclusionRoute r ip))
      (.update fun d => { d with excludedAddrSet := ip :: d.excludedAddrSet }) d

/-- The count of a prefix that is not in the table reads as 0. -/
def delExclusionRoute (r : Reply) (ip : IPAddress) : Step (State σ) := fun d =>
  if d.excludedAddrSet.count ip > 1 then (true, { d with excludedAddrSet := d.excludedAddrSet.erase ip })
  else onBackend (P.deleteExclusionRoute r ip) { d with excludedAddrSet := d.excludedAddrSet.erase ip }

def maybeUpdateResolvers (r : Reply) (config : InterfaceConfig) : Step (State σ) :=
  if !P.supportDnsUtils then .skip
  else if config.hopType = .multiHopExit ∨ config.hopType = .singleHop then
    onBackend <| P.updateResolvers r <|
      qt.hostAddress config.dnsServer ::
        -- a DNS server other than the gateway is the user's own
        if config.dnsServer = config.serverIpv4Gateway then [qt.hostAddress config.serverIpv6Gateway] else []
  else .skip

def bringUp (r : Reply) (config : InterfaceConfig) : Step (State σ) :=
  .ite (fun d => P.interfaceExists d.backend) .skip (onBackend (P.addInterface r config))

def addExclusions (r : Nat → Reply) (config : InterfaceConfig) : Step (State σ) :=
  .each (fun n text => addExclusionRoute P (r n) (IPAddress.ofText qt text)) config.excludedAddresses

def addresses (r : FreshReplies) (config : InterfaceConfig) : Step (State σ) :=
  if P.supportIPUtils then
    .seq (onBackend (P.addInterfaceIPs r.addInterfaceIPs config)) (onBackend (P.setMTUAndUp r.setMTUAndUp config))
  else .skip

/-- What a fresh activation does once the interface is there. -/
def configure (r : FreshReplies) (config : InterfaceConfig) : Step (State σ) :=
  .seq (onBackend (P.updatePeer r.updatePeer config)) <|
  .seq (maybeUpdateResolvers P qt r.updateResolvers config) <|
  .seq (addresses P r config) <|
  .seq (.all (fun n ip => onBackend (P.updateRoutePrefix (r.updateRoutePrefix n) ip)) config.allowedIPAddressRanges) <|
  onBackend (P.run r.run .Up config)

/-- `activate` where `m_connections` has no entry for the hop type. -/
def activateFresh (r : FreshReplies) (config : InterfaceConfig) : Step (State σ) :=
  .seq (bringUp P r.addInterface config) <|
  .seq (addExclusions P qt r.addExclusionRoute config) <|
  .seq (configure P qt r config) <|
  .update (store config)

/-- The part of `deactivate` before anything is taken down. -/
def shutDown (r : DownReplies) : Step (State σ) :=
  .seq (fun d => match d.stored.head? with
    | some config => onBackend (P.run r.run .Down config) d
    | none => (true, d)) <|
  .seq (if P.supportDnsUtils then onBackend (P.restoreResolvers r.restoreResolvers) else .skip) <|
  .ite (fun d => P.interfaceExists d.backend) .skip .stop

/-- Clean up the peer and the routes of one connection. -/
def removePeer (r : DownReplies) (i : Nat) (config : InterfaceConfig) : Step (State σ) :=
  .seq
  (.each (fun n ip => onBackend (P.deleteRoutePrefix (r.deleteRoutePrefix i n) ip)) config.allowedIPAddressRanges) <|
  onBackend (P.deletePeer (r.deletePeer i) config)

def removePeers (r : DownReplies) : Step (State σ) := fun d => Step.each (removePeer P r) d.stored d

def removeExclusions (r : DownReplies) : Step (State σ) := fun d =>
  Step.seq
    (.each (fun n ip => onBackend (P.deleteExclusionRoute (r.deleteExclusionRoute n) ip)) d.excludedAddrSet.dedup)
    (.update fun d => { d with excludedAddrSet := [] }) d

def tearDown (r : DownReplies) : Step (State σ) := .seq (removePeers P r) <|
  .seq (removeExclusions P r) <|
  .seq (onBackend (P.deleteInterface r.deleteInterface)) <|
  .update fun d => { d with connections := fun _ => none }

def deactivate (r : DownReplies) : Step (State σ) := .seq (shutDown P r) (tearDown P r)

/-- Compares with the current configuration of the same hop type. -/
def supportServerSwitching (current config : InterfaceConfig) : Bool :=
  current.privateKey = config.privateKey && current.deviceIpv4Address = config.deviceIpv4Address &&
    current.deviceIpv6Address = config.deviceIpv6Address && current.serverIpv4Gateway = config.serverIpv4Gateway &&
    current.serverIpv6Gateway = config.serverIpv6Gateway

/-- The routes of the new peer; the loop ends at the first failure, and the switch goes on. -/
def switchRoutes (r : SwitchReplies) (config : InterfaceConfig) : Step (State σ) :=
  .ignore (.all (fun n ip => onBackend (P.updateRoutePrefix (r.updateRoutePrefix n) ip)) config.allowedIPAddressRanges)

def delExclusions (r : SwitchReplies) (lastConfig : InterfaceConfig) : Step (State σ) :=
  .each (fun n text => delExclusionRoute P (r.deleteExclusionRoute n) (IPAddress.ofHost (qt.hostAddress text)))
    lastConfig.excludedAddresses

/-- The old routes and, if its key is another, the old peer. -/
def removeLast (r : SwitchReplies) (lastConfig config : InterfaceConfig) : Step (State σ) :=
  .seq (.each (fun n ip => if ip ∈ config.allowedIPAddressRanges then .skip
    else onBackend (P.deleteRoutePrefix (r.deleteRoutePrefix n) ip)) lastConfig.allowedIPAddressRanges) <|
  if config.serverPublicKey ≠ lastConfig.serverPublicKey then onBackend (P.deletePeer r.deletePeer lastConfig)
    else .skip

def switchServer (r : SwitchReplies) (lastConfig config : InterfaceConfig) : Step (State σ) :=
  .seq (addExclusions P qt r.addExclusionRoute config) <|
  .seq (onBackend (P.updatePeer r.updatePeer config)) <|
  .seq (switchRoutes P r config) <|
  .seq (delExclusions P qt r lastConfig) <|
  .seq (removeLast P r lastConfig config) <|
  .update (store config)

/-- What `activate` does after `switchServer`. -/
def afterSwitch (r : SwitchReplies) (config : InterfaceConfig) : Step (State σ) :=
  .seq (if P.supportDnsUtils then onBackend (P.restoreResolvers r.restoreResolvers) else .skip) <|
  .seq (maybeUpdateResolvers P qt r.updateResolvers config) <|
  .seq (onBackend (P.run r.run .Switch config)) <|
  .update (store config)

/-- After `deactivate` there is no connection, so that `activate` calling itself is a fresh activation
(`deactivate_connections`). -/
def activate (r : Replies) (config : InterfaceConfig) : Step (State σ) := fun d =>
  match d.connections config.hopType with
  | none => activateFresh P qt r.fresh config d
  | some lastConfig =>
    if supportServerSwitching lastConfig config then
      Step.seq (switchServer P qt r.switch lastConfig config) (afterSwitch P qt r.switch config) d
    else Step.seq (deactivate P r.down) (activateFresh P qt r.fresh config) d

end State

/-- The commands of the daemon; between them the host can change in any way. -/
inductive Command (σ : Type)
  | activate (r : Replies) (config : InterfaceConfig)
  | deactivate (r : DownReplies)
  | host (f : σ → σ)

def Command.step {σ : Type} (P : Platform σ) (qt : Qt) : Command σ → State σ → State σ
  | .activate r config, d => (State.activate P qt r config d).2
  | .deactivate r, d => (State.deactivate P r d).2
  | .host f, d => { d with backend := f d.backend }

namespace State

variable {σ : Type} {P : Platform σ} {qt : Qt}

/-! ## What the steps change -/

theorem onBackend_apply (s : Step σ) (d : State σ) :
    onBackend s d = ((s d.backend).1, { d with backend := (s d.backend).2 }) := rfl

variable {d : State σ}

theorem connections_of_stored (h : d.stored = []) (hop : HopType) : d.connections hop = none := by
  simp only [stored, List.filterMap_eq_nil_iff] at h
  exact h hop (by cases hop <;> simp [hopTypes])

theorem keeps_onBackend {τ : Type} {f : State σ → τ} (h : ∀ d b, f { d with backend := b } = f d) (s : Step σ) :
    Step.Keeps f (onBackend s) := fun d => h d _

theorem keeps_of_backend {τ : Type} {g : σ → τ} {s : Step σ} (h : Step.Keeps g s) :
    Step.Keeps (fun d : State σ => g d.backend) (onBackend s) := fun d => h d.backend

variable (r : DownReplies)

theorem deactivate_connections : Step.Ensures (fun d : State σ => d.connections = fun _ => none) (deactivate P r) :=
  .last (.last (.last (.last fun _ _ => rfl)))

/-! ## Where the commands can stop -/

theorem addExclusions_fst (r : Nat → Reply) (config : InterfaceConfig) (d : State σ) :
    (addExclusions P qt r config d).1 = true := Step.each_fst ..

theorem addExclusions_of_nil (r : Nat → Reply) {config : InterfaceConfig} (h : config.excludedAddresses = [])
    (d : State σ) :
    addExclusions P qt r config d = (true, d) := by
  rw [addExclusions, h]
  rfl

theorem delExclusions_fst (r : SwitchReplies) (lastConfig : InterfaceConfig) (d : State σ) :
    (delExclusions P qt r lastConfig d).1 = true := Step.each_fst ..

theorem removePeers_fst (d : State σ) : (removePeers P r d).1 = true := Step.each_fst ..

theorem removeExclusions_fst (d : State σ) : (removeExclusions P r d).1 = true :=
  Step.seq_fst.mpr ⟨Step.each_fst .., rfl⟩

/-- A fresh activation with the interface up and the exclusions added. -/
def excluding (P : Platform σ) (qt : Qt) (r : FreshReplies) (config : InterfaceConfig) (d : State σ) : State σ :=
  (addExclusions P qt r.addExclusionRoute config (bringUp P r.addInterface config d).2).2

/-- A fresh activation stops without an interface, or while it configures it, or stores the configuration. -/
theorem activateFresh_cases (P : Platform σ) (qt : Qt) (r : FreshReplies) (config : InterfaceConfig) (d : State σ) :
    ((bringUp P r.addInterface config d).1 = false ∧
      activateFresh P qt r config d = bringUp P r.addInterface config d) ∨
    ((bringUp P r.addInterface config d).1 = true ∧
      (configure P qt r config (excluding P qt r config d)).1 = false ∧
      activateFresh P qt r config d = configure P qt r config (excluding P qt r config d)) ∨
    ((bringUp P r.addInterface config d).1 = true ∧ (configure P qt r config (excluding P qt r config d)).1 = true ∧
      activateFresh P qt r config d =
      (true, (configure P qt r config (excluding P qt r config d)).2.store config)) := by
  unfold activateFresh
  cases hup : (bringUp P r.addInterface config d).1 with
  | false => exact .inl ⟨rfl, Step.seq_of_false hup⟩
  | true =>
    rw [Step.seq_of_true hup, Step.seq_of_true (addExclusions_fst ..)]
    cases hc : (configure P qt r config (excluding P qt r config d)).1 with
    | false => exact .inr (.inl ⟨rfl, rfl, Step.seq_of_false hc⟩)
    | true => exact .inr (.inr ⟨rfl, rfl, Step.seq_of_true hc⟩)

/-- `deactivate` with everything removed but the interface. -/
def cleared (P : Platform σ) (r : DownReplies) (d : State σ) : State σ :=
  (removeExclusions P r (removePeers P r (shutDown P r d).2).2).2

/-- `deactivate` stops before it takes anything down, or when the interface cannot be deleted, or forgets the
connections. -/
theorem deactivate_cases (P : Platform σ) (r : DownReplies) (d : State σ) :
    ((shutDown P r d).1 = false ∧ deactivate P r d = shutDown P r d) ∨
    ((shutDown P r d).1 = true ∧ (P.deleteInterface r.deleteInterface (cleared P r d).backend).1 = false ∧
      deactivate P r d = onBackend (P.deleteInterface r.deleteInterface) (cleared P r d)) ∨
    ((shutDown P r d).1 = true ∧ (P.deleteInterface r.deleteInterface (cleared P r d).backend).1 = true ∧
      deactivate P r d = (true, { (onBackend (P.deleteInterface r.deleteInterface) (cleared P r d)).2 with
        connections := fun _ => none })) := by
  unfold deactivate
  cases hdown : (shutDown P r d).1 with
  | false => exact .inl ⟨rfl, Step.seq_of_false hdown⟩
  | true =>
    rw [Step.seq_of_true hdown, tearDown, Step.seq_of_true (removePeers_fst ..),
      Step.seq_of_true (removeExclusions_fst ..)]
    cases hd : (P.deleteInterface r.deleteInterface (cleared P r d).backend).1 with
    | false => exact .inr (.inl ⟨rfl, rfl, Step.seq_of_false hd⟩)
    | true => exact .inr (.inr ⟨rfl, rfl, Step.seq_of_true hd⟩)

theorem deactivate_through {r : DownReplies} (h : (deactivate P r d).1 = true) :
    (shutDown P r d).1 = true ∧ (P.deleteInterface r.deleteInterface (cleared P r d).backend).1 = true ∧
      deactivate P r d = (true, { (onBackend (P.deleteInterface r.deleteInterface) (cleared P r d)).2 with
        connections := fun _ => none }) := by
  rcases deactivate_cases P r d with ⟨hstop, heq⟩ | ⟨_, hfa, heq⟩ | ht
  · rw [heq, hstop] at h
    cases h
  · rw [heq] at h
    exact absurd (hfa.symm.trans h) (by decide)
  · exact ht

/-- A switch with the new exclusions and the new peer. -/
def joined (P : Platform σ) (qt : Qt) (r : SwitchReplies) (config : InterfaceConfig) (d : State σ) : State σ :=
  (onBackend (P.updatePeer r.updatePeer config) (addExclusions P qt r.addExclusionRoute config d).2).2

/-- A switch with the new routes and without the old exclusions. -/
def rerouted (P : Platform σ) (qt : Qt) (r : SwitchReplies) (lastConfig config : InterfaceConfig)
    (d : State σ) : State σ :=
  (delExclusions P qt r lastConfig (switchRoutes P r config (joined P qt r config d)).2).2

theorem switchServer_cases (P : Platform σ) (qt : Qt) (r : SwitchReplies) (lastConfig config : InterfaceConfig)
    (d : State σ) :
    ((onBackend (P.updatePeer r.updatePeer config) (addExclusions P qt r.addExclusionRoute config d).2).1 = false ∧
      switchServer P qt r lastConfig config d = (false, joined P qt r config d)) ∨
    ((onBackend (P.updatePeer r.updatePeer config) (addExclusions P qt r.addExclusionRoute config d).2).1 = true ∧
      (removeLast P r lastConfig config (rerouted P qt r lastConfig config d)).1 = false ∧
      switchServer P qt r lastConfig config d = removeLast P r lastConfig config
    (rerouted P qt r lastConfig config d)) ∨
    ((onBackend (P.updatePeer r.updatePeer config) (addExclusions P qt r.addExclusionRoute config d).2).1 = true ∧
      (removeLast P r lastConfig config (rerouted P qt r lastConfig config d)).1 = true ∧
      switchServer P qt r lastConfig config d =
        (true, (removeLast P r lastConfig config (rerouted P qt r lastConfig config d)).2.store config)) := by
  unfold switchServer
  rw [Step.seq_of_true (addExclusions_fst ..)]
  cases hp : (onBackend (P.updatePeer r.updatePeer config) (addExclusions P qt r.addExclusionRoute config d).2).1 with
  | false => exact .inl ⟨rfl, (Step.seq_of_false hp).trans (Prod.ext hp rfl)⟩
  | true =>
    have hr : ∀ d, (switchRoutes P r config d).1 = true := fun _ => rfl
    rw [Step.seq_of_true hp, Step.seq_of_true (hr _), Step.seq_of_true (delExclusions_fst ..)]
    cases hlast : (removeLast P r lastConfig config (rerouted P qt r lastConfig config d)).1 with
    | false => exact .inr (.inl ⟨rfl, rfl, Step.seq_of_false hlast⟩)
    | true => exact .inr (.inr ⟨rfl, rfl, Step.seq_of_true hlast⟩)

theorem switchServer_through {r : SwitchReplies} {lastConfig config : InterfaceConfig}
    (h : (switchServer P qt r lastConfig config d).1 = true) :
    (onBackend (P.updatePeer r.updatePeer config) (addExclusions P qt r.addExclusionRoute config d).2).1 = true ∧
      switchServer P qt r lastConfig config d =
        (true, (removeLast P r lastConfig config (rerouted P qt r lastConfig config d)).2.store config) := by
  rcases switchServer_cases P qt r lastConfig config d with ⟨_, heq⟩ | ⟨_, hfa, heq⟩ | ⟨hp, _, heq⟩
  · rw [heq] at h
    cases h
  · rw [heq, hfa] at h
    cases h
  · exact ⟨hp, heq⟩

end State

end Cimogus.Daemon
