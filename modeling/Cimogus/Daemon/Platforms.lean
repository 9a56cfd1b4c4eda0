import Cimogus.Daemon.Daemon
import Cimogus.Linux.WireguardFirewall

/-!
# The platforms

`WireguardUtils` and the route monitors of Linux, macOS and Windows, over one record of what the daemon changes on the
host. Linux and macOS have the same `WireguardUtils` but for the route monitor: the one of Linux writes to the kernel's
table each time, those of macOS and Windows keep a list of their own and refuse a prefix that is on it. A route request
that is sent is carried out; a failing one is a `Reply`.

The texts of the two halves of the default range are constants of the source and written as the addresses they stand
for.
-/

namespace Cimogus.Daemon

open Lib

inductive Kind
  | linux
  | macos
  | windows
  deriving DecidableEq

structure Device where
  privateKey : String
  junk : JunkParams
  deriving DecidableEq

structure Backend where
  /-- The tunnel process or service runs. -/
  running : Bool
  /-- There is a route monitor, which Windows always has. -/
  monitor : Bool
  /-- The routes around the tunnel; on macOS and Windows the monitor's list of them. -/
  exclusionRoutes : Finset IPAddress
  tunnelRoutes : Finset IPAddress
  device : Option Device
  peers : Finset String
  resolvers : List QHostAddress
  /-- The parameters last applied, until the firewall is uninstalled. -/
  firewall : Option Linux.FirewallParams
  deriving DecidableEq

namespace Reply

/-- The `n`-th request succeeds. -/
def request (n : Nat) (r : Reply) : Bool := r ≠ .failAt n

/-- The reply to a call that consists of the `n`-th request only. -/
def sub (n : Nat) (r : Reply) : Reply := if r.request n then .ok else .failAt 0

@[simp] theorem request_ok (n : Nat) : request n .ok = true := rfl

@[simp] theorem sub_ok (n : Nat) : sub n .ok = .ok := rfl

end Reply

namespace Kind

/-! ## Route monitors -/

/-- `LinuxRouteMonitor` cannot write a route to something that is no address. -/
def sends (k : Kind) (ip : IPAddress) : Bool := k ≠ .linux || ip.address ≠ .null

/-- The monitor takes a prefix for a new exclusion route. -/
def accepts (k : Kind) (ip : IPAddress) (b : Backend) : Bool :=
  match k with
  | .linux => k.sends ip
  | .macos | .windows => ip ∉ b.exclusionRoutes

/-- `addExclusionRoute` of the monitor. -/
def addRoute (k : Kind) (r : Reply) (ip : IPAddress) : Step Backend := fun b =>
  if !k.accepts ip b then (false, b)
  else
    match k with
    | .linux | .windows =>
      if r.request 0 then (true, { b with exclusionRoutes := insert ip b.exclusionRoutes }) else (false, b)
    -- on its list even when the kernel refuses; without a known default route nothing is sent
    | .macos => (r.request 0 || ip.address = .null, { b with exclusionRoutes := insert ip b.exclusionRoutes })

/-- `deleteExclusionRoute` of the monitor. -/
def deleteRoute (k : Kind) (r : Reply) (ip : IPAddress) : Step Backend := fun b =>
  match k with
  | .linux =>
    if k.sends ip && r.request 0 then (true, { b with exclusionRoutes := b.exclusionRoutes.erase ip }) else (false, b)
  | .macos => (r.request 0 && ip.address ≠ .null, { b with exclusionRoutes := b.exclusionRoutes.erase ip })
  | .windows => (true, { b with exclusionRoutes := b.exclusionRoutes.erase ip })

/-- The monitor is there, or the call fails. -/
def monitored (k : Kind) (s : Step Backend) : Step Backend := .ite (fun b => k = .windows || b.monitor) s .stop

/-! ## `WireguardUtils` -/

def addExclusionRoute (k : Kind) (r : Reply) (ip : IPAddress) : Step Backend := k.monitored (k.addRoute r ip)

def deleteExclusionRoute (k : Kind) (r : Reply) (ip : IPAddress) : Step Backend := k.monitored (k.deleteRoute r ip)

def insertRoute (k : Kind) (sent : Bool) (ip : IPAddress) : Step Backend := fun b =>
  if sent && k.sends ip then (true, { b with tunnelRoutes := insert ip b.tunnelRoutes }) else (false, b)

def eraseRoute (k : Kind) (sent : Bool) (ip : IPAddress) : Step Backend := fun b =>
  if sent && k.sends ip then (true, { b with tunnelRoutes := b.tunnelRoutes.erase ip }) else (false, b)

/-- The two halves that stand for a default range. -/
def halves : QHostAddress → Option (IPAddress × IPAddress)
  | .ipv4 _ => some (⟨.ipv4 0, 1⟩, ⟨.ipv4 0x80000000, 1⟩)
  | .ipv6 _ => some (⟨.ipv6 0, 1⟩, ⟨.ipv6 (1 <<< 127), 1⟩)
  | .null => none

/-- A default range is replaced by its halves, so that the host's own default route stays. -/
def onHalves (f : Nat → IPAddress → Step Backend) (ip : IPAddress) : Step Backend :=
  match halves ip.address with
  | some (low, high) => .seq (f 0 low) (f 1 high)
  | none => .stop

def updateRoutePrefix (k : Kind) (r : Reply) (ip : IPAddress) : Step Backend :=
  match k with
  | .windows => k.insertRoute (r.request 0) ip
  | .linux | .macos =>
    k.monitored <|
      if ip.prefixLength > 0 then k.insertRoute (r.request 0) ip else onHalves (fun n => k.insertRoute (r.request n)) ip

/-- On Linux and macOS a range other than a default one is inserted again. -/
def deleteRoutePrefix (k : Kind) (r : Reply) (ip : IPAddress) : Step Backend :=
  match k with
  | .windows => k.eraseRoute (r.request 0) ip
  | .linux | .macos =>
    k.monitored <|
      if ip.prefixLength > 0 then k.insertRoute (r.request 0) ip else onHalves (fun n => k.eraseRoute (r.request n)) ip

/-- The texts of the server's addresses; an absent one is the empty text. -/
def serverTexts (config : InterfaceConfig) : List String := [config.serverIpv4AddrIn, config.serverIpv6AddrIn]

/-- What `updatePeer` and `deletePeer` do to the routes of the server's addresses. -/
def serverRoutes (k : Kind) (qt : Qt) (f : Reply → IPAddress → Step Backend) (r : Reply)
    (config : InterfaceConfig) :
    Step Backend :=
  if config.hopType = .multiHopExit then .skip
  else
    .ite (fun b => k = .windows || b.monitor)
      (.each (fun n text => f (r.sub n) (IPAddress.ofText qt text)) (serverTexts config)) .skip

/-- The message to the interface, which Windows does not look at the answer of. -/
def uapi (k : Kind) (r : Reply) (f : Backend → Backend) : Step Backend := fun b =>
  if r.request 2 then (true, f b) else (k = .windows, b)

def updatePeer (k : Kind) (qt : Qt) (r : Reply) (config : InterfaceConfig) : Step Backend :=
  if config.serverIpv4AddrIn = "" ∧ config.serverIpv6AddrIn = "" then .stop
  else
    .seq (k.serverRoutes qt k.addRoute r config)
      (k.uapi r fun b => { b with peers := insert config.serverPublicKey b.peers })

def deletePeer (k : Kind) (qt : Qt) (r : Reply) (config : InterfaceConfig) : Step Backend :=
  .seq (k.serverRoutes qt k.deleteRoute r config)
    (k.uapi r fun b => { b with peers := b.peers.erase config.serverPublicKey })

/-- A new interface without configuration; the monitor is a new one. -/
def started (k : Kind) (b : Backend) : Backend :=
  { b with running := true, monitor := true, device := none, peers := ∅
           exclusionRoutes := if k = .macos then ∅ else b.exclusionRoutes }

def configured (k : Kind) (qt : Qt) (config : InterfaceConfig) (b : Backend) : Backend :=
  { b with device := some ⟨config.privateKey, config.junk⟩
           firewall :=
             if k ≠ .windows ∧ config.killSwitchEnabled then some (Linux.firewallParams qt config) else b.firewall }

/-- Request 0 starts the process, request 1 finds the interface's name, request 2 configures the interface. -/
def addInterface (k : Kind) (qt : Qt) (r : Reply) (config : InterfaceConfig) : Step Backend := fun b =>
  if b.running && k ≠ .windows then (false, b)
  else if !r.request 0 then (false, b)
  else
    match k with
    | .linux | .macos =>
      -- the process is killed when its name cannot be read, and left running when it refuses the configuration
      if !r.request 1 then (false, b)
      else if !r.request 2 then (false, k.started b)
      else (true, k.configured qt config (k.started b))
    -- the service starts with its configuration
    | .windows => (r.request 1, k.configured qt config (k.started b))

def stopped (b : Backend) : Backend := { b with running := false, device := none, peers := ∅, tunnelRoutes := ∅ }

def deleteInterface (k : Kind) (_ : Reply) : Step Backend := fun b =>
  match k with
  | .windows => (true, stopped b)
  | .linux | .macos =>
    -- the monitor of macOS takes its routes along
    let b := { b with monitor := false, exclusionRoutes := if k = .macos then ∅ else b.exclusionRoutes }
    if !b.running then (false, b) else (true, { stopped b with firewall := none })

/-! ## DNS and addresses -/

def updateResolvers (r : Reply) (resolvers : List QHostAddress) : Step Backend := fun b =>
  if r.request 0 then (true, { b with resolvers }) else (false, b)

def restoreResolvers (r : Reply) : Step Backend := fun b =>
  if r.request 0 then (true, { b with resolvers := [] }) else (false, b)

/-- A call that only asks something of the system. -/
def ask (r : Reply) : Step Backend := fun b => (r.request 0, b)

/-! ## What the functions leave alone

Each function changes few fields of the record; everything that does not read these fields stays. -/

section Frames

variable {τ : Type} {f : Backend → τ} (k : Kind) (qt : Qt)

theorem keeps_monitored {s : Step Backend} (h : Step.Keeps f s) : Step.Keeps f (k.monitored s) := .ite h .stop

theorem keeps_onHalves {g : Nat → IPAddress → Step Backend} (h : ∀ n ip, Step.Keeps f (g n ip)) (ip : IPAddress) :
    Step.Keeps f (onHalves g ip) := by
  unfold onHalves
  split
  · exact .seq (h 0 _) (h 1 _)
  · exact .stop

section Routes

variable (hf : ∀ b routes, f { b with tunnelRoutes := routes } = f b)

include hf

theorem keeps_insertRoute (sent : Bool) (ip : IPAddress) : Step.Keeps f (k.insertRoute sent ip) := by
  intro b
  rw [insertRoute]
  split
  · exact hf b _
  · rfl

theorem keeps_eraseRoute (sent : Bool) (ip : IPAddress) : Step.Keeps f (k.eraseRoute sent ip) := by
  intro b
  rw [eraseRoute]
  split
  · exact hf b _
  · rfl

theorem keeps_updateRoutePrefix (r : Reply) (ip : IPAddress) : Step.Keeps f (k.updateRoutePrefix r ip) := by
  cases k with
  | windows => exact keeps_insertRoute _ hf _ _
  | linux | macos =>
    apply keeps_monitored
    split
    · exact keeps_insertRoute _ hf _ _
    · exact keeps_onHalves (fun n ip => keeps_insertRoute _ hf _ _) ip

theorem keeps_deleteRoutePrefix (r : Reply) (ip : IPAddress) : Step.Keeps f (k.deleteRoutePrefix r ip) := by
  cases k with
  | windows => exact keeps_eraseRoute _ hf _ _
  | linux | macos =>
    apply keeps_monitored
    split
    · exact keeps_insertRoute _ hf _ _
    · exact keeps_onHalves (fun n ip => keeps_eraseRoute _ hf _ _) ip

end Routes

section Exclusions

variable (hf : ∀ b routes, f { b with exclusionRoutes := routes } = f b)

include hf

theorem keeps_addRoute (r : Reply) (ip : IPAddress) : Step.Keeps f (k.addRoute r ip) := by
  intro b
  unfold addRoute
  split
  · rfl
  cases k with
  | linux | windows =>
    dsimp only
    split
    · exact hf b _
    · rfl
  | macos => exact hf b _

theorem keeps_deleteRoute (r : Reply) (ip : IPAddress) : Step.Keeps f (k.deleteRoute r ip) := by
  intro b
  cases k with
  | linux =>
    rw [deleteRoute]
    split
    · exact hf b _
    · rfl
  | macos | windows => exact hf b _

end Exclusions

theorem keeps_serverRoutes {g : Reply → IPAddress → Step Backend} (hg : ∀ r ip, Step.Keeps f (g r ip)) (r : Reply)
    (config : InterfaceConfig) : Step.Keeps f (k.serverRoutes qt g r config) := by
  unfold serverRoutes
  split
  · exact .skip
  · exact .ite (.each (fun n text => hg _ _) _) .skip

theorem keeps_uapi {g : Backend → Backend} (hg : ∀ b, f (g b) = f b) (r : Reply) : Step.Keeps f (k.uapi r g) := by
  intro b
  rw [uapi]
  split
  · exact hg b
  · rfl

section Peers

variable (hroutes : ∀ b routes, f { b with exclusionRoutes := routes } = f b)
    (hpeers : ∀ b peers, f { b with peers } = f b)

include hroutes hpeers

theorem keeps_updatePeer (r : Reply) (config : InterfaceConfig) : Step.Keeps f (k.updatePeer qt r config) := by
  unfold updatePeer
  split
  · exact .stop
  · exact .seq (keeps_serverRoutes k qt (keeps_addRoute k hroutes) r config) (keeps_uapi k (fun b => hpeers b _) r)

theorem keeps_deletePeer (r : Reply) (config : InterfaceConfig) : Step.Keeps f (k.deletePeer qt r config) :=
  .seq (keeps_serverRoutes k qt (keeps_deleteRoute k hroutes) r config) (keeps_uapi k (fun b => hpeers b _) r)

end Peers

section Resolvers

variable (hf : ∀ b resolvers, f { b with resolvers } = f b)

include hf

theorem keeps_updateResolvers (r : Reply) (resolvers : List QHostAddress) :
    Step.Keeps f (updateResolvers r resolvers) := by
  intro b
  rw [updateResolvers]
  split
  · exact hf b _
  · rfl

theorem keeps_restoreResolvers (r : Reply) : Step.Keeps f (restoreResolvers r) := by
  intro b
  rw [restoreResolvers]
  split
  · exact hf b _
  · rfl

end Resolvers

end Frames

end Kind

/-- `LinuxDaemon`, `MacOSDaemon` or `WindowsDaemon`. -/
def platform (k : Kind) (qt : Qt) : Platform Backend where
  interfaceExists b := b.running
  addInterface := k.addInterface qt
  deleteInterface := k.deleteInterface
  updatePeer := k.updatePeer qt
  deletePeer := k.deletePeer qt
  updateRoutePrefix := k.updateRoutePrefix
  deleteRoutePrefix := k.deleteRoutePrefix
  addExclusionRoute := k.addExclusionRoute
  deleteExclusionRoute := k.deleteExclusionRoute
  supportDnsUtils := true
  updateResolvers := Kind.updateResolvers
  restoreResolvers := Kind.restoreResolvers
  supportIPUtils := k ≠ .windows
  addInterfaceIPs r _ := Kind.ask r
  setMTUAndUp r _ := Kind.ask r
  run _ _ _ := .skip

/-- The tunnel process ends on its own; the kernel drops its interface. -/
def Backend.died (b : Backend) : Backend := Kind.stopped b

def Backend.idle : Backend := ⟨false, false, ∅, ∅, none, ∅, [], none⟩

def State.idle : State Backend := .fresh .idle

/-! ## What only adding and deleting the interface changes -/

/-- Something about the host that is not about routes, peers or resolvers. -/
structure Settled {τ : Type} (g : Backend → τ) : Prop where
  exclusionRoutes : ∀ b routes, g { b with exclusionRoutes := routes } = g b
  tunnelRoutes : ∀ b routes, g { b with tunnelRoutes := routes } = g b
  peers : ∀ b peers, g { b with peers } = g b
  resolvers : ∀ b resolvers, g { b with resolvers } = g b

namespace State

section Parts

variable {τ : Type} {g : Backend → τ} (k : Kind) (qt : Qt)

theorem keeps_addExclusions (hg : ∀ b routes, g { b with exclusionRoutes := routes } = g b) (r : Nat → Reply)
    (config : InterfaceConfig) :
    Step.Keeps (fun d : State Backend => g d.backend) (addExclusions (platform k qt) qt r config) := by
  refine .each (fun n text d => ?_) _
  have hc := k.keeps_monitored (k.keeps_addRoute hg (r n) (IPAddress.ofText qt text))
  have ha : Step.Keeps (fun d : State Backend => g d.backend)
      (Step.seq (onBackend ((platform k qt).addExclusionRoute (r n) (IPAddress.ofText qt text)))
        (.update fun d => { d with excludedAddrSet := IPAddress.ofText qt text :: d.excludedAddrSet })) :=
    .seq (keeps_of_backend hc) (.update fun _ => rfl)
  rw [addExclusionRoute]
  split
  · rfl
  · exact ha d

theorem keeps_delExclusions (hg : ∀ b routes, g { b with exclusionRoutes := routes } = g b) (r : SwitchReplies)
    (lastConfig : InterfaceConfig) :
    Step.Keeps (fun d : State Backend => g d.backend) (delExclusions (platform k qt) qt r lastConfig) := by
  refine .each (fun n text d => ?_) _
  rw [delExclusionRoute]
  split
  · rfl
  · exact k.keeps_monitored (k.keeps_deleteRoute hg _ _) d.backend

theorem keeps_maybeUpdateResolvers (hg : ∀ b resolvers, g { b with resolvers } = g b) (r : Reply)
    (config : InterfaceConfig) :
    Step.Keeps (fun d : State Backend => g d.backend) (maybeUpdateResolvers (platform k qt) qt r config) := by
  unfold maybeUpdateResolvers
  split
  · exact .skip
  split
  · exact keeps_of_backend (Kind.keeps_updateResolvers hg _ _)
  · exact .skip

theorem keeps_addresses (r : FreshReplies) (config : InterfaceConfig) :
    Step.Keeps (fun d : State Backend => g d.backend) (addresses (platform k qt) r config) := by
  unfold addresses
  split
  · exact .seq (fun _ => rfl) fun _ => rfl
  · exact .skip

theorem keeps_updateRoutePrefix (hg : ∀ b routes, g { b with tunnelRoutes := routes } = g b) (r : Reply)
    (ip : IPAddress) :
    Step.Keeps (fun d : State Backend => g d.backend) (onBackend ((platform k qt).updateRoutePrefix r ip)) :=
  keeps_of_backend (k.keeps_updateRoutePrefix hg r ip)

theorem keeps_deleteRoutePrefix (hg : ∀ b routes, g { b with tunnelRoutes := routes } = g b) (r : Reply)
    (ip : IPAddress) :
    Step.Keeps (fun d : State Backend => g d.backend) (onBackend ((platform k qt).deleteRoutePrefix r ip)) :=
  keeps_of_backend (k.keeps_deleteRoutePrefix hg r ip)

theorem keeps_restoreResolvers (hg : ∀ b resolvers, g { b with resolvers } = g b) (r : Reply) :
    Step.Keeps (fun d : State Backend => g d.backend) (onBackend ((platform k qt).restoreResolvers r)) :=
  keeps_of_backend (Kind.keeps_restoreResolvers hg r)

theorem keeps_afterSwitch (hg : ∀ b resolvers, g { b with resolvers } = g b) (r : SwitchReplies)
    (config : InterfaceConfig) :
    Step.Keeps (fun d : State Backend => g d.backend) (afterSwitch (platform k qt) qt r config) :=
  .seq (keeps_restoreResolvers k qt hg _) <| .seq (keeps_maybeUpdateResolvers k qt hg _ _) <|
  .seq (fun _ => rfl) fun _ => rfl

end Parts

section Settled

variable {τ : Type} {g : Backend → τ} (k : Kind) (qt : Qt) (hg : Settled g)

include hg

theorem keeps_updatePeer (r : Reply) (config : InterfaceConfig) :
    Step.Keeps (fun d : State Backend => g d.backend) (onBackend ((platform k qt).updatePeer r config)) :=
  keeps_of_backend (k.keeps_updatePeer qt hg.exclusionRoutes hg.peers r config)

theorem keeps_deletePeer (r : Reply) (config : InterfaceConfig) :
    Step.Keeps (fun d : State Backend => g d.backend) (onBackend ((platform k qt).deletePeer r config)) :=
  keeps_of_backend (k.keeps_deletePeer qt hg.exclusionRoutes hg.peers r config)

theorem keeps_configure (r : FreshReplies) (config : InterfaceConfig) :
    Step.Keeps (fun d : State Backend => g d.backend) (configure (platform k qt) qt r config) :=
  .seq (keeps_updatePeer k qt hg _ _) <| .seq (keeps_maybeUpdateResolvers k qt hg.resolvers _ _) <|
  .seq (keeps_addresses k qt _ _) <|
  .seq (.all (fun _ _ => keeps_updateRoutePrefix k qt hg.tunnelRoutes _ _) _) fun _ => rfl

theorem keeps_removeLast (r : SwitchReplies) (lastConfig config : InterfaceConfig) :
    Step.Keeps (fun d : State Backend => g d.backend) (removeLast (platform k qt) r lastConfig config) := by
  refine .seq (.each (fun n ip => ?_) _) ?_
  · split
    · exact .skip
    · exact keeps_deleteRoutePrefix k qt hg.tunnelRoutes _ _
  · split
    · exact keeps_deletePeer k qt hg _ _
    · exact .skip

theorem keeps_switchServer (r : SwitchReplies) (lastConfig config : InterfaceConfig) :
    Step.Keeps (fun d : State Backend => g d.backend) (switchServer (platform k qt) qt r lastConfig config) :=
  .seq (keeps_addExclusions k qt hg.exclusionRoutes _ _) <| .seq (keeps_updatePeer k qt hg _ _) <|
  .seq (.ignore (.all (fun _ _ => keeps_updateRoutePrefix k qt hg.tunnelRoutes _ _) _)) <|
  .seq (keeps_delExclusions k qt hg.exclusionRoutes _ _) <| .seq (keeps_removeLast k qt hg _ _ _) fun _ => rfl

end Settled

theorem settled_running : Settled Backend.running :=
  ⟨fun _ _ => rfl, fun _ _ => rfl, fun _ _ => rfl, fun _ _ => rfl⟩

end State

end Cimogus.Daemon
