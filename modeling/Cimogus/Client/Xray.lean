import Cimogus.Client.SiteSettings
import Cimogus.Client.VpnProtocol
import Cimogus.Lib.Runs

/-!
# `XrayProtocol` on Linux

One connection with `XrayProtocol`, from `VpnConnection::connectToVpn` on. The protocol runs the xray process itself;
the service runs tun2socks and keeps the kill switch, the routes and the device. The calls of the service are carried
out in their order, some time after they were made, and the signals of tun2socks take their time too. All calls succeed.

When `VpnConnection` disconnects it destroys the protocol, and the signals of tun2socks find no receiver any more. Sites
are resolved by `VpnConnection`, which goes on after that.
-/

namespace Cimogus.Client

/-- What the connection reads from the settings and the configuration. -/
structure XraySettings where
  killSwitchOption : Bool
  configVersion : Int
  dns1 : String
  dns2 : String
  isSitesSplitTunnelingEnabled : Bool
  routeMode : RouteMode
  /-- `vpnSites` for the route mode. -/
  vpnSites : List (String × String)
  checkIpSubnetFormat : String → Bool
  remoteAddress : String
  routeGateway : String

/-- `m_routeMode` of the protocol, which is the `splitTunnelType` of the configuration. -/
def XraySettings.splitTunnelType (c : XraySettings) : RouteMode :=
  if c.isSitesSplitTunnelingEnabled then c.routeMode else .VpnAllSites

/-- `protocols::xray::defaultLocalAddr`, the gateway and the local address. -/
def xrayLocalAddr : String := "10.34.0.2"

/-! ## The service -/

/-- The calls of the service, among them those of `IpcProcessTun2Socks`. -/
inductive IpcCall
  | createTun (dev subnet : String)
  | deleteTun (dev : String)
  | updateResolvers (ifname : String) (resolvers : List String)
  | enableKillSwitch
  | disableKillSwitch
  | routeAddList (gw : String) (ips : List String)
  | routeDeleteList (gw : String) (ips : List String)
  | clearSavedRoutes
  | StartRoutingIpv6
  | StopRoutingIpv6
  | resetIpStack
  | flushDns
  | tun2socksStart
  | tun2socksStop
  deriving DecidableEq

inductive Ipv6Switch
  | start
  | stop
  deriving DecidableEq

structure XrayService where
  killSwitch : Bool
  ipv6 : Option Ipv6Switch
  /-- `m_addedRoutes`, since the connection was opened. -/
  savedRoutes : List (String × String)
  /-- The devices that were created and have not been deleted since. -/
  tuns : List String
  /-- The tun2socks process runs. -/
  tun2socks : Bool
  /-- How often tun2socks was started for earlier connections: its handlers are connected once more each time. -/
  earlierStarts : Nat
  deriving DecidableEq

def XrayService.idle (earlierStarts : Nat) : XrayService := ⟨false, none, [], [], false, earlierStarts⟩

/-- The end of tun2socks, once for each connected handler. -/
def XrayService.tun2socksEnds (v : XrayService) : List ConnectionState :=
  List.replicate (v.earlierStarts + 1) .Disconnected

namespace IpcCall

def perform : IpcCall → XrayService → XrayService
  | .createTun dev _, v => { v with tuns := v.tuns ++ [dev] }
  | .deleteTun dev, v => { v with tuns := v.tuns.filter (· ≠ dev) }
  | .enableKillSwitch, v => { v with killSwitch := true }
  | .disableKillSwitch, v => { v with killSwitch := false }
  | .routeAddList gw ips, v => { v with savedRoutes := v.savedRoutes ++ ips.map fun ip => (ip, gw) }
  | .clearSavedRoutes, v => { v with savedRoutes := [] }
  | .StartRoutingIpv6, v => { v with ipv6 := some .start }
  | .StopRoutingIpv6, v => { v with ipv6 := some .stop }
  | .tun2socksStart, v => { v with tun2socks := true }
  | .tun2socksStop, v => { v with tun2socks := false }
  -- a deleted route stays in the list of the saved ones
  | .routeDeleteList _ _, v | .updateResolvers _ _, v | .resetIpStack, v | .flushDns, v => v

/-- What the client hears of the call: closing tun2socks ends it. -/
def emits : IpcCall → XrayService → List ConnectionState
  | .tun2socksStop, v => if v.tun2socks then v.tun2socksEnds else []
  | _, _ => []

end IpcCall

/-! ## The client -/

structure Lookup where
  site : String
  gw : String
  ips : List String
  deriving DecidableEq

structure XraySession where
  /-- The protocol, until it is destroyed. -/
  protocol : Option VpnProtocol
  /-- The protocol is connected to the signals of tun2socks. -/
  hears : Bool
  /-- The xray process runs. -/
  xray : Bool
  lookups : List Lookup
  /-- The timers for `addSitesRoutes`. -/
  timers : Nat
  /-- The calls on their way to the service. -/
  calls : List IpcCall
  service : XrayService
  /-- The signals of tun2socks on their way to the client. -/
  signals : List ConnectionState
  /-- The states that `VpnConnection` has reported. -/
  reported : List ConnectionState
  errors : List ErrorCode
  deriving DecidableEq

structure ExitStatus where
  exitCode : Int
  crashed : Bool
  deriving DecidableEq

namespace XraySession

def send (calls : List IpcCall) (s : XraySession) : XraySession := { s with calls := s.calls ++ calls }

def addSitesRoutes (c : XraySettings) (gw : String) (s : XraySession) : XraySession :=
  let ips := (c.vpnSites.filterMap fun site =>
    if c.checkIpSubnetFormat site.1 then some site.1
    else if c.checkIpSubnetFormat site.2 then some site.2 else none).eraseDups
  let sites := (c.vpnSites.filter fun site => !c.checkIpSubnetFormat site.1).map Prod.fst
  { s.send [.routeAddList gw ips] with lookups := s.lookups ++ sites.map fun site => ⟨site, gw, ips⟩ }

/-- What `VpnConnection` does when a protocol is connected. -/
def onConnected (c : XraySettings) (s : XraySession) : XraySession :=
  let s := s.send [.resetIpStack, .flushDns]
  if c.configVersion ≠ 0 then s
  else
    let s := s.send [.routeAddList xrayLocalAddr [c.dns1, c.dns2]]
    if !c.isSitesSplitTunnelingEnabled then s
    else
      let s := s.send [.routeDeleteList xrayLocalAddr ["0.0.0.0"]]
      match c.routeMode with
      | .VpnOnlyForwardSites => { s with timers := s.timers + 1 }
      | .VpnAllExceptSites =>
        (s.send [.routeAddList xrayLocalAddr ["0.0.0.0/1"], .routeAddList xrayLocalAddr ["128.0.0.0/1"],
          .routeAddList c.routeGateway [c.remoteAddress]]).addSitesRoutes c c.routeGateway
      | .VpnAllSites => s

def onError (c : XraySettings) (s : XraySession) : XraySession :=
  let s := s.send [.flushDns]
  if c.isSitesSplitTunnelingEnabled && c.routeMode = .VpnOnlyForwardSites then s.send [.clearSavedRoutes] else s

/-- `VpnConnection::onConnectionStateChanged`. -/
def onConnectionStateChanged (c : XraySettings) (state : ConnectionState) (s : XraySession) : XraySession :=
  let s :=
    match state with
    | .Connected => s.onConnected c
    | .Error => s.onError c
    | _ => s
  { s with reported := s.reported ++ [state] }

/-- A function of `VpnProtocol`, with what `VpnConnection` does about its signals. -/
def base (c : XraySettings) (f : VpnProtocol → VpnProtocol × List Signal) (s : XraySession) : XraySession :=
  match s.protocol with
  | none => s
  | some p =>
    (f p).2.foldl
      (fun s signal =>
        match signal with
        | .connectionStateChanged state => s.onConnectionStateChanged c state
        | _ => s)
      { s with protocol := some (f p).1 }

def setConnectionState (c : XraySettings) (state : ConnectionState) : XraySession → XraySession :=
  base c (VpnProtocol.setConnectionState state)

def setLastError (c : XraySettings) (e : ErrorCode) : XraySession → XraySession := base c (VpnProtocol.setLastError e)

def protocolError (e : ErrorCode) (s : XraySession) : XraySession := { s with errors := s.errors ++ [e] }

/-- `stop`; the xray process is terminated as well, and ends when it does. -/
def stop (s : XraySession) : XraySession := s.send [.disableKillSwitch, .StartRoutingIpv6, .tun2socksStop]

/-- The handler of the xray process's `finished`. -/
def onFinished (c : XraySettings) (exit : ExitStatus) (s : XraySession) : XraySession :=
  let s := { s with xray := false }.setConnectionState c .Disconnected
  let s := if exit.crashed then (s.protocolError .XrayExecutableCrashed).stop else s
  if exit.exitCode ≠ 0 then (s.protocolError .InternalError).stop else s

/-- The handler of tun2socks's `setConnectionState`. -/
def onTun2Socks (c : XraySettings) (vpnState : ConnectionState) (s : XraySession) : XraySession :=
  match vpnState with
  | .Connected =>
    let s := s.setConnectionState c .Connecting
    let s := s.send [.createTun "tun3" xrayLocalAddr, .updateResolvers "tun3" [c.dns1, c.dns2]]
    let s := if c.killSwitchOption then s.send [.enableKillSwitch] else s
    let s :=
      if c.splitTunnelType = .VpnAllSites then
        s.send [.routeAddList xrayLocalAddr ["0.0.0.0/1"], .routeAddList xrayLocalAddr ["128.0.0.0/1"],
          .routeAddList c.routeGateway [c.remoteAddress]]
      else s
    (s.send [.StopRoutingIpv6]).setConnectionState c .Connected
  | .Disconnected =>
    (s.setConnectionState c .Disconnected).send [.deleteTun "tun3", .StartRoutingIpv6, .clearSavedRoutes]
  | _ => s

/-- What `start` finds. -/
structure StartAnswers where
  execExists : Bool
  /-- The xray process comes up. -/
  starts : Bool
  deriving DecidableEq

/-- `start` and `startTun2Sock`, with whether there is no error. -/
def start (c : XraySettings) (a : StartAnswers) (s : XraySession) : Bool × XraySession :=
  if !a.execExists then (false, s.setLastError c .XrayExecutableMissing)
  else if !a.starts then (false, s)
  else (true, { ({ s with xray := true }.setConnectionState c .Connecting).send [.tun2socksStart] with hears := true })

/-- `VpnConnection::connectToVpn`. -/
def connectToVpn (c : XraySettings) (a : StartAnswers) (service : XrayService) : XraySession :=
  let s : XraySession := ⟨some .init, false, false, [], 0, [], service, [], [.Connecting], []⟩
  match s.start c a with
  | (true, s) => s
  | (false, s) => { s with reported := s.reported ++ [.Error] }

/-- `~XrayProtocol`, which waits for the end of the xray process. -/
def destroy (c : XraySettings) (exit : ExitStatus) (s : XraySession) : XraySession :=
  let s := s.stop
  let s := if s.xray then s.onFinished c exit else s
  { s with protocol := none, hears := false, timers := 0 }

/-- `VpnConnection::disconnectFromVpn`. -/
def disconnectFromVpn (c : XraySettings) (exit : ExitStatus) (s : XraySession) : XraySession :=
  let s := s.send [.flushDns, .clearSavedRoutes]
  match s.protocol with
  | none => { s with reported := s.reported ++ [.Disconnected] }
  | some _ => s.destroy c exit

/-- The callback for a site, with the first IPv4 address. -/
def onResolved (lookup : Lookup) (ip : Option String) (s : XraySession) : XraySession :=
  match ip with
  | none => s
  | some ip => (if ip ∉ lookup.ips then s.send [.routeAddList lookup.gw [ip]] else s).send [.flushDns]

/-! ## Runs -/

inductive Event
  /-- With how the xray process ends, if it has to be waited for. -/
  | disconnectFromVpn (exit : ExitStatus)
  | xrayFinished (exit : ExitStatus)
  /-- tun2socks says that it is connected. -/
  | tun2socksConnected
  /-- tun2socks exits by itself. -/
  | tun2socksFinished
  | callDelivered
  | signalDelivered
  /-- A site is resolved, or it is not. -/
  | resolved (i : Nat) (ip : Option String)
  | timeout
  deriving DecidableEq

def step (c : XraySettings) : Event → XraySession → XraySession
  | .disconnectFromVpn exit, s => s.disconnectFromVpn c exit
  | .xrayFinished exit, s => if s.xray then s.onFinished c exit else s
  -- the banner is read by the first handler, and is not there for the others
  | .tun2socksConnected, s => if s.service.tun2socks then { s with signals := s.signals ++ [.Connected] } else s
  | .tun2socksFinished, s =>
    if s.service.tun2socks then
      { s with
        service := { s.service with tun2socks := false }
        signals := s.signals ++ s.service.tun2socksEnds }
    else s
  | .callDelivered, s =>
    match s.calls with
    | [] => s
    | call :: calls =>
      { s with calls, service := call.perform s.service, signals := s.signals ++ call.emits s.service }
  | .signalDelivered, s =>
    match s.signals with
    | [] => s
    | vpnState :: signals =>
      -- without a receiver the signal is dropped
      if s.protocol.isSome && s.hears then { s with signals }.onTun2Socks c vpnState else { s with signals }
  | .resolved i ip, s =>
    match s.lookups[i]? with
    | none => s
    | some lookup => { s with lookups := s.lookups.eraseIdx i }.onResolved lookup ip
  | .timeout, s =>
    if s.timers = 0 then s else { s with timers := s.timers - 1 }.addSitesRoutes c xrayLocalAddr

end XraySession

end Cimogus.Client
