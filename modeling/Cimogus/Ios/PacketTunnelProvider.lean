import Cimogus.Lib.Runs
import Cimogus.Lib.Tables

/-!
# The packet tunnel provider of iOS

`PacketTunnelProvider` with its three backends, as a state machine: calls of `startTunnel`, numbered in their order, and
what the backends report. A `completionHandler` is the number of the call it belongs to; `Log` has the calls of these
handlers, and which attempts have ended and which backends have reported that they started. Closures that wait for a
backend, and the adapters of OpenVPN, are kept under the number of their call. What Foundation and WireGuardKit make of
data and texts is a parameter (`Decoders`).

The provider never assigns `splitTunnelType` and `splitTunnelSites`. A forced unwrap of `nil` and `fatalError` end the
process (`crashed`). Stopping the tunnel is left out.
-/

namespace Cimogus.Ios

open Lib

/-! ## Configurations -/

inductive TunnelProtoType
  | wireguard
  | openvpn
  | xray
  deriving DecidableEq

/-- The values under the three keys, as far as they are data. -/
structure ProviderConfiguration (Data : Type) where
  ovpn : Option Data
  wireguard : Option Data
  xray : Option Data
  deriving DecidableEq

inductive Address
  | ipv4 (address : BitVec 32)
  | ipv6 (address : BitVec 128)
  deriving DecidableEq

structure IPAddressRange where
  address : Address
  networkPrefixLength : Nat
  deriving DecidableEq

structure OpenVPNConfig where
  config : String
  splitTunnelType : Int
  splitTunnelSites : List String
  deriving DecidableEq

structure WGConfig where
  initPacketMagicHeader : Option String
  responsePacketMagicHeader : Option String
  underloadPacketMagicHeader : Option String
  transportPacketMagicHeader : Option String
  junkPacketCount : Option String
  junkPacketMinSize : Option String
  junkPacketMaxSize : Option String
  initPacketJunkSize : Option String
  responsePacketJunkSize : Option String
  dns1 : String
  dns2 : String
  mtu : String
  hostName : String
  port : Int
  clientIP : String
  clientPrivateKey : String
  serverPublicKey : String
  presharedKey : Option String
  allowedIPs : List String
  persistentKeepAlive : String
  splitTunnelType : Int
  splitTunnelSites : List String
  deriving DecidableEq

namespace WGConfig

/-- `none` where the forced unwrap of a missing value ends the process. -/
def settings (c : WGConfig) : Option String :=
  match c.junkPacketCount with
  | none => some ""
  | some jc => do
    let jmin ← c.junkPacketMinSize
    let jmax ← c.junkPacketMaxSize
    let s1 ← c.initPacketJunkSize
    let s2 ← c.responsePacketJunkSize
    let h1 ← c.initPacketMagicHeader
    let h2 ← c.responsePacketMagicHeader
    let h3 ← c.underloadPacketMagicHeader
    let h4 ← c.transportPacketMagicHeader
    some ("Jc = " ++ jc ++ "\nJmin = " ++ jmin ++ "\nJmax = " ++ jmax ++ "\nS1 = " ++ s1 ++ "\nS2 = " ++ s2 ++
      "\nH1 = " ++ h1 ++
      "\nH2 = " ++ h2 ++ "\nH3 = " ++ h3 ++ "\nH4 = " ++ h4 ++ "\n")

def str (c : WGConfig) : Option String := do
  let settings ← c.settings
  some ("[Interface]\nAddress = " ++ c.clientIP ++ "\nDNS = " ++ c.dns1 ++ ", " ++ c.dns2 ++ "\nMTU = " ++ c.mtu ++
    "\nPrivateKey = " ++ c.clientPrivateKey ++ "\n" ++ settings ++ "\n[Peer]\nPublicKey = " ++
    c.serverPublicKey ++ "\n" ++
    (c.presharedKey.map ("PresharedKey = " ++ ·)).getD "" ++ "\nAllowedIPs = " ++ ", ".intercalate c.allowedIPs ++
    "\nEndpoint = " ++ c.hostName ++ ":" ++ toString c.port ++ "\nPersistentKeepalive = " ++ c.persistentKeepAlive)

end WGConfig

structure Peer where
  allowedIPs : List IPAddressRange
  excludeIPs : List IPAddressRange
  deriving DecidableEq

/-- The peers of a tunnel, which is what the provider changes of it. -/
structure TunnelConfiguration where
  peers : List Peer
  deriving DecidableEq

/-- The part that is looked at before the network settings are set. -/
structure XrayConfig where
  config : String
  deriving DecidableEq

/-- What `JSONSerialization.jsonObject` makes of a text. -/
inductive JsonObject
  | throws
  | other
  | dictionary
  deriving DecidableEq

/-- `JSONDecoder`, `TunnelConfiguration(fromWgQuickConfig:)`, `JSONSerialization` and `IPAddressRange(from:)`. -/
structure Decoders (Data : Type) where
  openVpn : Data → Option OpenVPNConfig
  wireGuard : Data → Option WGConfig
  xray : Data → Option XrayConfig
  tunnelConfiguration : String → Option TunnelConfiguration
  jsonObject : String → JsonObject
  range : String → Option IPAddressRange
  rangeText : IPAddressRange → String

/-! ## The state -/

/-- The errors that a `completionHandler` is called with. -/
inductive StartError
  | protocolIsNotSelected
  | openVpnConfiguration
  | openVpnFatal
  | couldNotDetermineFileDescriptor
  | dnsResolutionFailure
  | couldNotSetNetworkSettings
  | couldNotStartBackend
  | noXrayConfig
  | cantParseListenAndPort
  | cantSaveXrayConfig
  | cantSaveHevSocksConfig
  /-- An error that was thrown or came from the system. -/
  | other
  deriving DecidableEq

inductive WireGuardAdapterError
  | cannotLocateTunnelFileDescriptor
  | dnsResolution
  | setNetworkSettings
  | startWireGuardBackend
  | invalidState
  deriving DecidableEq

structure Log where
  /-- The calls of completion handlers, with the attempt and the error. -/
  answers : List (Nat × Option StartError)
  /-- The attempts whose backend has reported that it started. -/
  started : List Nat
  /-- The attempts that have ended: a configuration that is not accepted, a backend that is connected or one that
  failed. -/
  ended : List Nat
  deriving DecidableEq

namespace Log

def answer (a : Nat) (e : Option StartError) (l : Log) : Log := { l with answers := l.answers ++ [(a, e)] }

def start (a : Nat) (l : Log) : Log := { l with started := a :: l.started }

def finish (a : Nat) (l : Log) : Log := { l with ended := a :: l.ended }

end Log

/-- What an attempt has left behind: a closure, or an adapter of OpenVPN that is connecting or connected. -/
inductive Waiting
  | openVpnAdapter
  | wireGuardStart
  | xraySettings
  | xraySocks
  deriving DecidableEq

structure Provider where
  protoType : Option TunnelProtoType
  splitTunnelType : Option Int
  splitTunnelSites : Option (List String)
  startHandler : Option Nat
  /-- What the WireGuard adapter was started with. -/
  wgTunnel : Option TunnelConfiguration
  waiting : Table Nat Waiting
  /-- The number of calls of `startTunnel`. -/
  attempts : Nat
  crashed : Bool
  log : Log

namespace Provider

variable {Data : Type} (dec : Decoders Data)

def init : Provider := ⟨none, none, none, none, none, Table.empty, 0, false, ⟨[], [], []⟩⟩

/-- The configuration is not accepted, and the handler is called with `e`. -/
def reject (a : Nat) (e : Option StartError) (s : Provider) : Provider := { s with log := (s.log.finish a).answer a e }

/-- The configuration is not accepted, and the handler is not called. -/
def ignore (a : Nat) (s : Provider) : Provider := { s with log := s.log.finish a }

def wait (a : Nat) (w : Waiting) (s : Provider) : Provider := { s with waiting := Function.update s.waiting a (some w) }

/-! ## Starting -/

/-- `applied`: the adapter takes the configuration. -/
def startOpenVPN (a : Nat) (pc : ProviderConfiguration Data) (applied : Bool) (s : Provider) : Provider :=
  match pc.ovpn with
  | none => s.ignore a
  | some data =>
    match dec.openVpn data with
    | none => s.ignore a
    | some _ =>
      if !applied then s.reject a (some .openVpnConfiguration)
      else { s.wait a .openVpnAdapter with startHandler := some a }

/-- The site list takes the place of allowed addresses that are everything. -/
def splitTunnel (c : WGConfig) (t : TunnelConfiguration) : TunnelConfiguration :=
  match t.peers with
  | first :: _ =>
    if ", ".intercalate (first.allowedIPs.map dec.rangeText) = "0.0.0.0/0, ::/0" then
      let sites := c.splitTunnelSites.filterMap dec.range
      if c.splitTunnelType = 1 then ⟨t.peers.map fun p => { p with allowedIPs := sites }⟩
      else if c.splitTunnelType = 2 then ⟨t.peers.map fun p => { p with excludeIPs := sites }⟩
      else t
    else t
  | [] => t

/-- The tunnel that data are decoded to: `none` if they are no configuration, `some none` if reading it ends the
process. -/
def wireGuardTunnel (data : Data) : Option (Option TunnelConfiguration) :=
  match dec.wireGuard data with
  | none => none
  | some c =>
    match c.str with
    | none => some none
    | some text =>
      match dec.tunnelConfiguration text with
      | none => none
      -- `peers.first!`
      | some ⟨[]⟩ => some none
      | some t => some (some (splitTunnel dec c t))

def startWireguard (a : Nat) (pc : ProviderConfiguration Data) (s : Provider) : Provider :=
  match pc.wireguard with
  | none => s.reject a none
  | some data =>
    match wireGuardTunnel dec data with
    | none => s.reject a none
    -- the process is gone with the attempt, which is not counted as ended as it is for `invalidState`
    | some none => { s with crashed := true }
    | some (some t) => { s.wait a .wireGuardStart with wgTunnel := some t }

def startXray (a : Nat) (pc : ProviderConfiguration Data) (s : Provider) : Provider :=
  match pc.xray with
  | none => s.reject a (some .noXrayConfig)
  | some data =>
    match dec.xray data with
    | none => s.reject a (some .other)
    | some c =>
      match dec.jsonObject c.config with
      | .throws => s.reject a (some .other)
      | .other => s.reject a (some .cantParseListenAndPort)
      | .dictionary => s.wait a .xraySettings

/-- The protocol of the first key that has data; without any, the one of an earlier call stays. -/
def selectProto (pc : ProviderConfiguration Data) (s : Provider) : Option TunnelProtoType :=
  if pc.ovpn.isSome then some .openvpn
  else if pc.wireguard.isSome then some .wireguard
  else if pc.xray.isSome then some .xray
  else s.protoType

def startTunnel (pc : ProviderConfiguration Data) (applied : Bool) (s : Provider) : Provider :=
  let a := s.attempts
  let s := { s with attempts := a + 1, protoType := selectProto pc s }
  match s.protoType with
  | none => s.reject a (some .protocolIsNotSelected)
  | some .wireguard => s.startWireguard dec a pc
  | some .openvpn => s.startOpenVPN dec a pc applied
  | some .xray => s.startXray dec a pc

/-! ## What the backends report -/

/-- The event `connected` of the adapter of an attempt. The handler that is called is the stored one. -/
def openVpnConnected (a : Nat) (s : Provider) : Provider :=
  if s.waiting a = some .openVpnAdapter then
    let s := { s with log := (s.log.start a).finish a }
    match s.startHandler with
    | some b => { s with log := s.log.answer b none, startHandler := none }
    | none => s
  else s

/-- `handleError` for the adapter of an attempt. Without a stored handler the tunnel is cancelled. -/
def openVpnError (a : Nat) (fatal : Bool) (s : Provider) : Provider :=
  if s.waiting a = some .openVpnAdapter ∧ fatal = true then
    let s := { s with log := s.log.finish a }
    match s.startHandler with
    | some b => { s with log := s.log.answer b (some .openVpnFatal), startHandler := none }
    | none => s
  else s

def take (a : Nat) (s : Provider) : Provider := { s with waiting := Function.update s.waiting a none }

def wireGuardStarted (a : Nat) (adapterError : Option WireGuardAdapterError) (s : Provider) : Provider :=
  if s.waiting a = some .wireGuardStart then
    let s := s.take a
    match adapterError with
    | none => { s with log := ((s.log.start a).finish a).answer a none }
    | some .cannotLocateTunnelFileDescriptor => s.reject a (some .couldNotDetermineFileDescriptor)
    | some .dnsResolution => s.reject a (some .dnsResolutionFailure)
    | some .setNetworkSettings => s.reject a (some .couldNotSetNetworkSettings)
    | some .startWireGuardBackend => s.reject a (some .couldNotStartBackend)
    | some .invalidState => { s.ignore a with crashed := true }
  else s

/-- How the steps after `setTunnelNetworkSettings` go: no error, the two files are written, and Xray runs. -/
structure XrayReplies where
  settings : Bool
  savedConfig : Bool
  ran : Bool
  savedSocks : Bool
  deriving DecidableEq

/-- The result of `LibXrayRunXray` is not looked at. -/
def xraySettingsSet (a : Nat) (r : XrayReplies) (s : Provider) : Provider :=
  if s.waiting a = some .xraySettings then
    let s := s.take a
    if !r.settings then s.reject a (some .other)
    else if !r.savedConfig then s.reject a (some .cantSaveXrayConfig)
    else
      let s := { s with log := if r.ran then s.log.start a else s.log.finish a }
      if !r.savedSocks then s.reject a (some .cantSaveHevSocksConfig) else s.wait a .xraySocks
  else s

def xraySocksStarted (a : Nat) (s : Provider) : Provider :=
  if s.waiting a = some .xraySocks then (s.take a).reject a none else s

inductive Event (Data : Type)
  | startTunnel (pc : ProviderConfiguration Data) (applied : Bool)
  | openVpnConnected (a : Nat)
  | openVpnError (a : Nat) (fatal : Bool)
  | wireGuardStarted (a : Nat) (adapterError : Option WireGuardAdapterError)
  | xraySettingsSet (a : Nat) (r : XrayReplies)
  | xraySocksStarted (a : Nat)

def step (e : Event Data) (s : Provider) : Provider :=
  if s.crashed then s
  else
    match e with
    | .startTunnel pc applied => s.startTunnel dec pc applied
    | .openVpnConnected a => s.openVpnConnected a
    | .openVpnError a fatal => s.openVpnError a fatal
    | .wireGuardStarted a adapterError => s.wireGuardStarted a adapterError
    | .xraySettingsSet a r => s.xraySettingsSet a r
    | .xraySocksStarted a => s.xraySocksStarted a

end Provider

end Cimogus.Ios
