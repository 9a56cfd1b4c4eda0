import Cimogus.Ios.PacketTunnelProvider

/-!
# Split tunnelling with OpenVPN on iOS

`startOpenVPN` decodes the type of split tunnelling and the sites and passes on neither: the delegate method
`configureTunnelWithNetworkSettings` looks at `splitTunnelType` and `splitTunnelSites` of the provider, which are never
set.
-/

namespace Cimogus.Ios

open Lib.Runs

/-! ## Network settings -/

/-- `NEIPv4Route`, which takes any texts. -/
structure Ipv4Route where
  destinationAddress : Address
  subnetMask : Address
  deriving DecidableEq

structure Ipv6Route where
  destinationAddress : Address
  networkPrefixLength : Nat
  deriving DecidableEq

structure Ipv4Settings where
  includedRoutes : List Ipv4Route
  excludedRoutes : List Ipv4Route
  deriving DecidableEq

structure Ipv6Settings where
  includedRoutes : List Ipv6Route
  excludedRoutes : List Ipv6Route
  deriving DecidableEq

structure NetworkSettings where
  ipv4Settings : Option Ipv4Settings
  ipv6Settings : Option Ipv6Settings
  /-- The match domains of the DNS settings, if there are such settings. -/
  matchDomains : Option (List String)
  deriving DecidableEq

namespace IPAddressRange

def subnetMask (r : IPAddressRange) : Address :=
  match r.address with
  | .ipv4 _ => .ipv4 (BitVec.allOnes 32 <<< (32 - r.networkPrefixLength))
  | .ipv6 _ => .ipv6 (BitVec.allOnes 128 <<< (128 - r.networkPrefixLength))

def ipv4Route (r : IPAddressRange) : Ipv4Route := ⟨r.address, r.subnetMask⟩

def isIpv4 (r : IPAddressRange) : Bool :=
  match r.address with
  | .ipv4 _ => true
  | .ipv6 _ => false

end IPAddressRange

/-- `0.0.0.0/0`. -/
def allIPv4 : IPAddressRange := ⟨.ipv4 0, 0⟩

/-- `::/0`. -/
def allIPv6 : IPAddressRange := ⟨.ipv6 0, 0⟩

variable {Data : Type} (dec : Decoders Data)

namespace Provider

/-- The settings that `setTunnelNetworkSettings` gets, or `none` if the adapter gets an error instead. -/
def configureTunnelWithNetworkSettings (n : NetworkSettings) (s : Provider) : Option NetworkSettings :=
  let n := { n with matchDomains := n.matchDomains.map fun _ => [""] }
  if s.splitTunnelType = some 1 then
    s.splitTunnelSites.map fun sites =>
      let included := (sites.filterMap dec.range).map (·.ipv4Route)
      { n with ipv4Settings := n.ipv4Settings.map fun i => { i with includedRoutes := included } }
  else if s.splitTunnelType = some 2 then
    s.splitTunnelSites.map fun sites =>
      let excluded := (sites.filterMap dec.range).map (·.ipv4Route)
      { n with
        ipv4Settings := n.ipv4Settings.map fun _ => ⟨[allIPv4.ipv4Route], excluded⟩
        ipv6Settings := n.ipv6Settings.map fun i =>
          { i with includedRoutes := [⟨allIPv6.address, allIPv6.networkPrefixLength⟩] } }
  else some n

/-! ## The fields are never set -/

section Fields

variable {dec} {s : Provider}

theorem startTunnel_splitTunnelType (pc : ProviderConfiguration Data) (applied : Bool) :
    (s.startTunnel dec pc applied).splitTunnelType = s.splitTunnelType := by
  unfold startTunnel
  dsimp only
  split
  · rfl
  · unfold startWireguard
    split
    · rfl
    split <;> rfl
  · unfold startOpenVPN
    split
    · rfl
    split
    · rfl
    split <;> rfl
  · unfold startXray
    split
    · rfl
    split
    · rfl
    split <;> rfl

variable (a : Nat)

theorem openVpnConnected_splitTunnelType : (s.openVpnConnected a).splitTunnelType = s.splitTunnelType := by
  unfold openVpnConnected
  split
  · dsimp only
    split <;> rfl
  · rfl

theorem openVpnError_splitTunnelType (fatal : Bool) : (s.openVpnError a fatal).splitTunnelType = s.splitTunnelType := by
  unfold openVpnError
  split
  · dsimp only
    split <;> rfl
  · rfl

theorem wireGuardStarted_splitTunnelType (adapterError : Option WireGuardAdapterError) :
    (s.wireGuardStarted a adapterError).splitTunnelType = s.splitTunnelType := by
  unfold wireGuardStarted
  split
  · cases adapterError with
    | none => rfl
    | some e => cases e <;> rfl
  · rfl

theorem xraySettingsSet_splitTunnelType (r : XrayReplies) :
    (s.xraySettingsSet a r).splitTunnelType = s.splitTunnelType := by
  unfold xraySettingsSet
  split
  · dsimp only
    split
    · rfl
    split
    · rfl
    split <;> rfl
  · rfl

theorem xraySocksStarted_splitTunnelType : (s.xraySocksStarted a).splitTunnelType = s.splitTunnelType := by
  unfold xraySocksStarted
  split <;> rfl

theorem step_splitTunnelType (e : Event Data) : (step dec e s).splitTunnelType = s.splitTunnelType := by
  unfold step
  split
  · rfl
  cases e with
  | startTunnel pc applied => exact startTunnel_splitTunnelType pc applied
  | openVpnConnected a => exact openVpnConnected_splitTunnelType a
  | openVpnError a fatal => exact openVpnError_splitTunnelType a fatal
  | wireGuardStarted a adapterError => exact wireGuardStarted_splitTunnelType a adapterError
  | xraySettingsSet a r => exact xraySettingsSet_splitTunnelType a r
  | xraySocksStarted a => exact xraySocksStarted_splitTunnelType a

theorem run_splitTunnelType (events : List (Event Data)) : (run (step dec) events init).splitTunnelType = none := by
  have hst (e : Event Data) (s : Provider) (hs : s.splitTunnelType = none) : (step dec e s).splitTunnelType = none :=
    (step_splitTunnelType e).trans hs
  exact run_invariant hst events rfl

theorem configureTunnel_of_unset (h : s.splitTunnelType = none) (n : NetworkSettings) :
    configureTunnelWithNetworkSettings dec n s = some { n with matchDomains := n.matchDomains.map fun _ => [""] } := by
  simp [configureTunnelWithNetworkSettings, h]

end Fields

end Provider

/-! ## What the configuration asks for -/

namespace NetworkSettings

def ipv4Included (n : NetworkSettings) : List Ipv4Route := n.ipv4Settings.elim [] (·.includedRoutes)

def ipv4Excluded (n : NetworkSettings) : List Ipv4Route := n.ipv4Settings.elim [] (·.excludedRoutes)

def ipv6Included (n : NetworkSettings) : List Ipv6Route := n.ipv6Settings.elim [] (·.includedRoutes)

end NetworkSettings

def ipv4Networks (sites : List String) : List Ipv4Route :=
  ((sites.filterMap dec.range).filter (·.isIpv4)).map (·.ipv4Route)

/-- The settings that are passed on have the routes that the configuration asks for. -/
structure Honoured (c : OpenVPNConfig) (proposed passed : NetworkSettings) : Prop where
  off : c.splitTunnelType = 0 → passed.ipv4Settings = proposed.ipv4Settings ∧
    passed.ipv6Settings = proposed.ipv6Settings
  only : c.splitTunnelType = 1 → ∀ r, r ∈ passed.ipv4Included ↔ r ∈ ipv4Networks dec c.splitTunnelSites
  except : c.splitTunnelType = 2 → passed.ipv4Included = [allIPv4.ipv4Route] ∧
    passed.ipv6Included = [⟨allIPv6.address, allIPv6.networkPrefixLength⟩] ∧
    ∀ r, r ∈ passed.ipv4Excluded ↔ r ∈ ipv4Networks dec c.splitTunnelSites

theorem honoured_matchDomains_iff (c : OpenVPNConfig) (proposed passed : NetworkSettings)
    (domains : Option (List String)) :
    Honoured dec c proposed { passed with matchDomains := domains } ↔ Honoured dec c proposed passed :=
  ⟨fun h => ⟨h.off, h.only, h.except⟩, fun h => ⟨h.off, h.only, h.except⟩⟩

namespace Provider

/-- **Split tunnelling with OpenVPN.** After a start with any configuration, at any time, settings are passed on, and
they have the routes that the configuration asks for just when the proposal of the adapter has them. -/
theorem splitTunnel_honoured_iff (events later : List (Event Data)) (data : Data) (wireguard xray : Option Data)
    (proposed : NetworkSettings) : ∀ c, dec.openVpn data = some c →
    ∃ passed, configureTunnelWithNetworkSettings dec proposed
          (run (step dec) (events ++ .startTunnel ⟨some data, wireguard, xray⟩ true :: later) init) =
        some passed ∧
        (Honoured dec c proposed passed ↔ Honoured dec c proposed proposed) := by
  intro c _
  refine ⟨_, configureTunnel_of_unset (run_splitTunnelType _) proposed, ?_⟩
  exact honoured_matchDomains_iff dec c proposed proposed _

/-! ## Examples -/

def everything : NetworkSettings := ⟨some ⟨[allIPv4.ipv4Route], []⟩, some ⟨[⟨.ipv6 0, 0⟩], []⟩, some []⟩

/-- One network through the tunnel (`true`), or everything but that network. -/
def sites : Decoders Bool where
  openVpn d := some ⟨"", if d then 1 else 2, ["10.0.0.0/8"]⟩
  wireGuard _ := none
  xray _ := none
  tunnelConfiguration _ := none
  jsonObject _ := .throws
  range text := if text = "10.0.0.0/8" then some ⟨.ipv4 0x0a000000, 8⟩ else none
  rangeText _ := ""

/-- An adapter that proposes the route to the site. -/
def office : NetworkSettings :=
  { everything with ipv4Settings := some ⟨[⟨.ipv4 0x0a000000, .ipv4 0xff000000⟩], []⟩ }

theorem office_honoured : ∃ passed, configureTunnelWithNetworkSettings sites office
      (run (step sites) ([] ++ [.startTunnel ⟨some true, none, none⟩ true]) init) = some passed ∧
    Honoured sites ⟨"", 1, ["10.0.0.0/8"]⟩ office passed := by
  obtain ⟨passed, hp, hi⟩ := splitTunnel_honoured_iff sites [] [] true none none office _ rfl
  refine ⟨passed, hp, hi.mpr ⟨fun h => absurd h (by decide), fun _ r => ?_, fun h => absurd h (by decide)⟩⟩
  have hs : office.ipv4Included = ipv4Networks sites ["10.0.0.0/8"] := by decide
  rw [hs]

/-- Everything goes through the tunnel although one network was asked for, and although it was to be left out. -/
theorem everything_not_honoured : configureTunnelWithNetworkSettings sites everything
        (run (step sites) [.startTunnel ⟨some true, none, none⟩ true] init) =
    some { everything with matchDomains := some [""] } ∧
    ¬Honoured sites ⟨"", 1, ["10.0.0.0/8"]⟩ everything { everything with matchDomains := some [""] } ∧
    configureTunnelWithNetworkSettings sites everything
        (run (step sites) [.startTunnel ⟨some false, none, none⟩ true] init) =
    some { everything with matchDomains := some [""] } ∧
    ¬Honoured sites ⟨"", 2, ["10.0.0.0/8"]⟩ everything { everything with matchDomains := some [""] } := by
  refine ⟨by decide, fun h => ?_, by decide, fun h => ?_⟩
  · have hr := (h.only rfl allIPv4.ipv4Route).mp (by decide)
    exact absurd hr (by decide)
  · have hr := ((h.except rfl).2.2 ⟨.ipv4 0x0a000000, .ipv4 0xff000000⟩).mpr (by decide)
    exact absurd hr (by decide)

end Provider

end Cimogus.Ios
