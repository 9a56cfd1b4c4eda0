import Cimogus.Daemon.Config
import Cimogus.Lib.Json
import Mathlib.Data.List.Sort

/-!
# `Daemon::parseConfig`

How the daemon reads the configuration that comes over its socket. A text that is there is not null, also where it is
empty.
-/

namespace Cimogus.Daemon

open Lib Lib.Json

/-- Qt on the daemon's machine; `toInt` is 0 for a text that is no number. -/
structure Host where
  qt : Qt
  toInt : String → Int
  windows : Bool

/-- The configuration with what only the platforms read. -/
structure ParsedConfig extends InterfaceConfig where
  serverPskKey : String
  serverPort : Int
  deviceMTU : Int
  vpnDisabledApps : List String
  deriving DecidableEq

def parseStringList (obj : Object) (name : String) : Option (List String) :=
  match obj.value name with
  | none => some []
  | some (.arr items) => items.mapM fun i => Value.text? (some i)
  | some _ => none

def parseServerPort (obj : Object) : Option Int :=
  match obj.value "serverPort" with
  | some (.num x) => some (x.num.tdiv x.den)
  | _ => none

def parseDeviceMTU (host : Host) (obj : Object) : Int :=
  let mtu := host.toInt (obj.value "deviceMTU").toText
  if !obj.contains "deviceMTU" || mtu = 0 then 1420
  else if host.windows && mtu < 1280 then 1280
  else mtu

/-- The addresses of both families, of which one has to be there. -/
def parseAddresses (obj : Object) (ipv4 ipv6 : String) : Option (String × String) :=
  if (obj.value ipv4).text? = none ∧ (obj.value ipv6).text? = none then none
  else some ((obj.value ipv4).toText, (obj.value ipv6).toText)

def parseDnsServer (obj : Object) : Option String :=
  match obj.value "dnsServer" with
  | none => some ""
  | some v => Value.text? (some v)

def parseHopType (obj : Object) : Option HopType :=
  match obj.value "hopType" with
  | none => some .singleHop
  | some (.str "SingleHop") => some .singleHop
  | some (.str "MultiHopEntry") => some .multiHopEntry
  | some (.str "MultiHopExit") => some .multiHopExit
  | some _ => none

/-- The family is checked to be there and not looked at. -/
def parseRange (qt : Qt) : Json → Option IPAddress
  | .obj ipObj =>
    match Object.value ipObj "address", Object.value ipObj "range", Object.value ipObj "isIpv6" with
    | some (.str address), some (.num range), some (.bool _) =>
      some ⟨qt.hostAddress address, Value.toInt (some (.num range))⟩
    | _, _, _ => none
  | _ => none

def parseRanges (qt : Qt) (obj : Object) : Option (List IPAddress) :=
  match obj.value "allowedIPAddressRanges" with
  | some (.arr items) => items.mapM (parseRange qt)
  | _ => none

/-- By decreasing prefix length. The source leaves the order of equal lengths open. -/
def sortRanges (ranges : List IPAddress) : List IPAddress :=
  ranges.insertionSort fun a b => a.prefixLength ≥ b.prefixLength

/-- `QVariant(text).toBool()`. -/
def variantToBool (text : String) : Bool := text.toLower ∉ ["", "0", "false"]

def parseJunk (obj : Object) : JunkParams where
  junkPacketCount := (obj.value "Jc").toText
  junkPacketMinSize := (obj.value "Jmin").toText
  junkPacketMaxSize := (obj.value "Jmax").toText
  initPacketJunkSize := (obj.value "S1").toText
  responsePacketJunkSize := (obj.value "S2").toText
  initPacketMagicHeader := (obj.value "H1").toText
  responsePacketMagicHeader := (obj.value "H2").toText
  underloadPacketMagicHeader := (obj.value "H3").toText
  transportPacketMagicHeader := (obj.value "H4").toText

/-- `none` for a message that is not accepted. -/
def parseConfig (host : Host) (obj : Object) : Option ParsedConfig := do
  let privateKey ← (obj.value "privateKey").text?
  let serverPublicKey ← (obj.value "serverPublicKey").text?
  let serverPort ← parseServerPort obj
  let device ← parseAddresses obj "deviceIpv4Address" "deviceIpv6Address"
  let server ← parseAddresses obj "serverIpv4AddrIn" "serverIpv6AddrIn"
  let dnsServer ← parseDnsServer obj
  let hopType ← parseHopType obj
  let ranges ← parseRanges host.qt obj
  let excludedAddresses ← parseStringList obj "excludedAddresses"
  let vpnDisabledApps ← parseStringList obj "vpnDisabledApps"
  some
    { hopType
      privateKey
      deviceIpv4Address := device.1
      deviceIpv6Address := device.2
      serverIpv4Gateway := (obj.value "serverIpv4Gateway").toText
      serverIpv6Gateway := (obj.value "serverIpv6Gateway").toText
      serverPublicKey
      serverIpv4AddrIn := server.1
      serverIpv6AddrIn := server.2
      dnsServer
      allowedIPAddressRanges := sortRanges ranges
      excludedAddresses
      killSwitchEnabled := variantToBool (obj.value "killSwitchOption").toText
      junk := parseJunk obj
      serverPskKey := (obj.value "serverPskKey").toText
      serverPort
      deviceMTU := parseDeviceMTU host obj
      vpnDisabledApps }

/-! ## What is accepted -/

/-- The members that `parseConfig` insists on, besides the ranges. -/
structure WellFormed (obj : Object) : Prop where
  privateKey : (obj.value "privateKey").text?.isSome
  serverPublicKey : (obj.value "serverPublicKey").text?.isSome
  serverPort : (parseServerPort obj).isSome
  device : (parseAddresses obj "deviceIpv4Address" "deviceIpv6Address").isSome
  server : (parseAddresses obj "serverIpv4AddrIn" "serverIpv6AddrIn").isSome
  dnsServer : (parseDnsServer obj).isSome
  hopType : (parseHopType obj).isSome
  excludedAddresses : (parseStringList obj "excludedAddresses").isSome
  vpnDisabledApps : (parseStringList obj "vpnDisabledApps").isSome

/-- **The ranges of an accepted message.** -/
theorem parseConfig_ranges {host : Host} {obj : Object} {ranges : List IPAddress} (hw : WellFormed obj)
    (hr : parseRanges host.qt obj = some ranges) :
    ∃ c, parseConfig host obj = some c ∧ c.allowedIPAddressRanges = sortRanges ranges := by
  obtain ⟨privateKey, hp⟩ := Option.isSome_iff_exists.mp hw.privateKey
  obtain ⟨publicKey, hpu⟩ := Option.isSome_iff_exists.mp hw.serverPublicKey
  obtain ⟨port, hpo⟩ := Option.isSome_iff_exists.mp hw.serverPort
  obtain ⟨device, hd⟩ := Option.isSome_iff_exists.mp hw.device
  obtain ⟨server, hs⟩ := Option.isSome_iff_exists.mp hw.server
  obtain ⟨dns, hdn⟩ := Option.isSome_iff_exists.mp hw.dnsServer
  obtain ⟨hop, hh⟩ := Option.isSome_iff_exists.mp hw.hopType
  obtain ⟨excluded, he⟩ := Option.isSome_iff_exists.mp hw.excludedAddresses
  obtain ⟨apps, ha⟩ := Option.isSome_iff_exists.mp hw.vpnDisabledApps
  simp only [parseConfig, hp, hpu, hpo, hd, hs, hdn, hh, hr, he, ha, Option.bind_eq_bind, Option.bind_some]
  exact ⟨_, rfl, rfl⟩

/-- **Which messages are accepted.** -/
theorem parseConfig_isSome_iff (host : Host) (obj : Object) :
    (parseConfig host obj).isSome ↔ WellFormed obj ∧ (parseRanges host.qt obj).isSome := by
  constructor
  · intro h
    obtain ⟨c, hc⟩ := Option.isSome_iff_exists.mp h
    obtain ⟨_, hp, hc⟩ := Option.bind_eq_some_iff.mp hc
    obtain ⟨_, hpu, hc⟩ := Option.bind_eq_some_iff.mp hc
    obtain ⟨_, hpo, hc⟩ := Option.bind_eq_some_iff.mp hc
    obtain ⟨_, hd, hc⟩ := Option.bind_eq_some_iff.mp hc
    obtain ⟨_, hs, hc⟩ := Option.bind_eq_some_iff.mp hc
    obtain ⟨_, hdn, hc⟩ := Option.bind_eq_some_iff.mp hc
    obtain ⟨_, hh, hc⟩ := Option.bind_eq_some_iff.mp hc
    obtain ⟨_, hr, hc⟩ := Option.bind_eq_some_iff.mp hc
    obtain ⟨_, he, hc⟩ := Option.bind_eq_some_iff.mp hc
    obtain ⟨_, ha, -⟩ := Option.bind_eq_some_iff.mp hc
    refine ⟨⟨?_, ?_, ?_, ?_, ?_, ?_, ?_, ?_, ?_⟩, ?_⟩ <;>
      simp only [hp, hpu, hpo, hd, hs, hdn, hh, hr, he, ha, Option.isSome_some]
  · rintro ⟨hw, hr⟩
    obtain ⟨ranges, hr⟩ := Option.isSome_iff_exists.mp hr
    obtain ⟨c, hc, -⟩ := parseConfig_ranges hw hr
    rw [hc]
    rfl

end Cimogus.Daemon
