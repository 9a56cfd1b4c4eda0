import Cimogus.Client.SplitTunnelConfig
import Cimogus.Net.ProtocolConfig

/-!
# Whether the sites of the split tunnel apply

For AWG and WireGuard, the sites that the user has chosen are meant for configurations that allow all addresses. This is
decided in three places: `VpnConnection` puts the sites into the configuration if `allowed_ips` contains both default
networks, `LocalSocketController` uses them if it is empty or just these two in their order, and on Android
`configWireguard` does if no entry is another network. The three are different conditions on the array.
-/

namespace Cimogus.Android.Wireguard

open Lib Lib.Json
open Net (InetAddress Names number)

/-- `Char.isWhitespace` of Kotlin. -/
def isWhitespace (c : Char) : Bool :=
  let n := c.toNat
  (9 ≤ n && n ≤ 13) || (28 ≤ n && n ≤ 32) || n == 0xa0 || n == 0x1680 || (0x2000 ≤ n && n ≤ 0x200a) ||
    n == 0x2028 ||
    n == 0x2029 ||
    n == 0x202f || n == 0x205f || n == 0x3000

def trim (s : List Char) : List Char := Text.strip isWhitespace s

/-- `String.toInt`, which throws for what is no number in the range; only ASCII digits are read. -/
def toInt? (s : List Char) : Option Int :=
  let digits (ds : List Char) : Option Nat := if ds = [] then none else number 10 ds
  let value : Option Int :=
    match s with
    | '-' :: ds => (digits ds).map fun n => -n
    | '+' :: ds => (digits ds).map fun n => n
    | ds => (digits ds).map fun n => n
  value.bind fun n => if -2147483648 ≤ n ∧ n ≤ 2147483647 then some n else none

def maxPrefixLength (address : InetAddress) : Int := if address.address.length = 4 then 32 else 128

/-- `InetNetwork.parse`, which takes any number as the mask. -/
def parse (names : Names) (data : List Char) : Option (InetAddress × Int) :=
  let split := data.splitOn '/'
  (InetAddress.getByName names (split.headD [])).bind fun address =>
    if split.length = 1 then some (address, maxPrefixLength address)
    else (toInt? (split.getLastD [])).map fun mask => (address, mask)

def defRoutes : List (InetAddress × Int) := [(Net.ipv4Default.address, 0), (Net.ipv6Default.address, 0)]

/-- The routes of `configWireguard`; an element that is no text, and a text that is no network, throws. -/
def routes (names : Names) (allowedIps : List Json) : Option (List (InetAddress × Int)) :=
  allowedIps.mapM fun v => (Value.text? (some v)).bind fun route => parse names (trim route.toList)

/-- Whether `disableSplitTunneling` is not called. -/
def allowSplitTunneling (names : Names) (allowedIps : List Json) : Option Bool :=
  (routes names allowedIps).map fun routes => !routes.any (· ∉ defRoutes)

theorem allowSplitTunneling_eq_some_false_iff {names : Names} {allowedIps : List Json} :
    allowSplitTunneling names allowedIps = some false ↔
      ∃ found, routes names allowedIps = some found ∧ ∃ route ∈ found, route ∉ defRoutes := by
  simp [allowSplitTunneling, Option.map_eq_some_iff]

end Cimogus.Android.Wireguard

namespace Cimogus.Client.VpnConnection

open Lib Lib.Json LocalSocket
open Android (Wireguard.allowSplitTunneling Wireguard.defRoutes Wireguard.parse Wireguard.routes Wireguard.trim)
open Net (InetAddress Names parseInetAddress)
open Daemon (parseRanges)
open Service (Texts)

/-! ## The desktop -/

/-- The branch of `activate` that uses the sites. -/
def usesSites (allowedIps : List Json) : Bool := ¬(allowedIps ≠ defaultAllowedIP.map .str ∧ allowedIps ≠ [])

variable {allowedIps : List Json}

theorem usesSites_iff : usesSites allowedIps = true ↔ allowedIps = defaultAllowedIP.map .str ∨ allowedIps = [] := by
  rw [usesSites, decide_eq_true_eq, not_and_or, not_not, not_not]

/-- The ranges of the daemon are those of the sites, or they are all addresses and the sites are excluded. -/
def FromSites (qt : Daemon.Qt) (m : Object) : Prop := ∃ sites : List String, splitTunnelSites m = sites.map .str ∧
    if splitTunnelType m = 1 then parseRanges qt (activate m) = some (sites.map (received qt))
    else parseRanges qt (activate m) = some (defaultAllowedIP.map (received qt)) ∧
      (activate m).value "excludedAddresses" =
      some (.arr (((wgConfig m).value "hostName").getD .null :: sites.map .str))

/-- Whenever the array is the one of a configuration with a split tunnel and with sites, the ranges come from these. -/
def SitesApply (allowedIps : List Json) : Prop :=
  ∀ (net : Texts) (settings : Settings) (qt : Daemon.Qt) (m m' : Object),
    (protocolName m = "awg" ∨ protocolName m = "wireguard") →
    appendSplitTunnelingConfig net settings m = some m' → plainAllowedIP m' = allowedIps →
    splitTunnelType m' ≠ 0 →
    splitTunnelSites m' ≠ [] → FromSites qt m'

section

variable {net : Texts} {settings : Settings} {m m' : Object}

theorem splitTunnelType_appended (allowed : Bool) :
    splitTunnelType (appendApps settings (appendSites net settings allowed m)) =
    routeModeValue (routeMode settings) := by
  have hv : (appendApps settings (appendSites net settings allowed m)).value "splitTunnelType" =
      some (.num (routeModeValue (routeMode settings))) := by
    simp [appendApps, appendSites, Object.value_set]
  rw [splitTunnelType, hv]
  cases routeMode settings <;> decide

theorem splitTunnelSites_appended (allowed : Bool) :
    splitTunnelSites (appendApps settings (appendSites net settings allowed m)) =
    (sitesFor net settings allowed m).map .str := by
  simp [splitTunnelSites, appendApps, appendSites, Object.value_set, Serialization.texts]

theorem appendSplitTunnelingConfig_sites (hp : protocolName m = "awg" ∨ protocolName m = "wireguard")
    (h : appendSplitTunnelingConfig net settings m = some m') :
    splitTunnelType m' = routeModeValue (routeMode settings) ∧ ∃ sites :
      List String, splitTunnelSites m' = sites.map .str ∧
      (sites ≠ [] → containsDefaults (plainAllowedIP m') = true) := by
  rw [appendSplitTunnelingConfig, appendNative, if_pos hp] at h
  simp only [Option.map_eq_some_iff, Option.bind_eq_some_iff] at h
  obtain ⟨_, ⟨s, ha, t, hk, rfl⟩, rfl⟩ := h
  have hi : Inserted m (protocolName m ++ "_config_data") t :=
    ((Inserted.start m _).appendAllowedIps ha).appendKeepalive hk
  refine ⟨splitTunnelType_appended _, _, splitTunnelSites_appended _, fun hne => ?_⟩
  rw [plainAllowedIP, (hi.wgConfig hp _).2]
  by_contra hno
  exact hne (by simp [sitesFor, hno])

end

theorem sitesApply_of_agree (h : usesSites allowedIps = containsDefaults allowedIps) : SitesApply allowedIps := by
  intro net settings qt m m' hpr hm' hp ht hne
  obtain ⟨hm, sites, hs, hc⟩ := appendSplitTunnelingConfig_sites hpr hm'
  have hd : containsDefaults allowedIps = true := hp ▸ hc (by rintro rfl; exact hne hs)
  have he : plainAllowedIP m' = defaultAllowedIP.map .str := by
    rcases usesSites_iff.mp (h.trans hd) with heq | rfl
    · exact hp.trans heq
    · cases hd
  refine ⟨sites, hs, ?_⟩
  split
  · rename_i ho
    exact parseRanges_activate qt (.inr ⟨.inr he, ho, hs⟩)
  · rename_i ho
    have htw : splitTunnelType m' = 2 := by
      rw [hm] at ht ho ⊢
      cases hr : routeMode settings with
      | VpnAllSites => exact absurd (by rw [hr]; rfl) ht
      | VpnOnlyForwardSites => exact absurd (by rw [hr]; rfl) ho
      | VpnAllExceptSites => rfl
    refine ⟨parseRanges_activate qt (.inl ⟨he, by decide, fun _ => .inr htw⟩), ?_⟩
    have hex : (activate m').value "excludedAddresses" = some (.arr (excludedAddresses (splitTunnelType m')
        (splitTunnelSites m') ((wgConfig m').value "hostName"))) := value_activate_of_mem (by simp [members])
    rw [hex, excludedAddresses, if_pos htw, hs, List.map_map]
    rfl

/-! ## All three -/

/-- The three decisions are the same, where `names` says what Android finds for a name. -/
def Agree (names : Names) (allowedIps : List Json) : Prop := usesSites allowedIps = containsDefaults allowedIps ∧
    Wireguard.allowSplitTunneling names allowedIps = some (containsDefaults allowedIps)

variable {names : Names}

/-- The default networks are numeric, so that no name is looked up. -/
theorem agree_default : Agree names (defaultAllowedIP.map .str) := by
  refine ⟨by decide +kernel, ?_⟩
  have hroute (route address : List Char) {a : InetAddress} (hr : Wireguard.trim route = address ++ ['/', '0'])
      (hno : '/' ∉ address) (ha : parseInetAddress address = some a) :
      Wireguard.parse names (Wireguard.trim route) = some (a, 0) := by
    rw [hr, Wireguard.parse, List.splitOn_append_cons_self_of_not_mem hno, List.headD_cons,
      Net.getByName_of_parseInetAddress ha]
    rfl
  have h4 := hroute ['0', '.', '0', '.', '0', '.', '0', '/', '0'] ['0', '.', '0', '.', '0', '.', '0'] rfl (by decide)
    (show _ = some Net.ipv4Default.address by decide +kernel)
  have h6 := hroute [':', ':', '/', '0'] [':', ':'] rfl (by decide)
    (show _ = some Net.ipv6Default.address by decide +kernel)
  have hr : Wireguard.routes names (defaultAllowedIP.map .str) = some Wireguard.defRoutes := by
    simp [Wireguard.routes, defaultAllowedIP, Value.text?, h4, h6, Wireguard.defRoutes]
  rw [Wireguard.allowSplitTunneling, hr]
  decide +kernel

theorem agree_of_other (hno : containsDefaults allowedIps = false)
    (ho : Wireguard.allowSplitTunneling names allowedIps = some false) : Agree names allowedIps := by
  refine ⟨?_, hno ▸ ho⟩
  rw [hno, Bool.eq_false_iff, Ne, usesSites_iff]
  rintro (rfl | rfl)
  · exact absurd hno (by decide)
  · exact absurd ho (by simp [Wireguard.allowSplitTunneling, Wireguard.routes])

/-- **The three decisions.** -/
theorem decisions_agree_iff (names : Names) (allowedIps : List Json) :
    Agree names allowedIps ∧ SitesApply allowedIps ↔
      allowedIps = defaultAllowedIP.map .str ∨ containsDefaults allowedIps = false ∧
          ∃ routes, Wireguard.routes names allowedIps = some routes ∧
            ∃ route ∈ routes, route ∉ Wireguard.defRoutes := by
  have ha : Agree names allowedIps ↔ allowedIps = defaultAllowedIP.map .str ∨
      containsDefaults allowedIps = false ∧ Wireguard.allowSplitTunneling names allowedIps = some false := by
    constructor
    · rintro ⟨hu, hal⟩
      cases hc : containsDefaults allowedIps with
      | false => exact .inr ⟨rfl, hc ▸ hal⟩
      | true =>
        refine .inl ((usesSites_iff.mp (hu.trans hc)).resolve_right ?_)
        rintro rfl
        cases hc
    · rintro (rfl | ⟨hno, ho⟩)
      · exact agree_default
      · exact agree_of_other hno ho
  rw [← Android.Wireguard.allowSplitTunneling_eq_some_false_iff, ← ha]
  exact and_iff_left_of_imp fun h => sitesApply_of_agree h.1

/-- The sites of a split tunnel of type 1 are the DNS servers at least. -/
def forwardSites : Settings :=
  { noSplitTunnel with sitesSplitTunnelingEnabled := true, sites := ⟨.VpnOnlyForwardSites, fun _ => ∅⟩ }

def allowing (allowedIps : List String) : Object :=
  [("protocol", .str "awg"), ("dns1", .str "192.0.2.53"), ("dns2", .str "192.0.2.54"),
    ("awg_config_data", .obj [("allowed_ips", Serialization.texts allowedIps), ("persistent_keep_alive", .str "25")])]

theorem sitesFor_forwardSites (allowedIps : List String) :
    sitesFor exampleTexts forwardSites true (allowing allowedIps) = ["192.0.2.53", "192.0.2.54"] := by
  have hno : getVpnIps exampleTexts forwardSites .VpnOnlyForwardSites = [] := by
    have he : (∅ : SiteMap).toList = [] := rfl
    simp [getVpnIps, forwardSites, he]
  have hm : routeMode forwardSites = .VpnOnlyForwardSites := rfl
  rfl

/-- The two networks in the other order, no networks, and one more, whatever names there are. -/
theorem decisions_differ :
    (∀ names, ¬ Agree names [.str "::/0", .str "0.0.0.0/0"] ∧ ¬ Agree names [] ∧
        ¬ Agree names [.str "0.0.0.0/0", .str "::/0", .str "10.0.0.0/8"]) ∧
      ¬ SitesApply [.str "::/0", .str "0.0.0.0/0"] := by
  constructor
  · exact fun names =>
      ⟨fun h => absurd h.1 (by decide), fun h => absurd h.1 (by decide), fun h => absurd h.1 (by decide)⟩
  · intro h
    have hna : appendNative (allowing ["::/0", "0.0.0.0/0"]) = some (true, allowing ["::/0", "0.0.0.0/0"]) := by rfl
    have hru : appendSplitTunnelingConfig exampleTexts forwardSites (allowing ["::/0", "0.0.0.0/0"]) =
        some
          (appendApps forwardSites (appendSites exampleTexts forwardSites true (allowing ["::/0", "0.0.0.0/0"]))) := by
      rw [appendSplitTunnelingConfig, hna, Option.map_some]
    have hs := @splitTunnelSites_appended exampleTexts forwardSites (allowing ["::/0", "0.0.0.0/0"]) true
    have ht : splitTunnelType (appendApps forwardSites (appendSites exampleTexts forwardSites true
        (allowing ["::/0", "0.0.0.0/0"]))) = 1 := splitTunnelType_appended true
    have hp : plainAllowedIP (appendApps forwardSites (appendSites exampleTexts forwardSites true
        (allowing ["::/0", "0.0.0.0/0"]))) = ["::/0", "0.0.0.0/0"].map .str := by
      rw [plainAllowedIP, ((Inserted.start _ _).wgConfig (.inl rfl) true).2]
      rfl
    rw [sitesFor_forwardSites] at hs
    generalize appendApps forwardSites (appendSites exampleTexts forwardSites true (allowing ["::/0", "0.0.0.0/0"])) =
      m'
      at hru hs ht hp
    obtain ⟨sites, hsa, hr⟩ := h exampleTexts forwardSites exampleHost.qt _ _ (.inl rfl) hru hp (by rw [ht]; decide)
      (by rw [hs]; simp)
    rw [if_pos ht, parseRanges_activate _ (.inl ⟨hp, by decide, fun heq => absurd heq (by decide)⟩),
      Option.some.injEq]
      at hr
    obtain rfl : sites = ["192.0.2.53", "192.0.2.54"] := map_str_inj.mp (hsa.symm.trans hs)
    exact absurd hr (by decide)

end Cimogus.Client.VpnConnection
