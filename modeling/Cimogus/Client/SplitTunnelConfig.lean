import Cimogus.Client.LocalSocket
import Cimogus.Client.Outbounds
import Cimogus.Client.SiteSettings
import Cimogus.Lib.Lines
import Cimogus.Lib.Text

/-!
# `VpnConnection::appendSplitTunnelingConfig`

Before a connection is made, the sites and the applications of the split tunnel are put into the configuration. For AWG
and WireGuard the sites count only if all addresses are allowed, and `allowed_ips` may have to be found first: in an old
configuration it is one text, and a native configuration has only the text for WireGuard, of which the first line that
contains `AllowedIPs` is split at ` = `. Such a line need not be one for that key, and the part that is taken need not
be there.
-/

namespace Cimogus.Client.VpnConnection

open Lib Lib.Json LocalSocket List
open Serialization (texts)
open Service (Texts)

/-! ## The settings -/

inductive AppsRouteMode
  | VpnAllApps
  | VpnOnlyForwardApps
  | VpnAllExceptApps
  deriving DecidableEq

structure InstalledAppInfo where
  packageName : String
  appPath : String

/-- What is read of `Settings`. -/
structure Settings where
  sitesSplitTunnelingEnabled : Bool
  sites : SiteSettings
  appsSplitTunnelingEnabled : Bool
  appsRouteMode : AppsRouteMode
  vpnApps : AppsRouteMode → List InstalledAppInfo

def routeModeValue : RouteMode → Int
  | .VpnAllSites => 0
  | .VpnOnlyForwardSites => 1
  | .VpnAllExceptSites => 2

def appsRouteModeValue : AppsRouteMode → Int
  | .VpnAllApps => 0
  | .VpnOnlyForwardApps => 1
  | .VpnAllExceptApps => 2

variable (net : Texts) (settings : Settings)

def getVpnIps (mode : RouteMode) : List String :=
  ((settings.sites.vpnSites mode).toList.filterMap fun site =>
    if net.checkIpSubnetFormat site.1 then some site.1
    else if net.checkIpSubnetFormat site.2 then some site.2 else none).eraseDups

/-! ## Native configurations -/

def firstLineWith (word nativeConfig : String) : Option String :=
  (Text.split nativeConfig '\n').find? (Text.contains · word)

/-- What is taken of a line, if anything is; there is no result where the list is read out of its range. -/
def valueOfLine (line : String) : Option (Option String) :=
  let parts := Text.splitText line " = "
  if parts.length < 1 then some none else parts[1]?.map some

def nativeValue (word nativeConfig : String) : Option (Option String) :=
  match firstLineWith word nativeConfig with
  | none => some none
  | some line => valueOfLine line

/-- Into `configData`, and that into `m_vpnConfiguration`, which are both passed on. -/
def insertMember (key member : String) (v : Json) (s : Object × Object) : Object × Object :=
  let configData := s.1.set member v
  (configData, s.2.set key (.obj configData))

def insertFound (key member : String) (value : Option Json) (s : Object × Object) : Object × Object :=
  value.elim s fun v => insertMember key member v s

def appendAllowedIps (key : String) (s : Object × Object) : Option (Object × Object) :=
  let networks (text : String) := texts (Text.splitText text ", ")
  match s.1.value "allowed_ips" with
  | some (.str text) => some (insertMember key "allowed_ips" (networks text) s)
  | some _ => some s
  | none =>
    (nativeValue "AllowedIPs" (s.1.value "config").toText).map fun value =>
      insertFound key "allowed_ips" (value.map networks) s

def appendKeepalive (key : String) (s : Object × Object) : Option (Object × Object) :=
  match s.1.value "persistent_keep_alive" with
  | some _ => some s
  | none =>
    (nativeValue "PersistentKeepalive" (s.1.value "config").toText).map fun value =>
      insertFound key "persistent_keep_alive" (value.map .str) s

/-! ## The function -/

def containsDefaults (allowedIps : List Json) : Bool := .str "0.0.0.0/0" ∈ allowedIps ∧ .str "::/0" ∈ allowedIps

/-- The block for AWG and WireGuard, with `allowSiteBasedSplitTunneling`. -/
def appendNative (m : Object) : Option (Bool × Object) :=
  if protocolName m = "awg" ∨ protocolName m = "wireguard" then
    let key := protocolName m ++ "_config_data"
    (appendAllowedIps key (wgConfig m, m)).bind fun s => (appendKeepalive key s).map fun s =>
      (containsDefaults (s.1.value "allowed_ips").toArray, s.2)
  else some (true, m)

def routeMode : RouteMode := if settings.sitesSplitTunnelingEnabled then settings.sites.routeMode else .VpnAllSites

def sitesFor (allowed : Bool) (m : Object) : List String :=
  if settings.sitesSplitTunnelingEnabled ∧ allowed then
    getVpnIps net settings (routeMode settings) ++
      (if routeMode settings = .VpnOnlyForwardSites then [(m.value "dns1").toText, (m.value "dns2").toText] else [])
  else []

def appendSites (allowed : Bool) (m : Object) : Object :=
  (m.set "splitTunnelType" (.num (routeModeValue (routeMode settings)))).set "splitTunnelSites"
    (texts (sitesFor net settings allowed m))

def appendApps (m : Object) : Object :=
  let mode := if settings.appsSplitTunnelingEnabled then settings.appsRouteMode else .VpnAllApps
  let apps := if settings.appsSplitTunnelingEnabled then
    (settings.vpnApps mode).map fun app => if app.appPath = "" then app.packageName else app.appPath else []
  (m.set "appSplitTunnelType" (.num (appsRouteModeValue mode))).set "splitTunnelApps" (texts apps)

def appendSplitTunnelingConfig (m : Object) : Option Object :=
  (appendNative m).map fun s => appendApps settings (appendSites net settings s.1 s.2)

/-! ## What is set -/

section

variable {net settings} {m : Object} {key : String}

theorem value_appended (allowed : Bool)
    (hkey : key ∉ ["splitTunnelType", "splitTunnelSites", "appSplitTunnelType", "splitTunnelApps"]) :
    (appendApps settings (appendSites net settings allowed m)).value key = m.value key := by
  simp only [mem_cons, not_mem_nil, or_false, not_or] at hkey
  simp only [appendApps, appendSites, Object.value_set, hkey, if_false]

/-- What the two steps of the native part keep: the second component has the first one under the key, and the rest of
`m`. -/
structure Inserted (m : Object) (key : String) (s : Object × Object) : Prop where
  data : (s.2.value key).toObject = s.1
  others : ∀ k ≠ key, s.2.value k = m.value k

namespace Inserted

variable {s s' : Object × Object}

theorem start (m : Object) (key : String) : Inserted m key ((m.value key).toObject, m) := ⟨rfl, fun _ _ => rfl⟩

variable (h : Inserted m key s)

include h

theorem insertMember (member : String) (v : Json) : Inserted m key (insertMember key member v s) where
  data := by simp [VpnConnection.insertMember, Object.value_set]
  others k hk := by rw [VpnConnection.insertMember, Object.value_set, if_neg hk, h.others k hk]

theorem insertFound (member : String) (value : Option Json) : Inserted m key (insertFound key member value s) := by
  cases value with
  | none => exact h
  | some v => exact h.insertMember member v

theorem appendAllowedIps (heq : appendAllowedIps key s = some s') : Inserted m key s' := by
  unfold VpnConnection.appendAllowedIps at heq
  split at heq
  · cases heq
    exact h.insertMember _ _
  · cases heq
    exact h
  · obtain ⟨value, -, rfl⟩ := Option.map_eq_some_iff.mp heq
    exact h.insertFound _ _

theorem appendKeepalive (heq : appendKeepalive key s = some s') : Inserted m key s' := by
  unfold VpnConnection.appendKeepalive at heq
  split at heq
  · cases heq
    exact h
  · obtain ⟨value, -, rfl⟩ := Option.map_eq_some_iff.mp heq
    exact h.insertFound _ _

end Inserted

theorem Inserted.wgConfig {s : Object × Object} (h : Inserted m (protocolName m ++ "_config_data") s)
    (hp : protocolName m = "awg" ∨ protocolName m = "wireguard") (allowed : Bool) :
    protocolName (appendApps settings (appendSites net settings allowed s.2)) = protocolName m ∧
      wgConfig (appendApps settings (appendSites net settings allowed s.2)) = s.1 := by
  have hna : protocolName (appendApps settings (appendSites net settings allowed s.2)) = protocolName m := by
    rw [protocolName, value_appended allowed (by decide), h.others, protocolName]
    rcases hp with ha | hw
    · rw [ha]; decide
    · rw [hw]; decide
  refine ⟨hna, ?_⟩
  rw [LocalSocket.wgConfig, hna, value_appended allowed, h.data]
  rcases hp with ha | hw
  · rw [ha]; decide
  · rw [hw]; decide

end

/-! ## Lines of a native configuration -/

def statement (line : String) : List Char := line.toList.takeWhile (· != '#')

/-- The key of the line is `AllowedIPs`. -/
def isAllowedIps (line : String) : Bool :=
  '=' ∈ statement line ∧ Text.strip Char.isWhitespace ((statement line).takeWhile (· != '=')) = "AllowedIPs".toList

def networksOf (line : String) : List String :=
  let list := ((statement line).dropWhile (· != '=')).drop 1
  (((list.splitOn ',').map (Text.strip Char.isWhitespace)).filter (· ≠ [])).map String.ofList

def allowedIpsLine (nativeConfig : String) : Option String := (Text.split nativeConfig '\n').find? isAllowedIps

def listed (networks : List String) : String := String.ofList (", ".toList.intercalate (networks.map String.toList))

theorem contains_of_isAllowedIps {line : String} (h : isAllowedIps line = true) :
    Text.contains line "AllowedIPs" = true := by
  rw [isAllowedIps, decide_eq_true_eq] at h
  rw [Text.contains, Text.hasInfix_iff, ← h.2]
  exact (Text.strip_infix _).trans ((List.takeWhile_prefix _).trans (List.takeWhile_prefix _)).isInfix

theorem comma_notMem_networksOf {line network : String} (h : network ∈ networksOf line) : ',' ∉ network.toList := by
  simp only [networksOf, mem_map, mem_filter] at h
  obtain ⟨_, ⟨⟨part, hp, rfl⟩, -⟩, rfl⟩ := h
  rw [String.toList_ofList]
  exact fun hm => Lines.sep_notMem_of_mem_splitOn _ hp ((Text.strip_infix part).subset hm)

theorem splitText_eq_iff {text : String} {networks : List String}
    (hc : ∀ network ∈ networks, ',' ∉ network.toList) :
    Text.splitText text ", " = networks ↔ networks ≠ [] ∧ text = listed networks := by
  constructor
  · rintro rfl
    refine ⟨Text.splitText_ne_nil text ", ", ?_⟩
    rw [listed, Text.splitText, map_map]
    simp [Function.comp_def, Text.intercalate_splitTextFrom]
  · rintro ⟨hne, rfl⟩
    have hsplit : Text.splitTextFrom [',', ' '] 0 [] ([',', ' '].intercalate (networks.map String.toList)) =
        networks.map String.toList := Text.splitTextFrom_intercalate (by simpa using hne) (by simpa using hc)
    rw [listed, Text.splitText_ofList, show ", ".toList = [',', ' '] from rfl, hsplit]
    simp

section

variable {m : Object}

def nativeConfig (m : Object) : String := ((wgConfig m).value "config").toText

theorem valueOfLine_eq (line : String) : valueOfLine line = (Text.splitText line " = ")[1]?.map some := by
  have hp := length_pos_iff.mpr (Text.splitText_ne_nil line " = ")
  exact if_neg (by omega)

theorem valueOfLine_eq_none_iff (line : String) : valueOfLine line = none ↔ ¬" = ".toList <:+: line.toList := by
  rw [valueOfLine_eq, Option.map_eq_none_iff, List.getElem?_eq_none_iff, Text.splitText, length_map,
    ← Text.two_le_length_splitTextFrom_iff (by decide) [] line.toList]
  omega

theorem nativeValue_isSome_iff (word text : String) :
    (nativeValue word text).isSome ↔ ∀ line, firstLineWith word text = some line →
    " = ".toList <:+: line.toList := by
  unfold nativeValue
  cases firstLineWith word text with
  | none => simp
  | some line =>
    rw [Option.isSome_iff_ne_none, Ne, valueOfLine_eq_none_iff, Decidable.not_not]
    exact ⟨fun h _ heq => Option.some.inj heq ▸ h, fun h => h line rfl⟩

theorem value_insertFound (key : String) {member : String} {s : Object × Object} (value : Option Json)
    (hno : s.1.value member = none) (k : String) :
    (insertFound key member value s).1.value k = if k = member then value else s.1.value k := by
  cases value with
  | none =>
    split
    · rename_i hk
      rw [hk]
      exact hno
    · rfl
  | some v => exact Object.value_set s.1 member k v

variable {net settings}

/-- **A native configuration.** -/
theorem appendSplitTunnelingConfig_native (hp : protocolName m = "awg" ∨ protocolName m = "wireguard")
    (ha : (wgConfig m).value "allowed_ips" = none) (hk : (wgConfig m).value "persistent_keep_alive" = none) :
    ((appendSplitTunnelingConfig net settings m).map fun m' => (wgConfig m').value "allowed_ips") =
      (nativeValue "AllowedIPs" (nativeConfig m)).bind fun value =>
        (nativeValue "PersistentKeepalive" (nativeConfig m)).map fun _ =>
          value.map fun text => texts (Text.splitText text ", ") := by
  rw [appendSplitTunnelingConfig, appendNative, if_pos hp]
  simp only [appendAllowedIps, ha]
  change _ = (nativeValue "AllowedIPs" ((wgConfig m).value "config").toText).bind _
  cases nativeValue "AllowedIPs" ((wgConfig m).value "config").toText with
  | none => rfl
  | some value =>
    simp only [Option.map_some, Option.bind_some]
    generalize hne : value.map (fun text => texts (Text.splitText text ", ")) = networks
    have hv (k : String) := value_insertFound (s := (wgConfig m, m)) (protocolName m ++ "_config_data") networks ha k
    have hi := (Inserted.start m (protocolName m ++ "_config_data")).insertFound "allowed_ips" networks
    change Inserted m _ (insertFound _ "allowed_ips" networks (wgConfig m, m)) at hi
    generalize insertFound (protocolName m ++ "_config_data") "allowed_ips" networks (wgConfig m, m) = s at hv hi ⊢
    have hk' : s.1.value "persistent_keep_alive" = none := (hv _).trans ((if_neg (by decide)).trans hk)
    have hc : s.1.value "config" = (wgConfig m).value "config" := (hv _).trans (if_neg (by decide))
    simp only [appendKeepalive, hk', hc, Option.map_map, nativeConfig]
    refine Option.map_congr fun kept _ => ?_
    simp only [Function.comp_apply]
    rw [((hi.insertFound "persistent_keep_alive" (kept.map .str)).wgConfig hp _).2, value_insertFound _ _ hk', hv]
    rfl

end

/-! ## What is read -/

section

variable {net settings} {m : Object}

/-- The function returns, and `allowed_ips` is the list on the first line with that key. -/
def AllowedIpsRead (net : Texts) (settings : Settings) (m : Object) : Prop :=
  ∃ m', appendSplitTunnelingConfig net settings m = some m' ∧
    (wgConfig m').value "allowed_ips" = (allowedIpsLine (nativeConfig m)).map fun line => texts (networksOf line)

theorem allowedIpsLine_eq_none {text : String} (h : firstLineWith "AllowedIPs" text = none) :
    allowedIpsLine text = none := by
  rw [firstLineWith, find?_eq_none] at h
  rw [allowedIpsLine, find?_eq_none]
  exact fun line hl hkey => h line hl (contains_of_isAllowedIps hkey)

theorem allowedIpsRead_iff_values (hp : protocolName m = "awg" ∨ protocolName m = "wireguard")
    (ha : (wgConfig m).value "allowed_ips" = none) (hk : (wgConfig m).value "persistent_keep_alive" = none) :
    AllowedIpsRead net settings m ↔ (nativeValue "PersistentKeepalive" (nativeConfig m)).isSome ∧
        ∃ value, nativeValue "AllowedIPs" (nativeConfig m) = some value ∧
          value.map (Text.splitText · ", ") = (allowedIpsLine (nativeConfig m)).map networksOf := by
  have hi : Function.Injective texts := fun a b hab => map_str_inj.mp (Json.arr.inj hab)
  rw [AllowedIpsRead, ← Option.map_eq_some_iff, appendSplitTunnelingConfig_native hp ha hk]
  have ht (value : Option String) : (value.map fun text => texts (Text.splitText text ", ")) =
      (allowedIpsLine (nativeConfig m)).map (fun line => texts (networksOf line)) ↔
        value.map (Text.splitText · ", ") = (allowedIpsLine (nativeConfig m)).map networksOf := by
    cases value <;> cases allowedIpsLine (nativeConfig m) <;> simp [hi.eq_iff]
  simp only [Option.bind_eq_some_iff, Option.map_eq_some_iff, Option.isSome_iff_exists, ht]
  exact ⟨fun ⟨value, hv, kept, hke, heq⟩ => ⟨⟨kept, hke⟩, value, hv, heq⟩,
    fun ⟨⟨kept, hke⟩, value, hv, heq⟩ => ⟨value, hv, kept, hke, heq⟩⟩

/-- **The networks of a native configuration.** -/
theorem allowedIpsRead_iff (hprotocol : protocolName m = "awg" ∨ protocolName m = "wireguard")
    (hallowed : (wgConfig m).value "allowed_ips" = none)
    (hkeepalive : (wgConfig m).value "persistent_keep_alive" = none) :
    AllowedIpsRead net settings m ↔
      (∀ line, firstLineWith "PersistentKeepalive" (nativeConfig m) = some line → " = ".toList <:+: line.toList) ∧
        ∀ line, firstLineWith "AllowedIPs" (nativeConfig m) = some line →
          ∃ meant, allowedIpsLine (nativeConfig m) = some meant ∧ networksOf meant ≠ [] ∧
            (Text.splitText line " = ")[1]? = some (listed (networksOf meant)) := by
  rw [allowedIpsRead_iff_values hprotocol hallowed hkeepalive, nativeValue_isSome_iff]
  refine and_congr_right fun _ => ?_
  rw [nativeValue]
  cases hl : firstLineWith "AllowedIPs" (nativeConfig m) with
  | none =>
    refine iff_of_true ⟨none, rfl, ?_⟩ (by simp)
    rw [allowedIpsLine_eq_none hl]
    rfl
  | some line =>
    simp only [valueOfLine_eq, Option.map_eq_some_iff, Option.some.injEq, forall_eq']
    constructor
    · rintro ⟨_, ⟨text, ht, rfl⟩, heq⟩
      obtain ⟨meant, hm, hsplit⟩ := Option.map_eq_some_iff.mp heq.symm
      obtain ⟨hne, rfl⟩ := (splitText_eq_iff fun _ => comma_notMem_networksOf).mp hsplit.symm
      exact ⟨meant, hm, hne, ht⟩
    · rintro ⟨meant, hm, hne, ht⟩
      refine ⟨_, ⟨_, ht, rfl⟩, ?_⟩
      rw [hm, Option.map_some, Option.map_some, (splitText_eq_iff fun _ => comma_notMem_networksOf).mpr ⟨hne, rfl⟩]

end

def nativeOf (text : String) : Object :=
  [("protocol", .str "wireguard"), ("wireguard_config_data", .obj [("config", .str text)])]

def exampleTexts : Texts where
  hostAddress text := (Service.quad text).elim .null .ipv4
  toInt text := (Service.decimal text.toList).map Int.ofNat
  inetAddr _ := 0

def noSplitTunnel : Settings where
  sitesSplitTunnelingEnabled := false
  sites := ⟨.VpnAllSites, fun _ => ∅⟩
  appsSplitTunnelingEnabled := false
  appsRouteMode := .VpnAllApps
  vpnApps _ := []

theorem allowedIpsRead_usual :
    AllowedIpsRead exampleTexts noSplitTunnel
      (nativeOf "[Peer]\nAllowedIPs = 0.0.0.0/0, ::/0\nPersistentKeepalive = 25") := by
  refine (allowedIpsRead_iff (.inr rfl) rfl rfl).mpr ⟨fun line hl => ?_, fun line hl => ?_⟩
  · obtain rfl : "PersistentKeepalive = 25" = line := Option.some.inj hl
    exact Text.hasInfix_iff.mp (by decide)
  · obtain rfl : "AllowedIPs = 0.0.0.0/0, ::/0" = line := Option.some.inj hl
    exact ⟨"AllowedIPs = 0.0.0.0/0, ::/0", by decide, by decide, by decide⟩

/-- A line without blanks, a comment before the line, and a line that ends in a carriage return. -/
theorem allowedIps_misread :
    appendSplitTunnelingConfig exampleTexts noSplitTunnel (nativeOf "AllowedIPs=0.0.0.0/0") = none ∧
      ¬ AllowedIpsRead exampleTexts noSplitTunnel (nativeOf "# AllowedIPs = 10.0.0.0/8\nAllowedIPs = ::/0") ∧
      ¬ AllowedIpsRead exampleTexts noSplitTunnel (nativeOf "AllowedIPs = ::/0\r") := by
  refine ⟨?_, ?_, ?_⟩
  · have hno : nativeValue "AllowedIPs" (nativeConfig (nativeOf "AllowedIPs=0.0.0.0/0")) = none := by decide
    refine Option.map_eq_none_iff.mp ((appendSplitTunnelingConfig_native (.inr rfl) rfl rfl).trans ?_)
    rw [hno]
    rfl
  · rw [allowedIpsRead_iff_values (.inr rfl) rfl rfl]
    rintro ⟨-, value, hv, heq⟩
    obtain rfl : some "10.0.0.0/8" = value := Option.some.inj hv
    exact absurd heq (by decide)
  · rw [allowedIpsRead_iff_values (.inr rfl) rfl rfl]
    rintro ⟨-, value, hv, heq⟩
    obtain rfl : some "::/0\r" = value := Option.some.inj hv
    exact absurd heq (by decide)

end Cimogus.Client.VpnConnection
