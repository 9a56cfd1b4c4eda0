import Cimogus.Client.Servers
import Cimogus.Client.ShareLinks
import Cimogus.Lib.JsonWrite
import Cimogus.Lib.Regex

/-!
# `ImportController`

`extractConfigFromData` turns a text into the configuration of a server and keeps it, and `importConfig` adds what is
kept to the servers. A text is a share link, or it is recognised by parts of it, if need be after decoding. Which file
the text was from is left out, and the warning about dangerous lines is apart, in `DangerousTags`.
-/

namespace Cimogus.Client.Import

open Lib Lib.Json Serialization
open Lib.JsonWrite (document compact indented sorted write)
open Lib.Regex (Re)

inductive ConfigTypes
  | Amnezia
  | OpenVpn
  | WireGuard
  | Awg
  | Xray
  | ShadowSocks
  | Backup
  | Invalid
  deriving DecidableEq

inductive ImportError
  | text (message : String)
  | ImportInvalidConfigError
  | ApiConfigAlreadyAdded
  deriving DecidableEq

inductive ImportSignal
  | importFinished
  | importErrorOccurred (error : ImportError) (goToPageHome : Bool)
  | restoreAppConfig (data : String)
  deriving DecidableEq

structure System where
  qt : Qt
  /-- `Base64UrlEncoding` and `OmitTrailingEquals`. -/
  fromBase64Url : String → List UInt8
  qUncompress : List UInt8 → List UInt8
  fromUtf8 : List UInt8 → String
  /-- What is read as UTF-8 from the bytes of `toLocal8Bit`, if they are UTF-8. The local encoding is UTF-8 except on
  Windows, where it is a code page. -/
  local8Bit : String → Option String
  qChecksum : String → BitVec 16
  nextAvailableServerName : List Object → String
  /-- Android or iOS. -/
  mobile : Bool

structure ImportController where
  config : Object
  configType : ConfigTypes
  servers : List Object
  signals : List ImportSignal
  deriving DecidableEq

/-! ## The formats -/

def checkConfigFormat (config : String) : ConfigTypes :=
  let has := Text.contains config
  if has "Servers/serversList" then .Backup
  else if has "containers" || has "api_key" || (has "hostName" && has "userName" && has "password") then .Amnezia
  else if has "client" && (has "proto tcp" || has "proto udp") && (has "dev tun" || has "dev tap") then .OpenVpn
  else if has "[Interface]" && has "[Peer]" then .WireGuard
  else if has "inbounds" && has "outbounds" then .Xray
  else .Invalid

inductive Link
  | one (format : LinkFormat)
  | ssd
  deriving DecidableEq

def linkOf (config : String) : Option Link :=
  let starts := Text.startsWith config
  if starts "vless://" then some (.one .vless)
  else if starts "vmess://" && Text.contains config "@" then some (.one .vmessNew)
  else if starts "vmess://" then some (.one .vmess)
  else if starts "trojan://" then some (.one .trojan)
  else if starts "ss://" && !Text.contains config "plugin=" then some (.one .ss)
  else if starts "ssd://" then some .ssd
  else none

def configTypeOf : LinkFormat → ConfigTypes
  | .vless | .vmessNew | .vmess | .trojan => .Xray
  | .ss => .ShadowSocks

variable (sys : System)

/-- The text that is recognised, decoded if it is not recognised as it is. -/
def decoded (data : String) : String :=
  if checkConfigFormat data = .Invalid then
    let ba := sys.fromBase64Url (Text.remove "vpn://" data)
    let uncompressed := sys.qUncompress ba
    sys.fromUtf8 (if uncompressed ≠ [] then uncompressed else ba)
  else data

/-! ## Configurations of servers -/

def defaultMtu : String := if sys.mobile then "1280" else "1376"

def serverOf (container : String) (containerConfig : Object) (description hostName : String) (dns : Object) : Object :=
  [("containers", .arr [.obj containerConfig]), ("defaultContainer", .str container),
    ("description", .str description)] ++
    dns ++ [("hostName", .str hostName)]

/-- `\d{1,3}` four times, with dots between and word boundaries around. -/
def ipv4Re : Re :=
  let octet := Re.upTo (.chars Char.isDigit) 2
  .seq .wordBoundary (.seq octet (.seq (.chr '.') (.seq octet (.seq (.chr '.') (.seq octet (.seq (.chr '.')
    (.seq octet .wordBoundary)))))))

def anyRe : Re := .star (.chars (· != '\n'))

def captured (n : Nat) (caps : Nat → Option (List Char)) : String := String.ofList ((caps n).getD [])

def openVpnHostNameRe : Re := .after "remote " (.seq (.group 1 anyRe) (.seq (.chr ' ') (.star (.chars Char.isDigit))))

def extractOpenVpnConfig (description data : String) : Object :=
  let lastConfig : Object :=
    [("last_config", .str (sys.qt.toJson (.obj [("config", .str data)]))), ("isThirdPartyConfig", .bool true)]
  let hostName := (Regex.search openVpnHostNameRe data.toList).elim "" (captured 1)
  let dns := (Regex.searchAll (.after "dhcp-option DNS " (.group 1 ipv4Re)) data.toList).map (captured 1)
  serverOf "amnezia-openvpn" [("container", .str "amnezia-openvpn"), ("openvpn", .obj lastConfig)] description hostName
    (["dns1", "dns2"].zip (dns.map .str))

/-- The lines `key = value` of a text; of several for a key the last one counts. -/
def configMap (data : String) (key : String) : String :=
  let entries := (Text.split data '\n').filterMap fun line =>
    let trimmed := sys.qt.trimmed line
    if trimmed.toList.head? = some '[' ∧ trimmed.toList.getLast? = some ']' then none
    else
      match Text.splitText trimmed " = " with
      | [k, v] => some (sys.qt.trimmed k, sys.qt.trimmed v)
      | _ => none
  (entries.reverse.lookup key).getD ""

def junkKeys : List String := ["Jc", "Jmin", "Jmax", "S1", "S2", "H1", "H2", "H3", "H4"]

def wireGuardDnsRe : Re := .after "DNS = " (.seq (.group 1 ipv4Re) (.seq anyRe (.group 2 ipv4Re)))

/-- The protocol and the server; `none` where a key parameter is missing, which is reported. -/
def extractWireGuardConfig (description data : String) : Option (String × Object) :=
  let map := configMap sys data
  let url := sys.qt.urlFromUserInput (map "Endpoint")
  if url.host = "" then none
  else if map "PrivateKey" = "" ∨ map "Address" = "" ∨ map "PublicKey" = "" then none
  else
    let port : Int := if url.port ≠ -1 then url.port else 51820
    let psk := if map "PresharedKey" ≠ "" then map "PresharedKey" else map "PreSharedKey"
    let given (key value : String) : Object := if value ≠ "" then [(key, .str value)] else []
    let protocolName := if junkKeys.all fun key => map key ≠ "" then "awg" else "wireguard"
    let lastConfig : Object :=
      [("config", .str data), ("hostName", .str url.host), ("port", .num port),
        ("client_priv_key", .str (map "PrivateKey")),
        ("client_ip", .str (map "Address"))] ++ given "psk_key" psk ++ [("server_pub_key", .str (map "PublicKey"))] ++
        given "persistent_keep_alive" (map "PersistentKeepalive") ++
        [("allowed_ips", texts (Text.splitText (map "AllowedIPs") ", "))] ++
        (if protocolName = "awg" then junkKeys.map fun key => (key, .str (map key)) else []) ++
        [("mtu", .str (if map "MTU" ≠ "" then map "MTU" else defaultMtu sys))]
    let wireguardConfig : Object :=
      [("last_config", .str (sys.qt.toJson (.obj lastConfig))), ("isThirdPartyConfig", .bool true),
        ("port", .str (toString port)),
        ("transport_proto", .str "udp")]
    let dns : Object := (Regex.search wireGuardDnsRe data.toList).elim [] fun caps =>
      [("dns1", .str (captured 1 caps)), ("dns2", .str (captured 2 caps))]
    let container := "amnezia-" ++ protocolName
    some (protocolName,
      serverOf container [("container", .str container), (protocolName, .obj wireguardConfig)] description
      url.host dns)

def xrayHostNameRe : Re :=
  .after "\"address\":" (.seq (.star (.chars Lib.Text.isAsciiSpace))
    (.seq (.chr '"') (.group 1 (.plus (.chars (· != '"'))))))

/-- The document in a text, which is read in the local encoding. -/
def localDocument (data : String) : Option Json := (sys.local8Bit data).bind fun text => (sys.qt.fromJson text).toOption

/-- The text of the document; an empty one, if there is none. -/
def documentText (data : String) : String := (localDocument sys data).elim "" sys.qt.toJson

def xrayKey (configType : ConfigTypes) : String := if configType = .ShadowSocks then "ssxray" else "xray"

/-- The text need not be one of JSON. -/
def extractXrayConfig (configType : ConfigTypes) (serverName data description : String) : Object :=
  let lastConfig : Object := [("last_config", .str (documentText sys data)), ("isThirdPartyConfig", .bool true)]
  let key := xrayKey configType
  let container := "amnezia-" ++ key
  let hostName := (Regex.search xrayHostNameRe data.toList).elim "" (captured 1)
  serverOf container [("container", .str container), (key, .obj lastConfig)]
    (if description = "" then serverName else description)
    hostName []

/-! ## Configurations of the application -/

def objectOf (text : String) : Object :=
  match sys.qt.fromJson text with
  | .ok v => Value.toObject (some v)
  | .error _ => []

/-- The key of a container whose configuration gets a new `mtu`. -/
def mtuKey (container : Object) : Option String :=
  match (container.value "container").toText with
  | "amnezia-awg" => some "awg"
  | "amnezia-wireguard" => some "wireguard"
  | _ => none

/-- The loop over the containers, which ends at the first one for AWG or WireGuard without a configuration. -/
def processContainers (config : Object) (done : List Json) : List Json → Object
  | [] => config
  | entry :: rest =>
    let container := Value.toObject (some entry)
    match mtuKey container with
    | none => processContainers config (done ++ [entry]) rest
    | some key =>
      let containerConfig := (container.value key).toObject
      let protocolConfig := (containerConfig.value "last_config").toText
      if protocolConfig = "" then config
      else
        let jsonConfig := (objectOf sys protocolConfig).set "mtu" (.str (defaultMtu sys))
        let entry :=
          Json.obj
            (container.set key (.obj (containerConfig.set "last_config" (.str (sys.qt.toJson (.obj jsonConfig))))))
        processContainers (config.set "containers" (.arr (done ++ entry :: rest))) (done ++ [entry]) rest

def processAmneziaConfig (config : Object) : Object :=
  processContainers sys config [] (config.value "containers").toArray

namespace ImportController

def emit (signal : ImportSignal) (s : ImportController) : ImportController :=
  { s with signals := s.signals ++ [signal] }

/-! ## Extracting -/

/-- The configuration for a text of one of the formats that are recognised by their contents. -/
def extractConfigOfType (configType : ConfigTypes) (config : String) (s : ImportController) :
    Bool × ImportController :=
  let serverName := sys.nextAvailableServerName s.servers
  let s := { s with configType }
  let stored (config : Object) (s : ImportController) := (!config.isEmpty, { s with config })
  match configType with
  | .OpenVpn => stored (extractOpenVpnConfig sys serverName config) s
  | .WireGuard | .Awg =>
    match extractWireGuardConfig sys serverName config with
    | some (protocolName, server) =>
      stored server (if protocolName = "awg" then { s with configType := .Awg } else s)
    | none => stored [] (s.emit (.importErrorOccurred .ImportInvalidConfigError false))
  | .Xray => stored (extractXrayConfig sys configType serverName config "") s
  | .Amnezia => stored (processAmneziaConfig sys (objectOf sys config)) s
  | .Backup =>
    (false, s.emit (if s.servers = [] then .restoreAppConfig config
      else .importErrorOccurred (.text "Invalid configuration file") false))
  | .Invalid => (false, s.emit (.importErrorOccurred (.text "Invalid configuration file") false))
  | .ShadowSocks => (false, s)

/-- What is returned is whether the configuration that is kept is not empty, except for backups and texts that are not
recognised. `closure` is what the static closure of the new VMess scheme refers to. -/
def extractConfigFromData (closure : Option Query) (data : String) (s : ImportController) : Bool × ImportController :=
  let serverName := sys.nextAvailableServerName s.servers
  match linkOf data with
  | some (.one format) =>
    let d := deserialize sys.qt closure format data
    let configType := configTypeOf format
    let config := extractXrayConfig sys configType serverName (sys.qt.toJsonCompact (.obj d.object)) d.linkAlias
    (!config.isEmpty, { s with config, configType })
  | some .ssd =>
    -- the name of the first server is taken for its configuration
    let config :=
      match (Ssd.deserialize sys.qt data).servers with
      | [] => s.config
      | (name, _) :: _ => extractXrayConfig sys .ShadowSocks serverName name ""
    (!config.isEmpty, { s with config, configType := .ShadowSocks })
  | none => extractConfigOfType sys (checkConfigFormat (decoded sys data)) (decoded sys data) s

/-! ## Importing -/

def validCredentials (config : Object) : Bool :=
  (config.value "hostName").toText ≠ "" && (config.value "userName").toText ≠ "" &&
    (config.value "password").toText ≠ "" &&
    (config.value "port").toInt > 0

def isServerFromApiAlreadyExists (servers : List Object) (crc : BitVec 16) : Bool :=
  servers.any fun server => BitVec.ofInt 16 (server.value "crc").toInt = crc

def addServer (server : Object) (s : ImportController) : ImportController :=
  ({ s with servers := s.servers ++ [server] }).emit .importFinished

def importConfig (s : ImportController) : ImportController :=
  let imported :=
    if validCredentials s.config || s.config.contains "containers" then s.addServer s.config
    else if s.config.contains "config_version" then
      let crc := sys.qChecksum (sys.qt.toJson (.obj s.config))
      if isServerFromApiAlreadyExists s.servers crc then s.emit (.importErrorOccurred .ApiConfigAlreadyAdded true)
      else s.addServer (s.config.set "crc" (.num crc.toNat))
    else s.emit (.importErrorOccurred .ImportInvalidConfigError false)
  { imported with config := [] }

end ImportController

variable {sys : System} {closure : Option Query} {data : String}

open ImportController

/-- The configuration that is kept would be added. -/
def Importable (sys : System) (s : ImportController) : Prop :=
  validCredentials s.config = true ∨ s.config.contains "containers" = true ∨
    s.config.contains "config_version" = true ∧
      isServerFromApiAlreadyExists s.servers (sys.qChecksum (sys.qt.toJson (.obj s.config))) = false

/-- An import adds nothing just if it cannot succeed. -/
theorem importConfig_servers (s : ImportController) :
    (s.importConfig sys).servers = s.servers ↔ ¬ Importable sys s := by
  have ha (server : Object) : (s.addServer server).servers ≠ s.servers := by
    simp [addServer, emit]
  unfold importConfig Importable
  dsimp only
  split
  next h =>
    rw [Bool.or_eq_true] at h
    refine iff_of_false (ha _) (Decidable.not_not.mpr ?_)
    rcases h with h | h
    · exact .inl h
    · exact .inr (.inl h)
  next h =>
    rw [Bool.or_eq_true] at h
    split
    next hv =>
      split
      next he => exact iff_of_true rfl (by simp [h, he])
      next hnew => exact iff_of_false (ha _) (by simp [hv, hnew])
    next hv => exact iff_of_true rfl (by simp [h, hv])

variable {s : ImportController}

theorem importable_congr {t : ImportController} (hc : s.config = t.config) (hs : s.servers = t.servers) :
    Importable sys s ↔ Importable sys t := by
  rw [Importable, Importable, hc, hs]

theorem not_importable_of_empty (h : s.config = []) : ¬ Importable sys s := by
  simp [Importable, h, validCredentials, Object.contains, Value.toText, Value.text?]

/-! ## What is stored -/

/-- The `last_config` of the first container. -/
def lastConfig (key : String) (config : Object) : Value :=
  ((Value.toObject (config.value "containers").toArray.head?).value key).toObject.value "last_config"

/-- **The configuration that is stored for the container.** -/
theorem extractXrayConfig_lastConfig (configType : ConfigTypes) (serverName text description : String) :
    lastConfig (xrayKey configType) (extractXrayConfig sys configType serverName text description) =
      some (.str (documentText sys text)) := by
  have hkey : xrayKey configType ≠ "container" := by
    unfold xrayKey
    split <;> decide
  simp [lastConfig, extractXrayConfig, serverOf, Object.value_cons, hkey]

theorem extractXrayConfig_isEmpty (configType : ConfigTypes) (serverName text description : String) :
    (extractXrayConfig sys configType serverName text description).isEmpty = false := rfl

theorem extractWireGuardConfig_isSome (description description' : String) :
    (extractWireGuardConfig sys description data).isSome = (extractWireGuardConfig sys description' data).isSome := by
  unfold extractWireGuardConfig
  dsimp only
  split
  · rfl
  split <;> rfl

theorem extractWireGuardConfig_isEmpty {description protocolName : String} {server : Object}
    (h : extractWireGuardConfig sys description data = some (protocolName, server)) : server.isEmpty = false := by
  unfold extractWireGuardConfig at h
  dsimp only at h
  split at h
  · cases h
  split at h
  · cases h
  · rw [← (Prod.mk.inj (Option.some.inj h)).2]
    rfl

theorem processContainers_ne_nil {config : Object} {done rest : List Json} (h : config ≠ []) :
    processContainers sys config done rest ≠ [] := by
  have hs (o : Object) (key : String) (v : Json) : o.set key v ≠ [] := by
    cases o with
    | nil => simp [Object.set]
    | cons member rest =>
      rw [Object.set]
      split <;> simp
  induction rest generalizing config done with
  | nil => exact h
  | cons entry rest ih =>
    rw [processContainers]
    split
    · exact ih h
    · dsimp only
      split
      · exact h
      · exact ih (hs _ _ _)

theorem processAmneziaConfig_isEmpty (config : Object) :
    (processAmneziaConfig sys config).isEmpty = config.isEmpty := by
  cases config with
  | nil => rfl
  | cons member rest => simpa [processAmneziaConfig] using processContainers_ne_nil (List.cons_ne_nil member rest)

/-! ## What is reported -/

/-- A text of one of the formats that are recognised by their contents has been read. -/
def ParsedAs (sys : System) (config : String) : ConfigTypes → Prop
  | .OpenVpn => True
  | .WireGuard | .Awg => (extractWireGuardConfig sys "" config).isSome = true
  | .Xray => (localDocument sys config).isSome = true
  | .Amnezia => objectOf sys config ≠ []
  | .Backup | .Invalid | .ShadowSocks => False

/-- What a success stands for: for a link no error, and an outbound in the configuration that is stored for the
container. -/
def Usable (sys : System) (closure : Option Query) (data : String) (s : ImportController) : Prop :=
  match linkOf data with
  | some (.one format) =>
    let d := deserialize sys.qt closure format data
    d.errMessage = "" ∧ outboundsOf d.object ≠ [] ∧
      lastConfig (xrayKey (configTypeOf format)) s.config = some (.str (sys.qt.toJson (.obj d.object)))
  | some .ssd =>
    let d := Ssd.deserialize sys.qt data
    d.logList = [] ∧ ∃ server ∈ d.servers, outboundsOf server.2 ≠ [] ∧
      lastConfig "ssxray" s.config = some (.str (sys.qt.toJson (.obj server.2)))
  | none => ParsedAs sys (decoded sys data) (checkConfigFormat (decoded sys data))

/-- A success is one, and after a failure nothing is added. -/
def Honest (sys : System) (closure : Option Query) (data : String) (s : ImportController) : Prop :=
  let r := s.extractConfigFromData sys closure data
  (r.1 = true → Usable sys closure data r.2) ∧ (r.1 = false → (r.2.importConfig sys).servers = r.2.servers)

/-- The text that is written for a link, which is read again in the local encoding. -/
def linkText (sys : System) (closure : Option Query) (format : LinkFormat) (data : String) : String :=
  sys.qt.toJsonCompact (.obj (deserialize sys.qt closure format data).object)

/-- No error is reported for a link, and the local encoding leaves its text as it is; a list of servers is empty as is
the configuration that is kept; a text for Xray is JSON in the local encoding; and there is nothing from before that
would be added, where the text is a backup or is not recognised. -/
def Sound (sys : System) (closure : Option Query) (data : String) (s : ImportController) : Prop :=
  match linkOf data with
  | some (.one format) => (deserialize sys.qt closure format data).errMessage = "" ∧
      sys.local8Bit (linkText sys closure format data) = some (linkText sys closure format data)
  | some .ssd => (Ssd.deserialize sys.qt data).servers = [] ∧ s.config = []
  | none =>
    match checkConfigFormat (decoded sys data) with
    | .Xray => (localDocument sys (decoded sys data)).isSome = true
    | .Backup | .Invalid | .ShadowSocks => ¬ Importable sys s
    | .OpenVpn | .WireGuard | .Awg | .Amnezia => True

/-- What is needed of Qt's JSON and of the local encoding: what is written for a link is read again; a text of it that
the encoding changes, which it can inside strings only, is that of another document; no document ends with a
parenthesis, and the text of an object is not empty. -/
structure JsonCorrect (sys : System) (closure : Option Query) (data : String) : Prop where
  readsBack : ∀ format, linkOf data = some (.one format) → sys.qt.fromJson (linkText sys closure format data) =
    .ok (.obj (deserialize sys.qt closure format data).object)
  changed : ∀ format, linkOf data = some (.one format) → ∀ text v,
    sys.local8Bit (linkText sys closure format data) = some text → text ≠ linkText sys closure format data →
      sys.qt.fromJson text = .ok v →
      sys.qt.toJson v ≠ sys.qt.toJson (.obj (deserialize sys.qt closure format data).object)
  noParenthesis : ∀ text, localDocument sys (text ++ ")") = none
  notEmpty : ∀ object, sys.qt.toJson (.obj object) ≠ ""

namespace ImportController

theorem honest_of_true (h : (s.extractConfigFromData sys closure data).1 = true) :
    Honest sys closure data s ↔ Usable sys closure data (s.extractConfigFromData sys closure data).2 := by
  simp only [Honest, h, forall_const, Bool.true_eq_false, false_implies, and_true]

theorem honest_of_false (h : (s.extractConfigFromData sys closure data).1 = false) :
    Honest sys closure data s ↔ ¬ Importable sys (s.extractConfigFromData sys closure data).2 := by
  rw [← importConfig_servers]
  simp only [Honest, h, Bool.false_eq_true, false_implies, true_and, forall_const]

variable (hjson : JsonCorrect sys closure data)

include hjson

/-- What is stored for a link is its object just if the local encoding leaves the text as it is. -/
theorem documentText_linkText_iff {format : LinkFormat} (hlink : linkOf data = some (.one format)) :
    documentText sys (linkText sys closure format data) =
        sys.qt.toJson (.obj (deserialize sys.qt closure format data).object) ↔
      sys.local8Bit (linkText sys closure format data) = some (linkText sys closure format data) := by
  rw [documentText, localDocument]
  cases hl : sys.local8Bit (linkText sys closure format data) with
  | none => exact iff_of_false (hjson.notEmpty _).symm (by simp)
  | some text =>
    rw [Option.bind_some, Option.some.injEq]
    refine ⟨fun h => by_contra fun hne => ?_, fun h => by rw [h, hjson.readsBack format hlink]; rfl⟩
    cases hv : sys.qt.fromJson text with
    | error e =>
      rw [hv] at h
      exact hjson.notEmpty _ h.symm
    | ok v =>
      rw [hv] at h
      exact hjson.changed format hlink text v hl hne hv h

theorem honest_link_iff (s : ImportController) {format : LinkFormat}
    (hlink : linkOf data = some (.one format)) :
    Honest sys closure data s ↔ (deserialize sys.qt closure format data).errMessage = "" ∧
      sys.local8Bit (linkText sys closure format data) = some (linkText sys closure format data) := by
  have hr : (s.extractConfigFromData sys closure data).1 = true := by
    simp [extractConfigFromData, hlink, extractXrayConfig_isEmpty]
  have hs : lastConfig (xrayKey (configTypeOf format)) (s.extractConfigFromData sys closure data).2.config =
      some (.str (documentText sys (linkText sys closure format data))) := by
    simp only [extractConfigFromData, hlink]
    exact extractXrayConfig_lastConfig _ _ _ _
  rw [honest_of_true hr, ← documentText_linkText_iff hjson hlink]
  simp only [Usable, hlink, hs, Option.some.injEq, Json.str.injEq]
  exact and_congr_right fun he => and_iff_right (outbounds_of_no_error closure format data he)

theorem lastConfig_ssd (s : ImportController) (hlink : linkOf data = some .ssd)
    {server : String × Object} {rest : List (String × Object)}
    (hs : (Ssd.deserialize sys.qt data).servers = server :: rest) :
    lastConfig "ssxray" (s.extractConfigFromData sys closure data).2.config = some (.str "") := by
  obtain ⟨name, object⟩ := server
  obtain ⟨text, rfl⟩ := Ssd.name_of_mem (hs ▸ List.mem_cons_self)
  have hno : documentText sys (text ++ ")") = "" := by rw [documentText, hjson.noParenthesis text, Option.elim_none]
  simp only [extractConfigFromData, hlink, hs]
  rw [← hno]
  exact extractXrayConfig_lastConfig .ShadowSocks _ _ _

theorem honest_ssd_iff (s : ImportController) (hlink : linkOf data = some .ssd) :
    Honest sys closure data s ↔ (Ssd.deserialize sys.qt data).servers = [] ∧ s.config = [] := by
  cases hs : (Ssd.deserialize sys.qt data).servers with
  | nil =>
    have hc : (s.extractConfigFromData sys closure data).2.config = s.config := by
      simp [extractConfigFromData, hlink, hs]
    cases he : s.config with
    | nil =>
      have hr : (s.extractConfigFromData sys closure data).1 = false := by
        simp [extractConfigFromData, hlink, hs, he]
      rw [honest_of_false hr]
      exact iff_of_true (not_importable_of_empty (hc.trans he)) ⟨rfl, rfl⟩
    | cons member rest =>
      have hr : (s.extractConfigFromData sys closure data).1 = true := by
        simp [extractConfigFromData, hlink, hs, he]
      rw [honest_of_true hr]
      simp [Usable, hlink, hs]
  | cons server rest =>
    have hr : (s.extractConfigFromData sys closure data).1 = true := by
      simp [extractConfigFromData, hlink, hs, extractXrayConfig_isEmpty]
    rw [honest_of_true hr]
    refine iff_of_false ?_ (by simp)
    simp only [Usable, hlink, lastConfig_ssd hjson s hlink hs]
    rintro ⟨-, other, -, -, ho⟩
    exact hjson.notEmpty other.2 (by simpa using ho.symm)

omit hjson

variable (hlink : linkOf data = none)

include hlink

theorem extractConfigFromData_of_text {configType : ConfigTypes}
    (ht : checkConfigFormat (decoded sys data) = configType) :
    s.extractConfigFromData sys closure data = s.extractConfigOfType sys configType (decoded sys data) := by
  simp only [extractConfigFromData, hlink, ht]

theorem honest_wireGuard
    (ht : checkConfigFormat (decoded sys data) = .WireGuard ∨ checkConfigFormat (decoded sys data) = .Awg) :
    Honest sys closure data s := by
  have hs : (extractWireGuardConfig sys "" (decoded sys data)).isSome =
      (extractWireGuardConfig sys (sys.nextAvailableServerName s.servers) (decoded sys data)).isSome :=
    extractWireGuardConfig_isSome _ _
  cases he : extractWireGuardConfig sys (sys.nextAvailableServerName s.servers) (decoded sys data) with
  | none =>
    have hr : (s.extractConfigFromData sys closure data).1 = false := by
      rcases ht with ht | ht <;> simp [extractConfigFromData_of_text hlink ht, extractConfigOfType, he]
    rw [honest_of_false hr]
    apply not_importable_of_empty
    rcases ht with ht | ht <;> simp [extractConfigFromData_of_text hlink ht, extractConfigOfType, he]
  | some extracted =>
    have hr : (s.extractConfigFromData sys closure data).1 = true := by
      have hse := extractWireGuardConfig_isEmpty he
      rcases ht with ht | ht <;>
        simp [extractConfigFromData_of_text hlink ht, extractConfigOfType, he, hse]
    rw [honest_of_true hr]
    rw [he] at hs
    rcases ht with ht | ht <;> simpa [Usable, hlink, ht, ParsedAs] using hs

theorem honest_amnezia (ht : checkConfigFormat (decoded sys data) = .Amnezia) :
    Honest sys closure data s := by
  have he : (processAmneziaConfig sys (objectOf sys (decoded sys data))).isEmpty =
      (objectOf sys (decoded sys data)).isEmpty :=
    processAmneziaConfig_isEmpty _
  cases ho : objectOf sys (decoded sys data) with
  | nil =>
    have hr : (s.extractConfigFromData sys closure data).1 = false := by
      simpa [extractConfigFromData_of_text hlink ht, extractConfigOfType, ho] using he
    rw [honest_of_false hr]
    apply not_importable_of_empty
    simpa [extractConfigFromData_of_text hlink ht, extractConfigOfType, ho] using he
  | cons member rest =>
    have hr : (s.extractConfigFromData sys closure data).1 = true := by
      simpa [extractConfigFromData_of_text hlink ht, extractConfigOfType, ho] using he
    rw [honest_of_true hr]
    simp [Usable, hlink, ht, ParsedAs, ho]

theorem honest_xray_iff (ht : checkConfigFormat (decoded sys data) = .Xray) :
    Honest sys closure data s ↔ (localDocument sys (decoded sys data)).isSome = true := by
  have hr : (s.extractConfigFromData sys closure data).1 = true := by
    simp [extractConfigFromData_of_text hlink ht, extractConfigOfType, extractXrayConfig_isEmpty]
  rw [honest_of_true hr]
  simp only [Usable, hlink, ht, ParsedAs]

theorem honest_openVpn (ht : checkConfigFormat (decoded sys data) = .OpenVpn) :
    Honest sys closure data s := by
  have hr : (s.extractConfigFromData sys closure data).1 = true := by
    simp [extractConfigFromData_of_text hlink ht, extractConfigOfType, extractOpenVpnConfig, serverOf]
  rw [honest_of_true hr]
  simp only [Usable, hlink, ht, ParsedAs]

theorem honest_kept_iff
    (ht : checkConfigFormat (decoded sys data) ∈ [ConfigTypes.Backup, .Invalid, .ShadowSocks]) :
    Honest sys closure data s ↔ ¬ Importable sys s := by
  have hk : (s.extractConfigFromData sys closure data).1 = false ∧
      (s.extractConfigFromData sys closure data).2.config = s.config ∧
      (s.extractConfigFromData sys closure data).2.servers = s.servers := by
    simp only [List.mem_cons, List.not_mem_nil, or_false] at ht
    rcases ht with ht | ht | ht <;> simp [extractConfigFromData_of_text hlink ht, extractConfigOfType, emit]
  rw [honest_of_false hk.1, importable_congr hk.2.1 hk.2.2]

omit hlink

/-- **Successes and failures.** A success of `extractConfigFromData` means a usable configuration, and a failure that
nothing will be added, just when the text and what is kept are sound. -/
theorem extract_honest_iff (hjson : JsonCorrect sys closure data) (s : ImportController) :
    Honest sys closure data s ↔ Sound sys closure data s := by
  cases hlink : linkOf data with
  | some link =>
    cases link with
    | one format =>
      rw [honest_link_iff hjson s hlink]
      simp only [Sound, hlink]
    | ssd =>
      rw [honest_ssd_iff hjson s hlink]
      simp only [Sound, hlink]
  | none =>
    cases ht : checkConfigFormat (decoded sys data) with
    | OpenVpn => exact iff_of_true (honest_openVpn hlink ht) (by simp only [Sound, hlink, ht])
    | WireGuard => exact iff_of_true (honest_wireGuard hlink (.inl ht)) (by simp only [Sound, hlink, ht])
    | Awg => exact iff_of_true (honest_wireGuard hlink (.inr ht)) (by simp only [Sound, hlink, ht])
    | Amnezia => exact iff_of_true (honest_amnezia hlink ht) (by simp only [Sound, hlink, ht])
    | Xray => rw [honest_xray_iff hlink ht]; simp only [Sound, hlink, ht]
    | Backup => rw [honest_kept_iff hlink (by rw [ht]; decide)]; simp only [Sound, hlink, ht]
    | Invalid => rw [honest_kept_iff hlink (by rw [ht]; decide)]; simp only [Sound, hlink, ht]
    | ShadowSocks => rw [honest_kept_iff hlink (by rw [ht]; decide)]; simp only [Sound, hlink, ht]

end ImportController

/-! ## Examples -/

def writeCompact (v : Json) : String := String.ofList (document compact (sorted v))

def linkQt : Qt where
  url text :=
    { isValid := text = "vless://id@203.0.113.7:443", errorString := "", host := "203.0.113.7", port := 443,
      fragment := ""
      fragmentFullyDecoded := "", userInfo := "id", userName := "id", password := "", query := [] }
  urlFromUserInput _ :=
    { isValid := false, errorString := "", host := "", port := -1, fragment := "", fragmentFullyDecoded := "",
      userInfo := ""
      userName := "", password := "", query := [] }
  fromPercentEncoding := id
  prettyDecoded := id
  fullyDecoded := id
  fromBase64 _ := ""
  fromJson _ := .error "illegal value"
  toJson v := String.ofList (document indented (sorted v))
  toJsonCompact := writeCompact
  toInt _ := 0
  trimmed := id
  toLower := id
  numberText _ := ""
  numberInt x := x.num
  nodeName _ node _ := node
  memory := 0

/-- The configuration for the link of `linkQt`. -/
def linkObject : Json := .obj (deserialize linkQt none .vless "vless://id@203.0.113.7:443").object

/-- Reads one text. -/
def readText (written : String) (v : Json) (text : String) : Except String Json :=
  if text = written then .ok v else .error "illegal value"

def exampleSystem : System where
  qt := { linkQt with fromJson := readText (writeCompact linkObject) linkObject }
  fromBase64Url _ := []
  qUncompress _ := []
  fromUtf8 _ := ""
  local8Bit := some
  qChecksum _ := 0
  nextAvailableServerName _ := "Server 1"
  mobile := false

theorem jsonCorrect_vless : JsonCorrect exampleSystem none "vless://id@203.0.113.7:443" where
  readsBack format hfo := by
    cases hfo
    have ho : (deserialize exampleSystem.qt none .vless "vless://id@203.0.113.7:443").object =
        (deserialize linkQt none .vless "vless://id@203.0.113.7:443").object := by decide +kernel
    have hcompact : exampleSystem.qt.toJsonCompact = writeCompact := rfl
    have hread : exampleSystem.qt.fromJson = readText (writeCompact linkObject) linkObject := by
      simp only [exampleSystem]
    rw [linkText, ho, hcompact, hread, readText]
    exact if_pos rfl
  changed _ _ text _ hl hne := absurd (Option.some.inj hl).symm hne
  noParenthesis text := by
    have hne : text ++ ")" ≠ writeCompact linkObject := by
      intro heq
      have hlast := congrArg (fun t : String => t.toList.getLast?) heq
      have hend : (writeCompact linkObject).toList.getLast? = some '}' := by
        simp [writeCompact, document, linkObject, sorted, write, compact, List.getLast?_cons]
      simp [hend] at hlast
    have hread : exampleSystem.qt.fromJson = readText (writeCompact linkObject) linkObject := by
      simp only [exampleSystem]
    have hlocal : exampleSystem.local8Bit = some := rfl
    rw [localDocument, hlocal, Option.bind_some, hread, readText, if_neg hne]
    rfl
  notEmpty object := by simp [exampleSystem, linkQt, document, sorted, write]

theorem vless_honest : Honest exampleSystem none "vless://id@203.0.113.7:443" ⟨[], .Invalid, [], []⟩ ∧
      (extractConfigFromData exampleSystem none "vless://id@203.0.113.7:443" ⟨[], .Invalid, [], []⟩).1 = true := by
  have hlink : linkOf "vless://id@203.0.113.7:443" = some (.one .vless) := by decide
  refine ⟨(extract_honest_iff jsonCorrect_vless _).mpr ?_, by decide +kernel⟩
  simp only [Sound, hlink]
  exact ⟨by decide +kernel, rfl⟩

/-- A link without a configuration is a success; and after a text that is not recognised, the configuration that an
earlier one left is added. -/
theorem import_dishonest : ¬ Honest exampleSystem none "vmess://" ⟨[], .Invalid, [], []⟩ ∧
      ¬ Honest exampleSystem none "hello" (extractConfigFromData exampleSystem none "vless://id@203.0.113.7:443"
        ⟨[], .Invalid, [], []⟩).2 := by
  constructor
  · intro h
    have hu := h.1 (by decide)
    exact absurd hu.1 (by decide)
  · intro h
    exact (importConfig_servers _).mp (h.2 (by decide +kernel)) (.inr (.inl (by decide +kernel)))

end Cimogus.Client.Import
