import Cimogus.Client.Outbounds
import Cimogus.Lib.Text

/-!
# Share links

The functions that turn a link for VLESS, VMess, Trojan or Shadowsocks into an Xray configuration
(`core/serialization`). They report errors through a text: some return with it, and some go on. What Qt makes of URLs,
of encodings and of JSON texts is a parameter (`Qt`).
-/

namespace Cimogus.Client.Serialization

open Lib Lib.Json

/-- The items of a query as `QUrlQuery` keeps them. -/
abbrev Query := List (String × String)

/-- What `QUrl` says about a link; the port is -1 where there is none. -/
structure Url where
  isValid : Bool
  errorString : String
  host : String
  port : Int
  fragment : String
  fragmentFullyDecoded : String
  userInfo : String
  userName : String
  password : String
  query : Query

structure Qt where
  url : String → Url
  urlFromUserInput : String → Url
  fromPercentEncoding : String → String
  /-- An item's value in the default decoding, and fully decoded. -/
  prettyDecoded : String → String
  fullyDecoded : String → String
  /-- `OmitTrailingEquals`, read as a text. -/
  fromBase64 : String → String
  /-- The document, or the error. -/
  fromJson : String → Except String Json
  toJson : Json → String
  toJsonCompact : Json → String
  /-- 0 for a text that is no number. -/
  toInt : String → Int
  trimmed : String → String
  toLower : String → String
  /-- `QVariant` of a number. -/
  numberText : Rat → String
  numberInt : Rat → Int
  /-- `arg` on the name of a node of an SSD link, up to the closing parenthesis. -/
  nodeName : String → String → Rat → String
  /-- An integer that is not initialised. -/
  memory : Int

/-- What a function returns, with its two output parameters. -/
structure Deserialized where
  object : Object
  linkAlias : String
  errMessage : String
  deriving DecidableEq

namespace Query

variable (qt : Qt) (query : Query)

def hasItem (key : String) : Bool := (query.lookup key).isSome

def item (key : String) : String := qt.prettyDecoded ((query.lookup key).getD "")

def itemFullyDecoded (key : String) : String := qt.fullyDecoded ((query.lookup key).getD "")

def itemDecodedTwice (key : String) : String := qt.fromPercentEncoding (query.item qt key)

def itemD (key default : String) : String := if query.hasItem key then query.item qt key else default

end Query

variable (qt : Qt)

def safeBase64Decode (text : String) : String :=
  qt.fromBase64 (Text.replaceChar '_' '/' (Text.replaceChar '-' '+' text))

/-- `toVariant().toString()`. -/
def variantText : Value → String
  | some (.str s) => s
  | some (.bool b) => if b then "true" else "false"
  | some (.num x) => qt.numberText x
  | _ => ""

/-- `toVariant().toInt()`. -/
def variantInt : Value → Int
  | some (.str s) => qt.toInt s
  | some (.bool b) => if b then 1 else 0
  | some (.num x) => qt.numberInt x
  | _ => 0

def verifyJsonString (source : String) : String :=
  match qt.fromJson source with
  | .ok _ => ""
  | .error e => e

/-- The object of the document; an empty one, if it is no object. -/
def jsonFromString (source : String) : Object :=
  match qt.fromJson (qt.trimmed source) with
  | .ok v => Value.toObject (some v)
  | .error _ => []

def rootOf (outbound : Object) (inboundsKey : String) : Object :=
  [("outbounds", .arr [.obj outbound]), (inboundsKey, .arr [.obj generateInboundEntry])]

/-! ## Stream settings of VLESS and Trojan -/

section Stream

variable (query : Query)

def path (keys : List String) : List PathKey := keys.map .key

def ifItem (key : String) (value : Json) (keys : List String) : List (List PathKey × Json) :=
  if query.hasItem key then [(path keys, value)] else []

def ifNot (default value : String) (keys : List String) : List (List PathKey × Json) :=
  if value ≠ default then [(path keys, .str value)] else []

def itemList (text : String) : Json := texts (Text.split text ',')

def typeSettings (type : String) : List (List PathKey × Json) :=
  let decodedPath := if query.hasItem "path" then query.itemDecodedTwice qt "path" else "/"
  let headerType := query.itemD qt "headerType" "none"
  if type = "kcp" then
    ifItem query "seed" (.str (query.item qt "seed")) ["kcpSettings", "seed"] ++
      ifNot "none" headerType ["kcpSettings", "header", "type"]
  else if type = "http" then
    ifNot "/" decodedPath ["httpSettings", "path"] ++
      ifItem query "host" (itemList (query.item qt "host")) ["httpSettings", "host"]
  else if type = "ws" then
    ifNot "/" decodedPath ["wsSettings", "path"] ++
      ifItem query "host" (.str (query.item qt "host")) ["wsSettings", "headers", "Host"]
  else if type = "quic" then
    if query.hasItem "quicSecurity" then
      let quicSecurity := query.item qt "quicSecurity"
      [(path ["quicSettings", "security"], .str quicSecurity)] ++
        (if quicSecurity ≠ "none" then [(path ["quicSettings", "key"], .str (query.item qt "key"))] else []) ++
        ifNot "none" headerType ["quicSettings", "header", "type"]
    else []
  else if type = "grpc" then
    ifItem query "serviceName" (.str (query.itemDecodedTwice qt "serviceName")) ["grpcSettings", "serviceName"] ++
      ifItem query "mode" (.bool (query.itemDecodedTwice qt "mode" = "multi")) ["grpcSettings", "multiMode"]
  else []

def securityOf : String := query.itemD qt "security" "none"

/-- The settings for the security of the transport. -/
def securitySettings : List (List PathKey × Json) :=
  let security := securityOf qt query
  let tlsKey :=
    if security = "xtls" then "xtlsSettings" else if security = "tls" then "tlsSettings" else "realitySettings"
  -- h2 is not supported by xray
  let alpn := (Text.split (query.itemDecodedTwice qt "alpn") ',').filter (· ≠ "h2")
  ifNot "none" security ["security"] ++ ifItem query "sni" (.str (query.item qt "sni")) [tlsKey, "serverName"] ++
    (if alpn ≠ [] then ifItem query "alpn" (texts alpn) [tlsKey, "alpn"] else []) ++ (if security = "reality" then
      ifItem query "fp" (.str (query.itemDecodedTwice qt "fp")) ["realitySettings", "fingerprint"] ++
        ifItem query "pbk" (.str (query.itemDecodedTwice qt "pbk")) ["realitySettings", "publicKey"] ++
        ifItem query "spiderX" (.str (query.itemDecodedTwice qt "spiderX")) ["realitySettings", "spiderX"] ++
        ifItem query "sid" (.str (query.itemDecodedTwice qt "sid")) ["realitySettings", "shortId"]
    else [])

def streamOf : Object :=
  let type := query.itemD qt "type" "tcp"
  Object.setPaths [] (ifNot "tcp" type ["network"] ++ typeSettings qt query type ++ securitySettings qt query)

end Stream

/-! ## VLESS -/

namespace Vless

/-- A path in the first server, and in its first user. -/
def serverPath (key : String) : List PathKey := [.key "settings", .key "vnext", .index 0, .key key]

def userPath (key : String) : List PathKey :=
  [.key "settings", .key "vnext", .index 0, .key "users", .index 0, .key key]

def outbound (url : Url) : Object :=
  let bracketed := url.host.toList.head? = some '[' ∧ url.host.toList.getLast? = some ']'
  let host := if bracketed then String.ofList (url.host.toList.drop 1).dropLast else url.host
  let security := securityOf qt url.query
  Object.setPaths []
    ([([.key "protocol"], .str "vless"), (serverPath "address", .str host), (serverPath "port", .num url.port),
        (userPath "id", .str url.userInfo), (userPath "encryption", .str (url.query.itemD qt "encryption" "none"))] ++
      (if security = "xtls" ∨
        security = "reality" then [(userPath "flow", .str (url.query.item qt "flow"))] else []) ++
      [([.key "streamSettings"], .obj (streamOf qt url.query))])

def deserialize (str linkAlias : String) : Deserialized :=
  let url := qt.url str
  let remarks := if url.fragment ≠ "" then url.fragment else linkAlias
  if !Text.startsWith str "vless://" then ⟨[], linkAlias, "VLESS link should start with vless://"⟩
  else if !url.isValid then ⟨[], linkAlias, "link parse failed: " ++ url.errorString⟩
  else if url.host = "" then ⟨[], linkAlias, "empty host"⟩
  else if url.port = -1 then ⟨[], linkAlias, "missing port"⟩
  else if url.userInfo = "" then ⟨[], remarks, "missing uuid"⟩
  else ⟨rootOf (outbound qt url) "inbounds", remarks, ""⟩

end Vless

/-! ## Trojan -/

namespace Trojan

def trueList : List String := ["true", "1", "yes", "y"]

def isTrue (query : Query) (key : String) : Bool := qt.toLower (query.itemFullyDecoded qt key) ∈ trueList

/-- A missing port becomes 65535. -/
def server (url : Url) : TrojanObject where
  port := url.port % 65536
  address := url.host
  password := qt.fromPercentEncoding url.userInfo
  sni :=
    if url.query.hasItem "sni" then url.query.itemFullyDecoded qt "sni"
    else if url.query.hasItem "peer" then url.query.itemFullyDecoded qt "peer"
    else url.host
  ignoreCertificate := isTrue qt url.query "allowInsecure" || isTrue qt url.query "allowInsecureCertificate"
  ignoreHostname := isTrue qt url.query "allowInsecure" || isTrue qt url.query "allowInsecureHostname"
  sessionTicket := isTrue qt url.query "sessionTicket"
  tcpFastOpen := isTrue qt url.query "tfo"

def deserialize (trojanUri linkAlias : String) : Deserialized :=
  let url := qt.url (qt.trimmed trojanUri)
  let outbound := generateOutboundEntry outboundTagProxy "trojan" (generateTrojanOUT [server qt url]) []
  if !Text.startsWith trojanUri "trojan://" then ⟨[], linkAlias, "Invalid Trojan URI"⟩
  else ⟨rootOf (outbound.set "streamSettings" (.obj (streamOf qt url.query))) "inbounds",
    url.fragmentFullyDecoded, ""⟩

end Trojan

/-! ## Shadowsocks -/

namespace Ss

/-- The old scheme: everything is encoded. Missing separators are reported, and the parsing goes on. -/
def oldScheme (uri errMessage : String) : ShadowSocksServerObject × String :=
  let decoded := qt.fromBase64 uri
  let colon := Text.indexOf ':' decoded
  let errMessage := if colon = none then "Can't find the colon separator between method and password" else errMessage
  let rest := Text.after colon decoded
  let atSign := Text.lastIndexOf '@' rest
  let errMessage := if atSign = none then "Can't find the at separator between password and hostname" else errMessage
  let address := Text.after atSign rest
  let portColon := Text.lastIndexOf ':' address
  let errMessage := if portColon = none then "Can't find the colon separator between hostname and port" else errMessage
  ({ method := Text.before colon decoded
     password := Text.before atSign rest
     address := Text.before portColon address
     port := qt.toInt (Text.after portColon address) }, errMessage)

def deserialize (ssUri linkAlias : String) : Deserialized :=
  let errMessage := if ssUri.length < 5 then "SS URI is too short" else ""
  let uri := Text.drop 5 ssUri
  let hash := Text.lastIndexOf '#' uri
  let name := qt.fromPercentEncoding (if hash = none then "" else Text.after hash uri)
  let uri := Text.before hash uri
  let configOf (server : ShadowSocksServerObject) (errMessage : String) : Deserialized :=
    ⟨rootOf (generateOutboundEntry outboundTagProxy "shadowsocks" (generateShadowSocksOUT [server]) []) "inbounds",
      if linkAlias = "" then name else linkAlias ++ "_" ++ name, errMessage⟩
  if Text.indexOf '@' uri = none then
    let old := oldScheme qt uri errMessage
    configOf old.1 old.2
  else
    let x := qt.urlFromUserInput uri
    let userInfo := safeBase64Decode qt x.userName
    let colon := Text.indexOf ':' userInfo
    if colon = none then ⟨[], linkAlias, "Can't find the colon separator between method and password"⟩
    else configOf ⟨x.host, Text.before colon userInfo, Text.after colon userInfo, x.port⟩ errMessage

end Ss

/-! ## VMess -/

namespace VMess

/-- `__vmess_checker__func`: the value of the key, or the first of the candidates where it is empty or is none of them.
-/
def checker (conf : Object) (key : String) (values : List String) : Option String :=
  let text := variantText qt (conf.value key)
  if conf.contains key ∧ qt.trimmed text ≠ "" ∧ (values.length ≤ 1 ∨ text ∈ values) then some text
    else values.head?

/-- The first version has the path in the host. -/
def upgrade (conf : Object) : Object :=
  let network := (conf.value "net").toText
  if !conf.contains "v" ∧ (network = "ws" ∨ network = "h2") then
    match Text.split (Text.remove " " (conf.value "host").toText) ';' with
    | [path] => (conf.set "path" (.str path)).set "host" (.str "")
    | [path, host] => (conf.set "path" (.str path)).set "host" (.str host)
    | _ => (conf.set "path" (.str "/")).set "host" (.str "")
  else conf

def streaming (net type tls host path : String) : StreamSettingsObject :=
  let s : StreamSettingsObject :=
    if net = "tcp" then { tcpHeaderType := type }
    else if net = "http" ∨ net = "h2" then
      { httpHost := ((Text.split host ',').filter (· ≠ "")).map qt.trimmed, httpPath := path }
    else if net = "ws" then { wsHeaders := if host ≠ "" then [("Host", host)] else [], wsPath := path }
    else if net = "kcp" then { kcpHeaderType := type }
    else if net = "quic" then { quicSecurity := host, quicHeaderType := type, quicKey := path }
    else if net = "grpc" then { grpcServiceName := path }
    else {}
  { s with
    security := tls
    tlsServerName := if tls = "tls" then host else s.tlsServerName
    network := if net = "h2" then "http" else net }

def outbound (conf : Object) : Object :=
  let scy := (checker qt conf "scy" ["aes-128-gcm", "chacha20-poly1305", "auto", "none", "zero"]).getD ""
  let type := (checker qt conf "type" ["none", "http", "srtp", "utp", "wechat-video"]).getD ""
  let net := (checker qt conf "net" ["tcp", "http", "h2", "ws", "kcp", "quic", "grpc"]).getD ""
  let tls := (checker qt conf "tls" ["none", "tls"]).getD ""
  let path := if conf.contains "path" then variantText qt (conf.value "path") else if net = "quic" then "" else "/"
  let host := if conf.contains "host" then variantText qt (conf.value "host") else if net = "quic" then "none" else ""
  let type := if type ∈ ["srtp", "utp", "wechat-video"] ∧ net ≠ "quic" ∧ net ≠ "kcp" then "none" else type
  let user : UserObject := ⟨(checker qt conf "id" []).getD "", variantInt qt (conf.value "aid"), scy⟩
  let server : VMessServerObject := ⟨(checker qt conf "add" []).getD "", variantInt qt (conf.value "port"), user⟩
  generateOutboundEntry outboundTagProxy "vmess" [("vnext", .arr [.obj (server.toJson qt.memory)])]
    (streaming qt net type tls host path).toJson

/-- The configuration. A missing address or id is reported. -/
def configOf (conf : Object) (linkAlias : String) : Deserialized :=
  let ps :=
    (checker qt conf "ps" [variantText qt (conf.value "add") ++ ":" ++ variantText qt (conf.value "port")]).getD ""
  { object := rootOf (outbound qt conf) "inbounds"
    linkAlias := if qt.trimmed linkAlias = "" then ps else linkAlias ++ "_" ++ ps
    errMessage :=
      if checker qt conf "id" [] = none then "id does not exist."
      else if checker qt conf "add" [] = none then "add does not exist."
      else "" }

def deserialize (vmessStr linkAlias : String) : Deserialized :=
  let vmess := qt.trimmed vmessStr
  let b64Str := Text.drop 8 vmess
  let vmessString := safeBase64Decode qt b64Str
  let jsonErr := verifyJsonString qt vmessString
  let vmessConf := jsonFromString qt vmessString
  if !Text.startsWith (qt.toLower vmess) "vmess://" then ⟨[], linkAlias,
    "VMess string should start with 'vmess://'"⟩
  else if b64Str = "" then ⟨[], linkAlias, "VMess string should be a valid base64 string"⟩
  else if jsonErr ≠ "" then ⟨[], linkAlias, jsonErr⟩
  else if vmessConf = [] then ⟨[], linkAlias, "JSON should not be empty"⟩
  else configOf qt (upgrade vmessConf) linkAlias

end VMess

/-! ## VMess, new scheme -/

namespace VMessNew

def networkType : List String := ["tcp", "http", "ws", "kcp", "quic", "grpc"]

def falseTypes : List String := ["false", "False", "No", "Off", "0"]

/-- The query that the values are read from. The closure that does it is static and refers to the query of the first
call: later calls read what has come to its place. -/
def captured (closure : Option Query) (url : Url) : Query := closure.getD url.query

def queryValue (query : Query) (key default : String) : String :=
  if query.hasItem key then query.itemFullyDecoded qt key else default

def streaming (query : Query) (net : String) (tls : Bool) : StreamSettingsObject :=
  let value := queryValue qt query
  let s : StreamSettingsObject :=
    if net = "tcp" then { tcpHeaderType := value "type" "none" }
    else if net = "http" then { httpHost := [value "host" ""], httpPath := value "path" "/" }
    else if net = "ws" then { wsHeaders := [("Host", value "host" "")], wsPath := value "path" "/" }
    else if net = "kcp" then { kcpSeed := value "seed" "", kcpHeaderType := value "type" "none" }
    else if net = "quic" then
      { quicSecurity := value "security" "none", quicKey := value "key" "", quicHeaderType := value "type" "none" }
    else { grpcServiceName := value "serviceName" "" }
  { s with
    network := net
    security := if tls then "tls" else ""
    tlsAllowInsecure := tls && value "allowInsecure" "false" ∉ falseTypes
    tlsServerName := if tls then value "tlsServerName" "" else "" }

def deserialize (closure : Option Query) (vmessStr linkAlias : String) : Deserialized :=
  let url := qt.url vmessStr
  let name := qt.trimmed url.fragmentFullyDecoded
  let fullAlias := if linkAlias = "" then name else linkAlias ++ "_" ++ name
  let protocols := Text.split url.userName '+'
  let tls := "tls" ∈ protocols
  let net := ((protocols.filter (· ≠ "tls")).getLast?).getD ""
  let dash := Text.lastIndexOf '-' url.password
  let user : UserObject := ⟨Text.before dash url.password, qt.toInt (Text.after dash url.password), "auto"⟩
  let server : VMessServerObject := ⟨url.host, url.port, user⟩
  let outbound := generateOutboundEntry outboundTagProxy "vmess" [("vnext", .arr [.obj (server.toJson qt.memory)])]
    (streaming qt (captured closure url) net tls).toJson
  if !url.isValid then ⟨[], linkAlias, "vmess:// url is invalid"⟩
  else if net ∉ networkType then ⟨[], fullAlias, "Invalid streamSettings protocol: " ++ net⟩
  else ⟨rootOf outbound "inbound", fullAlias, ""⟩

end VMessNew

/-! ## SSD -/

namespace Ssd

structure SsdResult where
  servers : List (String × Object)
  logList : List String
  deriving DecidableEq

/-- `MUST_EXIST` and the check of the type; the error otherwise. -/
def must (obj : Object) (fieldName : String) (ofType : Json → Bool) (typeError : String) : Except String Json :=
  match obj.value fieldName with
  | none | some .null => .error ("Invalid ssd link: json: field " ++ fieldName ++ " must exist")
  | some v => if ofType v then .ok v else .error typeError

def mustString (obj : Object) (fieldName : String) : Except String String :=
  (must obj fieldName (fun v => (Value.text? (some v)).isSome)
    ("Invalid ssd link: json: field " ++ fieldName ++ " must be of type 'string'")).map fun v => Value.toText (some v)

/-- The name of the field is not filled in. -/
def mustPort (obj : Object) (fieldName : String) : Except String Int :=
  (must obj fieldName (fun v => 0 ≤ Value.toInt (some v) (-1) ∧ Value.toInt (some v) (-1) ≤ 65535)
    "Invalid ssd link: json: field %1 must be valid port number").map fun v => Value.toInt (some v)

def mustArray (obj : Object) (fieldName : String) : Except String (List Json) :=
  (must obj fieldName (fun v => match v with | .arr _ => true | _ => false)
    ("Invalid ssd link: json: field " ++ fieldName ++ " must be an array")).map fun v => Value.toArray (some v)

def serverOf (groupName : String) (port : Int) (encryption password : String) :
    Json → Except String (String × Object)
  | .obj serverObject =>
    match Object.value serverObject "server" with
    | none => .error "Skipping invalid ssd server: missing required field server"
    | some (.str address) =>
      let currPort := Value.toInt (Object.value serverObject "port") (-1)
      let port := if 0 ≤ currPort ∧ currPort ≤ 65535 then currPort else port
      let node :=
        match Object.value serverObject "remarks" with
        | some (.str remarks) => remarks
        | _ => address ++ ":" ++ toString port
      let ratio :=
        match Object.value serverObject "ratio" with
        | some (.num x) => if x ≠ -1 then x else 1
        | _ => 1
      let server : ShadowSocksServerObject := ⟨address, encryption, password, port⟩
      .ok (qt.nodeName groupName node ratio ++ ")",
        rootOf (generateOutboundEntry outboundTagProxy "shadowsocks" (generateShadowSocksOUT [server]) []) "inbounds")
    | some _ => .error "Skipping invalid ssd server: field server should be of type 'string'"
  | _ => .error "Skipping invalid ssd server: server must be an object"

def serversOf (obj : Object) : Except String SsdResult := do
  let groupName ← mustString obj "airport"
  let port ← mustPort obj "port"
  let encryption ← mustString obj "encryption"
  if qt.toLower encryption = "rc4-md5" then
    .error "Invalid ssd link: rc4-md5 encryption is not supported by v2ray-core"
  else
    let password ← mustString obj "password"
    let servers ← mustArray obj "servers"
    let results := servers.map (serverOf qt groupName port encryption password)
    .ok
      { servers := results.filterMap fun r => r.toOption
        logList := results.filterMap fun r => match r with | .ok _ => none | .error e => some e }

def deserialize (uri : String) : SsdResult :=
  let decodedJSON := safeBase64Decode qt (Text.drop 6 uri)
  let failed (e : String) : SsdResult := ⟨[], [e]⟩
  if !Text.startsWith uri "ssd://" then failed "Invalid ssd link: should begin with ssd://"
  else if decodedJSON = "" then failed "Invalid ssd link: base64 parse failed"
  else if verifyJsonString qt decodedJSON ≠ "" then failed "Invalid ssd link: json parse failed"
  else
    match serversOf qt (jsonFromString qt decodedJSON) with
    | .ok result => result
    | .error e => failed e

end Ssd

/-! ## What is reported -/

def outboundsOf (object : Object) : List Json := (object.value "outbounds").toArray

theorem outboundsOf_rootOf (outbound : Object) (inboundsKey : String) :
    outboundsOf (rootOf outbound inboundsKey) = [.obj outbound] := by
  simp [outboundsOf, rootOf, Object.value_cons]

inductive LinkFormat
  | vless
  | vmessNew
  | vmess
  | trojan
  | ss
  deriving DecidableEq

/-- The function for a format, called with empty texts. -/
def deserialize (closure : Option Query) : LinkFormat → String → Deserialized
  | .vless, data => Vless.deserialize qt data ""
  | .vmessNew, data => VMessNew.deserialize qt closure data ""
  | .vmess, data => VMess.deserialize qt data ""
  | .trojan, data => Trojan.deserialize qt data ""
  | .ss, data => Ss.deserialize qt data ""

variable {qt}

/-- An error and no configuration, or a configuration with one outbound. -/
def Deserialized.Complete (d : Deserialized) : Prop :=
  d.errMessage = "" → ∃ outbound, outboundsOf d.object = [outbound]

variable {object : Object}

theorem complete_of_error {linkAlias errMessage : String} (h : errMessage ≠ "") :
    Deserialized.Complete ⟨object, linkAlias, errMessage⟩ := fun he => absurd he h

theorem complete_rootOf (outbound : Object) (inboundsKey linkAlias errMessage : String) :
    Deserialized.Complete ⟨rootOf outbound inboundsKey, linkAlias, errMessage⟩ :=
      fun _ => ⟨_, outboundsOf_rootOf _ _⟩

theorem append_ne_empty {a b : String} (h : a ≠ "") : a ++ b ≠ "" := by
  simp [h]

theorem Ssd.serverOf_name {groupName encryption password name : String} {port : Int} {server : Json}
    (h : serverOf qt groupName port encryption password server = .ok (name, object)) :
    ∃ text, name = text ++ ")" := by
  unfold serverOf at h
  split at h
  · split at h
    · cases h
    · cases h
      exact ⟨_, rfl⟩
    · cases h
  · cases h

theorem bind_eq_ok {ε α β : Type} {x : Except ε α} {f : α → Except ε β} {b : β} (h : x >>= f = .ok b) :
    ∃ a, x = .ok a ∧ f a = .ok b := by
  cases x with
  | error e => cases h
  | ok a => exact ⟨a, rfl, h⟩

theorem Ssd.serversOf_name {obj object : Object} {name : String} {result : SsdResult}
    (h : serversOf qt obj = .ok result)
    (hm : (name, object) ∈ result.servers) : ∃ text, name = text ++ ")" := by
  obtain ⟨groupName, -, h⟩ := bind_eq_ok h
  obtain ⟨port, -, h⟩ := bind_eq_ok h
  obtain ⟨encryption, -, h⟩ := bind_eq_ok h
  split at h
  · cases h
  obtain ⟨password, -, h⟩ := bind_eq_ok h
  obtain ⟨servers, -, h⟩ := bind_eq_ok h
  cases h
  obtain ⟨r, hr, hso⟩ := List.mem_filterMap.mp hm
  obtain ⟨server, -, rfl⟩ := List.mem_map.mp hr
  cases hs : serverOf qt groupName port encryption password server with
  | error e => rw [hs] at hso; cases hso
  | ok named =>
    rw [hs] at hso
    cases hso
    exact serverOf_name hs

theorem Ssd.name_of_mem {uri name : String} (h : (name, object) ∈ (Ssd.deserialize qt uri).servers) :
    ∃ text, name = text ++ ")" := by
  unfold deserialize at h
  dsimp only at h
  split at h
  · cases h
  split at h
  · cases h
  split at h
  · cases h
  split at h
  next result hr => exact serversOf_name hr h
  · cases h

theorem Vless.complete (str linkAlias : String) : (deserialize qt str linkAlias).Complete := by
  unfold deserialize
  dsimp only
  split
  · exact complete_of_error (by decide)
  split
  · exact complete_of_error (append_ne_empty (by decide))
  split
  · exact complete_of_error (by decide)
  split
  · exact complete_of_error (by decide)
  split
  · exact complete_of_error (by decide)
  · exact complete_rootOf _ _ _ _

theorem VMessNew.complete (closure : Option Query) (vmessStr linkAlias : String) :
    (deserialize qt closure vmessStr linkAlias).Complete := by
  unfold deserialize
  dsimp only
  split
  · exact complete_of_error (by decide)
  split
  · exact complete_of_error (append_ne_empty (by decide))
  · exact complete_rootOf _ _ _ _

theorem VMess.complete (vmessStr linkAlias : String) : (deserialize qt vmessStr linkAlias).Complete := by
  unfold deserialize
  dsimp only
  split
  · exact complete_of_error (by decide)
  split
  · exact complete_of_error (by decide)
  split
  next hjs => exact complete_of_error hjs
  split
  · exact complete_of_error (by decide)
  · exact complete_rootOf _ _ _ _

theorem Trojan.complete (trojanUri linkAlias : String) : (deserialize qt trojanUri linkAlias).Complete := by
  unfold deserialize
  dsimp only
  split
  · exact complete_of_error (by decide)
  · exact complete_rootOf _ _ _ _

theorem Ss.complete (ssUri linkAlias : String) : (deserialize qt ssUri linkAlias).Complete := by
  unfold deserialize
  dsimp only
  split
  · exact complete_rootOf _ _ _ _
  split
  · exact complete_of_error (by decide)
  · exact complete_rootOf _ _ _ _

/-- **Where no error is reported there is an outbound.** -/
theorem outbounds_of_no_error (closure : Option Query) (format : LinkFormat) (data : String)
    (h : (deserialize qt closure format data).errMessage = "") :
    outboundsOf (deserialize qt closure format data).object ≠ [] := by
  have hc : (deserialize qt closure format data).Complete := by
    cases format with
    | vless => rw [deserialize]; exact Vless.complete data ""
    | vmessNew => rw [deserialize]; exact VMessNew.complete closure data ""
    | vmess => rw [deserialize]; exact VMess.complete data ""
    | trojan => rw [deserialize]; exact Trojan.complete data ""
    | ss => rw [deserialize]; exact Ss.complete data ""
  obtain ⟨outbound, ho⟩ := hc h
  rw [ho]
  exact List.cons_ne_nil _ _

end Cimogus.Client.Serialization
