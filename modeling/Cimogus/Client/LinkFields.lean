import Cimogus.Client.CleanLinks

/-!
# The fields of a VMess link

The JSON of a link goes through a check against lists of values, an upgrade of the first version and several
conversions, and becomes a server, a user and stream settings, of which what differs from the defaults is written.
-/

namespace Cimogus.Client.Serialization.VMess

open Lib Lib.Json List

/-! ## Links -/

def scyValues : List String := ["aes-128-gcm", "chacha20-poly1305", "auto", "none", "zero"]

def netValues : List String := ["tcp", "http", "h2", "ws", "kcp", "quic", "grpc"]

def tlsValues : List String := ["none", "tls"]

structure Fields where
  (add id scy net tls : String)
  (port alterId : Int)
  (sni host path : Option String)
  nonempty : add ≠ "" ∧ id ≠ ""
  accepted : scy ∈ scyValues ∧ net ∈ netValues ∧ tls ∈ tlsValues
  port_ok : 1 ≤ port ∧ port ≤ 65535

variable (qt : Qt)

/-- A number, or a text that is read as one. -/
def IsNumber (v : Value) (n : Int) : Prop :=
  v = some (.num n) ∧ qt.numberInt n = n ∨ ∃ s, v = some (.str s) ∧ qt.toInt s = n

/-- The link has the fields, with the alter id under either name. -/
structure Carries (vmessStr : String) (conf : Object) (f : Fields) : Prop where
  scheme : Text.startsWith (qt.toLower (qt.trimmed vmessStr)) "vmess://" = true
  encoded : Text.drop 8 (qt.trimmed vmessStr) ≠ ""
  json : verifyJsonString qt (safeBase64Decode qt (Text.drop 8 (qt.trimmed vmessStr))) = "" ∧
    jsonFromString qt (safeBase64Decode qt (Text.drop 8 (qt.trimmed vmessStr))) = conf
  version : conf.contains "v" = true
  members : ∀ m ∈ [("add", f.add), ("id", f.id), ("scy", f.scy), ("net", f.net), ("tls", f.tls)],
    conf.value m.1 = some (.str m.2)
  options : ∀ m ∈ [("sni", f.sni), ("host", f.host), ("path", f.path)], conf.value m.1 = m.2.map .str
  port : IsNumber qt (conf.value "port") f.port
  alterId : IsNumber qt (conf.value "aid") f.alterId ∨ conf.value "aid" = none ∧
    IsNumber qt (conf.value "alterId") f.alterId

namespace Fields

variable (f : Fields)

def hostText : String := f.host.getD (if f.net = "quic" then "none" else "")

def pathText : String := f.path.getD (if f.net = "quic" then "" else "/")

/-- Where the host and the path belong for the network, with what a missing field stands for. -/
def networkFields : List (List String × Json × Json) :=
  if f.net = "http" ∨ f.net = "h2" then
    [(["httpSettings", "host"], texts [], texts (((Text.split f.hostText ',').filter (· ≠ "")).map qt.trimmed)),
      (["httpSettings", "path"], .str "/", .str f.pathText)]
  else if f.net = "ws" then
    [(["wsSettings", "headers", "Host"], .str "", .str f.hostText), (["wsSettings", "path"], .str "/", .str f.pathText)]
  else if f.net = "quic" then
    [(["quicSettings", "security"], .str "none", .str f.hostText), (["quicSettings", "key"], .str "", .str f.pathText)]
  else if f.net = "grpc" then [(["grpcSettings", "serviceName"], .str "", .str f.pathText)]
  else []

/-- The server name for TLS. -/
def serverName : String := if f.sni.getD "" ≠ "" then f.sni.getD "" else f.hostText

def streamFields : List (List String × Json × Json) :=
  [(["network"], .str "tcp", .str (if f.net = "h2" then "http" else f.net)), (["security"], .str "none", .str f.tls)] ++
    f.networkFields qt ++ if f.tls = "tls" then [(["tlsSettings", "serverName"], .str "", .str f.serverName)] else []

/-- All fields of the outbound; there is no value that a missing port stands for. -/
def fields : List (List PathKey × Json × Json) :=
  [(Vless.serverPath "address", .str "", .str f.add), (Vless.serverPath "port", .null, .num f.port),
      (Vless.userPath "id", .str "", .str f.id), (Vless.userPath "alterId", .num 0, .num f.alterId),
      (Vless.userPath "security", .str "auto", .str f.scy)] ++
    (f.streamFields qt).map fun field => (.key "streamSettings" :: Serialization.path field.1, field.2)

end Fields

/-- The first outbound has the fields. -/
def Arrive (d : Deserialized) (fields : List (List PathKey × Json × Json)) : Prop :=
  ∃ outbound, (outboundsOf d.object).head? = some outbound ∧ ∀ field ∈ fields,
    (valueAt field.1 (some outbound)).getD field.2.1 = field.2.2

/-! ## Writing -/

variable {qt}

section Members

variable {α : Type} [DecidableEq α] {name key : String} {default value : α} {json : α → Json}
    {members rest : Object}

end Members

variable {conf : Object}

/-- A link for WebSocket with TLS. -/
def exampleFields (sni : String) : Fields :=
  ⟨"a", "i", "auto", "ws", "tls", 443, 0, some sni, some "h", some "/", by decide, by decide, by decide⟩

def exampleConf (sni : String) : Object :=
  [("v", .str "2"), ("add", .str "a"), ("id", .str "i"), ("scy", .str "auto"), ("net", .str "ws"), ("tls", .str "tls"),
    ("port", .num (443 : Int)), ("aid", .num (0 : Int)), ("sni", .str sni), ("host", .str "h"), ("path", .str "/")]

def exampleQt (sni : String) : Qt := { bareQt with fromBase64 := id, fromJson := fun _ => .ok (.obj (exampleConf sni)) }

theorem exampleQt_carries (sni : String) :
    Carries (exampleQt sni) "vmess://x" (exampleConf sni) (exampleFields sni) where
  scheme := (by decide : Text.startsWith "vmess://x" "vmess://" = true)
  encoded := (by decide : Text.drop 8 "vmess://x" ≠ "")
  json := ⟨rfl, rfl⟩
  version := rfl
  members := by simp [exampleConf, exampleFields, Object.value_cons]
  options := by simp [exampleConf, exampleFields, Object.value_cons]
  port := .inl ⟨rfl, rfl⟩
  alterId := .inl (.inl ⟨rfl, rfl⟩)

end Cimogus.Client.Serialization.VMess
