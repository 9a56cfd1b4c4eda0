import Cimogus.Lib.Json

/-!
# Inbounds and outbounds

The entries of an Xray configuration that share links are turned into, and the settings of a connection (`transfer.h`),
whose members are written only where they differ from their defaults. Of the settings those are left out that no link
changes.
-/

namespace Cimogus.Client.Serialization

open Lib Lib.Json

/-! ## Inbounds and outbounds -/

def generateInboundEntry : Object :=
  [("listen", .str "127.0.0.1"), ("port", .num 10833), ("protocol", .str "socks"),
    ("settings", .obj [("udp", .bool true)])]

def generateOutboundEntry (tag protocol : String) (settings streamSettings : Object) : Object :=
  [("sendThrough", .str "0.0.0.0"), ("protocol", .str protocol), ("settings", .obj settings), ("tag", .str tag),
    ("streamSettings", .obj streamSettings), ("mux", .obj [])]

def outboundTagProxy : String := "PROXY"

structure ShadowSocksServerObject where
  address : String
  method : String
  password : String
  port : Int

def generateShadowSocksServerOUT (server : ShadowSocksServerObject) : Object :=
  [("address", .str server.address), ("port", .num server.port), ("method", .str server.method),
    ("password", .str server.password)]

def generateShadowSocksOUT (servers : List ShadowSocksServerObject) : Object :=
  [("servers", .arr (servers.map fun server => .obj (generateShadowSocksServerOUT server)))]

structure TrojanObject where
  /-- A `quint16`. -/
  port : Int
  address : String
  password : String
  sni : String
  ignoreCertificate : Bool
  ignoreHostname : Bool
  sessionTicket : Bool
  tcpFastOpen : Bool

def generateTrojanServerOUT (server : TrojanObject) : Object :=
  [("address", .str server.address), ("port", .num server.port), ("password", .str server.password)]

def generateTrojanOUT (servers : List TrojanObject) : Object :=
  [("servers", .arr (servers.map fun server => .obj (generateTrojanServerOUT server)))]

/-! ## Settings that are written where they differ -/

def member {α : Type} [DecidableEq α] (name : String) (default value : α) (json : α → Json) : Object :=
  if default = value then [] else [(name, json value)]

theorem value_member_append {α : Type} [DecidableEq α] (name key : String) (default value : α) (json : α → Json)
    (rest : Object) :
    Object.value (member name default value json ++ rest) key =
      if key = name ∧ default ≠ value then some (json value) else Object.value rest key := by
  unfold member
  split
  next heq => simp [heq]
  next hne => simp [hne, Object.value_cons]

/-- Settings that are all at their defaults are at theirs. -/
def settings (name : String) (members : Object) : Object := member name [] members .obj

def texts (l : List String) : Json := .arr (l.map .str)

structure UserObject where
  id : String
  alterId : Int
  security : String

def UserObject.toJson (user : UserObject) : Object :=
  member "id" "" user.id .str ++ member "alterId" 0 user.alterId (fun n => .num n) ++
    member "security" "auto" user.security .str

structure VMessServerObject where
  address : String
  port : Int
  user : UserObject

/-- The default of the port is not initialised in the source: `memory` is what is found there. -/
def VMessServerObject.toJson (memory : Int) (server : VMessServerObject) : Object :=
  member "address" "" server.address .str ++ member "port" memory server.port (fun n => .num n) ++
    [("users", .arr [.obj server.user.toJson])]

structure StreamSettingsObject where
  network : String := "tcp"
  security : String := "none"
  tcpHeaderType : String := "none"
  tlsServerName : String := ""
  tlsAllowInsecure : Bool := false
  kcpHeaderType : String := "none"
  kcpSeed : String := ""
  wsPath : String := "/"
  wsHeaders : List (String × String) := []
  httpHost : List String := []
  httpPath : String := "/"
  quicSecurity : String := "none"
  quicKey : String := ""
  quicHeaderType : String := "none"
  grpcServiceName : String := ""

def StreamSettingsObject.toJson (s : StreamSettingsObject) : Object :=
  let header (type : String) : Object := settings "header" (member "type" "none" type .str)
  member "network" "tcp" s.network .str ++ member "security" "none" s.security .str ++
    settings "tcpSettings" (header s.tcpHeaderType) ++
    settings "tlsSettings"
    (member "serverName" "" s.tlsServerName .str ++ member "allowInsecure" false s.tlsAllowInsecure .bool) ++
    settings "kcpSettings" (header s.kcpHeaderType ++ member "seed" "" s.kcpSeed .str) ++
    settings "wsSettings" (member "path" "/" s.wsPath .str ++
      settings "headers" (s.wsHeaders.map fun (name, value) => (name, .str value))) ++
    settings "httpSettings" (member "host" [] s.httpHost texts ++ member "path" "/" s.httpPath .str) ++
    settings "quicSettings" (member "security" "none" s.quicSecurity .str ++ member "key" "" s.quicKey .str ++
      header s.quicHeaderType) ++ settings "grpcSettings" (member "serviceName" "" s.grpcServiceName .str)

end Cimogus.Client.Serialization
