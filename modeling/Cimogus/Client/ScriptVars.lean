import Cimogus.Client.ServerController
import Cimogus.Lib.Json
import Cimogus.Lib.Substitution
import Mathlib.Data.List.Pairwise

/-!
# The variables of scripts

`ServerController::genVarsForScript` makes the list of the variables and their values, and `replaceVars` replaces one
after the other in the whole script, so that a value is searched for the variables that come later.
-/

namespace Cimogus.Client.ServerController

open Lib.Json Lib.Substitution List

abbrev Vars := List (String × String)

/-- What the settings and the system have for the variables. -/
structure VarsEnv where
  primaryDns : String
  secondaryDns : String
  /-- `NetworkUtilities::getIPAddress`. -/
  getIPAddress : String → String

/-- `toString` with a default. -/
def textOr (v : Value) (default : String) : String := v.text?.getD default

def boolOr (v : Value) (default : Bool) : Bool :=
  match v with
  | some (.bool b) => b
  | _ => default

def genVarsForScript (env : VarsEnv) (credentials : ServerCredentials) (container : DockerContainer)
    (config : Object) : Vars :=
  let openvpnConfig := (config.value "openvpn").toObject
  let cloakConfig := (config.value "cloak").toObject
  let ssConfig := (config.value "shadowsocks").toObject
  let wireguarConfig := (config.value "wireguard").toObject
  let amneziaWireguarConfig := (config.value "awg").toObject
  let xrayConfig := (config.value "xray").toObject
  let sftpConfig := (config.value "sftp").toObject
  let socks5ProxyConfig := (config.value "socks5proxy").toObject
  let isNcpDisabled := boolOr (openvpnConfig.value "ncp_disable") false
  let isTlsAuth := boolOr (openvpnConfig.value "tls_auth") true
  let username := (socks5ProxyConfig.value "userName").toText
  let password := (socks5ProxyConfig.value "password").toText
  let socks5user := if username ≠ "" ∧ password ≠ "" then "users " ++ username ++ ":CL:" ++ password else ""
  let serverIp :=
    if container ≠ .Awg ∧ container ≠ .WireGuard ∧
      container ≠ .Xray then env.getIPAddress credentials.hostName
    else credentials.hostName
  [("$REMOTE_HOST", credentials.hostName),
    ("$OPENVPN_SUBNET_IP", textOr (openvpnConfig.value "subnet_address") "10.8.0.0"),
    ("$OPENVPN_SUBNET_CIDR", textOr (openvpnConfig.value "subnet_cidr") "24"),
    ("$OPENVPN_SUBNET_MASK", textOr (openvpnConfig.value "subnet_mask") "255.255.255.0"),
    ("$OPENVPN_PORT", textOr (openvpnConfig.value "port") "1194"),
    ("$OPENVPN_TRANSPORT_PROTO", textOr (openvpnConfig.value "transport_proto") "udp"),
    ("$OPENVPN_NCP_DISABLE", if isNcpDisabled then "ncp-disable" else ""),
    ("$OPENVPN_CIPHER", textOr (openvpnConfig.value "cipher") "AES-256-GCM"),
    ("$OPENVPN_HASH", textOr (openvpnConfig.value "hash") "SHA512"),
    ("$OPENVPN_TLS_AUTH", if isTlsAuth then "tls-auth /opt/amnezia/openvpn/ta.key 0" else "")] ++
  -- the key is not to be set later
  (if isTlsAuth then [] else [("$OPENVPN_TA_KEY", "")]) ++
  [("$OPENVPN_ADDITIONAL_CLIENT_CONFIG", textOr (openvpnConfig.value "additional_client_config") ""),
    ("$OPENVPN_ADDITIONAL_SERVER_CONFIG", textOr (openvpnConfig.value "additional_server_config") ""),
    ("$SHADOWSOCKS_SERVER_PORT", textOr (ssConfig.value "port") "6789"),
    ("$SHADOWSOCKS_LOCAL_PORT", textOr (ssConfig.value "local_port") "8585"),
    ("$SHADOWSOCKS_CIPHER", textOr (ssConfig.value "cipher") "chacha20-ietf-poly1305"),
    ("$CONTAINER_NAME", containerToString container),
    ("$DOCKERFILE_FOLDER", "/opt/amnezia/" ++ containerToString container),
    ("$CLOAK_SERVER_PORT", textOr (cloakConfig.value "port") "443"),
    ("$FAKE_WEB_SITE_ADDRESS", textOr (cloakConfig.value "site") "tile.openstreetmap.org"),
    ("$XRAY_SITE_NAME", textOr (xrayConfig.value "site") "www.googletagmanager.com"),
    ("$XRAY_SERVER_PORT", textOr (xrayConfig.value "port") "443"),
    ("$WIREGUARD_SUBNET_IP", textOr (wireguarConfig.value "subnet_address") "10.8.1.0"),
    ("$WIREGUARD_SUBNET_CIDR", textOr (wireguarConfig.value "subnet_cidr") "24"),
    ("$WIREGUARD_SUBNET_MASK", textOr (wireguarConfig.value "subnet_mask") "255.255.255.0"),
    ("$WIREGUARD_SERVER_PORT", textOr (wireguarConfig.value "port") "51820"),
    ("$IPSEC_VPN_L2TP_NET", "192.168.42.0/24"),
    ("$IPSEC_VPN_L2TP_POOL", "192.168.42.10-192.168.42.250"), ("$IPSEC_VPN_L2TP_LOCAL", "192.168.42.1"),
    ("$IPSEC_VPN_XAUTH_NET", "192.168.43.0/24"), ("$IPSEC_VPN_XAUTH_POOL", "192.168.43.10-192.168.43.250"),
    ("$IPSEC_VPN_SHA2_TRUNCBUG", "yes"), ("$IPSEC_VPN_VPN_ANDROID_MTU_FIX", "yes"), ("$IPSEC_VPN_DISABLE_IKEV2", "no"),
    ("$IPSEC_VPN_DISABLE_L2TP", "no"), ("$IPSEC_VPN_DISABLE_XAUTH", "no"), ("$IPSEC_VPN_C2C_TRAFFIC", "no"),
    ("$PRIMARY_SERVER_DNS", env.primaryDns), ("$SECONDARY_SERVER_DNS", env.secondaryDns),
    ("$SFTP_PORT", textOr (sftpConfig.value "port") "222"), ("$SFTP_USER", (sftpConfig.value "userName").toText),
    ("$SFTP_PASSWORD", (sftpConfig.value "password").toText),
    ("$AWG_SERVER_PORT", textOr (amneziaWireguarConfig.value "port") "55424"),
    ("$JUNK_PACKET_COUNT", (amneziaWireguarConfig.value "Jc").toText),
    ("$JUNK_PACKET_MIN_SIZE", (amneziaWireguarConfig.value "Jmin").toText),
    ("$JUNK_PACKET_MAX_SIZE", (amneziaWireguarConfig.value "Jmax").toText),
    ("$INIT_PACKET_JUNK_SIZE", (amneziaWireguarConfig.value "S1").toText),
    ("$RESPONSE_PACKET_JUNK_SIZE", (amneziaWireguarConfig.value "S2").toText),
    ("$INIT_PACKET_MAGIC_HEADER", (amneziaWireguarConfig.value "H1").toText),
    ("$RESPONSE_PACKET_MAGIC_HEADER", (amneziaWireguarConfig.value "H2").toText),
    ("$UNDERLOAD_PACKET_MAGIC_HEADER", (amneziaWireguarConfig.value "H3").toText),
    ("$TRANSPORT_PACKET_MAGIC_HEADER", (amneziaWireguarConfig.value "H4").toText),
    ("$SOCKS5_PROXY_PORT", textOr (socks5ProxyConfig.value "port") "38080"), ("$SOCKS5_USER", socks5user),
    ("$SOCKS5_AUTH_TYPE", if socks5user = "" then "none" else "strong")] ++
  if serverIp = "" then [] else [("$SERVER_IP_ADDRESS", serverIp)]

/-- `QString::replace`. -/
def replace (before after s : String) : String := String.ofList (substitute [(before.toList, after.toList)] s.toList)

def replaceVars (script : String) (vars : Vars) : String := vars.foldl (fun s var => replace var.1 var.2 s) script

/-- The script with all values in place of the variables at once. -/
def substituted (script : String) (vars : Vars) : String :=
  String.ofList (substitute (vars.map fun var => (var.1.toList, var.2.toList)) script.toList)

/-! ## The names -/

def varNames : List String :=
  ["$REMOTE_HOST", "$OPENVPN_SUBNET_IP", "$OPENVPN_SUBNET_CIDR", "$OPENVPN_SUBNET_MASK", "$OPENVPN_PORT",
    "$OPENVPN_TRANSPORT_PROTO",
    "$OPENVPN_NCP_DISABLE", "$OPENVPN_CIPHER", "$OPENVPN_HASH", "$OPENVPN_TLS_AUTH"] ++ ["$OPENVPN_TA_KEY"] ++
  ["$OPENVPN_ADDITIONAL_CLIENT_CONFIG", "$OPENVPN_ADDITIONAL_SERVER_CONFIG", "$SHADOWSOCKS_SERVER_PORT",
    "$SHADOWSOCKS_LOCAL_PORT",
    "$SHADOWSOCKS_CIPHER", "$CONTAINER_NAME", "$DOCKERFILE_FOLDER", "$CLOAK_SERVER_PORT", "$FAKE_WEB_SITE_ADDRESS",
    "$XRAY_SITE_NAME",
    "$XRAY_SERVER_PORT", "$WIREGUARD_SUBNET_IP", "$WIREGUARD_SUBNET_CIDR", "$WIREGUARD_SUBNET_MASK",
    "$WIREGUARD_SERVER_PORT",
    "$IPSEC_VPN_L2TP_NET", "$IPSEC_VPN_L2TP_POOL", "$IPSEC_VPN_L2TP_LOCAL", "$IPSEC_VPN_XAUTH_NET",
    "$IPSEC_VPN_XAUTH_POOL",
    "$IPSEC_VPN_SHA2_TRUNCBUG", "$IPSEC_VPN_VPN_ANDROID_MTU_FIX", "$IPSEC_VPN_DISABLE_IKEV2", "$IPSEC_VPN_DISABLE_L2TP",
    "$IPSEC_VPN_DISABLE_XAUTH", "$IPSEC_VPN_C2C_TRAFFIC", "$PRIMARY_SERVER_DNS", "$SECONDARY_SERVER_DNS", "$SFTP_PORT",
    "$SFTP_USER",
    "$SFTP_PASSWORD", "$AWG_SERVER_PORT", "$JUNK_PACKET_COUNT", "$JUNK_PACKET_MIN_SIZE", "$JUNK_PACKET_MAX_SIZE",
    "$INIT_PACKET_JUNK_SIZE", "$RESPONSE_PACKET_JUNK_SIZE", "$INIT_PACKET_MAGIC_HEADER",
    "$RESPONSE_PACKET_MAGIC_HEADER",
    "$UNDERLOAD_PACKET_MAGIC_HEADER", "$TRANSPORT_PACKET_MAGIC_HEADER", "$SOCKS5_PROXY_PORT", "$SOCKS5_USER",
  "$SOCKS5_AUTH_TYPE"] ++
  ["$SERVER_IP_ADDRESS"]

def beginsWithDollar : List Char → Bool
  | c :: rest => c == '$' && !rest.contains '$'
  | [] => false

theorem begins_of_beginsWithDollar {name : List Char} (h : beginsWithDollar name = true) : Begins '$' name := by
  cases name with
  | nil => cases h
  | cons c rest =>
    rw [beginsWithDollar, Bool.and_eq_true, beq_iff_eq] at h
    exact ⟨rest, by rw [h.1], by simpa using h.2⟩

/-- No name is the beginning of another one. -/
theorem varNames_checked : (varNames.map String.toList).all beginsWithDollar = true ∧
    (varNames.map String.toList).Pairwise fun a b => ¬a <+: b ∧ ¬b <+: a := by
  decide +kernel

variable (env : VarsEnv) (credentials : ServerCredentials) (container : DockerContainer) (config : Object)

theorem names_sublist : ((genVarsForScript env credentials container config).map Prod.fst).Sublist varNames := by
  have ho (b : Prop) [Decidable b] (var : String × String) : ((if b then [] else [var]).map Prod.fst).Sublist
      [var.1] := by
    split
    · exact nil_sublist _
    · exact List.Sublist.refl _
  unfold genVarsForScript varNames
  simp only [map_append]
  exact (((List.Sublist.refl _).append (ho _ _)).append (List.Sublist.refl _)).append (ho _ _)

theorem begins_of_mem {var : String × String} (h : var ∈ genVarsForScript env credentials container config) :
    Begins '$' var.1.toList := by
  have hm : var.1 ∈ varNames := (names_sublist env credentials container config).subset (mem_map_of_mem h)
  exact begins_of_beginsWithDollar (all_eq_true.mp varNames_checked.1 _ (mem_map_of_mem hm))

/-! ## Replacing -/

theorem toList_replaceVars (script : String) (vars : Vars) : (replaceVars script vars).toList =
      (vars.map fun var => (var.1.toList, var.2.toList)).foldl (fun s var => substitute [var] s) script.toList := by
  induction vars generalizing script with
  | nil => rfl
  | cons var vars ih =>
    rw [replaceVars, foldl_cons, ← replaceVars, ih, replace, String.toList_ofList, map_cons, foldl_cons]

/-- The script with the values of some variables and a blank for one more. -/
def blanked (script : String) (before : Vars) (name : String) : String := substituted script (before ++ [(name, " ")])

/-- **Variables.** The values come in place of the variables if none completes the name of a variable that is not yet
replaced. -/
theorem replaceVars_eq_substituted (script : String)
    (h : ∀ before var after, genVarsForScript env credentials container config = before ++ var :: after →
      ¬var.1.toList <:+: (blanked script before var.1).toList) :
    replaceVars script (genVarsForScript env credentials container config) =
      substituted script (genVarsForScript env credentials container config) := by
  refine String.toList_inj.mp ?_
  rw [toList_replaceVars, substituted, String.toList_ofList]
  refine foldl_substitute (x := '$') ?_ " ".toList script.toList ?_
  · intro var hvar
    obtain ⟨v, hv, rfl⟩ := mem_map.mp hvar
    exact begins_of_mem env credentials container config hv
  · intro before var after hsplit
    obtain ⟨before, rest, hva, rfl, hrest⟩ := map_eq_append_iff.mp hsplit
    obtain ⟨var, after, rfl, rfl, rfl⟩ := map_eq_cons_iff.mp hrest
    have hb := h before var after hva
    rwa [blanked, substituted, String.toList_ofList, map_append] at hb

/-- A script of one variable. -/
theorem replaceVars_eq_substituted_host :
    let vars := genVarsForScript ⟨"1.1.1.1", "1.0.0.1", id⟩ ⟨"10.0.0.1", "root", "", 22⟩ .Awg []
    replaceVars "$REMOTE_HOST" vars = substituted "$REMOTE_HOST" vars := by
  refine replaceVars_eq_substituted _ _ _ _ "$REMOTE_HOST" fun before var after hsplit hna => ?_
  have hb := begins_of_mem _ _ _ _ (hsplit ▸ mem_append_right before mem_cons_self)
  have hd : '$' ∈ (blanked "$REMOTE_HOST" before var.1).toList := by
    obtain ⟨rest, hrest, -⟩ := hb
    exact hna.subset (hrest ▸ mem_cons_self)
  -- what comes in place of the variable is the value or the blank
  cases before with
  | nil =>
    obtain ⟨rfl, -⟩ := List.cons.inj hsplit
    revert hd
    decide
  | cons first before =>
    obtain ⟨rfl, -⟩ := List.cons.inj hsplit
    have hv : (blanked "$REMOTE_HOST" (("$REMOTE_HOST", "10.0.0.1") :: before) var.1).toList =
        "10.0.0.1".toList ++ [] := by
      rw [blanked, substituted, String.toList_ofList, cons_append, map_cons, ← append_nil "$REMOTE_HOST".toList]
      exact substitute_name (by decide) (find?_cons_of_pos rfl)
    rw [hv] at hd
    revert hd
    decide

/-- The user of SFTP is named like the variable of the password. -/
theorem value_replaced_again :
    let env : VarsEnv := ⟨"1.1.1.1", "1.0.0.1", id⟩
    let credentials : ServerCredentials := ⟨"10.0.0.1", "root", "", 22⟩
    let config : Object := [("sftp", .obj [("userName", .str "$SFTP_PASSWORD"), ("password", .str "secret")])]
    replaceVars "$SFTP_USER" (genVarsForScript env credentials .Sftp config) = "secret" ∧
      substituted "$SFTP_USER" (genVarsForScript env credentials .Sftp config) = "$SFTP_PASSWORD" := by
  intro env credentials config
  rw [← String.toList_inj, toList_replaceVars]
  decide +kernel

end Cimogus.Client.ServerController
