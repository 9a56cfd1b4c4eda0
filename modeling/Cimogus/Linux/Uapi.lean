import Cimogus.Daemon.ParseConfig
import Cimogus.Lib.Lines

/-!
# Messages to the WireGuard interface

`WireguardUtilsLinux::addInterface` and `updatePeer` write the configuration as lines `key=value` to the control channel
of `wireguard-go`. The keys are written in hexadecimal; the junk parameters and the address of the server are written as
they came over the daemon's socket.
-/

namespace Cimogus.Linux.Uapi

open Lib.Json Lib.Lines Daemon List

/-- `QByteArray::fromBase64` of the texts of the keys: UTF-8 for the private key, the local encoding for the others. -/
structure Keys where
  fromUtf8 : String → List UInt8
  fromLocal : String → List UInt8

def toHex (bytes : List UInt8) : String :=
  String.ofList (bytes.flatMap fun b => [Nat.digitChar (b.toNat / 16), Nat.digitChar (b.toNat % 16)])

/-- The configuration with the texts that can be null. -/
structure Config extends ParsedConfig where
  ipv4AddrIn : Option String
  ipv6AddrIn : Option String
  pskKey : Option String

def Config.ofObject (host : Host) (obj : Object) : Option Config :=
  (parseConfig host obj).map fun c =>
    { c with
      ipv4AddrIn := (obj.value "serverIpv4AddrIn").text?
      ipv6AddrIn := (obj.value "serverIpv6AddrIn").text?
      pskKey := (obj.value "serverPskKey").text? }

/-- The junk parameters under the keys of the interface. -/
def junkFields (j : JunkParams) : List (String × String) :=
  [("jc", j.junkPacketCount), ("jmin", j.junkPacketMinSize), ("jmax", j.junkPacketMaxSize),
    ("s1", j.initPacketJunkSize),
    ("s2", j.responsePacketJunkSize), ("h1", j.initPacketMagicHeader), ("h2", j.responsePacketMagicHeader),
    ("h3", j.underloadPacketMagicHeader), ("h4", j.transportPacketMagicHeader)]

namespace Config

variable (keys : Keys) (qt : Qt) (c : Config)

/-- The message of `addInterface`. -/
def addInterfaceMessage : List Char :=
  "set=1\n".toList ++ ("private_key=" ++ toHex (keys.fromUtf8 c.privateKey) ++ "\n").toList ++
    "replace_peers=true\n".toList ++
    (junkFields c.junk).flatMap fun field => if field.2.isEmpty then [] else (field.1 ++ "=" ++ field.2 ++ "\n").toList

/-- The start of the endpoint's line, with the first address that is not null. -/
def endpoint : Option String :=
  match c.ipv4AddrIn, c.ipv6AddrIn with
  | some address, _ => some ("endpoint=" ++ address ++ ":")
  | none, some address => some ("endpoint=[" ++ address ++ "]:")
  | none, none => none

/-- The message of `updatePeer`; there is none without an endpoint. -/
def updatePeerMessage : Option (List Char) :=
  c.endpoint.map fun endpoint =>
    "set=1\n".toList ++ ("public_key=" ++ toHex (keys.fromLocal c.serverPublicKey) ++ "\n").toList ++
      (match c.pskKey with
        | some key => ("preshared_key=" ++ toHex (keys.fromLocal key) ++ "\n").toList
        | none =>
          []) ++ endpoint.toList ++ (toString c.serverPort ++ "\n").toList ++ "replace_allowed_ips=true\n".toList ++
      "persistent_keepalive_interval=60\n".toList ++
      c.allowedIPAddressRanges.flatMap fun ip => ("allowed_ip=" ++ ip.toText qt ++ "\n").toList

/-! ## The lines that are meant -/

/-- A line for each junk parameter that is not empty. -/
def interfaceLines : List (List Char) :=
  ["set=1".toList, ("private_key=" ++ toHex (keys.fromUtf8 c.privateKey)).toList, "replace_peers=true".toList] ++
    ((junkFields c.junk).filter fun field => !field.2.isEmpty).map fun field => (field.1 ++ "=" ++ field.2).toList

def peerLines (endpoint : String) : List (List Char) :=
  ["set=1".toList, ("public_key=" ++ toHex (keys.fromLocal c.serverPublicKey)).toList] ++
    (c.pskKey.toList.map fun key => ("preshared_key=" ++ toHex (keys.fromLocal key)).toList) ++
    [(endpoint ++ toString c.serverPort).toList, "replace_allowed_ips=true".toList,
      "persistent_keepalive_interval=60".toList] ++
    c.allowedIPAddressRanges.map fun ip => ("allowed_ip=" ++ ip.toText qt).toList

theorem toList_newline : "\n".toList = ['\n'] := rfl

theorem flatMap_filter_map {β : Type} (p : β → Bool) (text : β → String) (fields : List β) :
    (fields.flatMap fun field => if p field then [] else (text field ++ "\n").toList) =
      ((fields.filter fun field => !p field).map fun field => (text field).toList).flatMap (· ++ ['\n']) := by
  induction fields with
  | nil => rfl
  | cons field fields ih =>
    rw [flatMap_cons, ih]
    cases hp : p field with
    | true => simp [hp]
    | false => simp [hp]

theorem addInterfaceMessage_eq : c.addInterfaceMessage keys = (c.interfaceLines keys).flatMap (· ++ ['\n']) := by
  have hs : "set=1\n".toList = "set=1".toList ++ ['\n'] := by decide
  have hr : "replace_peers=true\n".toList = "replace_peers=true".toList ++ ['\n'] := by decide
  have hju :=
    flatMap_filter_map (fun field : String × String => field.2.isEmpty) (fun field => field.1 ++ "=" ++ field.2)
    (junkFields c.junk)
  rw [interfaceLines, flatMap_append]
  refine congrArg₂ (· ++ ·) ?_ hju
  simp only [hs, hr, String.toList_append, toList_newline, flatMap_cons, flatMap_nil, append_assoc, append_nil]

theorem updatePeerMessage_eq :
    c.updatePeerMessage keys qt = c.endpoint.map fun e => (c.peerLines keys qt e).flatMap (· ++ ['\n']) := by
  have hs : "set=1\n".toList = "set=1".toList ++ ['\n'] := by decide
  have hr : "replace_allowed_ips=true\n".toList = "replace_allowed_ips=true".toList ++ ['\n'] := by decide
  have hk : "persistent_keepalive_interval=60\n".toList = "persistent_keepalive_interval=60".toList ++ ['\n'] :=
    by decide
  refine congrArg (fun f => c.endpoint.map f) (funext fun e => ?_)
  cases hp : c.pskKey with
  | none =>
    simp only [peerLines, hp, Option.toList_none, map_nil, flatMap_append, flatMap_cons, flatMap_nil,
      flatMap_map, hs, hr, hk, String.toList_append, toList_newline, append_assoc, nil_append]
  | some key =>
    simp only [peerLines, hp, Option.toList_some, map_cons, map_nil, flatMap_append, flatMap_cons,
      flatMap_nil, flatMap_map, hs, hr, hk, String.toList_append, toList_newline, append_assoc, nil_append]

/-! ## What the lines hold -/

theorem newline_notMem_toHex (bytes : List UInt8) : '\n' ∉ (toHex bytes).toList := by
  have hd : ∀ k < 16, Nat.digitChar k ≠ '\n' := by decide
  rw [toHex, String.toList_ofList, mem_flatMap]
  rintro ⟨b, -, hm⟩
  have hb := b.toNat_lt
  simp only [mem_cons, not_mem_nil, or_false] at hm
  rcases hm with h | h
  · exact hd _ (by omega) h.symm
  · exact hd _ (by omega) h.symm

theorem newline_notMem_repr (n : Nat) : '\n' ∉ n.repr.toList := by
  rw [Nat.repr_eq_ofList_toDigits, String.toList_ofList]
  intro hm
  exact absurd (Nat.isDigit_of_mem_toDigits (by decide) (by decide) hm) (by decide)

theorem newline_notMem_toString (n : Int) : '\n' ∉ (toString n).toList := by
  rw [Int.toString_eq_repr, Int.repr_eq_if]
  split
  · exact newline_notMem_repr _
  · rw [String.toList_append, mem_append]
    rintro (hs | hd)
    · exact absurd hs (by decide)
    · exact newline_notMem_repr _ hd

theorem newline_notMem_append {key text : String} (hkey : '\n' ∉ key.toList) :
    '\n' ∉ (key ++ text).toList ↔ '\n' ∉ text.toList := by
  rw [String.toList_append, mem_append, or_iff_right hkey]

theorem newline_notMem_field {j : JunkParams} {field : String × String} (h : field ∈ junkFields j) :
    '\n' ∉ (field.1 ++ "=" ++ field.2).toList ↔ '\n' ∉ field.2.toList := by
  have hk : ∀ key ∈ ["jc", "jmin", "jmax", "s1", "s2", "h1", "h2", "h3", "h4"], '\n' ∉ (key ++ "=").toList :=
    by decide
  exact newline_notMem_append (hk field.1 (mem_map_of_mem (f := Prod.fst) h))

theorem newline_notMem_interfaceLines_iff :
    (∀ line ∈ c.interfaceLines keys, '\n' ∉ line) ↔
    ∀ field ∈ junkFields c.junk, '\n' ∉ field.2.toList := by
  have hs : '\n' ∉ "set=1".toList := by decide
  have hp : '\n' ∉ ("private_key=" ++ toHex (keys.fromUtf8 c.privateKey)).toList :=
    (newline_notMem_append (by decide)).mpr (newline_notMem_toHex _)
  have hr : '\n' ∉ "replace_peers=true".toList := by decide
  simp only [interfaceLines, forall_mem_append, forall_mem_cons, not_mem_nil, false_implies, implies_true, hs,
    hp, hr, not_false_eq_true, true_and, and_true, forall_mem_map, mem_filter, Bool.not_eq_true', and_imp]
  constructor
  · intro h field hfi
    cases he : field.2.isEmpty with
    | true =>
      rw [String.isEmpty_iff.mp he]
      exact not_mem_nil
    | false => exact (newline_notMem_field hfi).mp (h field hfi he)
  · intro h field hfi _
    exact (newline_notMem_field hfi).mpr (h field hfi)

theorem newline_notMem_peerLines_iff (hqt : ∀ a, '\n' ∉ (qt.hostText a).toList) (endpoint : String) :
    (∀ line ∈ c.peerLines keys qt endpoint, '\n' ∉ line) ↔ '\n' ∉ endpoint.toList := by
  have hs : '\n' ∉ "set=1".toList := by decide
  have hp : '\n' ∉ ("public_key=" ++ toHex (keys.fromLocal c.serverPublicKey)).toList :=
    (newline_notMem_append (by decide)).mpr (newline_notMem_toHex _)
  have hps : ∀ key, '\n' ∉ ("preshared_key=" ++ toHex (keys.fromLocal key)).toList :=
    fun key => (newline_notMem_append (by decide)).mpr (newline_notMem_toHex _)
  have hr : '\n' ∉ "replace_allowed_ips=true".toList := by decide
  have hk : '\n' ∉ "persistent_keepalive_interval=60".toList := by decide
  have ha : ∀ ip : IPAddress, '\n' ∉ ("allowed_ip=" ++ ip.toText qt).toList := by
    intro ip
    rw [newline_notMem_append (by decide), IPAddress.toText, newline_notMem_append]
    · exact newline_notMem_toString _
    · rw [newline_notMem_append (hqt _)]
      decide
  have he : '\n' ∉ (endpoint ++ toString c.serverPort).toList ↔ '\n' ∉ endpoint.toList := by
    rw [String.toList_append, mem_append, or_iff_left (newline_notMem_toString _)]
  simp only [peerLines, forall_mem_append, forall_mem_cons, not_mem_nil, false_implies, implies_true, hs, hp,
    hps, hr, hk, ha, he, not_false_eq_true, true_and, and_true, forall_mem_map]

def serverAddress : Option String := c.ipv4AddrIn <|> c.ipv6AddrIn

variable {endpoint : String}

theorem newline_notMem_endpoint_iff (h : c.endpoint = some endpoint) :
    '\n' ∉ endpoint.toList ↔ ∀ address ∈ c.serverAddress, '\n' ∉ address.toList := by
  have hc : '\n' ∉ ":".toList := by decide
  have hb : '\n' ∉ "]:".toList := by decide
  rw [Config.endpoint] at h
  rw [serverAddress]
  cases h4 : c.ipv4AddrIn with
  | some address =>
    rw [h4] at h
    obtain rfl := Option.some.inj h
    rw [String.toList_append, mem_append, or_iff_left hc, newline_notMem_append (by decide)]
    exact ⟨fun hno a ha => Option.some.inj ha ▸ hno, fun hal => hal address rfl⟩
  | none =>
    cases h6 : c.ipv6AddrIn with
    | some address =>
      rw [h4, h6] at h
      obtain rfl := Option.some.inj h
      rw [String.toList_append, mem_append, or_iff_left hb, newline_notMem_append (by decide)]
      exact ⟨fun hno a ha => Option.some.inj ha ▸ hno, fun hal => hal address rfl⟩
    | none =>
      rw [h4, h6] at h
      cases h

/-- A configuration that is accepted has an endpoint. -/
theorem exists_endpoint {host : Host} {obj : Object} {c : Config} (h : ofObject host obj = some c) :
    ∃ endpoint, c.endpoint = some endpoint := by
  obtain ⟨parsed, hp, rfl⟩ := Option.map_eq_some_iff.mp h
  have hs := ((parseConfig_isSome_iff host obj).mp (hp ▸ rfl)).1.server
  rw [parseAddresses] at hs
  split at hs
  · cases hs
  · rename_i hso
    cases h4 : (obj.value "serverIpv4AddrIn").text? with
    | some address => exact ⟨_, rfl⟩
    | none =>
      cases h6 : (obj.value "serverIpv6AddrIn").text? with
      | some address => exact ⟨_, rfl⟩
      | none => exact absurd ⟨h4, h6⟩ hso

/-! ## What is read back -/

def keyOf (line : List Char) : List Char := line.takeWhile (· ≠ '=')

/-- Both messages are read as the lines that are meant. -/
structure Intended : Prop where
  interface : lines '\n' (c.addInterfaceMessage keys) = c.interfaceLines keys
  peer : ∃ endpoint message, c.endpoint = some endpoint ∧ c.updatePeerMessage keys qt = some message ∧
    lines '\n' message = c.peerLines keys qt endpoint

theorem intended_iff (hqt : ∀ a, '\n' ∉ (qt.hostText a).toList) (h : c.endpoint = some endpoint) :
    c.Intended keys qt ↔
      (∀ field ∈ junkFields c.junk, '\n' ∉ field.2.toList) ∧ ∀ address ∈ c.serverAddress,
      '\n' ∉ address.toList := by
  have hm : c.updatePeerMessage keys qt = some ((c.peerLines keys qt endpoint).flatMap (· ++ ['\n'])) := by
    rw [updatePeerMessage_eq, h, Option.map_some]
  rw [← newline_notMem_interfaceLines_iff keys, ← lines_flatMap_iff, ← newline_notMem_endpoint_iff c h,
    ← newline_notMem_peerLines_iff keys qt c hqt, ← lines_flatMap_iff, ← addInterfaceMessage_eq]
  constructor
  · rintro ⟨hi, endpoint', message, h', hm', hp⟩
    obtain rfl := Option.some.inj (h.symm.trans h')
    rw [hm] at hm'
    obtain rfl := Option.some.inj hm'
    exact ⟨hi, hp⟩
  · rintro ⟨hi, hp⟩
    exact ⟨hi, endpoint, _, h, hm, hp⟩

theorem keyOf_append {key start : String} (hs : start.toList = key.toList ++ ['=']) (hkey : '=' ∉ key.toList)
    (text : String) :
    keyOf (start ++ text).toList = key.toList := by
  have ha : ∀ x ∈ key.toList, decide (x ≠ '=') = true := fun x hx => decide_eq_true fun heq => hkey (heq ▸ hx)
  rw [keyOf, String.toList_append, hs, append_assoc, takeWhile_append_of_pos ha]
  simp

theorem keyOf_endpoint (h : c.endpoint = some endpoint) (text : String) :
    keyOf (endpoint ++ text).toList = "endpoint".toList := by
  have hs : "endpoint=".toList = "endpoint".toList ++ ['='] := by decide
  have hb : "endpoint=[" = "endpoint=" ++ "[" := by decide
  rw [Config.endpoint] at h
  split at h
  · rw [← Option.some.inj h, String.append_assoc, String.append_assoc]
    exact keyOf_append hs (by decide) _
  · rw [← Option.some.inj h, hb, String.append_assoc, String.append_assoc, String.append_assoc]
    exact keyOf_append hs (by decide) _
  · cases h

theorem map_keyOf_peerLines (h : c.endpoint = some endpoint) : (c.peerLines keys qt endpoint).map keyOf =
      (["set", "public_key"] ++ (c.pskKey.toList.map fun _ => "preshared_key") ++
        ["endpoint", "replace_allowed_ips", "persistent_keepalive_interval"] ++
        c.allowedIPAddressRanges.map fun _ => "allowed_ip").map String.toList := by
  have hs : keyOf "set=1".toList = "set".toList := by decide
  have hr : keyOf "replace_allowed_ips=true".toList = "replace_allowed_ips".toList := by decide
  have hk : keyOf "persistent_keepalive_interval=60".toList = "persistent_keepalive_interval".toList := by decide
  have hp := @keyOf_append "public_key" "public_key=" (by decide) (by decide)
  have hps := @keyOf_append "preshared_key" "preshared_key=" (by decide) (by decide)
  have ha := @keyOf_append "allowed_ip" "allowed_ip=" (by decide) (by decide)
  simp only [peerLines, map_append, map_cons, map_nil, map_map, Function.comp_def, hs, hp, hps,
    c.keyOf_endpoint h, hr, hk, ha]

theorem count_map_of_ne {β : Type} (l : List β) {key other : String} (h : key.toList ≠ other.toList) :
    ((l.map fun _ => other).map String.toList).count key.toList = 0 := by
  rw [count_eq_zero, map_map]
  intro hm
  obtain ⟨_, _, heq⟩ := mem_map.mp hm
  exact h heq.symm

/-- One peer with one endpoint. -/
theorem count_keyOf_peerLines (h : c.endpoint = some endpoint) :
    ((c.peerLines keys qt endpoint).map keyOf).count "public_key".toList = 1 ∧
      ((c.peerLines keys qt endpoint).map keyOf).count "endpoint".toList = 1 := by
  rw [c.map_keyOf_peerLines keys qt h, map_append, map_append, map_append, count_append, count_append,
    count_append, count_append, count_append, count_append, count_map_of_ne c.pskKey.toList (by decide),
    count_map_of_ne c.pskKey.toList (by decide), count_map_of_ne c.allowedIPAddressRanges (by decide),
    count_map_of_ne c.allowedIPAddressRanges (by decide)]
  decide

/-- **No text adds a line just when none has a newline.** For every configuration that the daemon accepts, the messages
are read as the lines that are meant, with one peer and one endpoint, if and only if neither a junk parameter nor the
address of the server has a newline. -/
theorem messages_intended_iff {host : Host} {obj : Object} {c : Config} (keys : Keys)
    (hqt : ∀ a, '\n' ∉ (host.qt.hostText a).toList) (h : ofObject host obj = some c) : (c.Intended keys host.qt ↔
      (∀ field ∈ junkFields c.junk, '\n' ∉ field.2.toList) ∧ ∀ address ∈ c.serverAddress,
    '\n' ∉ address.toList) ∧
    (c.Intended keys host.qt → ∀ message ∈ c.updatePeerMessage keys host.qt,
      ((lines '\n' message).map keyOf).count "public_key".toList = 1 ∧
        ((lines '\n' message).map keyOf).count "endpoint".toList = 1) := by
  obtain ⟨endpoint, he⟩ := exists_endpoint h
  refine ⟨c.intended_iff keys host.qt hqt he, ?_⟩
  rintro ⟨-, endpoint', message, he', hm, hl⟩ message' hm'
  obtain rfl := Option.some.inj (hm.symm.trans hm')
  rw [hl]
  exact c.count_keyOf_peerLines keys host.qt he'

/-! ## A configuration with more lines than meant -/

section Examples

def sample (jc server : String) : Object :=
  [("privateKey", .str "AQ=="), ("serverPublicKey", .str "Ag=="), ("serverPort", .num 51820),
    ("deviceIpv4Address", .str "10.0.0.2"), ("serverIpv4AddrIn", .str server), ("allowedIPAddressRanges", .arr []),
    ("Jc", .str jc)]

def sampleHost : Host := ⟨⟨fun _ => .null, fun _ => (.null, -1), fun _ => ""⟩, fun _ => 0, false⟩

/-- `fromBase64` of the two keys of the sample. -/
def sampleBase64 (text : String) : List UInt8 := if text = "AQ==" then [1] else if text = "Ag==" then [2] else []

def sampleKeys : Keys := ⟨sampleBase64, sampleBase64⟩

theorem messages_intended_plain :
    ∃ c, ofObject sampleHost (sample "4" "192.0.2.1") = some c ∧ c.Intended sampleKeys sampleHost.qt := by
  obtain ⟨c, hc⟩ : ∃ c, ofObject sampleHost (sample "4" "192.0.2.1") = some c := ⟨_, rfl⟩
  refine ⟨c, hc, (messages_intended_iff sampleKeys (by simp [sampleHost]) hc).1.mpr ?_⟩
  obtain rfl := Option.some.inj hc
  decide

/-- A junk parameter that sets the port, and an address that adds a second peer. -/
theorem messages_not_intended :
    ∃ c,
      ofObject sampleHost (sample "4\nlisten_port=1" "192.0.2.1:1\npublic_key=03\nendpoint=198.51.100.7") = some c ∧
      "listen_port=1".toList ∈ lines '\n' (c.addInterfaceMessage sampleKeys) ∧
      ∃ message, c.updatePeerMessage sampleKeys sampleHost.qt = some message ∧
        ((lines '\n' message).map keyOf).count "public_key".toList = 2 ∧
        ((lines '\n' message).map keyOf).count "endpoint".toList = 2 ∧ ¬c.Intended sampleKeys sampleHost.qt := by
  refine ⟨_, rfl, by decide +kernel, _, rfl, by decide +kernel, by decide +kernel, fun h => ?_⟩
  have hju := ((intended_iff sampleKeys sampleHost.qt _ (fun _ => not_mem_nil) rfl).mp h).1
  exact hju ("jc", "4\nlisten_port=1") mem_cons_self (by decide)

end Examples

end Config

end Cimogus.Linux.Uapi
