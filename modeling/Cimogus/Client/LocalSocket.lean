import Cimogus.Daemon.ParseConfig
import Cimogus.Lib.Text
import Cimogus.Service.NetworkUtilities
import Mathlib.Data.List.TakeWhile

/-!
# `LocalSocketController::activate`

The client sends the daemon its configuration as JSON, and the daemon reads it with `parseConfig`. The ranges that are
to go through the tunnel are the `allowed_ips` of the configuration or the sites of the split tunnel, which are texts;
one without a prefix length is sent with the length 32, whatever its family.
-/

namespace Cimogus.Client.LocalSocket

open Lib Lib.Json Daemon List
open Service (splitSlash decimal)

/-! ## The message -/

def digitsValue (digits : List Char) : Nat := digits.foldl (fun value c => value * 10 + (c.toNat - '0'.toNat)) 0

/-- The C function, for numbers that an `int` holds; what follows the digits is not looked at. -/
def atoi (text : List Char) : Int :=
  match text.dropWhile Text.isAsciiSpace with
  | '-' :: rest => -digitsValue (rest.takeWhile Char.isDigit)
  | '+' :: rest => digitsValue (rest.takeWhile Char.isDigit)
  | rest => digitsValue (rest.takeWhile Char.isDigit)

def rangeObject (address : String) (range : Int) (isIpv6 : Bool) : Json :=
  .obj [("address", .str address), ("range", .num range), ("isIpv6", .bool isIpv6)]

/-- For an element of `allowed_ips` or of the sites. -/
def rangeOf (ipRange : String) : Json :=
  match splitSlash ipRange with
  | address :: range :: _ => rangeObject address (atoi range.toList) false
  | _ => rangeObject ipRange 32 false

def defaultAllowedIP : List String := ["0.0.0.0/0", "::/0"]

def allowedIPAddressRanges (splitTunnelType : Int) (splitTunnelSites plainAllowedIP : List Json) : List Json :=
  if plainAllowedIP ≠ defaultAllowedIP.map .str ∧ plainAllowedIP ≠ [] then plainAllowedIP.map fun v =>
    rangeOf (Value.toText (some v))
  else
    (if splitTunnelType = 0 ∨
      splitTunnelType = 2 then [rangeObject "0.0.0.0" 0 false, rangeObject "::" 0 true] else []) ++
      (if splitTunnelType = 1 then splitTunnelSites.map fun v => rangeOf (Value.toText (some v)) else [])

/-- An undefined host becomes null. -/
def excludedAddresses (splitTunnelType : Int) (splitTunnelSites : List Json) (hostName : Value) : List Json :=
  hostName.getD .null ::
    (if splitTunnelType = 2 then splitTunnelSites.map fun v => .str (Value.toText (some v)) else [])

def junkKeys : List String := ["Jc", "Jmin", "Jmax", "S1", "S2", "H1", "H2", "H3", "H4"]

def insertJunk (wgConfig json : Object) : Object := json.insertAll (junkKeys.map fun key => (key, wgConfig.value key))

def protocolName (rawConfig : Object) : String := (rawConfig.value "protocol").toText

def wgConfig (rawConfig : Object) : Object := (rawConfig.value (protocolName rawConfig ++ "_config_data")).toObject

def splitTunnelType (rawConfig : Object) : Int := (rawConfig.value "splitTunnelType").toInt

def splitTunnelSites (rawConfig : Object) : List Json := (rawConfig.value "splitTunnelSites").toArray

def splitTunnelApps (rawConfig : Object) : List Json := (rawConfig.value "splitTunnelApps").toArray

def plainAllowedIP (rawConfig : Object) : List Json := ((wgConfig rawConfig).value "allowed_ips").toArray

/-- The members of the message besides the junk parameters, in the order of their insertion. -/
def members (rawConfig : Object) : List (String × Value) :=
  let wg := wgConfig rawConfig
  let type := splitTunnelType rawConfig
  let sites := splitTunnelSites rawConfig
  [("type", some (.str "activate")),
    ("privateKey", wg.value "client_priv_key"),
    ("deviceIpv4Address", wg.value "client_ip"),
    ("deviceIpv6Address", some (.str "fd58:baa6:dead::1")),
    ("serverPublicKey", wg.value "server_pub_key"),
    ("serverPskKey", wg.value "psk_key"),
    ("serverIpv4AddrIn", wg.value "hostName"),
    ("deviceMTU", wg.value "mtu"),
    ("serverPort", some (.num (wg.value "port").toInt)),
    ("serverIpv4Gateway", wg.value "hostName"),
    ("dnsServer", rawConfig.value "dns1"),
    ("allowedIPAddressRanges", some (.arr (allowedIPAddressRanges type sites (plainAllowedIP rawConfig)))),
    ("excludedAddresses", some (.arr (excludedAddresses type sites (wg.value "hostName")))),
    ("vpnDisabledApps", some (.arr (splitTunnelApps rawConfig))),
    ("killSwitchOption", rawConfig.value "killSwitchOption")]

def activate (rawConfig : Object) : Object :=
  let json := Object.insertAll [] (members rawConfig)
  if protocolName rawConfig = "awg" then insertJunk (wgConfig rawConfig) json
  else if junkKeys.all fun key => (wgConfig rawConfig).contains key then insertJunk (wgConfig rawConfig) json
  else json

variable {key : String}

theorem value_insertJunk (wg json : Object) (hkey : key ∉ junkKeys) :
    (insertJunk wg json).value key = json.value key := by
  refine Object.value_insertAll_of_notMem json ?_
  rwa [map_map, show (Prod.fst ∘ fun key => (key, wg.value key)) = id from rfl]

theorem value_activate (rawConfig : Object) (hkey : key ∉ junkKeys) :
    (activate rawConfig).value key = (Object.insertAll [] (members rawConfig)).value key := by
  unfold activate
  split
  · exact value_insertJunk _ _ hkey
  split
  · exact value_insertJunk _ _ hkey
  · rfl

variable {rawConfig : Object}

theorem value_activate_of_mem {v : Value} (h : (key, v) ∈ members rawConfig) :
    (activate rawConfig).value key = v := by
  have hju : ∀ k ∈ (members rawConfig).map Prod.fst, k ∉ junkKeys := by simp [members, junkKeys]
  rw [value_activate rawConfig (hju key (mem_map_of_mem h))]
  exact Object.value_insertAll_of_mem [] (by simp [members]) h

/-! ## What the daemon accepts -/

/-- The members of the configuration that the daemon insists on. -/
structure Complete (rawConfig : Object) : Prop where
  privateKey : ((wgConfig rawConfig).value "client_priv_key").text?.isSome
  publicKey : ((wgConfig rawConfig).value "server_pub_key").text?.isSome
  hostName : ((wgConfig rawConfig).value "hostName").text?.isSome
  dns : rawConfig.value "dns1" = none ∨ (rawConfig.value "dns1").text?.isSome
  apps : ∀ app ∈ splitTunnelApps rawConfig, (Value.text? (some app)).isSome

theorem parseStringList_isSome {obj : Object} {name : String} {items : List Json}
    (ho : obj.value name = some (.arr items))
    (ht : ∀ i ∈ items, (Value.text? (some i)).isSome) : (parseStringList obj name).isSome := by
  have hr : ∀ i ∈ items, Value.text? (some i) = some (Value.toText (some i)) :=
    fun i hi => Value.text?_eq_toText (ht i hi)
  simp only [parseStringList, ho, mapM_eq_some hr, Option.isSome_some]

theorem wellFormed_activate (h : Complete rawConfig) : WellFormed (activate rawConfig) where
  privateKey := by
    have hkey : (activate rawConfig).value "privateKey" = (wgConfig rawConfig).value "client_priv_key" :=
      value_activate_of_mem (by simp [members])
    exact hkey ▸ h.privateKey
  serverPublicKey := by
    have hkey : (activate rawConfig).value "serverPublicKey" = (wgConfig rawConfig).value "server_pub_key" :=
      value_activate_of_mem (by simp [members])
    exact hkey ▸ h.publicKey
  serverPort := by
    have hp : (activate rawConfig).value "serverPort" = some (.num ((wgConfig rawConfig).value "port").toInt) :=
      value_activate_of_mem (by simp [members])
    simp [parseServerPort, hp]
  device := by
    have hi6 : (activate rawConfig).value "deviceIpv6Address" = some (.str "fd58:baa6:dead::1") :=
      value_activate_of_mem (by simp [members])
    simp [parseAddresses, hi6]
  server := by
    have hi4 : (activate rawConfig).value "serverIpv4AddrIn" = (wgConfig rawConfig).value "hostName" :=
      value_activate_of_mem (by simp [members])
    have hne : ((wgConfig rawConfig).value "hostName").text? ≠ none := Option.isSome_iff_ne_none.mp h.hostName
    simp [parseAddresses, hi4, hne]
  dnsServer := by
    have hd : (activate rawConfig).value "dnsServer" = rawConfig.value "dns1" :=
      value_activate_of_mem (by simp [members])
    rw [parseDnsServer, hd]
    rcases h.dns with hno | hs
    · simp [hno]
    · cases hv : rawConfig.value "dns1" with
      | none => rfl
      | some v => rwa [hv] at hs
  hopType := by
    have hno : (activate rawConfig).value "hopType" = none := by
      rw [value_activate _ (by decide)]
      exact Object.value_insertAll_of_notMem [] (by simp [members])
    simp [parseHopType, hno]
  excludedAddresses := by
    have he : (activate rawConfig).value "excludedAddresses" = some (.arr (excludedAddresses (splitTunnelType rawConfig)
        (splitTunnelSites rawConfig) ((wgConfig rawConfig).value "hostName"))) := value_activate_of_mem
          (by simp [members])
    refine parseStringList_isSome he fun i hi => ?_
    rcases mem_cons.mp hi with rfl | hi
    · cases hh : (wgConfig rawConfig).value "hostName" with
      | none => exact absurd (hh ▸ h.hostName) (by decide)
      | some v => exact hh ▸ h.hostName
    · split at hi
      · obtain ⟨site, -, rfl⟩ := mem_map.mp hi
        rfl
      · cases hi
  vpnDisabledApps := by
    have ha : (activate rawConfig).value "vpnDisabledApps" = some (.arr (splitTunnelApps rawConfig)) :=
      value_activate_of_mem (by simp [members])
    exact parseStringList_isSome ha h.apps

/-! ## The ranges -/

/-- The configuration asks for the networks of the texts: as its `allowed_ips`, which count before the split tunnel
unless they are the default ones, or as the sites of a split tunnel of type 1. -/
def AsksFor (rawConfig : Object) (texts : List String) : Prop :=
  plainAllowedIP rawConfig = texts.map .str ∧ texts ≠ [] ∧
      (texts = defaultAllowedIP → splitTunnelType rawConfig = 0 ∨ splitTunnelType rawConfig = 2) ∨
    (plainAllowedIP rawConfig = [] ∨ plainAllowedIP rawConfig = defaultAllowedIP.map .str) ∧
      splitTunnelType rawConfig = 1 ∧
      splitTunnelSites rawConfig = texts.map .str

def received (qt : Qt) (text : String) : IPAddress :=
  match splitSlash text with
  | address :: range :: _ => ⟨qt.hostAddress address, Value.toInt (some (.num (atoi range.toList)))⟩
  | _ => ⟨qt.hostAddress text, 32⟩

variable {text : String}

variable {qt : Qt}

theorem received_of_slash {address range : String} {rest : List String}
    (h : splitSlash text = address :: range :: rest) :
    received qt text = ⟨qt.hostAddress address, Value.toInt (some (.num (atoi range.toList)))⟩ := by
  rw [received, h]

theorem parseRange_rangeObject (qt : Qt) (address : String) (range : Int) (isIpv6 : Bool) :
    parseRange qt (rangeObject address range isIpv6) =
    some ⟨qt.hostAddress address, Value.toInt (some (.num range))⟩ := by
  simp [rangeObject, parseRange, Object.value_cons]

theorem parseRange_rangeOf (qt : Qt) (text : String) : parseRange qt (rangeOf text) = some (received qt text) := by
  unfold rangeOf received
  rcases splitSlash text with _ | ⟨address, _ | ⟨range, rest⟩⟩ <;> exact parseRange_rangeObject qt _ _ _

variable {texts : List String}

theorem parseRanges_activate (qt : Qt) (h : AsksFor rawConfig texts) :
    parseRanges qt (activate rawConfig) = some (texts.map (received qt)) := by
  have hv : (activate rawConfig).value "allowedIPAddressRanges" = some (.arr (allowedIPAddressRanges
      (splitTunnelType rawConfig) (splitTunnelSites rawConfig) (plainAllowedIP rawConfig))) :=
    value_activate_of_mem (by simp [members])
  have hte : ((texts.map Json.str).map fun v => rangeOf (Value.toText (some v))).mapM (parseRange qt) =
      some (texts.map (received qt)) := by
    rw [map_map, mapM_map]
    exact mapM_eq_some fun text _ => parseRange_rangeOf qt text
  have hr : parseRanges qt (activate rawConfig) = (allowedIPAddressRanges (splitTunnelType rawConfig)
      (splitTunnelSites rawConfig) (plainAllowedIP rawConfig)).mapM (parseRange qt) := by
    rw [parseRanges, hv]
  rw [hr, allowedIPAddressRanges]
  rcases h with ⟨hp, hne, hd⟩ | ⟨hp, ht, hs⟩
  · rw [hp]
    by_cases heq : texts = defaultAllowedIP
    · have ht : splitTunnelType rawConfig ≠ 1 := by
        rcases hd heq with h | h <;> rw [h] <;> decide
      subst heq
      rw [if_pos (hd rfl), if_neg ht]
      have hi4 : received qt "0.0.0.0/0" = ⟨qt.hostAddress "0.0.0.0", Value.toInt (some (.num (0 : Int)))⟩ := by
        rw [received_of_slash (show splitSlash "0.0.0.0/0" = ["0.0.0.0", "0"] by decide),
          show atoi "0".toList = 0 by decide]
      have hi6 : received qt "::/0" = ⟨qt.hostAddress "::", Value.toInt (some (.num (0 : Int)))⟩ := by
        rw [received_of_slash (show splitSlash "::/0" = ["::", "0"] by decide), show atoi "0".toList = 0 by decide]
      simp [defaultAllowedIP, parseRange_rangeObject, hi4, hi6]
    · have ho : texts.map Json.str ≠ defaultAllowedIP.map .str := fun h => heq (map_str_inj.mp h)
      rw [if_pos ⟨ho, by simpa using hne⟩]
      exact hte
  · rw [if_neg (by rcases hp with h | h <;> simp [h]), ht, hs]
    exact hte

/-! ## The networks of the texts -/

/-- The network that a text denotes: an address without prefix length is a single host. -/
def denoted (qt : Qt) (text : String) : Option IPAddress :=
  if '/' ∉ text.toList then
    match qt.hostAddress text with
    | .ipv4 a => some ⟨.ipv4 a, 32⟩
    | .ipv6 a => some ⟨.ipv6 a, 128⟩
    | .null => none
  else
    match splitSlash text with
    | [address, length] =>
      match qt.hostAddress address, decimal length.toList with
      | .ipv4 a, some n => if n ≤ 32 then some ⟨.ipv4 a, n⟩ else none
      | .ipv6 a, some n => if n ≤ 128 then some ⟨.ipv6 a, n⟩ else none
      | _, _ => none
    | _ => none

def BareIpv6 (qt : Qt) (text : String) : Prop := '/' ∉ text.toList ∧ ∃ a, qt.hostAddress text = .ipv6 a

def covered : IPAddress → Set QHostAddress
  | ⟨.ipv4 a, n⟩ => { x | ∃ b, x = .ipv4 b ∧ b >>> (32 - n.toNat) = a >>> (32 - n.toNat) }
  | ⟨.ipv6 a, n⟩ => { x | ∃ b, x = .ipv6 b ∧ b >>> (128 - n.toNat) = a >>> (128 - n.toNat) }
  | ⟨.null, _⟩ => ∅

def hosts (qt : Qt) (text : String) : Set QHostAddress := (denoted qt text).elim ∅ covered

/-- The ranges are the networks of the texts, counted and each with its addresses, by decreasing prefix length. -/
def Arrive (qt : Qt) (texts : List String) (ranges : List IPAddress) : Prop :=
  (ranges.map covered).Perm (texts.map (hosts qt)) ∧ ranges.Pairwise fun a b => a.prefixLength ≥ b.prefixLength

theorem foldlM_decimal {digits : List Char} {v n : Nat}
    (h : digits.foldlM (fun value c => if c.isDigit then some (value * 10 + (c.toNat - '0'.toNat)) else none)
      v = some n) :
    (∀ c ∈ digits, c.isDigit = true) ∧
    digits.foldl (fun value c => value * 10 + (c.toNat - '0'.toNat)) v = n := by
  induction digits generalizing v with
  | nil => exact ⟨by simp, by simpa using h⟩
  | cons c digits ih =>
    rw [foldlM_cons] at h
    by_cases hc : c.isDigit = true
    · rw [if_pos hc] at h
      obtain ⟨hd, hv⟩ := ih h
      exact ⟨by simpa [hc] using hd, hv⟩
    · rw [if_neg hc] at h
      cases h

/-- `atoi` reads a decimal number. -/
theorem atoi_of_decimal {digits : List Char} {n : Nat} (h : decimal digits = some n) : atoi digits = n := by
  unfold decimal at h
  split at h
  · cases h
  next hne =>
    obtain ⟨hd, hv⟩ := foldlM_decimal h
    have hdr : digits.dropWhile Text.isAsciiSpace = digits := by
      obtain ⟨c, rest, rfl⟩ := exists_cons_of_ne_nil hne
      have hc : c.isAlphanum = true := by simp [Char.isAlphanum, hd c mem_cons_self]
      simp [Text.isAsciiSpace_of_isAlphanum hc]
    have ht : digits.takeWhile Char.isDigit = digits := takeWhile_eq_self_iff.mpr hd
    unfold atoi
    rw [hdr]
    split
    · exact absurd (hd '-' mem_cons_self) (by decide)
    · exact absurd (hd '+' mem_cons_self) (by decide)
    · rw [ht, digitsValue, hv]

theorem splitSlash_of_bare (h : '/' ∉ text.toList) : splitSlash text = [text] := by
  rw [splitSlash, splitOn_eq_singleton h, map_singleton, String.ofList_toList]

theorem received_of_bare (h : '/' ∉ text.toList) : received qt text = ⟨qt.hostAddress text, 32⟩ := by
  rw [received, splitSlash_of_bare h]

/-- A text arrives as the network that it denotes, unless it is an IPv6 address without a prefix length. -/
theorem received_of_denoted {network : IPAddress} (h : denoted qt text = some network)
    (hb : ¬ BareIpv6 qt text) : received qt text = network := by
  unfold denoted at h
  split at h
  next hslash =>
    rw [received_of_bare hslash]
    cases ha : qt.hostAddress text with
    | ipv4 a =>
      rw [ha] at h
      exact Option.some.inj h
    | ipv6 a => exact absurd ⟨hslash, a, ha⟩ hb
    | null =>
      rw [ha] at h
      cases h
  next hslash =>
    split at h
    next address length hsplit =>
      rw [received_of_slash hsplit]
      cases hd : decimal length.toList with
      | none =>
        cases ha : qt.hostAddress address <;> simp [ha, hd] at h
      | some n =>
        rw [atoi_of_decimal hd]
        cases ha : qt.hostAddress address with
        | null => simp [ha] at h
        | ipv4 a =>
          simp only [ha, hd, Option.ite_none_right_eq_some, Option.some.injEq] at h
          rw [← h.2, Value.toInt_num (by omega)]
        | ipv6 a =>
          simp only [ha, hd, Option.ite_none_right_eq_some, Option.some.injEq] at h
          rw [← h.2, Value.toInt_num (by omega)]
    · cases h

theorem hosts_subsingleton_of_bareIpv6 (h : BareIpv6 qt text) :
    (hosts qt text).Subsingleton ∧ ¬ (covered (received qt text)).Subsingleton := by
  obtain ⟨hslash, a, ha⟩ := h
  have hd : denoted qt text = some ⟨.ipv6 a, 128⟩ := by
    rw [denoted, if_pos hslash, ha]
  constructor
  · rw [hosts, hd]
    rintro x ⟨b, rfl, hb⟩ y ⟨c, rfl, hc⟩
    have hb0 : b >>> 0 = a >>> 0 := hb
    have hc0 : c >>> 0 = a >>> 0 := hc
    rw [BitVec.ushiftRight_zero] at hb0 hc0
    rw [hb0, hc0]
  · rw [received_of_bare hslash, ha]
    intro hs
    -- the address with its last bit flipped is in the network, too
    have hfl : (a ^^^ 1#128) >>> 96 = a >>> 96 := by
      rw [BitVec.ushiftRight_xor_distrib]
      simp
    have heq : QHostAddress.ipv6 a = .ipv6 (a ^^^ 1#128) := hs ⟨a, rfl, rfl⟩ ⟨a ^^^ 1#128, rfl, hfl⟩
    have hx : a ^^^ a = a ^^^ (a ^^^ 1#128) := congrArg (a ^^^ ·) (QHostAddress.ipv6.inj heq)
    rw [← BitVec.xor_assoc, BitVec.xor_self] at hx
    exact absurd hx (by decide)

theorem countP_lt {α : Type} {p q : α → Bool} {l : List α} (hle : ∀ x ∈ l, p x = true → q x = true) {x : α}
    (hx : x ∈ l)
    (hq : q x = true) (hp : p x = false) : l.countP p < l.countP q := by
  obtain ⟨before, after, rfl⟩ := append_of_mem hx
  have hb := countP_mono_left fun y hy => hle y (mem_append_left _ hy)
  have ha := countP_mono_left fun y hy => hle y (mem_append_right _ (mem_cons_of_mem _ hy))
  rw [countP_append, countP_append, countP_cons, countP_cons, hp, hq]
  simp
  omega

theorem sortRanges_perm (ranges : List IPAddress) : (sortRanges ranges).Perm ranges := perm_insertionSort _ _

theorem sortRanges_pairwise (ranges : List IPAddress) :
    (sortRanges ranges).Pairwise fun a b => a.prefixLength ≥ b.prefixLength := by
  exact pairwise_insertionSort _ _

theorem parseConfig_activate (host : Host) (hc : Complete rawConfig)
    (ha : AsksFor rawConfig texts) : ∃ c, parseConfig host (activate rawConfig) = some c ∧
      c.allowedIPAddressRanges = sortRanges (texts.map (received host.qt)) :=
  parseConfig_ranges (wellFormed_activate hc) (parseRanges_activate host.qt ha)

theorem arrive_received_iff (hv : ∀ text ∈ texts, (denoted qt text).isSome) :
    Arrive qt texts (sortRanges (texts.map (received qt))) ↔ ∀ text ∈ texts, ¬ BareIpv6 qt text := by
  have hs : ∀ text ∈ texts, ¬ BareIpv6 qt text → covered (received qt text) = hosts qt text := by
    intro text ht hba
    obtain ⟨network, hne⟩ := Option.isSome_iff_exists.mp (hv text ht)
    rw [received_of_denoted hne hba, hosts, hne]
    rfl
  have hp : ((sortRanges (texts.map (received qt))).map covered).Perm
      (texts.map fun text => covered (received qt text)) := by
    have hso := (sortRanges_perm (texts.map (received qt))).map covered
    rwa [map_map] at hso
  constructor
  · rintro ⟨ha, -⟩ text ht hba
    -- the single hosts are counted: there are fewer among what arrives
    classical
    let single : Set QHostAddress → Bool := fun s => decide s.Subsingleton
    have hc := (hp.symm.trans ha).countP_eq single
    rw [countP_map, countP_map] at hc
    obtain ⟨hon, hm⟩ := hosts_subsingleton_of_bareIpv6 hba
    refine absurd hc (Nat.ne_of_lt (countP_lt ?_ ht ?_ ?_))
    · intro other ho hsi
      by_cases hb : BareIpv6 qt other
      · exact decide_eq_true (hosts_subsingleton_of_bareIpv6 hb).1
      · simpa [single, hs other ho hb] using hsi
    · exact decide_eq_true hon
    · exact decide_eq_false hm
  · intro hba
    refine ⟨?_, sortRanges_pairwise _⟩
    rw [map_congr_left fun text ht => hs text ht (hba text ht)] at hp
    exact hp

/-- **The networks arrive.** A configuration that the daemon accepts is for the networks of the texts just when none of
them is an IPv6 address without a prefix length. -/
theorem ranges_arrive_iff (host : Host) {rawConfig : Object} {texts : List String} (hcomplete : Complete rawConfig)
    (hasks : AsksFor rawConfig texts) (hvalid : ∀ text ∈ texts, (denoted host.qt text).isSome) :
    ∃ c, parseConfig host (activate rawConfig) = some c ∧
      (Arrive host.qt texts c.allowedIPAddressRanges ↔ ∀ text ∈ texts, ¬ BareIpv6 host.qt text) := by
  obtain ⟨c, hp, hr⟩ := parseConfig_activate host hcomplete hasks
  exact ⟨c, hp, hr ▸ arrive_received_iff hvalid⟩

/-! ## Examples -/

/-- Reads IPv4 addresses and a few IPv6 addresses. -/
def exampleHost : Host where
  qt :=
    { hostAddress := fun text =>
        if text = "2001:db8::1" then .ipv6 0x20010db8000000000000000000000001
        else if text = "2001:db8::" then .ipv6 0x20010db8000000000000000000000000
        else (Service.quad text).elim .null .ipv4
      parseSubnet := fun _ => (.null, -1)
      hostText := fun _ => "" }
  toInt text := (decimal text.toList).getD 0
  windows := false

def splitTunnelConfig (sites : List String) : Object :=
  [("protocol", .str "awg"), ("splitTunnelType", .num 1), ("splitTunnelSites", .arr (sites.map .str)),
    ("awg_config_data", .obj [("client_priv_key", .str "private"), ("server_pub_key", .str "public"),
      ("hostName", .str "203.0.113.7"), ("port", .num 51820)])]

theorem complete_splitTunnelConfig (sites : List String) : Complete (splitTunnelConfig sites) where
  privateKey := rfl
  publicKey := rfl
  hostName := rfl
  dns := .inl rfl
  apps app ha := by cases ha

theorem asksFor_splitTunnelConfig (sites : List String) : AsksFor (splitTunnelConfig sites) sites :=
  .inr ⟨.inl rfl, rfl, rfl⟩

theorem office_ranges_arrive :
    ∃ c,
      parseConfig exampleHost (activate (splitTunnelConfig ["192.0.2.1", "10.0.0.0/8", "2001:db8::/32"])) = some c ∧
      Arrive exampleHost.qt ["192.0.2.1", "10.0.0.0/8", "2001:db8::/32"] c.allowedIPAddressRanges := by
  obtain ⟨c, hp, hi⟩ := ranges_arrive_iff exampleHost
    (complete_splitTunnelConfig ["192.0.2.1", "10.0.0.0/8", "2001:db8::/32"]) (asksFor_splitTunnelConfig _) (by decide)
  refine ⟨c, hp, hi.mpr ?_⟩
  rintro text ht ⟨hslash, a, ha⟩
  simp only [mem_cons, not_mem_nil, or_false] at ht
  rcases ht with rfl | rfl | rfl
  · cases ha
  · exact absurd hslash (by decide)
  · exact absurd hslash (by decide)

/-- A single IPv6 host becomes the 2⁹⁶ addresses of its prefix of length 32. -/
theorem single_host_widened : ∃ c, parseConfig exampleHost (activate (splitTunnelConfig ["2001:db8::1"])) = some c ∧
      c.allowedIPAddressRanges = [⟨.ipv6 0x20010db8000000000000000000000001, 32⟩] ∧
      ¬ Arrive exampleHost.qt ["2001:db8::1"] c.allowedIPAddressRanges := by
  obtain ⟨c, hp, hr⟩ := parseConfig_activate exampleHost (complete_splitTunnelConfig ["2001:db8::1"])
    (asksFor_splitTunnelConfig _)
  refine ⟨c, hp, ?_, ?_⟩
  · rw [hr]
    decide
  · rw [hr, arrive_received_iff (by decide)]
    intro h
    exact h "2001:db8::1" (by simp) ⟨by decide, _, rfl⟩

end Cimogus.Client.LocalSocket
