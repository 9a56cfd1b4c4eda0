import Cimogus.Client.CleanLinks
import Cimogus.Lib.Percent

/-!
# The parameters of VLESS and Trojan links

The values of a query become fields of the outbound. `QUrlQuery` decodes a value but for the percent sign and the
delimiters, which it keeps encoded; some fields take the value as it is then, and some are decoded once more. The
options for TLS of a Trojan link are read into an object of their own, and the stream settings are made of the query.
-/

namespace Cimogus.Client.Serialization

open Lib Lib.Json List

/-! ## What the stream settings have -/

section Stream

variable (qt : Qt) (query : Query)

/-- The values that `streamOf` sets. -/
def streamValues : List (List PathKey × Json) :=
  ifNot "tcp" (query.itemD qt "type" "tcp") ["network"] ++ typeSettings qt query (query.itemD qt "type" "tcp") ++
    securitySettings qt query

def tlsKey (security : String) : String :=
  if security = "xtls" then "xtlsSettings" else if security = "tls" then "tlsSettings" else "realitySettings"

/-- All paths at which something can be set. -/
def streamPaths (security : String) : List (List PathKey) :=
  [["network"], ["kcpSettings", "seed"], ["kcpSettings", "header", "type"], ["httpSettings", "path"],
    ["httpSettings", "host"],
    ["wsSettings", "path"], ["wsSettings", "headers", "Host"], ["quicSettings", "security"], ["quicSettings", "key"],
    ["quicSettings", "header", "type"], ["grpcSettings", "serviceName"], ["grpcSettings", "multiMode"], ["security"],
    [tlsKey security, "serverName"], [tlsKey security, "alpn"], ["realitySettings", "fingerprint"],
    ["realitySettings", "publicKey"], ["realitySettings", "spiderX"], ["realitySettings", "shortId"]].map path

theorem streamPaths_parted (security : String) : (streamPaths security).Pairwise (diverges · · = true) ∧
      ∀ q ∈ streamPaths security, diverges (path ["tlsSettings", "allowInsecure"]) q = true := by
  unfold streamPaths tlsKey
  split
  · decide
  split <;> decide

theorem paths_ite {values : List (List PathKey × Json)} {paths : List (List PathKey)} (c : Prop) [Decidable c]
    (h : (values.map Prod.fst).Sublist paths) : ((if c then values else []).map Prod.fst).Sublist paths := by
  split
  · exact h
  · exact nil_sublist _

variable {query} in
theorem paths_ifItem (key : String) (value : Json) (keys : List String) :
    ((ifItem query key value keys).map Prod.fst).Sublist [path keys] := paths_ite _ (List.Sublist.refl _)

theorem paths_ifNot (default value : String) (keys : List String) :
    ((ifNot default value keys).map Prod.fst).Sublist [path keys] :=
  paths_ite _ (List.Sublist.refl _)

theorem paths_typeSettings (type : String) :
    ((typeSettings qt query type).map Prod.fst).Sublist (((streamPaths "").drop 1).take 11) := by
  unfold typeSettings
  dsimp only
  split
  · rw [map_append]
    exact ((paths_ifItem ..).append (paths_ifNot ..)).trans (by decide)
  split
  · rw [map_append]
    exact ((paths_ifNot ..).append (paths_ifItem ..)).trans (by decide)
  split
  · rw [map_append]
    exact ((paths_ifNot ..).append (paths_ifItem ..)).trans (by decide)
  split
  · have hkey : ([(path ["quicSettings", "key"], Json.str (query.item qt "key"))].map Prod.fst).Sublist
        [path ["quicSettings", "key"]] := List.Sublist.refl _
    refine paths_ite _ ?_
    rw [map_append]
    exact (((List.Sublist.refl [path ["quicSettings", "security"]]).append (paths_ite _ hkey)).append
      (paths_ifNot ..)).trans
      (by decide)
  split
  · rw [map_append]
    exact ((paths_ifItem ..).append (paths_ifItem ..)).trans (by decide)
  · exact nil_sublist _

section

variable {qt query} {type : String} {v : Json}

theorem notMem_typeSettings {q : List PathKey} (hq : q ∉ ((streamPaths "").drop 1).take 11) :
    (q, v) ∉ typeSettings qt query type :=
  fun hm => hq ((paths_typeSettings qt query _).subset (mem_map_of_mem hm))

/-- The settings for the security are not among those for the type. -/
theorem security_notMem_typeSettings {k l : String}
    (hl : l ∈ ["serverName", "alpn", "fingerprint", "publicKey", "spiderX", "shortId"]) :
    ([.key k, .key l], v) ∉ typeSettings qt query type := by
  refine notMem_typeSettings fun hin => ?_
  simp only [streamPaths, path, map_cons, map_nil, drop_succ_cons, drop_zero, take_succ_cons, take_zero, mem_cons,
    cons.injEq, PathKey.key.injEq, reduceCtorEq, and_true, and_false, not_mem_nil, or_false, false_or] at hin
  obtain h | h | h | h | h | h | h | h := hin <;> exact absurd (h.2 ▸ hl) (by decide)

end

theorem paths_streamValues : ((streamValues qt query).map Prod.fst).Sublist (streamPaths (securityOf qt query)) := by
  simp only [streamValues, securitySettings, map_append]
  refine ((paths_ifNot ..).append (paths_typeSettings ..)).append
    ((((paths_ifNot ..).append (paths_ifItem ..)).append (paths_ite _ (paths_ifItem ..))).append (paths_ite _ ?_))
  simp only [map_append]
  exact (((paths_ifItem ..).append (paths_ifItem ..)).append (paths_ifItem ..)).append (paths_ifItem ..)

variable {qt query}

/-- What is at a path of the stream settings is the value that `streamOf` sets there, if it sets one. -/
theorem valueAt_streamOf_iff {keys : List String} {v : Json} (hk : path keys ∈ streamPaths (securityOf qt query)) :
    valueAt (path keys) (some (.obj (streamOf qt query))) = some v ↔ (path keys, v) ∈ streamValues qt query := by
  cases keys with
  | nil => exact absurd hk (by simp [streamPaths, path])
  | cons k keys => exact valueAt_setPaths_iff (streamPaths_parted _).1 (paths_streamValues qt query) hk

end Stream

/-! ## The parameters -/

structure Parameters where
  (seed key headerType path serviceName sni fp pbk sid spiderX flow : String)
  (host alpn : List String)
  host_ok : ∀ item ∈ host, ',' ∉ item.toList
  alpn_ok : ∀ item ∈ alpn, ',' ∉ item.toList ∧ item ≠ "h2"

/-- `QUrlQuery` and `fromPercentEncoding` as documented, for values that are encoded by `encode`: the default decoding
leaves the characters of `kept` encoded. -/
structure Documented (qt : Qt) (encode : String → String) (kept : Char → Bool) : Prop where
  delimiters : ∀ c ∈ ['%', '&', '='], kept c = true
  ascii : ∀ c, kept c = true → c.toNat < 128
  pretty : ∀ s, qt.prettyDecoded (encode s) = String.ofList (Percent.encode kept s.toList)
  percent : ∀ s : List Char, qt.fromPercentEncoding (String.ofList (Percent.encode kept s)) =
    String.ofList (Percent.decode (Percent.encode kept s))

namespace Parameters

variable (p : Parameters)

def items : List (String × String) :=
  [("seed", p.seed), ("key", p.key), ("headerType", p.headerType), ("host", Text.join ',' p.host), ("path", p.path),
    ("serviceName", p.serviceName), ("sni", p.sni), ("alpn", Text.join ',' p.alpn), ("fp", p.fp), ("pbk", p.pbk),
    ("sid", p.sid),
    ("spiderX", p.spiderX), ("flow", p.flow)]

/-- The query has every value, encoded once. -/
def CarriedBy (encode : String → String) (query : Query) : Prop :=
  ∀ item ∈ p.items, query.lookup item.1 = some (encode item.2)

/-- The fields of the stream settings for the type of the transport, with what they should hold, and those for its
security. -/
def typeFields (type quicSecurity : String) : List (List String × Json) :=
  if type = "kcp" then [(["kcpSettings", "seed"], .str p.seed), (["kcpSettings", "header", "type"], .str p.headerType)]
  else if type = "http" then [(["httpSettings", "path"], .str p.path), (["httpSettings", "host"], texts p.host)]
  else if type = "ws" then
    [(["wsSettings", "path"], .str p.path), (["wsSettings", "headers", "Host"], .str (Text.join ',' p.host))]
  else if type = "quic" then
    (if quicSecurity ≠ "none" then [(["quicSettings", "key"], .str p.key)] else []) ++
      [(["quicSettings", "header", "type"], .str p.headerType)]
  else if type = "grpc" then [(["grpcSettings", "serviceName"], .str p.serviceName)]
  else []

def securityFields (security : String) : List (List String × Json) := (if security ∈ ["tls", "xtls", "reality"] then
    [([tlsKey security, "serverName"], .str p.sni), ([tlsKey security, "alpn"], texts p.alpn)] else []) ++
  if security = "reality" then
    [(["realitySettings", "fingerprint"], .str p.fp), (["realitySettings", "publicKey"], .str p.pbk),
      (["realitySettings", "spiderX"], .str p.spiderX), (["realitySettings", "shortId"], .str p.sid)]
  else []

/-- The fields of an outbound; the flow is one of VLESS. -/
def fields (qt : Qt) (query : Query) (vless : Bool) : List (List PathKey × Json) :=
  (p.typeFields (query.itemD qt "type" "tcp") (query.itemD qt "quicSecurity" "none") ++
    p.securityFields (securityOf qt query)).map
      (fun f => (.key "streamSettings" :: Serialization.path f.1, f.2)) ++
    if vless = true ∧
      (securityOf qt query = "xtls" ∨ securityOf qt query = "reality") then [(Vless.userPath "flow", .str p.flow)]
      else []

/-- No character of the value stays encoded when it is decoded once. -/
def Free (kept : Char → Bool) (s : String) : Prop := ∀ c ∈ s.toList, kept c = false

/-- What the fields for the type of the transport need: a value that is decoded once is free, one with a default is
not the default, which is not written, and a list is not empty. For `quic` nothing is written without `quicSecurity`. -/
def TypePlain (kept : Char → Bool) (qt : Qt) (query : Query) (type : String) : Prop :=
  if type = "kcp" then Free kept p.seed ∧ Free kept p.headerType ∧ p.headerType ≠ "none"
  else if type = "http" then p.path ≠ "/" ∧ p.host ≠ [] ∧ Free kept (Text.join ',' p.host)
  else if type = "ws" then p.path ≠ "/" ∧ Free kept (Text.join ',' p.host)
  else if type = "quic" then
    query.hasItem "quicSecurity" = true ∧ (query.itemD qt "quicSecurity" "none" ≠ "none" → Free kept p.key) ∧
      Free kept p.headerType ∧ p.headerType ≠ "none"
  else True

/-- What the fields that the link has need. -/
structure Plain (kept : Char → Bool) (qt : Qt) (query : Query) (vless : Bool) : Prop where
  type : p.TypePlain kept qt query (query.itemD qt "type" "tcp")
  security : securityOf qt query ∈ ["tls", "xtls", "reality"] → Free kept p.sni ∧ p.alpn ≠ []
  flow : vless = true → securityOf qt query = "xtls" ∨ securityOf qt query = "reality" → Free kept p.flow

end Parameters

section Values

variable {qt : Qt} {encode : String → String} {kept : Char → Bool} (hqt : Documented qt encode kept) {query : Query}
  {p : Parameters} (hp : p.CarriedBy encode query)

include hqt hp

theorem items_read :
    ∀ item ∈ p.items, query.hasItem item.1 = true ∧ query.itemDecodedTwice qt item.1 = item.2 := by
  intro item hi
  constructor
  · rw [Query.hasItem, hp item hi]
    rfl
  · rw [Query.itemDecodedTwice, Query.item, hp item hi, Option.getD_some, hqt.pretty, hqt.percent,
      Percent.decode_encode (hqt.delimiters '%' (by decide)) hqt.ascii, String.ofList_toList]

/-- One decoding gives the value just if it is free. -/
theorem items_decodedOnce : ∀ item ∈ p.items, item.2 = query.item qt item.1 ↔ Parameters.Free kept item.2 := by
  intro item hi
  rw [Query.item, hp item hi, Option.getD_some, hqt.pretty, Parameters.Free, ← Percent.encode_eq_self_iff,
    ← String.toList_inj, String.toList_ofList, eq_comm]

/-- The fields of the type hold what they should just if it is plain for them. -/
theorem typeFields_hold_iff :
    (∀ f ∈ p.typeFields (query.itemD qt "type" "tcp") (query.itemD qt "quicSecurity" "none"),
      valueAt (path f.1) (some (.obj (streamOf qt query))) = some f.2) ↔
        p.TypePlain kept qt query (query.itemD qt "type" "tcp") := by
  have hr := items_read hqt hp
  have ho := items_decodedOnce hqt hp
  have hhost : p.host = Text.split (query.item qt "host") ',' ↔
      p.host ≠ [] ∧ Text.join ',' p.host = query.item qt "host" := by
    rw [eq_comm, Text.split_eq_iff p.host_ok, eq_comm (a := query.item qt "host")]
  simp only [Parameters.items, forall_mem_cons] at hr ho
  obtain ⟨hseed, hkey, hheader, hjoin, -⟩ := ho
  -- the type of the header is written if it is not the default
  have hheader : ¬query.item qt "headerType" = "none" ∧ p.headerType = query.item qt "headerType" ↔
      Parameters.Free kept p.headerType ∧ ¬p.headerType = "none" := by
    rw [← hheader]
    exact ⟨fun ⟨hne, heq⟩ => ⟨heq, heq ▸ hne⟩, fun ⟨heq, hne⟩ => ⟨heq ▸ hne, heq⟩⟩
  have hpaths : ∀ f ∈ p.typeFields (query.itemD qt "type" "tcp") (query.itemD qt "quicSecurity" "none"),
      path f.1 ∈ streamPaths (securityOf qt query) := by
    unfold Parameters.typeFields
    repeat' split
    all_goals simp [streamPaths]
  rw [forall₂_congr fun f hf => valueAt_streamOf_iff (hpaths f hf)]
  unfold Parameters.typeFields Parameters.TypePlain streamValues typeSettings
  generalize query.itemD qt "type" "tcp" = type
  split
  · simp [ifItem, ifNot, Query.itemD, hr, securitySettings, path, hseed, hheader]
  split
  · simp [ifItem, ifNot, hr, securitySettings, path, itemList, texts, map_str_inj, hhost, hjoin]
  split
  · simp [ifItem, ifNot, hr, securitySettings, path, hjoin]
  split
  · by_cases hq : query.hasItem "quicSecurity" = true
    · by_cases hno : query.item qt "quicSecurity" = "none" <;>
        simp [ifItem, ifNot, Query.itemD, hr, hq, hno, securitySettings, path, hheader, hkey]
    · simp [ifItem, ifNot, Query.itemD, hr, hq, securitySettings, path]
  split
  · simp [ifItem, hr, securitySettings, path]
  · simp

/-- The fields of the security hold what they should just if the server name is free and `alpn` is not empty. -/
theorem securityFields_hold_iff : (∀ f ∈ p.securityFields (securityOf qt query),
    valueAt (path f.1) (some (.obj (streamOf qt query))) = some f.2) ↔
      (securityOf qt query ∈ ["tls", "xtls", "reality"] → Parameters.Free kept p.sni ∧ p.alpn ≠ []) := by
  have hr := items_read hqt hp
  have hsni := items_decodedOnce hqt hp ("sni", p.sni) (by simp [Parameters.items])
  have halpn : (Text.split (Text.join ',' p.alpn) ',').filter (· ≠ "h2") = if p.alpn = [] then [""] else p.alpn := by
    split
    next he => rw [he]; rfl
    next he =>
      rw [(Text.split_eq_iff fun item hi => (p.alpn_ok item hi).1).mpr ⟨he, rfl⟩]
      exact filter_eq_self.mpr fun item hi => decide_eq_true (p.alpn_ok item hi).2
  simp only [Parameters.items, forall_mem_cons] at hr
  have hpaths : ∀ f ∈ p.securityFields (securityOf qt query), path f.1 ∈ streamPaths (securityOf qt query) := by
    unfold Parameters.securityFields
    split <;> split <;> simp [streamPaths]
  rw [forall₂_congr fun f hf => valueAt_streamOf_iff (hpaths f hf)]
  unfold Parameters.securityFields streamValues securitySettings tlsKey
  simp only [hr, halpn]
  by_cases hs : securityOf qt query ∈ ["tls", "xtls", "reality"]
  · by_cases he : p.alpn = [] <;> by_cases hre : securityOf qt query = "reality" <;>
      simp [hs, hre, he, ifItem, ifNot, hr, hsni, path, texts, security_notMem_typeSettings]
  · have hre : securityOf qt query ≠ "reality" := fun h => hs (by simp [h])
    simp [hs, hre]

end Values

/-! ## The links -/

section Links

variable {qt : Qt} {encode : String → String} {kept : Char → Bool}

/-- The configuration has one outbound, and each field holds what it should. -/
def Deserialized.Yields (d : Deserialized) (fields : List (List PathKey × Json)) : Prop :=
  ∃ outbound, outboundsOf d.object = [outbound] ∧ ∀ f ∈ fields, valueAt f.1 (some outbound) = some f.2

theorem Vless.valueAt_flow {url : Url} (h : securityOf qt url.query = "xtls" ∨ securityOf qt url.query = "reality") :
    valueAt (userPath "flow") (some (.obj (outbound qt url))) = some (.str (url.query.item qt "flow")) := by
  have hpa : [userPath "flow", [.key "streamSettings"]].Pairwise (diverges · · = true) := by decide
  rw [outbound, if_pos h, append_assoc, Object.setPaths, List.foldl_append]
  refine valueAt_setPaths_of_mem ?_ mem_cons_self _
  exact hpa

theorem Vless.outbound_of_no_error {str linkAlias : String} (h : (deserialize qt str linkAlias).errMessage = "") :
    outboundsOf (deserialize qt str linkAlias).object = [.obj (outbound qt (qt.url str))] := by
  have of_error {object : Object} {remarks e : String} {P : Prop} (hne : e ≠ "")
      (he : (Deserialized.mk object remarks e).errMessage = "") : P := absurd he hne
  revert h
  unfold deserialize
  dsimp only
  split
  · exact of_error (by decide)
  split
  · exact of_error (append_ne_empty (by decide))
  split
  · exact of_error (by decide)
  split
  · exact of_error (by decide)
  split
  · exact of_error (by decide)
  · exact fun _ => outboundsOf_rootOf _ _

theorem valueAt_streamSettings {outbound stream : Object} (h : outbound.value "streamSettings" = some (.obj stream))
    (q : List PathKey) : valueAt (.key "streamSettings" :: q)
    (some (.obj outbound)) = valueAt q (some (.obj stream)) := by
  rw [valueAt, Value.toObject_obj, h]

/-- A configuration with one outbound holds what that one holds. -/
theorem Deserialized.yields_iff {d : Deserialized} {outbound : Json} (h : outboundsOf d.object = [outbound])
    (fields : List (List PathKey × Json)) :
    d.Yields fields ↔ ∀ f ∈ fields, valueAt f.1 (some outbound) = some f.2 := by
  simp [Yields, h]

/-- The fields hold what they should just if the values are plain. -/
theorem fields_hold_iff (hqt : Documented qt encode kept) {query : Query} {p : Parameters}
    (hp : p.CarriedBy encode query) {outbound : Object}
    (hs : outbound.value "streamSettings" = some (.obj (streamOf qt query))) {vless : Bool}
    (hflow : vless = true → securityOf qt query = "xtls" ∨ securityOf qt query = "reality" →
      valueAt (Vless.userPath "flow") (some (.obj outbound)) = some (.str (query.item qt "flow"))) :
    (∀ f ∈ p.fields qt query vless, valueAt f.1 (some (.obj outbound)) = some f.2) ↔
    p.Plain kept qt query vless := by
  have hfree := items_decodedOnce hqt hp ("flow", p.flow) (by simp [Parameters.items])
  have hlast : (∀ f ∈ if vless = true ∧ (securityOf qt query = "xtls" ∨ securityOf qt query = "reality") then
      [(Vless.userPath "flow", Json.str p.flow)] else [], valueAt f.1 (some (.obj outbound)) = some f.2) ↔
      (vless = true → securityOf qt query = "xtls" ∨ securityOf qt query = "reality" →
        Parameters.Free kept p.flow) := by
    split
    next h => simp [h.1, h.2, hflow h.1 h.2, ← hfree, eq_comm (b := p.flow)]
    next h => exact iff_of_true (by simp) fun hv hse => absurd ⟨hv, hse⟩ h
  simp only [Parameters.fields, forall_mem_append, forall_mem_map, valueAt_streamSettings hs,
    typeFields_hold_iff hqt hp, securityFields_hold_iff hqt hp, hlast]
  exact ⟨fun ⟨⟨ht, hse⟩, hfl⟩ => ⟨ht, hse, hfl⟩, fun ⟨ht, hse, hfl⟩ => ⟨⟨ht, hse⟩, hfl⟩⟩

/-- **The parameters.** Links for VLESS that are accepted, and links for Trojan: all fields that the link has hold the
original strings just if the values for them are plain. -/
theorem parameters_decoded (hqt : Documented qt encode kept) (p : Parameters) (str linkAlias : String) :
    ((Vless.deserialize qt str linkAlias).errMessage = "" → p.CarriedBy encode (qt.url str).query →
      ((Vless.deserialize qt str linkAlias).Yields (p.fields qt (qt.url str).query true) ↔
        p.Plain kept qt (qt.url str).query true)) ∧
    (Text.startsWith str "trojan://" = true → p.CarriedBy encode (qt.url (qt.trimmed str)).query →
      ((Trojan.deserialize qt str linkAlias).Yields (p.fields qt (qt.url (qt.trimmed str)).query false) ↔
        p.Plain kept qt (qt.url (qt.trimmed str)).query false)) := by
  constructor
  · intro he hp
    rw [Deserialized.yields_iff (Vless.outbound_of_no_error he)]
    refine fields_hold_iff hqt hp ?_ fun _ => Vless.valueAt_flow
    rw [Vless.outbound, Object.setPaths, List.foldl_append]
    exact valueAt_setPath _ [.key "streamSettings"] _
  · intro hl hp
    rw [Trojan.deserialize, hl, Deserialized.yields_iff (outboundsOf_rootOf _ _)]
    refine fields_hold_iff hqt hp ?_ (by simp)
    rw [Object.value_set, if_pos rfl]

end Links

section Example

def exampleKept (c : Char) : Bool := c ∈ ['%', '&', '=']

def exampleEncode (s : String) : String := String.ofList (Percent.encode exampleKept s.toList)

def exampleParameters (seed : String) : Parameters :=
  ⟨seed, "k", "srtp", "/a", "s", "b", "chrome", "p", "0", "/", "", ["a"], ["b"], by decide, by decide⟩

/-- Every link is one for `kcp` with these parameters. -/
def exampleQt (seed : String) : Qt :=
  { bareQt with
    url := fun _ =>
      { bareUrl with
        query := ("type", "kcp") :: (exampleParameters seed).items.map fun item => (item.1, exampleEncode item.2) }
    fromPercentEncoding := fun s => String.ofList (Percent.decode s.toList) }

theorem exampleQt_documented (seed : String) : Documented (exampleQt seed) exampleEncode exampleKept where
  delimiters := by simp [exampleKept]
  ascii c hc := by
    simp only [exampleKept, mem_cons, not_mem_nil, or_false, decide_eq_true_eq] at hc
    rcases hc with rfl | rfl | rfl <;> decide
  pretty _ := rfl
  percent s := congrArg (fun t => String.ofList (Percent.decode t)) String.toList_ofList

theorem exampleQt_carries (seed str : String) :
    (exampleParameters seed).CarriedBy exampleEncode ((exampleQt seed).url str).query := by
  simp [Parameters.CarriedBy, Parameters.items, exampleQt, lookup_cons]

theorem parameters_decoded_abc : (Trojan.deserialize (exampleQt "abc") "trojan://" "").Yields
    ((exampleParameters "abc").fields (exampleQt "abc") ((exampleQt "abc").url "").query false) :=
  ((parameters_decoded (exampleQt_documented "abc") _ "trojan://" "").2 (by decide) (exampleQt_carries "abc" _)).mpr
    { type := by
        have ht : ((exampleQt "abc").url "").query.itemD (exampleQt "abc") "type" "tcp" = "kcp" := by decide
        refine ht ▸ ?_
        simp [Parameters.TypePlain, Parameters.Free, exampleParameters, exampleKept]
      security := fun h => absurd h (by decide)
      flow := fun h => absurd h (by decide) }

/-- A percent sign in the seed arrives as `%25`. -/
theorem percent_sign_stays_encoded : ¬ (Trojan.deserialize (exampleQt "100%") "trojan://" "").Yields
    ((exampleParameters "100%").fields (exampleQt "100%") ((exampleQt "100%").url "").query false) := by
  rintro ⟨outbound, ho, hfi⟩
  let query := ((exampleQt "100%").url "").query
  have ht : query.itemD (exampleQt "100%") "type" "tcp" = "kcp" := by decide
  have hse : (path ["kcpSettings", "seed"], .str (query.item (exampleQt "100%") "seed")) ∈
      streamValues (exampleQt "100%") query := by
    rw [streamValues, ht, typeSettings, if_pos rfl, ifItem, if_pos (by decide)]
    simp
  have hs := hfi (.key "streamSettings" :: path ["kcpSettings", "seed"], .str "100%") (by
    rw [Parameters.fields, ht]
    simp [Parameters.typeFields, exampleParameters])
  obtain rfl := singleton_inj.mp ((outboundsOf_rootOf _ _).symm.trans ho)
  rw [valueAt, Value.toObject_obj, Object.value_set, if_pos rfl] at hs
  have hat := (valueAt_streamOf_iff (by simp [streamPaths])).mpr hse
  exact absurd (Json.str.inj (Option.some.inj (hat.symm.trans hs))) (by decide)

end Example

/-! ## The options for TLS -/

namespace Trojan

variable {qt : Qt}

def insecure (qt : Qt) (query : Query) : Bool :=
  isTrue qt query "allowInsecure" || isTrue qt query "allowInsecureHostname" &&
    isTrue qt query "allowInsecureCertificate"

/-- The stream settings use TLS as the link says. -/
def TlsApplies (qt : Qt) (url : Url) (d : Deserialized) : Prop := ∃ outbound, outboundsOf d.object = [outbound] ∧
    valueAt (path ["streamSettings", "security"]) (some outbound) = some (.str "tls") ∧
    valueAt (path ["streamSettings", "tlsSettings", "serverName"]) (some outbound) = some (.str (server qt url).sni) ∧
    (valueAt (path ["streamSettings", "tlsSettings", "allowInsecure"]) (some outbound) = some (.bool true) ↔
      insecure qt url.query = true)

/-- The path of `allowInsecure` is none of those at which something is set. -/
theorem valueAt_allowInsecure (query : Query) :
    valueAt (path ["tlsSettings", "allowInsecure"]) (some (.obj (streamOf qt query))) = none :=
  (valueAt_setPaths_of_diverges (fun value hv =>
    (streamPaths_parted _).2 value.1 ((paths_streamValues qt query).subset (mem_map_of_mem hv))) []).trans
      (valueAt_none _)

/-- The server name is written from `sni` only, decoded once. -/
theorem serverName_mem_iff {query : Query} (h : securityOf qt query = "tls") (s : String) :
    (path ["tlsSettings", "serverName"], .str s) ∈ streamValues qt query ↔
      query.hasItem "sni" = true ∧ s = query.item qt "sni" := by
  have ht {v : Json} : (path ["tlsSettings", "serverName"], v) ∉
      typeSettings qt query (query.itemD qt "type" "tcp") :=
    security_notMem_typeSettings (by simp)
  simp only [streamValues, mem_append, ht, or_false]
  simp [securitySettings, h, ifNot, ifItem, path]

/-- **The options for TLS** of a link without a security or with `tls` take effect iff the link has a security and a
server name that one decoding decodes, and does not ask for an insecure connection: what stands for a missing one is not
looked for, and `allowInsecure` is never written. -/
theorem tls_options_apply {str linkAlias : String} (hlink : Text.startsWith str "trojan://" = true) {url : Url}
    (hurl : qt.url (qt.trimmed str) = url)
    (hsecurity : url.query.hasItem "security" = true → url.query.item qt "security" = "tls") :
    TlsApplies qt url (deserialize qt str linkAlias) ↔ url.query.hasItem "security" = true ∧
      (url.query.hasItem "sni" = true ∧ url.query.itemFullyDecoded qt "sni" = url.query.item qt "sni") ∧
      insecure qt url.query = false := by
  have hs (outbound : Object) (keys : List String) : valueAt (path ("streamSettings" :: keys))
      (some (.obj (outbound.set "streamSettings" (.obj (streamOf qt url.query))))) =
        valueAt (path keys) (some (.obj (streamOf qt url.query))) :=
    valueAt_streamSettings ((outbound.value_set _ _ _).trans (if_pos rfl)) _
  simp only [deserialize, hlink, hurl, TlsApplies, Bool.not_true, Bool.false_eq_true, if_false, outboundsOf_rootOf,
    singleton_inj, exists_eq_left', hs, valueAt_allowInsecure]
  rw [valueAt_streamOf_iff (by simp [streamPaths])]
  cases hh : url.query.hasItem "security" with
  | false =>
    have hno : securityOf qt url.query = "none" := by rw [securityOf, Query.itemD, hh]; rfl
    have hn : (path ["security"], Json.str "tls") ∉ streamValues qt url.query := by
      simp only [streamValues, mem_append, notMem_typeSettings (by decide : path ["security"] ∉ _), or_false]
      simp [securitySettings, hno, ifNot, ifItem, path]
    simp [hn]
  | true =>
    have ht : securityOf qt url.query = "tls" := by rw [securityOf, Query.itemD, if_pos hh, hsecurity hh]
    have hone : (path ["security"], Json.str "tls") ∈ streamValues qt url.query := by
      simp [streamValues, securitySettings, ht, ifNot]
    rw [valueAt_streamOf_iff (by simp [streamPaths, tlsKey, ht]), serverName_mem_iff ht]
    have hsni : url.query.hasItem "sni" = true → (server qt url).sni = url.query.itemFullyDecoded qt "sni" :=
      fun h => if_pos h
    cases hi : insecure qt url.query <;> simp +contextual [hone, hsni]

/-- A link without parameters does not use TLS. -/
theorem no_security_no_tls :
    Text.startsWith "trojan://" "trojan://" = true ∧ (bareQt.url "trojan://").query.hasItem "security" = false ∧
    ¬ TlsApplies bareQt (bareQt.url "trojan://") (deserialize bareQt "trojan://" "") := by
  refine ⟨by decide, by decide, ?_⟩
  rintro ⟨outbound, ho, hs, -⟩
  obtain rfl := singleton_inj.mp ((outboundsOf_rootOf _ _).symm.trans ho)
  rw [path, map_cons, valueAt, Value.toObject_obj, Object.value_set, if_pos rfl] at hs
  have hni : streamOf bareQt (bareQt.url (bareQt.trimmed "trojan://")).query = [] := rfl
  rw [hni] at hs
  cases hs

/-- Knows a link with a security and a server name. -/
def tlsQt : Qt := { bareQt with url := fun _ => { bareUrl with query := [("security", "tls"), ("sni", "b")] } }

theorem tls_options_apply_named : TlsApplies tlsQt (tlsQt.url "trojan://") (deserialize tlsQt "trojan://" "") :=
  (tls_options_apply (by decide) rfl (by decide)).mpr (by decide)

end Trojan

end Cimogus.Client.Serialization
