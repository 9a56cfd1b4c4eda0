import Cimogus.Client.ServerController
import Cimogus.Lib.Json
import Cimogus.Lib.Loops
import Cimogus.Net.InetAddress
import Mathlib.Data.List.Nodup

/-!
# The settings of the servers

`Settings` reads the containers of a server into a map by their types, changes the map and writes the array again from
it. `edit_others_iff` says for which arrays the other containers are kept, and `nextAvailableServerName_least` that the
search for a name ends.
-/

namespace Cimogus.Client.Settings

open Lib Lib.Json Lib.Loops List ServerController
open Relation (TransGen)

/-! ## A list made again from a map -/

section ByKey

variable {α κ : Type} [DecidableEq κ] (key : α → κ) {keys : List κ} (l : List α)

/-- The last entry for every key, in the order of the keys. -/
def byKey (keys : List κ) : List α := keys.filterMap fun k => l.reverse.find? fun a => key a = k

theorem byKey_keys : (byKey key l keys).map key <+ keys := by
  induction keys with
  | nil => exact .slnil
  | cons k keys ih =>
    rw [byKey, filterMap_cons]
    cases h : l.reverse.find? fun a => key a = k with
    | none => exact ih.cons k
    | some a =>
      have ha : key a = k := by simpa using find?_some h
      exact ha ▸ ih.cons_cons (key a)

variable {key l}

/-- **The list is the same but for the order just if no key is there twice.** -/
theorem byKey_perm_iff (hk : keys.Nodup) (hl : ∀ a ∈ l, key a ∈ keys) :
    byKey key l keys ~ l ↔ (l.map key).Nodup := by
  have hn := hk.sublist (byKey_keys key l)
  refine ⟨fun h => (h.map key).nodup_iff.mp hn, fun h => ?_⟩
  refine (perm_ext_iff_of_nodup hn.of_map h.of_map).mpr fun a => ?_
  rw [byKey, mem_filterMap]
  constructor
  · rintro ⟨k, -, hf⟩
    exact mem_reverse.mp (mem_of_find?_eq_some hf)
  · intro ha
    refine ⟨key a, hl a ha, ?_⟩
    obtain ⟨b, hb⟩ : ∃ b, l.reverse.find? (fun x => key x = key a) = some b :=
      Option.isSome_iff_exists.mp (find?_isSome.mpr ⟨a, mem_reverse.mpr ha, decide_eq_true rfl⟩)
    have hba : key b = key a := by simpa using find?_some hb
    rw [hb, inj_on_of_nodup_map h (mem_reverse.mp (mem_of_find?_eq_some hb)) ha hba]

end ByKey

/-! ## Containers -/

/-- The values of the enumeration in their order, which is the order of a map too. -/
def dockerContainers : List DockerContainer :=
  [.None, .Awg, .WireGuard, .OpenVpn, .Cloak, .ShadowSocks, .Ipsec, .Xray, .SSXray, .TorWebSite, .Dns, .Sftp,
    .Socks5Proxy]

def containerFromString (name : String) : DockerContainer :=
  (dockerContainers.find? fun c => name = containerToString c).getD .None

def protoToString : Proto → String
  | .Any => ""
  | .OpenVpn => "openvpn"
  | .ShadowSocks => "shadowsocks"
  | .Cloak => "cloak"
  | .WireGuard => "wireguard"
  | .Awg => "awg"
  | .Ikev2 => "ikev2"
  | .L2tp => "l2tp"
  | .Xray => "xray"
  | .SSXray => "ssxray"
  | .TorWebSite => "torwebsite"
  | .Dns => "dns"
  | .Sftp => "sftp"
  | .Socks5Proxy => "socks5proxy"

def objectOf (entry : Json) : Object := Value.toObject (some entry)

def typeOf (container : Object) : DockerContainer := containerFromString (container.value "container").toText

abbrev ContainersMap := DockerContainer → Option Object

def containersMap (entries : List Json) : ContainersMap :=
  entries.foldl (fun m entry => Function.update m (typeOf (objectOf entry)) (some (objectOf entry))) fun _ => none

section Calls

variable (index : Nat) (c : DockerContainer) (servers : List Json)

/-- A negative index is not modelled: `replace` must not be called with one. -/
def server : Object := Value.toObject servers[index]?

def editServer (server : Object) : List Json := servers.set index (.obj server)

def containersArray : List Json := ((server index servers).value "containers").toArray

def containers : ContainersMap := containersMap (containersArray index servers)

def setContainers (m : ContainersMap) : List Json :=
  editServer index servers ((server index servers).set "containers" (.arr ((dockerContainers.filterMap m).map .obj)))

def containerConfig : Object := if c = .None then [] else (containers index servers c).getD []

def setContainerConfig (config : Object) : List Json :=
  if c = .None then servers
  else
    let config := config.set "container" (.str (containerToString c))
    setContainers index servers (Function.update (containers index servers) c (some config))

def removeContainerConfig : List Json :=
  if c = .None then servers else setContainers index servers (Function.update (containers index servers) c none)

def protocolConfig (proto : Proto) : Object := ((containerConfig index c servers).value (protoToString proto)).toObject

def setProtocolConfig (proto : Proto) (config : Object) : List Json :=
  setContainerConfig index c servers ((containerConfig index c servers).set (protoToString proto) (.obj config))

/-- `clearLastConnectionConfig` for one protocol. -/
def clearProtocol (proto : Proto) : List Json :=
  setProtocolConfig index c servers proto ((protocolConfig index c servers proto).remove "last_config")

/-- None of the protocols of a container is `Any`, so the call for each of them goes no further. -/
def clearLastConnectionConfig (proto : Proto) : List Json :=
  if proto = .Any then c.protocolsForContainer.foldl (clearProtocol index c) servers
    else clearProtocol index c servers proto

inductive Edit
  | setContainerConfig (config : Object)
  | removeContainerConfig
  | clearLastConnectionConfig (proto : Proto)

def edit : Edit → List Json
  | .setContainerConfig config => setContainerConfig index c servers config
  | .removeContainerConfig => removeContainerConfig index c servers
  | .clearLastConnectionConfig proto => clearLastConnectionConfig index c servers proto

/-- The containers of other types. -/
def others : List Json := (containersArray index servers).filter fun entry => typeOf (objectOf entry) ≠ c

/-- The map is changed at `c` only, and written. -/
def Edited (t : List Json) : Prop :=
  ∃ v : Option Object, (∀ o ∈ v, typeOf o = c) ∧
    t = setContainers index servers (Function.update (containers index servers) c v)

/-- What an edit leaves in any case. -/
structure Frame (t : List Json) : Prop where
  others : ∀ j, j ≠ index → t[j]? = servers[j]?
  length : t.length = servers.length
  members : ∀ key, key ≠ "containers" → (server index t).value key = (server index servers).value key

end Calls

/-- The entries are objects, and no two of them have the same type. -/
structure Separate (entries : List Json) : Prop where
  objects : ∀ entry ∈ entries, entry = .obj (objectOf entry)
  types : (entries.map fun entry => typeOf (objectOf entry)).Nodup

/-! ## The other containers -/

theorem containersMap_eq (entries : List Json) (d : DockerContainer) :
    containersMap entries d = (entries.map objectOf).reverse.find? fun o => typeOf o = d := by
  induction entries using reverseRecOn with
  | nil => rfl
  | append_singleton entries entry ih =>
    rw [containersMap, foldl_append, foldl_cons, foldl_nil, ← containersMap, map_append]
    by_cases h : typeOf (objectOf entry) = d
    · subst h
      simp
    · rw [Function.update_of_ne (Ne.symm h), ih]
      simp [h]

theorem containerFromString_containerToString (c : DockerContainer) :
    containerFromString (containerToString c) = c := by
  cases c <;> decide

theorem nodup_dockerContainers : dockerContainers.Nodup := by decide

def rebuilt (c : DockerContainer) (entries : List Json) : List Json :=
  (byKey typeOf (entries.map objectOf) (dockerContainers.filter (· ≠ c))).map .obj

variable {index : Nat} {c : DockerContainer} {servers t entries rest : List Json}

theorem separate_of_perm (h : entries ~ rebuilt c rest) : Separate entries := by
  refine ⟨fun entry he => ?_, (h.map _).nodup_iff.mpr ?_⟩
  · obtain ⟨o, -, rfl⟩ := mem_map.mp (h.mem_iff.mp he)
    rfl
  · rw [rebuilt, map_map]
    exact (nodup_dockerContainers.filter _).sublist (byKey_keys typeOf _)

theorem rebuilt_perm_iff : rebuilt c (others index c servers) ~ others index c servers ↔
    Separate (others index c servers) := by
  refine ⟨fun hp => separate_of_perm hp.symm, fun hs => ?_⟩
  have hk : ∀ o ∈ (others index c servers).map objectOf, typeOf o ∈ dockerContainers.filter (· ≠ c) := by
    intro o ho
    obtain ⟨entry, he, rfl⟩ := mem_map.mp ho
    have ha : typeOf (objectOf entry) ∈ dockerContainers := by cases typeOf (objectOf entry) <;> decide
    exact mem_filter.mpr ⟨ha, (mem_filter.mp he).2⟩
  have ho : ((others index c servers).map objectOf).map Json.obj = others index c servers := by
    rw [map_map]
    exact (map_congr_left fun entry he => (hs.objects entry he).symm).trans (map_id' _)
  have hp := (byKey_perm_iff (nodup_dockerContainers.filter _) hk).mpr (by rw [map_map]; exact hs.types)
  exact (hp.map Json.obj).trans (.of_eq ho)

theorem filter_update {m : ContainersMap} (hm : ∀ d, ∀ o ∈ m d, typeOf o = d) {v : Option Object}
    (hv : ∀ o ∈ v, typeOf o = c)
    (keys : List DockerContainer) :
    (keys.filterMap (Function.update m c v)).filter (fun o => typeOf o ≠ c) =
    (keys.filter (· ≠ c)).filterMap m := by
  induction keys with
  | nil => rfl
  | cons d keys ih =>
    by_cases hd : d = c
    · subst hd
      rw [filterMap_cons, Function.update_self, filter_cons_of_neg (by simp), ← ih]
      cases v with
      | none => rfl
      | some o => exact filter_cons_of_neg (by simpa using hv o rfl)
    · rw [filterMap_cons, Function.update_of_ne hd, filter_cons_of_pos (by simpa using hd), filterMap_cons]
      cases ho : m d with
      | none => exact ih
      | some o =>
        have ho : typeOf o = d := hm d o ho
        rw [filter_cons_of_pos (by simpa [ho] using hd), ih]

theorem others_edited (hi : index < servers.length) (h : Edited index c servers t) :
    others index c t = rebuilt c (others index c servers) := by
  obtain ⟨v, hv, rfl⟩ := h
  have hm : ∀ d, ∀ o ∈ containers index servers d, typeOf o = d := by
    intro d o ho
    rw [containers, containersMap_eq] at ho
    simpa using find?_some ho
  rw [others, containersArray, server, setContainers, editServer, getElem?_set_self hi, Value.toObject_obj,
    Object.value_set,
    if_pos rfl, Value.toArray_arr, filter_map]
  refine congrArg (map Json.obj) ((filter_update hm hv _).trans (filterMap_congr fun d hd => ?_))
  have hd : d ≠ c := by simpa using (mem_filter.mp hd).2
  -- the last container of the type `d` is among the others
  have ho : (others index c servers).map objectOf =
      ((containersArray index servers).map objectOf).filter fun o => typeOf o ≠ c := by
    rw [filter_map]
    rfl
  rw [containers, containersMap_eq, ho, ← filter_reverse, find?_filter]
  congr 1
  funext o
  by_cases h : typeOf o = d <;> simp [h, hd]

theorem Edited.frame (h : Edited index c servers t) : Frame index servers t := by
  obtain ⟨v, -, rfl⟩ := h
  refine ⟨fun j hj => getElem?_set_ne (Ne.symm hj), length_set, fun key hk => ?_⟩
  by_cases hi : index < servers.length
  · rw [server, setContainers, editServer, getElem?_set_self hi, Value.toObject_obj, Object.value_set, if_neg hk]
  · rw [setContainers, editServer, set_eq_of_length_le (by omega)]

theorem frame_of_transGen (h : TransGen (Edited index c) servers t) : Frame index servers t := by
  induction h with
  | single h => exact h.frame
  | tail _ h ih =>
    have h := h.frame
    exact ⟨fun j hj => (h.others j hj).trans (ih.others j hj), h.length.trans ih.length,
      fun key hk => (h.members key hk).trans (ih.members key hk)⟩

/-- **Several changes.** Only the first one can lose a container. -/
theorem others_transGen (hi : index < servers.length) (h : TransGen (Edited index c) servers t) :
    others index c t ~ rebuilt c (others index c servers) := by
  induction h with
  | single h => exact .of_eq (others_edited hi h)
  | tail hr h ih =>
    rw [others_edited ((frame_of_transGen hr).length ▸ hi) h]
    exact (rebuilt_perm_iff.mpr (separate_of_perm ih)).trans ih

section

variable (hc : c ≠ .None)
include hc

theorem edited_setContainerConfig (config : Object) :
    Edited index c servers (setContainerConfig index c servers config) := by
  refine ⟨_, fun o ho => ?_, if_neg hc⟩
  cases ho
  rw [typeOf, Object.value_set, if_pos rfl, Value.toText_str, containerFromString_containerToString]

theorem transGen_clear {ps : List Proto} (hp : ps ≠ []) :
    TransGen (Edited index c) servers (ps.foldl (clearProtocol index c) servers) := by
  induction ps generalizing servers with
  | nil => exact absurd rfl hp
  | cons p ps ih =>
    have h : Edited index c servers (clearProtocol index c servers p) := edited_setContainerConfig hc _
    by_cases hps : ps = []
    · exact hps ▸ .single h
    · exact .head h (ih hps)

theorem transGen_edit (e : Edit) : TransGen (Edited index c) servers (edit index c servers e) := by
  cases e with
  | setContainerConfig config => exact .single (edited_setContainerConfig hc config)
  | removeContainerConfig => exact .single ⟨none, nofun, if_neg hc⟩
  | clearLastConnectionConfig proto =>
    rw [edit, clearLastConnectionConfig]
    split
    · exact transGen_clear hc (by revert hc; cases c <;> decide)
    · exact .single (edited_setContainerConfig hc _)

end

/-- **What an edit of a container leaves.** For every array of servers, every index, every container but `None` and each
of the three edits: the other servers and the other members of the server are as they were. The containers of other
types are the same, but for the order, just if they are objects of which no two have the same type; of those with the
same type only the last one is kept, and all unknown names are of one type. -/
theorem edit_others_iff (index : Nat) (c : DockerContainer) (hc : c ≠ .None) (e : Edit) (servers : List Json) :
    Frame index servers (edit index c servers e) ∧
      (others index c (edit index c servers e) ~ others index c servers ↔ Separate (others index c servers)) := by
  have h : TransGen (Edited index c) servers _ := transGen_edit hc e
  have hf := frame_of_transGen h
  refine ⟨hf, ?_⟩
  by_cases hi : index < servers.length
  · have hp := others_transGen hi h
    rw [← rebuilt_perm_iff]
    exact ⟨hp.symm.trans, hp.trans⟩
  · have hn : ∀ l : List Json, l.length = servers.length → others index c l = [] := by
      intro l hl
      rw [others, containersArray, server, getElem?_eq_none (by omega)]
      rfl
    rw [hn _ hf.length, hn _ rfl]
    exact ⟨fun _ => ⟨nofun, nodup_nil⟩, fun _ => .nil⟩

/-- One server, with containers of these names. -/
def serverWith (names : List String) : List Json :=
  [.obj [("containers", .arr (names.map fun n => .obj [("container", .str n)]))]]

theorem edit_others_example : let servers := serverWith ["amnezia-awg", "amnezia-dns"]
    others 0 .Dns (removeContainerConfig 0 .Dns servers) ~ others 0 .Dns servers :=
  (edit_others_iff 0 .Dns nofun .removeContainerConfig _).2.mpr ⟨by decide, by decide⟩

/-- Of two containers with names that are not known one is lost when another one is removed. -/
theorem removeContainerConfig_loses :
    others 0 .Dns (serverWith ["new", "other", "amnezia-dns"]) =
      ["new", "other"].map (fun n => .obj [("container", .str n)]) ∧
      others 0 .Dns (removeContainerConfig 0 .Dns (serverWith ["new", "other", "amnezia-dns"])) =
        [.obj [("container", .str "other")]] := by
  decide

/-! ## The name of a new server -/

section Name

variable (tr : String → String) (servers : List Json)

def description (server : Json) : String := ((objectOf server).value "description").toText

def serverName (i : Nat) : String := tr "Server" ++ " " ++ toString i

def nameExist (i : Nat) : Bool := servers.any fun server => description server = serverName tr i

/-- A round of the `do`, and the number of the next one. -/
def nameRound (i : Nat) : Option Nat := if nameExist tr servers i then some (i + 1) else none

def nextAvailableServerName (fuel : Nat) : Option String := (loop (nameRound tr servers) fuel 1).map (serverName tr)

theorem serverName_inj {i j : Nat} (h : serverName tr i = serverName tr j) : i = j := by
  have h := congrArg String.toList h
  simp only [serverName, String.toList_append, append_assoc, append_cancel_left_eq, Nat.toString_eq_ofList_toDigits,
    String.toList_ofList] at h
  have h := congrArg (Net.number 10) h
  rwa [Net.number_toDigits (by decide) (by decide), Net.number_toDigits (by decide) (by decide), Option.some.injEq] at h

/-- The numbers before `i` are taken. -/
def Taken (i : Nat) : Prop := 1 ≤ i ∧ ∀ m, 1 ≤ m → m < i → nameExist tr servers m

variable {tr servers} {i j : Nat}

theorem Taken.le (h : Taken tr servers i) : i ≤ servers.length + 1 := by
  have hn : ((range' 1 (i - 1)).map (serverName tr)).Nodup := Nodup.map (fun _ _ => serverName_inj tr) (nodup_range' _)
  have hs : (range' 1 (i - 1)).map (serverName tr) ⊆ servers.map description := by
    intro name hname
    obtain ⟨m, hm, rfl⟩ := mem_map.mp hname
    rw [mem_range'_1] at hm
    simpa [nameExist] using h.2 m hm.1 (by omega)
  have hl := hn.length_le_of_subset hs
  simp only [length_map, length_range'] at hl
  omega

theorem Taken.round (h : Taken tr servers i) (hr : nameRound tr servers i = some j) :
    Taken tr servers j ∧ servers.length + 1 - j < servers.length + 1 - i := by
  rw [nameRound, Option.ite_none_right_eq_some, Option.some.injEq] at hr
  obtain ⟨he, rfl⟩ := hr
  have ht : Taken tr servers (i + 1) := by
    refine ⟨by omega, fun m hm hlt => ?_⟩
    rcases Nat.lt_succ_iff_lt_or_eq.mp hlt with hlt | rfl
    · exact h.2 m hm hlt
    · exact he
  have hle := ht.le
  exact ⟨ht, by omega⟩

/-- A number that is not taken, where all before it are, is the first one. -/
theorem Taken.unique (hi : Taken tr servers i) (hj : Taken tr servers j) (hni : nameRound tr servers i = none)
    (hnj : nameRound tr servers j = none) : i = j := by
  rw [nameRound, ite_eq_right_iff] at hni hnj
  rcases Nat.lt_trichotomy i j with hlt | heq | hlt
  · cases hni (hj.2 i hi.1 hlt)
  · exact heq
  · cases hnj (hi.2 j hj.1 hlt)

/-- **The name that is found.** For every list of less than 2³¹ - 1 servers the search ends, without an overflow of
the number, and the number is the least one from 1 whose name no server has. -/
theorem nextAvailableServerName_least (tr : String → String) (servers : List Json)
    (hlen : servers.length < 2147483647) :
    ∃ n,
      (∀ fuel, servers.length < fuel →
        nextAvailableServerName tr servers fuel = some (tr "Server" ++ " " ++ toString n)) ∧
      1 ≤ n ∧ n ≤ 2147483647 ∧ (∀ server ∈ servers, description server ≠ serverName tr n) ∧
      ∀ m, 1 ≤ m → m < n → ∃ server ∈ servers, description server = serverName tr m := by
  have hl : ∀ fuel, servers.length < fuel →
      ∃ n, loop (nameRound tr servers) fuel 1 = some n ∧ Taken tr servers n ∧ nameRound tr servers n = none :=
        fun fuel hf =>
    loop_of_decreasing (Taken tr servers) (fun i => servers.length + 1 - i) (fun _ _ => Taken.round)
      ⟨le_rfl, fun m hm hlt => absurd hlt (by omega)⟩ hf
  obtain ⟨n, -, ht, hr⟩ := hl _ (Nat.lt_succ_self _)
  refine ⟨n, fun fuel hf => ?_, ht.1, ht.le.trans (by omega), ?_, fun m hm hlt => ?_⟩
  · obtain ⟨k, hk, htk, hrk⟩ := hl fuel hf
    rw [nextAvailableServerName, hk, htk.unique ht hrk hr]
    rfl
  · simpa [nameRound, nameExist] using hr
  · simpa [nameExist] using ht.2 m hm hlt

theorem nextAvailableServerName_least_example :
    let servers := ["Server 1", "Server 3"].map fun name => Json.obj [("description", .str name)]
    ∃ n, (∀ fuel, 2 < fuel → nextAvailableServerName id servers fuel = some ("Server" ++ " " ++ toString n)) ∧
      1 ≤ n :=
  (nextAvailableServerName_least id (["Server 1", "Server 3"].map fun name => Json.obj [("description", .str name)])
    (by decide)).imp fun _ h => ⟨h.1, h.2.1⟩

end Name

end Cimogus.Client.Settings
