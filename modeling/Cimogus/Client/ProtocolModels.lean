import Cimogus.Client.ContainerMtu
import Cimogus.Client.ScriptVars

/-!
# Editing the settings of AmneziaWG and of WireGuard

`getConfig` compares the settings of the server with those it has stored, and stores the edited ones in their place. So
it finds a difference once: the next call compares the edited settings with themselves.
-/

namespace Cimogus.Client.ProtocolModels

open Lib Lib.Json Import List
open ServerController (textOr)

/-- The settings of a server with their defaults, and those that a client can have for itself besides the `mtu`. -/
structure Protocol where
  key : String
  serverSettings : List (String × String)
  clientSettings : List String

/-- `AwgConfigModel`. -/
def awg : Protocol where
  key := "awg"
  serverSettings := [("port", "55424"), ("Jc", "3"), ("Jmin", "10"), ("Jmax", "30"), ("S1", "15"), ("S2", "18"),
    ("H1", "1020325451"), ("H2", "3288052141"), ("H3", "1766607858"), ("H4", "2528465083")]
  clientSettings := ["Jc", "Jmin", "Jmax"]

/-- `WireGuardConfigModel`. -/
def wireguard : Protocol := ⟨"wireguard", [("port", "51820")], []⟩

structure ProtocolModel where
  fullConfig : Object
  serverConfig : Object
  clientConfig : Object

inductive Role
  | server (key : String)
  | client (key : String)

variable (sys : System) (p : Protocol)

/-- What was loaded before stays under the keys that are not set here. -/
def updateModel (config : Object) (m : ProtocolModel) : ProtocolModel :=
  let loaded := (config.value p.key).toObject
  let server :=
    m.serverConfig.insertAll (("transport_proto", some (.str (textOr (loaded.value "transport_proto") "udp"))) ::
    ("last_config", loaded.value "last_config") ::
    p.serverSettings.map fun (key, default) => (key, some (.str (textOr (loaded.value key) default))))
  let client := objectOf sys (server.value "last_config").toText
  { fullConfig := config
    serverConfig := server
    clientConfig := m.clientConfig.insertAll (("mtu", some (.str (textOr (client.value "mtu") (defaultMtu sys)))) ::
      p.clientSettings.map fun key => (key, some (.str (textOr (client.value key) (server.value key).toText)))) }

/-- A role that the model does not have changes nothing. -/
def setData (m : ProtocolModel) : Role × String → ProtocolModel
  | (.server key, value) =>
    if key ∈ p.serverSettings.map Prod.fst then { m with serverConfig := m.serverConfig.set key (.str value) } else m
  | (.client key, value) =>
    if key ∈ "mtu" :: p.clientSettings then { m with clientConfig := m.clientConfig.set key (.str value) } else m

/-- What `hasEqualServerSettings` compares of an `AwgConfig` or a `WgConfig`. -/
def Protocol.settings (config : Object) : List String :=
  p.serverSettings.map fun (key, default) => textOr (config.value key) default

def isServerSettingsEqual (m : ProtocolModel) : Prop :=
  p.settings (m.fullConfig.value p.key).toObject = p.settings m.serverConfig

instance (m : ProtocolModel) : Decidable (isServerSettingsEqual p m) := inferInstanceAs (Decidable (_ = _))

/-- The client's configuration with the settings of the model. -/
def jsonConfig (m : ProtocolModel) : Object :=
  (objectOf sys (m.serverConfig.value "last_config").toText).insertAll
    (("mtu" :: p.clientSettings).map fun key => (key, m.clientConfig.value key))

def getConfig (m : ProtocolModel) : Object × ProtocolModel :=
  let server :=
    if isServerSettingsEqual p m then m.serverConfig.set "last_config"
      (.str (sys.qt.toJson (.obj (jsonConfig sys p m))))
    else m.serverConfig.remove "last_config"
  let full := m.fullConfig.set p.key (.obj server)
  (full, { m with fullConfig := full, serverConfig := server })

/-- The configuration that is generated for a client, in what `getConfig` gives. -/
def lastConfig (config : Object) : Value := (config.value p.key).toObject.value "last_config"

/-- What is needed of Qt's JSON: the text of an object depends on its members, and it is read as an object with the same
ones. -/
structure WritesMembers (o : Object) : Prop where
  reads : ∀ key, (objectOf sys (sys.qt.toJson (.obj o))).value key = o.value key
  members : ∀ o' : Object, (∀ key, o'.value key = o.value key) → sys.qt.toJson (.obj o') = sys.qt.toJson (.obj o)

theorem value_insertAll_of_key (o o' : Object) {key : String} {members : List (String × Value)}
    (h : key ∈ members.map Prod.fst) :
    (o.insertAll members).value key = (o'.insertAll members).value key := by
  induction members generalizing o o' with
  | nil => cases h
  | cons member members ih =>
    obtain ⟨k, v⟩ := member
    rw [Object.insertAll_cons, Object.insertAll_cons]
    by_cases ht : key ∈ members.map Prod.fst
    · exact ih _ _ ht
    · have hk : key = k := (mem_cons.mp h).resolve_right ht
      rw [Object.value_insertAll_of_notMem _ ht, Object.value_insertAll_of_notMem _ ht, Object.value_insert,
        Object.value_insert,
        if_pos hk, if_pos hk]

/-- Members that are inserted again. -/
theorem value_insertAll_again {o o' : Object} {members : List (String × Value)}
    (h : ∀ key, o'.value key = (o.insertAll members).value key) (key : String) :
    (o'.insertAll members).value key = (o.insertAll members).value key := by
  by_cases hk : key ∈ members.map Prod.fst
  · exact value_insertAll_of_key o' o hk
  · rw [Object.value_insertAll_of_notMem _ hk, h]

variable {sys p} {m : ProtocolModel}

theorem isServerSettingsEqual_getConfig : isServerSettingsEqual p (getConfig sys p m).2 := by
  simp [isServerSettingsEqual, getConfig, Object.value_set]

theorem lastConfig_of_equal (h : isServerSettingsEqual p m) :
    lastConfig p (getConfig sys p m).1 = some (.str (sys.qt.toJson (.obj (jsonConfig sys p m)))) := by
  simp [lastConfig, getConfig, h, Object.value_set]

theorem lastConfig_of_changed (h : ¬ isServerSettingsEqual p m) : lastConfig p (getConfig sys p m).1 = none := by
  simp [lastConfig, getConfig, h, Object.value_set, Object.value_remove]

theorem toJson_again (hjs : WritesMembers sys (jsonConfig sys p m)) (h : isServerSettingsEqual p m) :
    sys.qt.toJson (.obj (jsonConfig sys p (getConfig sys p m).2)) = sys.qt.toJson (.obj (jsonConfig sys p m)) := by
  have ht : ((getConfig sys p m).2.serverConfig.value "last_config").toText =
      sys.qt.toJson (.obj (jsonConfig sys p m)) := by
    simp [getConfig, h, Object.value_set]
  refine hjs.members _ fun key => ?_
  rw [jsonConfig, ht]
  exact value_insertAll_again hjs.reads key

/-- **A second call.** With the stored settings it gives the same; with other ones the first call leaves out the
client's configuration, and the second puts one in again. -/
theorem getConfig_again_iff (hjs : WritesMembers sys (jsonConfig sys p m)) :
    (getConfig sys p (getConfig sys p m).2).1 = (getConfig sys p m).1 ↔ isServerSettingsEqual p m := by
  constructor
  · intro heq
    by_contra h
    have hl : lastConfig p (getConfig sys p (getConfig sys p m).2).1 = _ :=
      lastConfig_of_equal isServerSettingsEqual_getConfig
    rw [heq, lastConfig_of_changed h] at hl
    cases hl
  · intro h
    have hs : (getConfig sys p (getConfig sys p m).2).2.serverConfig = (getConfig sys p m).2.serverConfig := by
      rw [getConfig, if_pos isServerSettingsEqual_getConfig, toJson_again hjs h]
      exact Object.set_self (by simp [getConfig, h, Object.value_set])
    change (getConfig sys p m).1.set p.key (.obj (getConfig sys p (getConfig sys p m).2).2.serverConfig) = _
    rw [hs]
    exact Object.set_self (by simp [getConfig, Object.value_set])

theorem fullConfig_edited (edits : List (Role × String)) : (edits.foldl (setData p) m).fullConfig = m.fullConfig := by
  induction edits generalizing m with
  | nil => rfl
  | cons e edits ih =>
    rw [foldl_cons, ih]
    unfold setData
    split <;> split <;> rfl

/-- **Reading the edited settings.** Two calls give the same exactly if every setting of the server is the loaded one;
if one is not, the first call gives no configuration for the client. -/
theorem getConfig_twice_iff (m : ProtocolModel) (config : Object) (edits : List (Role × String))
    (hjs : WritesMembers sys (jsonConfig sys p (edits.foldl (setData p) (updateModel sys p config m)))) :
    let edited := edits.foldl (setData p) (updateModel sys p config m)
    let same := p.settings (config.value p.key).toObject = p.settings edited.serverConfig
    ((getConfig sys p (getConfig sys p edited).2).1 = (getConfig sys p edited).1 ↔ same) ∧
      (¬ same → lastConfig p (getConfig sys p edited).1 = none) := by
  intro edited same
  have he : isServerSettingsEqual p edited ↔ same := by
    rw [isServerSettingsEqual, show edited.fullConfig = config from fullConfig_edited edits]
  exact ⟨(getConfig_again_iff hjs).trans he, fun h => lastConfig_of_changed (mt he.mp h)⟩

/-- A container with the configuration of a client. -/
def loadedConfig (p : Protocol) : Object := [(p.key, .obj [("last_config", .str "\x7b\"mtu\":\"1376\"\x7d")])]

theorem getConfig_twice_mtu :
    let edited := [(Role.client "mtu", "1376")].foldl (setData wireguard)
      (updateModel mtuSystem wireguard (loadedConfig wireguard) ⟨[], [], []⟩)
    (getConfig mtuSystem wireguard (getConfig mtuSystem wireguard edited).2).1 =
      (getConfig mtuSystem wireguard edited).1 := by
  refine (getConfig_twice_iff ⟨[], [], []⟩ (loadedConfig wireguard) [(.client "mtu", "1376")]
    ⟨fun key => ?_, fun o' h => ?_⟩).1.mpr
    (by rfl)
  · rfl
  · have hne : Json.obj o' ≠ .obj [] := by
      rintro ⟨⟩
      exact absurd (h "mtu") (by decide)
    exact if_neg hne

/-- The first call and the second one, with another port than the loaded one. -/
def otherPort (p : Protocol) : Object × Object :=
  let first :=
    getConfig mtuSystem p
      ([(Role.server "port", "443")].foldl (setData p) (updateModel mtuSystem p (loadedConfig p) ⟨[], [], []⟩))
  (first.1, (getConfig mtuSystem p first.2).1)

/-- The second call gives a configuration for the client again. -/
theorem getConfig_not_same :
    ((otherPort awg).2 ≠ (otherPort awg).1 ∧ (otherPort wireguard).2 ≠ (otherPort wireguard).1) ∧
      lastConfig awg (otherPort awg).1 = none ∧
      lastConfig awg (otherPort awg).2 = some (.str "\x7b\"mtu\":\"1376\"\x7d") := by
  decide +kernel

end Cimogus.Client.ProtocolModels
