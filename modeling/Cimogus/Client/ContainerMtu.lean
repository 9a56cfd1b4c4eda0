import Cimogus.Client.Import
import Mathlib.Data.List.Forall2

/-!
# The `mtu` of imported containers

`processAmneziaConfig` writes the `mtu` of the protocol into the `last_config` of the AWG and WireGuard containers of a
configuration that is imported. The loop does not go on to the next container but returns at the first of them that has
no `last_config`, so what happens to a container depends on those before it (`mtu_missed_behind_empty`). And a
`last_config` that is not the text of an object is replaced by an object with the `mtu` alone.
-/

namespace Cimogus.Client.Import

open Lib Lib.Json List

variable {sys : System}

/-! ## Containers -/

/-- The `last_config` of a container for AWG or WireGuard, with the key that it is under. -/
def lastConfig? (entry : Json) : Option (String × String) :=
  let container := Value.toObject (some entry)
  (mtuKey container).map fun key => (key, ((container.value key).toObject.value "last_config").toText)

/-- The container with another `last_config`. -/
def withLastConfig (entry : Json) (key text : String) : Json :=
  let container := Value.toObject (some entry)
  .obj (container.set key (.obj ((container.value key).toObject.set "last_config" (.str text))))

/-- The text that is written for a `last_config`. -/
def mtuText (sys : System) (text : String) : String :=
  sys.qt.toJson (.obj ((objectOf sys text).set "mtu" (.str (defaultMtu sys))))

def processed (sys : System) : List Json → List Json
  | [] => []
  | entry :: rest =>
    match lastConfig? entry with
    | none => entry :: processed sys rest
    | some (key, text) =>
      if text = "" then entry :: rest else withLastConfig entry key (mtuText sys text) :: processed sys rest

theorem processContainers_cons (config : Object) (done rest : List Json) (entry : Json) :
    processContainers sys config done (entry :: rest) =
      match lastConfig? entry with
      | none => processContainers sys config (done ++ [entry]) rest
      | some (key, text) =>
        if text = "" then config
        else
          let entry := withLastConfig entry key (mtuText sys text)
          processContainers sys (config.set "containers" (.arr (done ++ entry :: rest))) (done ++ [entry]) rest := by
  rw [processContainers, lastConfig?]
  cases mtuKey (Value.toObject (some entry)) <;> rfl

theorem value_processContainers {config : Object} {done rest : List Json}
    (hc : config.value "containers" = some (.arr (done ++ rest))) (key : String) :
    (processContainers sys config done rest).value key =
      if key = "containers" then some (.arr (done ++ processed sys rest)) else config.value key := by
  induction rest generalizing config done with
  | nil =>
    split
    · next hkey => rw [hkey]; exact hc
    · rfl
  | cons entry rest ih =>
    rw [processContainers_cons, processed]
    split
    · rw [ih (by simpa using hc), append_assoc]
      rfl
    · rename_i protocol text _
      by_cases ht : text = ""
      · rw [if_pos ht]
        split
        · next hkey => rw [hkey]; exact hc
        · rfl
      · rw [if_neg ht, ih (by simp [Object.value_set]), Object.value_set, append_assoc]
        split <;> rfl

/-! ## What is meant -/

/-- The second text is of the object of the first one, with the `mtu`. -/
def WithMtu (sys : System) (text text' : String) : Prop :=
  ∃ o o' : Object, sys.qt.fromJson text = .ok (.obj o) ∧ sys.qt.fromJson text' = .ok (.obj o') ∧
    ∀ key, o'.value key = if key = "mtu" then some (.str (defaultMtu sys)) else o.value key

/-- What is to become of a container. One without a `last_config` stays as it is. -/
def MtuSet (sys : System) (before after : Json) : Prop :=
  match lastConfig? before with
  | none => after = before
  | some (key, text) =>
    if text = "" then after = before else ∃ text', WithMtu sys text text' ∧ after = withLastConfig before key text'

/-- The containers get their `mtu`, and nothing else changes. -/
def OnlyMtuSet (sys : System) (config config' : Object) : Prop :=
  (∀ key, key ≠ "containers" → config'.value key = config.value key) ∧
    match config.value "containers" with
    | some (.arr items) =>
      ∃ items', config'.value "containers" = some (.arr items') ∧ List.Forall₂ (MtuSet sys) items items'
    | v => config'.value "containers" = v

/-- What is needed of Qt's JSON: an object that has been read and given the `mtu` is read again with the same members.
-/
def ReadsBack (sys : System) : Prop :=
  ∀ (text : String) (o : Object), sys.qt.fromJson text = .ok (.obj o) → ∃ o' : Object,
    sys.qt.fromJson (sys.qt.toJson (.obj (o.set "mtu" (.str (defaultMtu sys))))) = .ok (.obj o') ∧
      ∀ key, o'.value key = (o.set "mtu" (.str (defaultMtu sys))).value key

/-- An AWG or WireGuard container where the loop ends. -/
def hasEmptyConfig (entry : Json) : Bool := (lastConfig? entry).any (·.2 = "")

/-- The first container where the loop ends, and those behind it. -/
def notReached (items : List Json) : List Json := items.dropWhile (!hasEmptyConfig ·)

/-- If there is a `last_config`, it is the text of an object with the property. -/
def HoldsObject (sys : System) (P : Object → Prop) (entry : Json) : Prop :=
  ∀ key text, lastConfig? entry = some (key, text) → text ≠ "" →
    ∃ o, sys.qt.fromJson text = .ok (.obj o) ∧ P o

def MtuThere (sys : System) (o : Object) : Prop := o.value "mtu" = some (.str (defaultMtu sys))

section

variable {entry after : Json} {key text text' : String}

theorem mtuSet_none (h : lastConfig? entry = none) : MtuSet sys entry after ↔ after = entry := by
  rw [MtuSet, h]

theorem mtuSet_empty (h : lastConfig? entry = some (key, "")) : MtuSet sys entry after ↔ after = entry := by
  rw [MtuSet, h]
  exact Iff.rfl

theorem mtuSet_text (h : lastConfig? entry = some (key, text)) (hne : text ≠ "") :
    MtuSet sys entry after ↔ ∃ text', WithMtu sys text text' ∧ after = withLastConfig entry key text' := by
  rw [MtuSet, h]
  simp only [hne, if_false]

variable {P : Object → Prop}

theorem holdsObject_none (h : lastConfig? entry = none) : HoldsObject sys P entry := by
  intro key text ht
  rw [h] at ht
  cases ht

theorem holdsObject_empty (h : lastConfig? entry = some (key, "")) : HoldsObject sys P entry := by
  intro key' text ht hne
  rw [h] at ht
  cases ht
  exact absurd rfl hne

theorem holdsObject_text (h : lastConfig? entry = some (key, text)) (hne : text ≠ "") :
    HoldsObject sys P entry ↔ ∃ o, sys.qt.fromJson text = .ok (.obj o) ∧ P o := by
  refine ⟨fun hh => hh key text h hne, fun hr key' text' ht _ => ?_⟩
  rw [h] at ht
  cases ht
  exact hr

theorem withLastConfig_injective (h : withLastConfig entry key text = withLastConfig entry key text') :
    text = text' := by
  have hr (t : String) :
      (((Value.toObject (some (withLastConfig entry key t))).value key).toObject.value "last_config").toText = t := by
    simp [withLastConfig, Object.value_set]
  rw [← hr text, h, hr]

theorem withLastConfig_self (h : lastConfig? entry = some (key, text)) (hne : text ≠ "") :
    withLastConfig entry key text = entry := by
  simp only [lastConfig?, Option.map_eq_some_iff, Prod.mk.injEq] at h
  obtain ⟨key, hkey, rfl, rfl⟩ := h
  have hlast := Value.eq_str_of_toText_ne hne
  have hc : (Value.toObject (some entry)).value key =
      some (.obj ((Value.toObject (some entry)).value key).toObject) := by
    refine Value.eq_obj_of_toObject_ne fun he => ?_
    rw [he] at hlast
    cases hlast
  have hen : some entry = some (.obj (Value.toObject (some entry))) := by
    refine Value.eq_obj_of_toObject_ne fun he => ?_
    rw [he] at hkey
    cases hkey
  rw [withLastConfig, Object.set_self hlast, Object.set_self hc]
  exact (Option.some.inj hen).symm

theorem mtuSet_self_iff : MtuSet sys entry entry ↔ HoldsObject sys (MtuThere sys) entry := by
  cases hc : lastConfig? entry with
  | none => exact iff_of_true ((mtuSet_none hc).mpr rfl) (holdsObject_none hc)
  | some config =>
    obtain ⟨key, text⟩ := config
    by_cases hne : text = ""
    · subst hne
      exact iff_of_true ((mtuSet_empty hc).mpr rfl) (holdsObject_empty hc)
    · rw [mtuSet_text hc hne, holdsObject_text hc hne]
      constructor
      · rintro ⟨text', ⟨o, o', hr, hr', hv⟩, he⟩
        obtain rfl := withLastConfig_injective ((withLastConfig_self hc hne).trans he)
        rw [hr] at hr'
        cases hr'
        exact ⟨o, hr, hv "mtu"⟩
      · rintro ⟨o, hr, hm⟩
        refine ⟨text, ⟨o, o, hr, hr, fun key => ?_⟩, (withLastConfig_self hc hne).symm⟩
        split
        · next hkey => rw [hkey]; exact hm
        · rfl

theorem mtuSet_written_iff (hjs : ReadsBack sys) (hc : lastConfig? entry = some (key, text)) (hne : text ≠ "") :
    MtuSet sys entry (withLastConfig entry key (mtuText sys text)) ↔ HoldsObject sys (fun _ => True) entry := by
  rw [mtuSet_text hc hne, holdsObject_text hc hne]
  constructor
  · rintro ⟨_, ⟨o, -, hr, -⟩, -⟩
    exact ⟨o, hr, trivial⟩
  · rintro ⟨o, hr, -⟩
    obtain ⟨o', hr', hv⟩ := hjs text o hr
    refine ⟨mtuText sys text, ⟨o, o', hr, ?_, fun key => (hv key).trans (Object.value_set o "mtu" key _)⟩, rfl⟩
    rw [mtuText, objectOf, hr]
    exact hr'

end

/-! ## All containers -/

theorem HoldsObject.mono {P Q : Object → Prop} {entry : Json} (h : HoldsObject sys P entry)
    (hPQ : ∀ o, P o → Q o) :
    HoldsObject sys Q entry := by
  intro key text hc hne
  obtain ⟨o, hr, ho⟩ := h key text hc hne
  exact ⟨o, hr, hPQ o ho⟩

theorem notReached_cons_of_not {entry : Json} (h : hasEmptyConfig entry = false) (items : List Json) :
    notReached (entry :: items) = notReached items := by
  simp [notReached, h]

theorem notReached_cons_of {entry : Json} (h : hasEmptyConfig entry = true) (items : List Json) :
    notReached (entry :: items) = entry :: items := by
  simp [notReached, h]

theorem forall₂_processed_iff (hjs : ReadsBack sys) (items : List Json) :
    List.Forall₂ (MtuSet sys) items (processed sys items) ↔
      (∀ entry ∈ items, HoldsObject sys (fun _ => True) entry) ∧ ∀ entry ∈ notReached items,
      HoldsObject sys (MtuThere sys) entry := by
  induction items with
  | nil => simp [processed, notReached]
  | cons entry items ih =>
    rw [processed, forall_mem_cons]
    cases hc : lastConfig? entry with
    | none =>
      have hr : hasEmptyConfig entry = false := by simp [hasEmptyConfig, hc]
      rw [forall₂_cons, ih, notReached_cons_of_not hr, and_assoc]
      exact and_congr_left fun _ => iff_of_true ((mtuSet_none hc).mpr rfl) (holdsObject_none hc)
    | some config =>
      obtain ⟨key, text⟩ := config
      by_cases hne : text = ""
      · -- the loop ends, and the containers behind stay
        subst hne
        have hen : hasEmptyConfig entry = true := by simp [hasEmptyConfig, hc]
        simp only [if_true]
        rw [forall₂_same, notReached_cons_of hen, ← forall_mem_cons]
        simp only [mtuSet_self_iff]
        exact ⟨fun h => ⟨fun entry he => (h entry he).mono fun _ _ => trivial, h⟩, And.right⟩
      · have hr : hasEmptyConfig entry = false := by simp [hasEmptyConfig, hc, hne]
        simp only [hne, if_false]
        rw [forall₂_cons, ih, notReached_cons_of_not hr, and_assoc, mtuSet_written_iff hjs hc hne]

theorem onlyMtuSet_of_array {config : Object} {items : List Json} (h : config.value "containers" = some (.arr items)) :
    OnlyMtuSet sys config (processAmneziaConfig sys config) ↔
    List.Forall₂ (MtuSet sys) items (processed sys items) := by
  have hv (key : String) : (processAmneziaConfig sys config).value key =
      if key = "containers" then some (.arr (processed sys items)) else config.value key := by
    rw [processAmneziaConfig, h, value_processContainers (by simpa using h)]
    rfl
  rw [OnlyMtuSet, h]
  constructor
  · rintro ⟨-, items', hi, hs⟩
    rw [hv] at hi
    cases hi
    exact hs
  · intro hs
    exact ⟨fun key hkey => by rw [hv, if_neg hkey], _, by rw [hv, if_pos rfl], hs⟩

/-- **Every container.** -/
theorem onlyMtuSet_iff (hjson : ReadsBack sys) (config : Object) :
    let items := (config.value "containers").toArray
    OnlyMtuSet sys config (processAmneziaConfig sys config) ↔
        (∀ entry ∈ items, HoldsObject sys (fun _ => True) entry) ∧
        ∀ entry ∈ notReached items, HoldsObject sys (MtuThere sys) entry := by
  intro items
  by_cases ha : ∃ items, config.value "containers" = some (.arr items)
  · obtain ⟨list, hl⟩ := ha
    have hi : items = list := by simp [items, hl]
    rw [hi, onlyMtuSet_of_array hl]
    exact forall₂_processed_iff hjson list
  · -- what is no array has no containers
    have hi : items = [] := by
      unfold items Value.toArray
      split
      · next list hl => exact absurd ⟨list, hl⟩ ha
      · rfl
    have hs : processAmneziaConfig sys config = config := by
      rw [processAmneziaConfig]
      change processContainers sys config [] items = config
      rw [hi, processContainers]
    rw [hi, hs, OnlyMtuSet]
    refine iff_of_true ⟨fun _ _ => rfl, ?_⟩ (by simp [notReached])
    split
    · next list hl => exact absurd ⟨list, hl⟩ ha
    · rfl

/-- Reads and writes an empty object and one with an `mtu`. -/
def mtuSystem : System :=
  { exampleSystem with
    qt :=
      { linkQt with
        fromJson := fun text =>
          if text = "\x7b\x7d" then .ok (.obj [])
          else if text = "\x7b\"mtu\":\"1376\"\x7d" then .ok (.obj [("mtu", .str "1376")])
          else .error "illegal value"
        toJson := fun v => if v = .obj [] then "\x7b\x7d" else "\x7b\"mtu\":\"1376\"\x7d" } }

theorem readsBack_mtuSystem : ReadsBack mtuSystem := by
  intro text o hr
  have ho : o = [] ∨ o = [("mtu", .str "1376")] := by
    change (if text = _ then _ else if text = _ then _ else _) = _ at hr
    split at hr
    · cases hr
      exact .inl rfl
    split at hr
    · cases hr
      exact .inr rfl
    · cases hr
  exact ⟨[("mtu", .str "1376")], by
    rcases ho with rfl | rfl <;> rfl, fun key => by rcases ho with rfl | rfl <;> rfl⟩

def emptyAwg : Json := .obj [("container", .str "amnezia-awg"), ("awg", .obj [])]

def wireguardOf (text : String) : Json :=
  .obj [("container", .str "amnezia-wireguard"), ("wireguard", .obj [("last_config", .str text)])]

theorem onlyMtuSet_before_empty : OnlyMtuSet mtuSystem [("containers", .arr [wireguardOf "\x7b\x7d", emptyAwg])]
      (processAmneziaConfig mtuSystem [("containers", .arr [wireguardOf "\x7b\x7d", emptyAwg])]) := by
  refine (onlyMtuSet_iff readsBack_mtuSystem _).mpr ⟨fun entry he => ?_, fun entry he => ?_⟩
  · rcases mem_pair.mp he with rfl | rfl
    · exact (holdsObject_text rfl (by decide)).mpr ⟨[], rfl, trivial⟩
    · exact holdsObject_empty rfl
  · rw [mem_singleton.mp he]
    exact holdsObject_empty rfl

/-- The two containers in the other order. -/
theorem mtu_missed_behind_empty : ¬ OnlyMtuSet mtuSystem [("containers", .arr [emptyAwg, wireguardOf "\x7b\x7d"])]
      (processAmneziaConfig mtuSystem [("containers", .arr [emptyAwg, wireguardOf "\x7b\x7d"])]) := by
  rintro ⟨-, items, hi, hs⟩
  cases hi
  obtain ⟨-, hs⟩ := forall₂_cons.mp hs
  obtain ⟨hs, -⟩ := forall₂_cons.mp hs
  obtain ⟨o, hr, hm⟩ := mtuSet_self_iff.mp hs _ _ rfl (by decide)
  cases hr
  cases hm

end Cimogus.Client.Import
