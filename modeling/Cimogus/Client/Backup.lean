import Cimogus.Client.Import
import Cimogus.Client.SecureSettings

/-!
# Backups of the settings

`backupAppConfig` writes the settings below `Conf/` and `Servers/`; `restoreAppConfig` sets whatever keys its argument
has. `restoreAppConfig_spec` says which arguments leave all settings alone that no backup has, and what becomes of those
that the backup of other settings has.
-/

namespace Cimogus.Client

open Lib (Json)
open Lib.JsonWrite (document indented)

/-- The conversions between settings and JSON, and between its objects and texts. What is no object is read as the empty
one. -/
structure BackupFormat (α : Type) where
  fromVariant : QVariant α → Json
  toVariant : Json → QVariant α
  toJson : Std.ExtTreeMap String Json → List UInt8
  fromJson : List UInt8 → Std.ExtTreeMap String Json

def fieldsToBackup : List String := ["Conf/", "Servers/"]

def needToBackup (key : String) : Bool :=
  key ≠ "Conf/installationUuid" && fieldsToBackup.any (Lib.Text.startsWith key)

namespace SecureQSettings

variable {α : Type} (sys : SettingsSystem α) (fmt : BackupFormat α)

/-- One key in the loop of `backupAppConfig`. -/
def backupKey (available : Bool) (r : Std.ExtTreeMap String Json × SecureQSettings α) (key : String) :
    Std.ExtTreeMap String Json × SecureQSettings α :=
  if needToBackup key then
    let v := value sys available key .invalid r.2
    (r.1.insert key (fmt.fromVariant v.1), v.2)
  else r

def backupObject (available : Bool) (s : SecureQSettings α) : Std.ExtTreeMap String Json × SecureQSettings α :=
  s.settings.keys.foldl (backupKey sys fmt available) (∅, s)

def backupAppConfig (available : Bool) (s : SecureQSettings α) : List UInt8 × SecureQSettings α :=
  let r := backupObject sys fmt available s
  (fmt.toJson r.1, r.2)

/-- One key in the loop of `restoreAppConfig`. -/
def restoreKey (available throws : Bool) (s : SecureQSettings α) (entry : String × Json) : SecureQSettings α :=
  if entry.1 = "Conf/installationUuid" then s else setValue sys available throws entry.1 (fmt.toVariant entry.2) s

def restoreAppConfig (available throws : Bool) (json : List UInt8) (s : SecureQSettings α) :
    Bool × SecureQSettings α :=
  let cfg := fmt.fromJson json
  if cfg.isEmpty then (false, s) else (true, cfg.toList.foldl (restoreKey sys fmt available throws) s)

variable {sys fmt} {s t : SecureQSettings α} {key : String} {available throws : Bool}

/-- The loop is over the members, also where there are none. -/
theorem restoreAppConfig_snd (available throws : Bool) (json : List UInt8) (s : SecureQSettings α) :
    (restoreAppConfig sys fmt available throws json s).2 =
      (fmt.fromJson json).toList.foldl (restoreKey sys fmt available throws) s := by
  rw [restoreAppConfig]
  split
  next he => rw [Std.ExtTreeMap.isEmpty_iff.mp he]; rfl
  · rfl

/-! ## One key at a time -/

theorem value_fst_congr (hc : s.cache[key]? = t.cache[key]?)
    (hs : lookup sys s.settings key = lookup sys t.settings key)
    (available : Bool) (d : QVariant α) : (value sys available key d s).1 = (value sys available key d t).1 := by
  rw [value, value, hc, hs]
  cases t.cache[key]? with
  | some v => rfl
  | none =>
    cases lookup sys t.settings key with
    | none => rfl
    | some stored =>
      dsimp only
      split <;> rfl

/-- A call sets nothing, or it sets the key in the store and in the cache. -/
theorem setValue_cases (available throws : Bool) (key : String) (v : QVariant α) (s : SecureQSettings α) :
    setValue sys available throws key v s = s ∧ (sys.encryptionRequired ∧ key ∈ encryptedKeys) ∧
      available = false ∨
      ∃ stored, setValue sys available throws key v s =
        ⟨put sys s.settings key stored, s.cache.insert key v⟩ := by
  rw [setValue]
  by_cases he : sys.encryptionRequired ∧ key ∈ encryptedKeys
  · rw [if_pos he]
    cases available with
    | false => exact .inl ⟨rfl, he, rfl⟩
    | true => exact .inr ⟨_, rfl⟩
  · rw [if_neg he]
    exact .inr ⟨v, rfl⟩

theorem cache_restoreKey_of_ne {e : String × Json} (h : key ≠ e.1) (s : SecureQSettings α) :
    (restoreKey sys fmt available throws s e).cache[key]? = s.cache[key]? := by
  rw [restoreKey]
  split
  · rfl
  · rcases setValue_cases available throws e.1 (fmt.toVariant e.2) s with ⟨heq, -⟩ | ⟨stored, heq⟩
    · rw [heq]
    · rw [heq, Lib.getElem?_insert_eq_ite, if_neg h]

theorem lookup_put_of_ne {k : String} (h : sys.actualKey key ≠ sys.actualKey k) (settings : SettingsMap α)
    (v : QVariant α) :
    lookup sys (put sys settings k v) key = lookup sys settings key := by
  cases hk : sys.actualKey k with
  | none => rw [put, hk, Option.elim_none]
  | some a => rw [lookup_put _ (by simp [hk]), if_neg h]

/-- What is restored under another key of `QSettings` does not change what is read. -/
theorem value_restoreKey_of_ne {e : String × Json} (h : sys.actualKey key ≠ sys.actualKey e.1)
    (s : SecureQSettings α)
    (reader : Bool) (d : QVariant α) :
    (value sys reader key d (restoreKey sys fmt available throws s e)).1 = (value sys reader key d s).1 := by
  refine value_fst_congr (cache_restoreKey_of_ne (fun heq => h (heq ▸ rfl)) s) ?_ reader d
  rw [restoreKey]
  split
  · rfl
  · rcases setValue_cases available throws e.1 (fmt.toVariant e.2) s with ⟨heq, -⟩ | ⟨stored, heq⟩
    · rw [heq]
    · rw [heq, lookup_put_of_ne h]

theorem value_foldl {l : List (String × Json)} (h : ∀ e ∈ l, ∀ (s : SecureQSettings α) reader d,
      (value sys reader key d (restoreKey sys fmt available throws s e)).1 = (value sys reader key d s).1)
    (s : SecureQSettings α) (reader : Bool) (d : QVariant α) :
    (value sys reader key d (l.foldl (restoreKey sys fmt available throws) s)).1 = (value sys reader key d s).1 := by
  induction l generalizing s with
  | nil => rfl
  | cons e l ih =>
    rw [List.foldl_cons, ih fun e he => h e (List.mem_cons_of_mem _ he), h e List.mem_cons_self]

/-! ## The settings that no backup has -/

/-- Every setting that no backup has keeps its value; settings have the keys of `QSettings`. -/
def KeepsOthers (sys : SettingsSystem α) (s t : SecureQSettings α) : Prop :=
  ∀ key, sys.actualKey key = some key → needToBackup key = false →
    ∀ available d, (value sys available key d t).1 = (value sys available key d s).1

/-- Every member of the object, except for the identifier, is for a setting that a backup has. -/
def Confined (sys : SettingsSystem α) (cfg : Std.ExtTreeMap String Json) : Prop :=
  ∀ key v, cfg[key]? = some v → key ≠ "Conf/installationUuid" → ∀ k, sys.actualKey key = some k →
    needToBackup k = true

theorem keepsOthers_of_confined {json : List UInt8} (h : Confined sys (fmt.fromJson json)) (available throws : Bool)
    (s : SecureQSettings α) : KeepsOthers sys s (restoreAppConfig sys fmt available throws json s).2 := by
  intro key hkey hno reader d
  rw [restoreAppConfig_snd]
  refine value_foldl (fun e he s reader d => ?_) s reader d
  by_cases hu : e.1 = "Conf/installationUuid"
  · rw [restoreKey, if_pos hu]
  · refine value_restoreKey_of_ne (fun heq => ?_) s reader d
    have hm := ((Lib.Table.ListedBy.toList (fmt.fromJson json)).mem_iff e.1 e.2).mp he
    have hb := h e.1 e.2 hm hu key (heq ▸ hkey)
    rw [hno] at hb
    cases hb

theorem isSome_lookup_put {k : String} (settings : SettingsMap α) (v : QVariant α)
    (h : (lookup sys settings key).isSome) :
    (lookup sys (put sys settings k v) key).isSome := by
  by_cases heq : sys.actualKey key = sys.actualKey k
  · cases hk : sys.actualKey k with
    | none => rwa [put, hk, Option.elim_none]
    | some a => rw [lookup_put _ (by simp [hk]), if_pos heq]; rfl
  · rwa [lookup_put_of_ne heq]

theorem isSome_lookup_foldl (l : List (String × Json)) {s : SecureQSettings α}
    (h : (lookup sys s.settings key).isSome) :
    (lookup sys (l.foldl (restoreKey sys fmt available throws) s).settings key).isSome := by
  induction l generalizing s with
  | nil => exact h
  | cons e l ih =>
    refine ih ?_
    rw [restoreKey]
    split
    · exact h
    · rcases setValue_cases available throws e.1 (fmt.toVariant e.2) s with ⟨heq, -⟩ | ⟨stored, heq⟩
      · rwa [heq]
      · rw [heq]
        exact isSome_lookup_put _ _ h

/-- A member for a setting that no backup has sets it where it was not set. -/
theorem confined_of_keepsOthers (hkeys : ∀ key k, sys.actualKey key = some k → sys.actualKey k = some k)
    {json : List UInt8}
    (h : ∀ s, KeepsOthers sys s (restoreAppConfig sys fmt true false json s).2) :
    Confined sys (fmt.fromJson json) := by
  intro key v hv hu k hk
  by_contra hno
  rw [Bool.not_eq_true] at hno
  have hset : (lookup sys (restoreAppConfig sys fmt true false json ⟨∅, ∅⟩).2.settings k).isSome := by
    obtain ⟨before, after, hl⟩ := List.append_of_mem
      (((Lib.Table.ListedBy.toList (fmt.fromJson json)).mem_iff key v).mpr hv)
    rw [restoreAppConfig_snd, hl, List.foldl_append, List.foldl_cons]
    refine isSome_lookup_foldl after ?_
    rw [restoreKey, if_neg hu]
    rcases setValue_cases true false key (fmt.toVariant v) _ with ⟨-, -, hf⟩ | ⟨stored, heq⟩
    · cases hf
    · rw [heq, lookup_put _ (by simp [hk]), if_pos ((hkeys key k hk).trans hk.symm)]
      rfl
  obtain ⟨stored, hs⟩ := Option.isSome_iff_exists.mp hset
  -- what is read does not depend on the default any more
  have hread (d : QVariant α) : (value sys true k d (restoreAppConfig sys fmt true false json ⟨∅, ∅⟩).2).1 =
      d := by
    rw [h ⟨∅, ∅⟩ k (hkeys key k hk) hno true d]
    simp [value, lookup]
  have heq : (QVariant.invalid : QVariant α) = .byteArray [] := by
    rw [← hread .invalid, ← hread (.byteArray [])]
    simp only [value, hs]
  cases heq

/-! ## The settings that a backup has -/

theorem cache_value_of_ne {k : String} (h : k ≠ key) (available : Bool) (d : QVariant α) (s : SecureQSettings α) :
    (value sys available key d s).2.cache[k]? = s.cache[k]? := by
  rcases value_snd_cases available key d s with heq | ⟨_, _, heq⟩
  · rw [heq]
  · rw [heq, Lib.getElem?_insert_eq_ite, if_neg h]

/-- What is read is not changed by reading another key, or the same one. -/
theorem value_value (available : Bool) (k : String) (d d' : QVariant α) (s : SecureQSettings α) :
    (value sys available key d (value sys available k d' s).2).1 = (value sys available key d s).1 := by
  by_cases hkey : key = k
  · subst hkey
    cases hc : s.cache[key]? with
    | some v => simp [value, hc]
    | none =>
      cases hs : lookup sys s.settings key with
      | none => simp [value, hc, hs]
      | some stored =>
        by_cases hl : (stored.isEncrypted && !available) = true
        · simp [value, hc, hs, hl]
        · simp [value, hc, hs, hl]
  · exact value_fst_congr (cache_value_of_ne hkey available d' s) (by rw [settings_value]) available d

theorem getElem?_foldl_backupKey (keys : List String) (cfg : Std.ExtTreeMap String Json) (s : SecureQSettings α)
    (key : String) : (keys.foldl (backupKey sys fmt available) (cfg, s)).1[key]? =
      if key ∈ keys ∧ needToBackup key then some (fmt.fromVariant (value sys available key .invalid s).1)
        else cfg[key]? := by
  induction keys generalizing cfg s with
  | nil => simp
  | cons k keys ih =>
    rw [List.foldl_cons, backupKey]
    cases hne : needToBackup k with
    | false =>
      rw [ih]
      by_cases hkey : key = k
      · subst hkey
        simp [hne]
      · simp [hkey]
    | true =>
      rw [if_pos rfl, ih, value_value, Lib.getElem?_insert_eq_ite]
      by_cases hkey : key = k
      · subst hkey
        by_cases hm : key ∈ keys <;> simp [hne, hm]
      · simp [hkey]

/-- **What is written.** -/
theorem getElem?_backupObject (available : Bool) (s : SecureQSettings α) (key : String) :
    (backupObject sys fmt available s).1[key]? = if key ∈ s.settings ∧ needToBackup key then
      some (fmt.fromVariant (value sys available key .invalid s).1) else none := by
  rw [backupObject, getElem?_foldl_backupKey, Std.ExtTreeMap.getElem?_empty]
  simp only [Std.ExtTreeMap.mem_keys]

/-- A member that can be set is in the cache after the loop. -/
theorem cache_foldl {l : List (String × Json)} (hl : (l.map Prod.fst).Nodup) {v : Json} (hm : (key, v) ∈ l)
    (hu : key ≠ "Conf/installationUuid")
    (hset : ¬((sys.encryptionRequired ∧ key ∈ encryptedKeys) ∧ available = false))
    (s : SecureQSettings α) :
    (l.foldl (restoreKey sys fmt available throws) s).cache[key]? = some (fmt.toVariant v) := by
  have hrest (l : List (String × Json)) (hno : key ∉ l.map Prod.fst) (s : SecureQSettings α) :
      (l.foldl (restoreKey sys fmt available throws) s).cache[key]? = s.cache[key]? := by
    induction l generalizing s with
    | nil => rfl
    | cons e l ih =>
      obtain ⟨hne, hl⟩ := not_or.mp (List.mem_cons.not.mp hno)
      rw [List.foldl_cons, ih hl, cache_restoreKey_of_ne hne]
  obtain ⟨before, after, rfl⟩ := List.append_of_mem hm
  rw [List.map_append, List.map_cons, List.nodup_append] at hl
  rw [List.foldl_append, List.foldl_cons, hrest after (List.nodup_cons.mp hl.2.1).1, restoreKey, if_neg hu]
  rcases setValue_cases available throws key (fmt.toVariant v)
    (before.foldl (restoreKey sys fmt available throws) s) with
    ⟨-, he⟩ | ⟨stored, heq⟩
  · exact absurd he hset
  · rw [heq, Lib.getElem?_insert_eq_ite, if_pos rfl]

theorem restored_backup_iff {sys' : SettingsSystem α} {available available' throws : Bool} {a b : SecureQSettings α}
    (hjs : fmt.fromJson (backupAppConfig sys fmt available a).1 = (backupObject sys fmt available a).1)
    (hkeys : ∀ key ∈ a.settings, sys'.actualKey key = some key) (hkey : key ∈ a.settings)
    (hne : needToBackup key = true)
    (hr : fmt.toVariant (fmt.fromVariant (value sys available key .invalid a).1) =
      (value sys available key .invalid a).1) :
    (∀ reader d, (value sys' reader key d
        (restoreAppConfig sys' fmt available' throws (backupAppConfig sys fmt available a).1 b).2).1 =
          (value sys available key .invalid a).1) ↔
      (sys'.encryptionRequired = true → key ∈ encryptedKeys → available' = false →
        ∀ reader d, (value sys' reader key d b).1 = (value sys available key .invalid a).1) := by
  have hu : key ≠ "Conf/installationUuid" := by
    rintro rfl
    exact absurd hne (by decide)
  have hl := Lib.Table.ListedBy.toList (backupObject sys fmt available a).1
  rw [restoreAppConfig_snd, hjs]
  by_cases hset : (sys'.encryptionRequired = true ∧ key ∈ encryptedKeys) ∧ available' = false
  · -- the member for the key sets nothing, and the others are for other keys
    obtain ⟨hen, rfl⟩ := hset
    have hval := @value_foldl α sys' fmt key false throws (backupObject sys fmt available a).1.toList fun e he s => by
      by_cases heq : e.1 = key
      · have hs : restoreKey sys' fmt false throws s e = s := by
          rw [restoreKey, heq, if_neg hu, setValue, if_pos hen, if_neg Bool.false_ne_true]
        exact fun _ _ => by rw [hs]
      · have hm := (hl.mem_iff e.1 e.2).mp he
        simp only [getElem?_backupObject] at hm
        split at hm
        next hb =>
          refine value_restoreKey_of_ne ?_ s
          rw [hkeys key hkey, hkeys e.1 hb.1]
          exact fun h => heq (Option.some.inj h).symm
        · cases hm
    simp only [hval]
    exact ⟨fun h _ _ _ => h, fun h => h hen.1 hen.2 trivial⟩
  · refine iff_of_true (fun reader d => ?_) fun hre hm hno => absurd ⟨⟨hre, hm⟩, hno⟩ hset
    have hm := (hl.mem_iff key _).mpr ((getElem?_backupObject available a key).trans (if_pos ⟨hkey, hne⟩))
    rw [value, cache_foldl hl.nodup hm hu hset b, hr]

/-- **Restoring.** The settings that no backup has keep their values, whatever they are, just if every member of the
argument, except for the identifier, is for a setting that a backup has; and the backup of other settings is restored as
it was, up to what cannot be encrypted. -/
theorem restoreAppConfig_spec (sys sys' : SettingsSystem α) (fmt : BackupFormat α)
    (hkeys : ∀ key k, sys.actualKey key = some k → sys.actualKey k = some k) :
    (∀ json, (∀ available throws s, KeepsOthers sys s (restoreAppConfig sys fmt available throws json s).2) ↔
      Confined sys (fmt.fromJson json)) ∧
    ∀ available a, fmt.fromJson (backupAppConfig sys fmt available a).1 = (backupObject sys fmt available a).1 →
      (∀ key ∈ a.settings, sys'.actualKey key = some key) →
      (∀ key ∈ a.settings, needToBackup key = true →
        fmt.toVariant (fmt.fromVariant (value sys available key .invalid a).1) =
      (value sys available key .invalid a).1) →
      ∀ available' throws b key, key ∈ a.settings → needToBackup key = true →
        ((∀ reader d, (value sys' reader key d
            (restoreAppConfig sys' fmt available' throws (backupAppConfig sys fmt available a).1 b).2).1 =
              (value sys available key .invalid a).1) ↔
          (sys'.encryptionRequired = true → key ∈ encryptedKeys → available' = false →
            ∀ reader d, (value sys' reader key d b).1 = (value sys available key .invalid a).1)) :=
  ⟨fun _ => ⟨fun h => confined_of_keepsOthers hkeys (h true false), fun h available throws s =>
      keepsOthers_of_confined h available throws s⟩,
    fun _ _ hjs hown hr _ _ _ key hkey hne => restored_backup_iff hjs hown hkey hne (hr key hkey hne)⟩

/-! ## A backup with other settings -/

/-- Where nothing is encrypted the cipher is not used. -/
def plainSystem : SettingsSystem Json where
  encryptionRequired := false
  actualKey := normalizedKey
  ofBool := .bool
  toBool
    | .plain (.bool b) => b
    | _ => false
  stream _ := []
  unstream _ := .invalid
  encrypt := id
  decrypt := some

/-- Writes as Qt does, and reads the one text of the object. -/
def documentFormat (text : List UInt8) (cfg : List (String × Json)) : BackupFormat Json where
  fromVariant
    | .plain value => value
    | _ => .null
  toVariant := .plain
  toJson cfg := (document indented (.obj cfg.toList)).map fun c => UInt8.ofNat c.toNat
  fromJson json := if json = text then .ofList cfg else ∅

def ofEntries (entries : List (String × QVariant Json)) : SecureQSettings Json := ⟨.ofList entries, ∅⟩

def routeModeText : List UInt8 := "\x7b\n    \"Conf/routeMode\": 1\n\x7d\n".toList.map fun c => UInt8.ofNat c.toNat

/-- The route mode from a backup. -/
theorem restoreAppConfig_spec_document :
    let a := ofEntries [("Conf/routeMode", .plain (.num 1))]
    let fmt := documentFormat routeModeText [("Conf/routeMode", .num 1)]
    (value plainSystem true "Conf/routeMode" .invalid
      (restoreAppConfig plainSystem fmt true false (backupAppConfig plainSystem fmt true a).1 (ofEntries [])).2).1 =
        (value plainSystem true "Conf/routeMode" .invalid a).1 := by
  have hk (key : String) (hkey : key ∈ (ofEntries [("Conf/routeMode", .plain (.num 1))]).settings) :
      "Conf/routeMode" = key := by simpa [ofEntries] using hkey
  refine ((restoreAppConfig_spec plainSystem plainSystem (documentFormat routeModeText [("Conf/routeMode", .num 1)])
    normalizedKey_normalizedKey).2 true (ofEntries [("Conf/routeMode", .plain (.num 1))]) ?_ (fun key hkey => ?_)
    (fun key hkey _ => ?_) true false (ofEntries []) "Conf/routeMode" ?_ (by decide)).mpr
    (fun hr => absurd hr (by decide)) true .invalid
  · decide +kernel
  · rw [← hk key hkey]
    decide +kernel
  · rw [← hk key hkey]
    decide +kernel
  · simp [ofEntries]

def otherSettings : String :=
  "\x7b\"Conf//installationUuid\":\"theirs\",\"Servers/serversList\":[],\"User/token\":\"theirs\"\x7d"

/-- A document with a token is taken for a backup, also as a connection string, and replaces the token; and it replaces
the identifier under another spelling of its key. -/
theorem other_settings_restored :
    let text := otherSettings.toList.map fun c => UInt8.ofNat c.toNat
    let fmt := documentFormat text [("Conf//installationUuid", .str "theirs"), ("Servers/serversList", .arr []),
      ("User/token", .str "theirs")]
    let s := ofEntries [("Conf/installationUuid", .plain (.str "mine")), ("User/token", .plain (.str "mine"))]
    let t := (restoreAppConfig plainSystem fmt true false text s).2
    (Import.ImportController.extractConfigFromData Import.exampleSystem none otherSettings
      ⟨[], .Invalid, [], []⟩).2.signals =
        [.restoreAppConfig otherSettings] ∧
      ∀ key ∈ ["Conf/installationUuid", "User/token"], needToBackup key = false ∧
        (value plainSystem true key .invalid s).1 = .plain (.str "mine") ∧
        (value plainSystem true key .invalid t).1 = .plain (.str "theirs") := by
  decide +kernel

end SecureQSettings

end Cimogus.Client
