import Cimogus.Lib.Lines
import Cimogus.Lib.Listing
import Cimogus.Lib.Runs
import Cimogus.Lib.Text

/-!
# `SecureQSettings`

Settings are kept in a cache and in the store of `QSettings`, where one of them is encrypted. The cache has the keys as
they are given; for `QSettings` several are one key, and the empty one is none. `run_survives` says for which calls a
fresh object, which has only the store, reads what the live one reads.

Whether the keys of the cipher can be had from the key store, and whether an encryption throws, is up to each call.
-/

namespace Cimogus.Client

open Lib.Runs

/-- No value, bytes, or a value of another type. -/
inductive QVariant (α : Type)
  | invalid
  | byteArray (data : List UInt8)
  | plain (value : α)
  deriving DecidableEq

/-- What the settings rest on: the platform, the keys of `QSettings`, the conversions of `QVariant`, its streaming and
the cipher. -/
structure SettingsSystem (α : Type) where
  encryptionRequired : Bool
  /-- The key under which `QSettings` has a value: with single slashes between its parts and none at its ends, and on
  Windows in one spelling for all cases. Of the empty key, which is ignored, nothing is left. -/
  actualKey : String → Option String
  ofBool : Bool → α
  toBool : QVariant α → Bool
  stream : QVariant α → List UInt8
  unstream : List UInt8 → QVariant α
  encrypt : List UInt8 → List UInt8
  /-- `none` where it throws. -/
  decrypt : List UInt8 → Option (List UInt8)

/-- The keys that the settings themselves use are kept as they are spelled. -/
structure SettingsSystem.Lawful {α : Type} (sys : SettingsSystem α) : Prop where
  actualKey_own : ∀ key ∈ ["Conf/encrypted", "Servers/serversList"], sys.actualKey key = some key
  toBool_ofBool : sys.toBool (.plain (sys.ofBool true)) = true
  unstream_stream : ∀ v, sys.unstream (sys.stream v) = v
  decrypt_encrypt : ∀ data, sys.decrypt (sys.encrypt data) = some data

/-- `EncData`. -/
def magicString : List UInt8 := [69, 110, 99, 68, 97, 116, 97]

def encryptedKeys : List String := ["Servers/serversList"]

abbrev SettingsMap (α : Type) := Std.ExtTreeMap String (QVariant α)

/-- The store has the keys of `QSettings`, the cache those of the calls. -/
structure SecureQSettings (α : Type) where
  settings : SettingsMap α
  cache : SettingsMap α

def QVariant.isEncrypted {α : Type} : QVariant α → Bool
  | .byteArray data => magicString.isPrefixOf data
  | _ => false

section

variable {α : Type} (sys : SettingsSystem α)

def encryptText (throws : Bool) (data : List UInt8) : List UInt8 := if throws then [] else sys.encrypt data

def decryptText (data : List UInt8) : List UInt8 := (sys.decrypt data).getD []

/-- What is read where an encryption threw. -/
def garbled : QVariant α := sys.unstream (decryptText sys [])

/-- What `value` makes of a stored value. -/
def decode : QVariant α → QVariant α
  | .byteArray data =>
    if magicString.isPrefixOf data then sys.unstream (decryptText sys (data.drop magicString.length))
      else .byteArray data
  | v => v

/-- `QSettings::value`; there is nothing where `contains` is false. -/
def lookup (settings : SettingsMap α) (key : String) : Option (QVariant α) :=
  (sys.actualKey key).bind fun k => settings[k]?

/-- `QSettings::setValue`. -/
def put (settings : SettingsMap α) (key : String) (v : QVariant α) : SettingsMap α :=
  (sys.actualKey key).elim settings fun k => settings.insert k v

/-- `QSettings::remove` takes the settings below the key with it, and all of them for the empty key. -/
def removes (key : String) (k : String) : Bool :=
  (sys.actualKey key).elim true fun key => k = key || Lib.Text.startsWith k (key ++ "/")

variable {sys}

/-- What is encrypted reads as it was, unless the encryption threw. -/
theorem decode_encryptText (h : sys.Lawful) (throws : Bool) (v : QVariant α) :
    decode sys (.byteArray (magicString ++ encryptText sys throws (sys.stream v))) = if throws then garbled sys
    else v := by
  have hp (data : List UInt8) : magicString.isPrefixOf (magicString ++ data) = true := by simp
  rw [decode, if_pos (hp _), List.drop_left, encryptText]
  cases throws with
  | false => simp [decryptText, h.decrypt_encrypt, h.unstream_stream]
  | true => rfl

/-- A value that is put there is found under every spelling of its key. -/
theorem lookup_put (settings : SettingsMap α) {key : String} (hkey : sys.actualKey key ≠ none) (v : QVariant α)
    (k : String) :
    lookup sys (put sys settings key v) k =
      if sys.actualKey k = sys.actualKey key then some v else lookup sys settings k := by
  obtain ⟨a, ha⟩ := Option.ne_none_iff_exists'.mp hkey
  rw [lookup, put, ha, Option.elim_some, lookup]
  cases sys.actualKey k with
  | none => simp
  | some b => simp only [Option.bind_some, Lib.getElem?_insert_eq_ite, Option.some.injEq]

end

namespace SecureQSettings

variable {α : Type} (sys : SettingsSystem α)

/-- The value, and the object with the cache that was filled. -/
def value (available : Bool) (key : String) (defaultValue : QVariant α) (s : SecureQSettings α) :
    QVariant α × SecureQSettings α :=
  match s.cache[key]? with
  | some v => (v, s)
  | none =>
    match lookup sys s.settings key with
    | none => (defaultValue, s)
    | some stored =>
      if stored.isEncrypted && !available then (.invalid, s)
      else (decode sys stored, { s with cache := s.cache.insert key (decode sys stored) })

def setValue (available throws : Bool) (key : String) (value : QVariant α) (s : SecureQSettings α) :
    SecureQSettings α :=
  if sys.encryptionRequired ∧ key ∈ encryptedKeys then
    if available then
      let encryptedValue := encryptText sys throws (sys.stream value)
      ⟨put sys s.settings key (.byteArray (magicString ++ encryptedValue)), s.cache.insert key value⟩
    else s
  else ⟨put sys s.settings key value, s.cache.insert key value⟩

def remove (key : String) (s : SecureQSettings α) : SecureQSettings α :=
  ⟨s.settings.filter fun k _ => !removes sys key k, s.cache.erase key⟩

def clearSettings (_ : SecureQSettings α) : SecureQSettings α := ⟨∅, ∅⟩

/-- `Conf/encrypted`, as the constructor reads it. -/
def encrypted (settings : SettingsMap α) : Bool := sys.toBool ((lookup sys settings "Conf/encrypted").getD .invalid)

def convert (available throws : Bool) (s : SecureQSettings α) (key : String) : SecureQSettings α :=
  if key ∈ encryptedKeys then
    let r := value sys available key .invalid s
    setValue sys available throws key r.1 r.2
  else s

def opened (available throws : Bool) (settings : SettingsMap α) : SecureQSettings α :=
  if sys.encryptionRequired ∧ encrypted sys settings = false then
    let s := settings.keys.foldl (convert sys available throws) ⟨settings, ∅⟩
    { s with settings := put sys s.settings "Conf/encrypted" (.plain (sys.ofBool true)) }
  else ⟨settings, ∅⟩

inductive Op (α : Type)
  | value (available : Bool) (key : String) (defaultValue : QVariant α)
  | setValue (available throws : Bool) (key : String) (value : QVariant α)
  | remove (key : String)
  | clearSettings

def step : Op α → SecureQSettings α → SecureQSettings α
  | .value available key defaultValue, s => (value sys available key defaultValue s).2
  | .setValue available throws key v, s => setValue sys available throws key v s
  | .remove key, s => s.remove sys key
  | .clearSettings, s => s.clearSettings

/-- A fresh object that is opened on the store reads every key as the live one does, where the keys of the cipher can be
had, whether the encryption in its constructor throws or not. -/
def Survives (s : SecureQSettings α) : Prop :=
  ∀ throws key defaultValue,
    (value sys true key defaultValue s).1 = (value sys true key defaultValue (opened sys true throws s.settings)).1

/-! ## What the calls have to keep -/

/-- The constructor converts a value that is there, and the encryption does not throw, or what it leaves reads the same.
-/
def Opens (available throws : Bool) (settings : SettingsMap α) : Prop :=
  sys.encryptionRequired = true → encrypted sys settings = false → available = true → throws = true →
    ∀ stored, lookup sys settings "Servers/serversList" = some stored → garbled sys = decode sys stored

/-- * A value that is set has a key. If it is encrypted, the encryption does not throw, or what it leaves reads as the
  value; if not, it does not look like an encrypted one, or reads as itself if it does. `Conf/encrypted` stays set where
  it is needed, and another spelling of the key is not cached with another value.
* What is removed is not cached under another key, and is not `Conf/encrypted` where that is needed.
* The settings are only cleared where `Conf/encrypted` is not needed. -/
def Keeps : Op α → SecureQSettings α → Prop
  | .value _ _ _, _ => True
  | .setValue available throws key v, s =>
    (sys.encryptionRequired = true → key ∈ encryptedKeys → available = true) → sys.actualKey key ≠ none ∧
      (if sys.encryptionRequired ∧ key ∈ encryptedKeys then throws = true → garbled sys = v
        else decode sys v = v ∧
          (sys.encryptionRequired = true → sys.actualKey key = some "Conf/encrypted" → sys.toBool v = true)) ∧
      ∀ k w, k ≠ key → sys.actualKey k = sys.actualKey key → s.cache[k]? = some w → w = v
  | .remove key, s =>
    (sys.encryptionRequired = true → removes sys key "Conf/encrypted" = false) ∧
      ∀ k, (sys.actualKey k).any (removes sys key) = true → (s.cache.erase key)[k]? = none
  | .clearSettings, _ => sys.encryptionRequired = false

/-- The cache has what the store has. -/
def Cached (s : SecureQSettings α) : Prop :=
  ∀ key v, s.cache[key]? = some v → (lookup sys s.settings key).map (decode sys) = some v

/-- The cache has what the store has, and a fresh object has nothing to convert. -/
structure Coherent (s : SecureQSettings α) : Prop where
  cached : Cached sys s
  flagged : sys.encryptionRequired = true → encrypted sys s.settings = true

variable {sys} {s : SecureQSettings α}

theorem Coherent.survives (h : Coherent sys s) : Survives sys s := by
  intro throws key d
  have ho : opened sys true throws s.settings = ⟨s.settings, ∅⟩ := if_neg fun hc => by simp [h.flagged hc.1] at hc
  rw [ho, value, value, Std.ExtTreeMap.getElem?_empty]
  cases hc : s.cache[key]? with
  | some v =>
    obtain ⟨stored, hl, hd⟩ := Option.map_eq_some_iff.mp (h.cached key v hc)
    simp [hl, hd]
  | none => cases lookup sys s.settings key <;> simp

/-- A read leaves the object as it is, or caches what is stored. -/
theorem value_snd_cases (available : Bool) (key : String) (d : QVariant α) (s : SecureQSettings α) :
    (value sys available key d s).2 = s ∨ ∃ stored, lookup sys s.settings key = some stored ∧
      (value sys available key d s).2 = { s with cache := s.cache.insert key (decode sys stored) } := by
  rw [value]
  split
  · exact .inl rfl
  · split
    · exact .inl rfl
    next stored hl =>
      split
      · exact .inl rfl
      · exact .inr ⟨stored, hl, rfl⟩

theorem cached_value (h : Cached sys s) (available : Bool) (key : String) (d : QVariant α) :
    Cached sys (value sys available key d s).2 := by
  rcases value_snd_cases available key d s with heq | ⟨stored, hl, heq⟩
  · rwa [heq]
  · rw [heq]
    intro k w hk
    rw [Lib.getElem?_insert_eq_ite] at hk
    split at hk
    next hkey => rw [hkey, hl]; exact hk
    · exact h k w hk

theorem settings_value (available : Bool) (key : String) (d : QVariant α) (s : SecureQSettings α) :
    (value sys available key d s).2.settings = s.settings := by
  rcases value_snd_cases available key d s with heq | ⟨_, _, heq⟩ <;> rw [heq]

/-- A value that is put into the store and the cache, where no other spelling of its key is cached with another one. -/
theorem cached_put (hs : Cached sys s) {key : String} {v stored : QVariant α} (hkey : sys.actualKey key ≠ none)
    (hstored : decode sys stored = v)
    (hother : ∀ k w, k ≠ key → sys.actualKey k = sys.actualKey key → s.cache[k]? = some w → w = v) :
    Cached sys ⟨put sys s.settings key stored, s.cache.insert key v⟩ := by
  intro k w hk
  rw [Lib.getElem?_insert_eq_ite] at hk
  rw [lookup_put _ hkey]
  by_cases heq : k = key
  · rw [if_pos heq] at hk
    rw [if_pos (heq ▸ rfl), Option.map_some, hstored, hk]
  · rw [if_neg heq] at hk
    split
    next ha => rw [Option.map_some, hstored, hother k w heq ha hk]
    · exact hs k w hk

theorem encrypted_put (settings : SettingsMap α) {key : String} (hkey : sys.actualKey key ≠ none) (v : QVariant α) :
    encrypted sys (put sys settings key v) =
      if sys.actualKey "Conf/encrypted" = sys.actualKey key then sys.toBool v else encrypted sys settings := by
  rw [encrypted, lookup_put _ hkey]
  split <;> rfl

/-! ## Single calls -/

theorem setValue_coherent (h : sys.Lawful) (hs : Coherent sys s) {available throws : Bool} {key : String}
    {v : QVariant α}
    (hk : Keeps sys (.setValue available throws key v) s) : Coherent sys (setValue sys available throws key v s) := by
  obtain ⟨hflag, hlist⟩ : sys.actualKey "Conf/encrypted" = some "Conf/encrypted" ∧
      sys.actualKey "Servers/serversList" = some "Servers/serversList" := by simpa using h.actualKey_own
  rw [setValue]
  by_cases he : sys.encryptionRequired ∧ key ∈ encryptedKeys
  · rw [if_pos he]
    cases available with
    | false => exact hs
    | true =>
      obtain ⟨hkey, hv, hother⟩ := hk fun _ _ => rfl
      rw [if_pos he] at hv
      have hd : decode sys (.byteArray (magicString ++ encryptText sys throws (sys.stream v))) = v := by
        rw [decode_encryptText h]
        split
        next ht => exact hv ht
        · rfl
      refine ⟨cached_put hs.cached hkey hd hother, fun hr => ?_⟩
      -- the value that is encrypted is not the flag
      rw [if_pos rfl, encrypted_put _ hkey, List.mem_singleton.mp he.2, hflag, hlist, if_neg (by decide)]
      exact hs.flagged hr
  · rw [if_neg he]
    obtain ⟨hkey, hv, hother⟩ := hk fun hr hm => absurd ⟨hr, hm⟩ he
    rw [if_neg he] at hv
    refine ⟨cached_put hs.cached hkey hv.1 hother, fun hr => ?_⟩
    rw [encrypted_put _ hkey]
    split
    next ha => exact hv.2 hr (ha ▸ hflag)
    · exact hs.flagged hr

theorem remove_coherent (h : sys.Lawful) (hs : Coherent sys s) {key : String} (hk : Keeps sys (.remove key) s) :
    Coherent sys (s.remove sys key) where
  cached k v hc := by
    have hno : (sys.actualKey k).any (removes sys key) = false := Bool.eq_false_iff.mpr fun hr => by
      have hn : (s.remove sys key).cache[k]? = none := hk.2 k hr
      rw [hc] at hn
      cases hn
    have hc' : s.cache[k]? = some v := by
      rw [remove, Lib.getElem?_erase_eq_ite] at hc
      split at hc
      · cases hc
      · exact hc
    have hl := hs.cached k v hc'
    rw [lookup] at hl ⊢
    cases ha : sys.actualKey k with
    | none => rwa [ha] at hl
    | some a =>
      rw [ha, Option.any_some] at hno
      rw [ha, Option.bind_some] at hl
      rwa [Option.bind_some, remove, Lib.getElem?_filter_eq_ite, hno, if_pos (by rfl)]
  flagged hr := by
    have ha : sys.actualKey "Conf/encrypted" = some "Conf/encrypted" := h.actualKey_own _ (by simp)
    have hf := hs.flagged hr
    rw [encrypted, lookup, ha, Option.bind_some] at hf ⊢
    rwa [remove, Lib.getElem?_filter_eq_ite, hk.1 hr, if_pos (by rfl)]

/-! ## The constructor -/

variable (sys) in
/-- In the loop of the constructor: only the value that is to be encrypted is cached, and it reads as before. -/
structure Converting (v : QVariant α) (s : SecureQSettings α) : Prop where
  cached : Cached sys s
  keys : ∀ k w, s.cache[k]? = some w → k = "Servers/serversList"
  reads : (lookup sys s.settings "Servers/serversList").map (decode sys) = some v

theorem Converting.value {v : QVariant α} (h : Converting sys v s) (available : Bool) (d : QVariant α) :
    Converting sys v (value sys available "Servers/serversList" d s).2 ∧
      (available = true → (value sys available "Servers/serversList" d s).1 = v) := by
  refine ⟨⟨cached_value h.cached _ _ _, fun k w hk => ?_, by rw [settings_value]; exact h.reads⟩, fun ha => ?_⟩
  · rcases value_snd_cases available "Servers/serversList" d s with heq | ⟨_, _, heq⟩
    · exact h.keys k w (heq ▸ hk)
    · rw [heq, Lib.getElem?_insert_eq_ite] at hk
      split at hk
      next hkey => exact hkey
      · exact h.keys k w hk
  · rw [SecureQSettings.value, ha]
    cases hc : s.cache["Servers/serversList"]? with
    | some w => exact Option.some.inj ((h.cached _ w hc).symm.trans h.reads)
    | none =>
      obtain ⟨stored, hl, hd⟩ := Option.map_eq_some_iff.mp h.reads
      simp [hl, hd]

theorem Converting.convert (hl : sys.Lawful) (hr : sys.encryptionRequired = true) {available throws : Bool}
    {v : QVariant α}
    (ho : available = true → throws = true → garbled sys = v) (h : Converting sys v s) :
    Converting sys v (convert sys available throws s "Servers/serversList") := by
  have hlist : sys.actualKey "Servers/serversList" = some "Servers/serversList" := hl.actualKey_own _ (by simp)
  have hkey : sys.actualKey "Servers/serversList" ≠ none := by simp [hlist]
  have hm : "Servers/serversList" ∈ encryptedKeys := by decide
  obtain ⟨hc, hv⟩ := h.value available .invalid
  rw [SecureQSettings.convert, if_pos hm, setValue, if_pos ⟨hr, hm⟩]
  cases available with
  | false => exact hc
  | true =>
    rw [hv rfl, if_pos rfl]
    have hd : decode sys (.byteArray (magicString ++ encryptText sys throws (sys.stream v))) = v := by
      rw [decode_encryptText hl]
      split
      next ht => exact ho rfl ht
      · rfl
    refine ⟨cached_put hc.cached hkey hd fun k w hne _ hk => absurd (hc.keys k w hk) hne, fun k w hk => ?_, ?_⟩
    · rw [Lib.getElem?_insert_eq_ite] at hk
      split at hk
      next heq => exact heq
      · exact hc.keys k w hk
    · rw [lookup_put _ hkey, if_pos rfl, Option.map_some, hd]

theorem foldl_convert_of_notMem {available throws : Bool} {keys : List String} (h : "Servers/serversList" ∉ keys)
    (s : SecureQSettings α) : keys.foldl (convert sys available throws) s = s := by
  induction keys with
  | nil => rfl
  | cons key keys ih =>
    obtain ⟨hne, hk⟩ := not_or.mp (List.mem_cons.not.mp h)
    have hc : convert sys available throws s key = s := if_neg (by simpa [encryptedKeys] using Ne.symm hne)
    rw [List.foldl_cons, hc, ih hk]

theorem Converting.foldl (hl : sys.Lawful) (hr : sys.encryptionRequired = true) {available throws : Bool}
    {v : QVariant α}
    (ho : available = true → throws = true → garbled sys = v) (keys : List String) (h : Converting sys v s) :
    Converting sys v (keys.foldl (SecureQSettings.convert sys available throws) s) := by
  induction keys generalizing s with
  | nil => exact h
  | cons key keys ih =>
    refine ih ?_
    by_cases hk : key = "Servers/serversList"
    · rw [hk]
      exact h.convert hl hr ho
    · rwa [SecureQSettings.convert, if_neg (by simpa [encryptedKeys] using hk)]

theorem opened_coherent (h : sys.Lawful) {available throws : Bool} {settings : SettingsMap α}
    (ho : Opens sys available throws settings) : Coherent sys (opened sys available throws settings) := by
  obtain ⟨hflag, hlist⟩ : sys.actualKey "Conf/encrypted" = some "Conf/encrypted" ∧
      sys.actualKey "Servers/serversList" = some "Servers/serversList" := by simpa using h.actualKey_own
  have hempty : Cached sys ⟨settings, ∅⟩ := fun k v hk => by simp at hk
  rw [opened]
  by_cases hc : sys.encryptionRequired ∧ encrypted sys settings = false
  · rw [if_pos hc]
    obtain ⟨hcached, hkeys⟩ : Cached sys
        (settings.keys.foldl (convert sys available throws) ⟨settings, ∅⟩) ∧
        ∀ k w, (settings.keys.foldl (convert sys available throws) ⟨settings, ∅⟩).cache[k]? = some w →
          k = "Servers/serversList" := by
      by_cases hm : "Servers/serversList" ∈ settings.keys
      · obtain ⟨stored, hs⟩ : ∃ stored, settings["Servers/serversList"]? = some stored :=
          ⟨_, Std.ExtTreeMap.getElem?_eq_some_getElem (Std.ExtTreeMap.mem_keys.mp hm)⟩
        have hl : lookup sys settings "Servers/serversList" = some stored := by rw [lookup, hlist, Option.bind_some, hs]
        have hconv : Converting sys (decode sys stored) ⟨settings, ∅⟩ :=
          ⟨hempty, fun k w hk => by simp at hk, by rw [hl, Option.map_some]⟩
        have hf := hconv.foldl h hc.1 (fun ha ht => ho hc.1 hc.2 ha ht stored hl) settings.keys
        exact ⟨hf.cached, hf.keys⟩
      · rw [foldl_convert_of_notMem hm]
        exact ⟨hempty, fun k w hk => by simp at hk⟩
    generalize settings.keys.foldl (convert sys available throws) ⟨settings, ∅⟩ = t at hcached hkeys
    have hkey : sys.actualKey "Conf/encrypted" ≠ none := by simp [hflag]
    refine ⟨fun k w hk => ?_, fun _ => ?_⟩
    · have hk' := hkeys k w hk
      rw [lookup_put _ hkey, hk', hlist, hflag, if_neg (by decide), ← hk']
      exact hcached k w hk
    · rw [encrypted_put _ hkey, if_pos rfl, h.toBool_ofBool]
  · rw [if_neg hc]
    exact ⟨hempty, fun hr => by simpa [hr] using hc⟩

/-! ## Runs -/

theorem step_coherent (h : sys.Lawful) (op : Op α) (s : SecureQSettings α) (hk : Keeps sys op s)
    (hs : Coherent sys s) :
    Coherent sys (step sys op s) := by
  cases op with
  | value available key d =>
    refine ⟨cached_value hs.cached _ _ _, fun hr => ?_⟩
    rw [step, settings_value]
    exact hs.flagged hr
  | setValue available throws key v => exact setValue_coherent h hs hk
  | remove key => exact remove_coherent h hs hk
  | clearSettings =>
    refine ⟨fun k v hc => by simp [step, clearSettings] at hc, fun hr => ?_⟩
    have hno : sys.encryptionRequired = false := hk
    rw [hno] at hr
    cases hr

/-- **Settings survive a restart.** From the constructor on, after every call a fresh object reads what the live one
reads, as long as the calls meet `Keeps`. -/
theorem run_survives (h : sys.Lawful) (available throws : Bool) (settings : SettingsMap α) (ops : List (Op α))
    (ho : Opens sys available throws settings)
    (hk : Guarded (step sys) (Keeps sys) ops (opened sys available throws settings)) (n : Nat) :
    Survives sys (run (step sys) (ops.take n) (opened sys available throws settings)) :=
  (run_invariant_of_guarded (step_coherent h) _ (hk.take n) (opened_coherent h ho)).survives

/-- The parts of a key between slashes, as on Unix. -/
def normalizedKey (key : String) : Option String :=
  match (Lib.Text.split key '/').filter (· ≠ "") with
  | [] => none
  | parts => some (Lib.Text.join '/' parts)

theorem normalizedKey_normalizedKey (key k : String) (h : normalizedKey key = some k) : normalizedKey k = some k := by
  rw [normalizedKey] at h
  generalize hp : (Lib.Text.split key '/').filter (· ≠ "") = parts at h
  cases parts with
  | nil => cases h
  | cons p parts =>
    obtain rfl := Option.some.inj h
    have hsplit : Lib.Text.split (Lib.Text.join '/' (p :: parts)) '/' = p :: parts := by
      refine (Lib.Text.split_eq_iff fun q hq => ?_).mpr ⟨List.cons_ne_nil _ _, rfl⟩
      obtain ⟨l, hl, rfl⟩ := List.mem_map.mp (List.mem_of_mem_filter (hp ▸ hq))
      rw [String.toList_ofList]
      exact Lib.Lines.sep_notMem_of_mem_splitOn _ hl
    have hfilter : (p :: parts).filter (· ≠ "") = p :: parts := by rw [← hp, List.filter_filter]; simp
    rw [normalizedKey, hsplit, hfilter]

/-- Settings of truth values, with a cipher that turns the data around. -/
def boolSystem (encryptionRequired : Bool) : SettingsSystem Bool where
  encryptionRequired
  actualKey := normalizedKey
  ofBool := id
  toBool
    | .plain b => b
    | .byteArray data => data ≠ []
    | .invalid => false
  stream
    | .invalid => []
    | .byteArray data => 1 :: data
    | .plain b => [2, if b then 1 else 0]
  unstream
    | 1 :: data => .byteArray data
    | [2, b] => .plain (b = 1)
    | _ => .invalid
  encrypt := List.reverse
  decrypt data := some data.reverse

theorem boolSystem_lawful (encryptionRequired : Bool) : (boolSystem encryptionRequired).Lawful where
  actualKey_own := by
    show ∀ key ∈ ["Conf/encrypted", "Servers/serversList"], normalizedKey key = some key
    decide +kernel
  toBool_ofBool := rfl
  unstream_stream
    | .invalid => rfl
    | .byteArray _ => rfl
    | .plain true => rfl
    | .plain false => rfl
  decrypt_encrypt data := congrArg some (List.reverse_reverse data)

/-- Values that are written and read while the key store is there, the second under two spellings of its key. -/
theorem run_survives_written : Survives (boolSystem true) (run (step (boolSystem true))
      [.setValue true false "Servers/serversList" (.plain true), .setValue false false "Conf//routeMode" (.plain false),
        .value false "Conf/routeMode" .invalid] (opened (boolSystem true) false false ∅)) := by
  have hc : (opened (boolSystem true) false false ∅).cache = ∅ := rfl
  refine run_survives (boolSystem_lawful true) false false ∅
    [.setValue true false "Servers/serversList" (.plain true),
    .setValue false false "Conf//routeMode" (.plain false), .value false "Conf/routeMode" .invalid]
    (fun _ _ hy => absurd hy Bool.false_ne_true) ⟨fun _ => ⟨by decide +kernel, ?_, fun k w _ _ hk => ?_⟩,
      fun _ => ⟨by decide +kernel, ?_, fun k w _ ha hk => ?_⟩, trivial, trivial⟩ 3
  · simp [boolSystem, encryptedKeys]
  · simp [hc] at hk
  · rw [if_neg (by decide)]
    exact ⟨rfl, fun _ ha => absurd ha (by decide +kernel)⟩
  · have hk' : (((∅ : SettingsMap Bool).insert "Servers/serversList" (.plain true))[k]?) = some w := hk
    rw [Lib.getElem?_insert_eq_ite] at hk'
    split at hk'
    next heq => exact absurd (heq ▸ ha) (by decide +kernel)
    · simp at hk'

/-- * A second value whose encryption throws is read from the cache, and by a fresh object neither it nor the first one.
* A value below a removed key is still read from the cache, and so is one for the empty key.
* Of two spellings of a key the first one keeps its value in the cache.
* Bytes that begin with the magic string are read as they are from the cache, and decrypted by a fresh object.
* After `clearSettings` a fresh object has `Conf/encrypted`. -/
theorem lost_at_restart :
    let fresh (required : Bool) (s : SecureQSettings Bool) (key : String) :=
      (value (boolSystem required) true key .invalid (opened (boolSystem required) true false s.settings)).1
    let live (required : Bool) (s : SecureQSettings Bool) (key : String) :=
      (value (boolSystem required) true key .invalid s).1
    let after (required : Bool) (ops : List (Op Bool)) :=
      run (step (boolSystem required)) ops (opened (boolSystem required) true false ∅)
    let written := after true [.setValue true false "Servers/serversList" (.plain true)]
    let thrown := step (boolSystem true) (.setValue true true "Servers/serversList" (.plain false)) written
    let removed := after false [.setValue true false "Conf/routeMode" (.plain true), .remove "Conf"]
    let unnamed := after false [.setValue true false "" (.plain true)]
    let twice := after false [.setValue true false "a" (.plain true), .setValue true false "/a" (.plain false)]
    let bytes := after false [.setValue true false "Conf/icon" (.byteArray (magicString ++ [0]))]
    let cleared := after true [.clearSettings]
    (fresh true written "Servers/serversList" = .plain true ∧
      live true thrown "Servers/serversList" = .plain false ∧
        fresh true thrown "Servers/serversList" = .invalid) ∧
      (live false removed "Conf/routeMode" = .plain true ∧ fresh false removed "Conf/routeMode" = .invalid) ∧
      (live false unnamed "" = .plain true ∧ fresh false unnamed "" = .invalid) ∧
      (live false twice "a" = .plain true ∧ fresh false twice "a" = .plain false) ∧
      (live false bytes "Conf/icon" = .byteArray (magicString ++ [0]) ∧ fresh false bytes "Conf/icon" = .invalid) ∧
      live true cleared "Conf/encrypted" = .invalid ∧ fresh true cleared "Conf/encrypted" = .plain true := by
  decide +kernel

end SecureQSettings

end Cimogus.Client
