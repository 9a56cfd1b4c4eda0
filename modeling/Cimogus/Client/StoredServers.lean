import Cimogus.Client.Servers
import Cimogus.Lib.Runs

/-!
# The servers in the settings

`ServersModel` keeps a copy of the list of servers and of the default index that `Settings` holds, and writes through
it. Here the two are told apart, so that it can be said that they agree. The text in which the settings store the list
is left out: what is written is read again.
-/

namespace Cimogus.Client

open Lib.Runs List

/-- The part of `Settings` about the servers. -/
structure ServerSettings where
  serversArray : List ServerConfig
  defaultServerIndex : Int
  deriving DecidableEq

namespace ServerSettings

def serversCount (s : ServerSettings) : Nat := s.serversArray.length

def setDefaultServer (index : Int) (s : ServerSettings) : ServerSettings := { s with defaultServerIndex := index }

def addServer (server : ServerConfig) (s : ServerSettings) : ServerSettings :=
  { s with serversArray := s.serversArray ++ [server] }

/-- `removeAt` ignores a negative index. -/
def removeServer (index : Int) (s : ServerSettings) : ServerSettings :=
  if s.serversArray.length ≤ index ∨ index < 0 then s
    else { s with serversArray := s.serversArray.eraseIdx index.toNat }

def removeAllServers (s : ServerSettings) : ServerSettings := { s with serversArray := [] }

def editServer (index : Nat) (server : ServerConfig) (s : ServerSettings) : ServerSettings :=
  { s with serversArray := s.serversArray.set index server }

end ServerSettings

structure StoredServers where
  settings : ServerSettings
  model : ServersModel
  deriving DecidableEq

namespace StoredServers

def setDefaultServerIndex (index : Int) (s : StoredServers) : StoredServers :=
  let settings := s.settings.setDefaultServer index
  ⟨settings, s.model.setDefaultServerIndex settings.defaultServerIndex⟩

def setProcessedServerIndex (index : Int) (s : StoredServers) : StoredServers :=
  { s with model := s.model.setProcessedServerIndex index }

/-- `m_servers = m_settings->serversArray()`. -/
def readServers (s : StoredServers) : StoredServers :=
  { s with model := { s.model with servers := s.settings.serversArray } }

def resetModel (s : StoredServers) : StoredServers :=
  { s with model := s.model.resetModel s.settings.serversArray s.settings.defaultServerIndex }

def addServer (server : ServerConfig) (s : StoredServers) : StoredServers :=
  readServers { s with settings := s.settings.addServer server }

/-- For an index that is there. -/
def editServer (index : Nat) (server : ServerConfig) (s : StoredServers) : StoredServers :=
  let settings := s.settings.editServer index server
  let servers := s.model.servers.set index (settings.serversArray.getD index .empty)
  ⟨settings, { s.model with servers }.setProcessedServerIndex s.model.processedServerIndex⟩

/-- The first correction of `removeServer`. -/
def moveDefault (processed : Int) (s : StoredServers) : StoredServers :=
  if s.settings.defaultServerIndex = processed then s.setDefaultServerIndex 0
  else if s.settings.defaultServerIndex > processed then s.setDefaultServerIndex (s.settings.defaultServerIndex - 1)
  else s

/-- The second one. -/
def unsetDefault (s : StoredServers) : StoredServers :=
  if s.settings.serversCount = 0 then s.setDefaultServerIndex (-1) else s

def removeServer (s : StoredServers) : StoredServers :=
  let processed := s.model.processedServerIndex
  let s := readServers { s with settings := s.settings.removeServer processed }
  let s := (s.moveDefault processed).unsetDefault
  s.setProcessedServerIndex s.model.defaultServerIndex

def clearServers (s : StoredServers) : StoredServers :=
  let s := (readServers { s with settings := s.settings.removeAllServers }).setDefaultServerIndex (-1)
  s.setProcessedServerIndex s.model.defaultServerIndex

/-! ## The copy -/

structure InSync (s : StoredServers) : Prop where
  servers : s.model.servers = s.settings.serversArray
  defaultServerIndex : s.model.defaultServerIndex = s.settings.defaultServerIndex

inductive Call
  | setDefaultServerIndex (index : Int)
  | setProcessedServerIndex (index : Int)
  | resetModel
  | addServer (server : ServerConfig)
  | editServer (index : Nat) (server : ServerConfig)
  | removeServer
  | clearServers

def step : Call → StoredServers → StoredServers
  | .setDefaultServerIndex index => setDefaultServerIndex index
  | .setProcessedServerIndex index => setProcessedServerIndex index
  | .resetModel => resetModel
  | .addServer server => addServer server
  | .editServer index server => editServer index server
  | .removeServer => removeServer
  | .clearServers => clearServers

variable {s : StoredServers}

theorem InSync.setDefaultServerIndex (h : InSync s) (index : Int) : InSync (s.setDefaultServerIndex index) :=
  ⟨h.servers, rfl⟩

theorem InSync.setProcessedServerIndex (h : InSync s) (index : Int) : InSync (s.setProcessedServerIndex index) :=
  ⟨h.servers, h.defaultServerIndex⟩

theorem InSync.readServers (h : s.model.defaultServerIndex = s.settings.defaultServerIndex) :
    InSync s.readServers := ⟨rfl, h⟩

theorem ServerSettings.removeServer_default (index : Int) (settings : ServerSettings) :
    (settings.removeServer index).defaultServerIndex = settings.defaultServerIndex := by
  unfold ServerSettings.removeServer
  split <;> rfl

theorem InSync.moveDefault (h : InSync s) (processed : Int) : InSync (s.moveDefault processed) := by
  unfold StoredServers.moveDefault
  split
  · exact h.setDefaultServerIndex 0
  split
  · exact h.setDefaultServerIndex _
  · exact h

theorem InSync.unsetDefault (h : InSync s) : InSync s.unsetDefault := by
  unfold StoredServers.unsetDefault
  split
  · exact h.setDefaultServerIndex (-1)
  · exact h

theorem removeServer_inSync (h : s.model.defaultServerIndex = s.settings.defaultServerIndex) :
    InSync s.removeServer := by
  have hr : InSync (readServers { s with settings := s.settings.removeServer s.model.processedServerIndex }) :=
    .readServers (h.trans (ServerSettings.removeServer_default _ _).symm)
  exact (hr.moveDefault _).unsetDefault.setProcessedServerIndex _

theorem step_inSync (call : Call) (s : StoredServers) (h : InSync s) : InSync (step call s) := by
  cases call with
  | setDefaultServerIndex index => exact h.setDefaultServerIndex index
  | setProcessedServerIndex index => exact h.setProcessedServerIndex index
  | resetModel => exact ⟨rfl, rfl⟩
  | addServer server => exact .readServers h.defaultServerIndex
  | editServer index server =>
    refine ⟨?_, h.defaultServerIndex⟩
    show s.model.servers.set index ((s.settings.serversArray.set index server).getD index .empty) =
      s.settings.serversArray.set index server
    rw [h.servers]
    by_cases hi : index < s.settings.serversArray.length
    · simp [hi]
    · rw [set_eq_of_length_le (by omega), set_eq_of_length_le (by omega)]
  | removeServer => exact removeServer_inSync h.defaultServerIndex
  | clearServers =>
    have hr : InSync (readServers { s with settings := s.settings.removeAllServers }) :=
      .readServers h.defaultServerIndex
    exact (hr.setDefaultServerIndex (-1)).setProcessedServerIndex _

/-- **The copy agrees with the settings after every sequence of calls.** -/
theorem run_inSync (calls : List Call) (h : InSync s) : InSync (run step calls s) := run_invariant step_inSync calls h

/-! ## Removing a server -/

theorem moveDefault_settings (processed : Int) (s : StoredServers) :
    (s.moveDefault processed).settings = s.settings.setDefaultServer
      (if s.settings.defaultServerIndex = processed then 0
        else if processed < s.settings.defaultServerIndex then s.settings.defaultServerIndex - 1
        else s.settings.defaultServerIndex) := by
  unfold moveDefault
  split
  · rfl
  split <;> rfl

theorem unsetDefault_settings (s : StoredServers) : s.unsetDefault.settings = s.settings.setDefaultServer
      (if s.settings.serversArray.length = 0 then -1 else s.settings.defaultServerIndex) := by
  unfold unsetDefault ServerSettings.serversCount
  split <;> rfl

/-- Where the default index has to be after the server at `processed` is gone from `count` servers. -/
def defaultAfter (count : Nat) (processed default : Int) : Int :=
  if count = 1 then -1 else if default = processed then 0 else if processed < default then default - 1 else default

/-- The settings without the processed server. -/
theorem removeServer_settings (hp : 0 ≤ s.model.processedServerIndex)
    (hlt : s.model.processedServerIndex < s.settings.serversArray.length) : s.removeServer.settings =
      ⟨s.settings.serversArray.eraseIdx s.model.processedServerIndex.toNat,
        defaultAfter s.settings.serversArray.length s.model.processedServerIndex s.settings.defaultServerIndex⟩ := by
  have her : s.settings.removeServer s.model.processedServerIndex =
      { s.settings with serversArray := s.settings.serversArray.eraseIdx s.model.processedServerIndex.toNat } := by
    rw [ServerSettings.removeServer, if_neg (by omega)]
  have he : (s.settings.serversArray.eraseIdx s.model.processedServerIndex.toNat).length = 0 ↔
      s.settings.serversArray.length = 1 := by
    rw [length_eraseIdx_of_lt (by omega)]
    omega
  show (unsetDefault (moveDefault _ _)).settings = _
  rw [unsetDefault_settings, moveDefault_settings, her]
  simp only [readServers, ServerSettings.setDefaultServer, defaultAfter]
  congr 1
  exact ite_congr (propext he) (fun _ => rfl) fun _ => rfl

theorem getElem?_defaultAfter {α : Type} {l : List α} {processed default : Int} (hp : 0 ≤ processed)
    (hd : 0 ≤ default)
    (hpl : processed < l.length) (hdl : default < l.length) (hne : default ≠ processed) :
    0 ≤ defaultAfter l.length processed default ∧
      (l.eraseIdx processed.toNat)[(defaultAfter l.length processed default).toNat]? = l[default.toNat]? := by
  have hm : l.length ≠ 1 := by omega
  rw [defaultAfter, if_neg hm, if_neg hne]
  split
  next hlt =>
    refine ⟨by omega, ?_⟩
    rw [getElem?_eraseIdx, if_neg (by omega)]
    congr 1
    omega
  next hlt =>
    refine ⟨hd, ?_⟩
    rw [getElem?_eraseIdx, if_pos (by omega)]

/-- **Removing a server keeps the default server.** For every list, and every default and processed index in its range:
the list is the one without the processed server, in the settings and in the model; the default index is on the server
on which it was, or at 0 if that was removed and there are others, or -1 if there are none; the model agrees with the
settings; and the processed index is the default index. -/
theorem removeServer_keeps_default (s : StoredServers)
    (hsame : s.model.defaultServerIndex = s.settings.defaultServerIndex)
    (hdefault : 0 ≤ s.settings.defaultServerIndex ∧ s.settings.defaultServerIndex < s.settings.serversArray.length)
    (hprocessed : 0 ≤ s.model.processedServerIndex ∧
      s.model.processedServerIndex < s.settings.serversArray.length) :
    s.removeServer.model.servers = s.settings.serversArray.eraseIdx s.model.processedServerIndex.toNat ∧
      (s.settings.defaultServerIndex ≠ s.model.processedServerIndex → s.removeServer.model.defaultServerIndex =
            (if s.model.processedServerIndex < s.settings.defaultServerIndex then s.settings.defaultServerIndex - 1
              else s.settings.defaultServerIndex) ∧
            s.removeServer.model.server? s.removeServer.model.defaultServerIndex =
            s.settings.serversArray[s.settings.defaultServerIndex.toNat]?) ∧
      (s.settings.defaultServerIndex = s.model.processedServerIndex → s.removeServer.model.servers ≠ [] →
        s.removeServer.model.defaultServerIndex = 0) ∧
      (s.removeServer.model.servers = [] → s.removeServer.model.defaultServerIndex = -1) ∧
      s.removeServer.InSync ∧ s.removeServer.model.processedServerIndex =
      s.removeServer.model.defaultServerIndex := by
  have hse := removeServer_settings hprocessed.1 hprocessed.2
  have hsy := removeServer_inSync hsame
  have hs : s.removeServer.model.servers = s.settings.serversArray.eraseIdx s.model.processedServerIndex.toNat := by
    rw [hsy.servers, hse]
  have hi : s.removeServer.model.defaultServerIndex =
      defaultAfter s.settings.serversArray.length s.model.processedServerIndex s.settings.defaultServerIndex := by
    rw [hsy.defaultServerIndex, hse]
  have he : s.removeServer.model.servers = [] ↔ s.settings.serversArray.length = 1 := by
    rw [hs, ← length_eq_zero_iff, length_eraseIdx_of_lt (by omega)]
    omega
  refine ⟨hs, fun hne => ?_, fun heq hso => ?_, fun hno => ?_, hsy, rfl⟩
  · obtain ⟨hnonneg, hk⟩ := getElem?_defaultAfter hprocessed.1 hdefault.1 hprocessed.2 hdefault.2 hne
    constructor
    · rw [hi, defaultAfter, if_neg (by omega), if_neg hne]
    · rw [ServersModel.server?, hi, if_pos hnonneg, hs, hk]
  · rw [hi, defaultAfter, if_neg (mt he.mpr hso), if_pos heq]
  · rw [hi, defaultAfter, if_pos (he.mp hno)]

/-- Three servers, of which the first one is removed while the last one is the default. -/
def threeServers : StoredServers :=
  let servers := ["a", "b", "c"].map fun hostName => { ServerConfig.empty with hostName }
  ⟨⟨servers, 2⟩, ⟨servers, 2, 0, []⟩⟩

theorem removeServer_keeps_default_three : threeServers.removeServer.model.defaultServerIndex = 1 ∧
      threeServers.removeServer.model.server? threeServers.removeServer.model.defaultServerIndex =
        some { ServerConfig.empty with hostName := "c" } :=
  (removeServer_keeps_default threeServers rfl (by decide) (by decide)).2.1 (by decide)

theorem run_inSync_three : InSync (run step [.removeServer, .addServer .empty, .editServer 0 .empty] threeServers) :=
  run_inSync _ ⟨rfl, rfl⟩

end StoredServers

end Cimogus.Client
