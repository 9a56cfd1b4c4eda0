import Cimogus.Client.Connection

/-!
# The server that is connected to

An import appends its server to the list, and the handler of `importFinished` takes the first one. So the connection is
to the imported server only where the list was empty. The servers for the name resolution are read from the list once
more, after the wait for the configuration of the protocol, in which the list may have been cleared or another server
selected.
-/

namespace Cimogus.Client

open Lib.Runs List

variable {env : Environment}

/-- The container's configuration that a server's own `defaultContainer` has. -/
def ServerConfig.containerConfig (c : ServerConfig) : ContainerConfig := .find c.defaultContainer c.containersArray

/-- The arguments are those of the server: its credentials, its container with the configuration that it has for it, or
with a new one where it has none, and its servers for the name resolution. -/
def ConnectToVpn.Carries (env : Environment) (args : ConnectToVpn) (c : ServerConfig) : Prop :=
  args.credentials = c.credentials ∧ args.container = c.defaultContainer ∧ ∃ containerConfig,
      (c.containerConfig.isProtocolConfigExists c.defaultContainer = true → containerConfig = c.containerConfig) ∧
        args.vpnConfiguration = createVpnConfiguration env (c.dnsPair env.dns) c containerConfig c.defaultContainer

/-- What `continueConnection` reads where the server is the default and the processed one. -/
def Waiting.of (imported : ServerConfig) : Waiting where
  imported
  serverIndex := 0
  serverConfig := imported
  container := imported.defaultContainer
  containerConfig := imported.containerConfig
  credentials := imported.credentials

/-! ## The servers for the name resolution -/

variable {containers : List ContainerConfig} {container : DockerContainer}

theorem ContainerConfig.find_container (h : ∃ entry ∈ containers, entry.container = container) :
    (ContainerConfig.find container containers).container = container := by
  unfold ContainerConfig.find
  split
  · rename_i hno
    exact hno.symm
  · obtain ⟨entry, he, hc⟩ := h
    cases hfi : containers.reverse.find? fun c => c.container = container with
    | none =>
      have hnot := find?_eq_none.mp hfi entry (mem_reverse.mpr he)
      exact absurd (decide_eq_true hc) hnot
    | some found =>
      have hfo := find?_some hfi
      exact of_decide_eq_true hfo

theorem ServersModel.replaceContainer_containers {config : ContainerConfig}
    (h : (∃ entry ∈ containers, entry.container = container) → config.container = container) :
    (replaceContainer container config containers).map (·.container) = containers.map (·.container) := by
  induction containers with
  | nil => rfl
  | cons entry entries ih =>
    rw [replaceContainer]
    split
    · rename_i heq
      simp [h ⟨entry, mem_cons_self, heq⟩, heq]
    · rw [map_cons, map_cons, ih fun ⟨e, he, hc⟩ => h ⟨e, mem_cons_of_mem _ he, hc⟩]

theorem ServerConfig.dnsPair_replace (settings : DnsSettings) {c : ServerConfig}
    (h : containers.map (·.container) = c.containersArray.map (·.container)) :
    ServerConfig.dnsPair settings { c with containers := some containers } = c.dnsPair settings := by
  have hi : ServerConfig.isDnsContainerInstalled { c with containers := some containers } =
      c.isDnsContainerInstalled := by
    have ha (l : List ContainerConfig) :
        (l.any fun entry => entry.container = .Dns) = (l.map (·.container)).any fun c => c = .Dns := by
      rw [any_map]
      rfl
    rw [isDnsContainerInstalled, isDnsContainerInstalled, ha, ha, ← h]
    rfl
  rw [dnsPair, dnsPair, hi]

open ServersModel

theorem ServersModel.updateContainerConfig_dns (settings : DnsSettings) {config : ContainerConfig} {m : ServersModel}
    (h : (∃ entry ∈ (m.getServerConfig m.processedServerIndex).containersArray, entry.container = container) →
      config.container = container) : ((m.updateContainerConfig container config).getServerConfig
        (m.updateContainerConfig container config).processedServerIndex).dnsPair settings =
      (m.getServerConfig m.processedServerIndex).dnsPair settings := by
  unfold updateContainerConfig
  cases hs : m.server? m.processedServerIndex with
  | none => rfl
  | some server =>
    have hg : m.getServerConfig m.processedServerIndex = server := by rw [getServerConfig, hs]; rfl
    obtain ⟨hi, hlt⟩ : 0 ≤ m.processedServerIndex ∧ m.processedServerIndex.toNat < m.servers.length := by
      unfold server? at hs
      split at hs
      · exact ⟨‹_›, (List.getElem?_eq_some_iff.mp hs).1⟩
      · cases hs
    rw [hg] at h ⊢
    have hse (server' : ServerConfig) : getServerConfig
      { m with servers := m.servers.set m.processedServerIndex.toNat server' }
          m.processedServerIndex = server' := by
      simp [getServerConfig, server?, hi, hlt]
    show ServerConfig.dnsPair settings (getServerConfig
      { m with servers := m.servers.set m.processedServerIndex.toNat _ } m.processedServerIndex) = _
    rw [hse]
    exact ServerConfig.dnsPair_replace settings (replaceContainer_containers h)

/-! ## From the import to the connection -/

variable {s : ConnectionController}

namespace ConnectionController

theorem continueConnection_imported {added : ServerConfig} {t : ConnectionController} {w : Waiting}
    (hfi : ∀ first ∈ s.serversModel.servers.head?, first = added)
    (h : (s.addImported added).continueConnection env added = (t, some w)) : w = .of added := by
  have hh : s.serversModel.servers.head?.getD added = added := by
    cases hse : s.serversModel.servers.head? with
    | none => rfl
    | some first => exact hfi first hse
  obtain ⟨hs, hc⟩ := importFinished_at added s.serversModel
  rw [hh] at hs hc
  have hd : (s.addImported added).serversModel.defaultServerIndex = 0 := rfl
  have hs' : (s.addImported added).serversModel.server? 0 = some added := hs
  have hc' : (s.addImported added).serversModel.containers = added.containersArray := hc
  unfold continueConnection at h
  simp only [hd, getServerConfig, hs', hc', Option.map_some, Option.getD_some] at h
  split at h
  · cases h
  split at h
  · cases h
  split at h
  · cases h
  · cases h
    rfl

variable {r : ProtocolReply}

theorem args_carries {imported : ServerConfig} {t : ConnectionController} {containerConfig : ContainerConfig}
    (hp : s.serversModel.getServerConfig s.serversModel.processedServerIndex = imported)
    (h : s.updateProtocolConfig r (.of imported) = (none, containerConfig, t)) :
    ((Waiting.of imported).args env containerConfig t.serversModel).Carries env imported := by
  have hu : (imported.containerConfig.isProtocolConfigExists imported.defaultContainer = true →
        containerConfig = imported.containerConfig) ∧
      (t.serversModel.getServerConfig t.serversModel.processedServerIndex).dnsPair env.dns =
      imported.dnsPair env.dns := by
    unfold updateProtocolConfig at h
    split at h
    · cases h
      exact ⟨fun _ => rfl, by rw [hp]⟩
    · rename_i he
      split at h
      · cases h
      · simp only [Prod.mk.injEq] at h
        obtain ⟨_, hc, ht⟩ := h
        refine ⟨fun hy => absurd hy he, ?_⟩
        rw [← ht, updateContainerConfig_dns, hp]
        rw [hp]
        exact fun hen => ContainerConfig.find_container hen
  refine ⟨rfl, rfl, containerConfig, hu.1, ?_⟩
  show createVpnConfiguration env _ imported containerConfig imported.defaultContainer = _
  rw [hu.2]

/-! ## Events -/

/-- Every wait has read the server whose import led to it, and every connection is to that server. -/
def Faithful (env : Environment) (work : Work) : Prop :=
  (∀ w ∈ work.waiting, w = .of w.imported) ∧ ∀ c ∈ work.connects, c.1.Carries env c.2

/-- What an import of the configuration adds to the list is the first server of the list. -/
def AddsFirst (env : Environment) (config : ServerConfig) (m : ServersModel) : Prop :=
  ∀ added ∈ (imports env config m).toOption, ∀ first ∈ m.servers.head?, first = added

/-- An import adds its server to an empty list, or to one that starts with the same server, and where a wait ends the
processed server is the one that was read before. -/
def Undisturbed (env : Environment) : Event → ConnectionController → Prop
  | .stringArrived i connectionString, s =>
    i < s.requests.length → ∀ c ∈ (env.extractConfigFromData connectionString).config? s.config,
      AddsFirst env c s.serversModel
  | .importConfig, s => AddsFirst env s.config s.serversModel
  | .protocolConfigUpdated _, s =>
    ∀ w ∈ s.waiting.head?, s.serversModel.getServerConfig s.serversModel.processedServerIndex = w.serverConfig
  | _, _ => True

instance (env : Environment) (config : ServerConfig) (m : ServersModel) : Decidable (AddsFirst env config m) :=
  inferInstanceAs
    (Decidable (∀ added ∈ (imports env config m).toOption, ∀ first ∈ m.servers.head?, first = added))

instance (env : Environment) : ∀ e s, Decidable (Undisturbed env e s)
  | .stringArrived i connectionString, s =>
    inferInstanceAs
      (Decidable (i < s.requests.length → ∀ c ∈ (env.extractConfigFromData connectionString).config? s.config, _))
  | .importConfig, s => inferInstanceAs (Decidable (AddsFirst env s.config s.serversModel))
  | .protocolConfigUpdated _, s => inferInstanceAs (Decidable (∀ w ∈ s.waiting.head?, _))
  | .selectRegion _, _ | .openConnection, _ | .closeConnection, _ | .toggleConnection, _
  | .onCurrentContainerUpdated, _ | .onTranslationsUpdated, _ | .errorOccurred _ _, _ | .extractConfig _, _
  | .deliver _, _ | .protocolChanged _, _ => inferInstanceAs (Decidable True)

theorem importConfig_faithful (h : AddsFirst env s.config s.serversModel) (hs : Faithful env s.work) :
    Faithful env (s.importConfig env).work := by
  rcases importConfig_cases env s with ⟨e, _, heq⟩ | ⟨added, hok, ⟨_, hwo⟩ | ⟨w, hc, hwo⟩⟩
  · have hwo : (s.importConfig env).work = s.work := by
      rw [heq]
      exact work_onImportErrorOccurred rfl s
    rw [hwo]
    exact hs
  · rw [hwo]
    exact hs
  · have hw : w = .of added := continueConnection_imported (h added (by rw [hok]; rfl)) hc
    rw [hwo]
    refine ⟨fun w' hw' => ?_, hs.2⟩
    rcases mem_cons.mp hw' with rfl | hw'
    · rw [hw]
      rfl
    · exact hs.1 w' hw'

theorem openConnection_faithful (hs : Faithful env s.work) : Faithful env s.openConnection.work := by
  rcases openConnection_cases s with ⟨_, hw⟩ | hw
  · rw [hw]
    exact hs
  · rw [hw]
    exact hs

theorem closeConnection_faithful (hs : Faithful env s.work) : Faithful env s.closeConnection.work := by
  have he : (s.emit .disconnectFromVpn).work = s.work := work_emit rfl s
  refine ⟨hs.1, ?_⟩
  show ∀ c ∈ (s.emit .disconnectFromVpn).work.connects, c.1.Carries env c.2
  rw [he]
  exact hs.2

theorem resume_faithful {imported : ServerConfig}
    (hp : s.serversModel.getServerConfig s.serversModel.processedServerIndex = imported)
    (hs : Faithful env s.work) : Faithful env (s.resume env r (.of imported)).work := by
  rcases resume_cases env r (.of imported) s with ⟨_, hw⟩ | ⟨containerConfig, t, hu, hw⟩
  · rw [hw]
    exact hs
  · rw [hw]
    refine ⟨hs.1, fun c hc => ?_⟩
    rcases mem_append.mp hc with hc | hc
    · exact hs.2 c hc
    · rw [mem_singleton.mp hc]
      exact args_carries hp hu

/-- The wait at the head ends. -/
theorem resume_head_faithful {w : Waiting} {waiting : List Waiting}
    (hwa : s.waiting = w :: waiting)
    (hp : s.serversModel.getServerConfig s.serversModel.processedServerIndex = w.serverConfig)
    (hs : Faithful env s.work) : Faithful env (({ s with waiting } : ConnectionController).resume env r w).work := by
  have ha : ∀ w' ∈ w :: waiting, w' = .of w'.imported := fun w' hw' => hs.1 w' (by rw [work, hwa]; exact hw')
  have hw : w = .of w.imported := ha w mem_cons_self
  have hrest : Faithful env ({ s with waiting } : ConnectionController).work :=
    ⟨fun w' hw' => ha w' (mem_cons_of_mem _ hw'), hs.2⟩
  rw [hw] at hp ⊢
  exact resume_faithful hp hrest

theorem step_faithful {e : Event} (h : Undisturbed env e s) (hs : Faithful env s.work) :
    Faithful env (step env e s).work := by
  cases e with
  | selectRegion id => exact hs
  | openConnection => exact openConnection_faithful hs
  | closeConnection => exact closeConnection_faithful hs
  | toggleConnection =>
    rw [step]
    rcases toggleConnection_cases s with ⟨_, heq⟩ | heq | heq
    · rw [heq, work_emit rfl]
      exact hs
    · rw [heq]
      exact closeConnection_faithful hs
    · rw [heq]
      exact openConnection_faithful hs
  | onCurrentContainerUpdated =>
    show Faithful env s.onCurrentContainerUpdated.work
    unfold onCurrentContainerUpdated
    split
    · apply openConnection_faithful
      rw [work_emit rfl]
      exact hs
    · rw [work_emit rfl]
      exact hs
  | onTranslationsUpdated =>
    rw [step, work_onConnectionStateChanged]
    exact hs
  | errorOccurred i errorMessage =>
    rw [step]
    split
    · rw [onErrorOccurred, work_onConnectionStateChanged, work_fail rfl]
      exact hs
    · exact hs
  | stringArrived i connectionString =>
    rw [step]
    split
    · rename_i hi
      rcases onStringArrived_cases env connectionString { s with requests := s.requests.eraseIdx i } with
        ⟨_, hwo⟩ | ⟨c, hc, heq⟩
      · rw [hwo]
        exact hs
      · rw [heq]
        exact importConfig_faithful (h hi c hc) hs
    · exact hs
  | extractConfig data =>
    rw [step, work_extractConfigFromData]
    exact hs
  | importConfig => exact importConfig_faithful h hs
  | protocolConfigUpdated r =>
    rw [step]
    cases hw : s.waiting with
    | nil => exact hs
    | cons w waiting =>
      have hp : s.serversModel.getServerConfig s.serversModel.processedServerIndex = w.serverConfig :=
        h w (by rw [hw]; rfl)
      exact resume_head_faithful hw hp hs
  | deliver r =>
    rw [step]
    cases s.calls with
    | nil => exact hs
    | cons call calls =>
      cases call with
      | connectToVpn args =>
        rw [work_connectToVpn]
        exact hs
      | disconnectFromVpn =>
        rw [work_disconnectFromVpn]
        exact hs
  | protocolChanged c =>
    rw [step, work_change]
    exact hs

/-! ## Runs -/

/-- **The imported server is connected to.** In every run from any list of servers in which each import adds its server
to an empty list, or to one that starts with the same server, and each wait ends with the processed server that was read
before, every `connectToVpn` carries the server whose import led to it. -/
theorem run_connects_imported (serversModel : ServersModel) (events : List Event)
    (h : Guarded (step env) (Undisturbed env) events (init serversModel)) :
    ∀ args imported, .connectToVpn args imported ∈ (run (step env) events (init serversModel)).signals →
      args.Carries env imported := by
  have hst (e : Event) (s : ConnectionController) (hg : Undisturbed env e s) (hs : Faithful env s.work) :
      Faithful env (step env e s).work := step_faithful hg hs
  have hi : Faithful env (init serversModel).work := by simp [Faithful, work, init]
  have hfa : Faithful env (run (step env) events (init serversModel)).work := run_invariant_of_guarded hst events h hi
  intro args imported hsi
  exact hfa.2 (args, imported) (mem_filterMap.mpr ⟨_, hsi, rfl⟩)

/-! ## Examples -/

def twoServersRun : List Event :=
  [.selectRegion "region", .openConnection, .stringArrived 0 "first",
    .protocolConfigUpdated ⟨none, [], none, false⟩,
    .openConnection, .stringArrived 0 "second", .protocolConfigUpdated ⟨none, [], none, false⟩]

/-- The arguments for a server that is the only one. -/
def sampleArgs (hostName : String) : ConnectToVpn :=
  (Waiting.of (sampleServer hostName)).args sampleEnvironment (sampleServer hostName).containerConfig
    ⟨[sampleServer hostName], 0, 0, []⟩

theorem twoServersRun_connects_imported : .connectToVpn (sampleArgs "second") (sampleServer "second") ∈
        (run (step sampleEnvironment) twoServersRun (init noServers)).signals ∧
      (sampleArgs "second").Carries sampleEnvironment (sampleServer "second") :=
  ⟨by decide, run_connects_imported noServers twoServersRun (by decide) _ _ (by decide)⟩

def twoRequestsRun : List Event := [.selectRegion "region", .openConnection, .openConnection, .stringArrived 0 "first",
    .protocolConfigUpdated ⟨none, [], none, false⟩, .stringArrived 0 "second",
    .protocolConfigUpdated ⟨none, [], none, false⟩]

/-- The second import leads to a connection to the first server, and so does one from the wizard. -/
theorem second_import_connects_first : (.connectToVpn (sampleArgs "first") (sampleServer "second") ∈
        (run (step sampleEnvironment) twoRequestsRun (init noServers)).signals ∧
      .connectToVpn (sampleArgs "first") (sampleServer "second") ∈ (run (step sampleEnvironment)
          [.extractConfig "second", .importConfig, .protocolConfigUpdated ⟨none, [], none, false⟩]
          (init ⟨[sampleServer "first"], 0, 0, []⟩)).signals) ∧
      ¬(sampleArgs "first").Carries sampleEnvironment (sampleServer "second") :=
        ⟨by decide, fun h => absurd h.1 (by decide)⟩

end ConnectionController

end Cimogus.Client
