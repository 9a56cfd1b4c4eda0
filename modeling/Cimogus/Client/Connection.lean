import Cimogus.Client.Servers
import Cimogus.Client.VpnProtocol
import Cimogus.Lib.Runs

/-!
# `ConnectionController`

What happens between the button and the tunnel: the controller asks the account server for a connection string, imports
the configuration in it, and tells `VpnConnection` to connect, which lives in a thread of its own and gets its calls
through a queue. The states that `VpnConnection` reports are handled where they are emitted, and the application answers
each error of the controller by reporting `Disconnected`.

`continueConnection` waits for the configuration of the protocol in an event loop of its own, in which everything else
goes on; what it has read before is kept in `Waiting`. The inner ones of several such loops end first.

Two things are recorded that the source does not have: what the import that started a `continueConnection` has added,
and the signals of the controller in their order.
-/

namespace Cimogus.Client

/-! ## What is imported and what is connected to -/

/-- What `extractConfigFromData` makes of a text. -/
inductive Extraction
  /-- The configuration, which is not empty. -/
  | config (c : ServerConfig)
  /-- An empty configuration, and whether an error is reported. -/
  | failed (reported : Bool)
  /-- The configuration from before, for a link with a list of no servers. -/
  | kept
  | invalid
  /-- A backup, with the servers and the default index that restoring it leads to. -/
  | backup (restored : Option (List ServerConfig × Int))
  deriving DecidableEq

structure Environment where
  os : OperatingSystem
  dns : DnsSettings
  extractConfigFromData : String → Extraction
  qChecksum : ServerConfig → BitVec 16
  /-- What the configurator of a protocol makes of its `last_config`. -/
  processConfigWithLocalSettings : Proto → String × String → Bool → String → String

structure VpnConfiguration where
  configData : List (Proto × String)
  vpnproto : Option Proto
  dns : String × String
  hostName : String
  description : String
  configVersion : Int
  deriving DecidableEq

def createVpnConfiguration (env : Environment) (dns : String × String) (serverConfig : ServerConfig)
    (containerConfig : ContainerConfig) (container : DockerContainer) : VpnConfiguration :=
  if container.containerService = .Other then ⟨[], none, ("", ""), "", "", 0⟩
  else
    let isApiConfig := serverConfig.configVersion.getD 0 ≠ 0
    let protocols := container.protocolsForContainer.filter fun protocol =>
      !(isApiConfig && container = .Cloak && protocol = .ShadowSocks)
    { configData := protocols.map fun protocol =>
        (protocol, env.processConfigWithLocalSettings protocol dns isApiConfig (containerConfig.lastConfig protocol))
      vpnproto := some container.defaultProtocol
      dns
      hostName := serverConfig.hostName
      description := serverConfig.description
      configVersion := serverConfig.configVersion.getD 0 }

/-- The arguments of `connectToVpn`. -/
structure ConnectToVpn where
  serverIndex : Int
  credentials : ServerCredentials
  container : DockerContainer
  vpnConfiguration : VpnConfiguration
  deriving DecidableEq

inductive ControllerSignal
  /-- With what the import has added that led to it. -/
  | connectToVpn (args : ConnectToVpn) (imported : ServerConfig)
  | disconnectFromVpn
  | connectionErrorMessage (errorMessage : String)
  | connectionErrorOccurred (errorCode : Option ErrorCode)
  | reconnectWithUpdatedContainer (message : String)
  | noInstalledContainers
  | preparingConfig
  deriving DecidableEq

/-- A call in the queue of `VpnConnection`. -/
inductive VpnCall
  | connectToVpn (args : ConnectToVpn)
  | disconnectFromVpn
  deriving DecidableEq

/-- What `continueConnection` has read before it waits. -/
structure Waiting where
  imported : ServerConfig
  serverIndex : Int
  serverConfig : ServerConfig
  container : DockerContainer
  containerConfig : ContainerConfig
  credentials : ServerCredentials
  deriving DecidableEq

/-- What `connectToVpn` is told, for the configuration of the container and for the list of servers as it is then. -/
def Waiting.args (env : Environment) (containerConfig : ContainerConfig) (m : ServersModel) (w : Waiting) :
    ConnectToVpn :=
  let dns := (m.getServerConfig m.processedServerIndex).dnsPair env.dns
  { serverIndex := w.serverIndex
    credentials := w.credentials
    container := w.container
    vpnConfiguration := createVpnConfiguration env dns w.serverConfig containerConfig w.container }

/-- How the configuration of the protocol comes about where there is none, and whether the one of the connection does.
-/
structure ProtocolReply where
  createError : Option ErrorCode
  lastConfigs : List (Proto × String)
  appendError : Option ErrorCode
  configurationError : Bool
  deriving DecidableEq

/-- A change that the protocol makes to its state. -/
inductive ProtocolChange
  | state (state : ConnectionState)
  | lastError (e : ErrorCode)
  deriving DecidableEq

def ProtocolChange.apply : ProtocolChange → VpnProtocol → VpnProtocol × List Signal
  | .state newState => VpnProtocol.setConnectionState newState
  | .lastError e => VpnProtocol.setLastError e

def ProtocolChange.target : ProtocolChange → ConnectionState
  | .state newState => newState
  | .lastError _ => .Error

variable (c : ProtocolChange)

theorem ProtocolChange.apply_signals (p : VpnProtocol) :
    (c.apply p).2 = [] ∨ (c.apply p).2 = [.connectionStateChanged c.target] := by
  cases c with
  | state newState => exact p.setConnectionState_signals newState
  | lastError e => exact VpnProtocol.setConnectionState_signals .Error _

/-- How `VpnConnection` gets on with a call. -/
structure VpnReplies where
  /-- What the old protocol reports while it is stopped or destroyed. -/
  stopping : List ProtocolChange
  created : Bool
  /-- What the new protocol reports while it starts. -/
  starting : List ProtocolChange
  started : Bool
  deriving DecidableEq

/-! ## The controller -/

structure ConnectionController where
  state : ConnectionState
  isConnected : Bool
  isConnectionInProgress : Bool
  serversModel : ServersModel
  /-- `m_config` of `ImportController`. -/
  config : ServerConfig
  selectedRegionId : String
  /-- `m_vpnProtocol` of `VpnConnection`. -/
  vpnProtocol : Option VpnProtocol
  /-- The regions of the server-string requests without a reply. -/
  requests : List String
  /-- The calls of `continueConnection` that wait, the innermost first. -/
  waiting : List Waiting
  calls : List VpnCall
  signals : List ControllerSignal
  deriving DecidableEq

namespace ConnectionController

def init (serversModel : ServersModel) : ConnectionController where
  state := .Disconnected
  isConnected := false
  isConnectionInProgress := false
  serversModel
  config := .empty
  selectedRegionId := ""
  vpnProtocol := none
  requests := []
  waiting := []
  calls := []
  signals := []

def emit (signal : ControllerSignal) (s : ConnectionController) : ConnectionController :=
  { s with signals := s.signals ++ [signal] }

/-- `VpnConnection::connectionState`. -/
def vpnConnectionState (s : ConnectionController) : ConnectionState :=
  match s.vpnProtocol with
  | none => .Disconnected
  | some p => p.connectionState

/-- `VpnConnection::lastError`. -/
def getLastConnectionError (s : ConnectionController) : Option ErrorCode :=
  match s.vpnProtocol with
  | none => some .InternalError
  | some p => p.lastError

/-- What `onConnectionStateChanged` sets. -/
def setState (state : ConnectionState) (s : ConnectionController) : ConnectionController :=
  { s with
    state
    isConnected := state = .Connected
    isConnectionInProgress := state ∈ [.Connecting, .Reconnecting, .Disconnecting, .Preparing] }

/-- An error is emitted, and the application reports `Disconnected`. -/
def fail (signal : ControllerSignal) (s : ConnectionController) : ConnectionController :=
  (s.emit signal).setState .Disconnected

def onConnectionStateChanged (state : ConnectionState) (getLastError : Bool) (s : ConnectionController) :
    ConnectionController :=
  let s := s.setState state
  if getLastError && (state = .Error || state = .Unknown) then s.fail
    (.connectionErrorOccurred s.getLastConnectionError)
  else s

/-! ## Imports -/

/-- The two handlers of `importErrorOccurred`. -/
def onImportErrorOccurred (signal : ControllerSignal) (s : ConnectionController) : ConnectionController :=
  if s.vpnConnectionState ≠ .Preparing then s else (s.fail signal).onConnectionStateChanged .Error false

/-- `continueConnection` up to where it waits, if it does. -/
def continueConnection (env : Environment) (imported : ServerConfig) (s : ConnectionController) :
    ConnectionController × Option Waiting :=
  let m := s.serversModel
  let serverIndex := m.defaultServerIndex
  if !((m.server? serverIndex).map ServerConfig.serverHasInstalledContainers).getD false then
    ((s.emit .noInstalledContainers).onConnectionStateChanged .Disconnected true, none)
  else
    let container := ((m.server? serverIndex).map ServerConfig.defaultContainer).getD .None
    if !container.isSupportedByCurrentPlatform env.os then
      (s.fail (.connectionErrorMessage "The selected protocol is not supported on the current platform"), none)
    else if container = .None then
      (s.fail (.connectionErrorMessage "VPN Protocols is not installed.\n Please install VPN container at first"), none)
    else
      (s, some
        { imported
          serverIndex
          serverConfig := m.getServerConfig serverIndex
          container
          containerConfig := .find container m.containers
          credentials := (m.getServerConfig serverIndex).credentials })

/-- What `importConfig` adds to the list, or the error it reports. -/
def imports (env : Environment) (config : ServerConfig) (m : ServersModel) : Except ErrorCode ServerConfig :=
  if config.credentials.isValid || config.containers.isSome then .ok config
  else if config.configVersion.isSome then
    let crc := env.qChecksum config
    if m.isServerFromApiAlreadyExists crc then .error .ApiConfigAlreadyAdded
    else .ok { config with crc := some crc.toNat }
  else .error .ImportInvalidConfigError

/-- The server is added, and the handler of `importFinished` selects one. -/
def addImported (added : ServerConfig) (s : ConnectionController) : ConnectionController :=
  { s with serversModel := (s.serversModel.addServer added).importFinished }

/-- At its end `importConfig` clears the configuration, which has to wait where `continueConnection` waits. -/
def endImport : ConnectionController × Option Waiting → ConnectionController
  | (s, none) => { s with config := .empty }
  | (s, some w) => { s with waiting := w :: s.waiting }

def importConfig (env : Environment) (s : ConnectionController) : ConnectionController :=
  match imports env s.config s.serversModel with
  | .error e => endImport (s.onImportErrorOccurred (.connectionErrorOccurred (some e)), none)
  | .ok added => endImport ((s.addImported added).continueConnection env added)

/-- `extractConfigFromData`, with whether there is something to import. -/
def extractConfigFromData (env : Environment) (data : String) (s : ConnectionController) :
    Bool × ConnectionController :=
  match env.extractConfigFromData data with
  | .config c => (true, { s with config := c })
  | .failed reported =>
    let s := if reported then s.onImportErrorOccurred (.connectionErrorOccurred (some .ImportInvalidConfigError)) else s
    (false, { s with config := .empty })
  | .kept => (s.config ≠ .empty, s)
  | .invalid => (false, s.onImportErrorOccurred (.connectionErrorMessage "Invalid configuration file"))
  | .backup restored =>
    if s.serversModel.servers = [] then
      match restored with
      | some (servers, index) => (false, { s with serversModel := s.serversModel.resetModel servers index })
      | none => (false, s)
    else (false, s.onImportErrorOccurred (.connectionErrorMessage "Invalid configuration file"))

/-! ## The button -/

def openConnection (s : ConnectionController) : ConnectionController :=
  let s := s.onConnectionStateChanged .Preparing true
  let s := { s with serversModel := s.serversModel.clearServers }
  if s.selectedRegionId = "" then
    (s.fail (.connectionErrorMessage "Region not selected")).onConnectionStateChanged .Disconnected true
  else { s with requests := s.requests ++ [s.selectedRegionId] }

def closeConnection (s : ConnectionController) : ConnectionController :=
  { s.emit .disconnectFromVpn with calls := s.calls ++ [.disconnectFromVpn] }

def toggleConnection (s : ConnectionController) : ConnectionController :=
  if s.state = .Preparing then s.emit .preparingConfig
  else if s.isConnectionInProgress then s.closeConnection
  else if s.isConnected then s.closeConnection
  else s.openConnection

def onCurrentContainerUpdated (s : ConnectionController) : ConnectionController :=
  if s.isConnected || s.isConnectionInProgress then
    (s.emit (.reconnectWithUpdatedContainer "Settings updated successfully, reconnnection...")).openConnection
  else s.emit (.reconnectWithUpdatedContainer "Settings updated successfully")

/-! ## Replies -/

/-- The handler of `ServerStringRequest::errorOccurred`. -/
def onErrorOccurred (errorMessage : String) (s : ConnectionController) : ConnectionController :=
  (s.fail (.connectionErrorMessage errorMessage)).onConnectionStateChanged .Error false

/-- The handler of `ServerStringRequest::stringArrived`. -/
def onStringArrived (env : Environment) (connectionString : String) (s : ConnectionController) : ConnectionController :=
  match s.extractConfigFromData env connectionString with
  | (false, s) => (s.fail (.connectionErrorMessage "Failed to import config")).onConnectionStateChanged .Error false
  | (true, s) => s.importConfig env

/-- `updateProtocolConfig`, with the error and the configuration of the container. -/
def updateProtocolConfig (r : ProtocolReply) (w : Waiting) (s : ConnectionController) :
    Option ErrorCode × ContainerConfig × ConnectionController :=
  if w.containerConfig.isProtocolConfigExists w.container then (none, w.containerConfig, s)
  else
    match r.createError with
    | some e => (some e, w.containerConfig, s)
    | none =>
      let created := { w.containerConfig with lastConfigs := r.lastConfigs }
      (r.appendError, created, { s with serversModel := s.serversModel.updateContainerConfig w.container created })

/-- The rest of `continueConnection`, and of the import. -/
def resume (env : Environment) (r : ProtocolReply) (w : Waiting) (s : ConnectionController) : ConnectionController :=
  match s.updateProtocolConfig r w with
  | (some e, _, s) => s.fail (.connectionErrorOccurred (some e))
  | (none, containerConfig, s) =>
    if r.configurationError then s.fail (.connectionErrorMessage "unable to create configuration")
    else
      let args := w.args env containerConfig s.serversModel
      { s.emit (.connectToVpn args w.imported) with calls := s.calls ++ [.connectToVpn args] }

/-! ## `VpnConnection` -/

def change (c : ProtocolChange) (s : ConnectionController) : ConnectionController :=
  match s.vpnProtocol with
  | none => s
  | some p =>
    (c.apply p).2.foldl
      (fun s signal =>
        match signal with
        | .connectionStateChanged state => s.onConnectionStateChanged state true
        | _ => s)
      { s with vpnProtocol := some (c.apply p).1 }

def changes (cs : List ProtocolChange) (s : ConnectionController) : ConnectionController :=
  cs.foldl (fun s c => s.change c) s

/-- `VpnConnection::connectToVpn`. -/
def connectToVpn (r : VpnReplies) (s : ConnectionController) : ConnectionController :=
  let s := s.onConnectionStateChanged .Connecting true
  let s := { s.changes r.stopping with vpnProtocol := none }
  if !r.created then s.onConnectionStateChanged .Error true
  else
    let s := { s with vpnProtocol := some .init }.changes r.starting
    if !r.started then s.onConnectionStateChanged .Error true else s

/-- `VpnConnection::disconnectFromVpn`. -/
def disconnectFromVpn (r : VpnReplies) (s : ConnectionController) : ConnectionController :=
  match s.vpnProtocol with
  | none => s.onConnectionStateChanged .Disconnected true
  | some _ => { s.changes r.stopping with vpnProtocol := none }

/-! ## Runs -/

/-- What the button, the wizard, the account server, `VpnConnection` and the settings do. -/
inductive Event
  | selectRegion (id : String)
  | openConnection
  | closeConnection
  | toggleConnection
  | onCurrentContainerUpdated
  | onTranslationsUpdated
  /-- The reply to the request at a position; one without a request does nothing. -/
  | errorOccurred (i : Nat) (errorMessage : String)
  | stringArrived (i : Nat) (connectionString : String)
  /-- The wizard reads a configuration, and imports it. -/
  | extractConfig (data : String)
  | importConfig
  /-- The innermost wait for the configuration of a protocol ends. -/
  | protocolConfigUpdated (r : ProtocolReply)
  /-- The first call in the queue is delivered. -/
  | deliver (r : VpnReplies)
  | protocolChanged (c : ProtocolChange)
  deriving DecidableEq

def step (env : Environment) : Event → ConnectionController → ConnectionController
  | .selectRegion id, s => { s with selectedRegionId := id }
  | .openConnection, s => s.openConnection
  | .closeConnection, s => s.closeConnection
  | .toggleConnection, s => s.toggleConnection
  | .onCurrentContainerUpdated, s => s.onCurrentContainerUpdated
  | .onTranslationsUpdated, s => s.onConnectionStateChanged s.state true
  | .errorOccurred i errorMessage, s =>
    if i < s.requests.length then { s with requests := s.requests.eraseIdx i }.onErrorOccurred errorMessage else s
  | .stringArrived i connectionString, s =>
    if i < s.requests.length then { s with requests := s.requests.eraseIdx i }.onStringArrived env connectionString
      else s
  | .extractConfig data, s => (s.extractConfigFromData env data).2
  | .importConfig, s => s.importConfig env
  | .protocolConfigUpdated r, s =>
    match s.waiting with
    | [] => s
    | w :: waiting => { { s with waiting }.resume env r w with config := .empty }
  | .deliver r, s =>
    match s.calls with
    | [] => s
    | .connectToVpn _ :: calls => { s with calls }.connectToVpn r
    | .disconnectFromVpn :: calls => { s with calls }.disconnectFromVpn r
  | .protocolChanged c, s => s.change c

end ConnectionController

/-! ## What is under way -/

def ControllerSignal.connect? : ControllerSignal → Option (ConnectToVpn × ServerConfig)
  | .connectToVpn args imported => some (args, imported)
  | _ => none

/-- The configuration that is imported, with the one from before. -/
def Extraction.config? (current : ServerConfig) : Extraction → Option ServerConfig
  | .config c => some c
  | .kept => if current ≠ .empty then some current else none
  | _ => none

/-- The part of the controller that errors and reports leave alone. -/
structure Work where
  requests : List String
  waiting : List Waiting
  calls : List VpnCall
  connects : List (ConnectToVpn × ServerConfig)

variable (env : Environment) {signal : ControllerSignal} (s : ConnectionController)

namespace ConnectionController

def work (s : ConnectionController) : Work := ⟨s.requests, s.waiting, s.calls, s.signals.filterMap (·.connect?)⟩

theorem work_emit (h : signal.connect? = none) (s : ConnectionController) : (s.emit signal).work = s.work := by
  simp [work, emit, List.filterMap_append, h]

theorem work_fail (h : signal.connect? = none) (s : ConnectionController) : (s.fail signal).work = s.work :=
  work_emit h s

@[simp] theorem work_onConnectionStateChanged (state : ConnectionState) (getLastError : Bool)
    (s : ConnectionController) :
    (s.onConnectionStateChanged state getLastError).work = s.work := by
  rw [onConnectionStateChanged]
  split
  · exact work_fail rfl _
  · rfl

theorem work_onImportErrorOccurred (h : signal.connect? = none) (s : ConnectionController) :
    (s.onImportErrorOccurred signal).work = s.work := by
  rw [onImportErrorOccurred]
  split
  · rfl
  · exact (work_onConnectionStateChanged _ _ _).trans (work_fail h s)

theorem work_extractConfigFromData (data : String) (s : ConnectionController) :
    (s.extractConfigFromData env data).2.work = s.work := by
  unfold extractConfigFromData
  split
  · rfl
  · rename_i reported _
    cases reported with
    | true => exact work_onImportErrorOccurred rfl s
    | false => rfl
  · rfl
  · exact work_onImportErrorOccurred rfl s
  · split
    · split <;> rfl
    · exact work_onImportErrorOccurred rfl s

/-- A change is reported at most once. -/
theorem change_cases (s : ConnectionController) :
    s.change c = s ∨ (∃ p, s.change c = { s with vpnProtocol := some p }) ∨
      ∃ p, s.change c = { s with vpnProtocol := some p }.onConnectionStateChanged c.target true := by
  unfold change
  split
  · exact .inl rfl
  · rename_i p _
    rcases c.apply_signals p with hs | hs
    · rw [hs]
      exact .inr (.inl ⟨_, rfl⟩)
    · rw [hs]
      exact .inr (.inr ⟨_, rfl⟩)

theorem work_change (s : ConnectionController) : (s.change c).work = s.work := by
  rcases change_cases c s with h | ⟨p, h⟩ | ⟨p, h⟩
  · rw [h]
  · rw [h]
    rfl
  · rw [h, work_onConnectionStateChanged]
    rfl

theorem work_changes (cs : List ProtocolChange) (s : ConnectionController) : (s.changes cs).work = s.work := by
  induction cs generalizing s with
  | nil => rfl
  | cons c cs ih => exact (ih (s.change c)).trans (work_change c s)

theorem work_connectToVpn (r : VpnReplies) (s : ConnectionController) : (s.connectToVpn r).work = s.work := by
  have hs : ((s.onConnectionStateChanged .Connecting true).changes r.stopping).work = s.work :=
    (work_changes _ _).trans (work_onConnectionStateChanged _ _ s)
  unfold connectToVpn
  split
  · exact (work_onConnectionStateChanged _ _ _).trans hs
  · split
    · exact (work_onConnectionStateChanged _ _ _).trans ((work_changes _ _).trans hs)
    · exact (work_changes _ _).trans hs

theorem work_disconnectFromVpn (r : VpnReplies) (s : ConnectionController) : (s.disconnectFromVpn r).work = s.work := by
  unfold disconnectFromVpn
  split
  · exact work_onConnectionStateChanged _ _ s
  · exact work_changes r.stopping s

theorem openConnection_cases : (s.openConnection.state = .Disconnected ∧ s.openConnection.work = s.work) ∨
      s.openConnection.work = { s.work with requests := s.requests ++ [s.selectedRegionId] } := by
  unfold openConnection
  dsimp only
  split
  · left
    exact ⟨rfl,
      (work_onConnectionStateChanged _ _ _).trans ((work_fail rfl _).trans (work_onConnectionStateChanged _ _ s))⟩
  · exact .inr rfl

theorem toggleConnection_cases : (s.state = .Preparing ∧ s.toggleConnection = s.emit .preparingConfig) ∨
      s.toggleConnection = s.closeConnection ∨ s.toggleConnection = s.openConnection := by
  unfold toggleConnection
  split
  · exact .inl ⟨‹_›, rfl⟩
  split
  · exact .inr (.inl rfl)
  split
  · exact .inr (.inl rfl)
  · exact .inr (.inr rfl)

theorem continueConnection_cases (imported : ServerConfig) (s : ConnectionController) :
    ((s.continueConnection env imported).2 = none ∧ (s.continueConnection env imported).1.state = .Disconnected ∧
        (s.continueConnection env imported).1.work = s.work) ∨
        ∃ w, s.continueConnection env imported = (s, some w) := by
  unfold continueConnection
  dsimp only
  split
  · exact .inl ⟨rfl, rfl, (work_onConnectionStateChanged _ _ _).trans (work_emit rfl s)⟩
  split
  · exact .inl ⟨rfl, rfl, work_fail rfl s⟩
  split
  · exact .inl ⟨rfl, rfl, work_fail rfl s⟩
  · exact .inr ⟨_, rfl⟩

theorem importConfig_cases : (∃ e, imports env s.config s.serversModel = .error e ∧
        s.importConfig env = { s.onImportErrorOccurred (.connectionErrorOccurred (some e)) with config := .empty }) ∨
      ∃ added, imports env s.config s.serversModel = .ok added ∧
        (((s.importConfig env).state = .Disconnected ∧ (s.importConfig env).work = s.work) ∨
          ∃ w, (s.addImported added).continueConnection env added = (s.addImported added, some w) ∧
            (s.importConfig env).work = { s.work with waiting := w :: s.waiting }) := by
  unfold importConfig
  cases hi : imports env s.config s.serversModel with
  | error e => exact .inl ⟨e, rfl, rfl⟩
  | ok added =>
    refine .inr ⟨added, rfl, ?_⟩
    dsimp only
    rcases continueConnection_cases env added (s.addImported added) with ⟨hno, hstate, hw⟩ | ⟨w, hwa⟩
    · cases hc : (s.addImported added).continueConnection env added with
      | mk t w =>
        rw [hc] at hno hstate hw
        subst hno
        exact .inl ⟨hstate, hw⟩
    · rw [hwa]
      exact .inr ⟨w, rfl, rfl⟩

theorem onStringArrived_cases (connectionString : String) (s : ConnectionController) :
    ((s.onStringArrived env connectionString).state = .Error ∧
      (s.onStringArrived env connectionString).work = s.work) ∨
      ∃ c, (env.extractConfigFromData connectionString).config? s.config = some c ∧
        s.onStringArrived env connectionString = { s with config := c }.importConfig env := by
  have hw := work_extractConfigFromData env connectionString s
  unfold onStringArrived
  cases he : s.extractConfigFromData env connectionString with
  | mk result t =>
    rw [he] at hw
    cases result with
    | false => exact .inl ⟨rfl, (work_onConnectionStateChanged _ _ _).trans ((work_fail rfl t).trans hw)⟩
    | true =>
      right
      unfold extractConfigFromData at he
      split at he
      · rename_i c hc
        cases he
        exact ⟨c, by rw [hc]; rfl, rfl⟩
      · cases he
      · rename_i hk
        obtain ⟨hco, rfl⟩ := Prod.mk.inj he
        exact ⟨s.config, by rw [hk, Extraction.config?, if_pos (of_decide_eq_true hco)], rfl⟩
      · cases he
      · split at he
        · split at he <;> cases he
        · cases he

theorem work_updateProtocolConfig (r : ProtocolReply) (w : Waiting) (s : ConnectionController) :
    (s.updateProtocolConfig r w).2.2.work = s.work := by
  unfold updateProtocolConfig
  split
  · rfl
  · split <;> rfl

theorem resume_cases (r : ProtocolReply) (w : Waiting) (s : ConnectionController) :
    ((s.resume env r w).state = .Disconnected ∧ (s.resume env r w).work = s.work) ∨
      ∃ containerConfig t, s.updateProtocolConfig r w = (none, containerConfig, t) ∧ (s.resume env r w).work =
          { s.work with
            calls := s.calls ++ [.connectToVpn (w.args env containerConfig t.serversModel)]
            connects := s.work.connects ++ [(w.args env containerConfig t.serversModel, w.imported)] } := by
  have hw := work_updateProtocolConfig r w s
  unfold resume
  cases hu : s.updateProtocolConfig r w with
  | mk e rest =>
    obtain ⟨containerConfig, t⟩ := rest
    rw [hu] at hw
    cases e with
    | some e => exact .inl ⟨rfl, (work_fail rfl t).trans hw⟩
    | none =>
      dsimp only
      split
      · exact .inl ⟨rfl, (work_fail rfl t).trans hw⟩
      · refine .inr ⟨containerConfig, t, rfl, ?_⟩
        have hc : t.work.connects = s.work.connects := congrArg Work.connects hw
        simp only [work, Work.mk.injEq] at hw hc ⊢
        simp only [emit, List.filterMap_append, hw, true_and]
        rfl

end ConnectionController

/-! ## Examples -/

def sampleServer (hostName : String) : ServerConfig :=
  { ServerConfig.empty with
    hostName
    defaultContainer := .Awg
    containers := some [⟨.Awg, [(.Awg, "last config")]⟩] }

/-- The text is the host of a server, or it stands for a configuration without containers, credentials and version. -/
def sampleEnvironment : Environment where
  os := .linux
  dns := ⟨false, "1.1.1.1", "1.0.0.1", fun _ => true⟩
  extractConfigFromData data :=
    if data = "api_key" then .config { ServerConfig.empty with others := [("api_key", "key")] }
      else .config (sampleServer data)
  qChecksum _ := 0
  processConfigWithLocalSettings _ _ _ lastConfig := lastConfig

def noServers : ServersModel := ⟨[], -1, -1, []⟩

end Cimogus.Client
