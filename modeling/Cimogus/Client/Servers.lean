/-!
# Servers and containers

The configurations of servers that the client imports, and `ServersModel` with the part of `ContainersModel` that
follows it. Of a configuration only the members that are read are modelled; a text that is not there reads as empty, a
number as 0, and the name of a container is kept as what `containerFromString` makes of it.
-/

namespace Cimogus.Client

inductive DockerContainer
  | None
  | Awg
  | WireGuard
  | OpenVpn
  | Cloak
  | ShadowSocks
  | Ipsec
  | Xray
  | SSXray
  | TorWebSite
  | Dns
  | Sftp
  | Socks5Proxy
  deriving DecidableEq

inductive Proto
  | Any
  | OpenVpn
  | ShadowSocks
  | Cloak
  | WireGuard
  | Awg
  | Ikev2
  | L2tp
  | Xray
  | SSXray
  | TorWebSite
  | Dns
  | Sftp
  | Socks5Proxy
  deriving DecidableEq

inductive ServiceType
  | None
  | Vpn
  | Other
  deriving DecidableEq

inductive OperatingSystem
  | windows
  | ios
  | mac
  | android
  | linux
  | other
  deriving DecidableEq

def protocolService : Proto → ServiceType
  | .Any | .SSXray => .None
  | .OpenVpn | .Cloak | .ShadowSocks | .WireGuard | .Awg | .Ikev2 | .Xray => .Vpn
  | .TorWebSite | .Dns | .Sftp | .Socks5Proxy | .L2tp => .Other

namespace DockerContainer

def defaultProtocol : DockerContainer → Proto
  | .None => .Any
  | .OpenVpn => .OpenVpn
  | .Cloak => .Cloak
  | .ShadowSocks => .ShadowSocks
  | .WireGuard => .WireGuard
  | .Awg => .Awg
  | .Xray => .Xray
  | .Ipsec => .Ikev2
  | .SSXray => .SSXray
  | .TorWebSite => .TorWebSite
  | .Dns => .Dns
  | .Sftp => .Sftp
  | .Socks5Proxy => .Socks5Proxy

def protocolsForContainer : DockerContainer → List Proto
  | .None => []
  | .ShadowSocks => [.OpenVpn, .ShadowSocks]
  | .Cloak => [.OpenVpn, .ShadowSocks, .Cloak]
  | container => [container.defaultProtocol]

def containerService (container : DockerContainer) : ServiceType := protocolService container.defaultProtocol

def isSupportedByCurrentPlatform : OperatingSystem → DockerContainer → Bool
  | .windows, _ => true
  | .ios, container => container ∈ [.WireGuard, .OpenVpn, .Awg, .Xray, .Cloak, .SSXray]
  | .mac, container => container ≠ .Ipsec
  | .android, container => container ∈ [.WireGuard, .OpenVpn, .Awg, .Cloak, .Xray, .SSXray]
  | .linux, container => container ≠ .Ipsec
  | .other, _ => false

end DockerContainer

/-! ## Configurations -/

/-- One entry of `containers`, with the `last_config` of each protocol. -/
structure ContainerConfig where
  container : DockerContainer
  lastConfigs : List (Proto × String)
  deriving DecidableEq

namespace ContainerConfig

def empty : ContainerConfig := ⟨.None, []⟩

def lastConfig (c : ContainerConfig) (protocol : Proto) : String := (c.lastConfigs.lookup protocol).getD ""

def isProtocolConfigExists (c : ContainerConfig) (container : DockerContainer) : Bool :=
  container.protocolsForContainer.all fun protocol => c.lastConfig protocol ≠ ""

/-- `ContainersModel::getContainerConfig`; of several entries for one container the last one counts. -/
def find (container : DockerContainer) (containers : List ContainerConfig) : ContainerConfig :=
  if container = .None then .empty
  else (containers.reverse.find? fun c => c.container = container).getD .empty

end ContainerConfig

structure ServerCredentials where
  hostName : String
  userName : String
  secretData : String
  port : Int
  deriving DecidableEq

def ServerCredentials.isValid (c : ServerCredentials) : Bool :=
  c.hostName ≠ "" && c.userName ≠ "" && c.secretData ≠ "" && 0 < c.port

structure ServerConfig where
  hostName : String
  port : Int
  userName : String
  password : String
  description : String
  dns1 : String
  dns2 : String
  defaultContainer : DockerContainer
  containers : Option (List ContainerConfig)
  configVersion : Option Int
  crc : Option Int
  /-- The other members. -/
  others : List (String × String)
  deriving DecidableEq

namespace ServerConfig

def empty : ServerConfig := ⟨"", 0, "", "", "", "", "", .None, none, none, none, []⟩

def credentials (c : ServerConfig) : ServerCredentials := ⟨c.hostName, c.userName, c.password, c.port⟩

/-- `value(containers).toArray()`. -/
def containersArray (c : ServerConfig) : List ContainerConfig := c.containers.getD []

def serverHasInstalledContainers (c : ServerConfig) : Bool :=
  c.containersArray.any fun entry => entry.container.containerService = .Vpn || entry.container = .SSXray

def isDnsContainerInstalled (c : ServerConfig) : Bool := c.containersArray.any fun entry => entry.container = .Dns

end ServerConfig

/-- What `getDnsPair` reads besides the server. -/
structure DnsSettings where
  isAmneziaDnsEnabled : Bool
  primaryDns : String
  secondaryDns : String
  checkIPv4Format : String → Bool

def amneziaDnsIp : String := "172.29.172.254"

/-- `getDnsPair`, for the server at the processed index. -/
def ServerConfig.dnsPair (settings : DnsSettings) (c : ServerConfig) : String × String :=
  (if c.dns1 = "" || !settings.checkIPv4Format c.dns1 then
      if settings.isAmneziaDnsEnabled && c.isDnsContainerInstalled then amneziaDnsIp else settings.primaryDns
    else c.dns1,
    if c.dns2 = "" || !settings.checkIPv4Format c.dns2 then settings.secondaryDns else c.dns2)

/-! ## The list of servers -/

/-- The list is the same in the settings, and so is the default index. -/
structure ServersModel where
  servers : List ServerConfig
  defaultServerIndex : Int
  processedServerIndex : Int
  /-- The entries of `ContainersModel`, which are those of the processed server. -/
  containers : List ContainerConfig
  deriving DecidableEq

namespace ServersModel

def server? (m : ServersModel) (index : Int) : Option ServerConfig :=
  if 0 ≤ index then m.servers[index.toNat]? else none

/-- `m_servers.at(index).toObject()`, which is empty out of the range. -/
def getServerConfig (m : ServersModel) (index : Int) : ServerConfig := (m.server? index).getD .empty

def setDefaultServerIndex (index : Int) (m : ServersModel) : ServersModel := { m with defaultServerIndex := index }

def setProcessedServerIndex (index : Int) (m : ServersModel) : ServersModel :=
  { m with processedServerIndex := index, containers := (m.getServerConfig index).containersArray }

def addServer (server : ServerConfig) (m : ServersModel) : ServersModel := { m with servers := m.servers ++ [server] }

def clearServers (m : ServersModel) : ServersModel :=
  let m := { m with servers := [] }.setDefaultServerIndex (-1)
  m.setProcessedServerIndex m.defaultServerIndex

/-- `resetModel` with what the settings have, which leaves the entries of `ContainersModel`. -/
def resetModel (servers : List ServerConfig) (defaultServerIndex : Int) (m : ServersModel) : ServersModel :=
  { m with servers, defaultServerIndex, processedServerIndex := defaultServerIndex }

def isServerFromApiAlreadyExists (crc : BitVec 16) (m : ServersModel) : Bool :=
  m.servers.any fun server => BitVec.ofInt 16 (server.crc.getD 0) = crc

/-- The first entry for the container is replaced. -/
def replaceContainer (container : DockerContainer) (config : ContainerConfig) :
    List ContainerConfig → List ContainerConfig
  | [] => []
  | entry :: entries =>
    if entry.container = container then config :: entries else entry :: replaceContainer container config entries

/-- `updateContainerConfig` and `editServer`; where there is no processed server, nothing is replaced. -/
def updateContainerConfig (container : DockerContainer) (config : ContainerConfig) (m : ServersModel) : ServersModel :=
  match m.server? m.processedServerIndex with
  | none => m
  | some server =>
    let server := { server with containers := some (replaceContainer container config server.containersArray) }
    { m with servers := m.servers.set m.processedServerIndex.toNat server }.setProcessedServerIndex
      m.processedServerIndex

/-- What the handler of `importFinished` does first. -/
def importFinished (m : ServersModel) : ServersModel := (m.setDefaultServerIndex 0).setProcessedServerIndex 0

theorem importFinished_at (server : ServerConfig) (m : ServersModel) :
    (m.addServer server).importFinished.server? 0 = some (m.servers.head?.getD server) ∧
      (m.addServer server).importFinished.containers = (m.servers.head?.getD server).containersArray := by
  cases h : m.servers with
  | nil => simp [importFinished, setProcessedServerIndex, setDefaultServerIndex, getServerConfig, server?, addServer, h]
  | cons first servers =>
    simp [importFinished, setProcessedServerIndex, setDefaultServerIndex, getServerConfig, server?, addServer, h]

end ServersModel

end Cimogus.Client
