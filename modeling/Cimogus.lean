import Cimogus.Net.ShortestSubnets
import Cimogus.Net.SplitTunneling
import Cimogus.Net.RoutePaths
import Cimogus.Daemon.Failure
import Cimogus.Daemon.Recovery
import Cimogus.Daemon.Serial
import Cimogus.Daemon.RoutePrefixes
import Cimogus.Linux.PeerStatus
import Cimogus.Linux.RouteMessage
import Cimogus.Windows.Daemon
import Cimogus.Windows.RouteMonitor
import Cimogus.Windows.SplitTunnel
import Cimogus.Service.SubnetMasks
import Cimogus.Service.Tun2Socks
import Cimogus.Client.TrafficCounters
import Cimogus.Client.ManagementLines
import Cimogus.Client.Regions
import Cimogus.Client.StoredServers
import Cimogus.Client.DefaultContainer
import Cimogus.Client.ConnectButton
import Cimogus.Client.ImportedServer
import Cimogus.Client.FileCopy
import Cimogus.Client.XrayTeardown
import Cimogus.Client.SiteDecision
import Cimogus.Client.LinkFields
import Cimogus.Client.LinkMemory
import Cimogus.Client.LinkParameters
import Cimogus.Client.DangerousTags
import Cimogus.Client.XrayHost
import Cimogus.Client.QrSeries
import Cimogus.Client.Backup
import Cimogus.Android.LastCommand
import Cimogus.Macos.RoutingSocket
import Cimogus.Ios.StartAttempts
import Cimogus.Ios.SplitTunnel
import Cimogus.Client.Settings
import Cimogus.Client.Configurators
import Cimogus.Client.SiteFiles
import Cimogus.Client.ProtocolModels
import Cimogus.Ios.Log
import Cimogus.Client.WgShow
import Cimogus.Client.PingHelper
