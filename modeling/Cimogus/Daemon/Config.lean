/-!
# Addresses and configurations of the daemon

`IPAddress`, the daemon's address with a prefix length, and `InterfaceConfig`, the configuration that `activate` gets.
What Qt computes from texts is a parameter (`Qt`); the constructors of `IPAddress` are translated over it, with the
lengths they fall back to.
-/

namespace Cimogus.Daemon

inductive QHostAddress
  | null
  | ipv4 (address : BitVec 32)
  | ipv6 (address : BitVec 128)
  deriving DecidableEq

/-- What Qt makes of texts: `QHostAddress(text)`, `QHostAddress::parseSubnet(text)` and `toString()`. -/
structure Qt where
  hostAddress : String → QHostAddress
  parseSubnet : String → QHostAddress × Int
  hostText : QHostAddress → String

structure IPAddress where
  address : QHostAddress
  prefixLength : Int
  deriving DecidableEq

namespace IPAddress

/-- The lengths are cut to the family's; an address that is no address keeps its own. -/
def clamp : QHostAddress → Int → Int
  | .ipv4 _, n => if n ≥ 32 then 32 else n
  | .ipv6 _, n => if n ≥ 128 then 128 else n
  | .null, n => n

/-- `IPAddress(const QString&)`. -/
def ofText (qt : Qt) (ip : String) : IPAddress :=
  let p := if '/' ∈ ip.toList then qt.parseSubnet ip else (qt.hostAddress ip, 999999)
  ⟨p.1, clamp p.1 p.2⟩

/-- `IPAddress(const QHostAddress&)`; everything but an IPv4 address gets 128. -/
def ofHost : QHostAddress → IPAddress
  | .ipv4 a => ⟨.ipv4 a, 32⟩
  | a => ⟨a, 128⟩

def toText (qt : Qt) (ip : IPAddress) : String := qt.hostText ip.address ++ "/" ++ toString ip.prefixLength

end IPAddress

inductive HopType
  | singleHop
  | multiHopEntry
  | multiHopExit
  deriving DecidableEq

/-- The junk packet and magic header parameters; an empty text is not sent to the interface. -/
structure JunkParams where
  junkPacketCount : String
  junkPacketMinSize : String
  junkPacketMaxSize : String
  initPacketJunkSize : String
  responsePacketJunkSize : String
  initPacketMagicHeader : String
  responsePacketMagicHeader : String
  underloadPacketMagicHeader : String
  transportPacketMagicHeader : String
  deriving DecidableEq

structure InterfaceConfig where
  hopType : HopType
  privateKey : String
  deviceIpv4Address : String
  deviceIpv6Address : String
  serverIpv4Gateway : String
  serverIpv6Gateway : String
  serverPublicKey : String
  serverIpv4AddrIn : String
  serverIpv6AddrIn : String
  dnsServer : String
  allowedIPAddressRanges : List IPAddress
  excludedAddresses : List String
  killSwitchEnabled : Bool
  junk : JunkParams
  deriving DecidableEq

end Cimogus.Daemon
