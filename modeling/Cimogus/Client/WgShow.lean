import Cimogus.Client.WireguardClients

/-!
# The statistics of the clients

`wgShow` collects the lines of four kinds from what `wg show all` prints and joins them by their position. A peer
without a handshake has no line for it, so the lines of the later peers move to it; and a chunk that ends within a line
takes its mark apart.
-/

namespace Cimogus.Client.Wireguard

open Lib Lib.Substitution List Text

structure WgShowData where
  clientId : List Char
  latestHandshake : List Char
  dataReceived : List Char
  dataSent : List Char
  allowedIps : List Char
  deriving DecidableEq

def getStrValue (str : List Char) : List Char :=
  strip isSpace (if ':' ∈ str then str.drop (str.idxOf ':' + 1) else str)

def changeHandshakeFormat (latestHandshake : List Char) : List Char :=
  [(" days", "d"), (" hours", "h"), (" minutes", "m"), (" seconds", "s"), (" day", "d"), (" hour", "h"),
    (" minute", "m"),
    (" second", "s")].foldl (fun s item => substitute [(item.1.toList, item.2.toList)] s) latestHandshake

/-- What is pushed for a line of each kind. -/
def showData (peer transferred latestHandshake allowedIps : List Char) : WgShowData :=
  let transferredData := (getStrValue transferred).splitOn ','
  let serverBytesReceived := strip isSpace (transferredData.headD [])
  let serverBytesSent := strip isSpace (transferredData.getLastD [])
  { clientId := getStrValue peer
    latestHandshake := changeHandshakeFormat (getStrValue latestHandshake)
    dataReceived := serverBytesSent.take (serverBytesSent.length - 5)
    dataSent := serverBytesReceived.take (serverBytesReceived.length - 9)
    allowedIps := getStrValue allowedIps }

/-- The loop, up to the end of the shortest list. -/
def joinByPosition : List (List Char) → List (List Char) → List (List Char) → List (List Char) → List WgShowData
  | p :: ps, t :: ts, h :: hs, a :: as => showData p t h a :: joinByPosition ps ts hs as
  | _, _, _, _ => []

inductive Mark
  | peer
  | latestHandshake
  | transfer
  | allowedIps

def Mark.text : Mark → List Char
  | .peer => "peer:".toList
  | .latestHandshake => "latest handshake:".toList
  | .transfer => "transfer:".toList
  | .allowedIps => "allowed ips:".toList

def marked (mark : Mark) (parts : List (List Char)) : List (List Char) := parts.filter (hasInfix mark.text)

/-- The lines of a peer, in any order and with any lines besides. -/
structure PeerBlock where
  lines : List (List Char)
  peer : List Char
  allowedIps : List Char
  latestHandshake : Option (List Char)
  transfer : Option (List Char)
  noBreak : ∀ l ∈ lines, '\n' ∉ l
  marked_peer : marked .peer lines = [peer]
  marked_allowedIps : marked .allowedIps lines = [allowedIps]
  marked_latestHandshake : marked .latestHandshake lines = latestHandshake.toList
  marked_transfer : marked .transfer lines = transfer.toList

/-- The lines of an interface. -/
structure InterfaceBlock where
  lines : List (List Char)
  noBreak : ∀ l ∈ lines, '\n' ∉ l
  marked_eq : ∀ mark, marked mark lines = []

abbrev Output := List (InterfaceBlock ⊕ PeerBlock)

namespace Output

def lines (o : Output) : List (List Char) := o.flatMap (Sum.elim InterfaceBlock.lines PeerBlock.lines)

def text (o : Output) : List Char := o.lines.flatMap (· ++ ['\n'])

def peers (o : Output) : List PeerBlock := o.filterMap Sum.getRight?

end Output

/-- What is joined for the peers. -/
def joined (bs : List PeerBlock) : List WgShowData :=
  joinByPosition (bs.map PeerBlock.peer) (bs.flatMap (·.transfer.toList)) (bs.flatMap (·.latestHandshake.toList))
    (bs.map PeerBlock.allowedIps)

section Joined

variable {b : PeerBlock} {bs : List PeerBlock} {d : WgShowData} {records : List WgShowData}

end Joined

end Cimogus.Client.Wireguard
