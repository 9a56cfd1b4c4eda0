import Cimogus.Lib.Iptables
import Mathlib.Data.Fintype.List

/-!
# `LinuxFirewall`

The firewall of the Linux daemon. Every ruleset is an anchor with two chains: a placeholder that stays linked in the
root chain, which fixes the precedence, and the chain with the rules, linked into the placeholder when the anchor is
enabled. The shell scripts are translated command by command; exit codes that only reach the log are left out.

The state has a table for every address family and every kernel table; `Chains` are the chains this firewall names,
and the kernel's own chain they are linked into.
-/

namespace Cimogus.Linux

open Lib.Iptables

/-! ## Packets and rules -/

inductive Protocol
  | udp
  | tcp
  | other
  deriving DecidableEq

structure Packet where
  out : List Char
  dst : Nat
  protocol : Protocol
  sport : Nat
  dport : Nat
  /-- The class that the packet's control group sets. -/
  classid : Nat

/-- The addresses of `width` bits that agree with `addr` in the first `len` bits. -/
structure Net where
  width : Nat
  addr : Nat
  len : Nat
  deriving DecidableEq

def Net.Contains (n : Net) (dst : Nat) : Prop := dst / 2 ^ (n.width - n.len) = n.addr / 2 ^ (n.width - n.len)

instance (n : Net) (dst : Nat) : Decidable (n.Contains dst) := inferInstanceAs (Decidable (_ = _))

/-- The matches of a rule; what is `none` matches everything. -/
structure Cond where
  /-- `-o name+`: the names that start with `name`. -/
  out : Option (List Char) := none
  /-- `! -o name+`. -/
  notOut : Option (List Char) := none
  dst : Option Net := none
  protocol : Option Protocol := none
  sport : Option Nat := none
  dport : Option Nat := none
  cgroup : Option Nat := none
  deriving DecidableEq

def Cond.eval (c : Cond) (p : Packet) : Bool :=
  c.out.all (·.isPrefixOf p.out) && c.notOut.all (fun n => !n.isPrefixOf p.out) &&
    c.dst.all (fun n => decide (n.Contains p.dst)) &&
    c.protocol.all (· == p.protocol) && c.sport.all (· == p.sport) && c.dport.all (· == p.dport) &&
    c.cgroup.all (· == p.classid)

inductive Anchor
  | allowLoopback
  | allowPIA
  | allowDNS
  | blockDNS
  | allowLAN
  | allowDHCP
  | blockIPv6
  | allowVPN
  | blockNets
  | allowNets
  | blockAll
  | transIp
  | tagPkts
  | vpnTunOnly
  deriving DecidableEq

def Anchor.all : List Anchor :=
  [.allowLoopback, .allowPIA, .allowDNS, .blockDNS, .allowLAN, .allowDHCP, .blockIPv6, .allowVPN,
    .blockNets, .allowNets,
    .blockAll, .transIp, .tagPkts, .vpnTunOnly]

theorem Anchor.mem_all (a : Anchor) : a ∈ all := by cases a <;> decide

inductive ChainName
  /-- `OUTPUT`, `POSTROUTING` or `PREROUTING`, where the table is linked. -/
  | builtin
  | root
  /-- `amnvpn.a.<anchor>`. -/
  | placeholder (a : Anchor)
  /-- `amnvpn.<anchor>`. -/
  | actual (a : Anchor)
  deriving DecidableEq

instance : Fintype ChainName :=
  Fintype.ofList (.builtin :: .root :: (Anchor.all.map .placeholder ++ Anchor.all.map .actual)) fun c => by
    cases c <;> simp [Anchor.mem_all]

abbrev FwRule := Rule ChainName Cond

abbrev Chains := Table ChainName Cond

def jumpTo (c : ChainName) : FwRule := ⟨{}, .jump c⟩

def accept (c : Cond) : FwRule := ⟨c, .verdict .accept⟩

def reject (c : Cond) : FwRule := ⟨c, .verdict .reject⟩

/-! ## Scripts on one table -/

/-- `-N chain || -F chain`. -/
def createChain (c : ChainName) (t : Chains) : Chains := (t.newChain c).getD (attempt (Table.flush c) t)

/-- `if -L chain; then -F chain && -X chain; fi`. -/
def deleteChain (c : ChainName) (t : Chains) : Chains :=
  match t.flush c with
  | none => t
  | some t => attempt (Table.deleteEmpty c) t

/-- `if ! -C parent -j chain; then -A parent -j chain; fi`. -/
def linkChain (c parent : ChainName) (t : Chains) : Chains :=
  if t.check parent (jumpTo c) then t else attempt (Table.append parent (jumpTo c)) t

/-- The number of the first rule after the top one that has the chain as its target. -/
def laterJump (c : ChainName) (rules : List FwRule) : Option Nat :=
  (rules.drop 1).findIdx? (fun r => r.target == .jump c) |>.map (· + 1)

/-- `linkChain` with `mustBeFirst`: if the top rule does not jump to the chain, insert one that does, and delete one
later rule that does. -/
def linkChainFirst (c parent : ChainName) (t : Chains) : Chains :=
  if ((t parent).getD []).head?.any (fun r => r.target == .jump c) then t
  else
    match t.insert parent (jumpTo c) with
    | none => t
    | some t =>
      match laterJump c ((t parent).getD []) with
      | none => t
      | some n => attempt (Table.deleteNumber parent n) t

/-- `if -C parent -j chain; then -D parent -j chain; fi`. -/
def unlinkChain (c parent : ChainName) (t : Chains) : Chains :=
  if t.check parent (jumpTo c) then attempt (Table.deleteRule parent (jumpTo c)) t else t

def installAnchor (a : Anchor) (rules : List FwRule) (t : Chains) : Chains :=
  let t := linkChain (.placeholder a) .root (createChain (.placeholder a) t)
  rules.foldl (fun t r => attempt (Table.append (.actual a) r) t) (createChain (.actual a) t)

def uninstallAnchor (a : Anchor) (t : Chains) : Chains :=
  deleteChain (.actual a) (deleteChain (.placeholder a) (unlinkChain (.placeholder a) .root t))

def enableAnchor (a : Anchor) (t : Chains) : Chains :=
  if t.check (.placeholder a) (jumpTo (.actual a)) then t
  else attempt (Table.append (.placeholder a) (jumpTo (.actual a))) t

def disableAnchor (a : Anchor) (t : Chains) : Chains :=
  if t.check (.placeholder a) (jumpTo (.actual a)) then attempt (Table.flush (.placeholder a)) t else t

def setAnchorEnabled (a : Anchor) (enabled : Bool) (t : Chains) : Chains :=
  if enabled then enableAnchor a t else disableAnchor a t

/-- `-F chain`, then `-A chain rule` for every rule. -/
def replaceRules (a : Anchor) (rules : List FwRule) (t : Chains) : Chains :=
  rules.foldl (fun t r => attempt (Table.append (.actual a) r) t) (attempt (Table.flush (.actual a)) t)

/-! ## The firewall -/

inductive Family
  | ipv4
  | ipv6
  deriving DecidableEq

inductive TableName
  | filter
  | nat
  | raw
  | mangle
  deriving DecidableEq

inductive IPVersion
  | IPv4
  | IPv6
  | Both

def IPVersion.includes : IPVersion → Family → Bool
  | .IPv4, f => f == .ipv4
  | .IPv6, f => f == .ipv6
  | .Both, _ => true

structure Firewall where
  chains : Family → TableName → Chains

/-- A script run for the families of `ip`; the families do not share chains. -/
def Firewall.script (fw : Firewall) (ip : IPVersion) (table : TableName) (s : Chains → Chains) : Firewall :=
  ⟨fun f t => if ip.includes f ∧ t = table then s (fw.chains f t) else fw.chains f t⟩

theorem Firewall.chains_script (fw : Firewall) (ip : IPVersion) (table : TableName) (s : Chains → Chains) (f : Family)
    (t : TableName) : (fw.script ip table s).chains f t =
      if ip.includes f = true ∧ t = table then s (fw.chains f t) else fw.chains f t := rfl

def net4 (a b c d len : Nat) : Net := ⟨32, ((a * 256 + b) * 256 + c) * 256 + d, len⟩

def lanNets : List Net :=
  [net4 10 0 0 0 8, net4 169 254 0 0 16, net4 172 16 0 0 12, net4 192 168 0 0 16, net4 224 0 0 0 4,
    net4 255 255 255 255 32]

/-- The IPv6 ranges that are exempt as LAN: `fc00::/7`, `fe80::/10` and `ff00::/8`. -/
def lanNets6 : List Net :=
  [⟨128, 0xfc00 * 2 ^ 112, 7⟩, ⟨128, 0xfe80 * 2 ^ 112, 10⟩, ⟨128, 0xff00 * 2 ^ 112, 8⟩]

def lo : List Char := "lo".toList

def amn0 : List Char := "amn0".toList

def tun0 : List Char := "tun0".toList

def loopbackRules : List FwRule := [accept { out := some lo }]

def blockDNSRules : List FwRule :=
  [reject { protocol := some .udp, dport := some 53 }, reject { protocol := some .tcp, dport := some 53 }]

def allowRules (nets : List Net) : List FwRule := nets.map fun n => accept { dst := some n }

def blockRules (nets : List Net) : List FwRule := nets.map fun n => reject { dst := some n }

def dhcpRules : List FwRule :=
  [accept { protocol := some .udp, dst := some (net4 255 255 255 255 32), sport := some 68, dport := some 67 }]

def dhcpRules6 : List FwRule :=
  [accept { protocol := some .udp, dst := some ⟨128, 0xff00 * 2 ^ 112, 8⟩, sport := some 546, dport := some 547 }]

def vpnRules : List FwRule := [accept { out := some amn0 }, accept { out := some tun0 }]

def dnsRules (server : Net) : List FwRule :=
  [accept { out := some amn0, dst := some server, protocol := some .udp, dport := some 53 },
    accept { out := some amn0, dst := some server, protocol := some .tcp, dport := some 53 },
    accept { out := some tun0, dst := some server, protocol := some .udp, dport := some 53 },
    accept { out := some tun0, dst := some server, protocol := some .tcp, dport := some 53 }]

/-- The anchors in the order in which `install` creates them, which is their precedence. -/
def anchorTable : List (IPVersion × Anchor × List FwRule × TableName) :=
  [(.Both, .allowLoopback, loopbackRules, .filter),
    (.IPv4, .allowDNS, [], .filter), (.Both, .blockDNS, blockDNSRules, .filter),
    (.IPv4, .allowLAN, allowRules lanNets, .filter),
    (.IPv6, .allowLAN, allowRules lanNets6, .filter), (.IPv4, .allowDHCP, dhcpRules, .filter),
    (.IPv6, .allowDHCP, dhcpRules6, .filter), (.IPv6, .blockIPv6, [reject { notOut := some lo }], .filter),
    (.Both, .allowVPN, vpnRules, .filter), (.IPv4, .blockNets, [], .filter), (.IPv4, .allowNets, [], .filter),
    (.Both, .blockAll, [reject {}], .filter), (.Both, .transIp, [⟨{}, .mangle⟩], .nat),
    (.Both, .tagPkts, [⟨{ cgroup := some 0x567 }, .mangle⟩], .mangle), (.Both, .vpnTunOnly, [accept {}], .raw)]

def uninstallTable : List (IPVersion × Anchor × TableName) :=
  [(.Both, .allowLoopback, .filter), (.Both, .allowPIA, .filter), (.IPv4, .allowDNS, .filter),
    (.Both, .blockDNS, .filter),
    (.Both, .allowLAN, .filter), (.Both, .allowDHCP, .filter), (.IPv6, .blockIPv6, .filter),
    (.Both, .allowVPN, .filter),
    (.IPv4, .blockNets, .filter), (.IPv4, .allowNets, .filter), (.Both, .blockAll, .filter), (.Both, .transIp, .nat),
    (.Both, .tagPkts, .mangle), (.Both, .vpnTunOnly, .raw)]

namespace Firewall

/-- Unlink and delete the root chain of one table. -/
def removeRoot (fw : Firewall) (table : TableName) : Firewall :=
  (fw.script .Both table (unlinkChain .root .builtin)).script .Both table (deleteChain .root)

def uninstall (fw : Firewall) : Firewall :=
  uninstallTable.foldl (fun fw e => fw.script e.1 e.2.2 (uninstallAnchor e.2.1))
    ((((fw.removeRoot .filter).removeRoot .raw).removeRoot .nat).removeRoot .mangle)

def install (fw : Firewall) : Firewall :=
  let fw :=
    [TableName.filter, .raw, .nat, .mangle].foldl (fun fw t => fw.script .Both t (createChain .root)) fw.uninstall
  let fw := anchorTable.foldl (fun fw e => fw.script e.1 e.2.2.2 (installAnchor e.2.1 e.2.2.1)) fw
  [TableName.filter, .nat, .mangle, .raw].foldl (fun fw t => fw.script .Both t (linkChainFirst .root .builtin)) fw

/-- `iptables -C OUTPUT -j amnvpn.anchors`. -/
def isInstalled (fw : Firewall) : Bool := (fw.chains .ipv4 .filter).check .builtin (jumpTo .root)

def ensureRootAnchorPriority (fw : Firewall) : Firewall := fw.script .Both .filter (linkChainFirst .root .builtin)

def setAnchor (fw : Firewall) (ip : IPVersion) (a : Anchor) (enabled : Bool) : Firewall :=
  fw.script ip .filter (setAnchorEnabled a enabled)

/-- How `iptables` reads the argument of `-d`: a host name can have several addresses, each of which gets a rule, and a
text that it cannot read has none. -/
abbrev Resolver := String → List Net

def updateDNSServers (resolve : Resolver) (servers : List String) (fw : Firewall) : Firewall :=
  fw.script .IPv4 .filter (replaceRules .allowDNS ((servers.flatMap resolve).flatMap dnsRules))

def updateAllowNets (resolve : Resolver) (servers : List String) (fw : Firewall) : Firewall :=
  fw.script .IPv4 .filter (replaceRules .allowNets (allowRules (servers.flatMap resolve)))

def updateBlockNets (resolve : Resolver) (servers : List String) (fw : Firewall) : Firewall :=
  fw.script .IPv4 .filter (replaceRules .blockNets (blockRules (servers.flatMap resolve)))

/-- The number of chains, which bounds how deep jumps can nest. -/
def depth : Nat := 2 * Anchor.all.length + 2

/-- The verdict of the `filter` table on an outgoing IPv4 packet; the policy of `OUTPUT` is to accept. -/
def verdict (fw : Firewall) (p : Packet) : Verdict :=
  ((fw.chains .ipv4 .filter).walk Cond.eval depth .builtin p).getD .accept

end Firewall

end Cimogus.Linux
