import Cimogus.Daemon.Config
import Cimogus.Lib.Ledger
import Cimogus.Lib.Steps

/-!
# `WindowsFirewall`

The filters that the daemon puts into the Windows Filtering Platform, and the ids it keeps to take them out again. A
function of the source that adds filters one after the other, and ends at the first that is refused, is the list of
these filters; `addFilters` is the loop over it. What the platform answers is an argument: a transaction that is
aborted, or that cannot be committed, leaves the filters as they were when it began, and what the daemon wrote down in
the meantime stays.

The sublayer and the session are left out, and so are the filters of others.
-/

namespace Cimogus.Windows

open Lib Daemon List

/-! ## Filters -/

/-- `FWPM_LAYER_ALE_AUTH_CONNECT_V4` and so on. -/
inductive Layer
  | connectV4
  | recvAcceptV4
  | connectV6
  | recvAcceptV6
  | outboundMacFrameNative
  | inboundMacFrameNative
  deriving DecidableEq

inductive Action
  | permit
  | block
  deriving DecidableEq

inductive Value
  | uint32 (v : BitVec 32)
  | byteArray16 (v : BitVec 128)
  deriving DecidableEq

inductive Condition
  | appId (blob : String)
  | interfaceIndex (index : Nat)
  | ipProtocol (protocol : Nat)
  | ipLocalPort (port : Nat)
  | ipRemotePort (port : Nat)
  | ipRemoteAddress (address : Value)
  | ipRemoteRange (low high : Value)
  | l2IsVm2Vm
  deriving DecidableEq

structure Filter where
  layer : Layer
  conditions : List Condition
  action : Action
  weight : Nat
  /-- `FWPM_FILTER_FLAG_CLEAR_ACTION_RIGHT`. -/
  hard : Bool
  title : String
  description : String
  deriving DecidableEq

def lowWeight : Nat := 0
def medWeight : Nat := 7
def highWeight : Nat := 13
def maxWeight : Nat := 15

/-- `IPPROTO_UDP`. -/
def udp : Nat := 17

/-- `IPPROTO_TCP`. -/
def tcp : Nat := 6

structure Host where
  currentPath : String
  baseName : String → String
  /-- `FwpmGetAppIdFromFileName0`, where it succeeds. -/
  appId : String → String
  /-- Index and name of each loopback interface. -/
  loopbacks : List (Nat × String)
  /-- The index of the tunnel's interface. -/
  ifindex : Nat

/-- An address that is none is 16 zero bytes. -/
def importAddress : QHostAddress → Value
  | .ipv4 a => .uint32 a
  | .ipv6 a => .byteArray16 a
  | .null => .byteArray16 0

/-- `IPAddress::broadcastAddress`: the bits below the prefix are set. -/
def broadcastAddress (ip : IPAddress) : QHostAddress :=
  match ip.address with
  | .ipv4 a => .ipv4 (if ip.prefixLength < 32 then a ||| (BitVec.allOnes 32 >>> ip.prefixLength.toNat) else a)
  | .ipv6 a => .ipv6 (a ||| (BitVec.allOnes 128 >>> ip.prefixLength.toNat))
  | .null => .null

/-- The layers for traffic to and from an address; everything but an IPv4 address is taken for IPv6. -/
def layers : QHostAddress → Layer × Layer
  | .ipv4 _ => (.connectV4, .recvAcceptV4)
  | _ => (.connectV6, .recvAcceptV6)

def allowTrafficForAppOnAll (host : Host) (weight : Nat) (title : String) : List Filter :=
  let filter (layer : Layer) (direction : String) : Filter :=
    ⟨layer, [.appId (host.appId host.currentPath)], .permit, weight, true, title,
      "Permit (" ++ direction ++ ") IPv4 Traffic of: " ++ host.baseName host.currentPath⟩
  [filter .connectV4 "out", filter .recvAcceptV4 "in"]

def allowTrafficOfAdapter (networkAdapter weight : Nat) (title : String) : List Filter :=
  let filter (layer : Layer) (direction : String) : Filter :=
    ⟨layer, [.interfaceIndex networkAdapter], .permit, weight, false, title,
      "Allow " ++ direction ++ " traffic on Adapter " ++ toString networkAdapter⟩
  [filter .connectV4 "out", filter .recvAcceptV4 "in", filter .connectV6 "out", filter .recvAcceptV6 "in"]

def allowTrafficTo (qt : Qt) (targetIP : QHostAddress) (port weight : Nat) (title : String) : List Filter :=
  let filter (layer : Layer) (direction : String) : Filter :=
    ⟨layer, [.ipProtocol udp, .ipProtocol tcp, .ipRemotePort port, .ipRemoteAddress (importAddress targetIP)],
      .permit,
      weight, true, title, "Permit traffic " ++ direction ++ " " ++ qt.hostText targetIP ++ " on port " ++
      toString port⟩
  [filter (layers targetIP).1 "to", filter (layers targetIP).2 "from"]

/-- The common part of `allowTrafficToRange` and `blockTrafficTo`. -/
def trafficToRange (qt : Qt) (action : Action) (verb : String) (addr : IPAddress) (weight : Nat) (title : String) :
    List Filter :=
  let filter (layer : Layer) (direction : String) : Filter :=
    ⟨layer, [.ipRemoteRange (importAddress addr.address) (importAddress (broadcastAddress addr))], action,
      weight, false,
      title, verb ++ " traffic " ++ direction ++ " " ++ addr.toText qt ++ " "⟩
  [filter (layers addr.address).1 "to", filter (layers addr.address).2 "from"]

def allowTrafficToRange (qt : Qt) : IPAddress → Nat → String → List Filter := trafficToRange qt .permit "Allow"

def blockTrafficTo (qt : Qt) : IPAddress → Nat → String → List Filter := trafficToRange qt .block "Block"

/-- The first filter has the broadcast address in addition. -/
def allowDHCPTraffic (weight : Nat) (title : String) : List Filter :=
  let ports := [.ipProtocol udp, .ipLocalPort 68, .ipRemotePort 67]
  let filter (layer : Layer) (conditions : List Condition) (description : String) : Filter :=
    ⟨layer, conditions, .permit, weight, false, title, description⟩
  [filter .connectV4 (ports ++ [.ipRemoteAddress (.uint32 0xffffffff)]) "Allow Outbound DHCP",
    filter .recvAcceptV4 ports "Allow inbound DHCP", filter .connectV6 ports "Allow outbound DHCPv6",
    filter .recvAcceptV6 ports "Allow inbound DHCPv6"]

def allowHyperVTraffic (weight : Nat) (title : String) : List Filter :=
  let filter (layer : Layer) (description : String) : Filter :=
    ⟨layer, [.l2IsVm2Vm], .permit, weight, false, title, description⟩
  [filter .outboundMacFrameNative "Permit Hyper-V => Hyper-V outbound",
    filter .inboundMacFrameNative "Permit Hyper-V => Hyper-V inbound"]

def blockTrafficOnPort (port weight : Nat) (title : String) : List Filter :=
  let filter (layer : Layer) (direction : String) : Filter :=
    ⟨layer, [.ipProtocol udp, .ipProtocol tcp, .ipRemotePort port], .block, weight, false, title,
      "Block " ++ direction ++ " on Port " ++ toString port⟩
  [filter .connectV6 "outgoing v6", filter .connectV4 "outgoing v4", filter .recvAcceptV4 "incoming v4",
    filter .recvAcceptV6 "incoming v6"]

def allowLoopbackTraffic (host : Host) (weight : Nat) (title : String → String) : List Filter :=
  host.loopbacks.flatMap fun iface => allowTrafficOfAdapter iface.1 weight (title iface.2)

/-- The filters of one `FW_OK`, and whether they can be built at all. -/
structure Rule where
  built : Bool := true
  filters : List Filter

/-- The six rules of `enableKillSwitch`; only the one for the program itself needs something that may not be found. -/
def killSwitchRules (host : Host) (found : Bool) : List Rule :=
  [{ filters := allowTrafficOfAdapter host.ifindex medWeight "Allow usage of VPN Adapter" },
    { filters := allowDHCPTraffic medWeight "Allow DHCP Traffic" },
    { filters := allowHyperVTraffic medWeight "Allow Hyper-V Traffic" },
    { built := found, filters := allowTrafficForAppOnAll host maxWeight "Allow all for ZloVPN.exe" },
    { filters := blockTrafficOnPort 53 medWeight "Block all DNS" },
    { filters := allowLoopbackTraffic host medWeight fun name => "Allow Loopback traffic on device " ++ name }]

/-- The filters of `enableKillSwitch`. -/
def killSwitchFilters (host : Host) : List Filter := (killSwitchRules host true).flatMap Rule.filters

/-- The filters of `enablePeerTraffic`. -/
def peerFilters (qt : Qt) (config : InterfaceConfig) : List Filter :=
  (config.allowedIPAddressRanges.flatMap fun range => blockTrafficTo qt range lowWeight "Block Internet") ++
  (if config.dnsServer = "" then []
    else
      allowTrafficTo qt (qt.hostAddress config.dnsServer) 53 highWeight "Allow DNS-Server" ++
        if config.dnsServer = config.serverIpv4Gateway then
          allowTrafficTo qt (qt.hostAddress config.serverIpv6Gateway) 53 highWeight "Allow extra IPv6 DNS-Server"
        else []) ++
  config.excludedAddresses.flatMap fun i =>
    allowTrafficToRange qt (IPAddress.ofText qt i) highWeight "Allow Ecxlude route"

/-! ## The firewall -/

/-- `m_peerRules` maps a public key to many ids. -/
structure Firewall where
  engine : Store Filter
  activeRules : List Nat
  peerRules : List (String × Nat)

/-- Whether a transaction begins, and whether it can be committed. -/
structure Bounds where
  begins : Bool
  commits : Bool
  deriving DecidableEq

def Bounds.passes (b : Bounds) : Bool := b.begins && b.commits

/-- The answers to a transaction that adds filters. -/
structure Transaction extends Bounds where
  /-- `FwpmFilterAdd0` takes the `n`-th filter. -/
  add : Nat → Bool

/-- The answers to `enableKillSwitch`, with those to the clean-up after a failure. -/
structure KillSwitchAnswers where
  groups : Nat → Transaction
  appIdFound : Bool
  cleanup : Bounds

/-- The answers to `enablePeerTraffic`. -/
structure PeerAnswers where
  transaction : Transaction
  cleanup : Bounds

namespace Firewall

def fresh : Firewall := ⟨.empty, [], []⟩

def ids (w : Firewall) : List Nat := w.peerRules.map Prod.snd ++ w.activeRules

def ledger (w : Firewall) : Ledger Filter := ⟨w.engine, w.ids⟩

/-- The transaction that began in `start` is undone. -/
def rollback (start w : Firewall) : Firewall := { w with engine := start.engine.rollback w.engine }

def enableFilter (added : Bool) (peer : String) (filter : Filter) : Step Firewall := fun w =>
  if !added then (false, w)
  else if peer = "" then
    (true, { w with engine := w.engine.add filter, activeRules := w.activeRules ++ [w.engine.next] })
  else (true, { w with engine := w.engine.add filter, peerRules := (peer, w.engine.next) :: w.peerRules })

def addFilters (add : Nat → Bool) (peer : String) (filters : List Filter) : Step Firewall :=
  .all (fun n filter => enableFilter (add n) peer filter) filters

def disableKillSwitch (b : Bounds) : Step Firewall := fun w =>
  if !b.begins then (false, w)
  else
    let deleted := { w with engine := w.engine.delete w.ids }
    if !b.commits then (false, w.rollback deleted) else (true, { deleted with activeRules := [], peerRules := [] })

def addRule (add : Nat → Bool) (rule : Rule) : Step Firewall :=
  .seq (if rule.built then .skip else .stop) (addFilters add "" rule.filters)

/-- `FW_OK`; a failed commit is not followed by a clean-up. -/
def fwOk (t : Transaction) (cleanup : Bounds) (rule : Rule) : Step Firewall := fun w =>
  if !t.begins then (false, (disableKillSwitch cleanup w).2)
  else
    let added := addRule t.add rule w
    if !added.1 then (false, (disableKillSwitch cleanup (w.rollback added.2)).2)
    else if !t.commits then (false, w.rollback added.2)
    else added

def enableKillSwitch (a : KillSwitchAnswers) (host : Host) : Step Firewall :=
  .all (fun n rule => fwOk (a.groups n) a.cleanup rule) (killSwitchRules host a.appIdFound)

def enablePeerTraffic (a : PeerAnswers) (qt : Qt) (config : InterfaceConfig) : Step Firewall := fun w =>
  if !a.transaction.begins then (false, (disableKillSwitch a.cleanup w).2)
  else
    let added := addFilters a.transaction.add config.serverPublicKey (peerFilters qt config) w
    if added.1 && a.transaction.commits then added
    else (false, (disableKillSwitch a.cleanup (w.rollback added.2)).2)

/-- `m_peerRules.values(pubkey)`. -/
def values (pubkey : String) (w : Firewall) : List Nat := (w.peerRules.filter (·.1 = pubkey)).map Prod.snd

/-- Each id is deleted and taken off the list in one loop, before the commit. -/
def disablePeerTraffic (b : Bounds) (pubkey : String) : Step Firewall := fun w =>
  if !b.begins then (false, w)
  else
    let deleted : Firewall :=
      { w with engine := w.engine.delete (w.values pubkey), peerRules := w.peerRules.filter (·.1 ≠ pubkey) }
    if !b.commits then (false, w.rollback deleted) else (true, deleted)

end Firewall

/-! ## What the functions leave in the engine -/

variable (add : Nat → Bool) (peer : String) (filter : Filter)

namespace Firewall

variable {w w' w'' : Firewall}

def filters (w : Firewall) : List Filter := w.ledger.items

/-- The filters in the engine whose ids are on neither list. -/
def strays (w : Firewall) : List Filter := w.ledger.strays

/-- From `w` to `w'` a clean-up has gone through or not, and after it the filters `new` have been added and written
down. -/
structure Evolves (w : Firewall) (cleaned : Bool) (new : List Filter) (w' : Firewall) : Prop where
  filters : w'.filters = (if cleaned then w.strays else w.filters) ++ new
  strays : w'.strays = w.strays

namespace Evolves

variable {cleaned cleaned' : Bool} {new new' : List Filter}

theorem of_extends (h : Ledger.Extends w.ledger new w'.ledger) : Evolves w false new w' := ⟨h.items, h.strays⟩

theorem refl (w : Firewall) : Evolves w false [] w := .of_extends (.refl _)

theorem trans (h : Evolves w cleaned new w') (h' : Evolves w' cleaned' new' w'') :
    Evolves w (cleaned || cleaned') ((if cleaned' then [] else new) ++ new') w'' := by
  refine ⟨?_, h'.strays.trans h.strays⟩
  rw [h'.filters, h.strays, h.filters]
  cases cleaned' <;> simp

end Evolves

@[simp] theorem enableFilter_false (w : Firewall) : enableFilter false peer filter w = (false, w) := rfl

@[simp] theorem enableFilter_fst (added : Bool) (peer : String) (filter : Filter) (w : Firewall) :
    (enableFilter added peer filter w).1 = added := by
  cases added with
  | false => rfl
  | true =>
    show (if peer = "" then _ else _ : Bool × Firewall).1 = true
    split <;> rfl

theorem enableFilter_engine (w : Firewall) : (enableFilter true peer filter w).2.engine = w.engine.add filter := by
  show (if peer = "" then _ else _ : Bool × Firewall).2.engine = _
  split <;> rfl

theorem mem_ids_enableFilter {id : Nat} (w : Firewall) :
    id ∈ (enableFilter true peer filter w).2.ids ↔ id ∈ w.ids ∨ id = w.engine.next := by
  show id ∈ (if peer = "" then _ else _ : Bool × Firewall).2.ids ↔ _
  split
  · simp [ids, or_assoc]
  · simp only [ids, map_cons, cons_append, mem_cons]
    exact or_comm

theorem enableFilter_extends (w : Firewall) :
    Ledger.Extends w.ledger [filter] (enableFilter true peer filter w).2.ledger where
  added := by
    refine ⟨[(w.engine.next, filter)], congrArg Store.entries (enableFilter_engine peer filter w), rfl, ?_⟩
    intro e he
    rw [mem_singleton.mp he]
    exact (mem_ids_enableFilter peer filter w).mpr (.inr rfl)
  next := by
    show w.engine.next ≤ (enableFilter true peer filter w).2.engine.next
    rw [enableFilter_engine]
    exact Nat.le_succ _
  kept _ h := (mem_ids_enableFilter peer filter w).mpr (.inl h)
  fresh id h := ((mem_ids_enableFilter peer filter w).mp h).imp_right fun heq => Nat.le_of_eq heq.symm

theorem addFilters_fst (filters : List Filter) (w : Firewall) :
    (addFilters add peer filters w).1 = (List.range filters.length).all add := by
  induction filters generalizing add w with
  | nil => rfl
  | cons filter filters ih =>
    rw [Bool.eq_iff_iff, addFilters, Step.all_cons, Step.seq_fst, enableFilter_fst, length_cons,
      range_succ_eq_map, List.all_cons, all_map, Bool.and_eq_true]
    exact and_congr_right fun _ => Bool.eq_iff_iff.mp (ih (fun n => add (n + 1)) _)

/-- The filters up to the first that is refused are added. -/
theorem addFilters_extends (filters : List Filter) (w : Firewall) :
    ∃ new, Ledger.Extends w.ledger new (addFilters add peer filters w).2.ledger ∧
      ((addFilters add peer filters w).1 = true → new = filters) := by
  induction filters generalizing add w with
  | nil => exact ⟨[], .refl _, fun _ => rfl⟩
  | cons filter filters ih =>
    rw [addFilters, Step.all_cons]
    cases ha : add 0 with
    | true =>
      obtain ⟨new, hnew, heq⟩ := ih (fun n => add (n + 1)) (enableFilter true peer filter w).2
      rw [Step.seq_of_true (enableFilter_fst ..)]
      exact ⟨[filter] ++ new, (enableFilter_extends peer filter w).trans hnew,
        fun h => congrArg (filter :: ·) (heq h)⟩
    | false =>
      exact ⟨[], .refl _, nofun⟩

theorem addRule_fst (rule : Rule) (w : Firewall) :
    (addRule add rule w).1 = (rule.built && (List.range rule.filters.length).all add) := by
  obtain ⟨built, filters⟩ := rule
  cases built with
  | true => exact addFilters_fst add "" filters w
  | false => rfl

theorem addRule_extends (rule : Rule) (w : Firewall) :
    ∃ new, Ledger.Extends w.ledger new (addRule add rule w).2.ledger ∧
      ((addRule add rule w).1 = true → new = rule.filters) := by
  obtain ⟨built, filters⟩ := rule
  cases built with
  | true => exact addFilters_extends add "" filters w
  | false => exact ⟨[], .refl _, nofun⟩

theorem disableKillSwitch_evolves (b : Bounds) (w : Firewall) : Evolves w b.passes [] (disableKillSwitch b w).2 := by
  obtain ⟨begins, commits⟩ := b
  cases begins with
  | false => exact .refl w
  | true =>
    cases commits with
    | false => exact .of_extends (Ledger.Extends.refl w.ledger).rollback
    | true =>
      constructor
      · exact (append_nil _).symm
      · exact Ledger.strays_of_nil _

theorem aborted_evolves {new : List Filter} (h : Ledger.Extends w.ledger new w'.ledger) (b : Bounds) :
    Evolves w b.passes [] (disableKillSwitch b (w.rollback w')).2 := by
  have hb : Evolves w false [] (w.rollback w') := .of_extends h.rollback
  simpa using hb.trans (disableKillSwitch_evolves b (w.rollback w'))

end Firewall

/-! ## A rule, and all of them -/

/-- The transaction begins and the platform takes all its filters, so that it comes to the commit. -/
def Transaction.fills (t : Transaction) (rule : Rule) : Bool :=
  t.begins && rule.built && (List.range rule.filters.length).all t.add

/-- The filters of the rules before the first that fails. -/
def installed : (Nat → Transaction) → List Rule → List Filter
  | _, [] => []
  | groups, rule :: rules =>
    if (groups 0).fills rule && (groups 0).commits then rule.filters ++ installed (fun n => groups (n + 1)) rules
      else []

/-- The first rule that fails does so before its commit, which calls for a clean-up. -/
def tearsDown : (Nat → Transaction) → List Rule → Bool
  | _, [] => false
  | groups, rule :: rules =>
    !(groups 0).fills rule || ((groups 0).commits && tearsDown (fun n => groups (n + 1)) rules)

namespace Firewall

variable {w w' w'' : Firewall}

theorem fills_eq (t : Transaction) (rule : Rule) (w : Firewall) :
    t.fills rule = (t.begins && (addRule t.add rule w).1) := by
  rw [Transaction.fills, addRule_fst, Bool.and_assoc]

theorem fwOk_fst (t : Transaction) (cleanup : Bounds) (rule : Rule) (w : Firewall) :
    (fwOk t cleanup rule w).1 = (t.fills rule && t.commits) := by
  rw [fwOk, fills_eq t rule w]
  cases t.begins with
  | false => rfl
  | true =>
    cases ha : (addRule t.add rule w).1 with
    | false => simp [ha]
    | true => cases hc : t.commits <;> simp [ha]

theorem fwOk_of_not_fills {t : Transaction} {rule : Rule} (h : t.fills rule = false) (cleanup : Bounds) (w : Firewall) :
    Evolves w cleanup.passes [] (fwOk t cleanup rule w).2 := by
  obtain ⟨new, hnew, _⟩ := addRule_extends t.add rule w
  rw [fills_eq t rule w] at h
  rw [fwOk]
  cases hb : t.begins with
  | false => exact disableKillSwitch_evolves cleanup w
  | true =>
    rw [hb, Bool.true_and] at h
    simpa [h] using aborted_evolves hnew cleanup

theorem fwOk_of_fills {t : Transaction} {rule : Rule} (h : t.fills rule = true) (cleanup : Bounds) (w : Firewall) :
    Evolves w false (if t.commits then rule.filters else []) (fwOk t cleanup rule w).2 := by
  obtain ⟨new, hnew, hfu⟩ := addRule_extends t.add rule w
  rw [fills_eq t rule w, Bool.and_eq_true] at h
  obtain rfl := hfu h.2
  rw [fwOk]
  cases t.commits with
  | false =>
    have hb : Evolves w false [] (w.rollback (addRule t.add rule w).2) := .of_extends hnew.rollback
    simpa [h.1, h.2] using hb
  | true => simpa [h.1, h.2] using Evolves.of_extends hnew

/-- The rules are installed up to the first that fails, and all taken out again if that one calls for it. -/
theorem rules_evolves (groups : Nat → Transaction) (cleanup : Bounds) (rules : List Rule) (w : Firewall) :
    Evolves w (tearsDown groups rules && cleanup.passes)
      (if tearsDown groups rules && cleanup.passes then [] else installed groups rules)
      (Step.all (fun n rule => fwOk (groups n) cleanup rule) rules w).2 := by
  induction rules generalizing groups w with
  | nil => exact .refl w
  | cons rule rules ih =>
    rw [Step.all_cons, installed, tearsDown]
    have hfs := fwOk_fst (groups 0) cleanup rule w
    cases hfil : (groups 0).fills rule with
    | false =>
      have hfi := fwOk_of_not_fills hfil cleanup w
      rw [hfil] at hfs
      rw [Step.seq_of_false hfs]
      simpa using hfi
    | true =>
      have hfi := fwOk_of_fills hfil cleanup w
      rw [hfil] at hfs
      cases hc : (groups 0).commits with
      | false =>
        rw [hc] at hfs hfi
        rw [Step.seq_of_false hfs]
        simpa using hfi
      | true =>
        rw [hc] at hfs hfi
        rw [Step.seq_of_true hfs]
        have hrest := hfi.trans (ih (fun n => groups (n + 1)) (fwOk (groups 0) cleanup rule w).2)
        cases hcl : tearsDown (fun n => groups (n + 1)) rules && cleanup.passes <;> simpa [hcl] using hrest

end Firewall

namespace KillSwitchAnswers

/-- A rule of `enableKillSwitch` fails before its commit, and the clean-up goes through. -/
def cleans (a : KillSwitchAnswers) (host : Host) : Bool :=
  tearsDown a.groups (killSwitchRules host a.appIdFound) && a.cleanup.passes

/-- What `enableKillSwitch` adds and leaves. -/
def leaves (a : KillSwitchAnswers) (host : Host) : List Filter :=
  if a.cleans host then [] else installed a.groups (killSwitchRules host a.appIdFound)

end KillSwitchAnswers

namespace PeerAnswers

/-- `enablePeerTraffic` with `n` filters goes through. -/
def passes (a : PeerAnswers) (n : Nat) : Bool :=
  a.transaction.begins && (List.range n).all a.transaction.add && a.transaction.commits

def cleans (a : PeerAnswers) (n : Nat) : Bool := !a.passes n && a.cleanup.passes

end PeerAnswers

namespace Firewall

theorem enableKillSwitch_evolves (a : KillSwitchAnswers) (host : Host) (w : Firewall) :
    Evolves w (a.cleans host) (a.leaves host) (enableKillSwitch a host w).2 :=
  rules_evolves a.groups a.cleanup (killSwitchRules host a.appIdFound) w

theorem enablePeerTraffic_evolves (a : PeerAnswers) (qt : Qt) (config : InterfaceConfig) (w : Firewall) :
    Evolves w (a.cleans (peerFilters qt config).length)
      (if a.passes (peerFilters qt config).length then peerFilters qt config else [])
      (enablePeerTraffic a qt config w).2 := by
  obtain ⟨new, hnew, hfu⟩ := addFilters_extends a.transaction.add config.serverPublicKey (peerFilters qt config) w
  have hfs := addFilters_fst a.transaction.add config.serverPublicKey (peerFilters qt config) w
  rw [enablePeerTraffic, PeerAnswers.cleans, PeerAnswers.passes, ← hfs]
  cases a.transaction.begins with
  | false => exact disableKillSwitch_evolves a.cleanup w
  | true =>
    cases ha : (addFilters a.transaction.add config.serverPublicKey (peerFilters qt config) w).1 with
    | false => simpa [ha] using aborted_evolves hnew a.cleanup
    | true =>
      obtain rfl := hfu ha
      cases a.transaction.commits with
      | false => simpa [ha] using aborted_evolves hnew a.cleanup
      | true => simpa [ha] using Evolves.of_extends hnew

end Firewall

end Cimogus.Windows
