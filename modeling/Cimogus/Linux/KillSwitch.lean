import Cimogus.Lib.Runs
import Cimogus.Linux.Layout

/-!
# The two users of `LinuxFirewall`

`WireguardUtilsLinux` sets the anchors when it adds an interface (`applyFirewallRules`) and removes the firewall when it
deletes the interface; `IpcServer` sets the same anchors for the other protocols (`enableKillSwitch`) and removes them
in `disableKillSwitch`. Only `applyFirewallRules` installs the chains.
-/

namespace Cimogus.Linux

open Lib.Iptables Lib.Runs List

/-! ## Setting the anchors -/

structure FirewallParams where
  dnsServers : List String := []
  allowAddrs : List String := []
  blockAddrs : List String := []
  blockAll : Bool := false
  allowNets : Bool := false
  blockNets : Bool := false
  deriving DecidableEq

/-- The anchors in the order in which both users set them. -/
def applyAnchors (resolve : Firewall.Resolver) (params : FirewallParams) (fw : Firewall) : Firewall :=
  let fw := fw.setAnchor .Both .allowLoopback true
  let fw := fw.setAnchor .Both .blockAll params.blockAll
  let fw := fw.setAnchor .IPv4 .allowNets params.allowNets
  let fw := fw.updateAllowNets resolve params.allowAddrs
  let fw := fw.setAnchor .IPv4 .blockNets params.blockNets
  let fw := fw.updateBlockNets resolve params.blockAddrs
  let fw := fw.setAnchor .IPv4 .allowVPN true
  let fw := fw.setAnchor .IPv6 .blockIPv6 true
  let fw := fw.setAnchor .Both .allowDHCP true
  let fw := fw.setAnchor .Both .allowLAN true
  let fw := fw.setAnchor .IPv4 .blockDNS true
  let fw := fw.updateDNSServers resolve params.dnsServers
  let fw := fw.setAnchor .IPv4 .allowDNS true
  fw.setAnchor .Both .allowPIA true

/-- `WireguardUtilsLinux::applyFirewallRules`. -/
def applyFirewallRules (resolve : Firewall.Resolver) (params : FirewallParams) (fw : Firewall) : Firewall :=
  let fw := if fw.isInstalled then fw else fw.install
  applyAnchors resolve params fw.ensureRootAnchorPriority

/-- What `enableKillSwitch` reads from the configuration. -/
structure KillSwitchConfig where
  splitTunnelType : Int
  splitTunnelSites : List String
  vpnServer : String
  dns1 : String
  dns2 : String

/-- The flags and lists that `enableKillSwitch` computes first. -/
def KillSwitchConfig.params (config : KillSwitchConfig) : FirewallParams :=
  let dnsServers := [config.dns1, config.dns2, "127.0.0.1", "127.0.0.53"]
  if config.splitTunnelType = 0 then
    { dnsServers, blockAll := true, allowNets := true, allowAddrs := [config.vpnServer] }
  else if config.splitTunnelType = 1 then
    { dnsServers, blockNets := true, blockAddrs := config.splitTunnelSites }
  else if config.splitTunnelType = 2 then
    { dnsServers, blockAll := true, allowNets := true, allowAddrs := config.vpnServer :: config.splitTunnelSites }
  else { dnsServers }

/-- `IpcServer::enableKillSwitch`. -/
def enableKillSwitch (resolve : Firewall.Resolver) (config : KillSwitchConfig) (fw : Firewall) : Firewall :=
  let params := config.params
  -- `120.blockNets` is given `blockAll`
  applyAnchors resolve { params with blockNets := params.blockAll } fw

/-- `IpcServer::disableKillSwitch`. -/
def disableKillSwitch (fw : Firewall) : Firewall := fw.uninstall

/-- What `WireguardUtilsLinux::deleteInterface` does to the firewall; it stops early when no tunnel process runs. -/
def deleteInterface (running : Bool) (fw : Firewall) : Firewall := if running then fw.uninstall else fw

/-! ## The anchors after they have been set -/

/-- The setup that `applyAnchors` leaves. -/
def Setup.apply (resolve : Firewall.Resolver) (params : FirewallParams) (s : Setup) : Setup where
  enabled
    | .blockAll => params.blockAll
    | .allowNets => params.allowNets
    | .blockNets => params.blockNets
    | .allowLoopback | .allowVPN | .allowDHCP | .allowLAN | .blockDNS | .allowDNS | .allowPIA => true
    | a => s.enabled a
  dns := params.dnsServers.flatMap resolve
  allow := params.allowAddrs.flatMap resolve
  block := params.blockAddrs.flatMap resolve

open Firewall

theorem chains_applyAnchors (resolve : Firewall.Resolver) (params : FirewallParams) (fw : Firewall) :
    (applyAnchors resolve params fw).chains .ipv4 .filter =
      (setAnchorEnabled .allowPIA true <| setAnchorEnabled .allowDNS true <|
        replaceRules .allowDNS ((params.dnsServers.flatMap resolve).flatMap dnsRules) <|
        setAnchorEnabled .blockDNS true <|
        setAnchorEnabled .allowLAN true <| setAnchorEnabled .allowDHCP true <| setAnchorEnabled .allowVPN true <|
        replaceRules .blockNets (blockRules (params.blockAddrs.flatMap resolve)) <|
        setAnchorEnabled .blockNets params.blockNets <|
        replaceRules .allowNets (allowRules (params.allowAddrs.flatMap resolve)) <|
        setAnchorEnabled .allowNets params.allowNets <| setAnchorEnabled .blockAll params.blockAll <|
        setAnchorEnabled .allowLoopback true (fw.chains .ipv4 .filter)) := by
  simp [applyAnchors, setAnchor, updateAllowNets, updateBlockNets, updateDNSServers, chains_script, IPVersion.includes]

variable {resolve : Firewall.Resolver} {fw : Firewall} {config : KillSwitchConfig}

theorem applyAnchors_blank {params : FirewallParams} (h : fw.chains .ipv4 .filter = blank) :
    (applyAnchors resolve params fw).chains .ipv4 .filter = blank := by
  simp only [chains_applyAnchors, h, setAnchorEnabled_blank, replaceRules_blank]

theorem replaceRules_allowNets (s : Setup) (nets : List Net) :
    replaceRules .allowNets (allowRules nets) (layout s) = layout { s with allow := nets } :=
  replaceRules_layout { s with allow := nets } (by decide) rfl fun a ha => by
    cases a <;> first | rfl | exact absurd rfl ha

theorem replaceRules_blockNets (s : Setup) (nets : List Net) :
    replaceRules .blockNets (blockRules nets) (layout s) = layout { s with block := nets } :=
  replaceRules_layout { s with block := nets } (by decide) rfl fun a ha => by
    cases a <;> first | rfl | exact absurd rfl ha

theorem replaceRules_allowDNS (s : Setup) (nets : List Net) :
    replaceRules .allowDNS (nets.flatMap dnsRules) (layout s) = layout { s with dns := nets } :=
  replaceRules_layout { s with dns := nets } (by decide) rfl fun a ha => by
    cases a <;> first | rfl | exact absurd rfl ha

variable {s : Setup}

theorem applyAnchors_layout {params : FirewallParams} (h : fw.chains .ipv4 .filter = layout s) :
    (applyAnchors resolve params fw).chains .ipv4 .filter = layout (s.apply resolve params) := by
  rw [chains_applyAnchors, h]
  simp only [setAnchorEnabled_layout, replaceRules_allowNets, replaceRules_blockNets, replaceRules_allowDNS]
  congr 1
  rw [Setup.mk.injEq]
  refine ⟨?_, rfl, rfl, rfl⟩
  funext a
  cases a <;> rfl

/-! ## Whole runs -/

inductive FirewallOp
  | enableKillSwitch (resolve : Firewall.Resolver) (config : KillSwitchConfig)
  | disableKillSwitch
  | applyFirewallRules (resolve : Firewall.Resolver) (params : FirewallParams)
  | deleteInterface (running : Bool)

def FirewallOp.step : FirewallOp → Firewall → Firewall
  | .enableKillSwitch resolve config, fw => Linux.enableKillSwitch resolve config fw
  | .disableKillSwitch, fw => Linux.disableKillSwitch fw
  | .applyFirewallRules resolve params, fw => Linux.applyFirewallRules resolve params fw
  | .deleteInterface running, fw => Linux.deleteInterface running fw

def Firewall.empty : Firewall := ⟨fun _ _ => blank⟩

/-- The two forms of the IPv4 filter table. -/
def Firewall.Formed (fw : Firewall) : Prop :=
  fw.chains .ipv4 .filter = blank ∨ ∃ s, fw.chains .ipv4 .filter = layout s

theorem isInstalled_blank (h : fw.chains .ipv4 .filter = blank) : fw.isInstalled = false := by
  rw [isInstalled, h]
  rfl

theorem isInstalled_layout (h : fw.chains .ipv4 .filter = layout s) : fw.isInstalled = true := by
  rw [isInstalled, h]
  rfl

theorem uninstall_formed (h : fw.Formed) : fw.uninstall.chains .ipv4 .filter = blank := by
  rw [chains_uninstall]
  rcases h with h | ⟨s, h⟩
  · rw [h, uninstallFilter_blank]
  · rw [h, uninstallFilter_layout]

theorem applyAnchors_formed (resolve : Firewall.Resolver) (params : FirewallParams) {fw : Firewall} (h : fw.Formed) :
    (applyAnchors resolve params fw).Formed := by
  rcases h with h | ⟨s, h⟩
  · exact .inl (applyAnchors_blank h)
  · exact .inr ⟨_, applyAnchors_layout h⟩

theorem applyFirewallRules_layout (resolve : Firewall.Resolver) (params : FirewallParams) {fw : Firewall}
    (h : fw.Formed) :
    ∃ s, (applyFirewallRules resolve params fw).chains .ipv4 .filter = layout (Setup.apply resolve params s) := by
  have hi : ∃ s, (if fw.isInstalled then fw else fw.install).chains .ipv4 .filter = layout s := by
    rcases h with hb | ⟨s, hs⟩
    · rw [isInstalled_blank hb]
      exact ⟨_, install_blank (uninstall_formed (.inl hb))⟩
    · rw [isInstalled_layout hs]
      exact ⟨s, hs⟩
  obtain ⟨s, hs⟩ := hi
  refine ⟨s, applyAnchors_layout ?_⟩
  rw [ensureRootAnchorPriority, chains_script, hs]
  exact linkChainFirst_layout s

theorem FirewallOp.step_formed (op : FirewallOp) (fw : Firewall) (h : fw.Formed) : (op.step fw).Formed := by
  have hu : fw.uninstall.Formed := .inl (uninstall_formed h)
  cases op with
  | enableKillSwitch resolve config => exact applyAnchors_formed _ _ h
  | disableKillSwitch => exact hu
  | applyFirewallRules resolve params =>
    obtain ⟨s, hs⟩ := applyFirewallRules_layout resolve params h
    exact .inr ⟨_, hs⟩
  | deleteInterface running =>
    cases running with
    | false => exact h
    | true => exact hu

open FirewallOp

theorem run_formed (ops : List FirewallOp) : (run step ops .empty).Formed := run_invariant step_formed ops (.inl rfl)

/-- **Off is off.** From every state that is reached, `disableKillSwitch` leaves nothing behind and every packet passes.
-/
theorem disableKillSwitch_run (ops : List FirewallOp) (p : Packet) :
    (disableKillSwitch (run step ops .empty)).chains .ipv4 .filter = blank ∧
      (disableKillSwitch (run step ops .empty)).verdict p = .accept := by
  have hb := uninstall_formed (run_formed ops)
  exact ⟨hb, verdict_blank hb p⟩

theorem applyFirewallRules_of_layout {params : FirewallParams} (h : fw.chains .ipv4 .filter = layout s) :
    (applyFirewallRules resolve params fw).chains .ipv4 .filter = layout (s.apply resolve params) := by
  refine applyAnchors_layout ?_
  rw [isInstalled_layout h, if_pos rfl, ensureRootAnchorPriority, chains_script, h]
  exact linkChainFirst_layout s

/-- **Nothing stale.** From every state that is reached, rules that are applied over others are as if the others had not
been. -/
theorem applyFirewallRules_twice (ops : List FirewallOp) (resolve resolve' : Firewall.Resolver)
    (params params' : FirewallParams) :
    let fw := run step ops .empty
    (applyFirewallRules resolve' params' (applyFirewallRules resolve params fw)).chains .ipv4 .filter =
      (applyFirewallRules resolve' params' fw).chains .ipv4 .filter := by
  intro fw
  obtain ⟨installed, s, hs, he⟩ : ∃ installed s, installed.chains .ipv4 .filter = layout s ∧
      ∀ resolve params, applyFirewallRules resolve params fw = applyFirewallRules resolve params installed := by
    rcases run_formed ops with hb | ⟨s, hs⟩
    · have hi := install_blank (uninstall_formed (.inl hb))
      refine ⟨fw.install, _, hi, fun resolve params => ?_⟩
      rw [applyFirewallRules, applyFirewallRules, isInstalled_blank hb, isInstalled_layout hi]
      rfl
    · exact ⟨fw, s, hs, fun _ _ => rfl⟩
  rw [he, he, applyFirewallRules_of_layout (applyFirewallRules_of_layout hs), applyFirewallRules_of_layout hs]
  congr 1
  rw [Setup.apply, Setup.apply, Setup.mk.injEq]
  refine ⟨?_, rfl, rfl, rfl⟩
  funext a
  cases a <;> rfl

/-! ## Packets that only the network anchors decide -/

/-- A destination that is not exempt as LAN. -/
structure ScopedDst (dst : Nat) : Prop where
  ipv4 : dst < 2 ^ 32
  lan : ∀ n ∈ lanNets, ¬n.Contains dst

/-- A packet that is not loopback, not on `amn0*` or `tun0*`, not DNS, not DHCP and not to the LAN; loopback interfaces
are those whose names start with `lo`, as in the rule. -/
structure Packet.Scoped (p : Packet) : Prop where
  dst : ScopedDst p.dst
  loopback : lo.isPrefixOf p.out = false
  amn0 : amn0.isPrefixOf p.out = false
  tun0 : tun0.isPrefixOf p.out = false
  dns : p.protocol ≠ .other → p.dport ≠ 53
  dhcp : ¬(p.protocol = .udp ∧ p.sport = 68 ∧ p.dport = 67)

/-- A packet to `dst` that no other anchor decides. -/
def plainPacket (dst : Nat) : Packet := ⟨"eth0".toList, dst, .other, 0, 0, 0⟩

theorem plainPacket_scoped {dst : Nat} (h : ScopedDst dst) : (plainPacket dst).Scoped :=
  ⟨h, rfl, rfl, rfl, fun h => absurd rfl h, fun h => by cases h.1⟩

variable {p : Packet}

theorem decideRules_scoped (s : Setup) (hp : p.Scoped) {a : Anchor}
    (ha : a ∉ [Anchor.blockNets, .allowNets, .blockAll]) : decideRules (s.rules a) p = none := by
  apply Table.walkRules_eq_none
  intro r hr
  cases a with
  | allowLoopback =>
    obtain rfl := mem_singleton.mp hr
    simp [accept, Cond.eval, hp.loopback]
  | allowDNS =>
    obtain ⟨n, _, hr⟩ := mem_flatMap.mp hr
    simp only [dnsRules, mem_cons, not_mem_nil, or_false] at hr
    rcases hr with rfl | rfl | rfl | rfl <;> simp [accept, Cond.eval, hp.amn0, hp.tun0]
  | blockDNS =>
    have hpo : p.protocol = .other ∨ (53 == p.dport) = false := by
      by_cases h : p.protocol = .other
      · exact .inl h
      · exact .inr (beq_false_of_ne (hp.dns h).symm)
    simp only [Setup.rules, blockDNSRules, mem_cons, not_mem_nil, or_false] at hr
    rcases hpo with hpo | hpo <;> rcases hr with rfl | rfl <;> simp [reject, Cond.eval, hpo]
  | allowLAN =>
    obtain ⟨n, hn, rfl⟩ := mem_map.mp hr
    simp [accept, Cond.eval, hp.dst.lan n hn]
  | allowDHCP =>
    obtain rfl := mem_singleton.mp hr
    have hl := hp.dst.lan (net4 255 255 255 255 32) (by decide)
    simp [accept, Cond.eval, hl]
  | allowVPN =>
    simp only [Setup.rules, vpnRules, mem_cons, not_mem_nil, or_false] at hr
    rcases hr with rfl | rfl <;> simp [accept, Cond.eval, hp.amn0, hp.tun0]
  | blockNets | allowNets | blockAll => exact absurd (by decide) ha
  | allowPIA | blockIPv6 | transIp | tagPkts | vpnTunOnly => cases hr

def Reaches (nets : List Net) (dst : Nat) : Prop := ∃ n ∈ nets, n.Contains dst

instance (nets : List Net) (dst : Nat) : Decidable (Reaches nets dst) := inferInstanceAs (Decidable (∃ n ∈ nets, _))

theorem decideRules_nets (cond : Verdict) (nets : List Net) (p : Packet) :
    decideRules (nets.map fun n => ⟨{ dst := some n }, .verdict cond⟩) p =
      if Reaches nets p.dst then some cond else none := by
  rw [decideRules, Table.walkRules_verdicts (fun n : Net => ({ dst := some n } : Cond))]
  congr 1
  simp [Cond.eval, Reaches]

theorem verdict_scoped (h : fw.chains .ipv4 .filter = layout s) (hp : p.Scoped) :
    fw.verdict p = .reject ↔ (s.enabled .blockNets = true ∧ Reaches s.block p.dst) ∨
      (s.enabled .blockAll = true ∧ ¬(s.enabled .allowNets = true ∧ Reaches s.allow p.dst)) := by
  have hno : ∀ a, a ∉ [Anchor.blockNets, .allowNets, .blockAll] → decideRules (s.rules a) p = none :=
    fun a ha => decideRules_scoped s hp ha
  have hb : decideRules (s.rules .blockNets) p = if Reaches s.block p.dst then some .reject else none :=
    decideRules_nets .reject s.block p
  have hal : decideRules (s.rules .allowNets) p = if Reaches s.allow p.dst then some .accept else none :=
    decideRules_nets .accept s.allow p
  have hall : decideRules (s.rules .blockAll) p = some .reject := rfl
  rw [verdict_layout h]
  simp only [filterAnchors, findSome?_cons, findSome?_nil, hno .allowLoopback (by decide),
    hno .allowDNS (by decide), hno .blockDNS (by decide), hno .allowLAN (by decide), hno .allowDHCP (by decide),
    hno .allowVPN (by decide), ite_self, hb, hal, hall]
  by_cases h₁ : Reaches s.block p.dst <;> by_cases h₂ : Reaches s.allow p.dst <;>
    cases s.enabled .blockNets <;> cases s.enabled .allowNets <;> cases s.enabled .blockAll <;> simp [h₁, h₂]

/-! ## What `enableKillSwitch` is for -/

def Covers (resolve : Firewall.Resolver) (texts : List String) (dst : Nat) : Prop := Reaches (texts.flatMap resolve) dst

instance (resolve : Firewall.Resolver) (texts : List String) (dst : Nat) : Decidable (Covers resolve texts dst) :=
  inferInstanceAs (Decidable (Reaches _ _))

theorem covers_cons (text : String) (texts : List String) {dst : Nat} :
    Covers resolve (text :: texts) dst ↔ Covers resolve [text] dst ∨ Covers resolve texts dst := by
  simp only [Covers, Reaches, mem_flatMap, mem_cons, not_mem_nil, or_false]
  constructor
  · rintro ⟨n, ⟨t, rfl | ht, hn⟩, hc⟩
    · exact .inl ⟨n, ⟨_, rfl, hn⟩, hc⟩
    · exact .inr ⟨n, ⟨t, ht, hn⟩, hc⟩
  · rintro (⟨n, ⟨t, ht, hn⟩, hc⟩ | ⟨n, ⟨t, ht, hn⟩, hc⟩)
    · exact ⟨n, ⟨t, .inl ht, hn⟩, hc⟩
    · exact ⟨n, ⟨t, .inr ht, hn⟩, hc⟩

/-- The destinations to be rejected: with type 0 all but the server, with type 1 the sites, with type 2 all but the
server and the sites. -/
def KillSwitchConfig.Blocked (resolve : Firewall.Resolver) (config : KillSwitchConfig) (dst : Nat) : Prop :=
  (config.splitTunnelType = 0 ∧ ¬Covers resolve [config.vpnServer] dst) ∨
    (config.splitTunnelType = 1 ∧ Covers resolve config.splitTunnelSites dst) ∨
    (config.splitTunnelType = 2 ∧ ¬Covers resolve [config.vpnServer] dst ∧
      ¬Covers resolve config.splitTunnelSites dst)

/-- The firewall rejects exactly the packets to be rejected. -/
def Firewall.Meets (resolve : Firewall.Resolver) (config : KillSwitchConfig) (fw : Firewall) : Prop :=
  ∀ p : Packet, p.Scoped → (fw.verdict p = .reject ↔ config.Blocked resolve p.dst)

/-- Without the chains nothing is rejected. -/
theorem enableKillSwitch_blank (h : fw.chains .ipv4 .filter = blank) (p : Packet) :
    (enableKillSwitch resolve config fw).verdict p = .accept := verdict_blank (applyAnchors_blank h) p

theorem verdict_enableKillSwitch (h : fw.chains .ipv4 .filter = layout s) (hp : p.Scoped) :
    (enableKillSwitch resolve config fw).verdict p = .reject ↔
      (config.params.blockAll = true ∧ Covers resolve config.params.blockAddrs p.dst) ∨
      (config.params.blockAll = true ∧
        ¬(config.params.allowNets = true ∧ Covers resolve config.params.allowAddrs p.dst)) :=
  verdict_scoped (applyAnchors_layout h) hp

theorem enableKillSwitch_type_one (hfw : fw.Formed) (ht : config.splitTunnelType = 1) (hp : p.Scoped) :
    (enableKillSwitch resolve config fw).verdict p ≠ .reject := by
  have hfl : config.params.blockAll = false := by simp [KillSwitchConfig.params, ht]
  rcases hfw with h | ⟨s, h⟩
  · rw [enableKillSwitch_blank h]
    decide
  · rw [Ne, verdict_enableKillSwitch h hp, hfl]
    simp

theorem enableKillSwitch_installed (h : fw.chains .ipv4 .filter = layout s)
    (ht : config.splitTunnelType = 0 ∨ config.splitTunnelType = 2) :
    (enableKillSwitch resolve config fw).Meets resolve config := by
  have hno : ∀ dst, ¬Covers resolve [] dst := fun dst h => by simp [Covers, Reaches] at h
  intro p hp
  rw [verdict_enableKillSwitch h hp]
  rcases ht with ht | ht
  · simp [KillSwitchConfig.params, KillSwitchConfig.Blocked, ht, hno]
  · simp [KillSwitchConfig.params, KillSwitchConfig.Blocked, ht, hno, covers_cons _ config.splitTunnelSites]

/-- **Where `enableKillSwitch` does what it is for**, after any history of the two users: with type 0 or 2 where the
firewall is installed already, and otherwise only where nothing is to be rejected. -/
theorem enableKillSwitch_meets_iff (ops : List FirewallOp) (resolve : Firewall.Resolver) (config : KillSwitchConfig)
    (htype : config.splitTunnelType ∈ [(0 : Int), 1, 2]) :
    (enableKillSwitch resolve config (run step ops .empty)).Meets resolve config ↔
      (config.splitTunnelType ≠ 1 ∧ (run step ops .empty).isInstalled = true) ∨
        ∀ dst, ScopedDst dst → ¬config.Blocked resolve dst := by
  generalize hfw : run step ops .empty = fw
  have hfo : fw.Formed := hfw ▸ run_formed ops
  -- a firewall that rejects nothing
  have hsi : (∀ p : Packet, p.Scoped → (enableKillSwitch resolve config fw).verdict p ≠ .reject) →
      ((enableKillSwitch resolve config fw).Meets resolve config ↔
        ∀ dst, ScopedDst dst → ¬config.Blocked resolve dst) := by
    intro hsi
    constructor
    · intro hm dst hd hbl
      have hp := plainPacket_scoped hd
      exact hsi _ hp ((hm _ hp).mpr hbl)
    · intro he p hp
      exact iff_of_false (hsi p hp) (he p.dst hp.dst)
  by_cases ho : config.splitTunnelType = 1
  · rw [hsi fun p hp => enableKillSwitch_type_one hfo ho hp]
    simp [ho]
  · rcases hfo with hb | ⟨s, hs⟩
    · rw [hsi fun p _ => by rw [enableKillSwitch_blank hb]; decide, isInstalled_blank hb]
      simp
    · have ht : config.splitTunnelType = 0 ∨ config.splitTunnelType = 2 := by
        simp only [mem_cons, not_mem_nil, or_false] at htype
        tauto
      exact iff_of_true (enableKillSwitch_installed hs ht) (.inl ⟨ho, isInstalled_layout hs⟩)

/-- `203.0.113.1` and `198.51.100.7` are read as themselves. -/
def sampleResolve : Firewall.Resolver
  | "203.0.113.1" => [net4 203 0 113 1 32]
  | "198.51.100.7" => [net4 198 51 100 7 32]
  | _ => []

def sampleConfig (splitTunnelType : Int) : KillSwitchConfig :=
  ⟨splitTunnelType, ["198.51.100.7"], "203.0.113.1", "1.1.1.1", "1.0.0.1"⟩

theorem scopedDst_site : ScopedDst (net4 198 51 100 7 32).addr := ⟨by decide, by decide⟩

theorem enableKillSwitch_meets_after_wireguard :
    (0 : Int) ∈ [(0 : Int), 1, 2] ∧ (enableKillSwitch sampleResolve (sampleConfig 0)
      (run step [.applyFirewallRules sampleResolve {}] .empty)).Meets sampleResolve (sampleConfig 0) := by
  obtain ⟨s, hs⟩ := applyFirewallRules_layout sampleResolve {} (run_formed [])
  exact ⟨by decide, (enableKillSwitch_meets_iff [.applyFirewallRules sampleResolve {}] sampleResolve (sampleConfig 0)
    (by decide)).mpr (.inl ⟨by decide, isInstalled_layout hs⟩)⟩

/-- From a clean start type 0 lets a packet to another host through, and type 1 one to a listed site even after a
WireGuard session has installed the chains. -/
theorem enableKillSwitch_lets_through :
    ¬(enableKillSwitch sampleResolve (sampleConfig 0) .empty).Meets sampleResolve (sampleConfig 0) ∧
      ¬(enableKillSwitch sampleResolve (sampleConfig 1)
        (run step [.applyFirewallRules sampleResolve {}] .empty)).Meets sampleResolve (sampleConfig 1) := by
  have hp := plainPacket_scoped scopedDst_site
  constructor
  · intro h
    have hb : (sampleConfig 0).Blocked sampleResolve (net4 198 51 100 7 32).addr := .inl ⟨rfl, by decide⟩
    have hr := (h _ hp).mpr hb
    rw [enableKillSwitch_blank rfl] at hr
    cases hr
  · intro h
    have hb : (sampleConfig 1).Blocked sampleResolve (net4 198 51 100 7 32).addr := .inr (.inl ⟨rfl, by decide⟩)
    exact enableKillSwitch_type_one (run_formed _) rfl hp ((h _ hp).mpr hb)

end Cimogus.Linux
