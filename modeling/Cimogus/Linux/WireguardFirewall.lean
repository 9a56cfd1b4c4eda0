import Cimogus.Daemon.Config
import Cimogus.Linux.KillSwitch

/-!
# The firewall of a WireGuard interface

`WireguardUtilsLinux::addInterface` computes the firewall's parameters from the configuration (`firewallParams`) and
applies them when the kill switch is enabled. With the range `0.0.0.0/0` everything is blocked but the excluded
addresses; with any other list of ranges these ranges are blocked, and the excluded addresses play no part.
-/

namespace Cimogus.Daemon.IPAddress

def net4 : IPAddress → Option Linux.Net
  | ⟨.ipv4 a, n⟩ => if 0 ≤ n ∧ n ≤ 32 then some ⟨32, a.toNat, n.toNat⟩ else none
  | _ => none

end Cimogus.Daemon.IPAddress

namespace Cimogus.Linux

open Lib.Runs Daemon

/-- The parameters that `WireguardUtilsLinux::addInterface` applies. -/
def firewallParams (qt : Qt) (config : InterfaceConfig) : FirewallParams :=
  let params : FirewallParams := { dnsServers := [config.dnsServer] }
  if config.allowedIPAddressRanges.contains (IPAddress.ofText qt "0.0.0.0/0") then
    let params := { params with blockAll := true }
    if config.excludedAddresses.length ≠ 0 then
      { params with allowNets := true, allowAddrs := config.excludedAddresses }
    else params
  else { params with blockNets := true, blockAddrs := config.allowedIPAddressRanges.map (IPAddress.toText qt) }

/-- What Qt and `iptables` make of the texts of the ranges: `iptables` reads the text of an IPv4 network back as that
network, and refuses the texts of other addresses. -/
structure ReadsRanges (qt : Qt) (resolve : Firewall.Resolver) (config : InterfaceConfig) : Prop where
  any : IPAddress.ofText qt "0.0.0.0/0" = ⟨.ipv4 0, 0⟩
  range : ∀ ip ∈ config.allowedIPAddressRanges, resolve (ip.toText qt) = ip.net4.toList

def Allowed (config : InterfaceConfig) (dst : Nat) : Prop :=
  ∃ ip ∈ config.allowedIPAddressRanges, ∃ n ∈ ip.net4, n.Contains dst

/-- The destination has to be reached through the tunnel. -/
def Tunnelled (resolve : Firewall.Resolver) (config : InterfaceConfig) (dst : Nat) : Prop :=
  Allowed config dst ∧ ¬Covers resolve config.excludedAddresses dst

/-- The firewall rejects exactly the packets that have to go through the tunnel. -/
def Firewall.Enforces (resolve : Firewall.Resolver) (config : InterfaceConfig) (fw : Firewall) : Prop :=
  ∀ p : Packet, p.Scoped → (fw.verdict p = .reject ↔ Tunnelled resolve config p.dst)

/-- Every IPv4 address lies in the default range. -/
theorem allowed_any {config : InterfaceConfig} (h : ⟨.ipv4 0, 0⟩ ∈ config.allowedIPAddressRanges) {dst : Nat}
    (hd : dst < 2 ^ 32) : Allowed config dst := ⟨_, h, ⟨32, 0, 0⟩, rfl, by simpa [Net.Contains] using hd⟩

theorem covers_ranges {qt : Qt} {resolve : Firewall.Resolver} {config : InterfaceConfig}
    (hr : ReadsRanges qt resolve config) (dst : Nat) :
    Covers resolve (config.allowedIPAddressRanges.map (IPAddress.toText qt)) dst ↔ Allowed config dst := by
  constructor
  · rintro ⟨n, hn, hc⟩
    obtain ⟨text, ht, hn⟩ := List.mem_flatMap.mp hn
    obtain ⟨ip, hip, rfl⟩ := List.mem_map.mp ht
    rw [hr.range ip hip, Option.mem_toList] at hn
    exact ⟨ip, hip, n, hn, hc⟩
  · rintro ⟨ip, hip, n, hn, hc⟩
    refine ⟨n, List.mem_flatMap.mpr ⟨_, List.mem_map_of_mem hip, ?_⟩, hc⟩
    rw [hr.range ip hip, Option.mem_toList]
    exact hn

section Verdicts

variable {qt : Qt} {resolve : Firewall.Resolver} {config : InterfaceConfig} {fw : Firewall}

theorem verdict_applyFirewallRules (params : FirewallParams) (hfw : fw.Formed) {p : Packet} (hp : p.Scoped) :
    (applyFirewallRules resolve params fw).verdict p = .reject ↔
      (params.blockNets = true ∧ Covers resolve params.blockAddrs p.dst) ∨
      (params.blockAll = true ∧ ¬(params.allowNets = true ∧ Covers resolve params.allowAddrs p.dst)) := by
  obtain ⟨s, hs⟩ := applyFirewallRules_layout resolve params hfw
  exact verdict_scoped hs hp

theorem enforces_of_any (hr : ReadsRanges qt resolve config) (hfw : fw.Formed)
    (han : ⟨.ipv4 0, 0⟩ ∈ config.allowedIPAddressRanges) :
    (applyFirewallRules resolve (firewallParams qt config) fw).Enforces resolve config := by
  intro p hp
  have ha := allowed_any han hp.dst.ipv4
  have hc : config.allowedIPAddressRanges.contains (IPAddress.ofText qt "0.0.0.0/0") = true := by
    rw [hr.any]
    simpa using han
  rw [verdict_applyFirewallRules _ hfw hp, Tunnelled, firewallParams, if_pos hc]
  cases he : config.excludedAddresses with
  | nil => simp [Covers, Reaches, ha]
  | cons e es => simp [ha]

theorem verdict_of_ranges (hr : ReadsRanges qt resolve config) (hfw : fw.Formed)
    (ha : ⟨.ipv4 0, 0⟩ ∉ config.allowedIPAddressRanges) {p : Packet} (hp : p.Scoped) :
    (applyFirewallRules resolve (firewallParams qt config) fw).verdict p = .reject ↔ Allowed config p.dst := by
  have hc : ¬config.allowedIPAddressRanges.contains (IPAddress.ofText qt "0.0.0.0/0") = true := by
    rw [hr.any]
    simpa using ha
  rw [verdict_applyFirewallRules _ hfw hp, firewallParams, if_neg hc, covers_ranges hr]
  simp

/-- **Where the kill switch of an interface blocks exactly what has to be tunnelled**, after any history of the
firewall. -/
theorem firewallParams_enforced_iff (ops : List FirewallOp) (hreads : ReadsRanges qt resolve config) :
    (applyFirewallRules resolve (firewallParams qt config) (run FirewallOp.step ops .empty)).Enforces resolve config ↔
      ⟨.ipv4 0, 0⟩ ∈ config.allowedIPAddressRanges ∨
        ∀ dst, ScopedDst dst → Allowed config dst → ¬Covers resolve config.excludedAddresses dst := by
  have hfw := run_formed ops
  by_cases han : ⟨.ipv4 0, 0⟩ ∈ config.allowedIPAddressRanges
  · exact iff_of_true (enforces_of_any hreads hfw han) (.inl han)
  · constructor
    · intro h
      refine .inr fun dst hd ha => ?_
      have hp := plainPacket_scoped hd
      exact ((h _ hp).mp ((verdict_of_ranges hreads hfw han hp).mpr ha)).2
    · rintro (h | h) p hp
      · exact absurd h han
      · rw [verdict_of_ranges hreads hfw han hp]
        exact ⟨fun ha => ⟨ha, h p.dst hp.dst ha⟩, And.left⟩

end Verdicts

/-! ## An example -/

def sampleQt : Qt where
  hostAddress _ := .null
  parseSubnet
    | "0.0.0.0/0" => (.ipv4 0, 0)
    | _ => (.null, -1)
  hostText
    | .ipv4 a => if a = 0 then "0.0.0.0" else "128.0.0.0"
    | _ => ""

def rangeResolve : Firewall.Resolver
  | "0.0.0.0/0" => [net4 0 0 0 0 0]
  | "0.0.0.0/1" => [net4 0 0 0 0 1]
  | "128.0.0.0/1" => [net4 128 0 0 0 1]
  | "203.0.113.1" => [net4 203 0 113 1 32]
  | _ => []

/-- The server's address is excluded, as the client always does. -/
def sampleInterface (ranges : List IPAddress) : InterfaceConfig where
  hopType := .singleHop
  privateKey := "key"
  deviceIpv4Address := "10.8.0.2"
  deviceIpv6Address := "fd58:baa6:dead::1"
  serverIpv4Gateway := "203.0.113.1"
  serverIpv6Gateway := ""
  serverPublicKey := "peer"
  serverIpv4AddrIn := "203.0.113.1"
  serverIpv6AddrIn := ""
  dnsServer := "1.1.1.1"
  allowedIPAddressRanges := ranges
  excludedAddresses := ["203.0.113.1"]
  killSwitchEnabled := true
  junk := ⟨"", "", "", "", "", "", "", "", ""⟩

theorem readsRanges_any : ReadsRanges sampleQt rangeResolve (sampleInterface [⟨.ipv4 0, 0⟩]) :=
  ⟨by decide, by decide⟩

def halves : List IPAddress := [⟨.ipv4 0, 1⟩, ⟨.ipv4 0x80000000, 1⟩]

theorem readsRanges_halves : ReadsRanges sampleQt rangeResolve (sampleInterface halves) := ⟨by decide, by decide⟩

theorem firewallParams_enforced_any : ReadsRanges sampleQt rangeResolve (sampleInterface [⟨.ipv4 0, 0⟩]) ∧
    (applyFirewallRules rangeResolve (firewallParams sampleQt (sampleInterface [⟨.ipv4 0, 0⟩]))
      (run FirewallOp.step [] .empty)).Enforces rangeResolve (sampleInterface [⟨.ipv4 0, 0⟩]) :=
  ⟨readsRanges_any, (firewallParams_enforced_iff [] readsRanges_any).mpr (.inl List.mem_cons_self)⟩

/-- With the two halves as ranges, packets to the server itself are rejected. -/
theorem halves_reject_server :
    ¬(applyFirewallRules rangeResolve (firewallParams sampleQt (sampleInterface halves)) .empty).Enforces rangeResolve
        (sampleInterface halves) ∧
      (applyFirewallRules rangeResolve (firewallParams sampleQt (sampleInterface halves)) .empty).verdict
        (plainPacket (net4 203 0 113 1 32).addr) = .reject := by
  have hp : (plainPacket (net4 203 0 113 1 32).addr).Scoped := plainPacket_scoped ⟨by decide, by decide⟩
  have ha : Allowed (sampleInterface halves) (net4 203 0 113 1 32).addr :=
    ⟨⟨.ipv4 0x80000000, 1⟩, by decide, net4 128 0 0 0 1, by decide, by decide⟩
  have hr := (verdict_of_ranges readsRanges_halves (run_formed []) (by decide) hp).mpr ha
  refine ⟨fun h => ?_, hr⟩
  have ht := (h _ hp).mp hr
  exact ht.2 (by decide)

end Cimogus.Linux
