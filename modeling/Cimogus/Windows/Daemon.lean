import Cimogus.Daemon.Platforms
import Cimogus.Windows.Bookkeeping

/-!
# The daemon on Windows with its firewall

`WireguardUtilsWindows` calls the firewall on the way and does not look at what it returns. The daemon therefore reports
a connection that the filters do not protect, whatever the filtering platform answers.
-/

namespace Cimogus.Windows

open Lib Daemon Daemon.State

/-- What the filtering platform answers during a command, in which each function of the firewall is called once at most,
and `disablePeerTraffic` once for a key. -/
structure Answers where
  killSwitch : KillSwitchAnswers
  peer : PeerAnswers
  disablePeer : String → Bounds
  disable : Bounds

abbrev System := Backend × Firewall

section WireguardUtils

variable (qt : Qt) (host : Host) (a : Answers)

/-- The kill switch is enabled once the interface is there. -/
def addInterface (r : Reply) (config : InterfaceConfig) : Step System :=
  .seq (.onFst (Kind.windows.addInterface qt r config)) <|
  .ignore (if config.killSwitchEnabled then .onSnd (Firewall.enableKillSwitch a.killSwitch host) else .skip)

def deleteInterface (r : Reply) : Step System :=
  .seq (.ignore (.onSnd (Firewall.disableKillSwitch a.disable))) (.onFst (Kind.windows.deleteInterface r))

def updatePeer (r : Reply) (config : InterfaceConfig) : Step System :=
  .seq (.ignore (if config.killSwitchEnabled then .onSnd (Firewall.enablePeerTraffic a.peer qt config) else .skip)) <|
  .onFst (Kind.windows.updatePeer qt r config)

def deletePeer (r : Reply) (config : InterfaceConfig) : Step System :=
  .seq (.onFst (Kind.windows.serverRoutes qt Kind.windows.deleteRoute r config)) <|
  .seq (.ignore (.onSnd (Firewall.disablePeerTraffic (a.disablePeer config.serverPublicKey) config.serverPublicKey))) <|
  .onFst (Kind.windows.uapi r fun b => { b with peers := b.peers.erase config.serverPublicKey })

end WireguardUtils

/-- `WindowsDaemon` with `WireguardUtilsWindows`, over the same host as without the firewall. -/
def windows (qt : Qt) (host : Host) (a : Answers) : Platform System where
  interfaceExists x := x.1.running
  addInterface := addInterface qt host a
  deleteInterface := deleteInterface a
  updatePeer := updatePeer qt a
  deletePeer := deletePeer qt a
  updateRoutePrefix r ip := .onFst (Kind.windows.updateRoutePrefix r ip)
  deleteRoutePrefix r ip := .onFst (Kind.windows.deleteRoutePrefix r ip)
  addExclusionRoute r ip := .onFst (Kind.windows.addExclusionRoute r ip)
  deleteExclusionRoute r ip := .onFst (Kind.windows.deleteExclusionRoute r ip)
  supportDnsUtils := true
  updateResolvers r resolvers := .onFst (Kind.updateResolvers r resolvers)
  restoreResolvers r := .onFst (Kind.restoreResolvers r)
  supportIPUtils := false
  addInterfaceIPs r _ := .onFst (Kind.ask r)
  setMTUAndUp r _ := .onFst (Kind.ask r)
  run _ _ _ := .skip

/-! ## What an activation leaves in the engine -/

variable {config : InterfaceConfig}

section Fresh

variable {qt : Qt} {host : Host} {a : Answers}

theorem keeps_addExclusions_firewall (r : Nat → Reply) (config : InterfaceConfig) :
    Step.Keeps (fun d : State System => d.backend.2) (addExclusions (windows qt host a) qt r config) := by
  refine .each (fun n text d => ?_) _
  have ha : Step.Keeps (fun d : State System => d.backend.2)
      (Step.seq (onBackend ((windows qt host a).addExclusionRoute (r n) (IPAddress.ofText qt text)))
        (.update fun d => { d with excludedAddrSet := IPAddress.ofText qt text :: d.excludedAddrSet })) :=
    .seq (fun _ => rfl) (.update fun _ => rfl)
  rw [addExclusionRoute]
  split
  · rfl
  · exact ha d

theorem keeps_maybeUpdateResolvers_firewall (r : Reply) (config : InterfaceConfig) :
    Step.Keeps (fun d : State System => d.backend.2) (maybeUpdateResolvers (windows qt host a) qt r config) := by
  unfold maybeUpdateResolvers
  split
  · exact .skip
  split
  · exact fun _ => rfl
  · exact .skip

variable (hkill : config.killSwitchEnabled = true)

include hkill

variable {d : State System}

/-- The firewall when the interface is there. -/
theorem bringUp_firewall {r : Reply}
    (h : (bringUp (windows qt host a) r config d).1 = true) : (bringUp (windows qt host a) r config d).2.backend.2 =
      if d.backend.1.running then d.backend.2 else (d.backend.2.enableKillSwitch a.killSwitch host).2 := by
  cases hrunning : d.backend.1.running with
  | true =>
    have hs : bringUp (windows qt host a) r config d = (true, d) := if_pos hrunning
    rw [hs]
    rfl
  | false =>
    have ha : bringUp (windows qt host a) r config d = onBackend (addInterface qt host a r config) d :=
      if_neg (by simp [windows, hrunning])
    rw [ha] at h ⊢
    have hok : (addInterface qt host a r config d.backend).1 = true := h
    obtain ⟨_, heq⟩ := Step.seq_eq_true hok
    show (addInterface qt host a r config d.backend).2.2 = _
    rw [addInterface, heq, hkill]
    rfl

theorem configure_firewall {r : FreshReplies} :
    (configure (windows qt host a) qt r config d).2.backend.2 = (d.backend.2.enablePeerTraffic a.peer qt config).2 := by
  have hrest : Step.Keeps (fun d : State System => d.backend.2)
      (.seq (maybeUpdateResolvers (windows qt host a) qt r.updateResolvers config) <|
        .seq (addresses (windows qt host a) r config) <|
        .seq (.all (fun n ip => onBackend ((windows qt host a).updateRoutePrefix (r.updateRoutePrefix n) ip))
          config.allowedIPAddressRanges) <|
        onBackend ((windows qt host a).run r.run .Up config)) :=
    .seq (keeps_maybeUpdateResolvers_firewall _ _) <| .seq .skip <| .seq (.all (fun _ _ _ => rfl) _) fun _ => rfl
  have hp := Step.Keeps.seq_snd hrest (onBackend ((windows qt host a).updatePeer r.updatePeer config)) d
  rw [configure, hp]
  show (updatePeer qt a r.updatePeer config d.backend).2.2 = _
  rw [updatePeer, hkill]
  rfl

theorem activateFresh_firewall {r : FreshReplies} (h : (activateFresh (windows qt host a) qt r config d).1 = true) :
    (activateFresh (windows qt host a) qt r config d).2.backend.2 = (Firewall.enablePeerTraffic a.peer qt config
        (if d.backend.1.running then d.backend.2 else (d.backend.2.enableKillSwitch a.killSwitch host).2)).2 := by
  rcases activateFresh_cases (windows qt host a) qt r config d
    with ⟨hup, heq⟩ | ⟨_, hfa, heq⟩ | ⟨hup, _, heq⟩
  · rw [heq, hup] at h
    cases h
  · rw [heq, hfa] at h
    cases h
  · have he : (excluding (windows qt host a) qt r config d).backend.2 = _ :=
      (keeps_addExclusions_firewall _ _ _).trans (bringUp_firewall hkill hup)
    rw [heq, ← he]
    exact configure_firewall hkill

omit hkill

/-- A clean-up goes through in a fresh activation. -/
def Answers.cleans (a : Answers) (qt : Qt) (host : Host) (config : InterfaceConfig) (x : System) : Bool :=
  (!x.1.running && a.killSwitch.cleans host) || a.peer.cleans (peerFilters qt config).length

/-- The filter was in the engine before, and no clean-up goes through or its id is on neither list. -/
def Stays (a : Answers) (qt : Qt) (host : Host) (config : InterfaceConfig) (x : System) (f : Filter) : Prop :=
  f ∈ x.2.strays ∨ (f ∈ x.2.filters ∧ a.cleans qt host config x = false)

/-- The filter is added in a transaction that is committed, and no clean-up goes through after it. -/
def Added (a : Answers) (qt : Qt) (host : Host) (config : InterfaceConfig) (x : System) (f : Filter) : Prop :=
  (x.1.running = false ∧ f ∈ a.killSwitch.leaves host ∧ a.peer.cleans (peerFilters qt config).length = false) ∨
    (f ∈ peerFilters qt config ∧ a.peer.passes (peerFilters qt config).length = true)

/-- The strays are in the engine. -/
theorem Firewall.mem_filters_of_strays {w : Firewall} {f : Filter} (h : f ∈ w.strays) : f ∈ w.filters := by
  obtain ⟨e, he, heq⟩ := List.mem_map.mp h
  exact List.mem_map.mpr ⟨e, List.mem_of_mem_filter he, heq⟩

/-- The filters after the two functions. -/
theorem mem_filters_iff (config : InterfaceConfig) (x : System) (f : Filter) :
    f ∈ (Firewall.enablePeerTraffic a.peer qt config
        (if x.1.running then x.2 else (x.2.enableKillSwitch a.killSwitch host).2)).2.filters ↔
      Stays a qt host config x f ∨ Added a qt host config x f := by
  have hs : f ∈ x.2.strays → f ∈ x.2.filters := Firewall.mem_filters_of_strays
  unfold Stays Added Answers.cleans
  cases x.1.running with
  | true =>
    have hp := Firewall.enablePeerTraffic_evolves a.peer qt config x.2
    rw [if_pos rfl, hp.filters]
    cases a.peer.cleans (peerFilters qt config).length <;> cases a.peer.passes (peerFilters qt config).length <;>
      simp <;> tauto
  | false =>
    have hb := (Firewall.enableKillSwitch_evolves a.killSwitch host x.2).trans
      (Firewall.enablePeerTraffic_evolves a.peer qt config _)
    rw [if_neg (by decide), hb.filters]
    cases a.killSwitch.cleans host <;> cases a.peer.cleans (peerFilters qt config).length <;>
      cases a.peer.passes (peerFilters qt config).length <;> simp <;> tauto

/-- **When a fresh activation fails closed.** A fresh activation with the kill switch that succeeds, whatever the
filtering platform answers on the way, leaves all the filters of `enableKillSwitch` and `enablePeerTraffic` in the
engine exactly when each of them is added for good by one of the two, or was there before and stays. -/
theorem activate_failsClosed_iff {r : Replies} {config : InterfaceConfig} {d : State System}
    (hkill : config.killSwitchEnabled = true) (hfresh : d.connections config.hopType = none)
    (h : (activate (windows qt host a) qt r config d).1 = true) :
        (∀ f ∈ killSwitchFilters host ++ peerFilters qt config,
        f ∈ (activate (windows qt host a) qt r config d).2.backend.2.filters) ↔
      ∀ f ∈ killSwitchFilters host ++ peerFilters qt config,
        Stays a qt host config d.backend f ∨ Added a qt host config d.backend f := by
  have ha : activate (windows qt host a) qt r config d = activateFresh (windows qt host a) qt r.fresh config d := by
    unfold activate
    rw [hfresh]
  rw [ha] at h ⊢
  rw [activateFresh_firewall hkill h]
  exact forall₂_congr fun f _ => mem_filters_iff config d.backend f

end Fresh

/-! ## Examples -/

def sampleHost : Host where
  currentPath := "ZloVPN.exe"
  baseName _ := "ZloVPN"
  appId path := path
  loopbacks := [(1, "lo")]
  ifindex := 12

def idleSystem : State System := .fresh (.idle, .fresh)

/-- No transaction begins at first, or all goes well. -/
def answersFrom (begins : Bool) : Answers where
  killSwitch := ⟨fun _ => ⟨⟨begins, true⟩, fun _ => true⟩, true, .ok⟩
  peer := ⟨⟨⟨begins, true⟩, fun _ => true⟩, .ok⟩
  disablePeer _ := .ok
  disable := .ok

def sampleActivation (begins : Bool) : Bool × State System :=
  activate (windows Linux.sampleQt sampleHost (answersFrom begins)) Linux.sampleQt .ok
    (Linux.sampleInterface [⟨.ipv4 0, 0⟩]) idleSystem

theorem sampleActivation_failsClosed : (sampleActivation true).1 = true ∧
      ∀ f ∈ killSwitchFilters sampleHost ++ peerFilters Linux.sampleQt (Linux.sampleInterface [⟨.ipv4 0, 0⟩]),
        f ∈ (sampleActivation true).2.backend.2.filters := by
  refine ⟨by decide, (activate_failsClosed_iff rfl rfl (by decide)).mpr fun f hf => .inr ?_⟩
  rcases List.mem_append.mp hf with hf | hf
  · exact .inl ⟨rfl, hf, by decide⟩
  · exact .inr ⟨hf, by decide⟩

/-- The activation succeeds where no transaction begins, without any filter. -/
theorem sampleActivation_fails_open :
    (Linux.sampleInterface [⟨.ipv4 0, 0⟩]).killSwitchEnabled = true ∧ (sampleActivation false).1 = true ∧
      (sampleActivation false).2.backend.2.filters = [] ∧
      ¬∀ f ∈ killSwitchFilters sampleHost ++ peerFilters Linux.sampleQt (Linux.sampleInterface [⟨.ipv4 0, 0⟩]),
        f ∈ (sampleActivation false).2.backend.2.filters := by
  have hno : (sampleActivation false).2.backend.2.filters = [] := by decide
  refine ⟨rfl, by decide, hno, fun h => ?_⟩
  rw [hno] at h
  exact absurd (h _ List.mem_cons_self) List.not_mem_nil

end Cimogus.Windows
