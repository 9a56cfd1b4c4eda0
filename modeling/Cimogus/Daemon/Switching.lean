import Cimogus.Daemon.Platforms

/-!
# Exclusion routes over a server switch

An exclusion route has two owners: the daemon, which counts the prefixes in `m_excludedAddrSet`, and the peer, for which
the platform adds the server's addresses without counting. A switch first adds what the new configuration needs, then
takes away what the old one had.
-/

namespace Cimogus.Daemon

open Lib IPAddress List

def serverKeys (qt : Qt) (config : InterfaceConfig) : List IPAddress := (Kind.serverTexts config).map (ofText qt)

def serverAddress (qt : Qt) (config : InterfaceConfig) : IPAddress :=
  ofText qt (if config.serverIpv4AddrIn ≠ "" then config.serverIpv4AddrIn else config.serverIpv6AddrIn)

def Monitored (k : Kind) (b : Backend) : Prop := (k = .windows || b.monitor) = true

instance (k : Kind) (b : Backend) : Decidable (Monitored k b) := inferInstanceAs (Decidable (_ = _))

variable {d : State Backend} {b : Backend}

namespace Kind

variable (k : Kind) (qt : Qt)

/-! ## One route -/

variable {k} in
theorem monitored_eq (hm : Monitored k b) (s : Step Backend) : k.monitored s b = s b := if_pos hm

theorem addRoute_ok (ip : IPAddress) (b : Backend) : k.addRoute .ok ip b =
      if k.accepts ip b then (true, { b with exclusionRoutes := insert ip b.exclusionRoutes }) else (false, b) := by
  cases k <;> cases h : accepts _ ip b <;> simp [addRoute, h]

theorem mem_addRoute (ip p : IPAddress) (b : Backend) :
    p ∈ (k.addRoute .ok ip b).2.exclusionRoutes ↔ p ∈ b.exclusionRoutes ∨ (p = ip ∧ k.sends p = true) := by
  rw [addRoute_ok]
  cases k with
  | linux =>
    cases h : sends .linux ip with
    | true => simp only [accepts, h, if_true, Finset.mem_insert]; grind
    | false => simp only [accepts, h]; grind
  | macos | windows =>
    by_cases h : ip ∈ b.exclusionRoutes
    · simp [accepts, sends, h]; grind
    · simp [accepts, sends, h]; grind

theorem mem_deleteRoute (ip p : IPAddress) (b : Backend) :
    p ∈ (k.deleteRoute .ok ip b).2.exclusionRoutes ↔
    p ∈ b.exclusionRoutes ∧ ¬(p = ip ∧ k.sends p = true) := by
  cases k with
  | linux =>
    cases h : sends .linux ip with
    | true => simp only [deleteRoute, h, Reply.request_ok, Bool.and_self, if_true, Finset.mem_erase]; grind
    | false => simp only [deleteRoute, h]; grind
  | macos | windows => simp [deleteRoute, sends]; grind

/-! ## The routes of a peer -/

variable {config : InterfaceConfig}

theorem mem_serverRoutes_add (hm : Monitored k b) (hh : config.hopType ≠ .multiHopExit)
    (p : IPAddress) : p ∈ (k.serverRoutes qt k.addRoute .ok config b).2.exclusionRoutes ↔
      p ∈ b.exclusionRoutes ∨ (p ∈ serverKeys qt config ∧ k.sends p = true) := by
  have hr : k.serverRoutes qt k.addRoute .ok config b =
      Step.each (fun _ text => k.addRoute .ok (ofText qt text)) (serverTexts config) b := by
    rw [serverRoutes, if_neg hh]
    exact if_pos hm
  rw [hr]
  simp only [serverTexts, Step.each_cons, Step.each_nil, Step.skip_apply, mem_addRoute, serverKeys, map_cons,
    map_nil, mem_cons, not_mem_nil, or_false]
  grind

theorem mem_serverRoutes_delete (hm : Monitored k b) (hh : config.hopType ≠ .multiHopExit)
    (p : IPAddress) : p ∈ (k.serverRoutes qt k.deleteRoute .ok config b).2.exclusionRoutes ↔
      p ∈ b.exclusionRoutes ∧ ¬(p ∈ serverKeys qt config ∧ k.sends p = true) := by
  have hr : k.serverRoutes qt k.deleteRoute .ok config b =
      Step.each (fun _ text => k.deleteRoute .ok (ofText qt text)) (serverTexts config) b := by
    rw [serverRoutes, if_neg hh]
    exact if_pos hm
  rw [hr]
  simp only [serverTexts, Step.each_cons, Step.each_nil, Step.skip_apply, mem_deleteRoute, serverKeys, map_cons,
    map_nil, mem_cons, not_mem_nil, or_false]
  grind

theorem serverRoutes_fst (g : Reply → IPAddress → Step Backend) (r : Reply) (config : InterfaceConfig)
    (b : Backend) :
    (k.serverRoutes qt g r config b).1 = true := by
  unfold serverRoutes
  split
  · rfl
  · rw [Step.ite]
    split
    · exact Step.each_fst ..
    · rfl

theorem mem_updatePeer (hm : Monitored k b) (hh : config.hopType ≠ .multiHopExit)
    (h : (k.updatePeer qt .ok config b).1 = true) (p : IPAddress) :
      p ∈ (k.updatePeer qt .ok config b).2.exclusionRoutes ↔
      p ∈ b.exclusionRoutes ∨ (p ∈ serverKeys qt config ∧ k.sends p = true) := by
  unfold updatePeer at h ⊢
  split at h
  · cases h
  · rename_i he
    rw [if_neg he, Step.seq_of_true (serverRoutes_fst ..), ← mem_serverRoutes_add k qt hm hh]
    rfl

theorem mem_deletePeer (hm : Monitored k b) (hh : config.hopType ≠ .multiHopExit)
    (p : IPAddress) : p ∈ (k.deletePeer qt .ok config b).2.exclusionRoutes ↔
      p ∈ b.exclusionRoutes ∧ ¬(p ∈ serverKeys qt config ∧ k.sends p = true) := by
  rw [deletePeer, Step.seq_of_true (serverRoutes_fst ..), ← mem_serverRoutes_delete k qt hm hh]
  rfl

end Kind

namespace State

variable {k : Kind} {qt : Qt}

/-! ## Adding exclusions -/

/-- The daemon counts a request for the prefix: it counts it already, or the monitor takes it. -/
def Counted (k : Kind) (p : IPAddress) (d : State Backend) : Prop :=
  p ∈ d.excludedAddrSet ∨ k.accepts p d.backend = true

instance (p : IPAddress) (d : State Backend) : Decidable (Counted k p d) := inferInstanceAs (Decidable (_ ∨ _))

theorem addExclusionRoute_ok (hm : Monitored k d.backend) (ip : IPAddress) :
    addExclusionRoute (platform k qt) .ok ip d =
      if ip ∈ d.excludedAddrSet then (true, { d with excludedAddrSet := ip :: d.excludedAddrSet })
      else if k.accepts ip d.backend then
        (true, { d with excludedAddrSet := ip :: d.excludedAddrSet
                        backend := { d.backend with exclusionRoutes := insert ip d.backend.exclusionRoutes } })
      else (false, d) := by
  have hc : (platform k qt).addExclusionRoute .ok ip d.backend = k.addRoute .ok ip d.backend := Kind.monitored_eq hm _
  rw [addExclusionRoute]
  split
  · rfl
  · cases h : k.accepts ip d.backend <;> simp [Step.seq, onBackend_apply, hc, Kind.addRoute_ok, h]

section AddOne

variable {d : State Backend} (hm : Monitored k d.backend) (ip p : IPAddress)

include hm

theorem monitored_addExclusionRoute : Monitored k (addExclusionRoute (platform k qt) .ok ip d).2.backend := by
  rw [addExclusionRoute_ok hm]
  split
  · exact hm
  split <;> exact hm

theorem mem_addExclusionRoute : p ∈ (addExclusionRoute (platform k qt) .ok ip d).2.backend.exclusionRoutes ↔
    p ∈ d.backend.exclusionRoutes ∨ (p = ip ∧ p ∉ d.excludedAddrSet ∧ k.sends p = true) := by
  have hr := k.mem_addRoute ip p d.backend
  rw [Kind.addRoute_ok] at hr
  rw [addExclusionRoute_ok hm]
  by_cases h : ip ∈ d.excludedAddrSet
  · grind
  · cases ha : k.accepts ip d.backend <;> simp only [ha] at hr ⊢ <;> grind

theorem count_addExclusionRoute : (addExclusionRoute (platform k qt) .ok ip d).2.excludedAddrSet.count p =
    d.excludedAddrSet.count p + if p = ip ∧ Counted k p d then 1 else 0 := by
  rw [addExclusionRoute_ok hm]
  by_cases h : ip ∈ d.excludedAddrSet
  · simp only [if_pos h, count_cons, Counted]
    grind
  · simp only [if_neg h, Counted]
    cases ha : k.accepts ip d.backend <;> grind

theorem counted_addExclusionRoute : Counted k p (addExclusionRoute (platform k qt) .ok ip d).2 ↔ Counted k p d := by
  rw [addExclusionRoute_ok hm]
  by_cases h : ip ∈ d.excludedAddrSet
  · simp only [if_pos h, Counted]
    grind
  · simp only [if_neg h]
    cases ha : k.accepts ip d.backend with
    | false => simp
    | true =>
      by_cases hp : p = ip
      · subst hp
        simp [Counted, ha]
      · cases k <;> simp [Counted, Kind.accepts, Kind.sends, hp]

end AddOne

def addTexts (k : Kind) (qt : Qt) (texts : List String) : Step (State Backend) :=
  .each (fun _ text => addExclusionRoute (platform k qt) .ok (ofText qt text)) texts

theorem addTexts_cons (text : String) (texts : List String) (d : State Backend) : addTexts k qt (text :: texts) d =
      addTexts k qt texts (addExclusionRoute (platform k qt) .ok (ofText qt text) d).2 := rfl

theorem monitored_addTexts (qt : Qt) (texts : List String) {d : State Backend} (hm : Monitored k d.backend) :
    Monitored k (addTexts k qt texts d).2.backend := by
  induction texts generalizing d with
  | nil => exact hm
  | cons text texts ih => exact ih (monitored_addExclusionRoute hm _)

theorem count_addTexts (qt : Qt) (texts : List String) {d : State Backend} (hm : Monitored k d.backend)
    (p : IPAddress) :
    (addTexts k qt texts d).2.excludedAddrSet.count p = d.excludedAddrSet.count p +
      if Counted k p d then (texts.map (ofText qt)).count p else 0 := by
  induction texts generalizing d with
  | nil => simp [addTexts]
  | cons text texts ih =>
    rw [addTexts_cons, ih (monitored_addExclusionRoute hm _), count_addExclusionRoute hm]
    simp only [counted_addExclusionRoute hm, map_cons, count_cons]
    split <;> grind

theorem mem_addTexts (qt : Qt) (texts : List String) {d : State Backend} (hm : Monitored k d.backend) (p : IPAddress) :
    p ∈ (addTexts k qt texts d).2.backend.exclusionRoutes ↔ p ∈ d.backend.exclusionRoutes ∨
      (p ∈ texts.map (ofText qt) ∧ p ∉ d.excludedAddrSet ∧ k.sends p = true) := by
  induction texts generalizing d with
  | nil => simp [addTexts]
  | cons text texts ih =>
    have hc : (addExclusionRoute (platform k qt) .ok (ofText qt text) d).2.excludedAddrSet.count p = _ :=
      count_addExclusionRoute hm _ p
    rw [addTexts_cons, ih (monitored_addExclusionRoute hm _), mem_addExclusionRoute hm, map_cons]
    grind

/-! ## Deleting exclusions -/

theorem delExclusionRoute_ok (hm : Monitored k d.backend) (ip : IPAddress) :
    (delExclusionRoute (platform k qt) .ok ip d).2 =
      { d with excludedAddrSet := d.excludedAddrSet.erase ip
               backend :=
                 if d.excludedAddrSet.count ip > 1 then d.backend else (k.deleteRoute .ok ip d.backend).2 } := by
  have hc : (platform k qt).deleteExclusionRoute .ok ip d.backend = k.deleteRoute .ok ip d.backend :=
    Kind.monitored_eq hm _
  rw [delExclusionRoute]
  split
  · rfl
  · rw [onBackend_apply]
    simp only [hc]

theorem monitored_deleteRoute (hm : Monitored k b) (ip : IPAddress) : Monitored k (k.deleteRoute .ok ip b).2 := by
  cases k with
  | linux =>
    rw [Kind.deleteRoute]
    split <;> exact hm
  | macos | windows => exact hm

def delTexts (k : Kind) (qt : Qt) (texts : List String) : Step (State Backend) :=
  .each (fun _ text => delExclusionRoute (platform k qt) .ok (ofHost (qt.hostAddress text))) texts

theorem monitored_delExclusionRoute (hm : Monitored k d.backend) (ip : IPAddress) :
    Monitored k (delExclusionRoute (platform k qt) .ok ip d).2.backend := by
  rw [delExclusionRoute_ok hm]
  split
  · exact hm
  · exact monitored_deleteRoute hm ip

theorem monitored_delTexts (qt : Qt) (texts : List String) {d : State Backend} (hm : Monitored k d.backend) :
    Monitored k (delTexts k qt texts d).2.backend := by
  induction texts generalizing d with
  | nil => exact hm
  | cons text texts ih => exact ih (monitored_delExclusionRoute hm _)

theorem mem_delTexts (qt : Qt) (texts : List String) {d : State Backend} (hm : Monitored k d.backend) (p : IPAddress) :
    p ∈ (delTexts k qt texts d).2.backend.exclusionRoutes ↔ p ∈ d.backend.exclusionRoutes ∧
      ¬(k.sends p = true ∧ 0 < (deletedKeys qt texts).count p ∧
        d.excludedAddrSet.count p ≤ (deletedKeys qt texts).count p) := by
  induction texts generalizing d with
  | nil => simp [delTexts, deletedKeys]
  | cons text texts ih =>
    have hst : delTexts k qt (text :: texts) d =
      delTexts k qt texts (delExclusionRoute (platform k qt) .ok (ofHost (qt.hostAddress text)) d).2 := rfl
    rw [hst, ih (monitored_delExclusionRoute hm _), delExclusionRoute_ok hm]
    generalize hip : ofHost (qt.hostAddress text) = ip
    have hke : deletedKeys qt (text :: texts) = ip :: deletedKeys qt texts := by rw [← hip]; rfl
    have hr := k.mem_deleteRoute ip p d.backend
    simp only [hke, count_cons, count_erase]
    by_cases hp : p = ip
    · subst hp
      by_cases hma : d.excludedAddrSet.count p > 1
      · simp only [if_pos hma, beq_self_eq_true, if_true]
        have : d.excludedAddrSet.count p - 1 ≤ (deletedKeys qt texts).count p ↔
          d.excludedAddrSet.count p ≤ (deletedKeys qt texts).count p + 1 := by omega
        rw [this]
        constructor
        · rintro ⟨h, hno⟩
          exact ⟨h, fun ⟨hs, _, hle⟩ => hno ⟨hs, by omega, hle⟩⟩
        · rintro ⟨h, hno⟩
          exact ⟨h, fun ⟨hs, _, hle⟩ => hno ⟨hs, by omega, hle⟩⟩
      · simp only [if_neg hma, hr, beq_self_eq_true, if_true]
        have hle : d.excludedAddrSet.count p ≤ (deletedKeys qt texts).count p + 1 := by omega
        cases hs : k.sends p <;> simp [hle]
    · have hne : (ip == p) = false := beq_false_of_ne (Ne.symm hp)
      simp only [hne]
      split
      · simp
      · simp [hr, hp]

/-! ## The switch -/

def routeView (d : State Backend) : List IPAddress × Finset IPAddress × Bool :=
  (d.excludedAddrSet, d.backend.exclusionRoutes, d.backend.monitor)

theorem routeView_backend {s : Step Backend} (h : Step.Keeps (fun b : Backend => (b.exclusionRoutes, b.monitor)) s) :
    Step.Keeps routeView (onBackend s) := by
  intro d
  exact congrArg (Prod.mk d.excludedAddrSet) (h d.backend)

theorem routeView_switchRoutes (k : Kind) (qt : Qt) (r : SwitchReplies) (config : InterfaceConfig) :
    Step.Keeps routeView (switchRoutes (platform k qt) r config) :=
  .ignore (.all (fun _ ip => routeView_backend (k.keeps_updateRoutePrefix (fun _ _ => rfl) _ ip)) _)

/-- The configurations differ in the peer, whose old routes go. -/
def Retires (qt : Qt) (lastConfig config : InterfaceConfig) (p : IPAddress) : Prop :=
  config.serverPublicKey ≠ lastConfig.serverPublicKey ∧ lastConfig.hopType ≠ .multiHopExit ∧
    p ∈ serverKeys qt lastConfig

theorem mem_removeLast {lastConfig config : InterfaceConfig} (hm : Monitored k d.backend) (p : IPAddress) :
    p ∈ (removeLast (platform k qt) .ok lastConfig config d).2.backend.exclusionRoutes ↔
      p ∈ d.backend.exclusionRoutes ∧ ¬(Retires qt lastConfig config p ∧ k.sends p = true) := by
  have hke : Step.Keeps routeView (Step.each (fun n ip => if ip ∈ config.allowedIPAddressRanges then .skip
      else onBackend ((platform k qt).deleteRoutePrefix (SwitchReplies.ok.deleteRoutePrefix n) ip))
      lastConfig.allowedIPAddressRanges) := by
    refine .each (fun n ip => ?_) _
    split
    · exact .skip
    · exact routeView_backend (k.keeps_deleteRoutePrefix (fun _ _ => rfl) _ ip)
  rw [removeLast, Step.seq_of_true (Step.each_fst ..)]
  generalize hd' : (Step.each _ _ d).2 = d'
  have hv : routeView d' = routeView d := hd' ▸ hke d
  have hr : d'.backend.exclusionRoutes = d.backend.exclusionRoutes := congrArg (·.2.1) hv
  have hmo : d'.backend.monitor = d.backend.monitor := congrArg (·.2.2) hv
  have hm' : Monitored k d'.backend := by rwa [Monitored, hmo]
  rw [← hr, Retires]
  split
  · rename_i hkey
    by_cases hh : lastConfig.hopType = .multiHopExit
    · have hs : ((platform k qt).deletePeer .ok lastConfig d'.backend).2.exclusionRoutes =
          d'.backend.exclusionRoutes := by
        show (Step.seq (Kind.serverRoutes k qt k.deleteRoute .ok lastConfig) _ d'.backend).2.exclusionRoutes = _
        rw [Kind.serverRoutes, if_pos hh]
        rfl
      simp [hh, onBackend_apply, SwitchReplies.ok, hs]
    · have hme := k.mem_deletePeer qt hm' hh p
      simp only [onBackend_apply, SwitchReplies.ok, ne_eq, hkey, not_false_eq_true, hh, true_and]
      exact hme
  · rename_i hkey
    simp [not_not.mp hkey]

/-- The routes are there once the new configuration has been added: they were there, they are the peer's, or the daemon
did not count them yet. -/
def Present (k : Kind) (qt : Qt) (config : InterfaceConfig) (d : State Backend) (p : IPAddress) : Prop :=
  p ∈ d.backend.exclusionRoutes ∨
    (k.sends p = true ∧ (p ∈ serverKeys qt config ∨ (p ∈ excludedKeys qt config ∧ p ∉ d.excludedAddrSet)))

/-- The count of a prefix once the new configuration has been added. -/
def countAfter (k : Kind) (qt : Qt) (config : InterfaceConfig) (d : State Backend) (p : IPAddress) : Nat :=
  d.excludedAddrSet.count p + if Counted k p d then (excludedKeys qt config).count p else 0

/-- Taking away the old configuration uses up the count. -/
def Released (k : Kind) (qt : Qt) (lastConfig config : InterfaceConfig) (d : State Backend) (p : IPAddress) : Prop :=
  0 < (deletedKeys qt lastConfig.excludedAddresses).count p ∧
    countAfter k qt config d p ≤ (deletedKeys qt lastConfig.excludedAddresses).count p

theorem monitored_updatePeer (qt : Qt) (r : Reply) (config : InterfaceConfig) {b : Backend} (hm : Monitored k b) :
    Monitored k (k.updatePeer qt r config b).2 := by
  have hke : Step.Keeps Backend.monitor (k.updatePeer qt r config) :=
    k.keeps_updatePeer qt (fun _ _ => rfl) (fun _ _ => rfl) r config
  rwa [Monitored, hke]

/-- After the new exclusions and the new peer. -/
theorem mem_added {config : InterfaceConfig} (hm : Monitored k d.backend) (hh : config.hopType ≠ .multiHopExit)
    (h : (onBackend ((platform k qt).updatePeer .ok config) (addTexts k qt config.excludedAddresses d).2).1 = true)
    (p : IPAddress) : p ∈ (onBackend ((platform k qt).updatePeer .ok config)
      (addTexts k qt config.excludedAddresses d).2).2.backend.exclusionRoutes ↔ Present k qt config d p := by
  have hp := k.mem_updatePeer qt (monitored_addTexts qt config.excludedAddresses hm) hh h p
  rw [mem_addTexts qt config.excludedAddresses hm] at hp
  rw [Present]
  tauto

theorem mem_takenAway (qt : Qt) (lastConfig config : InterfaceConfig) {d : State Backend} (hm : Monitored k d.backend)
    (p : IPAddress) :
    p ∈ (removeLast (platform k qt) .ok lastConfig config (delTexts k qt lastConfig.excludedAddresses
        (switchRoutes (platform k qt) .ok config d).2).2).2.backend.exclusionRoutes ↔
      p ∈ d.backend.exclusionRoutes ∧
          (k.sends p = true → ¬(0 < (deletedKeys qt lastConfig.excludedAddresses).count p ∧
          d.excludedAddrSet.count p ≤ (deletedKeys qt lastConfig.excludedAddresses).count p) ∧
        ¬Retires qt lastConfig config p) := by
  have hv := routeView_switchRoutes k qt .ok config d
  generalize (switchRoutes (platform k qt) .ok config d).2 = d' at hv ⊢
  simp only [routeView, Prod.mk.injEq] at hv
  obtain ⟨hc, hr, hmo⟩ := hv
  have hm' : Monitored k d'.backend := by rwa [Monitored, hmo]
  rw [mem_removeLast (monitored_delTexts qt _ hm'), mem_delTexts qt _ hm', hc, hr]
  tauto

/-- The routes after a successful switch. -/
theorem mem_switchServer {lastConfig config : InterfaceConfig} (hm : Monitored k d.backend)
    (hh : config.hopType ≠ .multiHopExit) (h : (switchServer (platform k qt) qt .ok lastConfig config d).1 = true)
    (p : IPAddress) : p ∈ (switchServer (platform k qt) qt .ok lastConfig config d).2.backend.exclusionRoutes ↔
      Present k qt config d p ∧
      (k.sends p = true → ¬Released k qt lastConfig config d p ∧ ¬Retires qt lastConfig config p) := by
  obtain ⟨hp, heq⟩ := switchServer_through h
  rw [heq]
  have ha := mem_added hm hh hp p
  have hc := count_addTexts qt config.excludedAddresses hm p
  have hm' : Monitored k
      ((platform k qt).updatePeer .ok config (addTexts k qt config.excludedAddresses d).2.backend).2 :=
    monitored_updatePeer qt .ok config (monitored_addTexts qt config.excludedAddresses hm)
  have hr : Released k qt lastConfig config d p ↔ 0 < (deletedKeys qt lastConfig.excludedAddresses).count p ∧
      (addTexts k qt config.excludedAddresses d).2.excludedAddrSet.count p ≤
        (deletedKeys qt lastConfig.excludedAddresses).count p := by
    rw [Released, countAfter, excludedKeys, hc]
  rw [hr, ← ha]
  exact mem_takenAway qt lastConfig config hm' p

/-! ## Without a route monitor -/

section Unmonitored

variable (qt) (hk : k ≠ .windows) (routes : Finset IPAddress)

def monitorView (b : Backend) : Finset IPAddress × Bool := (b.exclusionRoutes, b.monitor)

/-- There is no monitor, and the routes are these. -/
def Unmonitored (routes : Finset IPAddress) (b : Backend) : Prop := monitorView b = (routes, false)

include hk

theorem unmonitored_monitored (s : Step Backend) : Step.Maintains (Unmonitored routes) (k.monitored s) := by
  intro b hb
  have hmo : b.monitor = false := congrArg Prod.snd hb
  rwa [Kind.monitored, Step.ite, if_neg (by simp [hk, hmo])]

theorem unmonitored_serverRoutes (f : Reply → IPAddress → Step Backend) (r : Reply) (config : InterfaceConfig) :
    Step.Maintains (Unmonitored routes) (k.serverRoutes qt f r config) := by
  intro b hb
  have hmo : b.monitor = false := congrArg Prod.snd hb
  unfold Kind.serverRoutes
  split
  · exact hb
  · rwa [Step.ite, if_neg (by simp [hk, hmo])]

theorem unmonitored_updatePeer (r : Reply) (config : InterfaceConfig) :
    Step.Maintains (Unmonitored routes) (k.updatePeer qt r config) := by
  unfold Kind.updatePeer
  split
  · exact fun _ hb => hb
  · exact .seq (unmonitored_serverRoutes qt hk routes _ r config) (.of_keeps (k.keeps_uapi (fun _ => by rfl) r))

theorem unmonitored_deletePeer (r : Reply) (config : InterfaceConfig) :
    Step.Maintains (Unmonitored routes) (k.deletePeer qt r config) :=
  .seq (unmonitored_serverRoutes qt hk routes _ r config) (.of_keeps (k.keeps_uapi (fun _ => by rfl) r))

/-- A switch adds and deletes no exclusion route. -/
theorem unmonitored_switchServer (r : SwitchReplies) (lastConfig config : InterfaceConfig) :
    Step.Maintains (fun d : State Backend => Unmonitored routes d.backend)
      (switchServer (platform k qt) qt r lastConfig config) := by
  refine .seq (.each (fun n text d hd => ?_) _) <| .seq (fun d => unmonitored_updatePeer qt hk routes _ _ d.backend) <|
    .seq
    (.of_keeps (.ignore (.all (fun _ _ => keeps_updateRoutePrefix (g := monitorView) k qt (fun _ _ => rfl) _ _) _))) <|
    .seq (.each (fun n text d hd => ?_) _) <| .seq (.seq (.each (fun n ip => ?_) _) ?_) fun _ hd => hd
  · have hc : Step.Maintains (fun d : State Backend => Unmonitored routes d.backend)
        (Step.seq (onBackend ((platform k qt).addExclusionRoute (r.addExclusionRoute n) (ofText qt text)))
          (.update fun d => { d with excludedAddrSet := ofText qt text :: d.excludedAddrSet })) :=
      .seq (fun d => unmonitored_monitored hk routes _ d.backend) fun _ hd => hd
    rw [addExclusionRoute]
    split
    · exact hd
    · exact hc d hd
  · rw [delExclusionRoute]
    split
    · exact hd
    · exact unmonitored_monitored hk routes _ d.backend hd
  · split
    · exact fun _ hd => hd
    · exact .of_keeps (keeps_deleteRoutePrefix (g := monitorView) k qt (fun _ _ => rfl) _ _)
  · split
    · exact fun d => unmonitored_deletePeer qt hk routes _ _ d.backend
    · exact fun _ hd => hd

end Unmonitored

/-! ## The routes that are needed -/

/-- The routes that a configuration needs: to the server, and to everything that it excludes. -/
def neededKeys (qt : Qt) (config : InterfaceConfig) : List IPAddress :=
  serverAddress qt config :: excludedKeys qt config

/-- The route is there after the switch: it was there or is added by this switch, taking away the old exclusions does
not use up its count, and it is no route of an old peer with another key. Without a monitor the switch changes no route.
-/
def Survives (k : Kind) (qt : Qt) (lastConfig config : InterfaceConfig) (d : State Backend) (p : IPAddress) : Prop :=
  if Monitored k d.backend then
    Present k qt config d p ∧
      (k.sends p = true → ¬Released k qt lastConfig config d p ∧ ¬Retires qt lastConfig config p)
  else p ∈ d.backend.exclusionRoutes

/-- **Which routes survive a switch.** After a successful switch, on any platform and from any state, all the needed
routes are there exactly when each of them survives it. -/
theorem switch_keeps_server_iff {lastConfig config : InterfaceConfig} {d : State Backend}
    (hhop : config.hopType ≠ .multiHopExit) (hlast : d.connections config.hopType = some lastConfig)
    (hswitch : supportServerSwitching lastConfig config = true)
    (h : (activate (platform k qt) qt .ok config d).1 = true) :
    (∀ p ∈ neededKeys qt config, p ∈ (activate (platform k qt) qt .ok config d).2.backend.exclusionRoutes) ↔
      ∀ p ∈ neededKeys qt config, Survives k qt lastConfig config d p := by
  have ha : activate (platform k qt) qt .ok config d =
      Step.seq (switchServer (platform k qt) qt .ok lastConfig config)
        (afterSwitch (platform k qt) qt .ok config) d := by
    simp only [activate, hlast, hswitch, if_true]
    rfl
  have haf : Step.Keeps (fun d : State Backend => d.backend.exclusionRoutes)
      (afterSwitch (platform k qt) qt .ok config) :=
    keeps_afterSwitch k qt (fun _ _ => rfl) .ok config
  rw [ha] at h ⊢
  obtain ⟨hok, _⟩ := Step.seq_eq_true h
  rw [haf.seq_snd]
  refine forall₂_congr fun p _ => ?_
  unfold Survives
  by_cases hm : Monitored k d.backend
  · rw [if_pos hm]
    exact mem_switchServer hm hhop hok p
  · have hk : k ≠ .windows := fun hk => hm (by simp [Monitored, hk])
    have hmo : d.backend.monitor = false := by simpa [Monitored, hk] using hm
    have hq := unmonitored_switchServer qt hk d.backend.exclusionRoutes .ok lastConfig config d
      (Prod.ext rfl hmo)
    rw [if_neg hm, show (switchServer (platform k qt) qt .ok lastConfig config d).2.backend.exclusionRoutes = _ from
      congrArg Prod.fst hq]

/-! ## An example -/

def hostQt : Qt where
  hostAddress
    | "203.0.113.1" => .ipv4 0xcb007101
    | _ => .null
  parseSubnet _ := (.null, -1)
  hostText _ := ""

def peerConfig (key : String) : InterfaceConfig :=
  { Linux.sampleInterface [⟨.ipv4 0, 0⟩] with serverPublicKey := key }

def connectedState (k : Kind) : State Backend := (activate (platform k hostQt) hostQt .ok (peerConfig "first") .idle).2

/-- A switch to the same configuration. -/
theorem switch_keeps_server_same_key :
    (activate (platform .linux hostQt) hostQt .ok (peerConfig "first") (connectedState .linux)).1 = true ∧
      ∀ p ∈ neededKeys hostQt (peerConfig "first"),
        p ∈ (activate (platform .linux hostQt) hostQt .ok (peerConfig "first")
        (connectedState .linux)).2.backend.exclusionRoutes := by
  have hlast : (connectedState .linux).connections (peerConfig "first").hopType = some (peerConfig "first") := by decide
  refine ⟨by decide, (switch_keeps_server_iff (by decide) hlast (by decide) (by decide)).mpr ?_⟩
  unfold Survives Present Released Retires
  decide

/-- The same server with another key: the route to it is deleted with the old peer. -/
theorem switch_drops_server :
    (activate (platform .linux hostQt) hostQt .ok (peerConfig "second") (connectedState .linux)).1 = true ∧
      serverAddress hostQt (peerConfig "second") ∉ (activate (platform .linux hostQt) hostQt .ok (peerConfig "second")
          (connectedState .linux)).2.backend.exclusionRoutes := by
  decide

end State

end Cimogus.Daemon
