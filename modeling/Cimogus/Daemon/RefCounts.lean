import Cimogus.Daemon.Platforms

/-!
# Reference counts of exclusions

`m_excludedAddrSet` is meant to count, for every prefix, how often the stored configurations exclude it (`Exact`). Three
places change it: an activation adds before it knows whether it will store the configuration, a switch deletes under a
key that it computes in another way than the one it added under, and `deactivate` clears the table before the interface
is deleted.
-/

namespace Cimogus.Daemon.State

open Lib Lib.Runs

variable {σ : Type} {P : Platform σ} {qt : Qt}

/-- The prefixes that the stored configurations exclude. -/
def storedKeys (qt : Qt) (d : State σ) : List IPAddress := d.stored.flatMap (excludedKeys qt)

/-- Every prefix is counted as often as it is excluded. -/
def Exact (qt : Qt) (d : State σ) : Prop := ∀ p, d.excludedAddrSet.count p = (d.storedKeys qt).count p

def counts (d : State σ) : (HopType → Option InterfaceConfig) × List IPAddress := (d.connections, d.excludedAddrSet)

variable {d : State σ}

variable {d' : State σ}

theorem exact_congr (h : d'.counts = d.counts) : d'.Exact qt ↔ d.Exact qt := by
  simp only [counts, Prod.mk.injEq] at h
  simp only [Exact, storedKeys, stored, h.1, h.2]

/-- Only the connections and the counts matter. -/
theorem exact_of_counts (hco : d'.connections = d.connections)
    (hc : ∀ p, d'.excludedAddrSet.count p = d.excludedAddrSet.count p) (h : d.Exact qt) : d'.Exact qt := by
  intro p
  have hs : d'.storedKeys qt = d.storedKeys qt := by simp only [storedKeys, stored, hco]
  rw [hc, hs]
  exact h p

/-! ## Storing a configuration -/

def keysAt (qt : Qt) (d : State σ) (hop : HopType) : List IPAddress := (d.connections hop).elim [] (excludedKeys qt)

theorem count_storedKeys (d : State σ) (p : IPAddress) : (d.storedKeys qt).count p =
    (d.keysAt qt .singleHop).count p + (d.keysAt qt .multiHopEntry).count p + (d.keysAt qt .multiHopExit).count p := by
  unfold storedKeys stored keysAt hopTypes
  cases h₁ : d.connections .singleHop <;> cases h₂ : d.connections .multiHopEntry <;>
    cases h₃ : d.connections .multiHopExit <;> simp [h₁, h₂, h₃, Nat.add_assoc]

theorem keysAt_store (config : InterfaceConfig) (d : State σ) (hop : HopType) :
    (d.store config).keysAt qt hop = if hop = config.hopType then excludedKeys qt config else d.keysAt qt hop := by
  unfold keysAt store
  by_cases h : hop = config.hopType
  · subst h; simp
  · simp [h]

theorem count_store (qt : Qt) (config : InterfaceConfig) (d : State σ) (p : IPAddress) :
    ((d.store config).storedKeys qt).count p + (d.keysAt qt config.hopType).count p =
      (d.storedKeys qt).count p + (excludedKeys qt config).count p := by
  simp only [count_storedKeys, keysAt_store]
  cases config.hopType <;> simp <;> omega

theorem count_keysAt_le (qt : Qt) (d : State σ) (hop : HopType) (p : IPAddress) :
    (d.keysAt qt hop).count p ≤ (d.storedKeys qt).count p := by
  rw [count_storedKeys]
  cases hop <;> omega

/-! ## What the steps do to the table -/

theorem counts_onBackend (s : Step σ) : Step.Keeps counts (onBackend s) := keeps_onBackend (fun _ _ => rfl) s

variable (r : Reply)

theorem counts_maybeUpdateResolvers (config : InterfaceConfig) :
    Step.Keeps counts (maybeUpdateResolvers P qt r config) := by
  unfold maybeUpdateResolvers
  split
  · exact .skip
  split
  · exact counts_onBackend _
  · exact .skip

theorem counts_bringUp (config : InterfaceConfig) : Step.Keeps counts (bringUp P r config) :=
  .ite .skip (counts_onBackend _)

theorem counts_configure (P : Platform σ) (qt : Qt) (r : FreshReplies) (config : InterfaceConfig) :
    Step.Keeps counts (configure P qt r config) := by
  refine .seq (counts_onBackend _) (.seq (counts_maybeUpdateResolvers _ _) (.seq ?_ (.seq ?_ (counts_onBackend _))))
  · unfold addresses
    split
    · exact .seq (counts_onBackend _) (counts_onBackend _)
    · exact .skip
  · exact .all (fun _ _ => counts_onBackend _) _

theorem counts_shutDown (r : DownReplies) : Step.Keeps counts (shutDown P r) := by
  refine .seq (fun d => ?_) (.seq ?_ (.ite .skip .stop))
  · split
    · exact counts_onBackend _ d
    · rfl
  · split
    · exact counts_onBackend _
    · exact .skip

/-- A request that is not refused is counted. -/
theorem addExclusionRoute_counts {r : Reply} {ip : IPAddress} (h : (addExclusionRoute P r ip d).1 = true) :
    (addExclusionRoute P r ip d).2.counts = (d.connections, ip :: d.excludedAddrSet) := by
  unfold addExclusionRoute at h ⊢
  split at h
  · rename_i hm
    rw [if_pos hm]
    rfl
  · rename_i hm
    obtain ⟨_, hs⟩ := Step.seq_eq_true h
    rw [if_neg hm, hs]
    rfl

open IPAddress

/-- No request for an exclusion of the configuration is refused. -/
def AddsCount (P : Platform σ) (qt : Qt) (r : Nat → Reply) (texts : List String) (d : State σ) : Prop :=
  Step.EachOk (fun n text => addExclusionRoute P (r n) (ofText qt text)) texts d

theorem count_addExclusions (texts : List String) (r : Nat → Reply) {d : State σ} (h : AddsCount P qt r texts d) :
    (Step.each (fun n text => addExclusionRoute P (r n) (ofText qt text)) texts d).2.connections = d.connections ∧
      ∀ p, (Step.each (fun n text => addExclusionRoute P (r n) (ofText qt text)) texts d).2.excludedAddrSet.count p =
        d.excludedAddrSet.count p + (texts.map (ofText qt)).count p := by
  induction texts generalizing r d with
  | nil => exact ⟨rfl, fun p => by simp⟩
  | cons text texts ih =>
    obtain ⟨hfi, hrest⟩ := h
    have hc := addExclusionRoute_counts hfi
    simp only [counts, Prod.mk.injEq] at hc
    obtain ⟨hco, hcou⟩ := ih (fun n => r (n + 1)) hrest
    rw [Step.each_cons]
    refine ⟨hco.trans hc.1, fun p => ?_⟩
    rw [hcou, hc.2, List.map_cons, List.count_cons, List.count_cons]
    omega

theorem delExclusionRoute_counts (ip : IPAddress) (d : State σ) :
    (delExclusionRoute P r ip d).2.counts = (d.connections, d.excludedAddrSet.erase ip) := by
  unfold delExclusionRoute
  split <;> rfl

theorem count_delExclusions (texts : List String) (r : Nat → Reply) (d : State σ) :
    (Step.each (fun n text => delExclusionRoute P (r n) (ofHost (qt.hostAddress text))) texts d).2.connections =
        d.connections ∧ ∀ p, (Step.each (fun n text => delExclusionRoute P (r n) (ofHost (qt.hostAddress text)))
        texts d).2.excludedAddrSet.count p = d.excludedAddrSet.count p - (deletedKeys qt texts).count p := by
  induction texts generalizing r d with
  | nil => exact ⟨rfl, fun p => by simp [deletedKeys]⟩
  | cons text texts ih =>
    have hc := delExclusionRoute_counts (P := P) (r 0) (ofHost (qt.hostAddress text)) d
    simp only [counts, Prod.mk.injEq] at hc
    obtain ⟨hco, hcou⟩ := ih (fun n => r (n + 1))
      (delExclusionRoute P (r 0) (ofHost (qt.hostAddress text)) d).2
    rw [Step.each_cons]
    refine ⟨hco.trans hc.1, fun p => ?_⟩
    rw [hcou, hc.2, List.count_erase, deletedKeys, deletedKeys, List.map_cons, List.count_cons]
    omega

/-! ## Guards -/

/-- There is nothing to exclude; or the interface cannot be brought up; or every exclusion is taken, and so is
everything that configures the interface. -/
def FreshGuard (P : Platform σ) (qt : Qt) (r : FreshReplies) (config : InterfaceConfig) (d : State σ) : Prop :=
  config.excludedAddresses = [] ∨ (bringUp P r.addInterface config d).1 = false ∨
    (AddsCount P qt r.addExclusionRoute config.excludedAddresses (bringUp P r.addInterface config d).2 ∧
      (configure P qt r config (excluding P qt r config d)).1 = true)

/-- The platform deletes the interface at the end of `deactivate`. -/
def Deletes (P : Platform σ) (r : DownReplies) (d : State σ) : Prop :=
  (P.deleteInterface r.deleteInterface (cleared P r d).backend).1 = true

/-- `deactivate` stops before the table is cleared, or the interface is deleted, or no stored configuration excludes
anything. -/
def DownGuard (P : Platform σ) (qt : Qt) (r : DownReplies) (d : State σ) : Prop :=
  (shutDown P r d).1 = false ∨ Deletes P r d ∨ d.storedKeys qt = []

/-- The excluded texts are addresses, not networks or names: the key for deleting one is the key it was added under. -/
def Bare (qt : Qt) (config : InterfaceConfig) : Prop := deletedKeys qt config.excludedAddresses = excludedKeys qt config

/-- The old configuration has plain addresses, every new exclusion is taken, and so are the new peer and the removal of
the old one; or there is nothing to add, and nothing to delete either or the new peer is refused. -/
def SwitchGuard (P : Platform σ) (qt : Qt) (r : SwitchReplies) (lastConfig config : InterfaceConfig)
    (d : State σ) : Prop :=
  (Bare qt lastConfig ∧ AddsCount P qt r.addExclusionRoute config.excludedAddresses d ∧
      (onBackend (P.updatePeer r.updatePeer config) (addExclusions P qt r.addExclusionRoute config d).2).1 = true ∧
      (removeLast P r lastConfig config (rerouted P qt r lastConfig config d)).1 = true) ∨
      (config.excludedAddresses = [] ∧
      (lastConfig.excludedAddresses = [] ∨ (onBackend (P.updatePeer r.updatePeer config) d).1 = false))

def Guard (P : Platform σ) (qt : Qt) : Command σ → State σ → Prop
  | .activate r config, d =>
    match d.connections config.hopType with
    | none => FreshGuard P qt r.fresh config d
    | some lastConfig =>
      if supportServerSwitching lastConfig config then SwitchGuard P qt r.switch lastConfig config d
      else DownGuard P qt r.down d ∧ ((shutDown P r.down d).1 = true → Deletes P r.down d →
        FreshGuard P qt r.fresh config (deactivate P r.down d).2)
  | .deactivate r, d => DownGuard P qt r d
  | .host _, _ => True

/-! ## Every guarded command keeps the counts exact -/

variable {config : InterfaceConfig}

theorem exact_store (h : d.Exact qt) (hc : d'.connections = d.connections)
    (hke : ∀ p, d'.excludedAddrSet.count p + (d.keysAt qt config.hopType).count p =
      d.excludedAddrSet.count p + (excludedKeys qt config).count p) : (d'.store config).Exact qt := by
  intro p
  have hst := count_store qt config d' p
  have hs : d'.storedKeys qt = d.storedKeys qt := by simp only [storedKeys, stored, hc]
  have hk : d'.keysAt qt config.hopType = d.keysAt qt config.hopType := by simp only [keysAt, hc]
  have hco := hke p
  have he := h p
  rw [hs, hk] at hst
  have hse : (d'.store config).excludedAddrSet = d'.excludedAddrSet := rfl
  rw [hse]
  omega

theorem activateFresh_exact {r : FreshReplies} (hno : d.connections config.hopType = none)
    (hg : FreshGuard P qt r config d) (h : d.Exact qt) : (activateFresh P qt r config d).2.Exact qt := by
  have hup : (bringUp P r.addInterface config d).2.counts = d.counts := counts_bringUp _ _ d
  have hk : d.keysAt qt config.hopType = [] := by simp [keysAt, hno]
  have hc := counts_configure P qt r config (excluding P qt r config d)
  have ha : config.excludedAddresses = [] → (excluding P qt r config d).counts = d.counts := by
    intro he
    rw [excluding, addExclusions_of_nil _ he]
    exact hup
  rcases activateFresh_cases P qt r config d with ⟨_, heq⟩ | ⟨hb, hr, heq⟩ | ⟨hb, _, heq⟩
  · rw [heq]
    exact (exact_congr hup).mpr h
  · -- the interface could not be configured: only a configuration without exclusions leaves no count behind
    have he : config.excludedAddresses = [] := by
      rcases hg with he | hfa | ⟨_, hsu⟩
      · exact he
      · simp [hb] at hfa
      · simp [hr] at hsu
    rw [heq, exact_congr (hc.trans (ha he))]
    exact h
  · have hco : (excluding P qt r config d).connections = d.connections ∧ ∀ p,
        (excluding P qt r config d).excludedAddrSet.count p =
          d.excludedAddrSet.count p + (excludedKeys qt config).count p := by
      rcases hg with he | hfa | ⟨hcou, _⟩
      · have hs := ha he
        simp only [counts, Prod.mk.injEq] at hs
        exact ⟨hs.1, fun p => by simp [hs.2, excludedKeys, he]⟩
      · simp [hb] at hfa
      · obtain ⟨hcon, hke⟩ := count_addExclusions _ _ hcou
        simp only [counts, Prod.mk.injEq] at hup
        exact ⟨hcon.trans hup.1, fun p => by rw [← hup.2]; exact hke p⟩
    simp only [counts, Prod.mk.injEq] at hc
    rw [heq]
    refine exact_store h (hc.1.trans hco.1) fun p => ?_
    rw [hc.2, hco.2, hk]
    rfl

theorem deactivate_exact {r : DownReplies} (hg : DownGuard P qt r d) (h : d.Exact qt) :
    (deactivate P r d).2.Exact qt := by
  have hdown : (shutDown P r d).2.counts = d.counts := counts_shutDown r d
  have hc : (cleared P r d).counts = (d.connections, []) := by
    have hp : (removePeers P r (shutDown P r d).2).2.counts = d.counts := by
      refine Eq.trans ?_ hdown
      exact Step.Keeps.each (fun _ _ => .seq (.each (fun _ _ => counts_onBackend _) _) (counts_onBackend _)) _ _
    have hr := Step.Keeps.each (fun n ip => counts_onBackend (P.deleteExclusionRoute (r.deleteExclusionRoute n) ip))
      (removePeers P r (shutDown P r d).2).2.excludedAddrSet.dedup (removePeers P r (shutDown P r d).2).2
    have hco := (congrArg Prod.fst hr).trans (congrArg Prod.fst hp)
    rw [cleared, removeExclusions, Step.seq_of_true (Step.each_fst ..)]
    exact congrArg (·, []) hco
  simp only [counts, Prod.mk.injEq] at hc
  rcases deactivate_cases P r d with ⟨_, heq⟩ | ⟨hstop, hfa, heq⟩ | ⟨_, _, heq⟩
  · rw [heq]
    exact (exact_congr hdown).mpr h
  · have he : d.storedKeys qt = [] := by
      rcases hg with hg | hg | hg
      · simp [hstop] at hg
      · simp [Deletes, hfa] at hg
      · exact hg
    intro p
    have hs : (deactivate P r d).2.storedKeys qt = d.storedKeys qt := by
      rw [heq]
      simp only [storedKeys, stored, onBackend_apply, hc.1]
    rw [hs, he, heq]
    simp [onBackend_apply, hc.2]
  · intro p
    rw [heq]
    simp [storedKeys, stored, onBackend_apply, hc.2]

theorem afterSwitch_counts (r : SwitchReplies) {d : State σ}
    (h : d.connections config.hopType = some config) : (afterSwitch P qt r config d).2.counts = d.counts := by
  have hs : Step.Maintains (fun d' : State σ => d'.counts = d.counts) (.update (store config)) := by
    intro d' hd'
    simp only [counts, Prod.mk.injEq] at hd'
    have hse : Function.update d.connections config.hopType (some config) = d.connections := by
      rw [← h, Function.update_eq_self]
    simp only [Step.update_apply, store, counts, hd'.1, hd'.2, hse]
  have hr : Step.Keeps counts
      (if P.supportDnsUtils then onBackend (P.restoreResolvers r.restoreResolvers) else .skip) := by
    split
    · exact counts_onBackend _
    · exact .skip
  have ha : Step.Maintains (fun d' : State σ => d'.counts = d.counts) (afterSwitch P qt r config) :=
    .seq (.of_keeps hr) <| .seq (.of_keeps (counts_maybeUpdateResolvers _ _)) <|
    .seq (.of_keeps (counts_onBackend _)) hs
  exact ha d rfl

theorem counts_removeLast (r : SwitchReplies) (lastConfig config : InterfaceConfig) :
    Step.Keeps counts (removeLast P r lastConfig config) := by
  refine .seq (.each (fun n ip => ?_) _) ?_
  · split
    · exact .skip
    · exact counts_onBackend _
  · split
    · exact counts_onBackend _
    · exact .skip

theorem rerouted_counts {r : SwitchReplies} (lastConfig : InterfaceConfig) {d : State σ}
    (ha : AddsCount P qt r.addExclusionRoute config.excludedAddresses d) :
    (rerouted P qt r lastConfig config d).connections = d.connections ∧ ∀ p,
      (rerouted P qt r lastConfig config d).excludedAddrSet.count p =
        d.excludedAddrSet.count p + (excludedKeys qt config).count p -
          (deletedKeys qt lastConfig.excludedAddresses).count p := by
  obtain ⟨hco, hc⟩ := count_addExclusions config.excludedAddresses r.addExclusionRoute ha
  have hjo : (switchRoutes P r config (joined P qt r config d)).2.counts =
      (addExclusions P qt r.addExclusionRoute config d).2.counts :=
    (Step.Keeps.all (fun _ _ => counts_onBackend _) _ _).trans (counts_onBackend _ _)
  simp only [counts, Prod.mk.injEq] at hjo
  obtain ⟨hco', hc'⟩ := count_delExclusions (P := P) lastConfig.excludedAddresses r.deleteExclusionRoute
    (switchRoutes P r config (joined P qt r config d)).2
  refine ⟨hco'.trans (hjo.1.trans hco), fun p => (hc' p).trans ?_⟩
  rw [hjo.2]
  exact congrArg (· - _) (hc p)

theorem switchServer_exact {r : SwitchReplies} {lastConfig config : InterfaceConfig}
    (hlast : d.connections config.hopType = some lastConfig) (hg : SwitchGuard P qt r lastConfig config d)
    (h : d.Exact qt) : (switchServer P qt r lastConfig config d).2.Exact qt := by
  have hk : d.keysAt qt config.hopType = excludedKeys qt lastConfig := by simp [keysAt, hlast]
  have ha : AddsCount P qt r.addExclusionRoute config.excludedAddresses d := by
    rcases hg with ⟨_, ha, _⟩ | ⟨he, _⟩
    · exact ha
    · rw [he]
      trivial
  obtain ⟨hco, hc⟩ := rerouted_counts lastConfig ha
  have hr : (removeLast P r lastConfig config (rerouted P qt r lastConfig config d)).2.counts = _ :=
    counts_removeLast r lastConfig config _
  simp only [counts, Prod.mk.injEq] at hr
  rcases switchServer_cases P qt r lastConfig config d with ⟨hp, heq⟩ | ⟨hp, hfa, heq⟩ | ⟨hp, hok, heq⟩
  · have he : config.excludedAddresses = [] := by
      rcases hg with ⟨_, _, hs, _⟩ | ⟨he, _⟩
      · simp [hp] at hs
      · exact he
    have hjo : (joined P qt r config d).counts = d.counts := by
      rw [joined, addExclusions_of_nil _ he]
      exact counts_onBackend _ d
    rw [heq]
    exact (exact_congr hjo).mpr h
  · rcases hg with ⟨_, _, _, hs⟩ | ⟨he, hl⟩
    · simp [hfa] at hs
    · rw [addExclusions_of_nil _ he] at hp
      have hno : lastConfig.excludedAddresses = [] := hl.resolve_right (by simp [hp])
      rw [heq]
      refine exact_of_counts (hr.1.trans hco) (fun p => ?_) h
      rw [hr.2, hc]
      simp [excludedKeys, deletedKeys, he, hno]
  · have hd : deletedKeys qt lastConfig.excludedAddresses = excludedKeys qt lastConfig := by
      rcases hg with ⟨hb, _⟩ | ⟨he, hl⟩
      · exact hb
      · rw [addExclusions_of_nil _ he] at hp
        have hno : lastConfig.excludedAddresses = [] := hl.resolve_right (by simp [hp])
        simp [deletedKeys, excludedKeys, hno]
    rw [heq]
    refine exact_store h (hr.1.trans hco) fun p => ?_
    have hle := count_keysAt_le qt d config.hopType p
    rw [hk, ← h p] at hle
    rw [hr.2, hc, hd, hk]
    omega

/-- **One command.** Where its guard holds, a command keeps the counts exact, on every platform and whatever the
system answers. -/
theorem step_exact (cmd : Command σ) (d : State σ) (hg : Guard P qt cmd d) (h : d.Exact qt) :
    (cmd.step P qt d).Exact qt := by
  cases cmd with
  | host f => exact h
  | deactivate r => exact deactivate_exact hg h
  | activate r config =>
    unfold Guard at hg
    unfold Command.step activate
    cases hlast : d.connections config.hopType with
    | none =>
      simp only [hlast] at hg ⊢
      exact activateFresh_exact hlast hg h
    | some lastConfig =>
      simp only [hlast] at hg ⊢
      split at hg
      · rename_i hs
        rw [if_pos hs]
        have he := switchServer_exact hlast hg h
        cases hok : (switchServer P qt r.switch lastConfig config d).1 with
        | false =>
          rw [Step.seq_of_false hok]
          exact he
        | true =>
          rw [Step.seq_of_true hok]
          have hst : (switchServer P qt r.switch lastConfig config d).2.connections config.hopType = some config := by
            rw [(switchServer_through hok).2]
            exact Function.update_self ..
          exact (exact_congr (afterSwitch_counts r.switch hst)).mpr he
      · rename_i hs
        rw [if_neg hs]
        have he := deactivate_exact hg.1 h
        cases hok : (deactivate P r.down d).1 with
        | false =>
          rw [Step.seq_of_false hok]
          exact he
        | true =>
          rw [Step.seq_of_true hok]
          have hno := deactivate_connections r.down d hok
          obtain ⟨hdown, hd, _⟩ := deactivate_through hok
          exact activateFresh_exact (congrFun hno _) (hg.2 hdown hd) he

/-- **Whole runs.** From an idle daemon, a run all of whose commands meet their guards keeps the counts exact in every
state that it reaches. -/
theorem run_exact (P : Platform σ) (qt : Qt) (b : σ) (cmds : List (Command σ))
    (hguard : Guarded (Command.step P qt) (Guard P qt) cmds (fresh b)) (n : Nat) :
    (run (Command.step P qt) (cmds.take n) (fresh b)).Exact qt :=
  run_invariant_of_guarded step_exact _ (hguard.take n) fun p => by simp [fresh, storedKeys, stored]

/-! ## Examples -/

/-- Reads the address of the server and a network around it. -/
def netQt : Qt where
  hostAddress
    | "203.0.113.1" => .ipv4 0xcb007101
    | _ => .null
  parseSubnet
    | "203.0.113.0/24" => (.ipv4 0xcb007100, 24)
    | _ => (.null, -1)
  hostText _ := ""

def configExcluding (texts : List String) : InterfaceConfig :=
  { Linux.sampleInterface [⟨.ipv4 0, 0⟩] with excludedAddresses := texts }

def sampleRun : List (Command Backend) :=
  [.activate .ok (configExcluding ["203.0.113.1"]), .deactivate .ok, .activate .ok (configExcluding ["203.0.113.1"])]

theorem run_exact_sample : Guarded (Command.step (platform .linux netQt) netQt) (Guard (platform .linux netQt) netQt)
      sampleRun .idle ∧ (run (Command.step (platform .linux netQt) netQt) sampleRun .idle).Exact netQt := by
  have hg : Guarded (Command.step (platform .linux netQt) netQt) (Guard (platform .linux netQt) netQt)
      sampleRun .idle :=
    ⟨.inr (.inr ⟨⟨by decide, trivial⟩, by decide⟩), .inr (.inl rfl),
      .inr (.inr ⟨⟨by decide, trivial⟩, by decide⟩), trivial⟩
  exact ⟨hg, run_exact (platform .linux netQt) netQt .idle sampleRun hg 3⟩

def refusedRun : List (Command Backend) :=
  [.activate { Replies.ok with fresh := { FreshReplies.ok with updatePeer := .failAt 2 } }
    (configExcluding ["203.0.113.1"])]

/-- A switch away from a configuration that excludes a network. -/
def networkRun : List (Command Backend) :=
  [.activate .ok (configExcluding ["203.0.113.0/24"]), .activate .ok (configExcluding [])]

/-- The count of a failed activation stays, and so does that of a network after a switch in which every call succeeds.
-/
theorem counts_not_exact : ¬(run (Command.step (platform .linux netQt) netQt) refusedRun .idle).Exact netQt ∧
    ¬(run (Command.step (platform .linux netQt) netQt) networkRun .idle).Exact netQt := by
  constructor
  · intro h
    exact absurd (h ⟨.ipv4 0xcb007101, 32⟩) (by decide)
  · intro h
    exact absurd (h ⟨.ipv4 0xcb007100, 24⟩) (by decide)

end Cimogus.Daemon.State
