import Cimogus.Daemon.RefCounts
import Cimogus.Daemon.Switching

/-!
# What a failed activation leaves behind

A fresh activation stops at the first step that fails, and nothing is undone: the interface, the counted exclusions, the
server's routes and the routes into the tunnel that were inserted by then stay. So a failure leaves no trace only where
what was done before had no effect on the host as it was.
-/

namespace Cimogus.Daemon

open Lib

variable {b : Backend}

namespace Kind

variable (k : Kind) (qt : Qt)

/-! ## Exclusion routes -/

/-- The monitor enters the prefix: that of macOS also when the kernel refuses it. -/
def enters (r : Reply) (ip : IPAddress) (b : Backend) : Bool := k.accepts ip b && (k = .macos || r.request 0)

variable {k} in
theorem addRoute_of_not_enters {r : Reply} {ip : IPAddress} (h : k.enters r ip b = false) :
    k.addRoute r ip b = (false, b) := by
  unfold enters at h
  unfold addRoute
  cases ha : k.accepts ip b with
  | false => simp
  | true =>
    cases k with
    | macos => simp [ha] at h
    | linux | windows =>
      have hr : r.request 0 = false := by simpa [ha] using h
      simp [hr]

variable {k} in
theorem addRoute_of_enters {r : Reply} {ip : IPAddress} (h : k.enters r ip b = true) :
    (k.addRoute r ip b).2 = { b with exclusionRoutes := insert ip b.exclusionRoutes } := by
  simp only [enters, Bool.and_eq_true] at h
  unfold addRoute
  cases k with
  | macos => simp [h.1]
  | linux | windows =>
    have hr : r.request 0 = true := by simpa using h.2
    simp [h.1, hr]

variable {k} in
theorem addRoute_fst_or {r : Reply} {ip : IPAddress} (h : k.enters r ip b = true) :
    (k.addRoute r ip b).1 = true ∨ ip ∉ b.exclusionRoutes := by
  simp only [enters, Bool.and_eq_true] at h
  cases k with
  | macos => exact .inr (by simpa [accepts] using h.1)
  | linux | windows =>
    have hr : r.request 0 = true := by simpa using h.2
    exact .inl (by simp [addRoute, h.1, hr])

open IPAddress

theorem grows_addRoute (r : Reply) : Step.Grows (fun b : Backend => b.exclusionRoutes.card)
      (fun n text b => k.enters (r.sub n) (ofText qt text) b = true ∧ ofText qt text ∉ b.exclusionRoutes)
      (fun n text => k.addRoute (r.sub n) (ofText qt text)) where
  same n text b h := by
    cases he : k.enters (r.sub n) (ofText qt text) b with
    | false => rw [addRoute_of_not_enters he]
    | true =>
      have hm : ofText qt text ∈ b.exclusionRoutes := by simpa [he] using h
      rw [addRoute_of_enters he, Finset.insert_eq_self.mpr hm]
  lt n text b h := by
    rw [addRoute_of_enters h.1, Finset.card_insert_of_notMem h.2]
    omega

/-- The server's routes are there already, as far as `updatePeer` enters any. -/
def ServerKnown (r : Reply) (config : InterfaceConfig) (b : Backend) : Prop :=
  ¬(config.serverIpv4AddrIn = "" ∧ config.serverIpv6AddrIn = "") → config.hopType ≠ .multiHopExit →
    Monitored k b →
    ∀ n text, (serverTexts config)[n]? = some text →
      ¬(k.enters (r.sub n) (ofText qt text) b = true ∧ ofText qt text ∉ b.exclusionRoutes)

/-- `updatePeer` changes the exclusion routes by the loop over the server's addresses, if it gets to it. -/
theorem exclusionRoutes_updatePeer (r : Reply) (config : InterfaceConfig) (b : Backend) :
    (k.updatePeer qt r config b).2.exclusionRoutes =
      if ¬(config.serverIpv4AddrIn = "" ∧ config.serverIpv6AddrIn = "") ∧ config.hopType ≠ .multiHopExit ∧
        Monitored k b then
        (Step.each (fun n text => k.addRoute (r.sub n) (ofText qt text)) (serverTexts config) b).2.exclusionRoutes
      else b.exclusionRoutes := by
  unfold updatePeer
  by_cases he : config.serverIpv4AddrIn = "" ∧ config.serverIpv6AddrIn = ""
  · rw [if_pos he, if_neg (by tauto)]
    rfl
  · have hp (b : Backend) : Backend.exclusionRoutes { b with peers := insert config.serverPublicKey b.peers } =
        b.exclusionRoutes := rfl
    have hu := k.keeps_uapi hp r
    rw [if_neg he, Step.seq_of_true (serverRoutes_fst ..), hu]
    unfold serverRoutes
    by_cases hh : config.hopType = .multiHopExit
    · rw [if_pos hh, if_neg (by tauto)]
      rfl
    · rw [if_neg hh, Step.ite]
      by_cases hm : (k = .windows || b.monitor) = true
      · rw [if_pos hm, if_pos ⟨he, hh, hm⟩]
      · rw [if_neg hm, if_neg fun h => hm h.2.2]
        rfl

theorem card_updatePeer (r : Reply) (config : InterfaceConfig) (b : Backend) :
    b.exclusionRoutes.card ≤ (k.updatePeer qt r config b).2.exclusionRoutes.card := by
  rw [exclusionRoutes_updatePeer]
  split
  · exact (k.grows_addRoute qt r).le_each _ b
  · exact Nat.le_refl _

theorem exclusionRoutes_updatePeer_iff (r : Reply) (config : InterfaceConfig) (b : Backend) :
    (k.updatePeer qt r config b).2.exclusionRoutes = b.exclusionRoutes ↔ k.ServerKnown qt r config b := by
  rw [exclusionRoutes_updatePeer, ServerKnown]
  split
  · rename_i hr
    rw [forall_prop_of_true hr.1, forall_prop_of_true hr.2.1, forall_prop_of_true hr.2.2,
      ← (k.grows_addRoute qt r).each_le_iff (serverTexts config) b]
    refine ⟨fun h => by rw [h], fun hle => ?_⟩
    rw [(k.grows_addRoute qt r).each_same _ b ((k.grows_addRoute qt r).each_le_iff _ b |>.mp hle)]
  · rename_i hr
    simp only [true_iff]
    intro he hh hm
    exact absurd ⟨he, hh, hm⟩ hr

/-! ## Routes into the tunnel -/

/-- The routes that stand for a range; a default range of no family has none. -/
def parts (ip : IPAddress) : Option (List IPAddress) :=
  if k = .windows ∨ ip.prefixLength > 0 then some [ip] else (halves ip.address).map fun h => [h.1, h.2]

/-- The routes that are inserted before the first one is refused. -/
def sent (k : Kind) : (Nat → Bool) → List IPAddress → List IPAddress
  | _, [] => []
  | ok, p :: l => if ok 0 && k.sends p then p :: sent k (fun n => ok (n + 1)) l else []

/-- The routes that the loop over the allowed ranges inserts before it stops. -/
def insertedRoutes (k : Kind) : (Nat → Reply) → List IPAddress → List IPAddress
  | _, [] => []
  | r, ip :: ranges =>
    match k.parts ip with
    | none => []
    | some l =>
      let s := k.sent (fun n => (r 0).request n) l
      s ++ if s = l then insertedRoutes k (fun n => r (n + 1)) ranges else []

theorem all_insertRoute (ok : Nat → Bool) (l : List IPAddress) (b : Backend) :
    Step.all (fun n p => k.insertRoute (ok n) p) l b =
      (decide (k.sent ok l = l), { b with tunnelRoutes := b.tunnelRoutes ∪ (k.sent ok l).toFinset }) := by
  induction l generalizing ok b with
  | nil => simp [sent]
  | cons p l ih =>
    rw [Step.all_cons, sent]
    cases hs : (ok 0 && k.sends p) with
    | true =>
      have hh : k.insertRoute (ok 0) p b = (true, { b with tunnelRoutes := insert p b.tunnelRoutes }) := by
        simp [insertRoute, hs]
      rw [Step.seq_of_true (by rw [hh]), hh, ih]
      simp
    | false =>
      have hh : k.insertRoute (ok 0) p b = (false, b) := by simp [insertRoute, hs]
      rw [Step.seq_of_false (by rw [hh]), hh]
      simp

variable {k} in
theorem updateRoutePrefix_eq (hm : Monitored k b) (r : Reply) (ip : IPAddress) :
    k.updateRoutePrefix r ip b =
      match k.parts ip with
      | none => (false, b)
      | some l => Step.all (fun n p => k.insertRoute (r.request n) p) l b := by
  have ho : ∀ s : Step Backend, Step.seq s .skip = s := by
    intro s
    funext b
    cases h : (s b).1 with
    | true => rw [Step.seq_of_true h]; exact Prod.ext h.symm rfl
    | false => rw [Step.seq_of_false h]
  unfold updateRoutePrefix parts
  cases k with
  | windows => simp [Step.all_cons, ho]
  | linux | macos =>
    dsimp only
    rw [monitored_eq hm]
    by_cases hl : ip.prefixLength > 0
    · simp [hl, Step.all_cons, ho]
    · cases hh : halves ip.address <;> simp [hl, onHalves, hh, Step.all_cons, ho]

theorem updatePeer_fst (r : Reply) (config : InterfaceConfig) (b : Backend) : (k.updatePeer qt r config b).1 = true ↔
      ¬(config.serverIpv4AddrIn = "" ∧ config.serverIpv6AddrIn = "") ∧ (r.request 2 = true ∨ k = .windows) := by
  unfold updatePeer
  split
  · rename_i he
    simp [he]
  · rename_i he
    rw [Step.seq_of_true (serverRoutes_fst ..), uapi]
    cases r.request 2 <;> simp [he]

/-- The process or service is started, whether or not it can be configured. -/
def starts (r : Reply) : Prop := r.request 0 = true ∧ (k = .windows ∨ r.request 1 = true)

instance (r : Reply) : Decidable (k.starts r) := inferInstanceAs (Decidable (_ ∧ (_ ∨ _)))

variable {k} in
theorem addInterface_running (hrunning : b.running = false) (r : Reply) (config : InterfaceConfig) :
    (k.starts r ∧ (k.addInterface qt r config b).2.running = true) ∨
      (¬k.starts r ∧ k.addInterface qt r config b = (false, b)) := by
  unfold starts addInterface
  rw [if_neg (by simp [hrunning])]
  cases hs : r.request 0 with
  | false => simp
  | true =>
    cases k with
    | windows => exact .inl ⟨by simp, rfl⟩
    | linux | macos =>
      cases hna : r.request 1 with
      | false => simp
      | true => cases hu : r.request 2 <;> simp [started, configured]

end Kind

namespace State

variable {k : Kind} {qt : Qt}

/-! ## Counted exclusions -/

/-- A request for an exclusion is counted or entered. -/
def Touches (k : Kind) (r : Reply) (ip : IPAddress) (d : State Backend) : Prop :=
  ip ∈ d.excludedAddrSet ∨ (Monitored k d.backend ∧ k.enters r ip d.backend = true)

instance (r : Reply) (ip : IPAddress) (d : State Backend) : Decidable (Touches k r ip d) :=
  inferInstanceAs (Decidable (_ ∨ (_ ∧ _)))

/-- How many exclusions there are, counted or entered. -/
def weight (d : State Backend) : Nat := d.excludedAddrSet.length + d.backend.exclusionRoutes.card

open IPAddress

theorem grows_addExclusionRoute (k : Kind) (qt : Qt) (r : Nat → Reply) :
    Step.Grows weight (fun n text d => Touches k (r n) (ofText qt text) d)
      (fun n text => addExclusionRoute (platform k qt) (r n) (ofText qt text)) where
  same n text d h := by
    have hme : ofText qt text ∉ d.excludedAddrSet := fun hme => h (.inl hme)
    have hc : (platform k qt).addExclusionRoute (r n) (ofText qt text) d.backend = (false, d.backend) := by
      by_cases hm : Monitored k d.backend
      · have he : k.enters (r n) (ofText qt text) d.backend = false := by
          simpa using fun he => h (.inr ⟨hm, he⟩)
        exact (Kind.monitored_eq hm _).trans (Kind.addRoute_of_not_enters he)
      · exact if_neg hm
    rw [addExclusionRoute, if_neg hme, Step.seq_of_false (by rw [onBackend_apply, hc]), onBackend_apply, hc]
  lt n text d h := by
    rw [addExclusionRoute]
    by_cases hme : ofText qt text ∈ d.excludedAddrSet
    · rw [if_pos hme]
      simp [weight]
    · obtain ⟨hm, he⟩ : Monitored k d.backend ∧ k.enters (r n) (ofText qt text) d.backend = true := by
        simpa [Touches, hme] using h
      have hc : (platform k qt).addExclusionRoute (r n) (ofText qt text) d.backend =
          k.addRoute (r n) (ofText qt text) d.backend := Kind.monitored_eq hm _
      have hr := Kind.addRoute_of_enters he
      rw [if_neg hme]
      cases hfs : (k.addRoute (r n) (ofText qt text) d.backend).1 with
      | true =>
        have hle := Finset.card_le_card (Finset.subset_insert (ofText qt text) d.backend.exclusionRoutes)
        rw [Step.seq_of_true (by rw [onBackend_apply, hc, hfs]), onBackend_apply, hc, hr]
        simp only [weight, Step.update_apply, List.length_cons]
        omega
      | false =>
        -- refused by the kernel of macOS, and on the list from now on
        have hnew : ofText qt text ∉ d.backend.exclusionRoutes := by
          simpa [hfs] using Kind.addRoute_fst_or he
        rw [Step.seq_of_false (by rw [onBackend_apply, hc, hfs]), onBackend_apply, hc, hr]
        simp [weight, Finset.card_insert_of_notMem hnew]

/-! ## Configuring the interface -/

def routes (P : Platform Backend) (r : FreshReplies) (config : InterfaceConfig) : Step (State Backend) :=
  .all (fun n ip => onBackend (P.updateRoutePrefix (r.updateRoutePrefix n) ip)) config.allowedIPAddressRanges

/-- What comes before the loop over the allowed ranges. -/
def beforeRoutes (P : Platform Backend) (qt : Qt) (r : FreshReplies) (config : InterfaceConfig) :
    Step (State Backend) :=
  .seq (onBackend (P.updatePeer r.updatePeer config)) <|
  .seq (maybeUpdateResolvers P qt r.updateResolvers config) (addresses P r config)

theorem configure_eq (P : Platform Backend) (qt : Qt) (r : FreshReplies) (config : InterfaceConfig) :
    configure P qt r config =
      .seq (beforeRoutes P qt r config) (.seq (routes P r config) (onBackend (P.run r.run .Up config))) := by
  rw [beforeRoutes, Step.seq_assoc, Step.seq_assoc]
  rfl

/-- No step before the loop over the allowed ranges fails. -/
def RoutesReached (k : Kind) (r : FreshReplies) (config : InterfaceConfig) : Prop :=
  (¬(config.serverIpv4AddrIn = "" ∧ config.serverIpv6AddrIn = "") ∧
    (r.updatePeer.request 2 = true ∨ k = .windows)) ∧
    (config.hopType = .multiHopEntry ∨ r.updateResolvers.request 0 = true) ∧
    (k = .windows ∨ (r.addInterfaceIPs.request 0 = true ∧ r.setMTUAndUp.request 0 = true))

instance (r : FreshReplies) (config : InterfaceConfig) : Decidable (RoutesReached k r config) :=
  inferInstanceAs (Decidable ((_ ∧ (_ ∨ _)) ∧ (_ ∨ _) ∧ (_ ∨ (_ ∧ _))))

theorem maybeUpdateResolvers_fst (k : Kind) (qt : Qt) (r : Reply) (config : InterfaceConfig) (d : State Backend) :
    (maybeUpdateResolvers (platform k qt) qt r config d).1 = true ↔
    config.hopType = .multiHopEntry ∨ r.request 0 = true := by
  have hr (l : List QHostAddress) : (onBackend ((platform k qt).updateResolvers r l) d).1 = r.request 0 := by
    show (Kind.updateResolvers r l d.backend).1 = r.request 0
    unfold Kind.updateResolvers
    cases r.request 0 <;> rfl
  rw [maybeUpdateResolvers, if_neg (by simp [platform])]
  cases hh : config.hopType with
  | multiHopEntry => simp
  | singleHop | multiHopExit => simp [hr]

theorem addresses_fst (k : Kind) (qt : Qt) (r : FreshReplies) (config : InterfaceConfig) (d : State Backend) :
    (addresses (platform k qt) r config d).1 = true ↔
      k = .windows ∨ (r.addInterfaceIPs.request 0 = true ∧ r.setMTUAndUp.request 0 = true) := by
  unfold addresses
  cases k with
  | windows => simp [platform]
  | linux | macos =>
    rw [if_pos (by rfl), Step.seq_fst]
    simp [platform, onBackend, Kind.ask]

theorem beforeRoutes_fst (k : Kind) (qt : Qt) (r : FreshReplies) (config : InterfaceConfig) (d : State Backend) :
    (beforeRoutes (platform k qt) qt r config d).1 = true ↔ RoutesReached k r config := by
  rw [beforeRoutes, Step.seq_fst, Step.seq_fst, maybeUpdateResolvers_fst, addresses_fst, RoutesReached]
  exact and_congr_left fun _ => k.updatePeer_fst qt r.updatePeer config d.backend

theorem exclusionRoutes_configure (k : Kind) (qt : Qt) (r : FreshReplies) (config : InterfaceConfig)
    (d : State Backend) :
    (configure (platform k qt) qt r config d).2.backend.exclusionRoutes =
      (k.updatePeer qt r.updatePeer config d.backend).2.exclusionRoutes := by
  have hrest : Step.Keeps (fun d : State Backend => d.backend.exclusionRoutes)
      (.seq (maybeUpdateResolvers (platform k qt) qt r.updateResolvers config) <|
        .seq (addresses (platform k qt) r config) <| .seq (routes (platform k qt) r config) <|
        onBackend ((platform k qt).run r.run .Up config)) :=
    .seq (keeps_maybeUpdateResolvers k qt (fun _ _ => rfl) _ _) <| .seq (keeps_addresses k qt _ _) <|
    .seq (.all (fun _ _ => keeps_updateRoutePrefix k qt (fun _ _ => rfl) _ _) _) fun _ => rfl
  exact hrest.seq_snd (onBackend ((platform k qt).updatePeer r.updatePeer config)) d

theorem weight_configure (k : Kind) (qt : Qt) (r : FreshReplies) (config : InterfaceConfig) (d : State Backend) :
    d.weight ≤ (configure (platform k qt) qt r config d).2.weight := by
  have hc := counts_configure (platform k qt) qt r config d
  simp only [counts, Prod.mk.injEq] at hc
  rw [weight, weight, hc.2, exclusionRoutes_configure]
  exact Nat.add_le_add_left (k.card_updatePeer qt r.updatePeer config d.backend) _

/-- The loop adds the routes that it gets to. -/
theorem tunnelRoutes_all (r : Nat → Reply) (ranges : List IPAddress) (d : State Backend) :
    (Step.all (fun n ip => onBackend ((platform k qt).updateRoutePrefix (r n) ip)) ranges d).2.backend.tunnelRoutes =
      if Monitored k d.backend then d.backend.tunnelRoutes ∪ (k.insertedRoutes r ranges).toFinset
      else d.backend.tunnelRoutes := by
  induction ranges generalizing r d with
  | nil => simp [Kind.insertedRoutes]
  | cons ip ranges ih =>
    rw [Step.all_cons]
    by_cases hm : Monitored k d.backend
    · have hc : (platform k qt).updateRoutePrefix (r 0) ip d.backend = _ := Kind.updateRoutePrefix_eq hm (r 0) ip
      rw [if_pos hm, Kind.insertedRoutes]
      cases hp : k.parts ip with
      | none =>
        rw [hp] at hc
        rw [Step.seq_of_false (by rw [onBackend_apply, hc]), onBackend_apply, hc]
        simp
      | some l =>
        rw [hp] at hc
        simp only [Kind.all_insertRoute] at hc
        by_cases ha : k.sent (fun n => (r 0).request n) l = l
        · rw [Step.seq_of_true (by rw [onBackend_apply, hc]; simpa using ha), ih, onBackend_apply, hc]
          refine (if_pos hm).trans ?_
          simp [ha, Finset.union_assoc]
        · rw [Step.seq_of_false (by rw [onBackend_apply, hc]; simpa using ha), onBackend_apply, hc]
          simp [ha]
    · have hstop : (platform k qt).updateRoutePrefix (r 0) ip d.backend = (false, d.backend) := by
        cases k with
        | windows => exact absurd rfl hm
        | linux | macos => exact if_neg hm
      rw [if_neg hm, Step.seq_of_false (by rw [onBackend_apply, hstop]), onBackend_apply, hstop]

theorem tunnelRoutes_configure (k : Kind) (qt : Qt) (r : FreshReplies) (config : InterfaceConfig) (d : State Backend) :
    (configure (platform k qt) qt r config d).2.backend.tunnelRoutes =
      if RoutesReached k r config ∧ Monitored k d.backend then
        d.backend.tunnelRoutes ∪ (k.insertedRoutes r.updateRoutePrefix config.allowedIPAddressRanges).toFinset
      else d.backend.tunnelRoutes := by
  let view (b : Backend) : Finset IPAddress × Bool := (b.tunnelRoutes, b.monitor)
  have hb : Step.Keeps (fun d : State Backend => view d.backend) (beforeRoutes (platform k qt) qt r config) :=
    .seq (keeps_of_backend (k.keeps_updatePeer qt (fun _ _ => rfl) (fun _ _ => rfl) _ _)) <|
    .seq (keeps_maybeUpdateResolvers k qt (fun _ _ => rfl) _ _) (keeps_addresses k qt _ _)
  have hv := hb d
  have hr := beforeRoutes_fst k qt r config d
  rw [configure_eq]
  generalize beforeRoutes (platform k qt) qt r config = before at hv hr
  simp only [view, Prod.mk.injEq] at hv
  obtain ⟨hro, hm⟩ := hv
  cases hb : (before d).1 with
  | false =>
    rw [Step.seq_of_false hb, if_neg fun h => by simp [hr.mpr h.1] at hb]
    exact hro
  | true =>
    have hru : Step.Keeps (fun d : State Backend => d.backend.tunnelRoutes)
        (onBackend ((platform k qt).run r.run .Up config)) := fun _ => rfl
    rw [Step.seq_of_true hb, hru.seq_snd, routes, tunnelRoutes_all, hro]
    simp only [Monitored, hm, hr.mp hb, true_and]

/-! ## No trace -/

/-- What a failed activation should leave as it was. -/
structure Unchanged (d d' : State Backend) : Prop where
  connections : d'.connections = d.connections
  excludedAddrSet : d'.excludedAddrSet.Perm d.excludedAddrSet
  exclusionRoutes : d'.backend.exclusionRoutes = d.backend.exclusionRoutes
  tunnelRoutes : d'.backend.tunnelRoutes = d.backend.tunnelRoutes
  running : d'.backend.running = d.backend.running

theorem Unchanged.refl (d : State Backend) : Unchanged d d := ⟨rfl, .refl _, rfl, rfl, rfl⟩

theorem Unchanged.weight {d d' : State Backend} (h : Unchanged d d') : d'.weight = d.weight := by
  rw [State.weight, State.weight, h.excludedAddrSet.length_eq, h.exclusionRoutes]

/-- The routes into the tunnel that the activation gets to are there already. -/
def RoutesKnown (k : Kind) (r : FreshReplies) (config : InterfaceConfig) (b : Backend) : Prop :=
  RoutesReached k r config → Monitored k b →
    ∀ p ∈ k.insertedRoutes r.updateRoutePrefix config.allowedIPAddressRanges, p ∈ b.tunnelRoutes

theorem configure_unchanged_iff (k : Kind) (qt : Qt) (r : FreshReplies) (config : InterfaceConfig) (d : State Backend) :
    Unchanged d (configure (platform k qt) qt r config d).2 ↔
      k.ServerKnown qt r.updatePeer config d.backend ∧ RoutesKnown k r config d.backend := by
  have hc := counts_configure (platform k qt) qt r config d
  simp only [counts, Prod.mk.injEq] at hc
  have hs := k.exclusionRoutes_updatePeer_iff qt r.updatePeer config d.backend
  rw [← exclusionRoutes_configure] at hs
  have hro : (configure (platform k qt) qt r config d).2.backend.tunnelRoutes = d.backend.tunnelRoutes ↔
      RoutesKnown k r config d.backend := by
    rw [tunnelRoutes_configure, RoutesKnown]
    split
    · rename_i h
      simp only [Finset.union_eq_left, Finset.subset_iff, List.mem_toFinset, h.1, h.2, true_imp_iff]
    · rename_i h
      simp only [true_iff]
      exact fun hr hm => absurd ⟨hr, hm⟩ h
  rw [← hs, ← hro]
  refine ⟨fun h => ⟨h.exclusionRoutes, h.tunnelRoutes⟩, fun h => ⟨hc.1, ?_, h.1, h.2, ?_⟩⟩
  · rw [hc.2]
  · exact keeps_configure k qt settled_running r config d

/-- Nothing that a fresh activation does before it fails has an effect: without an interface it does not come to start
one; with one, no exclusion is counted or entered, and the routes it inserts are there already. -/
def LeavesNoTrace (k : Kind) (qt : Qt) (r : FreshReplies) (config : InterfaceConfig) (d : State Backend) : Prop :=
  if d.backend.running then
    (∀ n text, config.excludedAddresses[n]? = some text →
      ¬Touches k (r.addExclusionRoute n) (ofText qt text) d) ∧
    k.ServerKnown qt r.updatePeer config d.backend ∧ RoutesKnown k r config d.backend
  else ¬k.starts r.addInterface

theorem running_activateFresh (k : Kind) (qt : Qt) (r : FreshReplies) (config : InterfaceConfig) (d : State Backend) :
    (activateFresh (platform k qt) qt r config d).2.backend.running =
      (bringUp (platform k qt) r.addInterface config d).2.backend.running := by
  have hrest : Step.Keeps (fun d : State Backend => d.backend.running)
      (.seq (addExclusions (platform k qt) qt r.addExclusionRoute config) <|
        .seq (configure (platform k qt) qt r config) <| .update (store config)) :=
    .seq (keeps_addExclusions k qt settled_running.exclusionRoutes _ _) <|
    .seq (keeps_configure k qt settled_running _ _) <| .update fun _ => rfl
  exact hrest.seq_snd (bringUp (platform k qt) r.addInterface config) d

/-- With an interface, a failed activation has added the exclusions and then stopped while it configured the interface.
-/
theorem activateFresh_failed {r : FreshReplies} {config : InterfaceConfig} {d : State Backend}
    (hrunning : d.backend.running = true) (hfa : (activateFresh (platform k qt) qt r config d).1 = false) :
    activateFresh (platform k qt) qt r config d =
      configure (platform k qt) qt r config (addExclusions (platform k qt) qt r.addExclusionRoute config d).2 := by
  have hs : bringUp (platform k qt) r.addInterface config d = (true, d) := if_pos hrunning
  rcases activateFresh_cases (platform k qt) qt r config d with ⟨hup, _⟩ | ⟨_, _, heq⟩ | ⟨_, _, heq⟩
  · rw [hs] at hup
    cases hup
  · rwa [excluding, hs] at heq
  · rw [heq] at hfa
    cases hfa

theorem activateFresh_unchanged_iff {r : FreshReplies} {config : InterfaceConfig} {d : State Backend}
    (hfa : (activateFresh (platform k qt) qt r config d).1 = false) :
    Unchanged d (activateFresh (platform k qt) qt r config d).2 ↔ LeavesNoTrace k qt r config d := by
  unfold LeavesNoTrace
  cases hrunning : d.backend.running with
  | false =>
    have ha : bringUp (platform k qt) r.addInterface config d =
        onBackend ((platform k qt).addInterface r.addInterface config) d := if_neg (by simp [platform, hrunning])
    rw [if_neg (by decide)]
    rcases k.addInterface_running qt hrunning r.addInterface config with ⟨hs, hup⟩ | ⟨hs, hno⟩
    · simp only [hs, not_true_eq_false, iff_false]
      intro h
      have hsa := h.running
      rw [running_activateFresh, ha, hrunning] at hsa
      exact absurd (hup.symm.trans hsa) (by decide)
    · have hstop : bringUp (platform k qt) r.addInterface config d = (false, d) := by
        rw [ha, onBackend_apply, show (platform k qt).addInterface r.addInterface config d.backend = _ from hno]
      have hal : activateFresh (platform k qt) qt r config d = (false, d) :=
        (Step.seq_of_false (by rw [hstop])).trans hstop
      simp only [hs, not_false_eq_true, iff_true, hal]
      exact .refl d
  | true =>
    rw [if_pos rfl, activateFresh_failed hrunning hfa]
    have hg := grows_addExclusionRoute k qt r.addExclusionRoute
    by_cases hi : ∀ n text, config.excludedAddresses[n]? = some text →
        ¬Touches k (r.addExclusionRoute n) (ofText qt text) d
    · have hsa : (addExclusions (platform k qt) qt r.addExclusionRoute config d).2 = d := hg.each_same _ d hi
      rw [hsa, configure_unchanged_iff]
      exact ⟨fun h => ⟨hi, h⟩, fun h => h.2⟩
    · refine iff_of_false (fun h => ?_) fun h => hi h.1
      -- the exclusions only become more from there on
      have hle : (addExclusions (platform k qt) qt r.addExclusionRoute config d).2.weight ≤ d.weight :=
        (weight_configure k qt r config _).trans (le_of_eq h.weight)
      exact hi ((hg.each_le_iff _ d).mp hle)

/-- **What a failed activation leaves behind.** An activation of a daemon without connections that fails, at whatever
steps and on whichever platform, leaves the connections, the counts, the routes and the interface as they were exactly
when nothing that it did before had an effect (`LeavesNoTrace`). -/
theorem activate_failed_unchanged_iff {r : Replies} {config : InterfaceConfig} {d : State Backend}
    (hempty : d.stored = [])
    (hfail : (activate (platform k qt) qt r config d).1 = false) :
    Unchanged d (activate (platform k qt) qt r config d).2 ↔ LeavesNoTrace k qt r.fresh config d := by
  have hno : d.connections config.hopType = none := connections_of_stored hempty _
  have hfr : activate (platform k qt) qt r config d = activateFresh (platform k qt) qt r.fresh config d := by
    simp only [activate, hno]
  rw [hfr] at hfail ⊢
  exact activateFresh_unchanged_iff hfail

/-! ## Examples -/

open FreshReplies

/-- One step fails, with the interface started: its configuration, the peer, the resolvers, the addresses, the MTU, or
the second half of the default range. -/
def lateFailures : List FreshReplies :=
  [{ ok with addInterface := .failAt 2 }, { ok with updatePeer := .failAt 2 },
    { ok with updateResolvers := .failAt 0 }, { ok with addInterfaceIPs := .failAt 0 },
    { ok with setMTUAndUp := .failAt 0 }, { ok with updateRoutePrefix := fun _ => .failAt 1 }]

open Linux

/-- A process that cannot be started leaves nothing. -/
theorem activate_failed_unchanged_not_started :
    Unchanged .idle (activate (platform .linux sampleQt) sampleQt
      { Replies.ok with fresh := { ok with addInterface := .failAt 0 } }
      (sampleInterface [⟨.ipv4 0, 0⟩]) .idle).2 :=
  (activate_failed_unchanged_iff (by decide) (by decide)).mpr (by decide : ¬Kind.linux.starts (.failAt 0))

/-- Every later failure leaves the interface. -/
theorem activate_failed_leaves_interface :
    (∀ r ∈ lateFailures, (activate (platform .linux sampleQt) sampleQt { Replies.ok with fresh := r }
      (sampleInterface [⟨.ipv4 0, 0⟩]) .idle).1 = false) ∧
    ∀ r ∈ lateFailures, ¬Unchanged .idle (activate (platform .linux sampleQt) sampleQt
      { Replies.ok with fresh := r } (sampleInterface [⟨.ipv4 0, 0⟩]) .idle).2 := by
  have hru : ∀ r ∈ lateFailures, (activate (platform .linux sampleQt) sampleQt
      { Replies.ok with fresh := r } (sampleInterface [⟨.ipv4 0, 0⟩]) .idle).2.backend.running = true := by
    simp only [lateFailures, List.forall_mem_cons, List.not_mem_nil, false_imp_iff, implies_true, and_true]
    decide
  constructor
  · simp only [lateFailures, List.forall_mem_cons, List.not_mem_nil, false_imp_iff, implies_true, and_true]
    decide
  · intro r hr h
    exact absurd ((hru r hr).symm.trans h.running) (by decide)

end State

end Cimogus.Daemon
