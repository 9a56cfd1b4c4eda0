import Cimogus.Net.Subnets

/-!
# The routes of a `ProtocolConfig`

`ProtocolConfig.Builder` with what `configBuild` reads and changes: the interface addresses and the MTU that `validate`
looks at, the routes in insertion order, and the split-tunnelling addresses. The two address sets are hash sets; their
lists stand for any order in which such a set may be walked.

`processRoutes` has two ways to deal with exclude routes. Android from Tiramisu on gets them as they are; for older
versions they are replayed through an `IpRangeSet`, where the last route that contains an address decides
(`remaining_spec`), and the remaining ranges become include routes (`processRoutes_flatten`).
-/

namespace Cimogus.Net

open List

structure Route where
  inetNetwork : InetNetwork
  /-- `include`. -/
  included : Bool
  deriving DecidableEq

structure Builder where
  addresses : List InetNetwork
  routes : List Route
  includedAddresses : List InetNetwork
  excludedAddresses : List InetNetwork
  mtu : Int

/-- `LinkedHashSet.add`: an element that is present keeps its place. -/
def linkedAdd {α : Type} [DecidableEq α] (l : List α) (x : α) : List α := if x ∈ l then l else l ++ [x]

/-- `InetNetwork("0.0.0.0", 0)`. -/
def ipv4Default : InetNetwork := ⟨⟨[0, 0, 0, 0], .inl rfl⟩, 0⟩

/-- `InetNetwork("::", 0)`. -/
def ipv6Default : InetNetwork := ⟨⟨List.replicate 16 0, .inr rfl⟩, 0⟩

/-- `InetNetwork("2000::", 3)`. -/
def globalUnicast : InetNetwork := ⟨⟨0x20 :: List.replicate 15 0, .inr rfl⟩, 3⟩

/-- The network of `IpRange("127.0.0.0", 8)`. -/
def ipv4Loopback : InetNetwork := ⟨⟨[127, 0, 0, 0], .inl rfl⟩, 8⟩

/-- `InetNetwork("::1", 128)`. -/
def ipv6Loopback : InetNetwork := ⟨⟨List.replicate 15 0 ++ [1], .inr rfl⟩, 128⟩

theorem ofText_constants :
    InetNetwork.ofText "0.0.0.0".toList 0 = .ok ipv4Default ∧ InetNetwork.ofText "::".toList 0 = .ok ipv6Default ∧
      InetNetwork.ofText "2000::".toList 3 = .ok globalUnicast ∧
      InetNetwork.ofText "127.0.0.0".toList 8 = .ok ipv4Loopback ∧
      InetNetwork.ofText "::1".toList 128 = .ok ipv6Loopback := by
  decide +kernel

/-- `Build.VERSION_CODES.TIRAMISU`. -/
def tiramisu : Nat := 33

namespace Builder

def addRoute (b : Builder) (route : InetNetwork) : Builder := { b with routes := linkedAdd b.routes ⟨route, true⟩ }

def addRoutes (b : Builder) (routes : List InetNetwork) : Builder := routes.foldl addRoute b

def excludeRoute (b : Builder) (route : InetNetwork) : Builder :=
  { b with routes := linkedAdd b.routes ⟨route, false⟩ }

def excludeRoutes (b : Builder) (routes : List InetNetwork) : Builder := routes.foldl excludeRoute b

def removeRoute (b : Builder) (route : InetNetwork) : Builder :=
  { b with routes := b.routes.filter fun r => r.inetNetwork != route }

def prependRoutes (b : Builder) (block : Builder → Builder) : Builder :=
  let b' := block { b with routes := [] }
  { b' with routes := b.routes.foldl linkedAdd b'.routes }

def processSplitTunneling (b : Builder) : Except String Builder :=
  if b.includedAddresses ≠ [] ∧ b.excludedAddresses ≠ [] then
    .error "Config contains addresses for inclusive and exclusive split tunneling at the same time"
  else if b.includedAddresses ≠ [] then
    let b := ((b.removeRoute ipv4Default).removeRoute ipv6Default).removeRoute globalUnicast
    .ok (b.prependRoutes fun b => b.addRoutes b.includedAddresses)
  else if b.excludedAddresses ≠ [] then
    .ok (b.prependRoutes fun b => ((b.addRoute ipv4Default).addRoute globalUnicast).excludeRoutes b.excludedAddresses)
  else .ok b

/-- The first part of `processRoutes`: an include route `::/0` is replaced by `2000::/3`, in front. -/
def replaceIpv6Default (b : Builder) : Builder :=
  if b.routes.any fun r => r.included && r.inetNetwork == ipv6Default then
    { b with routes := b.routes.filter fun r => !(r.included && r.inetNetwork == ipv6Default) }.prependRoutes
      (·.addRoute globalUnicast)
  else b

/-- One route of `routes.forEach` replayed into the range set. -/
def replayRoute (s : IpRangeSet) (r : Route) : Except String IpRangeSet := do
  let range ← IpRange.fromNetwork r.inetNetwork
  if r.included then s.add range else s.remove range

def replay (s : IpRangeSet) (routes : List Route) : Except String IpRangeSet := routes.foldlM replayRoute s

/-- The range set of the older versions: the routes in order, then the loopback networks removed. -/
def remaining (routes : List Route) : Except String IpRangeSet :=
  replay .empty (routes ++ [⟨ipv4Loopback, false⟩, ⟨ipv6Loopback, false⟩])

def rangeSetSubnets (s : IpRangeSet) : Except String (List InetNetwork) := do
  return (← s.ranges.mapM IpRange.subnets).flatten

/-- The second part of `processRoutes`: a list of subnets without the excluded routes. -/
def flattenRoutes (b : Builder) : Except String Builder := do
  let ipRangeSet ← remaining b.routes
  return { b with routes := [] }.addRoutes (← rangeSetSubnets ipRangeSet)

/-- The routes that the third part of `processRoutes` removes. -/
def isLoopbackRoute (r : Route) : Bool :=
  r.included && if r.inetNetwork.isIpv4 then r.inetNetwork.address.address.head? == some 127
    else r.inetNetwork == ipv6Loopback

def processRoutes (sdkInt : Nat) (b : Builder) : Except String Builder := do
  let b := b.replaceIpv6Default
  let b ← if sdkInt < tiramisu ∧ b.routes.any fun r => !r.included then b.flattenRoutes else .ok b
  return { b with routes := b.routes.filter fun r => !isLoopbackRoute r }

def validate (b : Builder) : Except String Unit :=
  let errorMessage :=
    (if b.addresses = [] then "VPN interface network address not specified.\n" else "") ++
    (if b.routes = [] then "VPN interface route not specified.\n" else "") ++
    (if b.mtu = 0 then "MTU not set.\n" else "")
  if errorMessage ≠ "" then .error errorMessage else .ok ()

def configBuild (sdkInt : Nat) (b : Builder) : Except String Builder := do
  let b ← b.processSplitTunneling
  let b ← b.processRoutes sdkInt
  b.validate
  return b

end Builder

open Lib.Bytes

/-! ## Insertion-ordered sets -/

section LinkedSet

variable {α : Type} [DecidableEq α]

theorem linkedAdd_of_mem {l : List α} {x : α} (h : x ∈ l) : linkedAdd l x = l := if_pos h

theorem linkedAdd_of_notMem {l : List α} {x : α} (h : x ∉ l) : linkedAdd l x = l ++ [x] := if_neg h

theorem foldl_linkedAdd :
    ∀ (xs l : List α), ∃ ys, ys.Sublist xs ∧ (∀ y ∈ ys, y ∉ l) ∧ xs.foldl linkedAdd l = l ++ ys ∧
    ∀ x ∈ xs, x ∈ l ++ ys
  | [], l => ⟨[], List.Sublist.refl _, by simp, by simp, by simp⟩
  | x :: xs, l => by
    by_cases hx : x ∈ l
    · obtain ⟨ys, hs, hnew, heq, ha⟩ := foldl_linkedAdd xs l
      refine ⟨ys, hs.cons x, hnew, by rw [foldl_cons, linkedAdd_of_mem hx, heq], fun z hz => ?_⟩
      rcases mem_cons.mp hz with rfl | hz
      · exact mem_append_left _ hx
      · exact ha z hz
    · obtain ⟨ys, hs, hnew, heq, ha⟩ := foldl_linkedAdd xs (l ++ [x])
      refine ⟨x :: ys, hs.cons_cons x, ?_, by rw [foldl_cons, linkedAdd_of_notMem hx, heq]; simp, ?_⟩
      · intro y hy
        rcases mem_cons.mp hy with rfl | hy
        · exact hx
        · exact fun h => hnew y hy (mem_append_left _ h)
      · intro z hz
        rcases mem_cons.mp hz with rfl | hz
        · simp
        · simpa using ha z hz

theorem mem_foldl_linkedAdd {xs l : List α} {x : α} : x ∈ xs.foldl linkedAdd l ↔ x ∈ l ∨ x ∈ xs := by
  obtain ⟨ys, hs, _, heq, ha⟩ := foldl_linkedAdd xs l
  rw [heq]
  constructor
  · intro h
    rcases mem_append.mp h with h | h
    · exact .inl h
    · exact .inr (hs.subset h)
  · rintro (h | h)
    · exact mem_append_left _ h
    · exact ha x h

end LinkedSet

namespace Builder

theorem addRoutes_eq (ns : List InetNetwork) : ∀ b : Builder,
    b.addRoutes ns = { b with routes := (ns.map (Route.mk · true)).foldl linkedAdd b.routes } := by
  induction ns with
  | nil => exact fun b => rfl
  | cons n ns ih => exact fun b => ih (b.addRoute n)

theorem excludeRoutes_eq (ns : List InetNetwork) : ∀ b : Builder,
    b.excludeRoutes ns = { b with routes := (ns.map (Route.mk · false)).foldl linkedAdd b.routes } := by
  induction ns with
  | nil => exact fun b => rfl
  | cons n ns ih => exact fun b => ih (b.excludeRoute n)

/-! ## Replaying routes -/

/-- The last route that contains the address decides; `d` if there is none. -/
def lastMatchFrom (a : IpAddress) (d : Bool) (routes : List Route) : Bool :=
  routes.foldl (fun d r => if r.inetNetwork.Contains a then r.included else d) d

def lastMatch (routes : List Route) (a : IpAddress) : Bool := lastMatchFrom a false routes

theorem lastMatchFrom_append (a : IpAddress) (d : Bool) (l l' : List Route) :
    lastMatchFrom a d (l ++ l') = lastMatchFrom a (lastMatchFrom a d l) l' := List.foldl_append

variable {s : IpRangeSet}

theorem replayRoute_spec (hs : s.WellFormed) (r : Route) : ∃ s', replayRoute s r = .ok s' ∧ s'.WellFormed ∧
      ∀ a, a ∈ s'.addresses ↔ if r.inetNetwork.Contains a then r.included = true else a ∈ s.addresses := by
  obtain ⟨range, hra, hm⟩ := IpRange.fromNetwork_spec r.inetNetwork
  cases hr : r.included with
  | true =>
    obtain ⟨s', had, hs', ha⟩ := IpRangeSet.add_spec hs range
    refine ⟨s', by rw [replayRoute, hra, hr]; exact had, hs', fun a => ?_⟩
    rw [ha, Set.mem_union, hm]
    by_cases h : r.inetNetwork.Contains a <;> simp [h]
  | false =>
    obtain ⟨s', hre, hs', ha⟩ := IpRangeSet.remove_spec hs range
    refine ⟨s', by rw [replayRoute, hra, hr]; exact hre, hs', fun a => ?_⟩
    rw [ha, Set.mem_sdiff, hm]
    by_cases h : r.inetNetwork.Contains a <;> simp [h]

theorem replay_spec : ∀ (routes : List Route) {s : IpRangeSet} {d : IpAddress → Bool}, s.WellFormed →
    (∀ a, a ∈ s.addresses ↔ d a = true) → ∃ s', replay s routes = .ok s' ∧ s'.WellFormed ∧
      ∀ a, a ∈ s'.addresses ↔ lastMatchFrom a (d a) routes = true
  | [], s, d, hs, hd => ⟨s, rfl, hs, hd⟩
  | r :: routes, s, d, hs, hd => by
    obtain ⟨s₁, h₁, hs₁, ha₁⟩ := replayRoute_spec hs r
    obtain ⟨s₂, h₂, hs₂, ha₂⟩ :=
      replay_spec routes (d := fun a => if r.inetNetwork.Contains a then r.included else d a)
      hs₁ (fun a => by rw [ha₁]; split <;> simp [hd])
    refine ⟨s₂, ?_, hs₂, ha₂⟩
    rw [replay, foldlM_cons, h₁]
    exact h₂

def Loopback (a : IpAddress) : Prop := ipv4Loopback.Contains a ∨ ipv6Loopback.Contains a

theorem remaining_spec (routes : List Route) : ∃ s, remaining routes = .ok s ∧ s.WellFormed ∧
    ∀ a, a ∈ s.addresses ↔ lastMatch routes a = true ∧ ¬Loopback a := by
  obtain ⟨s, hs, hwf, ha⟩ := replay_spec (routes ++ [⟨ipv4Loopback, false⟩, ⟨ipv6Loopback, false⟩])
    (d := fun _ => false) IpRangeSet.wellFormed_empty (fun a => by simp [IpRangeSet.empty, IpRangeSet.addresses])
  refine ⟨s, hs, hwf, fun a => ?_⟩
  rw [ha, lastMatchFrom_append, Loopback]
  show lastMatchFrom a (lastMatch routes a) _ = true ↔ _
  simp only [lastMatchFrom, foldl_cons, foldl_nil]
  by_cases h₁ : ipv4Loopback.Contains a <;> by_cases h₂ : ipv6Loopback.Contains a <;> simp [h₁, h₂]

/-! ## The remaining ranges as routes -/

def rangeSetBlocks (s : IpRangeSet) : Except String (List (IpAddress × Nat)) := do
  return (← s.ranges.mapM IpRange.subnetBlocks).flatten

/-- The block is one of those a member of the list is split into. -/
def BlockOf (ranges : List IpRange) (block : IpAddress × Nat) : Prop :=
  ∃ r ∈ ranges, ∃ blocks, IpRange.Greedy r.stop r.start blocks ∧ block ∈ blocks

theorem BlockOf.aligned {ranges : List IpRange} {block : IpAddress × Nat} (h : BlockOf ranges block) :
    IpRange.Aligned block := by
  obtain ⟨_, _, _, hg, hb⟩ := h
  exact hg.aligned block hb

theorem rangeSetBlocks_spec (s : IpRangeSet) : ∃ blocks, rangeSetBlocks s = .ok blocks ∧
    rangeSetSubnets s = .ok (blocks.map IpRange.readBack) ∧ (∀ block ∈ blocks, BlockOf s.ranges block) ∧
    ∀ a, (∃ block ∈ blocks, (IpRange.blockNetwork block).Contains a) ↔ a ∈ s.addresses := by
  have hl : ∀ ranges : List IpRange, ∃ bss, ranges.mapM IpRange.subnetBlocks = .ok bss ∧
      ranges.mapM IpRange.subnets = .ok (bss.map (·.map IpRange.readBack)) ∧
      (∀ block ∈ bss.flatten, BlockOf ranges block) ∧
      ∀ a, (∃ block ∈ bss.flatten, (IpRange.blockNetwork block).Contains a) ↔
        ∃ r ∈ ranges, a ∈ r.toSet := by
    intro ranges
    induction ranges with
    | nil => exact ⟨[], rfl, rfl, by simp, by simp⟩
    | cons r ranges ih =>
      obtain ⟨bss, hbs, hns, ha, hc⟩ := ih
      obtain ⟨blocks, hblocks, hg⟩ := r.subnetBlocks_greedy
      refine ⟨blocks :: bss, ?_, ?_, ?_, fun a => ?_⟩
      · rw [mapM_cons, hblocks, hbs]; rfl
      · rw [mapM_cons, IpRange.subnets_eq hblocks, hns]; rfl
      · intro block hb
        rcases mem_append.mp (flatten_cons ▸ hb) with hb | hb
        · exact ⟨r, mem_cons_self, blocks, hg, hb⟩
        · obtain ⟨r', hr', h⟩ := ha block hb
          exact ⟨r', mem_cons_of_mem _ hr', h⟩
      · have hco : (∃ r' ∈ r :: ranges, a ∈ r'.toSet) ↔ a ∈ r.toSet ∨ ∃ r' ∈ ranges, a ∈ r'.toSet :=
          by simp
        have hc' : (∃ block ∈ blocks, (IpRange.blockNetwork block).Contains a) ↔ a ∈ r.toSet :=
          hg.contains_iff a
        rw [hco, ← hc', ← hc, flatten_cons]
        simp only [mem_append, or_and_right, exists_or]
  obtain ⟨bss, hbs, hns, ha, hc⟩ := hl s.ranges
  refine ⟨bss.flatten, by rw [rangeSetBlocks, hbs]; rfl, ?_, ha, hc⟩
  rw [rangeSetSubnets, hns, map_flatten]
  rfl

theorem contains_self (n : InetNetwork) : n.Contains n.ip := ⟨rfl, rfl⟩

variable {b : Builder}

theorem routes_flattenRoutes {ns : List InetNetwork} (hs : remaining b.routes = .ok s)
    (hns : rangeSetSubnets s = .ok ns) : ∃ b', b.flattenRoutes = .ok b' ∧
      ∀ r, r ∈ b'.routes ↔ r.included = true ∧ r.inetNetwork ∈ ns := by
  refine ⟨{ b with routes := [] }.addRoutes ns, ?_, fun r => ?_⟩
  · rw [flattenRoutes, hs]
    show (rangeSetSubnets s >>= fun ns => pure ({ b with routes := [] }.addRoutes ns)) = _
    rw [hns]
    rfl
  rw [addRoutes_eq, mem_foldl_linkedAdd, mem_map]
  obtain ⟨n, i⟩ := r
  constructor
  · rintro (h | ⟨n', hn', h⟩)
    · cases h
    · cases h; exact ⟨rfl, hn'⟩
  · rintro ⟨rfl, hn⟩
    exact .inr ⟨n, hn, rfl⟩

/-- 127.0.0.0/8 is recognised by its first byte. -/
theorem ipv4Loopback_contains_iff {a : IpAddress} (h4 : a.size = 4) :
    ipv4Loopback.Contains a ↔ a.address.head? = some 127 := by
  have hb : ipv4Loopback.hostBits = 24 := rfl
  have hip : ipv4Loopback.ip.toNat / 2 ^ 24 = 127 := by decide
  obtain ⟨x, bs, hx⟩ :=
    exists_cons_of_length_pos (show 0 < a.address.length by rw [show a.address.length = 4 from h4]; decide)
  have hl : bs.length = 3 := by
    have : a.address.length = 4 := h4
    rw [hx, length_cons] at this
    omega
  have hd : a.toNat / 2 ^ 24 = x.toNat := by
    have hv := value_lt bs
    rw [hl] at hv
    rw [IpAddress.toNat, hx, value_cons, hl]
    omega
  rw [InetNetwork.Contains, hb, hd, hx, head?_cons, Option.some.injEq, ← UInt8.toNat_inj]
  exact and_iff_right h4

theorem not_isLoopbackRoute {r : Route} (h : ¬Loopback r.inetNetwork.ip) : isLoopbackRoute r = false := by
  rw [Bool.eq_false_iff]
  intro hr
  rw [isLoopbackRoute, Bool.and_eq_true] at hr
  obtain ⟨_, hr⟩ := hr
  split at hr
  · rename_i h4
    have h4 : r.inetNetwork.ip.size = 4 := beq_iff_eq.mp h4
    exact h (.inl ((ipv4Loopback_contains_iff h4).mpr (beq_iff_eq.mp hr)))
  · rw [beq_iff_eq] at hr
    exact h (.inr (by rw [hr]; exact contains_self _))

/-- On older versions, routes with an exclude route among them become the networks of the remaining ranges. -/
theorem processRoutes_flatten {sdkInt : Nat} (hsd : sdkInt < tiramisu)
    (hex : ∃ r ∈ b.replaceIpv6Default.routes, r.included = false)
    (hs : remaining b.replaceIpv6Default.routes = .ok s) {ns : List InetNetwork} (hns : rangeSetSubnets s = .ok ns) :
    ∃ b', b.processRoutes sdkInt = .ok b' ∧
      ∀ r, r ∈ b'.routes ↔ r.included = true ∧ r.inetNetwork ∈ ns ∧ isLoopbackRoute r = false := by
  obtain ⟨b', hb', hro⟩ := routes_flattenRoutes hs hns
  have ha : b.replaceIpv6Default.routes.any (fun r => !r.included) = true := by
    obtain ⟨r, hr, hi⟩ := hex
    exact any_eq_true.mpr ⟨r, hr, by rw [hi]; rfl⟩
  refine ⟨{ b' with routes := b'.routes.filter fun r => !isLoopbackRoute r }, ?_, fun r => ?_⟩
  · rw [processRoutes]
    simp only [hsd, ha, and_self, if_true, hb']
    rfl
  · rw [mem_filter, hro, Bool.not_eq_true', and_assoc]

theorem processRoutes_keep {sdkInt : Nat}
    (h : ¬(sdkInt < tiramisu ∧ ∃ r ∈ b.replaceIpv6Default.routes, r.included = false)) :
    ∃ b', b.processRoutes sdkInt = .ok b' ∧ b'.routes = b.replaceIpv6Default.routes.filter fun r =>
      !isLoopbackRoute r := by
  refine ⟨{ b.replaceIpv6Default with
    routes := b.replaceIpv6Default.routes.filter fun r => !isLoopbackRoute r }, ?_, rfl⟩
  rw [processRoutes]
  have hc : ¬(sdkInt < tiramisu ∧ b.replaceIpv6Default.routes.any (fun r => !r.included) = true) := by
    rintro ⟨hs, ha⟩
    obtain ⟨r, hr, hi⟩ := any_eq_true.mp ha
    exact h ⟨hs, r, hr, by simpa using hi⟩
  simp only [hc, if_false]
  rfl

end Builder

end Cimogus.Net
