import Cimogus.Net.ShortestSubnets
import Mathlib.Data.Set.Finite.Lemmas

/-!
# The two ways to exclude routes

Android from Tiramisu on decides each address by the longest route that contains it (`Routed`, the documented behaviour
of `VpnService`); on older versions the last route in the list that contains it decides, through the range set. The
two agree on a list exactly when no route is overridden on the way (`pathsAgree_iff`).
-/

namespace Cimogus.Net

open List

variable {block : IpAddress × Nat}

namespace Builder

/-- `VpnService`: the longest route that contains the address is an include route. -/
def Routed (routes : List Route) (a : IpAddress) : Prop :=
  ∃ r ∈ routes, r.included = true ∧ r.inetNetwork.Contains a ∧
    ∀ s ∈ routes, s.inetNetwork.Contains a → s.inetNetwork.mask ≤ r.inetNetwork.mask

/-- `VpnService.Builder` accepts the prefix length. -/
def Valid (n : InetNetwork) : Prop := n.mask ≤ n.ip.maxMask

/-- The IPv6 form of a loopback IPv4 address, `::ffff:127.0.0.0/104`, which `InetAddress` reads as that address. -/
def MappedLoopback (a : IpAddress) : Prop := IpRange.Mapped a ∧ a.address[12]? = some 127

def LoopbackAddress (a : IpAddress) : Prop := Loopback a ∨ MappedLoopback a

/-- Both versions get routes they accept, and route the same addresses that are not loopback addresses. -/
def PathsAgree (older newer : Nat) (b : Builder) : Prop :=
  ∃ bo bn, (b.processSplitTunneling >>= processRoutes older) = .ok bo ∧
    (b.processSplitTunneling >>= processRoutes newer) = .ok bn ∧
    (∀ r ∈ bo.routes, Valid r.inetNetwork) ∧ (∀ r ∈ bn.routes, Valid r.inetNetwork) ∧
    ∀ a, ¬LoopbackAddress a → (Routed bo.routes a ↔ Routed bn.routes a)

/-- No network is both included and excluded. -/
def NoConflict (routes : List Route) : Prop :=
  ∀ r ∈ routes, ∀ s ∈ routes, r.inetNetwork.mask = s.inetNetwork.mask →
    r.inetNetwork.Contains s.inetNetwork.ip →
    r.included = s.included

/-- A route `p` is followed by a route `q` of the other kind that is shorter (or survives only on older versions), and
for some address of both no later and no longer route decides. -/
def ExposedInversion (routes : List Route) : Prop :=
  ∃ l₁ p l₂ q l₃ a, routes = l₁ ++ p :: (l₂ ++ q :: l₃) ∧ p.included ≠ q.included ∧
    isLoopbackRoute p = false ∧
    (isLoopbackRoute q = true ∨ q.inetNetwork.mask < p.inetNetwork.mask) ∧ ¬LoopbackAddress a ∧
    p.inetNetwork.Contains a ∧ q.inetNetwork.Contains a ∧ (∀ r ∈ l₃, ¬r.inetNetwork.Contains a) ∧
    ∀ r ∈ routes, isLoopbackRoute r = false → r.inetNetwork.Contains a →
      r.inetNetwork.mask ≤ p.inetNetwork.mask

/-- A route taken for a loopback route is the only kind of route for some other address. -/
def ExposedDropped (routes : List Route) : Prop :=
  ∃ q ∈ routes, ∃ a, isLoopbackRoute q = true ∧ ¬LoopbackAddress a ∧ q.inetNetwork.Contains a ∧
    ∀ r ∈ routes, r.inetNetwork.Contains a → isLoopbackRoute r = true

/-- The last match of an IPv4-mapped address that is not a loopback address is an include route, unless all of
`::fffe:0:0/95` is included: a block of the remaining ranges then starts at such an address (`unusableBlock_iff`). -/
def UnusableBlock (routes : List Route) : Prop :=
  (∃ a, IpRange.Mapped a ∧ ¬MappedLoopback a ∧ lastMatch routes a = true) ∧
    ∃ a, IpRange.aroundMapped.Contains a ∧ lastMatch routes a = false

/-! ## The last and the longest match -/

variable {a : IpAddress}

theorem lastMatchFrom_of_noMatch {d : Bool} : ∀ {routes : List Route},
    (∀ r ∈ routes, ¬r.inetNetwork.Contains a) → lastMatchFrom a d routes = d
  | [], _ => rfl
  | r :: routes, h => by
    have hr : ¬r.inetNetwork.Contains a := h r mem_cons_self
    have ih := lastMatchFrom_of_noMatch (d := d) fun s hs => h s (mem_cons_of_mem _ hs)
    simpa [lastMatchFrom, hr] using ih

theorem lastMatch_eq {l l' : List Route} {q : Route} (hq : q.inetNetwork.Contains a)
    (hl' : ∀ r ∈ l', ¬r.inetNetwork.Contains a) : lastMatch (l ++ q :: l') a = q.included := by
  rw [lastMatch, lastMatchFrom_append]
  show lastMatchFrom a (if q.inetNetwork.Contains a then q.included else _) l' = _
  rw [if_pos hq, lastMatchFrom_of_noMatch hl']

theorem exists_last_match : ∀ {routes : List Route}, (∃ r ∈ routes, r.inetNetwork.Contains a) →
    ∃ l q l', routes = l ++ q :: l' ∧ q.inetNetwork.Contains a ∧ ∀ r ∈ l', ¬r.inetNetwork.Contains a
  | [], ⟨_, h, _⟩ => by cases h
  | r :: routes, hr => by
    by_cases h : ∃ r ∈ routes, r.inetNetwork.Contains a
    · obtain ⟨l, q, l', rfl, hq, hl'⟩ := exists_last_match h
      exact ⟨r :: l, q, l', rfl, hq, hl'⟩
    · refine ⟨[], r, routes, rfl, ?_, fun s hs hc => h ⟨s, hs, hc⟩⟩
      obtain ⟨s, hs, hc⟩ := hr
      rcases mem_cons.mp hs with rfl | hs
      · exact hc
      · exact absurd ⟨s, hs, hc⟩ h

theorem exists_longest_match {routes : List Route} (h : ∃ r ∈ routes, r.inetNetwork.Contains a) :
    ∃ m ∈ routes, m.inetNetwork.Contains a ∧ ∀ s ∈ routes, s.inetNetwork.Contains a →
      s.inetNetwork.mask ≤ m.inetNetwork.mask := by
  obtain ⟨m, hm, hma⟩ := Set.exists_max_image {r | r ∈ routes ∧ r.inetNetwork.Contains a} (·.inetNetwork.mask)
    (routes.finite_toSet.subset fun _ hr => hr.1) h
  exact ⟨m, hm.1, hm.2, fun s hs hc => hma s ⟨hs, hc⟩⟩

variable {routes : List Route}

theorem routed_of_included (h : ∀ r ∈ routes, r.included = true) (a : IpAddress) :
    Routed routes a ↔ ∃ r ∈ routes, r.inetNetwork.Contains a := by
  constructor
  · rintro ⟨r, hr, _, hc, _⟩
    exact ⟨r, hr, hc⟩
  · intro hr
    obtain ⟨m, hm, hc, hma⟩ := exists_longest_match hr
    exact ⟨m, hm, h m hm, hc, hma⟩

theorem NoConflict.included_eq (h : NoConflict routes) {r s : Route} (hr : r ∈ routes)
    (hs : s ∈ routes) (hm : r.inetNetwork.mask = s.inetNetwork.mask) (har : r.inetNetwork.Contains a)
    (has : s.inetNetwork.Contains a) : r.included = s.included := by
  refine h r hr s hs hm ⟨has.1.symm.trans har.1, ?_⟩
  have hb : r.inetNetwork.hostBits = s.inetNetwork.hostBits := by
    rw [InetNetwork.hostBits, InetNetwork.hostBits, hm, IpAddress.maxMask, IpAddress.maxMask, ← har.1, ← has.1]
  have h₁ := har.2
  have h₂ := has.2
  rw [← hb] at h₂
  rw [← h₁, ← h₂]

/-! ## When the last match is the longest -/

def keptRoutes (routes : List Route) : List Route := routes.filter fun r => !isLoopbackRoute r

theorem mem_keptRoutes {r : Route} : r ∈ keptRoutes routes ↔ r ∈ routes ∧ isLoopbackRoute r = false := by
  rw [keptRoutes, mem_filter, Bool.not_eq_true']

theorem included_of_isLoopbackRoute {r : Route} (h : isLoopbackRoute r = true) : r.included = true :=
  (Bool.and_eq_true _ _ ▸ h : r.included = true ∧ _).1

/-- The longest kept route decides. -/
theorem routed_keptRoutes_iff (hco : NoConflict routes) {m : Route} (hm : m ∈ keptRoutes routes)
    (hc : m.inetNetwork.Contains a)
    (hmax : ∀ s ∈ keptRoutes routes, s.inetNetwork.Contains a → s.inetNetwork.mask ≤ m.inetNetwork.mask) :
    Routed (keptRoutes routes) a ↔ m.included = true := by
  constructor
  · rintro ⟨r, hr, hi, hcr, hmaxr⟩
    have hma : m.inetNetwork.mask = r.inetNetwork.mask := le_antisymm (hmaxr m hm hc) (hmax r hr hcr)
    rw [hco.included_eq (mem_keptRoutes.mp hm).1 (mem_keptRoutes.mp hr).1 hma hc hcr]
    exact hi
  · exact fun hi => ⟨m, hm, hi, hc, hmax⟩

theorem lastMatch_iff_routed (hco : NoConflict routes) (hi : ¬ExposedInversion routes)
    (hd : ¬ExposedDropped routes) (ha : ¬LoopbackAddress a) :
    lastMatch routes a = true ↔ Routed (keptRoutes routes) a := by
  by_cases hma : ∃ r ∈ routes, r.inetNetwork.Contains a
  swap
  · rw [lastMatch, lastMatchFrom_of_noMatch fun r hr hc => hma ⟨r, hr, hc⟩]
    refine iff_of_false (by simp) ?_
    rintro ⟨r, hr, _, hc, _⟩
    exact hma ⟨r, (mem_keptRoutes.mp hr).1, hc⟩
  obtain ⟨l, q, l', hsplit, hq, hl'⟩ := exists_last_match hma
  have hqm : q ∈ routes := by rw [hsplit]; simp
  by_cases hke : ∃ r ∈ keptRoutes routes, r.inetNetwork.Contains a
  swap
  · refine absurd ⟨q, hqm, a, ?_, ha, hq, fun r hr hc => ?_⟩ hd
    · by_contra h
      exact hke ⟨q, mem_keptRoutes.mpr ⟨hqm, Bool.eq_false_iff.mpr h⟩, hq⟩
    · by_contra h
      exact hke ⟨r, mem_keptRoutes.mpr ⟨hr, Bool.eq_false_iff.mpr h⟩, hc⟩
  obtain ⟨m, hm, hmc, hmax⟩ := exists_longest_match hke
  obtain ⟨hmm, hmk⟩ := mem_keptRoutes.mp hm
  rw [routed_keptRoutes_iff hco hm hmc hmax, hsplit, lastMatch_eq hq hl']
  by_contra hne
  have hki : m.included ≠ q.included := fun h => hne (by rw [h])
  -- the longest route is not the last one, so it stands before it
  have hml : m ∈ l := by
    rw [hsplit] at hmm
    rcases mem_append.mp hmm with h | h
    · exact h
    · rcases mem_cons.mp h with rfl | h
      · exact absurd rfl hki
      · exact absurd hmc (hl' m h)
  obtain ⟨l₁, l₂, rfl⟩ := append_of_mem hml
  refine hi ⟨l₁, m, l₂, q, l', a, by rw [hsplit]; simp, hki, hmk, ?_, ha, hmc, hq, hl',
    fun r hr hk hc => hmax r (mem_keptRoutes.mpr ⟨hr, hk⟩) hc⟩
  by_cases hqk : isLoopbackRoute q = true
  · exact .inl hqk
  · have hqke := mem_keptRoutes.mpr ⟨hqm, Bool.eq_false_iff.mpr hqk⟩
    refine .inr (lt_of_le_of_ne (hmax q hqke hq) fun hmas => hki ?_)
    exact hco.included_eq (mem_keptRoutes.mp hm).1 hqm hmas.symm hmc hq

/-- An exposed inversion shows. -/
theorem ExposedInversion.disagree (hco : NoConflict routes) (h : ExposedInversion routes) :
    ∃ a, ¬LoopbackAddress a ∧ ¬(lastMatch routes a = true ↔ Routed (keptRoutes routes) a) := by
  obtain ⟨l₁, p, l₂, q, l₃, a, hsplit, hk, hpk, _, ha, hp, hq, hl₃, hm⟩ := h
  refine ⟨a, ha, ?_⟩
  have hpm : p ∈ routes := by rw [hsplit]; simp
  have hlast : lastMatch routes a = q.included := by
    have := lastMatch_eq (l := l₁ ++ p :: l₂) hq hl₃
    rwa [append_assoc, cons_append, ← hsplit] at this
  rw [hlast, routed_keptRoutes_iff hco (mem_keptRoutes.mpr ⟨hpm, hpk⟩) hp fun s hs hc =>
    hm s (mem_keptRoutes.mp hs).1 (mem_keptRoutes.mp hs).2 hc]
  intro hi
  exact hk (Bool.eq_iff_iff.mpr hi).symm

/-- An exposed dropped route shows. -/
theorem ExposedDropped.disagree (h : ExposedDropped routes) :
    ∃ a, ¬LoopbackAddress a ∧ ¬(lastMatch routes a = true ↔ Routed (keptRoutes routes) a) := by
  obtain ⟨q, hqm, a, _, ha, hq, hal⟩ := h
  refine ⟨a, ha, fun hi => ?_⟩
  obtain ⟨l, r, l', hsplit, hr, hl'⟩ := exists_last_match ⟨q, hqm, hq⟩
  have hrm : r ∈ routes := by rw [hsplit]; simp
  have hlast : lastMatch routes a = true := by
    rw [hsplit, lastMatch_eq hr hl']
    exact included_of_isLoopbackRoute (hal r hrm hr)
  obtain ⟨m, hm, _, hc, _⟩ := hi.mp hlast
  obtain ⟨hme, hk⟩ := mem_keptRoutes.mp hm
  rw [hal m hme hc] at hk
  cases hk

/-! ## Blocks at IPv4-mapped addresses -/

theorem le_of_dvd_of_odd {h k v : Nat} (hdv : 2 ^ h ∣ v) (ho : v / 2 ^ k % 2 = 1) : h ≤ k := by
  by_contra hlt
  have hd : 2 ^ (k + 1) ∣ v := (pow_dvd_pow 2 (by omega)).trans hdv
  obtain ⟨c, rfl⟩ := hd
  rw [pow_succ, mul_assoc, Nat.mul_div_cancel_left _ (by positivity)] at ho
  omega

theorem mappedLoopback_iff (h16 : a.size = 16) : MappedLoopback a ↔ a.toNat / 2 ^ 24 = 16777087 := by
  have hl : a.address.length = 16 := h16
  have hp := Lib.Bytes.value_div_eq_iff a.address (List.replicate 10 0 ++ [0xff, 0xff, 127]) (by rw [hl]; decide)
  rw [hl, show Lib.Bytes.value (List.replicate 10 0 ++ [0xff, 0xff, 127]) = 16777087 by decide] at hp
  refine Iff.trans ?_ hp.symm
  have h12 : a.address.take 13 = a.address.take 12 ++ (a.address[12]?).toList := take_add_one
  have ht : (a.address.take 12).length = (List.replicate 10 (0 : UInt8) ++ [0xff, 0xff]).length := by
    rw [length_take, hl]
    rfl
  show (_ ∧ _) ∧ _ ↔ a.address.take 13 = (List.replicate 10 0 ++ [0xff, 0xff]) ++ [127]
  rw [h12]
  constructor
  · rintro ⟨⟨_, hm⟩, hb⟩
    have hm : a.address.take 12 = List.replicate 10 0 ++ [0xff, 0xff] := by simpa [isIpv4Mapped] using hm
    rw [hm, hb]
    rfl
  · intro h
    obtain ⟨h₁, h₂⟩ := append_inj h ht
    exact ⟨⟨h16, by rw [isIpv4Mapped, h₁]; rfl⟩, Option.toList_eq_singleton_iff.mp h₂⟩

open IpRange

theorem mappedLoopback_of_block (hal : IpRange.Aligned block) (h : MappedLoopback block.1)
    (ha : (blockNetwork block).Contains a) : MappedLoopback a := by
  have h16 : block.1.size = 16 := h.1.1
  have ha16 : a.size = 16 := ha.1.trans h16
  have hv := (mappedLoopback_iff h16).mp h
  have hb : block.1.maxMask - block.2 ≤ 24 := le_of_dvd_of_odd hal.dvd (by rw [hv])
  rw [mappedLoopback_iff ha16, ← hv]
  have hd : a.toNat / 2 ^ (block.1.maxMask - block.2) = block.1.toNat / 2 ^ (block.1.maxMask - block.2) := ha.2
  rw [← Nat.sub_add_cancel hb, Nat.add_comm, pow_add, ← Nat.div_div_eq_div_mul, hd, Nat.div_div_eq_div_mul]

/-- A block with an IPv4-mapped address starts at one, or reaches over `::fffe:0:0/95`. -/
theorem mapped_or_aroundMapped (ha : (blockNetwork block).Contains a) (hm : Mapped a) :
    Mapped block.1 ∨ aroundMapped.toSet ⊆ (blockNetwork block).toSet := by
  have h16 : block.1.size = 16 := ha.1.symm.trans hm.1
  rcases Nat.lt_or_ge 32 (blockNetwork block).hostBits with hlt | hle
  · refine .inr fun x hx => ⟨hx.1.trans h16.symm, ?_⟩
    have hax : x.toNat / 2 ^ 33 = a.toNat / 2 ^ 33 := hx.2.trans (contains_aroundMapped hm).2.symm
    rw [← ha.2, ← Nat.add_sub_cancel' (show 33 ≤ (blockNetwork block).hostBits from hlt), pow_add,
      ← Nat.div_div_eq_div_mul, ← Nat.div_div_eq_div_mul, hax]
  · refine .inl ((mapped_iff h16).mpr ?_)
    have hd : a.toNat / 2 ^ (blockNetwork block).hostBits = block.1.toNat / 2 ^ (blockNetwork block).hostBits := ha.2
    rw [← hm.toNat_div, ← Nat.add_sub_cancel' hle, pow_add, ← Nat.div_div_eq_div_mul,
      ← Nat.div_div_eq_div_mul, hd]

theorem not_loopback_of_aroundMapped (h : aroundMapped.Contains a) : ¬Loopback a := by
  have h16 : a.size = 16 := h.1
  have hd : a.toNat / 2 ^ 33 = 65534 * 2 ^ 32 / 2 ^ 33 := h.2
  rintro (⟨hs, _⟩ | ⟨_, hv⟩)
  · rw [h16] at hs
    cases hs
  · have hv : a.toNat / 2 ^ 0 = 1 / 2 ^ 0 := hv
    omega

theorem unusableBlock_iff {routes : List Route} {s : IpRangeSet} (hwf : s.WellFormed)
    (had : ∀ a, a ∈ s.addresses ↔ lastMatch routes a = true ∧ ¬Loopback a) {blocks : List (IpAddress × Nat)}
    (hbs : ∀ block ∈ blocks, BlockOf s.ranges block)
    (hco : ∀ a, (∃ block ∈ blocks, (blockNetwork block).Contains a) ↔ a ∈ s.addresses) :
    UnusableBlock routes ↔ ∃ block ∈ blocks, Mapped block.1 ∧ ¬MappedLoopback block.1 := by
  constructor
  · rintro ⟨⟨a, hm, hno, hla⟩, x, hx, hlx⟩
    obtain ⟨block, hb, hc⟩ :=
      (hco a).mpr ((had a).mpr ⟨hla, not_loopback_of_aroundMapped (contains_aroundMapped hm)⟩)
    rcases mapped_or_aroundMapped hc hm with h | h
    · exact ⟨block, hb, h, fun hl => hno (mappedLoopback_of_block (hbs block hb).aligned hl hc)⟩
    · have := ((had x).mp ((hco x).mp ⟨block, hb, h hx⟩)).1
      rw [hlx] at this
      cases this
  · rintro ⟨block, hb, hm, hno⟩
    have hst : block.1 ∈ s.addresses := (hco _).mp ⟨block, hb, contains_self _⟩
    refine ⟨⟨block.1, hm, hno, ((had _).mp hst).1⟩, ?_⟩
    by_contra hall
    have hin : aroundMapped.toSet ⊆ s.addresses := by
      intro x hx
      refine (had x).mpr ⟨Bool.not_eq_false _ ▸ fun h => hall ⟨x, hx, h⟩, not_loopback_of_aroundMapped hx⟩
    obtain ⟨r, hr, bs, hg, hbb⟩ := hbs block hb
    exact MappedFree.not_mapped (fun a ha hma => subset_of_mem hwf hr ha (contains_aroundMapped hma) hin) hg
      block hbb hm

theorem mask_of_mapped_block (hal : IpRange.Aligned block) (h : IpRange.Mapped block.1) : 32 < block.2 := by
  have hb : block.1.maxMask - block.2 ≤ 32 := le_of_dvd_of_odd hal.dvd (by rw [h.toNat_div])
  have : block.1.maxMask = 128 := by rw [IpAddress.maxMask, h.1]
  omega

theorem isLoopbackRoute_readBack (h : IpRange.Mapped block.1) :
    isLoopbackRoute ⟨readBack block, true⟩ = true ↔ MappedLoopback block.1 := by
  rw [readBack, isLoopbackRoute, MappedLoopback]
  have hl : (block.1.address.drop 12).length = 4 := by
    rw [length_drop, show block.1.address.length = 16 from h.1]
  simp [InetNetwork.isIpv4, hl, h, head?_drop]

/-! ## The two paths -/

section Paths

variable {b : Builder} {older : Nat}

theorem older_routed (ho : older < tiramisu) (hex : ∃ r ∈ b.replaceIpv6Default.routes, r.included = false)
    (hbl : ¬UnusableBlock b.replaceIpv6Default.routes) :
    ∃ bo, b.processRoutes older = .ok bo ∧ (∀ r ∈ bo.routes, Valid r.inetNetwork) ∧
      ∀ a, ¬LoopbackAddress a → (Routed bo.routes a ↔ lastMatch b.replaceIpv6Default.routes a = true) := by
  obtain ⟨s, hs, hwf, had⟩ := remaining_spec b.replaceIpv6Default.routes
  obtain ⟨blocks, _, hns, hof, hco⟩ := rangeSetBlocks_spec s
  obtain ⟨bo, hbo, hme⟩ := processRoutes_flatten ho hex hs hns
  have hu : ∀ block ∈ blocks, IpRange.Mapped block.1 → MappedLoopback block.1 := by
    intro block hb hm
    by_contra h
    exact hbl ((unusableBlock_iff hwf had hof hco).mpr ⟨block, hb, hm, h⟩)
  -- a route that is kept comes from a block with an ordinary start
  have hk : ∀ r ∈ bo.routes, ∃ block ∈ blocks, r.inetNetwork = blockNetwork block := by
    rintro ⟨n, _⟩ hr
    obtain ⟨rfl, hr, hl⟩ := (hme _).mp hr
    obtain ⟨block, hb, rfl⟩ := mem_map.mp hr
    refine ⟨block, hb, readBack_of_not_mapped fun hm => ?_⟩
    rw [(isLoopbackRoute_readBack hm).mpr (hu block hb hm)] at hl
    cases hl
  refine ⟨bo, hbo, fun r hr => ?_, fun a ha => ?_⟩
  · obtain ⟨block, hb, heq⟩ := hk r hr
    rw [heq]
    exact (hof block hb).aligned.mask_le
  · rw [routed_of_included fun r hr => ((hme r).mp hr).1]
    have hlast : lastMatch b.replaceIpv6Default.routes a = true ↔ a ∈ s.addresses := by
      rw [had]
      exact (and_iff_left fun h => ha (.inl h)).symm
    rw [hlast, ← hco]
    constructor
    · rintro ⟨r, hr, hc⟩
      obtain ⟨block, hb, heq⟩ := hk r hr
      exact ⟨block, hb, heq ▸ hc⟩
    · rintro ⟨block, hb, hc⟩
      have hm : ¬IpRange.Mapped block.1 := fun hm =>
        ha (.inr (mappedLoopback_of_block (hof block hb).aligned (hu block hb hm) hc))
      have hfi : block.1 ∈ s.addresses := (hco _).mp ⟨block, hb, contains_self _⟩
      refine ⟨⟨blockNetwork block, true⟩, (hme _).mpr ⟨rfl, ?_, ?_⟩, hc⟩
      · rw [← readBack_of_not_mapped hm]
        exact mem_map_of_mem hb
      · exact not_isLoopbackRoute ((had _).mp hfi).2

theorem older_invalid (ho : older < tiramisu) (hex : ∃ r ∈ b.replaceIpv6Default.routes, r.included = false)
    (hbl : UnusableBlock b.replaceIpv6Default.routes) :
    ∃ bo, b.processRoutes older = .ok bo ∧ ∃ r ∈ bo.routes, ¬Valid r.inetNetwork := by
  obtain ⟨s, hs, hwf, had⟩ := remaining_spec b.replaceIpv6Default.routes
  obtain ⟨blocks, _, hns, hof, hco⟩ := rangeSetBlocks_spec s
  obtain ⟨block, hb, hm, hno⟩ := (unusableBlock_iff hwf had hof hco).mp hbl
  obtain ⟨bo, hbo, hme⟩ := processRoutes_flatten ho hex hs hns
  have hl : isLoopbackRoute ⟨readBack block, true⟩ = false :=
    Bool.eq_false_iff.mpr fun h => hno ((isLoopbackRoute_readBack hm).mp h)
  refine ⟨bo, hbo, ⟨readBack block, true⟩, (hme _).mpr ⟨rfl, mem_map_of_mem hb, hl⟩, fun hv => ?_⟩
  have hma := mask_of_mapped_block (hof block hb).aligned hm
  have hsi : (readBack block).ip.maxMask = 32 := by
    rw [readBack, dif_pos hm]
    show (block.1.address.drop 12).length * 8 = 32
    rw [length_drop, show block.1.address.length = 16 from hm.1]
  have : (readBack block).mask = block.2 := by
    rw [readBack, dif_pos hm]
  rw [Valid, hsi, this] at hv
  omega

end Paths

/-- **The two paths agree exactly on the lists where nothing is overridden**: without exclude routes always; with
exclude routes if no block is unusable, no inversion is exposed and no dropped route is. -/
theorem pathsAgree_iff {older newer : Nat} (ho : older < tiramisu) (hn : tiramisu ≤ newer) {b b₁ : Builder}
    (hb : b.processSplitTunneling = .ok b₁) (hvalid : ∀ r ∈ b₁.replaceIpv6Default.routes, Valid r.inetNetwork)
    (hconf : NoConflict b₁.replaceIpv6Default.routes) :
    PathsAgree older newer b ↔ ((∃ r ∈ b₁.replaceIpv6Default.routes, r.included = false) →
      ¬UnusableBlock b₁.replaceIpv6Default.routes ∧ ¬ExposedInversion b₁.replaceIpv6Default.routes ∧
        ¬ExposedDropped b₁.replaceIpv6Default.routes) := by
  have hbi : ∀ sdkInt, (b.processSplitTunneling >>= processRoutes sdkInt) = b₁.processRoutes sdkInt := by
    intro sdkInt
    rw [hb]
    rfl
  have hnewer : ¬(newer < tiramisu ∧ ∃ r ∈ b₁.replaceIpv6Default.routes, r.included = false) :=
    fun h => absurd h.1 (not_lt.mpr hn)
  obtain ⟨bn, hbn, hro⟩ := processRoutes_keep hnewer
  have hva : ∀ r ∈ bn.routes, Valid r.inetNetwork := by
    intro r hr
    rw [hro] at hr
    exact hvalid r (mem_filter.mp hr).1
  by_cases hex : ∃ r ∈ b₁.replaceIpv6Default.routes, r.included = false
  swap
  · have hol : ¬(older < tiramisu ∧ ∃ r ∈ b₁.replaceIpv6Default.routes, r.included = false) :=
      fun h => hex h.2
    obtain ⟨bo, hbo, hrou⟩ := processRoutes_keep hol
    refine ⟨fun _ h => absurd h hex, fun _ => ⟨bo, bn, (hbi _).trans hbo, (hbi _).trans hbn, ?_, hva, ?_⟩⟩
    · rwa [hrou, ← hro]
    · intro a _
      rw [hrou, hro]
  constructor
  · rintro ⟨bo, bn', hbo, hbn', hv, _, hag⟩ _
    rw [hbi] at hbo hbn'
    obtain rfl : bn' = bn := Except.ok.inj (hbn'.symm.trans hbn)
    have hbl : ¬UnusableBlock b₁.replaceIpv6Default.routes := by
      intro h
      obtain ⟨bo', hb', r, hr, hi⟩ := older_invalid ho hex h
      obtain rfl : bo' = bo := Except.ok.inj (hb'.symm.trans hbo)
      exact hi (hv r hr)
    obtain ⟨bo', hb', _, hlast⟩ := older_routed ho hex hbl
    obtain rfl : bo' = bo := Except.ok.inj (hb'.symm.trans hbo)
    have hs : ∀ a, ¬LoopbackAddress a →
        (lastMatch b₁.replaceIpv6Default.routes a = true ↔
          Routed (keptRoutes b₁.replaceIpv6Default.routes) a) := by
      intro a ha
      rw [← hlast a ha, hag a ha, hro]
      rfl
    refine ⟨hbl, fun h => ?_, fun h => ?_⟩
    · obtain ⟨a, ha, hne⟩ := h.disagree hconf
      exact hne (hs a ha)
    · obtain ⟨a, ha, hne⟩ := h.disagree
      exact hne (hs a ha)
  · intro h
    obtain ⟨hbl, hin, hd⟩ := h hex
    obtain ⟨bo, hbo, hv, hlast⟩ := older_routed ho hex hbl
    refine ⟨bo, bn, (hbi _).trans hbo, (hbi _).trans hbn, hv, hva, fun a ha => ?_⟩
    rw [hlast a ha, lastMatch_iff_routed hconf hin hd ha, hro]
    rfl

instance (routes : List Route) (a : IpAddress) : Decidable (Routed routes a) :=
  inferInstanceAs (Decidable (∃ r ∈ routes, _))

/-- What the OpenVPN client leaves: the server's address is excluded first, then the default route is added. -/
def sampleOpenVpn : Builder where
  addresses := []
  routes := [⟨⟨⟨[203, 0, 113, 5], .inl rfl⟩, 32⟩, false⟩, ⟨ipv4Default, true⟩]
  includedAddresses := []
  excludedAddresses := []
  mtu := 1280

/-- The server's own address goes into the tunnel on older versions only. -/
theorem openVpn_server_routed_on_older :
    ∃ bo bn, (sampleOpenVpn.processSplitTunneling >>= processRoutes 32) = .ok bo ∧
      (sampleOpenVpn.processSplitTunneling >>= processRoutes 33) = .ok bn ∧
      Routed bo.routes ⟨[203, 0, 113, 5], .inl rfl⟩ ∧ ¬Routed bn.routes ⟨[203, 0, 113, 5], .inl rfl⟩ := by
  refine ⟨_, _, rfl, rfl, ?_, ?_⟩
  · decide +kernel
  · decide +kernel

theorem pathsAgree_iff_openVpn : ¬PathsAgree 32 33 sampleOpenVpn := by
  have hsplit : sampleOpenVpn.processSplitTunneling = .ok sampleOpenVpn := rfl
  rw [pathsAgree_iff (by decide) (by decide) hsplit (by unfold Valid; decide) (by unfold NoConflict; decide)]
  intro h
  refine (h ⟨⟨⟨⟨[203, 0, 113, 5], .inl rfl⟩, 32⟩, false⟩, by decide, rfl⟩).2.1 ?_
  refine ⟨[], _, [], _, [], ⟨[203, 0, 113, 5], .inl rfl⟩, rfl, by
    decide, by decide, by decide, ?_, by decide, by decide,
    by decide, by decide⟩
  unfold LoopbackAddress Loopback MappedLoopback
  decide

end Builder

end Cimogus.Net
