import Cimogus.Net.ProtocolConfig

/-!
# Exclusive split tunnelling on older versions

`processSplitTunneling` puts the default routes and the excluded networks in front of the routes of the protocol, and
`processRoutes` moves `2000::/3` to the front when it replaces `::/0`. The include routes stay before the exclude
routes through both (`IncludesFirst`), so that replaying the list subtracts every excluded network from the default
routes.
-/

namespace Cimogus.Net

open List

variable {excluded : List InetNetwork}

namespace Builder

/-! ## Include routes before exclude routes -/

def IncludesFirst (routes : List Route) : Prop := routes.Pairwise fun r s => s.included = true → r.included = true

theorem lastMatchFrom_of_excluded {a : IpAddress} {d : Bool} :
    ∀ {routes : List Route}, (∀ r ∈ routes, r.included = false) →
    (lastMatchFrom a d routes = true ↔ d = true ∧ ∀ r ∈ routes, ¬r.inetNetwork.Contains a)
  | [], _ => by simp [lastMatchFrom]
  | r :: routes, h => by
    have ih := lastMatchFrom_of_excluded (a := a) (d := if r.inetNetwork.Contains a then r.included else d)
      fun s hs => h s (mem_cons_of_mem _ hs)
    rw [show lastMatchFrom a d (r :: routes) =
      lastMatchFrom a (if r.inetNetwork.Contains a then r.included else d) routes
      from rfl, ih, h r mem_cons_self]
    by_cases hc : r.inetNetwork.Contains a <;> simp [hc]

/-- With the include routes first, an address is kept if an include route contains it and no exclude route does. -/
theorem lastMatchFrom_of_includesFirst {a : IpAddress} : ∀ {routes : List Route} {d : Bool}, IncludesFirst routes →
    (lastMatchFrom a d routes = true ↔
      (d = true ∨ ∃ r ∈ routes, r.included = true ∧ r.inetNetwork.Contains a) ∧
      ∀ r ∈ routes, r.included = false → ¬r.inetNetwork.Contains a)
  | [], d, _ => by simp [lastMatchFrom]
  | r :: routes, d, h => by
    obtain ⟨hr, hro⟩ := pairwise_cons.mp h
    have hst : lastMatchFrom a d (r :: routes) =
      lastMatchFrom a (if r.inetNetwork.Contains a then r.included else d) routes := rfl
    cases hi : r.included with
    | true =>
      rw [hst, lastMatchFrom_of_includesFirst hro, hi]
      by_cases hc : r.inetNetwork.Contains a <;> simp [hi, hc]
    | false =>
      -- all later routes are exclude routes
      have hex : ∀ s ∈ r :: routes, s.included = false := by
        intro s hs
        rcases mem_cons.mp hs with rfl | hs
        · exact hi
        · rw [Bool.eq_false_iff]
          intro hin
          rw [hr s hs hin] at hi
          cases hi
      rw [lastMatchFrom_of_excluded hex]
      constructor
      · rintro ⟨hd, ha⟩
        exact ⟨.inl hd, fun s hs _ => ha s hs⟩
      · rintro ⟨hd | ⟨s, hs, hin, _⟩, ha⟩
        · exact ⟨hd, fun s hs => ha s hs (hex s hs)⟩
        · rw [hex s hs] at hin
          cases hin

/-- The default routes of exclusive split tunnelling. -/
def defaultRoutes : List Route := [⟨ipv4Default, true⟩, ⟨globalUnicast, true⟩]

/-- The list is that of exclusive split tunnelling: include routes first, the default routes and the excluded networks.
-/
structure Exclusive (excluded : List InetNetwork) (routes : List Route) : Prop where
  includesFirst : IncludesFirst routes
  mem_iff : ∀ r, r ∈ routes ↔ r ∈ defaultRoutes ∨ r ∈ excluded.map (Route.mk · false)

theorem exclusive_prepended (excluded : List InetNetwork) :
    Exclusive excluded ((excluded.map (Route.mk · false)).foldl linkedAdd defaultRoutes) := by
  refine ⟨?_, fun r => mem_foldl_linkedAdd⟩
  obtain ⟨ys, hsu, _, heq, _⟩ := foldl_linkedAdd (excluded.map (Route.mk · false)) defaultRoutes
  rw [heq]
  have hex : ∀ r ∈ ys, r.included = false := by
    intro r hr
    obtain ⟨e, _, rfl⟩ := mem_map.mp (hsu.subset hr)
    rfl
  refine pairwise_append.mpr ⟨by simp [defaultRoutes], ?_, ?_⟩
  · exact pairwise_of_forall_mem_list fun r _ s hs h => by rw [hex s hs] at h; cases h
  · exact fun r _ s hs h => by rw [hex s hs] at h; cases h

theorem processSplitTunneling_exclusive {b : Builder} (hin : b.includedAddresses = [])
    (hex : b.excludedAddresses ≠ []) :
    b.processSplitTunneling = .ok { b with
      routes :=
        b.routes.foldl linkedAdd ((b.excludedAddresses.map (Route.mk · false)).foldl linkedAdd defaultRoutes) } := by
  rw [processSplitTunneling, if_neg (by simp [hin]), if_neg (by simp [hin]), if_pos hex]
  simp only [excludeRoutes_eq]
  rfl

theorem Exclusive.ipv6Default_notMem {routes : List Route} (h : Exclusive excluded routes) :
    (⟨ipv6Default, true⟩ : Route) ∉ routes := by
  rw [h.mem_iff]
  rintro (hr | hr)
  · revert hr; decide
  · obtain ⟨e, _, he⟩ := mem_map.mp hr
    cases he

theorem Exclusive.prepend_globalUnicast {routes : List Route} (h : Exclusive excluded routes) :
    Exclusive excluded (routes.foldl linkedAdd [⟨globalUnicast, true⟩]) := by
  refine ⟨?_, fun r => ?_⟩
  · obtain ⟨zs, hzs, _, heq, _⟩ := foldl_linkedAdd routes [⟨globalUnicast, true⟩]
    rw [heq]
    refine pairwise_append.mpr ⟨pairwise_singleton _ _, h.includesFirst.sublist hzs, ?_⟩
    intro r hr s _ _
    rw [mem_singleton.mp hr]
  · rw [mem_foldl_linkedAdd, h.mem_iff]
    constructor
    · rintro (hr | hr)
      · rw [mem_singleton.mp hr]
        exact .inl (by decide)
      · exact hr
    · exact Or.inr

/-- What `replaceIpv6Default` looks for. -/
theorem isIpv6Default_iff (r : Route) :
    (r.included && r.inetNetwork == ipv6Default) = true ↔ r = ⟨ipv6Default, true⟩ := by
  rw [Bool.and_eq_true, beq_iff_eq, Route.mk.injEq, and_comm]

theorem exclusive_replaceIpv6Default {b : Builder} {defaults : List Route}
    (hd : ∀ r ∈ defaults, r = ⟨ipv4Default, true⟩ ∨ r = ⟨ipv6Default, true⟩)
    (hb : b.routes = defaults.foldl linkedAdd ((excluded.map (Route.mk · false)).foldl linkedAdd defaultRoutes)) :
    Exclusive excluded b.replaceIpv6Default.routes := by
  have hP := exclusive_prepended excluded
  generalize (excluded.map (Route.mk · false)).foldl linkedAdd defaultRoutes = P at hP hb
  obtain ⟨ys, hs, hnew, heq, _⟩ := foldl_linkedAdd defaults P
  have hys : ∀ y ∈ ys, y = ⟨ipv6Default, true⟩ := by
    intro y hy
    refine (hd y (hs.subset hy)).resolve_left ?_
    rintro rfl
    exact hnew _ hy ((hP.mem_iff _).mpr (.inl (by decide)))
  rw [heq] at hb
  unfold replaceIpv6Default
  split
  · -- `::/0` is taken out and `2000::/3` put in front
    have hfi : b.routes.filter (fun r => !(r.included && r.inetNetwork == ipv6Default)) = P := by
      rw [hb, filter_append, filter_eq_self.mpr, filter_eq_nil_iff.mpr, append_nil]
      · intro y hy
        rw [Bool.not_eq_true', Bool.eq_false_iff, not_not, isIpv6Default_iff]
        exact hys y hy
      · intro r hr
        rw [Bool.not_eq_true', Bool.eq_false_iff, ne_eq, isIpv6Default_iff]
        exact fun h => hP.ipv6Default_notMem (h ▸ hr)
    rw [hfi]
    exact hP.prepend_globalUnicast
  · rename_i ha
    have : ys = [] := by
      cases ys with
      | nil => rfl
      | cons y ys =>
        refine absurd (any_eq_true.mpr ⟨y, ?_, (isIpv6Default_iff y).mpr (hys y mem_cons_self)⟩) ha
        rw [hb]; simp
    rw [hb, this, append_nil]
    exact hP

/-! ## What stays routed -/

theorem Exclusive.lastMatch_iff {routes : List Route} (h : Exclusive excluded routes) (a : IpAddress) :
    lastMatch routes a = true ↔ (ipv4Default.Contains a ∨ globalUnicast.Contains a) ∧
    ∀ n ∈ excluded, ¬n.Contains a := by
  rw [lastMatch, lastMatchFrom_of_includesFirst h.includesFirst]
  constructor
  · rintro ⟨hd | ⟨r, hr, hi, hc⟩, hex⟩
    · cases hd
    · refine ⟨?_, fun n hn hc' => hex ⟨n, false⟩ ((h.mem_iff _).mpr (.inr (mem_map_of_mem hn))) rfl hc'⟩
      rcases (h.mem_iff r).mp hr with hr | hr
      · simp only [defaultRoutes, mem_cons, not_mem_nil, or_false] at hr
        rcases hr with rfl | rfl
        · exact .inl hc
        · exact .inr hc
      · obtain ⟨n, _, rfl⟩ := mem_map.mp hr
        cases hi
  · rintro ⟨hc, hex⟩
    refine ⟨.inr ?_, fun r hr hi hc' => ?_⟩
    · rcases hc with hc | hc
      · exact ⟨⟨ipv4Default, true⟩, (h.mem_iff _).mpr (.inl (by decide)), rfl, hc⟩
      · exact ⟨⟨globalUnicast, true⟩, (h.mem_iff _).mpr (.inl (by decide)), rfl, hc⟩
    · rcases (h.mem_iff r).mp hr with hr | hr
      · simp only [defaultRoutes, mem_cons, not_mem_nil, or_false] at hr
        rcases hr with rfl | rfl <;> cases hi
      · obtain ⟨n, hn, rfl⟩ := mem_map.mp hr
        exact hex n hn hc'

theorem ipv4Default_contains_iff {a : IpAddress} : ipv4Default.Contains a ↔ a.size = 4 := by
  refine ⟨fun h => h.1, fun h => ⟨h, ?_⟩⟩
  have hlt := IpAddress.toNat_lt_of_size_four h
  show a.toNat / 2 ^ 32 = 0 / 2 ^ 32
  omega

theorem globalUnicast_toNat {a : IpAddress} (h : globalUnicast.Contains a) : a.size = 16 ∧ 2 ^ 125 ≤ a.toNat := by
  have hd : a.toNat / 2 ^ 125 = 1 := h.2.trans (by decide +kernel)
  refine ⟨h.1, ?_⟩
  by_contra hlt
  rw [Nat.div_eq_of_lt (not_le.mp hlt)] at hd
  cases hd

theorem not_mapped {a : IpAddress} (h : ipv4Default.Contains a ∨ globalUnicast.Contains a) : ¬IpRange.Mapped a := by
  intro hm
  rcases h with h | h
  · have := hm.1
    rw [ipv4Default_contains_iff.mp h] at this
    cases this
  · have hd := hm.toNat_div
    have hge := (globalUnicast_toNat h).2
    omega

/-- **Exclusive split tunnelling on older versions**: whatever default routes the protocol has added, all routes that
are left are include routes; IPv4 addresses are routed unless they are excluded or loopback, IPv6 addresses if they are
in `2000::/3` and not excluded. -/
theorem exclusive_split_tunneling_exact {sdkInt : Nat} (hsdk : sdkInt < tiramisu) (b : Builder)
    (hroutes : ∀ r ∈ b.routes, r = ⟨ipv4Default, true⟩ ∨ r = ⟨ipv6Default, true⟩)
    (hin : b.includedAddresses = []) (hex : b.excludedAddresses ≠ []) :
    ∃ b', (b.processSplitTunneling >>= processRoutes sdkInt) = .ok b' ∧ (∀ r ∈ b'.routes, r.included = true) ∧
      (∀ a : IpAddress, a.size = 4 → ((∃ r ∈ b'.routes, r.inetNetwork.Contains a) ↔
        (∀ n ∈ b.excludedAddresses, ¬n.Contains a) ∧ ¬ipv4Loopback.Contains a)) ∧
      ∀ a : IpAddress, a.size = 16 → ((∃ r ∈ b'.routes, r.inetNetwork.Contains a) ↔
        globalUnicast.Contains a ∧ ∀ n ∈ b.excludedAddresses, ¬n.Contains a) := by
  rw [processSplitTunneling_exclusive hin hex]
  generalize hb₁ : ({ b with routes := _ } : Builder) = b₁
  have hL : Exclusive b.excludedAddresses b₁.replaceIpv6Default.routes :=
    exclusive_replaceIpv6Default hroutes (by rw [← hb₁])
  obtain ⟨s, hs, _, ha⟩ := remaining_spec b₁.replaceIpv6Default.routes
  obtain ⟨blocks, _, hns, _, hblocks⟩ := rangeSetBlocks_spec s
  have he : ∃ r ∈ b₁.replaceIpv6Default.routes, r.included = false := by
    obtain ⟨n, ns, hn⟩ := exists_cons_of_ne_nil hex
    exact ⟨⟨n, false⟩, (hL.mem_iff _).mpr (.inr (by rw [hn]; simp)), rfl⟩
  obtain ⟨b', hb', hm⟩ := processRoutes_flatten hsdk he hs hns
  -- a block starts at an address that remains, so its text is read back as it is and the loopback filter keeps it
  have hfi : ∀ block ∈ blocks, block.1 ∈ s.addresses :=
    fun block hb => (hblocks _).mp ⟨block, hb, contains_self _⟩
  have hre : ∀ block ∈ blocks, IpRange.readBack block = IpRange.blockNetwork block := fun block hb =>
    IpRange.readBack_of_not_mapped (not_mapped ((hL.lastMatch_iff _).mp ((ha _).mp (hfi block hb)).1).1)
  have hco : ∀ a, (∃ r ∈ b'.routes, r.inetNetwork.Contains a) ↔
      lastMatch b₁.replaceIpv6Default.routes a = true ∧ ¬Loopback a := by
    intro a
    rw [← ha, ← hblocks]
    constructor
    · rintro ⟨r, hr, hc⟩
      obtain ⟨block, hb, heq⟩ := mem_map.mp ((hm r).mp hr).2.1
      exact ⟨block, hb, by rw [← hre block hb, heq]; exact hc⟩
    · rintro ⟨block, hb, hc⟩
      refine ⟨⟨IpRange.blockNetwork block, true⟩, (hm _).mpr ⟨rfl, ?_, ?_⟩, hc⟩
      · rw [← hre block hb]
        exact mem_map_of_mem hb
      · exact not_isLoopbackRoute ((ha _).mp (hfi block hb)).2
  refine ⟨b', hb', fun r hr => ((hm r).mp hr).1, fun a h4 => ?_, fun a h16 => ?_⟩
  · have hg : ¬globalUnicast.Contains a := fun h => by
      have := (globalUnicast_toNat h).1
      omega
    have hl : ¬ipv6Loopback.Contains a := fun h => by
      have : a.size = 16 := h.1
      omega
    rw [hco, hL.lastMatch_iff, Loopback]
    simp [ipv4Default_contains_iff.mpr h4, hl]
  · have hd : ¬ipv4Default.Contains a := fun h => by
      have : a.size = 4 := h.1
      omega
    have hl₄ : ¬ipv4Loopback.Contains a := fun h => by
      have : a.size = 4 := h.1
      omega
    have hl₆ : globalUnicast.Contains a → ¬ipv6Loopback.Contains a := by
      intro hg hl
      have hge := (globalUnicast_toNat hg).2
      have heq : a.toNat / 2 ^ 0 = 1 / 2 ^ 0 := hl.2
      omega
    rw [hco, hL.lastMatch_iff, Loopback]
    simp only [hd, hl₄, false_or, and_iff_left_iff_imp, and_imp]
    exact fun hg _ => hl₆ hg

/-- Both default routes, and one excluded network with host bits. -/
def sampleExclusive : Builder where
  addresses := []
  routes := [⟨ipv4Default, true⟩, ⟨ipv6Default, true⟩]
  includedAddresses := []
  excludedAddresses := [⟨⟨[10, 0, 0, 1], .inl rfl⟩, 8⟩]
  mtu := 1280

theorem exclusive_split_tunneling_sample :
    ∃ b', (sampleExclusive.processSplitTunneling >>= processRoutes 32) = .ok b' ∧
      (∀ r ∈ b'.routes, r.included = true) ∧
      (∃ r ∈ b'.routes, r.inetNetwork.Contains ⟨[11, 0, 0, 1], .inl rfl⟩) ∧
      ¬∃ r ∈ b'.routes, r.inetNetwork.Contains ⟨[10, 1, 2, 3], .inl rfl⟩ := by
  obtain ⟨b', hb', hi, h4, _⟩ :=
    exclusive_split_tunneling_exact (by decide : 32 < tiramisu) sampleExclusive (by decide)
    (by decide) (by decide)
  exact ⟨b', hb', hi, (h4 _ rfl).mpr (by decide), fun h => absurd ((h4 _ rfl).mp h) (by decide)⟩

end Builder

end Cimogus.Net
