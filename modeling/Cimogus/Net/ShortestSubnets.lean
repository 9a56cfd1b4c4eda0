import Cimogus.Lib.Blocks
import Cimogus.Net.ProtocolConfig

/-!
# The networks of a range are as few as possible

`IpRange.subnets` takes at each address the largest block that still ends in the range. A network that lies in the range
is then part of one of the blocks (`Greedy.absorbs`): the block that holds its first address either holds the whole
network, or is properly held by it, starts with it and was not the largest one. So no other list of networks covers the
range with fewer members.
-/

namespace Cimogus.Net

open Lib.Blocks
open IpAddress (Adj)

namespace InetNetwork

def toSet (n : InetNetwork) : Set IpAddress := {a | n.Contains a}

theorem contains_iff_mem_block {n : InetNetwork} {a : IpAddress} :
    n.Contains a ↔ a.size = n.ip.size ∧ a.toNat ∈ block n.hostBits n.ip.toNat := Iff.rfl

theorem contains_fromStart (n : InetNetwork) : n.Contains (IpRange.fromStart n) := by
  refine contains_iff_mem_block.mpr ⟨IpRange.size_fromStart n, ?_⟩
  rw [IpRange.toNat_fromStart]
  exact mem_block_floor _ _

theorem fromStart_le {n : InetNetwork} {a : IpAddress} (ha : n.Contains a) : IpRange.fromStart n ≤ a := by
  obtain ⟨hs, hm⟩ := contains_iff_mem_block.mp ha
  rw [IpAddress.le_iff_toNat ((IpRange.size_fromStart n).trans hs.symm), IpRange.toNat_fromStart]
  exact floor_le_of_mem hm

end InetNetwork

namespace IpRange

variable {stop currentIp : IpAddress} {blocks : List (IpAddress × Nat)} {n : InetNetwork}

theorem Aligned.contains_self {block : IpAddress × Nat} (h : Aligned block) : (blockNetwork block).Contains block.1 :=
  (h.contains_iff block.1).mpr ⟨le_rfl, h.le_last⟩

open InetNetwork

theorem Largest.absorbs {mask : Nat} (h : Largest stop currentIp mask)
    (hin : ∀ a, n.Contains a → currentIp ≤ a ∧ a ≤ stop)
    (hst : fromStart n ≤ getLastIpForMask currentIp mask) :
    n.toSet ⊆ (blockNetwork (currentIp, mask)).toSet := by
  have hfi := n.contains_fromStart
  obtain ⟨hs, hme⟩ := contains_iff_mem_block.mp
    ((h.aligned.contains_iff (fromStart n)).mpr ⟨(hin _ hfi).1, hst⟩)
  have hfa : currentIp.size = n.ip.size := hs.symm.trans (size_fromStart n)
  have hfl : (fromStart n).toNat ∈ block n.hostBits n.ip.toNat := (contains_iff_mem_block.mp hfi).2
  rcases Nat.lt_or_ge (currentIp.maxMask - mask) n.hostBits with hb | hb
  swap
  · intro a ha
    obtain ⟨has, ham⟩ := contains_iff_mem_block.mp ha
    refine contains_iff_mem_block.mpr ⟨has.trans hfa.symm, block_subset hb hme ?_⟩
    rwa [block_eq_of_mem hfl]
  · -- the network holds the block and starts with it, so it is not larger
    have hc : n.Contains currentIp := by
      refine contains_iff_mem_block.mpr ⟨hfa, ?_⟩
      rw [← block_eq_of_mem hfl]
      exact mem_block_mono hb.le (mem_block.mp hme).symm
    have hsa : fromStart n = currentIp := le_antisymm (fromStart_le hc) (hin _ hfi).1
    have hle : n.hostBits ≤ currentIp.maxMask := by
      rw [hostBits, IpAddress.maxMask, IpAddress.maxMask, hfa]
      exact Nat.sub_le _ _
    have hsu : currentIp.maxMask - (currentIp.maxMask - n.hostBits) = n.hostBits := Nat.sub_sub_self hle
    have hal : Aligned (currentIp, currentIp.maxMask - n.hostBits) := by
      refine ⟨Nat.sub_le _ _, ?_⟩
      simp only [hsu]
      rw [← hsa, toNat_fromStart]
      exact Nat.dvd_mul_left _ _
    have hlast : n.Contains (getLastIpForMask currentIp (currentIp.maxMask - n.hostBits)) := by
      obtain ⟨hl, hla⟩ := (hal.contains_iff _).mpr ⟨hal.le_last, le_rfl⟩
      refine contains_iff_mem_block.mpr ⟨hl.trans hfa, ?_⟩
      rw [← block_eq_of_mem hfl, hsa]
      rwa [show (blockNetwork (currentIp, currentIp.maxMask - n.hostBits)).hostBits = n.hostBits from hsu] at hla
    have hm := h.mask_le _ hal (hin _ hlast).2
    omega

namespace Greedy

variable (h : Greedy stop currentIp blocks)

include h

theorem absorbs (hin : ∀ a, n.Contains a → currentIp ≤ a ∧ a ≤ stop) :
    ∃ block ∈ blocks, n.toSet ⊆ (blockNetwork block).toSet := by
  induction h with
  | done h => exact absurd ((hin _ n.contains_fromStart).1.trans (hin _ n.contains_fromStart).2) h
  | @last currentIp mask h hstop =>
    refine ⟨(currentIp, mask), List.mem_cons_self, h.absorbs hin ?_⟩
    rw [hstop]
    exact (hin _ n.contains_fromStart).2
  | @next currentIp next mask blocks h hnext _ ih =>
    rcases le_or_gt (fromStart n) (getLastIpForMask currentIp mask) with hle | hgt
    · exact ⟨(currentIp, mask), List.mem_cons_self, h.absorbs hin hle⟩
    · have haf : ∀ a, n.Contains a → next ≤ a ∧ a ≤ stop := fun a ha =>
        ⟨not_lt.mp fun hlt => hnext.covBy.2 (hgt.trans_le (fromStart_le ha)) hlt, (hin a ha).2⟩
      obtain ⟨block, hb, hs⟩ := ih haf
      exact ⟨block, List.mem_cons_of_mem _ hb, hs⟩

/-- Each block ends before the next one starts. -/
theorem ordered : blocks.Pairwise fun b c => getLastIpForMask b.1 b.2 < c.1 := by
  induction h with
  | done _ => exact List.Pairwise.nil
  | last _ _ => exact List.pairwise_singleton _ _
  | next _ hnext hblocks ih =>
    refine List.pairwise_cons.mpr ⟨fun c hc => ?_, ih⟩
    have hle := ((hblocks.contains_iff c.1).mp ⟨c, hc, (hblocks.aligned c hc).contains_self⟩).1
    exact hnext.covBy.lt.trans_le hle

theorem disjoint : blocks.Pairwise fun b c => Disjoint (blockNetwork b).toSet (blockNetwork c).toSet := by
  refine h.ordered.imp_of_mem fun {b c} hb hc hlt => Set.disjoint_left.mpr fun a ha hac => ?_
  have h₁ := (((h.aligned b hb).contains_iff a).mp ha).2
  have h₂ := (((h.aligned c hc).contains_iff a).mp hac).1
  exact absurd (h₁.trans_lt (hlt.trans_le h₂)) (lt_irrefl a)

theorem shortest {others : List InetNetwork}
    (ho : ∀ a, (∃ n ∈ others, n.Contains a) ↔ currentIp ≤ a ∧ a ≤ stop) :
    blocks.length ≤ others.length := by
  refine length_le_of_absorbs (g := toSet) h.disjoint (fun b hb => ?_) fun n hn => ?_
  · have hs := (h.aligned b hb).contains_self
    exact ⟨b.1, hs, (ho b.1).mpr ((h.contains_iff b.1).mp ⟨b, hb, hs⟩)⟩
  · exact h.absorbs fun a ha => (ho a).mp ⟨n, hn, ha⟩

end Greedy

/-- A network that the set covers lies in the range that it meets. -/
theorem subset_of_mem {s : IpRangeSet} (hs : s.WellFormed) {r : IpRange} (hr : r ∈ s.ranges) {a : IpAddress}
    (ha : a ∈ r.toSet) (hna : n.Contains a) (hn : n.toSet ⊆ s.addresses) : n.toSet ⊆ r.toSet := by
  obtain ⟨q, _, hq⟩ := fromNetwork_spec n
  have hnext : ∀ {a b : IpAddress}, a ∈ q.toSet → b ∈ q.toSet → a < b → ∃ c, Adj a c :=
    fun ha hb hlt => by
    have hsi := (IpAddress.size_of_between q.same_size ha.1 ha.2).trans
      (IpAddress.size_of_between q.same_size hb.1 hb.2).symm
    obtain ⟨c, _, hc⟩ := IpAddress.exists_inc hsi hlt
    exact ⟨c, hc⟩
  obtain ⟨r', hr', hsu⟩ := hs.exists_subset IpAddress.Adj.covBy hnext fun a ha => hn ((hq a).mp ha)
  obtain rfl : r = r' := by
    by_contra hne
    have hd : s.ranges.Pairwise fun r r' => Disjoint r.toSet r'.toSet := List.Pairwise.imp Lib.Ranges.Before.disjoint hs
    exact Set.disjoint_left.mp (hd.forall hr hr' hne) ha (hsu ((hq a).mpr hna))
  exact fun x hx => hsu ((hq x).mpr hx)

/-! ## Blocks that keep their family -/

/-- `::fffe:0:0/95`, the network of twice the size around the IPv4-mapped addresses. -/
def aroundMapped : InetNetwork := ⟨⟨List.replicate 10 0 ++ [0xff, 0xfe, 0, 0, 0, 0], .inr rfl⟩, 95⟩

theorem contains_aroundMapped {a : IpAddress} (h : Mapped a) : aroundMapped.Contains a := by
  refine ⟨h.1, ?_⟩
  have hd := h.toNat_div
  rw [show aroundMapped.hostBits = 33 from rfl, show aroundMapped.ip.toNat = 65534 * 2 ^ 32 by decide]
  omega

/-- A range without IPv4-mapped addresses, or one that reaches over `::fffe:0:0/95`. -/
def MappedFree (r : IpRange) : Prop := ∀ a ∈ r.toSet, Mapped a → aroundMapped.toSet ⊆ r.toSet

theorem mappedFree_of_ipv4 {r : IpRange} (h4 : r.start.size = 4) : r.MappedFree := by
  intro a ha hm
  have hs := IpAddress.size_of_between r.same_size ha.1 ha.2
  rw [h4, hm.1] at hs
  cases hs

theorem MappedFree.not_mapped {r : IpRange} (hr : r.MappedFree) (h : Greedy r.stop r.start blocks) :
    ∀ block ∈ blocks, ¬Mapped block.1 := by
  intro block hb hm
  have hs := (h.aligned block hb).contains_self
  have hin := hr block.1 ((h.contains_iff block.1).mp ⟨block, hb, hs⟩) hm
  obtain ⟨larger, hl, hsu⟩ := h.absorbs (n := aroundMapped) fun a ha => hin ha
  obtain rfl : block = larger := by
    by_contra hne
    exact Set.disjoint_left.mp (h.disjoint.forall hb hl hne) hs (hsu (contains_aroundMapped hm))
  -- the block would start before its first address
  have hst := hsu aroundMapped.contains_fromStart
  have hle := (((h.aligned block hb).contains_iff _).mp hst).1
  have hsi : block.1.size = (fromStart aroundMapped).size := hm.1.trans (size_fromStart aroundMapped).symm
  have hd := hm.toNat_div
  have hfl : (fromStart aroundMapped).toNat = 65534 * 2 ^ 32 := by decide
  rw [IpAddress.le_iff_toNat hsi] at hle
  omega

/-- **Shortest lists of networks.** `subnets` returns, and its networks have zero host bits, are in ascending order and
disjoint, cover the range exactly, and are as few as the networks of any list that does. -/
theorem subnets_shortest (r : IpRange) (hr : r.MappedFree) : ∃ nets, r.subnets = .ok nets ∧
      (∀ n ∈ nets, n.mask ≤ n.ip.maxMask ∧ 2 ^ n.hostBits ∣ n.ip.toNat) ∧
      nets.Pairwise (fun m n => m.ip < n.ip) ∧
      nets.Pairwise (fun m n => Disjoint m.toSet n.toSet) ∧
      (∀ a, (∃ n ∈ nets, n.Contains a) ↔ a ∈ r.toSet) ∧
      ∀ others : List InetNetwork, (∀ a, (∃ n ∈ others, n.Contains a) ↔ a ∈ r.toSet) →
        nets.length ≤ others.length := by
  obtain ⟨blocks, hblocks, h⟩ := r.subnetBlocks_greedy
  have hre : blocks.map readBack = blocks.map blockNetwork :=
    List.map_congr_left fun block hb => readBack_of_not_mapped (hr.not_mapped h block hb)
  refine ⟨blocks.map blockNetwork, by rw [subnets_eq hblocks, hre], ?_, ?_, ?_, ?_, ?_⟩
  · intro n hn
    obtain ⟨block, hb, rfl⟩ := List.mem_map.mp hn
    exact ⟨(h.aligned block hb).mask_le, (h.aligned block hb).dvd⟩
  · rw [List.pairwise_map]
    exact h.ordered.imp_of_mem fun {b c} hb _ hlt => (h.aligned b hb).le_last.trans_lt hlt
  · rw [List.pairwise_map]
    exact h.disjoint
  · intro a
    refine Iff.trans ?_ (h.contains_iff a)
    simp
  · intro others ho
    rw [List.length_map]
    exact h.shortest ho

def fullIpv4 : IpRange := ⟨⟨ipv4Default.ip, ⟨[255, 255, 255, 255], .inl rfl⟩, by decide⟩, rfl⟩

def fullIpv6 : IpRange := ⟨⟨ipv6Default.ip, ⟨List.replicate 16 0xff, .inr rfl⟩, by decide⟩, rfl⟩

theorem mem_fullIpv6 {a : IpAddress} (h : a.size = 16) : a ∈ fullIpv6.toSet := by
  have hlt := a.toNat_lt_capacity
  rw [IpAddress.capacity, h] at hlt
  have hstop : fullIpv6.stop.toNat + 1 = 256 ^ 16 := by decide
  have hs : fullIpv6.start.toNat = 0 := by decide
  refine ⟨(IpAddress.le_iff_toNat (show fullIpv6.start.size = a.size from h.symm)).mpr ?_,
    (IpAddress.le_iff_toNat (show a.size = fullIpv6.stop.size from h)).mpr ?_⟩
  · exact Nat.zero_le _
  · omega

theorem subnets_shortest_full : (∃ nets, fullIpv4.subnets = .ok nets ∧
      ∀ others : List InetNetwork, (∀ a, (∃ n ∈ others, n.Contains a) ↔ a ∈ fullIpv4.toSet) →
    nets.length ≤ others.length) ∧
    ∃ nets, fullIpv6.subnets = .ok nets ∧ ∀ a, (∃ n ∈ nets, n.Contains a) ↔ a ∈ fullIpv6.toSet := by
  constructor
  · obtain ⟨nets, hne, _, _, _, _, hs⟩ := subnets_shortest fullIpv4 (mappedFree_of_ipv4 rfl)
    exact ⟨nets, hne, hs⟩
  · obtain ⟨nets, hne, _, _, _, hc, _⟩ := subnets_shortest fullIpv6 fun _ _ _ _ hb => mem_fullIpv6 hb.1
    exact ⟨nets, hne, hc⟩

end IpRange

end Cimogus.Net
