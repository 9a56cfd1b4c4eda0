import Cimogus.Daemon.ExcludeAddresses
import Cimogus.Lib.Runs

/-!
# Exclusion routes on Windows

`WindowsRouteMonitor::updateExclusionRoute` looks for the route that traffic to an excluded prefix would take without
the tunnel, in one pass over the routing table, and moves the exclusion route there.

An address is a bit vector here and bytes in network order in the source. A row of a family that is neither IPv4 nor
IPv6 has the address `null`.
-/

namespace Cimogus.Windows

open Lib.Runs Lib.Octets Daemon List

/-- The difference of the first bytes that differ. -/
def memcmp {w : Nat} (a b : BitVec w) (bytes : Nat) : Int :=
  (((List.range bytes).map fun i => ((octet a i).toNat : Int) - (octet b i).toNat).find? (· ≠ 0)).getD 0

def prefixcmp {w : Nat} (a b : BitVec w) (bits : Nat) : Int :=
  let bytes := bits / 8
  if 0 < bytes ∧ memcmp a b bytes ≠ 0 then memcmp a b bytes
  else if bits % 8 ≠ 0 then
    ((octet a bytes >>> (8 - bits % 8)).toNat : Int) - (octet b bytes >>> (8 - bits % 8)).toNat
  else 0

/-- `SOCKADDR_INET`: the family and the 26 bytes after it. -/
structure SockaddrInet where
  family : UInt16
  rest : BitVec 208
  deriving DecidableEq

/-- `MIB_IPFORWARD_ROW2`, with the fields that are read or set from the table. -/
structure ForwardRow2 where
  destination : QHostAddress
  prefixLength : UInt8
  luid : UInt64
  nextHop : SockaddrInet
  metric : UInt32
  deriving DecidableEq

/-- `AF_INET` and `AF_INET6`. -/
def family : QHostAddress → UInt16
  | .ipv4 _ => 2
  | .ipv6 _ => 23
  | .null => 0

structure RouteMonitor where
  luid : UInt64
  validInterfacesIpv4 : List UInt64
  validInterfacesIpv6 : List UInt64

structure Best where
  nexthop : SockaddrInet
  luid : UInt64
  length : Int
  metric : UInt32

/-- A call of `DeleteIpForwardEntry2` or `CreateIpForwardEntry2`. -/
inductive KernelCall
  | delete (row : ForwardRow2)
  | create (row : ForwardRow2)
  deriving DecidableEq

/-- The routes of the kernel after a call that it carries out. -/
def KernelCall.apply : KernelCall → List ForwardRow2 → List ForwardRow2
  | .delete row, kernel => kernel.filter (· ≠ row)
  | .create row, kernel => kernel ++ [row]

namespace RouteMonitor

variable (m : RouteMonitor)

/-- The row matches the destination and its interface can be used, for the family of the destination. -/
def matchesDestination (data row : ForwardRow2) : Bool :=
  match data.destination, row.destination with
  | .ipv6 a, .ipv6 b => m.validInterfacesIpv6.contains row.luid && prefixcmp a b row.prefixLength.toNat == 0
  | .ipv4 a, .ipv4 b => m.validInterfacesIpv4.contains row.luid && prefixcmp a b row.prefixLength.toNat == 0
  | _, _ => false

def consider (data : ForwardRow2) (row : ForwardRow2) (best : Best) : Best :=
  if row.luid = m.luid then best
  else if row.prefixLength ≥ data.prefixLength then best
  else if (row.prefixLength.toNat : Int) < best.length then best
  else if !m.matchesDestination data row then best
  else if (row.prefixLength.toNat : Int) = best.length ∧ row.metric ≥ best.metric then best
  else ⟨row.nextHop, row.luid, row.prefixLength.toNat, row.metric⟩

def initial (data : ForwardRow2) : Best := ⟨⟨family data.destination, 0⟩, 0, -1, 0xffffffff⟩

def scan (table : List ForwardRow2) (data : ForwardRow2) : Best := run (m.consider data) table (initial data)

def updateExclusionRoute (table : List ForwardRow2) (data : ForwardRow2) : ForwardRow2 × List KernelCall :=
  let best := m.scan table data
  if data.luid = best.luid ∧ best.nexthop = data.nextHop then (data, [])
  else
    let data' := { data with luid := best.luid, nextHop := best.nexthop }
    (data', (if data.luid ≠ 0 then [.delete data] else []) ++ if data'.luid ≠ 0 then [.create data'] else [])

end RouteMonitor

/-! ## Prefixes -/

theorem memcmp_eq_zero_iff {w : Nat} {a b : BitVec w} {bytes : Nat} :
    memcmp a b bytes = 0 ↔ ∀ i < bytes, octet a i = octet b i := by
  have hdi : ∀ i, ((octet a i).toNat : Int) - (octet b i).toNat = 0 ↔ octet a i = octet b i := by
    intro i
    rw [← BitVec.toNat_inj]
    omega
  rw [memcmp]
  cases hfi : ((List.range bytes).map fun i => ((octet a i).toNat : Int) - (octet b i).toNat).find? (· ≠ 0) with
  | none =>
    refine iff_of_true rfl fun i hi => (hdi i).mp ?_
    have hze := find?_eq_none.mp hfi _ (mem_map.mpr ⟨i, mem_range.mpr hi, rfl⟩)
    simpa using hze
  | some d =>
    have hne : d ≠ 0 := by simpa using find?_some hfi
    obtain ⟨i, hi, hd⟩ := mem_map.mp (mem_of_find?_eq_some hfi)
    refine iff_of_false hne fun h => hne ?_
    rw [← hd]
    exact (hdi i).mpr (h i (mem_range.mp hi))

theorem prefixcmp_eq_zero_iff {w : Nat} (hw : 8 ∣ w) {a b : BitVec w} {bits : Nat} (hb : bits ≤ w) :
    prefixcmp a b bits = 0 ↔ a.toNat / 2 ^ (w - bits) = b.toNat / 2 ^ (w - bits) := by
  rw [← prefix_eq_iff hw hb, ← memcmp_eq_zero_iff]
  simp only [prefixcmp]
  split
  · rename_i hd
    exact iff_of_false hd.2 fun h => hd.2 h.1
  · rename_i hs
    have hs : memcmp a b (bits / 8) = 0 := by
      rcases Nat.eq_zero_or_pos (bits / 8) with h0 | hp
      · rw [h0]
        rfl
      · exact not_not.mp fun hne => hs ⟨hp, hne⟩
    split
    · rename_i hrest
      rw [← BitVec.toNat_inj]
      constructor
      · exact fun h => ⟨hs, fun _ => by omega⟩
      · exact fun h => by rw [h.2 hrest, sub_self]
    · rename_i hrest
      exact iff_of_true rfl ⟨hs, fun h => absurd h hrest⟩

/-! ## The best row -/

def ForwardRow2.ip (row : ForwardRow2) : IPAddress := ⟨row.destination, row.prefixLength.toNat⟩

namespace RouteMonitor

variable (m : RouteMonitor)

/-- The interfaces that can be used for the family of an address. -/
def validInterfaces : QHostAddress → List UInt64
  | .ipv4 _ => m.validInterfacesIpv4
  | .ipv6 _ => m.validInterfacesIpv6
  | .null => []

/-- A shorter prefix of the table that has the destination, with a usable interface that is not the tunnel's. -/
structure Candidate (data row : ForwardRow2) : Prop where
  luid : row.luid ≠ m.luid
  valid : row.luid ∈ m.validInterfaces data.destination
  shorter : row.prefixLength < data.prefixLength
  matching : data.destination ∈ row.ip.hosts

end RouteMonitor

/-- The longer prefix, or the lower metric for the same length. -/
def ForwardRow2.Beats (row other : ForwardRow2) : Prop :=
  other.prefixLength < row.prefixLength ∨ other.prefixLength = row.prefixLength ∧ row.metric < other.metric

namespace RouteMonitor

variable (m : RouteMonitor)

structure FirstBest (data : ForwardRow2) (table : List ForwardRow2) (row : ForwardRow2) : Prop where
  candidate : m.Candidate data row
  split : ∃ earlier later, table = earlier ++ row :: later ∧
    (∀ other ∈ earlier, m.Candidate data other → row.Beats other) ∧
    ∀ other ∈ later, m.Candidate data other → ¬other.Beats row

variable {m} {data row best : ForwardRow2} {table : List ForwardRow2}

theorem beats_iff {row other : ForwardRow2} : row.Beats other ↔ other.prefixLength.toNat < row.prefixLength.toNat ∨
      other.prefixLength.toNat = row.prefixLength.toNat ∧ row.metric.toNat < other.metric.toNat := by
  rw [ForwardRow2.Beats, UInt8.lt_iff_toNat_lt, UInt32.lt_iff_toNat_lt, UInt8.toNat_inj]

theorem FirstBest.concat_of_not (h : m.FirstBest data table best) (hr : m.Candidate data row → ¬row.Beats best) :
    m.FirstBest data (table ++ [row]) best := by
  obtain ⟨hb, earlier, later, rfl, he, hl⟩ := h
  refine ⟨hb, earlier, later ++ [row], by rw [append_assoc, cons_append], he, fun other ho => ?_⟩
  rcases mem_append.mp ho with hold | hnew
  · exact hl other hold
  · rwa [mem_singleton.mp hnew]

theorem FirstBest.concat_of_beats (h : m.FirstBest data table best) (hr : m.Candidate data row) (hb : row.Beats best) :
    m.FirstBest data (table ++ [row]) row := by
  obtain ⟨hbe, earlier, later, rfl, he, hl⟩ := h
  refine ⟨hr, _, [], rfl, fun other ho hc => ?_, fun _ hni => nomatch hni⟩
  rcases mem_append.mp ho with hold | hnew
  · have hw := he other hold hc
    rw [beats_iff] at hw hb ⊢
    omega
  · rcases mem_cons.mp hnew with rfl | ha
    · exact hb
    · have hw := hl other ha hc
      rw [beats_iff] at hw hb ⊢
      omega

theorem firstBest_concat (hno : ∀ other ∈ table, ¬m.Candidate data other) (hr : m.Candidate data row) :
    m.FirstBest data (table ++ [row]) row :=
  ⟨hr, table, [], rfl, fun other ho hc => absurd hc (hno other ho), fun _ hni => nomatch hni⟩

theorem FirstBest.mem (h : m.FirstBest data table row) : row ∈ table := by
  obtain ⟨_, earlier, later, rfl, _⟩ := h
  exact mem_append_right _ mem_cons_self

theorem FirstBest.eq_of_split {row' : ForwardRow2} {earlier later c later' : List ForwardRow2}
    (hl : ∀ other ∈ later, m.Candidate data other → ¬other.Beats row) (hr : m.Candidate data row)
    (hr' : m.Candidate data row') (he' : ∀ other ∈ earlier ++ c, m.Candidate data other → row'.Beats other)
    (hsplit : row :: later = c ++ row' :: later') : row = row' := by
  cases c with
  | nil => exact (List.cons.inj hsplit).1
  | cons x c =>
    obtain ⟨rfl, rfl⟩ := List.cons.inj hsplit
    exact absurd (he' row (mem_append_right _ mem_cons_self) hr)
      (hl row' (mem_append_right _ mem_cons_self) hr')

theorem FirstBest.unique {row' : ForwardRow2} (h : m.FirstBest data table row) (h' : m.FirstBest data table row') :
    row = row' := by
  obtain ⟨hr, earlier, later, rfl, he, hl⟩ := h
  obtain ⟨hr', earlier', later', hsplit, he', hl'⟩ := h'
  rcases append_eq_append_iff.mp hsplit with ⟨c, rfl, hc⟩ | ⟨c, rfl, hc⟩
  · exact eq_of_split hl hr hr' he' hc
  · exact (eq_of_split hl' hr' hr he hc).symm

/-! ## The pass -/

/-- The comparison for one family. -/
theorem valid_and_prefixcmp_iff {w : Nat} (hw : 8 ∣ w) {a b : BitVec w} {interfaces : List UInt64} {luid : UInt64}
    {length : Nat}
    (hl : length ≤ w) : (interfaces.contains luid && prefixcmp a b length == 0) = true ↔
      luid ∈ interfaces ∧ a.toNat / 2 ^ (w - length) = b.toNat / 2 ^ (w - length) := by
  rw [Bool.and_eq_true, contains_iff_mem, beq_iff_eq, prefixcmp_eq_zero_iff hw hl]

theorem matchesDestination_iff (hd : data.ip.Valid) (hs : row.prefixLength < data.prefixLength) :
    m.matchesDestination data row = true ↔ row.luid ∈ m.validInterfaces data.destination ∧
    data.destination ∈ row.ip.hosts := by
  have hl : row.prefixLength.toNat ≤ data.destination.width := by
    have hle := hd.toNat_le
    have hlt := UInt8.lt_iff_toNat_lt.mp hs
    simp only [ForwardRow2.ip, Int.toNat_natCast] at hle
    omega
  obtain ⟨destination, length, luid, nextHop, metric⟩ := row
  obtain ⟨target, _, _, _, _⟩ := data
  cases target with
  | null => exact absurd rfl hd.address
  | ipv4 a =>
    cases destination with
    | ipv4 b =>
      refine (valid_and_prefixcmp_iff (w := 32) (by decide) hl).trans (and_congr_right fun _ => ?_)
      exact ⟨fun h => ⟨rfl, h⟩, fun h => h.2⟩
    | null | ipv6 _ => exact iff_of_false Bool.false_ne_true fun h => nomatch h.2.1
  | ipv6 a =>
    cases destination with
    | ipv6 b =>
      refine (valid_and_prefixcmp_iff (w := 128) (by decide) hl).trans (and_congr_right fun _ => ?_)
      exact ⟨fun h => ⟨rfl, h⟩, fun h => h.2⟩
    | null | ipv4 _ => exact iff_of_false Bool.false_ne_true fun h => nomatch h.2.1

theorem consider_of_not_candidate (hd : data.ip.Valid) (h : ¬m.Candidate data row) (b : Best) :
    m.consider data row b = b := by
  rw [consider]
  split
  · rfl
  rename_i hl
  split
  · rfl
  rename_i hs
  have hs : row.prefixLength < data.prefixLength := UInt8.not_le.mp hs
  split
  · rfl
  split
  · rfl
  rename_i hma
  obtain ⟨hv, hm⟩ := (matchesDestination_iff hd hs).mp (by simpa using hma)
  exact absurd ⟨hl, hv, hs, hm⟩ h

def Best.ofRow (row : ForwardRow2) : Best := ⟨row.nextHop, row.luid, row.prefixLength.toNat, row.metric⟩

theorem consider_of_candidate (hd : data.ip.Valid) (h : m.Candidate data row) (b : Best) : m.consider data row b =
      if (row.prefixLength.toNat : Int) < b.length ∨ (row.prefixLength.toNat : Int) = b.length ∧
        b.metric ≤ row.metric then b
      else Best.ofRow row := by
  have hm := (matchesDestination_iff hd h.shorter).mpr ⟨h.valid, h.matching⟩
  rw [consider, if_neg h.luid, if_neg (UInt8.not_le.mpr h.shorter), hm]
  by_cases hlt : (row.prefixLength.toNat : Int) < b.length
  · rw [if_pos hlt, if_pos (.inl hlt)]
  · simp only [hlt, false_or]
    rfl

inductive Scanned (m : RouteMonitor) (data : ForwardRow2) (table : List ForwardRow2) : Best → Prop
  | nothing (h : ∀ row ∈ table, ¬m.Candidate data row) : Scanned m data table (initial data)
  | best (row : ForwardRow2) (h : m.FirstBest data table row) : Scanned m data table (Best.ofRow row)

theorem Scanned.step {b : Best} (hd : data.ip.Valid) (h : Scanned m data table b) :
    Scanned m data (table ++ [row]) (m.consider data row b) := by
  by_cases hr : m.Candidate data row
  · rw [consider_of_candidate hd hr]
    cases h with
    | nothing hno =>
      exact .best row (firstBest_concat hno hr)
    | best best hb =>
      split
      · rename_i hk
        refine .best best (hb.concat_of_not fun _ hbe => ?_)
        rw [beats_iff] at hbe
        simp only [Best.ofRow, UInt32.le_iff_toNat_le] at hk
        omega
      · rename_i ht
        refine .best row (hb.concat_of_beats hr ?_)
        rw [beats_iff]
        simp only [Best.ofRow, UInt32.le_iff_toNat_le] at ht
        omega
  · rw [consider_of_not_candidate hd hr]
    cases h with
    | nothing hno =>
      refine .nothing fun other ho => ?_
      rcases mem_append.mp ho with hold | hnew
      · exact hno other hold
      · rwa [mem_singleton.mp hnew]
    | best best hb => exact .best best (hb.concat_of_not fun hc => absurd hc hr)

theorem scan_spec (hd : data.ip.Valid) (table : List ForwardRow2) : Scanned m data table (m.scan table data) := by
  induction table using List.reverseRecOn with
  | nil => exact .nothing fun _ hni => nomatch hni
  | append_singleton table row ih =>
    rw [scan, run_append]
    exact ih.step hd

theorem scan_of_none (hd : data.ip.Valid) (hno : ∀ row ∈ table, ¬m.Candidate data row) :
    m.scan table data = initial data := by
  have hs := scan_spec (m := m) hd table
  generalize m.scan table data = b at hs ⊢
  cases hs with
  | nothing => rfl
  | best row h => exact absurd h.candidate (hno row h.mem)

theorem scan_of_firstBest (hd : data.ip.Valid) (h : m.FirstBest data table row) :
    m.scan table data = Best.ofRow row := by
  have hs := scan_spec (m := m) hd table
  generalize m.scan table data = b at hs ⊢
  cases hs with
  | nothing hno => exact absurd h.candidate (hno row h.mem)
  | best row' h' => rw [h.unique h']

/-! ## The kernel -/

/-- The row stands for a route of the kernel, unless it has no interface. -/
structure Tracked (data : ForwardRow2) (kernel : List ForwardRow2) : Prop where
  luid : ∀ row ∈ kernel, row.luid ≠ 0
  present : data.luid ≠ 0 → data ∈ kernel

/-- The row is moved to what the pass ended with. -/
theorem updateExclusionRoute_fst (table : List ForwardRow2) (data : ForwardRow2) :
    (m.updateExclusionRoute table data).1 =
      { data with luid := (m.scan table data).luid, nextHop := (m.scan table data).nexthop } := by
  simp only [updateExclusionRoute]
  split
  · rename_i hs
    rw [← hs.1, hs.2]
  · rfl

/-- The calls, if something changes. -/
theorem updateExclusionRoute_snd (table : List ForwardRow2) (data : ForwardRow2) :
    (m.updateExclusionRoute table data).2 =
      if (m.updateExclusionRoute table data).1 = data then [] else (if data.luid ≠ 0 then [.delete data] else []) ++
        if (m.updateExclusionRoute table data).1.luid ≠ 0 then [.create (m.updateExclusionRoute table data).1]
          else [] := by
  simp only [updateExclusionRoute]
  split
  · rw [if_pos rfl]
  · rename_i hd
    have hne : { data with luid := (m.scan table data).luid, nextHop := (m.scan table data).nexthop } ≠ data := by
      intro hs
      exact hd ⟨congrArg ForwardRow2.luid hs.symm, congrArg ForwardRow2.nextHop hs⟩
    rw [if_neg hne]

open KernelCall

theorem Tracked.update (table : List ForwardRow2) {kernel : List ForwardRow2} (h : Tracked data kernel) :
    Tracked (m.updateExclusionRoute table data).1 (run apply (m.updateExclusionRoute table data).2 kernel) := by
  rw [updateExclusionRoute_snd]
  generalize (m.updateExclusionRoute table data).1 = data'
  by_cases hs : data' = data
  · rw [if_pos hs, hs]
    exact h
  rw [if_neg hs, run_append]
  have hd : ∀ row ∈ run apply (if data.luid ≠ 0 then [.delete data] else []) kernel, row.luid ≠ 0 := by
    split
    · exact fun row hr => h.luid row (mem_filter.mp hr).1
    · exact h.luid
  split
  · refine ⟨fun row hr => ?_, fun _ => mem_append_right _ (mem_singleton.mpr rfl)⟩
    rcases mem_append.mp hr with hold | hnew
    · exact hd row hold
    · rwa [mem_singleton.mp hnew]
  · rename_i hl
    exact ⟨hd, fun hne => absurd hne hl⟩

theorem Tracked.notMem_update (table : List ForwardRow2) {kernel : List ForwardRow2} (h : Tracked data kernel)
    (hl : (m.updateExclusionRoute table data).1.luid = 0) :
    data ∉ run apply (m.updateExclusionRoute table data).2 kernel := by
  intro hm
  have hd : data.luid ≠ 0 := (h.update table).luid data hm
  have hne : (m.updateExclusionRoute table data).1 ≠ data := fun hs => hd (hs ▸ hl)
  rw [updateExclusionRoute_snd, if_neg hne, if_pos hd, if_neg (not_not.mpr hl)] at hm
  exact of_decide_eq_true (mem_filter.mp hm).2 rfl

/-- **Exclusion routes take the best route that is not the tunnel's.** The row gets the interface and the next hop of
the first best row. Without one it has no interface, and its route is not in the kernel. The kernel is not called if the
row stays as it is; in any case the row stands for a route of the kernel afterwards, unless it has no interface. -/
theorem updateExclusionRoute_spec (hdata : data.ip.Valid) (table : List ForwardRow2) :
    let result := m.updateExclusionRoute table data
    (∀ row, m.FirstBest data table row → result.1 = { data with luid := row.luid, nextHop := row.nextHop }) ∧
    ((∃ row ∈ table, m.Candidate data row) → ∃ row, m.FirstBest data table row) ∧
    ((∀ row ∈ table, ¬m.Candidate data row) → result.1.luid = 0 ∧
      ∀ kernel, Tracked data kernel → data ∉ run apply result.2 kernel ∧
    result.1 ∉ run apply result.2 kernel) ∧
    (result.1.luid = data.luid → result.1.nextHop = data.nextHop → result.2 = []) ∧
    (∀ kernel, Tracked data kernel → Tracked result.1 (run apply result.2 kernel)) := by
  refine ⟨fun row hr => ?_, fun ⟨row, hm, hr⟩ => ?_, fun hno => ?_, fun hl hne => ?_,
    fun kernel h => h.update table⟩
  · rw [updateExclusionRoute_fst, scan_of_firstBest hdata hr]
    rfl
  · have hs := scan_spec (m := m) hdata table
    generalize m.scan table data = b at hs
    cases hs with
    | nothing hno => exact absurd hr (hno row hm)
    | best best hb => exact ⟨best, hb⟩
  · have hl : (m.updateExclusionRoute table data).1.luid = 0 := by
      rw [updateExclusionRoute_fst, scan_of_none hdata hno]
      rfl
    exact ⟨hl, fun kernel h => ⟨h.notMem_update table hl, fun hm => (h.update table).luid _ hm hl⟩⟩
  · have hsa : (m.updateExclusionRoute table data).1 = data := by
      rw [updateExclusionRoute_fst] at hl hne ⊢
      rw [show (m.scan table data).luid = data.luid from hl, show (m.scan table data).nexthop = data.nextHop from hne]
    rw [updateExclusionRoute_snd, if_pos hsa]

/-- A host that is reached through a network card, beside the tunnel's default route. -/
theorem updateExclusionRoute_spec_gateway :
    let m : RouteMonitor := ⟨7, [1], []⟩
    let data : ForwardRow2 := ⟨.ipv4 0xC6336401#32, 32, 0, ⟨2, 0⟩, 0⟩
    let tunnel : ForwardRow2 := ⟨.ipv4 0#32, 1, 7, ⟨2, 0⟩, 0⟩
    let gateway : ForwardRow2 := ⟨.ipv4 0#32, 0, 1, ⟨2, 0xC0A80101#208⟩, 25⟩
    data.ip.Valid ∧ m.FirstBest data [tunnel, gateway] gateway ∧
      (m.updateExclusionRoute [tunnel, gateway] data).1 =
      { data with luid := 1, nextHop := ⟨2, 0xC0A80101#208⟩ } := by
  intro m data tunnel gateway
  have hd : data.ip.Valid := ⟨by decide, by decide, by decide⟩
  have hb : m.FirstBest data [tunnel, gateway] gateway := by
    have hm : data.destination ∈ gateway.ip.hosts := ⟨rfl, Lib.Blocks.mem_block.mpr (by decide)⟩
    refine ⟨⟨by decide, by decide, by decide, hm⟩, [tunnel], [], rfl, fun other ho hc => ?_,
      fun _ hni => nomatch hni⟩
    rw [mem_singleton.mp ho] at hc
    exact absurd rfl hc.luid
  exact ⟨hd, hb, (updateExclusionRoute_spec hd [tunnel, gateway]).1 gateway hb⟩

end RouteMonitor

end Cimogus.Windows
