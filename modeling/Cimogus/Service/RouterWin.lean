import Cimogus.Lib.Runs
import Cimogus.Lib.Tables
import Cimogus.Service.NetworkUtilities
import Mathlib.Data.List.Induction

/-!
# The router of the service on Windows

`RouterWin` adds rows to the forwarding table and saves them in `m_ipForwardRows`, a map with several rows for a key;
the key of a row is the text of its address, without the prefix length. `routeDeleteList` collects its requests in a map
with one entry for an address, so that of two prefixes with one address the later one counts, and forgets the saved rows
under the text of the request, with its prefix length.
-/

namespace Cimogus.Service

open Lib Lib.Runs List

/-- `MIB_IPFORWARDROW`, without what is the same in all rows. -/
structure ForwardRow where
  dest : BitVec 32
  mask : BitVec 32
  nextHop : BitVec 32
  ifIndex : Nat
  metric1 : Nat
  deriving DecidableEq

structure RouterWin where
  ipForwardRows : List (String × ForwardRow)
  /-- The forwarding table of the system. -/
  table : List ForwardRow
  deriving DecidableEq

/-- What `CreateIpForwardEntry` returns. -/
inductive CreateStatus
  | NO_ERROR
  | ERROR_OBJECT_ALREADY_EXISTS
  | failed
  deriving DecidableEq

/-- What the system answers to `routeAddList`. -/
structure AddReplies where
  tableRead : Bool
  bestInterface : Option Nat
  interfaceMetric : Option Nat
  /-- The answer to the `n`-th request. -/
  status : Nat → CreateStatus

variable {ipMask : String} {row : ForwardRow}

namespace RouterWin

variable (net : Texts)

def destOf (ipMask : String) : BitVec 32 := net.inetAddr (ipAddressFromIpWithSubnet ipMask)

def maskOf (ipMask : String) : BitVec 32 := net.inetAddr (net.netMaskFromIpWithSubnet ipMask)

def addRow (status : CreateStatus) (nextHop : BitVec 32) (ifIndex metric1 : Nat) (ipWithMask : String) :
    Step RouterWin := fun s =>
  let ip := ipAddressFromIpWithSubnet ipWithMask
  if !net.checkIPv4Format ip then (false, s)
  else
    let row : ForwardRow := ⟨net.inetAddr ip, maskOf net ipWithMask, nextHop, ifIndex, metric1⟩
    match status with
    | .NO_ERROR => (true, { s with ipForwardRows := (ip, row) :: s.ipForwardRows, table := s.table ++ [row] })
    | .ERROR_OBJECT_ALREADY_EXISTS => (true, { s with ipForwardRows := (ip, row) :: s.ipForwardRows })
    | .failed => (false, s)

def routeAddList (r : AddReplies) (gw : String) (ips : List String) (s : RouterWin) : Nat × RouterWin :=
  if !net.checkIPv4Format gw then (0, s)
  else if !r.tableRead then (0, s)
  else
    match r.bestInterface with
    | none => (0, s)
    | some ifIndex =>
      let metric1 := (r.interfaceMetric.map (· + 1)).getD 256
      Step.count (fun n => addRow net (r.status n) (net.inetAddr gw) ifIndex metric1) ips s

/-- The requests by address, the later one for an address in place of the earlier one. -/
def ipMap (ips : List String) : Table (BitVec 32) (String × BitVec 32) :=
  ips.foldl (fun m ipMask =>
    if ipMask = "" then m
    else if ipAddressFromIpWithSubnet ipMask = "" then m
    else Function.update m (destOf net ipMask) (some (ipMask, maskOf net ipMask))) Table.empty

/-- The text of the request that a row of the table is deleted for. -/
def request (gw : BitVec 32) (m : Table (BitVec 32) (String × BitVec 32)) (row : ForwardRow) : Option String :=
  match m row.dest with
  | some (ipMask, mask) => if mask = row.mask ∧ row.nextHop = gw then some ipMask else none
  | none => none

def deleteRow (ok : Bool) (gw : BitVec 32) (m : Table (BitVec 32) (String × BitVec 32)) (row : ForwardRow) :
    Step RouterWin :=
  fun s =>
    match request gw m row with
    | some ipMask =>
      if ok then
        (true, { ipForwardRows := s.ipForwardRows.filter (·.1 ≠ ipMask), table := s.table.filter (· ≠ row) })
      else (false, s)
    | none => (false, s)

/-- The loop goes over the table as it was read. -/
def routeDeleteList (tableRead : Bool) (ok : Nat → Bool) (gw : String) (ips : List String) (s : RouterWin) :
    Nat × RouterWin :=
  if !tableRead then (0, s)
  else Step.count (fun n => deleteRow (ok n) (net.inetAddr gw) (ipMap net ips)) s.table s

/-! ## What was asked for -/

/-- The element of a list stands for the destination. -/
def stands (dest : BitVec 32) (ipMask : String) : Bool :=
  ipAddressFromIpWithSubnet ipMask ≠ "" && destOf net ipMask = dest

/-- Row is asked to be deleted: an element of the list has its address and its mask. -/
def Asked (gw : String) (ips : List String) (row : ForwardRow) : Prop :=
  row.nextHop = net.inetAddr gw ∧ ∃ ipMask ∈ ips, stands net row.dest ipMask = true ∧
    maskOf net ipMask = row.mask

instance (gw : String) (ips : List String) (row : ForwardRow) : Decidable (Asked net gw ips row) :=
  inferInstanceAs (Decidable (_ ∧ _))

/-- The rows asked for are deleted and no longer saved; everything else is as before. -/
structure Correct (gw : String) (ips : List String) (s s' : RouterWin) : Prop where
  table : s'.table = s.table.filter fun row => ¬Asked net gw ips row
  saved : s'.ipForwardRows = s.ipForwardRows.filter fun e =>
    ¬∃ row ∈ s.table, row ∉ s'.table ∧ row.dest = e.2.dest ∧ row.mask = e.2.mask

/-- The last element of the list with the address. -/
def lastFor (ips : List String) (dest : BitVec 32) : Option String := ips.reverse.find? (stands net dest)

/-- The later request for an address counts. -/
theorem ipMap_eq (ips : List String) (dest : BitVec 32) :
    ipMap net ips dest = (lastFor net ips dest).map fun ipMask => (ipMask, maskOf net ipMask) := by
  induction ips using List.reverseRecOn with
  | nil => rfl
  | append_singleton ips ipMask ih =>
    rw [ipMap, lastFor] at ih
    rw [ipMap, List.foldl_append, foldl_cons, foldl_nil, lastFor, reverse_append, reverse_singleton,
      singleton_append]
    have he : ipMask = "" → ipAddressFromIpWithSubnet ipMask = "" := by
      rintro rfl
      decide
    by_cases hip : ipAddressFromIpWithSubnet ipMask = ""
    · have hno : stands net dest ipMask = false := by simp [stands, hip]
      simpa [hip, hno] using ih
    · rw [if_neg (mt he hip), if_neg hip]
      by_cases hd : destOf net ipMask = dest
      · have hs : stands net dest ipMask = true := by simp [stands, hip, hd]
        simp [hd, hs]
      · have hno : stands net dest ipMask = false := by simp [stands, hd]
        rw [Function.update_of_ne (Ne.symm hd)]
        simpa [hno] using ih

theorem request_eq_some_iff {gw : BitVec 32} {ips : List String} : request gw (ipMap net ips) row = some ipMask ↔
      lastFor net ips row.dest = some ipMask ∧ maskOf net ipMask = row.mask ∧ row.nextHop = gw := by
  rw [request, ipMap_eq]
  cases hlast : lastFor net ips row.dest with
  | none => simp
  | some t =>
    simp only [Option.map_some, Option.ite_none_right_eq_some, Option.some.injEq]
    constructor
    · rintro ⟨hr, rfl⟩
      exact ⟨rfl, hr⟩
    · rintro ⟨rfl, hr⟩
      exact ⟨hr, rfl⟩

/-! ## The loop -/

section Loop

variable (gw : BitVec 32) (m : Table (BitVec 32) (String × BitVec 32)) (l : List ForwardRow) (s : RouterWin)

theorem deleteLoop_eq : (Step.each (fun _ => deleteRow true gw m) l s).2 =
    { ipForwardRows := s.ipForwardRows.filter fun e => ¬∃ row ∈ l, request gw m row = some e.1
      table := s.table.filter fun row => ¬(row ∈ l ∧ (request gw m row).isSome) } := by
  induction l generalizing s with
  | nil =>
    have ha {α : Type} (l : List α) : l.filter (fun _ => true) = l := filter_eq_self.mpr fun _ _ => rfl
    simp [ha]
  | cons row l ih =>
    rw [Step.each_cons, ih]
    cases hr : request gw m row with
    | none =>
      have hfi : (deleteRow true gw m row s).2 = s := by simp [deleteRow, hr]
      rw [hfi]
      congr 1
      · simp [hr]
      · refine filter_congr fun row' _ => ?_
        by_cases heq : row' = row
        · simp [heq, hr]
        · simp [heq]
    | some ipMask =>
      have hfi : (deleteRow true gw m row s).2 =
          ⟨s.ipForwardRows.filter (·.1 ≠ ipMask), s.table.filter (· ≠ row)⟩ := by simp [deleteRow, hr]
      rw [hfi]
      congr 1
      · rw [filter_filter]
        simp [hr, Bool.and_comm, eq_comm]
      · rw [filter_filter]
        refine filter_congr fun row' _ => ?_
        by_cases heq : row' = row
        · simp [heq, hr]
        · simp [heq]

end Loop

/-! ## The saved rows -/

/-- The rows are saved under the texts of their addresses. -/
def Keyed (s : RouterWin) : Prop :=
  ∀ e ∈ s.ipForwardRows, e.2.dest = net.inetAddr e.1 ∧ ipAddressFromIpWithSubnet e.1 = e.1

section Adding

variable {net} {s : RouterWin}

theorem Keyed.addRow (h : s.Keyed net) (status : CreateStatus) (nextHop : BitVec 32) (ifIndex metric1 : Nat)
    (ipWithMask : String) : (addRow net status nextHop ifIndex metric1 ipWithMask s).2.Keyed net := by
  unfold RouterWin.addRow
  by_cases hc : net.checkIPv4Format (ipAddressFromIpWithSubnet ipWithMask) = true
  · have hco (row : ForwardRow) (hr : row.dest = net.inetAddr (ipAddressFromIpWithSubnet ipWithMask))
        (table : List ForwardRow) : Keyed net
          ⟨(ipAddressFromIpWithSubnet ipWithMask, row) :: s.ipForwardRows, table⟩ :=
      forall_mem_cons.mpr ⟨⟨hr, net.ipAddressFromIpWithSubnet_idem hc⟩, h⟩
    simp only [hc, Bool.not_true, Bool.false_eq_true, if_false]
    cases status with
    | NO_ERROR | ERROR_OBJECT_ALREADY_EXISTS => exact hco _ rfl _
    | failed => exact h
  · simp only [hc, Bool.not_false, if_true]
    exact h

theorem Keyed.routeAddList (h : s.Keyed net) (r : AddReplies) (gw : String) (ips : List String) :
    (routeAddList net r gw ips s).2.Keyed net := by
  unfold RouterWin.routeAddList
  split
  · exact h
  split
  · exact h
  split
  · exact h
  next ifIndex _ =>
    rw [Step.count_snd]
    have hbody (n : Nat) (ip : String) : Step.Maintains (Keyed net)
        (RouterWin.addRow net (r.status n) (net.inetAddr gw) ifIndex ((r.interfaceMetric.map (· + 1)).getD 256) ip) :=
      fun _ hs => hs.addRow _ _ _ _ ip
    exact Step.Maintains.each hbody ips s h

end Adding

/-- The arguments of a call of `routeAddList`, with the answers it gets. -/
structure AddCall where
  replies : AddReplies
  gw : String
  ips : List String

def AddCall.step (c : AddCall) (s : RouterWin) : RouterWin := (routeAddList net c.replies c.gw c.ips s).2

/-- A router with the rows saved by calls of `routeAddList`, and any table. -/
def afterCalls (calls : List AddCall) (table : List ForwardRow) : RouterWin :=
  { run (AddCall.step net) calls ⟨[], []⟩ with table }

theorem keyed_afterCalls (calls : List AddCall) (table : List ForwardRow) : (afterCalls net calls table).Keyed net := by
  have hst (c : AddCall) (s : RouterWin) (hs : s.Keyed net) : (c.step net s).Keyed net :=
    hs.routeAddList c.replies c.gw c.ips
  have hi : Keyed net ⟨[], []⟩ := by
    intro e he
    cases he
  exact run_invariant hst calls hi

/-! ## The result -/

/-- Of the elements with the address of a row that is asked for, the last one has its mask. -/
def MaskKept (gw : String) (ips : List String) (s : RouterWin) : Prop :=
  ∀ row ∈ s.table, Asked net gw ips row → ∀ ipMask ∈ lastFor net ips row.dest, maskOf net ipMask = row.mask

/-- A saved row with the address of a deleted one is saved under the text of the request just when it has the mask of
the deleted one. -/
def KeyKept (gw : String) (ips : List String) (s : RouterWin) : Prop :=
  ∀ e ∈ s.ipForwardRows, ∀ row ∈ s.table, row.nextHop = net.inetAddr gw → row.dest = e.2.dest →
    ∀ ipMask ∈ lastFor net ips row.dest, maskOf net ipMask = row.mask → (ipMask = e.1 ↔ row.mask = e.2.mask)

theorem filter_eq_filter_iff {α : Type} {p q : α → Bool} {l : List α} :
    l.filter p = l.filter q ↔ ∀ a ∈ l, p a = q a := by
  refine ⟨fun h a ha => ?_, filter_congr⟩
  have hm : a ∈ l.filter p ↔ a ∈ l.filter q := by rw [h]
  rw [mem_filter, mem_filter, and_iff_right ha, and_iff_right ha] at hm
  exact Bool.eq_iff_iff.mpr hm

section Result

variable {net} {gw : String} {ips : List String} {s : RouterWin}

theorem routeDeleteList_eq : (routeDeleteList net true (fun _ => true) gw ips s).2 =
    { ipForwardRows := s.ipForwardRows.filter fun e =>
        ¬∃ row ∈ s.table, request (net.inetAddr gw) (ipMap net ips) row = some e.1
      table :=
        s.table.filter fun row => ¬(row ∈ s.table ∧ (request (net.inetAddr gw) (ipMap net ips) row).isSome) } := by
  rw [routeDeleteList]
  simp only [Bool.not_true, Bool.false_eq_true, if_false, Step.count_snd]
  exact deleteLoop_eq _ _ _ _

theorem lastFor_mem {dest : BitVec 32} (h : lastFor net ips dest = some ipMask) :
    ipMask ∈ ips ∧ stands net dest ipMask = true :=
  ⟨mem_reverse.mp (mem_of_find?_eq_some h), find?_some h⟩

theorem lastFor_isSome {dest : BitVec 32} (hm : ipMask ∈ ips) (h : stands net dest ipMask = true) :
    ∃ last, lastFor net ips dest = some last := by
  rw [← Option.isSome_iff_exists, lastFor, find?_isSome]
  exact ⟨ipMask, mem_reverse.mpr hm, h⟩

/-- A row that is deleted is asked for. -/
theorem asked_of_request (h : request (net.inetAddr gw) (ipMap net ips) row = some ipMask) : Asked net gw ips row := by
  obtain ⟨hlast, hm, hh⟩ := (request_eq_some_iff net).mp h
  exact ⟨hh, ipMask, (lastFor_mem hlast).1, (lastFor_mem hlast).2, hm⟩

theorem request_isSome_iff (h : MaskKept net gw ips s) {row : ForwardRow} (hro : row ∈ s.table) :
    (request (net.inetAddr gw) (ipMap net ips) row).isSome = true ↔ Asked net gw ips row := by
  constructor
  · intro hr
    obtain ⟨ipMask, hi⟩ := Option.isSome_iff_exists.mp hr
    exact asked_of_request hi
  · intro ha
    obtain ⟨ipMask, hm, hs, _⟩ := ha.2
    obtain ⟨last, hlast⟩ := lastFor_isSome hm hs
    rw [(request_eq_some_iff net).mpr ⟨hlast, h row hro ha last hlast, ha.1⟩]
    rfl

theorem table_correct_iff : (routeDeleteList net true (fun _ => true) gw ips s).2.table =
    (s.table.filter fun row => ¬Asked net gw ips row) ↔ MaskKept net gw ips s := by
  rw [routeDeleteList_eq, filter_eq_filter_iff]
  constructor
  · intro h row hr ha ipMask hlast
    have hre : request (net.inetAddr gw) (ipMap net ips) row ≠ none := by simpa [hr, ha] using h row hr
    obtain ⟨ipMask', hi'⟩ := Option.ne_none_iff_exists'.mp hre
    obtain ⟨hl', hm, _⟩ := (request_eq_some_iff net).mp hi'
    obtain rfl : ipMask' = ipMask := by simpa [hl'] using hlast
    exact hm
  · intro h row hr
    have hi := request_isSome_iff h hr
    simp only [hr, true_and, hi]

theorem deleted_iff (hr : row ∈ s.table) : row ∉ (routeDeleteList net true (fun _ => true) gw ips s).2.table ↔
      ∃ ipMask, request (net.inetAddr gw) (ipMap net ips) row = some ipMask := by
  rw [routeDeleteList_eq, ← Option.ne_none_iff_exists']
  simp [hr]

theorem dest_of_request (h : request (net.inetAddr gw) (ipMap net ips) row = some ipMask) :
    destOf net ipMask = row.dest := by
  have hs := (lastFor_mem ((request_eq_some_iff net).mp h).1).2
  simp only [stands, Bool.and_eq_true, decide_eq_true_eq] at hs
  exact hs.2

theorem saved_correct_iff (hk : s.Keyed net) : (routeDeleteList net true (fun _ => true) gw ips s).2.ipForwardRows =
      (s.ipForwardRows.filter fun e => ¬∃ row ∈ s.table,
        row ∉ (routeDeleteList net true (fun _ => true) gw ips s).2.table ∧ row.dest = e.2.dest ∧
    row.mask = e.2.mask) ↔
    KeyKept net gw ips s := by
  have hrows : (routeDeleteList net true (fun _ => true) gw ips s).2.ipForwardRows = s.ipForwardRows.filter fun e =>
      ¬∃ row ∈ s.table, request (net.inetAddr gw) (ipMap net ips) row = some e.1 := by rw [routeDeleteList_eq]
  -- the address of a row is the one its key reads, so a request with that text is one for that address
  have hd (e : String × ForwardRow) (he : e ∈ s.ipForwardRows) (row : ForwardRow)
      (hre : request (net.inetAddr gw) (ipMap net ips) row = some e.1) : row.dest = e.2.dest := by
    rw [← dest_of_request hre, (hk e he).1, destOf, (hk e he).2]
  rw [hrows, filter_eq_filter_iff]
  simp only [decide_eq_decide, not_iff_not]
  constructor
  · intro h e he row hrow hh hr ipMask hlast hm
    have hre := (request_eq_some_iff net).mpr ⟨hlast, hm, hh⟩
    constructor
    · rintro rfl
      obtain ⟨row', hro', hde, hd', hm'⟩ := (h e he).mp ⟨row, hrow, hre⟩
      obtain ⟨t, ht⟩ := (deleted_iff hro').mp hde
      obtain ⟨hl', hm'', _⟩ := (request_eq_some_iff net).mp ht
      rw [hd', ← hr, hlast] at hl'
      cases hl'
      rw [← hm, hm'', hm']
    · intro hma
      obtain ⟨row', hro', hr'⟩ := (h e he).mpr ⟨row, hrow, (deleted_iff hrow).mpr ⟨ipMask, hre⟩, hr, hma⟩
      have hl' := ((request_eq_some_iff net).mp hr').1
      rw [hd e he row' hr', ← hr, hlast] at hl'
      exact Option.some.inj hl'
  · intro h e he
    constructor
    · rintro ⟨row, hrow, hre⟩
      obtain ⟨hlast, hm, hh⟩ := (request_eq_some_iff net).mp hre
      have hr := hd e he row hre
      exact ⟨row, hrow, (deleted_iff hrow).mpr ⟨_, hre⟩, hr, (h e he row hrow hh hr e.1 hlast hm).mp rfl⟩
    · rintro ⟨row, hrow, hde, hr, hro⟩
      obtain ⟨ipMask, hre⟩ := (deleted_iff hrow).mp hde
      obtain ⟨hlast, hm, hh⟩ := (request_eq_some_iff net).mp hre
      obtain rfl := (h e he row hrow hh hr ipMask hlast hm).mpr hro
      exact ⟨row, hrow, hre⟩

end Result

/-- **Deletion by list.** With every saved map and every table, `routeDeleteList` deletes and forgets just what it is
told when no element hides another one with the same address and the saved rows concerned are found under the text of
the request. -/
theorem routeDeleteList_correct_iff (calls : List AddCall) (table : List ForwardRow) (gw : String) (ips : List String) :
    Correct net gw ips (afterCalls net calls table)
        (routeDeleteList net true (fun _ => true) gw ips (afterCalls net calls table)).2 ↔
      MaskKept net gw ips (afterCalls net calls table) ∧ KeyKept net gw ips (afterCalls net calls table) :=
  ⟨fun h => ⟨table_correct_iff.mp h.table, (saved_correct_iff (keyed_afterCalls net calls table)).mp h.saved⟩,
    fun h => ⟨table_correct_iff.mpr h.1, (saved_correct_iff (keyed_afterCalls net calls table)).mpr h.2⟩⟩

/-! ## Examples -/

def granted : AddReplies := ⟨true, some 12, some 25, fun _ => .NO_ERROR⟩

def office : List AddCall := [⟨granted, "192.168.1.1", ["10.0.0.0/8"]⟩]

def officeRow : ForwardRow := ⟨0x0a000000, 0xff000000, 0xc0a80101, 12, 26⟩

def branchRow : ForwardRow := { officeRow with mask := 0xffff0000 }

/-- The row of the network stays saved after its deletion; and of the two networks asked for only the second one is
deleted. -/
theorem routeDeleteList_forgets_wrongly :
    (routeDeleteList .plain true (fun _ => true) "192.168.1.1" ["10.0.0.0/8"]
      (afterCalls .plain office [officeRow])).2 =
      ⟨[("10.0.0.0", officeRow)], []⟩ ∧
      (routeDeleteList .plain true (fun _ => true) "192.168.1.1" ["10.0.0.0/8", "10.0.0.0/16"]
      (afterCalls .plain office [officeRow, branchRow])).2.table = [officeRow] := by
  decide

end RouterWin

end Cimogus.Service
