import Cimogus.Lib.Runs
import Cimogus.Lib.Steps
import Cimogus.Service.NetworkUtilities
import Mathlib.Data.Multiset.AddSub

/-!
# The router of the service on Linux

`RouterLinux` adds and deletes routes by `ioctl` and saves the ones it has added in `m_addedRoutes`, for
`clearSavedRoutes`. The state has in addition the routes that are there on its account (`outstanding`) and the deletions
it has asked for. Whether the `n`-th `ioctl` of a call succeeds is an argument of the call.

`routeDelete` does not touch the saved routes, and `clearSavedRoutes` forgets them also where it could not delete them.
-/

namespace Cimogus.Service

open Lib Lib.Runs List

structure Route where
  dst : String
  gw : String
  deriving DecidableEq

/-- `rtentry`. -/
structure KernelRoute where
  dst : BitVec 32
  genmask : BitVec 32
  gateway : BitVec 32
  deriving DecidableEq

structure RouterLinux where
  addedRoutes : List Route
  /-- The routes added by an `ioctl` and not deleted by one since. -/
  outstanding : Multiset KernelRoute
  /-- What `SIOCDELRT` was asked for. -/
  deletions : List KernelRoute

namespace Route

variable (net : Texts) (r : Route)

def checked : Bool := net.checkIPv4Format (ipAddressFromIpWithSubnet r.dst) && net.checkIPv4Format r.gw

def entry : KernelRoute :=
  ⟨net.inetAddr (ipAddressFromIpWithSubnet r.dst), net.inetAddr (net.netMaskFromIpWithSubnet r.dst),
    net.inetAddr r.gw⟩

end Route

namespace RouterLinux

variable (net : Texts)

def routeAdd (ok : Bool) (r : Route) : Step RouterLinux := fun s =>
  if !r.checked net then (false, s)
  else if !ok then (false, s)
  else (true, { s with addedRoutes := s.addedRoutes ++ [r], outstanding := r.entry net ::ₘ s.outstanding })

def routeDelete (ok : Bool) (r : Route) : Step RouterLinux := fun s =>
  if !r.checked net then (false, s)
  else if r.dst = "0.0.0.0/0" then (true, s)
  else
    let s := { s with deletions := s.deletions ++ [r.entry net] }
    if !ok then (false, s) else (true, { s with outstanding := s.outstanding.erase (r.entry net) })

def routeAddList (ok : Nat → Bool) (gw : String) (ips : List String) (s : RouterLinux) : Nat × RouterLinux :=
  Step.count (fun n ip => routeAdd net (ok n) ⟨ip, gw⟩) ips s

/-- The count is returned as a `bool`. -/
def routeDeleteList (ok : Nat → Bool) (gw : String) (ips : List String) : Step RouterLinux := fun s =>
  let r := Step.count (fun n ip => routeDelete net (ok n) ⟨ip, gw⟩) ips s
  (r.1 ≠ 0, r.2)

def clearSavedRoutes (ok : Nat → Bool) : Step RouterLinux := fun s =>
  let r := Step.count (fun n => routeDelete net (ok n)) s.addedRoutes s
  (r.1 = s.addedRoutes.length, { r.2 with addedRoutes := [] })

inductive Event
  | routeAddList (ok : Nat → Bool) (gw : String) (ips : List String)
  | routeDeleteList (ok : Nat → Bool) (gw : String) (ips : List String)
  | clearSavedRoutes (ok : Nat → Bool)

def step : Event → RouterLinux → RouterLinux
  | .routeAddList ok gw ips, s => (routeAddList net ok gw ips s).2
  | .routeDeleteList ok gw ips, s => (routeDeleteList net ok gw ips s).2
  | .clearSavedRoutes ok, s => (clearSavedRoutes net ok s).2

def init : RouterLinux := ⟨[], 0, []⟩

/-- The default route is not among the destinations. -/
def Event.Proper : Event → Prop
  | .routeAddList _ _ ips | .routeDeleteList _ _ ips => "0.0.0.0/0" ∉ ips
  | .clearSavedRoutes _ => True

def Matches (s : RouterLinux) : Prop := (s.addedRoutes.map (Route.entry net) : Multiset KernelRoute) = s.outstanding

/-- The saved routes are the outstanding ones, so that `clearSavedRoutes` asks for their deletion and of no others, and
returns `true` if all of it succeeds. -/
structure Faithful (s : RouterLinux) : Prop where
  saved : s.Matches net
  clear (ok : Nat → Bool) : ∃ attempts, (clearSavedRoutes net ok s).2.deletions = s.deletions ++ attempts ∧
    (attempts : Multiset KernelRoute) = s.outstanding ∧
    ((∀ n < s.addedRoutes.length, ok n = true) → (clearSavedRoutes net ok s).1 = true)

/-- No outstanding route is deleted by list, and `clearSavedRoutes` succeeds. -/
def Tidy : Event → RouterLinux → Prop
  | .routeAddList .., _ => True
  | .routeDeleteList ok gw ips, s =>
    ∀ n ip, ips[n]? = some ip → Route.checked net ⟨ip, gw⟩ = true → ok n = true →
      Route.entry net ⟨ip, gw⟩ ∉ s.outstanding
  | .clearSavedRoutes ok, s => ∀ n < s.addedRoutes.length, ok n = true

def Saved (s : RouterLinux) : Prop := ∀ r ∈ s.addedRoutes, r.checked net = true ∧ r.dst ≠ "0.0.0.0/0"

/-! ## Adding -/

section Adding

variable {net} {s : RouterLinux}

theorem Matches.routeAdd (h : s.Matches net) (ok : Bool) (r : Route) : (routeAdd net ok r s).2.Matches net := by
  unfold RouterLinux.routeAdd
  split
  · exact h
  split
  · exact h
  · simp only [Matches, map_append, map_cons, map_nil]
    rw [← Multiset.coe_add, h, Multiset.coe_singleton, Multiset.add_comm, Multiset.singleton_add]

theorem Saved.routeAdd (h : s.Saved net) (ok : Bool) {r : Route} (hr : r.dst ≠ "0.0.0.0/0") :
    (routeAdd net ok r s).2.Saved net := by
  unfold RouterLinux.routeAdd
  split
  · exact h
  next hc =>
  split
  · exact h
  · intro r' hr'
    rcases mem_append.mp hr' with hr' | hr'
    · exact h r' hr'
    · rw [mem_singleton.mp hr']
      exact ⟨by simpa using hc, hr⟩

theorem Matches.routeAddList (h : s.Matches net) (ok : Nat → Bool) (gw : String) (ips : List String) :
    (routeAddList net ok gw ips s).2.Matches net := by
  rw [RouterLinux.routeAddList, Step.count_snd]
  have hbody (n : Nat) (ip : String) : Step.Maintains (Matches net) (RouterLinux.routeAdd net (ok n) ⟨ip, gw⟩) :=
    fun _ hs => hs.routeAdd (ok n) ⟨ip, gw⟩
  exact Step.Maintains.each hbody ips s h

theorem Saved.routeAddList (h : s.Saved net) (ok : Nat → Bool) (gw : String) {ips : List String}
    (hi : "0.0.0.0/0" ∉ ips) :
    (routeAddList net ok gw ips s).2.Saved net := by
  rw [RouterLinux.routeAddList, Step.count_snd]
  have hbody (n : Nat) (ip : String) (hip : ip ∈ ips) : Step.Maintains (Saved net)
      (RouterLinux.routeAdd net (ok n) ⟨ip, gw⟩) :=
    fun _ hs => hs.routeAdd (ok n) fun heq => hi (heq ▸ hip)
  exact Step.Maintains.each_of_mem hbody s h

end Adding

/-! ## Deleting -/

section Deleting

variable {net} (ok : Nat → Bool) (l : List Route) (s : RouterLinux)

def failed (ok : Nat → Bool) : List Route → List Route
  | [] => []
  | r :: l => if ok 0 then failed (fun n => ok (n + 1)) l else r :: failed (fun n => ok (n + 1)) l

theorem failed_eq_nil_iff : failed ok l = [] ↔ ∀ n < l.length, ok n = true := by
  induction l generalizing ok with
  | nil => simp [failed]
  | cons r l ih =>
    have hsplit : (∀ n < (r :: l).length, ok n = true) ↔ ok 0 = true ∧ ∀ n < l.length, ok (n + 1) = true := by
      constructor
      · exact fun h => ⟨h 0 (Nat.succ_pos _), fun n hn => h (n + 1) (Nat.succ_lt_succ hn)⟩
      · rintro ⟨hze, hrest⟩ (_ | n) hn
        · exact hze
        · exact hrest n (Nat.lt_of_succ_lt_succ hn)
    rw [hsplit, failed]
    split
    next hze => rw [ih, and_iff_right hze]
    next hze => simp [hze]

theorem deleteLoop_addedRoutes : (Step.each (fun n => routeDelete net (ok n)) l s).2.addedRoutes = s.addedRoutes := by
  have hbody (n : Nat) (r : Route) : Step.Keeps addedRoutes (routeDelete net (ok n) r) := by
    intro s
    unfold routeDelete
    split
    · rfl
    split
    · rfl
    split <;> rfl
  exact Step.Keeps.each hbody l s

theorem routeDelete_outstanding (ok : Bool) (r : Route) : (routeDelete net ok r s).2.outstanding =
    if r.checked net = true ∧ r.dst ≠ "0.0.0.0/0" ∧ ok = true then s.outstanding.erase (r.entry net)
      else s.outstanding := by
  unfold routeDelete
  by_cases hc : r.checked net = true
  · by_cases hd : r.dst = "0.0.0.0/0"
    · simp [hc, hd]
    · cases ok <;> simp [hc, hd]
  · simp [hc]

theorem routeDelete_le (ok : Bool) (r : Route) : (routeDelete net ok r s).2.outstanding ≤ s.outstanding := by
  rw [routeDelete_outstanding]
  split
  · exact Multiset.erase_le _ _
  · exact le_refl _

theorem deleteLoop_le : (Step.each (fun n => routeDelete net (ok n)) l s).2.outstanding ≤ s.outstanding := by
  induction l generalizing ok s with
  | nil => exact le_refl _
  | cons r l ih => exact le_trans (ih (fun n => ok (n + 1)) _) (routeDelete_le s (ok 0) r)

theorem routeDelete_eq_iff (ok : Bool) (r : Route) : (routeDelete net ok r s).2.outstanding = s.outstanding ↔
    (r.checked net = true → r.dst ≠ "0.0.0.0/0" → ok = true → r.entry net ∉ s.outstanding) := by
  rw [routeDelete_outstanding]
  split
  next h =>
    have he : s.outstanding.erase (r.entry net) = s.outstanding ↔ r.entry net ∉ s.outstanding := by
      refine ⟨fun heq hm => ?_, Multiset.erase_of_notMem⟩
      have hlt := Multiset.card_erase_lt_of_mem hm
      rw [heq] at hlt
      exact Nat.lt_irrefl _ hlt
    rw [he]
    exact ⟨fun hno _ _ _ => hno, fun hno => hno h.1 h.2.1 h.2.2⟩
  next h => exact ⟨fun _ hc hd hok => absurd ⟨hc, hd, hok⟩ h, fun _ => rfl⟩

theorem deleteLoop_eq_iff : (Step.each (fun n => routeDelete net (ok n)) l s).2.outstanding = s.outstanding ↔
    ∀ n r, l[n]? = some r → r.checked net = true → r.dst ≠ "0.0.0.0/0" → ok n = true →
      r.entry net ∉ s.outstanding := by
  induction l generalizing ok s with
  | nil => simp
  | cons r l ih =>
    have hrest : (Step.each (fun n => routeDelete net (ok (n + 1))) l (routeDelete net (ok 0) r s).2).2.outstanding ≤
        (routeDelete net (ok 0) r s).2.outstanding := deleteLoop_le _ l _
    have hfi : (routeDelete net (ok 0) r s).2.outstanding = s.outstanding ↔ _ := routeDelete_eq_iff s (ok 0) r
    rw [Step.each_cons]
    constructor
    · intro heq
      have hs : (routeDelete net (ok 0) r s).2.outstanding = s.outstanding :=
        le_antisymm (routeDelete_le s (ok 0) r) (heq ▸ hrest)
      have ht := (ih (fun n => ok (n + 1)) _).mp (heq.trans hs.symm)
      rw [hs] at ht
      rintro (_ | n) r' hr'
      · obtain rfl : r = r' := by simpa using hr'
        exact hfi.mp hs
      · exact ht n r' hr'
    · intro h
      have hs := hfi.mpr (h 0 r rfl)
      refine ((ih (fun n => ok (n + 1)) _).mpr ?_).trans hs
      rw [hs]
      exact fun n r' hr' => h (n + 1) r' hr'

/-! ## Clearing -/

variable {l} (hl : ∀ r ∈ l, r.checked net = true ∧ r.dst ≠ "0.0.0.0/0")

include hl

theorem deleteLoop_deletions :
    (Step.each (fun n => routeDelete net (ok n)) l s).2.deletions = s.deletions ++ l.map (Route.entry net) := by
  induction l generalizing ok s with
  | nil => simp
  | cons r l ih =>
    obtain ⟨hc, hd⟩ := hl r mem_cons_self
    have hfi : (routeDelete net (ok 0) r s).2.deletions = s.deletions ++ [r.entry net] := by
      cases h : ok 0 <;> simp [routeDelete, hc, hd]
    rw [Step.each_cons, ih (fun n => ok (n + 1)) _ fun r hr => hl r (mem_cons_of_mem _ hr), hfi]
    simp

theorem deleteLoop_eachOk_iff : Step.EachOk (fun n => routeDelete net (ok n)) l s ↔ failed ok l = [] := by
  induction l generalizing ok s with
  | nil => simp [Step.EachOk, failed]
  | cons r l ih =>
    obtain ⟨hc, hd⟩ := hl r mem_cons_self
    rw [Step.EachOk, ih (fun n => ok (n + 1)) _ fun r hr => hl r (mem_cons_of_mem _ hr), failed]
    cases h : ok 0 <;> simp [routeDelete, hc, hd]

theorem deleteLoop_outstanding (rest : Multiset KernelRoute)
    (hs : s.outstanding = (l.map (Route.entry net) : Multiset KernelRoute) + rest) :
    (Step.each (fun n => routeDelete net (ok n)) l s).2.outstanding =
      ((failed ok l).map (Route.entry net) : Multiset KernelRoute) + rest := by
  induction l generalizing ok s rest with
  | nil => exact hs
  | cons r l ih =>
    obtain ⟨hc, hd⟩ := hl r mem_cons_self
    have ht := fun s => ih (fun n => ok (n + 1)) s fun r hr => hl r (mem_cons_of_mem _ hr)
    have ho : s.outstanding = r.entry net ::ₘ ((l.map (Route.entry net) : Multiset KernelRoute) + rest) := by
      rw [hs, map_cons, ← Multiset.cons_coe, Multiset.cons_add]
    rw [Step.each_cons, failed]
    split
    next hok =>
      refine ht _ rest ?_
      rw [routeDelete_outstanding, if_pos ⟨hc, hd, hok⟩, ho, Multiset.erase_cons_head]
    next hok =>
      -- the route that is left goes to the rest
      rw [ht _ (r.entry net ::ₘ rest)]
      · rw [map_cons, ← Multiset.cons_coe, Multiset.cons_add, Multiset.add_cons]
      · rw [routeDelete_outstanding, if_neg (fun h => hok h.2.2), ho, Multiset.add_cons]

end Deleting

section Steps

variable {net} {s : RouterLinux}

theorem Saved.step (h : s.Saved net) {e : Event} (he : e.Proper) : (step net e s).Saved net := by
  cases e with
  | routeAddList ok gw ips => exact h.routeAddList ok gw he
  | routeDeleteList ok gw ips =>
    have hro : (routeDeleteList net ok gw ips s).2.addedRoutes = s.addedRoutes := by
      rw [routeDeleteList, Step.count_snd, ← Step.each_map (fun n => routeDelete net (ok n)) (fun ip => ⟨ip, gw⟩)]
      exact deleteLoop_addedRoutes ok _ s
    intro r hr
    exact h r (hro ▸ hr)
  | clearSavedRoutes ok => intro r hr; cases hr

theorem matches_step_iff (hs : s.Saved net) (h : s.Matches net) {e : Event} (he : e.Proper) :
    (step net e s).Matches net ↔ Tidy net e s := by
  cases e with
  | routeAddList ok gw ips => exact ⟨fun _ => trivial, fun _ => h.routeAddList ok gw ips⟩
  | routeDeleteList ok gw ips =>
    have hlo : (step net (.routeDeleteList ok gw ips) s) =
        (Step.each (fun n => routeDelete net (ok n)) (ips.map fun ip => ⟨ip, gw⟩) s).2 := by
      rw [Step.each_map]
      exact Step.count_snd _ _ _
    rw [Matches, hlo, deleteLoop_addedRoutes, h, eq_comm, deleteLoop_eq_iff]
    constructor
    · intro hno n ip hip hc
      exact hno n ⟨ip, gw⟩ (by simp [hip]) hc fun hd => he (hd ▸ mem_of_getElem? hip)
    · intro ht n r hr hc _
      obtain ⟨ip, hip, rfl⟩ := Option.map_eq_some_iff.mp ((getElem?_map ..).symm.trans hr)
      exact ht n ip hip hc
  | clearSavedRoutes ok =>
    have ho := deleteLoop_outstanding ok s hs 0 (h.symm.trans (Multiset.add_zero _).symm)
    have ha : (step net (.clearSavedRoutes ok) s).outstanding =
        ((failed ok s.addedRoutes).map (Route.entry net) : Multiset KernelRoute) := by
      rw [step, clearSavedRoutes, Step.count_snd]
      exact ho.trans (Multiset.add_zero _)
    have hni : (step net (.clearSavedRoutes ok) s).addedRoutes = [] := rfl
    rw [Matches, ha, hni, Tidy, ← failed_eq_nil_iff, map_nil, Multiset.coe_nil, eq_comm, Multiset.coe_eq_zero,
      map_eq_nil_iff]

theorem faithful_iff (hs : s.Saved net) : s.Faithful net ↔ s.Matches net := by
  refine ⟨Faithful.saved, fun h =>
    ⟨h, fun ok => ⟨s.addedRoutes.map (Route.entry net), ?_, h, fun hok => ?_⟩⟩⟩
  · rw [clearSavedRoutes, Step.count_snd]
    exact deleteLoop_deletions ok s hs
  · have ha := (Step.count_eq_length_iff (fun n => routeDelete net (ok n)) s.addedRoutes s).mpr
      ((deleteLoop_eachOk_iff ok s hs).mpr ((failed_eq_nil_iff ok _).mpr hok))
    exact decide_eq_true ha

end Steps

/-- **Bookkeeping.** The saved routes are the outstanding ones all along a run just when every call is tidy. -/
theorem run_faithful_iff (events : List Event) (hproper : ∀ e ∈ events, e.Proper) :
    (∀ n, (run (step net) (events.take n) init).Faithful net) ↔ Guarded (step net) (Tidy net) events init := by
  have hi : (init : RouterLinux).Saved net := by intro r hr; cases hr
  have hsa (e : Event) (he : e ∈ events) (s : RouterLinux) (hs : s.Saved net) : (step net e s).Saved net :=
    hs.step (hproper e he)
  refine forall_take_iff_guarded hsa (fun e he s hs h => ?_) hi ((faithful_iff hi).mpr rfl)
  rw [faithful_iff (hsa e he s hs)]
  exact matches_step_iff hs h.saved (hproper e he)

/-! ## Examples -/

def split : List Event :=
  [.routeAddList (fun _ => true) "192.168.1.1" ["10.0.0.0/8", "1.2.3.4"], .clearSavedRoutes fun _ => true]

theorem split_faithful :
    (∀ e ∈ split, e.Proper) ∧ ∀ n, (run (step .plain) (split.take n) init).Faithful .plain := by
  have hp : ∀ e ∈ split, e.Proper := by
    intro e he
    simp only [split, mem_cons, not_mem_nil, or_false] at he
    rcases he with rfl | rfl
    · simp [Event.Proper]
    · trivial
  exact ⟨hp, (run_faithful_iff .plain split hp).mpr ⟨trivial, fun _ _ => rfl, trivial⟩⟩

def withdrawn : List Event :=
  [.routeAddList (fun _ => true) "192.168.1.1" ["1.2.3.4"], .routeDeleteList (fun _ => true) "192.168.1.1" ["1.2.3.4"]]

def stuck : List Event := [.routeAddList (fun _ => true) "192.168.1.1" ["1.2.3.4"], .clearSavedRoutes fun _ => false]

/-- A route that is gone is still saved, and one that is there is not saved any more. -/
theorem saved_routes_differ : ((run (step .plain) withdrawn init).outstanding = 0 ∧
      (run (step .plain) withdrawn init).addedRoutes = [⟨"1.2.3.4", "192.168.1.1"⟩]) ∧
    (run (step .plain) stuck init).outstanding ≠ 0 ∧ (run (step .plain) stuck init).addedRoutes = [] := by
  decide

end RouterLinux

end Cimogus.Service
