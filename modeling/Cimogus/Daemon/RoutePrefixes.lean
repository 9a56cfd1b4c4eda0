import Cimogus.Daemon.Platforms

/-!
# The routes into the tunnel

`updateRoutePrefix` and `deleteRoutePrefix` of `WireguardUtilsLinux` and `WireguardUtilsMacos`, called one after the
other with every request carried out. A prefix of length 0 stands for its two halves, any other for itself
(`expansion`). To delete a prefix of another length than 0, `deleteRoutePrefix` inserts it.
-/

namespace Cimogus.Daemon

open Lib Lib.Runs Kind List

def IPAddress.expansion (ip : IPAddress) : List IPAddress :=
  if ip.prefixLength > 0 then [ip]
  else
    match halves ip.address with
    | some (low, high) => [low, high]
    | none => []

inductive RouteOp
  | update (ip : IPAddress)
  | delete (ip : IPAddress)
  deriving DecidableEq

variable {ip : IPAddress}

namespace RouteOp

def prefixOf : RouteOp → IPAddress
  | .update ip | .delete ip => ip

def isUpdate : RouteOp → Bool
  | .update _ => true
  | .delete _ => false

/-- The operation inserts routes, as every operation on a prefix of positive length does. -/
def inserts (op : RouteOp) : Bool := op.isUpdate || op.prefixOf.prefixLength > 0

/-- The call on a platform, with every request carried out. -/
def call (k : Kind) : RouteOp → Step Backend
  | .update ip => k.updateRoutePrefix .ok ip
  | .delete ip => k.deleteRoutePrefix .ok ip

def step (k : Kind) (op : RouteOp) (b : Backend) : Backend := (op.call k b).2

/-- The last operation of those in question, if there is one, is one of those that `f` picks. -/
def last (question f : RouteOp → Bool) (ops : List RouteOp) : Bool := (ops.reverse.find? question).any f

/-- The last operation on the prefix is an update; prefixes that stand for the same routes are the same. -/
def lastUpdated (ops : List RouteOp) (ip : IPAddress) : Bool :=
  last (fun op => op.prefixOf.expansion = ip.expansion) isUpdate ops

/-- The operations are on prefixes of the two families, and on none of the halves. -/
structure Proper (ip : IPAddress) : Prop where
  address : ip.address ≠ .null
  length : 0 ≤ ip.prefixLength
  not_half : ∀ a, ∀ h ∈ halves a, ip ≠ h.1 ∧ ip ≠ h.2

/-! ## What the platforms do -/

section Platforms

variable {k : Kind} {b : Backend}

theorem insertRoute_ok (hip : ip.address ≠ .null) :
    k.insertRoute true ip b = (true, { b with tunnelRoutes := insert ip b.tunnelRoutes }) := by
  simp [insertRoute, sends, hip]

theorem eraseRoute_ok (hip : ip.address ≠ .null) :
    k.eraseRoute true ip b = (true, { b with tunnelRoutes := b.tunnelRoutes.erase ip }) := by
  simp [eraseRoute, sends, hip]

theorem call_eq (hk : k ≠ .windows) (hm : b.monitor = true) (op : RouteOp) : op.call k b =
      if op.prefixOf.prefixLength > 0 then k.insertRoute true op.prefixOf b
      else onHalves (fun _ => if op.isUpdate then k.insertRoute true else k.eraseRoute true) op.prefixOf b := by
  cases k with
  | windows => exact absurd rfl hk
  | linux | macos =>
    cases op with
    | update ip | delete ip =>
      simp only [call, updateRoutePrefix, deleteRoutePrefix, monitored, Step.ite, hm, Bool.or_true, if_true,
        Reply.request_ok, prefixOf, isUpdate, Bool.false_eq_true, if_false]
      split <;> rfl

theorem expansion_of_pos (h : ip.prefixLength > 0) : ip.expansion = [ip] := if_pos h

theorem mem_onHalves_iff (hip : ip.address ≠ .null) (hze : ¬ip.prefixLength > 0) (update : Bool) (x : IPAddress) :
    x ∈ (onHalves (fun _ => if update then k.insertRoute true else k.eraseRoute true) ip b).2.tunnelRoutes ↔
      if x ∈ ip.expansion then update = true else x ∈ b.tunnelRoutes := by
  obtain ⟨low, high, hh, hl, hhi⟩ : ∃ low high, halves ip.address = some (low, high) ∧ low.address ≠ .null ∧
      high.address ≠ .null := by
    cases hi' : ip.address with
    | null => exact absurd hi' hip
    | ipv4 a | ipv6 a => exact ⟨_, _, rfl, by simp, by simp⟩
  have he : ip.expansion = [low, high] := by simp [IPAddress.expansion, hze, hh]
  cases update with
  | true =>
    simp only [onHalves, hh, if_true, Step.seq, insertRoute_ok hl, insertRoute_ok hhi, he, Finset.mem_insert,
      mem_cons, not_mem_nil, or_false]
    split
    next h => exact ⟨fun _ => trivial, fun _ => h.elim (fun h => .inr (.inl h)) Or.inl⟩
    next h =>
        exact ⟨fun hx => hx.elim (fun hx => absurd (.inr hx) h) fun hx => hx.elim (fun hx => absurd (.inl hx) h) id,
        fun hx => .inr (.inr hx)⟩
  | false =>
    simp only [onHalves, hh, Bool.false_eq_true, if_false, Step.seq, eraseRoute_ok hl, eraseRoute_ok hhi, he,
      if_true, Finset.mem_erase, mem_cons, not_mem_nil, or_false]
    split
    next h => exact ⟨fun hx => h.elim hx.2.1 hx.1, fun hx => hx.elim⟩
    next h => exact ⟨fun hx => hx.2.2, fun hx => ⟨fun hx' => h (.inr hx'), fun hx' => h (.inl hx'), hx⟩⟩

theorem mem_step_iff (hk : k ≠ .windows) (hm : b.monitor = true) {op : RouteOp} (hop : Proper op.prefixOf)
    (x : IPAddress) :
    x ∈ (step k op b).tunnelRoutes ↔ if x ∈ op.prefixOf.expansion then op.inserts = true
    else x ∈ b.tunnelRoutes := by
  rw [step, call_eq hk hm]
  split
  next hp =>
    have hi : op.inserts = true := by simp [inserts, hp]
    rw [insertRoute_ok hop.address, expansion_of_pos hp]
    by_cases hx : x = op.prefixOf
    · simp [hx, hi]
    · simp [hx]
  next hze =>
    have hi : op.inserts = op.isUpdate := by simp [inserts, hze]
    rw [mem_onHalves_iff hop.address hze, hi]

theorem step_monitor (op : RouteOp) : (step k op b).monitor = b.monitor := by
  cases op with
  | update ip => exact keeps_updateRoutePrefix k (fun _ _ => rfl) .ok ip b
  | delete ip => exact keeps_deleteRoutePrefix k (fun _ _ => rfl) .ok ip b

theorem run_monitor (ops : List RouteOp) : (run (step k) ops b).monitor = b.monitor := by
  induction ops generalizing b with
  | nil => rfl
  | cons op ops ih => exact ih.trans (step_monitor op)

theorem mem_run_iff (hk : k ≠ .windows) (hm : b.monitor = true) (hb : b.tunnelRoutes = ∅) {ops : List RouteOp}
    (hops : ∀ op ∈ ops, Proper op.prefixOf) (x : IPAddress) :
    x ∈ (run (step k) ops b).tunnelRoutes ↔ last (fun op => x ∈ op.prefixOf.expansion) inserts ops = true := by
  induction ops using List.reverseRecOn with
  | nil => simp [last, hb]
  | append_singleton ops op ih =>
    have hp : Proper op.prefixOf := hops op (by simp)
    have hr := ih fun op hop => hops op (mem_append_left _ hop)
    rw [run_append, run_cons, run_nil, mem_step_iff hk ((run_monitor ops).trans hm) hp, last,
      reverse_append, reverse_singleton]
    split
    next hx => simp [hx]
    next hx => simpa [hx, last] using hr

end Platforms

/-! ## What was asked for -/

section Last

variable {question question' f f' : RouteOp → Bool} {ops : List RouteOp}

theorem last_congr (hq : ∀ op ∈ ops, question op = question' op)
    (hf : ∀ op ∈ ops, question op = true → f op = f' op) :
    last question f ops = last question' f' ops := by
  have hfi : ops.reverse.find? question = ops.reverse.find? question' := by
    rw [← head?_filter, ← head?_filter, filter_congr fun op hop => hq op (mem_reverse.mp hop)]
  rw [last, last, ← hfi]
  cases hlast : ops.reverse.find? question with
  | none => rfl
  | some op => simp [hf op (mem_reverse.mp (mem_of_find?_eq_some hlast)) (find?_some hlast)]

theorem exists_of_last (h : last question f ops = true) : ∃ op ∈ ops, question op = true := by
  obtain ⟨op, hlast, _⟩ := (Option.any_eq_true _ _).mp h
  exact ⟨op, mem_reverse.mp (mem_of_find?_eq_some hlast), find?_some hlast⟩

theorem last_of_forall (hf : ∀ op ∈ ops, question op = true → f op = true) {op : RouteOp} (hop : op ∈ ops)
    (hq : question op = true) : last question f ops = true := by
  rw [last]
  cases hlast : ops.reverse.find? question with
  | none => exact absurd hq (find?_eq_none.mp hlast op (mem_reverse.mpr hop))
  | some op' => exact hf op' (mem_reverse.mp (mem_of_find?_eq_some hlast)) (find?_some hlast)

end Last

theorem Proper.not_mem_expansion {a c : IPAddress} (ha : Proper a) (hze : ¬c.prefixLength > 0) :
    a ∉ c.expansion := by
  intro hm
  cases hh : halves c.address with
  | none => simp [IPAddress.expansion, hze, hh] at hm
  | some h =>
    have hno := ha.not_half c.address h hh
    have hor : a = h.1 ∨ a = h.2 := by simpa [IPAddress.expansion, hze, hh] using hm
    exact hor.elim hno.1 hno.2

theorem expansion_eq_of_mem {a c x : IPAddress} (ha : Proper a) (hc : Proper c) (hxa : x ∈ a.expansion)
    (hxc : x ∈ c.expansion) :
    a.expansion = c.expansion := by
  by_cases hap : a.prefixLength > 0
  · obtain rfl : x = a := by simpa [expansion_of_pos hap] using hxa
    by_cases hcp : c.prefixLength > 0
    · obtain rfl : x = c := by simpa [expansion_of_pos hcp] using hxc
      rfl
    · exact absurd hxc (ha.not_mem_expansion hcp)
  · by_cases hcp : c.prefixLength > 0
    · obtain rfl : x = c := by simpa [expansion_of_pos hcp] using hxc
      exact absurd hxa (hc.not_mem_expansion hap)
    · -- the halves of the two families have nothing in common
      rw [IPAddress.expansion] at hxa ⊢
      rw [IPAddress.expansion] at hxc ⊢
      rcases a with ⟨_ | _ | _, _⟩ <;> rcases c with ⟨_ | _ | _, _⟩ <;> first | rfl | grind [halves]

/-- The prefixes last updated, with what they stand for. -/
def Requested (ops : List RouteOp) (x : IPAddress) : Prop :=
  ∃ op ∈ ops, lastUpdated ops op.prefixOf = true ∧ x ∈ op.prefixOf.expansion

instance (ops : List RouteOp) (x : IPAddress) : Decidable (Requested ops x) :=
  inferInstanceAs (Decidable (∃ op ∈ ops, _ ∧ _))

section Prefixes

variable {ops : List RouteOp} (hops : ∀ op ∈ ops, Proper op.prefixOf) {op : RouteOp} (hop : op ∈ ops)
    {x : IPAddress}
  (hx : x ∈ op.prefixOf.expansion)

include hops hop hx

theorem mem_expansion_iff {op' : RouteOp} (ho' : op' ∈ ops) :
    x ∈ op'.prefixOf.expansion ↔ op'.prefixOf.expansion = op.prefixOf.expansion :=
  ⟨fun hx' => expansion_eq_of_mem (hops op' ho') (hops op hop) hx' hx, fun heq => heq ▸ hx⟩

theorem lastUpdated_eq : lastUpdated ops op.prefixOf = last (fun op => x ∈ op.prefixOf.expansion) isUpdate ops :=
  last_congr (fun _ ho' => decide_eq_decide.mpr (mem_expansion_iff hops hop hx ho').symm) fun _ _ _ => rfl

theorem requested_iff : Requested ops x ↔ lastUpdated ops op.prefixOf = true := by
  refine ⟨fun ⟨op', ho', hlast, hx'⟩ => ?_, fun hlast => ⟨op, hop, hlast, hx⟩⟩
  rw [lastUpdated_eq hops hop hx, ← lastUpdated_eq hops ho' hx']
  exact hlast

theorem last_inserts_of_zero (hze : ¬op.prefixOf.prefixLength > 0) :
    last (fun op => x ∈ op.prefixOf.expansion) inserts ops = lastUpdated ops op.prefixOf := by
  rw [lastUpdated_eq hops hop hx]
  refine last_congr (fun _ _ => rfl) fun op' ho' hx' => ?_
  have he := (mem_expansion_iff hops hop hx ho').mp (of_decide_eq_true hx')
  have hz' : ¬op'.prefixOf.prefixLength > 0 := by
    intro hp
    have hs : op'.prefixOf ∈ op.prefixOf.expansion := by
      rw [← he, expansion_of_pos hp]
      exact mem_singleton_self _
    exact (hops op' ho').not_mem_expansion hze hs
  simp [inserts, hz']

end Prefixes

/-- **The routes into the tunnel.** After every sequence of calls, on Linux and macOS, the routes are those of the
prefixes last updated just when no prefix of positive length was last deleted. -/
theorem tunnelRoutes_requested_iff {k : Kind} (hk : k ≠ .windows) {b : Backend} (hmonitor : b.monitor = true)
    (hb : b.tunnelRoutes = ∅) {ops : List RouteOp} (hops : ∀ op ∈ ops, Proper op.prefixOf) :
    (∀ x, x ∈ (run (step k) ops b).tunnelRoutes ↔ Requested ops x) ↔
      ∀ op ∈ ops, op.prefixOf.prefixLength > 0 → lastUpdated ops op.prefixOf = true := by
  constructor
  · intro h op hop hp
    have hx : op.prefixOf ∈ op.prefixOf.expansion := by
      rw [expansion_of_pos hp]
      exact mem_singleton_self _
    have ht : op.prefixOf ∈ (run (step k) ops b).tunnelRoutes := by
      rw [mem_run_iff hk hmonitor hb hops]
      refine last_of_forall (fun op' ho' hx' => ?_) hop (decide_eq_true hx)
      -- the route is no half, so that all operations on it insert
      have hp' : op'.prefixOf.prefixLength > 0 := by
        by_contra hze
        exact (hops op hop).not_mem_expansion hze (of_decide_eq_true hx')
      simp [inserts, hp']
    exact (requested_iff hops hop hx).mp ((h _).mp ht)
  · intro h x
    rw [mem_run_iff hk hmonitor hb hops]
    constructor
    · intro hlast
      obtain ⟨op, hop, hq⟩ := exists_of_last hlast
      have hx := of_decide_eq_true hq
      rw [requested_iff hops hop hx]
      by_cases hp : op.prefixOf.prefixLength > 0
      · exact h op hop hp
      · rw [← last_inserts_of_zero hops hop hx hp]
        exact hlast
    · rintro ⟨op, hop, hlast, hx⟩
      by_cases hp : op.prefixOf.prefixLength > 0
      · rw [lastUpdated_eq hops hop hx] at hlast
        obtain ⟨op', hfi, hu⟩ := (Option.any_eq_true _ _).mp hlast
        exact (Option.any_eq_true _ _).mpr ⟨op', hfi, by simp [inserts, hu]⟩
      · rw [last_inserts_of_zero hops hop hx hp]
        exact hlast

/-! ## Examples -/

def connectedBackend : Backend := { Backend.idle with running := true, monitor := true }

/-- A server that serves everything is replaced by one that serves one network. -/
def narrowed : List RouteOp := [.update ⟨.ipv4 0, 0⟩, .update ⟨.ipv4 0x0a000000, 8⟩, .delete ⟨.ipv4 0, 0⟩]

/-- The other way round. -/
def widened : List RouteOp :=
  [.update ⟨.ipv4 0x0a000000, 8⟩, .update ⟨.ipv4 0, 0⟩, .delete ⟨.ipv4 0x0a000000, 8⟩]

theorem proper_of_length (ha : ip.address ≠ .null) (hl : 0 ≤ ip.prefixLength) (ho : ip.prefixLength ≠ 1) :
    Proper ip := by
  refine ⟨ha, hl, fun a h hh => ?_⟩
  cases a with
  | null => cases hh
  | ipv4 _ | ipv6 _ =>
    cases hh
    constructor <;> rintro rfl <;> exact ho rfl

theorem narrowed_requested : (∀ op ∈ narrowed, Proper op.prefixOf) ∧
    ∀ x, x ∈ (run (step .linux) narrowed connectedBackend).tunnelRoutes ↔ Requested narrowed x := by
  have hpr : ∀ op ∈ narrowed, Proper op.prefixOf := by
    intro op hop
    have hp : op.prefixOf.address ≠ .null ∧ 0 ≤ op.prefixOf.prefixLength ∧ op.prefixOf.prefixLength ≠ 1 := by
      revert op
      decide
    exact proper_of_length hp.1 hp.2.1 hp.2.2
  exact ⟨hpr, (tunnelRoutes_requested_iff (by decide) rfl rfl hpr).mpr (by decide)⟩

theorem widened_keeps_route :
    ⟨.ipv4 0x0a000000, 8⟩ ∈ (run (step .linux) widened connectedBackend).tunnelRoutes ∧
      ⟨.ipv4 0x0a000000, 8⟩ ∈ (run (step .macos) widened connectedBackend).tunnelRoutes ∧
      ¬Requested widened ⟨.ipv4 0x0a000000, 8⟩ := by
  decide

end RouteOp

end Cimogus.Daemon
