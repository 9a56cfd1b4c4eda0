import Cimogus.Daemon.Config
import Cimogus.Lib.Runs
import Cimogus.Lib.Tables

/-!
# The route monitor of Linux

`LinuxRouteMonitor` keeps no list: it writes the routes into the tunnel, with priority 1, and the exclusion routes, with
priority 0, to the kernel's table. An exclusion route goes through the gateway that is the default one when the message
is built, and the message that deletes it names the default gateway of its own time. A route is marked in the table if
`addExclusionRoute` put it there.
-/

namespace Cimogus.Linux

open Daemon (IPAddress QHostAddress)
open Lib Lib.Runs

/-- `wg_allowedip`; the address is never the null address. -/
structure AllowedIp where
  address : QHostAddress
  cidr : BitVec 8
  deriving DecidableEq

def buildAllowedIp (ip : IPAddress) : Option AllowedIp :=
  match ip.address with
  | .ipv4 _ | .ipv6 _ => some ⟨ip.address, BitVec.ofInt 8 ip.prefixLength⟩
  | .null => none

/-- `RTA_OIF` or `RTA_GATEWAY`. -/
inductive Hop
  | interface (index : Nat)
  | gateway (address : BitVec 32)
  deriving DecidableEq

structure RouteKey where
  dst : AllowedIp
  priority : Nat
  deriving DecidableEq

structure Route where
  hop : Hop
  /-- `addExclusionRoute` inserted it. -/
  exclusion : Bool
  deriving DecidableEq

structure RouteMonitor where
  /-- The default gateway of the system, as `getGatewayAndIface` finds it. -/
  gateway : Option (BitVec 32)
  routes : Table RouteKey Route

inductive RtmAction
  | RTM_NEWROUTE
  | RTM_DELROUTE
  deriving DecidableEq

inductive RtnType
  | RTN_UNICAST
  | RTN_THROW
  deriving DecidableEq

/-- What the system answers while a message is built and sent. -/
structure Netlink where
  /-- `if_nametoindex`, 0 if it fails. -/
  index : Nat
  /-- What `ip4` holds if there is no gateway that `inet_pton` could read. -/
  unset : BitVec 32
  sent : Bool
  deriving DecidableEq

namespace RouteMonitor

/-- What `RTA_GATEWAY` is set to. -/
def gatewayAttr (r : Netlink) (s : RouteMonitor) : BitVec 32 := s.gateway.getD r.unset

/-- The next hop and the priority of a message; a throw route is sent as a unicast one. -/
def attributes (type : RtnType) (r : Netlink) (s : RouteMonitor) : Option (Hop × Nat) :=
  match type with
  | .RTN_UNICAST => if r.index = 0 then none else some (.interface r.index, 1)
  | .RTN_THROW => some (.gateway (s.gatewayAttr r), 0)

/-- What the kernel does at a message; a route is deleted if it has the next hop of the message. -/
def kernel (action : RtmAction) (key : RouteKey) (route : Route) : Step (Table RouteKey Route) :=
  match action with
  | .RTM_NEWROUTE => Table.replace key route
  | .RTM_DELROUTE => Table.delete (fun there => there.hop = route.hop) key

/-- The answer of the kernel is not waited for. -/
def rtmSendRoute (action : RtmAction) (type : RtnType) (ip : IPAddress) (r : Netlink) : Step RouteMonitor := fun s =>
  match buildAllowedIp ip, s.attributes type r with
  | some dst, some (hop, priority) =>
    if r.sent then (true,
      { s with routes := (kernel action ⟨dst, priority⟩ ⟨hop, type = .RTN_THROW⟩ s.routes).2 })
    else (false, s)
  | _, _ => (false, s)

def insertRoute : IPAddress → Netlink → Step RouteMonitor := rtmSendRoute .RTM_NEWROUTE .RTN_UNICAST

def deleteRoute : IPAddress → Netlink → Step RouteMonitor := rtmSendRoute .RTM_DELROUTE .RTN_UNICAST

def addExclusionRoute : IPAddress → Netlink → Step RouteMonitor := rtmSendRoute .RTM_NEWROUTE .RTN_THROW

def deleteExclusionRoute : IPAddress → Netlink → Step RouteMonitor := rtmSendRoute .RTM_DELROUTE .RTN_THROW

inductive Event
  | insertRoute (ip : IPAddress) (r : Netlink)
  | deleteRoute (ip : IPAddress) (r : Netlink)
  | addExclusionRoute (ip : IPAddress) (r : Netlink)
  | deleteExclusionRoute (ip : IPAddress) (r : Netlink)
  /-- The default gateway of the system is another one, or gone. -/
  | gatewayChanged (gateway : Option (BitVec 32))

def step : Event → RouteMonitor → RouteMonitor
  | .insertRoute ip r, s => (insertRoute ip r s).2
  | .deleteRoute ip r, s => (deleteRoute ip r s).2
  | .addExclusionRoute ip r, s => (addExclusionRoute ip r s).2
  | .deleteExclusionRoute ip r, s => (deleteExclusionRoute ip r s).2
  | .gatewayChanged gateway, s => { s with gateway }

def init (gateway : Option (BitVec 32)) (hops : Table RouteKey Hop) : RouteMonitor :=
  ⟨gateway, fun key => (hops key).map fun hop => ⟨hop, false⟩⟩

/-! ## Where the exclusion routes are -/

/-- The exclusion routes are the ones of priority 0 that go through a gateway. -/
def Sorted (s : RouteMonitor) : Prop :=
  ∀ key route, s.routes key = some route → route.exclusion = true →
    key.priority = 0 ∧ ∃ gateway, route.hop = .gateway gateway

variable {s : RouteMonitor}

theorem Sorted.rtmSendRoute (h : s.Sorted) (action : RtmAction) (type : RtnType) (ip : IPAddress) (r : Netlink) :
    (rtmSendRoute action type ip r s).2.Sorted := by
  unfold RouteMonitor.rtmSendRoute
  split
  next dst hop priority hd ha =>
    split
    · intro key route hr he
      cases action with
      | RTM_DELROUTE =>
        have hk : (Table.delete (fun there => there.hop = hop) ⟨dst, priority⟩ s.routes).2 key = some route := hr
        rw [Table.delete_apply] at hk
        split at hk
        · exact h key route (Option.filter_eq_some_iff.mp hk).1 he
        · exact h key route hk he
      | RTM_NEWROUTE =>
        have hk : Function.update s.routes ⟨dst, priority⟩ (some ⟨hop, type = .RTN_THROW⟩) key = some route :=
          hr
        by_cases hkey : key = ⟨dst, priority⟩
        · subst hkey
          rw [Function.update_self] at hk
          cases hk
          -- a marked route was sent as a throw route
          obtain rfl : type = .RTN_THROW := by simpa using he
          cases ha
          exact ⟨rfl, _, rfl⟩
        · rw [Function.update_of_ne hkey] at hk
          exact h key route hk he
    · exact h
  · exact h

theorem Sorted.step (h : s.Sorted) (e : Event) : (step e s).Sorted := by
  cases e with
  | insertRoute ip r | deleteRoute ip r | addExclusionRoute ip r | deleteExclusionRoute ip r =>
    exact h.rtmSendRoute _ _ ip r
  | gatewayChanged gateway => exact h

theorem sorted_init (gateway : Option (BitVec 32)) (ho : Table RouteKey Hop) : (init gateway ho).Sorted := by
  intro key route hr he
  obtain ⟨hop, _, rfl⟩ := Option.map_eq_some_iff.mp hr
  cases he

/-! ## Deletion -/

/-- The table has a route for the prefix that `addExclusionRoute` inserted. -/
def Excluded (ip : IPAddress) (s : RouteMonitor) : Prop :=
  ∃ key route, buildAllowedIp ip = some key.dst ∧ s.routes key = some route ∧ route.exclusion = true

/-- The message of the deletion is sent, with the gateway of the exclusion route that is there. -/
def Matches (ip : IPAddress) (r : Netlink) (s : RouteMonitor) : Prop :=
  ∀ dst gateway, buildAllowedIp ip = some dst → s.routes ⟨dst, 0⟩ = some ⟨.gateway gateway, true⟩ →
    r.sent = true ∧ s.gatewayAttr r = gateway

theorem deleteExclusionRoute_routes {ip : IPAddress} {dst : AllowedIp} (hd : buildAllowedIp ip = some dst) {r : Netlink}
    (hs : r.sent = true) : (deleteExclusionRoute ip r s).2.routes =
      (Table.delete (fun there => there.hop = .gateway (s.gatewayAttr r)) ⟨dst, 0⟩ s.routes).2 := by
  simp [deleteExclusionRoute, rtmSendRoute, hd, attributes, hs, kernel]

theorem deleteExclusionRoute_unsent (ip : IPAddress) {r : Netlink} (hs : r.sent = false) :
    (deleteExclusionRoute ip r s).2 = s := by
  unfold deleteExclusionRoute rtmSendRoute
  split <;> simp [hs]

theorem Sorted.excluded_deleteExclusionRoute_iff (h : s.Sorted) (ip : IPAddress) (r : Netlink) :
    (deleteExclusionRoute ip r s).2.Excluded ip ↔ ¬s.Matches ip r := by
  constructor
  · rintro ⟨key, route, hd, hr, he⟩ hm
    obtain ⟨hp, gateway, hh⟩ := (h.rtmSendRoute .RTM_DELROUTE .RTN_THROW ip r) key route hr he
    obtain ⟨dst, priority⟩ := key
    obtain ⟨hop, exclusion⟩ := route
    obtain rfl : priority = 0 := hp
    obtain rfl : hop = .gateway gateway := hh
    obtain rfl : exclusion = true := he
    cases hs : r.sent with
    | true =>
      rw [deleteExclusionRoute_routes hd hs, Table.delete_apply, if_pos rfl] at hr
      obtain ⟨hb, ho⟩ := Option.filter_eq_some_iff.mp hr
      have hg := (hm dst gateway hd hb).2
      simp [hg] at ho
    | false =>
      rw [deleteExclusionRoute_unsent ip hs] at hr
      simp [(hm dst gateway hd hr).1] at hs
  · intro hm
    simp only [Matches, not_forall] at hm
    obtain ⟨dst, gateway, hd, hb, hno⟩ := hm
    refine ⟨⟨dst, 0⟩, ⟨.gateway gateway, true⟩, hd, ?_, rfl⟩
    cases hs : r.sent with
    | true =>
      have ho : gateway ≠ s.gatewayAttr r := fun heq => hno ⟨hs, heq.symm⟩
      rw [deleteExclusionRoute_routes hd hs, Table.delete_apply, hb]
      simp [Option.filter, ho]
    | false =>
      rw [deleteExclusionRoute_unsent ip hs]
      exact hb

/-- **Deletion of exclusion routes.** In every run, no route of `addExclusionRoute` is left after `deleteExclusionRoute`
for its prefix just when the deletion matches the route that is there. -/
theorem deleteExclusionRoute_leaves_none_iff (gateway : Option (BitVec 32)) (hops : Table RouteKey Hop)
    (events : List Event)
    (ip : IPAddress) (r : Netlink) :
      ¬(run step (events ++ [.deleteExclusionRoute ip r]) (init gateway hops)).Excluded ip ↔
      (run step events (init gateway hops)).Matches ip r := by
  have hs : (run step events (init gateway hops)).Sorted :=
    run_invariant (fun e s h => h.step e) events (sorted_init gateway hops)
  rw [run_append]
  exact (not_congr (hs.excluded_deleteExclusionRoute_iff ip r)).trans not_not

/-! ## Examples -/

def answered : Netlink := ⟨7, 0, true⟩

/-- The host moves to another network while it is connected. -/
def movedRun : List Event := [.addExclusionRoute ⟨.ipv4 0x05060708, 32⟩ answered, .gatewayChanged (some 0x0a000001)]

theorem movedRun_leaves_route : (run step (movedRun ++ [.deleteExclusionRoute ⟨.ipv4 0x05060708, 32⟩ answered])
      (init (some 0xc0a80101) Table.empty)).Excluded ⟨.ipv4 0x05060708, 32⟩ :=
  ⟨⟨⟨.ipv4 0x05060708, 32⟩, 0⟩, ⟨.gateway 0xc0a80101, true⟩, by decide, by decide, rfl⟩

end RouteMonitor

end Cimogus.Linux
