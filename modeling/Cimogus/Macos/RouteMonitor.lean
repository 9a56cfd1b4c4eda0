import Cimogus.Daemon.Config
import Cimogus.Lib.Runs
import Cimogus.Lib.Tables

/-!
# The route monitor of macOS

`MacosRouteMonitor` learns the default route of each family from the messages of the routing socket and keeps the
exclusion routes on it. What the kernel holds of them is part of the state: a message that asks for a route is answered
at once. Messages come as their header and the addresses that `parseAddrList` finds in their payload.

Whether the routes are added or changed is decided by the default route that the monitor knows, not by what the kernel
holds.
-/

namespace Cimogus.Macos

open Daemon (IPAddress QHostAddress)
open Lib Lib.Runs

inductive Family
  | ipv4
  | ipv6
  deriving DecidableEq

/-- `address().protocol()`; what is no address has none. -/
def protocol : QHostAddress → Option Family
  | .ipv4 _ => some .ipv4
  | .ipv6 _ => some .ipv6
  | .null => none

inductive SockAddr
  | inet (addr : BitVec 32)
  | inet6 (addr : BitVec 128)
  | link (index : Nat)
  | unspec
  | other
  deriving DecidableEq

namespace SockAddr

def family : SockAddr → Option Family
  | .inet _ => some .ipv4
  | .inet6 _ => some .ipv6
  | .link _ | .unspec | .other => none

/-- A netmask of the default route, which is sometimes reported with `AF_UNSPEC`. -/
def isZero : SockAddr → Bool
  | .inet addr => addr = 0
  | .inet6 addr => addr = 0
  | .unspec => true
  | .link _ | .other => false

end SockAddr

inductive RtmType
  | RTM_ADD
  | RTM_DELETE
  | RTM_CHANGE
  | RTM_GET
  | RTM_IFINFO
  | other
  deriving DecidableEq

structure RtMsg where
  rtmType : RtmType
  rtmIndex : Nat
  /-- The bits say which addresses are there, in this order. -/
  rtmAddrs : Nat
  /-- `RTF_IFSCOPE` is among the flags. -/
  ifscope : Bool
  /-- `rtm_pid` is the monitor's process. -/
  own : Bool
  addrlist : List SockAddr
  deriving DecidableEq

namespace RtMsg

def RTA_DST : Nat := 0

def RTA_GATEWAY : Nat := 1

def RTA_NETMASK : Nat := 2

def RTA_IFP : Nat := 4

/-- The addresses that useful routes are expected to contain. -/
def isRoute (rtm : RtMsg) : Bool :=
  rtm.rtmAddrs.testBit RTA_DST && rtm.rtmAddrs.testBit RTA_GATEWAY && rtm.rtmAddrs.testBit RTA_NETMASK &&
    rtm.addrlist.length ≥ 3

/-- The index is the one of `RTA_IFP`, if that is set; then the address has to be there. -/
def ifindex (rtm : RtMsg) : Option Nat :=
  if rtm.rtmAddrs.testBit RTA_IFP then
    match rtm.addrlist[(List.range RTA_IFP).countP rtm.rtmAddrs.testBit]? with
    | some (.link index) => some index
    | some _ => some rtm.rtmIndex
    | none => none
  else some rtm.rtmIndex

end RtMsg

structure Route where
  ifindex : Nat
  gateway : Option SockAddr
  deriving DecidableEq

structure RouteMonitor where
  /-- The index of the tunnel interface. -/
  ifindex : Nat
  exclusionRoutes : List IPAddress
  defaultGateway : Family → Option SockAddr
  defaultIfindex : Family → Nat
  /-- The exclusion routes that the kernel holds. -/
  kernel : Table IPAddress Route

inductive Action
  | RTM_ADD
  | RTM_CHANGE
  | RTM_DELETE
  deriving DecidableEq

def Action.request (route : Route) (ip : IPAddress) : Action → Step (Table IPAddress Route)
  | .RTM_ADD => Table.add ip route
  | .RTM_CHANGE => Table.change ip route
  | .RTM_DELETE => Table.delete (fun _ => true) ip

namespace Action

variable (action : Action) (route : Route)

def result (entry : Option Route) : Option Route :=
  match action with
  | .RTM_ADD => entry.or (some route)
  | .RTM_CHANGE => entry.map fun _ => route
  | .RTM_DELETE => none

theorem result_result (entry : Option Route) :
    action.result route (action.result route entry) = action.result route entry := by
  cases action <;> cases entry <;> rfl

theorem request_apply (ip ip' : IPAddress) (kernel : Table IPAddress Route) :
    (action.request route ip kernel).2 ip' = if ip' = ip then action.result route (kernel ip') else kernel ip' := by
  cases action with
  | RTM_ADD => exact Table.add_apply ip ip' route kernel
  | RTM_CHANGE => exact Table.change_apply ip ip' route kernel
  | RTM_DELETE => simp [request, Table.delete_apply, result]

end Action

namespace RouteMonitor

/-- An entry that is there already (`EEXIST`) or not there any more (`ESRCH`) is no failure. -/
def rtmSendRoute (action : Action) (ip : IPAddress) (ifindex : Nat) (gateway : Option SockAddr) :
    Step RouteMonitor := fun s =>
  let reply := action.request ⟨ifindex, gateway⟩ ip s.kernel
  (reply.1 || action ≠ .RTM_CHANGE, { s with kernel := reply.2 })

/-- The loops of the handlers over the exclusion routes of a family. -/
def sendRoutes (action : Action) (family : Option Family) (ifindex : Nat) (gateway : Option SockAddr)
    (s : RouteMonitor) :
    RouteMonitor := (Step.each (fun _ ip => rtmSendRoute action ip ifindex gateway)
    (s.exclusionRoutes.filter fun ip => protocol ip.address = family) s).2

/-- For a destination of another family `protocol` is never set; `unset` is what it holds then. -/
def handleRtmDelete (unset : Option Family) (rtm : RtMsg) (s : RouteMonitor) : RouteMonitor :=
  if rtm.rtmIndex = s.ifindex then s
  else if !rtm.isRoute then s
  else if rtm.ifscope then s
  else
    match rtm.addrlist with
    | dst :: _ :: netmask :: _ =>
      if !netmask.isZero then s
      else
        match dst.family with
        | some f =>
          sendRoutes .RTM_DELETE (some f) rtm.rtmIndex none
            { s with defaultGateway := Function.update s.defaultGateway f none
                     defaultIfindex := Function.update s.defaultIfindex f 0 }
        | none => sendRoutes .RTM_DELETE unset rtm.rtmIndex none s
    | _ => s

def handleRtmUpdate (rtm : RtMsg) (s : RouteMonitor) : RouteMonitor :=
  if !rtm.isRoute then s
  else if rtm.ifscope then s
  else if rtm.rtmIndex = s.ifindex then s
  else if rtm.own && rtm.rtmType ≠ .RTM_GET then s
  else
    match rtm.ifindex, rtm.addrlist with
    | some ifindex, dst :: gateway :: netmask :: _ =>
      if !netmask.isZero then s
      else
        match dst.family with
        | some f =>
          -- an index of 0 stands for a default route that is not known
          sendRoutes (if s.defaultIfindex f ≠ 0 then .RTM_CHANGE else .RTM_ADD) (some f) ifindex (some gateway)
            { s with defaultGateway := Function.update s.defaultGateway f (some gateway)
                     defaultIfindex := Function.update s.defaultIfindex f ifindex }
        | none => s
    | _, _ => s

/-- One message of `rtsockReady`; interface messages only set flags that nothing reads. -/
def handle (unset : Option Family) (rtm : RtMsg) (s : RouteMonitor) : RouteMonitor :=
  match rtm.rtmType with
  | .RTM_ADD | .RTM_CHANGE | .RTM_GET => handleRtmUpdate rtm s
  | .RTM_DELETE => handleRtmDelete unset rtm s
  | .RTM_IFINFO | .other => s

def addExclusionRoute (ip : IPAddress) : Step RouteMonitor := fun s =>
  if ip ∈ s.exclusionRoutes then (false, s)
  else
    let s' := { s with exclusionRoutes := s.exclusionRoutes ++ [ip] }
    match protocol ip.address with
    | some f =>
      -- without a default route there is nothing to do yet
      if s.defaultIfindex f ≠ 0 ∧ (s.defaultGateway f).isSome then
        rtmSendRoute .RTM_ADD ip (s.defaultIfindex f) (s.defaultGateway f) s'
      else (true, s')
    | none => (true, s')

def deleteExclusionRoute (ip : IPAddress) : Step RouteMonitor := fun s =>
  let s' := { s with exclusionRoutes := s.exclusionRoutes.filter (· ≠ ip) }
  match protocol ip.address with
  | some f => rtmSendRoute .RTM_DELETE ip (s.defaultIfindex f) none s'
  | none => (false, s')

/-- The request of `flushExclusionRoutes` for one of the routes. -/
def flushRoute (defaultIfindex : Family → Nat) (ip : IPAddress) : Step RouteMonitor :=
  match protocol ip.address with
  | some f => rtmSendRoute .RTM_DELETE ip (defaultIfindex f) none
  | none => .skip

def flushExclusionRoutes (s : RouteMonitor) : RouteMonitor :=
  (Step.each (fun _ => flushRoute s.defaultIfindex) s.exclusionRoutes { s with exclusionRoutes := [] }).2

inductive Event
  | addExclusionRoute (ip : IPAddress)
  | deleteExclusionRoute (ip : IPAddress)
  | flushExclusionRoutes
  | message (unset : Option Family) (rtm : RtMsg)

def step : Event → RouteMonitor → RouteMonitor
  | .addExclusionRoute ip, s => (addExclusionRoute ip s).2
  | .deleteExclusionRoute ip, s => (deleteExclusionRoute ip s).2
  | .flushExclusionRoutes, s => flushExclusionRoutes s
  | .message unset rtm, s => handle unset rtm s

/-- A new monitor for the tunnel interface, before the routes it has asked for are reported. -/
def init (ifindex : Nat) : RouteMonitor := ⟨ifindex, [], fun _ => none, fun _ => 0, Table.empty⟩

/-! ## What the requests do -/

section Requests

variable (action : Action) (ifindex : Nat) (gateway : Option SockAddr) (family : Option Family) (s : RouteMonitor)

theorem keeps_rtmSendRoute {τ : Type} {f : RouteMonitor → τ} (hf : ∀ s kernel, f { s with kernel } = f s)
    (ip : IPAddress) :
    Step.Keeps f (rtmSendRoute action ip ifindex gateway) := fun s => hf s _

theorem keeps_sendRoutes {τ : Type} {f : RouteMonitor → τ} (hf : ∀ s kernel, f { s with kernel } = f s) :
    f (sendRoutes action family ifindex gateway s) = f s :=
  Step.Keeps.each (fun _ ip => keeps_rtmSendRoute action ifindex gateway hf ip) _ s

@[simp] theorem sendRoutes_ifindex : (sendRoutes action family ifindex gateway s).ifindex = s.ifindex :=
  keeps_sendRoutes _ _ _ _ _ fun _ _ => rfl

@[simp] theorem sendRoutes_exclusionRoutes :
    (sendRoutes action family ifindex gateway s).exclusionRoutes = s.exclusionRoutes :=
  keeps_sendRoutes _ _ _ _ _ fun _ _ => rfl

@[simp] theorem sendRoutes_defaultGateway :
    (sendRoutes action family ifindex gateway s).defaultGateway = s.defaultGateway :=
  keeps_sendRoutes _ _ _ _ _ fun _ _ => rfl

@[simp] theorem sendRoutes_defaultIfindex :
    (sendRoutes action family ifindex gateway s).defaultIfindex = s.defaultIfindex :=
  keeps_sendRoutes _ _ _ _ _ fun _ _ => rfl

theorem actsAs_rtmSendRoute :
    Table.ActsAs kernel (fun _ => action.result ⟨ifindex, gateway⟩) fun ip =>
      rtmSendRoute action ip ifindex gateway :=
  fun ip s ip' => action.request_apply ⟨ifindex, gateway⟩ ip ip' s.kernel

theorem sendRoutes_kernel (ip : IPAddress) : (sendRoutes action family ifindex gateway s).kernel ip =
    if ip ∈ s.exclusionRoutes ∧ protocol ip.address = family then action.result ⟨ifindex, gateway⟩ (s.kernel ip)
    else s.kernel ip := by
  have hl := (actsAs_rtmSendRoute action ifindex gateway).each (fun _ => action.result_result _)
    (s.exclusionRoutes.filter fun ip => protocol ip.address = family) s ip
  simpa [sendRoutes] using hl

end Requests

section Flush

variable (s : RouteMonitor)

theorem keeps_flushExclusionRoutes {τ : Type} {f : RouteMonitor → τ}
    (hf : ∀ s kernel, f { s with kernel } = f s) :
    f (flushExclusionRoutes s) = f { s with exclusionRoutes := [] } := by
  refine Step.Keeps.each (fun _ ip => ?_) _ _
  unfold flushRoute
  split
  · exact keeps_rtmSendRoute _ _ _ hf ip
  · exact .skip

theorem actsAs_flushRoute (defaultIfindex : Family → Nat) :
    Table.ActsAs kernel (fun ip entry => if (protocol ip.address).isSome then none else entry)
      (flushRoute defaultIfindex) := by
  intro ip s ip'
  cases hf : protocol ip.address with
  | some f =>
    have hs := actsAs_rtmSendRoute .RTM_DELETE (defaultIfindex f) none ip s ip'
    simp only [flushRoute, hf, hs, Action.result]
    split
    next hip => simp [hip, hf]
    · rfl
  | none =>
    simp only [flushRoute, hf, Step.skip_apply]
    split
    next hip => simp [hip, hf]
    · rfl

theorem flushExclusionRoutes_kernel {ip : IPAddress} {f : Family} (hf : protocol ip.address = some f) :
    (flushExclusionRoutes s).kernel ip = if ip ∈ s.exclusionRoutes then none else s.kernel ip := by
  have hl := (actsAs_flushRoute s.defaultIfindex).each (fun ip entry => by split <;> rfl) s.exclusionRoutes
    { s with exclusionRoutes := [] } ip
  simpa [hf, flushExclusionRoutes] using hl

end Flush

/-! ## The default route -/

end RouteMonitor

namespace RtMsg

/-- The family of the default route that the message is about. -/
def family? (rtm : RtMsg) : Option Family :=
  match rtm.addrlist with
  | dst :: _ :: netmask :: _ => if netmask.isZero then dst.family else none
  | _ => none

/-- The gateway and the interface that the message names. -/
def route? (rtm : RtMsg) : Option Route :=
  match rtm.ifindex, rtm.addrlist with
  | some ifindex, _ :: gateway :: _ => some ⟨ifindex, some gateway⟩
  | _, _ => none

/-- An unscoped message about a default route, not on the tunnel interface and not from the monitor itself. -/
structure IsDefaultRoute (tunnel : Nat) (rtm : RtMsg) : Prop where
  rtmType : rtm.rtmType ∈ [.RTM_ADD, .RTM_CHANGE, .RTM_GET, .RTM_DELETE]
  isRoute : rtm.isRoute = true
  unscoped : rtm.ifscope = false
  elsewhere : rtm.rtmIndex ≠ tunnel
  foreign : rtm.own = false
  family : rtm.family? ≠ none
  route : rtm.rtmType ≠ .RTM_DELETE → ∃ r ∈ rtm.route?, r.ifindex ≠ 0

/-- What is known of the default route of a family after the message. -/
def announce (rtm : RtMsg) (f : Family) (known : Option Route) : Option Route :=
  if rtm.family? = some f then if rtm.rtmType = .RTM_DELETE then none else rtm.route? else known

variable {rtm : RtMsg}

theorem addrlist_of_family {f : Family} (h : rtm.family? = some f) :
    ∃ dst gateway netmask rest, rtm.addrlist = dst :: gateway :: netmask :: rest ∧ netmask.isZero = true ∧
      dst.family = some f := by
  unfold family? at h
  split at h
  next dst gateway netmask rest hl =>
    split at h
    · exact ⟨dst, gateway, netmask, rest, hl, ‹_›, h⟩
    · cases h
  · cases h

theorem announce_eq_update {f : Family} (h : rtm.family? = some f) (known : Family → Option Route) :
    (fun f' => rtm.announce f' (known f')) =
      Function.update known f (if rtm.rtmType = .RTM_DELETE then none else rtm.route?) := by
  funext f'
  by_cases hne : f' = f
  · subst hne
    simp [announce, h]
  · simp [announce, hne, h, Ne.symm hne]

theorem route?_eq_some {r : Route} {dst gateway : SockAddr} {rest : List SockAddr}
    (hl : rtm.addrlist = dst :: gateway :: rest) (h : rtm.route? = some r) :
    rtm.ifindex = some r.ifindex ∧ r.gateway = some gateway := by
  obtain ⟨ifindex, gateway'⟩ := r
  cases hi : rtm.ifindex with
  | none => simp [route?, hi] at h
  | some i => simpa [route?, hi, hl, eq_comm] using h

end RtMsg

namespace RouteMonitor

/-- What the messages of a run say of the default route of a family. -/
def Event.announce (f : Family) (known : Option Route) : Event → Option Route
  | .message _ rtm => rtm.announce f known
  | .addExclusionRoute _ | .deleteExclusionRoute _ | .flushExclusionRoutes => known

def lastDefault (f : Family) (events : List Event) : Option Route := events.foldl (Event.announce f) none

/-- The messages of the run are about default routes. -/
def Event.Expected (tunnel : Nat) : Event → Prop
  | .message _ rtm => rtm.IsDefaultRoute tunnel
  | .addExclusionRoute _ | .deleteExclusionRoute _ | .flushExclusionRoutes => True

/-- The kernel holds the exclusion routes by the default routes `known`. -/
structure Follows (tunnel : Nat) (known : Family → Option Route) (s : RouteMonitor) : Prop where
  ifindex : s.ifindex = tunnel
  default : ∀ f, known f = (s.defaultGateway f).map fun gateway => ⟨s.defaultIfindex f, some gateway⟩
  index : ∀ f, s.defaultIfindex f = 0 ↔ s.defaultGateway f = none
  kernel : ∀ ip f, protocol ip.address = some f → s.kernel ip = if ip ∈ s.exclusionRoutes then known f else none

namespace Follows

variable {tunnel : Nat} {known : Family → Option Route} {s : RouteMonitor}

variable {f : Family}

/-- The default route is known when its index is not 0. -/
theorem known_eq (h : Follows tunnel known s) (hi : s.defaultIfindex f ≠ 0) :
    known f = some ⟨s.defaultIfindex f, s.defaultGateway f⟩ := by
  obtain ⟨gateway, hg⟩ := Option.ne_none_iff_exists'.mp (mt (h.index f).mpr hi)
  rw [h.default, hg]
  rfl

theorem known_eq_none (h : Follows tunnel known s) (hi : s.defaultIfindex f = 0) : known f = none := by
  rw [h.default, (h.index f).mp hi]
  rfl

theorem ne_of_protocol {ip ip' : IPAddress} (hno : protocol ip.address = none)
    (hf : protocol ip'.address = some f) : ip' ≠ ip := by
  rintro rfl
  rw [hno] at hf
  cases hf

variable (h : Follows tunnel known s)

include h

theorem add (ip : IPAddress) : Follows tunnel known (addExclusionRoute ip s).2 := by
  unfold addExclusionRoute
  split
  · exact h
  next hnew =>
  cases hf : protocol ip.address with
  | none =>
    refine ⟨h.ifindex, h.default, h.index, fun ip' f' hf' => ?_⟩
    simpa [ne_of_protocol hf hf'] using h.kernel ip' f' hf'
  | some f =>
    dsimp only
    split
    next hd =>
      refine ⟨h.ifindex, h.default, h.index, fun ip' f' hf' => ?_⟩
      refine (actsAs_rtmSendRoute _ _ _ ip _ ip').trans ?_
      by_cases hip : ip' = ip
      · subst hip
        obtain rfl : f = f' := by simpa [hf] using hf'
        have hk := h.kernel ip' f hf
        simp only [hnew, if_false] at hk
        simp [hk, Action.result, rtmSendRoute, h.known_eq hd.1]
      · simpa [hip, rtmSendRoute] using h.kernel ip' f' hf'
    next hd =>
      have hi : s.defaultIfindex f = 0 := by
        by_contra hne
        exact hd ⟨hne, Option.isSome_iff_ne_none.mpr (mt (h.index f).mpr hne)⟩
      refine ⟨h.ifindex, h.default, h.index, fun ip' f' hf' => ?_⟩
      by_cases hip : ip' = ip
      · subst hip
        obtain rfl : f = f' := by simpa [hf] using hf'
        simpa [hnew, h.known_eq_none hi] using h.kernel ip' f hf
      · simpa [hip] using h.kernel ip' f' hf'

theorem delete (ip : IPAddress) : Follows tunnel known (deleteExclusionRoute ip s).2 := by
  unfold deleteExclusionRoute
  cases hf : protocol ip.address with
  | none =>
    refine ⟨h.ifindex, h.default, h.index, fun ip' f' hf' => ?_⟩
    simpa [ne_of_protocol hf hf'] using h.kernel ip' f' hf'
  | some f =>
    refine ⟨h.ifindex, h.default, h.index, fun ip' f' hf' => ?_⟩
    refine (actsAs_rtmSendRoute _ _ _ ip _ ip').trans ?_
    by_cases hip : ip' = ip
    · simp [hip, Action.result, rtmSendRoute]
    · simpa [hip, rtmSendRoute] using h.kernel ip' f' hf'

theorem flush : Follows tunnel known (flushExclusionRoutes s) := by
  have hg : (flushExclusionRoutes s).defaultGateway = s.defaultGateway := keeps_flushExclusionRoutes s fun _ _ => rfl
  have hi : (flushExclusionRoutes s).defaultIfindex = s.defaultIfindex := keeps_flushExclusionRoutes s fun _ _ => rfl
  have hr : (flushExclusionRoutes s).exclusionRoutes = [] := keeps_flushExclusionRoutes s fun _ _ => rfl
  have hif : (flushExclusionRoutes s).ifindex = s.ifindex := keeps_flushExclusionRoutes s fun _ _ => rfl
  refine ⟨hif.trans h.ifindex, ?_, ?_, fun ip f hf => ?_⟩
  · rw [hg, hi]
    exact h.default
  · rw [hg, hi]
    exact h.index
  · have hb := h.kernel ip f hf
    rw [flushExclusionRoutes_kernel s hf, hr]
    split
    · simp
    next hm => simpa [hm] using hb

theorem change {action : Action} {sent ifindex : Nat} {gateway : Option SockAddr}
    (hi : ifindex = 0 ↔ gateway = none)
    (hr : action.result ⟨sent, gateway⟩ (known f) = gateway.map fun gateway => ⟨ifindex, some gateway⟩) :
    Follows tunnel (Function.update known f (gateway.map fun gateway => ⟨ifindex, some gateway⟩))
      (sendRoutes action (some f) sent gateway
        { s with defaultGateway := Function.update s.defaultGateway f gateway
                 defaultIfindex := Function.update s.defaultIfindex f ifindex }) := by
  refine ⟨by simpa using h.ifindex, fun f' => ?_, fun f' => ?_, fun ip f' hf' => ?_⟩
  · by_cases hf : f' = f
    · simp [hf]
    · simpa [hf] using h.default f'
  · by_cases hf : f' = f
    · simpa [hf] using hi
    · simpa [hf] using h.index f'
  · have hb := h.kernel ip f' hf'
    rw [sendRoutes_kernel]
    by_cases hf : f' = f
    · subst hf
      by_cases hm : ip ∈ s.exclusionRoutes
      · simpa [hm, hf', hb] using hr
      · simpa [hm] using hb
    · simpa [hf', hf] using hb

theorem lose (f : Family) (ifindex : Nat) : Follows tunnel (Function.update known f none)
      (sendRoutes .RTM_DELETE (some f) ifindex none
        { s with defaultGateway := Function.update s.defaultGateway f none
                 defaultIfindex := Function.update s.defaultIfindex f 0 }) := h.change (iff_of_true rfl rfl) rfl

theorem gain (f : Family) {ifindex : Nat} (hi : ifindex ≠ 0) (gateway : SockAddr) :
    Follows tunnel (Function.update known f (some ⟨ifindex, some gateway⟩))
      (sendRoutes (if s.defaultIfindex f ≠ 0 then .RTM_CHANGE else .RTM_ADD) (some f) ifindex (some gateway)
        { s with defaultGateway := Function.update s.defaultGateway f (some gateway)
                 defaultIfindex := Function.update s.defaultIfindex f ifindex }) := by
  refine h.change (iff_of_false hi (Option.some_ne_none _)) ?_
  by_cases hk : s.defaultIfindex f = 0
  · simp [hk, h.known_eq_none hk, Action.result]
  · simp [hk, h.known_eq hk, Action.result]

theorem message (unset : Option Family) {rtm : RtMsg} (hrt : rtm.IsDefaultRoute tunnel) :
    Follows tunnel (fun f => rtm.announce f (known f)) (handle unset rtm s) := by
  obtain ⟨f, hf⟩ := Option.ne_none_iff_exists'.mp hrt.family
  obtain ⟨dst, gateway, netmask, rest, hl, hm, hds⟩ := RtMsg.addrlist_of_family hf
  have he : rtm.rtmIndex ≠ s.ifindex := by
    rw [h.ifindex]
    exact hrt.elsewhere
  rw [RtMsg.announce_eq_update hf]
  by_cases hd : rtm.rtmType = .RTM_DELETE
  · have hh : handle unset rtm s = handleRtmDelete unset rtm s := by simp [handle, hd]
    rw [hh, if_pos hd]
    simpa [handleRtmDelete, he, hrt.isRoute, hrt.unscoped, hl, hm, hds] using h.lose f rtm.rtmIndex
  · obtain ⟨⟨ifindex, gateway'⟩, hr, hin⟩ := hrt.route hd
    obtain ⟨hi, rfl⟩ := RtMsg.route?_eq_some hl hr
    have hh : handle unset rtm s = handleRtmUpdate rtm s := by
      have hty := hrt.rtmType
      simp only [List.mem_cons, List.not_mem_nil, or_false] at hty
      rcases hty with ht | ht | ht | ht
      · simp [handle, ht]
      · simp [handle, ht]
      · simp [handle, ht]
      · exact absurd ht hd
    rw [hh, if_neg hd, hr]
    simpa [handleRtmUpdate, hrt.isRoute, hrt.unscoped, he, hrt.foreign, hi, hl, hm, hds] using
      h.gain f hin gateway

theorem step {e : Event} (he : e.Expected tunnel) :
    Follows tunnel (fun f => e.announce f (known f)) (RouteMonitor.step e s) := by
  cases e with
  | addExclusionRoute ip => exact h.add ip
  | deleteExclusionRoute ip => exact h.delete ip
  | flushExclusionRoutes => exact h.flush
  | message unset rtm => exact h.message unset he

theorem run {events : List Event} (he : ∀ e ∈ events, e.Expected tunnel) :
    Follows tunnel (fun f => events.foldl (Event.announce f) (known f)) (Runs.run RouteMonitor.step events s) := by
  induction events generalizing known s with
  | nil => exact h
  | cons e events ih =>
    exact ih (h.step (he e List.mem_cons_self)) fun e' he' => he e' (List.mem_cons_of_mem _ he')

end Follows

theorem follows_init (tunnel : Nat) : Follows tunnel (fun _ => none) (init tunnel) :=
  ⟨rfl, fun _ => rfl, fun _ => ⟨fun _ => rfl, fun _ => rfl⟩, fun _ _ _ => rfl⟩

/-- **The exclusion routes.** After every sequence of calls and messages about default routes, the kernel holds the
exclusion routes of a family by its last default route, or none of them where the default route is not known. -/
theorem run_follows_default (tunnel : Nat) (events : List Event) (h : ∀ e ∈ events, e.Expected tunnel)
    (ip : IPAddress)
    (f : Family) (hf : protocol ip.address = some f) : (run step events (init tunnel)).kernel ip =
      if ip ∈ (run step events (init tunnel)).exclusionRoutes then lastDefault f events else none :=
  ((follows_init tunnel).run h).kernel ip f hf

/-! ## Examples -/

def defaultMessage (rtmType : RtmType) (ifindex : Nat) (gateway : BitVec 32) : RtMsg :=
  ⟨rtmType, ifindex, 7, false, false, [.inet 0, .inet gateway, .inet 0]⟩

theorem defaultMessage_isDefaultRoute {rtmType : RtmType}
    (hty : rtmType ∈ [.RTM_ADD, .RTM_CHANGE, .RTM_GET, .RTM_DELETE])
    {tunnel ifindex : Nat} (ht : ifindex ≠ tunnel) (hin : ifindex ≠ 0) (gateway : BitVec 32) :
    (defaultMessage rtmType ifindex gateway).IsDefaultRoute tunnel := by
  have hfa : (defaultMessage rtmType ifindex gateway).family? = some .ipv4 := by
    simp [defaultMessage, RtMsg.family?, SockAddr.isZero, SockAddr.family]
  have hr : (defaultMessage rtmType ifindex gateway).route? = some ⟨ifindex, some (.inet gateway)⟩ := by
    have hif : Nat.testBit 7 RtMsg.RTA_IFP = false := by decide
    simp [defaultMessage, RtMsg.route?, RtMsg.ifindex, hif]
  have hi : (defaultMessage rtmType ifindex gateway).isRoute = true := by
    have hb : Nat.testBit 7 RtMsg.RTA_DST ∧ Nat.testBit 7 RtMsg.RTA_GATEWAY ∧ Nat.testBit 7 RtMsg.RTA_NETMASK :=
      by decide
    simp [defaultMessage, RtMsg.isRoute, hb]
  exact ⟨hty, hi, rfl, ht, rfl, by simp [hfa], fun _ => ⟨_, hr, hin⟩⟩

/-- The route of the server moves with the host from one network to another. -/
def roaming : List Event :=
  [.message none (defaultMessage .RTM_GET 4 0xc0a80101), .addExclusionRoute ⟨.ipv4 0x05060708, 32⟩,
    .message none (defaultMessage .RTM_DELETE 4 0xc0a80101), .message none (defaultMessage .RTM_ADD 5 0x0a000001)]

theorem roaming_follows_default : (∀ e ∈ roaming, e.Expected 9) ∧
    (run step roaming (init 9)).kernel ⟨.ipv4 0x05060708, 32⟩ = some ⟨5, some (.inet 0x0a000001)⟩ := by
  have he : ∀ e ∈ roaming, e.Expected 9 := by
    simp only [roaming, List.forall_mem_cons, List.not_mem_nil, false_imp_iff, implies_true, and_true]
    exact ⟨defaultMessage_isDefaultRoute (by decide) (by decide) (by decide) _, trivial,
      defaultMessage_isDefaultRoute (by decide) (by decide) (by decide) _,
      defaultMessage_isDefaultRoute (by decide) (by decide) (by decide) _⟩
  exact ⟨he, (run_follows_default 9 roaming he _ .ipv4 rfl).trans (by decide)⟩

end RouteMonitor

end Cimogus.Macos
