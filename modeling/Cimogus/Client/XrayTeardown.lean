import Cimogus.Client.Xray

/-!
# The end of a connection with `XrayProtocol`

Four functions clean up, each of them a part: `stop` the kill switch, IPv6 and tun2socks, the handler for the end of
tun2socks the device, the routes and IPv6, `disconnectFromVpn` the routes, and the handler for the end of xray nothing
of its own. All of it happens only where xray fails while the protocol lives: `stop` ends tun2socks then, and the
protocol hears of that.
-/

namespace Cimogus.Client

open Lib.Runs List

/-! ## Messages on their way -/

namespace IpcCall

def isQuiet (call : IpcCall) : Bool := call ≠ .tun2socksStart && call ≠ .tun2socksStop

theorem perform_of_isQuiet {call : IpcCall} (h : call.isQuiet = true) (v : XrayService) :
    (call.perform v).tun2socks = v.tun2socks ∧ call.emits v = [] := by
  cases call with
  | tun2socksStart | tun2socksStop => cases h
  | _ => exact ⟨rfl, rfl⟩

/-- Closing tun2socks while it runs is heard of. -/
theorem mem_emits_stop {v : XrayService} (h : v.tun2socks = true) : .Disconnected ∈ tun2socksStop.emits v := by
  rw [emits, if_pos h]
  exact mem_replicate.mpr ⟨Nat.succ_ne_zero _, rfl⟩

end IpcCall

namespace XrayService

def after (calls : List IpcCall) (v : XrayService) : XrayService := calls.foldl (fun v call => call.perform v) v

def emitted : List IpcCall → XrayService → List ConnectionState
  | [], _ => []
  | call :: calls, v => call.emits v ++ emitted calls (call.perform v)

@[simp] theorem after_nil (v : XrayService) : v.after [] = v := rfl

theorem after_append (calls calls' : List IpcCall) (v : XrayService) :
    v.after (calls ++ calls') = (v.after calls).after calls' :=
  List.foldl_append

theorem emitted_append (calls calls' : List IpcCall) (v : XrayService) :
    emitted (calls ++ calls') v = emitted calls v ++ emitted calls' (v.after calls) := by
  induction calls generalizing v with
  | nil => rfl
  | cons call calls ih =>
    rw [cons_append, emitted, emitted, ih, append_assoc]
    rfl

theorem after_of_isQuiet {calls : List IpcCall} (h : calls.all IpcCall.isQuiet = true) (v : XrayService) :
    (v.after calls).tun2socks = v.tun2socks ∧ emitted calls v = [] := by
  induction calls generalizing v with
  | nil => exact ⟨rfl, rfl⟩
  | cons call calls ih =>
    obtain ⟨hca, hc⟩ := Bool.and_eq_true_iff.mp h
    obtain ⟨ht, hem⟩ := IpcCall.perform_of_isQuiet hca v
    obtain ⟨ht', he⟩ := ih hc (call.perform v)
    refine ⟨ht'.trans ht, ?_⟩
    rw [emitted, hem, he]
    rfl

theorem after_without_tun2socks (calls : List IpcCall) (v : XrayService) :
    ∃ b, XrayService.after calls { v with tun2socks := false } = { v.after calls with tun2socks := b } ∧
      (b = true → (v.after calls).tun2socks = true) := by
  have hg (v v' : XrayService) (b : Bool) (h : v' = { v with tun2socks := b }) (hb : b = true → v.tun2socks = true) :
      ∃ b', v'.after calls = { v.after calls with tun2socks := b' } ∧
        (b' = true → (v.after calls).tun2socks = true) := by
    induction calls generalizing v v' b with
    | nil => exact ⟨b, h, hb⟩
    | cons call calls ih =>
      subst h
      cases call with
      | tun2socksStart => exact ih _ _ true rfl fun _ => rfl
      | tun2socksStop => exact ih _ _ false rfl nofun
      | _ => exact ih _ _ b rfl hb
  exact hg v _ false rfl nofun

structure Clean (v : XrayService) : Prop where
  killSwitch : v.killSwitch = false
  ipv6 : v.ipv6 = some .start
  savedRoutes : v.savedRoutes = []
  tuns : "tun3" ∉ v.tuns
  tun2socks : v.tun2socks = false

end XrayService

def IpcCall.tearsDown : IpcCall → Bool
  | .deleteTun _ | .disableKillSwitch | .clearSavedRoutes | .StartRoutingIpv6 | .flushDns | .tun2socksStop => true
  | _ => false

/-- What is clean stays clean in a clean-up. -/
theorem XrayService.Clean.after {calls : List IpcCall} (hc : calls.all IpcCall.tearsDown = true) {v : XrayService}
    (h : v.Clean) : (v.after calls).Clean := by
  induction calls generalizing v with
  | nil => exact h
  | cons call calls ih =>
    obtain ⟨hca, hc⟩ := Bool.and_eq_true_iff.mp hc
    refine ih hc ?_
    obtain ⟨hk, hi6, hr, ht, htu⟩ := h
    cases call with
    | deleteTun dev => exact ⟨hk, hi6, hr, fun hm => ht (mem_filter.mp hm).1, htu⟩
    | disableKillSwitch => exact ⟨rfl, hi6, hr, ht, htu⟩
    | clearSavedRoutes => exact ⟨hk, hi6, rfl, ht, htu⟩
    | StartRoutingIpv6 => exact ⟨hk, rfl, hr, ht, htu⟩
    | flushDns => exact ⟨hk, hi6, hr, ht, htu⟩
    | tun2socksStop => exact ⟨hk, hi6, hr, ht, rfl⟩
    | _ => cases hca

variable {s : XraySession}

namespace XraySession

variable {c : XraySettings}

def final (s : XraySession) : XrayService := s.service.after s.calls

/-- The signals of tun2socks that the client will get. -/
def coming (s : XraySession) : List ConnectionState := s.signals ++ XrayService.emitted s.calls s.service

theorem final_send (calls : List IpcCall) (s : XraySession) : (s.send calls).final = s.final.after calls :=
  XrayService.after_append s.calls calls s.service

theorem coming_send (calls : List IpcCall) (s : XraySession) :
    (s.send calls).coming = s.coming ++ XrayService.emitted calls s.final := by
  show s.signals ++ XrayService.emitted (s.calls ++ calls) s.service = _
  rw [XrayService.emitted_append, coming, append_assoc]
  rfl

/-! ## While xray runs -/

/-- `t` comes from `s` by calls that have nothing to do with tun2socks, without a report of `Disconnected`. -/
structure Grows (s t : XraySession) : Prop where
  xray : t.xray = s.xray
  hears : t.hears = s.hears
  protocol : t.protocol.isSome = s.protocol.isSome
  coming : t.coming = s.coming
  tun2socks : t.final.tun2socks = s.final.tun2socks
  reported : .Disconnected ∈ t.reported → .Disconnected ∈ s.reported

namespace Grows

variable {s t u : XraySession}

theorem refl (s : XraySession) : Grows s s := ⟨rfl, rfl, rfl, rfl, rfl, id⟩

theorem trans (h : Grows s t) (h' : Grows t u) : Grows s u :=
  ⟨h'.xray.trans h.xray, h'.hears.trans h.hears, h'.protocol.trans h.protocol, h'.coming.trans h.coming,
    h'.tun2socks.trans h.tun2socks, h.reported ∘ h'.reported⟩

theorem send (h : Grows s t) (calls : List IpcCall) (hq : calls.all IpcCall.isQuiet = true) :
    Grows s (t.send calls) := by
  obtain ⟨ht, he⟩ := XrayService.after_of_isQuiet hq t.final
  refine h.trans ⟨rfl, rfl, rfl, ?_, ?_, id⟩
  · rw [coming_send, he, append_nil]
  · rw [final_send, ht]

theorem ite {p : Prop} [Decidable p] (h : Grows s t) (h' : Grows s u) : Grows s (if p then t else u) := by
  split
  · exact h
  · exact h'

theorem addSitesRoutes (gw : String) (h : Grows s t) : Grows s (t.addSitesRoutes c gw) :=
  (h.send _ rfl).trans ⟨rfl, rfl, rfl, rfl, rfl, id⟩

theorem onConnected (s : XraySession) : Grows s (s.onConnected c) := by
  have hr := (refl s).send [.resetIpStack, .flushDns] rfl
  have hdn := hr.send [.routeAddList xrayLocalAddr [c.dns1, c.dns2]] rfl
  have hd := hdn.send [.routeDeleteList xrayLocalAddr ["0.0.0.0"]] rfl
  refine ite hr (ite hdn ?_)
  split
  · exact hd.trans ⟨rfl, rfl, rfl, rfl, rfl, id⟩
  · exact addSitesRoutes _ (hd.send _ rfl)
  · exact hd

theorem onError (s : XraySession) : Grows s (s.onError c) := by
  have hfl := (refl s).send [.flushDns] rfl
  exact ite (hfl.send _ rfl) hfl

theorem onConnectionStateChanged {state : ConnectionState} (h : state ≠ .Disconnected) (s : XraySession) :
    Grows s (s.onConnectionStateChanged c state) := by
  have hr (t : XraySession) : Grows t { t with reported := t.reported ++ [state] } := by
    refine ⟨rfl, rfl, rfl, rfl, rfl, fun hm => ?_⟩
    rcases mem_append.mp hm with hm | hm
    · exact hm
    · exact absurd (mem_singleton.mp hm).symm h
  unfold XraySession.onConnectionStateChanged
  split
  · exact (onConnected s).trans (hr _)
  · exact (onError s).trans (hr _)
  · exact hr s

theorem setConnectionState {state : ConnectionState} (h : state ≠ .Disconnected) (s : XraySession) :
    Grows s (s.setConnectionState c state) := by
  unfold XraySession.setConnectionState base
  split
  · exact refl s
  · rename_i p hp
    have hpr : Grows s { s with protocol := some (p.setConnectionState state).1 } :=
      ⟨rfl, rfl, by rw [hp]; rfl, rfl, rfl, id⟩
    rcases p.setConnectionState_signals state with hs | hs
    · rw [hs]
      exact hpr
    · rw [hs]
      exact hpr.trans (onConnectionStateChanged h _)

end Grows

/-- The protocol will hear of the end of tun2socks, which has not come yet. -/
structure Running (s : XraySession) : Prop where
  protocol : s.protocol.isSome = true
  hears : s.hears = true
  reported : .Disconnected ∉ s.reported
  coming : .Disconnected ∉ s.coming
  tun2socks : s.final.tun2socks = true

theorem Grows.running {t : XraySession} (h : Grows s t) (hs : s.Running) : t.Running where
  protocol := h.protocol.trans hs.protocol
  hears := h.hears.trans hs.hears
  reported hm := hs.reported (h.reported hm)
  coming hm := hs.coming (h.coming ▸ hm)
  tun2socks := h.tun2socks.trans hs.tun2socks

/-- The handler for a connected tun2socks. -/
theorem onTun2Socks_connected_grows (s : XraySession) : Grows s (s.onTun2Socks c .Connected) := by
  have hc : Grows s (s.setConnectionState c .Connecting) := .setConnectionState (by decide) s
  have ht := hc.send [.createTun "tun3" xrayLocalAddr, .updateResolvers "tun3" [c.dns1, c.dns2]]
    rfl
  have hk := Grows.ite (p := c.killSwitchOption = true)
    (ht.send [.enableKillSwitch] rfl) ht
  have hr := Grows.ite (p := c.splitTunnelType = .VpnAllSites)
    (hk.send [.routeAddList xrayLocalAddr ["0.0.0.0/1"], .routeAddList xrayLocalAddr ["128.0.0.0/1"],
      .routeAddList c.routeGateway [c.remoteAddress]] rfl) hk
  exact (hr.send [.StopRoutingIpv6] rfl).trans (.setConnectionState (by decide) _)

theorem onResolved_grows (lookup : Lookup) (ip : Option String) {s t : XraySession} (h : Grows s t) :
    Grows s (t.onResolved lookup ip) := by
  unfold onResolved
  split
  · exact h
  · exact (Grows.ite (h.send _ rfl) h).send _ rfl

/-! ## After xray has ended -/

/-- Once everything is delivered, the kill switch is off, IPv6 is on and tun2socks has ended. The rest is done as well,
or the protocol will hear of the end of tun2socks. -/
structure Closing (s : XraySession) : Prop where
  killSwitch : s.final.killSwitch = false
  ipv6 : s.final.ipv6 = some .start
  tun2socks : s.final.tun2socks = false
  rest : ("tun3" ∉ s.final.tuns ∧ s.final.savedRoutes = []) ∨
    (s.protocol.isSome = true ∧ s.hears = true ∧ .Disconnected ∈ s.coming)

theorem Closing.of_clean (h : s.final.Clean) : s.Closing :=
  ⟨h.killSwitch, h.ipv6, h.tun2socks, .inl ⟨h.tuns, h.savedRoutes⟩⟩

theorem Closing.clean (hs : s.Closing)
    (h : ¬(s.protocol.isSome = true ∧ s.hears = true ∧ .Disconnected ∈ s.coming)) :
    s.final.Clean :=
  have hd := hs.rest.resolve_right h
  ⟨hs.killSwitch, hs.ipv6, hd.2, hd.1, hs.tun2socks⟩

/-- `stop` while tun2socks runs. -/
theorem Running.stop (hp : s.protocol.isSome = true) (hh : s.hears = true) (ht : s.final.tun2socks = true) :
    s.stop.Closing := by
  have hfi : s.stop.final = { s.final with killSwitch := false, ipv6 := some .start, tun2socks := false } :=
    final_send _ s
  refine ⟨by rw [hfi], by rw [hfi], by rw [hfi], .inr ⟨hp, hh, ?_⟩⟩
  rw [XraySession.stop, coming_send]
  apply mem_append_right
  show _ ∈ [] ++ ([] ++ (IpcCall.tun2socksStop.emits _ ++ []))
  rw [nil_append, append_nil]
  exact IpcCall.mem_emits_stop ht

/-- `stop` once more. -/
theorem Closing.stop (hs : s.Closing) : s.stop.Closing := by
  have hfi : s.stop.final = { s.final with killSwitch := false, ipv6 := some .start, tun2socks := false } :=
    final_send _ s
  refine ⟨by rw [hfi], by rw [hfi], by rw [hfi], ?_⟩
  rcases hs.rest with hrest | ⟨hp, hh, hm⟩
  · rw [hfi]
    exact .inl hrest
  · refine .inr ⟨hp, hh, ?_⟩
    rw [XraySession.stop, coming_send]
    exact mem_append_left _ hm

/-- A report of `Disconnected` goes no further. -/
theorem setConnectionState_disconnected (s : XraySession) :
    ∃ protocol reported, s.setConnectionState c .Disconnected =
      { s with protocol, reported := s.reported ++ reported } ∧
      protocol.isSome = s.protocol.isSome ∧ .Connected ∉ reported := by
  unfold setConnectionState base
  split
  · exact ⟨s.protocol, [], by rw [append_nil], rfl, nofun⟩
  · rename_i p hp
    rw [hp]
    rcases p.setConnectionState_signals .Disconnected with hs | hs
    · rw [hs]
      exact ⟨some (p.setConnectionState .Disconnected).1, [], by rw [append_nil]; rfl, rfl, nofun⟩
    · rw [hs]
      exact ⟨_, [.Disconnected], rfl, rfl, by decide⟩

theorem onFinished_closing {exit : ExitStatus} (hs : s.Running) (h : exit.crashed = true ∨ exit.exitCode ≠ 0) :
    (s.onFinished c exit).Closing := by
  obtain ⟨protocol, reported, heq, hso, _⟩ := setConnectionState_disconnected (c := c) { s with xray := false }
  unfold onFinished
  rw [heq]
  have hp : protocol.isSome = true := hso.trans hs.protocol
  dsimp only
  cases hcr : exit.crashed with
  | true =>
    have hc : (XraySession.protocolError .XrayExecutableCrashed
        { s with xray := false, protocol, reported := s.reported ++ reported }).stop.Closing :=
      Running.stop hp hs.hears hs.tun2socks
    split
    · exact Closing.stop ⟨hc.killSwitch, hc.ipv6, hc.tun2socks, hc.rest⟩
    · exact hc
  | false =>
    rw [if_pos (h.resolve_left (by simp [hcr]))]
    exact Running.stop hp hs.hears hs.tun2socks

theorem onFinished_frame (exit : ExitStatus) (s : XraySession) :
    (s.onFinished c exit).xray = false ∧
    (.Connected ∈ (s.onFinished c exit).reported → .Connected ∈ s.reported) := by
  obtain ⟨protocol, reported, heq, _, hr⟩ := setConnectionState_disconnected (c := c) { s with xray := false }
  have hs : (s.onFinished c exit).xray = false ∧ (s.onFinished c exit).reported = s.reported ++ reported := by
    unfold onFinished
    rw [heq]
    split <;> split <;> exact ⟨rfl, rfl⟩
  refine ⟨hs.1, fun hm => ?_⟩
  rw [hs.2] at hm
  exact (mem_append.mp hm).resolve_right hr

/-! ## Events -/

/-- Before xray has ended tun2socks runs, and after a connection the rest is on its way. -/
structure Safe (s : XraySession) : Prop where
  running : s.xray = true → s.Running
  closing : s.xray = false → .Connected ∈ s.reported → s.Closing

/-- xray fails and does not just exit, tun2socks does not exit before xray, and the connection is closed before it comes
up or after it has ended and all messages are delivered. After xray has ended the protocol gets no signal of a connected
tun2socks, no site is resolved and no timer for the routes of the sites runs out. -/
def Orderly : Event → XraySession → Prop
  | .disconnectFromVpn _, s => .Connected ∈ s.reported → s.xray = false ∧ s.calls = [] ∧ s.signals = []
  | .xrayFinished exit, _ => exit.crashed = true ∨ exit.exitCode ≠ 0
  | .tun2socksConnected, _ | .callDelivered, _ => True
  | .tun2socksFinished, s => s.xray = false
  | .signalDelivered, s => s.protocol.isSome = true → s.signals.head? = some .Connected → s.xray = true
  | .resolved i _, s => i < s.lookups.length → s.xray = true
  | .timeout, s => s.timers ≠ 0 → s.xray = true

instance : ∀ e s, Decidable (Orderly e s)
  | .disconnectFromVpn _, s => inferInstanceAs (Decidable (_ ∈ s.reported → _))
  | .xrayFinished exit, _ => inferInstanceAs (Decidable (exit.crashed = true ∨ exit.exitCode ≠ 0))
  | .tun2socksConnected, _ | .callDelivered, _ => inferInstanceAs (Decidable True)
  | .tun2socksFinished, s => inferInstanceAs (Decidable (s.xray = false))
  | .signalDelivered, s =>
    inferInstanceAs (Decidable (s.protocol.isSome = true → s.signals.head? = some .Connected → _))
  | .resolved i _, s => inferInstanceAs (Decidable (i < s.lookups.length → _))
  | .timeout, s => inferInstanceAs (Decidable (s.timers ≠ 0 → _))

theorem Safe.of_grows {t : XraySession} (hs : s.Safe) (hx : s.xray = true) (h : Grows s t) : t.Safe where
  running _ := h.running (hs.running hx)
  closing hno := absurd (h.xray.symm.trans hno) (by simp [hx])

/-- A change to the messages that leaves what the service will be and whether the end of tun2socks is to be heard of. -/
theorem Safe.of_messages {t : XraySession} (hs : s.Safe) (hx : t.xray = s.xray) (hp : t.protocol = s.protocol)
    (hh : t.hears = s.hears) (hr : t.reported = s.reported) (hfi : t.final = s.final)
    (hc : .Disconnected ∈ t.coming ↔ .Disconnected ∈ s.coming) : t.Safe := by
  refine ⟨fun hrunning => ?_, fun he hm => ?_⟩
  · have h := hs.running (hx ▸ hrunning)
    exact
      { protocol := hp ▸ h.protocol
        hears := hh ▸ h.hears
        reported := hr ▸ h.reported
        coming := fun hm => h.coming (hc.mp hm)
        tun2socks := hfi ▸ h.tun2socks }
  · have h := hs.closing (hx ▸ he) (hr ▸ hm)
    refine ⟨hfi ▸ h.killSwitch, hfi ▸ h.ipv6, hfi ▸ h.tun2socks, ?_⟩
    rw [hfi, hp, hh, hc]
    exact h.rest

theorem destroy_frame (exit : ExitStatus) (s : XraySession) :
    (s.destroy c exit).xray = false ∧ (.Connected ∈ (s.destroy c exit).reported → .Connected ∈ s.reported) ∧
      (s.xray = false → (s.destroy c exit).final = s.stop.final) := by
  unfold destroy
  dsimp only
  split
  · rename_i hx
    have hfr := onFinished_frame (c := c) exit s.stop
    exact ⟨hfr.1, hfr.2, fun he => absurd (he.symm.trans hx) nofun⟩
  · rename_i hx
    exact ⟨Bool.eq_false_iff.mpr hx, id, fun _ => rfl⟩

theorem disconnectFromVpn_safe {exit : ExitStatus}
    (h : .Connected ∈ s.reported → s.xray = false ∧ s.calls = [] ∧ s.signals = []) (hs : s.Safe) :
    (s.disconnectFromVpn c exit).Safe := by
  unfold disconnectFromVpn
  dsimp only
  split
  · rename_i hno
    have hcl (hc : s.Closing) : (s.send [.flushDns, .clearSavedRoutes]).final.Clean := by
      rw [final_send]
      refine (hc.clean ?_).after rfl
      rw [show s.protocol = none from hno]
      exact nofun
    refine ⟨fun hrunning => ?_, fun he hm => .of_clean (hcl ?_)⟩
    · have hso := (hs.running hrunning).protocol
      rw [show s.protocol = none from hno] at hso
      cases hso
    · exact hs.closing he ((mem_append.mp hm).resolve_right (by decide))
  · obtain ⟨he, hr, hfi⟩ := destroy_frame (c := c) exit (s.send [.flushDns, .clearSavedRoutes])
    refine ⟨fun hrunning => absurd (he.symm.trans hrunning) nofun, fun _ hm => .of_clean ?_⟩
    obtain ⟨hx, hca, hsi⟩ := h (hr hm)
    have hc := hs.closing hx (hr hm)
    rw [hfi hx, XraySession.stop, final_send, final_send]
    refine ((hc.clean ?_).after rfl).after rfl
    -- all messages are delivered
    rw [coming, hca, hsi]
    exact fun hh => absurd hh.2.2 nofun

theorem tun2socksFinished_safe (h : s.xray = false) (hs : s.Safe) : (step c .tun2socksFinished s).Safe := by
  rw [step]
  split
  · refine ⟨fun hrunning => absurd (h.symm.trans hrunning) nofun, fun he hm => ?_⟩
    have hc := hs.closing he hm
    obtain ⟨b, ha, hb⟩ := XrayService.after_without_tun2socks s.calls s.service
    have hb : b = false := by
      cases b with
      | false => rfl
      | true =>
        exact absurd (hb rfl) (by rw [show (s.service.after s.calls) = s.final from rfl, hc.tun2socks]; exact nofun)
    have hfi : XraySession.final
        { s with
          service := { s.service with tun2socks := false }
          signals := s.signals ++ s.service.tun2socksEnds } = { s.final with tun2socks := b } := ha
    refine ⟨by rw [hfi]; exact hc.killSwitch, by rw [hfi]; exact hc.ipv6, by rw [hfi]; exact hb, ?_⟩
    rcases hc.rest with hd | ⟨hp, hh, _⟩
    · rw [hfi]
      exact .inl hd
    · refine .inr ⟨hp, hh, mem_append_left _ (mem_append_right _ ?_)⟩
      exact mem_replicate.mpr ⟨Nat.succ_ne_zero _, rfl⟩
  · exact hs

theorem callDelivered_safe (hs : s.Safe) : (step c .callDelivered s).Safe := by
  rw [step]
  cases hc : s.calls with
  | nil => exact hs
  | cons call calls =>
    refine hs.of_messages rfl rfl rfl rfl ?_ ?_
    · rw [final, final, hc]
      rfl
    · rw [coming, coming, hc, XrayService.emitted, append_assoc]

theorem onTun2Socks_disconnected_safe {signals : List ConnectionState} (he : s.xray = false)
    (hs : .Connected ∈ s.reported → s.Closing) :
    (XraySession.onTun2Socks c .Disconnected { s with signals }).Safe := by
  obtain ⟨protocol, reported, heq, _, hr⟩ := setConnectionState_disconnected (c := c) { s with signals }
  have hfi : (XraySession.onTun2Socks c .Disconnected { s with signals }).final =
      { s.final with tuns := s.final.tuns.filter (· ≠ "tun3"), ipv6 := some .start, savedRoutes := [] } := by
    rw [onTun2Socks, heq]
    exact final_send _ _
  have hfr : (XraySession.onTun2Socks c .Disconnected { s with signals }).xray = false ∧
      (XraySession.onTun2Socks c .Disconnected { s with signals }).reported = s.reported ++ reported := by
    rw [onTun2Socks, heq]
    exact ⟨he, rfl⟩
  refine ⟨fun hrunning => absurd (hfr.1.symm.trans hrunning) nofun, fun _ hm => ?_⟩
  rw [hfr.2] at hm
  have hc := hs ((mem_append.mp hm).resolve_right hr)
  refine ⟨by rw [hfi]; exact hc.killSwitch, by rw [hfi], by rw [hfi]; exact hc.tun2socks, .inl ?_⟩
  rw [hfi]
  exact ⟨by simp, rfl⟩

theorem signalDelivered_safe (h : s.protocol.isSome = true → s.signals.head? = some .Connected → s.xray = true)
    (hs : s.Safe) : (step c .signalDelivered s).Safe := by
  rw [step]
  cases hsi : s.signals with
  | nil => exact hs
  | cons vpnState signals =>
    have hc : s.coming = vpnState :: XraySession.coming { s with signals } := by
      rw [coming, hsi]
      rfl
    -- a signal that is not the end of tun2socks is one less, and nothing else
    have ho (hne : vpnState ≠ .Disconnected) : XraySession.Safe { s with signals } :=
      hs.of_messages rfl rfl rfl rfl rfl (by rw [hc]; simp [hne.symm])
    dsimp only
    split
    · rename_i hh
      obtain ⟨hp, hhe⟩ := Bool.and_eq_true_iff.mp hh
      cases vpnState with
      | Connected =>
        have hx : s.xray = true := h hp (by rw [hsi]; rfl)
        exact (ho nofun).of_grows hx (onTun2Socks_connected_grows _)
      | Disconnected =>
        have he : s.xray = false := by
          rw [Bool.eq_false_iff]
          intro hx
          refine (hs.running hx).coming ?_
          rw [hc]
          exact mem_cons_self
        exact onTun2Socks_disconnected_safe he fun hm => (hs.closing he hm)
      | _ => exact ho nofun
    · rename_i hd
      have hno : ¬(s.protocol.isSome = true ∧ s.hears = true) := fun hh => hd (Bool.and_eq_true_iff.mpr hh)
      refine ⟨fun hrunning => ?_, fun he hm => .of_clean ?_⟩
      · have hr := hs.running hrunning
        exact absurd ⟨hr.protocol, hr.hears⟩ hno
      · exact (hs.closing he hm).clean fun hh => hno ⟨hh.1, hh.2.1⟩

/-- **One event** keeps the rest of the clean-up on its way. -/
theorem step_safe {e : Event} (h : Orderly e s) (hs : s.Safe) : (step c e s).Safe := by
  cases e with
  | disconnectFromVpn exit => exact disconnectFromVpn_safe h hs
  | xrayFinished exit =>
    rw [step]
    split
    · rename_i hx
      obtain ⟨he, hr⟩ := onFinished_frame (c := c) exit s
      exact ⟨fun hrunning => absurd (he.symm.trans hrunning) nofun, fun _ _ => onFinished_closing (hs.running hx) h⟩
    · exact hs
  | tun2socksConnected =>
    rw [step]
    split
    · refine hs.of_messages rfl rfl rfl rfl rfl ?_
      simp [coming]
    · exact hs
  | tun2socksFinished => exact tun2socksFinished_safe h hs
  | callDelivered => exact callDelivered_safe hs
  | signalDelivered => exact signalDelivered_safe h hs
  | resolved i ip =>
    rw [step]
    cases hl : s.lookups[i]? with
    | none => exact hs
    | some lookup =>
      have hx := h (List.getElem?_eq_some_iff.mp hl).1
      exact hs.of_grows hx (onResolved_grows lookup ip ⟨rfl, rfl, rfl, rfl, rfl, id⟩)
  | timeout =>
    rw [step]
    split
    · exact hs
    · rename_i ht
      have hst : Grows s { s with timers := s.timers - 1 } := ⟨rfl, rfl, rfl, rfl, rfl, id⟩
      exact hs.of_grows (h ht) (hst.addSitesRoutes _)

/-! ## Runs -/

/-- The connection has been up, and has been reported as down after that. -/
def Ended (s : XraySession) : Prop := [.Connected, .Disconnected].Sublist s.reported

def Delivered (s : XraySession) : Prop := s.calls = [] ∧ s.signals = []

/-- Nothing is left of the connection, neither in the service nor in the client. -/
def Clean (s : XraySession) : Prop := s.service.Clean ∧ s.xray = false

instance (s : XraySession) : Decidable s.Ended := inferInstanceAs (Decidable (List.Sublist _ _))

instance (s : XraySession) : Decidable s.Delivered := inferInstanceAs (Decidable (_ ∧ _))

theorem Safe.clean (hs : s.Safe) (he : s.Ended) (hd : s.Delivered) : s.Clean := by
  have hc : .Connected ∈ s.reported := he.subset (by decide)
  have hdi : .Disconnected ∈ s.reported := he.subset (by decide)
  have hx : s.xray = false := Bool.eq_false_iff.mpr fun hrunning => (hs.running hrunning).reported hdi
  have hco : s.coming = [] := by
    rw [coming, hd.1, hd.2]
    rfl
  have hfi : s.final = s.service := by
    rw [final, hd.1]
    rfl
  have hcl : s.final.Clean := (hs.closing hx hc).clean (by rw [hco]; exact fun hh => absurd hh.2.2 nofun)
  exact ⟨hfi ▸ hcl, hx⟩

theorem connectToVpn_safe (a : StartAnswers) (earlierStarts : Nat) : (connectToVpn c a (.idle earlierStarts)).Safe := by
  obtain ⟨execExists, starts⟩ := a
  cases execExists with
  | false =>
    have hfr (t : XraySession) : (t.onError c).xray = t.xray ∧ (t.onError c).reported = t.reported := by
      unfold onError
      split <;> exact ⟨rfl, rfl⟩
    have hx : (connectToVpn c ⟨false, starts⟩ (.idle earlierStarts)).xray = false := (hfr _).1
    have hr : (connectToVpn c ⟨false, starts⟩ (.idle earlierStarts)).reported = [.Connecting] ++
        [.Error] ++ [.Error] :=
      congrArg (· ++ [.Error] ++ [.Error]) (hfr _).2
    refine ⟨fun hrunning => absurd (hx.symm.trans hrunning) nofun, fun _ hm => ?_⟩
    rw [hr] at hm
    exact absurd hm (by decide)
  | true =>
    cases starts with
    | false =>
      have hr : (connectToVpn c ⟨true, false⟩ (.idle earlierStarts)).reported = [.Connecting, .Error] := rfl
      refine ⟨nofun, fun _ hm => ?_⟩
      rw [hr] at hm
      exact absurd hm (by decide)
    | true =>
      have hr : (connectToVpn c ⟨true, true⟩ (.idle earlierStarts)).reported = [.Connecting, .Connecting] := rfl
      have hc : (connectToVpn c ⟨true, true⟩ (.idle earlierStarts)).coming = [] := rfl
      exact ⟨fun _ => ⟨rfl, rfl, by rw [hr]; decide, by rw [hc]; exact nofun, rfl⟩, nofun⟩

/-- **The end of a connection.** In every run in which the end is orderly, whenever the connection has been up and
reported as down, and all messages are delivered, nothing is left of it. -/
theorem run_torn_down (a : StartAnswers) (earlierStarts : Nat) (events : List Event)
    (h : Guarded (step c) Orderly events (connectToVpn c a (.idle earlierStarts)))
    (hended : (run (step c) events (connectToVpn c a (.idle earlierStarts))).Ended)
    (hdelivered : (run (step c) events (connectToVpn c a (.idle earlierStarts))).Delivered) :
    (run (step c) events (connectToVpn c a (.idle earlierStarts))).Clean := by
  have hst (e : Event) (s : XraySession) (hg : Orderly e s) (hs : s.Safe) : (step c e s).Safe := step_safe hg hs
  have hsa : (run (step c) events (connectToVpn c a (.idle earlierStarts))).Safe :=
    run_invariant_of_guarded hst events h (connectToVpn_safe a earlierStarts)
  exact hsa.clean hended hdelivered

/-! ## Examples -/

def sampleSettings : XraySettings where
  killSwitchOption := true
  configVersion := 1
  dns1 := "1.1.1.1"
  dns2 := "1.0.0.1"
  isSitesSplitTunnelingEnabled := false
  routeMode := .VpnAllSites
  vpnSites := []
  checkIpSubnetFormat _ := false
  remoteAddress := "192.0.2.1"
  routeGateway := "192.168.0.1"

def connectedEvents : List Event :=
  [.callDelivered, .tun2socksConnected, .signalDelivered] ++ List.replicate 9 .callDelivered

def failedEvents : List Event :=
  connectedEvents ++ [.xrayFinished ⟨1, false⟩] ++ List.replicate 3 .callDelivered ++ [.signalDelivered] ++
    List.replicate 3 .callDelivered

def sampleSession (events : List Event) : XraySession :=
  run (step sampleSettings) events (connectToVpn sampleSettings ⟨true, true⟩ (.idle 0))

theorem failedEvents_torn_down : (sampleSession failedEvents).Ended ∧ (sampleSession failedEvents).Clean :=
  ⟨by decide, run_torn_down ⟨true, true⟩ 0 failedEvents (by decide) (by decide) (by decide)⟩

def closedEvents : List Event :=
  connectedEvents ++ [.disconnectFromVpn ⟨0, false⟩] ++ List.replicate 5 .callDelivered ++ [.signalDelivered]

def exitedEvents : List Event := connectedEvents ++ [.xrayFinished ⟨0, false⟩]

def tun2socksEvents : List Event :=
  connectedEvents ++ [.tun2socksFinished, .signalDelivered] ++ List.replicate 3 .callDelivered

/-- The device is left after the user has disconnected, everything after an exit of xray, and the kill switch and xray
after an exit of tun2socks. -/
theorem ends_leave_something :
    ((sampleSession closedEvents).Ended ∧ (sampleSession closedEvents).Delivered ∧
      ¬(sampleSession closedEvents).Clean) ∧
      ((sampleSession exitedEvents).Ended ∧ (sampleSession exitedEvents).Delivered ∧
        ¬(sampleSession exitedEvents).Clean) ∧
      ((sampleSession tun2socksEvents).Ended ∧ (sampleSession tun2socksEvents).Delivered ∧
        ¬(sampleSession tun2socksEvents).Clean) := ⟨⟨by decide, by decide, fun h => absurd h.1.tuns (by decide)⟩,
    ⟨by decide, by decide, fun h => absurd h.1.killSwitch (by decide)⟩,
    ⟨by decide, by decide, fun h => absurd h.2 (by decide)⟩⟩

end XraySession

end Cimogus.Client
