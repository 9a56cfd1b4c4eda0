import Cimogus.Ios.PacketTunnelProvider

/-!
# Start attempts

An attempt that has ended is to be answered exactly once, and with `nil` only if its backend has reported that it
started. A configuration for OpenVPN that cannot be decoded is never answered, one for WireGuard is answered with `nil`,
an adapter of an earlier call of `startTunnel` calls the handler of a later one, and an error of Xray is overlooked.
-/

namespace Cimogus.Ios

open Lib.Runs List

variable (l : Log) (a : Nat)

namespace Log

/-- The attempts whose handler was called, once for each call. -/
def answered (l : Log) : List Nat := l.answers.map Prod.fst

structure Truthful (l : Log) : Prop where
  once : ∀ a ∈ l.ended, l.answered.count a = 1
  honest : ∀ a, (a, none) ∈ l.answers → a ∈ l.started

instance (l : Log) : Decidable l.Truthful :=
  decidable_of_iff ((∀ a ∈ l.ended, l.answered.count a = 1) ∧ ∀ p ∈ l.answers, p.2 = none →
    p.1 ∈ l.started)
    ⟨fun h => ⟨h.1, fun a ha => h.2 (a, none) ha rfl⟩, fun h =>
      ⟨h.once, fun p hp he => h.honest p.1 (he ▸ hp)⟩⟩

@[simp] theorem answered_answer (e : Option StartError) : (l.answer a e).answered = l.answered ++ [a] := by
  simp [answered, answer]

@[simp] theorem answered_start : (l.start a).answered = l.answered := rfl

@[simp] theorem answered_finish : (l.finish a).answered = l.answered := rfl

@[simp] theorem started_answer (e : Option StartError) : (l.answer a e).started = l.started := rfl

@[simp] theorem started_start : (l.start a).started = a :: l.started := rfl

@[simp] theorem started_finish : (l.finish a).started = l.started := rfl

@[simp] theorem ended_answer (e : Option StartError) : (l.answer a e).ended = l.ended := rfl

@[simp] theorem ended_start : (l.start a).ended = l.ended := rfl

@[simp] theorem ended_finish : (l.finish a).ended = a :: l.ended := rfl

section Truthful

variable {l l' : Log} {a b : Nat} {e : Option StartError}

/-- The attempt `a` ends, and nobody is answered. -/
theorem Truthful.ends_iff (h : l.Truthful) (han : l'.answers = l.answers)
    (he : ∀ c, c ∈ l'.ended ↔ c = a ∨ c ∈ l.ended) (hst : l.started ⊆ l'.started) :
    l'.Truthful ↔ l.answered.count a = 1 := by
  have hco : l'.answered = l.answered := by rw [answered, han, answered]
  constructor
  · intro h'
    rw [← hco]
    exact h'.once a ((he a).mpr (.inl rfl))
  · intro ha
    refine ⟨fun c hc => ?_, fun c hc => hst (h.honest c (han ▸ hc))⟩
    rw [hco]
    rcases (he c).mp hc with rfl | hc
    · exact ha
    · exact h.once c hc

theorem Truthful.answers_iff (h : l.Truthful) (hb : b ∉ l.answered) (han : l'.answers = l.answers ++ [(b, e)])
    (hen : ∀ c, c ∈ l'.ended ↔ c = a ∨ c ∈ l.ended) (hst : l.started ⊆ l'.started) :
    l'.Truthful ↔ (b = a ∨ l.answered.count a = 1) ∧ (e = none → b ∈ l'.started) := by
  have hco (c : Nat) : l'.answered.count c = l.answered.count c + if b = c then 1 else 0 := by
    rw [answered, han, map_append]
    simp [answered, count_singleton]
  have hze : l.answered.count b = 0 := count_eq_zero.mpr hb
  constructor
  · intro h'
    refine ⟨?_, fun he => h'.honest b (by simp [han, he])⟩
    have ho := h'.once a ((hen a).mpr (.inl rfl))
    rw [hco] at ho
    by_cases hab : b = a
    · exact .inl hab
    · simpa [hab] using ho
  · rintro ⟨ha, he⟩
    refine ⟨fun c hc => ?_, fun c hc => ?_⟩
    · rw [hco]
      by_cases hbc : b = c
      · subst hbc
        simp [hze]
      · have hc' : l.answered.count c = 1 := by
          rcases (hen c).mp hc with rfl | hc
          · exact ha.resolve_left hbc
          · exact h.once c hc
        simp [hbc, hc']
    · rw [han, mem_append, mem_singleton] at hc
      rcases hc with hc | hc
      · exact hst (h.honest c hc)
      · obtain ⟨rfl, rfl⟩ := Prod.mk.inj hc
        exact he rfl

/-- A backend starts. -/
theorem Truthful.start (h : l.Truthful) (a : Nat) : (l.start a).Truthful :=
  ⟨h.once, fun c hc => mem_cons_of_mem _ (h.honest c hc)⟩

end Truthful

end Log

namespace Provider

/-! ## What holds in every run -/

/-- Handlers and closures that are kept belong to attempts that were not answered. -/
structure Sound (s : Provider) : Prop where
  fresh : ∀ a, s.attempts ≤ a → s.waiting a = none ∧ a ∉ s.log.answered ∧ a ∉ s.log.started
  stored : ∀ a, s.startHandler = some a → s.waiting a = some .openVpnAdapter ∧ a ∉ s.log.answered ∧
    a ∉ s.log.started
  closures : ∀ a w, s.waiting a = some w → w ≠ .openVpnAdapter → a ∉ s.log.answered
  socks : ∀ a, s.waiting a = some .xraySocks → a ∈ s.log.started ∨ a ∈ s.log.ended

section Sound

variable {s : Provider} {a : Nat}

variable {w : Waiting}

theorem Sound.lt_attempts (h : s.Sound) (hw : s.waiting a = some w) : a < s.attempts := by
  by_contra hle
  have hno := (h.fresh a (Nat.le_of_not_lt hle)).1
  rw [hno] at hw
  cases hw

theorem Sound.startHandler_ne (h : s.Sound) (hw : s.waiting a = some w) (hne : w ≠ .openVpnAdapter) :
    s.startHandler ≠ some a := by
  intro hst
  have ha := (h.stored a hst).1
  rw [hw] at ha
  exact hne (Option.some.inj ha)

theorem Sound.ignore (h : s.Sound) (a : Nat) : (s.ignore a).Sound :=
  ⟨h.fresh, h.stored, h.closures, fun c hc => (h.socks c hc).imp_right (mem_cons_of_mem _)⟩

theorem Sound.start (h : s.Sound) (ha : a < s.attempts) (hh : s.startHandler ≠ some a) :
    Sound { s with log := s.log.start a } := by
  have hsta {c : Nat} (hca : c ≠ a) (hc : c ∉ s.log.started) : c ∉ (s.log.start a).started := by simp [hca, hc]
  refine ⟨fun c hc => ?_, fun c hc => ?_, h.closures, fun c hc => (h.socks c hc).imp_left (mem_cons_of_mem _)⟩
  · obtain ⟨hw, han, hst⟩ := h.fresh c hc
    exact ⟨hw, han, hsta (Nat.ne_of_gt (Nat.lt_of_lt_of_le ha hc)) hst⟩
  · obtain ⟨hw, han, hst⟩ := h.stored c hc
    exact ⟨hw, han, hsta (fun heq => hh (heq ▸ hc)) hst⟩

theorem Sound.take (h : s.Sound) (hh : s.startHandler ≠ some a) : (s.take a).Sound := by
  have ho {c : Nat} {w : Waiting} (hc : (s.take a).waiting c = some w) : s.waiting c = some w := by
    by_cases hca : c = a
    · simp [Provider.take, hca] at hc
    · simpa [Provider.take, hca] using hc
  refine ⟨fun c hc => ⟨?_, (h.fresh c hc).2⟩, fun c hc => ⟨?_, (h.stored c hc).2⟩,
    fun c w hc => h.closures c w (ho hc),
    fun c hc => h.socks c (ho hc)⟩
  · by_cases hca : c = a
    · simp [Provider.take, hca]
    · simpa [Provider.take, hca] using (h.fresh c hc).1
  · have hca : c ≠ a := fun heq => hh (heq ▸ hc)
    simpa [Provider.take, hca] using (h.stored c hc).1

theorem Sound.wait (h : s.Sound) (ha : a < s.attempts) (han : a ∉ s.log.answered) (hh : s.startHandler ≠ some a)
    (hw : w = .xraySocks → a ∈ s.log.started ∨ a ∈ s.log.ended) : (s.wait a w).Sound := by
  refine ⟨fun c hc => ⟨?_, (h.fresh c hc).2⟩, fun c hc => ⟨?_, (h.stored c hc).2⟩, fun c w' hc hne => ?_,
    fun c hc => ?_⟩
  · have hca : c ≠ a := Nat.ne_of_gt (Nat.lt_of_lt_of_le ha hc)
    simpa [Provider.wait, hca] using (h.fresh c hc).1
  · have hca : c ≠ a := fun heq => hh (heq ▸ hc)
    simpa [Provider.wait, hca] using (h.stored c hc).1
  · by_cases hca : c = a
    · exact hca ▸ han
    · exact h.closures c w' (by simpa [Provider.wait, hca] using hc) hne
  · by_cases hca : c = a
    · subst hca
      exact hw (by simpa [Provider.wait] using hc)
    · exact h.socks c (by simpa [Provider.wait, hca] using hc)

theorem Sound.reject (h : s.Sound) (ha : a < s.attempts) (hwa : s.waiting a = none) (hh : s.startHandler ≠ some a)
    (e : Option StartError) : (s.reject a e).Sound := by
  have han {c : Nat} (hca : c ≠ a) (hc : c ∉ s.log.answered) : c ∉ (s.reject a e).log.answered := by
    simp [Provider.reject, hc, hca]
  refine ⟨fun c hc => ?_, fun c hc => ?_, fun c w hc hne => ?_,
    fun c hc => (h.socks c hc).imp_right (mem_cons_of_mem _)⟩
  · obtain ⟨hw, hans, hst⟩ := h.fresh c hc
    exact ⟨hw, han (Nat.ne_of_gt (Nat.lt_of_lt_of_le ha hc)) hans, hst⟩
  · obtain ⟨hw, hans, hst⟩ := h.stored c hc
    exact ⟨hw, han (fun heq => hh (heq ▸ hc)) hans, hst⟩
  · have hca : c ≠ a := by
      rintro rfl
      rw [Provider.reject, hwa] at hc
      cases hc
    exact han hca (h.closures c w hc hne)

/-- The stored handler is called. -/
theorem Sound.answer (h : s.Sound) {b : Nat} (hb : s.startHandler = some b) (e : Option StartError) :
    Sound { s with log := s.log.answer b e, startHandler := none } := by
  obtain ⟨had, _, _⟩ := h.stored b hb
  have ha {c : Nat} (hcb : c ≠ b) (hc : c ∉ s.log.answered) : c ∉ (s.log.answer b e).answered := by simp [hc, hcb]
  refine ⟨fun c hc => ?_, fun c hc => ?_, fun c w hc hne => ?_, h.socks⟩
  · obtain ⟨hw, han, hst⟩ := h.fresh c hc
    exact ⟨hw, ha (Nat.ne_of_gt (Nat.lt_of_lt_of_le (h.lt_attempts had) hc)) han, hst⟩
  · cases hc
  · have hcb : c ≠ b := by
      rintro rfl
      exact hne (Option.some.inj (hc.symm.trans had))
    exact ha hcb (h.closures c w hc hne)

structure New (a : Nat) (s : Provider) : Prop where
  lt : a < s.attempts
  waiting : s.waiting a = none
  answered : a ∉ s.log.answered
  started : a ∉ s.log.started
  handler : s.startHandler ≠ some a

theorem Sound.bump (h : s.Sound) (proto : Option TunnelProtoType) :
    Sound { s with attempts := s.attempts + 1, protoType := proto } ∧
      New s.attempts { s with attempts := s.attempts + 1, protoType := proto } := by
  obtain ⟨hw, han, hst⟩ := h.fresh s.attempts (Nat.le_refl _)
  refine ⟨⟨fun c hc => h.fresh c (Nat.le_of_succ_le hc), h.stored, h.closures, h.socks⟩,
    ⟨Nat.lt_succ_self _, hw, han, hst, fun hsto => ?_⟩⟩
  have ha := (h.stored _ hsto).1
  rw [hw] at ha
  cases ha

variable {Data : Type} {dec : Decoders Data}

variable (h : s.Sound)

include h

theorem Sound.startOpenVPN (hnew : New a s) (pc : ProviderConfiguration Data) (applied : Bool) :
    (s.startOpenVPN dec a pc applied).Sound := by
  unfold Provider.startOpenVPN
  split
  · exact h.ignore a
  split
  · exact h.ignore a
  split
  · exact h.reject hnew.lt hnew.waiting hnew.handler _
  · have hwa := h.wait hnew.lt hnew.answered hnew.handler (w := .openVpnAdapter) (fun hw => by cases hw)
    refine ⟨hwa.fresh, fun c hc => ?_, hwa.closures, hwa.socks⟩
    obtain rfl : a = c := Option.some.inj hc
    exact ⟨by simp [Provider.wait], hnew.answered, hnew.started⟩

theorem Sound.startWireguard (hnew : New a s) (pc : ProviderConfiguration Data) :
    (s.startWireguard dec a pc).Sound := by
  unfold Provider.startWireguard
  split
  · exact h.reject hnew.lt hnew.waiting hnew.handler _
  split
  · exact h.reject hnew.lt hnew.waiting hnew.handler _
  · exact ⟨h.fresh, h.stored, h.closures, h.socks⟩
  · have hwa := h.wait hnew.lt hnew.answered hnew.handler (w := .wireGuardStart) (fun hw => by cases hw)
    exact ⟨hwa.fresh, hwa.stored, hwa.closures, hwa.socks⟩

theorem Sound.startXray (hnew : New a s) (pc : ProviderConfiguration Data) : (s.startXray dec a pc).Sound := by
  have hr := h.reject hnew.lt hnew.waiting hnew.handler
  unfold Provider.startXray
  split
  · exact hr _
  split
  · exact hr _
  split
  · exact hr _
  · exact hr _
  · exact h.wait hnew.lt hnew.answered hnew.handler fun hw => by cases hw

theorem Sound.startTunnel (pc : ProviderConfiguration Data) (applied : Bool) :
    (s.startTunnel dec pc applied).Sound := by
  obtain ⟨hso, hnew⟩ := h.bump (selectProto pc s)
  unfold Provider.startTunnel
  dsimp only
  split
  · exact hso.reject hnew.lt hnew.waiting hnew.handler _
  · exact hso.startWireguard hnew pc
  · exact hso.startOpenVPN hnew pc applied
  · exact hso.startXray hnew pc

theorem Sound.openVpnConnected (a : Nat) : (s.openVpnConnected a).Sound := by
  unfold Provider.openVpnConnected
  split
  next ha =>
    dsimp only
    split
    -- it does not matter whether the handler is called before or after the report is noted
    next b hb => exact ((h.answer hb none).start (h.lt_attempts ha) (by simp)).ignore a
    next hno => exact (h.start (h.lt_attempts ha) (by simp [hno])).ignore a
  · exact h

theorem Sound.openVpnError (a : Nat) (fatal : Bool) : (s.openVpnError a fatal).Sound := by
  unfold Provider.openVpnError
  split
  · dsimp only
    split
    next b hb => exact (h.ignore a).answer hb _
    · exact h.ignore a
  · exact h

theorem Sound.take_new (hw : s.waiting a = some w) (hne : w ≠ .openVpnAdapter) :
    (s.take a).Sound ∧ a < (s.take a).attempts ∧ (s.take a).waiting a = none ∧
      (s.take a).startHandler ≠ some a ∧
      a ∉ (s.take a).log.answered := by
  have hh := h.startHandler_ne hw hne
  exact ⟨h.take hh, h.lt_attempts hw, by simp [Provider.take], hh, h.closures a w hw hne⟩

theorem Sound.wireGuardStarted (a : Nat) (adapterError : Option WireGuardAdapterError) :
    (s.wireGuardStarted a adapterError).Sound := by
  unfold Provider.wireGuardStarted
  split
  next hw =>
    obtain ⟨ht, hlt, hno, hh, _⟩ := h.take_new hw (by simp)
    have hr := ht.reject hlt hno hh
    cases adapterError with
    | none =>
      have hst := ht.start hlt hh
      exact hst.reject hlt hno hh none
    | some e =>
      cases e with
      | invalidState =>
        have hi := ht.ignore a
        exact ⟨hi.fresh, hi.stored, hi.closures, hi.socks⟩
      | cannotLocateTunnelFileDescriptor | dnsResolution | setNetworkSettings | startWireGuardBackend => exact hr _
  · exact h

theorem Sound.xraySettingsSet (a : Nat) (r : XrayReplies) : (s.xraySettingsSet a r).Sound := by
  unfold Provider.xraySettingsSet
  split
  next hw =>
    obtain ⟨ht, hlt, hno, hh, ha⟩ := h.take_new hw (by simp)
    dsimp only
    split
    · exact ht.reject hlt hno hh _
    split
    · exact ht.reject hlt hno hh _
    cases hr : r.ran with
    | true =>
      have hst := ht.start hlt hh
      split
      · exact hst.reject hlt hno hh _
      · exact hst.wait hlt ha hh fun _ => .inl mem_cons_self
    | false =>
      have hi := ht.ignore a
      split
      · exact hi.reject hlt hno hh _
      · exact hi.wait hlt ha hh fun _ => .inr mem_cons_self
  · exact h

theorem Sound.xraySocksStarted (a : Nat) : (s.xraySocksStarted a).Sound := by
  unfold Provider.xraySocksStarted
  split
  next hw =>
    obtain ⟨ht, hlt, hno, hh, _⟩ := h.take_new hw (by simp)
    exact ht.reject hlt hno hh none
  · exact h

theorem Sound.step (e : Event Data) : (step dec e s).Sound := by
  unfold Provider.step
  split
  · exact h
  · cases e with
    | startTunnel pc applied => exact h.startTunnel pc applied
    | openVpnConnected a => exact h.openVpnConnected a
    | openVpnError a fatal => exact h.openVpnError a fatal
    | wireGuardStarted a adapterError => exact h.wireGuardStarted a adapterError
    | xraySettingsSet a r => exact h.xraySettingsSet a r
    | xraySocksStarted a => exact h.xraySocksStarted a

end Sound

theorem sound_init : init.Sound := by
  refine ⟨fun _ _ => ⟨rfl, not_mem_nil, not_mem_nil⟩, ?_, ?_, ?_⟩
  · intro a ha
    cases ha
  · intro a w hw
    cases hw
  · intro a hw
    cases hw

/-! ## Reliable events -/

variable {Data : Type} (dec : Decoders Data)

/-- There is a configuration for OpenVPN or WireGuard, and it can be decoded. -/
def Decodes (pc : ProviderConfiguration Data) : Option TunnelProtoType → Prop
  | some .openvpn => (pc.ovpn.bind dec.openVpn).isSome = true
  | some .wireguard => (pc.wireguard.bind (wireGuardTunnel dec)).isSome = true
  | some .xray | none => True

/-- The configuration for OpenVPN or WireGuard can be decoded; an adapter of OpenVPN that reports is the one of the
stored handler, or of an attempt that was answered; WireGuard is in a valid state; and Xray runs, if all else is well.
Nothing is asked of events after the end of the process. -/
def Reliable (e : Event Data) (s : Provider) : Prop := s.crashed = false →
    match e with
    | .startTunnel pc _ => Decodes dec pc (selectProto pc s)
    | .openVpnConnected a => s.waiting a = some .openVpnAdapter →
      s.startHandler = some a ∨ s.startHandler = none ∧ s.log.answered.count a = 1
    | .openVpnError a fatal => s.waiting a = some .openVpnAdapter ∧ fatal = true →
      s.startHandler = some a ∨ s.log.answered.count a = 1
    | .wireGuardStarted a adapterError => s.waiting a = some .wireGuardStart → adapterError ≠ some .invalidState
    | .xraySettingsSet a r => s.waiting a = some .xraySettings → r.settings = true → r.savedConfig = true →
      r.savedSocks = true → r.ran = true
    | .xraySocksStarted _ => True

section Truth

variable {dec} {s : Provider} {a : Nat}

variable (h : s.log.Truthful)

include h

theorem truthful_reject_iff (ha : a ∉ s.log.answered) (e : Option StartError) :
    (s.reject a e).log.Truthful ↔ (e = none → a ∈ s.log.started) := by
  have hi : (s.reject a e).log.Truthful ↔ _ := h.answers_iff ha rfl (fun _ => mem_cons) (List.Subset.refl _)
  rw [hi]
  simp [reject]

theorem truthful_reject (ha : a ∉ s.log.answered) (e : StartError) : (s.reject a (some e)).log.Truthful :=
  (truthful_reject_iff h ha (some e)).mpr fun he => absurd he (Option.some_ne_none e)

theorem truthful_ignore_iff (a : Nat) : (s.ignore a).log.Truthful ↔ s.log.answered.count a = 1 :=
  h.ends_iff rfl (fun _ => mem_cons) (List.Subset.refl _)

theorem truthful_startOpenVPN_iff (hnew : New a s) (pc : ProviderConfiguration Data) (applied : Bool) :
    (s.startOpenVPN dec a pc applied).log.Truthful ↔ (pc.ovpn.bind dec.openVpn).isSome = true := by
  have hi : ¬(s.ignore a).log.Truthful := by
    rw [truthful_ignore_iff h, count_eq_zero.mpr hnew.answered]
    exact Nat.zero_ne_one
  unfold startOpenVPN
  split
  next hd => simp [hd, hi]
  next data hd =>
    split
    next hc => simp [hd, hc, hi]
    next c hc =>
      have hr := truthful_reject h hnew.answered .openVpnConfiguration
      split
      · simp [hd, hc, hr]
      · simpa [hd, hc, wait] using h

theorem truthful_startWireguard_iff (hnew : New a s) (pc : ProviderConfiguration Data) :
    (s.startWireguard dec a pc).log.Truthful ↔ (pc.wireguard.bind (wireGuardTunnel dec)).isSome = true := by
  have hr : ¬(s.reject a none).log.Truthful := by
    rw [truthful_reject_iff h hnew.answered]
    exact fun hst => hnew.started (hst rfl)
  unfold startWireguard
  split
  next hd => simp [hd, hr]
  next data hd =>
    split
    next ht => simp [hd, ht, hr]
    next ht => simpa [hd, ht] using h
    next t ht => simpa [hd, ht, wait] using h

theorem truthful_startXray (hnew : New a s) (pc : ProviderConfiguration Data) :
    (s.startXray dec a pc).log.Truthful := by
  have hr := truthful_reject h hnew.answered
  unfold startXray
  split
  · exact hr _
  split
  · exact hr _
  split
  · exact hr _
  · exact hr _
  · exact h

omit h

variable (hs : s.Sound)

include hs

theorem truthful_startTunnel_iff (h : s.log.Truthful) (pc : ProviderConfiguration Data) (applied : Bool) :
    (s.startTunnel dec pc applied).log.Truthful ↔ Decodes dec pc (selectProto pc s) := by
  unfold startTunnel
  generalize selectProto pc s = proto
  obtain ⟨_, hnew⟩ := hs.bump proto
  have hl : ({ s with attempts := s.attempts + 1, protoType := proto } : Provider).log.Truthful := h
  cases proto with
  | none => exact iff_of_true (truthful_reject hl hnew.answered _) trivial
  | some proto =>
    cases proto with
    | wireguard => exact truthful_startWireguard_iff hl hnew pc
    | openvpn => exact truthful_startOpenVPN_iff hl hnew pc applied
    | xray => exact iff_of_true (truthful_startXray hl hnew pc) trivial

theorem truthful_openVpnConnected_iff (h : s.log.Truthful) (had : s.waiting a = some .openVpnAdapter) :
    (s.openVpnConnected a).log.Truthful ↔ s.startHandler = some a ∨
    s.startHandler = none ∧ s.log.answered.count a = 1 := by
  unfold openVpnConnected
  rw [if_pos had]
  cases hh : s.startHandler with
  | none =>
    have hi : ((s.log.start a).finish a).Truthful ↔ _ := h.ends_iff rfl (fun _ => mem_cons)
      (subset_cons_of_subset _ (List.Subset.refl _))
    simpa using hi
  | some b =>
    obtain ⟨_, ha, hst⟩ := hs.stored b hh
    have hi : (((s.log.start a).finish a).answer b none).Truthful ↔ _ := h.answers_iff ha rfl
      (fun _ => mem_cons) (subset_cons_of_subset _ (List.Subset.refl _))
    refine hi.trans ?_
    simp only [Log.started_answer, Log.started_finish, Log.started_start, mem_cons, hst, or_false, Option.some.injEq,
      reduceCtorEq, false_and, forall_const]
    exact ⟨fun hb => hb.2, fun hb => ⟨.inl hb, hb⟩⟩

theorem truthful_openVpnError_iff (h : s.log.Truthful) (ha : s.waiting a = some .openVpnAdapter) :
    (s.openVpnError a true).log.Truthful ↔ s.startHandler = some a ∨ s.log.answered.count a = 1 := by
  unfold openVpnError
  rw [if_pos ⟨ha, rfl⟩]
  cases hh : s.startHandler with
  | none => exact (truthful_ignore_iff h a).trans (by simp)
  | some b =>
    have hi : ((s.log.finish a).answer b (some .openVpnFatal)).Truthful ↔ _ :=
      h.answers_iff (hs.stored b hh).2.1 rfl (fun _ => mem_cons) (List.Subset.refl _)
    refine hi.trans ?_
    simp

theorem truthful_wireGuardStarted_iff (h : s.log.Truthful) (hw : s.waiting a = some .wireGuardStart)
    (adapterError : Option WireGuardAdapterError) :
    (s.wireGuardStarted a adapterError).log.Truthful ↔ adapterError ≠ some .invalidState := by
  have ha := hs.closures a _ hw (by simp)
  have ht : (s.take a).log.Truthful := h
  have hr := truthful_reject ht ha
  unfold wireGuardStarted
  rw [if_pos hw]
  cases adapterError with
  | none =>
    have hst : ({ s.take a with log := s.log.start a } : Provider).log.Truthful := h.start a
    have hni := (truthful_reject_iff hst ha none).mpr fun _ => mem_cons_self
    exact iff_of_true hni (by simp)
  | some e =>
    cases e with
    | invalidState =>
      refine iff_of_false ?_ (by simp)
      have hi : ¬(s.ignore a).log.Truthful := by
        rw [truthful_ignore_iff h, count_eq_zero.mpr ha]
        exact Nat.zero_ne_one
      exact hi
    | cannotLocateTunnelFileDescriptor | dnsResolution | setNetworkSettings | startWireGuardBackend =>
      exact iff_of_true (hr _) (by simp)

theorem truthful_xraySettingsSet_iff (h : s.log.Truthful) (hw : s.waiting a = some .xraySettings)
    (r : XrayReplies) : (s.xraySettingsSet a r).log.Truthful ↔
      (r.settings = true → r.savedConfig = true → r.savedSocks = true → r.ran = true) := by
  have ha := hs.closures a _ hw (by simp)
  have ht : (s.take a).log.Truthful := h
  have hr := truthful_reject ht ha
  unfold xraySettingsSet
  rw [if_pos hw]
  obtain ⟨settings, savedConfig, ran, savedSocks⟩ := r
  cases settings with
  | false => exact iff_of_true (hr _) (by simp)
  | true =>
  cases savedConfig with
  | false => exact iff_of_true (hr _) (by simp)
  | true =>
  cases ran with
  | true =>
    have hst : ({ s.take a with log := s.log.start a } : Provider).log.Truthful := h.start a
    refine iff_of_true ?_ (by simp)
    cases savedSocks with
    | true => exact hst
    | false => exact truthful_reject hst ha _
  | false =>
    cases savedSocks with
    | true =>
      refine iff_of_false ?_ (by simp)
      have hi : ¬(s.ignore a).log.Truthful := by
        rw [truthful_ignore_iff h, count_eq_zero.mpr ha]
        exact Nat.zero_ne_one
      exact hi
    | false =>
      refine iff_of_true ?_ (by simp)
      -- the attempt ends twice, and is answered once
      have hen (c : Nat) : c ∈ ((s.log.finish a).finish a).ended ↔ c = a ∨ c ∈ s.log.ended := by simp
      have hif : (((s.log.finish a).finish a).answer a (some .cantSaveHevSocksConfig)).Truthful ↔ _ :=
        h.answers_iff ha rfl hen (List.Subset.refl _)
      exact hif.mpr ⟨.inl rfl, fun he => absurd he (Option.some_ne_none _)⟩

theorem truthful_xraySocksStarted (h : s.log.Truthful) (hw : s.waiting a = some .xraySocks) :
    (s.xraySocksStarted a).log.Truthful := by
  have ha := hs.closures a _ hw (by simp)
  have hst : a ∈ s.log.started := by
    -- an attempt that has ended would have been answered
    refine (hs.socks a hw).resolve_right fun he => ?_
    have ho := h.once a he
    rw [count_eq_zero.mpr ha] at ho
    exact Nat.zero_ne_one ho
  unfold xraySocksStarted
  rw [if_pos hw]
  have ht : (s.take a).log.Truthful := h
  exact (truthful_reject_iff ht ha none).mpr fun _ => hst

theorem truthful_step_iff (h : s.log.Truthful) (e : Event Data) : (step dec e s).log.Truthful ↔ Reliable dec e s := by
  unfold step
  cases hc : s.crashed with
  | true => exact iff_of_true h (by simp [Reliable, hc])
  | false =>
    cases e with
    | startTunnel pc applied =>
      rw [Reliable, forall_prop_of_true hc]
      exact truthful_startTunnel_iff hs h pc applied
    | openVpnConnected a =>
      rw [Reliable, forall_prop_of_true hc]
      by_cases hw : s.waiting a = some .openVpnAdapter
      · exact (truthful_openVpnConnected_iff hs h hw).trans (by simp [hw])
      · exact iff_of_true (by simpa [openVpnConnected, hw] using h) (fun hw' => absurd hw' hw)
    | openVpnError a fatal =>
      rw [Reliable, forall_prop_of_true hc]
      by_cases hw : s.waiting a = some .openVpnAdapter ∧ fatal = true
      · obtain ⟨ha, rfl⟩ := hw
        exact (truthful_openVpnError_iff hs h ha).trans (by simp [ha])
      · exact iff_of_true (by simpa [openVpnError, hw] using h) (fun hw' => absurd hw' hw)
    | wireGuardStarted a adapterError =>
      rw [Reliable, forall_prop_of_true hc]
      by_cases hw : s.waiting a = some .wireGuardStart
      · exact (truthful_wireGuardStarted_iff hs h hw adapterError).trans (by simp [hw])
      · exact iff_of_true (by simpa [wireGuardStarted, hw] using h) (fun hw' => absurd hw' hw)
    | xraySettingsSet a r =>
      rw [Reliable, forall_prop_of_true hc]
      by_cases hw : s.waiting a = some .xraySettings
      · exact (truthful_xraySettingsSet_iff hs h hw r).trans (by simp [hw])
      · exact iff_of_true (by simpa [xraySettingsSet, hw] using h) (fun hw' => absurd hw' hw)
    | xraySocksStarted a =>
      rw [Reliable, forall_prop_of_true hc]
      refine iff_of_true ?_ trivial
      by_cases hw : s.waiting a = some .xraySocks
      · exact truthful_xraySocksStarted hs h hw
      · simpa [xraySocksStarted, hw] using h

end Truth

/-- **Start attempts.** Every attempt that has ended was answered exactly once, and with `nil` only if its backend has
started, all along a run just when the events of the run are reliable. -/
theorem run_truthful_iff (events : List (Event Data)) :
    (∀ n, (run (step dec) (events.take n) init).log.Truthful) ↔ Guarded (step dec) (Reliable dec) events init := by
  have hi : init.log.Truthful := ⟨fun _ ha => absurd ha not_mem_nil, fun _ ha => absurd ha not_mem_nil⟩
  have hso (e : Event Data) (_ : e ∈ events) (s : Provider) (hs : s.Sound) : (step dec e s).Sound := hs.step e
  have hst (e : Event Data) (_ : e ∈ events) (s : Provider) (hs : s.Sound) (h : s.log.Truthful) :
      (step dec e s).log.Truthful ↔ Reliable dec e s := truthful_step_iff hs h e
  exact forall_take_iff_guarded hso hst sound_init hi

/-! ## Examples -/

/-- Data that are a configuration (`true`) or not. -/
def toy : Decoders Bool where
  openVpn d := if d then some ⟨"", 0, []⟩ else none
  wireGuard _ := none
  xray d := if d then some ⟨""⟩ else none
  tunnelConfiguration _ := none
  jsonObject _ := .dictionary
  range _ := none
  rangeText _ := ""

def openVpn (d : Bool) : Event Bool := .startTunnel ⟨some d, none, none⟩ true

/-- No answer; an answer of success without a tunnel; success for an attempt whose adapter has not reported, and none
for the one whose adapter has; success although Xray did not run. -/
theorem start_attempts_untruthful :
    let logs := [[openVpn false], [.startTunnel ⟨none, some true, none⟩ true],
      [openVpn true, openVpn true, .openVpnConnected 0],
      [.startTunnel ⟨none, none, some true⟩ true, .xraySettingsSet 0 ⟨true, true, false, true⟩,
        .xraySocksStarted 0]].map
        fun events => (run (step toy) events init).log
    logs = [⟨[], [], [0]⟩, ⟨[(0, none)], [], [0]⟩, ⟨[(1, none)], [0], [0]⟩,
      ⟨[(0, none)], [], [0, 0]⟩] ∧
      ∀ l ∈ logs, ¬l.Truthful := by
  decide

end Provider

end Cimogus.Ios
