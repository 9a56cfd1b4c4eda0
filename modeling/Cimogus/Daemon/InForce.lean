import Cimogus.Daemon.Platforms

/-!
# The configuration in force

The private key, the junk parameters and the firewall's parameters of a configuration are set in one place only, when
the interface is added. An activation that finds an interface, or that switches servers, leaves those of an earlier
configuration.
-/

namespace Cimogus.Daemon.State

open Lib

variable {qt : Qt}

open Linux

/-- The interface has the key and the junk parameters of the configuration, and with the kill switch the parameters of
the firewall are the ones computed from it. -/
def InForce (qt : Qt) (config : InterfaceConfig) (b : Backend) : Prop :=
  b.device = some ⟨config.privateKey, config.junk⟩ ∧
    (config.killSwitchEnabled = true → b.firewall = some (firewallParams qt config))

instance (qt : Qt) (config : InterfaceConfig) (b : Backend) : Decidable (InForce qt config b) :=
  inferInstanceAs (Decidable (_ ∧ (_ → _)))

/-- What `InForce` reads. -/
def settings (b : Backend) : Option Device × Option Linux.FirewallParams := (b.device, b.firewall)

theorem settled_settings : Settled settings := ⟨fun _ _ => rfl, fun _ _ => rfl, fun _ _ => rfl, fun _ _ => rfl⟩

variable {config : InterfaceConfig}

theorem inForce_congr {b b' : Backend} (h : settings b' = settings b) :
    InForce qt config b' ↔ InForce qt config b := by
  simp only [settings, Prod.mk.injEq] at h
  rw [InForce, InForce, h.1, h.2]

/-- A new interface has the configuration. -/
theorem addInterface_inForce {r : Reply} {b : Backend} (h : (Kind.linux.addInterface qt r config b).1 = true) :
    InForce qt config (Kind.linux.addInterface qt r config b).2 := by
  have hrunning : ¬(b.running && Kind.linux ≠ .windows) = true := by
    intro hrunning
    rw [Kind.addInterface, if_pos hrunning] at h
    cases h
  unfold Kind.addInterface at h ⊢
  rw [if_neg hrunning] at h ⊢
  split at h
  · cases h
  rename_i hs
  rw [if_neg hs]
  dsimp only at h ⊢
  split at h
  · cases h
  rename_i hna
  rw [if_neg hna]
  split at h
  · cases h
  rename_i hu
  rw [if_neg hu]
  exact ⟨rfl, fun hk => by simp [Kind.configured, hk]⟩

/-- Where there was no interface, a successful fresh activation puts its configuration in force; otherwise it changes
nothing about it. -/
theorem activateFresh_inForce {r : FreshReplies} {d : State Backend}
    (h : (activateFresh (platform .linux qt) qt r config d).1 = true) :
    InForce qt config (activateFresh (platform .linux qt) qt r config d).2.backend ↔
      d.backend.running = false ∨ InForce qt config d.backend := by
  rcases activateFresh_cases (platform .linux qt) qt r config d
    with ⟨hup, heq⟩ | ⟨_, hfa, heq⟩ | ⟨hup, _, heq⟩
  · rw [heq, hup] at h
    cases h
  · rw [heq, hfa] at h
    cases h
  · have hrest : settings (activateFresh (platform .linux qt) qt r config d).2.backend =
        settings (bringUp (platform .linux qt) r.addInterface config d).2.backend := by
      rw [heq]
      exact (keeps_configure .linux qt settled_settings r config _).trans
        (keeps_addExclusions .linux qt settled_settings.exclusionRoutes _ config _)
    rw [inForce_congr hrest]
    cases hrunning : d.backend.running with
    | true =>
      have hs : bringUp (platform .linux qt) r.addInterface config d = (true, d) := if_pos hrunning
      simp [hs]
    | false =>
      have ha : bringUp (platform .linux qt) r.addInterface config d =
          onBackend ((platform .linux qt).addInterface r.addInterface config) d := if_neg (by simp [platform, hrunning])
      rw [ha] at hup ⊢
      simp only [true_or, iff_true]
      exact addInterface_inForce hup

theorem deactivate_running (r : DownReplies) :
    Step.Ensures (fun d : State Backend => d.backend.running = false) (deactivate (platform .linux qt) r) := by
  intro d h
  obtain ⟨_, hok, heq⟩ := deactivate_through h
  have hd : (Kind.linux.deleteInterface r.deleteInterface (cleared (platform .linux qt) r d).backend).1 = true := hok
  rw [heq]
  show (Kind.linux.deleteInterface r.deleteInterface (cleared (platform .linux qt) r d).backend).2.running = false
  unfold Kind.deleteInterface at hd ⊢
  dsimp only at hd ⊢
  split at hd
  · cases hd
  · rename_i hrunning
    rw [if_neg hrunning]
    rfl

/-- The activation adds an interface: there is no connection and no interface, or the connection is taken down first. -/
def AddsInterface (config : InterfaceConfig) (d : State Backend) : Prop :=
  match d.connections config.hopType with
  | none => d.backend.running = false
  | some lastConfig => supportServerSwitching lastConfig config = false

/-- **When an activation puts its configuration in force.** A successful activation on Linux, in any state and whatever
the system answers on the way, leaves its configuration in force exactly when it adds the interface or the settings were
those of the configuration before. -/
theorem activate_inForce_iff {r : Replies} {config : InterfaceConfig} {d : State Backend}
    (h : (activate (platform .linux qt) qt r config d).1 = true) :
    InForce qt config (activate (platform .linux qt) qt r config d).2.backend ↔
      AddsInterface config d ∨ InForce qt config d.backend := by
  unfold activate at h ⊢
  unfold AddsInterface
  cases hlast : d.connections config.hopType with
  | none =>
    simp only [hlast] at h ⊢
    exact activateFresh_inForce h
  | some lastConfig =>
    simp only [hlast] at h ⊢
    cases hs : supportServerSwitching lastConfig config with
    | true =>
      simp only [hs, if_true] at h ⊢
      obtain ⟨_, heq⟩ := Step.seq_eq_true h
      have hk : settings _ = settings _ :=
        (keeps_afterSwitch .linux qt settled_settings.resolvers r.switch config _).trans
          (keeps_switchServer .linux qt settled_settings r.switch lastConfig config d)
      rw [heq, inForce_congr hk]
      simp
    | false =>
      simp only [hs, Bool.false_eq_true, if_false] at h ⊢
      obtain ⟨hdown, heq⟩ := Step.seq_eq_true h
      rw [heq] at h ⊢
      have hg := deactivate_running r.down d hdown
      simp only [true_or, iff_true]
      exact (activateFresh_inForce h).mpr (.inl hg)

/-! ## Examples -/

/-- The client's second try, after the peer was refused in the first. -/
def retryConfig : InterfaceConfig := { sampleInterface [⟨.ipv4 0, 0⟩] with privateKey := "other" }

def junkConfig : InterfaceConfig :=
  { sampleInterface [⟨.ipv4 0, 0⟩] with junk := ⟨"5", "", "", "", "", "", "", "", ""⟩ }

/-- The state after an activation that stopped at the peer. -/
def refusedState : State Backend := (activate (platform .linux sampleQt) sampleQt
    { Replies.ok with fresh := { FreshReplies.ok with updatePeer := .failAt 2 } }
    (sampleInterface [⟨.ipv4 0, 0⟩]) .idle).2

def activatedState : State Backend :=
  (activate (platform .linux sampleQt) sampleQt .ok (sampleInterface [⟨.ipv4 0, 0⟩]) .idle).2

theorem activate_inForce_idle : (activate (platform .linux sampleQt) sampleQt .ok junkConfig .idle).1 = true ∧
      InForce sampleQt junkConfig (activate (platform .linux sampleQt) sampleQt .ok junkConfig .idle).2.backend :=
  ⟨by decide, (activate_inForce_iff (by decide)).mpr (.inl rfl)⟩

/-- An activation after a failed one succeeds with the old key, and a switch with the old junk parameters. -/
theorem activate_leaves_old_settings :
    ((activate (platform .linux sampleQt) sampleQt .ok retryConfig refusedState).1 = true ∧
      ¬InForce sampleQt retryConfig
    (activate (platform .linux sampleQt) sampleQt .ok retryConfig refusedState).2.backend) ∧
    ((activate (platform .linux sampleQt) sampleQt .ok junkConfig activatedState).1 = true ∧
      ¬InForce sampleQt junkConfig
        (activate (platform .linux sampleQt) sampleQt .ok junkConfig activatedState).2.backend) := by
  decide

end Cimogus.Daemon.State
