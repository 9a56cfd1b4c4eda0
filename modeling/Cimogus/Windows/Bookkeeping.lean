import Cimogus.Linux.WireguardFirewall
import Cimogus.Windows.Firewall

/-!
# The firewall's lists of ids

A filter can only be taken out of the engine by its id, which `WindowsFirewall` keeps in `m_activeRules` or
`m_peerRules`. `disableKillSwitch` clears its lists when the transaction is committed. `disablePeerTraffic` takes the
ids off its list before that, and where the commit fails the filters are back in the engine and their ids are gone.
-/

namespace Cimogus.Windows

open Lib.Runs Daemon List

namespace Firewall

variable {w w' : Firewall}

/-- Every filter in the engine has its id in `m_activeRules` or `m_peerRules`. -/
def Accounted (w : Firewall) : Prop := w.ledger.Accounted

instance (w : Firewall) : Decidable w.Accounted := inferInstanceAs (Decidable w.ledger.Accounted)

theorem accounted_iff_strays : w.Accounted ↔ w.strays = [] := w.ledger.accounted_iff_strays

theorem Evolves.accounted {cleaned : Bool} {new : List Filter} (h : Evolves w cleaned new w') (hw : w.Accounted) :
    w'.Accounted := by
  rw [accounted_iff_strays] at hw ⊢
  exact h.strays.trans hw

variable {pubkey : String}

theorem mem_values {id : Nat} : id ∈ w.values pubkey ↔ (pubkey, id) ∈ w.peerRules := by
  simp [values, and_comm]

theorem mem_ids_of_not_mem_values {id : Nat} (h : id ∈ w.ids) (hid : id ∉ w.values pubkey) :
    id ∈ (w.peerRules.filter (·.1 ≠ pubkey)).map Prod.snd ++ w.activeRules := by
  rcases mem_append.mp h with hpe | ha
  · obtain ⟨⟨key, _⟩, hp, rfl⟩ := mem_map.mp hpe
    have hkey : key ≠ pubkey := by
      rintro rfl
      exact hid (mem_values.mpr hp)
    exact mem_append_left _ (mem_map.mpr ⟨_, mem_filter.mpr ⟨hp, decide_eq_true hkey⟩, rfl⟩)
  · exact mem_append_right _ ha

/-- The filters whose ids are forgotten are deleted, unless the transaction fails; then there must be none. -/
theorem disablePeerTraffic_accounted {b : Bounds}
    (h : b.begins = true → b.commits = true ∨ w.values pubkey = []) (hw : w.Accounted) :
    (disablePeerTraffic b pubkey w).2.Accounted := by
  obtain ⟨begins, commits⟩ := b
  cases begins with
  | false => exact hw
  | true =>
    cases commits with
    | true =>
      intro e he
      obtain ⟨hold, hv⟩ := mem_filter.mp he
      exact mem_ids_of_not_mem_values (hw e hold) (of_decide_eq_true hv)
    | false =>
      have hni : w.values pubkey = [] := (h rfl).resolve_left (by decide)
      intro e he
      exact mem_ids_of_not_mem_values (hw e he) (by rw [hni]; exact not_mem_nil)

theorem disableKillSwitch_filters {b : Bounds} (h : (disableKillSwitch b w).1 = true) :
    (disableKillSwitch b w).2.filters = w.strays := by
  have hb : b.passes = true := by
    obtain ⟨begins, commits⟩ := b
    cases begins with
    | false => cases h
    | true =>
      cases commits with
      | false => cases h
      | true => rfl
  rw [(disableKillSwitch_evolves b w).filters, hb]
  simp

end Firewall

/-- The calls of the object, each with what the platform answers to it. -/
inductive Call
  | enableKillSwitch (a : KillSwitchAnswers) (host : Host)
  | enablePeerTraffic (a : PeerAnswers) (config : InterfaceConfig)
  | disablePeerTraffic (b : Bounds) (pubkey : String)
  | disableKillSwitch (b : Bounds)

namespace Call

def step (qt : Qt) : Call → Firewall → Firewall
  | .enableKillSwitch a host, w => (w.enableKillSwitch a host).2
  | .enablePeerTraffic a config, w => (w.enablePeerTraffic a qt config).2
  | .disablePeerTraffic b pubkey, w => (w.disablePeerTraffic b pubkey).2
  | .disableKillSwitch b, w => (w.disableKillSwitch b).2

/-- A `disablePeerTraffic` that begins is committed, or there is no id for its key. -/
def Commits : Call → Firewall → Prop
  | .disablePeerTraffic b pubkey, w => b.begins = true → b.commits = true ∨ w.values pubkey = []
  | _, _ => True

instance : ∀ (c : Call) (w : Firewall), Decidable (c.Commits w)
  | .disablePeerTraffic b pubkey, w =>
    inferInstanceAs (Decidable (b.begins = true → b.commits = true ∨ w.values pubkey = []))
  | .enableKillSwitch _ _, _ | .enablePeerTraffic _ _, _ | .disableKillSwitch _, _ => inferInstanceAs (Decidable True)

theorem step_accounted (qt : Qt) (c : Call) (w : Firewall) (hc : c.Commits w) (hw : w.Accounted) :
    (c.step qt w).Accounted := by
  cases c with
  | enableKillSwitch a host => exact (w.enableKillSwitch_evolves a host).accounted hw
  | enablePeerTraffic a config => exact (w.enablePeerTraffic_evolves a qt config).accounted hw
  | disablePeerTraffic b pubkey => exact Firewall.disablePeerTraffic_accounted hc hw
  | disableKillSwitch b => exact (w.disableKillSwitch_evolves b).accounted hw

end Call

/-- **No filter is lost** in a run whose `disablePeerTraffic` calls commit when they begin, or have nothing to forget:
whatever else fails, at each point between the calls the id of every filter in the engine is on a list, and there
`disableKillSwitch` leaves no filter when it succeeds. -/
theorem run_accounted (qt : Qt) (calls : List Call) (h : Guarded (Call.step qt) Call.Commits calls .fresh) (n : Nat) :
    (run (Call.step qt) (calls.take n) .fresh).Accounted ∧
      ∀ b, ((run (Call.step qt) (calls.take n) .fresh).disableKillSwitch b).1 = true →
        ((run (Call.step qt) (calls.take n) .fresh).disableKillSwitch b).2.filters = [] := by
  have hr : (run (Call.step qt) (calls.take n) .fresh).Accounted :=
    run_invariant_of_guarded (Call.step_accounted qt) (calls.take n) (h.take n) nofun
  exact ⟨hr, fun b hb => (Firewall.disableKillSwitch_filters hb).trans (Firewall.accounted_iff_strays.mp hr)⟩

/-! ## Examples -/

def Bounds.ok : Bounds := ⟨true, true⟩

def Transaction.ok : Transaction := ⟨.ok, fun _ => true⟩

def PeerAnswers.ok : PeerAnswers := ⟨.ok, .ok⟩

def peerRun (b : Bounds) : List Call :=
  [.enablePeerTraffic .ok (Linux.sampleInterface [⟨.ipv4 0, 0⟩]), .disablePeerTraffic b "peer"]

theorem peerRun_accounted : Guarded (Call.step Linux.sampleQt) Call.Commits (peerRun .ok) .fresh ∧
      (run (Call.step Linux.sampleQt) ((peerRun .ok).take 2) .fresh).Accounted :=
  ⟨by decide, (run_accounted Linux.sampleQt (peerRun .ok) (by decide) 2).1⟩

/-- After a commit that fails the rules of the peer are in the engine for good. -/
theorem peerRun_loses_filters : ¬(run (Call.step Linux.sampleQt) (peerRun ⟨true, false⟩) .fresh).Accounted ∧
      ((run (Call.step Linux.sampleQt) (peerRun ⟨true, false⟩) .fresh).disableKillSwitch .ok).1 = true ∧
      ((run (Call.step Linux.sampleQt) (peerRun ⟨true, false⟩) .fresh).disableKillSwitch .ok).2.filters ≠ [] := by
  decide

end Cimogus.Windows
