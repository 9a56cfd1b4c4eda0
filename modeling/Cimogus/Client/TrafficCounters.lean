import Cimogus.Client.VpnProtocol

/-!
# The differences of the byte counters

`setBytesChanged` emits how much the counters have grown since the last report, as an unsigned difference. What is
remembered is set back only where `setConnectionState` enters `Disconnected`; a session of OpenVPN that begins with
`Reconnecting` counts from zero again as well.
-/

namespace Cimogus.Client.VpnProtocol

inductive Call
  | setBytesChanged (receivedBytes sentBytes : UInt64)
  | setConnectionState (state : ConnectionState)

/-- The call announces a new session. -/
def announces (state : ConnectionState) : Bool := state = .Reconnecting || state = .Disconnected

/-- The counters do not decrease within a session; `last` are those of the last report. -/
def Counts (last : UInt64 × UInt64) : List Call → Prop
  | [] => True
  | .setBytesChanged r s :: calls => last.1 ≤ r ∧ last.2 ≤ s ∧ Counts (r, s) calls
  | .setConnectionState state :: calls => Counts (if announces state then (0, 0) else last) calls

/-- Every difference that is emitted is at most its counter, and with those of the session so far, `sum`, it adds up to
it. -/
def Exact (p : VpnProtocol) (sum : Nat × Nat) : List Call → Prop
  | [] => True
  | .setBytesChanged r s :: calls =>
    ∃ dr ds, (p.setBytesChanged r s).2 = [.bytesChanged dr ds] ∧ dr ≤ r ∧ ds ≤ s ∧
      sum.1 + dr.toNat = r.toNat ∧ sum.2 + ds.toNat = s.toNat ∧
      Exact (p.setBytesChanged r s).1 (sum.1 + dr.toNat, sum.2 + ds.toNat) calls
  | .setConnectionState state :: calls =>
    Exact (p.setConnectionState state).1 (if announces state then (0, 0) else sum) calls

/-- At the first report of each session nothing is remembered; `fresh` says that there was none yet. -/
def Forgets (p : VpnProtocol) (fresh : Bool) : List Call → Prop
  | [] => True
  | .setBytesChanged r s :: calls =>
    (fresh = true → p.receivedBytes = 0 ∧ p.sentBytes = 0) ∧ Forgets (p.setBytesChanged r s).1 false calls
  | .setConnectionState state :: calls => Forgets (p.setConnectionState state).1 (fresh || announces state) calls

theorem difference_eq_iff (r m : UInt64) : (r - m).toNat = r.toNat ↔ m = 0 := by
  have hr := r.toNat_lt
  have hm := m.toNat_lt
  rw [← UInt64.toNat_inj, UInt64.toNat_sub, UInt64.toNat_zero]
  omega

theorem difference_of_le {r m : UInt64} (h : m ≤ r) : r - m ≤ r ∧ m.toNat + (r - m).toNat = r.toNat := by
  have hs := UInt64.toNat_sub_of_le r m h
  have hle := UInt64.le_iff_toNat_le.mp h
  exact ⟨UInt64.le_iff_toNat_le.mpr (by omega), by omega⟩

theorem counters_setConnectionState {state : ConnectionState} (h : announces state = false) (p : VpnProtocol) :
    (p.setConnectionState state).1.receivedBytes = p.receivedBytes ∧
    (p.setConnectionState state).1.sentBytes = p.sentBytes := by
  have hne : state ≠ .Disconnected := by
    rintro rfl
    cases h
  unfold setConnectionState
  split
  · exact ⟨rfl, rfl⟩
  · exact ⟨rfl, rfl⟩

/-- Where the session has no report yet nothing is summed up; otherwise the last one is remembered, and the sum is the
last one. -/
def Tracks (p : VpnProtocol) (fresh : Bool) (last : UInt64 × UInt64) (sum : Nat × Nat) : Prop :=
  sum = (last.1.toNat, last.2.toNat) ∧ if fresh then last = (0, 0) else p.receivedBytes = last.1 ∧
    p.sentBytes = last.2

theorem exact_iff_forgets (calls : List Call) {p : VpnProtocol} {fresh : Bool} {last : UInt64 × UInt64}
    {sum : Nat × Nat}
    (h : Tracks p fresh last sum) (hc : Counts last calls) : Exact p sum calls ↔ Forgets p fresh calls := by
  induction calls generalizing p fresh last sum with
  | nil => exact Iff.rfl
  | cons call calls ih =>
    obtain ⟨rfl, hlast⟩ := h
    cases call with
    | setConnectionState state =>
      cases ha : announces state with
      | true =>
        rw [Exact, Forgets, ha, Bool.or_true]
        rw [Counts, ha] at hc
        exact ih ⟨rfl, rfl⟩ hc
      | false =>
        rw [Exact, Forgets, ha, Bool.or_false]
        rw [Counts, ha] at hc
        obtain ⟨hr, hs⟩ := counters_setConnectionState ha p
        exact ih ⟨rfl, by rwa [hr, hs]⟩ hc
    | setBytesChanged r s =>
      obtain ⟨hr, hs, hc⟩ := hc
      rw [Forgets, ← @ih (p.setBytesChanged r s).1 false (r, s) _ ⟨rfl, rfl, rfl⟩ hc]
      constructor
      · rintro ⟨dr, ds, hsi, -, -, hdr, hds, he⟩
        obtain ⟨rfl, rfl⟩ : r - p.receivedBytes = dr ∧ s - p.sentBytes = ds := by
          simpa [setBytesChanged] using hsi
        rw [hdr, hds] at he
        refine ⟨?_, he⟩
        rintro rfl
        obtain rfl := hlast
        exact ⟨(difference_eq_iff r _).mp (by simpa using hdr), (difference_eq_iff s _).mp (by simpa using hds)⟩
      · rintro ⟨hfr, he⟩
        have hlast : p.receivedBytes = last.1 ∧ p.sentBytes = last.2 := by
          cases fresh with
          | true => exact hlast ▸ hfr rfl
          | false => exact hlast
        obtain ⟨hdr, hsu⟩ := difference_of_le hr
        obtain ⟨hds, hs'⟩ := difference_of_le hs
        refine ⟨_, _, rfl, ?_⟩
        rw [hlast.1, hlast.2, hsu, hs']
        exact ⟨hdr, hds, rfl, rfl, he⟩

/-- **The differences** of every session are at most its counters and add up to them, just if nothing is remembered at
the first report of each session. -/
theorem counters_exact_iff {calls : List Call} (h : Counts (0, 0) calls) :
    Exact init (0, 0) calls ↔ Forgets init true calls :=
  exact_iff_forgets calls ⟨rfl, rfl⟩ h

theorem counters_exact_disconnected :
    Exact init (0, 0) [.setBytesChanged 1000 5, .setConnectionState .Disconnected, .setBytesChanged 10 5] :=
  (counters_exact_iff (by simp [Counts, announces])).mpr
    (by simp [Forgets, announces, init, setConnectionState, setBytesChanged, takes])

/-- After `Reconnecting` the difference wraps around. -/
theorem reconnecting_wraps :
    Counts (0, 0) [.setBytesChanged 1000 5, .setConnectionState .Reconnecting, .setBytesChanged 10 5] ∧
    ¬Exact init (0, 0) [.setBytesChanged 1000 5, .setConnectionState .Reconnecting, .setBytesChanged 10 5] := by
  have hc : Counts (0, 0) [.setBytesChanged 1000 5, .setConnectionState .Reconnecting, .setBytesChanged 10 5] := by
    simp [Counts, announces]
  refine ⟨hc, fun h => ?_⟩
  have ht : Tracks init true (0, 0) (0, 0) := ⟨rfl, rfl⟩
  have hfo := (exact_iff_forgets _ ht hc).mp h
  simp [Forgets, announces, init, setConnectionState, setBytesChanged, takes] at hfo

end Cimogus.Client.VpnProtocol
