/-!
# Runs of operations

A run applies a list of operations to a state one after the other. `run_invariant` is the invariant rule;
`run_invariant_of_guarded` is the same for operations that keep the invariant only where a guard holds, for the runs all
of whose operations meet the guard where they start, and `forall_take_iff_guarded` says that the guard is the weakest
one.
-/

namespace Lib.Runs

variable {σ ι : Type} (step : ι → σ → σ)

def run (ops : List ι) (s : σ) : σ := ops.foldl (fun s op => step op s) s

@[simp] theorem run_nil (s : σ) : run step [] s = s := rfl

@[simp] theorem run_cons (op : ι) (ops : List ι) (s : σ) : run step (op :: ops) s = run step ops (step op s) := rfl

theorem run_append (ops ops' : List ι) (s : σ) : run step (ops ++ ops') s = run step ops' (run step ops s) :=
  List.foldl_append

/-- What holds at the start and is kept by every operation holds after every run. -/
theorem run_invariant {step : ι → σ → σ} {Inv : σ → Prop} (hs : ∀ op s, Inv s → Inv (step op s))
    (ops : List ι) {s : σ}
    (h : Inv s) : Inv (run step ops s) := by
  induction ops generalizing s with
  | nil => exact h
  | cons op ops ih => exact ih (hs op s h)

/-- Every operation of the run meets the guard in the state in which it starts. -/
def Guarded (guard : ι → σ → Prop) : List ι → σ → Prop
  | [], _ => True
  | op :: ops, s => guard op s ∧ Guarded guard ops (step op s)

instance decidableGuarded (step : ι → σ → σ) (guard : ι → σ → Prop) [∀ op s, Decidable (guard op s)] :
    ∀ ops s, Decidable (Guarded step guard ops s)
  | [], _ => inferInstanceAs (Decidable True)
  | op :: ops, s => @instDecidableAnd _ _ _ (decidableGuarded step guard ops (step op s))

variable {guard : ι → σ → Prop}

theorem run_invariant_of_guarded {step : ι → σ → σ} {Inv : σ → Prop}
    (hs : ∀ op s, guard op s → Inv s → Inv (step op s)) (ops : List ι) {s : σ} (hg : Guarded step guard ops s)
    (h : Inv s) : Inv (run step ops s) := by
  induction ops generalizing s with
  | nil => exact h
  | cons op ops ih => exact ih hg.2 (hs op s hg.1 h)

theorem Guarded.append {step : ι → σ → σ} {ops ops' : List ι} {s : σ} (h : Guarded step guard ops s)
    (h' : Guarded step guard ops' (run step ops s)) : Guarded step guard (ops ++ ops') s := by
  induction ops generalizing s with
  | nil => exact h'
  | cons op ops ih => exact ⟨h.1, ih h.2 h'⟩

theorem Guarded.mono {step : ι → σ → σ} {guard' : ι → σ → Prop} (hm : ∀ op s, guard op s → guard' op s)
    {ops : List ι} {s : σ} (h : Guarded step guard ops s) : Guarded step guard' ops s := by
  induction ops generalizing s with
  | nil => trivial
  | cons op ops ih => exact ⟨hm op s h.1, ih h.2⟩

/-- A second guard that all operations of the run meet in every state. -/
theorem Guarded.and_of_mem {step : ι → σ → σ} {other : ι → Prop} {ops : List ι} {s : σ}
    (h : Guarded step guard ops s)
    (ho : ∀ op ∈ ops, other op) : Guarded step (fun op s => guard op s ∧ other op) ops s := by
  induction ops generalizing s with
  | nil => trivial
  | cons op ops ih =>
    exact ⟨⟨h.1, ho op List.mem_cons_self⟩, ih h.2 fun op hop => ho op (List.mem_cons_of_mem _ hop)⟩

/-- The beginning of such a run is one. -/
theorem Guarded.take {step : ι → σ → σ} {ops : List ι} {s : σ} (h : Guarded step guard ops s) (n : Nat) :
    Guarded step guard (ops.take n) s := by
  induction ops generalizing s n with
  | nil => simp [Guarded]
  | cons op ops ih =>
    cases n with
    | zero => trivial
    | succ n => exact ⟨h.1, ih h.2 n⟩

theorem forall_take_iff_guarded {step : ι → σ → σ} {Good Inv : σ → Prop} {ops : List ι} {s : σ}
    (hgo : ∀ op ∈ ops, ∀ s, Good s → Good (step op s))
    (hst : ∀ op ∈ ops, ∀ s, Good s → Inv s → (Inv (step op s) ↔ guard op s)) (hs : Good s) (h : Inv s) :
    (∀ n, Inv (run step (ops.take n) s)) ↔ Guarded step guard ops s := by
  induction ops generalizing s with
  | nil => exact ⟨fun _ => trivial, fun _ n => by simpa using h⟩
  | cons op ops ih =>
    have hif := hst op List.mem_cons_self s hs h
    have hrest (hi : Inv (step op s)) := ih (fun op hop => hgo op (List.mem_cons_of_mem _ hop))
      (fun op hop => hst op (List.mem_cons_of_mem _ hop)) (hgo op List.mem_cons_self s hs) hi
    constructor
    · intro ha
      have hi : Inv (step op s) := ha 1
      exact ⟨hif.mp hi, (hrest hi).mp fun n => ha (n + 1)⟩
    · rintro ⟨hgu, hg⟩ n
      cases n with
      | zero => exact h
      | succ n => exact (hrest (hif.mpr hgu)).mpr hg n

theorem exists_first_of_not_nil {P : List ι → Prop} (hni : ¬P []) {ops : List ι} (ho : P ops) :
    ∃ before op after, ops = before ++ op :: after ∧ ¬P before ∧ P (before ++ [op]) := by
  induction ops generalizing P with
  | nil => exact absurd ho hni
  | cons op ops ih =>
    by_cases hfi : P [op]
    · exact ⟨[], op, ops, rfl, hni, hfi⟩
    · obtain ⟨before, last, after, rfl, hlast⟩ := @ih (fun ops => P (op :: ops)) hfi ho
      exact ⟨op :: before, last, after, rfl, hlast⟩

end Lib.Runs
