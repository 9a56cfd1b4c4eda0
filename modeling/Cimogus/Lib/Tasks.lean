import Cimogus.Lib.Steps

/-!
# Tasks that wait

A `Step` runs to its end at once. A task can emit events on the way, and it can wait for an answer: then it gives the
state away, and whatever happens in the meantime, it goes on from the state that it finds when it is resumed. What it
does between two waits is a stretch.

* `Stretches F R t`: the first stretch of the task is described by `F` and every later one by `R`, whatever the state is
  in which the task is resumed; `Stretches.seq` is the rule for sequences. `Keeps g` is the case where every stretch
  leaves `g`, and `Passes g` the one where none fails either.
* `Triple A P t Q`: pre- and postconditions for a task that runs alone, where `A` says what can happen during a wait.
* `Emits E t`: the task emits events of one sort only.
-/

namespace Lib

variable {σ ε μ ρ τ α : Type}

inductive Outcome (σ ε μ ρ : Type)
  | done (ok : Bool) (x : σ)
  | emit (e : ε) (rest : Outcome σ ε μ ρ)
  | wait (m : μ) (x : σ) (resume : ρ → σ → Outcome σ ε μ ρ)

abbrev Task (σ ε μ ρ : Type) := σ → Outcome σ ε μ ρ

/-- Go on with `k` where the outcome is done. -/
def Outcome.bind : Outcome σ ε μ ρ → (Bool → Task σ ε μ ρ) → Outcome σ ε μ ρ
  | .done ok x, k => k ok x
  | .emit e rest, k => .emit e (rest.bind k)
  | .wait m x resume, k => .wait m x fun a y => (resume a y).bind k

namespace Task

def lift (s : Step σ) : Task σ ε μ ρ := fun x => .done (s x).1 (s x).2

def emit (e : ε) : Task σ ε μ ρ := fun x => .emit e (.done true x)

def call (m : μ) (ok : ρ → Bool) : Task σ ε μ ρ := fun x => .wait m x fun a y => .done (ok a) y

/-- `if (!a) return false;`, then `b`. -/
def seq (a b : Task σ ε μ ρ) : Task σ ε μ ρ := fun x => (a x).bind fun ok y => if ok then b y else .done false y

/-- `a;` as a statement. -/
def ignore (a : Task σ ε μ ρ) : Task σ ε μ ρ := fun x => (a x).bind fun _ y => .done true y

def ite (c : σ → Bool) (a b : Task σ ε μ ρ) : Task σ ε μ ρ := fun x => if c x then a x else b x

/-- `for (a : l) f(a);` -/
def each (f : α → Task σ ε μ ρ) : List α → Task σ ε μ ρ
  | [] => lift .skip
  | a :: l => seq (ignore (f a)) (each f l)

end Task

/-! ## Stretches -/

/-- From where a stretch starts, how it ends (`none` at a wait), and where it ends. -/
abbrev Stretch (σ : Type) := σ → Option Bool → σ → Prop

def Outcome.Stretches : Stretch σ → Stretch σ → σ → Outcome σ ε μ ρ → Prop
  | F, _, x, .done ok y => F x (some ok) y
  | F, R, x, .emit _ rest => rest.Stretches F R x
  | F, R, x, .wait _ y resume => F x none y ∧ ∀ a z, (resume a z).Stretches R R z

/-- A stretch as `A` describes it, going on as `B` where it succeeds, is one as `C` describes it. -/
structure Joins (A B C : Stretch σ) : Prop where
  ok : ∀ {x y r z}, A x (some true) y → B y r z → C x r z
  failed : ∀ {x y}, A x (some false) y → C x (some false) y
  waits : ∀ {x y}, A x none y → C x none y

theorem Outcome.Stretches.mono {F F' R R' : Stretch σ} (hF : ∀ x r y, F x r y → F' x r y)
    (hR : ∀ x r y, R x r y → R' x r y) {x : σ} {o : Outcome σ ε μ ρ} (h : o.Stretches F R x) :
    o.Stretches F' R' x := by
  induction o generalizing F F' x with
  | done ok y => exact hF _ _ _ h
  | emit e rest ih => exact ih hF h
  | wait m y resume ih => exact ⟨hF _ _ _ h.1, fun a z => ih a z hR (h.2 a z)⟩

/-- The stretches of a task with `k` behind it. -/
theorem Outcome.Stretches.bind {F₁ F₂ F R₁ R : Stretch σ} (hF : Joins F₁ F₂ F) (hR : Joins R₁ F₂ R)
    {b : Task σ ε μ ρ}
    (hb : ∀ x, (b x).Stretches F₂ R x) {x : σ} {o : Outcome σ ε μ ρ} (ho : o.Stretches F₁ R₁ x) :
    (o.bind fun ok y => if ok then b y else .done false y).Stretches F R x := by
  induction o generalizing F₁ F x with
  | done ok y =>
    cases ok with
    | true =>
      -- from the start of the first part on
      have hjo : ∀ {o : Outcome σ ε μ ρ}, o.Stretches F₂ R y → o.Stretches F R x := by
        intro o h
        induction o with
        | done ok z => exact hF.ok ho h
        | emit e rest ih => exact ih h
        | wait m z resume ih => exact ⟨hF.ok ho h.1, h.2⟩
      exact hjo (hb y)
    | false => exact hF.failed ho
  | emit e rest ih => exact ih hF ho
  | wait m y resume ih => exact ⟨hF.waits ho.1, fun a z => ih a z hR (ho.2 a z)⟩

variable {f : α → Task σ ε μ ρ} {s : Step σ} {c : σ → Bool} {o : Outcome σ ε μ ρ}

namespace Task

def Stretches (F R : Stretch σ) (t : Task σ ε μ ρ) : Prop := ∀ x, (t x).Stretches F R x

namespace Stretches

variable {F R : Stretch σ}

theorem mono {F' R' : Stretch σ} {t : Task σ ε μ ρ} (h : Stretches F R t) (hF : ∀ x r y, F x r y → F' x r y)
    (hR : ∀ x r y, R x r y → R' x r y) : Stretches F' R' t := fun x => (h x).mono hF hR

theorem lift (h : ∀ x, F x (some (s x).1) (s x).2) : Stretches F R (lift s : Task σ ε μ ρ) := h

theorem emit {e : ε} (h : ∀ x, F x (some true) x) : Stretches F R (emit e : Task σ ε μ ρ) := h

/-- A call ends one stretch and begins another. -/
theorem call {m : μ} {ok : ρ → Bool} (hF : ∀ x, F x none x) (hR : ∀ a x, R x (some (ok a)) x) :
    Stretches F R (call m ok : Task σ ε μ ρ) := fun x => ⟨hF x, hR⟩

/-- The rule for sequences. -/
theorem seq {F₁ F₂ R₁ : Stretch σ} {a b : Task σ ε μ ρ} (ha : Stretches F₁ R₁ a)
    (hb : Stretches F₂ R b)
    (hF : Joins F₁ F₂ F) (hR : Joins R₁ F₂ R) : Stretches F R (seq a b) := fun x => (ha x).bind hF hR hb

theorem ite {a b : Task σ ε μ ρ} (ha : Stretches F R a) (hb : Stretches F R b) : Stretches F R (ite c a b) := by
  intro x
  rw [Task.ite]
  split
  · exact ha x
  · exact hb x

end Stretches

/-- Every stretch leaves what `g` reads off the state. -/
def Keeps (g : σ → τ) (t : Task σ ε μ ρ) : Prop := Stretches (fun x _ y => g y = g x) (fun x _ y => g y = g x) t

namespace Keeps

variable {g : σ → τ} {a b : Task σ ε μ ρ}

theorem joins : Joins (fun x _ y => g y = g x) (fun x _ y => g y = g x) (fun x _ y => g y = g x) :=
  ⟨fun hxy hyz => hyz.trans hxy, id, id⟩

theorem lift (h : Step.Keeps g s) : Keeps g (lift s : Task σ ε μ ρ) := h

theorem emit {e : ε} : Keeps g (emit e : Task σ ε μ ρ) := fun _ => rfl

theorem call {m : μ} {ok : ρ → Bool} : Keeps g (call m ok : Task σ ε μ ρ) :=
  Stretches.call (fun _ => rfl) fun _ _ => rfl

/-- The frame rule for a sequence. -/
theorem seq (ha : Keeps g a) (hb : Keeps g b) : Keeps g (seq a b) := Stretches.seq ha hb joins joins

theorem ite (ha : Keeps g a) (hb : Keeps g b) : Keeps g (ite c a b) := Stretches.ite ha hb

end Keeps

/-- Every stretch leaves what `g` reads off the state, and none fails. -/
def Passes (g : σ → τ) (t : Task σ ε μ ρ) : Prop :=
  Stretches (fun x r y => g y = g x ∧ r ≠ some false) (fun x r y => g y = g x ∧ r ≠ some false) t

namespace Passes

variable {g : σ → τ} {a b : Task σ ε μ ρ}

theorem lift (h : Step.Keeps g s) (hok : ∀ x, (s x).1 = true) : Passes g (lift s : Task σ ε μ ρ) :=
  fun x => ⟨h x, by simp [hok x]⟩

theorem emit {e : ε} : Passes g (emit e : Task σ ε μ ρ) := fun _ => ⟨rfl, nofun⟩

/-- A failure that is ignored is none. -/
theorem ignore (ha : Keeps g a) : Passes g (ignore a) := by
  intro x
  have ho := ha x
  rw [Task.ignore]
  generalize a x = o at ho
  induction o generalizing x with
  | done ok y => exact ⟨ho, nofun⟩
  | emit e rest ih => exact ih x ho
  | wait m y resume ih => exact ⟨⟨ho.1, nofun⟩, fun a z => ih a z z (ho.2 a z)⟩

theorem joins {F : Stretch σ} (hF : ∀ {x y r z}, g y = g x → F y r z → F x r z)
    (hw : ∀ {x y}, g y = g x → F x none y) :
    Joins (fun x r y => g y = g x ∧ r ≠ some false) F F :=
  ⟨fun hxy => hF hxy.1, fun hxy => absurd rfl hxy.2, fun hxy => hw hxy.1⟩

theorem seq (ha : Passes g a) (hb : Passes g b) : Passes g (seq a b) :=
  have h := joins (fun hxy hyz => ⟨hyz.1.trans hxy, hyz.2⟩) fun hxy => ⟨hxy, nofun⟩
  Stretches.seq ha hb h h

/-- A loop ignores the failures of its bodies. -/
theorem each (h : ∀ i, Keeps g (f i)) (l : List α) : Passes g (each f l) := by
  induction l with
  | nil => exact lift .skip fun _ => rfl
  | cons i l ih => exact seq (ignore (h i)) ih

end Passes

end Task

/-! ## Pre- and postconditions -/

/-- However the waits end, as far as `A` allows it, the outcome comes to satisfy `Q`. -/
def Outcome.Ends (A : μ → σ → ρ → σ → Prop) (Q : Bool → σ → Prop) : Outcome σ ε μ ρ → Prop
  | .done ok x => Q ok x
  | .emit _ rest => rest.Ends A Q
  | .wait m x resume => ∀ a y, A m x a y → (resume a y).Ends A Q

variable {A : μ → σ → ρ → σ → Prop}

/-- What `k` ends with is what the whole ends with. -/
theorem Outcome.Ends.bind {Q Q' : Bool → σ → Prop} {k : Bool → Task σ ε μ ρ} (ho : o.Ends A Q)
    (hk : ∀ ok x, Q ok x → (k ok x).Ends A Q') : (o.bind k).Ends A Q' := by
  induction o with
  | done ok x => exact hk ok x ho
  | emit e rest ih => exact ih ho
  | wait m x resume ih => exact fun a y ha => ih a y (ho a y ha)

theorem Outcome.Ends.mono {Q Q' : Bool → σ → Prop} (ho : o.Ends A Q) (hQ : ∀ ok x, Q ok x → Q' ok x) :
    o.Ends A Q' := by
  induction o with
  | done ok x => exact hQ ok x ho
  | emit e rest ih => exact ih ho
  | wait m x resume ih => exact fun a y ha => ih a y (ho a y ha)

namespace Task

/-- From a state in `P` the task succeeds in `Q true` or fails in `Q false`. -/
def Triple (A : μ → σ → ρ → σ → Prop) (P : σ → Prop) (t : Task σ ε μ ρ)
    (Q : Bool → σ → Prop) : Prop :=
  ∀ x, P x → (t x).Ends A Q

namespace Triple

variable {P P' : σ → Prop} {Q Q' : Bool → σ → Prop} {a b : Task σ ε μ ρ}

theorem lift (h : ∀ x, P x → Q (s x).1 (s x).2) : Triple A P (lift s : Task σ ε μ ρ) Q := h

theorem emit {e : ε} (h : ∀ x, P x → Q true x) : Triple A P (emit e : Task σ ε μ ρ) Q := h

/-- A call is answered as `A` allows. -/
theorem call {m : μ} {ok : ρ → Bool} (h : ∀ x a y, P x → A m x a y → Q (ok a) y) :
    Triple A P (call m ok : Task σ ε μ ρ) Q := fun x hx a y ha => h x a y hx ha

/-- A failure of the first part is one of the whole. -/
theorem seq (ha : Triple A P a Q) (hb : Triple A (Q true) b Q') (hfa : ∀ x, Q false x → Q' false x) :
    Triple A P (seq a b) Q' := by
  intro x hx
  refine (ha x hx).bind fun ok y hy => ?_
  cases ok with
  | true => exact hb y hy
  | false => exact hfa y hy

theorem ignore (ha : Triple A P a Q) (h : ∀ ok x, Q ok x → Q' true x) : Triple A P (ignore a) Q' :=
  fun x hx => (ha x hx).bind fun ok y hy => h ok y hy

theorem ite (ha : Triple A (fun x => P x ∧ c x = true) a Q) (hb : Triple A (fun x => P x ∧ c x = false) b Q) :
    Triple A P (ite c a b) Q := by
  intro x hx
  rw [Task.ite]
  split
  · rename_i hc
    exact ha x ⟨hx, hc⟩
  · rename_i hc
    exact hb x ⟨hx, Bool.eq_false_iff.mpr hc⟩

/-- `P` is the invariant of the loop. -/
theorem each (h : ∀ i, Triple A P (f i) fun _ => P) (l : List α) : Triple A P (each f l) fun _ => P := by
  induction l with
  | nil => exact fun _ hx => hx
  | cons i l ih => exact seq (Q := fun _ => P) (ignore (h i) fun _ _ hx => hx) ih fun _ hx => hx

end Triple

end Task

/-! ## Events -/

/-- Every event that is or will be emitted satisfies `E`. -/
def Outcome.Emits (E : ε → Prop) : Outcome σ ε μ ρ → Prop
  | .done _ _ => True
  | .emit e rest => E e ∧ rest.Emits E
  | .wait _ _ resume => ∀ a y, (resume a y).Emits E

theorem Outcome.Emits.bind {E : ε → Prop} {k : Bool → Task σ ε μ ρ} (ho : o.Emits E)
    (hk : ∀ ok x, (k ok x).Emits E) :
    (o.bind k).Emits E := by
  induction o with
  | done ok x => exact hk ok x
  | emit e rest ih => exact ⟨ho.1, ih ho.2⟩
  | wait m x resume ih => exact fun a y => ih a y (ho a y)

namespace Task

def Emits (E : ε → Prop) (t : Task σ ε μ ρ) : Prop := ∀ x, (t x).Emits E

namespace Emits

variable {E : ε → Prop} {a b : Task σ ε μ ρ}

theorem lift : Emits E (lift s : Task σ ε μ ρ) := fun _ => trivial

theorem emit {e : ε} (h : E e) : Emits E (emit e : Task σ ε μ ρ) := fun _ => ⟨h, trivial⟩

theorem call {m : μ} {ok : ρ → Bool} : Emits E (call m ok : Task σ ε μ ρ) := fun _ _ _ => trivial

/-- A sequence emits what its parts emit. -/
theorem seq (ha : Emits E a) (hb : Emits E b) : Emits E (seq a b) := by
  refine fun x => (ha x).bind fun ok y => ?_
  split
  · exact hb y
  · trivial

theorem ignore (ha : Emits E a) : Emits E (ignore a) := fun x => (ha x).bind fun _ _ => trivial

theorem ite (ha : Emits E a) (hb : Emits E b) : Emits E (ite c a b) := by
  intro x
  rw [Task.ite]
  split
  · exact ha x
  · exact hb x

theorem each (h : ∀ i, Emits E (f i)) (l : List α) : Emits E (each f l) := by
  induction l with
  | nil => exact lift
  | cons i l ih => exact seq (ignore (h i)) ih

end Emits

end Task

end Lib
