import Mathlib.Logic.Function.Basic

/-!
# Steps that can fail

A step changes the state and says whether it succeeded. A sequence stops at the first failure, in the state reached by
then: nothing is undone. Loops either stop at the first failure (`all`) or ignore failures (`each`); the body gets the
number of the iteration.

* `Keeps f s`: the step does not change what `f` reads off the state; `Keeps.seq`, `Keeps.each` and `Keeps.all` are the
  frame rules.
* `Maintains I s`: the step keeps the invariant `I`, also where it fails.
* `Ensures Q s`: a success of the step establishes `Q`; in a sequence the last part counts (`Ensures.last`).
* `Grows w A f`: an iteration of a loop leaves the state or enlarges it; `Grows.each_le_iff` says when the whole loop
  leaves it.
-/

namespace Lib

variable {σ τ α : Type}

abbrev Step (σ : Type) := σ → Bool × σ

variable (f : Nat → α → Step σ) {body : Nat → α → Step σ}

namespace Step

def skip : Step σ := fun x => (true, x)

def stop : Step σ := fun x => (false, x)

/-- `if (!a) return false;`, then `b`. -/
def seq (a b : Step σ) : Step σ := fun x => if (a x).1 then b (a x).2 else a x

/-- `a;` as a statement: its result is not looked at. -/
def ignore (a : Step σ) : Step σ := fun x => (true, (a x).2)

def update (f : σ → σ) : Step σ := fun x => (true, f x)

def ite (c : σ → Bool) (a b : Step σ) : Step σ := fun x => if c x then a x else b x

/-- `for (a : l) f(a);` -/
def each (f : Nat → α → Step σ) : List α → Step σ
  | [] => skip
  | a :: l => seq (ignore (f 0 a)) (each (fun n => f (n + 1)) l)

/-- `for (a : l) if (!f(a)) return false;` -/
def all (f : Nat → α → Step σ) : List α → Step σ
  | [] => skip
  | a :: l => seq (f 0 a) (all (fun n => f (n + 1)) l)

/-- `for (a : l) if (f(a)) cnt++;`, with the count. -/
def count (f : Nat → α → Step σ) : List α → σ → Nat × σ
  | [], x => (0, x)
  | a :: l, x =>
    let r := count (fun n => f (n + 1)) l (f 0 a x).2
    (r.1 + (f 0 a x).1.toNat, r.2)

/-- Every call of the loop `each` succeeds. -/
def EachOk (f : Nat → α → Step σ) : List α → σ → Prop
  | [], _ => True
  | a :: l, x => (f 0 a x).1 = true ∧ EachOk (fun n => f (n + 1)) l (f 0 a x).2

section Results

variable {a b : Step σ} {x : σ}

@[simp] theorem skip_apply : skip x = (true, x) := rfl

@[simp] theorem stop_apply : stop x = (false, x) := rfl

@[simp] theorem ignore_apply : ignore a x = (true, (a x).2) := rfl

@[simp] theorem update_apply {f : σ → σ} : update f x = (true, f x) := rfl

theorem seq_of_true (h : (a x).1 = true) : seq a b x = b (a x).2 := if_pos h

theorem seq_of_false (h : (a x).1 = false) : seq a b x = a x := if_neg (by simp [h])

/-- A sequence succeeds when both parts do. -/
theorem seq_fst : (seq a b x).1 = true ↔ (a x).1 = true ∧ (b (a x).2).1 = true := by
  cases h : (a x).1 with
  | true => simp [seq_of_true h]
  | false => simp [seq_of_false h, h]

/-- A sequence that succeeds goes through its first part. -/
theorem seq_eq_true (h : (seq a b x).1 = true) : (a x).1 = true ∧ seq a b x = b (a x).2 := by
  have ha := (seq_fst.mp h).1
  exact ⟨ha, seq_of_true ha⟩

/-- A failure in an inner sequence ends the outer one. -/
theorem seq_assoc (a b c : Step σ) : seq (seq a b) c = seq a (seq b c) := by
  funext x
  cases h : (a x).1 with
  | true =>
    have hab : seq a b x = b (a x).2 := seq_of_true h
    rw [seq_of_true h, seq, hab]
    rfl
  | false =>
    have hab : seq a b x = a x := seq_of_false h
    rw [seq_of_false h, seq, hab, h]
    rfl

@[simp] theorem each_nil : each f [] = skip := rfl

theorem each_cons (i : α) (l : List α) (x : σ) : each f (i :: l) x = each (fun n => f (n + 1)) l (f 0 i x).2 := rfl

theorem each_map {β : Type} (f : Nat → β → Step σ) (g : α → β) (l : List α) :
    each f (l.map g) = each (fun n a => f n (g a)) l := by
  induction l generalizing f with
  | nil => rfl
  | cons i l ih => rw [List.map_cons, each, each, ih]

variable (l : List α)

/-- A loop that ignores failures succeeds. -/
theorem each_fst (x : σ) : (each f l x).1 = true := by
  induction l generalizing f x with
  | nil => rfl
  | cons i l ih => exact ih _ _

/-- The loop that counts does what the loop `each` does. -/
theorem count_snd (x : σ) : (count f l x).2 = (each f l x).2 := by
  induction l generalizing f x with
  | nil => rfl
  | cons i l ih => exact ih _ _

theorem count_le (x : σ) : (count f l x).1 ≤ l.length := by
  induction l generalizing f x with
  | nil => exact Nat.le_refl 0
  | cons i l ih =>
    have hrest := ih (fun n => f (n + 1)) (f 0 i x).2
    have hfi := Bool.toNat_le (f 0 i x).1
    simp only [count, List.length_cons]
    omega

/-- All are counted when every call succeeds. -/
theorem count_eq_length_iff (x : σ) : (count f l x).1 = l.length ↔ EachOk f l x := by
  induction l generalizing f x with
  | nil => exact ⟨fun _ => trivial, fun _ => rfl⟩
  | cons i l ih =>
    have hle := count_le (fun n => f (n + 1)) l (f 0 i x).2
    rw [EachOk, ← ih]
    cases h : (f 0 i x).1 <;> simp [count, h]
    omega

@[simp] theorem all_nil : all f [] = skip := rfl

theorem all_cons (i : α) (l : List α) : all f (i :: l) = seq (f 0 i) (all (fun n => f (n + 1)) l) := rfl

end Results

/-! ## What a step leaves alone -/

/-- The step does not change what `f` reads off the state. -/
def Keeps (f : σ → τ) (s : Step σ) : Prop := ∀ x, f (s x).2 = f x

namespace Keeps

variable {f : σ → τ} {a b : Step σ}

theorem skip : Keeps f skip := fun _ => rfl

theorem stop : Keeps f stop := fun _ => rfl

theorem ignore (h : Keeps f a) : Keeps f (ignore a) := h

theorem update {g : σ → σ} (h : ∀ x, f (g x) = f x) : Keeps f (update g) := h

/-- Behind `a`, a step that keeps `f` does not count. -/
theorem seq_snd (hb : Keeps f b) (a : Step σ) (x : σ) : f (Step.seq a b x).2 = f (a x).2 := by
  cases h : (a x).1 with
  | true => rw [seq_of_true h, hb]
  | false => rw [seq_of_false h]

/-- The frame rule for a sequence. -/
theorem seq (ha : Keeps f a) (hb : Keeps f b) : Keeps f (seq a b) := fun x => (seq_snd hb a x).trans (ha x)

theorem ite {c : σ → Bool} (ha : Keeps f a) (hb : Keeps f b) : Keeps f (ite c a b) := by
  intro x
  rw [Step.ite]
  split
  · exact ha x
  · exact hb x

/-- The frame rule for a loop. -/
theorem each (h : ∀ n i, Keeps f (body n i)) (l : List α) : Keeps f (each body l) := by
  induction l generalizing body with
  | nil => exact skip
  | cons i l ih => exact seq (ignore (h 0 i)) (ih fun n => h (n + 1))

/-- The frame rule for a loop that can stop early. -/
theorem all (h : ∀ n i, Keeps f (body n i)) (l : List α) : Keeps f (all body l) := by
  induction l generalizing body with
  | nil => exact skip
  | cons i l ih => exact seq (h 0 i) (ih fun n => h (n + 1))

end Keeps

/-! ## Invariants -/

/-- The step keeps `I`, whether it succeeds or not. -/
def Maintains (I : σ → Prop) (s : Step σ) : Prop := ∀ x, I x → I (s x).2

namespace Maintains

variable {I : σ → Prop} {a b : Step σ}

/-- What a step keeps is an invariant. -/
theorem of_keeps {f : σ → τ} {c : τ} (h : Keeps f a) : Maintains (fun x => f x = c) a := fun x hx => (h x).trans hx

theorem seq (ha : Maintains I a) (hb : Maintains I b) : Maintains I (seq a b) := by
  intro x hx
  cases h : (a x).1 with
  | true =>
    rw [seq_of_true h]
    exact hb _ (ha x hx)
  | false =>
    rw [seq_of_false h]
    exact ha x hx

/-- An invariant of the bodies is one of the loop. -/
theorem each_of_mem {l : List α} (h : ∀ n, ∀ i ∈ l, Maintains I (body n i)) :
    Maintains I (Step.each body l) := by
  induction l generalizing body with
  | nil => exact fun _ hx => hx
  | cons i l ih =>
    exact seq (h 0 i List.mem_cons_self) (ih fun n j hj => h (n + 1) j (List.mem_cons_of_mem _ hj))

theorem each (h : ∀ n i, Maintains I (body n i)) (l : List α) : Maintains I (each body l) :=
  each_of_mem fun n i _ => h n i

end Maintains

/-! ## What a successful step establishes -/

/-- When the step succeeds, `Q` holds of the state it leaves. -/
def Ensures (Q : σ → Prop) (s : Step σ) : Prop := ∀ x, (s x).1 = true → Q (s x).2

namespace Ensures

variable {Q : σ → Prop} {a b : Step σ}

/-- The last part of a sequence counts. -/
theorem last (hb : Ensures Q b) : Ensures Q (Step.seq a b) := by
  intro x h
  obtain ⟨_, hs⟩ := seq_eq_true h
  rw [hs] at h ⊢
  exact hb _ h

end Ensures

/-! ## Steps on a part of the state -/

def onFst (s : Step σ) : Step (σ × τ) := fun x => ((s x.1).1, ((s x.1).2, x.2))

def onSnd (s : Step τ) : Step (σ × τ) := fun x => ((s x.2).1, (x.1, (s x.2).2))

/-! ## Loops that only add -/

/-- An iteration that acts (`A`) makes the state larger, and one that does not leaves it. -/
structure Grows (w : σ → Nat) (A : Nat → α → σ → Prop) (f : Nat → α → Step σ) : Prop where
  same : ∀ n i x, ¬A n i x → (f n i x).2 = x
  lt : ∀ n i x, A n i x → w x < w (f n i x).2

namespace Grows

variable {w : σ → Nat} {A : Nat → α → σ → Prop} {f : Nat → α → Step σ}

variable (h : Grows w A f)

include h

theorem shift : Grows w (fun n => A (n + 1)) (fun n => f (n + 1)) :=
  ⟨fun n => h.same (n + 1), fun n => h.lt (n + 1)⟩

theorem step_le (n : Nat) (i : α) (x : σ) : w x ≤ w (f n i x).2 := by
  by_cases hact : A n i x
  · exact Nat.le_of_lt (h.lt n i x hact)
  · exact Nat.le_of_eq (congrArg w (h.same n i x hact).symm)

/-- A loop does not make the state smaller. -/
theorem le_each (l : List α) (x : σ) : w x ≤ w (each f l x).2 := by
  induction l generalizing A f x with
  | nil => exact Nat.le_refl _
  | cons i l ih =>
    exact Nat.le_trans (h.step_le 0 i x) (ih h.shift _)

/-- A loop none of whose iterations acts leaves the state. -/
theorem each_same (l : List α) (x : σ) (hi : ∀ n i, l[n]? = some i → ¬A n i x) : (each f l x).2 = x := by
  induction l generalizing A f with
  | nil => rfl
  | cons i l ih =>
    rw [each_cons, h.same 0 i x (hi 0 i rfl)]
    exact ih h.shift fun n j hj => hi (n + 1) j hj

/-- A loop leaves the size just if no iteration acts. -/
theorem each_le_iff (l : List α) (x : σ) : w (each f l x).2 ≤ w x ↔ ∀ n i, l[n]? = some i → ¬A n i x := by
  refine ⟨fun hle => ?_, fun hid => Nat.le_of_eq (congrArg w (h.each_same l x hid))⟩
  induction l generalizing A f with
  | nil => intro n i hi; simp at hi
  | cons i l ih =>
    rw [each_cons] at hle
    -- the first iteration cannot act, for what follows does not shrink the state
    have hfi : ¬A 0 i x := fun hact =>
      absurd (h.lt 0 i x hact) (Nat.not_lt.mpr (Nat.le_trans (h.shift.le_each l _) hle))
    rw [h.same 0 i x hfi] at hle
    intro n j hj
    cases n with
    | zero =>
      obtain rfl : i = j := by simpa using hj
      exact hfi
    | succ n => exact ih h.shift hle n j hj

end Grows

end Step

end Lib
