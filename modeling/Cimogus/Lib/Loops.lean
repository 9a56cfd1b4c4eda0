/-!
# Loops that may not end

A loop is given by what one round does; there is no next state where the loop ends.

* `ends_of_decreasing`: a loop ends if an invariant makes every round smaller; `loop_of_decreasing` says with how much
  fuel.
* `not_ends_of_invariant`: it does not end if an invariant gives every state a next round.
* `ends_iff_loop`: it ends just if enough fuel gives the state in which it ends.
-/

namespace Lib.Loops

variable {σ : Type} (round : σ → Option σ)

/-- The state after a number of rounds, if the loop takes them. -/
def after : Nat → σ → Option σ
  | 0, s => some s
  | n + 1, s => (round s).bind (after n)

/-- The state in which the loop ends, if the fuel is enough. -/
def loop : Nat → σ → Option σ
  | 0, _ => none
  | n + 1, s =>
    match round s with
    | none => some s
    | some t => loop n t

def Reaches (s t : σ) : Prop := ∃ n, after round n s = some t

def Ends (s : σ) : Prop := ∃ n, after round n s = none

variable {round} {s t u : σ}

theorem Reaches.refl (s : σ) : Reaches round s s := ⟨0, rfl⟩

theorem Reaches.head (hr : round s = some t) (h : Reaches round t u) : Reaches round s u := by
  obtain ⟨n, hn⟩ := h
  exact ⟨n + 1, by rw [after, hr, Option.bind_some, hn]⟩

theorem ends_of_round (hr : round s = some t) (h : Ends round t) : Ends round s := by
  obtain ⟨n, hn⟩ := h
  exact ⟨n + 1, by rw [after, hr, Option.bind_some, hn]⟩

theorem ends_of_none (h : round s = none) : Ends round s := ⟨1, by rw [after, h, Option.bind_none]⟩

variable (Inv : σ → Prop)

/-- What a round keeps holds wherever the loop comes to. -/
theorem Reaches.invariant (hr : ∀ s t, Inv s → round s = some t → Inv t) (hs : Inv s)
    (h : Reaches round s t) : Inv t := by
  obtain ⟨n, hn⟩ := h
  induction n generalizing s with
  | zero => exact Option.some.inj hn ▸ hs
  | succ n ih =>
    obtain ⟨u, hu, hn⟩ := Option.bind_eq_some_iff.mp hn
    exact ih (hr s u hs hu) hn

theorem Reaches.trans (h : Reaches round s t) (h' : Reaches round t u) : Reaches round s u := by
  obtain ⟨n, hn⟩ := h
  induction n generalizing s with
  | zero => exact Option.some.inj hn ▸ h'
  | succ n ih =>
    obtain ⟨v, hv, hn⟩ := Option.bind_eq_some_iff.mp hn
    exact (ih hn).head hv

/-- A loop ends if an invariant makes every round smaller. -/
theorem ends_of_decreasing (measure : σ → Nat)
    (hr : ∀ s t, Inv s → round s = some t → Inv t ∧ measure t < measure s) (hs : Inv s) : Ends round s := by
  induction hm : measure s using Nat.strongRecOn generalizing s with
  | ind m ih =>
    cases hnext : round s with
    | none => exact ends_of_none hnext
    | some t =>
      obtain ⟨ht, hlt⟩ := hr s t hs hnext
      exact ends_of_round hnext (ih (measure t) (hm ▸ hlt) ht rfl)

theorem loop_of_decreasing (measure : σ → Nat)
    (hr : ∀ s t, Inv s → round s = some t → Inv t ∧ measure t < measure s) (hs : Inv s) {fuel : Nat}
    (hf : measure s < fuel) :
    ∃ t, loop round fuel s = some t ∧ Inv t ∧ round t = none := by
  induction fuel generalizing s with
  | zero => omega
  | succ fuel ih =>
    rw [loop]
    cases hn : round s with
    | none => exact ⟨s, rfl, hs, hn⟩
    | some t =>
      obtain ⟨ht, hlt⟩ := hr s t hs hn
      exact ih ht (by omega)

theorem not_ends_of_invariant (hr : ∀ s, Inv s → ∃ t, round s = some t ∧ Inv t)
    (h : Reaches round s t) (ht : Inv t) : ¬Ends round s := by
  rintro ⟨n, hn⟩
  obtain ⟨k, hk⟩ := h
  -- the rounds before the invariant holds come first
  have hfo : ∀ m u, Inv u → after round m u ≠ none := by
    intro m
    induction m with
    | zero => exact fun u _ => Option.some_ne_none u
    | succ m ih =>
      intro u hu
      obtain ⟨v, hv, hi⟩ := hr u hu
      rw [after, hv]
      exact ih v hi
  induction k generalizing s n with
  | zero => exact hfo n s (Option.some.inj hk ▸ ht) hn
  | succ k ih =>
    obtain ⟨v, hv, hk⟩ := Option.bind_eq_some_iff.mp hk
    cases n with
    | zero => exact Option.some_ne_none s hn
    | succ n =>
      rw [after, hv] at hn
      exact ih n hn hk

/-- The fuel is enough just if the loop ends. -/
theorem ends_iff_loop : Ends round s ↔ ∃ fuel, (loop round fuel s).isSome := by
  constructor
  · rintro ⟨n, hn⟩
    refine ⟨n, ?_⟩
    induction n generalizing s with
    | zero => exact absurd hn (Option.some_ne_none s)
    | succ n ih =>
      rw [loop]
      cases hnext : round s with
      | none => rfl
      | some t =>
        rw [after, hnext] at hn
        exact ih hn
  · rintro ⟨fuel, hfu⟩
    induction fuel generalizing s with
    | zero => cases hfu
    | succ fuel ih =>
      rw [loop] at hfu
      cases hnext : round s with
      | none => exact ends_of_none hnext
      | some t =>
        rw [hnext] at hfu
        exact ends_of_round hnext (ih hfu)

end Lib.Loops
