import Mathlib.Data.Fintype.Basic

/-!
# Chains of packet filter rules

A table maps chain names to lists of rules; names that are not mapped do not exist. The commands are those of
`iptables`, each of which either fails (`none`) and changes nothing, or gives the new table. A packet walks through a
chain rule by rule and the first rule that matches and has a verdict decides; a jump walks through the other chain and
comes back when nothing in it decides.

`walkRules_jumps` splits a walk; `attempt` is a command whose failure is ignored.
-/

namespace Lib.Iptables

open List

inductive Verdict
  | accept
  | reject
  deriving DecidableEq

inductive Target (κ : Type)
  | verdict (v : Verdict)
  | jump (chain : κ)
  /-- A target that changes the packet and lets it pass on. -/
  | mangle
  deriving DecidableEq

structure Rule (κ μ : Type) where
  cond : μ
  target : Target κ
  deriving DecidableEq

abbrev Table (κ μ : Type) := κ → Option (List (Rule κ μ))

/-- Run a command; when it fails, nothing changes. -/
def attempt {α : Type} (cmd : α → Option α) (t : α) : α := (cmd t).getD t

namespace Table

section Commands

variable {κ μ : Type} [DecidableEq κ] [DecidableEq μ]

/-- `-N`. -/
def newChain (c : κ) (t : Table κ μ) : Option (Table κ μ) :=
  if t c = none then some (Function.update t c (some [])) else none

/-- `-F`. -/
def flush (c : κ) (t : Table κ μ) : Option (Table κ μ) := (t c).map fun _ => Function.update t c (some [])

def Referenced (t : Table κ μ) (c : κ) : Prop := ∃ d, ∃ r ∈ (t d).getD [], r.target = .jump c

instance [Fintype κ] (t : Table κ μ) (c : κ) : Decidable (t.Referenced c) := inferInstanceAs (Decidable (∃ _, _))

/-- `-X`: only empty chains that no rule jumps to can be deleted. -/
def deleteEmpty [Fintype κ] (c : κ) (t : Table κ μ) : Option (Table κ μ) :=
  if t c = some [] ∧ ¬t.Referenced c then some (Function.update t c none) else none

/-- The chain that a rule jumps to has to exist. -/
def Usable (t : Table κ μ) (r : Rule κ μ) : Prop :=
  match r.target with
  | .jump d => (t d).isSome
  | _ => True

instance (t : Table κ μ) (r : Rule κ μ) : Decidable (t.Usable r) := by
  unfold Usable
  split <;> infer_instance

/-- Change the rules of an existing chain by adding `r` somewhere. -/
def addRule (place : List (Rule κ μ) → List (Rule κ μ)) (c : κ) (r : Rule κ μ) (t : Table κ μ) :
    Option (Table κ μ) :=
  match t c with
  | none => none
  | some rules => if t.Usable r then some (Function.update t c (some (place rules))) else none

/-- `-A`. -/
def append (c : κ) (r : Rule κ μ) : Table κ μ → Option (Table κ μ) := addRule (· ++ [r]) c r

/-- `-I`. -/
def insert (c : κ) (r : Rule κ μ) : Table κ μ → Option (Table κ μ) := addRule (r :: ·) c r

/-- `-C`. -/
def check (c : κ) (r : Rule κ μ) (t : Table κ μ) : Bool := decide (r ∈ (t c).getD [])

/-- `-D` with a rule: the first such rule is deleted. -/
def deleteRule (c : κ) (r : Rule κ μ) (t : Table κ μ) : Option (Table κ μ) :=
  match t c with
  | none => none
  | some rules => if r ∈ rules then some (Function.update t c (some (rules.erase r))) else none

/-- `-D` with the number of a rule, counted from 0. -/
def deleteNumber (c : κ) (n : Nat) (t : Table κ μ) : Option (Table κ μ) :=
  match t c with
  | none => none
  | some rules => if n < rules.length then some (Function.update t c (some (rules.eraseIdx n))) else none

end Commands

/-! ## Walking through chains -/

section Walk

variable {κ μ P : Type} (eval : μ → P → Bool)

/-- The rules of one chain in order; `sub` walks through the chain that a rule jumps to. -/
def walkRules (sub : κ → P → Option Verdict) : List (Rule κ μ) → P → Option Verdict
  | [], _ => none
  | r :: rules, p =>
    if eval r.cond p then
      match r.target with
      | .verdict v => some v
      | .jump c => (sub c p).or (walkRules sub rules p)
      | .mangle => walkRules sub rules p
    else walkRules sub rules p

/-- The verdict of a chain, `none` when it has none; `depth` bounds the nesting of jumps. -/
def walk (t : Table κ μ) : Nat → κ → P → Option Verdict
  | 0, _, _ => none
  | depth + 1, c, p => walkRules eval (walk t depth) ((t c).getD []) p

variable {eval} {sub : κ → P → Option Verdict} {p : P}

@[simp] theorem walkRules_nil : walkRules eval sub [] p = none := rfl

/-- Unconditional jumps try their chains in order. -/
theorem walkRules_jumps (sub : κ → P → Option Verdict) {always : μ} (h : eval always p = true) (cs : List κ) :
    walkRules eval sub (cs.map fun c => ⟨always, .jump c⟩) p = cs.findSome? fun c => sub c p := by
  induction cs with
  | nil => rfl
  | cons c cs ih =>
    rw [map_cons, walkRules, if_pos h, findSome?_cons]
    simp only [ih]
    cases sub c p <;> rfl

/-- The first chain that decides is the same for walks that agree on the chains. -/
theorem findSome?_congr {α β : Type} {f g : α → Option β} :
    ∀ {l : List α}, (∀ a ∈ l, f a = g a) → l.findSome? f = l.findSome? g
  | [], _ => rfl
  | a :: l, h => by
    rw [findSome?_cons, findSome?_cons, h a mem_cons_self, findSome?_congr fun b hb => h b (mem_cons_of_mem _ hb)]

/-- Rules with one verdict decide when one of them matches. -/
theorem walkRules_verdicts {α : Type} (cond : α → μ) (v : Verdict) (l : List α) :
    walkRules eval sub (l.map fun a => ⟨cond a, .verdict v⟩) p = if l.any (fun a => eval (cond a) p) then some v
    else none := by
  induction l with
  | nil => rfl
  | cons a l ih =>
    rw [map_cons, walkRules, any_cons]
    cases h : eval (cond a) p with
    | true => rfl
    | false => exact ih

/-- Rules that do not match decide nothing. -/
theorem walkRules_eq_none {l : List (Rule κ μ)} (h : ∀ r ∈ l, eval r.cond p = false) :
    walkRules eval sub l p = none := by
  induction l with
  | nil => rfl
  | cons r rules ih =>
    rw [walkRules, if_neg (by simp [h r mem_cons_self])]
    exact ih fun s hs => h s (mem_cons_of_mem _ hs)

end Walk

end Table

end Lib.Iptables
