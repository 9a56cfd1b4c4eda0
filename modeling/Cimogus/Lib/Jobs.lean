/-!
# Jobs

Cooperative jobs with ids. A job is launched, stops at suspension points, where it stands for whatever comes next
(`body`), and completes. Cancelling only marks it: it goes on being active until it is resumed, finds the mark and
completes. Waiting for a job means waiting until it is no longer active; a job that was never launched, or that is
complete, is not.
-/

namespace Lib

variable {β : Type}

structure Job (β : Type) where
  id : Nat
  body : β
  cancelled : Bool
  deriving DecidableEq

/-- The jobs that are not complete, the newest first. -/
structure Jobs (β : Type) where
  active : List (Job β)
  /-- The id of the next job. -/
  launched : Nat
  fresh : ∀ j ∈ active, j.id < launched

namespace Jobs

def empty : Jobs β := ⟨[], 0, nofun⟩

def get? (i : Nat) (js : Jobs β) : Option (Job β) := js.active.find? (·.id = i)

def isActive (i : Nat) (js : Jobs β) : Bool := (js.get? i).isSome

def launch (body : β) (js : Jobs β) : Jobs β where
  active := ⟨js.launched, body, false⟩ :: js.active
  launched := js.launched + 1
  fresh j hj := by
    rcases List.mem_cons.mp hj with rfl | hj
    · exact Nat.lt_succ_self _
    · exact Nat.lt_succ_of_lt (js.fresh j hj)

def complete (i : Nat) (js : Jobs β) : Jobs β where
  active := js.active.filter (·.id ≠ i)
  launched := js.launched
  fresh j hj := js.fresh j ((List.mem_filter.mp hj).1)

/-- The job of the id is changed, if it is active. -/
def update (i : Nat) (f : Job β → Job β) (hf : ∀ j, (f j).id = j.id) (js : Jobs β) : Jobs β where
  active := js.active.map fun j => if j.id = i then f j else j
  launched := js.launched
  fresh j hj := by
    obtain ⟨k, hk, rfl⟩ := List.mem_map.mp hj
    split
    · rw [hf]
      exact js.fresh k hk
    · exact js.fresh k hk

def moveTo (i : Nat) (body : β) : Jobs β → Jobs β := update i (fun j => { j with body }) fun _ => rfl

def cancel (i : Nat) : Jobs β → Jobs β := update i (fun j => { j with cancelled := true }) fun _ => rfl

variable (i : Nat) (js : Jobs β)

variable (body : β)

@[simp] theorem active_launch : (js.launch body).active = ⟨js.launched, body, false⟩ :: js.active := rfl

@[simp] theorem launched_launch : (js.launch body).launched = js.launched + 1 := rfl

@[simp] theorem active_complete : (js.complete i).active = js.active.filter (·.id ≠ i) := rfl

@[simp] theorem launched_complete : (js.complete i).launched = js.launched := rfl

@[simp] theorem active_moveTo :
    (js.moveTo i body).active = js.active.map fun j => if j.id = i then { j with body } else j := rfl

@[simp] theorem launched_moveTo : (js.moveTo i body).launched = js.launched := rfl

@[simp] theorem active_cancel :
    (js.cancel i).active = js.active.map fun j => if j.id = i then { j with cancelled := true } else j := rfl

@[simp] theorem launched_cancel : (js.cancel i).launched = js.launched := rfl

variable {i} {js}

variable {j : Job β}

theorem mem_of_get? (h : js.get? i = some j) : j ∈ js.active := List.mem_of_find?_eq_some h

theorem id_of_get? (h : js.get? i = some j) : j.id = i := by simpa using List.find?_some h

theorem get?_one (h : js.active = [j]) : js.get? i = if j.id = i then some j else none := by
  rw [get?, h, List.find?_singleton]
  simp only [decide_eq_true_eq]

theorem get?_two {j j' : Job β} (h : js.active = [j, j']) :
    js.get? i = if j.id = i then some j else if j'.id = i then some j' else none := by
  rw [get?, h, List.find?_cons]
  by_cases hj : j.id = i
  · simp [hj]
  · simp [hj]

end Jobs

end Lib
