import Mathlib.Data.List.Pairwise

/-!
# JSON values

Values, objects and what is read from them, with the conversions that never fail: a member that is not there, or is of
another type, reads as the default of the type that is asked for.

* `Object.value_insert`: what an object has for a key after an insertion.
* `Object.value_insertAll_of_mem`: what it has after several for different keys.
* `valueAt_setPaths_of_mem`: what is at a path after values were set at several that part.
-/

namespace Lib

open List

/-- The members of an object are in the order of their insertion, which nothing that reads them depends on. -/
inductive Json
  | null
  | bool (b : Bool)
  | num (x : Rat)
  | str (s : String)
  | arr (items : List Json)
  | obj (members : List (String × Json))

variable (o : Object)

namespace Json

/-! ## Equality -/

mutual

def beq : Json → Json → Bool
  | .null, .null => true
  | .bool a, .bool b => a == b
  | .num a, .num b => a == b
  | .str a, .str b => a == b
  | .arr a, .arr b => beqItems a b
  | .obj a, .obj b => beqMembers a b
  | _, _ => false

def beqItems : List Json → List Json → Bool
  | [], [] => true
  | a :: as, b :: bs => beq a b && beqItems as bs
  | _, _ => false

def beqMembers : List (String × Json) → List (String × Json) → Bool
  | [], [] => true
  | (k, a) :: as, (l, b) :: bs => k == l && beq a b && beqMembers as bs
  | _, _ => false

end

mutual

theorem beq_iff : ∀ a b : Json, beq a b = true ↔ a = b
  | .null, b => by cases b <;> simp [beq]
  | .bool _, b => by cases b <;> simp [beq]
  | .num _, b => by cases b <;> simp [beq]
  | .str _, b => by cases b <;> simp [beq]
  | .arr as, b => by cases b <;> simp [beq, beqItems_iff as]
  | .obj as, b => by cases b <;> simp [beq, beqMembers_iff as]

theorem beqItems_iff : ∀ as bs : List Json, beqItems as bs = true ↔ as = bs
  | [], bs => by cases bs <;> simp [beqItems]
  | a :: as, bs => by cases bs <;> simp [beqItems, beq_iff a, beqItems_iff as]

theorem beqMembers_iff : ∀ as bs : List (String × Json), beqMembers as bs = true ↔ as = bs
  | [], bs => by cases bs <;> simp [beqMembers]
  | (k, a) :: as, bs => by
    rcases bs with _ | ⟨⟨l, b⟩, bs⟩ <;> simp [beqMembers, beq_iff a, beqMembers_iff as]

end

instance : DecidableEq Json := fun a b => decidable_of_iff (beq a b = true) (beq_iff a b)

/-- A string literal, from what is between its quotes. -/
def inQuotes (s : List Char) : List Char := '"' :: (s ++ ['"'])

/-! ## Objects -/

abbrev Object := List (String × Json)

/-- A value that is read; `none` is an undefined one. -/
abbrev Value := Option Json

namespace Object

def value (o : Object) (key : String) : Value := o.lookup key

def contains (o : Object) (key : String) : Bool := (o.value key).isSome

def set (key : String) (v : Json) : Object → Object
  | [] => [(key, v)]
  | (k, w) :: rest => if k = key then (key, v) :: rest else (k, w) :: set key v rest

def remove (o : Object) (key : String) : Object := o.filter fun member => member.1 ≠ key

/-- An undefined value removes the member. -/
def insert (o : Object) (key : String) : Value → Object
  | some v => o.set key v
  | none => o.remove key

def insertAll (o : Object) (members : List (String × Value)) : Object :=
  members.foldl (fun o member => o.insert member.1 member.2) o

@[simp] theorem value_nil (key : String) : value [] key = none := rfl

variable (k key : String)

theorem value_cons (v : Json) (o : Object) : value ((k, v) :: o) key = if key = k then some v else value o key := by
  unfold value
  by_cases h : key = k
  · simp [h]
  · rw [lookup_cons, beq_eq_false_iff_ne.mpr h, if_neg h]

theorem value_set (v : Json) : (o.set k v).value key = if key = k then some v else o.value key := by
  induction o with
  | nil => rw [set, value_cons]
  | cons member rest ih =>
    obtain ⟨l, w⟩ := member
    rw [set]
    split
    · rename_i hl
      subst hl
      rw [value_cons, value_cons]
      split <;> rfl
    · rename_i hl
      rw [value_cons, value_cons, ih]
      by_cases hkey : key = l
      · simp [hkey, hl]
      · simp [hkey]

theorem set_self {o : Object} {key : String} {v : Json} (h : o.value key = some v) : o.set key v = o := by
  induction o with
  | nil => cases h
  | cons member rest ih =>
    obtain ⟨k, w⟩ := member
    rw [value_cons] at h
    rw [set]
    by_cases hk : k = key
    · rw [if_pos hk.symm, Option.some.injEq] at h
      rw [if_pos hk, hk, h]
    · rw [if_neg (Ne.symm hk)] at h
      rw [if_neg hk, ih h]

theorem value_remove : (o.remove k).value key = if key = k then none else o.value key := by
  induction o with
  | nil => simp [remove]
  | cons member rest ih =>
    obtain ⟨l, w⟩ := member
    unfold remove at ih ⊢
    by_cases hl : l = k
    · subst hl
      rw [filter_cons_of_neg (by simp), ih, value_cons]
      by_cases hkey : key = l <;> simp [hkey]
    · rw [filter_cons_of_pos (by simpa using hl), value_cons, ih, value_cons]
      by_cases hkey : key = l
      · simp [hkey, hl]
      · simp [hkey]

@[simp] theorem value_insert (v : Value) : (o.insert k v).value key = if key = k then v else o.value key := by
  cases v with
  | none => exact value_remove o k key
  | some v => exact value_set o k key v

@[simp] theorem insertAll_cons (k : String) (v : Value) (members : List (String × Value)) :
    o.insertAll ((k, v) :: members) = (o.insert k v).insertAll members := rfl

theorem value_insertAll_of_notMem {members : List (String × Value)} {key : String} (h : key ∉ members.map Prod.fst) :
    (o.insertAll members).value key = o.value key := by
  induction members generalizing o with
  | nil => rfl
  | cons member members ih =>
    simp only [map_cons, mem_cons, not_or] at h
    rw [insertAll_cons, ih _ h.2, value_insert, if_neg h.1]

theorem value_insertAll_of_mem {members : List (String × Value)} {key : String} {v : Value}
    (hno : (members.map Prod.fst).Nodup) (hm : (key, v) ∈ members) : (o.insertAll members).value key = v := by
  induction members generalizing o with
  | nil => cases hm
  | cons member members ih =>
    rw [map_cons, nodup_cons] at hno
    rw [insertAll_cons]
    rcases mem_cons.mp hm with heq | hm
    · cases heq
      rw [value_insertAll_of_notMem _ hno.1, value_insert, if_pos rfl]
    · exact ih _ hno.2 hm

end Object

/-! ## Conversions -/

namespace Value

def text? : Value → Option String
  | some (.str s) => some s
  | _ => none

def toText (v : Value) : String := v.text?.getD ""

/-- The number, if the value is an `int`. -/
def toInt (v : Value) (d : Int := 0) : Int :=
  match v with
  | some (.num x) => if x.den = 1 ∧ -2147483648 ≤ x.num ∧ x.num ≤ 2147483647 then x.num else d
  | _ => d

def toArray : Value → List Json
  | some (.arr items) => items
  | _ => []

def toObject : Value → Object
  | some (.obj members) => members
  | _ => []

@[simp] theorem text?_str (s : String) : text? (some (.str s)) = some s := rfl

@[simp] theorem toText_str (s : String) : toText (some (.str s)) = s := rfl

@[simp] theorem toText_none : toText none = "" := rfl

@[simp] theorem toArray_none : toArray none = [] := rfl

@[simp] theorem toObject_none : toObject none = [] := rfl

@[simp] theorem toArray_arr (items : List Json) : toArray (some (.arr items)) = items := rfl

@[simp] theorem toObject_obj (members : Object) : toObject (some (.obj members)) = members := rfl

theorem toInt_num {n : Int} (h : -2147483648 ≤ n ∧ n ≤ 2147483647) : toInt (some (.num n)) = n := by
  simp [toInt, h]

variable {v : Value}

theorem text?_eq_toText (h : v.text?.isSome) : v.text? = some v.toText := by
  obtain ⟨s, hs⟩ := Option.isSome_iff_exists.mp h
  rw [toText, hs]
  rfl

theorem eq_str_of_toText_ne (h : v.toText ≠ "") : v = some (.str v.toText) := by
  match v with
  | some (.str _) => rfl
  | none | some .null | some (.bool _) | some (.num _) | some (.arr _) | some (.obj _) => exact absurd rfl h

theorem eq_obj_of_toObject_ne (h : v.toObject ≠ []) : v = some (.obj v.toObject) := by
  match v with
  | some (.obj _) => rfl
  | none | some .null | some (.bool _) | some (.num _) | some (.arr _) | some (.str _) => exact absurd rfl h

end Value

/-! ## Paths -/

inductive PathKey
  | key (k : String)
  | index (i : Nat)
  deriving DecidableEq

/-- The value at a path is replaced; what is in the way and is no object or array becomes one. -/
def setPath (v : Json) : List PathKey → Value → Json
  | [], _ => v
  | .key k :: path, node => .obj (node.toObject.set k (setPath v path (node.toObject.value k)))
  | .index i :: path, node =>
    let items := node.toArray
    .arr ((items ++ List.replicate (i + 1 - items.length) Json.null).set i (setPath v path items[i]?))

def Object.setPaths (o : Object) (values : List (List PathKey × Json)) : Object :=
  values.foldl (fun o value => Value.toObject (some (setPath value.2 value.1 (some (.obj o))))) o

def valueAt : List PathKey → Value → Value
  | [], v => v
  | .key k :: path, v => valueAt path (v.toObject.value k)
  | .index i :: path, v => valueAt path v.toArray[i]?

/-- Two paths part at a key: what is set at the one is not on the way of the other. -/
def diverges : List PathKey → List PathKey → Bool
  | .key k :: path, .key l :: path' => k ≠ l || diverges path path'
  | .index i :: path, .index j :: path' => i = j && diverges path path'
  | _, _ => false

/-- The items of an array that is made long enough for an index. -/
theorem getElem?_set_replicate (items : List Json) (i : Nat) (v : Json) :
    ((items ++ List.replicate (i + 1 - items.length) Json.null).set i v)[i]? = some v := by
  refine getElem?_set_self ?_
  rw [length_append, length_replicate]
  omega

theorem valueAt_setPath (v : Json) (path : List PathKey) (node : Value) :
    valueAt path (some (setPath v path node)) = some v := by
  induction path generalizing node with
  | nil => rfl
  | cons step path ih =>
    cases step with
    | key k => rw [setPath, valueAt, Value.toObject_obj, Object.value_set, if_pos rfl, ih]
    | index i => rw [setPath, valueAt, Value.toArray_arr, getElem?_set_replicate, ih]

theorem valueAt_setPath_of_diverges {path path' : List PathKey} (h : diverges path path' = true) (v : Json)
    (node : Value) :
    valueAt path (some (setPath v path' node)) = valueAt path node := by
  induction path generalizing path' node with
  | nil => simp [diverges] at h
  | cons step path ih =>
    match step, path', h with
    | .key k, .key l :: path', h =>
      rw [setPath, valueAt, valueAt, Value.toObject_obj, Object.value_set]
      by_cases hk : k = l
      · subst hk
        rw [if_pos rfl, ih (by simpa [diverges] using h)]
      · rw [if_neg hk]
    | .index i, .index j :: path', h =>
      obtain ⟨hi, hrest⟩ : i = j ∧ diverges path path' = true := by simpa [diverges] using h
      rw [setPath, valueAt, valueAt, Value.toArray_arr, hi, getElem?_set_replicate, ih hrest]

theorem Object.setPaths_cons (path : List PathKey) (k : String) (v : Json) (values : List (List PathKey × Json)) :
    o.setPaths ((.key k :: path, v) :: values) = Object.setPaths (o.set k (setPath v path (o.value k))) values := rfl

/-- What is at a path after values were set at others. -/
theorem valueAt_setPaths_of_diverges {values : List (List PathKey × Json)} {k : String} {path : List PathKey}
    (h : ∀ value ∈ values, diverges (.key k :: path) value.1 = true) (o : Object) :
    valueAt (.key k :: path) (some (.obj (o.setPaths values))) = valueAt (.key k :: path) (some (.obj o)) := by
  induction values generalizing o with
  | nil => rfl
  | cons value values ih =>
    obtain ⟨hv, hva⟩ := forall_mem_cons.mp h
    match value, hv with
    | (.key l :: path', v), hv =>
      rw [Object.setPaths_cons, ih hva]
      exact valueAt_setPath_of_diverges hv v (some (.obj o))

/-- **Values that are set at different places are all there.** -/
theorem valueAt_setPaths_of_mem {values : List (List PathKey × Json)} {k : String} {path : List PathKey} {v : Json}
    (hp : (values.map Prod.fst).Pairwise (diverges · · = true)) (hm : (.key k :: path, v) ∈ values) (o : Object) :
    valueAt (.key k :: path) (some (.obj (o.setPaths values))) = some v := by
  induction values generalizing o with
  | nil => cases hm
  | cons value values ih =>
    rw [map_cons, pairwise_cons] at hp
    rcases mem_cons.mp hm with rfl | hm
    · rw [Object.setPaths_cons, valueAt_setPaths_of_diverges fun value hv =>
        hp.1 value.1 (mem_map_of_mem hv)]
      exact valueAt_setPath v (.key k :: path) (some (.obj o))
    · exact ih hp.2 hm _

/-- To part is symmetric. -/
theorem diverges_comm (path path' : List PathKey) : diverges path path' = diverges path' path := by
  induction path generalizing path' with
  | nil => cases path' <;> simp [diverges]
  | cons step path ih =>
    cases path' with
    | nil => simp [diverges]
    | cons step' path' => cases step <;> cases step' <;> simp [diverges, ih path', eq_comm]

instance : Std.Symm fun path path' => diverges path path' = true := ⟨fun path path' h => by rwa [diverges_comm]⟩

theorem valueAt_none (path : List PathKey) : valueAt path none = none := by
  induction path with
  | nil => rfl
  | cons step path ih => cases step <;> exact ih

/-- Nothing else is there: what is at one of several paths that part is the value that was set at it. -/
theorem valueAt_setPaths_iff {paths : List (List PathKey)} {values : List (List PathKey × Json)} {k : String}
    {path : List PathKey} {v : Json} (hp : paths.Pairwise (diverges · · = true))
    (hs : (values.map Prod.fst).Sublist paths) (hk : .key k :: path ∈ paths) :
    valueAt (.key k :: path) (some (.obj (Object.setPaths [] values))) = some v ↔ (.key k :: path, v) ∈ values := by
  have hset {w : Json} (hm : (.key k :: path, w) ∈ values) := valueAt_setPaths_of_mem (hp.sublist hs) hm []
  refine ⟨fun hv => ?_, hset⟩
  by_cases hm : .key k :: path ∈ values.map Prod.fst
  · obtain ⟨⟨q, w⟩, hw, rfl⟩ := mem_map.mp hm
    rwa [Option.some.inj (hv.symm.trans (hset hw))]
  · have hnone := valueAt_setPaths_of_diverges (fun value hv => hp.forall hk (hs.subset (mem_map_of_mem hv))
      fun heq => hm (heq ▸ mem_map_of_mem hv)) []
    exact absurd ((valueAt_none path).symm.trans (hnone.symm.trans hv)) (by simp)

/-! ## Arrays -/

theorem map_str_inj {l l' : List String} : l.map Json.str = l'.map Json.str ↔ l = l' :=
  List.map_inj_right fun _ _ => Json.str.inj

/-- Reading the elements of an array, all of which can be read. -/
theorem mapM_eq_some {α β : Type} {f : α → Option β} {g : α → β} {l : List α}
    (h : ∀ a ∈ l, f a = some (g a)) :
    l.mapM f = some (l.map g) := by
  induction l with
  | nil => rfl
  | cons a l ih =>
    rw [mapM_cons, h a mem_cons_self, ih fun b hb => h b (mem_cons_of_mem _ hb)]
    rfl

end Json

end Lib
