import Mathlib.Order.CompletePartialOrder
import Mathlib.Tactic.Linarith
import Mathlib.Tactic.Positivity

/-!
# Blocks of numbers

`block k v` is the set of the numbers that agree with `v` above the low `k` bits, as the addresses of a network agree in
their prefix.

* Two blocks are nested or disjoint: the smaller one lies in the larger one if one point of it does (`block_subset`),
  and is disjoint from it otherwise (`disjoint_block`).
* An aligned block is an interval (`mem_block_of_dvd`) and the union of its two halves (`block_succ`,
  `disjoint_halves`).
-/

namespace Lib.Blocks

/-! ## Agreement above the low bits -/

section Block

variable {k l u v a : Nat}

def block (k v : Nat) : Set Nat := {a | a / 2 ^ k = v / 2 ^ k}

theorem mem_block : a ∈ block k v ↔ a / 2 ^ k = v / 2 ^ k := Iff.rfl

theorem self_mem_block (k v : Nat) : v ∈ block k v := rfl

/-- Agreement above the low bits is agreement above more of them. -/
theorem mem_block_mono (h : k ≤ l) (ha : a ∈ block k v) : a ∈ block l v := by
  obtain ⟨m, rfl⟩ := Nat.exists_eq_add_of_le h
  rw [mem_block, pow_add, ← Nat.div_div_eq_div_mul, ← Nat.div_div_eq_div_mul, mem_block.mp ha]

theorem block_eq_of_mem (h : v ∈ block k u) : block k v = block k u := by
  ext a
  rw [mem_block, mem_block, mem_block.mp h]

theorem block_subset (h : k ≤ l) (hv : v ∈ block l u) : block k v ⊆ block l u := by
  intro a ha
  rw [← block_eq_of_mem hv]
  exact mem_block_mono h ha

theorem disjoint_block (h : k ≤ l) (hv : v ∉ block l u) : Disjoint (block k v) (block l u) := by
  rw [Set.disjoint_left]
  intro a ha ha'
  refine hv ?_
  rw [← block_eq_of_mem ha']
  exact (mem_block_mono h ha).symm

/-- The number that differs in one of the low bits, and in that one alone. -/
theorem flip_mem_block (h : l < k) (v : Nat) : v ^^^ 2 ^ l ∈ block k v := by
  rw [mem_block, Nat.xor_div_two_pow, Nat.div_eq_of_lt (Nat.pow_lt_pow_right (by decide) h), Nat.xor_zero]

theorem flip_notMem_block (k v : Nat) : v ^^^ 2 ^ k ∉ block k v := by
  rw [mem_block, Nat.xor_div_two_pow, Nat.div_self (by positivity)]
  intro h
  have ho := congrArg (v / 2 ^ k ^^^ ·) h
  simp only [← Nat.xor_assoc, Nat.xor_self, Nat.zero_xor] at ho
  cases ho

/-- An aligned block is the interval that starts at its number. -/
theorem mem_block_of_dvd (hv : 2 ^ k ∣ v) : a ∈ block k v ↔ v ≤ a ∧ a < v + 2 ^ k := by
  rw [mem_block, Nat.div_eq_iff (by positivity), Nat.div_mul_cancel hv]
  omega

/-- The first number of a block. -/
theorem mem_block_floor (k v : Nat) : v / 2 ^ k * 2 ^ k ∈ block k v := Nat.mul_div_cancel _ (by positivity)

theorem floor_le_of_mem (ha : a ∈ block k v) : v / 2 ^ k * 2 ^ k ≤ a := by
  rw [← mem_block.mp ha]
  exact Nat.div_mul_le_self _ _

theorem block_succ (hv : 2 ^ (k + 1) ∣ v) : block (k + 1) v = block k v ∪ block k (v + 2 ^ k) := by
  have hd : 2 ^ k ∣ v := (pow_dvd_pow 2 (Nat.le_succ k)).trans hv
  ext a
  rw [Set.mem_union, mem_block_of_dvd hv, mem_block_of_dvd hd, mem_block_of_dvd (Nat.dvd_add hd dvd_rfl)]
  omega

theorem disjoint_halves (hv : 2 ^ k ∣ v) : Disjoint (block k v) (block k (v + 2 ^ k)) := by
  rw [Set.disjoint_left]
  intro a ha ha'
  rw [mem_block_of_dvd hv] at ha
  rw [mem_block_of_dvd (Nat.dvd_add hv dvd_rfl)] at ha'
  omega

end Block

/-! ## Shortest lists -/

/-- Each set of the first list holds a point of the second list's union, and the sets of the second list lie each in one
of the first: then the points are held by different sets of the second list. -/
theorem length_le_of_absorbs {α ρ σ : Type*} {f : ρ → Set α} {g : σ → Set α} {bs : List ρ} {cs : List σ}
    (hdi : bs.Pairwise fun b b' => Disjoint (f b) (f b')) (hco : ∀ b ∈ bs, ∃ a ∈ f b, ∃ c ∈ cs, a ∈ g c)
    (ha : ∀ c ∈ cs, ∃ b ∈ bs, g c ⊆ f b) : bs.length ≤ cs.length := by
  rcases bs with _ | ⟨b, bs⟩
  · exact Nat.zero_le _
  have hi : Nonempty α ∧ Nonempty σ := by
    obtain ⟨a, _, c, _⟩ := hco b List.mem_cons_self
    exact ⟨⟨a⟩, ⟨c⟩⟩
  obtain ⟨_, _⟩ := hi
  choose! p hp c hc hpc using hco
  have ho : ∀ x ∈ b :: bs, ∀ y ∈ b :: bs, p x ∈ f y → x = y := by
    intro x hx y hy hxy
    by_contra hne
    exact Set.disjoint_left.mp (hdi.forall hx hy hne) (hp x hx) hxy
  have hno : ((b :: bs).map c).Nodup := by
    rw [List.Nodup, List.pairwise_map]
    refine hdi.imp_of_mem fun {x y} hx hy hxy he => ?_
    -- one set holds both points, and lies in one set of the first list
    obtain ⟨z, hz, hsu⟩ := ha _ (hc x hx)
    obtain rfl := ho x hx z hz (hsu (hpc x hx))
    obtain rfl := ho y hy x hx (hsu (he ▸ hpc y hy))
    exact Set.disjoint_left.mp hxy (hp y hy) (hp y hy)
  have hsu : (b :: bs).map c ⊆ cs := by
    intro d hd
    obtain ⟨x, hx, rfl⟩ := List.mem_map.mp hd
    exact hc x hx
  simpa using (hno.subperm hsu).length_le

end Lib.Blocks
