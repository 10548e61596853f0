import Mathlib.Data.List.Basic
import Mathlib.Data.List.Induction
import Mathlib.Tactic.Common

/-!
# Vectors that grow

A vector keeps its elements in a block of cells. A size past its capacity moves the elements to
a fresh block, and the cells of the blocks before hold them no more. How large the fresh block
is, is up to a policy.
-/

set_option autoImplicit false

namespace CloudStore.Library

/-- The capacity of the block for a larger size, from the old size and the new one. -/
structure Growth where
  capacity : ℕ → ℕ → ℕ
  fits : ∀ size n, n ≤ capacity size n

/-- The policy of doubling: a vector has at least twice its old size, and no more than that or the
new one. -/
def Growth.doubling : Growth where
  capacity size n := max (2 * size) n
  fits size n := Nat.le_max_right (2 * size) n

/-- A vector, with the number of its present block. -/
structure GrowingVector (α : Type) where
  items : List α := []
  cap : ℕ := 0
  block : ℕ := 0

/-- The size, the capacity and the block of a vector. -/
structure VectorShape where
  size : ℕ := 0
  cap : ℕ := 0
  block : ℕ := 0

namespace VectorShape

/-- The shape behind `if (v.size() < n) v.resize(n)`. -/
def cover (g : Growth) (s : VectorShape) (n : ℕ) : VectorShape :=
  if n ≤ s.size then s
  else if n ≤ s.cap then { s with size := n }
  else { size := n, cap := g.capacity s.size n, block := s.block + 1 }

/-- The shape of a vector that has covered some sizes, one after the other. -/
def covers (g : Growth) (ns : List ℕ) : VectorShape := ns.foldl (cover g) {}

variable {g : Growth} {s : VectorShape} {n : ℕ}

theorem cover_fits (h : s.size ≤ s.cap) : (s.cover g n).size ≤ (s.cover g n).cap := by
  unfold cover
  split
  · exact h
  split
  next hcap => exact hcap
  · exact g.fits s.size n

theorem cover_within (hcap : n ≤ s.cap) :
    (s.cover g n).cap = s.cap ∧ (s.cover g n).block = s.block := by
  unfold cover
  rw [if_pos hcap]
  split
  · exact ⟨rfl, rfl⟩
  · exact ⟨rfl, rfl⟩

theorem cover_past (h : s.size ≤ s.cap) (hcap : s.cap < n) :
    (s.cover g n).block = s.block + 1 := by
  unfold cover
  rw [if_neg (by omega), if_neg (by omega)]

theorem covers_append (ns ms : List ℕ) : covers g (ns ++ ms) = ms.foldl (cover g) (covers g ns) :=
  List.foldl_append

theorem covers_fits (ns : List ℕ) : (covers g ns).size ≤ (covers g ns).cap := by
  unfold covers
  induction ns using List.reverseRecOn with
  | nil => exact Nat.le_refl 0
  | append_singleton ns n ih =>
      rw [List.foldl_append]
      exact cover_fits ih

theorem cover_size : (s.cover g n).size = max s.size n := by
  unfold cover
  split
  · omega
  · split <;> dsimp only <;> omega

theorem covers_size_le {ns : List ℕ} (h : ∀ m ∈ ns, m ≤ n) : (covers g ns).size ≤ n := by
  unfold covers
  induction ns using List.reverseRecOn with
  | nil => exact Nat.zero_le n
  | append_singleton ns m ih =>
      rw [List.foldl_append, List.foldl_cons, List.foldl_nil, cover_size]
      have hall := ih fun k hk => h k (List.mem_append_left [m] hk)
      have hm := h m (by simp)
      omega

theorem block_le_foldl (h : s.size ≤ s.cap) (ms : List ℕ) :
    s.block ≤ (ms.foldl (cover g) s).block := by
  induction ms generalizing s with
  | nil => exact Nat.le_refl _
  | cons m ms ih =>
      apply Nat.le_trans _ (ih (cover_fits h))
      by_cases hcap : m ≤ s.cap
      · exact Nat.le_of_eq (cover_within hcap).2.symm
      · rw [cover_past h (by omega)]
        omega

/-- **A vector stays in its block** as long as no size exceeds its capacity. -/
theorem block_eq_iff (h : s.size ≤ s.cap) (ms : List ℕ) :
    (ms.foldl (cover g) s).block = s.block ↔ ∀ m ∈ ms, m ≤ s.cap := by
  induction ms generalizing s with
  | nil => simp
  | cons m ms ih =>
      rw [List.foldl_cons, List.forall_mem_cons]
      by_cases hcap : m ≤ s.cap
      · obtain ⟨hsame, hblock⟩ := @cover_within g s m hcap
        rw [← hblock, ih (cover_fits h), hsame]
        exact (and_iff_right hcap).symm
      · have hpast := @cover_past g s m h (by omega)
        have hle := @block_le_foldl g (s.cover g m) (cover_fits h) ms
        exact iff_of_false (by omega) fun hall => hcap hall.1

end VectorShape

namespace GrowingVector

variable {α : Type}

def shape (v : GrowingVector α) : VectorShape :=
  { size := v.items.length, cap := v.cap, block := v.block }

/-- `resize(n, x)`. -/
def resize (g : Growth) (v : GrowingVector α) (n : ℕ) (x : α) : GrowingVector α :=
  if n ≤ v.items.length then { v with items := v.items.take n }
  else if n ≤ v.cap then { v with items := v.items ++ List.replicate (n - v.items.length) x }
  else
    { items := v.items ++ List.replicate (n - v.items.length) x
      cap := g.capacity v.items.length n
      block := v.block + 1 }

/-- `if (v.size() < n) v.resize(n, x)`. -/
def cover (g : Growth) (v : GrowingVector α) (n : ℕ) (x : α) : GrowingVector α :=
  if v.items.length < n then v.resize g n x else v

/-- Change an element. -/
def modify (v : GrowingVector α) (i : ℕ) (f : α → α) : GrowingVector α :=
  { v with items := v.items.modify i f }

/-- What the cell of a block holds. -/
def cell (v : GrowingVector α) (block i : ℕ) : Option α :=
  if block = v.block then v.items[i]? else none

/-- Write to a cell of a block. -/
def store (v : GrowingVector α) (block i : ℕ) (x : α) : GrowingVector α :=
  if block = v.block then { v with items := v.items.set i x } else v

variable {g : Growth} {v : GrowingVector α} {n i : ℕ} {x : α}

theorem cover_shape : (v.cover g n x).shape = v.shape.cover g n := by
  unfold cover shape VectorShape.cover
  by_cases hsize : v.items.length < n
  · rw [if_pos hsize, if_neg (show ¬ n ≤ v.items.length by omega)]
    unfold resize
    rw [if_neg (show ¬ n ≤ v.items.length by omega)]
    by_cases hcap : n ≤ v.cap
    · rw [if_pos hcap, if_pos hcap]
      simp only [List.length_append, List.length_replicate, VectorShape.mk.injEq, and_true]
      omega
    · rw [if_neg hcap, if_neg hcap]
      simp only [List.length_append, List.length_replicate, VectorShape.mk.injEq, and_true]
      omega
  · rw [if_neg hsize, if_pos (show n ≤ v.items.length by omega)]

/-- A larger size leaves the elements and puts default ones behind. -/
theorem cover_items : (v.cover g n x).items =
    v.items ++ List.replicate (n - v.items.length) x := by
  unfold cover
  by_cases hsize : v.items.length < n
  · rw [if_pos hsize]
    unfold resize
    rw [if_neg (show ¬ n ≤ v.items.length by omega)]
    split <;> rfl
  · rw [if_neg hsize, show n - v.items.length = 0 by omega]
    simp

theorem cover_getElem? (hi : i < v.items.length) : (v.cover g n x).items[i]? = v.items[i]? := by
  rw [cover_items]
  exact List.getElem?_append_left hi

theorem cover_default (hi : v.items.length ≤ i) (hn : i < n) :
    (v.cover g n x).items[i]? = some x := by
  rw [cover_items, List.getElem?_append_right hi, List.getElem?_replicate, if_pos (by omega)]

@[simp] theorem modify_shape (f : α → α) : (v.modify i f).shape = v.shape := by
  simp [modify, shape]

@[simp] theorem store_shape (block : ℕ) : (v.store block i x).shape = v.shape := by
  unfold store
  split <;> simp [shape]

theorem modify_getElem?_ne {j : ℕ} (f : α → α) (h : i ≠ j) :
    (v.modify i f).items[j]? = v.items[j]? := by
  simp [modify, h]

theorem modify_getElem? (f : α → α) : (v.modify i f).items[i]? = v.items[i]?.map f := by
  simp [modify]

end GrowingVector

end CloudStore.Library
