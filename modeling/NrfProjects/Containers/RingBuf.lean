import Mathlib.Data.Nat.Notation

/-! # Bounded first-in first-out buffers -/

namespace Containers
set_option autoImplicit false

structure RingBuf (α : Type) (capacity : ℕ) where
  contents : List α
  length_le : contents.length ≤ capacity

namespace RingBuf
variable {α : Type} {capacity : ℕ}

def empty : RingBuf α capacity := ⟨[], Nat.zero_le _⟩

def space (b : RingBuf α capacity) : ℕ := capacity - b.contents.length

/-- As many of the elements as there is space for. -/
def put (b : RingBuf α capacity) (xs : List α) : RingBuf α capacity where
  contents := b.contents ++ xs.take b.space
  length_le := by
    have hb := b.length_le
    rw [List.length_append, List.length_take, space]
    omega

/-- What a `put` stores of the elements. -/
def stored (b : RingBuf α capacity) (xs : List α) : ℕ := min xs.length b.space

def get (b : RingBuf α capacity) (n : ℕ) : List α := b.contents.take n

def rest (b : RingBuf α capacity) (n : ℕ) : RingBuf α capacity where
  contents := b.contents.drop n
  length_le := by
    have hb := b.length_le
    rw [List.length_drop]
    omega

theorem length_add_space (b : RingBuf α capacity) : b.contents.length + b.space = capacity := by
  have hb := b.length_le
  unfold space
  omega

theorem space_eq_zero {b : RingBuf α capacity} : b.space = 0 ↔ b.contents.length = capacity := by
  have hb := b.length_add_space
  omega

/-- What fits is stored as a whole. -/
theorem contents_put {b : RingBuf α capacity} {xs : List α} (h : xs.length ≤ b.space) :
    (b.put xs).contents = b.contents ++ xs := by
  show b.contents ++ xs.take b.space = b.contents ++ xs
  rw [List.take_of_length_le h]

theorem stored_of_fits {b : RingBuf α capacity} {xs : List α} (h : xs.length ≤ b.space) :
    b.stored xs = xs.length :=
  Nat.min_eq_left h

theorem get_append_rest (b : RingBuf α capacity) (n : ℕ) :
    b.get n ++ (b.rest n).contents = b.contents :=
  List.take_append_drop n b.contents

theorem length_get_le (b : RingBuf α capacity) (n : ℕ) : (b.get n).length ≤ n :=
  List.length_take_le n b.contents

theorem get_eq_nil {b : RingBuf α capacity} {n : ℕ} (hn : n ≠ 0) :
    b.get n = [] ↔ b.contents = [] := by
  rw [get, List.take_eq_nil_iff]
  exact or_iff_right hn

end RingBuf
end Containers
