import Mathlib.Data.List.Basic

/-!
# Slices

Slices of a sequence by their bounds, as a program takes them: bounds out of
order or beyond the end panic, and so do a difference below zero and a copy
between slices of different lengths.
-/

namespace Machine

variable {α : Type} {items source : List α} {start stop a b : Nat}

/-- The ways in which an operation on slices panics. -/
inductive SlicePanic where
  | outOfBounds
  | lengthMismatch
  | underflow
  deriving DecidableEq

/-- A difference of two lengths. -/
def difference (a b : Nat) : Except SlicePanic Nat :=
  if b ≤ a then .ok (a - b) else .error .underflow

/-- The items from one index to another. -/
def slice (items : List α) (start stop : Nat) : Except SlicePanic (List α) :=
  if start ≤ stop ∧ stop ≤ items.length then .ok ((items.take stop).drop start)
  else .error .outOfBounds

/-- The items with a copy of others from one index to another. -/
def copyFromSlice (items : List α) (start stop : Nat) (source : List α) :
    Except SlicePanic (List α) :=
  if start ≤ stop ∧ stop ≤ items.length then
    if source.length = stop - start then .ok (items.take start ++ source ++ items.drop stop)
    else .error .lengthMismatch
  else .error .outOfBounds

/-- A difference that is not below zero does not panic. -/
theorem difference_of_le (h : b ≤ a) : difference a b = .ok (a - b) := if_pos h

/-- A slice from the start does not panic within the bounds. -/
theorem slice_zero (h : stop ≤ items.length) : slice items 0 stop = .ok (items.take stop) := by
  rw [slice, if_pos ⟨Nat.zero_le stop, h⟩, List.drop_zero]

/-- A slice to the end does not panic within the bounds. -/
theorem slice_length (h : start ≤ items.length) :
    slice items start items.length = .ok (items.drop start) := by
  rw [slice, if_pos ⟨h, Nat.le_refl _⟩, List.take_length]

/-- A copy into the bounds does not panic where the lengths agree. -/
theorem copyFromSlice_of_length (hlength : start + source.length = stop)
    (h : stop ≤ items.length) :
    copyFromSlice items start stop source =
      .ok (items.take start ++ source ++ items.drop stop) := by
  rw [copyFromSlice, if_pos (by omega), if_pos (by omega)]

end Machine
