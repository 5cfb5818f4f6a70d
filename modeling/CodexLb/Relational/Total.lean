import CodexLb.Relational.Table
import Mathlib.Algebra.BigOperators.Intervals
import Mathlib.Algebra.Order.BigOperators.Group.Finset
import Mathlib.Algebra.Ring.Int.Defs

/-!
# Totals over rows with numbered keys

Rows under keys below a bound, each with a weight. A total changes only where
a row does, so the total after an insertion or an update is the total before
it and one difference.
-/

namespace Relational

open Finset

variable {ρ : Type} {n k : Nat} {w w' : ρ → Int} {rows rows' others others' : Nat → Option ρ}

/-- The weight of the row under a key, zero where there is none. -/
def weight (w : ρ → Int) (rows : Nat → Option ρ) (k : Nat) : Int := ((rows k).map w).getD 0

/-- The sum of the weights of the rows under keys below a bound. -/
def total (w : ρ → Int) (n : Nat) (rows : Nat → Option ρ) : Int :=
  ∑ k ∈ range n, weight w rows k

/-- The weight of a row. -/
theorem weight_of_some {r : ρ} (h : rows k = some r) : weight w rows k = w r := by
  rw [weight, h, Option.map_some, Option.getD_some]

/-- A key without a row has no weight. -/
theorem weight_of_none (h : rows k = none) : weight w rows k = 0 := by
  rw [weight, h, Option.map_none, Option.getD_none]

/-- Totals agree where the weights do. -/
theorem total_congr (h : ∀ k < n, weight w rows k = weight w' rows' k) :
    total w n rows = total w' n rows' := by
  apply sum_congr rfl
  intro k hk
  exact h k (mem_range.mp hk)

/-- Rows of weight zero do not count. -/
theorem total_eq_zero (h : ∀ k < n, weight w rows k = 0) : total w n rows = 0 := by
  apply sum_eq_zero
  intro k hk
  exact h k (mem_range.mp hk)

/-- Weights that are not negative have such a total. -/
theorem total_nonneg (h : ∀ k < n, 0 ≤ weight w rows k) : 0 ≤ total w n rows := by
  apply sum_nonneg
  intro k hk
  exact h k (mem_range.mp hk)

/-- Totals are ordered where the weights are. -/
theorem total_le (h : ∀ k < n, weight w rows' k ≤ weight w rows k) :
    total w n rows' ≤ total w n rows := by
  apply sum_le_sum
  intro k hk
  exact h k (mem_range.mp hk)

/-- The total of two weights is the sum of their totals. -/
theorem total_add (w w' : ρ → Int) (n : Nat) (rows : Nat → Option ρ) :
    total (fun r ↦ w r + w' r) n rows = total w n rows + total w' n rows := by
  rw [total, total, total, ← sum_add_distrib]
  apply sum_congr rfl
  intro k _
  unfold weight
  cases rows k with
  | none => rfl
  | some r => rfl

/-- Two totals together grow at most where two weights together do. -/
theorem total_add_le (h : ∀ k < n, weight w rows' k + weight w' others' k ≤
    weight w rows k + weight w' others k) :
    total w n rows' + total w' n others' ≤ total w n rows + total w' n others := by
  rw [total, total, total, total, ← sum_add_distrib, ← sum_add_distrib]
  apply sum_le_sum
  intro k hk
  exact h k (mem_range.mp hk)

/-- The row under the next key is counted last. -/
theorem total_succ (w : ρ → Int) (n : Nat) (rows : Nat → Option ρ) :
    total w (n + 1) rows = total w n rows + weight w rows n :=
  sum_range_succ _ _

/-- A new row under the next key adds its weight. -/
theorem total_insert {r : ρ} (h : ∀ k, rows' k = if k = n then some r else rows k) :
    total w (n + 1) rows' = total w n rows + w r := by
  have hnew : rows' n = some r := by rw [h, if_pos rfl]
  rw [total_succ, weight_of_some hnew]
  congr 1
  apply total_congr
  intro k hk
  rw [weight, weight, h, if_neg (Nat.ne_of_lt hk)]

/-- Two totals change alike where the weights do. -/
theorem total_sub_congr (h : ∀ k < n, weight w rows' k - weight w rows k =
    weight w others' k - weight w others k) :
    total w n rows' - total w n rows = total w n others' - total w n others := by
  rw [total, total, total, total, ← sum_sub_distrib, ← sum_sub_distrib]
  apply sum_congr rfl
  intro k hk
  exact h k (mem_range.mp hk)

/-- Changing one row changes a total by the difference of its weights. -/
theorem total_change (hk : k < n) (hsame : ∀ j < n, j ≠ k → weight w rows' j = weight w rows j) :
    total w n rows' = total w n rows + (weight w rows' k - weight w rows k) := by
  have hdiff : total w n rows' - total w n rows =
      ∑ j ∈ range n, (weight w rows' j - weight w rows j) := by
    rw [total, total, sum_sub_distrib]
  have hone : ∑ j ∈ range n, (weight w rows' j - weight w rows j) =
      weight w rows' k - weight w rows k := by
    apply sum_eq_single_of_mem k (mem_range.mpr hk)
    intro j hj hne
    rw [hsame j (mem_range.mp hj) hne, sub_self]
  omega

/-- The total over a table is the sum over its rows. -/
theorem total_find (w : ρ → Int) (t : Table Nat ρ) (h : ∀ k r, t.find k = some r → k < n) :
    total w n t.find = (t.rows.map fun row ↦ w row.2).sum := by
  obtain ⟨rows, hdistinct⟩ := t
  change total w n (fun k ↦ rows.lookup k) = (rows.map fun row ↦ w row.2).sum
  change ∀ k r, rows.lookup k = some r → k < n at h
  induction rows with
  | nil =>
    apply total_eq_zero
    intro k _
    exact weight_of_none rfl
  | cons row rows ih =>
    rw [List.map_cons, List.nodup_cons] at hdistinct
    have hhit : (row :: rows).lookup row.1 = some row.2 := List.lookup_cons_self
    have hmiss : rows.lookup row.1 = none := by
      rw [List.lookup_eq_none_iff]
      intro other hother
      have hne : row.1 ≠ other.1 := by
        intro he
        exact hdistinct.1 (List.mem_map.mpr ⟨other, hother, he.symm⟩)
      exact bne_iff_ne.mpr hne
    have hother : ∀ k, k ≠ row.1 → (row :: rows).lookup k = rows.lookup k := by
      intro k hk
      rw [List.lookup_cons, beq_eq_false_iff_ne.mpr hk]
    have hrest : ∀ k r, rows.lookup k = some r → k < n := by
      intro k r hk
      by_cases he : k = row.1
      · rw [he, hmiss] at hk
        cases hk
      · exact h k r ((hother k he).trans hk)
    have hchange : total w n (fun k ↦ (row :: rows).lookup k) =
        total w n (fun k ↦ rows.lookup k) +
          (weight w (fun k ↦ (row :: rows).lookup k) row.1 -
            weight w (fun k ↦ rows.lookup k) row.1) := by
      apply total_change (h row.1 row.2 hhit)
      intro k _ hk
      rw [weight, weight, hother k hk]
    rw [hchange, weight_of_some hhit, weight_of_none hmiss, ih hdistinct.2 hrest, List.map_cons,
      List.sum_cons]
    omega

end Relational
