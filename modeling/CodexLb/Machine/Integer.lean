import Mathlib.Algebra.Order.BigOperators.Group.List
import Mathlib.Algebra.Order.Ring.Int

/-!
# Machine integers

Arithmetic on signed integers of a fixed width, by the exact result: a checked
operation gives it or nothing, an unchecked one gives it or panics. A
computation that panics nowhere is its checked operations alone.
-/

namespace Machine

/-! ### Ranges -/

/-- An integer is a value of the signed type of this width. -/
def Fits (width : Nat) (x : Int) : Prop := -2 ^ (width - 1) ≤ x ∧ x < 2 ^ (width - 1)

instance (width : Nat) (x : Int) : Decidable (Fits width x) :=
  inferInstanceAs (Decidable (_ ∧ _))

variable {width : Nat} {a b x : Int}

/-- The values of a type are an interval. -/
theorem Fits.between (ha : Fits width a) (hb : Fits width b) (hax : a ≤ x) (hxb : x ≤ b) :
    Fits width x :=
  ⟨ha.1.trans hax, hxb.trans_lt hb.2⟩

/-- Zero is a value of every type. -/
theorem fits_zero : Fits width 0 := ⟨by simp, by simp⟩

/-- A number that is not negative fits below the upper limit. -/
theorem fits_of_nonneg (hx : 0 ≤ x) : Fits width x ↔ x < 2 ^ (width - 1) := by
  constructor
  · exact And.right
  · intro hlt
    have hzero : Fits width 0 := fits_zero
    exact ⟨hzero.1.trans hx, hlt⟩

/-- The widths of numbers that are not negative add up in their product. -/
theorem mul_lt_two_pow {m n : Nat} (ha : 0 ≤ a) (ham : a < 2 ^ m) (hbn : b < 2 ^ n) :
    a * b < 2 ^ (m + n) :=
  calc a * b ≤ a * 2 ^ n := mul_le_mul_of_nonneg_left hbn.le ha
    _ < 2 ^ m * 2 ^ n := mul_lt_mul_of_pos_right ham (pow_pos (by decide) n)
    _ = 2 ^ (m + n) := (pow_add 2 m n).symm

/-! ### Operations -/

/-- A checked operation with this exact result. -/
def checked (width : Nat) (x : Int) : Option Int := if Fits width x then some x else none

/-- A checked division, which truncates. -/
def checkedDiv (width : Nat) (x y : Int) : Option Int :=
  if y = 0 then none else checked width (x.tdiv y)

/-- The ways in which an operation panics. -/
inductive Panic where
  | overflow
  | assertion
  deriving DecidableEq

/-- An unchecked operation with this exact result. -/
def unchecked (width : Nat) (x : Int) : Except Panic Int :=
  if Fits width x then .ok x else .error .overflow

/-- An assertion. -/
def assertion (p : Prop) [Decidable p] : Except Panic Unit :=
  if p then .ok () else .error .assertion

/-- A checked operation succeeds with the exact result, where it fits. -/
theorem checked_eq_some_iff {v : Int} : checked width x = some v ↔ v = x ∧ Fits width x := by
  unfold checked
  split
  · next h => simp [h, eq_comm]
  · next h => simp [h]

/-- An unchecked operation whose result fits does not panic. -/
theorem unchecked_of_fits (h : Fits width x) : unchecked width x = .ok x := if_pos h

/-- An assertion that holds does not panic. -/
theorem assertion_of {p : Prop} [Decidable p] (h : p) : assertion p = .ok () := if_pos h

/-! ### Sums -/

/-- A sum that is checked after every addition. -/
def checkedSum (width : Nat) (first : Int) (terms : List Int) : Option Int :=
  terms.foldlM (fun sum term ↦ checked width (sum + term)) first

/-- No partial sum of numbers that are not negative overflows unless the whole sum does. -/
theorem checkedSum_eq_some_iff {first v : Int} {terms : List Int} (hfirst : 0 ≤ first)
    (hfits : Fits width first) (hterms : ∀ term ∈ terms, 0 ≤ term) :
    checkedSum width first terms = some v ↔
      v = first + terms.sum ∧ Fits width (first + terms.sum) := by
  induction terms generalizing first with
  | nil => simp [checkedSum, hfits, eq_comm]
  | cons term terms ih =>
    rw [List.forall_mem_cons] at hterms
    have hsum : 0 ≤ first + term := Int.add_nonneg hfirst hterms.1
    have hrest : 0 ≤ terms.sum := List.sum_nonneg hterms.2
    rw [List.sum_cons, ← Int.add_assoc, checkedSum, List.foldlM_cons]
    by_cases hnext : Fits width (first + term)
    · rw [checked, if_pos hnext]
      exact ih hsum hnext hterms.2
    · have hwhole : ¬Fits width (first + term + terms.sum) := by
        intro hwhole
        exact hnext (fits_zero.between hwhole hsum (by omega))
      rw [checked, if_neg hnext]
      simp [hwhole]

/-! ### Computations that panic nowhere -/

/-- A computation that can stop with nothing or panic, made of one that can only stop. -/
def attempt {α : Type} (x : Option α) : OptionT (Except Panic) α := OptionT.mk (.ok x)

/-- Attempts in a row are one attempt. -/
theorem attempt_bind {α β : Type} (x : Option α) (f : α → Option β) :
    (attempt x >>= fun a ↦ attempt (f a)) = attempt (x.bind f) := by
  cases x <;> rfl

/-- A computation that does not panic goes on with its result. -/
theorem ok_bind {ε α β : Type} (x : α) (f : α → Except ε β) : (Except.ok x >>= f) = f x := rfl

end Machine
