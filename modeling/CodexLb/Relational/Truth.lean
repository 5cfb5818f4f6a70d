import Mathlib.Data.Option.Basic

/-!
# Conditions of three truth values

The conditions of `WHERE` and `EXISTS` over nullable columns: a comparison
with `NULL` is unknown, the connectives are Kleene's, and a row passes a
condition that is true. What passes is an ordinary conjunction or disjunction
of what its parts pass; a negation needs a condition that is known.
-/

namespace Relational

/-- The value of a condition; `none` is unknown. -/
abbrev Truth := Option Bool

namespace Truth

variable {α β : Type}

/-- `NOT`. -/
def neg (a : Truth) : Truth := a.map (!·)

/-- `AND`: false as soon as one side is. -/
def conj : Truth → Truth → Truth
  | some false, _ => some false
  | _, some false => some false
  | some true, some true => some true
  | _, _ => none

/-- `OR`: true as soon as one side is. -/
def disj (a b : Truth) : Truth := neg (conj (neg a) (neg b))

/-- A comparison of two columns, unknown as soon as one is `NULL`. -/
def compare (r : α → β → Bool) (a : Option α) (b : Option β) : Truth :=
  a.bind fun x ↦ b.map (r x)

/-- `IS NULL`, which is never unknown. -/
def isNull (a : Option α) : Truth := some a.isNone

/-- A row passes a condition that is true. -/
def passes (a : Truth) : Bool := a == some true

/-- `EXISTS (SELECT … WHERE …)`, which is never unknown. -/
def exist (rows : List α) (condition : α → Truth) : Truth :=
  some (rows.any fun row ↦ (condition row).passes)

/-- A known condition passes as it says. -/
@[simp] theorem passes_some (a : Bool) : passes (some a) = a := by
  cases a <;> rfl

/-- A conjunction passes where both sides do. -/
@[simp] theorem passes_conj (a b : Truth) : (conj a b).passes = (a.passes && b.passes) := by
  rcases a with _ | _ | _ <;> rcases b with _ | _ | _ <;> rfl

/-- A disjunction passes where one side does. -/
@[simp] theorem passes_disj (a b : Truth) : (disj a b).passes = (a.passes || b.passes) := by
  rcases a with _ | _ | _ <;> rcases b with _ | _ | _ <;> rfl

/-- A null test passes on `NULL`. -/
@[simp] theorem passes_isNull (a : Option α) : (isNull a).passes = a.isNone := passes_some _

/-- A comparison passes on two values that compare. -/
@[simp] theorem passes_compare_some (r : α → β → Bool) (a : Option α) (b : β) :
    (compare r a (some b)).passes = a.any (r · b) := by
  cases a with
  | none => rfl
  | some a => exact passes_some _

/-- `NOT EXISTS` passes where no row passes. -/
@[simp] theorem passes_neg_exist (rows : List α) (condition : α → Truth) :
    (neg (exist rows condition)).passes = !rows.any fun row ↦ (condition row).passes :=
  passes_some _

/-- `EXISTS` passes where a row does. -/
@[simp] theorem passes_exist (rows : List α) (condition : α → Truth) :
    (exist rows condition).passes = rows.any fun row ↦ (condition row).passes :=
  passes_some _

end Truth

end Relational
