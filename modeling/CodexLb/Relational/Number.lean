import CodexLb.Machine.Integer

/-!
# Numbers in a column

A column of integer affinity holds integers of 64 bits, and reals that are no
such integers. A sum of integers that is none is taken in real arithmetic, and
what a statement stores there can no longer be read as an integer.
-/

namespace Relational

open Machine

/-- A number in a column, with reals of type `ρ`. -/
inductive Number (ρ : Type) where
  | integer (value : Int) (fits : Fits 64 value)
  | real (value : ρ)
  deriving DecidableEq

/-- Real arithmetic: two integers whose sum leaves the type, and a real and an integer, whose sum
is stored as an integer where it is one. -/
class RealSums (ρ : Type) where
  overflowed : Int → Int → ρ
  plus : ρ → Int → Number ρ

namespace Number

variable {ρ : Type} {x : Number ρ} {a d v : Int}

/-- The integer in a column; a real cannot be read as one. -/
def toInteger : Number ρ → Option Int
  | integer value _ => some value
  | real _ => none

/-- What can be read is an integer of the type. -/
theorem fits_of_toInteger (h : x.toInteger = some v) : Fits 64 v := by
  cases x with
  | integer value fits =>
    cases h
    exact fits
  | real value => cases h

variable [RealSums ρ]

/-- The sum that is stored for a column and an integer. -/
def plus : Number ρ → Int → Number ρ
  | integer value _, d =>
    if h : Fits 64 (value + d) then integer (value + d) h
    else real (RealSums.overflowed value d)
  | real value, d => RealSums.plus value d

/-- A sum that stays within the type is the integer. -/
theorem plus_of_fits (hvalue : Fits 64 a) (h : Fits 64 (a + d)) :
    (integer a hvalue : Number ρ).plus d = integer (a + d) h :=
  dif_pos h

/-- A sum that leaves the type is a real. -/
theorem plus_of_not_fits (hvalue : Fits 64 a) (h : ¬Fits 64 (a + d)) :
    (integer a hvalue : Number ρ).plus d = real (RealSums.overflowed a d) :=
  dif_neg h

/-- A sum of integers can be read exactly where it stays within the type. -/
theorem toInteger_plus_iff (h : x.toInteger = some a) :
    (x.plus d).toInteger = some v ↔ v = a + d ∧ Fits 64 (a + d) := by
  cases x with
  | real value => cases h
  | integer value fits =>
    cases h
    by_cases hfits : Fits 64 (a + d)
    · simp [plus_of_fits fits hfits, toInteger, hfits, eq_comm]
    · simp [plus_of_not_fits fits hfits, toInteger, hfits]

/-- A column grows, and can still be read, exactly where the sum stays below the upper limit of
the type and nothing is taken away. -/
theorem grows_iff (h : x.toInteger = some a) :
    (∃ v, (x.plus d).toInteger = some v ∧ a ≤ v) ↔ 0 ≤ d ∧ a + d < 2 ^ 63 := by
  have hlow := (fits_of_toInteger h).1
  simp only [toInteger_plus_iff h]
  constructor
  · rintro ⟨v, ⟨rfl, hfits⟩, hle⟩
    exact ⟨by omega, hfits.2⟩
  · rintro ⟨hd, hlimit⟩
    exact ⟨a + d, ⟨rfl, by omega, hlimit⟩, by omega⟩

end Number

end Relational
