import Mathlib.Data.List.Basic

/-!
# Failing over

A loop of at most a number of rounds over a state, and the tries that a
failover makes in such rounds. A try settles the loop with an answer, or the
loop moves on with an error and, it may be, an answer to fall back on. A
failover that remembers only the newest error and the newest fallback gives
what is owed for the whole list of its tries.
-/

namespace Transition

/-! ### Bounded rounds -/

section Rounds

variable {σ ρ : Type} (round : Nat → σ → ρ ⊕ σ) (answer : σ → ρ)

/-- At most some number of rounds, numbered from a given one: a round ends with a result or
goes on with a state, and the last state answers. -/
def rounds : Nat → Nat → σ → ρ
  | 0, _, s => answer s
  | n + 1, k, s =>
    match round k s with
    | .inl r => r
    | .inr t => rounds n (k + 1) t

variable {round answer}

/-- An invariant that counts the rounds left and those that are over gives what it says of every
result. -/
theorem rounds_post {I : Nat → Nat → σ → Prop} {Q : ρ → Prop}
    (step : ∀ n k s, I (n + 1) k s → Sum.elim Q (I n (k + 1)) (round k s))
    (exhausted : ∀ k s, I 0 k s → Q (answer s)) {n k : Nat} {s : σ} (h : I n k s) :
    Q (rounds round answer n k s) := by
  induction n generalizing k s with
  | zero => exact exhausted k s h
  | succ n ih =>
    have hstep := step n k s h
    rw [rounds]
    split
    · next r hr =>
      rw [hr] at hstep
      exact hstep
    · next t ht =>
      rw [ht] at hstep
      exact ih hstep

end Rounds

/-! ### Tries -/

section Tries

variable {α ε : Type}

/-- How a try ends. -/
inductive Try (α ε : Type) where
  | settled (answer : α)
  | moved (fallback : Option α) (error : ε)
  deriving DecidableEq

namespace Try

/-- The answer of a try that settles the loop. -/
def answer? : Try α ε → Option α
  | settled answer => some answer
  | moved .. => none

/-- The answer to fall back on, of a try that does not. -/
def fallback? : Try α ε → Option α
  | settled _ => none
  | moved fallback _ => fallback

/-- The error of a try that does not settle the loop. -/
def error? : Try α ε → Option ε
  | settled _ => none
  | moved _ error => some error

end Try

/-- What is owed for some tries: the first answer that settles, else the newest fallback, else
the newest error, and a given error when nothing was tried. -/
def owed (tries : List (Try α ε)) (otherwise : ε) : Except ε α :=
  match tries.findSome? Try.answer? with
  | some answer => .ok answer
  | none =>
    match (tries.filterMap Try.fallback?).getLast? with
    | some fallback => .ok fallback
    | none => .error ((tries.filterMap Try.error?).getLast?.getD otherwise)

/-- The two variables of a failover. -/
structure Remembered (α ε : Type) where
  fallback : Option α
  error : Option ε

/-- Nothing was tried. -/
def Remembered.nothing : Remembered α ε := ⟨none, none⟩

/-- A try replaces the error, and the fallback when it has one. -/
def Remembered.record (remembered : Remembered α ε) (fallback : Option α) (error : ε) :
    Remembered α ε :=
  ⟨fallback.or remembered.fallback, some error⟩

/-- The answer when the tries are over. -/
def Remembered.giveUp (remembered : Remembered α ε) (otherwise : ε) : Except ε α :=
  match remembered.fallback with
  | some fallback => .ok fallback
  | none => .error (remembered.error.getD otherwise)

/-- The variables hold the newest fallback and the newest error of tries that all moved on. -/
structure Remembered.Holds (remembered : Remembered α ε) (tries : List (Try α ε)) : Prop where
  moved : tries.findSome? Try.answer? = none
  fallback : remembered.fallback = (tries.filterMap Try.fallback?).getLast?
  error : remembered.error = (tries.filterMap Try.error?).getLast?

namespace Remembered.Holds

/-- Before the first try. -/
theorem nothing : Holds (.nothing : Remembered α ε) [] := ⟨rfl, rfl, rfl⟩

variable {remembered : Remembered α ε} {tries : List (Try α ε)}

/-- One more try that moves on. -/
theorem record (h : remembered.Holds tries) (fallback : Option α) (error : ε) :
    (remembered.record fallback error).Holds (tries ++ [.moved fallback error]) where
  moved := by
    rw [List.findSome?_append, h.moved]
    rfl
  fallback := by
    rw [List.filterMap_append, List.getLast?_append, ← h.fallback, Remembered.record]
    cases fallback <;> rfl
  error := by
    rw [List.filterMap_append, List.getLast?_append]
    rfl

/-- A failover that gives up gives what is owed. -/
theorem giveUp (h : remembered.Holds tries) (otherwise : ε) :
    remembered.giveUp otherwise = owed tries otherwise := by
  rw [Remembered.giveUp, owed, h.moved, ← h.fallback, ← h.error]

/-- A try that settles the failover is owed. -/
theorem settled (h : remembered.Holds tries) (answer : α) (otherwise : ε) :
    owed (tries ++ [.settled answer]) otherwise = .ok answer := by
  rw [owed, List.findSome?_append, h.moved]
  rfl

end Remembered.Holds

end Tries

end Transition
