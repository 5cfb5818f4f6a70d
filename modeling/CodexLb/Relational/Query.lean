import Mathlib.Data.List.Sort

/-!
# Ordered queries and transactions

`firstBy` is `ORDER BY … LIMIT 1`, `firstRows` is `ORDER BY … LIMIT n`. A
transaction body ends by committing or rolling back; an error leaves it
through the caller's early return, which drops the transaction and its writes.
-/

namespace Relational

variable {α : Type}

/-- The first row in the order, the earlier one in row order among equals. -/
def firstBy (before : α → α → Bool) : List α → Option α
  | [] => none
  | a :: rows =>
    match firstBy before rows with
    | none => some a
    | some b => if before b a then some b else some a

/-- Compare by one column. -/
def compareColumn {β : Type} [LT β] [DecidableLT β] (a b : β) : Ordering :=
  if a < b then .lt else if b < a then .gt else .eq

/-- The first `n` rows in a total order. -/
def firstRows (notAfter : α → α → Bool) (n : Nat) (rows : List α) : List α :=
  (rows.insertionSort fun a b ↦ notAfter a b = true).take n

/-- `COALESCE(MAX(column), 0)` of a column that is never negative. -/
def maximum (column : List Nat) : Nat := column.foldr max 0

/-- A bound on the maximum is a bound on every entry. -/
theorem maximum_le_iff {column : List Nat} {n : Nat} :
    maximum column ≤ n ↔ ∀ a ∈ column, a ≤ n := by
  induction column with
  | nil => simp [maximum]
  | cons a column ih =>
    change max a (maximum column) ≤ n ↔ _
    rw [Nat.max_le, ih, List.forall_mem_cons]

/-- The maximum bounds every entry. -/
theorem le_maximum {column : List Nat} {a : Nat} (h : a ∈ column) : a ≤ maximum column :=
  maximum_le_iff.mp (Nat.le_refl _) a h

/-- The first row is one of the rows. -/
theorem firstBy_mem {before : α → α → Bool} {rows : List α} {a : α}
    (h : firstBy before rows = some a) : a ∈ rows := by
  induction rows generalizing a with
  | nil => cases h
  | cons b rows ih =>
    rw [firstBy] at h
    split at h
    · cases h; exact List.mem_cons_self
    · next c hc =>
      split at h
      · cases h; exact List.mem_cons_of_mem _ (ih hc)
      · cases h; exact List.mem_cons_self

/-- Only an empty result has no first row. -/
theorem firstBy_eq_none_iff {before : α → α → Bool} {rows : List α} :
    firstBy before rows = none ↔ rows = [] := by
  cases rows with
  | nil => simp [firstBy]
  | cons a rows =>
    rw [firstBy]
    split
    · simp
    · split <;> simp

/-- The first rows are rows. -/
theorem mem_of_mem_firstRows {notAfter : α → α → Bool} {n : Nat} {rows : List α} {a : α}
    (h : a ∈ firstRows notAfter n rows) : a ∈ rows :=
  (List.mem_insertionSort _).mp (List.mem_of_mem_take h)

/-- A limit that covers every row loses none. -/
theorem mem_firstRows_of_length_le {notAfter : α → α → Bool} {n : Nat} {rows : List α} {a : α}
    (hn : rows.length ≤ n) (h : a ∈ rows) : a ∈ firstRows notAfter n rows := by
  rw [firstRows, List.take_of_length_le (by rwa [List.length_insertionSort])]
  exact (List.mem_insertionSort _).mpr h

/-! ### Fallible steps -/

/-- A sequence of fallible steps succeeds step by step. -/
theorem bind_eq_ok {ε β : Type} {x : Except ε α} {f : α → Except ε β} {b : β} :
    (x >>= f) = .ok b ↔ ∃ a, x = .ok a ∧ f a = .ok b := by
  constructor
  · intro h
    cases x with
    | error e => cases h
    | ok a => exact ⟨a, rfl, h⟩
  · rintro ⟨a, rfl, h⟩
    exact h

/-! ### Transactions -/

/-- How a transaction body that returns ends: its writes kept or undone. -/
inductive Ending (α : Type) where
  | commit (result : α)
  | rollback (result : α)

variable {σ ε : Type}

/-- Run a body on the current state; anything but a commit restores that state. -/
def transaction (body : σ → Except ε (Ending α × σ)) (s : σ) : Except ε α × σ :=
  match body s with
  | .ok (.commit a, t) => (.ok a, t)
  | .ok (.rollback a, _) => (.ok a, s)
  | .error e => (.error e, s)

/-- A failed transaction leaves the state alone. -/
theorem transaction_error {body : σ → Except ε (Ending α × σ)} {s t : σ} {e : ε}
    (h : transaction body s = (.error e, t)) : t = s := by
  unfold transaction at h
  split at h <;> cases h
  rfl

/-- What holds before a transaction, and after its body commits, holds after it. -/
theorem transaction_keeps (P : σ → Prop) {body : σ → Except ε (Ending α × σ)} {s : σ} (hs : P s)
    (hcommit : ∀ a t, body s = .ok (.commit a, t) → P t) : P (transaction body s).2 := by
  unfold transaction
  split
  · next a t ht => exact hcommit a t ht
  · exact hs
  · exact hs

/-- A transaction that returns has committed, or rolled back and changed nothing. -/
theorem transaction_ok_iff {body : σ → Except ε (Ending α × σ)} {s t : σ} {a : α} :
    transaction body s = (.ok a, t) ↔
      body s = .ok (.commit a, t) ∨ (t = s ∧ ∃ u, body s = .ok (.rollback a, u)) := by
  unfold transaction
  split
  · next b u hb => simp [hb]
  · next b u hb =>
    simp only [hb, Prod.mk.injEq, Except.ok.injEq, reduceCtorEq, false_and, false_or,
      Ending.rollback.injEq, exists_eq_right']
    exact ⟨fun h ↦ ⟨h.2.symm, h.1⟩, fun h ↦ ⟨h.2, h.1.symm⟩⟩
  · next e he => simp [he]

end Relational
