import Mathlib.Logic.Basic

/-!
# Outcomes of computations

A computation that can fail returns, or it stops with an error. Sequences and
loops of computations return exactly when each part does, and have no other
errors than their parts.
-/

namespace Machine

variable {ε α β : Type}

/-- A computation returns a result. -/
def Returns (x : Except ε α) : Prop := ∃ a, x = .ok a

/-- A computation has no other error than this one. -/
def FailsOnly (e : ε) (x : Except ε α) : Prop := ∀ e', x = .error e' → e' = e

/-- A result returns. -/
theorem returns_ok (a : α) : Returns (.ok a : Except ε α) := ⟨a, rfl⟩

/-- An error does not return. -/
theorem not_returns_error (e : ε) : ¬Returns (.error e : Except ε α) := by
  rintro ⟨a, h⟩
  cases h

/-- A computation returns with its result put to use. -/
theorem returns_map_iff {x : Except ε α} {f : α → β} : Returns (x.map f) ↔ Returns x := by
  cases x with
  | error e => exact iff_of_false (not_returns_error e) (not_returns_error e)
  | ok a => exact iff_of_true (returns_ok (f a)) (returns_ok a)

/-- Two computations in a row return if the first does and the second does on every result. -/
theorem returns_bind_iff {x : Except ε α} {f : α → Except ε β} {p : Prop}
    (hf : ∀ a, x = .ok a → (Returns (f a) ↔ p)) : Returns (x >>= f) ↔ Returns x ∧ p := by
  cases x with
  | error e => exact iff_of_false (not_returns_error e) fun h ↦ not_returns_error e h.1
  | ok a => exact (hf a rfl).trans (and_iff_right (returns_ok a)).symm

/-- A loop returns exactly when each of its rounds does, where that is a matter of the item. -/
theorem returns_foldlM_iff {f : β → α → Except ε β} {good : α → Prop} {items : List α}
    (hf : ∀ b, ∀ a ∈ items, Returns (f b a) ↔ good a) (b : β) :
    Returns (items.foldlM f b) ↔ ∀ a ∈ items, good a := by
  induction items generalizing b with
  | nil =>
    apply iff_of_true (returns_ok b)
    simp
  | cons a items ih =>
    rw [List.foldlM_cons, List.forall_mem_cons, ← hf b a List.mem_cons_self]
    apply returns_bind_iff
    intro b' _
    exact ih (fun b a' ha' ↦ hf b a' (List.mem_cons_of_mem a ha')) b'

/-- A result has no error. -/
theorem failsOnly_ok (e : ε) (a : α) : FailsOnly e (.ok a) := by
  intro e' h
  cases h

/-- Computations in a row have no other errors than their parts. -/
theorem FailsOnly.bind {e : ε} {x : Except ε α} {f : α → Except ε β} (hx : FailsOnly e x)
    (hf : ∀ a, FailsOnly e (f a)) : FailsOnly e (x >>= f) := by
  cases x with
  | error e' => exact fun _ h ↦ hx _ (Except.error.inj h ▸ rfl)
  | ok a => exact hf a

/-- A loop has no other errors than its rounds. -/
theorem failsOnly_foldlM {e : ε} {f : β → α → Except ε β} (hf : ∀ b a, FailsOnly e (f b a))
    (items : List α) (b : β) : FailsOnly e (items.foldlM f b) := by
  induction items generalizing b with
  | nil => exact failsOnly_ok e b
  | cons a items ih =>
    rw [List.foldlM_cons]
    exact (hf b a).bind ih

end Machine
