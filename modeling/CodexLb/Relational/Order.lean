import CodexLb.Relational.Query
import Mathlib.Data.Prod.Lex

/-!
# The first row of a total order

An `ORDER BY` over columns that identify the row is the order of a key in a
linear order: the columns as a lexicographic product. `firstBy` is then the
row with the least key, and it stays the first when the other rows only move
back or disappear.
-/

namespace Relational

variable {α β : Type} [LinearOrder β]

/-- A column decides, or leaves the decision to the next ones. -/
theorem compareColumn_then_eq_lt {a b : β} {next : Ordering} :
    (compareColumn a b).then next = .lt ↔ a < b ∨ a = b ∧ next = .lt := by
  unfold compareColumn
  split
  · next h => simp [h]
  · next h =>
    split
    · next h' => simp [h, h'.ne']
    · next h' =>
      have heq : a = b := le_antisymm (not_lt.mp h') (not_lt.mp h)
      simp [heq, Ordering.then]

/-- The last column decides alone. -/
theorem compareColumn_eq_lt {a b : β} : compareColumn a b = .lt ↔ a < b := by
  have h : (compareColumn a b).then .eq = .lt ↔ a < b ∨ a = b ∧ Ordering.eq = .lt :=
    compareColumn_then_eq_lt
  rw [Ordering.then_eq] at h
  simpa using h

variable {before : α → α → Bool} {key : α → β} {rows : List α} {a : α}

/-- The first row has the least key. -/
theorem key_firstBy_le (hkey : ∀ a ∈ rows, ∀ b ∈ rows, before a b = true ↔ key a < key b)
    (h : firstBy before rows = some a) : ∀ b ∈ rows, key a ≤ key b := by
  induction rows generalizing a with
  | nil => cases h
  | cons b rows ih =>
    have htail := fun a ha b hb ↦
      hkey a (List.mem_cons_of_mem _ ha) b (List.mem_cons_of_mem _ hb)
    rw [firstBy] at h
    rw [List.forall_mem_cons]
    split at h
    · next hnone =>
      cases h
      rw [firstBy_eq_none_iff.mp hnone]
      exact ⟨le_refl _, fun c hc ↦ by cases hc⟩
    · next c hc =>
      have hrest := ih htail hc
      have hdecides := hkey c (List.mem_cons_of_mem _ (firstBy_mem hc)) b List.mem_cons_self
      split at h
      · next hlt =>
        cases h
        exact ⟨(hdecides.mp hlt).le, hrest⟩
      · next hge =>
        cases h
        have hle : key b ≤ key c := not_lt.mp fun hlt ↦ hge (hdecides.mpr hlt)
        exact ⟨le_refl _, fun d hd ↦ hle.trans (hrest d hd)⟩

/-- The only row with the least key is the first one. -/
theorem firstBy_eq_some (hkey : ∀ a ∈ rows, ∀ b ∈ rows, before a b = true ↔ key a < key b)
    (ha : a ∈ rows) (hmin : ∀ b ∈ rows, b ≠ a → key a < key b) :
    firstBy before rows = some a := by
  cases h : firstBy before rows with
  | none =>
    rw [firstBy_eq_none_iff.mp h] at ha
    cases ha
  | some b =>
    have hle : key b ≤ key a := key_firstBy_le hkey h a ha
    by_contra hne
    have hba : b ≠ a := fun heq ↦ hne (congrArg some heq)
    exact absurd (hmin b (firstBy_mem h) hba) (not_lt.mpr hle)

/-- The first row stays the first when every other row is at or behind a row it preceded. -/
theorem firstBy_stable (hkey : ∀ a b, before a b = true ↔ key a < key b)
    (hinj : Function.Injective key) (h : firstBy before rows = some a) {later : List α}
    (ha : a ∈ later) (hlater : ∀ c ∈ later, c ≠ a → ∃ d ∈ rows, d ≠ a ∧ key d ≤ key c) :
    firstBy before later = some a := by
  apply firstBy_eq_some (fun a _ b _ ↦ hkey a b) ha
  intro c hc hne
  obtain ⟨d, hd, hda, hle⟩ := hlater c hc hne
  have hlt : key a < key d :=
    lt_of_le_of_ne (key_firstBy_le (fun a _ b _ ↦ hkey a b) h d hd) fun heq ↦ hda (hinj heq).symm
  exact hlt.trans_le hle

end Relational
