import Mathlib.Data.List.Basic

/-!
# Items held one at a time

An item is opened, recorded and closed, in this order, and no other item is
opened before it is closed. A trace that keeps to this from rest to rest has
recorded and closed an item as often as it has opened it, and no prefix of it
has two items open.
-/

namespace Transition

/-- What a trace does with an item. -/
inductive Mark (ι : Type) where
  | opened (item : ι)
  | recorded (item : ι)
  | closed (item : ι)
  deriving DecidableEq

/-- Which item is open, and whether it has been recorded. -/
inductive Custody (ι : Type) where
  | idle
  | held (item : ι)
  | recorded (item : ι)
  deriving DecidableEq

namespace Mark

variable {ι : Type}

/-- A mark that opens an item. -/
def isOpened : Mark ι → Bool
  | opened _ => true
  | _ => false

/-- A mark that closes an item. -/
def isClosed : Mark ι → Bool
  | closed _ => true
  | _ => false

end Mark

namespace Custody

variable {ι : Type} [DecidableEq ι]

/-- What a mark does, where it is allowed. -/
def next : Custody ι → Mark ι → Option (Custody ι)
  | idle, .opened item => some (held item)
  | held item, .recorded other => if item = other then some (recorded item) else none
  | recorded item, .closed other => if item = other then some idle else none
  | _, _ => none

/-- What a trace of marks does, where every mark is allowed. -/
def after : Custody ι → List (Mark ι) → Option (Custody ι)
  | c, [] => some c
  | c, mark :: marks => (c.next mark).bind fun d ↦ d.after marks

/-- The number of items open, one or none. -/
def load : Custody ι → Nat
  | idle => 0
  | held _ => 1
  | recorded _ => 1

/-- One for the item that is open. -/
def holds (item : ι) : Custody ι → Nat
  | idle => 0
  | held other => if item = other then 1 else 0
  | recorded other => if item = other then 1 else 0

/-- One for the item that is open and recorded. -/
def keeps (item : ι) : Custody ι → Nat
  | recorded other => if item = other then 1 else 0
  | _ => 0

variable {c d e : Custody ι} {mark : Mark ι} {marks more : List (Mark ι)}

@[simp] theorem after_nil (c : Custody ι) : c.after [] = some c := rfl

/-- Traces compose. -/
theorem after_append (h : c.after marks = some d) : c.after (marks ++ more) = d.after more := by
  induction marks generalizing c with
  | nil =>
    cases h
    rfl
  | cons mark marks ih =>
    obtain ⟨b, hb, h⟩ := Option.bind_eq_some_iff.mp h
    rw [List.cons_append, after, hb, Option.bind_some, ih h]

/-- A prefix of an allowed trace is allowed. -/
theorem after_prefix (h : c.after (marks ++ more) = some e) : ∃ d, c.after marks = some d := by
  induction marks generalizing c with
  | nil => exact ⟨c, rfl⟩
  | cons mark marks ih =>
    obtain ⟨b, hb, h⟩ := Option.bind_eq_some_iff.mp h
    obtain ⟨d, hd⟩ := ih h
    refine ⟨d, ?_⟩
    rw [after, hb, Option.bind_some, hd]

@[simp] private theorem count_opened (item other : ι) :
    [Mark.opened other].count (.opened item) = if item = other then 1 else 0 := by
  simp only [List.count_singleton, beq_iff_eq, Mark.opened.injEq, @eq_comm ι other item]

@[simp] private theorem count_recorded (item other : ι) :
    [Mark.recorded other].count (.recorded item) = if item = other then 1 else 0 := by
  simp only [List.count_singleton, beq_iff_eq, Mark.recorded.injEq, @eq_comm ι other item]

@[simp] private theorem count_closed (item other : ι) :
    [Mark.closed other].count (.closed item) = if item = other then 1 else 0 := by
  simp only [List.count_singleton, beq_iff_eq, Mark.closed.injEq, @eq_comm ι other item]

private theorem holds_next (h : c.next mark = some d) (item : ι) :
    [mark].count (.opened item) + c.holds item = [mark].count (.closed item) + d.holds item := by
  cases c <;> cases mark <;> simp only [next, Option.some.injEq, reduceCtorEq] at h
  · next other =>
    subst h
    simp [holds]
  · next other other' =>
    split at h
    · cases h
      simp [holds]
    · cases h
  · next other other' =>
    split at h
    · next he =>
      cases h
      simp [holds, he]
    · cases h

private theorem keeps_next (h : c.next mark = some d) (item : ι) :
    [mark].count (.recorded item) + c.keeps item =
      [mark].count (.closed item) + d.keeps item := by
  cases c <;> cases mark <;> simp only [next, Option.some.injEq, reduceCtorEq] at h
  · next other =>
    subst h
    simp [keeps]
  · next other other' =>
    split at h
    · next he =>
      cases h
      simp [keeps, he]
    · cases h
  · next other other' =>
    split at h
    · next he =>
      cases h
      simp [keeps, he]
    · cases h

/-- An item is opened as often as it is closed, up to the item that is open. -/
theorem holds_after (h : c.after marks = some d) (item : ι) :
    marks.count (.opened item) + c.holds item = marks.count (.closed item) + d.holds item := by
  induction marks generalizing c with
  | nil =>
    cases h
    rfl
  | cons mark marks ih =>
    obtain ⟨b, hb, h⟩ := Option.bind_eq_some_iff.mp h
    have hone := holds_next hb item
    have hrest := ih h
    rw [← List.singleton_append, List.count_append, List.count_append]
    omega

/-- An item is recorded as often as it is closed, up to the item that is open and recorded. -/
theorem keeps_after (h : c.after marks = some d) (item : ι) :
    marks.count (.recorded item) + c.keeps item =
      marks.count (.closed item) + d.keeps item := by
  induction marks generalizing c with
  | nil =>
    cases h
    rfl
  | cons mark marks ih =>
    obtain ⟨b, hb, h⟩ := Option.bind_eq_some_iff.mp h
    have hone := keeps_next hb item
    have hrest := ih h
    rw [← List.singleton_append, List.count_append, List.count_append]
    omega

private theorem load_next (h : c.next mark = some d) :
    [mark].countP Mark.isOpened + c.load = [mark].countP Mark.isClosed + d.load := by
  cases c <;> cases mark <;> simp only [next, Option.some.injEq, reduceCtorEq] at h
  · subst h
    rfl
  · split at h
    · cases h
      rfl
    · cases h
  · split at h
    · cases h
      rfl
    · cases h

/-- As many items are opened as are closed, up to the load. -/
theorem load_after (h : c.after marks = some d) :
    marks.countP Mark.isOpened + c.load = marks.countP Mark.isClosed + d.load := by
  induction marks generalizing c with
  | nil =>
    cases h
    rfl
  | cons mark marks ih =>
    obtain ⟨b, hb, h⟩ := Option.bind_eq_some_iff.mp h
    have hone := load_next hb
    have hrest := ih h
    rw [← List.singleton_append, List.countP_append, List.countP_append]
    omega

/-- No prefix of an allowed trace from rest has two items open. -/
theorem opened_le (h : (idle : Custody ι).after (marks ++ more) = some e) :
    marks.countP Mark.isOpened ≤ marks.countP Mark.isClosed + 1 := by
  obtain ⟨d, hd⟩ := after_prefix h
  have hload := load_after hd
  have hone : d.load ≤ 1 := by cases d <;> simp [load]
  have hidle : (idle : Custody ι).load = 0 := rfl
  omega

/-- From rest to rest, an item is recorded and closed as often as it is opened. -/
theorem settled (h : (idle : Custody ι).after marks = some idle) (item : ι) :
    marks.count (.recorded item) = marks.count (.opened item) ∧
      marks.count (.closed item) = marks.count (.opened item) := by
  have hholds := holds_after h item
  have hkeeps := keeps_after h item
  simp only [holds, keeps] at hholds hkeeps
  omega

end Custody

end Transition
