import CodexLb.Transition.Run
import Mathlib.Order.Lattice

/-!
# Picking the least recent

Every member of a group carries a stamp. A step picks a member with a least
stamp and stamps it beyond every other one, or it picks nobody and leaves the
stamps alone. However the stamps begin and wherever ties go, between two picks
of a member each other member is picked once: it has to move ahead of the
member, and once it is ahead it is not least.
-/

namespace Transition

variable {σ ι κ τ : Type} [LinearOrder τ]

/-- What a step may do to the stamps of the members. -/
inductive Rotates (members : κ → Prop) (stamp : σ → κ → τ) (s : σ) : Option κ → σ → Prop
  | pick {t : σ} {a : κ} (mem : members a) (least : ∀ b, members b → stamp s a ≤ stamp s b)
      (fresh : ∀ b, members b → stamp s b < stamp t a)
      (others : ∀ b, members b → b ≠ a → stamp t b = stamp s b) :
      Rotates members stamp s (some a) t
  | keep {t : σ} (same : ∀ b, members b → stamp t b = stamp s b) : Rotates members stamp s none t

variable {members : κ → Prop} {stamp : σ → κ → τ} {step : σ → ι → σ → Prop}
  {picked : ι → Option κ} [DecidableEq κ] {s t : σ} {is : List ι} {a b : κ}

/-- While a member is not picked, it keeps its stamp, and another member is picked at most once:
when its stamp moves beyond. -/
theorem Run.picked_once (rotates : ∀ s i t, step s i t → Rotates members stamp s (picked i) t)
    (h : Run step s is t) (ha : members a) (hb : members b)
    (hnot : ∀ i ∈ is, picked i ≠ some a) :
    stamp t a = stamp s a ∧
      (stamp s a < stamp s b →
        is.countP (picked · = some b) = 0 ∧ stamp t a < stamp t b) ∧
      (stamp s b < stamp s a →
        is.countP (picked · = some b) = 0 ∧ stamp t b < stamp t a ∨
          is.countP (picked · = some b) = 1 ∧ stamp t a < stamp t b) := by
  induction h with
  | nil s =>
    refine ⟨rfl, fun hlt ↦ ⟨rfl, hlt⟩, fun hlt ↦ .inl ⟨rfl, hlt⟩⟩
  | @cons s u t i is head tail ih =>
    obtain ⟨hsame, hahead, hbehind⟩ := ih fun j hj ↦ hnot j (List.mem_cons_of_mem _ hj)
    have hi := hnot i List.mem_cons_self
    have hrotates := rotates _ _ _ head
    rw [List.countP_cons]
    cases hp : picked i with
    | none =>
      rw [hp] at hrotates
      cases hrotates with
      | keep same =>
        rw [same a ha] at hsame hahead hbehind
        rw [same b hb] at hahead hbehind
        exact ⟨hsame, by simpa using hahead, by simpa using hbehind⟩
    | some c =>
      rw [hp] at hrotates hi
      cases hrotates with
      | pick mem least fresh others =>
        have hca : a ≠ c := fun heq ↦ hi (by rw [heq])
        have hkept := others a ha hca
        by_cases hcb : b = c
        · -- the other member moves ahead
          subst hcb
          have hfresh : stamp u a < stamp u b := by
            rw [hkept]
            exact fresh a ha
          obtain ⟨hcount, hend⟩ := hahead hfresh
          refine ⟨hsame.trans hkept, fun hlt ↦ absurd (least a ha) (not_le.mpr hlt), fun _ ↦ ?_⟩
          exact .inr ⟨by simp [hcount], hend⟩
        · have hother := others b hb hcb
          have hpicked : ¬ c = b := fun heq ↦ hcb heq.symm
          rw [hkept] at hsame hahead hbehind
          rw [hother] at hahead hbehind
          exact ⟨hsame, by simpa [hpicked] using hahead, by simpa [hpicked] using hbehind⟩

/-- Between two picks of a member, each other member is picked exactly once. -/
theorem Run.picked_once_between
    (rotates : ∀ s i t, step s i t → Rotates members stamp s (picked i) t) {i j : ι}
    (h : Run step s (i :: is ++ [j]) t) (hi : picked i = some a) (hj : picked j = some a)
    (hb : members b) (hne : b ≠ a) (hnot : ∀ k ∈ is, picked k ≠ some a) :
    is.countP (picked · = some b) = 1 := by
  cases h with
  | @cons _ u _ _ _ head tail =>
    obtain ⟨v, hbetween, hlast⟩ := tail.split
    have hfirst := rotates _ _ _ head
    rw [hi] at hfirst
    cases hlast with
    | cons last _ =>
      have hsecond := rotates _ _ _ last
      rw [hj] at hsecond
      cases hfirst with
      | pick mem _ fresh others =>
        cases hsecond with
        | pick _ least _ _ =>
          -- the other member starts behind and has to end ahead
          have hbehind : stamp u b < stamp u a := by
            rw [others b hb hne]
            exact fresh b hb
          obtain ⟨-, -, honce⟩ := hbetween.picked_once rotates mem hb hnot
          rcases honce hbehind with ⟨-, hend⟩ | ⟨hcount, -⟩
          · exact absurd (least b hb) (not_le.mpr hend)
          · exact hcount

end Transition
