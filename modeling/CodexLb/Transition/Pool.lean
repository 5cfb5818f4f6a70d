import CodexLb.Transition.Failover
import Mathlib.Data.List.Nodup

/-!
# Failing over through a pool

A failover whose tries are on the members of a pool, no member twice. A round
selects a member that was not tried yet, or the error of the selection ends
the loop; a try on the member settles the loop or makes it move on. What a
selection and a try preserve, the whole loop preserves.
-/

namespace Transition

section Pools

variable {σ ι κ τ α ε : Type}

/-- The members of a pool, what selects one in a state, and a try on a selected one with the
trace that it leaves. -/
structure Pool (σ ι κ τ α ε : Type) where
  member : κ → ι
  select : Nat → List ι → σ → Except ε κ × σ
  attempt : Nat → κ → σ → (Try α ε × τ) × σ

/-- One try on a selected member. -/
structure Attempted (σ κ τ α ε : Type) where
  round : Nat
  selected : κ
  before : σ
  outcome : Try α ε
  trace : τ
  after : σ

namespace Pool

/-- The variables of the loop, with the tries so far. -/
structure Tour (σ ι κ τ α ε : Type) where
  state : σ
  excluded : List ι
  remembered : Remembered α ε
  attempts : List (Attempted σ κ τ α ε)

/-- What the loop gives and leaves; `ended` is the error that ended it. -/
structure Served (σ κ τ α ε : Type) where
  result : Except ε α
  state : σ
  attempts : List (Attempted σ κ τ α ε)
  ended : ε

/-- The answer when no try settled the loop. -/
def Tour.giveUp (v : Tour σ ι κ τ α ε) (ended : ε) : Served σ κ τ α ε :=
  ⟨v.remembered.giveUp ended, v.state, v.attempts, ended⟩

variable (pool : Pool σ ι κ τ α ε) (otherwise : ε)

/-- One round. With an exclusion the error of a selection stands in for a missing one only. -/
def round (k : Nat) (v : Tour σ ι κ τ α ε) : Served σ κ τ α ε ⊕ Tour σ ι κ τ α ε :=
  match pool.select k v.excluded v.state with
  | (.error error, s) =>
    if v.excluded.isEmpty then .inl ⟨.error error, s, v.attempts, error⟩
    else .inl ({ v with state := s }.giveUp error)
  | (.ok selected, s) =>
    match pool.attempt k selected s with
    | ((.settled answer, trace), t) =>
      .inl ⟨.ok answer, t, v.attempts ++ [⟨k, selected, s, .settled answer, trace, t⟩], otherwise⟩
    | ((.moved fallback error, trace), t) =>
      .inr ⟨t, pool.member selected :: v.excluded, v.remembered.record fallback error,
        v.attempts ++ [⟨k, selected, s, .moved fallback error, trace, t⟩]⟩

/-- The loop within a budget of rounds. -/
def failover (budget : Nat) (s : σ) : Served σ κ τ α ε :=
  rounds (pool.round otherwise) (Tour.giveUp · otherwise) budget 0 ⟨s, [], .nothing, []⟩

/-- A selection gives no member that it was to exclude. -/
def Excludes : Prop :=
  ∀ k excluded s selected t, pool.select k excluded s = (.ok selected, t) →
    pool.member selected ∉ excluded

/-- Tries that have all moved on, and what they exclude. -/
structure Moved (attempts : List (Attempted σ κ τ α ε)) (excluded : List ι) : Prop where
  excluded : ∀ i, i ∈ excluded ↔ i ∈ attempts.map fun a ↦ pool.member a.selected
  moved : (attempts.map Attempted.outcome).findSome? Try.answer? = none

/-- What a selection and a try preserve, of the tries so far and the state: a selection that
gives nothing keeps it, and a try on a selected member extends it. -/
structure Preserves (I : List (Attempted σ κ τ α ε) → σ → Prop) : Prop where
  refused : ∀ attempts s k excluded error t, pool.Moved attempts excluded → I attempts s →
    pool.select k excluded s = (.error error, t) → I attempts t
  tried : ∀ attempts s k excluded selected t outcome trace u, pool.Moved attempts excluded →
    I attempts s → pool.select k excluded s = (.ok selected, t) →
    pool.attempt k selected t = ((outcome, trace), u) →
    I (attempts ++ [⟨k, selected, t, outcome, trace, u⟩]) u

/-- The state that tries leave, one after the other from a state on. -/
def lastState (s : σ) (attempts : List (Attempted σ κ τ α ε)) : σ :=
  (attempts.getLast?.map Attempted.after).getD s

/-- The tries are those of the first rounds, in their order. -/
def Numbered (attempts : List (Attempted σ κ τ α ε)) : Prop :=
  ∀ (k : Nat) (a : Attempted σ κ τ α ε), attempts[k]? = some a → a.round = k

/-- Why a loop on a state has ended: a try settled it, or its budget is used up, or the state that
the tries left gave no member but those that were tried. -/
def Ended (budget : Nat) (s : σ) (r : Served σ κ τ α ε) : Prop :=
  (∃ a ∈ r.attempts, a.outcome.answer?.isSome = true) ∨
  r.attempts.length = budget ∧ r.ended = otherwise ∨
  ∃ excluded, (∀ i, i ∈ excluded ↔ i ∈ r.attempts.map fun a ↦ pool.member a.selected) ∧
    pool.select r.attempts.length excluded (lastState s r.attempts) = (.error r.ended, r.state)

/-- A loop within its budget that made one try in each round, tried no member twice, gives what is
owed and did not end before it had to. -/
structure Serves (budget : Nat) (I : List (Attempted σ κ τ α ε) → σ → Prop) (s : σ)
    (r : Served σ κ τ α ε) : Prop where
  bounded : r.attempts.length ≤ budget
  numbered : Numbered r.attempts
  distinct : (r.attempts.map fun a ↦ pool.member a.selected).Nodup
  preserved : I r.attempts r.state
  result : r.result = owed (r.attempts.map Attempted.outcome) r.ended
  ended : pool.Ended otherwise budget s r

/-- Between two rounds every try has moved on, and the variables tell how. -/
structure Going (I : List (Attempted σ κ τ α ε) → σ → Prop) (budget : Nat) (s : σ)
    (left k : Nat) (v : Tour σ ι κ τ α ε) : Prop where
  length : v.attempts.length = k
  budget : k + left = budget
  numbered : Numbered v.attempts
  state : v.state = lastState s v.attempts
  excluded : ∀ i, i ∈ v.excluded ↔ i ∈ v.attempts.map fun a ↦ pool.member a.selected
  distinct : (v.attempts.map fun a ↦ pool.member a.selected).Nodup
  holds : v.remembered.Holds (v.attempts.map Attempted.outcome)
  preserved : I v.attempts v.state

variable {pool otherwise} {I : List (Attempted σ κ τ α ε) → σ → Prop} {budget left k : Nat}
  {s : σ} {v : Tour σ ι κ τ α ε}

/-- The loop gives up, in a state that keeps what its own did. -/
theorem Going.giveUp (h : pool.Going I budget s left k v) {t : σ} (ht : I v.attempts t)
    {ended : ε} (hended : pool.Ended otherwise budget s ({ v with state := t }.giveUp ended)) :
    pool.Serves otherwise budget I s ({ v with state := t }.giveUp ended) where
  bounded := by
    have hlength := h.length
    have hbudget := h.budget
    show v.attempts.length ≤ budget
    omega
  numbered := h.numbered
  distinct := h.distinct
  preserved := ht
  result := h.holds.giveUp ended
  ended := hended

private theorem Going.distinct_append (h : pool.Going I budget s left k v)
    {a : Attempted σ κ τ α ε} (hfresh : pool.member a.selected ∉ v.excluded) :
    ((v.attempts ++ [a]).map fun a ↦ pool.member a.selected).Nodup := by
  rw [List.map_append, List.map_singleton, List.nodup_append_comm, List.singleton_append,
    List.nodup_cons, ← h.excluded]
  exact ⟨hfresh, h.distinct⟩

private theorem Going.numbered_append (h : pool.Going I budget s left k v)
    {a : Attempted σ κ τ α ε} (ha : a.round = k) : Numbered (v.attempts ++ [a]) := by
  intro i b hb
  rw [List.getElem?_append] at hb
  split at hb
  · exact h.numbered i b hb
  · rw [List.getElem?_singleton] at hb
    split at hb
    · cases hb
      have hlength := h.length
      omega
    · cases hb

/-- A round either ends the loop as it should, or goes on. -/
theorem Going.round (h : pool.Going I budget s (left + 1) k v) (excludes : pool.Excludes)
    (preserves : pool.Preserves I) :
    Sum.elim (pool.Serves otherwise budget I s) (pool.Going I budget s left (k + 1))
      (pool.round otherwise k v) := by
  have hmoved : pool.Moved v.attempts v.excluded := ⟨h.excluded, h.holds.moved⟩
  unfold Pool.round
  cases hselect : pool.select k v.excluded v.state with
  | mk selection t =>
    cases selection with
    | error error =>
      have hended : pool.Ended otherwise budget s ({ v with state := t }.giveUp error) := by
        refine .inr (.inr ⟨v.excluded, h.excluded, ?_⟩)
        show pool.select v.attempts.length _ (lastState s v.attempts) = _
        rw [h.length, ← h.state, hselect]
        rfl
      have hgiveUp := h.giveUp (preserves.refused _ _ _ _ _ _ hmoved h.preserved hselect) hended
      dsimp only
      by_cases hnone : v.excluded.isEmpty = true
      · rw [if_pos hnone]
        -- without an exclusion nothing was tried, and the error is all that is owed
        have hattempts : v.attempts = [] := by
          rw [List.eq_nil_iff_forall_not_mem]
          intro a ha
          have hexcluded := (h.excluded (pool.member a.selected)).mpr (List.mem_map_of_mem ha)
          rw [List.isEmpty_iff.mp hnone] at hexcluded
          cases hexcluded
        refine { hgiveUp with result := ?_, ended := hended }
        show .error error = owed (v.attempts.map Attempted.outcome) error
        rw [hattempts]
        rfl
      · rw [if_neg hnone]
        exact hgiveUp
    | ok selected =>
      have hexcluded := excludes _ _ _ _ _ hselect
      cases htry : pool.attempt k selected t with
      | mk ended u =>
        obtain ⟨outcome, trace⟩ := ended
        have hpreserved := preserves.tried _ _ _ _ _ _ _ _ _ hmoved h.preserved hselect htry
        have hdistinct := h.distinct_append (a := ⟨k, selected, t, outcome, trace, u⟩) hexcluded
        have hnumbered := h.numbered_append (a := ⟨k, selected, t, outcome, trace, u⟩) rfl
        have hlength : ∀ a, (v.attempts ++ [a]).length = k + 1 := fun a ↦ by
          rw [List.length_append, List.length_singleton, h.length]
        have hbudget := h.budget
        cases outcome with
        | settled answer =>
          simp only [htry, Sum.elim_inl]
          refine ⟨?_, hnumbered, hdistinct, hpreserved, ?_, .inl ⟨_, List.mem_concat_self, rfl⟩⟩
          · rw [hlength]
            omega
          · rw [List.map_append, List.map_singleton, h.holds.settled]
        | moved fallback error =>
          simp only [htry, Sum.elim_inr]
          refine ⟨hlength _, by omega, hnumbered, ?_, ?_, hdistinct, ?_, hpreserved⟩
          · rw [lastState, List.getLast?_concat]
            rfl
          · intro i
            rw [List.mem_cons, h.excluded, List.map_append, List.mem_append, List.map_singleton,
              List.mem_singleton, or_comm]
          · rw [List.map_append, List.map_singleton]
            exact h.holds.record fallback error

end Pool

end Pools

end Transition
