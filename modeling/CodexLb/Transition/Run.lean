import Mathlib.Order.Basic

/-!
# Labelled runs

A run is a finite sequence of labelled steps. An invariant of the step
relation holds at the end of a run, and a preorder that every step respects
relates the two ends. `Forward` is the preorder of a fencing token: every
key keeps a token and its token never decreases, so a token that has been
passed is never current again.
-/

namespace Transition

variable {σ ι : Type}

/-- Runs of a labelled step relation. -/
inductive Run (step : σ → ι → σ → Prop) : σ → List ι → σ → Prop
  | nil (s : σ) : Run step s [] s
  | cons {s t u : σ} {i : ι} {is : List ι} (head : step s i t) (tail : Run step t is u) :
      Run step s (i :: is) u

/-- The states that some run reaches from an initial state. -/
def Reachable (init : σ → Prop) (step : σ → ι → σ → Prop) (s : σ) : Prop :=
  ∃ s₀ is, init s₀ ∧ Run step s₀ is s

/-- The steps of a relation that meet a condition on the state and the label. -/
def guarded (step : σ → ι → σ → Prop) (good : σ → ι → Prop) (s : σ) (i : ι) (t : σ) : Prop :=
  good s i ∧ step s i t

variable {step : σ → ι → σ → Prop}

namespace Run

/-- Runs compose. -/
theorem append {s t u : σ} {is js : List ι} (h : Run step s is t) (k : Run step t js u) :
    Run step s (is ++ js) u := by
  induction h with
  | nil => exact k
  | cons head _ ih => exact .cons head (ih k)

/-- A run of two sequences of labels stops between them. -/
theorem split {s u : σ} {is js : List ι} (h : Run step s (is ++ js) u) :
    ∃ t, Run step s is t ∧ Run step t js u := by
  induction is generalizing s with
  | nil => exact ⟨s, .nil s, h⟩
  | cons i is ih =>
    rw [List.cons_append] at h
    cases h with
    | cons head tail =>
      obtain ⟨t, hfirst, hrest⟩ := ih tail
      exact ⟨t, .cons head hfirst, hrest⟩

/-- One step is a run. -/
theorem single {s t : σ} {i : ι} (h : step s i t) : Run step s [i] t := .cons h (.nil t)

/-- What every step says of its label holds of every label of a run. -/
theorem labels {Q : ι → Prop} (one : ∀ s i t, step s i t → Q i) {s t : σ} {is : List ι}
    (h : Run step s is t) : ∀ i ∈ is, Q i := by
  induction h with
  | nil => exact fun _ hi ↦ absurd hi List.not_mem_nil
  | cons head _ ih => exact List.forall_mem_cons.mpr ⟨one _ _ _ head, ih⟩

/-- An invariant of the steps holds at the end of a run. -/
theorem invariant {P : σ → Prop} (keep : ∀ s i t, P s → step s i t → P t) {s t : σ}
    {is : List ι} (h : Run step s is t) (hs : P s) : P t := by
  induction h with
  | nil => exact hs
  | cons head _ ih => exact ih (keep _ _ _ hs head)

/-- A preorder that every step from an invariant state respects relates the ends of a run. -/
theorem relates {P : σ → Prop} {R : σ → σ → Prop} (keep : ∀ s i t, P s → step s i t → P t)
    (refl : ∀ s, R s s) (trans : ∀ s t u, R s t → R t u → R s u)
    (one : ∀ s i t, P s → step s i t → R s t) {s t : σ} {is : List ι} (h : Run step s is t)
    (hs : P s) : R s t := by
  induction h with
  | nil s => exact refl s
  | cons head _ ih => exact trans _ _ _ (one _ _ _ hs head) (ih (keep _ _ _ hs head))

/-- A run whose steps from invariant states are steps of another relation is a run of it. -/
theorem refine {step' : σ → ι → σ → Prop} (P : σ → Prop)
    (keep : ∀ s i t, P s → step s i t → P t)
    (one : ∀ s i t, P s → step s i t → step' s i t) {s t : σ} {is : List ι}
    (h : Run step s is t) (hs : P s) : Run step' s is t := by
  induction h with
  | nil s => exact .nil s
  | cons head _ ih => exact .cons (one _ _ _ hs head) (ih (keep _ _ _ hs head))

/-- A schedule that is executed label by label is a run. -/
theorem of_foldlM {exec : σ → ι → Option σ} (one : ∀ s i t, exec s i = some t → step s i t)
    {s t : σ} {is : List ι} (h : is.foldlM exec s = some t) : Run step s is t := by
  induction is generalizing s with
  | nil =>
    cases h
    exact .nil _
  | cons i is ih =>
    rw [List.foldlM_cons] at h
    obtain ⟨u, hfirst, hrest⟩ := Option.bind_eq_some_iff.mp h
    exact .cons (one _ _ _ hfirst) (ih hrest)

/-- A rank that no step raises and that the steps of a kind lower bounds how many of them a run
has, whatever the other steps are. -/
theorem countP_add_rank_le {P : σ → Prop} (rank : σ → Nat) (own : ι → Bool)
    (keep : ∀ s i t, P s → step s i t → P t) (other : ∀ s i t, P s → step s i t → rank t ≤ rank s)
    (lower : ∀ s i t, P s → own i = true → step s i t → rank t < rank s) {s t : σ} {is : List ι}
    (h : Run step s is t) (hs : P s) : is.countP own + rank t ≤ rank s := by
  induction h with
  | nil s => simp
  | @cons s t u i is head _ ih =>
    have htail := ih (keep _ _ _ hs head)
    rw [List.countP_cons]
    split
    · next hown =>
      have hlower := lower _ _ _ hs hown head
      omega
    · have hother := other _ _ _ hs head
      omega

end Run

/-- A reachable state stays reachable along a run. -/
theorem Reachable.run {init : σ → Prop} {s t : σ} {is : List ι} (hs : Reachable init step s)
    (h : Run step s is t) : Reachable init step t := by
  obtain ⟨s₀, js, h₀, hr⟩ := hs
  exact ⟨s₀, js ++ is, h₀, hr.append h⟩

/-- An invariant of the initial states and of the steps holds in every reachable state. -/
theorem Reachable.invariant {init : σ → Prop} {P : σ → Prop} (base : ∀ s, init s → P s)
    (keep : ∀ s i t, P s → step s i t → P t) {s : σ} (h : Reachable init step s) : P s := by
  obtain ⟨s₀, is, h₀, hr⟩ := h
  exact hr.invariant keep (base s₀ h₀)

/-! ### Fencing tokens -/

section Fencing

variable {κ : Type} {token : σ → κ → Option Nat}

/-- Every key keeps a token and no token decreases. -/
def Forward (token : σ → κ → Option Nat) (s t : σ) : Prop :=
  ∀ k g, token s k = some g → ∃ g', token t k = some g' ∧ g ≤ g'

/-- Standing still is forward. -/
theorem Forward.refl (s : σ) : Forward token s s := fun _ g h ↦ ⟨g, h, Nat.le_refl g⟩

/-- Forward moves compose. -/
theorem Forward.trans {s t u : σ} (h : Forward token s t) (k : Forward token t u) :
    Forward token s u := by
  intro a g ha
  obtain ⟨g₁, h₁, hle₁⟩ := h a g ha
  obtain ⟨g₂, h₂, hle₂⟩ := k a g₁ h₁
  exact ⟨g₂, h₂, Nat.le_trans hle₁ hle₂⟩

/-- A token that has been passed is not current after any further forward move. -/
theorem Forward.passed {s t : σ} (h : Forward token s t) {k : κ} {g g' : Nat}
    (hs : token s k = some g') (hlt : g < g') : token t k ≠ some g := by
  intro ht
  obtain ⟨g'', h'', hle⟩ := h k g' hs
  rw [ht] at h''
  cases h''
  omega

end Fencing

end Transition
