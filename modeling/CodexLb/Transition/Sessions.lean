import CodexLb.Transition.Run
import Mathlib.Data.Set.Basic

/-!
# Sessions as blocks of keys

What a route store is for: keys are grouped into sessions, every session is
named by one of its own keys, and a session carries a generation that fences
off writers which captured an older one. The single abstract operation hands
a set of keys to a root at a generation; a set that is closed under the
sessions it takes apart keeps the naming rule, and a generation that is not
older than the ones it replaces keeps the fence.
-/

namespace Transition

open scoped Classical in
/-- Keys with the root and the generation of their session; a root is in its own session. -/
structure Sessions (κ : Type) where
  route : κ → Option (κ × Nat)
  owns : ∀ {k r g}, route k = some (r, g) → route r = some (r, g)

namespace Sessions

variable {κ : Type}

/-- The generation of the session a key belongs to: the key's fencing token. -/
def generation (S : Sessions κ) (k : κ) : Option Nat := (S.route k).map Prod.snd

/-- The input keys and the whole sessions of the request root and of the input keys. -/
def cover (S : Sessions κ) (inputs : Set κ) (root : κ) : Set κ :=
  {k | k ∈ inputs ∨ ∃ r g, S.route k = some (r, g) ∧
    (r = root ∨ ∃ j ∈ inputs, ∃ g', S.route j = some (r, g'))}

/-- When a set of keys may be handed to a root at a generation. -/
structure Assignable (S : Sessions κ) (keys : Set κ) (root : κ) (g : Nat) : Prop where
  rooted : root ∈ keys ∨ S.route root = some (root, g)
  closed : ∀ k r g', S.route k = some (r, g') → k ∉ keys → r ∈ keys → (r, g') = (root, g)
  newer : ∀ k ∈ keys, ∀ r g', S.route k = some (r, g') → g' ≤ g

open scoped Classical in
/-- Hand a set of keys to a root at a generation. -/
noncomputable def assign (S : Sessions κ) (keys : Set κ) (root : κ) (g : Nat)
    (h : S.Assignable keys root g) : Sessions κ where
  route k := if k ∈ keys then some (root, g) else S.route k
  owns := by
    intro k r g' hk
    split at hk
    · cases hk
      split
      · rfl
      · next hn => exact h.rooted.resolve_left hn
    · next hn =>
      split
      · next hr => rw [h.closed k r g' hk hn hr]
      · exact S.owns hk

/-- A store moves by handing keys over, or stands still. -/
inductive Step (S : Sessions κ) : Sessions κ → Prop
  | stay : Step S S
  | assign (keys : Set κ) (root : κ) (g : Nat) (h : S.Assignable keys root g) :
      Step S (S.assign keys root g h)

/-- Sessions are equal when they route every key alike. -/
theorem ext {S T : Sessions κ} (h : ∀ k, S.route k = T.route k) : S = T := by
  obtain ⟨f, _⟩ := S
  obtain ⟨g, _⟩ := T
  have hfg : f = g := funext h
  subst hfg
  rfl

/-- A key inside the set is routed to the new root. -/
theorem route_assign_of_mem (S : Sessions κ) {keys : Set κ} {root : κ} {g : Nat}
    (h : S.Assignable keys root g) {k : κ} (hk : k ∈ keys) :
    (S.assign keys root g h).route k = some (root, g) := if_pos hk

/-- A key outside the set keeps its route. -/
theorem route_assign_of_notMem (S : Sessions κ) {keys : Set κ} {root : κ} {g : Nat}
    (h : S.Assignable keys root g) {k : κ} (hk : k ∉ keys) :
    (S.assign keys root g h).route k = S.route k := if_neg hk

/-- A covered session is covered whole. -/
theorem mem_cover_of_route (S : Sessions κ) {inputs : Set κ} {root k r : κ} {g : Nat}
    (hk : S.route k = some (r, g)) (hr : r ∈ S.cover inputs root) : k ∈ S.cover inputs root := by
  have hrr := S.owns hk
  rcases hr with hr | ⟨r', g', hr', hcase⟩
  · exact .inr ⟨r, g, hk, .inr ⟨r, hr, g, hrr⟩⟩
  · rw [hrr] at hr'
    cases hr'
    exact .inr ⟨r, g, hk, hcase⟩

/-- The whole sessions around the inputs may be handed to an input key at any generation
that is not older than theirs. -/
theorem assignable_cover (S : Sessions κ) {inputs : Set κ} {root : κ} {g : Nat}
    (hroot : root ∈ inputs)
    (hg : ∀ k ∈ S.cover inputs root, ∀ r g', S.route k = some (r, g') → g' ≤ g) :
    S.Assignable (S.cover inputs root) root g where
  rooted := .inl (.inl hroot)
  closed _ _ _ hk hn hr := absurd (S.mem_cover_of_route hk hr) hn
  newer := hg

/-- Every step moves the fencing tokens forward. -/
theorem Step.forward {S T : Sessions κ} (h : Step S T) : Forward generation S T := by
  cases h with
  | stay => exact Forward.refl S
  | assign keys root g h =>
    intro k g₀ hk
    by_cases hm : k ∈ keys
    · obtain ⟨⟨r, g'⟩, hr, rfl⟩ := Option.map_eq_some_iff.mp hk
      exact ⟨g, by rw [generation, S.route_assign_of_mem h hm]; rfl, h.newer k hm r g' hr⟩
    · exact ⟨g₀, by rw [generation, S.route_assign_of_notMem h hm]; exact hk, Nat.le_refl g₀⟩

/-- A root that is fenced off at a newer generation does not carry the older one. -/
theorem route_ne_of_generation (S : Sessions κ) {r : κ} {g : Nat}
    (h : S.generation r ≠ some g) (k : κ) : S.route k ≠ some (r, g) := by
  intro hk
  exact h (by rw [generation, S.owns hk]; rfl)

end Sessions
end Transition
