import CodexLb.Route.Invariant
import CodexLb.Transition.Sessions

/-!
# The route tables refine sessions

The abstraction reads a key's root and generation from the two route tables.
Forgetting is no abstract step and a handover is one assignment, so the
fencing rules of sessions hold of the stored generations.
-/

namespace CodexLb

open Relational Transition

namespace Store

/-- The root that a key is mapped to, with its row. -/
def rootOf (s : Store) (k : String) : Option (String × SessionRoot) :=
  (s.sessionRouteKeys.find k).bind fun row ↦
    (s.sessionRoots.find row.rootKeyHash).map fun root ↦ (row.rootKeyHash, root)

/-- The root and the generation of a key. -/
def route (s : Store) (k : String) : Option (String × Nat) :=
  (s.rootOf k).map fun root ↦ (root.1, root.2.routeGeneration)

/-- The generation of the root a key is mapped to. -/
def generation (s : Store) (k : String) : Option Nat := (s.route k).map Prod.snd

/-- A key whose root has received a route action. -/
def Commanded (s : Store) (k : String) : Prop :=
  ∃ r root, s.rootOf k = some (r, root) ∧ root.lastAction.isSome = true

/-- A mapped key with its root, spelled out in the tables. -/
theorem rootOf_eq_some_iff {s : Store} {k r : String} {root : SessionRoot} :
    s.rootOf k = some (r, root) ↔
      ∃ row, s.sessionRouteKeys.find k = some row ∧ row.rootKeyHash = r ∧
        s.sessionRoots.find r = some root := by
  rw [rootOf, Option.bind_eq_some_iff]
  constructor
  · rintro ⟨row, hk, hr⟩
    obtain ⟨old, ho, he⟩ := Option.map_eq_some_iff.mp hr
    cases he
    exact ⟨row, hk, rfl, ho⟩
  · rintro ⟨row, hk, rfl, hr⟩
    exact ⟨row, hk, by rw [hr]; rfl⟩

/-- The route of a key, spelled out in the tables. -/
theorem route_eq_some_iff {s : Store} {k r : String} {g : Nat} :
    s.route k = some (r, g) ↔ ∃ root, s.rootOf k = some (r, root) ∧ root.routeGeneration = g := by
  rw [route, Option.map_eq_some_iff]
  constructor
  · rintro ⟨⟨r', root⟩, hk, he⟩
    cases he
    exact ⟨root, hk, rfl⟩
  · rintro ⟨root, hk, rfl⟩
    exact ⟨(r, root), hk, rfl⟩

namespace RouteInvariant

variable {s : Store}

/-- A stored root is mapped to itself. -/
theorem rootOf_self (hs : s.RouteInvariant) {r : String} {root : SessionRoot}
    (hr : s.sessionRoots.find r = some root) : s.rootOf r = some (r, root) := by
  obtain ⟨row, hrow, he⟩ := hs.rootOwnsKey r root hr
  exact rootOf_eq_some_iff.mpr ⟨row, hrow, he, hr⟩

/-- A mapped key has a root. -/
theorem rootOf_of_mapped (hs : s.RouteInvariant) {k : String} {row : SessionRouteKeyRow}
    (hk : s.sessionRouteKeys.find k = some row) :
    ∃ root, s.rootOf k = some (row.rootKeyHash, root) := by
  obtain ⟨root, hr⟩ := hs.keyHasRoot k row hk
  exact ⟨root, rootOf_eq_some_iff.mpr ⟨row, hk, rfl, hr⟩⟩

end RouteInvariant

/-- The abstract sessions of a store that satisfies its invariant. -/
def sessions (s : Store) (hs : s.RouteInvariant) : Sessions String where
  route := s.route
  owns h := by
    obtain ⟨root, hk, hg⟩ := route_eq_some_iff.mp h
    obtain ⟨-, -, -, hr⟩ := rootOf_eq_some_iff.mp hk
    exact route_eq_some_iff.mpr ⟨root, hs.rootOf_self hr, hg⟩

end Store

/-! ### Simulation -/

namespace Forgetting

variable {keep : Uuid → Bool} {s t : Store}

/-- Forgetting keeps every key on its root, up to references to accounts. -/
theorem rootOf (h : Forgetting keep s t) (k : String) :
    t.rootOf k = (s.rootOf k).map fun root ↦ (root.1, root.2.keepAccounts keep) := by
  rw [Store.rootOf, Store.rootOf, h.routeKeys]
  cases s.sessionRouteKeys.find k with
  | none => rfl
  | some row =>
    rw [Option.bind_some, Option.bind_some, h.roots]
    cases s.sessionRoots.find row.rootKeyHash <;> rfl

/-- Forgetting keeps every route. -/
theorem route (h : Forgetting keep s t) (k : String) : t.route k = s.route k := by
  rw [Store.route, Store.route, h.rootOf]
  cases s.rootOf k <;> rfl

end Forgetting

namespace Handover

variable {keys : Set String} {rootKeyHash : String} {root : SessionRoot} {s t : Store}

/-- The keys are mapped to the new root. -/
theorem rootOf_of_mem (h : Handover keys rootKeyHash root s t) {k : String} (hk : k ∈ keys) :
    t.rootOf k = some (rootKeyHash, root) := by
  obtain ⟨kind, hkk⟩ := h.mapped k hk
  exact Store.rootOf_eq_some_iff.mpr ⟨_, hkk, rfl, h.installed⟩

/-- Every other key keeps its root. -/
theorem rootOf_of_notMem (h : Handover keys rootKeyHash root s t) {k : String} (hk : k ∉ keys) :
    t.rootOf k = s.rootOf k := by
  rw [Store.rootOf, Store.rootOf, h.unmapped k hk]
  cases hrow : s.sessionRouteKeys.find k with
  | none => rfl
  | some row =>
    obtain ⟨hne, hfree⟩ := h.closed k row hrow hk
    rw [Option.bind_some, Option.bind_some,
      h.others _ hne fun j hj other ho ↦ hfree j hj other ho]

/-- The keys of a handover may be assigned to its root. -/
theorem assignable (h : Handover keys rootKeyHash root s t) (hs : s.RouteInvariant) :
    (s.sessions hs).Assignable keys rootKeyHash root.routeGeneration where
  rooted := .inl h.rooted
  closed k r g hk hn hr := by
    -- a root among the keys is mapped to itself, so its whole session is among them
    obtain ⟨old, hold, hg⟩ := Store.route_eq_some_iff.mp hk
    obtain ⟨row, hrow, he, hroot⟩ := Store.rootOf_eq_some_iff.mp hold
    obtain ⟨self, hself, hes⟩ := hs.rootOwnsKey r old hroot
    exact absurd (hes.trans he.symm) ((h.closed k row hrow hn).2 r hr self hself)
  newer k hk r g hr := by
    obtain ⟨old, hold, rfl⟩ := Store.route_eq_some_iff.mp hr
    obtain ⟨row, hrow, rfl, hroot⟩ := Store.rootOf_eq_some_iff.mp hold
    exact (h.newer k hk row old hrow hroot).1

/-- A handover is one assignment of the sessions. -/
theorem sessions_assign (h : Handover keys rootKeyHash root s t) (hs : s.RouteInvariant) :
    t.sessions (h.routeInvariant hs) =
      (s.sessions hs).assign keys rootKeyHash root.routeGeneration (h.assignable hs) := by
  apply Sessions.ext
  intro k
  by_cases hk : k ∈ keys
  · rw [Sessions.route_assign_of_mem _ _ hk]
    exact Store.route_eq_some_iff.mpr ⟨root, h.rootOf_of_mem hk, rfl⟩
  · rw [Sessions.route_assign_of_notMem _ _ hk]
    show t.route k = s.route k
    rw [Store.route, Store.route, h.rootOf_of_notMem hk]

end Handover

namespace RouteChange

variable {s t : Store}

/-- Every committed write is an abstract step. -/
theorem sessions_step (h : RouteChange s t) (hs : s.RouteInvariant) :
    Sessions.Step (s.sessions hs) (t.sessions (h.routeInvariant hs)) := by
  cases h with
  | forget keep h =>
    have he : t.sessions (h.routeInvariant hs) = s.sessions hs := Sessions.ext h.route
    rw [he]
    exact .stay
  | handover keys rootKeyHash root h =>
    have he : t.sessions (h.routeInvariant hs) =
        (s.sessions hs).assign keys rootKeyHash root.routeGeneration (h.assignable hs) :=
      h.sessions_assign hs
    rw [he]
    exact .assign keys rootKeyHash root.routeGeneration (h.assignable hs)

/-- Every committed write moves the generations of the keys forward. -/
theorem forward (h : RouteChange s t) (hs : s.RouteInvariant) : Forward Store.generation s t :=
  (h.sessions_step hs).forward

/-- A key that has received a route action never leaves that state. -/
theorem commanded (h : RouteChange s t) {k : String} (hk : s.Commanded k) : t.Commanded k := by
  obtain ⟨r, old, hr, ha⟩ := hk
  cases h with
  | forget keep h => exact ⟨r, old.keepAccounts keep, by rw [h.rootOf, hr]; rfl, ha⟩
  | handover keys rootKeyHash root h =>
    by_cases hm : k ∈ keys
    · obtain ⟨row, hrow, rfl, hroot⟩ := Store.rootOf_eq_some_iff.mp hr
      exact ⟨rootKeyHash, root, h.rootOf_of_mem hm, (h.newer k hm row old hrow hroot).2 ha⟩
    · exact ⟨r, old, by rw [h.rootOf_of_notMem hm, hr], ha⟩

end RouteChange

/-- A root that was passed by a newer generation of its own key is not current. -/
theorem Store.RouteInvariant.root_ne {s : Store} (hs : s.RouteInvariant) {r : String} {g : Nat}
    (h : s.generation r ≠ some g) {root : SessionRoot} (hr : s.sessionRoots.find r = some root) :
    root.routeGeneration ≠ g := by
  intro hg
  have hroute := route_eq_some_iff.mpr ⟨root, hs.rootOf_self hr, hg⟩
  exact (s.sessions hs).route_ne_of_generation h r hroute

end CodexLb
