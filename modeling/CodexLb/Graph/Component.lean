import Mathlib.Algebra.BigOperators.Group.List.Basic
import Mathlib.Algebra.GroupWithZero.Nat
import Mathlib.Data.Finset.Card
import Mathlib.Logic.Relation

/-!
# Connected components by saturation

Groups of points link their members. The component of a point is what passes
over the groups add to it until a pass adds nothing.
-/

namespace Graph

variable {α : Type} [DecidableEq α]

/-- Two points are linked when some group holds both. -/
def Linked (groups : List (Finset α)) (x y : α) : Prop := ∃ g ∈ groups, x ∈ g ∧ y ∈ g

/-- Two points are connected by a chain of links. -/
def Connected (groups : List (Finset α)) : α → α → Prop := Relation.ReflTransGen (Linked groups)

/-- Add a group that meets the points found so far. -/
def absorb (found group : Finset α) : Finset α :=
  if (group ∩ found).Nonempty then found ∪ group else found

/-- One pass over the groups. -/
def pass (groups : List (Finset α)) (found : Finset α) : Finset α := groups.foldl absorb found

/-- Passes until one adds nothing. -/
def saturate (groups : List (Finset α)) : Nat → Finset α → Finset α
  | 0, found => found
  | fuel + 1, found =>
    let next := pass groups found
    if next = found then found else saturate groups fuel next

/-- Enough passes: every pass but the last adds a point of some group. -/
def passes (groups : List (Finset α)) : Nat := (groups.map Finset.card).sum + 1

/-- The component of a point. -/
def component (groups : List (Finset α)) (x : α) : Finset α :=
  saturate groups (passes groups) {x}

/-! ### Connection -/

section Connected

variable {groups : List (Finset α)} {x y z : α}

omit [DecidableEq α] in
/-- Links go both ways. -/
theorem Linked.symm (h : Linked groups x y) : Linked groups y x := by
  obtain ⟨g, hg, hx, hy⟩ := h
  exact ⟨g, hg, hy, hx⟩

omit [DecidableEq α] in
/-- Every point is connected to itself. -/
theorem Connected.refl (x : α) : Connected groups x x := Relation.ReflTransGen.refl

omit [DecidableEq α] in
/-- Linked points are connected. -/
theorem Connected.single (h : Linked groups x y) : Connected groups x y :=
  Relation.ReflTransGen.single h

omit [DecidableEq α] in
/-- Connections compose. -/
theorem Connected.trans (h : Connected groups x y) (k : Connected groups y z) :
    Connected groups x z := Relation.ReflTransGen.trans h k

omit [DecidableEq α] in
/-- Connections go both ways. -/
theorem Connected.symm (h : Connected groups x y) : Connected groups y x := by
  induction h with
  | refl => exact .refl _
  | tail _ hlink ih => exact (Connected.single hlink.symm).trans ih

omit [DecidableEq α] in
/-- A property that links preserve holds throughout a component. -/
theorem Connected.preserves {P : α → Prop} (h : Connected groups x y)
    (keep : ∀ a b, Linked groups a b → Connected groups x a → P a → P b) (hx : P x) : P y := by
  induction h with
  | refl => exact hx
  | tail hab hlink ih => exact keep _ _ hlink hab ih

end Connected

/-! ### Saturation -/

section Saturate

variable {groups : List (Finset α)} {found universe' : Finset α} {x y : α}

private theorem subset_absorb (found group : Finset α) : found ⊆ absorb found group := by
  unfold absorb
  split
  · exact Finset.subset_union_left
  · exact Finset.Subset.refl _

private theorem subset_pass (groups : List (Finset α)) (found : Finset α) :
    found ⊆ pass groups found := by
  induction groups generalizing found with
  | nil => exact Finset.Subset.refl _
  | cons g groups ih => exact (subset_absorb found g).trans (ih (absorb found g))

/-- A pass that adds nothing leaves every group inside or outside. -/
private theorem closed_of_pass (h : pass groups found = found) {g : Finset α} (hg : g ∈ groups)
    (hmeets : (g ∩ found).Nonempty) : g ⊆ found := by
  induction groups generalizing found with
  | nil => cases hg
  | cons first groups ih =>
    change pass groups (absorb found first) = found at h
    have hle : absorb found first ⊆ found := by
      have hrest := subset_pass groups (absorb found first)
      rwa [h] at hrest
    rcases List.mem_cons.mp hg with rfl | hg
    · rw [absorb, if_pos hmeets] at hle
      exact Finset.subset_union_right.trans hle
    · rw [hle.antisymm (subset_absorb found first)] at h
      exact ih h hg hmeets

private theorem pass_subset (hgroups : ∀ g ∈ groups, g ⊆ universe')
    (hfound : found ⊆ universe') : pass groups found ⊆ universe' := by
  induction groups generalizing found with
  | nil => exact hfound
  | cons g groups ih =>
    apply ih fun other hother ↦ hgroups other (List.mem_cons_of_mem g hother)
    unfold absorb
    split
    · exact Finset.union_subset hfound (hgroups g List.mem_cons_self)
    · exact hfound

private theorem saturate_succ (groups : List (Finset α)) (fuel : Nat) (found : Finset α) :
    saturate groups (fuel + 1) found =
      if pass groups found = found then found else saturate groups fuel (pass groups found) := rfl

/-- With enough passes the last one adds nothing. -/
private theorem pass_saturate (hgroups : ∀ g ∈ groups, g ⊆ universe') {fuel : Nat}
    (hfound : found ⊆ universe') (hfuel : universe'.card < found.card + fuel) :
    pass groups (saturate groups fuel found) = saturate groups fuel found := by
  induction fuel generalizing found with
  | zero =>
    have hle := Finset.card_le_card hfound
    omega
  | succ fuel ih =>
    rw [saturate_succ]
    split
    · next h => exact h
    · next hgrew =>
      have hlt : found.card < (pass groups found).card :=
        Finset.card_lt_card ((subset_pass groups found).ssubset_of_ne (Ne.symm hgrew))
      exact ih (pass_subset hgroups hfound) (by omega)

private theorem subset_saturate (groups : List (Finset α)) (fuel : Nat) (found : Finset α) :
    found ⊆ saturate groups fuel found := by
  induction fuel generalizing found with
  | zero => exact Finset.Subset.refl _
  | succ fuel ih =>
    rw [saturate_succ]
    split
    · exact Finset.Subset.refl _
    · exact (subset_pass groups found).trans (ih _)

private theorem connected_of_pass {more : List (Finset α)} (hall : groups ⊆ more)
    (hfound : ∀ y ∈ found, Connected more x y) : ∀ y ∈ pass groups found, Connected more x y := by
  induction groups generalizing found with
  | nil => exact hfound
  | cons g groups ih =>
    apply ih fun other hother ↦ hall (List.mem_cons_of_mem g hother)
    intro y hy
    unfold absorb at hy
    split at hy
    · next hmeets =>
      obtain ⟨a, ha⟩ := hmeets
      rw [Finset.mem_inter] at ha
      rcases Finset.mem_union.mp hy with hy | hy
      · exact hfound y hy
      · exact (hfound a ha.2).trans (.single ⟨g, hall List.mem_cons_self, ha.1, hy⟩)
    · exact hfound y hy

private theorem connected_of_saturate {fuel : Nat} (hfound : ∀ y ∈ found, Connected groups x y) :
    ∀ y ∈ saturate groups fuel found, Connected groups x y := by
  induction fuel generalizing found with
  | zero => exact hfound
  | succ fuel ih =>
    rw [saturate_succ]
    split
    · exact hfound
    · exact ih (connected_of_pass (fun _ h ↦ h) hfound)

private theorem card_biUnion_le (groups : List (Finset α)) :
    (groups.foldr (· ∪ ·) ∅).card ≤ (groups.map Finset.card).sum := by
  induction groups with
  | nil => exact Nat.le_refl _
  | cons g groups ih =>
    rw [List.foldr_cons, List.map_cons, List.sum_cons]
    exact (Finset.card_union_le _ _).trans (Nat.add_le_add_left ih _)

private theorem subset_foldr {g : Finset α} (hg : g ∈ groups) : g ⊆ groups.foldr (· ∪ ·) ∅ := by
  induction groups with
  | nil => cases hg
  | cons first groups ih =>
    rw [List.foldr_cons]
    rcases List.mem_cons.mp hg with rfl | hg
    · exact Finset.subset_union_left
    · exact (ih hg).trans Finset.subset_union_right

/-- The component of a point holds exactly the points connected to it. -/
theorem mem_component : y ∈ component groups x ↔ Connected groups x y := by
  constructor
  · apply connected_of_saturate
    intro y hy
    rw [Finset.mem_singleton.mp hy]
    exact .refl x
  · intro h
    have hclosed : pass groups (component groups x) = component groups x := by
      have hcard := card_biUnion_le groups
      have hgroups : ∀ g ∈ groups, g ⊆ {x} ∪ groups.foldr (· ∪ ·) ∅ :=
        fun g hg ↦ (subset_foldr hg).trans Finset.subset_union_right
      apply pass_saturate hgroups Finset.subset_union_left
      have hle := Finset.card_union_le {x} (groups.foldr (· ∪ ·) ∅)
      rw [Finset.card_singleton] at hle ⊢
      rw [passes]
      omega
    apply h.preserves
    · rintro a b ⟨g, hg, ha, hb⟩ - hin
      exact closed_of_pass hclosed hg ⟨a, Finset.mem_inter.mpr ⟨ha, hin⟩⟩ hb
    · exact subset_saturate groups _ _ (Finset.mem_singleton_self x)

end Saturate

end Graph
