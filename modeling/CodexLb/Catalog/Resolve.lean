import CodexLb.Catalog.Rollout
import Mathlib.Data.Finset.Card
import Mathlib.Logic.Relation

/-!
# Root resolution

`canonical_root` and `resolve_root`, `src/cli.rs:696–743`, and the relation
they decide. A derivation of `Resolves` is finite, so it exists exactly where
the recursion meets no identifier again that it is still visiting.
-/

namespace CodexLb

open Relational (Table)

/-! ### The links of a node -/

/-- The links of a node, without its modification time. -/
structure RolloutLinks where
  sessionId : Option Uuid
  parentThreadId : Option Uuid
  forkedFromId : Option Uuid
  deriving DecidableEq

namespace RolloutLinks

/-- `RolloutNode::parent_id` reads the links only. -/
def parentId (links : RolloutLinks) : Option Uuid := links.parentThreadId.or links.forkedFromId

/-- The aliases of a node: the identifiers that it links to, `src/cli.rs:757–759`. -/
def aliases (links : RolloutLinks) : List Uuid :=
  [links.sessionId, links.parentThreadId, links.forkedFromId].filterMap id

/-- Parent and fork identifiers do not differ. -/
def Consistent (links : RolloutLinks) : Prop :=
  ∀ parent forked, links.parentThreadId = some parent → links.forkedFromId = some forked →
    parent = forked

variable {links : RolloutLinks} {id : Uuid}

/-- The aliases by field. -/
theorem mem_aliases : id ∈ links.aliases ↔
    links.sessionId = some id ∨ links.parentThreadId = some id ∨
      links.forkedFromId = some id := by
  simp [aliases, List.mem_filterMap, eq_comm]

/-- The parent is an alias. -/
theorem mem_aliases_of_parentId (h : links.parentId = some id) : id ∈ links.aliases := by
  rw [parentId, Option.or_eq_some_iff] at h
  rw [mem_aliases]
  rcases h with h | ⟨-, h⟩
  · exact .inr (.inl h)
  · exact .inr (.inr h)

/-- The session is an alias. -/
theorem mem_aliases_of_sessionId (h : links.sessionId = some id) : id ∈ links.aliases :=
  mem_aliases.mpr (.inl h)

/-- Under consistent links every alias is the session or the parent. -/
theorem Consistent.sessionId_or_parentId (h : links.Consistent) (hid : id ∈ links.aliases) :
    links.sessionId = some id ∨ links.parentId = some id := by
  rcases mem_aliases.mp hid with hs | hp | hf
  · exact .inl hs
  · right
    rw [parentId, hp, Option.some_or]
  · right
    cases hp : links.parentThreadId with
    | none => rw [parentId, hp, Option.none_or, hf]
    | some parent => rw [parentId, hp, Option.some_or, h parent id hp hf]

end RolloutLinks

namespace RolloutNode

/-- The links of a node. -/
def links (node : RolloutNode) : RolloutLinks :=
  ⟨node.sessionId, node.parentThreadId, node.forkedFromId⟩

/-- The parent of a node is that of its links. -/
@[simp] theorem parentId_links (node : RolloutNode) : node.links.parentId = node.parentId := rfl

/-- The session of a node is that of its links. -/
@[simp] theorem sessionId_links (node : RolloutNode) : node.links.sessionId = node.sessionId := rfl

/-- Two nodes have the same links when the comparison of the source says so. -/
theorem hasSameLinks_iff {node other : RolloutNode} :
    node.hasSameLinks other = true ↔ node.links = other.links := by
  simp [hasSameLinks, links, and_assoc]

end RolloutNode

namespace SessionCatalog

/-! ### The code -/

/-- The message for a parent graph with a cycle, `src/cli.rs:708`. -/
def cycleMessage : String :=
  "cannot resolve this session tree because its parent graph contains a cycle"

/-- The message for an identifier with an issue, `src/cli.rs:702` and `724`. -/
def issueMessage (issue : String) : String := "cannot resolve this session tree: " ++ issue

/-- The root that a node's own session names, `src/cli.rs:712–727`. -/
def authoritativeRoot (catalog : SessionCatalog) (resolve : Uuid → Except String Uuid)
    (id sessionId : Uuid) : Except String Uuid :=
  if sessionId = id then .ok id
  else if catalog.nodes.has sessionId then do
    let resolved ← resolve sessionId
    if resolved ≠ sessionId then
      .error ("cannot resolve this session tree because its authoritative root is not a root")
    else .ok sessionId
  else
    match catalog.issues.find sessionId with
    | some issue => .error (issueMessage issue)
    | none => .ok sessionId

/-- The root of a stored node, given how the identifiers it links to resolve;
`src/cli.rs:711–740`. -/
def nodeRoot (catalog : SessionCatalog) (resolve : Uuid → Except String Uuid) (id : Uuid)
    (node : RolloutNode) : Except String Uuid :=
  match node.sessionId with
  | some sessionId => do
    let root ← catalog.authoritativeRoot resolve id sessionId
    match node.parentId with
    | some parentId =>
      let parentRoot ← resolve parentId
      if parentRoot ≠ root then
        .error ("cannot resolve this session tree because its session_id conflicts with its " ++
          "parent root")
      else .ok root
    | none => .ok root
  | none =>
    match node.parentId with
    | some parentId => resolve parentId
    | none => .ok id

/-- `resolve_root`, `src/cli.rs:700–743`. An identifier leaves the visiting set when its call
returns, so the set is the path of calls in progress; it never outgrows the nodes. -/
def resolveRoot (catalog : SessionCatalog) : Nat → List Uuid → Uuid → Except String Uuid
  | 0, _, _ => .error cycleMessage
  | fuel + 1, visiting, id =>
    match catalog.issues.find id with
    | some issue => .error (issueMessage issue)
    | none =>
      match catalog.nodes.find id with
      | none => .ok id
      | some node =>
        if id ∈ visiting then .error cycleMessage
        else catalog.nodeRoot (resolveRoot catalog fuel (id :: visiting)) id node

/-- `canonical_root`, `src/cli.rs:696–698`. -/
def canonicalRoot (catalog : SessionCatalog) (id : Uuid) : Except String Uuid :=
  catalog.resolveRoot (catalog.nodes.rows.length + 1) [] id

end SessionCatalog

/-! ### Resolution as a relation -/

/-- An identifier resolves to a root: no identifier on the way carries an issue, the session of a
node is a root of its own, and the parent of a node has the root of the node. -/
inductive Resolves (links : Uuid → Option RolloutLinks) (flagged : Uuid → Prop) :
    Uuid → Uuid → Prop
  | dangling {id} : ¬flagged id → links id = none → Resolves links flagged id id
  | session {id l root} : ¬flagged id → links id = some l → l.sessionId = some root →
      (root ≠ id → Resolves links flagged root root) →
      (∀ parent, l.parentId = some parent → Resolves links flagged parent root) →
      Resolves links flagged id root
  | parent {id l parent root} : ¬flagged id → links id = some l → l.sessionId = none →
      l.parentId = some parent → Resolves links flagged parent root → Resolves links flagged id root
  | root {id l} : ¬flagged id → links id = some l → l.sessionId = none → l.parentId = none →
      Resolves links flagged id id

/-- Resolving the second identifier asks for the first. -/
def Asks (links : Uuid → Option RolloutLinks) (asked id : Uuid) : Prop :=
  ∃ l, links id = some l ∧ (l.sessionId = some asked ∧ asked ≠ id ∨ l.parentId = some asked)

namespace Resolves

variable {links links' : Uuid → Option RolloutLinks} {flagged flagged' : Uuid → Prop}
  {id root : Uuid}

/-- An identifier that resolves has no issue. -/
theorem not_flagged (h : Resolves links flagged id root) : ¬flagged id := by
  cases h <;> assumption

/-- Below an identifier that resolves, the questions end. -/
theorem acc (h : Resolves links flagged id root) : Acc (Asks links) id := by
  induction h with
  | dangling _ hl =>
    constructor
    intro asked ⟨l, hl', _⟩
    rw [hl] at hl'
    cases hl'
  | session _ hl hs _ _ ihs ihp =>
    constructor
    intro asked ⟨l, hl', hasks⟩
    rw [hl] at hl'
    cases hl'
    rcases hasks with ⟨hasked, hne⟩ | hasked
    · rw [hs] at hasked
      cases hasked
      exact ihs hne
    · exact ihp asked hasked
  | parent _ hl hs hp _ ih =>
    constructor
    intro asked ⟨l, hl', hasks⟩
    rw [hl] at hl'
    cases hl'
    rcases hasks with ⟨hasked, -⟩ | hasked
    · rw [hs] at hasked
      cases hasked
    · rw [hp] at hasked
      cases hasked
      exact ih
  | root _ hl hs hp =>
    constructor
    intro asked ⟨l, hl', hasks⟩
    rw [hl] at hl'
    cases hl'
    rcases hasks with ⟨hasked, -⟩ | hasked
    · rw [hs] at hasked
      cases hasked
    · rw [hp] at hasked
      cases hasked

/-- A root resolves to itself. -/
theorem root_self (h : Resolves links flagged id root) : Resolves links flagged root root := by
  induction h with
  | dangling hf hl => exact .dangling hf hl
  | @session id l root hf hl hs hself hparent _ _ =>
    by_cases hne : root = id
    · subst hne
      exact .session hf hl hs (fun hne ↦ absurd rfl hne) hparent
    · exact hself hne
  | parent _ _ _ _ _ ih => exact ih
  | root hf hl hs hp => exact .root hf hl hs hp

/-- The aliases of a node have the root of the node. -/
theorem aliases (h : Resolves links flagged id root) {l : RolloutLinks} (hl : links id = some l)
    (hc : l.Consistent) {alias' : Uuid} (ha : alias' ∈ l.aliases) :
    Resolves links flagged alias' root := by
  have hroot := h.root_self
  cases h with
  | dangling _ hnone =>
    rw [hl] at hnone
    cases hnone
  | session _ hl' hs _ hparent =>
    rw [hl] at hl'
    cases hl'
    rcases hc.sessionId_or_parentId ha with hid | hid
    · rw [hs] at hid
      cases hid
      exact hroot
    · exact hparent alias' hid
  | parent _ hl' hs hp hparent =>
    rw [hl] at hl'
    cases hl'
    rcases hc.sessionId_or_parentId ha with hid | hid
    · rw [hs] at hid
      cases hid
    · rw [hp] at hid
      cases hid
      exact hparent
  | root _ hl' hs hp =>
    rw [hl] at hl'
    cases hl'
    rcases hc.sessionId_or_parentId ha with hid | hid
    · rw [hs] at hid
      cases hid
    · rw [hp] at hid
      cases hid

/-- Resolution reads only identifiers inside a set that is closed under links. -/
theorem congr (h : Resolves links flagged id root) {inside : Uuid → Prop} (hid : inside id)
    (hclosed : ∀ a l b, inside a → links a = some l → b ∈ l.aliases → inside b)
    (hlinks : ∀ a, inside a → links' a = links a)
    (hflagged : ∀ a, inside a → (flagged' a ↔ flagged a)) :
    Resolves links' flagged' id root := by
  induction h with
  | dangling hf hl =>
    exact .dangling (mt (hflagged _ hid).mp hf) ((hlinks _ hid).trans hl)
  | session hf hl hs _ _ ihs ihp =>
    apply Resolves.session (mt (hflagged _ hid).mp hf) ((hlinks _ hid).trans hl) hs
    · intro hne
      exact ihs hne (hclosed _ _ _ hid hl (RolloutLinks.mem_aliases_of_sessionId hs))
    · intro parent hp
      exact ihp parent hp (hclosed _ _ _ hid hl (RolloutLinks.mem_aliases_of_parentId hp))
  | parent hf hl hs hp _ ih =>
    apply Resolves.parent (mt (hflagged _ hid).mp hf) ((hlinks _ hid).trans hl) hs hp
    exact ih (hclosed _ _ _ hid hl (RolloutLinks.mem_aliases_of_parentId hp))
  | root hf hl hs hp =>
    exact .root (mt (hflagged _ hid).mp hf) ((hlinks _ hid).trans hl) hs hp

end Resolves

/-! ### The code decides the relation -/

namespace SessionCatalog

variable {catalog : SessionCatalog} {resolve : Uuid → Except String Uuid} {id root : Uuid}
  {node : RolloutNode}

/-- The links stored under an identifier. -/
def linksOf (catalog : SessionCatalog) (id : Uuid) : Option RolloutLinks :=
  (catalog.nodes.find id).map RolloutNode.links

/-- An identifier has an issue. -/
def Flagged (catalog : SessionCatalog) (id : Uuid) : Prop := catalog.issues.has id = true

/-- An identifier without an issue has none in the table. -/
theorem not_flagged_iff : ¬catalog.Flagged id ↔ catalog.issues.find id = none := by
  rw [Flagged, Bool.not_eq_true, Table.has_eq_false_iff]

/-- The relation that resolution decides on a catalog. -/
abbrev ResolvesIn (catalog : SessionCatalog) : Uuid → Uuid → Prop :=
  Resolves catalog.linksOf catalog.Flagged

private theorem authoritativeRoot_ok_iff {sessionId : Uuid} :
    catalog.authoritativeRoot resolve id sessionId = .ok root ↔ root = sessionId ∧
      (sessionId ≠ id → if catalog.nodes.has sessionId then resolve sessionId = .ok sessionId
        else catalog.issues.find sessionId = none) := by
  rw [eq_comm (a := root)]
  unfold authoritativeRoot
  split
  · next h => simp [h]
  · next h =>
    split
    · next hhas =>
      cases hr : resolve sessionId with
      | error message => simp [bind, Except.bind, h]
      | ok resolved =>
        by_cases he : resolved = sessionId
        · simp [bind, Except.bind, h, he]
        · simp [bind, Except.bind, h, he]
    · next hhas =>
      cases hi : catalog.issues.find sessionId with
      | some issue => simp [h]
      | none => simp [h]

private theorem nodeRoot_session_iff {sessionId : Uuid} (hs : node.sessionId = some sessionId) :
    catalog.nodeRoot resolve id node = .ok root ↔
      catalog.authoritativeRoot resolve id sessionId = .ok root ∧
        ∀ parent, node.parentId = some parent → resolve parent = .ok root := by
  rw [nodeRoot, hs]
  cases ha : catalog.authoritativeRoot resolve id sessionId with
  | error message => simp [bind, Except.bind, ha]
  | ok authoritative =>
    cases hp : node.parentId with
    | none => simp [bind, Except.bind, ha]
    | some parent =>
      cases hr : resolve parent with
      | error message => simp [bind, Except.bind, ha, hr]
      | ok parentRoot =>
        by_cases he : parentRoot = authoritative
        · simp [bind, Except.bind, ha, hr, he]
        · simp only [bind, Except.bind, ha, hr, he, ne_eq, not_false_eq_true, if_true,
            reduceCtorEq, false_iff, Option.some.injEq, forall_eq', Except.ok.injEq, not_and]
          rintro rfl
          exact he

private theorem nodeRoot_parent_iff (hs : node.sessionId = none) :
    catalog.nodeRoot resolve id node = .ok root ↔
      match node.parentId with
      | some parent => resolve parent = .ok root
      | none => id = root := by
  rw [nodeRoot, hs]
  cases node.parentId with
  | none => simp
  | some parent => rfl

private theorem resolveRoot_succ (catalog : SessionCatalog) (fuel : Nat) (visiting : List Uuid)
    (id : Uuid) : catalog.resolveRoot (fuel + 1) visiting id =
      match catalog.issues.find id with
      | some issue => .error (issueMessage issue)
      | none =>
        match catalog.nodes.find id with
        | none => .ok id
        | some node =>
          if id ∈ visiting then .error cycleMessage
          else catalog.nodeRoot (catalog.resolveRoot fuel (id :: visiting)) id node := rfl

/-- A root that the code finds is one by the relation. -/
theorem resolves_of_resolveRoot {fuel : Nat} {visiting : List Uuid}
    (h : catalog.resolveRoot fuel visiting id = .ok root) : catalog.ResolvesIn id root := by
  induction fuel generalizing visiting id root with
  | zero => cases h
  | succ fuel ih =>
    rw [resolveRoot_succ] at h
    split at h
    · cases h
    · next hissue =>
      have hf : ¬catalog.Flagged id := not_flagged_iff.mpr hissue
      split at h
      · next hnode =>
        cases h
        exact .dangling hf (by rw [linksOf, hnode, Option.map_none])
      · next node hnode =>
        have hl : catalog.linksOf id = some node.links := by
          rw [linksOf, hnode, Option.map_some]
        split at h
        · cases h
        · cases hs : node.sessionId with
          | some sessionId =>
            rw [nodeRoot_session_iff hs, authoritativeRoot_ok_iff] at h
            obtain ⟨⟨rfl, hself⟩, hparent⟩ := h
            apply Resolves.session hf hl hs
            · intro hne
              have hasks := hself hne
              split at hasks
              · exact ih hasks
              · next hhas =>
                rw [Bool.not_eq_true, Table.has_eq_false_iff] at hhas
                exact .dangling (not_flagged_iff.mpr hasks) (by rw [linksOf, hhas]; rfl)
            · intro parent hp
              exact ih (hparent parent hp)
          | none =>
            rw [nodeRoot_parent_iff hs] at h
            cases hp : node.parentId with
            | some parent =>
              rw [hp] at h
              exact .parent hf hl hs hp (ih h)
            | none =>
              rw [hp] at h
              cases h
              exact .root hf hl hs hp

/-! #### Fuel -/

/-- The stored identifiers that are not on the path. -/
def unvisited (catalog : SessionCatalog) (visiting : List Uuid) : Finset Uuid :=
  (catalog.nodes.rows.map Prod.fst).toFinset \ visiting.toFinset

/-- A node that joins the path is no longer left to visit. -/
theorem unvisited_cons_lt {visiting : List Uuid}
    (hnode : catalog.nodes.find id = some node) (hnew : id ∉ visiting) :
    (catalog.unvisited (id :: visiting)).card < (catalog.unvisited visiting).card := by
  apply Finset.card_lt_card
  have hkey : id ∈ catalog.nodes.rows.map Prod.fst :=
    List.mem_map.mpr ⟨(id, node), Table.mem_rows_iff.mpr hnode, rfl⟩
  have hmem : id ∈ catalog.unvisited visiting := by
    simp [unvisited, hkey, hnew]
  have hnot : id ∉ catalog.unvisited (id :: visiting) := by
    simp [unvisited]
  have hsub : catalog.unvisited (id :: visiting) ⊆ catalog.unvisited visiting := by
    intro other hother
    simp only [unvisited, Finset.mem_sdiff, List.mem_toFinset, List.mem_cons, not_or] at hother ⊢
    exact ⟨hother.1, hother.2.2⟩
  exact (Finset.ssubset_iff_of_subset hsub).mpr ⟨id, hmem, hnot⟩

/-- The fuel of `canonical_root` is enough. -/
theorem unvisited_nil_lt :
    (catalog.unvisited []).card < catalog.nodes.rows.length + 1 := by
  have h := List.toFinset_card_le (catalog.nodes.rows.map Prod.fst)
  rw [List.length_map] at h
  simp only [unvisited, List.toFinset_nil, Finset.sdiff_empty]
  omega

/-- The recursion ends: more fuel than identifiers left to visit changes nothing. -/
theorem resolveRoot_fuel {fuel fuel' : Nat} {visiting : List Uuid}
    (h : (catalog.unvisited visiting).card < fuel)
    (h' : (catalog.unvisited visiting).card < fuel') :
    catalog.resolveRoot fuel visiting id = catalog.resolveRoot fuel' visiting id := by
  induction fuel generalizing fuel' visiting id with
  | zero => omega
  | succ fuel ih =>
    cases fuel' with
    | zero => omega
    | succ fuel' =>
      rw [resolveRoot_succ, resolveRoot_succ]
      split
      · rfl
      · split
        · rfl
        · next node hnode =>
          split
          · rfl
          · next hnew =>
            have hlt := unvisited_cons_lt hnode hnew
            have hsame : catalog.resolveRoot fuel (id :: visiting) =
                catalog.resolveRoot fuel' (id :: visiting) := by
              ext1 asked
              exact ih (by omega) (by omega)
            rw [hsame]

/-! #### Completeness -/

private theorem not_asks_self {links : Uuid → Option RolloutLinks} {a : Uuid}
    (h : Acc (Relation.TransGen (Asks links)) a) : ¬Relation.TransGen (Asks links) a a := by
  induction h with
  | intro a _ ih => exact fun haa ↦ ih a haa haa

private theorem resolveRoot_node {fuel : Nat} {visiting : List Uuid}
    (hf : ¬catalog.Flagged id) (hnode : catalog.nodes.find id = some node)
    (hnew : id ∉ visiting) : catalog.resolveRoot (fuel + 1) visiting id =
      catalog.nodeRoot (catalog.resolveRoot fuel (id :: visiting)) id node := by
  rw [resolveRoot_succ, not_flagged_iff.mp hf, hnode]
  exact if_neg hnew

private theorem path_of_asks {links : Uuid → Option RolloutLinks} {visiting : List Uuid}
    {asked : Uuid} (hacc : Acc (Asks links) id)
    (hpath : ∀ a ∈ visiting, ¬Relation.ReflTransGen (Asks links) a id)
    (hasks : Asks links asked id) :
    ∀ a ∈ id :: visiting, ¬Relation.ReflTransGen (Asks links) a asked := by
  intro a ha hbelow
  rcases List.mem_cons.mp ha with rfl | ha
  · exact not_asks_self hacc.transGen (Relation.TransGen.tail' hbelow hasks)
  · exact hpath a ha (hbelow.tail hasks)

/-- A root by the relation is the one that the code finds, when no identifier on the path is asked
for again. -/
theorem resolveRoot_of_resolves (h : catalog.ResolvesIn id root) {fuel : Nat}
    {visiting : List Uuid} (hfuel : (catalog.unvisited visiting).card < fuel)
    (hpath : ∀ a ∈ visiting, ¬Relation.ReflTransGen (Asks catalog.linksOf) a id) :
    catalog.resolveRoot fuel visiting id = .ok root := by
  obtain ⟨fuel, rfl⟩ := Nat.exists_eq_succ_of_ne_zero (Nat.ne_zero_of_lt hfuel)
  have hnew : id ∉ visiting := fun hmem ↦ hpath id hmem .refl
  induction h generalizing fuel visiting with
  | @dangling id hf hl =>
    rw [linksOf, Option.map_eq_none_iff] at hl
    rw [resolveRoot_succ, not_flagged_iff.mp hf, hl]
  | @root id l hf hl hs hp =>
    obtain ⟨node, hnode, rfl⟩ := Option.map_eq_some_iff.mp hl
    rw [resolveRoot_node hf hnode hnew, nodeRoot_parent_iff hs]
    rw [RolloutNode.parentId_links] at hp
    rw [hp]
  | @parent id l parent root hf hl hs hp hparent ih =>
    have hacc := (Resolves.parent hf hl hs hp hparent).acc
    obtain ⟨node, hnode, rfl⟩ := Option.map_eq_some_iff.mp hl
    have hbelow := path_of_asks hacc hpath ⟨_, hl, .inr hp⟩
    have hlt := unvisited_cons_lt hnode hnew
    obtain ⟨fuel, rfl⟩ : ∃ k, fuel = k + 1 := ⟨fuel - 1, by omega⟩
    rw [resolveRoot_node hf hnode hnew, nodeRoot_parent_iff hs]
    rw [RolloutNode.parentId_links] at hp
    rw [hp]
    exact ih hbelow fuel (by omega) fun hmem ↦ hbelow parent hmem .refl
  | @session id l root hf hl hs hself hparent ihs ihp =>
    have hacc := (Resolves.session hf hl hs hself hparent).acc
    obtain ⟨node, hnode, rfl⟩ := Option.map_eq_some_iff.mp hl
    have hlt := unvisited_cons_lt hnode hnew
    obtain ⟨fuel, rfl⟩ : ∃ k, fuel = k + 1 := ⟨fuel - 1, by omega⟩
    rw [resolveRoot_node hf hnode hnew, nodeRoot_session_iff hs, authoritativeRoot_ok_iff]
    refine ⟨⟨rfl, fun hne ↦ ?_⟩, fun parent hp ↦ ?_⟩
    · have hbelow := path_of_asks hacc hpath ⟨_, hl, .inl ⟨hs, hne⟩⟩
      split
      · exact ihs hne hbelow fuel (by omega) fun hmem ↦ hbelow root hmem .refl
      · exact not_flagged_iff.mp (hself hne).not_flagged
    · have hbelow := path_of_asks hacc hpath ⟨_, hl, .inr hp⟩
      exact ihp parent hp hbelow fuel (by omega) fun hmem ↦ hbelow parent hmem .refl

/-- `canonical_root` finds exactly the roots of the relation. -/
theorem canonicalRoot_ok_iff :
    catalog.canonicalRoot id = .ok root ↔ catalog.ResolvesIn id root := by
  constructor
  · exact resolves_of_resolveRoot
  · intro h
    exact resolveRoot_of_resolves h unvisited_nil_lt fun a ha ↦ absurd ha List.not_mem_nil

/-- An identifier resolves to one root. -/
theorem ResolvesIn.unique {root' : Uuid} (h : catalog.ResolvesIn id root)
    (h' : catalog.ResolvesIn id root') : root = root' := by
  have he := (canonicalRoot_ok_iff.mpr h).symm.trans (canonicalRoot_ok_iff.mpr h')
  exact Except.ok.inj he

end SessionCatalog
end CodexLb
