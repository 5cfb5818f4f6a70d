import CodexLb.Catalog.Tree

/-!
# The partition of a catalog into trees

`resolve_root`, `session_trees` and `tree_for`, `src/cli.rs:696–800`, on any
catalog, with cycles, self-parents and dangling links. Every call of the
recursion goes to a longer path of stored identifiers, so it returns; the trees
partition what resolves.
-/

namespace CodexLb

open Relational (Table)

namespace SessionCatalog

variable {catalog : SessionCatalog} {visiting : List Uuid} {id root : Uuid}

/-! ### The recursion returns -/

/-- The body of `resolve_root`, with the calls that it makes as a parameter. -/
def resolveCall (catalog : SessionCatalog) (resolve : Uuid → Except String Uuid)
    (visiting : List Uuid) (id : Uuid) : Except String Uuid :=
  (catalog.issues.find id).elim
    ((catalog.nodes.find id).elim (.ok id) fun node ↦
      if visiting.contains id then .error cycleMessage else catalog.nodeRoot resolve id node)
    fun issue ↦ .error (issueMessage issue)

/-- A call of `resolve_root` on the second path and identifier calls it on the first: the stored
session of the node that is not the node itself, or the parent. -/
inductive Calls (catalog : SessionCatalog) : List Uuid × Uuid → List Uuid × Uuid → Prop
  | session {visiting id node sessionId} (hissue : catalog.issues.find id = none)
      (hnode : catalog.nodes.find id = some node) (hnew : id ∉ visiting)
      (hsession : node.sessionId = some sessionId) (hother : sessionId ≠ id)
      (hstored : catalog.nodes.has sessionId = true) :
      Calls catalog (id :: visiting, sessionId) (visiting, id)
  | parent {visiting id node parentId} (hissue : catalog.issues.find id = none)
      (hnode : catalog.nodes.find id = some node) (hnew : id ∉ visiting)
      (hparent : node.parentId = some parentId) :
      Calls catalog (id :: visiting, parentId) (visiting, id)

/-- No chain of calls is infinite. -/
theorem calls_wellFounded (catalog : SessionCatalog) : WellFounded catalog.Calls := by
  apply (measure fun call : List Uuid × Uuid ↦ (catalog.unvisited call.1).card).wf.mono
  intro inner outer h
  cases h with
  | session _ hnode hnew _ _ _ => exact unvisited_cons_lt hnode hnew
  | parent _ hnode hnew _ => exact unvisited_cons_lt hnode hnew

private theorem authoritativeRoot_congr {resolve resolve' : Uuid → Except String Uuid}
    {sessionId : Uuid} (h : sessionId ≠ id → catalog.nodes.has sessionId = true →
      resolve sessionId = resolve' sessionId) :
    catalog.authoritativeRoot resolve id sessionId =
      catalog.authoritativeRoot resolve' id sessionId := by
  unfold authoritativeRoot
  by_cases hself : sessionId = id
  · rw [if_pos hself, if_pos hself]
  · rw [if_neg hself, if_neg hself]
    by_cases hstored : catalog.nodes.has sessionId = true
    · rw [if_pos hstored, if_pos hstored, h hself hstored]
    · rw [if_neg hstored, if_neg hstored]

/-- The body asks for nothing but its calls. -/
theorem resolveCall_congr {resolve resolve' : Uuid → Except String Uuid}
    (h : ∀ asked, catalog.Calls (id :: visiting, asked) (visiting, id) →
      resolve asked = resolve' asked) :
    catalog.resolveCall resolve visiting id = catalog.resolveCall resolve' visiting id := by
  unfold resolveCall
  cases hissue : catalog.issues.find id with
  | some issue => rfl
  | none =>
    cases hnode : catalog.nodes.find id with
    | none => rfl
    | some node =>
      simp only [Option.elim_none, Option.elim_some, List.contains_iff_mem]
      by_cases hvisiting : id ∈ visiting
      · rw [if_pos hvisiting, if_pos hvisiting]
      · rw [if_neg hvisiting, if_neg hvisiting]
        have hparents : ∀ parentId, node.parentId = some parentId →
            resolve parentId = resolve' parentId :=
          fun parentId hparent ↦ h parentId (.parent hissue hnode hvisiting hparent)
        unfold nodeRoot
        cases hsession : node.sessionId with
        | some sessionId =>
          have hroots : catalog.authoritativeRoot resolve id sessionId =
              catalog.authoritativeRoot resolve' id sessionId :=
            authoritativeRoot_congr fun hother hstored ↦
              h sessionId (.session hissue hnode hvisiting hsession hother hstored)
          cases hparent : node.parentId with
          | none => simp only [hroots]
          | some parentId => simp only [hroots, hparents parentId hparent]
        | none =>
          cases hparent : node.parentId with
          | none => rfl
          | some parentId => simp only [hparents parentId hparent]

/-- `resolve_root` with the fuel that its path leaves it. -/
def resolve (catalog : SessionCatalog) (visiting : List Uuid) (id : Uuid) : Except String Uuid :=
  catalog.resolveRoot ((catalog.unvisited visiting).card + 1) visiting id

/-- The fuel never runs out: the function satisfies the equation of the source. -/
theorem resolve_eq (catalog : SessionCatalog) (visiting : List Uuid) (id : Uuid) :
    catalog.resolve visiting id =
      catalog.resolveCall (catalog.resolve (id :: visiting)) visiting id := by
  have hbody : catalog.resolve visiting id = catalog.resolveCall
      (catalog.resolveRoot (catalog.unvisited visiting).card (id :: visiting)) visiting id := by
    rw [resolve, resolveRoot, resolveCall]
    cases catalog.issues.find id with
    | some issue => rfl
    | none =>
      cases catalog.nodes.find id with
      | none => rfl
      | some node => simp only [Option.elim_none, Option.elim_some, List.contains_iff_mem]
  rw [hbody]
  apply resolveCall_congr
  intro asked h
  have hshorter :
      (catalog.unvisited (id :: visiting)).card < (catalog.unvisited visiting).card := by
    cases h with
    | session _ hnode hnew _ _ _ => exact unvisited_cons_lt hnode hnew
    | parent _ hnode hnew _ => exact unvisited_cons_lt hnode hnew
  exact resolveRoot_fuel hshorter (Nat.lt_succ_self _)

/-- `canonical_root` starts with an empty path. -/
theorem canonicalRoot_eq (catalog : SessionCatalog) (id : Uuid) :
    catalog.canonicalRoot id = catalog.resolve [] id :=
  resolveRoot_fuel unvisited_nil_lt (Nat.lt_succ_self _)

/-! ### The trees -/

variable {tree : SessionTree} {node : RolloutNode}

/-- A member of a tree resolves to its root. -/
theorem resolves_of_mem (htree : tree ∈ catalog.sessionTrees) (hid : id ∈ tree.memberIds) :
    catalog.ResolvesIn id tree.rootId := by
  obtain ⟨group, hgroup, heq⟩ := mem_sessionTrees.mp htree
  rw [heq, mem_sortUnstable] at hid
  obtain ⟨k, node, -, hresolves, hjoins⟩ := inGroup_grouped.mp ⟨group, hgroup, hid⟩
  rcases hjoins with rfl | rfl | ⟨-, halias⟩
  · exact hresolves.root_self
  · exact hresolves
  · exact halias

/-- A node that resolves is a member of the tree of its root. -/
theorem mem_of_resolves (hnode : catalog.nodes.find id = some node)
    (h : catalog.ResolvesIn id root) :
    ∃ tree ∈ catalog.sessionTrees, tree.rootId = root ∧ id ∈ tree.memberIds := by
  have hkey := catalog.keyed id node hnode
  obtain ⟨group, hgroup, hid⟩ : InGroup catalog.grouped root id :=
    inGroup_grouped.mpr ⟨id, node, hnode, hkey.symm ▸ h, .inr (.inl hkey.symm)⟩
  refine ⟨⟨root, sortUnstable group.1, group.2⟩, ?_, rfl, ?_⟩
  · exact mem_sessionTrees.mpr ⟨group, hgroup, rfl⟩
  · exact mem_sortUnstable.mpr hid

/-- No two trees have one root. -/
theorem nodup_roots (catalog : SessionCatalog) :
    (catalog.sessionTrees.map SessionTree.rootId).Nodup := by
  have hperm := (List.perm_insertionSort treeBefore (catalog.grouped.rows.map fun row ↦
    (⟨row.1, sortUnstable row.2.1, row.2.2⟩ : SessionTree))).map SessionTree.rootId
  apply hperm.nodup_iff.mpr
  rw [List.map_map]
  exact catalog.grouped.distinct

/-- Trees of one root are one tree. -/
theorem eq_of_rootId_eq {tree' : SessionTree} (htree : tree ∈ catalog.sessionTrees)
    (htree' : tree' ∈ catalog.sessionTrees) (h : tree.rootId = tree'.rootId) : tree = tree' :=
  List.inj_on_of_nodup_map (nodup_roots catalog) htree htree' h

/-- The tree of an identifier holds it. -/
theorem mem_treeFor (h : catalog.treeFor id = .ok tree) : id ∈ tree.memberIds := by
  obtain ⟨hresolves, -, hmem⟩ := treeFor_ok h
  rw [hmem]
  cases hnode : catalog.nodes.find id with
  | none =>
    -- an identifier without a file is its own root
    left
    have hself : catalog.ResolvesIn id id :=
      .dangling hresolves.not_flagged (by rw [linksOf, hnode, Option.map_none])
    exact hself.unique hresolves
  | some node =>
    right
    have hkey := catalog.keyed id node hnode
    exact inGroup_grouped.mpr ⟨id, node, hnode, hkey.symm ▸ hresolves, .inr (.inl hkey.symm)⟩

/-- **Session trees partition the resolvable rollouts.** On every catalog the recursion of
`resolve_root` returns: its body asks for nothing but its calls, no chain of calls is infinite, and
the function satisfies the equation of the source. Resolving is idempotent, the trees have distinct
roots and no common members, the members of a tree are identifiers that resolve to its root, every
node that resolves is in the tree of its root, and `tree_for` gives the tree of the identifier. -/
theorem session_trees_partition (catalog : SessionCatalog) :
    (WellFounded catalog.Calls ∧
      (∀ visiting id resolve resolve', (∀ asked,
          catalog.Calls (id :: visiting, asked) (visiting, id) → resolve asked = resolve' asked) →
        catalog.resolveCall resolve visiting id = catalog.resolveCall resolve' visiting id) ∧
      (∀ visiting id, catalog.resolve visiting id =
        catalog.resolveCall (catalog.resolve (id :: visiting)) visiting id) ∧
      ∀ id, catalog.canonicalRoot id = catalog.resolve [] id) ∧
    (∀ id root, catalog.canonicalRoot id = .ok root → catalog.canonicalRoot root = .ok root) ∧
    (catalog.sessionTrees.map SessionTree.rootId).Nodup ∧
    (∀ tree ∈ catalog.sessionTrees, ∀ tree' ∈ catalog.sessionTrees, tree ≠ tree' →
      tree.memberIds.Disjoint tree'.memberIds) ∧
    (∀ tree ∈ catalog.sessionTrees, ∀ id ∈ tree.memberIds,
      catalog.canonicalRoot id = .ok tree.rootId) ∧
    (∀ id root, catalog.nodes.has id = true → catalog.canonicalRoot id = .ok root →
      ∃ tree ∈ catalog.sessionTrees, tree.rootId = root ∧ id ∈ tree.memberIds) ∧
    (∀ id message, catalog.canonicalRoot id = .error message →
      ∀ tree ∈ catalog.sessionTrees, id ∉ tree.memberIds) ∧
    ∀ id tree, catalog.treeFor id = .ok tree →
      id ∈ tree.memberIds ∧ catalog.canonicalRoot id = .ok tree.rootId := by
  have hmembers : ∀ tree ∈ catalog.sessionTrees, ∀ id ∈ tree.memberIds,
      catalog.canonicalRoot id = .ok tree.rootId :=
    fun tree htree id hid ↦ canonicalRoot_ok_iff.mpr (resolves_of_mem htree hid)
  refine ⟨⟨calls_wellFounded catalog, fun _ _ _ _ ↦ resolveCall_congr, resolve_eq catalog,
    canonicalRoot_eq catalog⟩, ?_, nodup_roots catalog, ?_, hmembers, ?_, ?_, ?_⟩
  · intro id root h
    exact canonicalRoot_ok_iff.mpr (canonicalRoot_ok_iff.mp h).root_self
  · intro tree htree tree' htree' hne id hid hid'
    have hroot := (hmembers tree htree id hid).symm.trans (hmembers tree' htree' id hid')
    exact hne (eq_of_rootId_eq htree htree' (Except.ok.inj hroot))
  · intro id root hstored h
    obtain ⟨node, hnode⟩ := Table.has_iff.mp hstored
    exact mem_of_resolves hnode (canonicalRoot_ok_iff.mp h)
  · intro id message h tree htree hid
    rw [hmembers tree htree id hid] at h
    cases h
  · intro id tree h
    exact ⟨mem_treeFor h, canonicalRoot_ok_iff.mpr (treeFor_ok h).1⟩

end SessionCatalog
end CodexLb
