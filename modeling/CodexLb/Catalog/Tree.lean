import CodexLb.Catalog.Resolve
import CodexLb.Graph.Component
import Mathlib.Data.List.Sort

/-!
# Session trees

The grouping of nodes under their roots and the tree that a mutation covers,
`src/cli.rs:745–848`. A mutation checks the whole connected component of the
requested identifier, and its tree is that component.
-/

namespace CodexLb

open Relational (Table)

/-! ### Sets of identifiers as sorted lists -/

instance : IsTrans Uuid fun a b ↦ a ≤ b := ⟨fun _ _ _ ↦ BitVec.le_trans⟩

instance : Std.Antisymm fun a b : Uuid ↦ a ≤ b := ⟨fun _ _ ↦ BitVec.le_antisymm⟩

instance : Std.Total fun a b : Uuid ↦ a ≤ b := ⟨BitVec.le_total⟩

/-- `sort_unstable` on the members of a set. -/
def sortUnstable (ids : Finset Uuid) : List Uuid :=
  Quot.lift (List.insertionSort fun a b : Uuid ↦ a ≤ b)
    (fun l l' hperm ↦ by
      have hl := (List.perm_insertionSort (fun a b : Uuid ↦ a ≤ b) l).trans
        (hperm.trans (List.perm_insertionSort (fun a b : Uuid ↦ a ≤ b) l').symm)
      exact hl.eq_of_pairwise' (List.pairwise_insertionSort _ l) (List.pairwise_insertionSort _ l'))
    ids.val

/-- Sorting keeps the members. -/
@[simp] theorem mem_sortUnstable {ids : Finset Uuid} {id : Uuid} :
    id ∈ sortUnstable ids ↔ id ∈ ids := by
  obtain ⟨ids, hnodup⟩ := ids
  induction ids using Quot.ind with
  | mk l => exact List.mem_insertionSort _

/-- Every member is listed once. -/
theorem nodup_sortUnstable (ids : Finset Uuid) : (sortUnstable ids).Nodup := by
  obtain ⟨ids, hnodup⟩ := ids
  induction ids using Quot.ind with
  | mk l => exact (List.perm_insertionSort _ l).nodup_iff.mpr hnodup

/-! ### The code -/

/-- `SessionTree`, `src/cli.rs:579–584`. -/
structure SessionTree where
  rootId : Uuid
  memberIds : List Uuid
  modified : SystemTime
  deriving DecidableEq

namespace SessionCatalog

/-- The identifiers that a node relates, `src/cli.rs:826–834`. -/
def related (node : RolloutNode) : Finset Uuid := insert node.id node.links.aliases.toFinset

/-- The stored nodes, each as the identifiers that it relates. -/
def groups (catalog : SessionCatalog) : List (Finset Uuid) :=
  catalog.nodes.rows.map fun row ↦ related row.2

/-- `connected_ids`, `src/cli.rs:821–848`. -/
def connectedIds (catalog : SessionCatalog) (id : Uuid) : Finset Uuid :=
  Graph.component catalog.groups id

/-- The members and the modification time of a group, with a node added to them;
`src/cli.rs:756–768`. -/
def joinGroup (catalog : SessionCatalog) (rootId : Uuid) (node : RolloutNode)
    (group : Finset Uuid × SystemTime) : Finset Uuid × SystemTime :=
  let aliases := node.links.aliases.filter fun alias' ↦
    (catalog.canonicalRoot alias').toOption = some rootId
  (insert node.id group.1 ∪ aliases.toFinset,
    if group.2 < node.modified then node.modified else group.2)

/-- Put a node into the group of its root, `src/cli.rs:748–770`. -/
def groupNode (catalog : SessionCatalog) (grouped : Table Uuid (Finset Uuid × SystemTime))
    (node : RolloutNode) : Table Uuid (Finset Uuid × SystemTime) :=
  match catalog.canonicalRoot node.id with
  | .error _ => grouped
  | .ok rootId =>
    grouped.upsert rootId (catalog.joinGroup rootId node ({rootId}, 0))
      (catalog.joinGroup rootId node)

/-- The nodes that resolve, grouped by their roots. -/
def grouped (catalog : SessionCatalog) : Table Uuid (Finset Uuid × SystemTime) :=
  (catalog.nodes.rows.map Prod.snd).foldl catalog.groupNode .empty

/-- Later modified trees first, then the smaller root. -/
def treeBefore (left right : SessionTree) : Prop :=
  right.modified < left.modified ∨
    (right.modified = left.modified ∧ left.rootId ≤ right.rootId)

instance : DecidableRel treeBefore := fun left right ↦
  inferInstanceAs (Decidable (right.modified < left.modified ∨
    (right.modified = left.modified ∧ left.rootId ≤ right.rootId)))

/-- `session_trees`, `src/cli.rs:745–787`. -/
def sessionTrees (catalog : SessionCatalog) : List SessionTree :=
  (catalog.grouped.rows.map fun row ↦
    ⟨row.1, sortUnstable row.2.1, row.2.2⟩).insertionSort treeBefore

/-- `tree_for`, `src/cli.rs:789–800`. -/
def treeFor (catalog : SessionCatalog) (id : Uuid) : Except String SessionTree := do
  let rootId ← catalog.canonicalRoot id
  return (catalog.sessionTrees.find? fun tree ↦ tree.rootId = rootId).getD ⟨rootId, [rootId], 0⟩

/-- `mutation_tree_for`, `src/cli.rs:802–819`. The source reports the first issue or failure in
the order of a hash set; here it is the one of the smallest identifier. -/
def mutationTreeFor (catalog : SessionCatalog) (id : Uuid) : Except String SessionTree := do
  let connectedIds := sortUnstable (catalog.connectedIds id)
  if let some issue := connectedIds.findSome? catalog.issues.find then
    throw ("cannot mutate session routes because the requested rollout tree has inconsistent " ++
      "metadata: " ++ issue)
  connectedIds.forM fun connectedId ↦
    if catalog.nodes.has connectedId then (catalog.canonicalRoot connectedId).map fun _ ↦ ()
    else .ok ()
  catalog.treeFor id

/-! ### What a tree holds -/

variable {catalog : SessionCatalog} {id root : Uuid} {tree : SessionTree}

/-- A node puts an identifier into the group of a root. -/
def Joins (catalog : SessionCatalog) (node : RolloutNode) (root id : Uuid) : Prop :=
  catalog.ResolvesIn node.id root ∧
    (id = root ∨ id = node.id ∨ id ∈ node.links.aliases ∧ catalog.ResolvesIn id root)

/-- An identifier is in the group of a root. -/
def InGroup (grouped : Table Uuid (Finset Uuid × SystemTime)) (root id : Uuid) : Prop :=
  ∃ group, grouped.find root = some group ∧ id ∈ group.1

private theorem mem_joinGroup {node : RolloutNode} {group : Finset Uuid × SystemTime} :
    id ∈ (catalog.joinGroup root node group).1 ↔
      id ∈ group.1 ∨ id = node.id ∨ id ∈ node.links.aliases ∧ catalog.ResolvesIn id root := by
  have hroot : (catalog.canonicalRoot id).toOption = some root ↔ catalog.ResolvesIn id root := by
    rw [← canonicalRoot_ok_iff]
    cases catalog.canonicalRoot id <;> simp [Except.toOption]
  simp only [joinGroup, Finset.mem_union, Finset.mem_insert, List.mem_toFinset, List.mem_filter,
    decide_eq_true_eq, hroot]
  tauto

private theorem inGroup_groupNode {grouped : Table Uuid (Finset Uuid × SystemTime)}
    {node : RolloutNode} (hroots : ∀ r group, grouped.find r = some group → r ∈ group.1) :
    InGroup (catalog.groupNode grouped node) root id ↔
      InGroup grouped root id ∨ catalog.Joins node root id := by
  unfold groupNode
  split
  · next message herr =>
    have hnone : ¬catalog.Joins node root id := by
      intro h
      rw [canonicalRoot_ok_iff.mpr h.1] at herr
      cases herr
    simp [hnone]
  · next rootId hok =>
    have hres := canonicalRoot_ok_iff.mp hok
    by_cases hr : root = rootId
    · subst hr
      simp only [InGroup, Table.find_upsert, if_true, Option.some.injEq, exists_eq_left']
      cases hg : grouped.find root with
      | none => simp [mem_joinGroup, Joins, hres]
      | some group =>
        have hin := hroots root group hg
        simp only [Option.map_some, Option.getD_some, mem_joinGroup, Option.some.injEq,
          exists_eq_left', Joins, hres, true_and]
        constructor
        · rintro (h | h)
          · exact .inl h
          · exact .inr (.inr h)
        · rintro (h | rfl | h)
          · exact .inl h
          · exact .inl hin
          · exact .inr h
    · have hnone : ¬catalog.Joins node root id := fun h ↦ hr (h.1.unique hres)
      simp [InGroup, hr, hnone]

private theorem roots_groupNode {grouped : Table Uuid (Finset Uuid × SystemTime)}
    {node : RolloutNode} (hroots : ∀ r group, grouped.find r = some group → r ∈ group.1) :
    ∀ r group, (catalog.groupNode grouped node).find r = some group → r ∈ group.1 := by
  intro r group h
  unfold groupNode at h
  split at h
  · exact hroots r group h
  · next rootId hok =>
    rw [Table.find_upsert] at h
    split at h
    · next hr =>
      subst hr
      cases hg : grouped.find r with
      | none =>
        rw [hg] at h
        cases h
        exact mem_joinGroup.mpr (.inl (Finset.mem_singleton_self r))
      | some old =>
        rw [hg] at h
        cases h
        exact mem_joinGroup.mpr (.inl (hroots r old hg))
    · exact hroots r group h

private theorem foldl_groupNode (nodes : List RolloutNode)
    {grouped : Table Uuid (Finset Uuid × SystemTime)}
    (hroots : ∀ r group, grouped.find r = some group → r ∈ group.1) :
    (∀ r group, (nodes.foldl catalog.groupNode grouped).find r = some group → r ∈ group.1) ∧
      (InGroup (nodes.foldl catalog.groupNode grouped) root id ↔
        InGroup grouped root id ∨ ∃ node ∈ nodes, catalog.Joins node root id) := by
  induction nodes generalizing grouped with
  | nil => exact ⟨hroots, by simp⟩
  | cons node nodes ih =>
    have hrest := @ih (catalog.groupNode grouped node) (roots_groupNode hroots)
    refine ⟨hrest.1, hrest.2.trans ?_⟩
    rw [inGroup_groupNode hroots, or_assoc, List.exists_mem_cons_iff]

private theorem grouped_spec :
    (∀ r group, catalog.grouped.find r = some group → r ∈ group.1) ∧
      (InGroup catalog.grouped root id ↔
        ∃ node ∈ catalog.nodes.rows.map Prod.snd, catalog.Joins node root id) := by
  have h := @foldl_groupNode catalog id root (catalog.nodes.rows.map Prod.snd) .empty nofun
  have hempty : ¬InGroup .empty root id := by
    intro ⟨group, hg, _⟩
    cases hg
  exact ⟨h.1, by rw [grouped, h.2, or_iff_right hempty]⟩

/-- The group of a root holds what the stored nodes put into it. -/
theorem inGroup_grouped : InGroup catalog.grouped root id ↔
    ∃ k node, catalog.nodes.find k = some node ∧ catalog.Joins node root id := by
  rw [grouped_spec.2]
  constructor
  · rintro ⟨node, hmem, hjoins⟩
    obtain ⟨row, hrow, rfl⟩ := List.mem_map.mp hmem
    exact ⟨row.1, row.2, Table.mem_rows_iff.mp hrow, hjoins⟩
  · rintro ⟨k, node, hnode, hjoins⟩
    exact ⟨node, List.mem_map.mpr ⟨(k, node), Table.mem_rows_iff.mpr hnode, rfl⟩, hjoins⟩

/-- The trees are the groups, each with its members in order. -/
theorem mem_sessionTrees : tree ∈ catalog.sessionTrees ↔
    ∃ group, catalog.grouped.find tree.rootId = some group ∧
      tree = ⟨tree.rootId, sortUnstable group.1, group.2⟩ := by
  rw [sessionTrees, List.mem_insertionSort, List.mem_map]
  constructor
  · rintro ⟨⟨r, group⟩, hrow, rfl⟩
    exact ⟨group, Table.mem_rows_iff.mp hrow, rfl⟩
  · rintro ⟨group, hgroup, heq⟩
    exact ⟨(tree.rootId, group), Table.mem_rows_iff.mpr hgroup, heq.symm⟩

/-- The tree of an identifier: the group of its root, or the root alone. -/
theorem treeFor_ok (h : catalog.treeFor id = .ok tree) :
    catalog.ResolvesIn id tree.rootId ∧ (∃ members, tree.memberIds = sortUnstable members) ∧
      ∀ x, x ∈ tree.memberIds ↔ x = tree.rootId ∨ InGroup catalog.grouped tree.rootId x := by
  unfold treeFor at h
  cases hr : catalog.canonicalRoot id with
  | error message =>
    rw [hr] at h
    cases h
  | ok rootId =>
    rw [hr] at h
    have hres := canonicalRoot_ok_iff.mp hr
    cases hfind : catalog.sessionTrees.find? fun tree ↦ tree.rootId = rootId with
    | none =>
      simp only [bind, Except.bind, hfind, Option.getD_none, pure, Except.pure,
        Except.ok.injEq] at h
      subst h
      refine ⟨hres, ⟨{rootId}, rfl⟩, fun x ↦ ?_⟩
      have hempty : ¬InGroup catalog.grouped rootId x := by
        intro ⟨group, hgroup, _⟩
        have hin : ⟨rootId, sortUnstable group.1, group.2⟩ ∈ catalog.sessionTrees :=
          mem_sessionTrees.mpr ⟨group, hgroup, rfl⟩
        have hmiss := List.find?_eq_none.mp hfind _ hin
        simp at hmiss
      simp [hempty]
    | some found =>
      simp only [bind, Except.bind, hfind, Option.getD_some, pure, Except.pure,
        Except.ok.injEq] at h
      subst h
      have hroot : found.rootId = rootId := by simpa using List.find?_some hfind
      obtain ⟨group, hgroup, heq⟩ := mem_sessionTrees.mp (List.mem_of_find?_eq_some hfind)
      have hmembers : found.memberIds = sortUnstable group.1 := congrArg SessionTree.memberIds heq
      refine ⟨hroot ▸ hres, ⟨group.1, hmembers⟩, fun x ↦ ?_⟩
      have hin : InGroup catalog.grouped found.rootId x ↔ x ∈ group.1 := by
        simp [InGroup, hgroup]
      have hself := (@grouped_spec catalog x found.rootId).1 _ _ hgroup
      rw [hmembers, mem_sortUnstable, hin]
      constructor
      · exact .inr
      · rintro (rfl | hx)
        · exact hself
        · exact hx

/-- An identifier that resolves has a tree. -/
theorem treeFor_total (h : catalog.ResolvesIn id root) :
    ∃ tree, catalog.treeFor id = .ok tree ∧ tree.rootId = root := by
  have hr := canonicalRoot_ok_iff.mpr h
  cases hfind : catalog.sessionTrees.find? fun tree ↦ tree.rootId = root with
  | none => exact ⟨_, by simp only [treeFor, hr, bind, Except.bind, hfind]; rfl, rfl⟩
  | some found =>
    refine ⟨found, by simp only [treeFor, hr, bind, Except.bind, hfind]; rfl, ?_⟩
    simpa using List.find?_some hfind

/-! ### What a mutation checks -/

/-- Every identifier connected to this one is free of issues and resolves. -/
def Sound (catalog : SessionCatalog) (id : Uuid) : Prop :=
  ∀ x, Graph.Connected catalog.groups id x →
    ¬catalog.Flagged x ∧ ∃ root, catalog.ResolvesIn x root

private theorem forM_ok {ids : List Uuid} {check : Uuid → Except String Unit} :
    forM ids check = .ok () ↔ ∀ x ∈ ids, check x = .ok () := by
  induction ids with
  | nil => simp [pure, Except.pure]
  | cons x ids ih =>
    cases hx : check x with
    | error message => simp [List.forM_cons, bind, Except.bind, hx]
    | ok u => simp [List.forM_cons, bind, Except.bind, hx, ih]

private theorem mem_connectedIds {x : Uuid} :
    x ∈ sortUnstable (catalog.connectedIds id) ↔ Graph.Connected catalog.groups id x := by
  rw [mem_sortUnstable, connectedIds, Graph.mem_component]

private theorem check_ok_iff {x : Uuid} (hf : ¬catalog.Flagged x) :
    (if catalog.nodes.has x then (catalog.canonicalRoot x).map fun _ ↦ () else .ok ()) = .ok () ↔
      ∃ root, catalog.ResolvesIn x root := by
  split
  · constructor
    · intro h
      cases hr : catalog.canonicalRoot x with
      | error message =>
        rw [hr] at h
        cases h
      | ok root => exact ⟨root, canonicalRoot_ok_iff.mp hr⟩
    · rintro ⟨root, hres⟩
      rw [canonicalRoot_ok_iff.mpr hres]
      rfl
  · next hhas =>
    rw [Bool.not_eq_true, Table.has_eq_false_iff] at hhas
    have hres : catalog.ResolvesIn x x := .dangling hf (by rw [linksOf, hhas]; rfl)
    exact iff_of_true rfl ⟨x, hres⟩

/-- A mutation succeeds exactly on a sound component, with the tree of the identifier. -/
theorem mutationTreeFor_ok_iff : catalog.mutationTreeFor id = .ok tree ↔
    catalog.Sound id ∧ catalog.treeFor id = .ok tree := by
  unfold mutationTreeFor
  cases hissue : (sortUnstable (catalog.connectedIds id)).findSome? catalog.issues.find with
  | some issue =>
    obtain ⟨x, hx, hfind⟩ := List.exists_of_findSome?_eq_some hissue
    have hunsound : ¬catalog.Sound id := by
      intro hsound
      have hf := not_flagged_iff.mp (hsound x (mem_connectedIds.mp hx)).1
      rw [hfind] at hf
      cases hf
    simp [hissue, hunsound, throw, throwThe, MonadExceptOf.throw, bind, Except.bind]
  | none =>
    have hfree : ∀ x, Graph.Connected catalog.groups id x → ¬catalog.Flagged x := by
      intro x hx
      exact not_flagged_iff.mpr (List.findSome?_eq_none_iff.mp hissue x (mem_connectedIds.mpr hx))
    have hall : (∀ x ∈ sortUnstable (catalog.connectedIds id),
        (if catalog.nodes.has x then (catalog.canonicalRoot x).map fun _ ↦ () else .ok ()) =
          .ok ()) ↔ catalog.Sound id := by
      constructor
      · intro h x hx
        exact ⟨hfree x hx, (check_ok_iff (hfree x hx)).mp (h x (mem_connectedIds.mpr hx))⟩
      · intro h x hx
        have hx := mem_connectedIds.mp hx
        exact (check_ok_iff (hfree x hx)).mpr (h x hx).2
    rw [← hall, ← forM_ok]
    simp only [hissue]
    change (forM (sortUnstable (catalog.connectedIds id)) _ >>= fun _ ↦ catalog.treeFor id) =
      .ok tree ↔ _
    cases hfor : forM (sortUnstable (catalog.connectedIds id)) fun x ↦
        if catalog.nodes.has x then (catalog.canonicalRoot x).map fun _ ↦ () else .ok () with
    | error message =>
      constructor
      · intro h
        cases h
      · rintro ⟨h, -⟩
        cases h
    | ok u => exact (and_iff_right rfl).symm

/-- The links of every stored node without an issue agree on its parent. -/
def Consistent (catalog : SessionCatalog) : Prop :=
  ∀ id l, catalog.linksOf id = some l → ¬catalog.Flagged id → l.Consistent

/-- Two identifiers are linked when a stored node relates both. -/
theorem linked_iff {x y : Uuid} : Graph.Linked catalog.groups x y ↔
    ∃ k l, catalog.linksOf k = some l ∧ (x = k ∨ x ∈ l.aliases) ∧ (y = k ∨ y ∈ l.aliases) := by
  constructor
  · rintro ⟨group, hgroup, hx, hy⟩
    obtain ⟨⟨k, node⟩, hrow, rfl⟩ := List.mem_map.mp hgroup
    have hnode := Table.mem_rows_iff.mp hrow
    have hkey := catalog.keyed k node hnode
    simp only [related, Finset.mem_insert, List.mem_toFinset, hkey] at hx hy
    exact ⟨k, node.links, by rw [linksOf, hnode, Option.map_some], hx, hy⟩
  · rintro ⟨k, l, hl, hx, hy⟩
    obtain ⟨node, hnode, rfl⟩ := Option.map_eq_some_iff.mp hl
    have hkey := catalog.keyed k node hnode
    refine ⟨related node, List.mem_map.mpr ⟨(k, node), Table.mem_rows_iff.mpr hnode, rfl⟩, ?_, ?_⟩
    · simpa only [related, Finset.mem_insert, List.mem_toFinset, hkey] using hx
    · simpa only [related, Finset.mem_insert, List.mem_toFinset, hkey] using hy

/-- A node is linked to its aliases. -/
theorem linked_alias {l : RolloutLinks} {alias' : Uuid} (hl : catalog.linksOf id = some l)
    (ha : alias' ∈ l.aliases) : Graph.Linked catalog.groups id alias' :=
  linked_iff.mpr ⟨id, l, hl, .inl rfl, .inr ha⟩

/-- An identifier is connected to its root. -/
theorem ResolvesIn.connected (h : catalog.ResolvesIn id root) :
    Graph.Connected catalog.groups id root := by
  induction h with
  | dangling _ _ => exact .refl _
  | session _ hl hs _ _ _ _ =>
    exact .single (linked_alias hl (RolloutLinks.mem_aliases_of_sessionId hs))
  | parent _ hl _ hp _ ih =>
    have hlink := linked_alias hl (RolloutLinks.mem_aliases_of_parentId hp)
    exact (Graph.Connected.single hlink).trans ih
  | root _ _ _ _ => exact .refl _

/-- In a sound component every identifier has the same root. -/
theorem Sound.resolves (h : catalog.Sound id) (hc : catalog.Consistent)
    (hid : catalog.ResolvesIn id root) {x : Uuid} (hx : Graph.Connected catalog.groups id x) :
    catalog.ResolvesIn x root := by
  apply hx.preserves
  · intro a b hlink ha hres
    obtain ⟨k, l, hl, hak, hbk⟩ := linked_iff.mp hlink
    have hk : Graph.Connected catalog.groups id k :=
      ha.trans (.single (linked_iff.mpr ⟨k, l, hl, hak, .inl rfl⟩))
    obtain ⟨hf, r, hkr⟩ := h k hk
    have hmember : ∀ y, y = k ∨ y ∈ l.aliases → catalog.ResolvesIn y r := by
      rintro y (rfl | hy)
      · exact hkr
      · exact hkr.aliases hl (hc k l hl hf) hy
    have hroot := (hmember a hak).unique hres
    exact hroot ▸ hmember b hbk
  · exact hid

/-- The tree of a sound component is the component. -/
theorem Sound.mem_memberIds (h : catalog.Sound id) (hc : catalog.Consistent)
    (htree : catalog.treeFor id = .ok tree) {x : Uuid} :
    x ∈ tree.memberIds ↔ Graph.Connected catalog.groups id x := by
  obtain ⟨hid, -, hmem⟩ := treeFor_ok htree
  rw [hmem, inGroup_grouped]
  constructor
  · rintro (rfl | ⟨k, node, hnode, hres, hx⟩)
    · exact hid.connected
    · rw [catalog.keyed k node hnode] at hres hx
      have hk : Graph.Connected catalog.groups id k := hid.connected.trans hres.connected.symm
      rcases hx with rfl | rfl | ⟨hx, -⟩
      · exact hid.connected
      · exact hk
      · have hl : catalog.linksOf k = some node.links := by rw [linksOf, hnode, Option.map_some]
        exact hk.trans (.single (linked_alias hl hx))
  · intro hx
    have hres := h.resolves hc hid hx
    cases hnode : catalog.nodes.find x with
    | none =>
      left
      have hself : catalog.ResolvesIn x x :=
        .dangling hres.not_flagged (by rw [linksOf, hnode, Option.map_none])
      exact hself.unique hres
    | some node =>
      have hkey := catalog.keyed x node hnode
      exact .inr ⟨x, node, hnode, hkey.symm ▸ hres, .inr (.inl hkey.symm)⟩

/-- The tree of a sound component lists the component in order. -/
theorem Sound.memberIds_eq (h : catalog.Sound id) (hc : catalog.Consistent)
    (htree : catalog.treeFor id = .ok tree) :
    tree.memberIds = sortUnstable (catalog.connectedIds id) := by
  obtain ⟨-, ⟨members, hmembers⟩, -⟩ := treeFor_ok htree
  have hsame : members = catalog.connectedIds id := by
    ext x
    have hx := h.mem_memberIds hc htree (x := x)
    rwa [hmembers, mem_sortUnstable, ← Graph.mem_component] at hx
  rw [hmembers, hsame]

/-- Catalogs that agree on the component of an identifier give it the same tree. -/
theorem Sound.same_tree {catalog' : SessionCatalog} {tree' : SessionTree} (h : catalog.Sound id)
    (h' : catalog'.Sound id) (hc : catalog.Consistent) (hc' : catalog'.Consistent)
    (hconn : ∀ x, Graph.Connected catalog.groups id x ↔ Graph.Connected catalog'.groups id x)
    (hlinks : ∀ x, Graph.Connected catalog.groups id x → catalog'.linksOf x = catalog.linksOf x)
    (htree : catalog.treeFor id = .ok tree) (htree' : catalog'.treeFor id = .ok tree') :
    tree.rootId = tree'.rootId ∧ tree.memberIds = tree'.memberIds := by
  constructor
  · have hroot := (treeFor_ok htree).1
    have hroot' : catalog'.ResolvesIn id tree.rootId := by
      apply hroot.congr (Graph.Connected.refl id) _ hlinks
      · intro a ha
        exact iff_of_false (h' a ((hconn a).mp ha)).1 (h a ha).1
      · intro a l b ha hl hb
        exact ha.trans (.single (linked_alias hl hb))
    exact hroot'.unique (treeFor_ok htree').1
  · rw [h.memberIds_eq hc htree, h'.memberIds_eq hc' htree']
    congr 1
    ext x
    rw [connectedIds, connectedIds, Graph.mem_component, Graph.mem_component, hconn]

/-- A mutation succeeds exactly when the component of the identifier is sound. -/
theorem exists_mutationTreeFor_iff :
    (∃ tree, catalog.mutationTreeFor id = .ok tree) ↔ catalog.Sound id := by
  constructor
  · rintro ⟨tree, h⟩
    exact (mutationTreeFor_ok_iff.mp h).1
  · intro h
    obtain ⟨root, hroot⟩ := (h id (.refl id)).2
    obtain ⟨tree, htree, -⟩ := treeFor_total hroot
    exact ⟨tree, mutationTreeFor_ok_iff.mpr ⟨h, htree⟩⟩

end SessionCatalog
end CodexLb
