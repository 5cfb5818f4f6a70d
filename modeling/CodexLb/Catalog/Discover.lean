import CodexLb.Catalog.Tree

/-!
# What discovery makes of a list of files

The first file of an identifier gives its links; an identifier has an issue
when some file flags it or two files disagree on its links.
-/

namespace CodexLb

open Relational (Table)

variable [UuidText]

namespace ScannedFile

/-- The node that a file contributes. -/
def node (file : ScannedFile) : Option RolloutNode :=
  match file.sessionMeta with
  | some sessionMeta => (rolloutNodeFromMeta sessionMeta file.modified).toOption
  | none => file.filenameId.map fun id ↦ ⟨id, none, none, none, file.modified⟩

/-- The links that a file gives to an identifier. -/
def linksFor (file : ScannedFile) (id : Uuid) : Option RolloutLinks :=
  (file.node.filter fun node ↦ node.id = id).map RolloutNode.links

/-- The identifiers that a file with another name flags. -/
def mismatchFlags (file : ScannedFile) (node : RolloutNode) : List Uuid :=
  match file.filenameId with
  | some filenameId => if filenameId ≠ node.id then [filenameId, node.id] else []
  | none => []

/-- The identifiers that a node with two different parents flags. -/
def conflictFlags (node : RolloutNode) : List Uuid :=
  match node.parentThreadId, node.forkedFromId with
  | some parent, some forked => if parent ≠ forked then [node.id] else []
  | _, _ => []

/-- The identifiers that get an issue from one file: a name that is not the identifier in the
metadata, parents that differ, metadata that is invalid. -/
def flags (file : ScannedFile) : List Uuid :=
  match file.sessionMeta with
  | some sessionMeta =>
    match rolloutNodeFromMeta sessionMeta file.modified with
    | .ok node => file.mismatchFlags node ++ conflictFlags node
    | .error _ => file.filenameId.toList
  | none => []

/-- A file without links for an identifier contributes another node or none. -/
theorem linksFor_eq_some {file : ScannedFile} {id : Uuid} {l : RolloutLinks} :
    file.linksFor id = some l ↔ ∃ node, file.node = some node ∧ node.id = id ∧ node.links = l := by
  simp only [linksFor, Option.map_eq_some_iff, Option.filter_eq_some_iff, decide_eq_true_eq,
    and_assoc]

/-- A file whose links for an identifier name two parents flags it. -/
theorem consistent_of_notMem_flags {file : ScannedFile} {id : Uuid} {l : RolloutLinks}
    (hl : file.linksFor id = some l) (hflags : id ∉ file.flags) : l.Consistent := by
  obtain ⟨node, hnode, rfl, rfl⟩ := linksFor_eq_some.mp hl
  intro parent forked hparent hforked
  by_contra hne
  apply hflags
  unfold ScannedFile.node at hnode
  unfold flags
  split at hnode
  · next sessionMeta hmeta =>
    cases hr : rolloutNodeFromMeta sessionMeta file.modified with
    | error message =>
      rw [hr] at hnode
      cases hnode
    | ok read =>
      rw [hr] at hnode
      cases hnode
      have hp : node.parentThreadId = some parent := hparent
      have hf : node.forkedFromId = some forked := hforked
      simp [conflictFlags, hp, hf, hne]
  · obtain ⟨id, -, rfl⟩ := Option.map_eq_some_iff.mp hnode
    cases hparent

end ScannedFile

/-- Two files disagree on the links of an identifier. -/
def Disputed (files : List ScannedFile) (id : Uuid) : Prop :=
  ∃ file ∈ files, ∃ other ∈ files, ∃ l l', file.linksFor id = some l ∧
    other.linksFor id = some l' ∧ l ≠ l'

/-- An identifier that discovery gives an issue. -/
def FlaggedBy (files : List ScannedFile) (id : Uuid) : Prop :=
  (∃ file ∈ files, id ∈ file.flags) ∨ Disputed files id

namespace SessionCatalog

variable {catalog : SessionCatalog} {id other : Uuid} {node : RolloutNode} {file : ScannedFile}

omit [UuidText] in
private theorem flagged_setIssue {message : String} :
    (catalog.setIssue other message).Flagged id ↔ id = other ∨ catalog.Flagged id := by
  simp only [Flagged, Table.has_iff, setIssue, Table.find_upsert]
  split
  · next h => simp [h]
  · next h => simp [h]

omit [UuidText] in
private theorem links_touch (modified : SystemTime) (existing : RolloutNode) :
    (touch modified existing).links = existing.links := by
  unfold touch
  split <;> rfl

omit [UuidText] in
/-- A stored node keeps its links; a new one brings its own. -/
private theorem linksOf_insertNode : (catalog.insertNode node).linksOf id =
    (catalog.linksOf id).or (if id = node.id then some node.links else none) := by
  unfold insertNode
  split
  · next existing hfind =>
    have hsame : ∀ c : SessionCatalog, c.nodes = catalog.nodes →
        ((c.nodes.update (fun id _ ↦ id = node.id) (touch node.modified)).find id).map
          RolloutNode.links = catalog.linksOf id := by
      intro c hc
      rw [hc, Table.find_update, Option.map_map, linksOf]
      apply Option.map_congr
      intro stored _
      simp only [Function.comp_def, decide_eq_true_eq]
      split
      · exact links_touch _ _
      · rfl
    have hor : (catalog.linksOf id).or (if id = node.id then some node.links else none) =
        catalog.linksOf id := by
      split
      · next he => rw [he, linksOf, hfind, Option.map_some, Option.some_or]
      · rw [Option.or_none]
    rw [hor]
    split
    · exact hsame catalog rfl
    · exact hsame _ rfl
  · next hfind =>
    rw [linksOf, Table.find_insert]
    split
    · next he =>
      subst he
      rw [linksOf, hfind]
      rfl
    · rw [Option.or_none, linksOf]

omit [UuidText] in
/-- A node that disagrees with the stored links raises an issue. -/
private theorem flagged_insertNode : (catalog.insertNode node).Flagged id ↔
    catalog.Flagged id ∨ id = node.id ∧ ∃ l, catalog.linksOf id = some l ∧ l ≠ node.links := by
  unfold insertNode
  split
  · next existing hfind =>
    have hl : catalog.linksOf node.id = some existing.links := by
      rw [linksOf, hfind, Option.map_some]
    by_cases hsame : existing.hasSameLinks node = true
    · have heq := RolloutNode.hasSameLinks_iff.mp hsame
      have hno : ¬(id = node.id ∧ ∃ l, catalog.linksOf id = some l ∧ l ≠ node.links) := by
        rintro ⟨rfl, l, hl', hne⟩
        rw [hl] at hl'
        cases hl'
        exact hne heq
      rw [or_iff_left hno]
      simp only [hsame, if_true]
      rfl
    · have hne : existing.links ≠ node.links := mt RolloutNode.hasSameLinks_iff.mpr hsame
      simp only [hsame, if_false, Bool.false_eq_true]
      change (catalog.setIssue node.id _).Flagged id ↔ _
      rw [flagged_setIssue]
      constructor
      · rintro (rfl | h)
        · exact .inr ⟨rfl, _, hl, hne⟩
        · exact .inl h
      · rintro (h | ⟨rfl, -⟩)
        · exact .inr h
        · exact .inl rfl
  · next hfind =>
    have hno : ¬(id = node.id ∧ ∃ l, catalog.linksOf id = some l ∧ l ≠ node.links) := by
      rintro ⟨rfl, l, hl, -⟩
      rw [linksOf, hfind] at hl
      cases hl
    rw [or_iff_left hno]
    rfl

private theorem linksFor_of_node (hnode : file.node = some node) :
    file.linksFor id = if id = node.id then some node.links else none := by
  rw [ScannedFile.linksFor, hnode, Option.filter_some]
  by_cases h : node.id = id
  · simp [h]
  · simp [h, Ne.symm h]

private theorem linksFor_of_none (hnode : file.node = none) : file.linksFor id = none := by
  rw [ScannedFile.linksFor, hnode]
  rfl

/-- What one file does to the links and the issues of a catalog. -/
def Adds (catalog : SessionCatalog) (file : ScannedFile) (next : SessionCatalog) : Prop :=
  ∀ id, next.linksOf id = (catalog.linksOf id).or (file.linksFor id) ∧
    (next.Flagged id ↔ catalog.Flagged id ∨ id ∈ file.flags ∨
      ∃ l l', catalog.linksOf id = some l ∧ file.linksFor id = some l' ∧ l ≠ l')

omit [UuidText] in
private theorem flagged_checkFilename :
    (catalog.checkFilename file node).Flagged id ↔
      catalog.Flagged id ∨ id ∈ file.mismatchFlags node := by
  cases hname : file.filenameId with
  | none => simp [checkFilename, ScannedFile.mismatchFlags, hname]
  | some name =>
    by_cases heq : name = node.id
    · simp [checkFilename, ScannedFile.mismatchFlags, hname, heq]
    · simp only [checkFilename, ScannedFile.mismatchFlags, hname, heq, ne_eq, not_false_eq_true,
        if_true, flagged_setIssue, List.mem_cons, List.not_mem_nil, or_false]
      tauto

omit [UuidText] in
private theorem flagged_checkParents :
    (catalog.checkParents node).Flagged id ↔
      catalog.Flagged id ∨ id ∈ ScannedFile.conflictFlags node := by
  cases hparent : node.parentThreadId with
  | none => simp [checkParents, ScannedFile.conflictFlags, hparent]
  | some parent =>
    cases hforked : node.forkedFromId with
    | none => simp [checkParents, ScannedFile.conflictFlags, hparent, hforked]
    | some forked =>
      by_cases heq : parent = forked
      · simp [checkParents, ScannedFile.conflictFlags, hparent, hforked, heq]
      · simp only [checkParents, ScannedFile.conflictFlags, hparent, hforked, heq, ne_eq,
          not_false_eq_true, if_true, flagged_setIssue, List.mem_singleton]
        exact or_comm

omit [UuidText] in
private theorem nodes_checked :
    ((catalog.checkFilename file node).checkParents node).nodes = catalog.nodes := by
  have hname : (catalog.checkFilename file node).nodes = catalog.nodes := by
    unfold checkFilename
    split
    · split <;> rfl
    · rfl
  unfold checkParents
  split
  · split <;> exact hname
  · exact hname

private theorem adds_issues {raised : SessionCatalog} (hnode : file.node = none)
    (hnodes : raised.nodes = catalog.nodes)
    (hraised : ∀ id, raised.Flagged id ↔ catalog.Flagged id ∨ id ∈ file.flags) :
    catalog.Adds file raised := by
  intro id
  rw [linksFor_of_none hnode, Option.or_none]
  refine ⟨by rw [linksOf, hnodes, linksOf], ?_⟩
  simp [hraised]

private theorem adds_node {raised : SessionCatalog} (hnode : file.node = some node)
    (hnodes : raised.nodes = catalog.nodes)
    (hraised : ∀ id, raised.Flagged id ↔ catalog.Flagged id ∨ id ∈ file.flags) :
    catalog.Adds file (raised.insertNode node) := by
  intro id
  have hsame : raised.linksOf id = catalog.linksOf id := by rw [linksOf, hnodes, linksOf]
  rw [linksOf_insertNode, flagged_insertNode, linksFor_of_node hnode, hsame, hraised, or_assoc]
  refine ⟨rfl, ?_⟩
  by_cases h : id = node.id
  · simp [h]
  · simp [h]

/-- A file adds links where none are stored, and issues where it flags or disagrees. -/
theorem adds_addRollout (catalog : SessionCatalog) (file : ScannedFile) :
    catalog.Adds file (catalog.addRollout file) := by
  unfold addRollout
  split
  · next sessionMeta hmeta =>
    split
    · next node hread =>
      have hnode : file.node = some node := by
        simp only [ScannedFile.node, hmeta, hread]
        rfl
      have hflags : file.flags = file.mismatchFlags node ++ ScannedFile.conflictFlags node := by
        simp only [ScannedFile.flags, hmeta, hread]
      apply adds_node hnode nodes_checked
      intro id
      rw [flagged_checkParents, flagged_checkFilename, hflags, List.mem_append, or_assoc]
    · next error hread =>
      have hnode : file.node = none := by
        simp only [ScannedFile.node, hmeta, hread]
        rfl
      have hflags : file.flags = file.filenameId.toList := by
        simp only [ScannedFile.flags, hmeta, hread]
      split
      · next filenameId hname =>
        refine adds_issues hnode rfl fun id ↦ ?_
        rw [flagged_setIssue, hflags, hname, Option.toList_some, List.mem_singleton, or_comm]
      · next hname =>
        refine adds_issues hnode rfl fun id ↦ ?_
        rw [hflags, hname, Option.toList_none]
        simp
  · next hmeta =>
    have hflags : file.flags = [] := by rw [ScannedFile.flags, hmeta]
    split
    · next id hname =>
      apply adds_node (by rw [ScannedFile.node, hmeta, hname]; rfl) rfl
      simp [hflags]
    · next hname =>
      apply adds_issues (by rw [ScannedFile.node, hmeta, hname]; rfl) rfl
      simp [hflags]

/-! ### All files -/

private theorem ofScanned_append (files : List ScannedFile) (file : ScannedFile) :
    ofScanned (files ++ [file]) = (ofScanned files).addRollout file := by
  rw [ofScanned, List.foldl_append]
  rfl

/-- The links of an identifier are those of the first file that has any. -/
theorem linksOf_ofScanned (files : List ScannedFile) (id : Uuid) :
    (ofScanned files).linksOf id = files.findSome? fun file ↦ file.linksFor id := by
  induction files using List.reverseRecOn with
  | nil => rfl
  | append_singleton files file ih =>
    rw [ofScanned_append, (adds_addRollout _ _ id).1, ih, List.findSome?_append]
    congr 1
    cases h : file.linksFor id <;> simp [h]

/-- A file that disagrees with an earlier one disagrees with the first one, or that one is already
disputed. -/
private theorem disputed_or_first {files : List ScannedFile} {earlier : ScannedFile}
    {l l' : RolloutLinks} (hearlier : earlier ∈ files) (hl : earlier.linksFor id = some l)
    (hne : l ≠ l') : Disputed files id ∨
      ∃ first, files.findSome? (fun file ↦ file.linksFor id) = some first ∧ first ≠ l' := by
  cases hfirst : files.findSome? fun file ↦ file.linksFor id with
  | none =>
    have hnone := List.findSome?_eq_none_iff.mp hfirst earlier hearlier
    rw [hl] at hnone
    cases hnone
  | some first =>
    by_cases heq : first = l'
    · left
      obtain ⟨file, hfile, hgives⟩ := List.exists_of_findSome?_eq_some hfirst
      exact ⟨file, hfile, earlier, hearlier, first, l, hgives, hl, heq ▸ hne.symm⟩
    · exact .inr ⟨first, rfl, heq⟩

private theorem disputed_append {files : List ScannedFile} :
    Disputed (files ++ [file]) id ↔ Disputed files id ∨
      ∃ first l, files.findSome? (fun file ↦ file.linksFor id) = some first ∧
        file.linksFor id = some l ∧ first ≠ l := by
  constructor
  · rintro ⟨a, ha, b, hb, l, l', hl, hl', hne⟩
    rw [List.mem_append, List.mem_singleton] at ha hb
    rcases ha with ha | rfl
    · rcases hb with hb | rfl
      · exact .inl ⟨a, ha, b, hb, l, l', hl, hl', hne⟩
      · rcases disputed_or_first ha hl hne with hd | ⟨first, hfirst, hfne⟩
        · exact .inl hd
        · exact .inr ⟨first, l', hfirst, hl', hfne⟩
    · rcases hb with hb | rfl
      · rcases disputed_or_first hb hl' hne.symm with hd | ⟨first, hfirst, hfne⟩
        · exact .inl hd
        · exact .inr ⟨first, l, hfirst, hl, hfne⟩
      · rw [hl] at hl'
        exact absurd (Option.some.inj hl') hne
  · rintro (⟨a, ha, b, hb, hd⟩ | ⟨first, l, hfirst, hl, hne⟩)
    · exact ⟨a, List.mem_append_left _ ha, b, List.mem_append_left _ hb, hd⟩
    · obtain ⟨a, ha, hgives⟩ := List.exists_of_findSome?_eq_some hfirst
      exact ⟨a, List.mem_append_left _ ha, file,
        List.mem_append_right _ (List.mem_singleton_self _),
        first, l, hgives, hl, hne⟩

/-- An identifier gets an issue from one file or from two that disagree. -/
theorem flagged_ofScanned (files : List ScannedFile) (id : Uuid) :
    (ofScanned files).Flagged id ↔ FlaggedBy files id := by
  induction files using List.reverseRecOn with
  | nil => simp [ofScanned, empty, Flagged, Table.has, FlaggedBy, Disputed]
  | append_singleton files file ih =>
    rw [ofScanned_append, (adds_addRollout _ _ id).2, ih, linksOf_ofScanned, FlaggedBy, FlaggedBy,
      disputed_append]
    simp only [List.mem_append, List.mem_singleton, or_and_right, exists_or, exists_eq_left]
    exact or_or_or_comm

/-- The issues do not depend on the order of the files. -/
theorem flagged_perm {files files' : List ScannedFile} (h : files.Perm files') (id : Uuid) :
    FlaggedBy files id ↔ FlaggedBy files' id := by
  simp only [FlaggedBy, Disputed, h.mem_iff]

/-- Discovery flags every node that names two parents. -/
theorem consistent_ofScanned (files : List ScannedFile) : (ofScanned files).Consistent := by
  intro id l hl hflagged
  rw [linksOf_ofScanned] at hl
  rw [flagged_ofScanned] at hflagged
  obtain ⟨file, hfile, hgives⟩ := List.exists_of_findSome?_eq_some hl
  exact ScannedFile.consistent_of_notMem_flags hgives fun hin ↦ hflagged (.inl ⟨file, hfile, hin⟩)

end SessionCatalog
end CodexLb
