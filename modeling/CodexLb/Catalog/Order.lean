import CodexLb.Catalog.Discover

/-!
# The order of discovery

A catalog keeps the links of whichever duplicate came first. What the files
agree on does not depend on their order; the tree of an identifier does, when
a disputed identifier links into it.
-/

namespace CodexLb

variable [UuidText] {files files' : List ScannedFile} {id : Uuid}

/-! ### What the files agree on -/

/-- The links of the file that comes first. -/
def firstLinks (files : List ScannedFile) (id : Uuid) : Option RolloutLinks :=
  files.findSome? fun file ↦ file.linksFor id

open Classical in
/-- The links of an identifier whose files all agree. -/
noncomputable def agreedLinks (files : List ScannedFile) (id : Uuid) : Option RolloutLinks :=
  if Disputed files id then none else firstLinks files id

/-- An identifier is connected to another one by links that the files agree on. -/
def Agreed (files : List ScannedFile) : Uuid → Uuid → Prop :=
  Relation.ReflTransGen fun a b ↦ ∃ k l, agreedLinks files k = some l ∧
    (a = k ∨ a ∈ l.aliases) ∧ (b = k ∨ b ∈ l.aliases)

/-- The agreed tree of an identifier has an issue or does not resolve. -/
def Damaged (files : List ScannedFile) (id : Uuid) : Prop :=
  ∃ x, Agreed files id x ∧
    (FlaggedBy files x ∨ ¬∃ root, Resolves (agreedLinks files) (FlaggedBy files) x root)

/-- The first file of some disputed identifier links into the agreed tree of an identifier. -/
def Touched (files : List ScannedFile) (id : Uuid) : Prop :=
  ∃ k l x, Disputed files k ∧ firstLinks files k = some l ∧ (x = k ∨ x ∈ l.aliases) ∧
    Agreed files id x

/-- Both mutations have a tree with the same root and members, or both fail. -/
def SameOutcome : Except String SessionTree → Except String SessionTree → Prop
  | .ok tree, .ok tree' => tree.rootId = tree'.rootId ∧ tree.memberIds = tree'.memberIds
  | .error _, .error _ => True
  | _, _ => False

private theorem firstLinks_of_mem {file : ScannedFile} {l : RolloutLinks}
    (hd : ¬Disputed files id) (hfile : file ∈ files) (hl : file.linksFor id = some l) :
    firstLinks files id = some l := by
  cases hfirst : firstLinks files id with
  | none =>
    have hnone := List.findSome?_eq_none_iff.mp hfirst file hfile
    rw [hl] at hnone
    cases hnone
  | some first =>
    obtain ⟨other, hother, hgives⟩ := List.exists_of_findSome?_eq_some hfirst
    by_contra hne
    exact hd ⟨other, hother, file, hfile, first, l, hgives, hl, fun he ↦ hne (he ▸ rfl)⟩

/-- Disputes do not depend on the order of the files. -/
theorem disputed_perm (h : files.Perm files') : Disputed files id ↔ Disputed files' id := by
  simp only [Disputed, h.mem_iff]

/-- Agreed links do not depend on the order of the files. -/
theorem agreedLinks_perm (h : files.Perm files') : agreedLinks files = agreedLinks files' := by
  ext x l
  unfold agreedLinks
  by_cases hd : Disputed files x
  · rw [if_pos hd, if_pos ((disputed_perm h).mp hd)]
  · have hd' : ¬Disputed files' x := mt (disputed_perm h).mpr hd
    rw [if_neg hd, if_neg hd']
    constructor
    · intro hl
      obtain ⟨file, hfile, hgives⟩ := List.exists_of_findSome?_eq_some hl
      exact firstLinks_of_mem hd' (h.mem_iff.mp hfile) hgives
    · intro hl
      obtain ⟨file, hfile, hgives⟩ := List.exists_of_findSome?_eq_some hl
      exact firstLinks_of_mem hd (h.mem_iff.mpr hfile) hgives

/-- Agreed trees do not depend on the order of the files. -/
theorem agreed_perm (h : files.Perm files') : Agreed files = Agreed files' := by
  unfold Agreed
  rw [agreedLinks_perm h]

/-- Damage does not depend on the order of the files. -/
theorem damaged_perm (h : files.Perm files') : Damaged files id ↔ Damaged files' id := by
  have hflagged : FlaggedBy files = FlaggedBy files' := by
    ext x
    exact SessionCatalog.flagged_perm h x
  unfold Damaged
  rw [agreed_perm h, agreedLinks_perm h, hflagged]

/-! ### The agreed tree and the component -/

namespace SessionCatalog

private theorem linksOf_eq (files : List ScannedFile) :
    (ofScanned files).linksOf = firstLinks files := by
  ext1 x
  exact linksOf_ofScanned files x

private theorem agreedLinks_of_not_flagged (h : ¬FlaggedBy files id) :
    agreedLinks files id = (ofScanned files).linksOf id := by
  have hd : ¬Disputed files id := fun hd ↦ h (.inr hd)
  rw [linksOf_eq, agreedLinks, if_neg hd]

private theorem firstLinks_of_agreedLinks {l : RolloutLinks} (h : agreedLinks files id = some l) :
    firstLinks files id = some l := by
  unfold agreedLinks at h
  split at h
  · cases h
  · exact h

/-- The agreed tree is part of the component in every order. -/
theorem connected_of_agreed {x : Uuid} (h : Agreed files id x) :
    Graph.Connected (ofScanned files).groups id x := by
  induction h with
  | refl => exact .refl id
  | tail _ hlink ih =>
    obtain ⟨k, l, hl, ha, hb⟩ := hlink
    have hstored : (ofScanned files).linksOf k = some l := by
      rw [linksOf_eq]
      exact firstLinks_of_agreedLinks hl
    exact ih.trans (.single (linked_iff.mpr ⟨k, l, hstored, ha, hb⟩))

/-- The component is the agreed tree when no disputed identifier links into it. -/
theorem agreed_of_connected (htouched : ¬Touched files id) {x : Uuid}
    (h : Graph.Connected (ofScanned files).groups id x) : Agreed files id x := by
  apply h.preserves
  · intro a b hlink _ ha
    obtain ⟨k, l, hl, hak, hbk⟩ := linked_iff.mp hlink
    rw [linksOf_eq] at hl
    by_cases hd : Disputed files k
    · exact absurd ⟨k, l, a, hd, hl, hak, ha⟩ htouched
    · exact ha.tail ⟨k, l, by rw [agreedLinks, if_neg hd, hl], hak, hbk⟩
  · exact .refl

/-- The component of an identifier is sound exactly when its agreed tree is and no disputed
identifier links into it. -/
theorem sound_ofScanned_iff (files : List ScannedFile) (id : Uuid) :
    (ofScanned files).Sound id ↔ ¬Damaged files id ∧ ¬Touched files id := by
  constructor
  · intro hsound
    have hfree : ∀ x, Graph.Connected (ofScanned files).groups id x → ¬FlaggedBy files x :=
      fun x hx ↦ mt (flagged_ofScanned files x).mpr (hsound x hx).1
    constructor
    · rintro ⟨x, hx, hdamage⟩
      have hconn := connected_of_agreed hx
      obtain ⟨root, hroot⟩ := (hsound x hconn).2
      rcases hdamage with hflagged | hunresolved
      · exact hfree x hconn hflagged
      · apply hunresolved
        refine ⟨root, hroot.congr hconn ?_ ?_ fun a _ ↦ (flagged_ofScanned files a).symm⟩
        · intro a l b ha hl hb
          exact ha.trans (.single (linked_alias hl hb))
        · intro a ha
          exact agreedLinks_of_not_flagged (hfree a ha)
    · rintro ⟨k, l, x, hd, hl, hxk, hx⟩
      have hstored : (ofScanned files).linksOf k = some l := by rw [linksOf_eq, hl]
      have hlink := linked_iff.mpr ⟨k, l, hstored, hxk, .inl rfl⟩
      exact hfree k ((connected_of_agreed hx).trans (.single hlink)) (.inr hd)
  · rintro ⟨hdamaged, htouched⟩ x hconn
    have hx := agreed_of_connected htouched hconn
    have hfree : ∀ a, Agreed files id a → ¬FlaggedBy files a :=
      fun a ha hflagged ↦ hdamaged ⟨a, ha, .inl hflagged⟩
    refine ⟨mt (flagged_ofScanned files x).mp (hfree x hx), ?_⟩
    by_contra hunresolved
    apply hdamaged
    refine ⟨x, hx, .inr ?_⟩
    rintro ⟨root, hroot⟩
    apply hunresolved
    refine ⟨root, hroot.congr hx ?_ ?_ fun a _ ↦ flagged_ofScanned files a⟩
    · intro a l b ha hl hb
      exact ha.tail ⟨a, l, hl, .inl rfl, .inr hb⟩
    · intro a ha
      exact (agreedLinks_of_not_flagged (hfree a ha)).symm

end SessionCatalog

/-! ### Two orders -/

open SessionCatalog

omit [UuidText] in
private theorem sameOutcome_iff {catalog catalog' : SessionCatalog}
    (hsame : catalog.Sound id → catalog'.Sound id → ∀ tree tree',
      catalog.treeFor id = .ok tree → catalog'.treeFor id = .ok tree' →
        tree.rootId = tree'.rootId ∧ tree.memberIds = tree'.memberIds) :
    SameOutcome (catalog.mutationTreeFor id) (catalog'.mutationTreeFor id) ↔
      (catalog.Sound id ↔ catalog'.Sound id) := by
  rw [← exists_mutationTreeFor_iff, ← exists_mutationTreeFor_iff]
  cases h : catalog.mutationTreeFor id with
  | error message =>
    cases h' : catalog'.mutationTreeFor id with
    | error message' => simp [SameOutcome]
    | ok tree' => simp [SameOutcome]
  | ok tree =>
    cases h' : catalog'.mutationTreeFor id with
    | error message' => simp [SameOutcome]
    | ok tree' =>
      obtain ⟨hsound, htree⟩ := mutationTreeFor_ok_iff.mp h
      obtain ⟨hsound', htree'⟩ := mutationTreeFor_ok_iff.mp h'
      exact iff_of_true (hsame hsound hsound' tree tree' htree htree')
        (iff_of_true ⟨tree, rfl⟩ ⟨tree', rfl⟩)

private theorem connected_iff_agreed (h : (ofScanned files).Sound id) (x : Uuid) :
    Graph.Connected (ofScanned files).groups id x ↔ Agreed files id x :=
  ⟨agreed_of_connected ((sound_ofScanned_iff files id).mp h).2, connected_of_agreed⟩

private theorem linksOf_of_sound (h : (ofScanned files).Sound id) {x : Uuid}
    (hx : Agreed files id x) : (ofScanned files).linksOf x = agreedLinks files x := by
  have hfree := (h x ((connected_iff_agreed h x).mpr hx)).1
  exact (agreedLinks_of_not_flagged (mt (flagged_ofScanned files x).mpr hfree)).symm

/-- Two orders of the same files give an identifier the same outcome exactly when its agreed tree
is damaged, or disputed identifiers link into it in both orders or in neither. -/
theorem discovery_order_harmless_iff (files files' : List ScannedFile)
    (hperm : files.Perm files') (id : Uuid) :
    SameOutcome ((ofScanned files).mutationTreeFor id) ((ofScanned files').mutationTreeFor id) ↔
      Damaged files id ∨ (Touched files id ↔ Touched files' id) := by
  rw [sameOutcome_iff, sound_ofScanned_iff, sound_ofScanned_iff, ← damaged_perm hperm]
  · by_cases hdamaged : Damaged files id
    · simp [hdamaged]
    · simp [hdamaged, not_iff_not]
  · intro hsound hsound' tree tree' htree htree'
    have hagreed : Agreed files = Agreed files' := agreed_perm hperm
    apply hsound.same_tree hsound' (consistent_ofScanned files) (consistent_ofScanned files')
      _ _ htree htree'
    · intro x
      rw [connected_iff_agreed hsound, connected_iff_agreed hsound', hagreed]
    · intro x hx
      have hin := (connected_iff_agreed hsound x).mp hx
      rw [linksOf_of_sound hsound hin, linksOf_of_sound hsound' (hagreed ▸ hin),
        agreedLinks_perm hperm]

/-! ### Two files that disagree -/

private def metaLine (id sessionId : String) : JsonValue :=
  .object [("type", .string "session_meta"), ("payload", .object
    [("id", .string id), ("session_id", .string sessionId)])]

/-- A rollout that names the first session as its root. -/
private def firstCopy : ScannedFile :=
  ⟨"a/rollout.jsonl", some 3, some (metaLine "00000000-0000-0000-0000-000000000003"
    "00000000-0000-0000-0000-000000000001"), 0⟩

/-- Another file of the same rollout, which names the second session. -/
private def secondCopy : ScannedFile :=
  ⟨"b/rollout.jsonl", some 3, some (metaLine "00000000-0000-0000-0000-000000000003"
    "00000000-0000-0000-0000-000000000002"), 0⟩

omit [UuidText] in
/-- The disputed rollout itself cannot be moved in either order. -/
theorem discovery_order_harmless_disputed : let _ := hyphenatedText
    SameOutcome ((ofScanned [firstCopy, secondCopy]).mutationTreeFor 3)
      ((ofScanned [secondCopy, firstCopy]).mutationTreeFor 3) := by
  intro _
  have hfirst : firstCopy.linksFor 3 = some ⟨some 1, none, none⟩ := by decide +kernel
  have hsecond : secondCopy.linksFor 3 = some ⟨some 2, none, none⟩ := by decide +kernel
  have hdisputed : Disputed [firstCopy, secondCopy] 3 :=
    ⟨firstCopy, List.mem_cons_self, secondCopy, List.mem_cons_of_mem _ List.mem_cons_self, _, _,
      hfirst, hsecond, by decide⟩
  rw [discovery_order_harmless_iff _ _ (.swap _ _ [])]
  left
  exact ⟨3, .refl, .inl (.inr hdisputed)⟩

omit [UuidText] in
/-- The copy that is visited first decides whether the first session can be moved. -/
theorem discovery_order_matters : let _ := hyphenatedText
    ¬∀ files files' : List ScannedFile, files.Perm files' → ∀ id,
      SameOutcome ((ofScanned files).mutationTreeFor id)
        ((ofScanned files').mutationTreeFor id) := by
  intro _ h
  have hsame := h [firstCopy, secondCopy] [secondCopy, firstCopy] (.swap _ _ []) 1
  have hfails : ((ofScanned [firstCopy, secondCopy]).mutationTreeFor 1).toOption = none := by
    decide +kernel
  have hok : ((ofScanned [secondCopy, firstCopy]).mutationTreeFor 1).toOption =
      some ⟨1, [1], 0⟩ := by decide +kernel
  cases hleft : (ofScanned [firstCopy, secondCopy]).mutationTreeFor 1 with
  | ok tree =>
    rw [hleft] at hfails
    cases hfails
  | error message =>
    cases hright : (ofScanned [secondCopy, firstCopy]).mutationTreeFor 1 with
    | ok tree =>
      rw [hleft, hright] at hsame
      exact hsame
    | error message' =>
      rw [hright] at hok
      cases hok

end CodexLb
