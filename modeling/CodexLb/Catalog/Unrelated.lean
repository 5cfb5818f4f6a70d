import CodexLb.Catalog.Discover

/-!
# Unrelated rollout files

A file whose identifiers are outside the component of a session adds nothing
to it. The file still has to be text as far as its scan reads: a line that is
not UTF-8 ends the discovery of every session.
-/

namespace CodexLb

open Relational (Table)

/-! ### What the scan of a file reads -/

section Scan

variable [JsonText]

/-- The lines of a file, each with its line feed. -/
def fileLines : List UInt8 → List (List UInt8)
  | [] => []
  | byte :: bytes =>
    if byte = 10 then [byte] :: fileLines bytes
    else
      match fileLines bytes with
      | [] => [[byte]]
      | line :: lines => (byte :: line) :: lines

/-- A line that the scan passes over: text without session metadata. -/
def Passed (line : List UInt8) : Prop :=
  ∃ text, decodeLine line = some text ∧ lineSessionMeta text = none

/-- Every line within the limits that follows passed lines only is UTF-8. -/
def ReadableWithin (lines total : Nat) (bytes : List UInt8) : Prop :=
  ∀ before line after, fileLines bytes = before ++ line :: after → before.length < lines →
    total + before.flatten.length ≤ sessionMetaScanByteLimit → (∀ l ∈ before, Passed l) →
    (decodeLine line).isSome = true

/-- The scan of a file reads UTF-8 only. -/
def Readable (bytes : List UInt8) : Prop := ReadableWithin sessionMetaScanLineLimit 0 bytes

omit [JsonText] in
private theorem fileLines_eq {bytes : List UInt8} (h : bytes ≠ []) :
    fileLines bytes = (splitLine bytes).1 :: fileLines (splitLine bytes).2 := by
  induction bytes with
  | nil => exact absurd rfl h
  | cons byte bytes ih =>
    rw [fileLines, splitLine]
    split
    · rfl
    · cases bytes with
      | nil => rfl
      | cons next bytes => rw [ih (List.cons_ne_nil next bytes)]

omit [JsonText] in
private theorem splitLine_ne_nil {bytes : List UInt8} (h : bytes ≠ []) :
    (splitLine bytes).1.length ≠ 0 := by
  cases bytes with
  | nil => exact absurd rfl h
  | cons byte bytes =>
    rw [splitLine]
    split <;> exact Nat.succ_ne_zero _

omit [JsonText] in
private theorem decodeLine_nil : decodeLine [] = some "" := by decide +kernel

private theorem scanLines_succ (path : String) (lines total : Nat) (bytes : List UInt8) :
    scanLines path (lines + 1) total bytes =
      match decodeLine (splitLine bytes).1 with
      | none => .error ("reading " ++ path)
      | some text =>
        if (splitLine bytes).1.length = 0 then .ok none
        else if sessionMetaScanByteLimit < total + (splitLine bytes).1.length then .ok none
        else
          match lineSessionMeta text with
          | some value => .ok (some value)
          | none => scanLines path lines (total + (splitLine bytes).1.length)
              (splitLine bytes).2 := rfl

private theorem firstSessionMeta_nil (path : String) : firstSessionMeta path [] = .ok none := by
  change scanLines path (63 + 1) 0 [] = .ok none
  rw [scanLines_succ, splitLine, decodeLine_nil]
  rfl

/-- Past a line that the scan passes, the rest of the file decides. -/
private theorem readableWithin_cons {lines total : Nat} {bytes : List UInt8} {text : String}
    (hne : bytes ≠ []) (htext : decodeLine (splitLine bytes).1 = some text)
    (hmeta : lineSessionMeta text = none) :
    ReadableWithin (lines + 1) total bytes ↔
      ReadableWithin lines (total + (splitLine bytes).1.length) (splitLine bytes).2 := by
  unfold ReadableWithin
  rw [fileLines_eq hne]
  constructor
  · intro h before line after hlines hcount hbytes hpassed
    apply h ((splitLine bytes).1 :: before) line after
    · rw [hlines, List.cons_append]
    · rw [List.length_cons]
      omega
    · rw [List.flatten_cons, List.length_append]
      omega
    · intro l hl
      rcases List.mem_cons.mp hl with rfl | hl
      · exact ⟨text, htext, hmeta⟩
      · exact hpassed l hl
  · intro h before line after hlines hcount hbytes hpassed
    cases before with
    | nil =>
      obtain ⟨rfl, -⟩ := List.cons.inj hlines
      rw [htext]
      rfl
    | cons first before =>
      obtain ⟨rfl, hrest⟩ := List.cons.inj hlines
      rw [List.length_cons] at hcount
      rw [List.flatten_cons, List.length_append] at hbytes
      exact h before line after hrest (by omega) (by omega)
        fun l hl ↦ hpassed l (List.mem_cons_of_mem _ hl)

/-- Where no line after the first is read, the first decides. -/
private theorem readableWithin_first {lines total : Nat} {bytes : List UInt8} {text : String}
    (hne : bytes ≠ []) (htext : decodeLine (splitLine bytes).1 = some text)
    (hstop : sessionMetaScanByteLimit < total + (splitLine bytes).1.length ∨
      lineSessionMeta text ≠ none) : ReadableWithin lines total bytes := by
  intro before line after hlines hcount hbytes hpassed
  rw [fileLines_eq hne] at hlines
  cases before with
  | nil =>
    obtain ⟨rfl, -⟩ := List.cons.inj hlines
    rw [htext]
    rfl
  | cons first before =>
    obtain ⟨rfl, -⟩ := List.cons.inj hlines
    rw [List.flatten_cons, List.length_append] at hbytes
    rcases hstop with hlong | hfound
    · omega
    · obtain ⟨text', htext', hnone⟩ := hpassed _ List.mem_cons_self
      rw [htext] at htext'
      cases htext'
      exact absurd hnone hfound

private theorem scanLines_ok_iff (path : String) (lines total : Nat) (bytes : List UInt8)
    (htotal : total ≤ sessionMetaScanByteLimit) :
    (∃ found, scanLines path lines total bytes = .ok found) ↔
      ReadableWithin lines total bytes := by
  induction lines generalizing total bytes with
  | zero => exact iff_of_true ⟨none, rfl⟩ fun _ _ _ _ h ↦ absurd h (Nat.not_lt_zero _)
  | succ lines ih =>
    rw [scanLines_succ]
    by_cases hne : bytes = []
    · subst hne
      simp only [splitLine, decodeLine_nil, List.length_nil, if_true]
      refine iff_of_true ⟨none, rfl⟩ fun before line after hlines ↦ ?_
      cases before <;> cases hlines
    · split
      · next hnone =>
        refine iff_of_false (fun ⟨found, h⟩ ↦ nomatch h) fun h ↦ ?_
        have hfirst := h [] _ _ (fileLines_eq hne) (Nat.succ_pos _) htotal
          fun l hl ↦ absurd hl List.not_mem_nil
        rw [hnone] at hfirst
        cases hfirst
      · next text htext =>
        rw [if_neg (splitLine_ne_nil hne)]
        split
        · next hlong =>
          exact iff_of_true ⟨none, rfl⟩ (readableWithin_first hne htext (.inl hlong))
        · next hshort =>
          split
          · next value hfound =>
            refine iff_of_true ⟨some value, rfl⟩ (readableWithin_first hne htext (.inr ?_))
            rw [hfound]
            exact Option.some_ne_none value
          · next hpassed =>
            rw [readableWithin_cons hne htext hpassed]
            exact ih _ _ (by omega)

/-- A file can be scanned exactly when what the scan reads of it is UTF-8. -/
theorem scan_ok_iff (file : RolloutFile) :
    (∃ scanned, file.scan = .ok scanned) ↔ Readable file.bytes := by
  rw [Readable, ← scanLines_ok_iff file.path _ 0 file.bytes (Nat.zero_le _)]
  unfold RolloutFile.scan firstSessionMeta
  cases scanLines file.path sessionMetaScanLineLimit 0 file.bytes with
  | error message => simp [Except.map]
  | ok found => simp [Except.map]

end Scan

/-! ### A file outside a component -/

variable [UuidText] {before after : List ScannedFile} {extra : ScannedFile} {id : Uuid}

/-- The identifiers of a file: the one of its name, and those of its metadata. -/
def ScannedFile.ids (file : ScannedFile) : List Uuid :=
  file.filenameId.toList ++
    (file.node.map fun node ↦ node.id :: node.links.aliases).getD []

/-- A file names no identifier of a component. -/
def OutsideComponent (catalog : SessionCatalog) (id : Uuid) (file : ScannedFile) : Prop :=
  ∀ x ∈ file.ids, ¬Graph.Connected catalog.groups id x

private theorem ids_of_linksFor {x : Uuid} {l : RolloutLinks} (h : extra.linksFor x = some l) :
    x ∈ extra.ids ∧ ∀ a ∈ l.aliases, a ∈ extra.ids := by
  obtain ⟨node, hnode, rfl, rfl⟩ := ScannedFile.linksFor_eq_some.mp h
  rw [ScannedFile.ids, hnode, Option.map_some, Option.getD_some]
  refine ⟨List.mem_append_right _ List.mem_cons_self, fun a ha ↦ ?_⟩
  exact List.mem_append_right _ (List.mem_cons_of_mem _ ha)

omit [UuidText] in
private theorem mem_of_mismatchFlags {node : RolloutNode} {x : Uuid}
    (h : x ∈ extra.mismatchFlags node) : extra.filenameId = some x ∨ x = node.id := by
  unfold ScannedFile.mismatchFlags at h
  split at h
  · next name hname =>
    split at h
    · rcases List.mem_cons.mp h with rfl | h
      · exact .inl hname
      · exact .inr (List.mem_singleton.mp h)
    · cases h
  · cases h

omit [UuidText] in
private theorem mem_of_conflictFlags {node : RolloutNode} {x : Uuid}
    (h : x ∈ ScannedFile.conflictFlags node) : x = node.id := by
  unfold ScannedFile.conflictFlags at h
  split at h
  · split at h
    · exact List.mem_singleton.mp h
    · cases h
  · cases h

/-- A file flags only identifiers of its own. -/
private theorem ids_of_flags {x : Uuid} (h : x ∈ extra.flags) : x ∈ extra.ids := by
  have hname : extra.filenameId = some x → x ∈ extra.ids := by
    intro hname
    rw [ScannedFile.ids, hname]
    exact List.mem_append_left _ (List.mem_singleton_self x)
  unfold ScannedFile.flags at h
  split at h
  · next sessionMeta hmeta =>
    split at h
    · next node hread =>
      have hnode : extra.node = some node := by
        simp only [ScannedFile.node, hmeta, hread]
        rfl
      have hself : node.id ∈ extra.ids := by
        rw [ScannedFile.ids, hnode]
        exact List.mem_append_right _ List.mem_cons_self
      rcases List.mem_append.mp h with h | h
      · rcases mem_of_mismatchFlags h with h | rfl
        · exact hname h
        · exact hself
      · exact mem_of_conflictFlags h ▸ hself
    · exact hname (by simpa using h)
  · cases h

namespace SessionCatalog

private theorem linksOf_with_extra {x : Uuid} {l : RolloutLinks}
    (h : (ofScanned (before ++ extra :: after)).linksOf x = some l) :
    extra.linksFor x = some l ∨ (ofScanned (before ++ after)).linksOf x = some l := by
  rw [linksOf_ofScanned, List.findSome?_append, List.findSome?_cons] at h
  rw [linksOf_ofScanned, List.findSome?_append]
  cases hfirst : before.findSome? fun file ↦ file.linksFor x with
  | some first =>
    rw [hfirst, Option.some_or] at h
    exact .inr (by rwa [Option.some_or])
  | none =>
    rw [hfirst, Option.none_or] at h
    cases hextra : extra.linksFor x with
    | some given =>
      rw [hextra] at h
      exact .inl h
    | none =>
      rw [hextra] at h
      exact .inr (by rwa [Option.none_or])

private theorem linksOf_without_extra {x : Uuid} (h : extra.linksFor x = none) :
    (ofScanned (before ++ extra :: after)).linksOf x =
      (ofScanned (before ++ after)).linksOf x := by
  rw [linksOf_ofScanned, linksOf_ofScanned, List.findSome?_append, List.findSome?_append,
    List.findSome?_cons, h]

private theorem flagged_without_extra {x : Uuid} (hlinks : extra.linksFor x = none)
    (hflags : x ∉ extra.flags) : (ofScanned (before ++ extra :: after)).Flagged x ↔
      (ofScanned (before ++ after)).Flagged x := by
  have hsub : ∀ file ∈ before ++ after, file ∈ before ++ extra :: after := by
    intro file hfile
    rw [List.mem_append] at hfile
    rw [List.mem_append, List.mem_cons]
    exact hfile.imp_right .inr
  have hother : ∀ file ∈ before ++ extra :: after, file ≠ extra → file ∈ before ++ after := by
    intro file hfile hne
    rw [List.mem_append, List.mem_cons] at hfile
    rw [List.mem_append]
    exact hfile.imp_right fun h ↦ h.resolve_left hne
  rw [flagged_ofScanned, flagged_ofScanned]
  constructor
  · rintro (⟨file, hfile, hx⟩ | ⟨a, ha, b, hb, l, l', hl, hl', hne⟩)
    · refine .inl ⟨file, hother file hfile ?_, hx⟩
      rintro rfl
      exact hflags hx
    · refine .inr ⟨a, hother a ha ?_, b, hother b hb ?_, l, l', hl, hl', hne⟩
      · rintro rfl
        rw [hlinks] at hl
        cases hl
      · rintro rfl
        rw [hlinks] at hl'
        cases hl'
  · rintro (⟨file, hfile, hx⟩ | ⟨a, ha, b, hb, hd⟩)
    · exact .inl ⟨file, hsub file hfile, hx⟩
    · exact .inr ⟨a, hsub a ha, b, hsub b hb, hd⟩

private theorem agrees_inside (hout : OutsideComponent (ofScanned (before ++ after)) id extra)
    {x : Uuid}
    (hx : Graph.Connected (ofScanned (before ++ after)).groups id x) :
    (ofScanned (before ++ extra :: after)).linksOf x =
        (ofScanned (before ++ after)).linksOf x ∧
      ((ofScanned (before ++ extra :: after)).Flagged x ↔
        (ofScanned (before ++ after)).Flagged x) := by
  have hlinks : extra.linksFor x = none := by
    cases h : extra.linksFor x with
    | none => rfl
    | some l => exact absurd hx (hout x (ids_of_linksFor h).1)
  have hflags : x ∉ extra.flags := fun h ↦ hout x (ids_of_flags h) hx
  exact ⟨linksOf_without_extra hlinks, flagged_without_extra hlinks hflags⟩

/-- A file outside a component leaves the component as it is. -/
private theorem connected_with_extra
    (hout : OutsideComponent (ofScanned (before ++ after)) id extra) (x : Uuid) :
    Graph.Connected (ofScanned (before ++ after)).groups id x ↔
      Graph.Connected (ofScanned (before ++ extra :: after)).groups id x := by
  constructor
  · intro h
    suffices hboth : Graph.Connected (ofScanned (before ++ after)).groups id x ∧
        Graph.Connected (ofScanned (before ++ extra :: after)).groups id x from hboth.2
    apply h.preserves (P := fun y ↦ Graph.Connected (ofScanned (before ++ after)).groups id y ∧
      Graph.Connected (ofScanned (before ++ extra :: after)).groups id y)
    · rintro a b hlink - ⟨ha, ha'⟩
      obtain ⟨k, l, hl, hak, hbk⟩ := linked_iff.mp hlink
      have hk := ha.trans (.single (linked_iff.mpr ⟨k, l, hl, hak, .inl rfl⟩))
      have hl' := (agrees_inside hout hk).1.trans hl
      exact ⟨ha.trans (.single hlink), ha'.trans (.single (linked_iff.mpr ⟨k, l, hl', hak, hbk⟩))⟩
    · exact ⟨.refl id, .refl id⟩
  · intro h
    apply h.preserves
    · intro a b hlink _ ha
      obtain ⟨k, l, hl, hak, hbk⟩ := linked_iff.mp hlink
      rcases linksOf_with_extra hl with hextra | hl
      · obtain ⟨hself, haliases⟩ := ids_of_linksFor hextra
        have hin : a ∈ extra.ids := by
          rcases hak with rfl | hak
          · exact hself
          · exact haliases a hak
        exact absurd ha (hout a hin)
      · exact ha.trans (.single (linked_iff.mpr ⟨k, l, hl, hak, hbk⟩))
    · exact .refl id

/-- A file outside a sound component leaves its tree as it is. -/
theorem same_tree_with_extra (hout : OutsideComponent (ofScanned (before ++ after)) id extra)
    {tree : SessionTree} (h : (ofScanned (before ++ after)).mutationTreeFor id = .ok tree) :
    ∃ tree', (ofScanned (before ++ extra :: after)).mutationTreeFor id = .ok tree' ∧
      tree'.rootId = tree.rootId ∧ tree'.memberIds = tree.memberIds := by
  obtain ⟨hsound, htree⟩ := mutationTreeFor_ok_iff.mp h
  have hsound' : (ofScanned (before ++ extra :: after)).Sound id := by
    intro x hx
    have hin := (connected_with_extra hout x).mpr hx
    obtain ⟨hfree, root, hroot⟩ := hsound x hin
    refine ⟨mt (agrees_inside hout hin).2.mp hfree, root, ?_⟩
    apply hroot.congr hin
    · intro a l b ha hl hb
      exact ha.trans (.single (linked_alias hl hb))
    · exact fun a ha ↦ (agrees_inside hout ha).1
    · exact fun a ha ↦ (agrees_inside hout ha).2
  obtain ⟨tree', htree'⟩ := exists_mutationTreeFor_iff.mpr hsound'
  obtain ⟨hroot, hmembers⟩ := hsound.same_tree hsound' (consistent_ofScanned _)
    (consistent_ofScanned _) (connected_with_extra hout) (fun x hx ↦ (agrees_inside hout hx).1)
    htree (mutationTreeFor_ok_iff.mp htree').2
  exact ⟨tree', htree', hroot.symm, hmembers.symm⟩

end SessionCatalog

/-! ### Discovery with one more file -/

open SessionCatalog

variable [JsonText]

/-- Discovery followed by the lookup of a mutation's tree, as the commands run it. -/
def discoverTree (files : List RolloutFile) (id : Uuid) : Except String SessionTree :=
  (discover files).bind fun catalog ↦ catalog.mutationTreeFor id

/-- The outcome is a tree with this root and these members. -/
def Unchanged (tree : SessionTree) (outcome : Except String SessionTree) : Prop :=
  ∃ tree', outcome = .ok tree' ∧ tree'.rootId = tree.rootId ∧ tree'.memberIds = tree.memberIds

/-- A file names no identifier of the component of a session: not in its name, and not in its
metadata if its content yields any. -/
def Unrelated (files : List RolloutFile) (id : Uuid) (file : RolloutFile) : Prop :=
  ∀ catalog, discover files = .ok catalog →
    (∀ x, file.filenameId = some x → ¬Graph.Connected catalog.groups id x) ∧
      ∀ scanned, file.scan = .ok scanned → OutsideComponent catalog id scanned

private theorem discover_append {before after : List RolloutFile} {extra : RolloutFile}
    {catalog : SessionCatalog} (h : discover (before ++ after) = .ok catalog) :
    ∃ sBefore sAfter, catalog = ofScanned (sBefore ++ sAfter) ∧
      discover (before ++ extra :: after) =
        extra.scan.map fun scanned ↦ ofScanned (sBefore ++ scanned :: sAfter) := by
  unfold discover at h ⊢
  rw [List.mapM_append] at h ⊢
  rw [List.mapM_cons]
  cases hbefore : before.mapM RolloutFile.scan with
  | error message =>
    rw [hbefore] at h
    cases h
  | ok sBefore =>
    rw [hbefore] at h
    cases hafter : after.mapM RolloutFile.scan with
    | error message =>
      rw [hafter] at h
      cases h
    | ok sAfter =>
      rw [hafter] at h
      cases h
      refine ⟨sBefore, sAfter, rfl, ?_⟩
      cases extra.scan <;> rfl

/-- Adding a file outside the component of a session leaves the outcome of a mutation as it is
exactly when what the scan reads of the file is UTF-8. -/
theorem unrelated_file_harmless_iff (before after : List RolloutFile) (extra : RolloutFile)
    (id : Uuid) (tree : SessionTree) (h : discoverTree (before ++ after) id = .ok tree)
    (hout : Unrelated (before ++ after) id extra) :
    Unchanged tree (discoverTree (before ++ extra :: after) id) ↔ Readable extra.bytes := by
  unfold discoverTree at h ⊢
  cases hfound : discover (before ++ after) with
  | error message =>
    rw [hfound] at h
    cases h
  | ok catalog =>
    rw [hfound] at h
    obtain ⟨sBefore, sAfter, rfl, hextra⟩ := @discover_append _ _ before after extra catalog hfound
    rw [← scan_ok_iff, hextra]
    cases hscan : extra.scan with
    | error message =>
      refine iff_of_false ?_ (fun ⟨scanned, hscanned⟩ ↦ nomatch hscanned)
      rintro ⟨tree', htree', -⟩
      cases htree'
    | ok scanned =>
      have houtside := (hout _ hfound).2 scanned hscan
      exact iff_of_true (same_tree_with_extra houtside h) ⟨scanned, rfl⟩

/-! ### A byte that is no text -/

@[reducible] private def noJson : JsonText := ⟨fun _ ↦ none⟩

/-- An empty rollout of the first session. -/
private def emptyRollout : RolloutFile := ⟨"rollout-1.jsonl", some 1, [], 0⟩

/-- A rollout of the second session with some content. -/
private def otherRollout (bytes : List UInt8) : RolloutFile :=
  ⟨"rollout-2.jsonl", some 2, bytes, 0⟩

omit [UuidText] [JsonText] in
private theorem scanLines_noJson (path : String) (lines total : Nat) (bytes : List UInt8)
    {found : Option JsonValue} (h : @scanLines noJson path lines total bytes = .ok found) :
    found = none := by
  induction lines generalizing total bytes with
  | zero => exact (Except.ok.inj h).symm
  | succ lines ih =>
    rw [@scanLines_succ noJson] at h
    split at h
    · cases h
    · split at h
      · exact (Except.ok.inj h).symm
      · split at h
        · exact (Except.ok.inj h).symm
        · exact ih _ _ h

omit [UuidText] [JsonText] in
private theorem unrelated_other (bytes : List UInt8) :
    @Unrelated hyphenatedText noJson [emptyRollout] 1 (otherRollout bytes) := by
  intro catalog hfound
  have hscan : @RolloutFile.scan noJson emptyRollout =
      .ok ⟨"rollout-1.jsonl", some 1, none, 0⟩ := by
    unfold RolloutFile.scan
    rw [emptyRollout, @firstSessionMeta_nil noJson]
    rfl
  have hcatalog : catalog = @ofScanned hyphenatedText [⟨"rollout-1.jsonl", some 1, none, 0⟩] := by
    unfold discover at hfound
    rw [List.mapM_cons, List.mapM_nil, hscan] at hfound
    exact (Except.ok.inj hfound).symm
  have hother : ¬Graph.Connected catalog.groups 1 2 := by
    have hconn : (2 : Uuid) ∉ (@ofScanned hyphenatedText
        [⟨"rollout-1.jsonl", some 1, none, 0⟩]).connectedIds 1 := by decide +kernel
    rwa [← hcatalog, connectedIds, Graph.mem_component] at hconn
  refine ⟨fun x hx ↦ Option.some.inj hx ▸ hother, fun scanned hscanned x hx ↦ ?_⟩
  unfold RolloutFile.scan at hscanned
  cases hmeta : @firstSessionMeta noJson (otherRollout bytes).path (otherRollout bytes).bytes with
  | error message =>
    rw [hmeta] at hscanned
    cases hscanned
  | ok found =>
    rw [hmeta] at hscanned
    cases hscanned
    obtain rfl := scanLines_noJson _ _ _ _ hmeta
    have htwo : x = 2 := by
      simpa [ScannedFile.ids, ScannedFile.node, otherRollout, RolloutNode.links,
        RolloutLinks.aliases] using hx
    exact htwo ▸ hother

omit [UuidText] [JsonText] in
/-- A rollout of another session with a line of text is harmless. -/
theorem unrelated_file_harmless_text : let _ := hyphenatedText
    let _ := noJson
    Unchanged ⟨1, [1], 0⟩ (discoverTree [otherRollout [120, 10], emptyRollout] 1) := by
  intro _ _
  have htree : discoverTree [emptyRollout] 1 = .ok ⟨1, [1], 0⟩ := by decide +kernel
  apply (unrelated_file_harmless_iff [] [emptyRollout] (otherRollout [120, 10]) 1 _ htree
    (unrelated_other _)).mpr
  intro before line after hlines
  have hdecode : (decodeLine [120, 10]).isSome = true := by decide +kernel
  change [[120, 10]] = before ++ line :: after at hlines
  rcases List.singleton_eq_append_iff.mp hlines with ⟨-, hline⟩ | ⟨-, hnil⟩
  · obtain ⟨rfl, -⟩ := List.cons.inj hline
    exact fun _ _ _ ↦ hdecode
  · cases hnil

omit [UuidText] [JsonText] in
/-- One byte that is not UTF-8 in a rollout of another session keeps the first one from being
moved. -/
theorem unrelated_file_matters : let _ := hyphenatedText
    let _ := noJson
    ¬∀ before after extra id tree, discoverTree (before ++ after) id = .ok tree →
      Unrelated (before ++ after) id extra →
      Unchanged tree (discoverTree (before ++ extra :: after) id) := by
  intro _ _ h
  have htree : discoverTree [emptyRollout] 1 = .ok ⟨1, [1], 0⟩ := by decide +kernel
  have hfails : (discoverTree [otherRollout [255], emptyRollout] 1).toOption = none := by
    decide +kernel
  obtain ⟨tree', hok, -⟩ := h [] [emptyRollout] (otherRollout [255]) 1 _ htree (unrelated_other _)
  change discoverTree [otherRollout [255], emptyRollout] 1 = .ok tree' at hok
  rw [hok] at hfails
  cases hfails

end CodexLb
