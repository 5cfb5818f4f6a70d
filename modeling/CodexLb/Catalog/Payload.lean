import CodexLb.Catalog.Discover
import Mathlib.Data.List.ProdSigma

/-!
# The payload of a session action

The hashed keys of a tree and the request that names them,
`src/cli.rs:926–976`. Every key of the tree is in the request, or there is
no request.
-/

namespace CodexLb

/-- SHA-256 of the UTF-8 bytes of a text, in lower-case hexadecimal digits. -/
class Sha256 where
  hexDigest : String → String

/-- `MAX_SESSION_ACTION_KEYS`, `src/cli.rs:550`. -/
def maxSessionActionKeys : Nat := 500

/-- `SESSION_ALIAS_KINDS`, `src/cli.rs:551–556`. -/
def sessionAliasKinds : List String :=
  ["session_id", "thread_id", "conversation_id", "prompt_cache_key"]

/-- `SessionAlias`, `src/cli.rs:850–854`. -/
structure SessionAlias where
  kind : String
  keyHash : String
  deriving DecidableEq

/-- An alias in the payload, `src/cli.rs:963–966`. -/
def SessionAlias.toJson (a : SessionAlias) : JsonValue :=
  .object [("kind", .string a.kind), ("keyHash", .string a.keyHash)]

/-- What `affinity_hash` feeds to the digest. -/
def affinityText (kind value : String) : String := kind ++ "\x00" ++ value

variable [UuidText] [Sha256]

/-- `affinity_hash`, `src/db.rs:1886–1892`. -/
def affinityHash (kind value : String) : String := Sha256.hexDigest (affinityText kind value)

/-- `root_session_key_hash`, `src/cli.rs:926–928`. -/
def rootSessionKeyHash (rootId : Uuid) : String :=
  affinityHash "session_id" (UuidText.toText rootId)

/-- The identifiers of a tree, the root first and the others in order; `src/cli.rs:931–934`. -/
def orderedIds (tree : SessionTree) : List Uuid :=
  tree.rootId :: (tree.memberIds.insertionSort fun a b : Uuid ↦ a ≤ b).filter (· ≠ tree.rootId)

/-- The alias of an identifier under a kind. -/
def sessionAlias (id : Uuid) (kind : String) : SessionAlias :=
  ⟨kind, affinityHash kind (UuidText.toText id)⟩

/-- Push an alias with a new hash, `src/cli.rs:941–948`. The set of hashes seen so far is that of
the aliases pushed so far. -/
def pushAlias (aliases : List SessionAlias) (a : SessionAlias) :
    Except String (List SessionAlias) :=
  if a.keyHash ∈ aliases.map SessionAlias.keyHash then .ok aliases
  else if aliases.length = maxSessionActionKeys then
    .error ("session tree requires more than " ++ toString maxSessionActionKeys ++
      " route keys; refusing to operate on only part of the tree")
  else .ok (aliases ++ [a])

/-- `session_tree_aliases`, `src/cli.rs:930–952`. -/
def sessionTreeAliases (tree : SessionTree) : Except String (List SessionAlias) :=
  ((orderedIds tree).flatMap fun id ↦ sessionAliasKinds.map (sessionAlias id)).foldlM pushAlias []

/-- `session_action_payload`, `src/cli.rs:954–976`. -/
def sessionActionPayload (tree : SessionTree) (action : String) (target : Option String)
    (dryRun : Bool) : Except String JsonValue := do
  let aliases ← sessionTreeAliases tree
  return .object [("action", .string action),
    ("rootKeyHash", .string (rootSessionKeyHash tree.rootId)),
    ("keys", .array (aliases.map SessionAlias.toJson)),
    ("target", (target.map JsonValue.string).getD .null), ("dryRun", .bool dryRun)]

/-! ### Every key once -/

omit [UuidText] [Sha256] in
private theorem pushAlias_ok {aliases next : List SessionAlias} {a : SessionAlias}
    (h : pushAlias aliases a = .ok next) :
    a.keyHash ∈ aliases.map SessionAlias.keyHash ∧ next = aliases ∨
      a.keyHash ∉ aliases.map SessionAlias.keyHash ∧ next = aliases ++ [a] := by
  unfold pushAlias at h
  split at h
  · next hseen => exact .inl ⟨hseen, (Except.ok.inj h).symm⟩
  · next hnew =>
    split at h
    · cases h
    · exact .inr ⟨hnew, (Except.ok.inj h).symm⟩

omit [UuidText] [Sha256] in
/-- The pushed aliases have distinct hashes, come from the candidates, and cover their hashes; what
was pushed before stays in front. -/
private theorem foldlM_pushAlias {candidates aliases next : List SessionAlias}
    (h : candidates.foldlM pushAlias aliases = .ok next)
    (hnodup : (aliases.map SessionAlias.keyHash).Nodup) :
    aliases <+: next ∧ (next.map SessionAlias.keyHash).Nodup ∧
      (∀ a ∈ next, a ∈ aliases ∨ a ∈ candidates) ∧
      ∀ a ∈ candidates, a.keyHash ∈ next.map SessionAlias.keyHash := by
  induction candidates generalizing aliases with
  | nil =>
    cases h
    exact ⟨List.prefix_rfl, hnodup, fun a ha ↦ .inl ha, fun a ha ↦ absurd ha List.not_mem_nil⟩
  | cons a candidates ih =>
    rw [List.foldlM_cons] at h
    cases hpush : pushAlias aliases a with
    | error message =>
      rw [hpush] at h
      cases h
    | ok pushed =>
      rw [hpush] at h
      rcases pushAlias_ok hpush with ⟨hseen, rfl⟩ | ⟨hnew, rfl⟩
      · obtain ⟨hlead, hdistinct, hfrom, hcover⟩ := ih h hnodup
        refine ⟨hlead, hdistinct, fun b hb ↦ (hfrom b hb).imp_right (List.mem_cons_of_mem a), ?_⟩
        rintro b hb
        rcases List.mem_cons.mp hb with rfl | hb
        · exact List.map_subset SessionAlias.keyHash hlead.subset hseen
        · exact hcover b hb
      · have hnext : ((aliases ++ [a]).map SessionAlias.keyHash).Nodup := by
          rw [List.map_append, List.map_singleton]
          exact hnodup.append (List.nodup_singleton _) (by simpa using hnew)
        obtain ⟨hlead, hdistinct, hfrom, hcover⟩ := ih h hnext
        refine ⟨(List.prefix_append _ _).trans hlead, hdistinct, fun b hb ↦ ?_, ?_⟩
        · rcases hfrom b hb with hb | hb
          · rcases List.mem_append.mp hb with hb | hb
            · exact .inl hb
            · exact .inr (List.mem_singleton.mp hb ▸ List.mem_cons_self)
          · exact .inr (List.mem_cons_of_mem a hb)
        · rintro b hb
          rcases List.mem_cons.mp hb with rfl | hb
          · have hin := hlead.subset (List.mem_append_right aliases (List.mem_singleton_self b))
            exact List.mem_map_of_mem hin
          · exact hcover b hb

omit [Sha256] in
/-- The kind and the identifier can be read back from the text that is hashed. -/
theorem affinityText_inj {kind kind' : String} {id id' : Uuid}
    (h : affinityText kind (UuidText.toText id) = affinityText kind' (UuidText.toText id')) :
    kind = kind' ∧ id = id' := by
  have hchars := congrArg String.toList h
  simp only [affinityText, String.toList_append] at hchars
  have hlen : (UuidText.toText id).toList.length = (UuidText.toText id').toList.length := by
    rw [UuidText.length_toText, UuidText.length_toText]
  obtain ⟨hfront, hid⟩ := List.append_inj' hchars hlen
  obtain ⟨hkind, -⟩ := List.append_inj' hfront rfl
  refine ⟨String.toList_inj.mp hkind, ?_⟩
  have hparse := congrArg UuidText.parseStr (String.toList_inj.mp hid)
  rw [UuidText.parseStr_toText, UuidText.parseStr_toText] at hparse
  exact Option.some.inj hparse

/-- The digest separates the keys of a tree. -/
def NoCollisions (tree : SessionTree) : Prop :=
  ∀ id ∈ tree.memberIds, ∀ id' ∈ tree.memberIds, ∀ kind ∈ sessionAliasKinds,
    ∀ kind' ∈ sessionAliasKinds,
      affinityHash kind (UuidText.toText id) = affinityHash kind' (UuidText.toText id') →
        affinityText kind (UuidText.toText id) = affinityText kind' (UuidText.toText id')

/-- Distinct hashes of the keys of a tree are enough. -/
theorem noCollisions_of_nodup {tree : SessionTree}
    (h : ((tree.memberIds.product sessionAliasKinds).map fun key ↦
      affinityHash key.2 (UuidText.toText key.1)).Nodup) : NoCollisions tree := by
  intro id hid id' hid' kind hkind kind' hkind' hhash
  have hmem := List.mem_product.mpr ⟨hid, hkind⟩
  have hmem' := List.mem_product.mpr ⟨hid', hkind'⟩
  have hkey := List.inj_on_of_nodup_map h hmem hmem' hhash
  cases hkey
  rfl

omit [UuidText] [Sha256] in
/-- The ordered identifiers are the members with the root. -/
private theorem mem_orderedIds {tree : SessionTree} (hroot : tree.rootId ∈ tree.memberIds)
    {id : Uuid} : id ∈ orderedIds tree ↔ id ∈ tree.memberIds := by
  simp only [orderedIds, List.mem_cons, List.mem_filter, List.mem_insertionSort, ne_eq,
    decide_eq_true_eq]
  by_cases h : id = tree.rootId
  · simp [h, hroot]
  · simp [h]

/-- The aliases of a tree: all members under all kinds, the root's session key first. -/
theorem sessionTreeAliases_ok {tree : SessionTree} {aliases : List SessionAlias}
    (hroot : tree.rootId ∈ tree.memberIds) (hsha : NoCollisions tree)
    (h : sessionTreeAliases tree = .ok aliases) :
    aliases.head? = some (sessionAlias tree.rootId "session_id") ∧
      (aliases.map SessionAlias.keyHash).Nodup ∧
      ∀ a, a ∈ aliases ↔ ∃ id ∈ tree.memberIds, ∃ kind ∈ sessionAliasKinds,
        a = sessionAlias id kind := by
  have hcandidate : ∀ a, (a ∈ (orderedIds tree).flatMap fun id ↦
      sessionAliasKinds.map (sessionAlias id)) ↔ ∃ id ∈ tree.memberIds,
        ∃ kind ∈ sessionAliasKinds, a = sessionAlias id kind := by
    intro a
    simp only [List.mem_flatMap, List.mem_map, mem_orderedIds hroot, eq_comm]
  have hfirst : [sessionAlias tree.rootId "session_id"] <+: aliases := by
    rw [sessionTreeAliases, orderedIds, List.flatMap_cons] at h
    change List.foldlM pushAlias [sessionAlias tree.rootId "session_id"] _ = .ok aliases at h
    have hone : ([sessionAlias tree.rootId "session_id"].map SessionAlias.keyHash).Nodup :=
      List.nodup_singleton _
    exact (foldlM_pushAlias h hone).1
  obtain ⟨-, hdistinct, hfrom, hcover⟩ := foldlM_pushAlias h List.nodup_nil
  refine ⟨?_, hdistinct, fun a ↦ ⟨fun ha ↦ ?_, fun ha ↦ ?_⟩⟩
  · obtain ⟨rest, rfl⟩ := hfirst
    rfl
  · rcases hfrom a ha with ha | ha
    · exact absurd ha List.not_mem_nil
    · exact (hcandidate a).mp ha
  · obtain ⟨b, hb, hhash⟩ := List.mem_map.mp (hcover a ((hcandidate a).mpr ha))
    obtain ⟨id, hid, kind, hkind, rfl⟩ := ha
    rcases hfrom b hb with hnil | hb'
    · exact absurd hnil List.not_mem_nil
    · obtain ⟨id', hid', kind', hkind', rfl⟩ := (hcandidate b).mp hb'
      obtain ⟨rfl, rfl⟩ := affinityText_inj (hsha id' hid' id hid kind' hkind' kind hkind hhash)
      exact hb

/-! ### A mutation covers its tree -/

/-- A payload lists every identifier connected to this one under every kind, each hash once, the
root's session key first. -/
def ListsTree (catalog : SessionCatalog) (id rootId : Uuid) (payload : JsonValue) : Prop :=
  ∃ aliases : List SessionAlias,
    payload.get "keys" = some (.array (aliases.map SessionAlias.toJson)) ∧
    payload.get "rootKeyHash" = some (.string (rootSessionKeyHash rootId)) ∧
    aliases.head? = some ⟨"session_id", rootSessionKeyHash rootId⟩ ∧
    (aliases.map SessionAlias.keyHash).Nodup ∧
    ∀ a, a ∈ aliases ↔ ∃ x kind, Graph.Connected catalog.groups id x ∧
      kind ∈ sessionAliasKinds ∧ a = ⟨kind, affinityHash kind (UuidText.toText x)⟩

/-- A mutation covers the whole component of the requested identifier, which resolves to one root
without issues, and its payload lists all of it. -/
theorem mutation_covers_whole_tree [JsonText] (files : List RolloutFile)
    (catalog : SessionCatalog) (hfound : SessionCatalog.discover files = .ok catalog) (id : Uuid)
    (tree : SessionTree) (h : catalog.mutationTreeFor id = .ok tree) :
    (∀ x, x ∈ tree.memberIds ↔ Graph.Connected catalog.groups id x) ∧ tree.memberIds.Nodup ∧
      (∀ x ∈ tree.memberIds,
        catalog.canonicalRoot x = .ok tree.rootId ∧ catalog.issues.find x = none) ∧
      ∀ action target dryRun payload, NoCollisions tree →
        sessionActionPayload tree action target dryRun = .ok payload →
        ListsTree catalog id tree.rootId payload := by
  have hcons : catalog.Consistent := by
    unfold SessionCatalog.discover at hfound
    cases hscan : files.mapM RolloutFile.scan with
    | error message =>
      rw [hscan] at hfound
      cases hfound
    | ok scanned =>
      rw [hscan] at hfound
      cases hfound
      exact SessionCatalog.consistent_ofScanned scanned
  obtain ⟨hsound, htree⟩ := SessionCatalog.mutationTreeFor_ok_iff.mp h
  obtain ⟨hid, ⟨members, hmembers⟩, -⟩ := SessionCatalog.treeFor_ok htree
  have hnodup : tree.memberIds.Nodup := hmembers ▸ nodup_sortUnstable members
  have hmem := fun x ↦ @SessionCatalog.Sound.mem_memberIds _ _ _ hsound hcons htree x
  refine ⟨hmem, hnodup, fun x hx ↦ ?_, fun action target dryRun payload hsha hpayload ↦ ?_⟩
  · have hres := hsound.resolves hcons hid ((hmem x).mp hx)
    exact ⟨SessionCatalog.canonicalRoot_ok_iff.mpr hres,
      SessionCatalog.not_flagged_iff.mp hres.not_flagged⟩
  · unfold sessionActionPayload at hpayload
    cases haliases : sessionTreeAliases tree with
    | error message =>
      rw [haliases] at hpayload
      cases hpayload
    | ok aliases =>
      rw [haliases] at hpayload
      cases hpayload
      have hroot : tree.rootId ∈ tree.memberIds := (hmem _).mpr hid.connected
      obtain ⟨hhead, hdistinct, hlist⟩ := sessionTreeAliases_ok hroot hsha haliases
      refine ⟨aliases, rfl, rfl, hhead, hdistinct, fun a ↦ (hlist a).trans ?_⟩
      constructor
      · rintro ⟨x, hx, kind, hkind, rfl⟩
        exact ⟨x, kind, (hmem x).mp hx, hkind, rfl⟩
      · rintro ⟨x, kind, hx, hkind, rfl⟩
        exact ⟨x, (hmem x).mpr hx, kind, hkind, rfl⟩

/-! ### A child of a dangling root -/

private def childLine : String :=
  "\x7b\"type\":\"session_meta\",\"payload\":\x7b" ++
    "\"id\":\"00000000-0000-0000-0000-000000000002\"," ++
    "\"session_id\":\"00000000-0000-0000-0000-000000000001\"\x7d\x7d\n"

private def childBytes : List UInt8 := childLine.toUTF8.data.toList

private def childMeta : JsonValue :=
  .object [("type", .string "session_meta"), ("payload", .object
    [("id", .string "00000000-0000-0000-0000-000000000002"),
      ("session_id", .string "00000000-0000-0000-0000-000000000001")])]

@[reducible] private def childReader : JsonText where
  fromStr line := if line = childLine then some childMeta else none

private def childKeys : List (String × String) :=
  [(affinityText "session_id" "00000000-0000-0000-0000-000000000001",
      "981392b425358be60f49af7b99dfd0cd33ccf127f3704be01f202222f45bf260"),
    (affinityText "thread_id" "00000000-0000-0000-0000-000000000001",
      "dd3170f6c9d65cc01bb30b3f949f770bad7e900f6d5f8101c2f21e812e395300"),
    (affinityText "conversation_id" "00000000-0000-0000-0000-000000000001",
      "0ee4d852fb939d30ccf90c97625abe6518bbb7f1ff0d97ebf24158dc99d906fe"),
    (affinityText "prompt_cache_key" "00000000-0000-0000-0000-000000000001",
      "ba5f14993b4051df25d9ee5e2d603e679a396989191a7291d1146c3f59f4a8b8"),
    (affinityText "session_id" "00000000-0000-0000-0000-000000000002",
      "14112e4f132e4c67f8dd46989dc04e69dafa7df9fd754e2e47493f1cbe076a4b"),
    (affinityText "thread_id" "00000000-0000-0000-0000-000000000002",
      "aa042eaa428cc5230d19ab8829a4890eafa274eef5ba5191c3aeae91a59723e0"),
    (affinityText "conversation_id" "00000000-0000-0000-0000-000000000002",
      "ecd3752d6571ec4e0208a0f5d1c5c977cded91dcaf164b0b8a7c0ae9e4a493d2"),
    (affinityText "prompt_cache_key" "00000000-0000-0000-0000-000000000002",
      "78da7300730b6a5e3dea2d79d42c67bc9ea27c203b9de7d53e3d36daaa3600a2")]

@[reducible] private def childDigests : Sha256 where
  hexDigest text := (childKeys.lookup text).getD ""

private def childScanned : ScannedFile := ⟨"rollout.jsonl", some 2, some childMeta, 0⟩

private def childCatalog : SessionCatalog :=
  let _ := hyphenatedText
  SessionCatalog.ofScanned [childScanned]

private def childTree : SessionTree := ⟨1, [1, 2], 0⟩

omit [UuidText] [Sha256] in
private theorem scan_child :
    @RolloutFile.scan childReader ⟨"rollout.jsonl", some 2, childBytes, 0⟩ = .ok childScanned := by
  have hsplit : splitLine childBytes = (childBytes, []) := by decide +kernel
  have hdecode : decodeLine childBytes = some childLine := by decide +kernel
  have hlength : childBytes.length = 132 := by decide +kernel
  have hmeta : @lineSessionMeta childReader childLine = some childMeta := by
    simp [lineSessionMeta, JsonText.fromStr, childMeta, JsonValue.get, JsonValue.asObject,
      JsonValue.asStr]
  simp only [RolloutFile.scan, firstSessionMeta, sessionMetaScanLineLimit, scanLines, hsplit,
    hdecode, hlength, hmeta]
  rfl

omit [UuidText] [Sha256] in
/-- A child and the root that its session names are both in the request. -/
theorem mutation_covers_child_and_root :
    let _ := hyphenatedText
    let _ := childReader
    let _ := childDigests
    (∀ x, x ∈ childTree.memberIds ↔ Graph.Connected childCatalog.groups 2 x) ∧
      ∃ payload, sessionActionPayload childTree "rebalance" none false = .ok payload ∧
        ListsTree childCatalog 2 1 payload := by
  intro _ _ _
  have hfound : SessionCatalog.discover [⟨"rollout.jsonl", some 2, childBytes, 0⟩] =
      .ok childCatalog := by
    simp only [SessionCatalog.discover, List.mapM_cons, List.mapM_nil, scan_child]
    rfl
  have htree : childCatalog.mutationTreeFor 2 = .ok childTree := by decide +kernel
  have hsha : NoCollisions childTree := noCollisions_of_nodup (by decide +kernel)
  obtain ⟨hmembers, -, -, hpayload⟩ :=
    mutation_covers_whole_tree _ childCatalog hfound 2 childTree htree
  refine ⟨hmembers, ?_⟩
  have hok : (sessionTreeAliases childTree).toOption.isSome = true := by decide +kernel
  cases haliases : sessionTreeAliases childTree with
  | error message =>
    rw [haliases] at hok
    cases hok
  | ok aliases =>
    have hbuilt : ∃ payload, sessionActionPayload childTree "rebalance" none false = .ok payload :=
      ⟨_, by rw [sessionActionPayload, haliases]; rfl⟩
    obtain ⟨payload, hbuilt⟩ := hbuilt
    exact ⟨payload, hbuilt, hpayload "rebalance" none false payload hsha hbuilt⟩

end CodexLb
