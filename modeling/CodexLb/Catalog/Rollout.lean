import CodexLb.Base.Json
import CodexLb.Base.Uuid
import CodexLb.Relational.Table

/-!
# Rollout files and the session catalog

Discovery over `.jsonl` files in the order in which the directory walk visits
them, `src/cli.rs:548–694` and `865–924`. Every listed file can be opened; the
walk over the directories themselves is not modelled.
-/

namespace CodexLb

open Relational (Table)

/-- `SESSION_META_SCAN_LINE_LIMIT`, `src/cli.rs:548`. -/
def sessionMetaScanLineLimit : Nat := 64

/-- `SESSION_META_SCAN_BYTE_LIMIT`, `src/cli.rs:549`. -/
def sessionMetaScanByteLimit : Nat := 1024 * 1024

/-- `SystemTime`, as nanoseconds since `UNIX_EPOCH`. -/
abbrev SystemTime := Int

/-! ### One file -/

/-- `RolloutNode`, `src/cli.rs:558–565`. -/
structure RolloutNode where
  id : Uuid
  sessionId : Option Uuid
  parentThreadId : Option Uuid
  forkedFromId : Option Uuid
  modified : SystemTime
  deriving DecidableEq

namespace RolloutNode

/-- `RolloutNode::has_same_links`, `src/cli.rs:568–572`. -/
def hasSameLinks (node other : RolloutNode) : Bool :=
  node.sessionId == other.sessionId && node.parentThreadId == other.parentThreadId &&
    node.forkedFromId == other.forkedFromId

/-- `RolloutNode::parent_id`, `src/cli.rs:574–576`. -/
def parentId (node : RolloutNode) : Option Uuid := node.parentThreadId.or node.forkedFromId

end RolloutNode

section Metadata

variable [UuidText]

/-- `required_uuid_field`, `src/cli.rs:906–912`. -/
def requiredUuidField (value : Option JsonValue) (name : String) : Except String Uuid :=
  match (value.bind JsonValue.asStr).filter fun text ↦ !(trim text).isEmpty with
  | none => .error ("session_meta payload." ++ name ++ " must be a UUID string")
  | some text =>
    match UuidText.parseStr text with
    | none => .error ("session_meta payload." ++ name ++ " must be a UUID")
    | some id => .ok id

/-- `optional_uuid_field`, `src/cli.rs:914–923`. -/
def optionalUuidField (value : Option JsonValue) (name : String) : Except String (Option Uuid) :=
  match value with
  | none | some .null => .ok none
  | some (.string text) =>
    if (trim text).isEmpty then .ok none
    else
      match UuidText.parseStr text with
      | none => .error ("session_meta payload." ++ name ++ " must be a UUID")
      | some id => .ok (some id)
  | some _ => .error ("session_meta payload." ++ name ++ " must be a UUID string")

/-- `rollout_node_from_meta`, `src/cli.rs:890–904`. -/
def rolloutNodeFromMeta (sessionMeta : JsonValue) (modified : SystemTime) :
    Except String RolloutNode := do
  let some payload := (sessionMeta.get "payload").bind JsonValue.asObject
    | .error "session_meta payload must be an object"
  let id ← requiredUuidField (payload.lookup "id") "id"
  let sessionId ← optionalUuidField (payload.lookup "session_id") "session_id"
  let parentThreadId ← optionalUuidField (payload.lookup "parent_thread_id") "parent_thread_id"
  let forkedFromId ← optionalUuidField (payload.lookup "forked_from_id") "forked_from_id"
  return { id, sessionId, parentThreadId, forkedFromId, modified }

end Metadata

/-! ### Scanning a file for its metadata -/

section Scan

variable [JsonText]

/-- A `.jsonl` file as the walk finds it, with the identifier that its name ends in. -/
structure RolloutFile where
  path : String
  filenameId : Option Uuid
  bytes : List UInt8
  modified : SystemTime

/-- A file and what `first_session_meta` found in it. -/
structure ScannedFile where
  path : String
  filenameId : Option Uuid
  sessionMeta : Option JsonValue
  modified : SystemTime

/-- The bytes up to and with the next line feed, and the bytes after it. -/
def splitLine : List UInt8 → List UInt8 × List UInt8
  | [] => ([], [])
  | byte :: bytes =>
    if byte = 10 then ([byte], bytes)
    else ((byte :: (splitLine bytes).1), (splitLine bytes).2)

/-- `BufRead::read_line`'s view of a line; `none` where the bytes are not UTF-8. -/
def decodeLine (line : List UInt8) : Option String := String.fromUTF8? ⟨line.toArray⟩

/-- The value on a line that is a `session_meta` record. -/
def lineSessionMeta (line : String) : Option JsonValue :=
  (JsonText.fromStr line).filter fun value ↦
    (value.get "type").bind JsonValue.asStr == some "session_meta"

/-- The loop of `first_session_meta` with the lines it may still read and the bytes it has read;
`src/cli.rs:870–886`. -/
def scanLines (path : String) : Nat → Nat → List UInt8 → Except String (Option JsonValue)
  | 0, _, _ => .ok none
  | lines + 1, total, bytes =>
    let (line, rest) := splitLine bytes
    match decodeLine line with
    | none => .error ("reading " ++ path)
    | some text =>
      if line.length = 0 then .ok none
      else if sessionMetaScanByteLimit < total + line.length then .ok none
      else
        match lineSessionMeta text with
        | some value => .ok (some value)
        | none => scanLines path lines (total + line.length) rest

/-- `first_session_meta`, `src/cli.rs:865–888`. -/
def firstSessionMeta (path : String) (bytes : List UInt8) : Except String (Option JsonValue) :=
  scanLines path sessionMetaScanLineLimit 0 bytes

/-- Read a file's metadata. -/
def RolloutFile.scan (file : RolloutFile) : Except String ScannedFile :=
  (firstSessionMeta file.path file.bytes).map fun sessionMeta ↦
    ⟨file.path, file.filenameId, sessionMeta, file.modified⟩

end Scan

/-! ### The catalog -/

/-- `SessionCatalog`, `src/cli.rs:586–590`; a node is stored under its own identifier. -/
structure SessionCatalog where
  nodes : Table Uuid RolloutNode
  issues : Table Uuid String
  keyed : ∀ id node, nodes.find id = some node → node.id = id

namespace SessionCatalog

/-- `SessionCatalog::default`. -/
def empty : SessionCatalog := ⟨.empty, .empty, nofun⟩

/-- `issues.insert`: the last message for an identifier stays. -/
def setIssue (catalog : SessionCatalog) (id : Uuid) (message : String) : SessionCatalog :=
  { catalog with issues := catalog.issues.upsert id message fun _ ↦ message }

/-- Insert a node whose links are new under their identifier. -/
private theorem keyed_insert (catalog : SessionCatalog) (node : RolloutNode) (id : Uuid)
    (stored : RolloutNode) (h : (catalog.nodes.insert node.id node).find id = some stored) :
    stored.id = id := by
  rw [Table.find_insert] at h
  split at h
  · next he =>
    cases hf : catalog.nodes.find node.id with
    | none =>
      rw [hf] at h
      cases h
      exact he.symm
    | some existing =>
      rw [hf] at h
      cases h
      rw [he]
      exact catalog.keyed _ _ hf
  · exact catalog.keyed _ _ h

/-- A duplicate's later modification time, under the links stored first. -/
def touch (modified : SystemTime) (existing : RolloutNode) : RolloutNode :=
  if existing.modified < modified then { existing with modified } else existing

/-- A later modification time does not change the identifier. -/
@[simp] theorem id_touch (modified : SystemTime) (existing : RolloutNode) :
    (touch modified existing).id = existing.id := by
  unfold touch
  split <;> rfl

private theorem keyed_touch (catalog : SessionCatalog) (node : RolloutNode) (id : Uuid)
    (stored : RolloutNode)
    (h : (catalog.nodes.update (fun id _ ↦ id = node.id) (touch node.modified)).find id =
      some stored) : stored.id = id := by
  rw [Table.find_update, Option.map_eq_some_iff] at h
  obtain ⟨existing, hf, rfl⟩ := h
  split
  · rw [id_touch, catalog.keyed _ _ hf]
  · exact catalog.keyed _ _ hf

/-- `SessionCatalog::insert_node`, `src/cli.rs:680–694`. -/
def insertNode (catalog : SessionCatalog) (node : RolloutNode) : SessionCatalog :=
  match catalog.nodes.find node.id with
  | some existing =>
    let catalog :=
      if existing.hasSameLinks node then catalog
      else catalog.setIssue node.id "conflicting session metadata exists for one rollout ID"
    { catalog with
      nodes := catalog.nodes.update (fun id _ ↦ id = node.id) (touch node.modified)
      keyed := keyed_touch catalog node }
  | none =>
    { catalog with
      nodes := catalog.nodes.insert node.id node
      keyed := keyed_insert catalog node }

/-- Issues for a file whose name ends in another identifier than its metadata has,
`src/cli.rs:630–640`. -/
def checkFilename (catalog : SessionCatalog) (file : ScannedFile) (node : RolloutNode) :
    SessionCatalog :=
  match file.filenameId with
  | some filenameId =>
    if filenameId ≠ node.id then
      let message := "session metadata ID does not match rollout filename " ++ file.path
      (catalog.setIssue filenameId message).setIssue node.id message
    else catalog
  | none => catalog

/-- An issue for a node with two different parents, `src/cli.rs:641–651`. -/
def checkParents (catalog : SessionCatalog) (node : RolloutNode) : SessionCatalog :=
  match node.parentThreadId, node.forkedFromId with
  | some parent, some forked =>
    if parent ≠ forked then
      catalog.setIssue node.id "session metadata has conflicting parent and fork IDs"
    else catalog
  | _, _ => catalog

variable [UuidText]

/-- The effect of one file on the catalog, `src/cli.rs:628–674`. -/
def addRollout (catalog : SessionCatalog) (file : ScannedFile) : SessionCatalog :=
  match file.sessionMeta with
  | some sessionMeta =>
    match rolloutNodeFromMeta sessionMeta file.modified with
    | .ok node => ((catalog.checkFilename file node).checkParents node).insertNode node
    | .error error =>
      match file.filenameId with
      | some filenameId =>
        catalog.setIssue filenameId
          ("invalid session metadata in " ++ file.path ++ ": " ++ error)
      | none => catalog
  | none =>
    match file.filenameId with
    | some id => catalog.insertNode ⟨id, none, none, none, file.modified⟩
    | none => catalog

/-- The catalog of files whose metadata has been read, in the order of the walk. -/
def ofScanned (files : List ScannedFile) : SessionCatalog := files.foldl addRollout empty

/-- `SessionCatalog::discover`, `src/cli.rs:593–678`: a file that cannot be read ends it. -/
def discover [JsonText] (files : List RolloutFile) : Except String SessionCatalog :=
  (files.mapM RolloutFile.scan).map ofScanned

end SessionCatalog
end CodexLb
