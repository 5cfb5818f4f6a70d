import CodexLb.Catalog.Unrelated
import CodexLb.Live.System
import CodexLb.Proxy.Affinities

/-!
# Commands of the operator

The session commands of the command line, `src/cli.rs:496–534`, and the
request that the daemon reads from their payloads, `src/models.rs:131–184`.
What the command line sends, the daemon reads back, and refuses for its target
only.
-/

namespace CodexLb

open Proxy Relational

/-! ### The wire -/

/-- `SessionRouteActionKind::as_str`, `src/models.rs:138–145`, and its serialized name. -/
def SessionRouteActionKind.asStr : SessionRouteActionKind → String
  | .rebalance => "rebalance"
  | .reroute => "reroute"

/-- A `SessionRouteActionKind` by its name, `src/models.rs:131–136`. -/
def SessionRouteActionKind.fromJson (value : JsonValue) : Option SessionRouteActionKind :=
  value.asStr.bind fun name ↦
    if name = "rebalance" then some .rebalance
    else if name = "reroute" then some .reroute
    else none

/-- A `SessionRouteKey` from an object, `src/models.rs:167–172`. -/
def SessionRouteKey.fromJson (value : JsonValue) : Option SessionRouteKey := do
  let keyHash ← (value.get "keyHash").bind JsonValue.asStr
  let kind ← (value.get "kind").bind JsonValue.asStr
  return ⟨keyHash, kind⟩

/-- A missing or null optional text is none. -/
def optionalStr : Option JsonValue → Option (Option String)
  | none | some .null => some none
  | some (.string value) => some (some value)
  | some _ => none

/-- A missing flag is false. -/
def defaultFalse : Option JsonValue → Option Bool
  | none => some false
  | some (.bool value) => some value
  | some _ => none

/-- `Vec<SessionRouteKey>`. -/
def routeKeysFromJson : JsonValue → Option (List SessionRouteKey)
  | .array items => items.mapM SessionRouteKey.fromJson
  | _ => none

/-- A `SessionRouteActionRequest` from an object, `src/models.rs:174–184`. -/
def SessionRouteActionRequest.fromJson (value : JsonValue) :
    Option SessionRouteActionRequest := do
  let rootKeyHash ← (value.get "rootKeyHash").bind JsonValue.asStr
  let keys ← (value.get "keys").bind routeKeysFromJson
  let action ← (value.get "action").bind SessionRouteActionKind.fromJson
  let target ← optionalStr (value.get "target")
  let dryRun ← defaultFalse (value.get "dryRun")
  return ⟨rootKeyHash, keys, action, target, dryRun⟩

/-- The key that an alias is read back as. -/
def SessionAlias.toKey (a : SessionAlias) : SessionRouteKey := ⟨a.keyHash, a.kind⟩

private theorem keys_fromJson (aliases : List SessionAlias) :
    routeKeysFromJson (.array (aliases.map SessionAlias.toJson)) =
      some (aliases.map SessionAlias.toKey) := by
  show (aliases.map SessionAlias.toJson).mapM SessionRouteKey.fromJson = _
  induction aliases with
  | nil => rfl
  | cons a aliases ih =>
    rw [List.map_cons, List.mapM_cons, ih]
    rfl

/-! ### The command line -/

section Commands

variable [UuidText] [Sha256]

/-- The request that stands for a payload. -/
def treeRequest (tree : SessionTree) (aliases : List SessionAlias)
    (action : SessionRouteActionKind) (target : Option String) (dryRun : Bool) :
    SessionRouteActionRequest :=
  ⟨rootSessionKeyHash tree.rootId, aliases.map SessionAlias.toKey, action, target, dryRun⟩

/-- The daemon reads from a payload what the command line put into it. -/
theorem fromJson_sessionActionPayload {tree : SessionTree} {action : SessionRouteActionKind}
    {target : Option String} {dryRun : Bool} {payload : JsonValue}
    (h : sessionActionPayload tree action.asStr target dryRun = .ok payload) :
    ∃ aliases, sessionTreeAliases tree = .ok aliases ∧
      SessionRouteActionRequest.fromJson payload =
        some (treeRequest tree aliases action target dryRun) := by
  unfold sessionActionPayload at h
  obtain ⟨aliases, haliases, h⟩ := bind_eq_ok.mp h
  cases h
  refine ⟨aliases, haliases, ?_⟩
  have htarget : optionalStr (some ((target.map JsonValue.string).getD .null)) = some target := by
    cases target <;> rfl
  have haction : SessionRouteActionKind.fromJson (.string action.asStr) = some action := by
    cases action <;> rfl
  show (routeKeysFromJson (.array (aliases.map SessionAlias.toJson))).bind (fun keys ↦
    (SessionRouteActionKind.fromJson (.string action.asStr)).bind fun action ↦
      (optionalStr (some ((target.map JsonValue.string).getD .null))).bind fun target ↦
        some (SessionRouteActionRequest.mk (rootSessionKeyHash tree.rootId) keys action target
          dryRun)) = _
  rw [keys_fromJson, haction, htarget]
  rfl

/-! ### The daemon -/

omit [UuidText] [Sha256] in
private theorem length_foldlM_pushAlias {candidates aliases next : List SessionAlias}
    (h : candidates.foldlM pushAlias aliases = .ok next) (hle : aliases.length ≤ 500) :
    next.length ≤ 500 := by
  induction candidates generalizing aliases with
  | nil =>
    cases h
    exact hle
  | cons a candidates ih =>
    rw [List.foldlM_cons] at h
    obtain ⟨pushed, hpush, h⟩ := bind_eq_ok.mp h
    refine ih h ?_
    unfold pushAlias at hpush
    split at hpush
    · cases hpush
      exact hle
    · split at hpush
      · cases hpush
      · next hroom =>
        cases hpush
        rw [maxSessionActionKeys] at hroom
        rw [List.length_append, List.length_singleton]
        omega

/-- What the command line sends is well-formed in every respect but its target. -/
structure WellAddressed (tree : SessionTree) (request : SessionRouteActionRequest) : Prop where
  admitted : Live.admitted request = .ok ()
  keys : Acceptable request.keys
  rooted : ⟨rootSessionKeyHash tree.rootId, "session_id"⟩ ∈ request.keys
  root : request.rootKeyHash = rootSessionKeyHash tree.rootId
  complete : ∀ id ∈ tree.memberIds, ∀ kind ∈ sessionAliasKinds,
    ⟨affinityHash kind (UuidText.toText id), kind⟩ ∈ request.keys

/-- The request of a tree is well-formed. -/
theorem treeRequest_wellAddressed (hdigest : HexDigests) {tree : SessionTree}
    {aliases : List SessionAlias} (haliases : sessionTreeAliases tree = .ok aliases)
    (hroot : tree.rootId ∈ tree.memberIds) (hsha : NoCollisions tree)
    (action : SessionRouteActionKind) (target : Option String) (dryRun : Bool) :
    WellAddressed tree (treeRequest tree aliases action target dryRun) := by
  obtain ⟨hhead, hdistinct, hmem⟩ := sessionTreeAliases_ok hroot hsha haliases
  have hlength : (aliases.map SessionAlias.toKey).length ≤ 500 := by
    rw [List.length_map]
    exact length_foldlM_pushAlias haliases (Nat.zero_le _)
  have hhashes : (aliases.map SessionAlias.toKey).map SessionRouteKey.keyHash =
      aliases.map SessionAlias.keyHash := by
    rw [List.map_map]
    rfl
  have hkinds : ∀ kind ∈ sessionAliasKinds, validRouteKind kind = true := by decide
  have hkeys : Acceptable (aliases.map SessionAlias.toKey) := by
    refine ⟨by rwa [hhashes], fun key hkey ↦ ?_, hlength⟩
    obtain ⟨a, ha, rfl⟩ := List.mem_map.mp hkey
    obtain ⟨id, -, kind, hkind, rfl⟩ := (hmem a).mp ha
    exact ⟨hdigest _, hkinds kind hkind⟩
  have hcomplete : ∀ id ∈ tree.memberIds, ∀ kind ∈ sessionAliasKinds,
      ⟨affinityHash kind (UuidText.toText id), kind⟩ ∈ aliases.map SessionAlias.toKey :=
    fun id hid kind hkind ↦ List.mem_map.mpr
      ⟨sessionAlias id kind, (hmem _).mpr ⟨id, hid, kind, hkind, rfl⟩, rfl⟩
  refine ⟨?_, hkeys, hcomplete _ hroot _ (by decide), rfl, hcomplete⟩
  have hall : (aliases.map SessionAlias.toKey).any
      (fun key ↦ !validAffinityHash key.keyHash) = false := by
    rw [List.any_eq_false]
    intro key hkey
    rw [(hkeys.wellFormed key hkey).1]
    decide
  have hrootHash : validAffinityHash (rootSessionKeyHash tree.rootId) = true := hdigest _
  simp only [Live.admitted, treeRequest, Nat.not_lt.mpr hlength, hrootHash, hall, if_false,
    Bool.not_true, Bool.or_self, Bool.false_eq_true]

/-! ### The commands -/

variable [JsonText]

/-- The commands on a session, `src/cli.rs:500–509` and `520–532`: its tree is found and put into
a payload. -/
def sessionsAction (files : List RolloutFile) (sessionId : Uuid) (action : SessionRouteActionKind)
    (target : Option String) (dryRun : Bool) : Except String JsonValue := do
  let tree ← discoverTree files sessionId
  sessionActionPayload tree action.asStr target dryRun

/-- `sessions rebalance`, `src/cli.rs:496–510`. -/
def sessionsRebalance (files : List RolloutFile) (sessionId : Uuid) (dryRun : Bool) :
    Except String JsonValue :=
  sessionsAction files sessionId .rebalance none dryRun

/-- `sessions reroute`, `src/cli.rs:511–533`. -/
def sessionsReroute (files : List RolloutFile) (sessionId : Uuid) (label : String) (dryRun : Bool) :
    Except String JsonValue :=
  let target := trim label
  if target.toList.isEmpty then .error "--to must be a non-empty account label or UUID"
  else sessionsAction files sessionId .reroute (some target) dryRun

end Commands

end CodexLb
