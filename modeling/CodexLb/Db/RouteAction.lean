import CodexLb.Db.RouteKeys
import CodexLb.Db.Selection

/-!
# Session route actions

`apply_session_route_action` and `list_pending_session_route_actions`
(`src/db.rs:1107–1540`). The transaction takes snapshots, decides, and either
rolls back or writes; a plan holds everything it has decided.
-/

namespace CodexLb

open Relational

/-- A row of the affinity snapshot, `AffinityRouteActionRow`, `src/db.rs:56–63`. -/
structure AffinityRouteActionRow where
  keyHash : String
  kind : String
  accountId : Uuid
  accountLabel : String
  routeGeneration : Nat
  deriving DecidableEq, Repr

/-- What the transaction reads before it decides; `src/db.rs:1188–1291`. -/
structure RouteSnapshot where
  priorMappedRoots : List String
  rootHashes : List String
  allKeys : List SessionRouteKey
  mappingChanged : Bool
  affinityRoutes : List AffinityRouteActionRow
  currentGeneration : Nat
  deriving DecidableEq, Repr

/-- What the transaction has decided; `src/db.rs:1293–1384`. -/
structure RoutePlan where
  rootHashes : List String
  allKeys : List SessionRouteKey
  currentGeneration : Nat
  requestedAccountId : Option Uuid
  effectiveAccountId : Option Uuid
  requiresMove : Bool
  routeGeneration : Nat
  status : SessionRouteActionStatus
  requestedAccount : Option String
  effectiveAccount : Option String
  previousAccounts : List String
  changedRouteCount : Nat
  mergedRootCount : Nat
  deriving DecidableEq, Repr

/-! ### Validation -/

/-- The checks before the transaction, `src/db.rs:1118–1152`: the validated keys and the
resolved target. -/
def validateRouteAction [UuidText] (request : SessionRouteActionRequest) (s : Store) :
    Except AppError (RouteKeys × Option ResolvedSessionRouteTarget) :=
  if !validAffinityHash request.rootKeyHash then
    .error (.badRequest "session root hashes must be 64 lowercase hexadecimal characters")
  else do
    let inputKeys ← validateSessionRouteKeys request.keys
    if inputKeys.keys.isEmpty then
      .error (.badRequest "at least one session route key is required")
    else if !inputKeys.hashes.contains request.rootKeyHash then
      .error (.badRequest "the session root hash must also be present in keys")
    else
      match request.action, request.target with
      | .rebalance, some _ => .error (.badRequest "rebalance actions do not accept a target")
      | .rebalance, none => return (inputKeys, none)
      | .reroute, none => .error (.badRequest "reroute actions require a target")
      | .reroute, some target => do
        let resolved ← resolveSessionRouteTarget target s
        return (inputKeys, some resolved)

/-! ### Snapshots -/

/-- The keys mapped to some roots, `src/db.rs:1203–1214`. -/
def existingKeys (rootHashes : List String) (s : Store) : List (String × SessionRouteKeyRow) :=
  s.sessionRouteKeys.select fun _ row ↦ rootHashes.contains row.rootKeyHash

/-- A stored key as a caller names it. -/
def storedRouteKey (row : String × SessionRouteKeyRow) : SessionRouteKey := ⟨row.1, row.2.kind⟩

/-- The existing keys under the input keys, sorted by hash; `src/db.rs:1219–1230`. -/
def allRouteKeys (inputKeys : RouteKeys) (existing : List (String × SessionRouteKeyRow)) :
    List SessionRouteKey :=
  let kept := existing.filter fun row ↦ !inputKeys.hashes.contains row.1
  (kept.map storedRouteKey ++ inputKeys.keys).insertionSort fun a b ↦ a.keyHash ≤ b.keyHash

/-- Whether committing the mapping would change it; `src/db.rs:1236–1242`. -/
def mappingChanged (canonicalExisted : Bool) (rootKeyHash : String)
    (existing : List (String × SessionRouteKeyRow)) (allKeys : List SessionRouteKey) : Bool :=
  !canonicalExisted || existing.length != allKeys.length || allKeys.any fun key ↦
    match existing.lookup key.keyHash with
    | none => true
    | some row => row.rootKeyHash != rootKeyHash || row.kind != key.kind

/-- `COALESCE(MAX(route_generation), 0)` over some roots; `src/db.rs:1244–1255`. -/
def rootGeneration (rootHashes : List String) (s : Store) : Nat :=
  maximum ((s.sessionRoots.select fun k _ ↦ rootHashes.contains k).map fun row ↦
    row.2.routeGeneration)

/-- The affinity rows of some keys, joined with their accounts; `src/db.rs:1257–1275`. -/
def affinityRoutes (keys : List SessionRouteKey) (s : Store) : List AffinityRouteActionRow :=
  (s.affinity.select fun k _ ↦ (keys.map SessionRouteKey.keyHash).contains k).filterMap fun row ↦
    (s.accountDisplayLabel row.2.accountId).map fun label ↦
      ⟨row.1, row.2.kind, row.2.accountId, label, row.2.routeGeneration⟩

/-- The snapshots of the transaction, `src/db.rs:1188–1291`. -/
def routeSnapshot (rootKeyHash : String) (inputKeys : RouteKeys) (canonicalExisted : Bool)
    (s : Store) : RouteSnapshot :=
  let priorMappedRoots := mappedRoots inputKeys.hashes s
  let rootHashes := priorMappedRoots.insert rootKeyHash
  let existing := existingKeys rootHashes s
  let allKeys := allRouteKeys inputKeys existing
  let routes := affinityRoutes allKeys s
  { priorMappedRoots := priorMappedRoots
    rootHashes := rootHashes
    allKeys := allKeys
    mappingChanged := mappingChanged canonicalExisted rootKeyHash existing allKeys
    affinityRoutes := routes
    currentGeneration := max (rootGeneration rootHashes s)
      (maximum (routes.map AffinityRouteActionRow.routeGeneration)) }

/-! ### Decision -/

/-- The account a session is sent to, and whether it stands in for an ineligible target;
`src/db.rs:1310–1339`. -/
def effectiveRouteAccount (settings : RuntimeSettings) (usageRefreshInterval : Nat)
    (target : Option ResolvedSessionRouteTarget) (selectedAt : Instant) (s : Store) :
    Option Uuid × Bool :=
  match target with
  | some target =>
    if accountIsEligible target.accountId selectedAt s then (some target.accountId, false)
    else (previewSmartAccount settings usageRefreshInterval [] selectedAt s, true)
  | none => (previewSmartAccount settings usageRefreshInterval [] selectedAt s, false)

/-- The number of keys without an affinity row of their kind on the account;
`src/db.rs:1345–1358`. -/
def changedRouteCount (accountId : Uuid) (keys : List SessionRouteKey)
    (routes : List AffinityRouteActionRow) : Nat :=
  keys.countP fun key ↦
    match routes.find? fun route ↦ route.keyHash = key.keyHash with
    | none => true
    | some route => route.accountId != accountId || route.kind != key.kind

/-- The labels of the accounts a session was on, sorted; `src/db.rs:1293–1303`. -/
def previousAccounts (routes : List AffinityRouteActionRow) (liveAccountIds : List Uuid)
    (s : Store) : List String :=
  (routes.map AffinityRouteActionRow.accountLabel ++
    liveAccountIds.filterMap s.accountDisplayLabel).dedup.insertionSort fun a b ↦ a ≤ b

/-- `status` of a decision, `src/db.rs:1376–1384`. -/
def routeActionStatus (effectiveAccountId : Option Uuid) (usedFallback requiresMove : Bool) :
    SessionRouteActionStatus :=
  if effectiveAccountId.isNone then .pending
  else if usedFallback then .fallback
  else if requiresMove then .applied
  else .noOp

/-- The decision over a snapshot, `src/db.rs:1276–1384`. -/
def decideRouteAction (settings : RuntimeSettings) (usageRefreshInterval : Nat)
    (rootKeyHash : String) (target : Option ResolvedSessionRouteTarget)
    (liveAccountIds : List Uuid) (selectedAt : Instant) (canonicalExisted : Bool)
    (snapshot : RouteSnapshot) (s : Store) : Except AppError RoutePlan :=
  if !canonicalExisted && snapshot.priorMappedRoots.isEmpty && snapshot.affinityRoutes.isEmpty &&
      liveAccountIds.isEmpty then
    .error (.notFound "no routed session matches the supplied fingerprints")
  else
    let (effective, usedFallback) :=
      effectiveRouteAccount settings usageRefreshInterval target selectedAt s
    let changed := effective.elim 0 fun accountId ↦
      changedRouteCount accountId snapshot.allKeys snapshot.affinityRoutes
    let liveAccountChanged := effective.any fun accountId ↦
      liveAccountIds.any fun live ↦ live != accountId
    let generationMismatch := snapshot.affinityRoutes.any fun route ↦
      route.routeGeneration != snapshot.currentGeneration
    let requiresMove := effective.isSome &&
      (changed != 0 || liveAccountChanged || snapshot.mappingChanged || generationMismatch)
    if requiresMove && decide (i64Max ≤ snapshot.currentGeneration) then
      .error (.internal "session route generation overflowed")
    else
      .ok
        { rootHashes := snapshot.rootHashes
          allKeys := snapshot.allKeys
          currentGeneration := snapshot.currentGeneration
          requestedAccountId := target.map ResolvedSessionRouteTarget.accountId
          effectiveAccountId := effective
          requiresMove := requiresMove
          routeGeneration :=
            if requiresMove then snapshot.currentGeneration + 1 else snapshot.currentGeneration
          status := routeActionStatus effective usedFallback requiresMove
          requestedAccount := target.bind fun target ↦ s.accountDisplayLabel target.accountId
          effectiveAccount := effective.bind s.accountDisplayLabel
          previousAccounts := previousAccounts snapshot.affinityRoutes liveAccountIds s
          changedRouteCount := changed
          mergedRootCount := snapshot.priorMappedRoots.countP fun root ↦ root != rootKeyHash }

/-- The transaction of a route action up to its writes, `src/db.rs:1179–1384`. -/
def planSessionRouteAction (settings : RuntimeSettings) (usageRefreshInterval : Nat)
    (rootKeyHash : String) (inputKeys : RouteKeys) (target : Option ResolvedSessionRouteTarget)
    (liveAccountIds : List Uuid) (selectedAt : Instant) (canonicalExisted : Bool) (s : Store) :
    Except AppError RoutePlan :=
  if target.any fun target ↦ (s.accountDisplayLabel target.accountId).isNone then
    .error (.notFound "account target not found")
  else
    decideRouteAction settings usageRefreshInterval rootKeyHash target liveAccountIds selectedAt
      canonicalExisted (routeSnapshot rootKeyHash inputKeys canonicalExisted s) s

/-! ### Writes -/

/-- `DELETE FROM session_roots`, with the cascade to `session_route_keys`. -/
def deleteSessionRoot (s : Store) (rootKeyHash : String) : Store :=
  { s with
    sessionRoots := s.sessionRoots.delete fun k _ ↦ k = rootKeyHash
    sessionRouteKeys := s.sessionRouteKeys.delete fun _ row ↦ row.rootKeyHash = rootKeyHash }

/-- The first writes of a route action, `src/db.rs:1389–1416`: the root's generation is raised and
every key is mapped to it. -/
def mapRouteKeys (rootKeyHash : String) (plan : RoutePlan) (now : Instant) (s : Store) : Store :=
  { s with
    sessionRoots := s.sessionRoots.update (fun k _ ↦ k = rootKeyHash) fun root ↦
      { root with
        routeGeneration := max root.routeGeneration plan.currentGeneration
        updatedAt := now }
    sessionRouteKeys := s.sessionRouteKeys.upsertAll plan.allKeys SessionRouteKey.keyHash
      (fun key ↦ ⟨rootKeyHash, key.kind⟩) fun key _ ↦ ⟨rootKeyHash, key.kind⟩ }

/-- The deletion of the merged roots, `src/db.rs:1417–1426`. -/
def deleteMergedRoots (rootKeyHash : String) (plan : RoutePlan) (s : Store) : Store :=
  (plan.rootHashes.filter fun root ↦ root ≠ rootKeyHash).foldl deleteSessionRoot s

/-- The affinity row of a moved key. -/
def movedRow (accountId : Uuid) (routeGeneration : Nat) (now : Instant) (key : SessionRouteKey) :
    Affinity :=
  ⟨key.kind, accountId, routeGeneration, now⟩

/-- The affinity upserts of a move, `src/db.rs:1427–1450`. -/
def moveAffinities (plan : RoutePlan) (now : Instant) (s : Store) : Store :=
  match plan.requiresMove, plan.effectiveAccountId with
  | true, some accountId =>
    { s with
      affinity := s.affinity.upsertAll plan.allKeys SessionRouteKey.keyHash
        (movedRow accountId plan.routeGeneration now)
        fun key _ ↦ movedRow accountId plan.routeGeneration now key }
  | _, _ => s

/-- The root row that a route action leaves, `src/db.rs:1451–1471`. -/
def commandedRoot (action : SessionRouteActionKind) (plan : RoutePlan) (now : Instant) :
    SessionRoot where
  routeGeneration := plan.routeGeneration
  lastAction := some action
  requestedAccountId := plan.requestedAccountId
  effectiveAccountId := plan.effectiveAccountId
  actionStatus := some plan.status
  updatedAt := now

/-- The writes of a route action, `src/db.rs:1389–1471`. The accounts that they name were read
in the same transaction, and the last statement sets every column of the root. -/
def writeRouteAction (request : SessionRouteActionRequest) (plan : RoutePlan) (now : Instant)
    (s : Store) : Store :=
  let s := mapRouteKeys request.rootKeyHash plan now s
  let s := deleteMergedRoots request.rootKeyHash plan s
  let s := moveAffinities plan now s
  { s with
    sessionRoots := s.sessionRoots.update (fun k _ ↦ k = request.rootKeyHash) fun _ ↦
      commandedRoot request.action plan now }

/-- The response of a route action, `src/db.rs:1475–1488`. -/
def RoutePlan.response (plan : RoutePlan) (request : SessionRouteActionRequest) :
    SessionRouteActionResponse where
  rootKeyHash := request.rootKeyHash
  sessionFingerprint := String.ofList (request.rootKeyHash.toList.take 12)
  action := request.action
  status := plan.status
  requestedAccount := plan.requestedAccount
  effectiveAccount := plan.effectiveAccount
  previousAccounts := plan.previousAccounts
  routeGeneration := plan.routeGeneration
  linkedRouteCount := plan.allKeys.length
  changedRouteCount := plan.changedRouteCount
  mergedRootCount := plan.mergedRootCount
  dryRun := request.dryRun

/-- The transaction of a route action, `src/db.rs:1155–1473`. -/
def routeActionBody (settings : RuntimeSettings) (usageRefreshInterval : Nat)
    (request : SessionRouteActionRequest) (inputKeys : RouteKeys)
    (target : Option ResolvedSessionRouteTarget) (liveAccountIds : List Uuid)
    (selectedAt now : Instant) (s : Store) :
    Except AppError (Ending SessionRouteActionResponse × Store) := do
  let canonicalExisted := s.sessionRoots.has request.rootKeyHash
  let s := if request.dryRun then s else s.withRoot request.rootKeyHash now
  let plan ← planSessionRouteAction settings usageRefreshInterval request.rootKeyHash inputKeys
    target liveAccountIds selectedAt canonicalExisted s
  if request.dryRun then return (.rollback (plan.response request), s)
  else return (.commit (plan.response request), writeRouteAction request plan now s)

/-- `apply_session_route_action`, `src/db.rs:1107–1489`, when the target is resolved on the store
that the transaction starts from. -/
def applySessionRouteAction [UuidText] (settings : RuntimeSettings) (usageRefreshInterval : Nat)
    (request : SessionRouteActionRequest) (liveAccountIds : List Uuid) (selectedAt now : Instant)
    (s : Store) : Except AppError SessionRouteActionResponse × Store :=
  match validateRouteAction request s with
  | .error e => (.error e, s)
  | .ok (inputKeys, target) =>
    transaction (routeActionBody settings usageRefreshInterval request inputKeys target
      liveAccountIds selectedAt now) s

/-! ### Pending actions -/

/-- The order in which pending roots are retried, `src/db.rs:1504`. -/
def pendingNotAfter (a b : String × SessionRoot) : Bool :=
  (compareColumn a.2.updatedAt b.2.updatedAt).then (compareColumn a.1 b.1) != .gt

/-- The command that a pending root stands for, `src/db.rs:1512–1537`. -/
def pendingRequest [UuidText] (rootKeyHash : String) (action : SessionRouteActionKind)
    (requestedAccountId : Option Uuid) (s : Store) : SessionRouteActionRequest where
  rootKeyHash := rootKeyHash
  keys := ((s.sessionRouteKeys.select fun _ row ↦ row.rootKeyHash = rootKeyHash).map
    storedRouteKey).insertionSort fun a b ↦ a.keyHash ≤ b.keyHash
  action := if action = .reroute ∧ requestedAccountId.isNone then .rebalance else action
  target := requestedAccountId.map UuidText.toText
  dryRun := false

/-- `list_pending_session_route_actions`, `src/db.rs:1494–1540`. -/
def listPendingSessionRouteActions [UuidText] (limit : Int) (s : Store) :
    List SessionRouteActionRequest :=
  let roots := s.sessionRoots.select fun _ root ↦
    root.actionStatus = some .pending && root.lastAction.isSome
  (firstRows pendingNotAfter (clamp limit 1 100).toNat roots).filterMap fun row ↦
    row.2.lastAction.map fun action ↦ pendingRequest row.1 action row.2.requestedAccountId s

end CodexLb
