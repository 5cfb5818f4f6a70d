import CodexLb.Catalog.Payload
import CodexLb.Cost.Ledger
import CodexLb.Transition.Custody
import CodexLb.Upstream.Usage
import CodexLb.Websocket.Messages

/-!
# The turns of a bridge

A turn holds a lease from its start, is logged and gives the lease back,
`src/websocket.rs:614–640`, `678–809` and `978–1017`. What the functions do to
the database and the sockets is the list of their effects; what the database
answers is given.
-/

namespace CodexLb.Websocket

open Transition (Mark)

/-- `AccountLease`, `src/websocket.rs:978–982`, with the number of the acquisition it stands for. -/
structure AccountLease where
  number : Nat
  armed : Bool
  deriving DecidableEq

/-- `ActiveTurn`, `src/websocket.rs:614–620`. -/
structure ActiveTurn where
  requestId : String
  model : Option String
  selectionReason : SelectionReason
  lease : AccountLease
  deriving DecidableEq

/-- How a write under a timeout ends. -/
inductive WriteOutcome where
  | sent
  | failed
  | timedOut
  deriving DecidableEq

/-- What a bridge does, in order. -/
inductive BridgeEffect where
  /-- The account's row was updated: the turn has its lease. -/
  | acquired (turn : ActiveTurn)
  /-- `bind_affinities_at_epoch` was called. -/
  | bound (keys : List SessionRouteKey) (routeEpoch : Option SessionRouteEpoch)
      (outcome : Except AppError Bool)
  /-- A log row was inserted for the turn with this lease. -/
  | logged (number : Nat) (entry : RequestLogEntry)
  /-- The account's row was updated: the lease is given back. -/
  | released (number : Nat)
  /-- `cooldown_account` was called. -/
  | cooledDown (accountId : Uuid) (seconds : Int) (reason : String)
  /-- `mark_auth_failed` was called. -/
  | authFailed (accountId : Uuid) (reason : String)
  | toUpstream (message : UpstreamMessage) (outcome : WriteOutcome)
  | toClient (message : ClientMessage) (outcome : WriteOutcome)
  | closedUpstream
  | closedClient

/-- What an effect does with a turn. -/
def BridgeEffect.mark : BridgeEffect → Option (Mark Nat)
  | acquired turn => some (.opened turn.lease.number)
  | logged number _ => some (.recorded number)
  | released number => some (.closed number)
  | _ => none

/-- What the database answers while a turn is finished. -/
structure FinishAnswers where
  /-- The binding of the response's key. -/
  boundResponse : Except AppError Bool
  /-- The settings, where they can be read. -/
  settings : Option RuntimeSettings
  /-- Whether the log row was inserted. -/
  inserted : Bool
  /-- Whether the release succeeded. -/
  released : Bool
  /-- Whether the release of a dropped lease succeeded. -/
  dropReleased : Bool
  /-- The milliseconds since the turn started. -/
  elapsed : Nat

/-- What a bridge is started with. -/
structure BridgeConfig where
  accountId : Uuid
  affinities : List SessionRouteKey
  routeEpoch : Option SessionRouteEpoch

/-! ### Leases -/

namespace AccountLease

/-- `AccountLease::new`, `src/websocket.rs:985–991`. -/
def new (number : Nat) : AccountLease := ⟨number, true⟩

/-- `Drop for AccountLease`, `src/websocket.rs:1003–1019`. -/
def drop (lease : AccountLease) (dropReleased : Bool) : List BridgeEffect :=
  if lease.armed && dropReleased then [.released lease.number] else []

/-- `AccountLease::release`, `src/websocket.rs:993–1000`, which drops the lease at its end. -/
def release (lease : AccountLease) (answers : FinishAnswers) : List BridgeEffect :=
  if answers.released then
    .released lease.number :: drop { lease with armed := false } answers.dropReleased
  else lease.drop answers.dropReleased

end AccountLease

/-! ### Start and end of a turn -/

/-- `start_turn`, `src/websocket.rs:622–640`, with the answer of `acquire_account_if_available`. -/
def startTurn (request : ParsedRequest) (selectionReason : SelectionReason) (number : Nat)
    (available : Except AppError Bool) : Except AppError ActiveTurn :=
  available.bind fun available ↦
    if available then
      .ok ⟨request.requestId, request.model, selectionReason, .new number⟩
    else
      .error (.unavailable
        "selected WebSocket account is no longer available; reconnect required")

/-- `persist_turn`, `src/websocket.rs:748–775`. -/
def persistTurn (accountId : Uuid) (turn : ActiveTurn) (status : String)
    (errorCode errorMessage : Option String) (usage : UsageData) (answers : FinishAnswers) :
    List BridgeEffect :=
  if answers.inserted then
    [.logged turn.lease.number
      { requestId := turn.requestId
        accountId := some accountId
        model := turn.model
        status := status
        selectionReason := some turn.selectionReason
        errorCode := errorCode
        errorMessage := errorMessage
        usage := usage
        latencyMs := some (latencyMillis answers.elapsed) }]
  else []

/-- `finish_disconnected_turn`, `src/websocket.rs:727–745`. -/
def finishDisconnectedTurn (accountId : Uuid) (turn : ActiveTurn) (errorCode message : String)
    (answers : FinishAnswers) : List BridgeEffect :=
  persistTurn accountId turn "error" (some errorCode) (some message) .none answers ++
    turn.lease.release answers

/-- `apply_terminal_error_state`, `src/websocket.rs:777–809`. -/
def applyTerminalErrorState (accountId : Uuid) (event : JsonValue) (errorMessage : Option String)
    (answers : FinishAnswers) : List BridgeEffect :=
  match eventStatus event with
  | some status =>
    if status = 429 then
      let settings := answers.settings.getD .default
      [.cooledDown accountId settings.rateLimitCooldownSeconds "upstream WebSocket rate limited"]
    else if status = 401 ∨ status = 403 then
      [.authFailed accountId (errorMessage.getD "upstream WebSocket authentication failed")]
    else if 500 ≤ status ∧ status ≤ 599 then
      [.cooledDown accountId 10 "upstream WebSocket server error"]
    else []
  | none => []

variable [Sha256]

/-- `session_route_key`, `src/websocket.rs:868–873`. -/
def sessionRouteKey (kind value : String) : SessionRouteKey := ⟨affinityHash kind value, kind⟩

/-- `bind_response_affinity`, `src/websocket.rs:875–904`. -/
def bindResponseAffinity (config : BridgeConfig) (responseId : String) (answers : FinishAnswers) :
    List BridgeEffect :=
  let key := sessionRouteKey "response_id" responseId
  let keys := if config.affinities.any fun affinity ↦ affinity.keyHash == key.keyHash then
    config.affinities else config.affinities ++ [key]
  [.bound keys config.routeEpoch answers.boundResponse]

/-- `finish_turn`, `src/websocket.rs:678–725`. -/
def finishTurn (config : BridgeConfig) (turn : ActiveTurn) (event : JsonValue)
    (answers : FinishAnswers) : List BridgeEffect :=
  let (status, fallbackCode) := match (terminalEvent event).getD .error with
    | .completed => ("success", none)
    | .incomplete => ("error", some "response_incomplete")
    | .failed => ("error", some "response_failed")
    | .error => ("error", some "upstream_error")
  let errorCode := (((event.pointer ["error", "code"]).or (event.pointer ["error", "type"])).bind
    JsonValue.asStr).or fallbackCode
  let errorMessage :=
    ((event.pointer ["error", "message"]).or (event.get "message")).bind JsonValue.asStr
  let responseId := ((event.pointer ["response", "id"]).or (event.get "id")).bind JsonValue.asStr
  (match responseId with
    | some responseId => bindResponseAffinity config responseId answers
    | none => []) ++
  (if status = "error" then applyTerminalErrorState config.accountId event errorMessage answers
    else []) ++
  persistTurn config.accountId turn status errorCode errorMessage (extractUsageFromJson event)
    answers ++
  turn.lease.release answers

end CodexLb.Websocket
