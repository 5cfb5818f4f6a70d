import CodexLb.Catalog.Payload
import CodexLb.Cost.Ledger
import CodexLb.Proxy.Capture
import CodexLb.Transition.Run

/-!
# A logged response stream

`logged_response_stream` as the generator that it is, `src/proxy.rs:376–481`:
a state for each point at which it can be suspended, one step from a point to
the next, and a drop at any of them. The body, the database and the clock
answer at the points where the generator waits.
-/

namespace CodexLb.Proxy

/-- `AccountLease`, `src/proxy.rs:815–819`. -/
structure AccountLease where
  armed : Bool
  deriving DecidableEq

/-- What a stream does, in order. -/
inductive StreamEffect where
  /-- `bind_affinities_at_epoch` was called. -/
  | bound (keys : List SessionRouteKey) (routeEpoch : Option SessionRouteEpoch)
      (outcome : Except AppError Bool)
  /-- A log row was inserted. -/
  | logged (entry : RequestLogEntry)
  /-- The release of the lease was spawned. -/
  | released
  /-- The client was given the error of the body. -/
  | failed (message : String)

namespace AccountLease

/-- `AccountLease::new`, `src/proxy.rs:822–828`. -/
def new : AccountLease := ⟨true⟩

/-- `Drop for AccountLease`, `src/proxy.rs:836–844`. -/
def drop (lease : AccountLease) : List StreamEffect := if lease.armed then [.released] else []

/-- `AccountLease::release`, `src/proxy.rs:830–833`, which drops the lease at its end. -/
def release (lease : AccountLease) : List StreamEffect :=
  .released :: drop { lease with armed := false }

end AccountLease

/-- `StreamLogContext`, `src/proxy.rs:366–374`, with the account of the lease. -/
structure StreamLogContext where
  accountId : Uuid
  requestId : String
  model : Option String
  selectionReason : SelectionReason
  eventStream : Bool
  affinities : List SessionRouteKey
  routeEpoch : Option SessionRouteEpoch

/-- The body of a response: its chunks, and the error that ends it, if one does. -/
structure StreamBody where
  chunks : List (List UInt8)
  failure : Option String

/-- `RequestOutcome`, `src/proxy.rs:505–510`, and the chunk that is held back until it is logged;
none at the end of the body. -/
structure Settlement where
  status : String
  errorCode : Option String
  errorMessage : Option String
  usage : UsageData
  chunk : Option (List UInt8)
  deriving DecidableEq

/-- Where a stream is suspended. -/
inductive StreamPoint where
  /-- Waiting for the body; also a stream that was not polled yet. -/
  | reading
  /-- Waiting for the response's key to be bound. -/
  | binding (responseId : String) (settlement : Settlement)
  /-- Waiting for the log row to be committed. -/
  | logging (settlement : Settlement)
  /-- The insert has ended, and the stream has not been resumed. -/
  | logged (settlement : Settlement)
  /-- The client has the last chunk and has not asked for the next. -/
  | yielding
  | finished
  | dropped
  deriving DecidableEq

/-- The variables of the generator, where it is, what the client has and what was done. -/
structure StreamState where
  unread : List (List UInt8)
  failure : Option String
  capture : TailCapture
  detector : SseTerminalDetector
  lease : Option AccountLease
  settled : Bool
  point : StreamPoint
  delivered : List (List UInt8)
  effects : List StreamEffect

/-- What is answered where the generator waits. -/
structure StreamAnswers where
  /-- `bind_affinities_at_epoch`. -/
  bound : Except AppError Bool
  /-- Whether the log row was inserted. -/
  inserted : Bool
  /-- The milliseconds since the request started. -/
  elapsed : Nat

/-- What happens to a suspended stream. -/
inductive StreamEvent where
  /-- It is polled, and what it waits for is there. -/
  | advance (answers : StreamAnswers)
  /-- The client stops reading. -/
  | drop

namespace StreamState

/-- A stream before its first poll, `src/proxy.rs:382–389`. -/
def start (body : StreamBody) : StreamState :=
  ⟨body.chunks, body.failure, .new sseCaptureLimit, .fresh, some .new, false, .reading, [], []⟩

/-- `yield bytes`, `src/proxy.rs:433`. -/
def yield (s : StreamState) (bytes : List UInt8) : StreamState :=
  { s with point := .yielding, delivered := s.delivered ++ [bytes] }

/-- What the variables leave when they go out of scope. -/
def dropLease (s : StreamState) : List StreamEffect :=
  match s.lease with
  | some lease => lease.drop
  | none => []

/-- `lease.take()` and `lease.release()`, `src/proxy.rs:428–430` and `472–474`. -/
def releaseLease (s : StreamState) : List StreamEffect :=
  match s.lease with
  | some lease => lease.release
  | none => []

/-- The error item of a body that failed, `src/proxy.rs:477–479`. -/
def failed (s : StreamState) : List StreamEffect :=
  match s.failure with
  | some message => [.failed message]
  | none => []

/-- The end of the generator, `src/proxy.rs:477–480`. -/
def finish (s : StreamState) : StreamState :=
  { s with point := .finished, lease := none, effects := s.effects ++ s.failed ++ s.dropLease }

/-- The stream is dropped where it is suspended. -/
def drop (s : StreamState) : StreamState :=
  { s with point := .dropped, lease := none, effects := s.effects ++ s.dropLease }

/-- A response with an identifier is bound before it is logged. -/
def settle (s : StreamState) (responseId : Option String) (settlement : Settlement) :
    StreamState :=
  match responseId with
  | some responseId => { s with point := .binding responseId settlement }
  | none => { s with point := .logging settlement }

end StreamState

/-- `RequestLogEntry` of `log_request`, `src/proxy.rs:523–550`. -/
def logEntry (context : StreamLogContext) (settlement : Settlement) (elapsed : Nat) :
    RequestLogEntry where
  requestId := context.requestId
  accountId := some context.accountId
  model := context.model
  status := settlement.status
  selectionReason := some context.selectionReason
  errorCode := settlement.errorCode
  errorMessage := settlement.errorMessage
  usage := settlement.usage
  latencyMs := some (latencyMillis elapsed)

/-- `session_route_key`, `src/proxy.rs:606–611`. -/
def sessionRouteKey [Sha256] (kind value : String) : SessionRouteKey :=
  ⟨affinityHash kind value, kind⟩

/-- `bind_response_affinity`, `src/proxy.rs:626–659`. -/
def bindResponseAffinity [Sha256] (context : StreamLogContext) (responseId : String)
    (outcome : Except AppError Bool) : StreamEffect :=
  let key := sessionRouteKey "response_id" responseId
  let keys := if context.affinities.any fun affinity ↦ affinity.keyHash == key.keyHash then
    context.affinities else context.affinities ++ [key]
  .bound keys context.routeEpoch outcome

/-- How a terminal event is logged, `src/proxy.rs:408–425`. -/
def terminalSettlement (terminal : SseTerminal) (usage : UsageData) (bytes : List UInt8) :
    Settlement :=
  let (status, errorCode) := match terminal with
    | .completed => ("success", none)
    | .incomplete => ("error", some "response_incomplete")
    | .failed => ("error", some "response_failed")
    | .error => ("error", some "upstream_error")
  ⟨status, errorCode, none, usage, some bytes⟩

/-- How the end of a body is logged, `src/proxy.rs:453–469`. -/
def endSettlement (failure : Option String) (usage : UsageData) : Settlement :=
  match failure with
  | some message => ⟨"error", some "upstream_stream_error", some message, usage, none⟩
  | none => ⟨"success", none, none, usage, none⟩

section Steps

variable [JsonText]

/-- A chunk of the body, `src/proxy.rs:393–434`. -/
def StreamState.readChunk (s : StreamState) (bytes : List UInt8) (rest : List (List UInt8)) :
    StreamState :=
  let s := { s with unread := rest, capture := s.capture.push bytes }
  if s.settled then s.yield bytes
  else
    match s.detector.observe bytes with
    | (detector, some terminal) =>
      let (usage, responseId) := captureMetadata s.capture true
      { s with detector := detector }.settle responseId (terminalSettlement terminal usage bytes)
    | (detector, none) => { s with detector := detector }.yield bytes

/-- The end of the body, `src/proxy.rs:442–457`. -/
def StreamState.readEnd (s : StreamState) (context : StreamLogContext) : StreamState :=
  if s.settled then s.finish
  else
    let (usage, responseId) := captureMetadata s.capture context.eventStream
    s.settle responseId (endSettlement s.failure usage)

/-- The stream goes on after its row, `src/proxy.rs:428–433` and `472–480`. -/
def StreamState.afterLog (s : StreamState) (settlement : Settlement) : StreamState :=
  let s := { s with lease := none, effects := s.effects ++ s.releaseLease }
  match settlement.chunk with
  | some bytes => { s with settled := true }.yield bytes
  | none => s.finish

variable [Sha256]

/-- A stream runs from one point to the next. -/
def StreamState.advance (s : StreamState) (context : StreamLogContext) (answers : StreamAnswers) :
    StreamState :=
  match s.point with
  | .reading =>
    match s.unread with
    | bytes :: rest => s.readChunk bytes rest
    | [] => s.readEnd context
  | .binding responseId settlement =>
    { s with
      point := .logging settlement
      effects := s.effects ++ [bindResponseAffinity context responseId answers.bound] }
  | .logging settlement =>
    { s with
      point := .logged settlement
      effects := s.effects ++
        if answers.inserted then [.logged (logEntry context settlement answers.elapsed)] else [] }
  | .logged settlement => s.afterLog settlement
  | .yielding => { s with point := .reading }
  | .finished => s
  | .dropped => s

omit [JsonText] [Sha256] in
/-- A stream that has finished or been dropped. -/
def StreamState.closed (s : StreamState) : Bool :=
  match s.point with
  | .finished | .dropped => true
  | _ => false

/-- A stream that is suspended is polled or dropped. -/
def StreamStep (context : StreamLogContext) (s : StreamState) (event : StreamEvent)
    (t : StreamState) : Prop :=
  s.closed = false ∧ t = match event with
    | .advance answers => s.advance context answers
    | .drop => s.drop

end Steps

end CodexLb.Proxy
