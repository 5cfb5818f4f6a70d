import CodexLb.Transition.Run
import CodexLb.Websocket.Turn

/-!
# The bridge between Codex and the upstream

`bridge`, `src/websocket.rs:312–560`. A pass of the loop handles one event;
the loop ends with the message that says why, and what follows the loop
finishes the turn that is still active. The sockets, the database and the
clock are the answers that come with an event.
-/

namespace CodexLb.Websocket

/-- The variables of the loop, and how many leases have been acquired so far. -/
structure BridgeState where
  activeTurn : Option ActiveTurn
  nextSelectionReason : Option SelectionReason
  serviceRestart : Bool
  sessionReroute : Bool
  acquisitions : Nat

/-- What the loop waits for, `src/websocket.rs:366–507`. -/
inductive BridgeInput where
  | shutdownRequested
  | rerouteRequested
  | hardTurnTimeout
  | clientClosed
  | clientIdle
  | clientReadFailed
  | client (message : ClientMessage)
  | upstreamClosed
  | upstreamIdle
  | upstreamReadFailed
  | upstream (message : UpstreamMessage)

/-- What is answered while an event is handled, and after the loop where the event ends it. -/
structure BridgeAnswers where
  /-- The text of the UUID for a request without a name. -/
  freshId : String
  /-- `acquire_account_if_available`. -/
  available : Except AppError Bool
  /-- `bind_affinities_at_epoch`, for the affinities of the connection. -/
  bound : Except AppError Bool
  /-- The write that forwards the message. -/
  written : WriteOutcome
  /-- For a turn that is finished in the loop. -/
  finished : FinishAnswers
  /-- The close frame to Codex. -/
  notified : WriteOutcome
  /-- For a turn that is finished after the loop. -/
  closed : FinishAnswers

/-- An event of the loop. -/
structure BridgeEvent where
  input : BridgeInput
  answers : BridgeAnswers

/-- What a part of the loop's body has done; a message breaks the loop. -/
structure Handled where
  state : BridgeState
  effects : List BridgeEffect
  stop : Option String

/-- The next part of the body, unless the loop has ended. -/
def Handled.andThen (h : Handled) (next : BridgeState → Handled) : Handled :=
  match h.stop with
  | some _ => h
  | none => ⟨(next h.state).state, h.effects ++ (next h.state).effects, (next h.state).stop⟩

/-! ### Messages from Codex -/

section Client

variable (config : BridgeConfig) (answers : BridgeAnswers)

/-- A new request ends the turn before it, `src/websocket.rs:398–406`. -/
def endPrevious (s : BridgeState) : Handled :=
  match s.activeTurn with
  | some previous =>
    ⟨{ s with activeTurn := none },
      finishDisconnectedTurn config.accountId previous "websocket_disconnected"
        "a new WebSocket request started before the previous request completed" answers.finished,
      none⟩
  | none => ⟨s, [], none⟩

/-- A request starts a turn, `src/websocket.rs:407–412` and `434–438`. -/
def beginTurn (request : ParsedRequest) (s : BridgeState) : Handled :=
  let reason := s.nextSelectionReason.getD .websocketReuse
  match startTurn request reason s.acquisitions answers.available with
  | .ok turn =>
    ⟨{ s with
        activeTurn := some turn
        nextSelectionReason := none
        acquisitions := s.acquisitions + 1 }, [.acquired turn], none⟩
  | .error _ =>
    ⟨{ s with nextSelectionReason := none }, [], some "local request accounting failed"⟩

/-- The route of the session is checked, `src/websocket.rs:413–433`. -/
def checkRoute (s : BridgeState) : Handled :=
  if config.affinities = [] then ⟨s, [], none⟩
  else
    let effects := [.bound config.affinities config.routeEpoch answers.bound]
    match answers.bound with
    | .ok true => ⟨s, effects, none⟩
    | .ok false =>
      ⟨{ s with sessionReroute := true }, effects, some "session route generation changed"⟩
    | .error _ => ⟨s, effects, some "local session route check failed"⟩

/-- The message goes upstream, `src/websocket.rs:441–455`. -/
def forwardClient (message : ClientMessage) (s : BridgeState) : Handled :=
  let effects := [.toUpstream (toUpstreamMessage message) answers.written]
  match answers.written with
  | .sent =>
    ⟨s, effects, if message.closes then
      some "Codex closed the WebSocket before a terminal response" else none⟩
  | .failed => ⟨s, effects, some "upstream WebSocket write failed before a terminal response"⟩
  | .timedOut => ⟨s, effects, some "upstream WebSocket write timeout before a terminal response"⟩

variable [JsonText]

/-- A request is opened before it is forwarded, `src/websocket.rs:395–439`. -/
def openTurn (message : ClientMessage) (s : BridgeState) : Handled :=
  match message.request answers.freshId with
  | some request =>
    ((endPrevious config answers s).andThen (beginTurn answers request)).andThen
      (checkRoute config answers)
  | none => ⟨s, [], none⟩

/-- A message from Codex, `src/websocket.rs:395–455`. -/
def handleClient (message : ClientMessage) (s : BridgeState) : Handled :=
  (openTurn config answers message s).andThen (forwardClient answers message)

end Client

/-! ### Messages from the upstream -/

/-- The message goes to Codex, `src/websocket.rs:493–506`. -/
def forwardUpstream (answers : BridgeAnswers) (message : UpstreamMessage) (s : BridgeState) :
    Handled :=
  let stop := if message.closes then
    some "upstream WebSocket closed before a terminal response" else none
  match toClientMessage message with
  | some forwarded =>
    let effects := [.toClient forwarded answers.written]
    match answers.written with
    | .sent => ⟨s, effects, stop⟩
    | .failed => ⟨s, effects, some "Codex WebSocket write failed before a terminal response"⟩
    | .timedOut => ⟨s, effects, some "Codex WebSocket write timeout before a terminal response"⟩
  | none => ⟨s, [], stop⟩

section Upstream

variable [JsonText] [Sha256] (config : BridgeConfig) (answers : BridgeAnswers)

/-- A terminal event finishes the turn that is active, `src/websocket.rs:471–491`. -/
def settleTerminal (message : UpstreamMessage) (s : BridgeState) : Handled :=
  match message.terminal with
  | some event =>
    let stop := if shouldRetryOnNewConnection event then
      some "upstream requested a retry on a new WebSocket connection" else none
    match s.activeTurn with
    | some turn =>
      ⟨{ s with activeTurn := none }, finishTurn config turn event answers.finished, stop⟩
    | none => ⟨s, [], stop⟩
  | none => ⟨s, [], none⟩

/-- A message from the upstream, `src/websocket.rs:471–506`. -/
def handleUpstream (message : UpstreamMessage) (s : BridgeState) : Handled :=
  (settleTerminal config answers message s).andThen (forwardUpstream answers message)

/-! ### The loop -/

/-- One pass of the loop, `src/websocket.rs:366–507`. -/
def handle (input : BridgeInput) (s : BridgeState) : Handled :=
  match input with
  | .shutdownRequested =>
    ⟨{ s with serviceRestart := true }, [], some "local service restart requested"⟩
  | .rerouteRequested =>
    ⟨{ s with sessionReroute := true }, [], some "targeted session reroute requested"⟩
  | .hardTurnTimeout =>
    ⟨s, [], some "WebSocket request exceeded the configured request budget"⟩
  | .clientClosed => ⟨s, [], some "Codex closed the WebSocket before a terminal response"⟩
  | .clientIdle => ⟨s, [], some "Codex WebSocket idle timeout before a terminal response"⟩
  | .clientReadFailed => ⟨s, [], some "Codex WebSocket read failed before a terminal response"⟩
  | .client message => handleClient config answers message s
  | .upstreamClosed => ⟨s, [], some "upstream WebSocket closed before a terminal response"⟩
  | .upstreamIdle => ⟨s, [], some "upstream WebSocket idle timeout before a terminal response"⟩
  | .upstreamReadFailed =>
    ⟨s, [], some "upstream WebSocket read failed before a terminal response"⟩
  | .upstream message => handleUpstream config answers message s

end Upstream

/-- The deadline is that of the active turn, and only a connection with affinities is rerouted:
`src/websocket.rs:324–338` and `348–357`. -/
def BridgeInput.enabled (config : BridgeConfig) (s : BridgeState) : BridgeInput → Prop
  | hardTurnTimeout => s.activeTurn.isSome = true
  | rerouteRequested => config.affinities ≠ []
  | _ => True

/-- What follows the loop, `src/websocket.rs:511–559`. -/
def closeBridge (config : BridgeConfig) (answers : BridgeAnswers) (message : String)
    (s : BridgeState) : List BridgeEffect :=
  (if s.serviceRestart || s.sessionReroute then
    let reason := if s.sessionReroute then "session reroute" else "service restart"
    [.toClient (.close (some ⟨1012, reason⟩)) answers.notified]
  else []) ++
  (if s.sessionReroute then [.closedUpstream] else []) ++
  (match s.activeTurn with
  | some turn =>
    let errorCode := if s.sessionReroute then "session_reroute"
      else if s.serviceRestart then "service_restart" else "websocket_disconnected"
    finishDisconnectedTurn config.accountId turn errorCode message answers.closed
  | none => []) ++
  (if s.sessionReroute then []
    else if s.serviceRestart then [.closedUpstream]
    else [.closedUpstream, .closedClient])

/-! ### Runs -/

/-- A bridge, with everything it has done. -/
structure Bridge where
  state : BridgeState
  returned : Bool
  trace : List BridgeEffect

/-- A bridge before its first event, `src/websocket.rs:339–345`. -/
def Bridge.start (selectionReason : SelectionReason) : Bridge :=
  ⟨⟨none, some selectionReason, false, false, 0⟩, false, []⟩

section Steps

variable [JsonText] [Sha256]

/-- A bridge after an event: it returns where the event ends the loop. -/
def Bridge.next (config : BridgeConfig) (b : Bridge) (event : BridgeEvent) : Bridge :=
  let h := handle config event.answers event.input b.state
  match h.stop with
  | none => ⟨h.state, false, b.trace ++ h.effects⟩
  | some message =>
    ⟨{ h.state with activeTurn := none }, true,
      b.trace ++ h.effects ++ closeBridge config event.answers message h.state⟩

/-- A bridge that has not returned handles an event that can happen. -/
def BridgeStep (config : BridgeConfig) (b : Bridge) (event : BridgeEvent) (t : Bridge) : Prop :=
  b.returned = false ∧ event.input.enabled config b.state ∧ b.next config event = t

end Steps

end CodexLb.Websocket
