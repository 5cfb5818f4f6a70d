import CodexLb.Base.Json
import CodexLb.Base.Text

/-!
# WebSocket messages

The messages of the two sockets, the requests and the terminal events that the
bridge finds in their texts, `src/websocket.rs:586–676` and `811–840`.
-/

namespace CodexLb.Websocket

/-- The code and the reason of a close frame. -/
structure CloseFrame where
  code : UInt16
  reason : String
  deriving DecidableEq

/-- A message from Codex or to it. -/
inductive ClientMessage where
  | text (text : String)
  | binary (bytes : List UInt8)
  | ping (bytes : List UInt8)
  | pong (bytes : List UInt8)
  | close (frame : Option CloseFrame)
  deriving DecidableEq

/-- A message from the upstream or to it. -/
inductive UpstreamMessage where
  | text (text : String)
  | binary (bytes : List UInt8)
  | ping (bytes : List UInt8)
  | pong (bytes : List UInt8)
  | close (frame : Option CloseFrame)
  | frame (bytes : List UInt8)
  deriving DecidableEq

/-- `to_upstream_message`, `src/websocket.rs:811–824`. -/
def toUpstreamMessage : ClientMessage → UpstreamMessage
  | .text text => .text text
  | .binary bytes => .binary bytes
  | .ping bytes => .ping bytes
  | .pong bytes => .pong bytes
  | .close frame => .close frame

/-- `to_client_message`, `src/websocket.rs:826–840`. -/
def toClientMessage : UpstreamMessage → Option ClientMessage
  | .text text => some (.text text)
  | .binary bytes => some (.binary bytes)
  | .ping bytes => some (.ping bytes)
  | .pong bytes => some (.pong bytes)
  | .close frame => some (.close frame)
  | .frame _ => none

/-- `matches!(client_message, ClientMessage::Close(_))`. -/
def ClientMessage.closes : ClientMessage → Bool
  | close _ => true
  | _ => false

/-- `matches!(upstream_message, UpstreamMessage::Close(_))`. -/
def UpstreamMessage.closes : UpstreamMessage → Bool
  | close _ => true
  | _ => false

/-- A client message goes through the upstream's type unchanged. -/
theorem toClientMessage_toUpstreamMessage (message : ClientMessage) :
    toClientMessage (toUpstreamMessage message) = some message := by
  cases message <;> rfl

/-! ### Requests -/

/-- `ParsedRequest`, `src/websocket.rs:587–590`. -/
structure ParsedRequest where
  requestId : String
  model : Option String
  deriving DecidableEq

section Texts

variable [JsonText]

/-- `parse_response_create`, `src/websocket.rs:592–612`. The fresh identifier is the text of the
UUID that a request without a name of its own is given. -/
def parseResponseCreate (text freshId : String) : Option ParsedRequest :=
  (JsonText.fromStr text).bind fun value ↦
    if (value.get "type").bind JsonValue.asStr = some "response.create" then
      let named := [["client_metadata", "turn_id"], ["client_metadata", "request_id"],
        ["client_metadata", "x-codex-ws-stream-request-start-ms"]].findSome?
          fun pointer ↦ (value.pointer pointer).bind JsonValue.asStr
      some ⟨(named.filter fun name ↦ trim name ≠ "").getD freshId,
        (value.get "model").bind JsonValue.asStr⟩
    else none

/-- The request in a client message, `src/websocket.rs:395–397`. -/
def ClientMessage.request (message : ClientMessage) (freshId : String) : Option ParsedRequest :=
  match message with
  | .text content => parseResponseCreate content freshId
  | _ => none

/-! ### Terminal events -/

/-- `TerminalEvent`, `src/websocket.rs:642–648`. -/
inductive TerminalEvent where
  | completed
  | incomplete
  | failed
  | error
  deriving DecidableEq

omit [JsonText] in
/-- `terminal_event`, `src/websocket.rs:650–658`. -/
def terminalEvent (value : JsonValue) : Option TerminalEvent :=
  match (value.get "type").bind JsonValue.asStr with
  | some "response.completed" => some .completed
  | some "response.incomplete" => some .incomplete
  | some "response.failed" => some .failed
  | some "error" => some .error
  | _ => none

omit [JsonText] in
/-- `event_status`, `src/websocket.rs:667–676`. -/
def eventStatus (value : JsonValue) : Option Nat :=
  ((value.get "status").or (value.get "status_code")).bind fun status ↦
    status.asU64.or (status.asStr.bind parseU64)

omit [JsonText] in
/-- `should_retry_on_new_connection`, `src/websocket.rs:660–665`. -/
def shouldRetryOnNewConnection (value : JsonValue) : Bool :=
  (match eventStatus value with
    | some status => status == 401 || status == 403 || status == 429 ||
        (500 ≤ status && status ≤ 599)
    | none => false) ||
  (value.pointer ["error", "code"]).bind JsonValue.asStr ==
    some "websocket_connection_limit_reached"

/-- The terminal event in an upstream message, `src/websocket.rs:472–475`. -/
def UpstreamMessage.terminal (message : UpstreamMessage) : Option JsonValue :=
  match message with
  | .text content => (JsonText.fromStr content).filter fun event ↦ (terminalEvent event).isSome
  | _ => none

end Texts

end CodexLb.Websocket
