import CodexLb.Proxy.Forwarding
import CodexLb.Upstream.Polling

/-!
# Opening the upstream's WebSocket

The handshake with the upstream and its errors: `connect_upstream`,
`src/websocket.rs:228–310` and `905–933`. The client library makes the request
of a URL, and answers for the network; the proxy puts the account's tokens and
the client's allowed headers on it.
-/

namespace CodexLb.Websocket

open Proxy

/-- `WebSocketError`, as far as its cases are told apart. -/
inductive WebSocketError where
  | http (status : StatusCode) (body : Option (List UInt8))
  | httpFormat
  | io (message : String)
  | other (message : String)

/-- What `tungstenite` provides: `Display` of its errors, and `into_client_request`. -/
class WebSocketClient where
  display : WebSocketError → String
  clientRequest : String → Except WebSocketError Headers

/-- `websocket_error_status`, `src/websocket.rs:910–915`. -/
def websocketErrorStatus : WebSocketError → Option StatusCode
  | .http status _ => some status
  | _ => none

/-- `is_auth_error`, `src/websocket.rs:905–908`. -/
def isAuthError (error : WebSocketError) : Bool :=
  (websocketErrorStatus error).any fun status ↦ status.code == 401 || status.code == 403

/-- `websocket_error_message`, `src/websocket.rs:917–933`. -/
def websocketErrorMessage [StatusReason] [WebSocketClient] : WebSocketError → String
  | .http status body =>
    "upstream WebSocket handshake failed (" ++ status.display ++ "): " ++
      String.ofList (((body.map fromUtf8Lossy).getD []).take 2000)
  | error => "upstream WebSocket connection failed: " ++ WebSocketClient.display error

/-- `Config::upstream_codex_responses_websocket_url`, `src/config.rs:92–103`. -/
def upstreamCodexResponsesWebsocketUrl (upstreamBaseUrl : String) : Except String String :=
  let url := upstreamCodexResponsesUrl upstreamBaseUrl
  match stripPrefix "https://".toList url.toList with
  | some rest => .ok ("wss://" ++ String.ofList rest)
  | none =>
    match stripPrefix "http://".toList url.toList with
    | some rest => .ok ("ws://" ++ String.ofList rest)
    | none =>
      if "ws://".toList.isPrefixOf url.toList || "wss://".toList.isPrefixOf url.toList then .ok url
      else .error "CODEX_LB_UPSTREAM_BASE_URL must use http(s) or ws(s)"

/-- `should_forward_handshake_header`, `src/websocket.rs:281–297`. -/
def shouldForwardHandshakeHeader (name : String) : Bool :=
  ["user-agent", "originator", "openai-beta", "accept-language", "session-id", "thread-id",
    "x-session-id", "x-client-request-id", "traceparent", "tracestate"].contains name ||
    "x-codex-".toList.isPrefixOf name.toList || "x-openai-".toList.isPrefixOf name.toList ||
    "x-stainless-".toList.isPrefixOf name.toList

/-- `OPENAI_BETA_WEBSOCKET_V2`, `src/websocket.rs:40`. -/
def openaiBetaWebsocketV2 : String := "responses_websockets=2026-02-06"

/-- The loop of `connect_upstream` over the client's headers, `src/websocket.rs:242–246`. -/
def forwardHandshakeHeaders (incoming request : Headers) : Headers :=
  incoming.foldl (fun request header ↦
    if shouldForwardHandshakeHeader header.1 then insertHeader request header.1 header.2
    else request) request

/-- The headers of the handshake on those of the library, `src/websocket.rs:242–264`. -/
def handshakeHeaders (selected : SelectedAccount) (incoming request : Headers) :
    Except WebSocketError Headers :=
  let request := forwardHandshakeHeaders incoming request
  match headerValue (bearer selected) with
  | none => .error .httpFormat
  | some authorization =>
    let request := insertHeader request "authorization" authorization
    let withAccount : Except WebSocketError Headers :=
      match selected.account.chatgptAccountId with
      | none => .ok request
      | some accountId =>
        match headerValue accountId with
        | none => .error .httpFormat
        | some value => .ok (insertHeader request "chatgpt-account-id" value)
    withAccount.map fun request ↦
      if hasHeader request "openai-beta" then request
      else insertHeader request "openai-beta" (bytesOf openaiBetaWebsocketV2)

/-- The request of `connect_upstream`, `src/websocket.rs:233–264`. -/
def handshakeRequest [WebSocketClient] (upstreamBaseUrl : String) (selected : SelectedAccount)
    (incoming : Headers) : Except WebSocketError Headers :=
  match upstreamCodexResponsesWebsocketUrl upstreamBaseUrl with
  | .error message => .error (.io message)
  | .ok url => (WebSocketClient.clientRequest url).bind (handshakeHeaders selected incoming)

/-! ### Whom a handshake speaks for -/

section Handshake

variable {selected : SelectedAccount} {incoming request headers : Headers} {name : String}

end Handshake

end CodexLb.Websocket
