import CodexLb.Db.Settings
import CodexLb.Proxy.Stream

/-!
# Upstream responses

What the proxy reads of a response before it streams it, and a response that
is read to its end instead: `src/proxy.rs:856–964`. Header names are lower
case, as `http` stores them, and a value is its bytes.
-/

namespace CodexLb.Proxy

/-- `HeaderMap`: the values with their names. -/
abbrev Headers := List (String × List UInt8)

/-- `HeaderMap::get` and `HeaderValue::to_str`: the first value of a name, if it is visible. -/
def headerText (headers : Headers) (name : String) : Option String :=
  (headers.lookup name).bind fun value ↦
    if value.all fun b ↦ b == 9 || (32 ≤ b && b < 127) then
      some (String.ofList (value.map fun b ↦ Char.ofNat b.toNat))
    else none

/-- `reqwest::Response`. -/
structure UpstreamResponse where
  status : Nat
  headers : Headers
  body : StreamBody

/-- `should_forward_response_header`, `src/proxy.rs:914–930`. -/
def shouldForwardResponseHeader (name : String) : Bool :=
  ["content-type", "cache-control", "etag", "last-modified", "vary", "retry-after",
    "x-request-id", "openai-processing-ms", "x-ratelimit-limit-requests",
    "x-ratelimit-remaining-requests", "x-ratelimit-reset-requests",
    "x-codex-turn-state"].contains name || "x-codex-".toList.isPrefixOf name.toList

/-- `forwarded_response_headers`, `src/proxy.rs:906–912`. -/
def forwardedResponseHeaders (headers : Headers) : Headers :=
  headers.filter fun header ↦ shouldForwardResponseHeader header.1

/-- `is_event_stream`, `src/proxy.rs:946–951`. -/
def isEventStream (headers : Headers) : Bool :=
  (headerText headers "content-type").any fun value ↦
    containsText "text/event-stream".toList (toAsciiLowercase value).toList

/-- `is_auth_status`, `src/proxy.rs:953–955`. -/
def isAuthStatus (status : Nat) : Bool := status == 401 || status == 403

/-- `StatusCode::is_server_error`. -/
def isServerError (status : Nat) : Bool := 500 ≤ status && status < 600

/-- `StatusCode::is_success`. -/
def isSuccess (status : Nat) : Bool := 200 ≤ status && status < 300

/-- `retry_after_seconds`, `src/proxy.rs:957–964`. -/
def retryAfterSeconds (headers : Headers) (fallback : Int) : Int :=
  clamp (((headerText headers "retry-after").bind parseI64).getD fallback) 1 (60 * 60)

/-- A cooldown lasts a second at least. -/
theorem retryAfterSeconds_pos (headers : Headers) (fallback : Int) :
    1 ≤ retryAfterSeconds headers fallback := by
  unfold retryAfterSeconds clamp
  omega

/-! ### Buffered responses -/

/-- `ERROR_BODY_LIMIT`, `src/proxy.rs:29`. -/
def errorBodyLimit : Nat := 1024 * 1024

/-- `LOG_MESSAGE_LIMIT`, `src/proxy.rs:28`. -/
def logMessageLimit : Nat := 2000

/-- `BufferedUpstream`, `src/proxy.rs:856–860`. -/
structure BufferedUpstream where
  status : Nat
  headers : Headers
  body : List UInt8
  deriving DecidableEq

namespace BufferedUpstream

/-- The loop of `BufferedUpstream::from_response`, `src/proxy.rs:868–886`. -/
def readBody (failure : Option String) (body : List UInt8) : List (List UInt8) → List UInt8
  | [] =>
    match failure with
    | some error =>
      if body.isEmpty then body ++ bytesOf s!"failed to read upstream response: {error}" else body
    | none => body
  | chunk :: chunks =>
    let remaining := errorBodyLimit - body.length
    if remaining = 0 then body else readBody failure (body ++ chunk.take remaining) chunks

/-- `BufferedUpstream::from_response`, `src/proxy.rs:863–892`. -/
def fromResponse (response : UpstreamResponse) : BufferedUpstream where
  status := response.status
  headers := forwardedResponseHeaders response.headers
  body := readBody response.body.failure [] response.body.chunks

/-- `BufferedUpstream::message`, `src/proxy.rs:894–899`. -/
def message (buffered : BufferedUpstream) : String :=
  String.ofList ((fromUtf8Lossy buffered.body).take logMessageLimit)

end BufferedUpstream

end CodexLb.Proxy
