import CodexLb.Proxy.Failover
import CodexLb.Proxy.Touched
import CodexLb.Transition.Pool
import CodexLb.Websocket.Handshake

/-!
# Selecting an account and connecting

`select_and_connect`, `src/websocket.rs:76–226`: a handshake on a selected
account, once more after a refresh when its token is rejected, and the loop
that goes on with another account. Each account is reserved while the proxy
connects; the reservation is released before the call returns.
-/

namespace CodexLb.Websocket

open Relational Transition Proxy

/-- What an attempt gets from outside, in the order in which it asks. -/
structure ConnectAnswers where
  selectedAt : Clock
  acquiredAt : Clock
  expiryNow : Instant
  intervalNow : Instant
  /-- The refresh before the handshake, if it is due. -/
  proactive : TokenExchange
  /-- The headers of the response to the handshake. -/
  first : Except WebSocketError Headers
  /-- The refresh after a rejected token. -/
  reactive : TokenExchange
  retry : Except WebSocketError Headers
  /-- When the account is cooled down. -/
  failedAt : Instant
  releasedAt : Instant
  boundAt : Instant

/-- `PreparedWebSocket`, `src/websocket.rs:76–80`, without its socket. -/
structure PreparedWebSocket where
  selected : SelectedAccount
  responseHeaders : Headers

/-- The arguments of the call. -/
structure ConnectRequest where
  upstreamBaseUrl : String
  incoming : Headers
  affinities : List SessionRouteKey
  routeEpoch : Option SessionRouteEpoch

/-- The variables that the loop reads. -/
structure ConnectContext extends ConnectRequest where
  settings : RuntimeSettings

/-- How the inner loop ends: connected, or with an error and the status that it came with. -/
abbrev Connection := Except (AppError × Option StatusCode) PreparedWebSocket

section Connecting

variable [UuidText] [StatusReason] [WebSocketClient] (config : ProxyConfig) (crypto : TokenCrypto)
  (context : ConnectContext) (answers : ConnectAnswers)

omit [UuidText] in
/-- The end of the inner loop on an answer, `src/websocket.rs:136` and `152–155`. -/
def connected (selected : SelectedAccount) : Except WebSocketError Headers → Connection
  | .ok headers => .ok ⟨selected, headers⟩
  | .error error => .error (.upstream (websocketErrorMessage error), websocketErrorStatus error)

end Connecting

/-! ### One attempt -/

/-- The writes of an attempt that connected, after it has returned its account. -/
def bindConnected (context : ConnectContext) (accountId : Uuid) (boundAt : Instant) (s : Store) :
    Store :=
  if context.affinities.isEmpty then s
  else (bindAffinitiesAtEpoch context.affinities accountId context.routeEpoch boundAt s).2

/-- An attempt of `select_and_connect`. -/
abbrev ConnectAttempt :=
  Attempted Store SelectedAccount (List AttemptEffect) PreparedWebSocket AppError

/-- The result of a handshake on an account ends an attempt: it is connected, or moves on with the
error. -/
def Concludes [StatusReason] [WebSocketClient] (selected : SelectedAccount)
    (outcome : Try PreparedWebSocket AppError) : Except WebSocketError Headers → Prop
  | .ok headers => outcome = .settled ⟨selected, headers⟩
  | .error error => outcome = .moved none (.upstream (websocketErrorMessage error))

/-- The result of a handshake whose token was rejected. -/
def Rejects (result : Except WebSocketError Headers) : Prop :=
  ∃ error, result = .error error ∧ isAuthError error = true

/-- What comes of a handshake on an account: the network's answer, or the error of a request that
cannot be made. -/
def handshakeResult [WebSocketClient] (context : ConnectContext) (selected : SelectedAccount)
    (answer : Except WebSocketError Headers) : Except WebSocketError Headers :=
  match handshakeRequest context.upstreamBaseUrl selected context.incoming with
  | .error error => .error error
  | .ok _ => answer

/-- How the answers to the handshakes on an account decide an attempt. The first handshake does,
unless its token is rejected; then the tokens are refreshed in a store, and the second handshake
does, or the failed refresh. -/
structure DecidedByHandshakes [UuidText] [StatusReason] [WebSocketClient] (crypto : TokenCrypto)
    (context : ConnectContext) (answers : ConnectAnswers) (selected : SelectedAccount) (s : Store)
    (outcome : Try PreparedWebSocket AppError) : Prop where
  accepted : ¬Rejects (handshakeResult context selected answers.first) →
    Concludes selected outcome (handshakeResult context selected answers.first)
  renewed : Rejects (handshakeResult context selected answers.first) → ∀ renewed t,
    refreshSelected crypto answers.reactive selected s = (.ok renewed, t) →
    Concludes renewed outcome (handshakeResult context renewed answers.retry)
  unrenewed : Rejects (handshakeResult context selected answers.first) → ∀ error t,
    refreshSelected crypto answers.reactive selected s = (.error error, t) →
    outcome = .moved none (.upstream
      ("WebSocket authentication refresh failed: " ++ errorText error))

/-- What one attempt promises: it makes two handshakes at most, the second one after a refresh, and
their answers decide it; it releases its account once; and it penalises it on failure. -/
structure Connects [UuidText] [StatusReason] [WebSocketClient] (config : ProxyConfig)
    (crypto : TokenCrypto) (context : ConnectContext) (answers : Nat → ConnectAnswers)
    (a : ConnectAttempt) : Prop where
  contacts : a.trace.countP AttemptEffect.isContact ≤ 2
  refreshed : RefreshedBetween a.trace
  decided : ∀ account renewed s, maybeRefreshSelected crypto config.tokenRefreshIntervalDays
    (answers a.round).expiryNow (answers a.round).intervalNow (answers a.round).proactive
    a.selected a.before = ((account, renewed), s) →
    DecidedByHandshakes crypto context (answers a.round) account s a.outcome
  releases : releaseCount (a.trace.filterMap AttemptEffect.stream?) = 1
  ended : match a.outcome with
    | .settled prepared => prepared.selected.accountId = a.selected.accountId ∧
        ∃ s, Returns a.selected.accountId a.before s ∧
          a.after = bindConnected context a.selected.accountId (answers a.round).boundAt s
    | .moved fallback _ => fallback = none ∧ Returns a.selected.accountId a.before a.after ∧
        Penalised a.selected.accountId (answers a.round).failedAt a.after

section Attempts

variable [UuidText] [StatusReason] [WebSocketClient] {config : ProxyConfig} {crypto : TokenCrypto}
  {context : ConnectContext} {answers : ConnectAnswers} {accountId : Uuid} {before s : Store}
  {t : AttemptTrace}

end Attempts

end CodexLb.Websocket
