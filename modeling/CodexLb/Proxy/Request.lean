import CodexLb.Db.Bind
import CodexLb.Proxy.Delivered
import CodexLb.Proxy.Response
import CodexLb.Proxy.Selected
import CodexLb.Transition.Failover

/-!
# One proxied request

`proxy_request`, `src/proxy.rs:67–335`: an attempt on a selected account, its
ends, and the loop that fails over from one account to the next. The upstream,
the token endpoint and the clock answer from outside. A spawned release runs
at some point before a later selection, or after the request.
-/

namespace CodexLb.Proxy

open Relational Transition

/-- The `Display` of `AppError`, `src/error.rs:5–21`. -/
def errorText : AppError → String
  | .badRequest message => "bad request: " ++ message
  | .unauthorized message => "unauthorized: " ++ message
  | .notFound message => "not found: " ++ message
  | .unavailable message => "temporarily unavailable: " ++ message
  | .upstream message => "upstream error: " ++ message
  | .database message => "database error: " ++ message
  | .internal message => "internal error: " ++ message

/-- `proxy_attempts`, `src/proxy.rs:358–364`. -/
def proxyAttempts (activeCount maxAttempts : Nat) : Nat :=
  if activeCount = 0 then 1 else min activeCount (max maxAttempts 1)

/-- `Config`, the fields that a request reads. -/
structure ProxyConfig where
  usageRefreshInterval : Nat
  tokenRefreshIntervalDays : Int

/-- What an authorized request is read as, `src/proxy.rs:73–76`. -/
structure ProxyRequest where
  requestId : String
  model : Option String
  affinities : List SessionRouteKey

/-- What an attempt gets from outside, in the order in which it asks. -/
structure AttemptAnswers where
  /-- The spawned releases that run before the selection, each at its clock reading. -/
  released : List (Uuid × Instant)
  selectedAt : Clock
  acquiredAt : Clock
  expiryNow : Instant
  intervalNow : Instant
  /-- The refresh before the request, if it is due. -/
  proactive : TokenExchange
  first : Except String UpstreamResponse
  /-- The refresh after an auth response. -/
  reactive : TokenExchange
  retry : Except String UpstreamResponse
  /-- When the account is cooled down, and when the log row is inserted. -/
  failedAt : Instant
  loggedAt : Instant
  /-- The milliseconds since the first send. -/
  elapsed : Nat
  boundAt : Instant

/-- What an attempt does, in order. -/
inductive AttemptEffect where
  /-- `send_upstream` was called with an access token. -/
  | contacted (accessToken : String)
  /-- `refresh_selected` succeeded. -/
  | refreshed
  /-- A response was read to its end. -/
  | buffered (response : BufferedUpstream)
  /-- A bind, a log row or the release of the lease. -/
  | stream (effect : StreamEffect)

/-- The part of an effect that a stream can have too. -/
def AttemptEffect.stream? : AttemptEffect → Option StreamEffect
  | .stream effect => some effect
  | _ => none

/-- What the client is given. -/
inductive ProxyResponse where
  /-- A success response, whose body is a stream that holds the lease. -/
  | streamed (status : Nat) (headers : Headers) (context : StreamLogContext) (stream : StreamState)
  | buffered (response : BufferedUpstream)

/-- The store and what an attempt has done so far. -/
structure AttemptTrace where
  store : Store
  effects : List AttemptEffect

/-- How a failed attempt marks its account. -/
inductive Penalty where
  | cooldown (seconds : Int) (reason : String)
  | authFailed (reason : String)

/-- `cooldown_account` or `mark_auth_failed`, whose result is ignored. -/
def Penalty.apply (penalty : Penalty) (accountId : Uuid) (now : Instant) (s : Store) : Store :=
  match penalty with
  | .cooldown seconds reason => (cooldownAccount accountId seconds reason now s).2
  | .authFailed reason => (markAuthFailed accountId reason s).2

/-- The variables of the loop body that its branches read. -/
structure AttemptContext extends ProxyRequest where
  routeEpoch : Option SessionRouteEpoch
  settings : RuntimeSettings
  accountId : Uuid
  selectionReason : SelectionReason
  answers : AttemptAnswers

/-! ### The ends of an attempt -/

/-- How an attempt ends: the client is answered, or the loop moves on. -/
abbrev AttemptOutcome := Try ProxyResponse AppError

namespace AttemptContext

/-- The row of `RequestOutcome::error`, `src/proxy.rs:512–550`. -/
def errorEntry (context : AttemptContext) (code message : String) : RequestLogEntry where
  requestId := context.requestId
  accountId := some context.accountId
  model := context.model
  status := "error"
  selectionReason := some context.selectionReason
  errorCode := some code
  errorMessage := some message
  usage := .none
  latencyMs := some (latencyMillis context.answers.elapsed)

/-- `log_request` with an error outcome; a row that cannot be inserted is warned about. -/
def logRequest (context : AttemptContext) (code message : String) (s : Store) :
    List StreamEffect × Store :=
  match insertRequestLog context.requestId (some context.accountId) context.answers.loggedAt s with
  | (.ok (), s) => ([.logged (context.errorEntry code message)], s)
  | (.error _, s) => ([], s)

/-- What the branches of a failed attempt share: the penalty, the log row and the release, as in
`src/proxy.rs:119–134`. -/
def fail (context : AttemptContext) (penalty : Option Penalty) (code message : String)
    (t : AttemptTrace) : AttemptTrace :=
  let s := match penalty with
    | some penalty => penalty.apply context.accountId context.answers.failedAt t.store
    | none => t.store
  let (logged, s) := context.logRequest code message s
  ⟨s, t.effects ++ (logged ++ AccountLease.new.release).map .stream⟩

/-- `StreamLogContext`, `src/proxy.rs:316–324`. -/
def streamContext (context : AttemptContext) (eventStream : Bool) : StreamLogContext where
  accountId := context.accountId
  requestId := context.requestId
  model := context.model
  selectionReason := context.selectionReason
  eventStream := eventStream
  affinities := context.affinities
  routeEpoch := context.routeEpoch

/-- `bind_affinities`, `src/proxy.rs:308–310`, whose result is ignored. -/
def bindAffinities (context : AttemptContext) (t : AttemptTrace) : AttemptTrace :=
  if context.affinities.isEmpty then t
  else
    let (outcome, s) := bindAffinitiesAtEpoch context.affinities context.accountId
      context.routeEpoch context.answers.boundAt t.store
    ⟨s, t.effects ++ [.stream (.bound context.affinities context.routeEpoch outcome)]⟩

/-- A response after the auth refresh, by its status; `src/proxy.rs:214–328`. -/
def settle (context : AttemptContext) (response : UpstreamResponse) (t : AttemptTrace) :
    AttemptOutcome × AttemptTrace :=
  let status := response.status
  let buffered := BufferedUpstream.fromResponse response
  let message := buffered.message
  let read : AttemptTrace := { t with effects := t.effects ++ [.buffered buffered] }
  if isAuthStatus status then
    (.moved (some (.buffered buffered)) (.upstream "selected account auth failed"),
      context.fail (some (.authFailed message)) "auth_failed" message read)
  else if status = 429 then
    let cooldown := retryAfterSeconds response.headers context.settings.rateLimitCooldownSeconds
    (.moved (some (.buffered buffered)) (.upstream "all selected accounts were rate limited"),
      context.fail (some (.cooldown cooldown "upstream rate limited")) "rate_limited" message read)
  else if isServerError status then
    (.moved (some (.buffered buffered)) (.upstream message),
      context.fail (some (.cooldown 10 "transient upstream error")) "upstream_server_error" message
        read)
  else if !isSuccess status then
    (.settled (.buffered buffered), context.fail none "upstream_error" message read)
  else
    (.settled (.streamed status (forwardedResponseHeaders response.headers)
      (context.streamContext (isEventStream response.headers)) (.start response.body)),
      context.bindAffinities t)

end AttemptContext

/-! ### One attempt -/

section Attempts

variable [UuidText] (config : ProxyConfig) (crypto : TokenCrypto)

/-- The attempt after the selection and the refresh that was due, `src/proxy.rs:99–328`. -/
def AttemptContext.contact (context : AttemptContext) (selected : SelectedAccount)
    (t : AttemptTrace) : AttemptOutcome × AttemptTrace :=
  let t : AttemptTrace :=
    { t with effects := t.effects ++ [.contacted selected.tokens.accessToken] }
  match context.answers.first with
  | .error message =>
    (.moved none (.upstream message),
      context.fail (some (.cooldown 10 "upstream request failed")) "upstream_request_failed" message
        t)
  | .ok response =>
    -- Access tokens can expire before the scheduled refresh: one refresh, then the same account.
    if isAuthStatus response.status then
      let first := BufferedUpstream.fromResponse response
      match refreshSelected crypto context.answers.reactive selected t.store with
      | (.ok selected, s) =>
        let t : AttemptTrace := ⟨s, t.effects ++
          [.buffered first, .refreshed, .contacted selected.tokens.accessToken]⟩
        match context.answers.retry with
        | .error message =>
          (.moved none (.upstream message),
            context.fail (some (.cooldown 10 "upstream retry failed")) "upstream_retry_failed"
              message t)
        | .ok response => context.settle response t
      | (.error error, s) =>
        let message :=
          "token refresh failed: " ++ errorText error ++ "; upstream: " ++ first.message
        (.moved (some (.buffered first)) (.upstream message),
          context.fail (some (.authFailed message)) "auth_refresh_failed" message
            ⟨s, t.effects ++ [.buffered first]⟩)
    else context.settle response t

/-- An attempt on a selected account, from its selection to its end. -/
structure Attempt where
  accountId : Uuid
  requestId : String
  answers : AttemptAnswers
  /-- The store when the account has been selected. -/
  before : Store
  outcome : AttemptOutcome
  trace : AttemptTrace

omit [UuidText] in
/-- The binds, log rows and releases of an attempt, in order. -/
def Attempt.streamEffects (a : Attempt) : List StreamEffect :=
  a.trace.effects.filterMap AttemptEffect.stream?

omit [UuidText] in
/-- How often the lease of an attempt was released. -/
def Attempt.releases (a : Attempt) : Nat := releaseCount a.streamEffects

/-- The body of the loop after the selection, `src/proxy.rs:94–328`. -/
def attempt (context : AttemptContext) (selected : SelectedAccount) (s : Store) : Attempt :=
  let ((refreshed, renewed), t) := maybeRefreshSelected crypto config.tokenRefreshIntervalDays
    context.answers.expiryNow context.answers.intervalNow context.answers.proactive selected s
  let (outcome, trace) := context.contact crypto refreshed
    ⟨t, if renewed then [.refreshed] else []⟩
  ⟨context.accountId, context.requestId, context.answers, s, outcome, trace⟩

/-! ### The loop -/

/-- The variables of the loop, with the releases that were spawned and have not run, and the
attempts so far. -/
structure FailoverState where
  store : Store
  spawned : List Uuid
  excluded : List Uuid
  remembered : Remembered ProxyResponse AppError
  attempts : List Attempt

/-- What `proxy_request` returns, what it leaves and the attempts it made; `ended` is the error
that ended the loop, or kept it from starting. -/
structure ProxyRun where
  result : Except AppError ProxyResponse
  store : Store
  spawned : List Uuid
  attempts : List Attempt
  ended : AppError

omit [UuidText] in
/-- Some of the spawned releases run. -/
def FailoverState.runReleases (v : FailoverState) (released : List (Uuid × Instant)) :
    FailoverState :=
  released.foldl (fun v release ↦
    if v.spawned.contains release.1 then
      { v with
        store := (releaseAccount release.1 release.2 v.store).2
        spawned := v.spawned.erase release.1 }
    else v) v

omit [UuidText] in
/-- The answer when no attempt settled the request, `src/proxy.rs:331–335`. -/
def FailoverState.giveUp (v : FailoverState) (ended : AppError) : ProxyRun :=
  ⟨v.remembered.giveUp ended, v.store, v.spawned, v.attempts, ended⟩

omit [UuidText] in
/-- `src/proxy.rs:334`. -/
def noAccountError : AppError := .unavailable "no account could handle request"

omit [UuidText] in
/-- An attempt has ended, `src/proxy.rs:135–137` and the like; the releases that it spawned are
still to run. -/
def FailoverState.record (v : FailoverState) (a : Attempt) : ProxyRun ⊕ FailoverState :=
  let spawned := List.replicate a.releases a.accountId ++ v.spawned
  let attempts := v.attempts ++ [a]
  match a.outcome with
  | .settled response => .inl ⟨.ok response, a.trace.store, spawned, attempts, noAccountError⟩
  | .moved fallback error =>
    .inr ⟨a.trace.store, spawned, a.accountId :: v.excluded, v.remembered.record fallback error,
      attempts⟩

/-- One round of the loop, `src/proxy.rs:85–329`. -/
def failoverRound (request : ProxyRequest) (settings : RuntimeSettings)
    (routeEpoch : Option SessionRouteEpoch) (answers : Nat → AttemptAnswers) (k : Nat)
    (v : FailoverState) : ProxyRun ⊕ FailoverState :=
  let v := v.runReleases (answers k).released
  match selectAccountForRequest crypto (selectionAffinity request.affinities routeEpoch)
      v.excluded settings config.usageRefreshInterval (answers k).selectedAt (answers k).acquiredAt
      v.store with
  | (.error error, s) =>
    -- with an exclusion the error stands in for a missing one only, and the loop is left
    if v.excluded.isEmpty then .inl ⟨.error error, s, v.spawned, v.attempts, error⟩
    else .inl ({ v with store := s }.giveUp error)
  | (.ok selected, s) =>
    let context : AttemptContext :=
      ⟨request, routeEpoch, settings, selected.accountId, selected.selectionReason, answers k⟩
    v.record (attempt config crypto context selected s)

/-- `proxy_request`, `src/proxy.rs:67–335`. -/
def proxyRequest (request : ProxyRequest) (settings : RuntimeSettings)
    (answers : Nat → AttemptAnswers) (s : Store) : ProxyRun :=
  match resolveSessionRouteEpoch request.affinities s with
  | .error error => ⟨.error error, s, [], [], error⟩
  | .ok routeEpoch =>
    let attempts := proxyAttempts (accountCount s) settings.proxyMaxAttempts
    rounds (failoverRound config crypto request settings routeEpoch answers)
      (FailoverState.giveUp · noAccountError) attempts 0 ⟨s, [], [], .nothing, []⟩

end Attempts

end CodexLb.Proxy
