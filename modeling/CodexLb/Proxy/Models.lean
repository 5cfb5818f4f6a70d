import CodexLb.Proxy.Failover
import CodexLb.Proxy.Forwarding
import CodexLb.Proxy.Touched
import CodexLb.Transition.Pool
import CodexLb.Upstream.Polling

/-!
# Listing the models

`proxy_models` and `leased_passthrough_stream`, `src/proxy.rs:975–1144`: the
list of models is asked of one account after another, without a session and
without a log row. The body of the answer is passed on as it comes, and its
stream holds the lease of the account.
-/

namespace CodexLb.Proxy

open Relational Transition

/-! ### The stream of the answer -/

/-- Where the stream is suspended. -/
inductive PassthroughPoint where
  | reading
  | yielding
  | finished
  | dropped
  deriving DecidableEq

/-- The variables of `leased_passthrough_stream`, where it is, what the client has and what was
done. -/
structure PassthroughState where
  unread : List (List UInt8)
  failure : Option String
  lease : Option AccountLease
  point : PassthroughPoint
  delivered : List (List UInt8)
  effects : List StreamEffect

namespace PassthroughState

/-- A stream before its first poll, `src/proxy.rs:1127–1128`. -/
def start (body : StreamBody) : PassthroughState :=
  ⟨body.chunks, body.failure, some .new, .reading, [], []⟩

/-- `lease.take()` and `lease.release()`, `src/proxy.rs:1133–1135` and `1140–1142`. -/
def releaseLease (s : PassthroughState) : List StreamEffect :=
  match s.lease with
  | some lease => lease.release
  | none => []

/-- The end of the body, `src/proxy.rs:1132–1142`: an error is given to the client after the
release. -/
def readEnd (s : PassthroughState) : PassthroughState :=
  { s with
    lease := none
    point := .finished
    effects := s.effects ++ s.releaseLease ++ match s.failure with
      | some message => [.failed message]
      | none => [] }

/-- The stream runs from one point to the next, `src/proxy.rs:1129–1143`. -/
def advance (s : PassthroughState) : PassthroughState :=
  match s.point with
  | .reading =>
    match s.unread with
    | bytes :: rest =>
      { s with unread := rest, point := .yielding, delivered := s.delivered ++ [bytes] }
    | [] => s.readEnd
  | .yielding => { s with point := .reading }
  | .finished | .dropped => s

/-- The stream is dropped where it is suspended. -/
def drop (s : PassthroughState) : PassthroughState :=
  { s with
    point := .dropped
    lease := none
    effects := s.effects ++ match s.lease with
      | some lease => lease.drop
      | none => [] }

/-- A stream that has finished or been dropped. -/
def closed (s : PassthroughState) : Bool := s.point == .finished || s.point == .dropped

/-- A stream that is suspended is polled, or dropped. -/
def Step (s : PassthroughState) (dropped : Bool) (t : PassthroughState) : Prop :=
  s.closed = false ∧ t = if dropped then s.drop else s.advance

/-- What is unread follows what was delivered, and the lease is released once at the end. -/
structure Holds (body : StreamBody) (s : PassthroughState) : Prop where
  failure : s.failure = body.failure
  chunks : s.delivered ++ s.unread = body.chunks
  held : s.closed = false → s.lease = some .new ∧ s.effects = []
  released : s.closed = true → releaseCount s.effects = 1
  complete : s.point = .finished → s.unread = [] ∧
    s.effects = .released :: match body.failure with
      | some message => [.failed message]
      | none => []

/-- One step of a stream. -/
theorem Holds.step {body : StreamBody} {s t : PassthroughState} {dropped : Bool}
    (h : s.Holds body) (hstep : s.Step dropped t) : t.Holds body := by
  obtain ⟨hopen, ht⟩ := hstep
  obtain ⟨hlease, heffects⟩ := h.held hopen
  cases dropped with
  | true =>
    have hreleased : t.effects = [.released] := by
      rw [ht]
      show s.effects ++ _ = _
      rw [heffects, hlease]
      rfl
    subst ht
    exact ⟨h.failure, h.chunks, (fun hc ↦ by cases hc), (fun _ ↦ by rw [hreleased]; rfl),
      fun hp ↦ by cases hp⟩
  | false =>
    rw [if_neg (by decide)] at ht
    unfold advance at ht
    split at ht
    · split at ht
      · next bytes rest hunread =>
        subst ht
        refine ⟨h.failure, ?_, fun _ ↦ ⟨hlease, heffects⟩, (fun hc ↦ by cases hc),
          fun hp ↦ by cases hp⟩
        rw [← h.chunks, hunread, List.append_assoc]
        rfl
      · next hunread =>
        have hended : t.effects = .released :: match body.failure with
            | some message => [.failed message]
            | none => [] := by
          rw [ht, ← h.failure]
          unfold readEnd releaseLease
          dsimp only
          rw [heffects, hlease]
          rfl
        subst ht
        refine ⟨h.failure, h.chunks, (fun hc ↦ by cases hc), fun _ ↦ ?_,
          fun _ ↦ ⟨hunread, hended⟩⟩
        rw [hended]
        cases body.failure <;> rfl
    · subst ht
      exact ⟨h.failure, h.chunks, fun _ ↦ ⟨hlease, heffects⟩, (fun hc ↦ by cases hc),
        fun hp ↦ by cases hp⟩
    · next hpoint =>
      rw [closed, hpoint] at hopen
      cases hopen
    · next hpoint =>
      rw [closed, hpoint] at hopen
      cases hopen

end PassthroughState

/-! ### The loop -/

/-- What an attempt gets from outside, in the order in which it asks. -/
structure ModelsAnswers where
  /-- The spawned releases that run before the selection, each at its clock reading. -/
  released : List (Uuid × Instant)
  selectedAt : Clock
  acquiredAt : Clock
  expiryNow : Instant
  intervalNow : Instant
  /-- The refresh before the request, if it is due. -/
  proactive : TokenExchange
  /-- The error of a request that cannot be built. -/
  unbuilt : String
  first : Except String UpstreamResponse
  /-- The refresh after an auth response. -/
  reactive : TokenExchange
  retry : Except String UpstreamResponse
  /-- When the account is cooled down. -/
  failedAt : Instant

/-- What the client is given. -/
inductive ModelsResponse where
  /-- A response whose body is a stream that holds the lease. -/
  | streamed (status : Nat) (headers : Headers) (stream : PassthroughState)
  | buffered (response : BufferedUpstream)

/-- The request of the client. -/
structure ModelsRequest where
  upstreamBaseUrl : String
  requestId : String
  headers : Headers
  rawQuery : Option String

/-- The variables of the loop body that its branches read. -/
structure ModelsContext extends ModelsRequest where
  settings : RuntimeSettings
  accountId : Uuid
  answers : ModelsAnswers

/-- The store, and the releases that were spawned and have not run. -/
structure ModelsState where
  store : Store
  spawned : List Uuid

/-- Some of the spawned releases run. -/
def ModelsState.runReleases (v : ModelsState) (released : List (Uuid × Instant)) : ModelsState :=
  released.foldl (fun v release ↦
    if v.spawned.contains release.1 then
      ⟨(releaseAccount release.1 release.2 v.store).2, v.spawned.erase release.1⟩
    else v) v

/-- How an attempt ends: the client is answered, or the loop moves on. -/
abbrev ModelsOutcome := Try ModelsResponse AppError

namespace ModelsContext

/-- `send_models`, `src/proxy.rs:1103–1120`: the network answers a request that could be built. -/
def sendModels (context : ModelsContext) (selected : SelectedAccount)
    (answer : Except String UpstreamResponse) :
    List AttemptEffect × Except String UpstreamResponse :=
  match buildUpstreamModelsRequest context.upstreamBaseUrl selected context.requestId
      context.headers context.rawQuery with
  | none => ([], .error context.answers.unbuilt)
  | some _ => ([.contacted selected.tokens.accessToken], answer)

/-- What the branches of a failed attempt share: the penalty, if there is one, and the release. -/
def fail (context : ModelsContext) (penalty : Option Penalty) (t : AttemptTrace) : AttemptTrace :=
  let s := match penalty with
    | some penalty => penalty.apply context.accountId context.answers.failedAt t.store
    | none => t.store
  ⟨s, t.effects ++ AccountLease.new.release.map .stream⟩

/-- A response after the auth refresh, by its status; `src/proxy.rs:1063–1095`. -/
def settle [StatusReason] (context : ModelsContext) (response : UpstreamResponse)
    (t : AttemptTrace) : ModelsOutcome × AttemptTrace :=
  let status := response.status
  if isRetryable status then
    let buffered := BufferedUpstream.fromResponse response
    let penalty := if isAuthStatus status then .authFailed buffered.message
      else
        let cooldown := if status = 429 then context.settings.rateLimitCooldownSeconds else 10
        .cooldown cooldown "models request failed"
    let reason := (StatusReason.canonicalReason status).getD "<unknown status code>"
    (.moved (some (.buffered buffered)) (.upstream
        ("upstream models request returned " ++ toString status ++ " " ++ reason)),
      context.fail (some penalty) { t with effects := t.effects ++ [.buffered buffered] })
  else
    (.settled (.streamed status (forwardedResponseHeaders response.headers)
      (.start response.body)), t)

variable [UuidText] [StatusReason] (crypto : TokenCrypto)

/-- The attempt after the selection and the refresh that was due, `src/proxy.rs:1014–1095`. -/
def contact (context : ModelsContext) (selected : SelectedAccount) (t : AttemptTrace) :
    ModelsOutcome × AttemptTrace :=
  let (contacts, first) := context.sendModels selected context.answers.first
  let t : AttemptTrace := { t with effects := t.effects ++ contacts }
  match first with
  | .error message =>
    (.moved none (.upstream message),
      context.fail (some (.cooldown 10 "models request failed")) t)
  | .ok response =>
    if isAuthStatus response.status then
      let auth := BufferedUpstream.fromResponse response
      match refreshSelected crypto context.answers.reactive selected t.store with
      | (.ok selected, s) =>
        let (contacts, retry) := context.sendModels selected context.answers.retry
        let t : AttemptTrace := ⟨s, t.effects ++ .buffered auth :: .refreshed :: contacts⟩
        match retry with
        -- the account is neither cooled down nor marked here
        | .error message => (.moved none (.upstream message), context.fail none t)
        | .ok response => context.settle response t
      | (.error error, s) =>
        let message := "model-list token refresh failed: " ++ errorText error
        (.moved (some (.buffered auth)) (.upstream message),
          context.fail (some (.authFailed message)) ⟨s, t.effects ++ [.buffered auth]⟩)
    else context.settle response t

end ModelsContext

section Loop

variable [UuidText] [StatusReason] (config : ProxyConfig) (crypto : TokenCrypto)
  (request : ModelsRequest) (settings : RuntimeSettings) (answers : Nat → ModelsAnswers)

end Loop

end CodexLb.Proxy
