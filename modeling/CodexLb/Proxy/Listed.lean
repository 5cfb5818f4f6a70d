import CodexLb.Proxy.Models

/-!
# The models are listed

The loop of `proxy_models` as a failover through the pool of accounts. Every
attempt that moves on spawns the release of its account, and a streamed answer
holds its account until the stream has ended. An account that fails is marked
or cooled down, but not if its request failed after a refresh.
-/

namespace CodexLb.Proxy

open Relational Transition

/-- An attempt of `proxy_models`. -/
abbrev ModelsAttempt :=
  Attempted ModelsState SelectedAccount (List AttemptEffect) ModelsResponse AppError

/-- How an attempt on an account ends: with a stream that holds the account, or with its release,
and then with a penalty unless its request could not be sent after a refresh. -/
def EndsAttempt (accountId : Uuid) (failedAt : Instant) (trace : List AttemptEffect) (s : Store) :
    ModelsOutcome → Prop
  | .settled (.streamed status _ stream) =>
    isRetryable status = false ∧ ∃ body, stream = .start body
  | .settled (.buffered _) => False
  | .moved fallback _ =>
    (∀ response, fallback = some response →
      ∃ buffered, response = .buffered buffered ∧ isRetryable buffered.status = true) ∧
    (Penalised accountId failedAt s ∨ fallback = none ∧ .refreshed ∈ trace)

/-- The result of a request ends an attempt: it moves on with the error of a transport, or with a
retryable response to fall back on; every other response is streamed to the client as it comes. -/
def ConcludesModels (outcome : ModelsOutcome) : Except String UpstreamResponse → Prop
  | .error message => outcome = .moved none (.upstream message)
  | .ok response =>
    if isRetryable response.status then
      ∃ message, outcome = .moved (some (.buffered (.fromResponse response))) (.upstream message)
    else outcome = .settled (.streamed response.status (forwardedResponseHeaders response.headers)
      (.start response.body))

/-- The result of a request whose token was rejected. -/
def RejectsToken (result : Except String UpstreamResponse) (response : UpstreamResponse) : Prop :=
  result = .ok response ∧ isAuthStatus response.status = true

/-- What comes of a request for an account: the answer of the network, or the error of a request
that cannot be built. -/
def modelsResult (context : ModelsContext) (selected : SelectedAccount)
    (answer : Except String UpstreamResponse) : Except String UpstreamResponse :=
  if (buildUpstreamModelsRequest context.upstreamBaseUrl selected context.requestId context.headers
      context.rawQuery).isSome then answer
  else .error context.answers.unbuilt

/-- How the responses to the requests for an account decide an attempt. The first one does, unless
its token is rejected; then the tokens are refreshed in a store, and the second one does, or the
failed refresh. -/
structure DecidedByResponses [UuidText] (crypto : TokenCrypto) (context : ModelsContext)
    (selected : SelectedAccount) (s : Store) (outcome : ModelsOutcome) : Prop where
  accepted : (∀ response, ¬RejectsToken (modelsResult context selected context.answers.first)
      response) →
    ConcludesModels outcome (modelsResult context selected context.answers.first)
  renewed : ∀ response,
    RejectsToken (modelsResult context selected context.answers.first) response → ∀ renewed t,
    refreshSelected crypto context.answers.reactive selected s = (.ok renewed, t) →
    ConcludesModels outcome (modelsResult context renewed context.answers.retry)
  unrenewed : ∀ response,
    RejectsToken (modelsResult context selected context.answers.first) response → ∀ error t,
    refreshSelected crypto context.answers.reactive selected s = (.error error, t) →
    outcome = .moved (some (.buffered (.fromResponse response)))
      (.upstream ("model-list token refresh failed: " ++ errorText error))

/-- What one attempt promises. -/
structure Lists [UuidText] (config : ProxyConfig) (crypto : TokenCrypto) (request : ModelsRequest)
    (settings : RuntimeSettings) (answers : Nat → ModelsAnswers) (a : ModelsAttempt) : Prop where
  contacts : a.trace.countP AttemptEffect.isContact ≤ 2
  refreshed : RefreshedBetween a.trace
  decided : ∀ account renewed s, maybeRefreshSelected crypto config.tokenRefreshIntervalDays
    (answers a.round).expiryNow (answers a.round).intervalNow (answers a.round).proactive
    a.selected a.before.store = ((account, renewed), s) →
    DecidedByResponses crypto ⟨request, settings, a.selected.accountId, answers a.round⟩ account s
      a.outcome
  touches : Touches a.selected.accountId 0 a.before.store a.after.store
  spawned : a.after.spawned =
    if a.outcome.answer?.isSome then a.before.spawned
    else a.selected.accountId :: a.before.spawned
  ended : EndsAttempt a.selected.accountId (answers a.round).failedAt a.trace a.after.store
    a.outcome

/-! ### One attempt -/

section Attempts

variable {context : ModelsContext} {before : Store} {t : AttemptTrace} {n : Nat}

/-- The end of an attempt on what it has done before. -/
structure ModelsContext.Ended (context : ModelsContext) (before : Store)
    (ending : ModelsOutcome × AttemptTrace) : Prop where
  contacting : ∃ t, Contacting context.accountId before 2 t ∧
    ending.2.effects = t.effects ++
      (if ending.1.answer?.isSome then ([] : List StreamEffect) else [.released]).map .stream
  touches : Touches context.accountId 0 before ending.2.store
  ended : EndsAttempt context.accountId context.answers.failedAt ending.2.effects ending.2.store
    ending.1

namespace ModelsContext

private theorem fail_ended (h : Contacting context.accountId before 2 t)
    (hstored : before.accounts.has context.accountId = true) {penalty : Penalty}
    (hlasting : penalty.Lasting) {fallback : Option ModelsResponse}
    (hfallback : ∀ response, fallback = some response →
      ∃ buffered, response = .buffered buffered ∧ isRetryable buffered.status = true)
    (error : AppError) :
    context.Ended before (.moved fallback error, context.fail (some penalty) t) where
  contacting := ⟨t, h, rfl⟩
  touches := h.touches.trans_zero (.penalty penalty _ _ t.store)
  ended := ⟨hfallback, .inl (Penalty.apply_penalised hlasting _
    ((h.touches.has _).trans hstored))⟩

private theorem retry_ended (h : Contacting context.accountId before 2 t)
    (hrefreshed : .refreshed ∈ t.effects) (error : AppError) :
    context.Ended before (.moved none error, context.fail none t) where
  contacting := ⟨t, h, rfl⟩
  touches := h.touches
  ended := ⟨(fun _ hr ↦ by cases hr), .inr ⟨rfl, List.mem_append_left _ hrefreshed⟩⟩

private theorem settle_ended [StatusReason] (h : Contacting context.accountId before 2 t)
    (hstored : before.accounts.has context.accountId = true)
    (hcooldown : 1 ≤ context.settings.rateLimitCooldownSeconds) (response : UpstreamResponse) :
    context.Ended before (context.settle response t) := by
  unfold settle
  dsimp only
  split
  · next hretryable =>
    have hread := h.append (.refl _ t.store) [.buffered (.fromResponse response)]
      (fun free ↦ ⟨free, rfl⟩) rfl rfl
    refine fail_ended hread hstored ?_ (fun found hfound ↦ ?_) _
    · split
      · exact .authFailed _
      · refine .cooldown _ ?_
        split
        · exact hcooldown
        · decide
    · cases hfound
      exact ⟨_, rfl, hretryable⟩
  · next hfinal =>
    exact
      { contacting := ⟨t, h, (List.append_nil _).symm⟩
        touches := h.touches
        ended := ⟨by simpa using hfinal, _, rfl⟩ }

private theorem sendModels_sends (context : ModelsContext) (selected : SelectedAccount)
    (answer : Except String UpstreamResponse) : Sends (context.sendModels selected answer).1 := by
  unfold sendModels
  split
  · exact .inl rfl
  · exact .inr ⟨_, rfl⟩

variable [UuidText] [StatusReason] {crypto : TokenCrypto}

/-- Every answer of the upstream and of the token endpoint ends the attempt. -/
theorem contact_ended (crypto : TokenCrypto) (context : ModelsContext)
    {answer : Option BufferedUpstream} {selected : SelectedAccount}
    (haccount : selected.accountId = context.accountId)
    (h : Underway context.accountId before 0 true answer t)
    (hstored : before.accounts.has context.accountId = true)
    (hcooldown : 1 ≤ context.settings.rateLimitCooldownSeconds) :
    context.Ended before (context.contact crypto selected t) := by
  have honce := Contacting.first h (sendModels_sends context selected context.answers.first)
  have htwice := honce.mono (Nat.le_succ 1)
  unfold contact
  dsimp only
  split
  · exact fail_ended htwice hstored (.cooldown _ (by decide)) (fun _ hr ↦ by cases hr) _
  · next response _ =>
    split
    · next hauth =>
      have htouches := Touches.refreshSelected crypto context.answers.reactive selected t.store
      rw [haccount] at htouches
      split
      · next renewed s hrefresh =>
        rw [hrefresh] at htouches
        have hagain := honce.again htouches [.buffered (.fromResponse response), .refreshed]
          (fun _ ↦ rfl) rfl rfl (sendModels_sends context renewed context.answers.retry)
        split
        · exact retry_ended hagain (by simp) _
        · exact settle_ended hagain hstored hcooldown _
      · next error s hrefresh =>
        rw [hrefresh] at htouches
        have hread := htwice.append htouches [.buffered (.fromResponse response)]
          (fun free ↦ ⟨free, rfl⟩) rfl rfl
        have hretryable : isRetryable response.status = true := by simp [isRetryable, hauth]
        refine fail_ended hread hstored (.authFailed _) (fun found hfound ↦ ?_) _
        cases hfound
        exact ⟨_, rfl, hretryable⟩
    · exact settle_ended htwice hstored hcooldown response

end ModelsContext

variable [UuidText] [StatusReason] {config : ProxyConfig} {crypto : TokenCrypto}
  {request : ModelsRequest} {settings : RuntimeSettings} {answers : Nat → ModelsAnswers}

end Attempts

/-! ### The loop -/

/-- The account of a stream that an attempt has handed to the client. -/
def heldAccount (attempts : List ModelsAttempt) : Option Uuid :=
  (attempts.find? fun a ↦ a.outcome.answer?.isSome).map fun a ↦ a.selected.accountId

/-- The reservations that are still to be released: those whose releases were spawned, and the one
of the stream. -/
def reserved (attempts : List ModelsAttempt) (v : ModelsState) (id : Uuid) : Nat :=
  v.spawned.count id + if heldAccount attempts = some id then 1 else 0

/-- A state after attempts on a store: every attempt kept what it promises, the accounts that
failed are penalised but for those that failed after a refresh, every reservation is to be
released, and nothing but accounts was written. -/
structure Listed [UuidText] (config : ProxyConfig) (crypto : TokenCrypto)
    (request : ModelsRequest) (settings : RuntimeSettings) (answers : Nat → ModelsAnswers)
    (s : Store) (attempts : List ModelsAttempt) (v : ModelsState) : Prop where
  frame : v.store = { s with
    accounts := v.store.accounts, accountRuntimeState := v.store.accountRuntimeState }
  has : ∀ id, v.store.accounts.has id = s.accounts.has id
  lists : ∀ a ∈ attempts, Lists config crypto request settings answers a
  penalised : ∀ a ∈ attempts, a.outcome.answer? = none → .refreshed ∉ a.trace →
    Penalised a.selected.accountId (answers a.round).failedAt v.store
  balanced : ∀ id, 0 ≤ s.inflight id →
    v.store.inflight id = s.inflight id + reserved attempts v id

section Loop

variable [UuidText] {config : ProxyConfig} {crypto : TokenCrypto} {request : ModelsRequest}
  {settings : RuntimeSettings} {answers : Nat → ModelsAnswers} {s : Store}
  {attempts : List ModelsAttempt} {v : ModelsState}

/-- A spawned release runs. -/
theorem Listed.release (h : Listed config crypto request settings answers s attempts v)
    {id : Uuid} (hspawned : id ∈ v.spawned) (now : Instant) :
    Listed config crypto request settings answers s attempts
      ⟨(releaseAccount id now v.store).2, v.spawned.erase id⟩ where
  frame := by
    have hframe : (releaseAccount id now v.store).2 = { v.store with
        accountRuntimeState := (releaseAccount id now v.store).2.accountRuntimeState } := rfl
    rw [hframe, h.frame]
  has := h.has
  lists := h.lists
  penalised a ha houtcome hunrefreshed :=
    Touches.penalised_updateRuntime (h.penalised a ha houtcome hunrefreshed) fun _ ↦ rfl
  balanced other hcount := by
    have hbefore := h.balanced other hcount
    show (releaseAccountInner id true now v.store).2.inflight other = _
    rw [inflight_releaseAccountInner]
    unfold reserved at hbefore ⊢
    dsimp only
    by_cases he : other = id
    · have hpositive := List.count_pos_iff.mpr hspawned
      rw [if_pos he, he, List.count_erase_self]
      rw [he] at hbefore hcount
      omega
    · rw [if_neg he, List.count_erase_of_ne he]
      exact hbefore

/-- Some spawned releases run. -/
theorem Listed.runReleases (h : Listed config crypto request settings answers s attempts v)
    (released : List (Uuid × Instant)) :
    Listed config crypto request settings answers s attempts (v.runReleases released) := by
  unfold ModelsState.runReleases
  induction released generalizing v with
  | nil => exact h
  | cons release released ih =>
    rw [List.foldl_cons]
    apply ih
    split
    · next hspawned => exact h.release (by simpa using hspawned) release.2
    · exact h

/-- One more attempt, on an account that was not tried yet. -/
theorem Listed.tried (h : Listed config crypto request settings answers s attempts v)
    (hmoved : (attempts.map Attempted.outcome).findSome? Try.answer? = none) {a : ModelsAttempt}
    (hfresh : ∀ b ∈ attempts, b.selected.accountId ≠ a.selected.accountId)
    (hselected : Touches a.selected.accountId 1 v.store a.before.store)
    (hspawned : a.before.spawned = v.spawned)
    (hlists : Lists config crypto request settings answers a) :
    Listed config crypto request settings answers s (attempts ++ [a]) a.after := by
  have hnone : attempts.find? (fun a ↦ a.outcome.answer?.isSome) = none := by
    rw [List.find?_eq_none]
    intro b hb
    have hanswer := List.findSome?_eq_none_iff.mp hmoved b.outcome (List.mem_map_of_mem hb)
    rw [hanswer]
    decide
  have hboth := hselected.trans hlists.touches
  refine ⟨by rw [hboth.frame, h.frame], fun id ↦ by rw [hboth.has, h.has], fun b hb ↦ ?_,
    fun b hb houtcome hunrefreshed ↦ ?_, fun id hcount ↦ ?_⟩
  · rcases List.mem_append.mp hb with hb | hb
    · exact h.lists b hb
    · rw [List.mem_singleton.mp hb]
      exact hlists
  · rcases List.mem_append.mp hb with hb | hb
    · exact hboth.penalised (hfresh b hb) (h.penalised b hb houtcome hunrefreshed)
    · rw [List.mem_singleton.mp hb] at houtcome hunrefreshed ⊢
      have hended := hlists.ended
      cases hfound : a.outcome with
      | settled response =>
        rw [hfound] at houtcome
        cases houtcome
      | moved fallback error =>
        rw [hfound] at hended
        rcases hended.2 with hpenalised | ⟨-, hrefreshed⟩
        · exact hpenalised
        · exact absurd hrefreshed hunrefreshed
  · have hbefore := h.balanced id hcount
    have hheld : heldAccount attempts = none := by rw [heldAccount, hnone, Option.map_none]
    have hlast : heldAccount (attempts ++ [a]) =
        if a.outcome.answer?.isSome then some a.selected.accountId else none := by
      rw [heldAccount, List.find?_append, hnone]
      simp only [Option.none_or, List.find?_singleton]
      split <;> rfl
    have hreserved : reserved (attempts ++ [a]) a.after id =
        reserved attempts v id + if a.selected.accountId = id then 1 else 0 := by
      unfold reserved
      rw [hlast, hheld, hlists.spawned, hspawned]
      by_cases hanswer : a.outcome.answer?.isSome = true
      · simp [hanswer]
      · simp [hanswer, List.count_cons]
    rw [hreserved]
    by_cases he : a.selected.accountId = id
    · subst he
      have hcounted := hboth.inflight
      rw [if_pos rfl]
      omega
    · rw [if_neg he, hboth.inflight_ne (Ne.symm he), hbefore]
      omega

variable [StatusReason]

/-- What a response given to the client is of what the upstream replied: the status, the headers
that are forwarded and the body of a final reply, or what was buffered of a retryable one. -/
def Relays (reply : UpstreamResponse) : ModelsResponse → Prop
  | .streamed status headers stream =>
    isRetryable reply.status = false ∧ status = reply.status ∧
    headers = forwardedResponseHeaders reply.headers ∧
    ∀ events t, Run PassthroughState.Step stream events t → t.Holds reply.body
  | .buffered response => isRetryable reply.status = true ∧ response = .fromResponse reply

end Loop

end CodexLb.Proxy
