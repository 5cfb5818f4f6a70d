import CodexLb.Proxy.Request

/-!
# One attempt of a request

Every attempt of `proxy_request` ends in one of three ways: it fails, which
marks the account, logs one row and spawns one release before the loop moves
on; its response is refused, which logs and releases alike; or its response is
streamed, and the stream holds the lease.
-/

namespace CodexLb.Proxy

open Relational Transition

/-! ### What an attempt is measured by -/

namespace AttemptEffect

/-- The request was sent. -/
def isContact : AttemptEffect → Bool
  | contacted _ => true
  | _ => false

/-- Whether the upstream may be contacted after an effect: first of all, and once for each
refresh. -/
def allows (free : Bool) : AttemptEffect → Option Bool
  | contacted _ => if free then some false else none
  | refreshed => some true
  | buffered _ | stream _ => some free

/-- The response that was buffered since the last contact. -/
def answer (last : Option BufferedUpstream) : AttemptEffect → Option BufferedUpstream
  | contacted _ => none
  | buffered response => some response
  | refreshed | stream _ => last

end AttemptEffect

/-- Between two contacts the tokens were refreshed. -/
def RefreshedBetween (effects : List AttemptEffect) : Prop :=
  ∀ before first between second after,
    effects = before ++ .contacted first :: (between ++ .contacted second :: after) →
      .refreshed ∈ between

/-- Every refresh is followed by a contact. -/
def ContactedAfter (effects : List AttemptEffect) : Prop :=
  ∀ before after, effects = before ++ .refreshed :: after → ∃ token, .contacted token ∈ after

/-- The response that answered the last contact of an attempt, if it was buffered. -/
def Attempt.lastAnswer (a : Attempt) : Option BufferedUpstream :=
  a.trace.effects.foldl AttemptEffect.answer none

/-- The statuses after which another account is tried. -/
def isRetryable (status : Nat) : Bool :=
  isAuthStatus status || status == 429 || isServerError status

/-- What the upstream answers to the last of one or two contacts. -/
def AttemptAnswers.reply (answers : AttemptAnswers) (contacts : Nat) :
    Except String UpstreamResponse :=
  if contacts = 2 then answers.retry else answers.first

/-- The contacts that the answers allow: one, and a second one if the first was answered by an auth
response. -/
structure AttemptAnswers.Allows (answers : AttemptAnswers) (contacts : Nat) : Prop where
  once : 1 ≤ contacts
  twice : contacts ≤ 2
  retried : contacts = 2 → ∃ response, answers.first = .ok response ∧
    isAuthStatus response.status = true

/-- How a reply of the upstream decides an attempt: the loop moves on with the error of a transport,
or with a retryable response to fall back on; a success is streamed to the client as it comes, and
every other response is given to the client. -/
def Decides (accountId : Uuid) (requestId : String) (outcome : AttemptOutcome) :
    Except String UpstreamResponse → Prop
  | .error message => outcome = .moved none (.upstream message)
  | .ok response =>
    if isRetryable response.status then
      ∃ message, outcome = .moved (some (.buffered (.fromResponse response))) (.upstream message)
    else if isSuccess response.status then
      ∃ context : StreamLogContext, context.accountId = accountId ∧
        context.requestId = requestId ∧ context.eventStream = isEventStream response.headers ∧
        outcome = .settled (.streamed response.status (forwardedResponseHeaders response.headers)
          context (.start response.body))
    else outcome = .settled (.buffered (.fromResponse response))

/-- The row that a failed attempt leaves. -/
def Attempt.row (a : Attempt) : RequestLog := ⟨a.requestId, some a.accountId, a.answers.loggedAt⟩

/-- The account is marked, or cooled down beyond an instant. -/
def Penalised (accountId : Uuid) (now : Instant) (s : Store) : Prop :=
  (∃ account, s.accounts.find accountId = some account ∧ account.status = .authFailed) ∨
  ∃ runtime ends, s.accountRuntimeState.find accountId = some runtime ∧
    runtime.cooldownUntil = some ends ∧ now < ends

/-- The attempt left one error row and spawned one release. -/
structure Attempt.Closed (a : Attempt) : Prop where
  entry : ∃ entry : RequestLogEntry, a.streamEffects = [.logged entry, .released] ∧
    entry.requestId = a.requestId ∧ entry.accountId = some a.accountId ∧ entry.status = "error"
  rows : a.trace.store.requestLogs = a.before.requestLogs ++ [a.row]

/-- A streamed attempt has left no row yet and its stream holds the lease. -/
structure Attempt.Open (a : Attempt) (stream : StreamState) : Prop where
  rowCount : rowCount a.streamEffects = 0
  releases : a.releases = 0
  lease : stream.lease = some .new
  rows : a.trace.store.requestLogs = a.before.requestLogs

/-- What one attempt promises by its outcome. -/
def Attempt.Kept (a : Attempt) : Prop :=
  match a.outcome with
  | .moved fallback _ => Penalised a.accountId a.answers.failedAt a.trace.store ∧ a.Closed ∧
      fallback = a.lastAnswer.map .buffered ∧
      ∀ response, a.lastAnswer = some response → isRetryable response.status = true
  | .settled (.buffered response) => a.Closed ∧ a.lastAnswer = some response ∧
      isRetryable response.status = false ∧ isSuccess response.status = false
  | .settled (.streamed status _ _ stream) => a.Open stream ∧ isSuccess status = true

/-- The contacts of an attempt. -/
def Attempt.contacts (a : Attempt) : Nat := a.trace.effects.countP AttemptEffect.isContact

/-- What one attempt promises: it contacts the upstream as its answers allow, once more only after a
refresh and always after one, the last reply decides it, and it keeps what its outcome promises. -/
structure Attempt.Sound (a : Attempt) : Prop where
  allowed : a.answers.Allows a.contacts
  refreshed : RefreshedBetween a.trace.effects
  contacted : ContactedAfter a.trace.effects
  decided : Decides a.accountId a.requestId a.outcome (a.answers.reply a.contacts)
  kept : a.Kept

/-- The attempt left a row. -/
def Attempt.failed (a : Attempt) : Bool :=
  match a.outcome with
  | .settled (.streamed ..) => false
  | _ => true

/-! ### Contacts -/

private theorem allows_of_notMem {effects : List AttemptEffect}
    (h : AttemptEffect.refreshed ∉ effects) {free : Bool}
    (hfold : effects.foldlM AttemptEffect.allows false = some free) : free = false := by
  induction effects with
  | nil =>
    cases hfold
    rfl
  | cons effect effects ih =>
    rw [List.mem_cons, not_or] at h
    rw [List.foldlM_cons] at hfold
    obtain ⟨next, hnext, hrest⟩ := Option.bind_eq_some_iff.mp hfold
    have hsame : next = false := by
      cases effect with
      | contacted token => cases hnext
      | refreshed => exact absurd rfl h.1
      | buffered response => exact (Option.some.inj hnext).symm
      | stream effect => exact (Option.some.inj hnext).symm
    rw [hsame] at hrest
    exact ih h.2 hrest

/-- Effects that were allowed one by one have a refresh between two contacts. -/
theorem refreshedBetween_of_allows {effects : List AttemptEffect} {free : Bool}
    (h : effects.foldlM AttemptEffect.allows true = some free) : RefreshedBetween effects := by
  intro before first between second after hsplit
  by_contra hmissing
  rw [hsplit, List.foldlM_append] at h
  obtain ⟨u, -, h⟩ := Option.bind_eq_some_iff.mp h
  rw [List.foldlM_cons] at h
  obtain ⟨v, hv, h⟩ := Option.bind_eq_some_iff.mp h
  have hspent : v = false := by
    cases u with
    | false => cases hv
    | true => exact (Option.some.inj hv).symm
  rw [hspent, List.foldlM_append] at h
  obtain ⟨w, hw, h⟩ := Option.bind_eq_some_iff.mp h
  rw [allows_of_notMem hmissing hw, List.foldlM_cons] at h
  obtain ⟨x, hx, -⟩ := Option.bind_eq_some_iff.mp h
  cases hx

private theorem allows_keeps {effects : List AttemptEffect}
    (h : ∀ token, AttemptEffect.contacted token ∉ effects)
    {free : Bool} (hfold : effects.foldlM AttemptEffect.allows true = some free) : free = true := by
  induction effects with
  | nil =>
    cases hfold
    rfl
  | cons effect effects ih =>
    rw [List.foldlM_cons] at hfold
    obtain ⟨next, hnext, hrest⟩ := Option.bind_eq_some_iff.mp hfold
    have hsame : next = true := by
      cases effect with
      | contacted token => exact absurd List.mem_cons_self (h token)
      | refreshed => exact (Option.some.inj hnext).symm
      | buffered response => exact (Option.some.inj hnext).symm
      | stream effect => exact (Option.some.inj hnext).symm
    rw [hsame] at hrest
    exact ih (fun token hmem ↦ h token (List.mem_cons_of_mem _ hmem)) hrest

/-- Effects that end without the right to a contact have a contact after every refresh. -/
theorem contactedAfter_of_allows {effects : List AttemptEffect}
    (h : effects.foldlM AttemptEffect.allows true = some false) : ContactedAfter effects := by
  intro before after hsplit
  by_contra hmissing
  rw [hsplit, List.foldlM_append] at h
  obtain ⟨u, -, h⟩ := Option.bind_eq_some_iff.mp h
  rw [List.foldlM_cons] at h
  obtain ⟨v, hv, h⟩ := Option.bind_eq_some_iff.mp h
  cases hv
  cases allows_keeps (fun token hmem ↦ hmissing ⟨token, hmem⟩) h

/-! ### What leaves the log alone -/

namespace LogKept

variable {s t : Store}

/-- A runtime row is rewritten. -/
theorem updateRuntime (s : Store) (accountId : Uuid)
    (f : AccountRuntimeState → AccountRuntimeState) : LogKept s (s.updateRuntime accountId f) :=
  ⟨rfl, fun _ ↦ rfl⟩

/-- An account is marked or cooled down. -/
theorem penalty (penalty : Penalty) (accountId : Uuid) (now : Instant) (s : Store) :
    LogKept s (penalty.apply accountId now s) := by
  cases penalty with
  | cooldown seconds reason =>
    show LogKept s (cooldownAccount accountId seconds reason now s).2
    rw [cooldownAccount_frame]
    exact ⟨rfl, fun _ ↦ rfl⟩
  | authFailed reason => exact updateAccounts s _ _

/-- An account is acquired, or not. -/
theorem acquire (accountId : Uuid) (now : Clock) (s : Store) :
    LogKept s (acquireAccountIfAvailable accountId now s).2 := by
  unfold acquireAccountIfAvailable
  split
  · exact updateRuntime s _ _
  · exact .refl s

private theorem transaction {α : Type} {body : Store → Except AppError (Ending α × Store)}
    (h : ∀ ending t, body s = .ok (ending, t) → LogKept s t) :
    LogKept s (Relational.transaction body s).2 := by
  unfold Relational.transaction
  split
  · next a t ht => exact h _ t ht
  · exact .refl s
  · exact .refl s

private theorem bindKeys {rootKeyHash : String} {write : AffinityWrite} {accountId : Uuid}
    {keys : List SessionRouteKey} (h : bindKeys rootKeyHash write accountId keys s = .ok t) :
    LogKept s t := by
  induction keys generalizing s with
  | nil =>
    cases h
    exact .refl _
  | cons key keys ih =>
    rw [CodexLb.bindKeys, List.foldlM_cons] at h
    obtain ⟨u, hu, hrest⟩ := bind_eq_ok.mp h
    have hwritten : LogKept s u := by
      unfold writeAffinity at hu
      split at hu
      · cases hu
      · cases hu
        exact ⟨rfl, fun _ ↦ rfl⟩
    exact hwritten.trans (ih hrest)

/-- Affinities are bound, or the bind is refused. -/
theorem bindAffinities (keys : List SessionRouteKey) (accountId : Uuid)
    (epoch : Option SessionRouteEpoch) (now : Instant) (s : Store) :
    LogKept s (bindAffinitiesAtEpoch keys accountId epoch now s).2 := by
  unfold bindAffinitiesAtEpoch
  split
  · exact .refl s
  · split
    · exact .refl s
    · split
      · next epoch =>
        apply transaction
        intro ending t ht
        unfold bindAtEpoch at ht
        split at ht
        · cases ht
          exact .refl s
        · split at ht
          · cases ht
            exact .refl s
          · obtain ⟨u, hu, ht⟩ := bind_eq_ok.mp ht
            have hkeys := bindKeys hu
            split at ht
            · obtain ⟨v, hv, ht⟩ := bind_eq_ok.mp ht
              cases ht
              unfold propagateFallback at hv
              split at hv
              · cases hv
                exact hkeys.trans ⟨rfl, fun _ ↦ rfl⟩
              · cases hv
            · cases ht
              exact hkeys
      · apply transaction
        intro ending t ht
        unfold bindUnclaimed at ht
        dsimp only at ht
        split at ht
        · cases ht
          exact .refl s
        · obtain ⟨u, hu, ht⟩ := bind_eq_ok.mp ht
          cases ht
          have hrooted : ∀ inserted preferred rootKeyHash (now : Instant), LogKept s
              (dropSpeculativeRoot inserted preferred rootKeyHash (s.withRoot preferred now)) := by
            intro inserted preferred rootKeyHash now
            unfold dropSpeculativeRoot
            split
            · exact ⟨rfl, fun _ ↦ rfl⟩
            · exact ⟨rfl, fun _ ↦ rfl⟩
          exact (hrooted _ _ _ _).trans (bindKeys hu)

variable [UuidText] (crypto : TokenCrypto)

/-- A selection is finished, or its account is released. -/
theorem finishSelection (accountId : Uuid) (reason : SelectionReason) (now : Instant)
    (s : Store) : LogKept s (finishSelection crypto accountId reason now s).2 := by
  unfold CodexLb.finishSelection
  split
  · exact .refl s
  · exact updateRuntime s _ _

/-- The smart path selects. -/
theorem selectSmart (excluded : List Uuid) (settings : RuntimeSettings)
    (usageRefreshInterval : Nat) (selectedAt now : Clock) (s : Store) :
    LogKept s
      (selectSmartAccount crypto excluded settings usageRefreshInterval selectedAt now s).2 := by
  unfold selectSmartAccount
  split
  · next e t ht =>
    unfold acquireSmartAccount at ht
    split at ht
    · cases ht
    · cases ht
      exact .refl s
  · next accountId t ht =>
    rw [(acquireSmartAccount_ok ht).2.2]
    exact (updateRuntime s _ _).trans (.finishSelection ..)

/-- An account is selected, or none is. -/
theorem select (affinity : Option SessionRouteKey) (excluded : List Uuid)
    (settings : RuntimeSettings) (usageRefreshInterval : Nat) (selectedAt now : Clock)
    (s : Store) : LogKept s (selectAccountForRequest crypto affinity excluded settings
      usageRefreshInterval selectedAt now s).2 := by
  unfold selectAccountForRequest
  dsimp only
  split
  · exact selectSmart ..
  · next accountId _ =>
    have hacquire := acquire accountId now s
    split
    · exact selectSmart ..
    · split
      · next t ht =>
        rw [ht] at hacquire
        exact hacquire.trans (.finishSelection ..)
      · next ht =>
        rw [ht] at hacquire
        exact hacquire.trans (selectSmart ..)

end LogKept

/-! ### What a selection gives -/

section Selection

variable [UuidText] {crypto : TokenCrypto} {affinity : Option SessionRouteKey}
  {excluded : List Uuid} {settings : RuntimeSettings} {usageRefreshInterval : Nat}
  {selectedAt now : Clock} {s t : Store} {selected : SelectedAccount}

/-- A selected account is stored. -/
theorem selectAccountForRequest_has (h : selectAccountForRequest crypto affinity excluded settings
    usageRefreshInterval selectedAt now s = (.ok selected, t)) :
    LogKept s t ∧ t.accounts.has selected.accountId = true := by
  have hkept := LogKept.select crypto affinity excluded settings usageRefreshInterval
    selectedAt now s
  rw [h] at hkept
  refine ⟨hkept, ?_⟩
  rw [hkept.accounts, Table.has_iff]
  rcases selectAccountForRequest_ok (congrArg Prod.fst h) with heligible | heligible
  · obtain ⟨account, runtime, haccount, -⟩ := accountIsEligible_iff.mp heligible
    exact ⟨account, haccount⟩
  · obtain ⟨account, runtime, haccount, -⟩ := accountIsEligible_iff.mp heligible
    exact ⟨account, haccount⟩

end Selection

/-! ### Penalties -/

/-- A cooldown lasts a second at least. -/
inductive Penalty.Lasting : Penalty → Prop where
  | cooldown {seconds : Int} (reason : String) (h : 1 ≤ seconds) :
      Lasting (.cooldown seconds reason)
  | authFailed (reason : String) : Lasting (.authFailed reason)

/-- A penalty marks a stored account. -/
theorem Penalty.apply_penalised {penalty : Penalty} (hlasting : penalty.Lasting)
    {accountId : Uuid} (now : Instant) {s : Store} (h : s.accounts.has accountId = true) :
    Penalised accountId now (penalty.apply accountId now s) := by
  cases hlasting with
  | authFailed reason =>
    obtain ⟨account, haccount⟩ := Table.has_iff.mp h
    refine .inl ⟨{ account with status := .authFailed, statusReason := some reason }, ?_, rfl⟩
    show (s.accounts.update _ _).find accountId = _
    rw [Table.find_update_self, haccount]
    rfl
  | @cooldown seconds reason hpositive =>
    have hlonger : (0 : Int) < 1000 * seconds := by omega
    have hseconds : now < cooldownDeadline now seconds := Int.lt_add_of_pos_right now hlonger
    obtain ⟨runtime, hruntime⟩ : ∃ runtime,
        (ensureRuntimeRow accountId s).2.accountRuntimeState.find accountId = some runtime := by
      unfold ensureRuntimeRow
      by_cases hrow : s.accountRuntimeState.has accountId = true
      · rw [if_pos hrow]
        exact Table.has_iff.mp hrow
      · rw [if_neg hrow, if_pos h]
        show ∃ runtime, (s.accountRuntimeState.insert accountId .default).find accountId = _
        rw [Table.find_insert, if_pos rfl]
        exact ⟨_, rfl⟩
    have hensured : (ensureRuntimeRow accountId s).1 = .ok () := by
      unfold ensureRuntimeRow
      by_cases hrow : s.accountRuntimeState.has accountId = true
      · rw [if_pos hrow]
      · rw [if_neg hrow, if_pos h]
    refine .inr ⟨{ runtime with
      cooldownUntil := some (cooldownDeadline now seconds)
      cooldownReason := some reason
      failureCount := runtime.failureCount + 1 }, cooldownDeadline now seconds, ?_, rfl, hseconds⟩
    show (cooldownAccount accountId seconds reason now s).2.accountRuntimeState.find accountId = _
    unfold cooldownAccount
    split
    · next hu =>
      rw [hu] at hensured
      cases hensured
    · next hu =>
      rw [hu] at hruntime
      show (Table.update _ _ _).find accountId = _
      rw [Table.find_update_self, hruntime]
      rfl

/-! ### One attempt -/

/-- An attempt under way: the log is as it was, and nothing was bound, logged or released. -/
structure AttemptTrace.Running (before : Store) (contacts : Nat) (free : Bool)
    (answer : Option BufferedUpstream) (t : AttemptTrace) : Prop where
  kept : LogKept before t.store
  contacts : t.effects.countP AttemptEffect.isContact = contacts
  free : t.effects.foldlM AttemptEffect.allows true = some free
  answer : t.effects.foldl AttemptEffect.answer none = answer
  quiet : t.effects.filterMap AttemptEffect.stream? = []

/-- More effects of an attempt under way. -/
theorem AttemptTrace.Running.append {before s : Store} {contacts : Nat} {free next : Bool}
    {answer : Option BufferedUpstream} {t : AttemptTrace}
    (h : t.Running before contacts free answer) (hs : LogKept t.store s)
    (more : List AttemptEffect) (hfree : more.foldlM AttemptEffect.allows free = some next)
    (hquiet : more.filterMap AttemptEffect.stream? = []) :
    (AttemptTrace.mk s (t.effects ++ more)).Running before
      (contacts + more.countP AttemptEffect.isContact) next
      (more.foldl AttemptEffect.answer answer) where
  kept := h.kept.trans hs
  contacts := by rw [List.countP_append, h.contacts]
  free := by
    rw [List.foldlM_append, h.free]
    exact hfree
  answer := by rw [List.foldl_append, h.answer]
  quiet := by rw [List.filterMap_append, h.quiet, hquiet, List.nil_append]

namespace AttemptContext

variable {context : AttemptContext} {before : Store}

/-- The ends of an attempt, on what it had done before. -/
inductive Ended (context : AttemptContext) (before : Store) : AttemptOutcome × AttemptTrace → Prop
  | failed {t : AttemptTrace} {contacts : Nat} {answer : Option BufferedUpstream}
      (running : t.Running before contacts false answer) (allowed : context.answers.Allows contacts)
      (retryable : ∀ response, answer = some response → isRetryable response.status = true)
      {penalty : Penalty} (lasting : penalty.Lasting) (code message : String) (error : AppError)
      (decided : Decides context.accountId context.requestId (.moved (answer.map .buffered) error)
        (context.answers.reply contacts)) :
      Ended context before
        (.moved (answer.map .buffered) error, context.fail (some penalty) code message t)
  | refused {t : AttemptTrace} {contacts : Nat} {response : BufferedUpstream}
      (running : t.Running before contacts false (some response))
      (allowed : context.answers.Allows contacts)
      (final : isRetryable response.status = false) (refused : isSuccess response.status = false)
      (code message : String)
      (decided : Decides context.accountId context.requestId (.settled (.buffered response))
        (context.answers.reply contacts)) :
      Ended context before (.settled (.buffered response), context.fail none code message t)
  | streamed {t : AttemptTrace} {contacts : Nat} {answer : Option BufferedUpstream}
      (running : t.Running before contacts false answer)
      (allowed : context.answers.Allows contacts) {status : Nat}
      (success : isSuccess status = true) (headers : Headers) (stream : StreamLogContext)
      (body : StreamBody)
      (decided : Decides context.accountId context.requestId
        (.settled (.streamed status headers stream (.start body)))
        (context.answers.reply contacts)) :
      Ended context before
        (.settled (.streamed status headers stream (.start body)), context.bindAffinities t)

private theorem retryable_answer {response : UpstreamResponse}
    (h : isRetryable response.status = true) (buffered : BufferedUpstream)
    (hb : some (BufferedUpstream.fromResponse response) = some buffered) :
    isRetryable buffered.status = true := by
  cases hb
  exact h

/-- A transport error decides that the loop moves on. -/
private theorem decides_error {contacts : Nat} {message : String}
    (hreply : context.answers.reply contacts = .error message) :
    Decides context.accountId context.requestId (.moved none (.upstream message))
      (context.answers.reply contacts) := by
  rw [hreply]
  rfl

/-- A retryable response decides that the loop moves on. -/
private theorem decides_retryable {contacts : Nat} {response : UpstreamResponse}
    (hreply : context.answers.reply contacts = .ok response)
    (h : isRetryable response.status = true) (message : String) :
    Decides context.accountId context.requestId
      (.moved ((some (BufferedUpstream.fromResponse response)).map .buffered) (.upstream message))
      (context.answers.reply contacts) := by
  rw [hreply]
  show if _ then _ else _
  rw [if_pos h]
  exact ⟨message, rfl⟩

/-- Every status of the response that answered the last contact ends the attempt. -/
theorem settle_ended {response : UpstreamResponse} {t : AttemptTrace} {contacts : Nat}
    {answer : Option BufferedUpstream}
    (h : t.Running before contacts false answer) (hallowed : context.answers.Allows contacts)
    (hreply : context.answers.reply contacts = .ok response) :
    context.Ended before (context.settle response t) := by
  have hread : AttemptTrace.Running before contacts false (some (.fromResponse response)) _ :=
    h.append (.refl t.store) [.buffered (.fromResponse response)] rfl rfl
  unfold settle
  dsimp only
  by_cases hauth : isAuthStatus response.status = true
  · rw [if_pos hauth]
    have hretryable : isRetryable response.status = true := by simp [isRetryable, hauth]
    exact .failed hread hallowed (retryable_answer hretryable) (.authFailed _) _ _ _
      (decides_retryable hreply hretryable _)
  rw [if_neg hauth]
  by_cases hlimited : response.status = 429
  · rw [if_pos hlimited]
    have hretryable : isRetryable response.status = true := by simp [isRetryable, hlimited]
    exact .failed hread hallowed (retryable_answer hretryable)
      (.cooldown _ (retryAfterSeconds_pos _ _)) _ _ _ (decides_retryable hreply hretryable _)
  rw [if_neg hlimited]
  by_cases hserver : isServerError response.status = true
  · rw [if_pos hserver]
    have hretryable : isRetryable response.status = true := by simp [isRetryable, hserver]
    exact .failed hread hallowed (retryable_answer hretryable) (.cooldown _ (by decide)) _ _ _
      (decides_retryable hreply hretryable _)
  rw [if_neg hserver]
  have hfinal : isRetryable response.status = false := by
    simp [isRetryable, hauth, hlimited, hserver]
  by_cases hsuccess : isSuccess response.status = true
  · rw [hsuccess]
    refine .streamed h hallowed hsuccess _ _ _ ?_
    rw [hreply]
    show if _ then _ else if _ then _ else _
    rw [if_neg (by rw [hfinal]; decide), if_pos hsuccess]
    exact ⟨_, rfl, rfl, rfl, rfl⟩
  · have hrefused : isSuccess response.status = false := by simpa using hsuccess
    rw [hrefused]
    refine .refused hread hallowed hfinal hrefused _ _ ?_
    rw [hreply]
    show if _ then _ else if _ then _ else _
    rw [if_neg (by rw [hfinal]; decide), if_neg hsuccess]

variable [UuidText] {crypto : TokenCrypto}

/-- Every answer of the upstream and of the token endpoint ends the attempt. -/
theorem contact_ended (selected : SelectedAccount) {t : AttemptTrace}
    {answer : Option BufferedUpstream} (h : t.Running before 0 true answer) :
    context.Ended before (context.contact crypto selected t) := by
  have hfirst : AttemptTrace.Running before 1 false none _ :=
    h.append (.refl t.store) [.contacted selected.tokens.accessToken] rfl rfl
  have honce : context.answers.Allows 1 := ⟨by decide, by decide, fun htwo ↦ by cases htwo⟩
  unfold contact
  dsimp only
  split
  · next message hanswer =>
    exact .failed hfirst honce (fun _ hr ↦ by cases hr) (.cooldown _ (by decide)) _ _ _
      (decides_error hanswer)
  · next response hanswer =>
    split
    · next hauth =>
      split
      · next renewed s hrefresh =>
        -- the refresh allows the second contact
        have hretry : AttemptTrace.Running before 2 false none _ :=
          hfirst.append (refreshSelected_ok hrefresh).2
            [.buffered (.fromResponse response), .refreshed,
              .contacted renewed.tokens.accessToken] rfl rfl
        have htwice : context.answers.Allows 2 :=
          ⟨by decide, by decide, fun _ ↦ ⟨response, hanswer, hauth⟩⟩
        split
        · next message hretried =>
          exact .failed hretry htwice (fun _ hr ↦ by cases hr) (.cooldown _ (by decide)) _ _ _
            (decides_error hretried)
        · next hretried => exact settle_ended hretry htwice hretried
      · next error s hrefresh =>
        have hread : AttemptTrace.Running before 1 false (some (.fromResponse response)) _ :=
          hfirst.append (refreshSelected_error hrefresh) [.buffered (.fromResponse response)] rfl
            rfl
        have hretryable : isRetryable response.status = true := by simp [isRetryable, hauth]
        have hreply : context.answers.reply 1 = .ok response := hanswer
        exact .failed hread honce (retryable_answer hretryable) (.authFailed _) _ _ _
          (decides_retryable hreply hretryable _)
    · exact settle_ended hfirst honce hanswer

omit [UuidText] in
/-- A failed attempt applies its penalty, then logs one row and spawns one release. -/
theorem fail_eq (penalty : Option Penalty) (code message : String) {t : AttemptTrace}
    (h : t.store.accounts.has context.accountId = true) :
    ∃ s, LogKept t.store s ∧
      (∀ p, penalty = some p → p.Lasting →
        Penalised context.accountId context.answers.failedAt s) ∧
      context.fail penalty code message t =
        ⟨{ s with requestLogs := s.requestLogs ++
            [⟨context.requestId, some context.accountId, context.answers.loggedAt⟩] },
          t.effects ++
            [.stream (.logged (context.errorEntry code message)), .stream .released]⟩ := by
  have hlog : ∀ s, LogKept t.store s → context.logRequest code message s =
      ([.logged (context.errorEntry code message)], { s with requestLogs := s.requestLogs ++
        [⟨context.requestId, some context.accountId, context.answers.loggedAt⟩] }) := by
    intro s hs
    have hstored : (some context.accountId).any (fun id ↦ !s.accounts.has id) = false := by
      rw [Option.any_some, hs.accounts, h]
      rfl
    rw [logRequest, insertRequestLog, hstored]
    rfl
  cases penalty with
  | none =>
    refine ⟨t.store, .refl _, (fun p hp ↦ by cases hp), ?_⟩
    unfold fail
    dsimp only
    rw [hlog _ (.refl _)]
    rfl
  | some penalty =>
    have hkept := LogKept.penalty penalty context.accountId context.answers.failedAt t.store
    refine ⟨_, hkept, fun p hp hlasting ↦ ?_, ?_⟩
    · cases hp
      exact Penalty.apply_penalised hlasting _ h
    · unfold fail
      dsimp only
      rw [hlog _ hkept]
      rfl

omit [UuidText] in
/-- What an attempt with a penalty, a row and a release has done, whatever its outcome. -/
private theorem closed_of_fail {t : AttemptTrace} {contacts : Nat}
    {answer : Option BufferedUpstream} (running : t.Running before contacts false answer)
    (hstored : before.accounts.has context.accountId = true) (penalty : Option Penalty)
    (code message : String) (outcome : AttemptOutcome) {a : Attempt}
    (ha : a = ⟨context.accountId, context.requestId, context.answers, before, outcome,
      context.fail penalty code message t⟩) :
    a.contacts = contacts ∧ RefreshedBetween a.trace.effects ∧ ContactedAfter a.trace.effects ∧
      a.lastAnswer = answer ∧ a.Closed ∧ ∀ p, penalty = some p → p.Lasting →
        Penalised a.accountId a.answers.failedAt a.trace.store := by
  have hhas : t.store.accounts.has context.accountId = true := by
    rw [running.kept.accounts, hstored]
  obtain ⟨s, hs, hpenalised, hfail⟩ := fail_eq penalty code message hhas
  have htrace : a.trace = _ := (congrArg Attempt.trace ha).trans hfail
  have heffects := congrArg AttemptTrace.effects htrace
  have hallowed : a.trace.effects.foldlM AttemptEffect.allows true = some false := by
    rw [heffects, List.foldlM_append, running.free]
    rfl
  refine ⟨?_, refreshedBetween_of_allows hallowed, contactedAfter_of_allows hallowed, ?_, ⟨?_, ?_⟩,
    ?_⟩
  · rw [Attempt.contacts, heffects, List.countP_append, running.contacts]
    rfl
  · rw [Attempt.lastAnswer, heffects, List.foldl_append, running.answer]
    rfl
  · refine ⟨context.errorEntry code message, ?_, ?_, ?_, rfl⟩
    · rw [Attempt.streamEffects, heffects, List.filterMap_append, running.quiet]
      rfl
    · rw [ha]
      rfl
    · rw [ha]
      rfl
  · rw [htrace]
    show s.requestLogs ++ _ = _
    rw [hs.requestLogs, running.kept.requestLogs, ha]
    rfl
  · intro p hp hlasting
    rw [htrace, ha]
    exact hpenalised p hp hlasting

omit [UuidText] in
/-- An attempt on a stored account that ends keeps what it promises. -/
theorem Ended.sound {outcome : AttemptOutcome} {trace : AttemptTrace}
    (h : context.Ended before (outcome, trace))
    (hstored : before.accounts.has context.accountId = true) :
    (Attempt.mk context.accountId context.requestId context.answers before outcome
      trace).Sound := by
  cases h with
  | @failed t contacts answer running allowed retryable penalty lasting code message error
      decided =>
    obtain ⟨hcontacts, hrefreshed, hcontacted, hanswer, hclosed, hpenalised⟩ :=
      closed_of_fail running hstored (some penalty) code message
        (.moved (answer.map .buffered) error) rfl
    rw [← hcontacts] at allowed decided
    refine ⟨allowed, hrefreshed, hcontacted, decided, hpenalised penalty rfl lasting, hclosed,
      ?_, ?_⟩
    · rw [hanswer]
    · rw [hanswer]
      exact retryable
  | @refused t contacts response running allowed final refused code message decided =>
    obtain ⟨hcontacts, hrefreshed, hcontacted, hanswer, hclosed, -⟩ :=
      closed_of_fail running hstored none code message (.settled (.buffered response)) rfl
    rw [← hcontacts] at allowed decided
    exact ⟨allowed, hrefreshed, hcontacted, decided, hclosed, hanswer, final, refused⟩
  | @streamed t contacts answer running allowed status success headers stream body decided =>
    obtain ⟨s, bound, hs, hbind, hbound⟩ : ∃ s bound, LogKept t.store s ∧
        context.bindAffinities t = ⟨s, t.effects ++ bound⟩ ∧
        (bound = [] ∨ ∃ outcome, bound =
          [.stream (.bound context.affinities context.routeEpoch outcome)]) := by
      unfold bindAffinities
      split
      · exact ⟨t.store, [], .refl _, by rw [List.append_nil], .inl rfl⟩
      · have hkept := LogKept.bindAffinities context.affinities context.accountId
          context.routeEpoch context.answers.boundAt t.store
        exact ⟨_, _, hkept, rfl, .inr ⟨_, rfl⟩⟩
    rw [hbind]
    have hallowed : (t.effects ++ bound).foldlM AttemptEffect.allows true = some false := by
      rw [List.foldlM_append, running.free]
      rcases hbound with rfl | ⟨outcome, rfl⟩
      · rfl
      · rfl
    have hquiet : rowCount ((t.effects ++ bound).filterMap AttemptEffect.stream?) = 0 ∧
        releaseCount ((t.effects ++ bound).filterMap AttemptEffect.stream?) = 0 := by
      rw [List.filterMap_append, running.quiet]
      rcases hbound with rfl | ⟨outcome, rfl⟩
      · exact ⟨rfl, rfl⟩
      · exact ⟨rfl, rfl⟩
    have hcontacts : (t.effects ++ bound).countP AttemptEffect.isContact = contacts := by
      rw [List.countP_append, running.contacts]
      rcases hbound with rfl | ⟨outcome, rfl⟩
      · rfl
      · rfl
    refine ⟨?_, refreshedBetween_of_allows hallowed, contactedAfter_of_allows hallowed, ?_,
      ⟨hquiet.1, hquiet.2, rfl, ?_⟩, success⟩
    · rw [Attempt.contacts, hcontacts]
      exact allowed
    · rw [Attempt.contacts, hcontacts]
      exact decided
    · show s.requestLogs = before.requestLogs
      rw [hs.requestLogs, running.kept.requestLogs]

end AttemptContext

section Attempts

variable [UuidText]

/-- The refresh that is due has happened, or none. -/
theorem maybeRefreshSelected_running {crypto : TokenCrypto} {intervalDays : Int}
    {expiryNow intervalNow : Instant} {exchange : TokenExchange}
    {selected refreshed : SelectedAccount} {renewed : Bool} {s t : Store}
    (h : maybeRefreshSelected crypto intervalDays expiryNow intervalNow exchange selected s =
      ((refreshed, renewed), t)) :
    (AttemptTrace.mk t (if renewed then [.refreshed] else [])).Running s 0 true none := by
  have hkept : LogKept s t := by
    unfold maybeRefreshSelected at h
    split at h
    · split at h
      · next hrefresh =>
        cases h
        exact (refreshSelected_ok hrefresh).2
      · next hrefresh =>
        cases h
        exact refreshSelected_error hrefresh
    · cases h
      exact .refl s
  cases renewed with
  | false => exact ⟨hkept, rfl, rfl, rfl, rfl⟩
  | true => exact ⟨hkept, rfl, rfl, rfl, rfl⟩

/-- Every attempt on a stored account keeps what it promises. -/
theorem attempt_sound (config : ProxyConfig) (crypto : TokenCrypto) (context : AttemptContext)
    (selected : SelectedAccount) {s : Store} (h : s.accounts.has context.accountId = true) :
    (attempt config crypto context selected s).Sound :=
  (AttemptContext.contact_ended _ (maybeRefreshSelected_running rfl)).sound h

end Attempts

end CodexLb.Proxy
