import CodexLb.Proxy.Attempt

/-!
# A request fails over

The loop of `proxy_request` uses no account twice, stays within its budget and
gives the client what is owed for its attempts.
-/

namespace CodexLb.Proxy

open Relational Transition

/-- The store that attempts leave, one after the other from a store on. -/
def lastStore (s : Store) (attempts : List Attempt) : Store :=
  (attempts.getLast?.map fun a ↦ a.trace.store).getD s

/-- The store after some releases have run. -/
def releaseAll (released : List (Uuid × Instant)) (s : Store) : Store :=
  released.foldl (fun s release ↦ (releaseAccount release.1 release.2 s).2) s

/-- Why a request on a store has ended: an attempt settled it; its route epoch could not be read; or
it was attempted as often as it may be, or the store that the attempts left, some of their releases
having run, gave no account but those that were attempted. -/
def ProxyRun.Ended [UuidText] (config : ProxyConfig) (crypto : TokenCrypto)
    (request : ProxyRequest) (settings : RuntimeSettings) (answers : Nat → AttemptAnswers)
    (s : Store) (run : ProxyRun) : Prop :=
  (∃ a ∈ run.attempts, a.outcome.answer?.isSome = true) ∨
  resolveSessionRouteEpoch request.affinities s = .error run.ended ∨
  run.attempts.length = proxyAttempts (accountCount s) settings.proxyMaxAttempts ∧
    run.ended = noAccountError ∨
  ∃ routeEpoch excluded released,
    resolveSessionRouteEpoch request.affinities s = .ok routeEpoch ∧
    (∀ id, id ∈ excluded ↔ id ∈ run.attempts.map Attempt.accountId) ∧
    (∀ release ∈ released, release.1 ∈ run.attempts.map Attempt.accountId) ∧
    selectAccountForRequest crypto (selectionAffinity request.affinities routeEpoch) excluded
      settings config.usageRefreshInterval (answers run.attempts.length).selectedAt
      (answers run.attempts.length).acquiredAt (releaseAll released (lastStore s run.attempts)) =
        (.error run.ended, run.store)

/-- Attempts get the answers of the first rounds, in their order. -/
def Answered (request : ProxyRequest) (answers : Nat → AttemptAnswers)
    (attempts : List Attempt) : Prop :=
  ∀ (k : Nat) (a : Attempt), attempts[k]? = some a →
    a.answers = answers k ∧ a.requestId = request.requestId

/-- A request on a store fails over. -/
structure FailsOver [UuidText] (config : ProxyConfig) (crypto : TokenCrypto)
    (request : ProxyRequest) (settings : RuntimeSettings) (answers : Nat → AttemptAnswers)
    (s : Store) (run : ProxyRun) : Prop where
  bounded : run.attempts.length ≤ max 1 (min (accountCount s) settings.proxyMaxAttempts)
  distinct : (run.attempts.map Attempt.accountId).Nodup
  answered : Answered request answers run.attempts
  sound : ∀ a ∈ run.attempts, a.Sound
  rows : run.store.requestLogs =
    s.requestLogs ++ (run.attempts.filter Attempt.failed).map Attempt.row
  result : run.result = owed (run.attempts.map Attempt.outcome) run.ended
  ended : run.Ended config crypto request settings answers s

/-! ### The loop -/

/-- Between two rounds every attempt has moved on, and the variables tell how. -/
structure FailoverState.Going (request : ProxyRequest) (answers : Nat → AttemptAnswers)
    (s : Store) (budget left k : Nat) (v : FailoverState) : Prop where
  length : v.attempts.length = k
  budget : k + left = budget
  excluded : ∀ id, id ∈ v.excluded ↔ id ∈ v.attempts.map Attempt.accountId
  distinct : (v.attempts.map Attempt.accountId).Nodup
  answered : Answered request answers v.attempts
  sound : ∀ a ∈ v.attempts, a.Sound
  holds : v.remembered.Holds (v.attempts.map Attempt.outcome)
  rows : v.store.requestLogs = s.requestLogs ++ v.attempts.map Attempt.row
  spawned : ∀ id ∈ v.spawned, id ∈ v.attempts.map Attempt.accountId
  store : ∃ released : List (Uuid × Instant),
    (∀ release ∈ released, release.1 ∈ v.attempts.map Attempt.accountId) ∧
    v.store = releaseAll released (lastStore s v.attempts)

namespace FailoverState.Going

variable {config : ProxyConfig} {crypto : TokenCrypto} {request : ProxyRequest}
  {settings : RuntimeSettings} {answers : Nat → AttemptAnswers} {s : Store}
  {budget left k : Nat} {v : FailoverState}

/-- Releases change neither the log nor the variables. -/
theorem runReleases (h : v.Going request answers s budget left k)
    (released : List (Uuid × Instant)) :
    (v.runReleases released).Going request answers s budget left k := by
  unfold FailoverState.runReleases
  induction released generalizing v with
  | nil => exact h
  | cons release released ih =>
    rw [List.foldl_cons]
    apply ih
    split
    · next hspawned =>
      obtain ⟨before, hbefore, hstore⟩ := h.store
      refine { h with rows := h.rows, spawned := ?_, store := ?_ }
      · exact fun id hid ↦ h.spawned id (List.mem_of_mem_erase hid)
      · refine ⟨before ++ [release], fun other hother ↦ ?_, ?_⟩
        · rcases List.mem_append.mp hother with hother | hother
          · exact hbefore other hother
          · rw [List.mem_singleton.mp hother]
            exact h.spawned release.1 (List.contains_iff_mem.mp hspawned)
        · rw [hstore, releaseAll, releaseAll, List.foldl_append]
          rfl
    · exact h

private theorem all_failed (h : v.Going request answers s budget left k) :
    v.attempts.filter Attempt.failed = v.attempts := by
  rw [List.filter_eq_self]
  intro a ha
  have hmoved := List.findSome?_eq_none_iff.mp h.holds.moved a.outcome (List.mem_map_of_mem ha)
  unfold Attempt.failed
  cases houtcome : a.outcome with
  | settled answer =>
    rw [houtcome] at hmoved
    cases hmoved
  | moved fallback error => rfl

private theorem appended_distinct (h : v.Going request answers s budget left k) {a : Attempt}
    (hfresh : a.accountId ∉ v.excluded) :
    ((v.attempts ++ [a]).map Attempt.accountId).Nodup := by
  rw [List.map_append, List.map_singleton, List.nodup_append_comm, List.singleton_append,
    List.nodup_cons, ← h.excluded]
  exact ⟨hfresh, h.distinct⟩

private theorem appended_sound (h : v.Going request answers s budget left k) {a : Attempt}
    (hsound : a.Sound) : ∀ b ∈ v.attempts ++ [a], b.Sound := by
  intro b hb
  rcases List.mem_append.mp hb with hb | hb
  · exact h.sound b hb
  · rw [List.mem_singleton.mp hb]
    exact hsound

private theorem appended_answered (h : v.Going request answers s budget left k) {a : Attempt}
    (ha : a.answers = answers k ∧ a.requestId = request.requestId) :
    Answered request answers (v.attempts ++ [a]) := by
  intro i b hb
  rw [List.getElem?_append] at hb
  split at hb
  · exact h.answered i b hb
  · next hge =>
    rw [List.getElem?_singleton] at hb
    split at hb
    · next hlast =>
      have hlength := h.length
      have hi : i = k := by omega
      cases hb
      rw [hi]
      exact ha
    · cases hb

private theorem row_of_sound {a : Attempt} (hsound : a.Sound) : a.trace.store.requestLogs =
    a.before.requestLogs ++ ([a].filter Attempt.failed).map Attempt.row := by
  have hkept := hsound.kept
  unfold Attempt.Kept at hkept
  unfold Attempt.failed
  split at hkept
  · next houtcome =>
    rw [hkept.2.1.rows, List.filter_singleton, houtcome]
    rfl
  · next houtcome =>
    rw [hkept.1.rows, List.filter_singleton, houtcome]
    rfl
  · next houtcome =>
    rw [hkept.1.rows, List.filter_singleton, houtcome]
    exact (List.append_nil _).symm

variable [UuidText]

/-- The loop gives up, with the log as it is. -/
theorem giveUp (h : v.Going request answers s budget left k)
    (hbudget : budget ≤ max 1 (min (accountCount s) settings.proxyMaxAttempts)) {t : Store}
    (ht : t.requestLogs = v.store.requestLogs) {ended : AppError}
    (hended : ProxyRun.Ended config crypto request settings answers s
      ({ v with store := t }.giveUp ended)) :
    FailsOver config crypto request settings answers s ({ v with store := t }.giveUp ended) where
  bounded := by
    have hlength := h.length
    have hleft := h.budget
    show v.attempts.length ≤ _
    omega
  distinct := h.distinct
  answered := h.answered
  sound := h.sound
  rows := by
    show t.requestLogs = _ ++ (v.attempts.filter Attempt.failed).map Attempt.row
    rw [ht, h.all_failed, h.rows]
  result := h.holds.giveUp ended
  ended := hended

/-- A fresh attempt settles the request. -/
theorem settled (h : v.Going request answers s budget (left + 1) k)
    (hbudget : budget ≤ max 1 (min (accountCount s) settings.proxyMaxAttempts)) {a : Attempt}
    (hsound : a.Sound) (hbefore : a.before.requestLogs = v.store.requestLogs)
    (hfresh : a.accountId ∉ v.excluded)
    (hanswered : a.answers = answers k ∧ a.requestId = request.requestId) {run : ProxyRun}
    (hrun : v.record a = .inl run) : FailsOver config crypto request settings answers s run := by
  have hdistinct := appended_distinct h hfresh
  have hsounds := appended_sound h hsound
  have hall := appended_answered h hanswered
  unfold FailoverState.record at hrun
  dsimp only at hrun
  split at hrun
  · next response houtcome =>
    cases hrun
    refine ⟨?_, hdistinct, hall, hsounds, ?_, ?_, .inl ⟨a, List.mem_concat_self, ?_⟩⟩
    · have hlength := h.length
      have hleft := h.budget
      show (v.attempts ++ [a]).length ≤ _
      rw [List.length_append, List.length_singleton]
      omega
    · show a.trace.store.requestLogs =
        _ ++ ((v.attempts ++ [a]).filter Attempt.failed).map Attempt.row
      rw [List.filter_append, h.all_failed, List.map_append, ← List.append_assoc, ← h.rows,
        ← hbefore]
      exact row_of_sound hsound
    · show .ok response = owed ((v.attempts ++ [a]).map Attempt.outcome) noAccountError
      rw [List.map_append, List.map_singleton, houtcome, h.holds.settled]
    · rw [houtcome]
      rfl
  · cases hrun

omit [UuidText] in
/-- A fresh attempt moves on. -/
theorem moved (h : v.Going request answers s budget (left + 1) k) {a : Attempt}
    (hsound : a.Sound) (hbefore : a.before.requestLogs = v.store.requestLogs)
    (hfresh : a.accountId ∉ v.excluded)
    (hanswered : a.answers = answers k ∧ a.requestId = request.requestId) {w : FailoverState}
    (hrun : v.record a = .inr w) : w.Going request answers s budget left (k + 1) := by
  have hdistinct := appended_distinct h hfresh
  have hsounds := appended_sound h hsound
  have hall := appended_answered h hanswered
  unfold FailoverState.record at hrun
  dsimp only at hrun
  split at hrun
  · cases hrun
  · next fallback error houtcome =>
    cases hrun
    refine ⟨?_, ?_, ?_, hdistinct, hall, hsounds, ?_, ?_, ?_, [], ?_, ?_⟩
    · show (v.attempts ++ [a]).length = k + 1
      rw [List.length_append, List.length_singleton, h.length]
    · have hleft := h.budget
      omega
    · intro id
      show id ∈ a.accountId :: v.excluded ↔ _
      rw [List.mem_cons, h.excluded, List.map_append, List.mem_append, List.map_singleton,
        List.mem_singleton, or_comm]
    · show (v.remembered.record fallback error).Holds ((v.attempts ++ [a]).map Attempt.outcome)
      rw [List.map_append, List.map_singleton, houtcome]
      exact h.holds.record fallback error
    · have hfailed : a.failed = true := by rw [Attempt.failed, houtcome]
      have hrow := row_of_sound hsound
      rw [List.filter_singleton, hfailed, hbefore, h.rows] at hrow
      show a.trace.store.requestLogs = _ ++ (v.attempts ++ [a]).map Attempt.row
      rw [hrow, List.map_append, List.append_assoc]
      rfl
    · intro id hid
      show id ∈ (v.attempts ++ [a]).map Attempt.accountId
      rw [List.map_append, List.mem_append]
      rcases List.mem_append.mp hid with hid | hid
      · right
        rw [(List.mem_replicate.mp hid).2]
        exact List.mem_singleton_self _
      · exact .inl (h.spawned id hid)
    · exact fun release hrelease ↦ absurd hrelease List.not_mem_nil
    · show a.trace.store = lastStore s (v.attempts ++ [a])
      rw [lastStore, List.getLast?_concat]
      rfl

end FailoverState.Going

section Requests

variable [UuidText] {config : ProxyConfig} {crypto : TokenCrypto} {request : ProxyRequest}
  {settings : RuntimeSettings} {routeEpoch : Option SessionRouteEpoch}
  {answers : Nat → AttemptAnswers} {s : Store} {budget left k : Nat} {v : FailoverState}

/-- A round either ends the request as it should, or goes on. -/
theorem failoverRound_keeps (h : v.Going request answers s budget (left + 1) k)
    (hbudget : budget ≤ max 1 (min (accountCount s) settings.proxyMaxAttempts))
    (hepoch : resolveSessionRouteEpoch request.affinities s = .ok routeEpoch) :
    Sum.elim (FailsOver config crypto request settings answers s)
      (FailoverState.Going request answers s budget left (k + 1))
      (failoverRound config crypto request settings routeEpoch answers k v) := by
  have hgoing := h.runReleases (answers k).released
  unfold failoverRound
  generalize v.runReleases (answers k).released = v at hgoing
  dsimp only
  cases hselect : selectAccountForRequest crypto (selectionAffinity request.affinities routeEpoch)
    v.excluded settings config.usageRefreshInterval (answers k).selectedAt (answers k).acquiredAt
    v.store with
  | mk selection t =>
    cases selection with
    | error error =>
      have hkept := LogKept.select crypto
        (selectionAffinity request.affinities routeEpoch) v.excluded settings
        config.usageRefreshInterval (answers k).selectedAt (answers k).acquiredAt v.store
      rw [hselect] at hkept
      have hended : ProxyRun.Ended config crypto request settings answers s
          ({ v with store := t }.giveUp error) := by
        obtain ⟨released, hreleased, hstore⟩ := hgoing.store
        refine .inr (.inr (.inr
          ⟨routeEpoch, v.excluded, released, hepoch, hgoing.excluded, hreleased, ?_⟩))
        show selectAccountForRequest crypto _ _ settings _ (answers v.attempts.length).selectedAt
          (answers v.attempts.length).acquiredAt (releaseAll released (lastStore s v.attempts)) = _
        rw [hgoing.length, ← hstore, hselect]
        rfl
      have hgiveUp := hgoing.giveUp hbudget hkept.requestLogs hended
      dsimp only
      by_cases hnone : v.excluded.isEmpty = true
      · rw [if_pos hnone]
        -- without an exclusion there was no attempt, and the error is all that is owed
        have hattempts : v.attempts = [] := by
          rw [List.eq_nil_iff_forall_not_mem]
          intro a ha
          have hexcluded := (hgoing.excluded a.accountId).mpr (List.mem_map_of_mem ha)
          rw [List.isEmpty_iff.mp hnone] at hexcluded
          cases hexcluded
        refine { hgiveUp with result := ?_, ended := hended }
        show .error error = owed (v.attempts.map Attempt.outcome) error
        rw [hattempts]
        rfl
      · rw [if_neg hnone]
        exact hgiveUp
    | ok selected =>
      obtain ⟨hkept, hstored⟩ := selectAccountForRequest_has hselect
      have hfresh : selected.accountId ∉ v.excluded :=
        selectAccountForRequest_notMem (congrArg Prod.fst hselect)
      dsimp only
      generalize hcontext : AttemptContext.mk request routeEpoch settings selected.accountId
        selected.selectionReason (answers k) = context
      have haccount : context.accountId = selected.accountId := by rw [← hcontext]
      have hanswered : context.answers = answers k ∧ context.requestId = request.requestId := by
        rw [← hcontext]
        exact ⟨rfl, rfl⟩
      rw [← haccount] at hstored hfresh
      have hsound := attempt_sound config crypto context selected hstored
      cases hrun : v.record (attempt config crypto context selected t) with
      | inl run => exact hgoing.settled hbudget hsound hkept.requestLogs hfresh hanswered hrun
      | inr w => exact hgoing.moved hsound hkept.requestLogs hfresh hanswered hrun

omit [UuidText] in
/-- The loop is entered at most as often as there are active accounts and allowed attempts. -/
theorem proxyAttempts_le (activeCount maxAttempts : Nat) :
    proxyAttempts activeCount maxAttempts ≤ max 1 (min activeCount maxAttempts) := by
  unfold proxyAttempts
  split
  · omega
  · omega

/-- A proxied request fails over, whatever is answered from outside: it makes at most
`max 1 (min active maxAttempts)` attempts, on as many accounts, and fewer only when one settles it
or no other account is left; every attempt contacts the upstream once, and once more only after an
auth response and a refresh; every attempt that moves on has penalised its account, and every one
that fails has left one error row and spawned one release; and the client is given the first success
or refused response, as the upstream sent it, else the newest retryable response that answered an
attempt's last contact, else the newest error. -/
theorem request_fails_over (config : ProxyConfig) (crypto : TokenCrypto) (request : ProxyRequest)
    (settings : RuntimeSettings) (answers : Nat → AttemptAnswers) (s : Store) :
    FailsOver config crypto request settings answers s
      (proxyRequest config crypto request settings answers s) := by
  have hbudget := proxyAttempts_le (accountCount s) settings.proxyMaxAttempts
  unfold proxyRequest
  split
  · next error herror =>
    refine ⟨Nat.zero_le _, List.nodup_nil, (fun _ _ hnone ↦ by cases hnone),
      fun a ha ↦ absurd ha List.not_mem_nil, ?_, rfl, .inr (.inl herror)⟩
    exact (List.append_nil _).symm
  · next routeEpoch hepoch =>
    have hstart : FailoverState.Going request answers s
        (proxyAttempts (accountCount s) settings.proxyMaxAttempts)
        (proxyAttempts (accountCount s) settings.proxyMaxAttempts) 0
        ⟨s, [], [], .nothing, []⟩ :=
      { length := rfl
        budget := Nat.zero_add _
        excluded := fun _ ↦ Iff.rfl
        distinct := List.nodup_nil
        answered := (fun _ _ hnone ↦ by cases hnone)
        sound := fun a ha ↦ absurd ha List.not_mem_nil
        holds := .nothing
        rows := (List.append_nil _).symm
        spawned := fun id hid ↦ absurd hid List.not_mem_nil
        store := ⟨[], fun release hrelease ↦ absurd hrelease List.not_mem_nil, rfl⟩ }
    apply rounds_post _ _ hstart
    · exact fun left k v hgoing ↦ failoverRound_keeps hgoing hbudget hepoch
    · intro k v hgoing
      have hlength : v.attempts.length = _ := hgoing.length.trans hgoing.budget
      exact hgoing.giveUp hbudget rfl (.inr (.inr (.inl ⟨hlength, rfl⟩)))

end Requests

/-! ### A first auth response -/

/-- The response of a buffering. -/
def AttemptEffect.buffered? : AttemptEffect → Option BufferedUpstream
  | .buffered response => some response
  | _ => none

/-- The newest response that was buffered and has a status after which another account is
tried. -/
def ProxyRun.newestBuffered (run : ProxyRun) : Option BufferedUpstream :=
  ((run.attempts.flatMap fun a ↦ a.trace.effects.filterMap AttemptEffect.buffered?).filter
    fun response ↦ isRetryable response.status).getLast?

/-- A request that no attempt settled answers with the newest such response, if there is one. -/
def AnswersNewestBuffered (run : ProxyRun) : Prop :=
  (∀ a ∈ run.attempts, a.outcome.answer? = none) →
    ∀ response, run.newestBuffered = some response → run.result = .ok (.buffered response)

/-- One active account. -/
def oneAccount : Store :=
  .initial
    { rows := [(1, importedAccount ⟨"access", "refresh", "id"⟩ none
        ⟨none, "one@example.invalid", "plus", none⟩ "one" 0)]
      distinct := by decide }

/-- The upstream rejects the stored token, the endpoint renews it, and the second send fails. -/
def renewedAndCut : AttemptAnswers :=
  let exchange : TokenExchange :=
    { answer :=
        { response := .answered true "200 OK"
            ⟨some "access2", some "refresh2", some "id2", none, none, none, none⟩
          encrypted := ⟨"access2", "refresh2", "id2"⟩
          claims := ⟨none, "one@example.invalid", "plus", none⟩ }
      now := 1000 }
  { released := []
    selectedAt := ⟨1000, "a"⟩
    acquiredAt := ⟨1000, "a"⟩
    expiryNow := 1000
    intervalNow := 1000
    proactive := exchange
    first := .ok ⟨401, [], ⟨[], none⟩⟩
    reactive := exchange
    retry := .error "connection reset"
    failedAt := 1000
    loggedAt := 1000
    elapsed := 1
    boundAt := 1000 }

/-- The request on the one account. -/
def cutRequest : ProxyRun :=
  let _ := hyphenatedText
  proxyRequest ⟨60, 8⟩ ⟨Except.ok⟩ ⟨"request", none, []⟩ .default (fun _ ↦ renewedAndCut) oneAccount

/-- An auth response that a refresh answered is not given to the client when the retry fails, but
the error of the retry is. -/
theorem renewed_auth_response_dropped : cutRequest.newestBuffered = some ⟨401, [], []⟩ ∧
    cutRequest.result = .error (.upstream "connection reset") ∧
    ¬ AnswersNewestBuffered cutRequest := by
  have hmoved : (cutRequest.attempts.all fun a ↦ a.outcome.answer?.isNone) = true := by
    decide +kernel
  have hnewest : cutRequest.newestBuffered = some ⟨401, [], []⟩ := by decide +kernel
  have hresult : cutRequest.result = .error (.upstream "connection reset") := by rfl
  refine ⟨hnewest, hresult, fun h ↦ ?_⟩
  have hanswered := h (fun a ha ↦ Option.isNone_iff_eq_none.mp (List.all_eq_true.mp hmoved a ha))
    _ hnewest
  rw [hresult] at hanswered
  cases hanswered

end CodexLb.Proxy
