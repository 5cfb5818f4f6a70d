import CodexLb.Db.Operation
import CodexLb.Proxy.Request

/-!
# What a request commits

A proxied request writes through the operations of the store only, so what
holds of every reached store holds after it too.
-/

namespace CodexLb.Proxy

open Relational Transition

/-- Some operations lead from one store to the other. -/
def Commits [UuidText] (s t : Store) : Prop := ∃ ops, Run Store.Step s ops t

namespace Commits

variable [UuidText] {s t u : Store}

/-- Nothing is committed. -/
theorem refl (s : Store) : Commits s s := ⟨[], .nil s⟩

/-- Commits compose. -/
theorem trans (h : Commits s t) (k : Commits t u) : Commits s u := by
  obtain ⟨ops, hops⟩ := h
  obtain ⟨more, hmore⟩ := k
  exact ⟨ops ++ more, hops.append hmore⟩

/-- One operation is committed. -/
theorem single (op : Op) (now : Clock) (s : Store) : Commits s (op.exec now s) :=
  ⟨[(op, now)], .single rfl⟩

/-- A store that is reached stays reached. -/
theorem reached (h : Commits s t) (hs : s.Reached) : t.Reached := by
  obtain ⟨ops, hops⟩ := h
  exact Reachable.run hs hops

/-- A finished selection commits the release of an account that cannot be read. -/
theorem finishSelection (crypto : TokenCrypto) (accountId : Uuid) (reason : SelectionReason)
    (now : Instant) (s : Store) :
    Commits s (finishSelection crypto accountId reason now s).2 := by
  unfold CodexLb.finishSelection
  split
  · exact refl s
  · exact single (.releaseAccountInner accountId true) ⟨now, ""⟩ s

/-- The smart path commits the acquisition. -/
theorem selectSmartAccount (crypto : TokenCrypto) (excluded : List Uuid)
    (settings : RuntimeSettings) (usageRefreshInterval : Nat) (selectedAt now : Clock)
    (s : Store) : Commits s
      (selectSmartAccount crypto excluded settings usageRefreshInterval selectedAt now s).2 := by
  have hacquire := single (.acquireSmartAccount settings usageRefreshInterval excluded selectedAt)
    now s
  unfold CodexLb.selectSmartAccount
  split
  · next ht =>
    rw [Op.exec, ht] at hacquire
    exact hacquire
  · next ht =>
    rw [Op.exec, ht] at hacquire
    exact hacquire.trans (finishSelection ..)

/-- A selection commits at most two acquisitions and a release. -/
theorem selectAccountForRequest (crypto : TokenCrypto) (affinity : Option SessionRouteKey)
    (excluded : List Uuid) (settings : RuntimeSettings) (usageRefreshInterval : Nat)
    (selectedAt now : Clock) (s : Store) : Commits s (selectAccountForRequest crypto affinity
      excluded settings usageRefreshInterval selectedAt now s).2 := by
  unfold CodexLb.selectAccountForRequest
  dsimp only
  split
  · exact selectSmartAccount ..
  · next accountId _ =>
    have hacquire := single (.acquireAccountIfAvailable accountId) now s
    split
    · exact selectSmartAccount ..
    · split
      · next ht =>
        rw [Op.exec, ht] at hacquire
        exact hacquire.trans (finishSelection ..)
      · next ht =>
        rw [Op.exec, ht] at hacquire
        exact hacquire.trans (selectSmartAccount ..)

/-- A refresh commits the tokens that it stores. -/
theorem refreshSelected (crypto : TokenCrypto) (exchange : TokenExchange)
    (selected : SelectedAccount) (s : Store) :
    Commits s (refreshSelected crypto exchange selected s).2 := by
  have hupdate := single (.updateAccountTokens selected.accountId exchange.answer.encrypted
    exchange.answer.claims) ⟨exchange.now, ""⟩ s
  have htokens : Commits s (refreshAccountTokens crypto selected.accountId exchange s).2 := by
    unfold refreshAccountTokens
    split
    · exact refl s
    · split
      · exact refl s
      · split
        · exact refl s
        · rw [storeTokens_snd]
          exact hupdate
  unfold Proxy.refreshSelected
  split
  · next ht =>
    rw [ht] at htokens
    exact htokens
  · next ht =>
    rw [ht] at htokens
    split
    · exact htokens
    · exact htokens

/-- A penalty commits one operation. -/
theorem penalty (penalty : Penalty) (accountId : Uuid) (now : Instant) (s : Store) :
    Commits s (penalty.apply accountId now s) := by
  cases penalty with
  | cooldown seconds reason => exact single (.cooldownAccount accountId seconds reason) ⟨now, ""⟩ s
  | authFailed reason => exact single (.markAuthFailed accountId reason) ⟨now, ""⟩ s

end Commits

variable [UuidText]

/-- A log row is one operation. -/
theorem AttemptContext.logRequest_commits (context : AttemptContext) (code message : String)
    (s : Store) : Commits s (context.logRequest code message s).2 := by
  have hlog := Commits.single (.insertRequestLog context.requestId (some context.accountId))
    ⟨context.answers.loggedAt, ""⟩ s
  unfold logRequest
  split
  · next ht =>
    rw [Op.exec, ht] at hlog
    exact hlog
  · next ht =>
    rw [Op.exec, ht] at hlog
    exact hlog

namespace AttemptContext

variable (context : AttemptContext) {s : Store} {t : AttemptTrace}

/-- A failed attempt commits its penalty and its log row. -/
theorem fail_commits (h : Commits s t.store) (penalty : Option Penalty) (code message : String) :
    Commits s (context.fail penalty code message t).store := by
  cases penalty with
  | none => exact h.trans (context.logRequest_commits code message t.store)
  | some penalty =>
    have hpenalty := Commits.penalty penalty context.accountId context.answers.failedAt t.store
    exact h.trans (hpenalty.trans (context.logRequest_commits code message _))

/-- The end of an attempt commits a failure or a bind. -/
theorem settle_commits (h : Commits s t.store) (response : UpstreamResponse) :
    Commits s (context.settle response t).2.store := by
  have hread : Commits s (AttemptTrace.mk t.store
      (t.effects ++ [.buffered (.fromResponse response)])).store := h
  unfold settle
  dsimp only
  by_cases hauth : isAuthStatus response.status = true
  · rw [if_pos hauth]
    dsimp only
    exact context.fail_commits hread _ _ _
  rw [if_neg hauth]
  by_cases hlimited : response.status = 429
  · rw [if_pos hlimited]
    dsimp only
    exact context.fail_commits hread _ _ _
  rw [if_neg hlimited]
  by_cases hserver : isServerError response.status = true
  · rw [if_pos hserver]
    dsimp only
    exact context.fail_commits hread _ _ _
  rw [if_neg hserver]
  by_cases hrefused : (!isSuccess response.status) = true
  · rw [if_pos hrefused]
    dsimp only
    exact context.fail_commits hread _ _ _
  rw [if_neg hrefused]
  have hbind := Commits.single (.bindAffinitiesAtEpoch context.affinities context.accountId
    context.routeEpoch) ⟨context.answers.boundAt, ""⟩ t.store
  unfold bindAffinities
  split
  · exact h
  · exact h.trans hbind

/-- The contacts of an attempt commit a refresh and the end. -/
theorem contact_commits (crypto : TokenCrypto) (selected : SelectedAccount)
    (h : Commits s t.store) : Commits s (context.contact crypto selected t).2.store := by
  have hsent : Commits s (AttemptTrace.mk t.store
      (t.effects ++ [.contacted selected.tokens.accessToken])).store := h
  have hrefresh := Commits.refreshSelected crypto context.answers.reactive selected t.store
  unfold contact
  dsimp only
  split
  · dsimp only
    exact context.fail_commits hsent _ _ _
  · next response _ =>
    split
    · split
      · next renewed u hok =>
        rw [hok] at hrefresh
        have hrenewed : Commits s (AttemptTrace.mk u
            (t.effects ++ [.contacted selected.tokens.accessToken] ++
              [.buffered (.fromResponse response), .refreshed,
                .contacted renewed.tokens.accessToken])).store := h.trans hrefresh
        split
        · dsimp only
          exact context.fail_commits hrenewed _ _ _
        · exact context.settle_commits hrenewed _
      · next u herror =>
        rw [herror] at hrefresh
        have hread : Commits s (AttemptTrace.mk u
            (t.effects ++ [.contacted selected.tokens.accessToken] ++
              [.buffered (.fromResponse response)])).store := h.trans hrefresh
        dsimp only
        exact context.fail_commits hread _ _ _
    · exact context.settle_commits hsent _

end AttemptContext

/-- An attempt commits what its store shows. -/
theorem attempt_commits (config : ProxyConfig) (crypto : TokenCrypto) (context : AttemptContext)
    (selected : SelectedAccount) (s : Store) :
    Commits s (attempt config crypto context selected s).trace.store := by
  have hrefresh : Commits s (maybeRefreshSelected crypto config.tokenRefreshIntervalDays
      context.answers.expiryNow context.answers.intervalNow context.answers.proactive selected
      s).2 := by
    have hselected := Commits.refreshSelected crypto context.answers.proactive selected s
    unfold maybeRefreshSelected
    split
    · split
      · next hok =>
        rw [hok] at hselected
        exact hselected
      · next herror =>
        rw [herror] at hselected
        exact hselected
    · exact .refl s
  exact context.contact_commits crypto _ hrefresh

omit [UuidText] in
private theorem record_store (v : FailoverState) (a : Attempt) :
    Sum.elim (fun run : ProxyRun ↦ run.store = a.trace.store)
      (fun w : FailoverState ↦ w.store = a.trace.store) (v.record a) := by
  unfold FailoverState.record
  dsimp only
  split
  · rfl
  · rfl

/-- The releases that run commit one operation each. -/
theorem runReleases_commits (v : FailoverState) (released : List (Uuid × Instant)) :
    Commits v.store (v.runReleases released).store := by
  unfold FailoverState.runReleases
  induction released generalizing v with
  | nil => exact .refl _
  | cons release released ih =>
    rw [List.foldl_cons]
    refine Commits.trans ?_ (ih _)
    split
    · exact .single (.releaseAccountInner release.1 true) ⟨release.2, ""⟩ v.store
    · exact .refl _

/-- A round commits its releases, its selection and its attempt. -/
theorem failoverRound_commits (config : ProxyConfig) (crypto : TokenCrypto)
    (request : ProxyRequest) (settings : RuntimeSettings)
    (routeEpoch : Option SessionRouteEpoch) (answers : Nat → AttemptAnswers) (k : Nat)
    (v : FailoverState) :
    Sum.elim (fun run : ProxyRun ↦ Commits v.store run.store)
      (fun w : FailoverState ↦ Commits v.store w.store)
      (failoverRound config crypto request settings routeEpoch answers k v) := by
  have hreleased := runReleases_commits v (answers k).released
  unfold failoverRound
  generalize v.runReleases (answers k).released = u at hreleased
  dsimp only
  have hselect := Commits.selectAccountForRequest crypto
    (selectionAffinity request.affinities routeEpoch) u.excluded settings
    config.usageRefreshInterval (answers k).selectedAt (answers k).acquiredAt u.store
  split
  · next herror =>
    rw [herror] at hselect
    split
    · exact hreleased.trans hselect
    · exact hreleased.trans hselect
  · next selected s hok =>
    rw [hok] at hselect
    generalize AttemptContext.mk request routeEpoch settings selected.accountId
      selected.selectionReason (answers k) = context
    have hattempt := attempt_commits config crypto context selected s
    have hstore := record_store u (attempt config crypto context selected s)
    cases hrecord : u.record (attempt config crypto context selected s) with
    | inl run =>
      rw [hrecord] at hstore
      show Commits v.store run.store
      rw [show run.store = _ from hstore]
      exact hreleased.trans (hselect.trans hattempt)
    | inr w =>
      rw [hrecord] at hstore
      show Commits v.store w.store
      rw [show w.store = _ from hstore]
      exact hreleased.trans (hselect.trans hattempt)

/-- A proxied request commits operations of the store only. -/
theorem proxyRequest_commits (config : ProxyConfig) (crypto : TokenCrypto)
    (request : ProxyRequest) (settings : RuntimeSettings) (answers : Nat → AttemptAnswers)
    (s : Store) : Commits s (proxyRequest config crypto request settings answers s).store := by
  unfold proxyRequest
  split
  · exact .refl s
  · next routeEpoch _ =>
    have hstart : Commits s (FailoverState.mk s [] [] .nothing []).store := .refl s
    refine @rounds_post _ _ _ _ (fun _ _ (v : FailoverState) ↦ Commits s v.store)
      (fun run : ProxyRun ↦ Commits s run.store) ?_ ?_ _ 0 _ hstart
    · intro left k v hv
      have hround := failoverRound_commits config crypto request settings routeEpoch answers k v
      cases hr : failoverRound config crypto request settings routeEpoch answers k v with
      | inl run =>
        rw [hr] at hround
        exact hv.trans hround
      | inr w =>
        rw [hr] at hround
        exact hv.trans hround
    · exact fun _ v hv ↦ hv

/-- A request on a reached store leaves a reached store. -/
theorem proxyRequest_reached (config : ProxyConfig) (crypto : TokenCrypto)
    (request : ProxyRequest) (settings : RuntimeSettings) (answers : Nat → AttemptAnswers)
    {s : Store} (hs : s.Reached) :
    (proxyRequest config crypto request settings answers s).store.Reached :=
  (proxyRequest_commits config crypto request settings answers s).reached hs

end CodexLb.Proxy
