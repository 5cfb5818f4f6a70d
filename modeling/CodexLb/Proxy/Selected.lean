import CodexLb.Db.Acquire
import CodexLb.Upstream.Refresh

/-!
# Refreshing a selected account

`refresh_selected` and `maybe_refresh_selected`, `src/proxy.rs:1183–1219`, on
a refresh that no other call or writer meets.
-/

namespace CodexLb.Proxy

open Relational Transition

/-- What one refresh gets from outside: the endpoint's answer, and when its tokens are stored. -/
structure TokenExchange where
  answer : RefreshAnswer
  now : Instant

/-- `should_refresh`, `src/upstream.rs:496–498`. -/
def shouldRefresh (now lastRefreshAt : Instant) (intervalDays : Int) : Bool :=
  intervalDays ≤ (now - lastRefreshAt).tdiv 86400000

section Refresh

variable [UuidText]

/-- `update_account_tokens` with the row that it reads back, `src/db.rs:542–578`. -/
def storeTokens (accountId : Uuid) (exchange : TokenExchange) (s : Store) :
    Except AppError Account × Store :=
  match updateAccountTokens accountId exchange.answer.encrypted exchange.answer.claims exchange.now
      s with
  | (.error e, s) => (.error e, s)
  | (.ok (), s) =>
    match s.accounts.find accountId with
    | none => (.error (accountNotFound accountId), s)
    | some account => (.ok account, s)

variable (crypto : TokenCrypto)

/-- `refresh_account_tokens`, `src/upstream.rs:36–103`, alone: the second read finds what the
first one found. -/
def refreshAccountTokens (accountId : Uuid) (exchange : TokenExchange) (s : Store) :
    Except AppError Account × Store :=
  match s.accounts.find accountId with
  | none => (.error (accountNotFound accountId), s)
  | some account =>
    match crypto.decrypt account.encrypted.refreshToken with
    | .error e => (.error e, s)
    | .ok _ =>
      match exchange.answer.response.tokens with
      | .error e => (.error e, s)
      | .ok _ => storeTokens accountId exchange s

/-- The tokens of an account in plain text. -/
def decryptTokens (encrypted : AccountTokens) : Except AppError AccountTokens := do
  let accessToken ← crypto.decrypt encrypted.accessToken
  let refreshToken ← crypto.decrypt encrypted.refreshToken
  let idToken ← crypto.decrypt encrypted.idToken
  return ⟨accessToken, refreshToken, idToken⟩

/-- `refresh_selected`, `src/proxy.rs:1201–1219`. -/
def refreshSelected (exchange : TokenExchange) (selected : SelectedAccount) (s : Store) :
    Except AppError SelectedAccount × Store :=
  match refreshAccountTokens crypto selected.accountId exchange s with
  | (.error e, s) => (.error e, s)
  | (.ok account, s) =>
    match decryptTokens crypto account.encrypted with
    | .error e => (.error e, s)
    | .ok tokens => (.ok { selected with account := account, tokens := tokens }, s)

omit [UuidText] in
/-- The two tests of `maybe_refresh_selected`, `src/proxy.rs:1184–1195`, each at its own clock
reading. -/
def refreshDue (intervalDays : Int) (expiryNow intervalNow : Instant) (account : Account) :
    Bool :=
  (account.accessTokenExpiresAt.any fun expiresAt ↦ expiresAt ≤ expiryNow + 15 * 60 * 1000) ||
    shouldRefresh intervalNow account.lastRefreshAt intervalDays

/-- `maybe_refresh_selected`, `src/proxy.rs:1183–1199`, and whether it refreshed: a refresh that
fails is warned about and the stored token is tried. -/
def maybeRefreshSelected (intervalDays : Int) (expiryNow intervalNow : Instant)
    (exchange : TokenExchange) (selected : SelectedAccount) (s : Store) :
    (SelectedAccount × Bool) × Store :=
  if refreshDue intervalDays expiryNow intervalNow selected.account then
    match refreshSelected crypto exchange selected s with
    | (.ok selected, s) => ((selected, true), s)
    | (.error _, s) => ((selected, false), s)
  else ((selected, false), s)

end Refresh

/-! ### What a refresh writes -/

/-- The log and the identifiers of the accounts are the same. -/
structure LogKept (s t : Store) : Prop where
  requestLogs : t.requestLogs = s.requestLogs
  accounts : ∀ id, t.accounts.has id = s.accounts.has id

namespace LogKept

variable {s t u : Store}

/-- Nothing was written. -/
theorem refl (s : Store) : LogKept s s := ⟨rfl, fun _ ↦ rfl⟩

/-- Writes compose. -/
theorem trans (h : LogKept s t) (k : LogKept t u) : LogKept s u :=
  ⟨k.requestLogs.trans h.requestLogs, fun id ↦ (k.accounts id).trans (h.accounts id)⟩

/-- Account rows are rewritten. -/
theorem updateAccounts (s : Store) (p : Uuid → Account → Bool) (f : Account → Account) :
    LogKept s { s with accounts := s.accounts.update p f } := by
  exact ⟨rfl, Table.has_update s.accounts p f⟩

end LogKept

section Refresh

variable [UuidText]

/-- Storing tokens rewrites an account row, or nothing. -/
theorem updateAccountTokens_kept (accountId : Uuid) (encrypted : AccountTokens)
    (claims : AuthClaims) (now : Instant) (s : Store) :
    LogKept s (updateAccountTokens accountId encrypted claims now s).2 := by
  unfold updateAccountTokens
  split
  · exact .refl s
  · split
    · exact .refl s
    · exact .updateAccounts s _ _

/-- The row that is read back is of the store that was written. -/
theorem storeTokens_snd (accountId : Uuid) (exchange : TokenExchange) (s : Store) :
    (storeTokens accountId exchange s).2 = (updateAccountTokens accountId
      exchange.answer.encrypted exchange.answer.claims exchange.now s).2 := by
  unfold storeTokens
  split
  · next hu => rw [hu]
  · next hu =>
    rw [hu]
    split
    · rfl
    · rfl

/-- A refresh rewrites account rows. -/
theorem refreshAccountTokens_kept (crypto : TokenCrypto) (accountId : Uuid)
    (exchange : TokenExchange) (s : Store) :
    LogKept s (refreshAccountTokens crypto accountId exchange s).2 := by
  unfold refreshAccountTokens
  split
  · exact .refl s
  · split
    · exact .refl s
    · split
      · exact .refl s
      · rw [storeTokens_snd]
        exact updateAccountTokens_kept ..

variable {crypto : TokenCrypto} {exchange : TokenExchange} {selected next : SelectedAccount}
  {s t : Store}

/-- A refreshed selection is of the same account. -/
theorem refreshSelected_ok (h : refreshSelected crypto exchange selected s = (.ok next, t)) :
    next.accountId = selected.accountId ∧ LogKept s t := by
  have hkept := refreshAccountTokens_kept crypto selected.accountId exchange s
  unfold refreshSelected at h
  split at h
  · cases h
  · next hr =>
    rw [hr] at hkept
    split at h
    · cases h
    · cases h
      exact ⟨rfl, hkept⟩

/-- A refresh that fails may have stored tokens. -/
theorem refreshSelected_error {e : AppError}
    (h : refreshSelected crypto exchange selected s = (.error e, t)) : LogKept s t := by
  have hkept := refreshAccountTokens_kept crypto selected.accountId exchange s
  unfold refreshSelected at h
  split at h
  · next hr =>
    rw [hr] at hkept
    cases h
    exact hkept
  · next hr =>
    rw [hr] at hkept
    split at h
    · cases h
      exact hkept
    · cases h

end Refresh

/-! ### A refresh alone in its process -/

section Alone

variable [UuidText] (crypto : TokenCrypto)

/-- The states that a process reaches from a store with no call. -/
def ReachedAlone (s : Store) (v : Refreshes) : Prop :=
  ∃ events, Run (Refreshes.Step crypto) ⟨s, [], .empty, 0, []⟩ events v

variable {crypto} {s : Store} {v w : Refreshes} {call : RefreshCall}

private theorem ReachedAlone.step (exchange : TokenExchange) (h : ReachedAlone crypto s v)
    (hcalls : v.calls = [call]) {phase : RefreshPhase}
    (encrypts : ∀ account lock refreshToken tokens,
      call.phase = .storing account lock refreshToken tokens →
      crypto.Encrypts tokens exchange.answer.encrypted)
    (hadvance : call.advance crypto exchange.answer exchange.now v = some (phase, w)) :
    ReachedAlone crypto s (w.setPhase 0 call phase) := by
  obtain ⟨events, hrun⟩ := h
  have hcall : v.calls[0]? = some call := by
    rw [hcalls]
    rfl
  have hstep : v.Step crypto (.run 0 exchange.answer, ⟨exchange.now, ""⟩)
      (w.setPhase 0 call phase) := .run hcall encrypts hadvance
  exact ⟨events ++ [_], hrun.append (.single hstep)⟩

private theorem ReachedAlone.unlock (exchange : TokenExchange) {accountId : Uuid}
    {lock nextLock : Nat} {t : Store} {result : RefreshResult} {locks : Table Uuid Nat}
    {log : List RefreshEntry}
    (h : ReachedAlone crypto s ⟨t, [⟨accountId, .unlocking lock result⟩], locks, nextLock, log⟩) :
    ∃ w, ReachedAlone crypto s w ∧ w.calls = [⟨accountId, .ended result⟩] ∧ w.store = t := by
  have hdropping := h.step exchange rfl (fun _ _ _ _ hp ↦ by cases hp) rfl
  have hended := hdropping.step exchange rfl (fun _ _ _ _ hp ↦ by cases hp) rfl
  exact ⟨_, hended, rfl, rfl⟩

private theorem ReachedAlone.called (accountId : Uuid) (now : Instant) (s : Store) :
    ReachedAlone crypto s ⟨s, [⟨accountId, .start⟩], .empty, 0, []⟩ :=
  ⟨[_], .single (.call accountId ⟨now, ""⟩)⟩

private theorem ReachedAlone.lock (exchange : TokenExchange) {accountId : Uuid}
    {account : Account} (hfind : s.accounts.find accountId = some account) :
    ∃ locks, ReachedAlone crypto s ⟨s, [⟨accountId, .locked account 0⟩], locks, 1, []⟩ := by
  have hstart : ReachedAlone crypto s _ := .called accountId exchange.now s
  have hread : RefreshCall.advance crypto exchange.answer exchange.now ⟨accountId, .start⟩
      ⟨s, [⟨accountId, .start⟩], .empty, 0, []⟩ =
        some (.observed account, ⟨s, [⟨accountId, .start⟩], .empty, 0, []⟩) := by
    unfold RefreshCall.advance
    dsimp only
    rw [hfind]
  have hobserved := hstart.step exchange rfl (fun _ _ _ _ hp ↦ by cases hp) hread
  have hlooking := hobserved.step exchange rfl (fun _ _ _ _ hp ↦ by cases hp) rfl
  have hwaiting := hlooking.step exchange rfl (fun _ _ _ _ hp ↦ by cases hp) rfl
  have hlocked := hwaiting.step exchange rfl (fun _ _ _ _ hp ↦ by cases hp) rfl
  exact ⟨_, hlocked⟩

private theorem ReachedAlone.store {exchange : TokenExchange} {accountId : Uuid}
    {account : Account} {lock nextLock : Nat} {refreshToken : String} {tokens : AccountTokens}
    {locks : Table Uuid Nat} {log : List RefreshEntry} {t : Store}
    (h : ReachedAlone crypto s
      ⟨t, [⟨accountId, .storing account lock refreshToken tokens⟩], locks, nextLock, log⟩)
    (hhas : t.accounts.has accountId = true)
    (honest : crypto.Encrypts tokens exchange.answer.encrypted) :
    ∃ w, ReachedAlone crypto s w ∧
      w.calls = [⟨accountId, .ended (some (storeTokens accountId exchange t).1)⟩] ∧
      w.store = (storeTokens accountId exchange t).2 := by
  have hencrypts : ∀ (stored : Account) (other : Nat) (sent : String) (answered : AccountTokens),
      RefreshPhase.storing account lock refreshToken tokens = .storing stored other sent answered →
        crypto.Encrypts answered exchange.answer.encrypted := by
    intro stored other sent answered hp
    cases hp
    exact honest
  unfold storeTokens
  cases hupdate : updateAccountTokens accountId exchange.answer.encrypted exchange.answer.claims
      exchange.now t with
  | mk result u =>
    cases result with
    | error e =>
      have hrefused := h.step exchange rfl hencrypts
        (show _ = some (RefreshPhase.unlocking lock (some (.error e)), _) by
          unfold RefreshCall.advance
          simp only [hupdate]
          rfl)
      rw [updateAccountTokens_error hupdate]
      exact hrefused.unlock exchange
    | ok done =>
      obtain ⟨next, hnext⟩ : ∃ next, u.accounts.find accountId = some next := by
        have hkept := updateAccountTokens_kept accountId exchange.answer.encrypted
          exchange.answer.claims exchange.now t
        rw [hupdate] at hkept
        rw [← Table.has_iff, hkept.accounts, hhas]
      have hstored := h.step exchange rfl hencrypts
        (show _ = some (RefreshPhase.unlocking lock (some (.ok next)), _) by
          unfold RefreshCall.advance
          simp only [hupdate, hnext]
          rfl)
      simp only [hnext]
      exact hstored.unlock exchange

/-- The sequential refresh is what a call computes that runs alone in its process. -/
theorem refreshAccountTokens_alone (accountId : Uuid) (exchange : TokenExchange) (s : Store)
    (honest : ∀ tokens, exchange.answer.response.tokens = .ok tokens →
      crypto.Encrypts tokens exchange.answer.encrypted) :
    ∃ w, ReachedAlone crypto s w ∧
      w.calls =
        [⟨accountId, .ended (some (refreshAccountTokens crypto accountId exchange s).1)⟩] ∧
      w.store = (refreshAccountTokens crypto accountId exchange s).2 := by
  unfold refreshAccountTokens
  cases hfind : s.accounts.find accountId with
  | none =>
    have hmissing : RefreshCall.advance crypto exchange.answer exchange.now ⟨accountId, .start⟩
        ⟨s, [⟨accountId, .start⟩], .empty, 0, []⟩ =
          some (.ended (some (.error (accountNotFound accountId))),
            ⟨s, [⟨accountId, .start⟩], .empty, 0, []⟩) := by
      unfold RefreshCall.advance
      dsimp only
      rw [hfind]
    have hended := (ReachedAlone.called accountId exchange.now s).step exchange rfl
      (fun _ _ _ _ hp ↦ by cases hp) hmissing
    exact ⟨_, hended, rfl, rfl⟩
  | some account =>
    obtain ⟨locks, hlocked⟩ : ∃ locks, ReachedAlone crypto s
        ⟨s, [⟨accountId, .locked account 0⟩], locks, 1, []⟩ := ReachedAlone.lock exchange hfind
    have hreread : ∀ phase,
        RefreshCall.reread crypto ⟨accountId, .locked account 0⟩ account 0 s = phase →
          ReachedAlone crypto s ⟨s, [⟨accountId, phase⟩], locks, 1, []⟩ := by
      intro phase hphase
      have hadvance : RefreshCall.advance crypto exchange.answer exchange.now
          ⟨accountId, .locked account 0⟩ ⟨s, [⟨accountId, .locked account 0⟩], locks, 1, []⟩ =
            some (phase, ⟨s, [⟨accountId, .locked account 0⟩], locks, 1, []⟩) := by
        rw [← hphase]
        rfl
      exact hlocked.step exchange rfl (fun _ _ _ _ hp ↦ by cases hp) hadvance
    -- the second read finds the row of the first one
    unfold RefreshCall.reread at hreread
    simp only [hfind, ne_eq, not_true_eq_false, or_self, if_false] at hreread
    cases hdecrypt : crypto.decrypt account.encrypted.refreshToken with
    | error e =>
      simp only [hdecrypt] at hreread ⊢
      exact (hreread _ rfl).unlock exchange
    | ok refreshToken =>
      simp only [hdecrypt] at hreread ⊢
      have hsent := (hreread _ rfl).step exchange rfl (fun _ _ _ _ hp ↦ by cases hp) rfl
      cases htokens : exchange.answer.response.tokens with
      | error e =>
        have hrefused := hsent.step exchange rfl (fun _ _ _ _ hp ↦ by cases hp)
          (show _ = some (RefreshPhase.unlocking 0 (some (.error e)), _) by
            unfold RefreshCall.advance
            simp only [htokens]
            rfl)
        exact hrefused.unlock exchange
      | ok tokens =>
        have hexchanged := hsent.step exchange rfl (fun _ _ _ _ hp ↦ by cases hp)
          (show _ = some (RefreshPhase.storing account 0 refreshToken tokens, _) by
            unfold RefreshCall.advance
            simp only [htokens]
            rfl)
        exact ReachedAlone.store hexchanged (Table.has_iff.mpr ⟨account, hfind⟩)
          (honest tokens htokens)

end Alone

end CodexLb.Proxy
