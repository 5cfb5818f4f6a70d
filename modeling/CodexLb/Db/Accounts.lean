import CodexLb.Db.Schema
import CodexLb.Relational.Query

/-!
# Account statements

The writers of `accounts`, `account_runtime_state` and the usage tables in
`src/db.rs`, outside selection. Every function is one committed statement or
transaction at the instant `now`; it returns its result and the next store.
-/

namespace CodexLb

open Relational

/-- `validate_status_opt`, `src/db.rs:2537–2548`, as the enumeration it admits. -/
def parseAccountStatus : String → Option AccountStatus
  | "active" => some .active
  | "rate_limited" => some .rateLimited
  | "quota_exceeded" => some .quotaExceeded
  | "paused" => some .paused
  | "auth_failed" => some .authFailed
  | _ => none

/-- `normalize_label`, `src/db.rs:2550–2563`. -/
def normalizeLabel (label : String) : Except AppError String :=
  let value := toAsciiLowercase (trim label)
  if value.toList.isEmpty || 32 < value.toList.length || !value.toList.all isWordChar then
    .error (.badRequest "label must be 1-32 ASCII letters, numbers, '-' or '_'")
  else .ok value

/-- An optional label, normalized when present. -/
def normalizeLabelOpt : Option String → Except AppError (Option String)
  | none => .ok none
  | some label => (normalizeLabel label).map some

/-- The error for an account that is not stored. -/
def accountNotFound [UuidText] (id : Uuid) : AppError :=
  .notFound ("account " ++ UuidText.toText id ++ " not found")

/-- A statement that would leave a child row without its parent. -/
def foreignKeyError : AppError := .database "FOREIGN KEY constraint failed"

/-- A statement that would store a second row under a unique key. -/
def uniqueError : AppError := .database "UNIQUE constraint failed"

/-- A `NULL` in a column that allows none. -/
def notNullError : AppError := .database "NOT NULL constraint failed"

/-- The account that already carries a ChatGPT account id, if any. -/
def Store.accountByChatgptId (s : Store) (chatgptAccountId : Option String) : Option Uuid :=
  chatgptAccountId.bind fun value ↦
    (s.accounts.rows.find? fun row ↦ row.2.chatgptAccountId = some value).map Prod.fst

/-- `ensure_runtime_row`, `src/db.rs:2509–2521`. -/
def ensureRuntimeRow (accountId : Uuid) (s : Store) : Except AppError Unit × Store :=
  if s.accountRuntimeState.has accountId then (.ok (), s)
  else if s.accounts.has accountId then
    (.ok (), { s with
      accountRuntimeState := s.accountRuntimeState.insert accountId .default })
  else (.error foreignKeyError, s)

/-- The row that `upsert_account` inserts, `src/db.rs:334–341`. -/
def importedAccount (encrypted : AccountTokens) (lastRefreshAt : Option Instant)
    (claims : AuthClaims) (label : String) (now : Instant) : Account where
  chatgptAccountId := claims.chatgptAccountId
  label := label
  email := claims.email
  planType := claims.planType
  encrypted := encrypted
  lastRefreshAt := lastRefreshAt.getD now
  accessTokenExpiresAt := claims.accessTokenExpiresAt
  lastUsageRefreshAt := none
  lastUsageError := none
  status := .active
  statusReason := none
  createdAt := now

/-- The statement of `upsert_account`, `src/db.rs:329–366`, under a fresh identifier. -/
def writeAccount (newId : Uuid) (encrypted : AccountTokens) (lastRefreshAt : Option Instant)
    (claims : AuthClaims) (label : String) (now : Instant) (s : Store) :
    Except AppError Uuid × Store :=
  match s.accountByChatgptId claims.chatgptAccountId with
  | some id =>
    (.ok id, { s with
      accounts := s.accounts.update (fun k _ ↦ k = id) fun account ↦ { account with
        label := if label = "" then account.label else label
        email := claims.email
        planType := claims.planType
        encrypted := encrypted
        lastRefreshAt := lastRefreshAt.getD now
        accessTokenExpiresAt := claims.accessTokenExpiresAt
        status := .active
        statusReason := none } })
  | none =>
    if s.accounts.has newId then (.error uniqueError, s)
    else
      (.ok newId, { s with
        accounts := s.accounts.insert newId
          (importedAccount encrypted lastRefreshAt claims label now) })

/-- `upsert_account`, `src/db.rs:322–371`. -/
def upsertAccount (newId : Uuid) (encrypted : AccountTokens) (lastRefreshAt : Option Instant)
    (claims : AuthClaims) (label : Option String) (now : Instant) (s : Store) :
    Except AppError Uuid × Store :=
  match normalizeLabelOpt label with
  | .error e => (.error e, s)
  | .ok label =>
    match writeAccount newId encrypted lastRefreshAt claims (label.getD "") now s with
    | (.error e, s) => (.error e, s)
    | (.ok id, s) =>
      match ensureRuntimeRow id s with
      | (.error e, s) => (.error e, s)
      | (.ok (), s) => (.ok id, s)

/-- `update_account`, `src/db.rs:498–529`. -/
def updateAccount [UuidText] (id : Uuid) (status label email planType : Option String) (s : Store) :
    Except AppError Unit × Store :=
  if status.any fun value ↦ (parseAccountStatus value).isNone then
    (.error (.badRequest ("invalid account status '" ++ status.getD "" ++ "'")), s)
  else
    match normalizeLabelOpt label with
    | .error e => (.error e, s)
    | .ok label =>
      if s.accounts.has id then
        (.ok (), { s with
          accounts := s.accounts.update (fun k _ ↦ k = id) fun account ↦ { account with
            status := (status.bind parseAccountStatus).getD account.status
            label := label.getD account.label
            email := email.getD account.email
            planType := planType.getD account.planType
            statusReason := if status = some "active" then none else account.statusReason } })
      else (.error (accountNotFound id), s)

/-- `delete_account`, `src/db.rs:531–540`, with the `ON DELETE` actions of the schema. -/
def deleteAccount [UuidText] (id : Uuid) (s : Store) : Except AppError Unit × Store :=
  if s.accounts.has id then
    (.ok (), {
      accounts := s.accounts.delete fun k _ ↦ k = id
      accountRuntimeState := s.accountRuntimeState.delete fun k _ ↦ k = id
      usageWindows := s.usageWindows.delete fun k _ ↦ k.accountId = id
      usageSamples := s.usageSamples.filter fun row ↦ row.accountId ≠ id
      usageSnapshots := s.usageSnapshots.filter fun row ↦ row.accountId ≠ id
      requestLogs := s.requestLogs.map fun row ↦
        if row.accountId = some id then { row with accountId := none } else row
      affinity := s.affinity.delete fun _ row ↦ row.accountId = id
      sessionRoots := s.sessionRoots.mapRows fun _ root ↦ { root with
        requestedAccountId := root.requestedAccountId.filter (· ≠ id)
        effectiveAccountId := root.effectiveAccountId.filter (· ≠ id) }
      sessionRouteKeys := s.sessionRouteKeys })
  else (.error (accountNotFound id), s)

/-- `update_account_tokens`, `src/db.rs:542–578`. The email and the plan are always bound. -/
def updateAccountTokens [UuidText] (id : Uuid) (encrypted : AccountTokens) (claims : AuthClaims)
    (now : Instant) (s : Store) : Except AppError Unit × Store :=
  if !s.accounts.has id then (.error (accountNotFound id), s)
  else if (s.accountByChatgptId claims.chatgptAccountId).any (· ≠ id) then (.error uniqueError, s)
  else
    (.ok (), { s with
      accounts := s.accounts.update (fun k _ ↦ k = id) fun account ↦ { account with
        encrypted := encrypted
        chatgptAccountId := claims.chatgptAccountId.or account.chatgptAccountId
        email := claims.email
        planType := claims.planType
        accessTokenExpiresAt := claims.accessTokenExpiresAt.or account.accessTokenExpiresAt
        lastRefreshAt := now
        status := .active
        statusReason := none } })

/-- The instant at which a cooldown of some seconds ends. -/
def cooldownDeadline (now : Instant) (seconds : Int) : Instant := now + 1000 * seconds

/-- `cooldown_account`, `src/db.rs:2038–2061`. Callers bound `seconds` by 1 and 3600. -/
def cooldownAccount (id : Uuid) (seconds : Int) (reason : String) (now : Instant) (s : Store) :
    Except AppError Unit × Store :=
  match ensureRuntimeRow id s with
  | (.error e, s) => (.error e, s)
  | (.ok (), s) =>
    (.ok (), { s with
      accountRuntimeState := s.accountRuntimeState.update (fun k _ ↦ k = id) fun runtime ↦
        { runtime with
          cooldownUntil := some (cooldownDeadline now seconds)
          cooldownReason := some reason
          failureCount := runtime.failureCount + 1 } })

/-- `mark_auth_failed`, `src/db.rs:2063–2072`. -/
def markAuthFailed (id : Uuid) (reason : String) (s : Store) : Except AppError Unit × Store :=
  (.ok (), { s with
    accounts := s.accounts.update (fun k _ ↦ k = id) fun account ↦
      { account with status := .authFailed, statusReason := some reason } })

/-- `mark_usage_error`, `src/db.rs:2333–2348`. -/
def markUsageError (id : Uuid) (message : String) (s : Store) : Except AppError Unit × Store :=
  (.ok (), { s with
    accounts := s.accounts.update (fun k _ ↦ k = id) fun account ↦
      { account with lastUsageError := some message } })

/-- A timestamp as `julianday` reads its text back: nothing before its day zero and nothing after
the year 9999. -/
def julianText (time : Instant) : TextTime :=
  if -210866760000000 ≤ time ∧ time ≤ 253402300799999 then some time else none

/-- The row of `usage_windows` for a window. -/
def ParsedUsageWindow.row (window : ParsedUsageWindow) (usedPercent : Rat) (fetchedAt : Instant) :
    UsageWindow where
  quotaName := window.quotaName
  windowKind := window.windowKind
  usedPercent := usedPercent
  windowSeconds := window.windowSeconds
  resetAt := window.resetAt.map julianText
  fetchedAt := some fetchedAt

/-- One window of `replace_usage_windows`, `src/db.rs:2268–2304`. SQLite stores a percentage that
is not a number as `NULL`. -/
def insertUsageWindow (accountId : Uuid) (fetchedAt : Instant) (s : Store)
    (window : ParsedUsageWindow) : Except AppError Store :=
  let key : UsageWindowKey := ⟨accountId, window.quotaKey, window.sourceSlot⟩
  match window.usedPercent with
  | none => .error notNullError
  | some usedPercent =>
    if !s.accounts.has accountId then .error foreignKeyError
    else if s.usageWindows.has key then .error uniqueError
    else
      .ok { s with
        usageWindows := s.usageWindows.insert key (window.row usedPercent fetchedAt)
        usageSamples := s.usageSamples ++ [
          { accountId := accountId
            quotaKey := window.quotaKey
            sourceSlot := window.sourceSlot
            windowKind := window.windowKind
            usedPercent := usedPercent
            resetAt := window.resetAt
            recordedAt := fetchedAt }] }

/-- The account columns after a usage refresh; `src/db.rs:2306–2322`. A limited account
becomes active again, every other status stays. -/
def refreshedAccount (planType : Option String) (fetchedAt : Instant) (account : Account) :
    Account :=
  let limited := account.status = .rateLimited ∨ account.status = .quotaExceeded
  { account with
    planType := planType.getD account.planType
    lastUsageRefreshAt := some fetchedAt
    lastUsageError := none
    status := if limited then .active else account.status
    statusReason := if limited then none else account.statusReason }

/-- `replace_usage_windows`, `src/db.rs:2249–2331`. -/
def replaceUsageWindows (accountId : Uuid) (planType : Option String) (fetchedAt : Instant)
    (windows : List ParsedUsageWindow) (s : Store) : Except AppError Unit × Store :=
  if !windows.any fun window ↦ window.quotaKey == "codex" then
    (.error (.upstream "usage response did not contain a Codex quota window"), s)
  else
    match windows.foldlM (insertUsageWindow accountId fetchedAt) { s with
      usageWindows := s.usageWindows.delete fun k _ ↦ k.accountId = accountId } with
    | .error e => (.error e, s)
    | .ok t =>
      (.ok (), { t with
        accounts := t.accounts.update (fun k _ ↦ k = accountId)
          (refreshedAccount planType fetchedAt) })

/-- `insert_request_log`, `src/db.rs:2074–2154`, without the counters. -/
def insertRequestLog (requestId : String) (accountId : Option Uuid) (now : Instant) (s : Store) :
    Except AppError Unit × Store :=
  if accountId.any fun id ↦ !s.accounts.has id then (.error foreignKeyError, s)
  else
    (.ok (), { s with
      requestLogs := s.requestLogs ++ [
        { requestId := requestId, accountId := accountId, createdAt := now }] })

/-- `insert_usage_snapshot`, `src/db.rs:2202–2226`. -/
def insertUsageSnapshot (accountId : Uuid) (now : Instant) (s : Store) :
    Except AppError Unit × Store :=
  if s.accounts.has accountId then
    (.ok (), { s with
      usageSnapshots := s.usageSnapshots ++ [{ accountId := accountId, recordedAt := now }] })
  else (.error foreignKeyError, s)

/-- `i64::clamp`. -/
def clamp (value low high : Int) : Int := max low (min value high)

/-- `prune_history`, `src/db.rs:2395–2422`. -/
def pruneHistory (retentionDays : Int) (now : Instant) (s : Store) :
    Except AppError Unit × Store :=
  let cutoff := now - 86400000 * clamp retentionDays 1 365
  (.ok (), { s with
    usageSamples := s.usageSamples.filter fun row ↦ cutoff ≤ row.recordedAt
    usageSnapshots := s.usageSnapshots.filter fun row ↦ cutoff ≤ row.recordedAt
    affinity := s.affinity.delete fun _ row ↦ row.lastUsedAt < cutoff
    requestLogs := s.requestLogs.filter fun row ↦ cutoff ≤ row.createdAt })

/-! ### What the statements leave alone -/

/-- Ensuring a runtime row writes the runtime rows only. -/
theorem ensureRuntimeRow_frame (accountId : Uuid) (s : Store) : (ensureRuntimeRow accountId s).2 =
    { s with accountRuntimeState := (ensureRuntimeRow accountId s).2.accountRuntimeState } := by
  unfold ensureRuntimeRow
  split
  · rfl
  · split <;> rfl

/-- Ensuring a runtime row keeps the rows that are stored. -/
theorem find_ensureRuntimeRow (accountId : Uuid) {s : Store} {k : Uuid}
    {runtime : AccountRuntimeState} (h : s.accountRuntimeState.find k = some runtime) :
    (ensureRuntimeRow accountId s).2.accountRuntimeState.find k = some runtime := by
  unfold ensureRuntimeRow
  split
  · exact h
  · split
    · rw [Table.find_insert]
      split
      · next he =>
        subst he
        rw [h]
        rfl
      · exact h
    · exact h

/-- Writing an account writes the accounts only. -/
theorem writeAccount_frame (newId : Uuid) (encrypted : AccountTokens)
    (lastRefreshAt : Option Instant) (claims : AuthClaims) (label : String) (now : Instant)
    (s : Store) : (writeAccount newId encrypted lastRefreshAt claims label now s).2 =
      { s with
        accounts :=
          (writeAccount newId encrypted lastRefreshAt claims label now s).2.accounts } := by
  unfold writeAccount
  split
  · rfl
  · split <;> rfl

/-- What holds after the statement of an import, and is kept by ensuring a runtime row, holds after
the import. -/
theorem upsertAccount_keeps (P : Store → Prop) {newId : Uuid} {encrypted : AccountTokens}
    {lastRefreshAt : Option Instant} {claims : AuthClaims} {label : Option String} {now : Instant}
    {s : Store} (hs : P s)
    (hwrite : ∀ out, normalizeLabelOpt label = .ok out →
      P (writeAccount newId encrypted lastRefreshAt claims (out.getD "") now s).2)
    (hensure : ∀ id u, P u → P (ensureRuntimeRow id u).2) :
    P (upsertAccount newId encrypted lastRefreshAt claims label now s).2 := by
  unfold upsertAccount
  split
  · exact hs
  · next out hout =>
    have hw := hwrite out hout
    split
    · next hu => rw [hu] at hw; exact hw
    · next id u hu =>
      rw [hu] at hw
      have he := hensure id u hw
      split
      · next hv => rw [hv] at he; exact he
      · next hv => rw [hv] at he; exact he

/-- What holds before an update of an account and after its statement holds after it. -/
theorem updateAccount_keeps [UuidText] (P : Store → Prop) {id : Uuid}
    {status label email planType : Option String} {s : Store} (hs : P s)
    (hwrite : ∀ out, normalizeLabelOpt label = .ok out → P { s with
      accounts := s.accounts.update (fun k _ ↦ k = id) fun account ↦ { account with
        status := (status.bind parseAccountStatus).getD account.status
        label := out.getD account.label
        email := email.getD account.email
        planType := planType.getD account.planType
        statusReason := if status = some "active" then none else account.statusReason } }) :
    P (updateAccount id status label email planType s).2 := by
  unfold updateAccount
  split
  · exact hs
  · split
    · exact hs
    · next out hout =>
      split
      · exact hwrite out hout
      · exact hs

/-- What a deletion leaves of the accounts was there. -/
theorem find_of_deleteAccount [UuidText] {id other : Uuid} {account : Account} {s : Store}
    (h : (deleteAccount id s).2.accounts.find other = some account) :
    s.accounts.find other = some account := by
  unfold deleteAccount at h
  split at h
  · change (s.accounts.delete _).find other = some account at h
    rw [Table.find_delete, Option.filter_eq_some_iff] at h
    exact h.1
  · exact h

/-- What holds before tokens are stored and after the statement holds after storing them. -/
theorem updateAccountTokens_keeps [UuidText] (P : Store → Prop) {id : Uuid}
    {encrypted : AccountTokens} {claims : AuthClaims} {now : Instant} {s : Store} (hs : P s)
    (hwrite : P { s with
      accounts := s.accounts.update (fun k _ ↦ k = id) fun account ↦ { account with
        encrypted := encrypted
        chatgptAccountId := claims.chatgptAccountId.or account.chatgptAccountId
        email := claims.email
        planType := claims.planType
        accessTokenExpiresAt := claims.accessTokenExpiresAt.or account.accessTokenExpiresAt
        lastRefreshAt := now
        status := .active
        statusReason := none } }) :
    P (updateAccountTokens id encrypted claims now s).2 := by
  unfold updateAccountTokens
  split
  · exact hs
  · split
    · exact hs
    · exact hwrite

/-- Tokens that cannot be stored leave the store alone. -/
theorem updateAccountTokens_error [UuidText] {id : Uuid} {encrypted : AccountTokens}
    {claims : AuthClaims} {now : Instant} {s t : Store} {e : AppError}
    (h : updateAccountTokens id encrypted claims now s = (.error e, t)) : t = s := by
  unfold updateAccountTokens at h
  split at h
  · cases h
    rfl
  · split at h
    · cases h
      rfl
    · cases h

/-- Tokens are stored for a stored account only. -/
theorem updateAccountTokens_has [UuidText] {id : Uuid} {encrypted : AccountTokens}
    {claims : AuthClaims} {now : Instant} {s t : Store}
    (h : updateAccountTokens id encrypted claims now s = (.ok (), t)) :
    s.accounts.has id = true := by
  unfold updateAccountTokens at h
  split at h
  · cases h
  · next hhas => simpa using hhas

/-- A cooldown writes the runtime rows only. -/
theorem cooldownAccount_frame (id : Uuid) (seconds : Int) (reason : String) (now : Instant)
    (s : Store) : (cooldownAccount id seconds reason now s).2 =
      { s with
        accountRuntimeState :=
          (cooldownAccount id seconds reason now s).2.accountRuntimeState } := by
  have hensure := ensureRuntimeRow_frame id s
  unfold cooldownAccount
  split
  · next hu => rw [hu] at hensure; exact hensure
  · next u hu =>
    rw [hu] at hensure
    change u = _ at hensure
    rw [hensure]

/-- Inserting usage windows writes the usage tables only. -/
theorem insertUsageWindows_frame {accountId : Uuid} {fetchedAt : Instant}
    {windows : List ParsedUsageWindow} {s t : Store}
    (h : windows.foldlM (insertUsageWindow accountId fetchedAt) s = .ok t) :
    t = { s with usageWindows := t.usageWindows, usageSamples := t.usageSamples } := by
  induction windows generalizing s with
  | nil => cases h; rfl
  | cons window windows ih =>
    rw [List.foldlM_cons] at h
    obtain ⟨u, hu, h⟩ := bind_eq_ok.mp h
    rw [ih h]
    unfold insertUsageWindow at hu
    simp only at hu
    split at hu
    · cases hu
    · split at hu
      · cases hu
      · split at hu
        · cases hu
        · cases hu
          rfl

/-- What holds before the usage windows are replaced, and after the account and the usage tables
are written, holds after it. -/
theorem replaceUsageWindows_keeps (P : Store → Prop) {accountId : Uuid} {planType : Option String}
    {fetchedAt : Instant} {windows : List ParsedUsageWindow} {s : Store} (hs : P s)
    (hwrite : ∀ usageWindows usageSamples, P { s with
      accounts := s.accounts.update (fun k _ ↦ k = accountId) (refreshedAccount planType fetchedAt)
      usageWindows := usageWindows
      usageSamples := usageSamples }) :
    P (replaceUsageWindows accountId planType fetchedAt windows s).2 := by
  unfold replaceUsageWindows
  split
  · exact hs
  · split
    · exact hs
    · next t ht =>
      rw [insertUsageWindows_frame ht]
      exact hwrite t.usageWindows t.usageSamples

end CodexLb
