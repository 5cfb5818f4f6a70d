import CodexLb.Db.Selection

/-!
# Accounts on the status page

`window_status` and `to_account_status`, `src/status.rs:192–285`, on the rows
that `list_accounts` and `list_usage_windows` read, `src/db.rs:372–412` and
`2349–2359`. The counters, the costs, the pace and the last selection are left
out.
-/

namespace CodexLb

open Relational

/-- A row of `list_accounts`: an account with its runtime row, if it has one. -/
structure AccountSummary where
  id : Uuid
  label : String
  planType : String
  status : AccountStatus
  statusReason : Option String
  accessTokenExpiresAt : Option Instant
  lastUsageRefreshAt : Option Instant
  lastUsageError : Option String
  lastRequestAt : Option Instant
  cooldownUntil : Option Instant
  cooldownReason : Option String
  inflightCount : Int
  deriving DecidableEq, Repr

/-- `WindowStatus`, `src/status.rs:75–85`. -/
structure WindowStatus where
  quotaKey : String
  quotaName : String
  window : String
  usedPercent : Rat
  remainingPercent : Rat
  windowSeconds : Option Int
  resetAt : Option Instant
  fetchedAt : Instant
  deriving DecidableEq, Repr

/-- `AccountStatus`, `src/status.rs:36–58`. -/
structure StatusRow where
  id : Uuid
  label : String
  plan : String
  status : AccountStatus
  available : Bool
  selected : Bool
  statusReason : Option String
  authExpiresAt : Option Instant
  lastUsageRefreshAt : Option Instant
  lastUsageError : Option String
  lastRequestAt : Option Instant
  cooldownUntil : Option Instant
  inflightRequests : Int
  quotas : List WindowStatus
  deriving DecidableEq, Repr

/-- The row of an account in `list_accounts`, `src/db.rs:372–412`. -/
def accountSummary (accountId : Uuid) (s : Store) : Option AccountSummary :=
  (s.accounts.find accountId).map fun account ↦
    let runtime := s.accountRuntimeState.find accountId
    { id := accountId
      label := account.label
      planType := account.planType
      status := account.status
      statusReason := account.statusReason
      accessTokenExpiresAt := account.accessTokenExpiresAt
      lastUsageRefreshAt := account.lastUsageRefreshAt
      lastUsageError := account.lastUsageError
      lastRequestAt := runtime.bind (·.lastRequestAt)
      cooldownUntil := runtime.bind (·.cooldownUntil)
      cooldownReason := runtime.bind (·.cooldownReason)
      inflightCount := (runtime.map (·.inflightCount)).getD 0 }

/-- A nullable timestamp; one that does not parse fails the query. -/
def decodeTime : Option TextTime → Option (Option Instant)
  | none => some none
  | some time => time.map some

/-- `window_status`, `src/status.rs:192–220`, on a row that decodes. -/
def windowStatus (key : UsageWindowKey) (window : UsageWindow) : Option WindowStatus := do
  let resetAt ← decodeTime window.resetAt
  let fetchedAt ← window.fetchedAt
  return {
    quotaKey := key.quotaKey
    quotaName := window.quotaName
    window := window.windowKind
    usedPercent := window.usedPercent
    remainingPercent := max (100 - window.usedPercent) 0
    windowSeconds := window.windowSeconds
    resetAt := resetAt
    fetchedAt := fetchedAt }

/-- The order of the windows on the page: that of the query, which the stable sort of
`src/status.rs:134–138` keeps. -/
def quotaNotAfter (a b : WindowStatus) : Bool :=
  let order :=
    (compareColumn a.quotaKey b.quotaKey).then <|
    (compareColumn a.windowSeconds.isSome b.windowSeconds.isSome).then <|
    (compareColumn (a.windowSeconds.getD 0) (b.windowSeconds.getD 0)).then <|
    compareColumn a.window b.window
  order != .gt

/-- The windows of an account, `src/status.rs:130–138`. -/
def accountQuotas (accountId : Uuid) (s : Store) : Option (List WindowStatus) :=
  ((s.usageWindows.select fun key _ ↦ key.accountId == accountId).mapM fun row ↦
    windowStatus row.1 row.2).map fun quotas ↦
      quotas.insertionSort fun a b ↦ quotaNotAfter a b = true

/-- `to_account_status`, `src/status.rs:222–285`. -/
def toAccountStatus (account : AccountSummary) (index : Nat) (quotas : List WindowStatus)
    (now : Instant) (selected : Bool) : StatusRow :=
  let exhausted := quotas.any fun window ↦
    window.quotaKey == "codex" && decide (100 ≤ window.usedPercent) &&
      window.resetAt.all fun resetAt ↦ decide (now < resetAt)
  let available := account.status == .active &&
    (account.cooldownUntil.all fun cooldownUntil ↦ decide (cooldownUntil ≤ now)) && !exhausted
  let statusReason :=
    if account.status ≠ .active then account.statusReason
    else if account.cooldownUntil.any fun cooldownUntil ↦ decide (now < cooldownUntil) then
      account.cooldownReason
    else none
  { id := account.id
    label := if account.label.isEmpty then s!"account-{index + 1}" else account.label
    plan := account.planType
    status := account.status
    available := available
    selected := selected
    statusReason := statusReason
    authExpiresAt := account.accessTokenExpiresAt
    lastUsageRefreshAt := account.lastUsageRefreshAt
    lastUsageError := account.lastUsageError
    lastRequestAt := account.lastRequestAt
    cooldownUntil := account.cooldownUntil
    inflightRequests := account.inflightCount
    quotas := quotas }

/-- The status of an account at a place of the page; absent when one of its timestamps does not
decode. -/
def accountStatus (accountId : Uuid) (index : Nat) (selected : Bool) (now : Instant) (s : Store) :
    Option StatusRow := do
  let account ← accountSummary accountId s
  let quotas ← accountQuotas accountId s
  return toAccountStatus account index quotas now selected

end CodexLb
