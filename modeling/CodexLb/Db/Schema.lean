import CodexLb.Base.Models
import CodexLb.Relational.Table

/-!
# The database

The tables of `migrations/` with the columns that the modelled statements
read or write. `CHECK … IN` columns are enumerations, `CHECK (… >= 0)`
columns are natural numbers and primary keys are table keys. Foreign keys
are enforced where a statement can break one: `ON DELETE` actions in
`deleteAccount` and the merge, a missing parent as a database error.
-/

namespace CodexLb

open Relational

/-- `accounts`; `migrations/202605050001_initial.sql:1`, `202607210001_local_pool_metrics.sql:1`. -/
structure Account where
  chatgptAccountId : Option String
  label : String
  email : String
  planType : String
  encrypted : AccountTokens
  lastRefreshAt : Instant
  accessTokenExpiresAt : Option Instant
  lastUsageRefreshAt : Option Instant
  lastUsageError : Option String
  status : AccountStatus
  statusReason : Option String
  createdAt : Instant
  deriving DecidableEq, Repr

/-- `account_runtime_state`, without the counters of `insert_request_log`. -/
structure AccountRuntimeState where
  lastSelectedAt : Option String
  cooldownUntil : Option Instant
  cooldownReason : Option String
  failureCount : Int
  lastRequestAt : Option Instant
  inflightCount : Int
  deriving DecidableEq, Repr

/-- The column defaults of `INSERT INTO account_runtime_state (account_id)`. -/
def AccountRuntimeState.default : AccountRuntimeState where
  lastSelectedAt := none
  cooldownUntil := none
  cooldownReason := none
  failureCount := 0
  lastRequestAt := none
  inflightCount := 0

/-- Primary key of `usage_windows`. -/
structure UsageWindowKey where
  accountId : Uuid
  quotaKey : String
  sourceSlot : String
  deriving DecidableEq, Repr

/-- `usage_windows`. -/
structure UsageWindow where
  quotaName : String
  windowKind : String
  usedPercent : Rat
  windowSeconds : Option Int
  resetAt : Option TextTime
  fetchedAt : TextTime
  deriving DecidableEq, Repr

/-- `usage_samples`. -/
structure UsageSample where
  accountId : Uuid
  quotaKey : String
  sourceSlot : String
  windowKind : String
  usedPercent : Rat
  resetAt : Option Instant
  recordedAt : Instant
  deriving DecidableEq, Repr

/-- `usage_snapshots`, the columns that pruning and account deletion read. -/
structure UsageSnapshot where
  accountId : Uuid
  recordedAt : Instant
  deriving DecidableEq, Repr

/-- `request_logs`, the columns that pruning and account deletion read. -/
structure RequestLog where
  requestId : String
  accountId : Option Uuid
  createdAt : Instant
  deriving DecidableEq, Repr

/-- `affinity`, keyed by `key_hash`; `migrations/202607210001_local_pool_metrics.sql:46`. -/
structure Affinity where
  kind : String
  accountId : Uuid
  routeGeneration : Nat
  lastUsedAt : Instant
  deriving DecidableEq, Repr

/-- `session_roots`, keyed by `root_key_hash`;
`migrations/202607230001_session_route_actions.sql:4`. -/
structure SessionRoot where
  routeGeneration : Nat
  lastAction : Option SessionRouteActionKind
  requestedAccountId : Option Uuid
  effectiveAccountId : Option Uuid
  actionStatus : Option SessionRouteActionStatus
  updatedAt : Instant
  deriving DecidableEq, Repr

/-- The column defaults of `INSERT INTO session_roots (root_key_hash)`. -/
def SessionRoot.default (now : Instant) : SessionRoot where
  routeGeneration := 0
  lastAction := none
  requestedAccountId := none
  effectiveAccountId := none
  actionStatus := none
  updatedAt := now

/-- `session_route_keys`, keyed by `key_hash`;
`migrations/202607230001_session_route_actions.sql:39`. -/
structure SessionRouteKeyRow where
  rootKeyHash : String
  kind : String
  deriving DecidableEq, Repr

/-- Every table of the daemon but `settings`, which the operations receive parsed. -/
structure Store where
  accounts : Table Uuid Account
  accountRuntimeState : Table Uuid AccountRuntimeState
  usageWindows : Table UsageWindowKey UsageWindow
  usageSamples : List UsageSample
  usageSnapshots : List UsageSnapshot
  requestLogs : List RequestLog
  affinity : Table String Affinity
  sessionRoots : Table String SessionRoot
  sessionRouteKeys : Table String SessionRouteKeyRow

namespace Store

/-- The route tables are empty but for legacy affinity rows, which the migration puts at
generation zero; their accounts exist. -/
structure FreshlyMigrated (s : Store) : Prop where
  roots : s.sessionRoots = .empty
  routeKeys : s.sessionRouteKeys = .empty
  legacy : ∀ k row, s.affinity.find k = some row → row.routeGeneration = 0
  accounts : ∀ k row, s.affinity.find k = some row → s.accounts.has row.accountId = true

/-- A freshly migrated store that holds some accounts, each with an idle runtime row. -/
def initial (accounts : Table Uuid Account) : Store where
  accounts := accounts
  accountRuntimeState :=
    { rows := accounts.rows.map fun row ↦ (row.1, .default)
      distinct := by simpa [Function.comp_def] using accounts.distinct }
  usageWindows := .empty
  usageSamples := []
  usageSnapshots := []
  requestLogs := []
  affinity := .empty
  sessionRoots := .empty
  sessionRouteKeys := .empty

/-- A store of this form is freshly migrated. -/
theorem freshlyMigrated_initial (accounts : Table Uuid Account) :
    (initial accounts).FreshlyMigrated where
  roots := rfl
  routeKeys := rfl
  legacy _ _ h := by cases h
  accounts _ _ h := by cases h

/-- Label shown for an account; `src/db.rs:424–440` and `973–983`. -/
def accountDisplayLabel (s : Store) (accountId : Uuid) : Option String :=
  (s.accounts.find accountId).map fun account ↦
    if account.label = "" then "unlabeled" else account.label

/-- A label is shown exactly for the stored accounts. -/
theorem accountDisplayLabel_isSome (s : Store) (accountId : Uuid) :
    (s.accountDisplayLabel accountId).isSome = s.accounts.has accountId := by
  rw [accountDisplayLabel, Option.isSome_map, Table.has]

end Store
end CodexLb
