import CodexLb.Base.Uuid

/-!
# Values passed between the daemon's parts

`src/models.rs`, `src/error.rs` and the scalar types under them. Instants are
milliseconds since the epoch, the resolution of SQLite's date functions; a
clock reading also carries the text that is stored and compared as text.
-/

namespace CodexLb

/-- Milliseconds since the epoch. -/
abbrev Instant := Int

/-- A clock reading: the instant, and its text as a `TEXT` column stores it. -/
structure Clock where
  instant : Instant
  text : String
  deriving DecidableEq, Repr

/-- A stored timestamp text as `julianday` reads it; `none` where it cannot be parsed. -/
abbrev TextTime := Option Instant

/-- The largest `i64`. -/
def i64Max : Nat := 2 ^ 63 - 1

/-- `src/error.rs:5–21`. -/
inductive AppError where
  | badRequest (message : String)
  | unauthorized (message : String)
  | notFound (message : String)
  | unavailable (message : String)
  | upstream (message : String)
  | database (message : String)
  | internal (message : String)
  deriving DecidableEq, Repr

/-- `SessionRouteActionKind`, `src/models.rs`. -/
inductive SessionRouteActionKind where
  | rebalance
  | reroute
  deriving DecidableEq, Repr

/-- `SessionRouteActionStatus`, `src/models.rs`. -/
inductive SessionRouteActionStatus where
  | applied
  | fallback
  | pending
  | noOp
  deriving DecidableEq, Repr

/-- `SessionRouteKey`, `src/models.rs`. -/
structure SessionRouteKey where
  keyHash : String
  kind : String
  deriving DecidableEq, Repr

/-- `SessionRouteActionRequest`, `src/models.rs`. -/
structure SessionRouteActionRequest where
  rootKeyHash : String
  keys : List SessionRouteKey
  action : SessionRouteActionKind
  target : Option String
  dryRun : Bool
  deriving DecidableEq, Repr

/-- `SessionRouteActionResponse`, `src/models.rs`. -/
structure SessionRouteActionResponse where
  rootKeyHash : String
  sessionFingerprint : String
  action : SessionRouteActionKind
  status : SessionRouteActionStatus
  requestedAccount : Option String
  effectiveAccount : Option String
  previousAccounts : List String
  routeGeneration : Nat
  linkedRouteCount : Nat
  changedRouteCount : Nat
  mergedRootCount : Nat
  dryRun : Bool
  deriving DecidableEq, Repr

/-- `ResolvedSessionRouteTarget`, `src/models.rs`. -/
structure ResolvedSessionRouteTarget where
  accountId : Uuid
  accountLabel : String
  deriving DecidableEq, Repr

/-- `SessionRouteEpoch`, `src/models.rs`. -/
structure SessionRouteEpoch where
  rootKeyHash : String
  routeGeneration : Nat
  selectionKeyHash : String
  deriving DecidableEq, Repr

/-- `SelectionReason`, `src/models.rs`. -/
inductive SelectionReason where
  | sticky
  | usageWeighted
  | roundRobin
  | failover
  | websocketReuse
  deriving DecidableEq, Repr

/-- `RuntimeSettings`, `src/models.rs`. -/
structure RuntimeSettings where
  routingStrategy : String
  proxyMaxAttempts : Nat
  rateLimitCooldownSeconds : Int
  stickySessionTtlSeconds : Int
  usageSampleRetentionDays : Int
  deriving DecidableEq, Repr

/-- `RuntimeSettings::default`, `src/models.rs`. -/
def RuntimeSettings.default : RuntimeSettings where
  routingStrategy := "usage_weighted"
  proxyMaxAttempts := 2
  rateLimitCooldownSeconds := 60
  stickySessionTtlSeconds := 7 * 24 * 60 * 60
  usageSampleRetentionDays := 30

/-- `accounts.status`; `migrations/202605050001_initial.sql:10`. -/
inductive AccountStatus where
  | active
  | rateLimited
  | quotaExceeded
  | paused
  | authFailed
  deriving DecidableEq, Repr

/-- `AuthClaims`, `src/auth_file.rs`. -/
structure AuthClaims where
  chatgptAccountId : Option String
  email : String
  planType : String
  accessTokenExpiresAt : Option Instant
  deriving DecidableEq, Repr

/-- `AccountTokens`, `src/models.rs`: plain tokens, or their ciphertexts as stored. -/
structure AccountTokens where
  accessToken : String
  refreshToken : String
  idToken : String
  deriving DecidableEq, Repr

/-- `ParsedUsageWindow`, `src/usage.rs:7–16`; a percentage that is not a number is absent. -/
structure ParsedUsageWindow where
  quotaKey : String
  quotaName : String
  sourceSlot : String
  windowKind : String
  usedPercent : Option Rat
  windowSeconds : Option Int
  resetAt : Option Instant
  deriving DecidableEq, Repr

/-- `TokenCrypto::decrypt`, `src/crypto.rs`, under the daemon's key. -/
structure TokenCrypto where
  decrypt : String → Except AppError String

end CodexLb
