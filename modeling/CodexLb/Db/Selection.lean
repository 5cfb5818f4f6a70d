import CodexLb.Db.Accounts
import CodexLb.Relational.Query
import Mathlib.Algebra.Order.Ring.Rat
import Mathlib.Data.Rat.Floor

/-!
# Account selection

Eligibility, the smart routing order, the sticky path and the in-flight
counter of `src/db.rs:580–1105`. The order is computed on exact rationals
where SQLite uses doubles rounded to six places. An instant is the text
bound as `selected_at` or SQLite's own `'now'`.
-/

namespace CodexLb

open Relational

/-- `ROUTING_UNKNOWN_PRESSURE`, `src/db.rs:39`. -/
def routingUnknownPressure : Rat := 100

/-- `ROUTING_INFLIGHT_PENALTY`, `src/db.rs:40`. -/
def routingInflightPenalty : Rat := 2

/-- `ROUTING_CLOCK_SKEW_SECONDS`, `src/db.rs:38`, in milliseconds. -/
def routingClockSkew : Instant := 300 * 1000

/-- Age up to which usage counts as fresh, in milliseconds; `src/db.rs:697–701`. -/
def routingFreshness (usageRefreshInterval : Nat) : Instant :=
  1000 * (min (max (min (usageRefreshInterval * 3) (2 ^ 64 - 1)) 300) i64Max : Nat)

/-! ### Eligibility -/

/-- The `NOT EXISTS` test on `usage_windows`, negated; `src/db.rs:951–963`. -/
def quotaExhausted (accountId : Uuid) (selectedAt : Instant) (s : Store) : Bool :=
  s.usageWindows.rows.any fun window ↦
    window.1.accountId == accountId && window.1.quotaKey == "codex" &&
      decide (100 ≤ window.2.usedPercent) &&
      match window.2.resetAt with
      | none => true
      | some none => true
      | some (some resetAt) => decide (selectedAt < resetAt)

/-- No cooldown, or one that has ended; `src/db.rs:947–950`. -/
def cooldownEnded (runtime : AccountRuntimeState) (selectedAt : Instant) : Bool :=
  match runtime.cooldownUntil with
  | none => true
  | some cooldownUntil => decide (cooldownUntil ≤ selectedAt)

/-- `account_is_eligible_in_transaction`, `src/db.rs:936–971`. -/
def accountIsEligible (accountId : Uuid) (selectedAt : Instant) (s : Store) : Bool :=
  match s.accounts.find accountId, s.accountRuntimeState.find accountId with
  | some account, some runtime =>
    account.status = .active && cooldownEnded runtime selectedAt &&
      !quotaExhausted accountId selectedAt s
  | _, _ => false

/-- An eligible account is stored and active, with a runtime row whose cooldown has ended. -/
theorem accountIsEligible_iff {accountId : Uuid} {selectedAt : Instant} {s : Store} :
    accountIsEligible accountId selectedAt s = true ↔
      ∃ account runtime, s.accounts.find accountId = some account ∧
        s.accountRuntimeState.find accountId = some runtime ∧ account.status = .active ∧
        cooldownEnded runtime selectedAt = true ∧
        quotaExhausted accountId selectedAt s = false := by
  unfold accountIsEligible
  split
  · next account runtime ha hr => simp [ha, hr, and_assoc]
  · next hno =>
    constructor
    · intro h
      cases h
    · rintro ⟨account, runtime, ha, hr, -⟩
      exact absurd hr (hno account runtime ha)

/-! ### The smart routing order -/

/-- `score_kind`, `src/db.rs:725–757`. -/
inductive ScoreKind where
  | timed
  | raw
  | reset
  | unknown
  deriving DecidableEq, Repr

/-- `classified_windows`, `src/db.rs:725–757`. -/
def scoreKind (now freshness : Instant) (window : UsageWindow) : ScoreKind :=
  if window.resetAt = some none then .unknown
  else if window.windowSeconds.any (· ≤ 0) then .unknown
  else
    match window.resetAt.join with
    | some resetAt =>
      if window.windowSeconds.any fun seconds ↦
          now + 1000 * seconds + routingClockSkew < resetAt then
        .unknown
      else if resetAt ≤ now ∧ now - freshness ≤ resetAt then .reset
      else if resetAt < now - freshness then .unknown
      else fetched (window.windowSeconds.isNone)
    | none => fetched true
where
  /-- The branches that read `fetched_at`. -/
  fetched (untimed : Bool) : ScoreKind :=
    match window.fetchedAt with
    | none => .unknown
    | some fetchedAt =>
      if fetchedAt < now - freshness ∨ now + routingClockSkew < fetchedAt then .unknown
      else if untimed then .raw
      else .timed

/-- A row of `window_scores`, and of `account_scores`. -/
structure RoutingScore where
  pressure : Rat
  telemetryQuality : Nat
  effectiveUsed : Rat
  deriving DecidableEq, Repr

/-- `window_scores`, `src/db.rs:758–791`. -/
def windowScore (now freshness : Instant) (window : UsageWindow) : RoutingScore :=
  let used := min 100 (max 0 window.usedPercent)
  match scoreKind now freshness window with
  | .timed =>
    let left : Rat := ((window.resetAt.join.getD now - now : Int) : Rat) / 1000
    let share := min 1 (max 0 (left / (window.windowSeconds.getD 1 : Int)))
    ⟨used - 100 * (1 - share), 0, used⟩
  | .raw => ⟨used, 0, used⟩
  | .reset => ⟨0, 1, 0⟩
  | .unknown => ⟨routingUnknownPressure, 2, routingUnknownPressure⟩

/-- The columnwise `MAX` of `account_scores`, `src/db.rs:792–801`. -/
def RoutingScore.max (a b : RoutingScore) : RoutingScore where
  pressure := Max.max a.pressure b.pressure
  telemetryQuality := Max.max a.telemetryQuality b.telemetryQuality
  effectiveUsed := Max.max a.effectiveUsed b.effectiveUsed

/-- `account_scores` of one account; absent without Codex windows. -/
def accountScore (accountId : Uuid) (now freshness : Instant) (s : Store) : Option RoutingScore :=
  let windows := s.usageWindows.select fun key _ ↦
    key.accountId == accountId && key.quotaKey == "codex"
  match windows.map fun window ↦ windowScore now freshness window.2 with
  | [] => none
  | score :: scores => some (scores.foldl RoutingScore.max score)

/-- `ROUND(value, 6)` in millionths, halves away from zero. -/
def roundMillionths (value : Rat) : Int :=
  if 0 ≤ value then ⌊value * 1000000 + 1 / 2⌋ else -⌊-value * 1000000 + 1 / 2⌋

/-- The columns that order the candidates; `src/db.rs:847–874`. -/
structure SmartCandidate where
  accountId : Uuid
  pressure : Int
  telemetryQuality : Nat
  worstEffectiveUsed : Rat
  inflightCount : Int
  lastSelectedAt : String
  createdAt : Instant
  deriving DecidableEq, Repr

/-- The candidate row of an account. -/
def smartCandidate (usageWeighted : Bool) (now freshness : Instant) (s : Store) (accountId : Uuid)
    (account : Account) (runtime : AccountRuntimeState) : SmartCandidate :=
  let score := (accountScore accountId now freshness s).getD
    ⟨routingUnknownPressure, 2, routingUnknownPressure⟩
  let inflight := max runtime.inflightCount 0
  { accountId := accountId
    pressure :=
      if usageWeighted then
        roundMillionths (score.pressure + routingInflightPenalty * (inflight : Int)) else 0
    telemetryQuality := if usageWeighted then score.telemetryQuality else 0
    worstEffectiveUsed := if usageWeighted then score.effectiveUsed else 0
    inflightCount := if usageWeighted then inflight else 0
    lastSelectedAt := runtime.lastSelectedAt.getD "1970-01-01T00:00:00.000Z"
    createdAt := account.createdAt }

/-- `ORDER BY` of `push_smart_account_candidate`, `src/db.rs:847–874`. Round robin ends with
`rowid`, which is the row order. -/
def candidateBefore (usageWeighted : Bool) (a b : SmartCandidate) : Bool :=
  let order :=
    (compareColumn a.pressure b.pressure).then <|
    (compareColumn a.telemetryQuality b.telemetryQuality).then <|
    (compareColumn a.worstEffectiveUsed b.worstEffectiveUsed).then <|
    (compareColumn a.inflightCount b.inflightCount).then <|
    (compareColumn a.lastSelectedAt b.lastSelectedAt).then <|
    (compareColumn a.createdAt b.createdAt).then <|
    if usageWeighted then compareColumn a.accountId b.accountId else .eq
  order == .lt

/-- `push_smart_account_candidate`, `src/db.rs:806–876`: the eligible accounts that are not
excluded. -/
def smartCandidates (usageWeighted : Bool) (freshness : Instant) (selectedAt : Instant)
    (excluded : List Uuid) (s : Store) : List SmartCandidate :=
  s.accounts.rows.filterMap fun row ↦
    (s.accountRuntimeState.find row.1).bind fun runtime ↦
      if accountIsEligible row.1 selectedAt s && !excluded.contains row.1 then
        some (smartCandidate usageWeighted selectedAt freshness s row.1 row.2 runtime)
      else none

/-- `smart_account_preview_query`, `src/db.rs:878–934`. -/
def previewSmartAccount (settings : RuntimeSettings) (usageRefreshInterval : Nat)
    (excluded : List Uuid) (selectedAt : Instant) (s : Store) : Option Uuid :=
  let usageWeighted := settings.routingStrategy != "round_robin"
  (firstBy (candidateBefore usageWeighted) (smartCandidates usageWeighted
    (routingFreshness usageRefreshInterval) selectedAt excluded s)).map SmartCandidate.accountId

/-- The previewed account is eligible and not excluded. -/
theorem previewSmartAccount_eligible {settings : RuntimeSettings} {usageRefreshInterval : Nat}
    {excluded : List Uuid} {selectedAt : Instant} {s : Store} {accountId : Uuid}
    (h : previewSmartAccount settings usageRefreshInterval excluded selectedAt s =
      some accountId) :
    accountIsEligible accountId selectedAt s = true ∧ accountId ∉ excluded := by
  obtain ⟨candidate, hc, rfl⟩ := Option.map_eq_some_iff.mp h
  obtain ⟨row, -, hrow⟩ := List.mem_filterMap.mp (firstBy_mem hc)
  obtain ⟨runtime, -, hif⟩ := Option.bind_eq_some_iff.mp hrow
  split at hif
  · next hcond =>
    cases hif
    simpa [smartCandidate] using hcond
  · cases hif

end CodexLb
