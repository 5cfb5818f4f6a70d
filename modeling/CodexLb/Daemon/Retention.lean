import CodexLb.Daemon.Routing
import CodexLb.Db.Settings

/-!
# Pruning and routing

`prune_history` (`src/db.rs:2395–2422`) deletes affinity rows by the retention
of the usage samples, the sticky lookup reads them by their own lifetime.
Both settings are checked separately, so a retention that is shorter than
the sticky lifetime deletes routes that are still live.
-/

namespace CodexLb

open Relational Transition

variable {s t : Store}

/-! ### Selection after another store -/

/-- The sticky path reads the pinned account, and the tables that the smart path reads. -/
theorem selectAccountForRequest_congr [UuidText] {crypto : TokenCrypto}
    {affinity : Option SessionRouteKey} {excluded : List Uuid} {settings : RuntimeSettings}
    {usageRefreshInterval : Nat} {selectedAt now : Clock}
    (haccounts : t.accounts = s.accounts)
    (hruntime : t.accountRuntimeState = s.accountRuntimeState)
    (hwindows : t.usageWindows = s.usageWindows)
    (hpinned : ∀ key, affinity = some key →
      pinnedAccount key.keyHash settings selectedAt.instant t =
        pinnedAccount key.keyHash settings selectedAt.instant s) :
    (selectAccountForRequest crypto affinity excluded settings usageRefreshInterval selectedAt now
        t).1 =
      (selectAccountForRequest crypto affinity excluded settings usageRefreshInterval selectedAt
        now s).1 := by
  have heligible : ∀ id, accountIsEligible id now.instant t =
      accountIsEligible id now.instant s := by
    intro id
    unfold accountIsEligible quotaExhausted
    rw [haccounts, hruntime, hwindows]
  have hsmart : (selectSmartAccount crypto excluded settings usageRefreshInterval selectedAt now
        t).1 =
      (selectSmartAccount crypto excluded settings usageRefreshInterval selectedAt now s).1 := by
    apply selectSmartAccount_congr haccounts
    unfold previewSmartAccount smartCandidates accountIsEligible quotaExhausted smartCandidate
      accountScore
    rw [haccounts, hruntime, hwindows]
  have hsame : (affinity.bind fun key ↦ pinnedAccount key.keyHash settings selectedAt.instant t) =
      affinity.bind fun key ↦ pinnedAccount key.keyHash settings selectedAt.instant s := by
    cases affinity with
    | none => rfl
    | some key => exact hpinned key rfl
  unfold selectAccountForRequest
  dsimp only
  rw [hsame]
  split
  · exact hsmart
  · next id _ =>
    split
    · exact hsmart
    · unfold acquireAccountIfAvailable
      rw [heligible]
      by_cases hacquired : accountIsEligible id now.instant s = true
      · have hselected : ∀ reason,
            selectedAccount crypto id reason (t.updateRuntime id (acquiredRuntime now)) =
              selectedAccount crypto id reason (s.updateRuntime id (acquiredRuntime now)) := by
          intro reason
          unfold selectedAccount Store.updateRuntime
          rw [haccounts]
        rw [if_pos hacquired, if_pos hacquired]
        dsimp only
        unfold finishSelection
        rw [hselected]
        split <;> rfl
      · rw [if_neg hacquired, if_neg hacquired]
        exact hsmart

/-! ### Pruned routes -/

/-- The age from which `prune_history` deletes a row, in milliseconds. -/
def RuntimeSettings.retention (settings : RuntimeSettings) : Instant :=
  86400000 * settings.usageSampleRetentionDays

/-- The age up to which the sticky lookup reads a row, in milliseconds. -/
def RuntimeSettings.stickyLifetime (settings : RuntimeSettings) : Instant :=
  1000 * settings.stickySessionTtlSeconds

/-- The store after a pruning with the configured retention; `src/scheduler.rs:32–45`. -/
def Store.pruned (s : Store) (settings : RuntimeSettings) (now : Instant) : Store :=
  (pruneHistory settings.usageSampleRetentionDays now s).2

/-- A pruning at an instant deletes no live route and changes no selection at that instant. -/
structure RoutingKept [UuidText] (settings : RuntimeSettings) (now : Clock) (s : Store) : Prop where
  routes : ∀ keyHash row, s.affinity.find keyHash = some row →
    now.instant - settings.stickyLifetime ≤ row.lastUsedAt →
    (s.pruned settings now.instant).affinity.find keyHash = some row
  selections : ∀ (crypto : TokenCrypto) (affinity : Option SessionRouteKey) (excluded : List Uuid)
    (usageRefreshInterval : Nat) (acquiredAt : Clock),
    (selectAccountForRequest crypto affinity excluded settings usageRefreshInterval now acquiredAt
        (s.pruned settings now.instant)).1 =
      (selectAccountForRequest crypto affinity excluded settings usageRefreshInterval now
        acquiredAt s).1

private theorem ages_le {now lastUsed seconds days : Int} (hle : seconds ≤ 86400 * days)
    (hlive : now - 1000 * seconds ≤ lastUsed) : now - 86400000 * days ≤ lastUsed := by
  omega

/-- No route was last used between the two ages. -/
def NoRouteBetween (settings : RuntimeSettings) (now : Instant) (s : Store) : Prop :=
  ∀ keyHash row, s.affinity.find keyHash = some row →
    now - settings.stickyLifetime ≤ row.lastUsedAt → now - settings.retention ≤ row.lastUsedAt

/-- Pruning keeps the routes that are younger than the retention. -/
theorem find_pruned {settings : RuntimeSettings} (h : settings.InRange) (now : Instant)
    (keyHash : String) : (s.pruned settings now).affinity.find keyHash =
      (s.affinity.find keyHash).filter fun row ↦ now - settings.retention ≤ row.lastUsedAt := by
  have hclamp : clamp settings.usageSampleRetentionDays 1 365 =
      settings.usageSampleRetentionDays := by
    have hretention := h.retention
    unfold clamp
    omega
  have hpruned : (s.pruned settings now).affinity = s.affinity.delete fun _ row ↦
      row.lastUsedAt < now - 86400000 * clamp settings.usageSampleRetentionDays 1 365 := rfl
  rw [hpruned, hclamp, Table.find_delete]
  congr 1
  funext row
  unfold RuntimeSettings.retention
  rw [← decide_not]
  simp only [not_lt]

private theorem RoutingKept.noRouteBetween [UuidText] {settings : RuntimeSettings} {now : Clock}
    (hrange : settings.InRange) (h : RoutingKept settings now s) :
    NoRouteBetween settings now.instant s := by
  intro keyHash row hfind hlive
  have hkept := h.routes keyHash row hfind hlive
  rw [find_pruned hrange, Option.filter_eq_some_iff] at hkept
  simpa using hkept.2

/-- A pruning that meets no route between the two ages changes no selection. -/
theorem NoRouteBetween.routingKept [UuidText] {settings : RuntimeSettings} {now : Clock}
    (hrange : settings.InRange) (h : NoRouteBetween settings now.instant s) :
    RoutingKept settings now s where
  routes keyHash row hfind hlive := by
    rw [find_pruned hrange, hfind]
    have hkept := h keyHash row hfind hlive
    rw [Option.filter_some_pos]
    simpa using hkept
  selections crypto affinity excluded usageRefreshInterval acquiredAt := by
    apply selectAccountForRequest_congr (s := s) (t := s.pruned settings now.instant) rfl rfl rfl
    rintro key -
    unfold pinnedAccount
    rw [find_pruned hrange]
    cases hfind : s.affinity.find key.keyHash with
    | none => rfl
    | some row =>
      by_cases hlive : now.instant - settings.stickyLifetime ≤ row.lastUsedAt
      · have hkept := h key.keyHash row hfind hlive
        rw [Option.filter_some_pos (by simpa using hkept)]
        rfl
      · -- a row that the sticky lookup refuses pins nothing whether it is stored or not
        rw [Option.bind_some, if_neg fun hpinned ↦ hlive hpinned.1]
        rw [Option.filter_some]
        split
        · exact if_neg fun hpinned ↦ hlive hpinned.1
        · rfl

/-- A route of the second account, last used as long ago as the sticky lifetime allows. -/
private def oldestRoute (settings : RuntimeSettings) : Store :=
  { twoAccounts with
    affinity := Table.empty.insert sessionKey.keyHash
      ⟨sessionKey.kind, 2, 0, -settings.stickyLifetime⟩ }

/-- **History pruning keeps the routes exactly when the sticky lifetime does not exceed the
retention**, or when no route was last used in between; in every store and at every instant it
does so only if the settings agree. -/
theorem pruning_keeps_routing_iff [UuidText] (rows : SettingRows) :
    let settings := runtimeSettings rows
    (∀ (now : Clock) (s : Store), RoutingKept settings now s ↔
      settings.stickySessionTtlSeconds ≤ 86400 * settings.usageSampleRetentionDays ∨
        NoRouteBetween settings now.instant s) ∧
    ((∀ (now : Clock) (s : Store), RoutingKept settings now s) ↔
      settings.stickySessionTtlSeconds ≤ 86400 * settings.usageSampleRetentionDays) := by
  intro settings
  have hrange : settings.InRange := runtimeSettings_inRange rows
  have hages : settings.stickySessionTtlSeconds ≤ 86400 * settings.usageSampleRetentionDays →
      ∀ now s, NoRouteBetween settings now s := by
    intro hle now s keyHash row _ hlive
    exact ages_le hle hlive
  have hkept : ∀ (now : Clock) (s : Store), RoutingKept settings now s ↔
      settings.stickySessionTtlSeconds ≤ 86400 * settings.usageSampleRetentionDays ∨
        NoRouteBetween settings now.instant s := by
    intro now s
    constructor
    · exact fun h ↦ .inr (h.noRouteBetween hrange)
    · rintro (hle | hnone)
      · exact (hages hle now.instant s).routingKept hrange
      · exact hnone.routingKept hrange
  refine ⟨hkept, fun h ↦ ?_, fun hle now s ↦ (hkept now s).mpr (.inl hle)⟩
  have hfind : (oldestRoute settings).affinity.find sessionKey.keyHash =
      some ⟨sessionKey.kind, 2, 0, -settings.stickyLifetime⟩ := by
    rw [oldestRoute, Table.find_insert, if_pos rfl]
    rfl
  have hbetween := (h ⟨0, ""⟩ (oldestRoute settings)).noRouteBetween hrange _ _ hfind (by
    show (0 : Int) - settings.stickyLifetime ≤ -settings.stickyLifetime
    omega)
  change (0 : Int) - 86400000 * settings.usageSampleRetentionDays ≤
    -(1000 * settings.stickySessionTtlSeconds) at hbetween
  omega

/-- The settings after the retention alone was set to one day. -/
def oneDayRetention : SettingRows :=
  (upsertSettings [("usage_sample_retention_days", .number (.posInt 1))] migratedSettings).2

/-- The two accounts after the session was bound to the second one. -/
def boundToSecond : Store := (bindAffinitiesAtEpoch [sessionKey] 2 none 1000 twoAccounts).2

/-- With a retention of one day a pruning two days later deletes a route that is sticky for
seven, and the session moves to the first account. -/
theorem pruning_moves_live_session : let _ := hyphenatedText
    let settings := runtimeSettings oneDayRetention
    let now : Clock := ⟨172801000, ""⟩
    let select := selectAccountForRequest ⟨Except.ok⟩ (some sessionKey) [] settings 300 now now
    AcceptedSettings oneDayRetention ∧ boundToSecond.Reached ∧
      (select boundToSecond).1.toOption.map (fun selected ↦
        (selected.accountId, selected.selectionReason)) = some (2, .sticky) ∧
      (select (boundToSecond.pruned settings now.instant)).1.toOption.map (fun selected ↦
        (selected.accountId, selected.selectionReason)) = some (1, .usageWeighted) ∧
      ¬ RoutingKept settings now boundToSecond := by
  intro _ settings now select
  have hbefore : (select boundToSecond).1.toOption.map (fun selected ↦
      (selected.accountId, selected.selectionReason)) = some (2, .sticky) := by decide +kernel
  have hafter : (select (boundToSecond.pruned settings now.instant)).1.toOption.map
      (fun selected ↦ (selected.accountId, selected.selectionReason)) =
        some (1, .usageWeighted) := by decide +kernel
  have hrun : Run Store.Step twoAccounts
      [(.bindAffinitiesAtEpoch [sessionKey] 2 none, ⟨1000, ""⟩)] boundToSecond := .single rfl
  refine ⟨.upsert [("usage_sample_retention_days", .number (.posInt 1))] .migrated rfl,
    twoAccounts_reached.run hrun, hbefore, hafter, ?_⟩
  intro hkept
  have hsame := hkept.selections ⟨Except.ok⟩ (some sessionKey) [] 300 now
  rw [show (select (boundToSecond.pruned settings now.instant)).1 = (select boundToSecond).1 from
    hsame, hbefore] at hafter
  exact absurd hafter (by decide)

end CodexLb
