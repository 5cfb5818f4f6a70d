import CodexLb.Db.Selection

/-!
# Acquiring and releasing accounts

The statements that move `inflight_count`: the sticky and the smart
acquisition of `select_account_for_request` (`src/db.rs:580–689`), the
acquisition of a pinned transport and the releases (`src/db.rs:986–1105`).
-/

namespace CodexLb

open Relational

/-- Rewrite the runtime row of one account. -/
def Store.updateRuntime (s : Store) (accountId : Uuid)
    (f : AccountRuntimeState → AccountRuntimeState) : Store :=
  { s with accountRuntimeState := s.accountRuntimeState.update (fun k _ ↦ k = accountId) f }

/-- The `SET` of `acquire_account_if_available`, `src/db.rs:1012–1026`: only an ended cooldown
is cleared. -/
def acquiredRuntime (now : Clock) (runtime : AccountRuntimeState) : AccountRuntimeState :=
  let ended := runtime.cooldownUntil.any (· ≤ now.instant)
  { runtime with
    lastSelectedAt := some now.text
    cooldownUntil := if ended then none else runtime.cooldownUntil
    cooldownReason := if ended then none else runtime.cooldownReason
    inflightCount := runtime.inflightCount + 1 }

/-- `acquire_account_if_available`, `src/db.rs:1009–1050`; its `WHERE` is the eligibility test
on the row it updates. -/
def acquireAccountIfAvailable (accountId : Uuid) (now : Clock) (s : Store) :
    Except AppError Bool × Store :=
  if accountIsEligible accountId now.instant s then
    (.ok true, s.updateRuntime accountId (acquiredRuntime now))
  else (.ok false, s)

/-- The `SET` of the smart acquisition, `src/db.rs:650–659`. -/
def selectedRuntime (selectedAt : Clock) (runtime : AccountRuntimeState) : AccountRuntimeState :=
  { runtime with
    lastSelectedAt := some selectedAt.text
    cooldownUntil := none
    cooldownReason := none
    inflightCount := runtime.inflightCount + 1 }

/-- The smart path of `select_account_for_request` up to its commit, `src/db.rs:637–674`. -/
def acquireSmartAccount (settings : RuntimeSettings) (usageRefreshInterval : Nat)
    (excluded : List Uuid) (selectedAt : Clock) (s : Store) : Except AppError Uuid × Store :=
  match previewSmartAccount settings usageRefreshInterval excluded selectedAt.instant s with
  | some accountId => (.ok accountId, s.updateRuntime accountId (selectedRuntime selectedAt))
  | none =>
    (.error (.unavailable
      "no eligible accounts are available; retry after the current cooldown"), s)

/-- The sticky lookup of `select_account_for_request`, `src/db.rs:590–617`. -/
def pinnedAccount (keyHash : String) (settings : RuntimeSettings) (selectedAt : Instant)
    (s : Store) : Option Uuid :=
  (s.affinity.find keyHash).bind fun affinity ↦
    if selectedAt - 1000 * settings.stickySessionTtlSeconds ≤ affinity.lastUsedAt ∧
        accountIsEligible affinity.accountId selectedAt s = true then
      some affinity.accountId
    else none

/-- `release_account_inner`, `src/db.rs:1062–1098`, whose retries meet only database errors. -/
def releaseAccountInner (accountId : Uuid) (updateLastRequest : Bool) (now : Instant)
    (s : Store) : Except AppError Unit × Store :=
  (.ok (), s.updateRuntime accountId fun runtime ↦ { runtime with
    inflightCount := max 0 (runtime.inflightCount - 1)
    lastRequestAt := if updateLastRequest then some now else runtime.lastRequestAt })

/-- `release_account`, `src/db.rs:1052–1054`. -/
def releaseAccount (accountId : Uuid) (now : Instant) (s : Store) :
    Except AppError Unit × Store :=
  releaseAccountInner accountId true now s

/-- `reset_inflight`, `src/db.rs:1100–1105`, which the daemon runs once at startup. -/
def resetInflight (s : Store) : Except AppError Unit × Store :=
  (.ok (), { s with
    accountRuntimeState := s.accountRuntimeState.mapRows fun _ runtime ↦
      { runtime with inflightCount := 0 } })

/-- `account_count`, `src/db.rs:2031–2036`. -/
def accountCount (s : Store) : Nat :=
  (s.accounts.select fun _ account ↦ account.status = .active).length

/-- `SelectedAccount`, `src/models.rs:353–357`. -/
structure SelectedAccount where
  accountId : Uuid
  account : Account
  tokens : AccountTokens
  selectionReason : SelectionReason
  deriving DecidableEq, Repr

/-- `selected_account`, `src/db.rs:986–1005`. -/
def selectedAccount [UuidText] (crypto : TokenCrypto) (accountId : Uuid)
    (selectionReason : SelectionReason) (s : Store) : Except AppError SelectedAccount :=
  match s.accounts.find accountId with
  | none => .error (accountNotFound accountId)
  | some account => do
    let accessToken ← crypto.decrypt account.encrypted.accessToken
    let refreshToken ← crypto.decrypt account.encrypted.refreshToken
    let idToken ← crypto.decrypt account.encrypted.idToken
    return ⟨accountId, account, ⟨accessToken, refreshToken, idToken⟩, selectionReason⟩

/-- The end of both paths of `select_account_for_request`, `src/db.rs:626–632` and `682–688`:
an account that cannot be read or decrypted is released again. -/
def finishSelection [UuidText] (crypto : TokenCrypto) (accountId : Uuid)
    (selectionReason : SelectionReason) (now : Instant) (s : Store) :
    Except AppError SelectedAccount × Store :=
  match selectedAccount crypto accountId selectionReason s with
  | .ok selected => (.ok selected, s)
  | .error e => (.error e, (releaseAccount accountId now s).2)

/-- The smart path of `select_account_for_request`, `src/db.rs:637–688`. -/
def selectSmartAccount [UuidText] (crypto : TokenCrypto) (excluded : List Uuid)
    (settings : RuntimeSettings) (usageRefreshInterval : Nat) (selectedAt now : Clock)
    (s : Store) : Except AppError SelectedAccount × Store :=
  match acquireSmartAccount settings usageRefreshInterval excluded selectedAt s with
  | (.error e, s) => (.error e, s)
  | (.ok accountId, s) =>
    let reason : SelectionReason :=
      if !excluded.isEmpty then .failover
      else if settings.routingStrategy != "round_robin" then .usageWeighted
      else .roundRobin
    finishSelection crypto accountId reason now.instant s

/-- `select_account_for_request`, `src/db.rs:580–689`, when nothing else is committed between
its statements. -/
def selectAccountForRequest [UuidText] (crypto : TokenCrypto) (affinity : Option SessionRouteKey)
    (excluded : List Uuid) (settings : RuntimeSettings) (usageRefreshInterval : Nat)
    (selectedAt now : Clock) (s : Store) : Except AppError SelectedAccount × Store :=
  let smart := selectSmartAccount crypto excluded settings usageRefreshInterval selectedAt now
  match affinity.bind fun key ↦ pinnedAccount key.keyHash settings selectedAt.instant s with
  | none => smart s
  | some accountId =>
    if excluded.contains accountId then smart s
    else
      match acquireAccountIfAvailable accountId now s with
      | (.ok true, s) =>
        let reason : SelectionReason := if excluded.isEmpty then .sticky else .failover
        finishSelection crypto accountId reason now.instant s
      | (_, s) => smart s

/-! ### What acquisitions and releases do -/

/-- Rewriting one runtime row rewrites the lookup of that row only. -/
theorem find_updateRuntime (s : Store) (accountId : Uuid)
    (f : AccountRuntimeState → AccountRuntimeState) (k : Uuid) :
    (s.updateRuntime accountId f).accountRuntimeState.find k =
      (s.accountRuntimeState.find k).map fun runtime ↦
        if k = accountId then f runtime else runtime := by
  rw [Store.updateRuntime, Table.find_update]
  simp only [decide_eq_true_eq]

/-- A selected account carries the identifier it was read by. -/
theorem selectedAccount_accountId [UuidText] {crypto : TokenCrypto} {accountId : Uuid}
    {reason : SelectionReason} {s : Store} {selected : SelectedAccount}
    (h : selectedAccount crypto accountId reason s = .ok selected) :
    selected.accountId = accountId := by
  unfold selectedAccount at h
  split at h
  · cases h
  · next account _ =>
    obtain ⟨access, -, h⟩ := bind_eq_ok.mp h
    obtain ⟨refresh, -, h⟩ := bind_eq_ok.mp h
    obtain ⟨token, -, h⟩ := bind_eq_ok.mp h
    cases h
    rfl

/-- A finished selection is of the acquired account. -/
theorem finishSelection_accountId [UuidText] {crypto : TokenCrypto} {accountId : Uuid}
    {reason : SelectionReason} {now : Instant} {s : Store} {selected : SelectedAccount}
    (h : (finishSelection crypto accountId reason now s).1 = .ok selected) :
    selected.accountId = accountId := by
  unfold finishSelection at h
  split at h
  · next found hf =>
    cases h
    exact selectedAccount_accountId hf
  · cases h

/-- An acquisition succeeds only on an eligible account, and then counts one more request. -/
theorem acquireAccountIfAvailable_true {accountId : Uuid} {now : Clock} {s t : Store}
    (h : acquireAccountIfAvailable accountId now s = (.ok true, t)) :
    accountIsEligible accountId now.instant s = true ∧
      t = s.updateRuntime accountId (acquiredRuntime now) := by
  unfold acquireAccountIfAvailable at h
  split at h
  · next he => exact ⟨he, (Prod.mk.inj h).2.symm⟩
  · cases h

/-- A smart acquisition succeeds only on an eligible account that is not excluded, and then
counts one more request. -/
theorem acquireSmartAccount_ok {settings : RuntimeSettings} {usageRefreshInterval : Nat}
    {excluded : List Uuid} {selectedAt : Clock} {accountId : Uuid} {s t : Store}
    (h : acquireSmartAccount settings usageRefreshInterval excluded selectedAt s =
      (.ok accountId, t)) :
    accountIsEligible accountId selectedAt.instant s = true ∧ accountId ∉ excluded ∧
      t = s.updateRuntime accountId (selectedRuntime selectedAt) := by
  unfold acquireSmartAccount at h
  split at h
  · next chosen hc =>
    cases h
    obtain ⟨he, hx⟩ := previewSmartAccount_eligible hc
    exact ⟨he, hx, rfl⟩
  · cases h

/-- A live pinned account that is not excluded is the one selected. -/
theorem selectAccountForRequest_pinned [UuidText] (crypto : TokenCrypto) {key : SessionRouteKey}
    {excluded : List Uuid} {settings : RuntimeSettings} (usageRefreshInterval : Nat)
    {selectedAt now : Clock} {accountId : Uuid} {s : Store}
    (hp : pinnedAccount key.keyHash settings selectedAt.instant s = some accountId)
    (hx : accountId ∉ excluded) (he : accountIsEligible accountId now.instant s = true) :
    selectAccountForRequest crypto (some key) excluded settings usageRefreshInterval selectedAt
        now s =
      finishSelection crypto accountId (if excluded.isEmpty then .sticky else .failover)
        now.instant (s.updateRuntime accountId (acquiredRuntime now)) := by
  have hc : excluded.contains accountId = false := by simpa using hx
  simp only [selectAccountForRequest, Option.bind_some, hp, hc, Bool.false_eq_true, if_false,
    acquireAccountIfAvailable, he, if_true]

/-- The smart path selects an account that is eligible and not excluded. -/
theorem selectSmartAccount_ok [UuidText] {crypto : TokenCrypto} {excluded : List Uuid}
    {settings : RuntimeSettings} {usageRefreshInterval : Nat} {selectedAt now : Clock} {s : Store}
    {selected : SelectedAccount}
    (h : (selectSmartAccount crypto excluded settings usageRefreshInterval selectedAt now s).1 =
      .ok selected) :
    accountIsEligible selected.accountId selectedAt.instant s = true ∧
      selected.accountId ∉ excluded := by
  unfold selectSmartAccount at h
  split at h
  · cases h
  · next accountId t ht =>
    obtain ⟨heligible, hx, -⟩ := acquireSmartAccount_ok ht
    rw [finishSelection_accountId h]
    exact ⟨heligible, hx⟩

/-- A request is given an account that is eligible at one of its two clock readings. -/
theorem selectAccountForRequest_ok [UuidText] {crypto : TokenCrypto}
    {affinity : Option SessionRouteKey} {excluded : List Uuid} {settings : RuntimeSettings}
    {usageRefreshInterval : Nat} {selectedAt now : Clock} {s : Store} {selected : SelectedAccount}
    (h : (selectAccountForRequest crypto affinity excluded settings usageRefreshInterval selectedAt
      now s).1 = .ok selected) :
    accountIsEligible selected.accountId selectedAt.instant s = true ∨
      accountIsEligible selected.accountId now.instant s = true := by
  unfold selectAccountForRequest at h
  simp only at h
  split at h
  · exact .inl (selectSmartAccount_ok h).1
  · next accountId _ =>
    split at h
    · exact .inl (selectSmartAccount_ok h).1
    · split at h
      · next t ht =>
        rw [finishSelection_accountId h]
        exact .inr (acquireAccountIfAvailable_true ht).1
      · next t hno ht =>
        -- a refused acquisition leaves the store as it was
        have hsame : t = s := by
          unfold acquireAccountIfAvailable at ht
          split at ht
          · cases ht
            exact absurd rfl hno
          · cases ht
            rfl
        rw [hsame] at h
        exact .inl (selectSmartAccount_ok h).1

/-- No excluded account is selected. -/
theorem selectAccountForRequest_notMem [UuidText] {crypto : TokenCrypto}
    {affinity : Option SessionRouteKey} {excluded : List Uuid} {settings : RuntimeSettings}
    {usageRefreshInterval : Nat} {selectedAt now : Clock} {s : Store} {selected : SelectedAccount}
    (h : (selectAccountForRequest crypto affinity excluded settings usageRefreshInterval selectedAt
      now s).1 = .ok selected) : selected.accountId ∉ excluded := by
  unfold selectAccountForRequest at h
  dsimp only at h
  split at h
  · exact (selectSmartAccount_ok h).2
  · next accountId _ =>
    split at h
    · exact (selectSmartAccount_ok h).2
    · next hx =>
      split at h
      · rw [finishSelection_accountId h]
        simpa using hx
      · exact (selectSmartAccount_ok h).2

end CodexLb
