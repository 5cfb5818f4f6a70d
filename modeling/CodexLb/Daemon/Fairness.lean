import CodexLb.Daemon.Cooldown
import CodexLb.Daemon.Eligibility
import CodexLb.Daemon.Routing
import CodexLb.Transition.LeastRecent

/-!
# Round robin is fair

Calls of `select_account_for_request` without affinity and exclusions under
the `round_robin` strategy (`src/db.rs:638–689`), with any writes between them
that acquire no account. A call stamps the account that its statement chooses,
whether or not the account can be read back.
-/

namespace CodexLb

open Relational Transition

/-! ### Stamps -/

/-- The column that round robin compares, `src/db.rs:866`. -/
def comparedStamp (s : Store) (accountId : Uuid) : String :=
  ((s.accountRuntimeState.find accountId).bind (·.lastSelectedAt)).getD "1970-01-01T00:00:00.000Z"

/-- A runtime row that is there before and after keeps its stamp. -/
def StampsKept (s t : Store) : Prop :=
  ∀ id before after, s.accountRuntimeState.find id = some before →
    t.accountRuntimeState.find id = some after → after.lastSelectedAt = before.lastSelectedAt

section Stamps

variable {s t : Store} {accountId : Uuid}

private theorem StampsKept.of_find (h : ∀ id before, s.accountRuntimeState.find id = some before →
    t.accountRuntimeState.find id = some before) : StampsKept s t := by
  intro id before after hbefore hafter
  rw [h id before hbefore, Option.some.injEq] at hafter
  rw [hafter]

private theorem StampsKept.updateRuntime {f : AccountRuntimeState → AccountRuntimeState}
    (h : ∀ runtime, (f runtime).lastSelectedAt = runtime.lastSelectedAt) :
    StampsKept s (s.updateRuntime accountId f) := by
  intro id before after hbefore hafter
  rw [find_updateRuntime, hbefore, Option.map_some, Option.some.injEq] at hafter
  rw [← hafter]
  split
  · exact h before
  · rfl

private theorem stampsKept_cooldownAccount (id : Uuid) (seconds : Int) (reason : String)
    (now : Instant) (s : Store) : StampsKept s (cooldownAccount id seconds reason now s).2 := by
  have hrow : ∀ k before, s.accountRuntimeState.find k = some before →
      (ensureRuntimeRow id s).2.accountRuntimeState.find k = some before :=
    fun k before h ↦ find_ensureRuntimeRow id h
  unfold cooldownAccount
  split
  · next hu =>
    rw [hu] at hrow
    exact .of_find hrow
  · next u hu =>
    rw [hu] at hrow
    intro k before after hbefore hafter
    have hkept : StampsKept u (u.updateRuntime id fun runtime ↦ { runtime with
        cooldownUntil := some (cooldownDeadline now seconds)
        cooldownReason := some reason
        failureCount := runtime.failureCount + 1 }) := .updateRuntime fun _ ↦ rfl
    exact hkept k before after (hrow k before hbefore) hafter

/-- An operation that acquires no account keeps the stamps. -/
theorem Op.stampsKept [UuidText] {op : Op} (h : op.acquires = false) (now : Clock) (s : Store) :
    StampsKept s (op.exec now s) := by
  cases hwrites : op.writesRuntime with
  | false =>
    apply StampsKept.of_find
    intro id before hbefore
    rw [Op.runtime_frame hwrites now s, hbefore]
  | true =>
    cases op with
    | upsertAccount newId encrypted lastRefreshAt claims label =>
      exact .of_find fun id before hbefore ↦ runtime_upsertAccount _ _ _ _ _ hbefore
    | deleteAccount id =>
      intro k before after hbefore hafter
      rw [Op.exec, CodexLb.deleteAccount] at hafter
      split at hafter
      · change (s.accountRuntimeState.delete _).find k = some after at hafter
        rw [Table.find_delete, Option.filter_eq_some_iff, hbefore, Option.some.injEq] at hafter
        rw [hafter.1]
      · rw [hbefore, Option.some.injEq] at hafter
        rw [hafter]
    | cooldownAccount id seconds reason =>
      exact stampsKept_cooldownAccount id seconds reason now.instant s
    | releaseAccountInner id updateLastRequest => exact .updateRuntime fun _ ↦ rfl
    | resetInflight =>
      intro k before after hbefore hafter
      change (s.accountRuntimeState.mapRows _).find k = some after at hafter
      rw [Table.find_mapRows, hbefore, Option.map_some, Option.some.injEq] at hafter
      rw [← hafter]
    | acquireAccountIfAvailable id => cases h
    | acquireSmartAccount settings usageRefreshInterval excluded selectedAt => cases h
    | _ => cases hwrites

/-- The stamps after a selection: the selected account carries its timestamp. -/
private theorem comparedStamp_selected {runtime : AccountRuntimeState}
    (hruntime : s.accountRuntimeState.find accountId = some runtime) (selectedAt : Clock)
    (id : Uuid) : comparedStamp (s.updateRuntime accountId (selectedRuntime selectedAt)) id =
      if id = accountId then selectedAt.text else comparedStamp s id := by
  unfold comparedStamp
  rw [find_updateRuntime]
  by_cases hid : id = accountId
  · simp [hid, hruntime, selectedRuntime]
  · simp [hid]

end Stamps

/-! ### The choice of round robin -/

section Choice

variable {s : Store} {selectedAt freshness : Instant} {excluded : List Uuid} {a b : Uuid}

/-- The columns that order the candidates of round robin, as a key. -/
def SmartCandidate.rotationKey (candidate : SmartCandidate) : String ×ₗ Int :=
  toLex (candidate.lastSelectedAt, candidate.createdAt)

/-- The candidates of round robin are ordered by their key. -/
theorem candidateBefore_rotation : ∀ c ∈ smartCandidates false freshness selectedAt excluded s,
    ∀ d ∈ smartCandidates false freshness selectedAt excluded s,
      candidateBefore false c d = true ↔ c.rotationKey < d.rotationKey := by
  intro c hc d hd
  obtain ⟨_, _, _, -, -, -, -, rfl⟩ := mem_smartCandidates_iff.mp hc
  obtain ⟨_, _, _, -, -, -, -, rfl⟩ := mem_smartCandidates_iff.mp hd
  unfold candidateBefore SmartCandidate.rotationKey
  rw [beq_iff_eq, compareColumn_then_eq_lt, compareColumn_then_eq_lt, compareColumn_then_eq_lt,
    compareColumn_then_eq_lt, compareColumn_then_eq_lt, compareColumn_then_eq_lt,
    Prod.Lex.toLex_lt_toLex]
  simp [smartCandidate]

/-- Round robin chooses an eligible account with a least stamp. -/
theorem previewSmartAccount_least {settings : RuntimeSettings} {usageRefreshInterval : Nat}
    (hstrategy : settings.routingStrategy = "round_robin")
    (h : previewSmartAccount settings usageRefreshInterval [] selectedAt s = some a)
    (hb : accountIsEligible b selectedAt s = true) : comparedStamp s a ≤ comparedStamp s b := by
  have hflag : (settings.routingStrategy != "round_robin") = false := by
    rw [hstrategy]
    exact bne_self_eq_false _
  unfold previewSmartAccount at h
  rw [hflag] at h
  obtain ⟨c, hfirst, rfl⟩ := Option.map_eq_some_iff.mp h
  obtain ⟨id, account, runtime, -, hruntime, -, -, rfl⟩ :=
    mem_smartCandidates_iff.mp (firstBy_mem hfirst)
  obtain ⟨accountB, runtimeB, haccountB, hruntimeB, -⟩ := accountIsEligible_iff.mp hb
  have hmem : smartCandidate false selectedAt (routingFreshness usageRefreshInterval) s b accountB
      runtimeB ∈ smartCandidates false (routingFreshness usageRefreshInterval) selectedAt [] s :=
    mem_smartCandidates_iff.mpr
      ⟨b, accountB, runtimeB, haccountB, hruntimeB, hb, List.not_mem_nil, rfl⟩
  have hle := key_firstBy_le candidateBefore_rotation hfirst _ hmem
  have hstamp := (Prod.Lex.toLex_le_toLex.mp hle).elim le_of_lt fun heq ↦ le_of_eq heq.1
  have ha : comparedStamp s id = runtime.lastSelectedAt.getD "1970-01-01T00:00:00.000Z" := by
    rw [comparedStamp, hruntime]
    rfl
  have hb' : comparedStamp s b = runtimeB.lastSelectedAt.getD "1970-01-01T00:00:00.000Z" := by
    rw [comparedStamp, hruntimeB]
    rfl
  rw [show (smartCandidate false selectedAt (routingFreshness usageRefreshInterval) s id account
    runtime).accountId = id from rfl, ha, hb']
  exact hstamp

/-- A smart acquisition under round robin stamps an eligible account with a least stamp. -/
private theorem acquireSmartAccount_least {settings : RuntimeSettings} {usageRefreshInterval : Nat}
    (hstrategy : settings.routingStrategy = "round_robin") {selectedAt : Clock} {t : Store}
    (h : acquireSmartAccount settings usageRefreshInterval [] selectedAt s = (.ok a, t))
    (hb : accountIsEligible b selectedAt.instant s = true) :
    comparedStamp s a ≤ comparedStamp s b := by
  unfold acquireSmartAccount at h
  split at h
  · next chosen hchosen =>
    cases h
    exact previewSmartAccount_least hstrategy hchosen hb
  · cases h

end Choice

/-! ### Runs -/

/-- A call of `select_account_for_request` without affinity and exclusions, or another write. -/
inductive RotationEvent where
  | select (settings : RuntimeSettings) (usageRefreshInterval : Nat) (selectedAt : Clock)
  | commit (op : Op)

/-- An event, the clock reading of its writes, the account that the acquiring statement of a call
chooses, and the account that the call returns. -/
structure RotationLabel where
  event : RotationEvent
  now : Clock
  picked : Option Uuid
  returned : Option Uuid

/-- The instant at which an event tests eligibility. -/
def RotationLabel.instant (label : RotationLabel) : Instant :=
  match label.event with
  | .select _ _ selectedAt => selectedAt.instant
  | .commit _ => label.now.instant

/-- A call under `round_robin`, or a write that acquires no account. -/
def RotationEvent.Rotating : RotationEvent → Prop
  | .select settings _ _ => settings.routingStrategy = "round_robin"
  | .commit op => op.acquires = false

/-- The timestamp of a call is beyond every stored one, as compared strings. -/
def RotationEvent.Later (s : Store) : RotationEvent → Prop
  | .select _ _ selectedAt => ∀ row ∈ s.accountRuntimeState.rows,
      row.2.lastSelectedAt.getD "1970-01-01T00:00:00.000Z" < selectedAt.text
  | .commit _ => True

/-- The eligible accounts of a store. -/
def EligibleAre (members : Uuid → Prop) (now : Instant) (s : Store) : Prop :=
  ∀ id, accountIsEligible id now s = true ↔ members id

section Runs

variable [UuidText] {crypto : TokenCrypto} {members : Uuid → Prop} {s t : Store}
  {label : RotationLabel} {a b : Uuid}

/-- What an event picks, what it returns, and the store after it. -/
def RotationEvent.exec (crypto : TokenCrypto) (event : RotationEvent) (now : Clock) (s : Store) :
    Option Uuid × Option Uuid × Store :=
  match event with
  | .select settings usageRefreshInterval selectedAt =>
    let picked := (acquireSmartAccount settings usageRefreshInterval [] selectedAt s).1.toOption
    let (selected, t) :=
      selectAccountForRequest crypto none [] settings usageRefreshInterval selectedAt now s
    (picked, selected.toOption.map (·.accountId), t)
  | .commit op => (none, none, op.exec now s)

/-- One event while the eligible accounts stay the same. -/
structure SteadyStep (crypto : TokenCrypto) (members : Uuid → Prop) (s : Store)
    (label : RotationLabel) (t : Store) : Prop where
  exec : label.event.exec crypto label.now s = (label.picked, label.returned, t)
  rotating : label.event.Rotating
  later : label.event.Later s
  before : EligibleAre members label.instant s
  after : EligibleAre members label.instant t

/-- A call stamps the account that it picks and reads it back, or finds none. -/
private theorem exec_select (crypto : TokenCrypto) (settings : RuntimeSettings)
    (usageRefreshInterval : Nat) (selectedAt now : Clock) (s : Store) :
    (∃ a reason u, acquireSmartAccount settings usageRefreshInterval [] selectedAt s = (.ok a, u) ∧
      u = s.updateRuntime a (selectedRuntime selectedAt) ∧
      (RotationEvent.select settings usageRefreshInterval selectedAt).exec crypto now s =
        (some a, (finishSelection crypto a reason now.instant u).1.toOption.map (·.accountId),
          (finishSelection crypto a reason now.instant u).2)) ∨
    (RotationEvent.select settings usageRefreshInterval selectedAt).exec crypto now s =
      (none, none, s) := by
  have hselect : selectAccountForRequest crypto none [] settings usageRefreshInterval selectedAt
      now s = selectSmartAccount crypto [] settings usageRefreshInterval selectedAt now s := rfl
  unfold RotationEvent.exec
  dsimp only
  rw [hselect, selectSmartAccount]
  cases hacquire : acquireSmartAccount settings usageRefreshInterval [] selectedAt s with
  | mk result u =>
    cases result with
    | error e =>
      have hsame : u = s := by
        unfold acquireSmartAccount at hacquire
        split at hacquire <;> cases hacquire
        rfl
      rw [hsame]
      exact .inr rfl
    | ok a =>
      obtain ⟨-, -, hu⟩ := acquireSmartAccount_ok hacquire
      exact .inl ⟨a, _, u, rfl, hu, rfl⟩

/-- An account that a call returns is the one that its statement picked. -/
theorem SteadyStep.picked_of_returned (h : SteadyStep crypto members s label t)
    (hreturned : label.returned = some a) : label.picked = some a := by
  obtain ⟨event, now, picked, returned⟩ := label
  have hexec := h.exec
  dsimp only at hexec hreturned ⊢
  cases event with
  | select settings usageRefreshInterval selectedAt =>
    rcases exec_select crypto settings usageRefreshInterval selectedAt now s with
      ⟨c, reason, u, -, -, heq⟩ | heq
    · rw [heq, Prod.mk.injEq, Prod.mk.injEq] at hexec
      obtain ⟨rfl, rfl, -⟩ := hexec
      obtain ⟨selected, hselected, rfl⟩ := Option.map_eq_some_iff.mp hreturned
      cases hfinish : (finishSelection crypto c reason now.instant u).1 with
      | error e =>
        rw [hfinish] at hselected
        cases hselected
      | ok found =>
        rw [hfinish] at hselected
        cases hselected
        rw [finishSelection_accountId hfinish]
    · rw [heq, Prod.mk.injEq, Prod.mk.injEq] at hexec
      rw [← hexec.2.1] at hreturned
      cases hreturned
  | commit op =>
    have hnone : none = returned := (Prod.mk.inj (Prod.mk.inj hexec).2).1
    rw [← hnone] at hreturned
    cases hreturned

/-- Ending a selection keeps the stamps. -/
private theorem comparedStamp_finishSelection (accountId : Uuid) (reason : SelectionReason)
    (now : Instant) (s : Store) (id : Uuid) :
    comparedStamp (finishSelection crypto accountId reason now s).2 id = comparedStamp s id := by
  unfold finishSelection
  split
  · rfl
  · change comparedStamp (s.updateRuntime accountId _) id = _
    unfold comparedStamp
    rw [find_updateRuntime]
    cases s.accountRuntimeState.find id with
    | none => rfl
    | some runtime =>
      rw [Option.map_some, Option.bind_some, Option.bind_some]
      split <;> rfl

/-- While the eligible accounts stay the same, an event rotates them. -/
theorem SteadyStep.rotates (h : SteadyStep crypto members s label t) :
    Rotates members comparedStamp s label.picked t := by
  obtain ⟨event, now, picked, returned⟩ := label
  have hexec := h.exec
  have hrotating := h.rotating
  have hlater := h.later
  have hbefore := h.before
  have hafter := h.after
  dsimp only at hexec hrotating hlater hbefore hafter ⊢
  cases event with
  | select settings usageRefreshInterval selectedAt =>
    rcases exec_select crypto settings usageRefreshInterval selectedAt now s with
      ⟨a, reason, u, hacquire, rfl, heq⟩ | heq
    · rw [heq, Prod.mk.injEq, Prod.mk.injEq] at hexec
      obtain ⟨rfl, -, rfl⟩ := hexec
      have heligible := (acquireSmartAccount_ok hacquire).1
      obtain ⟨_, runtime, -, hruntime, -⟩ := accountIsEligible_iff.mp heligible
      refine .pick ((hbefore a).mp heligible) ?_ ?_ ?_
      · intro b hb
        exact acquireSmartAccount_least hrotating hacquire ((hbefore b).mpr hb)
      · intro b hb
        obtain ⟨_, other, -, hother, -⟩ := accountIsEligible_iff.mp ((hbefore b).mpr hb)
        rw [comparedStamp_finishSelection, comparedStamp_selected hruntime, if_pos rfl,
          comparedStamp, hother]
        exact hlater _ (Table.mem_rows_iff.mpr hother)
      · intro b hb hne
        rw [comparedStamp_finishSelection, comparedStamp_selected hruntime, if_neg hne]
    · rw [heq, Prod.mk.injEq, Prod.mk.injEq] at hexec
      obtain ⟨rfl, -, rfl⟩ := hexec
      exact .keep fun _ _ ↦ rfl
  | commit op =>
    rw [RotationEvent.exec, Prod.mk.injEq, Prod.mk.injEq] at hexec
    obtain ⟨rfl, -, rfl⟩ := hexec
    apply Rotates.keep
    intro b hb
    -- an account that stays eligible has its row before and after
    obtain ⟨_, before, -, hruntime, -⟩ := accountIsEligible_iff.mp ((hbefore b).mpr hb)
    obtain ⟨_, after, -, hruntime', -⟩ := accountIsEligible_iff.mp ((hafter b).mpr hb)
    have hkept := Op.stampsKept hrotating now s b before after hruntime hruntime'
    rw [comparedStamp, comparedStamp, hruntime, hruntime', Option.bind_some, Option.bind_some,
      hkept]

/-- **Round robin is fair.** While the eligible accounts stay the same and every call is stamped
beyond the stamps before it, the calls pick every other eligible account exactly once between two
picks of an account, whatever else is written between them. An account that a call returns is the
one it picked. -/
theorem round_robin_fair {initial final : List RotationLabel} {first second : RotationLabel}
    {between : List RotationLabel}
    (h : Run (SteadyStep crypto members) s
      (initial ++ (first :: between ++ second :: final)) t)
    (hfirst : first.picked = some a) (hsecond : second.picked = some a)
    (hnot : ∀ label ∈ between, label.picked ≠ some a) (hb : members b) (hne : b ≠ a) :
    between.countP (·.picked = some b) = 1 ∧
      ∀ label ∈ first :: between ++ [second], ∀ c, label.returned = some c →
        label.picked = some c := by
  obtain ⟨u, -, hrest⟩ := h.split
  rw [show first :: between ++ second :: final = (first :: between ++ [second]) ++ final by simp]
    at hrest
  obtain ⟨v, hrun, -⟩ := hrest.split
  constructor
  · exact hrun.picked_once_between (fun _ _ _ hstep ↦ hstep.rotates) hfirst hsecond hb hne hnot
  · exact hrun.labels fun _ _ _ hstep c ↦ hstep.picked_of_returned

end Runs

/-- The stored accounts, all of them eligible. -/
private theorem eligibleAre_of_rows {ids : List Uuid} {now : Instant} {s : Store}
    (hrows : s.accounts.rows.map (·.1) = ids)
    (hall : ids.all (accountIsEligible · now s) = true) : EligibleAre (· ∈ ids) now s := by
  intro id
  constructor
  · intro heligible
    obtain ⟨account, _, haccount, -⟩ := accountIsEligible_iff.mp heligible
    rw [← hrows]
    exact List.mem_map_of_mem (Table.mem_rows_iff.mpr haccount)
  · exact List.all_eq_true.mp hall id

/-- A call under `round_robin` that returns an account. -/
def rotationCall (accountId : Uuid) (text : String) : RotationLabel where
  event := .select { RuntimeSettings.default with routingStrategy := "round_robin" } 300
    ⟨1000, text⟩
  now := ⟨1000, text⟩
  picked := some accountId
  returned := some accountId

/-- The two accounts after some calls. -/
def rotated (calls : List RotationLabel) : Store :=
  calls.foldl (fun s label ↦
    (@RotationEvent.exec hyphenatedText ⟨Except.ok⟩ label.event label.now s).2.2) twoAccounts

/-- A call that returns an account, judged on the stores around it. -/
private theorem rotated_step {calls : List RotationLabel} {accountId : Uuid} {text : String} :
    let after := @RotationEvent.exec hyphenatedText ⟨Except.ok⟩ (rotationCall accountId text).event
      ⟨1000, text⟩ (rotated calls)
    after.1 = some accountId ∧ after.2.1 = some accountId →
    (∀ row ∈ (rotated calls).accountRuntimeState.rows,
      row.2.lastSelectedAt.getD "1970-01-01T00:00:00.000Z" < text) →
    (rotated calls).accounts.rows.map (·.1) = [1, 2] ∧
      after.2.2.accounts.rows.map (·.1) = [1, 2] →
    ([1, 2] : List Uuid).all (accountIsEligible · 1000 (rotated calls)) = true ∧
      ([1, 2] : List Uuid).all (accountIsEligible · 1000 after.2.2) = true →
    @SteadyStep hyphenatedText ⟨Except.ok⟩ (· ∈ ([1, 2] : List Uuid)) (rotated calls)
      (rotationCall accountId text) (rotated (calls ++ [rotationCall accountId text])) := by
  intro after hpicked hlater hrows hall
  have hafter : rotated (calls ++ [rotationCall accountId text]) = after.2.2 := by
    rw [rotated, List.foldl_append]
    rfl
  rw [hafter]
  let _ := hyphenatedText
  have hexec : after = (some accountId, some accountId, after.2.2) :=
    Prod.ext hpicked.1 (Prod.ext hpicked.2 rfl)
  exact ⟨hexec, rfl, hlater, eligibleAre_of_rows hrows.1 hall.1, eligibleAre_of_rows hrows.2 hall.2⟩

/-- Two accounts take turns. -/
theorem round_robin_fair_two :
    [rotationCall 2 "2026-01-01T00:00:02.000Z"].countP (·.picked = some (2 : Uuid)) = 1 ∧
      ∀ label ∈ [rotationCall 1 "2026-01-01T00:00:01.000Z",
          rotationCall 2 "2026-01-01T00:00:02.000Z", rotationCall 1 "2026-01-01T00:00:03.000Z"],
        ∀ c, label.returned = some c → label.picked = some c := by
  let _ := hyphenatedText
  let first := rotationCall 1 "2026-01-01T00:00:01.000Z"
  let second := rotationCall 2 "2026-01-01T00:00:02.000Z"
  let third := rotationCall 1 "2026-01-01T00:00:03.000Z"
  have hfirst : SteadyStep ⟨Except.ok⟩ (· ∈ ([1, 2] : List Uuid)) (rotated []) first
      (rotated [first]) :=
    rotated_step (by decide +kernel) (by decide +kernel) (by decide +kernel) (by decide +kernel)
  have hsecond : SteadyStep ⟨Except.ok⟩ (· ∈ ([1, 2] : List Uuid)) (rotated [first]) second
      (rotated [first, second]) :=
    rotated_step (by decide +kernel) (by decide +kernel) (by decide +kernel) (by decide +kernel)
  have hthird : SteadyStep ⟨Except.ok⟩ (· ∈ ([1, 2] : List Uuid)) (rotated [first, second]) third
      (rotated [first, second, third]) :=
    rotated_step (by decide +kernel) (by decide +kernel) (by decide +kernel) (by decide +kernel)
  have hrun : Run (SteadyStep ⟨Except.ok⟩ (· ∈ ([1, 2] : List Uuid))) (rotated [])
      ([] ++ (first :: [second] ++ third :: [])) (rotated [first, second, third]) :=
    .cons hfirst (.cons hsecond (.single hthird))
  exact round_robin_fair hrun rfl rfl (by decide) (by decide) (by decide)

end CodexLb
