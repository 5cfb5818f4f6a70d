import CodexLb.Daemon.Reservation

/-!
# Acquired accounts are eligible

The statements of `select_account_for_request` (`src/db.rs:580–689`) and of
`start_turn` (`src/websocket.rs:622–640`) one by one, with any other writes
between them. A selection reads the clock before its first statement, so what
it judges may be older than what it commits on.
-/

namespace CodexLb

open Relational Transition

/-- The statement that a selection runs next. -/
inductive SelectionPhase where
  | lookup
  | sticky (accountId : Uuid)
  | smart
  | ended
  deriving DecidableEq, Repr

/-- A call of `select_account_for_request`; `selectedAt` was read when it began. -/
structure Selection where
  affinity : Option String
  excluded : List Uuid
  settings : RuntimeSettings
  usageRefreshInterval : Nat
  selectedAt : Clock
  phase : SelectionPhase

/-- The store, the last clock reading, and the selections under way. -/
structure Selections where
  store : Store
  time : Instant
  calls : List Selection

/-- A selection begins, runs its next statement, a turn starts, or another write commits. -/
inductive SelectionEvent where
  | select (affinity : Option String) (excluded : List Uuid) (settings : RuntimeSettings)
      (usageRefreshInterval : Nat)
  | run (i : Nat)
  | startTurn (accountId : Uuid)
  | commit (op : Op)

/-- An account that was acquired, and those that its caller has excluded. -/
structure Acquisition where
  accountId : Uuid
  excluded : List Uuid
  deriving DecidableEq, Repr

/-- The operations that acquire an account. -/
def Op.acquires : Op → Bool
  | .acquireAccountIfAvailable _ | .acquireSmartAccount .. => true
  | _ => false

/-- One statement of a selection: what it runs next, the account it acquires, and the store. -/
def Selection.run (call : Selection) (now : Clock) (s : Store) :
    SelectionPhase × Option Uuid × Store :=
  match call.phase with
  | .lookup =>
    match call.affinity.bind fun keyHash ↦
      pinnedAccount keyHash call.settings call.selectedAt.instant s with
    | some accountId =>
      if call.excluded.contains accountId then (.smart, none, s)
      else (.sticky accountId, none, s)
    | none => (.smart, none, s)
  | .sticky accountId =>
    match acquireAccountIfAvailable accountId now s with
    | (.ok true, t) => (.ended, some accountId, t)
    | (_, t) => (.smart, none, t)
  | .smart =>
    match acquireSmartAccount call.settings call.usageRefreshInterval call.excluded call.selectedAt
      s with
    | (.ok accountId, t) => (.ended, some accountId, t)
    | (.error _, t) => (.ended, none, t)
  | .ended => (.ended, none, s)

/-- An account can be taken at an instant: it is active, under no cooldown, and no Codex window of
it is exhausted. -/
structure Store.Available (s : Store) (accountId : Uuid) (now : Instant) : Prop where
  active : ∃ account, s.accounts.find accountId = some account ∧ account.status = .active
  cooled : ∀ runtime cooldownUntil, s.accountRuntimeState.find accountId = some runtime →
    runtime.cooldownUntil = some cooldownUntil → cooldownUntil ≤ now
  quota : ∀ key window, s.usageWindows.find key = some window → key.accountId = accountId →
    key.quotaKey = "codex" → 100 ≤ window.usedPercent →
    ∃ resetAt, window.resetAt = some (some resetAt) ∧ resetAt ≤ now

/-- Every cooldown that has not ended is still stored. -/
def CooldownsKept (now : Instant) (s t : Store) : Prop :=
  ∀ accountId runtime cooldownUntil, s.accountRuntimeState.find accountId = some runtime →
    runtime.cooldownUntil = some cooldownUntil → now < cooldownUntil →
    ∃ after, t.accountRuntimeState.find accountId = some after ∧
      after.cooldownUntil = some cooldownUntil

/-- An acquisition that commits at an instant is counted once, of an available account that its
caller has not excluded, and ends no cooldown. -/
structure Acquisition.Sound (acquisition : Acquisition) (now : Instant) (s t : Store) : Prop where
  available : s.Available acquisition.accountId now
  allowed : acquisition.accountId ∉ acquisition.excluded
  counted : t.inflight acquisition.accountId = s.inflight acquisition.accountId + 1
  cooldowns : CooldownsKept now s t

section Available

variable {accountId : Uuid} {s t : Store} {at' now : Instant}

/-- An account that was eligible at an earlier clock reading is available on the same store. -/
theorem available_of_eligible (h : accountIsEligible accountId at' s = true) (hle : at' ≤ now) :
    s.Available accountId now := by
  obtain ⟨account, runtime, haccount, hruntime, hactive, hended, hquota⟩ :=
    accountIsEligible_iff.mp h
  refine ⟨⟨account, haccount, hactive⟩, ?_, ?_⟩
  · intro found cooldownUntil hfound huntil
    cases hruntime.symm.trans hfound
    rw [cooldownEnded, huntil, decide_eq_true_eq] at hended
    exact Int.le_trans hended hle
  · rintro key window hwindow rfl hcodex hused
    have hrow := List.any_eq_false.mp hquota _ (Table.mem_rows_iff.mpr hwindow)
    cases hreset : window.resetAt with
    | none => simp [hcodex, hused, hreset] at hrow
    | some parsed =>
      cases parsed with
      | none => simp [hcodex, hused, hreset] at hrow
      | some resetAt =>
        have hpassed : resetAt ≤ at' := by simpa [hcodex, hused, hreset] using hrow
        exact ⟨resetAt, rfl, Int.le_trans hpassed hle⟩

/-- Acquiring an account that was eligible at an earlier clock reading is sound. -/
private theorem sound_of_eligible {excluded : List Uuid}
    {f : AccountRuntimeState → AccountRuntimeState}
    (h : accountIsEligible accountId at' s = true) (hle : at' ≤ now)
    (hallowed : accountId ∉ excluded)
    (hcount : ∀ runtime, (f runtime).inflightCount = runtime.inflightCount + 1) :
    (⟨accountId, excluded⟩ : Acquisition).Sound now s (s.updateRuntime accountId f) := by
  have havailable := available_of_eligible h hle
  refine ⟨havailable, hallowed, ?_, ?_⟩
  · obtain ⟨_, runtime, -, hruntime, -⟩ := accountIsEligible_iff.mp h
    rw [inflight_updateRuntime, if_pos rfl, Store.inflight, hruntime]
    exact hcount runtime
  · intro id runtime cooldownUntil hruntime huntil hlt
    have hne : id ≠ accountId := by
      rintro rfl
      exact Int.not_le.mpr hlt (havailable.cooled runtime cooldownUntil hruntime huntil)
    refine ⟨runtime, ?_, huntil⟩
    rw [find_updateRuntime, hruntime, Option.map_some, if_neg hne]

/-- An account that a transport has pinned is acquired soundly. -/
private theorem sound_of_pinned {excluded : List Uuid} {now : Clock}
    (h : acquireAccountIfAvailable accountId now s = (.ok true, t))
    (hallowed : accountId ∉ excluded) :
    (⟨accountId, excluded⟩ : Acquisition).Sound now.instant s t := by
  obtain ⟨heligible, rfl⟩ := acquireAccountIfAvailable_true h
  exact sound_of_eligible heligible (Int.le_refl _) hallowed fun _ ↦ rfl

end Available

section Run

variable [UuidText]

/-- The selections after an event, and the acquisition that it commits. -/
def SelectionEvent.exec (event : SelectionEvent) (now : Clock) (v : Selections) :
    Selections × Option Acquisition :=
  match event with
  | .select affinity excluded settings usageRefreshInterval =>
    ({ v with
      time := now.instant
      calls := v.calls ++ [⟨affinity, excluded, settings, usageRefreshInterval, now, .lookup⟩] },
      none)
  | .run i =>
    match v.calls[i]? with
    | none => ({ v with time := now.instant }, none)
    | some call =>
      let (phase, acquired, t) := call.run now v.store
      (⟨t, now.instant, v.calls.set i { call with phase }⟩,
        acquired.map (Acquisition.mk · call.excluded))
  | .startTurn accountId =>
    match acquireAccountIfAvailable accountId now v.store with
    | (.ok true, t) => ({ v with store := t, time := now.instant }, some ⟨accountId, []⟩)
    | (_, t) => ({ v with store := t, time := now.instant }, none)
  | .commit op => ({ v with store := op.exec now v.store, time := now.instant }, none)

/-- One event, at a clock reading that is not earlier than the last one. -/
structure Selections.Step (v : Selections) (event : SelectionEvent × Clock) (w : Selections) :
    Prop where
  later : v.time ≤ event.2.instant
  other : ∀ op, event.1 = .commit op → op.acquires = false
  exec : (event.1.exec event.2 v).1 = w

/-- No selection is under way. -/
def Selections.Started (v : Selections) : Prop := v.calls = []

/-- Every selection has read the clock, and the account that it looked up is not excluded. -/
structure Selections.Consistent (v : Selections) : Prop where
  read : ∀ call ∈ v.calls, call.selectedAt.instant ≤ v.time
  allowed : ∀ call ∈ v.calls, ∀ accountId, call.phase = .sticky accountId →
    accountId ∉ call.excluded

variable {v w : Selections} {event : SelectionEvent × Clock} {call : Selection} {now : Clock}
  {s t : Store} {phase : SelectionPhase} {acquired : Option Uuid}

omit [UuidText] in
/-- The lookup of a selection keeps only accounts that are not excluded. -/
private theorem Selection.run_sticky (h : call.run now s = (phase, acquired, t)) {accountId : Uuid}
    (hphase : phase = .sticky accountId) : accountId ∉ call.excluded := by
  subst hphase
  unfold Selection.run at h
  split at h
  · split at h
    · split at h
      · cases h
      · next hexcluded =>
        cases h
        simpa using hexcluded
    · cases h
  · split at h <;> cases h
  · split at h <;> cases h
  · cases h

omit [UuidText] in
/-- What a statement of a selection acquires is acquired soundly. -/
private theorem Selection.run_acquired {accountId : Uuid}
    (h : call.run now s = (phase, some accountId, t))
    (hread : call.selectedAt.instant ≤ now.instant)
    (hallowed : ∀ id, call.phase = .sticky id → id ∉ call.excluded) :
    (⟨accountId, call.excluded⟩ : Acquisition).Sound now.instant s t := by
  unfold Selection.run at h
  split at h
  · split at h
    · split at h <;> cases h
    · cases h
  · next id hid =>
    split at h
    · next hacquire =>
      cases h
      exact sound_of_pinned hacquire (hallowed _ hid)
    · cases h
  · split at h
    · next hacquire =>
      cases h
      obtain ⟨heligible, hexcluded, rfl⟩ := acquireSmartAccount_ok hacquire
      exact sound_of_eligible heligible hread hexcluded fun _ ↦ rfl
    · cases h
  · cases h

/-- Every event keeps the selections consistent. -/
theorem Selections.Consistent.step (h : v.Consistent) (hstep : v.Step event w) :
    w.Consistent := by
  obtain ⟨event, now⟩ := event
  have hlater := hstep.later
  have hread : ∀ call ∈ v.calls, call.selectedAt.instant ≤ now.instant :=
    fun call hcall ↦ Int.le_trans (h.read call hcall) hlater
  have hexec := hstep.exec
  subst hexec
  cases event with
  | select affinity excluded settings usageRefreshInterval =>
    refine ⟨fun call hcall ↦ ?_, fun call hcall ↦ ?_⟩
    · rcases List.mem_append.mp hcall with hold | hnew
      · exact hread call hold
      · rw [List.mem_singleton.mp hnew]
        exact Int.le_refl _
    · rcases List.mem_append.mp hcall with hold | hnew
      · exact h.allowed call hold
      · rw [List.mem_singleton.mp hnew]
        intro _ hphase
        cases hphase
  | run i =>
    simp only [SelectionEvent.exec]
    split
    · exact ⟨hread, h.allowed⟩
    · next call hcall =>
      have hmem := List.mem_of_getElem? hcall
      refine ⟨fun other hother ↦ ?_, fun other hother ↦ ?_⟩
      · rcases List.mem_or_eq_of_mem_set hother with hold | rfl
        · exact hread other hold
        · exact hread call hmem
      · rcases List.mem_or_eq_of_mem_set hother with hold | rfl
        · exact h.allowed other hold
        · intro accountId hphase
          have hrun : call.run now v.store = (_, _, _) := rfl
          exact Selection.run_sticky hrun hphase
  | startTurn accountId =>
    simp only [SelectionEvent.exec]
    split <;> exact ⟨hread, h.allowed⟩
  | commit op => exact ⟨hread, h.allowed⟩

/-- Only eligible accounts are ever acquired: in every interleaving, whatever an event acquires is
available at the instant at which it commits and not excluded, and no cooldown is cut short. -/
theorem only_eligible_accounts_acquired (hv : Reachable Selections.Started Selections.Step v)
    (hstep : v.Step event w) {acquisition : Acquisition}
    (hacquired : (event.1.exec event.2 v).2 = some acquisition) :
    acquisition.Sound event.2.instant v.store w.store := by
  have hconsistent : v.Consistent := by
    apply hv.invariant
    · rintro v hstarted
      have hnone : ∀ call, call ∉ v.calls := fun call hcall ↦ by
        rw [show v.calls = [] from hstarted] at hcall
        cases hcall
      exact ⟨fun call hcall ↦ absurd hcall (hnone call),
        fun call hcall ↦ absurd hcall (hnone call)⟩
    · exact fun _ _ _ h hstep ↦ h.step hstep
  obtain ⟨event, now⟩ := event
  have hexec := hstep.exec
  subst hexec
  cases event with
  | select affinity excluded settings usageRefreshInterval => cases hacquired
  | run i =>
    simp only [SelectionEvent.exec] at hacquired ⊢
    split at hacquired
    · cases hacquired
    · next call hcall =>
      have hmem := List.mem_of_getElem? hcall
      obtain ⟨accountId, hsome, rfl⟩ := Option.map_eq_some_iff.mp hacquired
      have hrun : call.run now v.store =
          ((call.run now v.store).1, some accountId, (call.run now v.store).2.2) := by
        rw [← hsome]
      exact Selection.run_acquired hrun (Int.le_trans (hconsistent.read call hmem) hstep.later)
        (hconsistent.allowed call hmem)
  | startTurn accountId =>
    simp only [SelectionEvent.exec] at hacquired ⊢
    split at hacquired
    · next hacquire =>
      cases hacquired
      exact sound_of_pinned hacquire (List.not_mem_nil)
    · cases hacquired
  | commit op => cases hacquired

/-- The two accounts with a selection that has looked up its affinity in vain. -/
def lookedUp : Selections :=
  ⟨twoAccounts, 1500, [⟨some (hexHash 1), [1], .default, 300, ⟨1000, ""⟩, .smart⟩]⟩

omit [UuidText] in
/-- A retry that excludes the first account acquires the second one. -/
theorem only_eligible_accounts_acquired_retry : let _ := hyphenatedText
    (⟨2, [1]⟩ : Acquisition).Sound 2000 twoAccounts
      ((SelectionEvent.run 0).exec ⟨2000, ""⟩ lookedUp).1.store := by
  intro _
  have hreached : Reachable Selections.Started Selections.Step lookedUp := by
    refine ⟨⟨twoAccounts, 0, []⟩, [(.select (some (hexHash 1)) [1] .default 300, ⟨1000, ""⟩),
      (.run 0, ⟨1500, ""⟩)], rfl,
      .cons ⟨?_, (fun _ h ↦ by cases h), rfl⟩ (.single ⟨?_, (fun _ h ↦ by cases h), rfl⟩)⟩
    · exact (by decide : (0 : Int) ≤ 1000)
    · exact (by decide : (1000 : Int) ≤ 1500)
  have hacquired : ((SelectionEvent.run 0).exec ⟨2000, ""⟩ lookedUp).2 = some ⟨2, [1]⟩ := by
    decide +kernel
  have hstep : Selections.Step lookedUp (.run 0, ⟨2000, ""⟩)
      ((SelectionEvent.run 0).exec ⟨2000, ""⟩ lookedUp).1 :=
    ⟨(by decide : (1500 : Int) ≤ 2000), (fun _ h ↦ by cases h), rfl⟩
  exact only_eligible_accounts_acquired hreached hstep hacquired

end Run

end CodexLb
