import CodexLb.Route.Reachable

/-!
# Cooldowns

Failure reports of requests and turns write one column with a deadline
(`src/db.rs:2038–2061`), and acquisitions clear it once it has passed. The
reports that have committed are kept next to the store, with the time.
-/

namespace CodexLb

open Relational Transition

/-- The store at a time, with the deadlines that the committed reports on one account imply. -/
structure Cooling where
  store : Store
  time : Instant
  deadlines : List Instant

/-- The instant at which an operation has read the eligibility of accounts, if not the one at
which it commits. -/
def Op.readAt : Op → Option Instant
  | .acquireSmartAccount _ _ _ selectedAt => some selectedAt.instant
  | _ => none

/-- The deadline that an operation reports for an account. -/
def Op.report (accountId : Uuid) (now : Instant) : Op → Option Instant
  | .cooldownAccount id seconds _ =>
    if id = accountId then some (cooldownDeadline now seconds) else none
  | _ => none

/-- The account is under an unexpired cooldown, and every acquisition of it fails. -/
structure Refused (accountId : Uuid) (now : Instant) (s : Store) : Prop where
  cooling : ∃ runtime cooldownUntil, s.accountRuntimeState.find accountId = some runtime ∧
    runtime.cooldownUntil = some cooldownUntil ∧ now < cooldownUntil
  pinned : ∀ clock : Clock, clock.instant = now →
    acquireAccountIfAvailable accountId clock s = (.ok false, s)
  smart : ∀ settings usageRefreshInterval excluded (selectedAt : Clock), selectedAt.instant ≤ now →
    (acquireSmartAccount settings usageRefreshInterval excluded selectedAt s).1 ≠ .ok accountId

/-- Until time reaches the latest deadline reported so far, the account is refused. -/
def Cooling.Kept (accountId : Uuid) (c : Cooling) : Prop :=
  ∀ now, c.time ≤ now → (∃ deadline ∈ c.deadlines, now < deadline) → Refused accountId now c.store

/-- The stored cooldown covers every deadline that has not passed. -/
def Cooling.Covered (accountId : Uuid) (c : Cooling) : Prop :=
  ∀ deadline ∈ c.deadlines, c.time < deadline →
    ∃ runtime cooldownUntil, c.store.accountRuntimeState.find accountId = some runtime ∧
      runtime.cooldownUntil = some cooldownUntil ∧ deadline ≤ cooldownUntil

/-- A report does not end before a deadline that was reported earlier and has not passed. -/
def Lengthens (accountId : Uuid) (c : Cooling) (op : Op × Clock) : Prop :=
  ∀ reported, op.1.report accountId op.2.instant = some reported →
    ∀ deadline ∈ c.deadlines, op.2.instant < deadline → deadline ≤ reported

/-! ### What each operation does to a cooldown -/

section Cooldown

variable {accountId : Uuid} {s t : Store} {op : Op} {now : Instant}

/-- What an operation does to the cooldown of an account: keep it, report a deadline, or find it
ended. -/
inductive CooldownMove (accountId : Uuid) (op : Op) (now : Instant)
    (old new : AccountRuntimeState) :
    Prop
  | kept (h : op.report accountId now = none) (hsame : new.cooldownUntil = old.cooldownUntil)
  | reported {deadline : Instant} (h : op.report accountId now = some deadline)
      (hnew : new.cooldownUntil = some deadline)
  | ended (h : op.report accountId now = none)
      (hended : cooldownEnded old (op.readAt.getD now) = true)

/-- The runtime row of an account stays, and its cooldown moves. -/
def CooldownMoves (accountId : Uuid) (op : Op) (now : Instant) (s t : Store) : Prop :=
  ∀ old, s.accountRuntimeState.find accountId = some old →
    ∃ new, t.accountRuntimeState.find accountId = some new ∧ CooldownMove accountId op now old new

private theorem cooldown_of_same (h : op.report accountId now = none)
    (hsame : ∀ old, s.accountRuntimeState.find accountId = some old →
      t.accountRuntimeState.find accountId = some old) :
    CooldownMoves accountId op now s t :=
  fun old hold ↦ ⟨old, hsame old hold, .kept h rfl⟩

private theorem cooldown_updateRuntime {id : Uuid}
    {f : AccountRuntimeState → AccountRuntimeState}
    (h : op.report accountId now = none)
    (hmove : id = accountId → ∀ old, s.accountRuntimeState.find accountId = some old →
      CooldownMove accountId op now old (f old)) :
    CooldownMoves accountId op now s (s.updateRuntime id f) := by
  intro old hold
  rw [find_updateRuntime, hold, Option.map_some]
  refine ⟨_, rfl, ?_⟩
  split
  · next he => exact hmove he.symm old hold
  · exact .kept h rfl

private theorem cooldown_cooldownAccount (id : Uuid) (seconds : Int) (reason : String) :
    CooldownMoves accountId (.cooldownAccount id seconds reason) now s
      (cooldownAccount id seconds reason now s).2 := by
  intro old hold
  by_cases hid : id = accountId
  · subst hid
    have hensure : ensureRuntimeRow id s = (.ok (), s) := if_pos (Table.has_iff.mpr ⟨old, hold⟩)
    rw [cooldownAccount, hensure]
    refine ⟨{ old with
      cooldownUntil := some (cooldownDeadline now seconds)
      cooldownReason := some reason
      failureCount := old.failureCount + 1 }, ?_, .reported (if_pos rfl) rfl⟩
    change (s.accountRuntimeState.update _ _).find id = _
    rw [Table.find_update_self, hold]
    rfl
  · have hrow := find_ensureRuntimeRow id hold
    have hnone : (Op.cooldownAccount id seconds reason).report accountId now = none := if_neg hid
    unfold cooldownAccount
    split
    · next hu =>
      rw [hu] at hrow
      exact ⟨old, hrow, .kept hnone rfl⟩
    · next hu =>
      rw [hu] at hrow
      refine ⟨old, ?_, .kept hnone rfl⟩
      rw [Table.find_update_ne _ (Ne.symm hid), hrow]

/-- An import keeps the runtime rows that are stored. -/
theorem runtime_upsertAccount (newId : Uuid) (encrypted : AccountTokens)
    (lastRefreshAt : Option Instant) (claims : AuthClaims) (label : Option String)
    {old : AccountRuntimeState} (h : s.accountRuntimeState.find accountId = some old) :
    (upsertAccount newId encrypted lastRefreshAt claims label now
      s).2.accountRuntimeState.find accountId = some old := by
  refine upsertAccount_keeps (fun t ↦ t.accountRuntimeState.find accountId = some old) h ?_ ?_
  · intro out _
    rw [writeAccount_frame]
    exact h
  · exact fun id u hu ↦ find_ensureRuntimeRow id hu

private theorem cooldown_acquireAccountIfAvailable (id : Uuid) (clock : Clock) :
    CooldownMoves accountId (.acquireAccountIfAvailable id) clock.instant s
      (acquireAccountIfAvailable id clock s).2 := by
  unfold acquireAccountIfAvailable
  split
  · next heligible =>
    apply cooldown_updateRuntime rfl
    rintro rfl old hold
    obtain ⟨_, runtime, -, hruntime, -, hended, -⟩ := accountIsEligible_iff.mp heligible
    cases hold.symm.trans hruntime
    exact .ended rfl hended
  · exact cooldown_of_same rfl fun _ h ↦ h

private theorem cooldown_acquireSmartAccount (settings : RuntimeSettings)
    (usageRefreshInterval : Nat) (excluded : List Uuid) (selectedAt : Clock) :
    CooldownMoves accountId (.acquireSmartAccount settings usageRefreshInterval excluded selectedAt)
      now s (acquireSmartAccount settings usageRefreshInterval excluded selectedAt s).2 := by
  unfold acquireSmartAccount
  split
  · next id hid =>
    apply cooldown_updateRuntime rfl
    rintro rfl old hold
    obtain ⟨_, runtime, -, hruntime, -, hended, -⟩ :=
      accountIsEligible_iff.mp (previewSmartAccount_eligible hid).1
    cases hold.symm.trans hruntime
    exact .ended rfl hended
  · exact cooldown_of_same rfl fun _ h ↦ h

/-- What an operation does to the cooldown of an account that it does not delete. -/
theorem Op.cooldownMoves [UuidText] {op : Op} (hpresent : op ≠ .deleteAccount accountId)
    (clock : Clock) :
    CooldownMoves accountId op clock.instant s (op.exec clock s) := by
  cases hw : op.writesRuntime with
  | false =>
    have hnone : op.report accountId clock.instant = none := by
      cases op with
      | cooldownAccount id seconds reason => cases hw
      | _ => rfl
    exact cooldown_of_same hnone fun _ h ↦ by rw [Op.runtime_frame hw clock s, h]
  | true =>
    cases op with
    | upsertAccount newId encrypted lastRefreshAt claims label =>
      exact cooldown_of_same rfl fun _ h ↦ runtime_upsertAccount _ _ _ _ _ h
    | deleteAccount id =>
      have hne : accountId ≠ id := fun he ↦ hpresent (by rw [he])
      refine cooldown_of_same rfl fun old h ↦ ?_
      change (CodexLb.deleteAccount id s).2.accountRuntimeState.find accountId = _
      unfold CodexLb.deleteAccount
      split
      · change (s.accountRuntimeState.delete _).find accountId = _
        rw [Table.find_delete, h]
        simp [hne]
      · exact h
    | cooldownAccount id seconds reason => exact cooldown_cooldownAccount id seconds reason
    | acquireAccountIfAvailable id => exact cooldown_acquireAccountIfAvailable id clock
    | acquireSmartAccount settings usageRefreshInterval excluded selectedAt =>
      exact cooldown_acquireSmartAccount settings usageRefreshInterval excluded selectedAt
    | releaseAccountInner id updateLastRequest =>
      exact cooldown_updateRuntime rfl fun _ _ _ ↦ .kept rfl rfl
    | resetInflight =>
      intro old hold
      refine ⟨{ old with inflightCount := 0 }, ?_, .kept rfl rfl⟩
      change (s.accountRuntimeState.mapRows _).find accountId = _
      rw [Table.find_mapRows, hold]
      rfl
    | _ => cases hw

end Cooldown

/-! ### Cooldowns along a run -/

section Run

variable [UuidText]

/-- An operation commits, not before the previous one and not before it has read the clock; the
account is not deleted. -/
structure Cooling.Step (accountId : Uuid) (c : Cooling) (op : Op × Clock) (c' : Cooling) :
    Prop where
  later : c.time ≤ op.2.instant
  read : ∀ readAt, op.1.readAt = some readAt → readAt ≤ op.2.instant
  present : op.1 ≠ .deleteAccount accountId
  store : c'.store = op.1.exec op.2 c.store
  time : c'.time = op.2.instant
  deadlines : c'.deadlines = (op.1.report accountId op.2.instant).toList ++ c.deadlines

variable {accountId : Uuid} {c c' : Cooling}

omit [UuidText] in
/-- While the stored cooldown covers the deadlines, the account is refused until they pass. -/
theorem Cooling.Covered.kept (h : c.Covered accountId) : c.Kept accountId := by
  rintro now hnow ⟨deadline, hd, hlt⟩
  obtain ⟨runtime, cooldownUntil, hruntime, huntil, hle⟩ :=
    h deadline hd (Int.lt_of_le_of_lt hnow hlt)
  have hrefused : ∀ at' : Instant, at' ≤ now → accountIsEligible accountId at' c.store = false := by
    intro at' hat
    by_contra heligible
    rw [Bool.not_eq_false] at heligible
    obtain ⟨_, found, -, hfound, -, hended, -⟩ := accountIsEligible_iff.mp heligible
    cases hruntime.symm.trans hfound
    rw [cooldownEnded, huntil, decide_eq_true_eq] at hended
    have hpassed : deadline ≤ now := Int.le_trans hle (Int.le_trans hended hat)
    exact Int.not_le.mpr hlt hpassed
  refine ⟨⟨runtime, cooldownUntil, hruntime, huntil, Int.lt_of_lt_of_le hlt hle⟩, ?_, ?_⟩
  · rintro clock rfl
    rw [acquireAccountIfAvailable, hrefused _ (Int.le_refl _), if_neg Bool.false_ne_true]
  · intro settings usageRefreshInterval excluded selectedAt hread hok
    have heligible := (acquireSmartAccount_ok (Prod.ext hok rfl)).1
    rw [hrefused _ hread] at heligible
    cases heligible

/-- An operation whose report does not fall short keeps the deadlines covered. -/
theorem Cooling.Covered.step (h : c.Covered accountId) {old : AccountRuntimeState}
    (hold : c.store.accountRuntimeState.find accountId = some old) {op : Op × Clock}
    (hstep : c.Step accountId op c') (hlengthens : Lengthens accountId c op) :
    c'.Covered accountId := by
  intro deadline hd hlt
  obtain ⟨new, hnew, hmove⟩ := Op.cooldownMoves hstep.present op.2 old hold
  rw [← hstep.store] at hnew
  rw [hstep.deadlines, List.mem_append] at hd
  rw [hstep.time] at hlt
  have hcovered : deadline ∈ c.deadlines → ∃ cooldownUntil,
      old.cooldownUntil = some cooldownUntil ∧ deadline ≤ cooldownUntil := by
    intro hd
    obtain ⟨runtime, cooldownUntil, hruntime, huntil, hle⟩ :=
      h deadline hd (Int.lt_of_le_of_lt hstep.later hlt)
    cases hold.symm.trans hruntime
    exact ⟨cooldownUntil, huntil, hle⟩
  cases hmove with
  | @reported reported hreport huntil =>
    refine ⟨new, reported, hnew, huntil, ?_⟩
    rcases hd with hd | hd
    · rw [hreport, Option.toList_some, List.mem_singleton] at hd
      exact Int.le_of_eq hd
    · exact hlengthens reported hreport deadline hd hlt
  | kept hreport hsame =>
    rw [hreport, Option.toList_none, or_iff_right List.not_mem_nil] at hd
    obtain ⟨cooldownUntil, huntil, hle⟩ := hcovered hd
    exact ⟨new, cooldownUntil, hnew, by rw [hsame, huntil], hle⟩
  | ended hreport hended =>
    exfalso
    rw [hreport, Option.toList_none, or_iff_right List.not_mem_nil] at hd
    obtain ⟨cooldownUntil, huntil, hle⟩ := hcovered hd
    rw [cooldownEnded, huntil, decide_eq_true_eq] at hended
    have hread : op.1.readAt.getD op.2.instant ≤ op.2.instant := by
      cases hr : op.1.readAt with
      | none => exact Int.le_refl _
      | some readAt => exact hstep.read readAt hr
    have hpassed : deadline ≤ op.2.instant := Int.le_trans hle (Int.le_trans hended hread)
    exact Int.not_le.mpr hlt hpassed

/-- No failure report shortens a cooldown: in every run whose reports do not end before a deadline
that is still running, the account is refused until the latest deadline reported so far. -/
theorem no_report_shortens_cooldown
    (hstored : c.store.accountRuntimeState.has accountId = true) (hstart : c.deadlines = [])
    {ops : List (Op × Clock)}
    (hrun : Run (guarded (Cooling.Step accountId) (Lengthens accountId)) c ops c') :
    c'.Kept accountId := by
  have hinvariant : c'.store.accountRuntimeState.has accountId = true ∧
      c'.Covered accountId := by
    apply hrun.invariant
    · rintro c op c' ⟨hhas, hcovered⟩ ⟨hlengthens, hstep⟩
      obtain ⟨old, hold⟩ := Table.has_iff.mp hhas
      obtain ⟨new, hnew, -⟩ := Op.cooldownMoves hstep.present op.2 old hold
      refine ⟨Table.has_iff.mpr ⟨new, ?_⟩, hcovered.step hold hstep hlengthens⟩
      rw [hstep.store, hnew]
    · refine ⟨hstored, fun deadline hd ↦ ?_⟩
      rw [hstart] at hd
      cases hd
  exact hinvariant.2.kept

/-- The first account after reports of some seconds at one and two seconds past the epoch. -/
def reportedTwice (first second : Int) : Cooling where
  store := (cooldownAccount 1 second "upstream error" 2000
    (cooldownAccount 1 first "upstream error" 1000 twoAccounts).2).2
  time := 2000
  deadlines := [cooldownDeadline 2000 second, cooldownDeadline 1000 first]

/-- The two reports. -/
def twoReports (first second : Int) : List (Op × Clock) :=
  [(.cooldownAccount 1 first "upstream error", ⟨1000, ""⟩),
    (.cooldownAccount 1 second "upstream error", ⟨2000, ""⟩)]

private theorem reportedOnce_step (first : Int) :
    Cooling.Step 1 ⟨twoAccounts, 0, []⟩ (.cooldownAccount 1 first "upstream error",
      ⟨1000, ""⟩) ⟨(cooldownAccount 1 first "upstream error" 1000 twoAccounts).2, 1000,
        [cooldownDeadline 1000 first]⟩ :=
  ⟨(by decide : (0 : Int) ≤ 1000), nofun, nofun, rfl, rfl, rfl⟩

private theorem reportedTwice_step (first second : Int) :
    Cooling.Step 1 ⟨(cooldownAccount 1 first "upstream error" 1000 twoAccounts).2, 1000,
        [cooldownDeadline 1000 first]⟩
      (.cooldownAccount 1 second "upstream error", ⟨2000, ""⟩)
      (reportedTwice first second) :=
  ⟨(by decide : (1000 : Int) ≤ 2000), nofun, nofun, rfl, rfl, rfl⟩

omit [UuidText] in
/-- A transient failure before a rate limit leaves the account refused for the whole hour. -/
theorem no_report_shortens_cooldown_hour : (reportedTwice 10 3600).Kept 1 := by
  let _ := hyphenatedText
  have hfirst : Lengthens 1 ⟨twoAccounts, 0, []⟩
      (.cooldownAccount 1 10 "upstream error", ⟨1000, ""⟩) := by
    intro reported _ deadline hd
    cases hd
  have hsecond : Lengthens 1 ⟨(cooldownAccount 1 10 "upstream error" 1000 twoAccounts).2,
      1000, [cooldownDeadline 1000 10]⟩
      (.cooldownAccount 1 3600 "upstream error", ⟨2000, ""⟩) := by
    intro reported hreport deadline hd _
    cases hreport
    rw [List.mem_singleton.mp hd]
    decide
  exact no_report_shortens_cooldown (by decide +kernel) rfl
    (.cons ⟨hfirst, reportedOnce_step 10⟩ (.single ⟨hsecond, reportedTwice_step 10 3600⟩))

omit [UuidText] in
/-- A transient failure after a rate limit replaces the hour by ten seconds, and the account is
acquired long before the rate limit ends. -/
theorem cooldown_shortened : let _ := hyphenatedText
    Run (Cooling.Step 1) ⟨twoAccounts, 0, []⟩ (twoReports 3600 10) (reportedTwice 3600 10) ∧
      (acquireAccountIfAvailable 1 ⟨20000, ""⟩ (reportedTwice 3600 10).store).1 = .ok true ∧
      ¬ (reportedTwice 3600 10).Kept 1 := by
  intro _
  have hacquired : (acquireAccountIfAvailable 1 ⟨20000, ""⟩ (reportedTwice 3600 10).store).1 =
      .ok true := by decide +kernel
  refine ⟨.cons (reportedOnce_step 3600) (.single (reportedTwice_step 3600 10)), hacquired, ?_⟩
  intro hkept
  have hrefused := hkept 20000 (by decide) ⟨cooldownDeadline 1000 3600, by decide, by decide⟩
  rw [hrefused.pinned ⟨20000, ""⟩ rfl] at hacquired
  cases hacquired

end Run

end CodexLb
