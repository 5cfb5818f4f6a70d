import CodexLb.Db.Operation
import CodexLb.Route.Action
import CodexLb.Route.Join

/-!
# The routes along a run

Every operation of the daemon is a route change, so the invariants of the
route store hold in every reachable store, and along every run the keys stay
mapped and their generations do not decrease.
-/

namespace CodexLb

open Relational Transition

/-- A write that leaves the routes alone and removes no account. -/
structure RoutesKept (s t : Store) : Prop where
  routeKeys : t.sessionRouteKeys = s.sessionRouteKeys
  roots : t.sessionRoots = s.sessionRoots
  affinity : t.affinity = s.affinity
  accounts : ∀ id, s.accounts.has id = true → t.accounts.has id = true

namespace RoutesKept

variable {s t u : Store}

theorem refl (s : Store) : RoutesKept s s := ⟨rfl, rfl, rfl, fun _ h ↦ h⟩

theorem trans (h : RoutesKept s t) (k : RoutesKept t u) : RoutesKept s u where
  routeKeys := k.routeKeys.trans h.routeKeys
  roots := k.roots.trans h.roots
  affinity := k.affinity.trans h.affinity
  accounts id hid := k.accounts id (h.accounts id hid)

/-- Leaving the routes alone forgets nothing. -/
theorem forgetting (h : RoutesKept s t) : ∃ keep, Forgetting keep s t :=
  ⟨_, .of_eq h.routeKeys h.roots h.affinity h.accounts⟩

/-- Leaving the routes alone is a route change. -/
theorem routeChange (h : RoutesKept s t) : RouteChange s t := by
  obtain ⟨keep, hk⟩ := h.forgetting
  exact .forget keep hk

end RoutesKept

/-! ### The operations outside the route tables -/

section Accounts

private theorem kept_update (s : Store) (p : Uuid → Account → Bool) (f : Account → Account) :
    RoutesKept s { s with accounts := s.accounts.update p f } :=
  ⟨rfl, rfl, rfl, fun id h ↦ (Table.has_update s.accounts p f id).trans h⟩

private theorem kept_ensureRuntimeRow (id : Uuid) (s : Store) :
    RoutesKept s (ensureRuntimeRow id s).2 := by
  rw [ensureRuntimeRow_frame]
  exact ⟨rfl, rfl, rfl, fun _ h ↦ h⟩

private theorem kept_writeAccount (newId : Uuid) (encrypted : AccountTokens)
    (lastRefreshAt : Option Instant) (claims : AuthClaims) (label : String) (now : Instant)
    (s : Store) :
    RoutesKept s (writeAccount newId encrypted lastRefreshAt claims label now s).2 := by
  unfold writeAccount
  split
  · exact kept_update ..
  · split
    · exact .refl s
    · refine ⟨rfl, rfl, rfl, fun id h ↦ ?_⟩
      obtain ⟨account, ha⟩ := Table.has_iff.mp h
      refine Table.has_iff.mpr ?_
      rw [Table.find_insert]
      split
      · exact ⟨_, rfl⟩
      · exact ⟨account, ha⟩

private theorem kept_upsertAccount (newId : Uuid) (encrypted : AccountTokens)
    (lastRefreshAt : Option Instant) (claims : AuthClaims) (label : Option String) (now : Instant)
    (s : Store) : RoutesKept s (upsertAccount newId encrypted lastRefreshAt claims label now s).2 :=
  upsertAccount_keeps (RoutesKept s) (.refl s) (fun _ _ ↦ kept_writeAccount ..)
    fun id u hu ↦ hu.trans (kept_ensureRuntimeRow id u)

private theorem kept_updateAccount [UuidText] (id : Uuid)
    (status label email planType : Option String) (s : Store) :
    RoutesKept s (updateAccount id status label email planType s).2 :=
  updateAccount_keeps (RoutesKept s) (.refl s) fun _ _ ↦ kept_update ..

private theorem kept_updateAccountTokens [UuidText] (id : Uuid) (encrypted : AccountTokens)
    (claims : AuthClaims) (now : Instant) (s : Store) :
    RoutesKept s (updateAccountTokens id encrypted claims now s).2 :=
  updateAccountTokens_keeps (RoutesKept s) (.refl s) (kept_update ..)

private theorem kept_cooldownAccount (id : Uuid) (seconds : Int) (reason : String) (now : Instant)
    (s : Store) : RoutesKept s (cooldownAccount id seconds reason now s).2 := by
  rw [cooldownAccount_frame]
  exact ⟨rfl, rfl, rfl, fun _ h ↦ h⟩

private theorem kept_replaceUsageWindows (id : Uuid) (planType : Option String)
    (fetchedAt : Instant) (windows : List ParsedUsageWindow) (s : Store) :
    RoutesKept s (replaceUsageWindows id planType fetchedAt windows s).2 := by
  apply replaceUsageWindows_keeps (RoutesKept s) (.refl s)
  intro usageWindows usageSamples
  have hwindows : RoutesKept s
      { s with usageWindows := usageWindows, usageSamples := usageSamples } :=
    ⟨rfl, rfl, rfl, fun _ h ↦ h⟩
  exact hwindows.trans (kept_update ..)

private theorem kept_updateRuntime (id : Uuid) (f : AccountRuntimeState → AccountRuntimeState)
    (s : Store) : RoutesKept s (s.updateRuntime id f) := ⟨rfl, rfl, rfl, fun _ h ↦ h⟩

private theorem kept_resetInflight (s : Store) : RoutesKept s (resetInflight s).2 :=
  ⟨rfl, rfl, rfl, fun _ h ↦ h⟩

private theorem kept_insertRequestLog (requestId : String) (id : Option Uuid) (now : Instant)
    (s : Store) : RoutesKept s (insertRequestLog requestId id now s).2 := by
  unfold insertRequestLog
  split
  · exact .refl s
  · exact ⟨rfl, rfl, rfl, fun _ h ↦ h⟩

private theorem kept_insertUsageSnapshot (id : Uuid) (now : Instant) (s : Store) :
    RoutesKept s (insertUsageSnapshot id now s).2 := by
  unfold insertUsageSnapshot
  split
  · exact ⟨rfl, rfl, rfl, fun _ h ↦ h⟩
  · exact .refl s

private theorem kept_acquireAccountIfAvailable (id : Uuid) (now : Clock) (s : Store) :
    RoutesKept s (acquireAccountIfAvailable id now s).2 := by
  unfold acquireAccountIfAvailable
  split
  · exact ⟨rfl, rfl, rfl, fun _ h ↦ h⟩
  · exact .refl s

private theorem kept_acquireSmartAccount (settings : RuntimeSettings) (usageRefreshInterval : Nat)
    (excluded : List Uuid) (selectedAt : Clock) (s : Store) :
    RoutesKept s (acquireSmartAccount settings usageRefreshInterval excluded selectedAt s).2 := by
  unfold acquireSmartAccount
  split
  · exact ⟨rfl, rfl, rfl, fun _ h ↦ h⟩
  · exact .refl s

end Accounts

/-- Deleting an account forgets it everywhere in the routes. -/
theorem forgetting_deleteAccount [UuidText] (id : Uuid) (s : Store) :
    ∃ keep, Forgetting keep s (deleteAccount id s).2 := by
  unfold deleteAccount
  split
  · refine ⟨fun other ↦ decide (other ≠ id), fun _ ↦ rfl, fun r ↦ ?_, ?_, ?_⟩
    · rw [Table.find_mapRows]
      rfl
    · intro k affinity ha
      rw [Table.find_delete, Option.filter_eq_some_iff] at ha
      exact ⟨ha.1, by simpa using ha.2⟩
    · intro other ho hne
      obtain ⟨account, ha⟩ := Table.has_iff.mp ho
      refine Table.has_iff.mpr ⟨account, ?_⟩
      rw [Table.find_delete, ha]
      simpa using hne
  · exact (RoutesKept.refl s).forgetting

/-- Pruning forgets affinity rows. -/
theorem forgetting_pruneHistory (retentionDays : Int) (now : Instant) (s : Store) :
    ∃ keep, Forgetting keep s (pruneHistory retentionDays now s).2 := by
  have hsame : Forgetting (fun _ ↦ true) s s := .of_eq rfl rfl rfl fun _ h ↦ h
  refine ⟨fun _ ↦ true, fun _ ↦ rfl, hsame.roots, fun k affinity ha ↦ ?_, fun _ h _ ↦ h⟩
  change (s.affinity.delete _).find k = some affinity at ha
  rw [Table.find_delete, Option.filter_eq_some_iff] at ha
  exact ⟨ha.1, rfl⟩

/-! ### Every operation -/

/-- A bind is a route change. -/
theorem routeChange_bindAffinitiesAtEpoch {s : Store} (hs : s.RouteInvariant)
    (keys : List SessionRouteKey) (accountId : Uuid) (epoch : Option SessionRouteEpoch)
    (now : Instant) : RouteChange s (bindAffinitiesAtEpoch keys accountId epoch now s).2 := by
  cases hb : bindAffinitiesAtEpoch keys accountId epoch now s with
  | mk r t =>
    cases bindAffinitiesAtEpoch_outcome hs hb with
    | refused _ => exact (RoutesKept.refl s).routeChange
    | empty _ _ => exact (RoutesKept.refl s).routeChange
    | atEpoch _ _ h => exact .handover _ _ _ (h.handover hs)
    | unclaimed _ _ h => exact .handover _ _ _ (h.handover hs)

/-- A route action is a route change. -/
theorem routeChange_applySessionRouteAction [UuidText] (settings : RuntimeSettings)
    (usageRefreshInterval : Nat) (request : SessionRouteActionRequest)
    (liveAccountIds : List Uuid) (selectedAt now : Instant) (s : Store) :
    RouteChange s (applySessionRouteAction settings usageRefreshInterval request liveAccountIds
      selectedAt now s).2 := by
  cases ha : applySessionRouteAction settings usageRefreshInterval request liveAccountIds
    selectedAt now s with
  | mk r t =>
    rcases applySessionRouteAction_outcome ha with ⟨rfl, -⟩ | ⟨_, _, _, -, h⟩
    · exact (RoutesKept.refl t).routeChange
    · exact .handover _ _ _ h.handover

variable [UuidText]

/-- The operations that map keys: binds and route actions. -/
def Op.mapsKeys : Op → Bool
  | .bindAffinitiesAtEpoch .. => true
  | .applySessionRouteAction .. => true
  | _ => false

/-- Every other operation at most forgets. -/
theorem Op.forgetting {op : Op} (h : op.mapsKeys = false) (now : Clock) (s : Store) :
    ∃ keep, Forgetting keep s (op.exec now s) := by
  cases op with
  | upsertAccount newId encrypted lastRefreshAt claims label =>
    exact (kept_upsertAccount ..).forgetting
  | updateAccount id status label email planType => exact (kept_updateAccount ..).forgetting
  | deleteAccount id => exact forgetting_deleteAccount id s
  | updateAccountTokens id encrypted claims => exact (kept_updateAccountTokens ..).forgetting
  | cooldownAccount id seconds reason => exact (kept_cooldownAccount ..).forgetting
  | markAuthFailed id reason => exact (kept_update ..).forgetting
  | markUsageError id message => exact (kept_update ..).forgetting
  | replaceUsageWindows id planType fetchedAt windows =>
    exact (kept_replaceUsageWindows ..).forgetting
  | insertRequestLog requestId id => exact (kept_insertRequestLog ..).forgetting
  | insertUsageSnapshot id => exact (kept_insertUsageSnapshot ..).forgetting
  | pruneHistory retentionDays => exact forgetting_pruneHistory retentionDays now.instant s
  | acquireAccountIfAvailable id => exact (kept_acquireAccountIfAvailable ..).forgetting
  | acquireSmartAccount settings usageRefreshInterval excluded selectedAt =>
    exact (kept_acquireSmartAccount ..).forgetting
  | releaseAccountInner id updateLastRequest => exact (kept_updateRuntime ..).forgetting
  | resetInflight => exact (kept_resetInflight s).forgetting
  | bindAffinitiesAtEpoch keys accountId epoch => cases h
  | applySessionRouteAction settings usageRefreshInterval request liveAccountIds selectedAt =>
    cases h

/-- Every operation is a route change. -/
theorem Op.routeChange (op : Op) (now : Clock) {s : Store} (hs : s.RouteInvariant) :
    RouteChange s (op.exec now s) := by
  cases hm : op.mapsKeys with
  | false =>
    obtain ⟨keep, hk⟩ := Op.forgetting hm now s
    exact .forget keep hk
  | true =>
    cases op with
    | bindAffinitiesAtEpoch keys accountId epoch =>
      exact routeChange_bindAffinitiesAtEpoch hs keys accountId epoch now.instant
    | applySessionRouteAction settings usageRefreshInterval request liveAccountIds selectedAt =>
      exact routeChange_applySessionRouteAction ..
    | _ => cases hm

/-- Binds and route actions write the route tables and the affinity rows, and nothing else. -/
theorem Op.frame {op : Op} (h : op.mapsKeys = true) (now : Clock) (s : Store) :
    WritesRoutes s (op.exec now s) := by
  cases op with
  | bindAffinitiesAtEpoch keys accountId epoch =>
    exact bindAffinitiesAtEpoch_writes keys accountId epoch now.instant s
  | applySessionRouteAction settings usageRefreshInterval request liveAccountIds selectedAt =>
    cases ha : CodexLb.applySessionRouteAction settings usageRefreshInterval request
      liveAccountIds selectedAt now.instant s with
    | mk r t =>
      have hexec : (Op.applySessionRouteAction settings usageRefreshInterval request liveAccountIds
        selectedAt).exec now s = t := congrArg Prod.snd ha
      rw [hexec]
      rcases applySessionRouteAction_outcome ha with ⟨rfl, -⟩ | ⟨_, _, _, -, h⟩
      · rfl
      · exact h.frame
  | _ => cases h

/-- The operations that write accounts. -/
def Op.writesAccounts : Op → Bool
  | .upsertAccount .. | .updateAccount .. | .deleteAccount _ | .updateAccountTokens ..
  | .markAuthFailed .. | .markUsageError .. | .replaceUsageWindows .. => true
  | _ => false

/-- The operations that write runtime rows. -/
def Op.writesRuntime : Op → Bool
  | .upsertAccount .. | .deleteAccount _ | .cooldownAccount .. | .acquireAccountIfAvailable _
  | .acquireSmartAccount .. | .releaseAccountInner .. | .resetInflight => true
  | _ => false

/-- The other operations leave the accounts alone. -/
theorem Op.accounts_frame {op : Op} (h : op.writesAccounts = false) (now : Clock) (s : Store) :
    (op.exec now s).accounts = s.accounts := by
  cases op with
  | cooldownAccount id seconds reason => rw [Op.exec, cooldownAccount_frame]
  | insertRequestLog requestId id =>
    rw [Op.exec, CodexLb.insertRequestLog]
    split <;> rfl
  | insertUsageSnapshot id =>
    rw [Op.exec, CodexLb.insertUsageSnapshot]
    split <;> rfl
  | pruneHistory retentionDays => rfl
  | acquireAccountIfAvailable id =>
    rw [Op.exec, CodexLb.acquireAccountIfAvailable]
    split <;> rfl
  | acquireSmartAccount settings usageRefreshInterval excluded selectedAt =>
    rw [Op.exec, CodexLb.acquireSmartAccount]
    split <;> rfl
  | releaseAccountInner id updateLastRequest => rfl
  | resetInflight => rfl
  | bindAffinitiesAtEpoch keys accountId epoch => rw [Op.frame rfl now s]
  | applySessionRouteAction settings usageRefreshInterval request liveAccountIds selectedAt =>
    rw [Op.frame rfl now s]
  | _ => cases h

/-- The other operations leave the runtime rows alone. -/
theorem Op.runtime_frame {op : Op} (h : op.writesRuntime = false) (now : Clock) (s : Store) :
    (op.exec now s).accountRuntimeState = s.accountRuntimeState := by
  cases op with
  | updateAccount id status label email planType =>
    exact updateAccount_keeps (fun t ↦ t.accountRuntimeState = s.accountRuntimeState) rfl
      fun _ _ ↦ rfl
  | updateAccountTokens id encrypted claims =>
    exact updateAccountTokens_keeps (fun t ↦ t.accountRuntimeState = s.accountRuntimeState) rfl rfl
  | markAuthFailed id reason => rfl
  | markUsageError id message => rfl
  | replaceUsageWindows id planType fetchedAt windows =>
    exact replaceUsageWindows_keeps (fun t ↦ t.accountRuntimeState = s.accountRuntimeState) rfl
      fun _ _ ↦ rfl
  | insertRequestLog requestId id =>
    rw [Op.exec, CodexLb.insertRequestLog]
    split <;> rfl
  | insertUsageSnapshot id =>
    rw [Op.exec, CodexLb.insertUsageSnapshot]
    split <;> rfl
  | pruneHistory retentionDays => rfl
  | bindAffinitiesAtEpoch keys accountId epoch => rw [Op.frame rfl now s]
  | applySessionRouteAction settings usageRefreshInterval request liveAccountIds selectedAt =>
    rw [Op.frame rfl now s]
  | _ => cases h

/-- Everything that holds of the routes of a reachable store. -/
structure Store.RoutesSound (s : Store) : Prop where
  invariant : s.RouteInvariant
  accounts : s.AccountsStored
  replayable : s.CommandsReplayable
  coherent : s.Coherent

omit [UuidText] in
/-- The routes of a freshly migrated store are sound. -/
theorem Store.FreshlyMigrated.routesSound {s : Store} (h : s.FreshlyMigrated) :
    s.RoutesSound := by
  have hk : ∀ k, s.sessionRouteKeys.find k = none := fun k ↦ by rw [h.routeKeys]; rfl
  have hr : ∀ r, s.sessionRoots.find r = none := fun r ↦ by rw [h.roots]; rfl
  have hmapped : ∀ k row, s.sessionRouteKeys.find k ≠ some row := fun k row he ↦ by
    rw [hk] at he
    cases he
  have hrooted : ∀ r root, s.sessionRoots.find r ≠ some root := fun r root he ↦ by
    rw [hr] at he
    cases he
  exact {
    invariant :=
      { rootOwnsKey := fun r root he ↦ absurd he (hrooted r root)
        keyHasRoot := fun k row he ↦ absurd he (hmapped k row)
        mappedAffinity := fun k row _ _ he ↦ absurd he (hmapped k row)
        unmappedAffinity := fun k affinity _ ha ↦ h.legacy k affinity ha }
    accounts :=
      { affinity := h.accounts
        requested := fun r root _ he ↦ absurd he (hrooted r root)
        effective := fun r root _ he ↦ absurd he (hrooted r root) }
    replayable :=
      { wellFormed := fun k row he ↦ absurd he (hmapped k row)
        rebalance := fun r root he ↦ absurd he (hrooted r root) }
    coherent := fun k row _ _ _ he ↦ absurd he (hmapped k row) }

/-- Every operation keeps the routes sound. -/
theorem Store.RoutesSound.step {s t : Store} {op : Op × Clock} (hs : s.RoutesSound)
    (h : s.Step op t) : t.RoutesSound := by
  subst h
  have hc := op.1.routeChange op.2 hs.invariant
  exact ⟨hc.routeInvariant hs.invariant, hc.accountsStored hs.accounts,
    hc.commandsReplayable hs.replayable, hc.coherent hs.coherent⟩

/-- The routes of every reachable store are sound. -/
theorem Store.Reached.routesSound {s : Store} (h : s.Reached) : s.RoutesSound :=
  h.invariant (fun _ h ↦ h.routesSound) fun _ _ _ hs hstep ↦ hs.step hstep

/-- Along every run the keys stay mapped and their generations do not decrease. -/
theorem Store.RoutesSound.forward {s t : Store} {ops : List (Op × Clock)} (hs : s.RoutesSound)
    (h : Run Store.Step s ops t) : Forward Store.generation s t := by
  refine h.relates (fun _ _ _ hs hstep ↦ hs.step hstep) Forward.refl (fun _ _ _ h k ↦ h.trans k)
    ?_ hs
  rintro s op t hs rfl
  exact (op.1.routeChange op.2 hs.invariant).forward hs.invariant

/-- Along every run a key that has received a route action never leaves that state. -/
theorem Store.RoutesSound.commanded {s t : Store} {ops : List (Op × Clock)} (hs : s.RoutesSound)
    (h : Run Store.Step s ops t) {k : String} (hk : s.Commanded k) : t.Commanded k := by
  have both : t.RoutesSound ∧ t.Commanded k := by
    apply h.invariant _ ⟨hs, hk⟩
    rintro s op t ⟨hs, hk⟩ hstep
    refine ⟨hs.step hstep, ?_⟩
    subst hstep
    exact (op.1.routeChange op.2 hs.invariant).commanded hk
  exact both.2

/-- A freshly migrated store with two active accounts. -/
def twoAccounts : Store :=
  let claims (email : String) : AuthClaims := ⟨none, email, "plus", none⟩
  let tokens : AccountTokens := ⟨"access", "refresh", "id"⟩
  .initial
    { rows := [
        (1, importedAccount tokens none (claims "one@example.invalid") "one" 0),
        (2, importedAccount tokens none (claims "two@example.invalid") "two" 0)]
      distinct := by decide }

/-- A session key. -/
def sessionKey : SessionRouteKey := ⟨hexHash 1, "session_id"⟩

/-- The two accounts after the session was bound to the first one. -/
def boundSession : Store := (bindAffinitiesAtEpoch [sessionKey] 1 none 1000 twoAccounts).2

/-- A command that sends the session to an account. -/
def rerouteSession (target : String) (dryRun : Bool) : SessionRouteActionRequest where
  rootKeyHash := sessionKey.keyHash
  keys := [sessionKey]
  action := .reroute
  target := some target
  dryRun := dryRun

/-- The store with the status of both accounts set. -/
def setAccounts (status : String) (s : Store) : Store :=
  (@updateAccount hyphenatedText 2 (some status) none none none
    (@updateAccount hyphenatedText 1 (some status) none none none s).2).2

/-- The plan that sends the session from the first account to the second. -/
def reroutePlan : RoutePlan where
  rootHashes := [sessionKey.keyHash]
  allKeys := [sessionKey]
  currentGeneration := 0
  requestedAccountId := some 2
  effectiveAccountId := some 2
  requiresMove := true
  routeGeneration := 1
  status := .applied
  requestedAccount := some "two"
  effectiveAccount := some "two"
  previousAccounts := ["one"]
  changedRouteCount := 1
  mergedRootCount := 0

/-- The session after it was sent to the second account. -/
def reroutedSession (s : Store) (liveAccountIds : List Uuid) : Store :=
  (@applySessionRouteAction hyphenatedText .default 300 (rerouteSession "two" false)
    liveAccountIds 2000 2000 s).2

/-- The session that was sent to the second account while both accounts were paused. -/
def pausedReroute : Store :=
  (@applySessionRouteAction hyphenatedText .default 300 (rerouteSession "two" false) [] 2000 2000
    (setAccounts "paused" boundSession)).2

/-- The two accounts are a reachable store. -/
theorem twoAccounts_reached : twoAccounts.Reached :=
  ⟨twoAccounts, [], Store.freshlyMigrated_initial _, .nil _⟩

/-- The bound session is a reachable store. -/
theorem boundSession_reached : boundSession.Reached := by
  have hrun : Run Store.Step twoAccounts
      [(.bindAffinitiesAtEpoch [sessionKey] 1 none, ⟨1000, ""⟩)] boundSession := .single rfl
  exact twoAccounts_reached.run hrun

omit [UuidText] in
/-- The session that was rerouted while both accounts were paused is a reachable store. -/
theorem pausedReroute_reached : let _ := hyphenatedText
    pausedReroute.Reached := by
  intro _
  have hrun : Run Store.Step boundSession
      [(.updateAccount 1 (some "paused") none none none, ⟨1500, ""⟩),
        (.updateAccount 2 (some "paused") none none none, ⟨1500, ""⟩),
        (.applySessionRouteAction .default 300 (rerouteSession "two" false) [] 2000, ⟨2000, ""⟩)]
      pausedReroute := .cons rfl (.cons rfl (.single rfl))
  exact boundSession_reached.run hrun

end CodexLb
