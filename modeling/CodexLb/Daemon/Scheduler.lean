import CodexLb.Route.Reachable

/-!
# Pending reroutes and the scheduler

The scheduler lists the pending commands at a tick and retries them one after
another (`src/scheduler.rs:51–121`), while requests, turns and account changes
commit in between. A pending reroute reaches its target as long as none of
these writes takes its root first.
-/

namespace CodexLb

open Relational Transition

/-- The store, with the commands that the scheduler has listed and not yet retried. -/
structure Daemon where
  store : Store
  pending : List SessionRouteActionRequest

/-- What the tasks of the daemon do: commit an operation, list the pending commands, or retry the
first listed one. -/
inductive Event where
  | commit (op : Op)
  | tick
  | retry (settings : RuntimeSettings) (usageRefreshInterval : Nat) (liveAccountIds : List Uuid)
      (selectedAt : Instant)

/-- A command of the operator, as opposed to the scheduler's retry of one. -/
def Event.operatorAction : Event → Bool
  | .commit (.applySessionRouteAction ..) => true
  | _ => false

/-- The instant at which an event reads the eligibility of accounts. -/
def Event.readAt (event : Event) (now : Clock) : Instant :=
  match event with
  | .retry _ _ _ selectedAt => selectedAt
  | _ => now.instant

/-- The reroute of a root to an account is pending. -/
structure PendingReroute (s : Store) (rootKeyHash : String) (root : SessionRoot)
    (accountId : Uuid) : Prop where
  stored : s.sessionRoots.find rootKeyHash = some root
  reroute : root.lastAction = some .reroute
  requested : root.requestedAccountId = some accountId
  pending : root.actionStatus = some .pending

variable [UuidText]

/-- The daemon after an event; `apply_pending_session_route_actions`, `src/scheduler.rs:67–121`. -/
def Event.exec (event : Event) (now : Clock) (d : Daemon) : Daemon :=
  match event with
  | .commit op => { d with store := op.exec now d.store }
  | .tick =>
    if d.pending.isEmpty then { d with pending := listPendingSessionRouteActions 100 d.store }
    else d
  | .retry settings usageRefreshInterval liveAccountIds selectedAt =>
    match d.pending with
    | [] => d
    | request :: rest =>
      { store := (applySessionRouteAction settings usageRefreshInterval request liveAccountIds
          selectedAt now.instant d.store).2
        pending := rest }

/-- One event of the daemon. -/
def Daemon.Step (d : Daemon) (event : Event × Clock) (d' : Daemon) : Prop :=
  event.1.exec event.2 d = d'

/-- The daemon at startup, on a freshly migrated store. -/
structure Daemon.Started (d : Daemon) : Prop where
  store : d.store.FreshlyMigrated
  pending : d.pending = []

/-- An event that is no command of the operator ends a pending reroute only on its target, unless
the target is ineligible at that event. -/
def KeepsReroutes (d : Daemon) (event : Event × Clock) : Prop :=
  ∀ r root accountId, PendingReroute d.store r root accountId → event.1.operatorAction = false →
    (∃ after, (event.1.exec event.2 d).store.sessionRoots.find r = some after ∧
      (after.actionStatus = some .pending ∨ after.effectiveAccountId = some accountId)) ∨
    accountIsEligible accountId (event.1.readAt event.2) d.store = false

/-- While a reroute to an eligible account is pending, no bind under the current epoch of its root
is for another account, and no retry that covers its root is of another command. -/
def Undisturbed (d : Daemon) (event : Event × Clock) : Prop :=
  ∀ r root accountId, PendingReroute d.store r root accountId →
    accountIsEligible accountId (event.1.readAt event.2) d.store = true →
    match event.1 with
    | .commit (.bindAffinitiesAtEpoch _ bound (some epoch)) =>
      epoch.rootKeyHash = r → epoch.routeGeneration = root.routeGeneration → bound = accountId
    | .retry .. => ∀ request rest, d.pending = request :: rest →
      r ∈ coveredRoots (request.keys.map SessionRouteKey.keyHash) request.rootKeyHash d.store →
      request.rootKeyHash = r ∧ request.action = .reroute ∧
        request.target = some (UuidText.toText accountId)
    | _ => True

variable {d : Daemon}

private theorem kept_of_eq {event : Event × Clock} {r : String} {root : SessionRoot}
    {accountId : Uuid} (h : PendingReroute d.store r root accountId)
    (hsame : (event.1.exec event.2 d).store.sessionRoots.find r = d.store.sessionRoots.find r) :
    ∃ after, (event.1.exec event.2 d).store.sessionRoots.find r = some after ∧
      (after.actionStatus = some .pending ∨ after.effectiveAccountId = some accountId) :=
  ⟨root, by rw [hsame, h.stored], .inl h.pending⟩

omit [UuidText] in
/-- A bind keeps a pending root, or settles it on its own account. -/
theorem PendingReroute.bind {s t : Store} {r : String} {root : SessionRoot} {accountId : Uuid}
    (h : PendingReroute s r root accountId) (hs : s.RouteInvariant)
    {keys : List SessionRouteKey} {bound : Uuid} {epoch : Option SessionRouteEpoch}
    {now : Instant} {result : Except AppError Bool}
    (hbind : bindAffinitiesAtEpoch keys bound epoch now s = (result, t))
    (htarget : ∀ captured, epoch = some captured → captured.rootKeyHash = r →
      captured.routeGeneration = root.routeGeneration → bound = accountId) :
    ∃ after, t.sessionRoots.find r = some after ∧
      (after.actionStatus = some .pending ∨ after.effectiveAccountId = some accountId) := by
  cases bindAffinitiesAtEpoch_outcome hs hbind with
  | refused _ => exact ⟨root, h.stored, .inl h.pending⟩
  | empty _ _ => exact ⟨root, h.stored, .inl h.pending⟩
  | @atEpoch validated captured stored _ _ he hb =>
    by_cases hr : r = captured.rootKeyHash
    · have hsame : stored = root := by
        have hfind := hb.current
        rw [← hr, h.stored] at hfind
        exact (Option.some.inj hfind).symm
      subst hsame
      have hbound := htarget captured he hr.symm hb.generation.symm
      refine ⟨BoundAtEpoch.rootAfter bound now stored, by rw [hb.roots_after, if_pos hr], ?_⟩
      rw [BoundAtEpoch.rootAfter]
      split
      · rw [hbound]
        exact .inr rfl
      · exact .inl h.pending
    · exact ⟨root, by rw [hb.roots_after, if_neg hr, h.stored], .inl h.pending⟩
  | @unclaimed validated rootKeyHash untouched before _ _ _ hb =>
    have hne : r ≠ rootKeyHash := by
      intro hr
      have hold := hb.unchanged root (hr ▸ h.stored)
      have hnone := hb.untouched.2
      rw [← hold, h.reroute] at hnone
      cases hnone
    refine ⟨root, ?_, .inl h.pending⟩
    rw [hb.store]
    change before.sessionRoots.find r = _
    rw [hb.others r hne, h.stored]

/-- A retry of the stored command settles a pending root on its eligible target. -/
theorem PendingReroute.retry {s t : Store} {r : String} {root : SessionRoot} {accountId : Uuid}
    (h : PendingReroute s r root accountId) {settings : RuntimeSettings}
    {usageRefreshInterval : Nat} {request : SessionRouteActionRequest}
    {liveAccountIds : List Uuid} {selectedAt now : Instant}
    {result : Except AppError SessionRouteActionResponse}
    (happly : applySessionRouteAction settings usageRefreshInterval request liveAccountIds
      selectedAt now s = (result, t))
    (heligible : accountIsEligible accountId selectedAt s = true)
    (hcommand : r ∈ coveredRoots (request.keys.map SessionRouteKey.keyHash) request.rootKeyHash s →
      request.rootKeyHash = r ∧ request.action = .reroute ∧
        request.target = some (UuidText.toText accountId)) :
    ∃ after, t.sessionRoots.find r = some after ∧
      (after.actionStatus = some .pending ∨ after.effectiveAccountId = some accountId) := by
  rcases applySessionRouteAction_outcome happly with ⟨ht, -⟩ | ⟨inputKeys, target, plan, -, hc⟩
  · rw [ht]
    exact ⟨root, h.stored, .inl h.pending⟩
  · have hmem := mem_hashes_of_validate hc.validated.keys
    by_cases hr : r ∈ coveredRoots inputKeys.hashes request.rootKeyHash s
    · obtain ⟨rfl, hreroute, htarget⟩ := hcommand ((mem_coveredRoots_congr hmem).mp hr)
      refine ⟨_, hc.handover.installed, .inr ?_⟩
      obtain ⟨text, resolved, htext, hresolved, hresolves⟩ := hc.validated.reroute hreroute
      obtain ⟨account, -, haccount, -⟩ := accountIsEligible_iff.mp heligible
      obtain ⟨label, hlabel⟩ :=
        resolveSessionRouteTarget_toText (Table.has_iff.mpr ⟨account, haccount⟩)
      -- the text of the command names the target itself
      have hsame : resolved = ⟨accountId, label⟩ := by
        rw [htext, Option.some.injEq] at htarget
        rw [htarget, hlabel] at hresolves
        exact (Except.ok.inj hresolves).symm
      change plan.effectiveAccountId = _
      rw [hc.planned.effective, hresolved, hsame, effectiveRouteAccount, if_pos heligible]
    · have hne : r ≠ request.rootKeyHash := fun he ↦ hr (mem_coveredRoots_iff.mpr (.inl he))
      exact ⟨root, by rw [hc.roots, if_neg hne, if_neg hr, h.stored], .inl h.pending⟩

/-- An undisturbed event keeps the pending reroutes. -/
theorem Undisturbed.keepsReroutes (hs : d.store.RouteInvariant) {event : Event × Clock}
    (h : Undisturbed d event) : KeepsReroutes d event := by
  obtain ⟨event, now⟩ := event
  intro r root accountId hpending hoperator
  by_cases heligible : accountIsEligible accountId (event.readAt now) d.store = true
  · refine .inl ?_
    have hcond := h r root accountId hpending heligible
    cases event with
    | tick =>
      refine kept_of_eq hpending ?_
      change (if _ then _ else _ : Daemon).store.sessionRoots.find r = _
      split <;> rfl
    | retry settings usageRefreshInterval liveAccountIds selectedAt =>
      cases hlisted : d.pending with
      | nil =>
        refine kept_of_eq hpending ?_
        rw [Event.exec, hlisted]
      | cons request rest =>
        rw [Event.exec, hlisted]
        exact hpending.retry rfl heligible (hcond request rest hlisted)
    | commit op =>
      cases hmaps : op.mapsKeys with
      | false =>
        obtain ⟨keep, hforget⟩ := Op.forgetting hmaps now d.store
        refine ⟨root.keepAccounts keep, ?_, .inl hpending.pending⟩
        change (op.exec now d.store).sessionRoots.find r = _
        rw [hforget.roots, hpending.stored]
        rfl
      | true =>
        cases op with
        | bindAffinitiesAtEpoch keys bound epoch =>
          refine hpending.bind hs rfl fun captured he ↦ ?_
          subst he
          exact hcond
        | applySessionRouteAction _ _ _ _ _ => cases hoperator
        | _ => cases hmaps
  · exact .inr (by simpa using heligible)

/-- The store of a running daemon stays reachable. -/
theorem Daemon.Step.reached {d d' : Daemon} {event : Event × Clock} (h : d.Step event d')
    (hs : d.store.Reached) : d'.store.Reached := by
  subst h
  obtain ⟨event, now⟩ := event
  cases event with
  | commit op =>
    have hrun : Run Store.Step d.store [(op, now)] (op.exec now d.store) := .single rfl
    exact hs.run hrun
  | tick =>
    change (if _ then _ else _ : Daemon).store.Reached
    split <;> exact hs
  | retry settings usageRefreshInterval liveAccountIds selectedAt =>
    change Daemon.store (match d.pending with | [] => _ | _ :: _ => _) |>.Reached
    split
    · exact hs
    · next request rest _ =>
      have hrun : Run Store.Step d.store [(.applySessionRouteAction settings usageRefreshInterval
          request liveAccountIds selectedAt, now)] _ := .single rfl
      exact hs.run hrun

/-- A pending reroute is not lost to another account: in every run whose events are undisturbed,
every event keeps the pending reroutes. -/
theorem pending_reroute_not_lost {d' : Daemon} {events : List (Event × Clock)} (hd : d.Started)
    (hrun : Run (guarded Daemon.Step Undisturbed) d events d') :
    Run (guarded Daemon.Step KeepsReroutes) d events d' := by
  have hreached : d.store.Reached := ⟨d.store, [], hd.store, .nil _⟩
  refine hrun.refine (fun d ↦ d.store.Reached) ?_ ?_ hreached
  · rintro s i t hs ⟨-, hstep⟩
    exact hstep.reached hs
  · rintro s i t hs ⟨hgood, hstep⟩
    exact ⟨hgood.keepsReroutes hs.routesSound.invariant, hstep⟩

/-- The rerouted session after both accounts were resumed: the reroute is still pending. -/
def resumedReroute : Store := setAccounts "active" pausedReroute

/-- The plan of the reroute while both accounts were paused. -/
def pendingPlan : RoutePlan :=
  { reroutePlan with
    effectiveAccountId := none
    requiresMove := false
    routeGeneration := 0
    status := .pending
    effectiveAccount := none
    changedRouteCount := 0 }

/-- The events that set the status of both accounts. -/
def setEvents (status : String) (now : Clock) : List (Event × Clock) :=
  [(.commit (.updateAccount 1 (some status) none none none), now),
    (.commit (.updateAccount 2 (some status) none none none), now)]

/-- The events that lead to the pending reroute. -/
def rerouteEvents : List (Event × Clock) :=
  [(.commit (.bindAffinitiesAtEpoch [sessionKey] 1 none), ⟨1000, ""⟩)] ++
    setEvents "paused" ⟨1500, ""⟩ ++
    [(.commit (.applySessionRouteAction .default 300 (rerouteSession "two" false) [] 2000),
      ⟨2000, ""⟩)] ++
    setEvents "active" ⟨2500, ""⟩

omit [UuidText] in
private theorem setEvents_run (status : String) (now : Clock) (s : Store) :
    let _ := hyphenatedText
    Run (guarded Daemon.Step Undisturbed) ⟨s, []⟩ (setEvents status now)
      ⟨setAccounts status s, []⟩ :=
  .cons ⟨fun _ _ _ _ _ ↦ trivial, rfl⟩ (.single ⟨fun _ _ _ _ _ ↦ trivial, rfl⟩)

omit [UuidText] in
/-- The events lead to the pending reroute, and none of them disturbs it. -/
theorem rerouteEvents_run : let _ := hyphenatedText
    Run (guarded Daemon.Step Undisturbed) ⟨twoAccounts, []⟩ rerouteEvents
      ⟨resumedReroute, []⟩ := by
  intro _
  have hbind : Run (guarded Daemon.Step Undisturbed) ⟨twoAccounts, []⟩
      [(.commit (.bindAffinitiesAtEpoch [sessionKey] 1 none), ⟨1000, ""⟩)]
      ⟨boundSession, []⟩ := .single ⟨fun _ _ _ _ _ ↦ trivial, rfl⟩
  have hreroute : Run (guarded Daemon.Step Undisturbed) ⟨setAccounts "paused" boundSession, []⟩
      [(.commit (.applySessionRouteAction .default 300 (rerouteSession "two" false) [] 2000),
        ⟨2000, ""⟩)] ⟨pausedReroute, []⟩ := .single ⟨fun _ _ _ _ _ ↦ trivial, rfl⟩
  exact ((hbind.append (setEvents_run "paused" _ boundSession)).append hreroute).append
    (setEvents_run "active" _ pausedReroute)

omit [UuidText] in
private theorem resumedReroute_facts : let _ := hyphenatedText
    resumedReroute.sessionRoots = Table.empty.insert (hexHash 1)
        (commandedRoot .reroute pendingPlan 2000) ∧
      accountIsEligible 2 3000 resumedReroute = true ∧
      resolveSessionRouteEpoch [sessionKey] resumedReroute =
        .ok (some ⟨hexHash 1, 0, hexHash 1⟩) ∧
      (bindAffinitiesAtEpoch [sessionKey] 1 (some ⟨hexHash 1, 0, hexHash 1⟩) 3000
        resumedReroute).2.sessionRoots.find (hexHash 1) =
          some (fallbackRoot 1 3000 (commandedRoot .reroute pendingPlan 2000)) ∧
      listPendingSessionRouteActions 100 resumedReroute =
        [⟨hexHash 1, [sessionKey], .reroute, some (UuidText.toText 2), false⟩] := by
  decide +kernel

omit [UuidText] in
/-- The pending reroute is lost to the session's next ordinary request: it is served on the first
account before the scheduler retries the command, and its bind takes the root. -/
theorem pending_reroute_lost : let _ := hyphenatedText
    Run Daemon.Step ⟨twoAccounts, []⟩ rerouteEvents ⟨resumedReroute, []⟩ ∧
      resolveSessionRouteEpoch [sessionKey] resumedReroute =
        .ok (some ⟨hexHash 1, 0, hexHash 1⟩) ∧
      ¬ KeepsReroutes ⟨resumedReroute, []⟩ (.commit (.bindAffinitiesAtEpoch [sessionKey] 1
        (some ⟨hexHash 1, 0, hexHash 1⟩)), ⟨3000, ""⟩) := by
  intro _
  obtain ⟨hroots, heligible, hepoch, hafter, -⟩ := resumedReroute_facts
  refine ⟨rerouteEvents_run.refine (fun _ ↦ True) (fun _ _ _ _ _ ↦ trivial)
    (fun _ _ _ _ h ↦ h.2) trivial, hepoch, ?_⟩
  generalize resumedReroute = s at *
  intro hkeeps
  have hroot : s.sessionRoots.find (hexHash 1) =
      some (commandedRoot .reroute pendingPlan 2000) := by
    rw [hroots, Table.find_insert, if_pos rfl]
    rfl
  rcases hkeeps (hexHash 1) _ 2 ⟨hroot, rfl, rfl, rfl⟩ rfl with ⟨after, hfind, hcase⟩ | hineligible
  · cases hafter.symm.trans hfind
    rcases hcase with hcase | hcase
    · cases hcase
    · revert hcase
      decide
  · cases heligible.symm.trans hineligible

omit [UuidText] in
/-- Undisturbed, the scheduler's next tick retries the pending reroute. -/
theorem pending_reroute_not_lost_retried : let _ := hyphenatedText
    let retry : Event := .retry .default 300 [] 4000
    let ticked := Event.exec .tick ⟨4000, ""⟩ ⟨resumedReroute, []⟩
    Run (guarded Daemon.Step KeepsReroutes) ⟨twoAccounts, []⟩
      (rerouteEvents ++ [(.tick, ⟨4000, ""⟩), (retry, ⟨4000, ""⟩)])
      (retry.exec ⟨4000, ""⟩ ticked) := by
  intro _ retry ticked
  obtain ⟨hroots, -, -, -, hlisted⟩ := resumedReroute_facts
  have hretry : Undisturbed ticked (retry, ⟨4000, ""⟩) := by
    intro r root accountId hpending _ request rest hfirst _
    have hstored : resumedReroute.sessionRoots.find r = some root := hpending.stored
    rw [hroots, Table.find_insert] at hstored
    split at hstored
    · next hr =>
      cases hstored
      have hrequested := hpending.requested
      cases hrequested
      cases hlisted.symm.trans hfirst
      exact ⟨hr.symm, rfl, rfl⟩
    · cases hstored
  have htick : Run (guarded Daemon.Step Undisturbed) ⟨resumedReroute, []⟩
      [(.tick, ⟨4000, ""⟩), (retry, ⟨4000, ""⟩)] (retry.exec ⟨4000, ""⟩ ticked) :=
    .cons ⟨fun _ _ _ _ _ ↦ trivial, rfl⟩ (.single ⟨hretry, rfl⟩)
  exact pending_reroute_not_lost ⟨Store.freshlyMigrated_initial _, rfl⟩
    (rerouteEvents_run.append htick)

end CodexLb
