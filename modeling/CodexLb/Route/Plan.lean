import CodexLb.Route.Invariant

/-!
# What a route action decides

A route action is its plan: the plan does not see the root row that the
committing call inserts first, so a preview and a commit decide alike, and
everything before the writes leaves the store alone.
-/

namespace CodexLb

open Relational

section Plan

variable (settings : RuntimeSettings) (usageRefreshInterval : Nat)

/-- The generations of some roots do not see a root inserted at generation zero. -/
theorem rootGeneration_withRoot (rootHashes : List String) (rootKeyHash : String) (now : Instant)
    (s : Store) :
    rootGeneration rootHashes (s.withRoot rootKeyHash now) = rootGeneration rootHashes s := by
  have hle : ∀ s n, rootGeneration rootHashes s ≤ n ↔ ∀ r root,
      s.sessionRoots.find r = some root → r ∈ rootHashes → root.routeGeneration ≤ n := by
    intro s n
    rw [rootGeneration, maximum_le_iff, List.forall_mem_map]
    constructor
    · intro h r root hr hin
      exact h (r, root) (Table.mem_select_iff.mpr ⟨hr, by simpa using hin⟩)
    · rintro h ⟨r, root⟩ hm
      obtain ⟨hr, hin⟩ := Table.mem_select_iff.mp hm
      exact h r root hr (by simpa using hin)
  refine eq_of_forall_ge_iff fun n ↦ ?_
  rw [hle, hle]
  constructor
  · intro h r root hr hin
    refine h r root ?_ hin
    rw [Store.withRoot, Table.find_insert]
    split
    · next he => rw [← he, hr]; rfl
    · exact hr
  · intro h r root hr hin
    rw [Store.withRoot, Table.find_insert] at hr
    split at hr
    · next he =>
      subst he
      cases hold : s.sessionRoots.find r with
      | none =>
        rw [hold] at hr
        cases hr
        exact Nat.zero_le n
      | some old =>
        rw [hold] at hr
        cases hr
        exact h r _ hold hin
    · exact h r root hr hin

/-- The snapshots do not see the inserted root. -/
theorem routeSnapshot_withRoot (rootKeyHash : String) (inputKeys : RouteKeys)
    (canonicalExisted : Bool) (now : Instant) (s : Store) :
    routeSnapshot rootKeyHash inputKeys canonicalExisted (s.withRoot rootKeyHash now) =
      routeSnapshot rootKeyHash inputKeys canonicalExisted s := by
  unfold routeSnapshot
  simp only [rootGeneration_withRoot]
  rfl

/-- The plan does not see the inserted root. -/
theorem planSessionRouteAction_withRoot (rootKeyHash : String) (inputKeys : RouteKeys)
    (target : Option ResolvedSessionRouteTarget) (liveAccountIds : List Uuid)
    (selectedAt : Instant) (canonicalExisted : Bool) (now : Instant) (s : Store) :
    planSessionRouteAction settings usageRefreshInterval rootKeyHash inputKeys target
        liveAccountIds selectedAt canonicalExisted (s.withRoot rootKeyHash now) =
      planSessionRouteAction settings usageRefreshInterval rootKeyHash inputKeys target
        liveAccountIds selectedAt canonicalExisted s := by
  unfold planSessionRouteAction
  rw [routeSnapshot_withRoot]
  rfl

variable [UuidText]

/-- The plan of a request on a store, or the error that it ends with. -/
def routeActionPlan (request : SessionRouteActionRequest) (liveAccountIds : List Uuid)
    (selectedAt : Instant) (s : Store) : Except AppError RoutePlan := do
  let (inputKeys, target) ← validateRouteAction request s
  planSessionRouteAction settings usageRefreshInterval request.rootKeyHash inputKeys target
    liveAccountIds selectedAt (s.sessionRoots.has request.rootKeyHash) s

/-- The store that a planned request leaves. -/
def routeActionStore (request : SessionRouteActionRequest) (plan : RoutePlan) (now : Instant)
    (s : Store) : Store :=
  if request.dryRun then s
  else writeRouteAction request plan now (s.withRoot request.rootKeyHash now)

/-- A route action is its plan, followed by the writes unless it is a dry run. -/
theorem applySessionRouteAction_eq (request : SessionRouteActionRequest)
    (liveAccountIds : List Uuid) (selectedAt now : Instant) (s : Store) :
    applySessionRouteAction settings usageRefreshInterval request liveAccountIds selectedAt now s =
      match routeActionPlan settings usageRefreshInterval request liveAccountIds selectedAt s with
      | .error e => (.error e, s)
      | .ok plan => (.ok (plan.response request), routeActionStore request plan now s) := by
  unfold applySessionRouteAction routeActionPlan
  cases validateRouteAction request s with
  | error e => rfl
  | ok validated =>
    obtain ⟨inputKeys, target⟩ := validated
    change transaction _ s = match planSessionRouteAction settings usageRefreshInterval
      request.rootKeyHash inputKeys target liveAccountIds selectedAt _ s with
      | .error e => _
      | .ok plan => _
    have hplan : ∀ existed, planSessionRouteAction settings usageRefreshInterval
        request.rootKeyHash inputKeys target liveAccountIds selectedAt existed
        (if request.dryRun then s else s.withRoot request.rootKeyHash now) =
        planSessionRouteAction settings usageRefreshInterval request.rootKeyHash inputKeys target
          liveAccountIds selectedAt existed s := by
      intro existed
      split
      · rfl
      · rw [planSessionRouteAction_withRoot]
    unfold transaction routeActionBody routeActionStore
    simp only [hplan]
    cases planSessionRouteAction settings usageRefreshInterval request.rootKeyHash inputKeys
      target liveAccountIds selectedAt (s.sessionRoots.has request.rootKeyHash) s with
    | error e => rfl
    | ok plan =>
      cases hdry : request.dryRun
      · rfl
      · rfl

end Plan

/-! ### The keys of a plan -/

/-- The keys that a request covers: its input keys and every key mapped to the request root or
to a root of an input key. -/
def coveredKeys (inputs : List String) (rootKeyHash : String) (s : Store) : Set String :=
  {k | k ∈ inputs ∨ ∃ row, s.sessionRouteKeys.find k = some row ∧
    (row.rootKeyHash = rootKeyHash ∨ ∃ j ∈ inputs, ∃ other,
      s.sessionRouteKeys.find j = some other ∧ other.rootKeyHash = row.rootKeyHash)}

/-- The roots that a request takes apart or keeps. -/
def coveredRoots (inputs : List String) (rootKeyHash : String) (s : Store) : List String :=
  (mappedRoots inputs s).insert rootKeyHash

/-- A covered root is the request root or a root of an input key. -/
theorem mem_coveredRoots_iff {inputs : List String} {rootKeyHash r : String} {s : Store} :
    r ∈ coveredRoots inputs rootKeyHash s ↔ r = rootKeyHash ∨ ∃ j ∈ inputs, ∃ other,
      s.sessionRouteKeys.find j = some other ∧ other.rootKeyHash = r := by
  rw [coveredRoots, List.mem_insert_iff, mem_mappedRoots_iff]
  apply or_congr Iff.rfl
  constructor
  · rintro ⟨j, other, hj, ho, he⟩
    exact ⟨j, hj, other, ho, he⟩
  · rintro ⟨j, hj, other, ho, he⟩
    exact ⟨j, other, hj, ho, he⟩

/-- The roots that a request covers depend on the set of its hashes only. -/
theorem mem_coveredRoots_congr {inputs inputs' : List String} (h : ∀ k, k ∈ inputs ↔ k ∈ inputs')
    {rootKeyHash r : String} {s : Store} :
    r ∈ coveredRoots inputs rootKeyHash s ↔ r ∈ coveredRoots inputs' rootKeyHash s := by
  simp only [mem_coveredRoots_iff, h]

/-- The keys that a request covers depend on the set of its hashes only. -/
theorem coveredKeys_congr {inputs inputs' : List String} (h : ∀ k, k ∈ inputs ↔ k ∈ inputs')
    (rootKeyHash : String) (s : Store) :
    coveredKeys inputs rootKeyHash s = coveredKeys inputs' rootKeyHash s := by
  ext k
  change (_ ∨ _) ↔ (_ ∨ _)
  simp only [h]

/-- A covered key is an input key or is mapped to a covered root. -/
theorem mem_coveredKeys_iff {inputs : List String} {rootKeyHash k : String} {s : Store} :
    k ∈ coveredKeys inputs rootKeyHash s ↔ k ∈ inputs ∨ ∃ row,
      s.sessionRouteKeys.find k = some row ∧
        row.rootKeyHash ∈ coveredRoots inputs rootKeyHash s := by
  simp only [mem_coveredRoots_iff]
  rfl

/-- The root of a covered key is covered. -/
theorem mem_coveredRoots_of_mem_coveredKeys {inputs : List String} {rootKeyHash k : String}
    {s : Store} (hk : k ∈ coveredKeys inputs rootKeyHash s) {row : SessionRouteKeyRow}
    (hrow : s.sessionRouteKeys.find k = some row) :
    row.rootKeyHash ∈ coveredRoots inputs rootKeyHash s := by
  rcases mem_coveredKeys_iff.mp hk with hin | ⟨other, ho, hr⟩
  · exact mem_coveredRoots_iff.mpr (.inr ⟨k, hin, row, hrow, rfl⟩)
  · rw [hrow] at ho
    cases ho
    exact hr

/-- The keys of the snapshot of some validated keys. -/
def plannedKeys (inputKeys : RouteKeys) (rootKeyHash : String) (s : Store) :
    List SessionRouteKey :=
  allRouteKeys inputKeys (existingKeys (coveredRoots inputKeys.hashes rootKeyHash s) s)

section PlannedKeys

variable {inputKeys : RouteKeys} {rootKeyHash : String} {s : Store}

/-- A planned key is an input key, or a stored key of a covered root. -/
theorem mem_plannedKeys_iff {key : SessionRouteKey} :
    key ∈ plannedKeys inputKeys rootKeyHash s ↔ key ∈ inputKeys.keys ∨
      key.keyHash ∉ inputKeys.hashes ∧ ∃ row, s.sessionRouteKeys.find key.keyHash = some row ∧
        row.rootKeyHash ∈ coveredRoots inputKeys.hashes rootKeyHash s ∧ row.kind = key.kind := by
  rw [plannedKeys, allRouteKeys, List.mem_insertionSort, List.mem_append, List.mem_map, or_comm]
  apply or_congr Iff.rfl
  constructor
  · rintro ⟨⟨k, row⟩, hm, rfl⟩
    obtain ⟨hm, hnew⟩ := List.mem_filter.mp hm
    obtain ⟨hrow, hr⟩ := Table.mem_select_iff.mp hm
    exact ⟨by simpa [storedRouteKey] using hnew, row, hrow, by simpa using hr, rfl⟩
  · rintro ⟨hnew, row, hrow, hr, hkind⟩
    refine ⟨(key.keyHash, row), List.mem_filter.mpr ⟨?_, by simpa using hnew⟩, ?_⟩
    · exact Table.mem_select_iff.mpr ⟨hrow, by simpa using hr⟩
    · rw [storedRouteKey, hkind]

/-- The planned keys are the covered keys. -/
theorem mem_hashes_plannedKeys_iff {k : String} :
    k ∈ (plannedKeys inputKeys rootKeyHash s).map SessionRouteKey.keyHash ↔
      k ∈ coveredKeys inputKeys.hashes rootKeyHash s := by
  rw [mem_coveredKeys_iff, List.mem_map]
  constructor
  · rintro ⟨key, hm, rfl⟩
    rcases mem_plannedKeys_iff.mp hm with hin | ⟨-, row, hrow, hr, -⟩
    · exact .inl (List.mem_map.mpr ⟨key, hin, rfl⟩)
    · exact .inr ⟨row, hrow, hr⟩
  · intro hk
    by_cases hin : k ∈ inputKeys.hashes
    · obtain ⟨key, hkey, rfl⟩ := List.mem_map.mp hin
      exact ⟨key, mem_plannedKeys_iff.mpr (.inl hkey), rfl⟩
    · obtain ⟨row, hrow, hr⟩ := hk.resolve_left hin
      exact ⟨⟨k, row.kind⟩, mem_plannedKeys_iff.mpr (.inr ⟨hin, row, hrow, hr, rfl⟩), rfl⟩

/-- No two planned keys share a hash. -/
theorem nodup_plannedKeys :
    ((plannedKeys inputKeys rootKeyHash s).map SessionRouteKey.keyHash).Nodup := by
  have hperm := (List.perm_insertionSort (fun a b : SessionRouteKey ↦ a.keyHash ≤ b.keyHash)
    (((existingKeys (coveredRoots inputKeys.hashes rootKeyHash s) s).filter fun row ↦
      !inputKeys.hashes.contains row.1).map storedRouteKey ++ inputKeys.keys)).map
        SessionRouteKey.keyHash
  refine (List.Perm.nodup_iff hperm).mpr ?_
  rw [List.map_append, List.map_map]
  have hkept : (((existingKeys (coveredRoots inputKeys.hashes rootKeyHash s) s).filter fun row ↦
      !inputKeys.hashes.contains row.1).map Prod.fst).Nodup :=
    (Table.nodup_select ..).sublist (List.filter_sublist.map _)
  refine List.Nodup.append hkept inputKeys.distinct ?_
  intro k hk hin
  obtain ⟨row, hm, rfl⟩ := List.mem_map.mp hk
  have hnew := (List.mem_filter.mp hm).2
  simp only [Bool.not_eq_true', List.contains_eq_mem, decide_eq_false_iff_not] at hnew
  exact hnew hin

end PlannedKeys

/-! ### What a plan contains -/

/-- Everything that a plan records about the store it was made on. -/
structure Planned (settings : RuntimeSettings) (usageRefreshInterval : Nat)
    (rootKeyHash : String) (inputKeys : RouteKeys) (target : Option ResolvedSessionRouteTarget)
    (liveAccountIds : List Uuid) (selectedAt : Instant) (s : Store) (plan : RoutePlan) :
    Prop where
  stored : ∀ resolved, target = some resolved → s.accounts.has resolved.accountId = true
  rootHashes : plan.rootHashes = coveredRoots inputKeys.hashes rootKeyHash s
  allKeys : plan.allKeys = plannedKeys inputKeys rootKeyHash s
  current : plan.currentGeneration = max (rootGeneration plan.rootHashes s)
    (maximum ((affinityRoutes plan.allKeys s).map AffinityRouteActionRow.routeGeneration))
  requested : plan.requestedAccountId = target.map ResolvedSessionRouteTarget.accountId
  effective : plan.effectiveAccountId =
    (effectiveRouteAccount settings usageRefreshInterval target selectedAt s).1
  label : plan.effectiveAccount = plan.effectiveAccountId.bind s.accountDisplayLabel
  status : plan.status = routeActionStatus plan.effectiveAccountId
    (effectiveRouteAccount settings usageRefreshInterval target selectedAt s).2 plan.requiresMove
  settled : plan.requiresMove = false → ∀ e, plan.effectiveAccountId = some e →
    changedRouteCount e plan.allKeys (affinityRoutes plan.allKeys s) = 0 ∧
      mappingChanged (s.sessionRoots.has rootKeyHash) rootKeyHash
        (existingKeys plan.rootHashes s) plan.allKeys = false ∧
      ∀ route ∈ affinityRoutes plan.allKeys s, route.routeGeneration = plan.currentGeneration
  moves : plan.requiresMove = true → plan.effectiveAccountId.isSome = true
  generation : plan.routeGeneration =
    if plan.requiresMove then plan.currentGeneration + 1 else plan.currentGeneration

/-- A plan is made as planned. -/
theorem planned_of_ok {settings : RuntimeSettings} {usageRefreshInterval : Nat}
    {rootKeyHash : String} {inputKeys : RouteKeys} {target : Option ResolvedSessionRouteTarget}
    {liveAccountIds : List Uuid} {selectedAt : Instant} {s : Store} {plan : RoutePlan}
    (h : planSessionRouteAction settings usageRefreshInterval rootKeyHash inputKeys target
      liveAccountIds selectedAt (s.sessionRoots.has rootKeyHash) s = .ok plan) :
    Planned settings usageRefreshInterval rootKeyHash inputKeys target liveAccountIds selectedAt s
      plan := by
  unfold planSessionRouteAction at h
  split at h
  · cases h
  · next htarget =>
    unfold decideRouteAction at h
    split at h
    · cases h
    · simp only at h
      split at h
      · cases h
      · cases h
        refine ⟨?_, rfl, rfl, rfl, rfl, rfl, rfl, rfl, ?_, ?_, rfl⟩
        · intro resolved hr
          subst hr
          rw [← s.accountDisplayLabel_isSome]
          simpa [Option.isNone_iff_eq_none, Option.isSome_iff_ne_none] using htarget
        · intro hm e he
          have heff : (effectiveRouteAccount settings usageRefreshInterval target selectedAt s).1 =
            some e := he
          simp only [heff, Option.isSome_some, Bool.true_and, Bool.or_eq_false_iff] at hm
          obtain ⟨⟨⟨hc, -⟩, hmap⟩, hg⟩ := hm
          refine ⟨bne_eq_false_iff_eq.mp hc, hmap, fun route hroute ↦ ?_⟩
          simpa using List.any_eq_false.mp hg route hroute
        · intro hm
          exact (Bool.and_eq_true_iff.mp hm).1

/-- What the checks before the transaction establish. -/
structure ValidatedAction [UuidText] (request : SessionRouteActionRequest) (inputKeys : RouteKeys)
    (target : Option ResolvedSessionRouteTarget) (s : Store) : Prop where
  rootHash : validAffinityHash request.rootKeyHash = true
  keys : validateSessionRouteKeys request.keys = .ok inputKeys
  rooted : request.rootKeyHash ∈ inputKeys.hashes
  rebalance : request.action = .rebalance → request.target = none ∧ target = none
  reroute : request.action = .reroute → ∃ text resolved, request.target = some text ∧
    target = some resolved ∧ resolveSessionRouteTarget text s = .ok resolved

/-- The checks pass exactly on the requests they describe. -/
theorem validateRouteAction_ok_iff [UuidText] {request : SessionRouteActionRequest}
    {inputKeys : RouteKeys} {target : Option ResolvedSessionRouteTarget} {s : Store} :
    validateRouteAction request s = .ok (inputKeys, target) ↔
      ValidatedAction request inputKeys target s := by
  constructor
  · intro h
    unfold validateRouteAction at h
    split at h
    · cases h
    · next hhash =>
      obtain ⟨keys, hkeys, h⟩ := bind_eq_ok.mp h
      split at h
      · cases h
      · split at h
        · cases h
        · next hroot =>
          have hhash' : validAffinityHash request.rootKeyHash = true := by simpa using hhash
          have hroot' : request.rootKeyHash ∈ keys.hashes := by simpa using hroot
          split at h
          · cases h
          · next ha ht =>
            cases h
            exact ⟨hhash', hkeys, hroot', fun _ ↦ ⟨ht, rfl⟩, fun hr ↦ by rw [ha] at hr; cases hr⟩
          · cases h
          · next text ha ht =>
            obtain ⟨resolved, hres, h⟩ := bind_eq_ok.mp h
            cases h
            exact ⟨hhash', hkeys, hroot', fun hr ↦ (by rw [ha] at hr; cases hr),
              fun _ ↦ ⟨text, resolved, ht, rfl, hres⟩⟩
  · rintro ⟨hhash, hkeys, hroot, hreb, hrer⟩
    have hne : inputKeys.keys.isEmpty = false := by
      rw [List.isEmpty_eq_false_iff]
      intro he
      rw [RouteKeys.hashes, he] at hroot
      cases hroot
    have hc : inputKeys.hashes.contains request.rootKeyHash = true := by simpa using hroot
    unfold validateRouteAction
    rw [hhash, hkeys]
    change (if inputKeys.keys.isEmpty = true then _ else _) = _
    rw [hne, hc]
    cases ha : request.action with
    | rebalance =>
      obtain ⟨ht, rfl⟩ := hreb ha
      rw [ht]
      rfl
    | reroute =>
      obtain ⟨text, resolved, ht, rfl, hres⟩ := hrer ha
      rw [ht]
      change (resolveSessionRouteTarget text s >>= fun resolved ↦ _) = _
      rw [hres]
      rfl

/-- A plan is made of the validated request. -/
theorem routeActionPlan_ok_iff [UuidText] {settings : RuntimeSettings}
    {usageRefreshInterval : Nat} {request : SessionRouteActionRequest}
    {liveAccountIds : List Uuid} {selectedAt : Instant} {s : Store} {plan : RoutePlan} :
    routeActionPlan settings usageRefreshInterval request liveAccountIds selectedAt s = .ok plan ↔
      ∃ inputKeys target, ValidatedAction request inputKeys target s ∧
        planSessionRouteAction settings usageRefreshInterval request.rootKeyHash inputKeys target
          liveAccountIds selectedAt (s.sessionRoots.has request.rootKeyHash) s = .ok plan := by
  unfold routeActionPlan
  rw [bind_eq_ok]
  constructor
  · rintro ⟨⟨inputKeys, target⟩, hv, hp⟩
    exact ⟨inputKeys, target, validateRouteAction_ok_iff.mp hv, hp⟩
  · rintro ⟨inputKeys, target, hv, hp⟩
    exact ⟨(inputKeys, target), validateRouteAction_ok_iff.mpr hv, hp⟩

/-! ### Consequences of a plan -/

/-- A route of the affinity snapshot is a stored row of one of the keys, whose account is
stored. -/
theorem mem_affinityRoutes_iff {keys : List SessionRouteKey} {s : Store}
    {route : AffinityRouteActionRow} :
    route ∈ affinityRoutes keys s ↔ route.keyHash ∈ keys.map SessionRouteKey.keyHash ∧
      ∃ row, s.affinity.find route.keyHash = some row ∧ route.kind = row.kind ∧
        route.accountId = row.accountId ∧ route.routeGeneration = row.routeGeneration ∧
        s.accountDisplayLabel row.accountId = some route.accountLabel := by
  rw [affinityRoutes, List.mem_filterMap]
  constructor
  · rintro ⟨⟨k, row⟩, hm, hl⟩
    obtain ⟨hrow, hk⟩ := Table.mem_select_iff.mp hm
    obtain ⟨label, hlabel, rfl⟩ := Option.map_eq_some_iff.mp hl
    exact ⟨by simpa using hk, row, hrow, rfl, rfl, rfl, hlabel⟩
  · rintro ⟨hk, row, hrow, hkind, hacc, hgen, hlabel⟩
    refine ⟨(route.keyHash, row), Table.mem_select_iff.mpr ⟨hrow, by simpa using hk⟩, ?_⟩
    rw [hlabel, Option.map_some, ← hkind, ← hacc, ← hgen]

/-- The route of a key in the affinity snapshot is the stored row of the key. -/
theorem row_of_find_affinityRoutes {keys : List SessionRouteKey} {s : Store} {keyHash : String}
    {route : AffinityRouteActionRow}
    (h : (affinityRoutes keys s).find? (fun route ↦ route.keyHash = keyHash) = some route) :
    ∃ row, s.affinity.find keyHash = some row ∧ route.kind = row.kind ∧
      route.accountId = row.accountId ∧ route.routeGeneration = row.routeGeneration := by
  obtain ⟨-, row, hrow, hkind, hacc, hgen, -⟩ :=
    mem_affinityRoutes_iff.mp (List.mem_of_find?_eq_some h)
  have hhash : route.keyHash = keyHash := by simpa using List.find?_some h
  exact ⟨row, hhash ▸ hrow, hkind, hacc, hgen⟩

/-- An account that a session is sent to is eligible. -/
theorem effectiveRouteAccount_eligible {settings : RuntimeSettings} {usageRefreshInterval : Nat}
    {target : Option ResolvedSessionRouteTarget} {selectedAt : Instant} {s : Store} {e : Uuid}
    (h : (effectiveRouteAccount settings usageRefreshInterval target selectedAt s).1 = some e) :
    accountIsEligible e selectedAt s = true := by
  unfold effectiveRouteAccount at h
  split at h
  · split at h
    · next he => cases h; exact he
    · exact (previewSmartAccount_eligible h).1
  · exact (previewSmartAccount_eligible h).1

namespace Planned

variable {settings : RuntimeSettings} {usageRefreshInterval : Nat} {rootKeyHash : String}
  {inputKeys : RouteKeys} {target : Option ResolvedSessionRouteTarget}
  {liveAccountIds : List Uuid} {selectedAt : Instant} {s : Store} {plan : RoutePlan}

/-- The planned keys are the covered keys. -/
theorem mem_hashes_iff (h : Planned settings usageRefreshInterval rootKeyHash inputKeys target
    liveAccountIds selectedAt s plan) {k : String} :
    k ∈ plan.allKeys.map SessionRouteKey.keyHash ↔
      k ∈ coveredKeys inputKeys.hashes rootKeyHash s := by
  rw [h.allKeys, mem_hashes_plannedKeys_iff]

/-- No two planned keys share a hash. -/
theorem nodup (h : Planned settings usageRefreshInterval rootKeyHash inputKeys target
    liveAccountIds selectedAt s plan) : (plan.allKeys.map SessionRouteKey.keyHash).Nodup := by
  rw [h.allKeys]
  exact nodup_plannedKeys

/-- The effective account is eligible and stored. -/
theorem effective_stored (h : Planned settings usageRefreshInterval rootKeyHash inputKeys target
    liveAccountIds selectedAt s plan) {e : Uuid} (he : plan.effectiveAccountId = some e) :
    accountIsEligible e selectedAt s = true ∧ s.accounts.has e = true := by
  have helig := effectiveRouteAccount_eligible (h.effective ▸ he)
  obtain ⟨account, runtime, ha, -⟩ := accountIsEligible_iff.mp helig
  exact ⟨helig, Table.has_iff.mpr ⟨account, ha⟩⟩

/-- The response names an effective account exactly when one was found. -/
theorem label_isSome (h : Planned settings usageRefreshInterval rootKeyHash inputKeys target
    liveAccountIds selectedAt s plan) :
    plan.effectiveAccount.isSome = plan.effectiveAccountId.isSome := by
  rw [h.label]
  cases he : plan.effectiveAccountId with
  | none => rfl
  | some e =>
    change (s.accountDisplayLabel e).isSome = true
    rw [s.accountDisplayLabel_isSome, (h.effective_stored he).2]

/-- The current generation bounds the covered roots. -/
theorem root_le (h : Planned settings usageRefreshInterval rootKeyHash inputKeys target
    liveAccountIds selectedAt s plan) {r : String}
    (hr : r ∈ coveredRoots inputKeys.hashes rootKeyHash s) {root : SessionRoot}
    (hroot : s.sessionRoots.find r = some root) :
    root.routeGeneration ≤ plan.currentGeneration := by
  rw [h.current]
  apply Nat.le_trans _ (Nat.le_max_left _ _)
  rw [rootGeneration]
  apply le_maximum
  refine List.mem_map.mpr ⟨(r, root), Table.mem_select_iff.mpr ⟨hroot, ?_⟩, rfl⟩
  rw [h.rootHashes]
  simpa using hr

/-- The current generation bounds the affinity rows of the covered keys. -/
theorem affinity_le (h : Planned settings usageRefreshInterval rootKeyHash inputKeys target
    liveAccountIds selectedAt s plan) (hs : s.AccountsStored) {k : String}
    (hk : k ∈ coveredKeys inputKeys.hashes rootKeyHash s) {row : Affinity}
    (ha : s.affinity.find k = some row) : row.routeGeneration ≤ plan.currentGeneration := by
  rw [h.current]
  apply Nat.le_trans _ (Nat.le_max_right _ _)
  apply le_maximum
  have hlabel := s.accountDisplayLabel_isSome row.accountId
  rw [hs.affinity k row ha] at hlabel
  obtain ⟨label, hl⟩ := Option.isSome_iff_exists.mp hlabel
  refine List.mem_map.mpr ⟨⟨k, row.kind, row.accountId, label, row.routeGeneration⟩, ?_, rfl⟩
  exact mem_affinityRoutes_iff.mpr ⟨h.mem_hashes_iff.mpr hk, row, ha, rfl, rfl, rfl, hl⟩

/-- The route generation is never behind the current one. -/
theorem current_le (h : Planned settings usageRefreshInterval rootKeyHash inputKeys target
    liveAccountIds selectedAt s plan) : plan.currentGeneration ≤ plan.routeGeneration := by
  rw [h.generation]
  split <;> omega

/-- When nothing needs to move, every covered key is on the effective account at the current
generation. -/
theorem settled_row (h : Planned settings usageRefreshInterval rootKeyHash inputKeys target
    liveAccountIds selectedAt s plan) (hm : plan.requiresMove = false) {e : Uuid}
    (he : plan.effectiveAccountId = some e) {k : String}
    (hk : k ∈ coveredKeys inputKeys.hashes rootKeyHash s) :
    ∃ row, s.affinity.find k = some row ∧ row.accountId = e ∧
      row.routeGeneration = plan.currentGeneration := by
  obtain ⟨hcount, -, hgen⟩ := h.settled hm e he
  obtain ⟨key, hkey, rfl⟩ := List.mem_map.mp (h.mem_hashes_iff.mpr hk)
  have hkeep := List.countP_eq_zero.mp hcount key hkey
  split at hkeep
  · exact absurd rfl hkeep
  · next route hfind =>
    obtain ⟨row, hrow, -, hacc, hg⟩ := row_of_find_affinityRoutes hfind
    refine ⟨row, hrow, ?_, by rw [← hg, hgen route (List.mem_of_find?_eq_some hfind)]⟩
    rw [← hacc]
    by_contra hne
    simp [hne] at hkeep

end Planned

end CodexLb
