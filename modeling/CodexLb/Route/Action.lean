import CodexLb.Route.Plan
import CodexLb.Route.Refinement

/-!
# What a route action commits

The tables after the writes of a route action, and the handover that they
are: every covered key goes to the request root, the other covered roots go.
-/

namespace CodexLb

open Relational

/-! ### The writes, table by table -/

private theorem deleteSessionRoots_eq (olds : List String) (s : Store) :
    olds.foldl deleteSessionRoot s = { s with
      sessionRoots := (olds.foldl deleteSessionRoot s).sessionRoots
      sessionRouteKeys := (olds.foldl deleteSessionRoot s).sessionRouteKeys } := by
  induction olds generalizing s with
  | nil => rfl
  | cons old olds ih => rw [List.foldl_cons, ih]; rfl

private theorem roots_deleteSessionRoots (olds : List String) (s : Store) (r : String) :
    (olds.foldl deleteSessionRoot s).sessionRoots.find r =
      if r ∈ olds then none else s.sessionRoots.find r := by
  induction olds generalizing s with
  | nil => rfl
  | cons old olds ih =>
    rw [List.foldl_cons, ih, deleteSessionRoot, Table.find_delete]
    by_cases hr : r = old
    · simp [hr]
    · rw [Table.filter_of_forall fun _ _ ↦ by simp [hr]]
      simp [hr]

private theorem routeKeys_deleteSessionRoots (olds : List String) (s : Store) (k : String) :
    (olds.foldl deleteSessionRoot s).sessionRouteKeys.find k =
      (s.sessionRouteKeys.find k).filter fun row ↦ row.rootKeyHash ∉ olds := by
  induction olds generalizing s with
  | nil => exact (Table.filter_of_forall fun _ _ ↦ by simp).symm
  | cons old olds ih =>
    rw [List.foldl_cons, ih, deleteSessionRoot, Table.find_delete, Option.filter_filter]
    congr 1
    funext row
    simp [not_or]

private theorem moveAffinities_eq (plan : RoutePlan) (now : Instant) (s : Store) :
    moveAffinities plan now s = { s with affinity := (moveAffinities plan now s).affinity } := by
  unfold moveAffinities
  split <;> rfl

section Writes

variable {request : SessionRouteActionRequest} {plan : RoutePlan} {now : Instant} {s : Store}

private theorem write_routeKeys (k : String) :
    (writeRouteAction request plan now s).sessionRouteKeys.find k =
      ((mapRouteKeys request.rootKeyHash plan now s).sessionRouteKeys.find k).filter
        fun row ↦ row.rootKeyHash ∉ plan.rootHashes.filter fun root ↦
          root ≠ request.rootKeyHash := by
  rw [writeRouteAction, moveAffinities_eq]
  exact routeKeys_deleteSessionRoots ..

/-- A planned key is mapped to the request root. -/
theorem write_routeKeys_of_mem (hd : (plan.allKeys.map SessionRouteKey.keyHash).Nodup)
    {key : SessionRouteKey} (hk : key ∈ plan.allKeys) :
    (writeRouteAction request plan now s).sessionRouteKeys.find key.keyHash =
      some ⟨request.rootKeyHash, key.kind⟩ := by
  rw [write_routeKeys, mapRouteKeys, Table.find_upsertAll_of_mem _ _ _ hd hk]
  cases s.sessionRouteKeys.find key.keyHash <;> simp

/-- Any other key keeps its row, unless its root is merged. -/
theorem write_routeKeys_of_notMem {k : String}
    (hk : k ∉ plan.allKeys.map SessionRouteKey.keyHash) :
    (writeRouteAction request plan now s).sessionRouteKeys.find k =
      (s.sessionRouteKeys.find k).filter fun row ↦
        row.rootKeyHash ∉ plan.rootHashes.filter fun root ↦ root ≠ request.rootKeyHash := by
  rw [write_routeKeys, mapRouteKeys, Table.find_upsertAll_of_notMem _ _ _ _ _ hk]

/-- The request root gets its command, the merged roots go, every other root stays. -/
theorem write_roots (r : String) :
    (writeRouteAction request plan now (s.withRoot request.rootKeyHash now)).sessionRoots.find r =
      if r = request.rootKeyHash then some (commandedRoot request.action plan now)
      else if r ∈ plan.rootHashes then none
      else s.sessionRoots.find r := by
  rw [writeRouteAction, moveAffinities_eq, Table.find_update]
  change ((deleteMergedRoots request.rootKeyHash plan (mapRouteKeys request.rootKeyHash plan now
    (s.withRoot request.rootKeyHash now))).sessionRoots.find r).map _ = _
  rw [deleteMergedRoots, roots_deleteSessionRoots, mapRouteKeys, Table.find_update]
  change Option.map _ (if _ then none else Option.map _
    ((s.sessionRoots.insert request.rootKeyHash (.default now)).find r)) = _
  rw [Table.find_insert]
  by_cases hr : r = request.rootKeyHash
  · simp [hr]
  · by_cases hm : r ∈ plan.rootHashes
    · simp [hr, hm]
    · cases s.sessionRoots.find r <;> simp [hr, hm]

/-- A move writes every planned key's affinity row. -/
theorem write_affinity_of_move (hd : (plan.allKeys.map SessionRouteKey.keyHash).Nodup)
    (hm : plan.requiresMove = true) {e : Uuid} (he : plan.effectiveAccountId = some e)
    {key : SessionRouteKey} (hk : key ∈ plan.allKeys) :
    (writeRouteAction request plan now s).affinity.find key.keyHash =
      some (movedRow e plan.routeGeneration now key) := by
  rw [writeRouteAction, moveAffinities, hm, he]
  change (Table.upsertAll _ _ _ _ _).find _ = _
  rw [Table.find_upsertAll_of_mem _ _ _ hd hk]
  cases (deleteMergedRoots request.rootKeyHash plan
    (mapRouteKeys request.rootKeyHash plan now s)).affinity.find key.keyHash <;> rfl

/-- A request that moves nothing writes no affinity row. -/
theorem write_affinity_of_settled (hm : plan.requiresMove = false) :
    (writeRouteAction request plan now s).affinity = s.affinity := by
  rw [writeRouteAction, moveAffinities, hm]
  change (deleteMergedRoots request.rootKeyHash plan
    (mapRouteKeys request.rootKeyHash plan now s)).affinity = _
  rw [deleteMergedRoots, deleteSessionRoots_eq]
  rfl

/-- No affinity row of any other key is written. -/
theorem write_affinity_of_notMem {k : String}
    (hk : k ∉ plan.allKeys.map SessionRouteKey.keyHash) :
    (writeRouteAction request plan now s).affinity.find k = s.affinity.find k := by
  have hbase : (deleteMergedRoots request.rootKeyHash plan
      (mapRouteKeys request.rootKeyHash plan now s)).affinity = s.affinity := by
    rw [deleteMergedRoots, deleteSessionRoots_eq]
    rfl
  rw [writeRouteAction, moveAffinities]
  split
  · change (Table.upsertAll _ _ _ _ _).find _ = _
    rw [Table.find_upsertAll_of_notMem _ _ _ _ _ hk, hbase]
  · change (deleteMergedRoots request.rootKeyHash plan
      (mapRouteKeys request.rootKeyHash plan now s)).affinity.find k = _
    rw [hbase]

/-- A route action writes the route tables and the affinity rows, and nothing else. -/
theorem write_frame : writeRouteAction request plan now s = { s with
    affinity := (writeRouteAction request plan now s).affinity
    sessionRoots := (writeRouteAction request plan now s).sessionRoots
    sessionRouteKeys := (writeRouteAction request plan now s).sessionRouteKeys } := by
  rw [writeRouteAction, moveAffinities_eq, deleteMergedRoots, deleteSessionRoots_eq]
  rfl

end Writes

/-! ### Committed route actions -/

/-- A route action that committed its plan. -/
structure Committed [UuidText] (settings : RuntimeSettings) (usageRefreshInterval : Nat)
    (request : SessionRouteActionRequest) (liveAccountIds : List Uuid) (selectedAt now : Instant)
    (inputKeys : RouteKeys) (target : Option ResolvedSessionRouteTarget) (plan : RoutePlan)
    (s t : Store) : Prop where
  dryRun : request.dryRun = false
  validated : ValidatedAction request inputKeys target s
  planned : Planned settings usageRefreshInterval request.rootKeyHash inputKeys target
    liveAccountIds selectedAt s plan
  store : t = writeRouteAction request plan now (s.withRoot request.rootKeyHash now)

/-- A route action changes nothing unless it commits. -/
theorem applySessionRouteAction_outcome [UuidText] {settings : RuntimeSettings}
    {usageRefreshInterval : Nat} {request : SessionRouteActionRequest}
    {liveAccountIds : List Uuid} {selectedAt now : Instant} {s t : Store}
    {r : Except AppError SessionRouteActionResponse}
    (h : applySessionRouteAction settings usageRefreshInterval request liveAccountIds selectedAt
      now s = (r, t)) :
    (t = s ∧ (request.dryRun = true ∨ ∃ e, r = .error e)) ∨ ∃ inputKeys target plan,
      r = .ok (plan.response request) ∧ Committed settings usageRefreshInterval request
        liveAccountIds selectedAt now inputKeys target plan s t := by
  rw [applySessionRouteAction_eq] at h
  split at h
  · next e he =>
    cases h
    exact .inl ⟨rfl, .inr ⟨e, rfl⟩⟩
  · next plan hp =>
    cases h
    cases hdry : request.dryRun with
    | true => exact .inl ⟨by rw [routeActionStore, hdry, if_pos rfl], .inl rfl⟩
    | false =>
      obtain ⟨inputKeys, target, hv, hok⟩ := routeActionPlan_ok_iff.mp hp
      refine .inr ⟨inputKeys, target, plan, rfl, hdry, hv, planned_of_ok hok, ?_⟩
      rw [routeActionStore, hdry]
      rfl

/-- An accepted request that is no dry run has committed. -/
theorem committed_of_ok [UuidText] {settings : RuntimeSettings} {usageRefreshInterval : Nat}
    {request : SessionRouteActionRequest} {liveAccountIds : List Uuid} {selectedAt now : Instant}
    {s t : Store} {response : SessionRouteActionResponse} (hdry : request.dryRun = false)
    (h : applySessionRouteAction settings usageRefreshInterval request liveAccountIds selectedAt
      now s = (.ok response, t)) :
    ∃ inputKeys target plan, response = plan.response request ∧ Committed settings
      usageRefreshInterval request liveAccountIds selectedAt now inputKeys target plan s t := by
  rcases applySessionRouteAction_outcome h with ⟨-, hno⟩ | ⟨inputKeys, target, plan, hr, hc⟩
  · rcases hno with hdry' | ⟨e, he⟩
    · rw [hdry] at hdry'
      cases hdry'
    · cases he
  · cases hr
    exact ⟨inputKeys, target, plan, rfl, hc⟩

/-- A planned request that is no dry run commits. -/
theorem committed_of_plan [UuidText] {settings : RuntimeSettings} {usageRefreshInterval : Nat}
    {request : SessionRouteActionRequest} {liveAccountIds : List Uuid} {selectedAt : Instant}
    {s : Store} {plan : RoutePlan} (hdry : request.dryRun = false)
    (h : routeActionPlan settings usageRefreshInterval request liveAccountIds selectedAt s =
      .ok plan) (now : Instant) :
    ∃ inputKeys target, Committed settings usageRefreshInterval request liveAccountIds selectedAt
      now inputKeys target plan s (applySessionRouteAction settings usageRefreshInterval request
        liveAccountIds selectedAt now s).2 := by
  obtain ⟨inputKeys, target, hv, hok⟩ := routeActionPlan_ok_iff.mp h
  refine ⟨inputKeys, target, hdry, hv, planned_of_ok hok, ?_⟩
  rw [applySessionRouteAction_eq, h]
  change routeActionStore request plan now s = _
  rw [routeActionStore, hdry]
  rfl

namespace Committed

variable [UuidText] {settings : RuntimeSettings} {usageRefreshInterval : Nat}
  {request : SessionRouteActionRequest} {liveAccountIds : List Uuid} {selectedAt now : Instant}
  {inputKeys : RouteKeys} {target : Option ResolvedSessionRouteTarget} {plan : RoutePlan}
  {s t : Store}

/-- The keys that the action covers. -/
abbrev covered (_ : Committed settings usageRefreshInterval request liveAccountIds selectedAt now
    inputKeys target plan s t) : Set String :=
  coveredKeys inputKeys.hashes request.rootKeyHash s

/-- The covered keys are those of the request as it was sent. -/
theorem covered_eq (h : Committed settings usageRefreshInterval request liveAccountIds selectedAt
    now inputKeys target plan s t) :
    h.covered = coveredKeys (request.keys.map SessionRouteKey.keyHash) request.rootKeyHash s :=
  coveredKeys_congr (mem_hashes_of_validate h.validated.keys) request.rootKeyHash s

/-- A covered key is mapped to the request root. -/
theorem routeKeys_of_mem (h : Committed settings usageRefreshInterval request liveAccountIds
    selectedAt now inputKeys target plan s t) {k : String} (hk : k ∈ h.covered) :
    ∃ key ∈ plan.allKeys, key.keyHash = k ∧
      t.sessionRouteKeys.find k = some ⟨request.rootKeyHash, key.kind⟩ := by
  obtain ⟨key, hkey, rfl⟩ := List.mem_map.mp (h.planned.mem_hashes_iff.mpr hk)
  exact ⟨key, hkey, rfl, by rw [h.store, write_routeKeys_of_mem h.planned.nodup hkey]⟩

/-- Any other key keeps its mapping. -/
theorem routeKeys_of_notMem (h : Committed settings usageRefreshInterval request liveAccountIds
    selectedAt now inputKeys target plan s t) {k : String} (hk : k ∉ h.covered) :
    t.sessionRouteKeys.find k = s.sessionRouteKeys.find k := by
  rw [h.store, write_routeKeys_of_notMem (mt h.planned.mem_hashes_iff.mp hk)]
  refine Table.filter_of_forall fun row hrow ↦ ?_
  rw [decide_eq_true_eq, List.mem_filter, h.planned.rootHashes]
  rintro ⟨hr, -⟩
  exact hk (mem_coveredKeys_iff.mpr (.inr ⟨row, hrow, hr⟩))

/-- The request root holds the command, the other covered roots are gone. -/
theorem roots (h : Committed settings usageRefreshInterval request liveAccountIds selectedAt now
    inputKeys target plan s t) (r : String) :
    t.sessionRoots.find r =
      if r = request.rootKeyHash then some (commandedRoot request.action plan now)
      else if r ∈ coveredRoots inputKeys.hashes request.rootKeyHash s then none
      else s.sessionRoots.find r := by
  rw [h.store, write_roots, h.planned.rootHashes]

/-- Any key that is not covered keeps its affinity row. -/
theorem affinity_of_notMem (h : Committed settings usageRefreshInterval request liveAccountIds
    selectedAt now inputKeys target plan s t) {k : String} (hk : k ∉ h.covered) :
    t.affinity.find k = s.affinity.find k := by
  rw [h.store, write_affinity_of_notMem (mt h.planned.mem_hashes_iff.mp hk)]
  rfl

/-- When an effective account was found, every covered key is on it at the route generation,
whether or not anything had to move. -/
theorem affinity_of_mem (h : Committed settings usageRefreshInterval request liveAccountIds
    selectedAt now inputKeys target plan s t) {e : Uuid} (he : plan.effectiveAccountId = some e)
    {k : String} (hk : k ∈ h.covered) :
    ∃ row, t.affinity.find k = some row ∧ row.accountId = e ∧
      row.routeGeneration = plan.routeGeneration := by
  cases hm : plan.requiresMove with
  | true =>
    obtain ⟨key, hkey, rfl⟩ := List.mem_map.mp (h.planned.mem_hashes_iff.mpr hk)
    exact ⟨_, by rw [h.store, write_affinity_of_move h.planned.nodup hm he hkey], rfl, rfl⟩
  | false =>
    obtain ⟨row, hrow, hacc, hgen⟩ := h.planned.settled_row hm he hk
    refine ⟨row, ?_, hacc, ?_⟩
    · rw [h.store, write_affinity_of_settled hm]
      exact hrow
    · rw [hgen, h.planned.generation, hm]
      rfl

/-- When no effective account was found, no affinity row changed. -/
theorem affinity_of_pending (h : Committed settings usageRefreshInterval request liveAccountIds
    selectedAt now inputKeys target plan s t) (he : plan.effectiveAccountId = none) :
    plan.requiresMove = false ∧ t.affinity = s.affinity := by
  have hm : plan.requiresMove = false := by
    cases hm : plan.requiresMove with
    | false => rfl
    | true =>
      have hsome := h.planned.moves hm
      rw [he] at hsome
      cases hsome
  exact ⟨hm, by rw [h.store, write_affinity_of_settled hm]; rfl⟩

/-- Nothing but the route tables and the affinity rows is written. -/
theorem frame (h : Committed settings usageRefreshInterval request liveAccountIds selectedAt now
    inputKeys target plan s t) :
    t = { s with
      affinity := t.affinity
      sessionRoots := t.sessionRoots
      sessionRouteKeys := t.sessionRouteKeys } := by
  rw [h.store]
  exact write_frame

/-- A committed route action hands the covered keys over to the request root. -/
theorem handover (h : Committed settings usageRefreshInterval request liveAccountIds selectedAt
    now inputKeys target plan s t) :
    Handover h.covered request.rootKeyHash (commandedRoot request.action plan now) s t where
  rooted := mem_coveredKeys_iff.mpr (.inl h.validated.rooted)
  closed k row hrow hk := by
    have hout : row.rootKeyHash ∉ coveredRoots inputKeys.hashes request.rootKeyHash s :=
      fun hr ↦ hk (mem_coveredKeys_iff.mpr (.inr ⟨row, hrow, hr⟩))
    refine ⟨fun he ↦ hout (mem_coveredRoots_iff.mpr (.inl he)), fun j hj other ho he ↦ ?_⟩
    exact hout (he ▸ mem_coveredRoots_of_mem_coveredKeys hj ho)
  mapped k hk := by
    obtain ⟨key, -, -, hfind⟩ := h.routeKeys_of_mem hk
    exact ⟨key.kind, hfind⟩
  unmapped k hk := h.routeKeys_of_notMem hk
  installed := by rw [h.roots, if_pos rfl]
  merged := by
    rintro r hne ⟨k, hk, row, hrow, rfl⟩
    rw [h.roots, if_neg hne, if_pos (mem_coveredRoots_of_mem_coveredKeys hk hrow)]
  others r hne hfree := by
    have hout : r ∉ coveredRoots inputKeys.hashes request.rootKeyHash s := by
      intro hr
      obtain ⟨j, hj, other, ho, he⟩ := (mem_coveredRoots_iff.mp hr).resolve_left hne
      exact hfree j (mem_coveredKeys_iff.mpr (.inl hj)) other ho he
    rw [h.roots, if_neg hne, if_neg hout]
  newer k hk row old hrow hold := by
    have hle := h.planned.root_le (mem_coveredRoots_of_mem_coveredKeys hk hrow) hold
    exact ⟨Nat.le_trans hle h.planned.current_le, fun _ ↦ rfl⟩
  written k hk := by
    cases he : plan.effectiveAccountId with
    | none => exact .inl (by rw [(h.affinity_of_pending he).2])
    | some e =>
      obtain ⟨row, hrow, hacc, hgen⟩ := h.affinity_of_mem he hk
      exact .inr ⟨row, hrow, hgen, by rw [hacc]; exact (h.planned.effective_stored he).2⟩
  kept k hk := h.affinity_of_notMem hk
  coherent _ _ e he k hk affinity ha := by
    obtain ⟨row, hrow, hacc, hgen⟩ := h.affinity_of_mem he hk
    rw [hrow] at ha
    cases ha
    exact ⟨hacc, hgen⟩
  accounts := by rw [h.frame]
  named _ id hid := by
    rcases hid with hid | hid
    · have hreq : plan.requestedAccountId = some id := hid
      rw [h.planned.requested] at hreq
      obtain ⟨resolved, hres, rfl⟩ := Option.map_eq_some_iff.mp hreq
      exact h.planned.stored resolved hres
    · exact (h.planned.effective_stored hid).2
  wellFormed hwf k hk row hrow := by
    obtain ⟨key, hkey, rfl, hfind⟩ := h.routeKeys_of_mem hk
    rw [hfind] at hrow
    cases hrow
    rw [h.planned.allKeys] at hkey
    rcases mem_plannedKeys_iff.mp hkey with hin | ⟨-, stored, hstored, -, hkind⟩
    · exact inputKeys.wellFormed key hin
    · obtain ⟨hhash, hk⟩ := hwf.wellFormed _ stored hstored
      exact ⟨hhash, hkind ▸ hk⟩
  rebalance _ hl := by
    have haction : request.action = .rebalance := Option.some.inj hl
    change plan.requestedAccountId = none
    rw [h.planned.requested, (h.validated.rebalance haction).2]
    rfl

/-- The covered keys are the input keys with the whole sessions around them. -/
theorem covered_eq_cover (h : Committed settings usageRefreshInterval request liveAccountIds
    selectedAt now inputKeys target plan s t) (hs : s.RouteInvariant) :
    h.covered = (s.sessions hs).cover {k | k ∈ inputKeys.hashes} request.rootKeyHash := by
  have hroute : ∀ k r, (∃ row, s.sessionRouteKeys.find k = some row ∧ row.rootKeyHash = r) ↔
      ∃ g, (s.sessions hs).route k = some (r, g) := by
    intro k r
    constructor
    · rintro ⟨row, hrow, rfl⟩
      obtain ⟨root, hroot⟩ := hs.rootOf_of_mapped hrow
      exact ⟨root.routeGeneration, Store.route_eq_some_iff.mpr ⟨root, hroot, rfl⟩⟩
    · rintro ⟨g, hg⟩
      obtain ⟨root, hroot, -⟩ := Store.route_eq_some_iff.mp hg
      obtain ⟨row, hrow, hr, -⟩ := Store.rootOf_eq_some_iff.mp hroot
      exact ⟨row, hrow, hr⟩
  ext k
  apply or_congr Iff.rfl
  constructor
  · rintro ⟨row, hrow, hcase⟩
    obtain ⟨g, hg⟩ := (hroute k _).mp ⟨row, hrow, rfl⟩
    refine ⟨row.rootKeyHash, g, hg, hcase.imp_right ?_⟩
    rintro ⟨j, hj, other⟩
    exact ⟨j, hj, (hroute j _).mp other⟩
  · rintro ⟨r, g, hg, hcase⟩
    obtain ⟨row, hrow, rfl⟩ := (hroute k r).mpr ⟨g, hg⟩
    refine ⟨row, hrow, hcase.imp_right ?_⟩
    rintro ⟨j, hj, other⟩
    exact ⟨j, hj, (hroute j _).mpr other⟩

/-- A committed route action hands the whole sessions around its keys over in one abstract
step. -/
theorem sessions_assign (h : Committed settings usageRefreshInterval request liveAccountIds
    selectedAt now inputKeys target plan s t) (hs : s.RouteInvariant) :
    ∃ hassign, t.sessions (h.handover.routeInvariant hs) =
      (s.sessions hs).assign ((s.sessions hs).cover {k | k ∈ inputKeys.hashes} request.rootKeyHash)
        request.rootKeyHash plan.routeGeneration hassign := by
  have hcover := h.covered_eq_cover hs
  have hnewer := (h.handover.assignable hs).newer
  rw [hcover] at hnewer
  refine ⟨Transition.Sessions.assignable_cover _ h.validated.rooted hnewer, ?_⟩
  simp only [← hcover]
  exact h.handover.sessions_assign hs

end Committed
end CodexLb
