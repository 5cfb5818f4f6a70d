import CodexLb.Route.Reachable

/-!
# Repeated route actions

The second call of a route action reads the tables that the first one has
written: every covered key is mapped to the request root, on the effective
account and at the route generation. Nothing has to move again.
-/

namespace CodexLb

open Relational Transition

/-- What the repetition of a request reports. -/
def SessionRouteActionStatus.again : SessionRouteActionStatus → SessionRouteActionStatus
  | .pending => .pending
  | .fallback => .fallback
  | .applied | .noOp => .noOp

/-- The store `u` is `t`, apart from the action status of a root and from the time of its last
update. -/
structure Repeated (rootKeyHash : String) (status : SessionRouteActionStatus) (t u : Store) :
    Prop where
  affinity : u.affinity = t.affinity
  routeKeys : ∀ k, u.sessionRouteKeys.find k = t.sessionRouteKeys.find k
  otherRoots : ∀ r, r ≠ rootKeyHash → u.sessionRoots.find r = t.sessionRoots.find r
  root : ∃ root updatedAt, t.sessionRoots.find rootKeyHash = some root ∧
    u.sessionRoots.find rootKeyHash =
      some { root with actionStatus := some status, updatedAt := updatedAt }
  otherTables : u = { t with
    affinity := u.affinity
    sessionRoots := u.sessionRoots
    sessionRouteKeys := u.sessionRouteKeys }

namespace Committed

variable [UuidText] {settings : RuntimeSettings} {usageRefreshInterval : Nat}
  {request : SessionRouteActionRequest} {liveAccountIds liveAgain : List Uuid}
  {selectedAt now : Instant} {inputKeys : RouteKeys} {target : Option ResolvedSessionRouteTarget}
  {plan : RoutePlan} {s t : Store}

/-! ### What the first call has written -/

/-- A planned key has an affinity row of its kind on the effective account. -/
theorem planned_row (h : Committed settings usageRefreshInterval request liveAccountIds selectedAt
    now inputKeys target plan s t) {e : Uuid} (he : plan.effectiveAccountId = some e)
    {key : SessionRouteKey} (hkey : key ∈ plan.allKeys) :
    ∃ row, t.affinity.find key.keyHash = some row ∧ row.kind = key.kind ∧ row.accountId = e ∧
      row.routeGeneration = plan.routeGeneration := by
  have hcovered : key.keyHash ∈ h.covered :=
    h.planned.mem_hashes_iff.mp (List.mem_map.mpr ⟨key, hkey, rfl⟩)
  obtain ⟨row, hrow, hacc, hgen⟩ := h.affinity_of_mem he hcovered
  refine ⟨row, hrow, ?_, hacc, hgen⟩
  cases hm : plan.requiresMove with
  | true =>
    rw [h.store, write_affinity_of_move h.planned.nodup hm he hkey] at hrow
    cases hrow
    rfl
  | false =>
    rw [h.store, write_affinity_of_settled hm] at hrow
    change s.affinity.find key.keyHash = some row at hrow
    have hcount := (h.planned.settled hm e he).1
    have hkeep := List.countP_eq_zero.mp hcount key hkey
    split at hkeep
    · exact absurd rfl hkeep
    · next route hfind =>
      obtain ⟨found, hfound, hkind, -⟩ := row_of_find_affinityRoutes hfind
      rw [hrow] at hfound
      cases hfound
      rw [← hkind]
      by_contra hne
      simp [hne] at hkeep

/-- No affinity row of a covered key is ahead of the route generation. -/
theorem affinity_le (h : Committed settings usageRefreshInterval request liveAccountIds selectedAt
    now inputKeys target plan s t) (hs : s.AccountsStored) {k : String} (hk : k ∈ h.covered)
    {row : Affinity} (hrow : t.affinity.find k = some row) :
    row.routeGeneration ≤ plan.routeGeneration := by
  cases he : plan.effectiveAccountId with
  | some e =>
    obtain ⟨found, hfound, -, hgen⟩ := h.affinity_of_mem he hk
    rw [hrow] at hfound
    cases hfound
    exact hgen.le
  | none =>
    rw [(h.affinity_of_pending he).2] at hrow
    exact Nat.le_trans (h.planned.affinity_le hs hk hrow) h.planned.current_le

/-- The request root is the only root that the request covers now. -/
theorem mem_coveredRoots_again (h : Committed settings usageRefreshInterval request liveAccountIds
    selectedAt now inputKeys target plan s t) {r : String} :
    r ∈ coveredRoots inputKeys.hashes request.rootKeyHash t ↔ r = request.rootKeyHash := by
  rw [mem_coveredRoots_iff]
  constructor
  · rintro (rfl | ⟨j, hj, row, hrow, rfl⟩)
    · rfl
    · obtain ⟨key, -, -, hmapped⟩ := h.routeKeys_of_mem (mem_coveredKeys_iff.mpr (.inl hj))
      rw [hrow] at hmapped
      cases hmapped
      rfl
  · exact .inl

/-- The keys that are mapped to the request root are the planned ones, each with its kind. -/
theorem routeKeys_again (h : Committed settings usageRefreshInterval request liveAccountIds
    selectedAt now inputKeys target plan s t) {key : SessionRouteKey} :
    key ∈ plan.allKeys ↔
      t.sessionRouteKeys.find key.keyHash = some ⟨request.rootKeyHash, key.kind⟩ := by
  constructor
  · intro hkey
    rw [h.store, write_routeKeys_of_mem h.planned.nodup hkey]
  · intro hrow
    have hcovered : key.keyHash ∈ h.covered := by
      by_contra hout
      rw [h.routeKeys_of_notMem hout] at hrow
      exact hout (mem_coveredKeys_iff.mpr
        (.inr ⟨_, hrow, mem_coveredRoots_iff.mpr (.inl rfl)⟩))
    obtain ⟨⟨k, kind⟩, hplanned, hhash, hmapped⟩ := h.routeKeys_of_mem hcovered
    rw [hrow, Option.some_inj, SessionRouteKeyRow.mk.injEq] at hmapped
    have hsame : key = ⟨k, kind⟩ := by
      rw [SessionRouteKey.mk.injEq]
      exact ⟨hhash.symm, hmapped.2⟩
    rw [hsame]
    exact hplanned

/-- The second call plans the same keys. -/
theorem mem_plannedKeys_again (h : Committed settings usageRefreshInterval request liveAccountIds
    selectedAt now inputKeys target plan s t) {key : SessionRouteKey} :
    key ∈ plannedKeys inputKeys request.rootKeyHash t ↔ key ∈ plan.allKeys := by
  rw [mem_plannedKeys_iff]
  constructor
  · rintro (hin | ⟨-, row, hrow, hroot, hkind⟩)
    · rw [h.planned.allKeys]
      exact mem_plannedKeys_iff.mpr (.inl hin)
    · rw [h.mem_coveredRoots_again] at hroot
      rw [h.routeKeys_again, hrow, ← hroot, ← hkind]
  · intro hkey
    by_cases hin : key.keyHash ∈ inputKeys.hashes
    · left
      rw [h.planned.allKeys] at hkey
      exact (mem_plannedKeys_iff.mp hkey).resolve_right fun hother ↦ hother.1 hin
    · exact .inr ⟨hin, _, h.routeKeys_again.mp hkey, h.mem_coveredRoots_again.mpr rfl, rfl⟩

/-- Neither the mapping nor its size changes. -/
theorem mappingChanged_again (h : Committed settings usageRefreshInterval request liveAccountIds
    selectedAt now inputKeys target plan s t) :
    mappingChanged true request.rootKeyHash
      (existingKeys (coveredRoots inputKeys.hashes request.rootKeyHash t) t)
      (plannedKeys inputKeys request.rootKeyHash t) = false := by
  have hexisting : ∀ k row,
      (k, row) ∈ existingKeys (coveredRoots inputKeys.hashes request.rootKeyHash t) t ↔
        t.sessionRouteKeys.find k = some row ∧ row.rootKeyHash = request.rootKeyHash := by
    intro k row
    rw [existingKeys, Table.mem_select_iff, List.contains_eq_mem, decide_eq_true_eq,
      h.mem_coveredRoots_again]
  have hdistinct : ((existingKeys (coveredRoots inputKeys.hashes request.rootKeyHash t) t).map
      Prod.fst).Nodup := Table.nodup_select ..
  have hlength : (existingKeys (coveredRoots inputKeys.hashes request.rootKeyHash t) t).length =
      (plannedKeys inputKeys request.rootKeyHash t).length := by
    have hperm : ((existingKeys (coveredRoots inputKeys.hashes request.rootKeyHash t) t).map
        Prod.fst).Perm ((plannedKeys inputKeys request.rootKeyHash t).map
          SessionRouteKey.keyHash) := by
      rw [List.perm_ext_iff_of_nodup hdistinct nodup_plannedKeys]
      intro k
      rw [List.mem_map, List.mem_map]
      constructor
      · rintro ⟨⟨k, root, kind⟩, hmem, rfl⟩
        obtain ⟨hrow, hroot⟩ := (hexisting _ _).mp hmem
        change root = _ at hroot
        refine ⟨⟨k, kind⟩, h.mem_plannedKeys_again.mpr (h.routeKeys_again.mpr ?_), rfl⟩
        rw [hrow, hroot]
      · rintro ⟨key, hkey, rfl⟩
        have hrow := h.routeKeys_again.mp (h.mem_plannedKeys_again.mp hkey)
        exact ⟨(key.keyHash, _), (hexisting _ _).mpr ⟨hrow, rfl⟩, rfl⟩
    simpa using hperm.length_eq
  unfold mappingChanged
  rw [hlength, Bool.not_true, Bool.false_or, bne_self_eq_false, Bool.false_or, List.any_eq_false]
  intro key hkey
  have hrow := h.routeKeys_again.mp (h.mem_plannedKeys_again.mp hkey)
  have hmem := (hexisting _ _).mpr ⟨hrow, rfl⟩
  have hlookup : (existingKeys (coveredRoots inputKeys.hashes request.rootKeyHash t) t).lookup
      key.keyHash = some ⟨request.rootKeyHash, key.kind⟩ :=
    (@Table.mem_rows_iff _ _ _ ⟨_, hdistinct⟩ _ _).mp hmem
  rw [hlookup]
  simp

/-- The affinity rows that the second call reads. -/
theorem mem_affinityRoutes_again (h : Committed settings usageRefreshInterval request
    liveAccountIds selectedAt now inputKeys target plan s t) {route : AffinityRouteActionRow}
    (hroute : route ∈ affinityRoutes (plannedKeys inputKeys request.rootKeyHash t) t) :
    ∃ key ∈ plan.allKeys, key.keyHash = route.keyHash ∧
      ∃ row, t.affinity.find key.keyHash = some row ∧ route.kind = row.kind ∧
        route.accountId = row.accountId ∧ route.routeGeneration = row.routeGeneration := by
  obtain ⟨hhash, row, hrow, hkind, hacc, hgen, -⟩ := mem_affinityRoutes_iff.mp hroute
  obtain ⟨key, hkey, heq⟩ := List.mem_map.mp hhash
  exact ⟨key, h.mem_plannedKeys_again.mp hkey, heq, row, by rw [heq]; exact hrow, hkind, hacc, hgen⟩

/-- The second call starts from the generation of the first one. -/
theorem currentGeneration_again (h : Committed settings usageRefreshInterval request
    liveAccountIds selectedAt now inputKeys target plan s t) (hs : s.AccountsStored) :
    max (rootGeneration (coveredRoots inputKeys.hashes request.rootKeyHash t) t)
      (maximum ((affinityRoutes (plannedKeys inputKeys request.rootKeyHash t) t).map
        AffinityRouteActionRow.routeGeneration)) = plan.routeGeneration := by
  have hroot : t.sessionRoots.find request.rootKeyHash =
      some (commandedRoot request.action plan now) := by rw [h.roots, if_pos rfl]
  apply Nat.le_antisymm
  · rw [Nat.max_le, rootGeneration, maximum_le_iff, maximum_le_iff]
    constructor
    · rw [List.forall_mem_map]
      rintro ⟨r, root⟩ hmem
      obtain ⟨hfind, hin⟩ := Table.mem_select_iff.mp hmem
      rw [List.contains_eq_mem, decide_eq_true_eq, h.mem_coveredRoots_again] at hin
      rw [hin, hroot] at hfind
      cases hfind
      exact Nat.le_refl _
    · rw [List.forall_mem_map]
      intro route hmem
      obtain ⟨key, hkey, -, row, hrow, -, -, hgen⟩ := h.mem_affinityRoutes_again hmem
      have hcovered := h.planned.mem_hashes_iff.mp (List.mem_map.mpr ⟨key, hkey, rfl⟩)
      rw [hgen]
      exact h.affinity_le hs hcovered hrow
  · apply Nat.le_trans _ (Nat.le_max_left _ _)
    apply le_maximum
    refine List.mem_map.mpr ⟨(request.rootKeyHash, _), Table.mem_select_iff.mpr ⟨hroot, ?_⟩, rfl⟩
    rw [List.contains_eq_mem, decide_eq_true_eq, h.mem_coveredRoots_again]

/-- The accounts are selected as before. -/
theorem effective_again (h : Committed settings usageRefreshInterval request liveAccountIds
    selectedAt now inputKeys target plan s t) :
    effectiveRouteAccount settings usageRefreshInterval target selectedAt t =
      effectiveRouteAccount settings usageRefreshInterval target selectedAt s := by
  rw [h.frame]
  rfl

/-- The labels of the accounts are those of before. -/
theorem label_again (h : Committed settings usageRefreshInterval request liveAccountIds
    selectedAt now inputKeys target plan s t) (id : Uuid) :
    t.accountDisplayLabel id = s.accountDisplayLabel id := by
  rw [h.frame]
  rfl

/-- The request is validated as before. -/
theorem validated_again (h : Committed settings usageRefreshInterval request liveAccountIds
    selectedAt now inputKeys target plan s t) : ValidatedAction request inputKeys target t := by
  obtain ⟨hhash, hkeys, hrooted, hrebalance, hreroute⟩ := h.validated
  refine ⟨hhash, hkeys, hrooted, hrebalance, ?_⟩
  intro haction
  obtain ⟨text, resolved, htext, htarget, hresolved⟩ := hreroute haction
  refine ⟨text, resolved, htext, htarget, ?_⟩
  rw [h.frame]
  exact hresolved

/-! ### The second plan -/

/-- Nothing has changed for the second call. -/
theorem changedRouteCount_again (h : Committed settings usageRefreshInterval request
    liveAccountIds selectedAt now inputKeys target plan s t) {e : Uuid}
    (he : plan.effectiveAccountId = some e) :
    changedRouteCount e (plannedKeys inputKeys request.rootKeyHash t)
      (affinityRoutes (plannedKeys inputKeys request.rootKeyHash t) t) = 0 := by
  unfold changedRouteCount
  rw [List.countP_eq_zero]
  intro key hkey
  have hplanned := h.mem_plannedKeys_again.mp hkey
  obtain ⟨row, hrow, hkind, hacc, -⟩ := h.planned_row he hplanned
  split
  · next hnone =>
    -- The account of the row is stored, so that the join keeps the row.
    have hlabel := t.accountDisplayLabel_isSome row.accountId
    have hstored : t.accounts.has row.accountId = true := by
      rw [h.frame, hacc]
      exact (h.planned.effective_stored he).2
    rw [hstored] at hlabel
    obtain ⟨label, hl⟩ := Option.isSome_iff_exists.mp hlabel
    have hroute : (⟨key.keyHash, row.kind, row.accountId, label, row.routeGeneration⟩ :
        AffinityRouteActionRow) ∈
        affinityRoutes (plannedKeys inputKeys request.rootKeyHash t) t :=
      mem_affinityRoutes_iff.mpr
        ⟨List.mem_map.mpr ⟨key, hkey, rfl⟩, row, hrow, rfl, rfl, rfl, hl⟩
    have hmiss := List.find?_eq_none.mp hnone _ hroute
    simp at hmiss
  · next route hfind =>
    obtain ⟨found, hfound, hkind', hacc', -⟩ := row_of_find_affinityRoutes hfind
    rw [hrow] at hfound
    cases hfound
    rw [hkind', hacc', hkind, hacc]
    simp

/-- The rows that the second call reads are at the generation of the first one. -/
theorem generations_again (h : Committed settings usageRefreshInterval request liveAccountIds
    selectedAt now inputKeys target plan s t) {e : Uuid} (he : plan.effectiveAccountId = some e) :
    ((affinityRoutes (plannedKeys inputKeys request.rootKeyHash t) t).any fun route ↦
      route.routeGeneration != plan.routeGeneration) = false := by
  rw [List.any_eq_false]
  intro route hroute
  obtain ⟨key, hkey, -, row, hrow, -, -, hgen⟩ := h.mem_affinityRoutes_again hroute
  obtain ⟨found, hfound, -, -, hfoundGen⟩ := h.planned_row he hkey
  rw [hrow] at hfound
  cases hfound
  simp [hgen, hfoundGen]

/-- The second call has no reason to move. -/
theorem settled_again (h : Committed settings usageRefreshInterval request liveAccountIds
    selectedAt now inputKeys target plan s t) (hs : s.AccountsStored)
    (hlive : ∀ id ∈ liveAgain, plan.effectiveAccountId = some id) :
    (plan.effectiveAccountId.isSome &&
      ((plan.effectiveAccountId.elim 0 fun accountId ↦ changedRouteCount accountId
          (routeSnapshot request.rootKeyHash inputKeys true t).allKeys
          (routeSnapshot request.rootKeyHash inputKeys true t).affinityRoutes) != 0 ||
        (plan.effectiveAccountId.any fun accountId ↦ liveAgain.any fun live ↦ live != accountId) ||
        (routeSnapshot request.rootKeyHash inputKeys true t).mappingChanged ||
        (routeSnapshot request.rootKeyHash inputKeys true t).affinityRoutes.any fun route ↦
          route.routeGeneration !=
            (routeSnapshot request.rootKeyHash inputKeys true t).currentGeneration)) = false := by
  have hmapping : (routeSnapshot request.rootKeyHash inputKeys true t).mappingChanged = false :=
    h.mappingChanged_again
  have hcurrent : (routeSnapshot request.rootKeyHash inputKeys true t).currentGeneration =
      plan.routeGeneration := h.currentGeneration_again hs
  rw [hmapping, hcurrent]
  cases heff : plan.effectiveAccountId with
  | none => rfl
  | some e =>
    have hcount : changedRouteCount e (routeSnapshot request.rootKeyHash inputKeys true t).allKeys
        (routeSnapshot request.rootKeyHash inputKeys true t).affinityRoutes = 0 :=
      h.changedRouteCount_again heff
    have hnoLive : (liveAgain.any fun live ↦ live != e) = false := by
      rw [List.any_eq_false]
      intro live hmem
      have hsame := hlive live hmem
      rw [heff, Option.some_inj] at hsame
      simp [hsame]
    have hgenerations : ((routeSnapshot request.rootKeyHash inputKeys true
        t).affinityRoutes.any fun route ↦ route.routeGeneration != plan.routeGeneration) = false :=
      h.generations_again heff
    rw [Option.elim_some, hcount, Option.any_some, hnoLive, hgenerations]
    rfl

omit [UuidText] in
/-- Without a move, the status is that of the repetition. -/
theorem routeActionStatus_again (effective : Option Uuid) (usedFallback requiresMove : Bool) :
    routeActionStatus effective usedFallback false =
      (routeActionStatus effective usedFallback requiresMove).again := by
  unfold routeActionStatus
  cases effective with
  | none => rfl
  | some e =>
    cases usedFallback with
    | true => rfl
    | false => cases requiresMove <;> rfl

/-- What the second call decides. -/
structure PlannedAgain (plan again : RoutePlan) : Prop where
  requested : again.requestedAccountId = plan.requestedAccountId
  effective : again.effectiveAccountId = plan.effectiveAccountId
  label : again.effectiveAccount = plan.effectiveAccount
  settled : again.requiresMove = false
  generation : again.routeGeneration = plan.routeGeneration
  status : again.status = plan.status.again
  merged : again.mergedRootCount = 0

/-- The second call plans no move. -/
theorem plan_again (h : Committed settings usageRefreshInterval request liveAccountIds selectedAt
    now inputKeys target plan s t) (hs : s.AccountsStored)
    (hlive : ∀ id ∈ liveAgain, plan.effectiveAccountId = some id) :
    ∃ again, planSessionRouteAction settings usageRefreshInterval request.rootKeyHash inputKeys
        target liveAgain selectedAt (t.sessionRoots.has request.rootKeyHash) t = .ok again ∧
      PlannedAgain plan again := by
  have hexists : t.sessionRoots.has request.rootKeyHash = true :=
    Table.has_iff.mpr ⟨_, by rw [h.roots, if_pos rfl]⟩
  have htarget : ¬(target.any fun target ↦ (t.accountDisplayLabel target.accountId).isNone) =
      true := by
    cases target with
    | none => simp
    | some resolved =>
      have hstored := h.planned.stored resolved rfl
      rw [← s.accountDisplayLabel_isSome, ← h.label_again] at hstored
      simpa [Option.isSome_iff_ne_none] using hstored
  unfold planSessionRouteAction
  rw [hexists, if_neg htarget]
  unfold decideRouteAction
  rw [if_neg (by simp), h.effective_again]
  cases heff : effectiveRouteAccount settings usageRefreshInterval target selectedAt s with
  | mk effective usedFallback =>
    have heffective : plan.effectiveAccountId = effective := by rw [h.planned.effective, heff]
    have hcurrent : (routeSnapshot request.rootKeyHash inputKeys true t).currentGeneration =
        plan.routeGeneration := h.currentGeneration_again hs
    have hsettled := h.settled_again hs hlive
    rw [heffective] at hsettled
    dsimp only
    rw [hsettled, Bool.false_and, if_neg Bool.false_ne_true]
    refine ⟨_, rfl, ?_, ?_, ?_, rfl, ?_, ?_, ?_⟩
    · rw [h.planned.requested]
    · exact heffective.symm
    · rw [h.planned.label, heffective]
      cases effective with
      | none => rfl
      | some e => exact h.label_again e
    · exact hcurrent
    · rw [h.planned.status, heff, heffective, routeActionStatus_again]
    · rw [List.countP_eq_zero]
      intro root hroot
      have hcovered : root ∈ coveredRoots inputKeys.hashes request.rootKeyHash t :=
        List.mem_insert_of_mem hroot
      rw [h.mem_coveredRoots_again.mp hcovered, bne_self_eq_false]
      exact Bool.false_ne_true

/-- The second commit writes nothing but the status and the times. -/
theorem repeated {again : RoutePlan} {nowAgain : Instant} {u : Store}
    (h : Committed settings usageRefreshInterval request liveAccountIds selectedAt now inputKeys
      target plan s t)
    (h' : Committed settings usageRefreshInterval request liveAgain selectedAt nowAgain inputKeys
      target again t u) (hagain : PlannedAgain plan again) :
    Repeated request.rootKeyHash again.status t u := by
  constructor
  · rw [h'.store, write_affinity_of_settled hagain.settled]
    rfl
  · intro k
    by_cases hk : k ∈ h'.covered
    · obtain ⟨key, hkey, rfl, hmapped⟩ := h'.routeKeys_of_mem hk
      rw [h'.planned.allKeys, h.mem_plannedKeys_again, h.routeKeys_again] at hkey
      rw [hmapped, hkey]
    · exact h'.routeKeys_of_notMem hk
  · intro r hne
    rw [h'.roots, if_neg hne, if_neg (mt h.mem_coveredRoots_again.mp hne)]
  · refine ⟨commandedRoot request.action plan now, nowAgain, by rw [h.roots, if_pos rfl], ?_⟩
    rw [h'.roots, if_pos rfl]
    unfold commandedRoot
    rw [hagain.generation, hagain.requested, hagain.effective]
  · exact h'.frame

end Committed

section Repeat

variable [UuidText] {settings : RuntimeSettings} {usageRefreshInterval : Nat}
  {request : SessionRouteActionRequest} {liveAccountIds liveAgain : List Uuid}
  {selectedAt now nowAgain : Instant} {s t : Store}

/-- **Route actions are idempotent.** The same request at the same instant, with live accounts
within the effective account of the first call, changes nothing and reports so. -/
theorem route_action_idempotent {response : SessionRouteActionResponse} (hs : s.Reached)
    (hdry : request.dryRun = false)
    (h : applySessionRouteAction settings usageRefreshInterval request liveAccountIds selectedAt
      now s = (.ok response, t))
    (hlive : ∀ id ∈ liveAgain, ∃ root, t.sessionRoots.find request.rootKeyHash = some root ∧
      root.effectiveAccountId = some id) :
    ∃ again u, applySessionRouteAction settings usageRefreshInterval request liveAgain selectedAt
        nowAgain t = (.ok again, u) ∧
      again.effectiveAccount = response.effectiveAccount ∧
      again.routeGeneration = response.routeGeneration ∧
      again.status = response.status.again ∧ again.mergedRootCount = 0 ∧
      Repeated request.rootKeyHash again.status t u := by
  obtain ⟨inputKeys, target, plan, rfl, hc⟩ := committed_of_ok hdry h
  have hroot : t.sessionRoots.find request.rootKeyHash =
      some (commandedRoot request.action plan now) := by rw [hc.roots, if_pos rfl]
  have hlive' : ∀ id ∈ liveAgain, plan.effectiveAccountId = some id := by
    intro id hmem
    obtain ⟨root, hfind, heffective⟩ := hlive id hmem
    rw [hroot] at hfind
    cases hfind
    exact heffective
  obtain ⟨again, hplan, hagain⟩ := hc.plan_again hs.routesSound.accounts hlive'
  have hplanned : routeActionPlan settings usageRefreshInterval request liveAgain selectedAt t =
      .ok again := routeActionPlan_ok_iff.mpr ⟨inputKeys, target, hc.validated_again, hplan⟩
  have hcommit : Committed settings usageRefreshInterval request liveAgain selectedAt nowAgain
      inputKeys target again t
      (writeRouteAction request again nowAgain (t.withRoot request.rootKeyHash nowAgain)) :=
    ⟨hdry, hc.validated_again, planned_of_ok hplan, rfl⟩
  refine ⟨again.response request, _, ?_, hagain.label, hagain.generation, hagain.status,
    hagain.merged, hc.repeated hcommit hagain⟩
  rw [applySessionRouteAction_eq, hplanned]
  dsimp only
  rw [routeActionStore, hdry]
  rfl

end Repeat

/-- The session is sent to the second account twice, the second time with that account live. -/
theorem route_action_idempotent_rerouted : let _ := hyphenatedText
    ∃ again u, applySessionRouteAction .default 300 (rerouteSession "two" false) [2] 2000 2000
        (reroutedSession boundSession []) = (.ok again, u) ∧
      again.effectiveAccount = some "two" ∧ again.routeGeneration = 1 ∧
      again.status = .noOp ∧ again.mergedRootCount = 0 ∧
      Repeated sessionKey.keyHash again.status (reroutedSession boundSession []) u := by
  intro _
  have hok : (applySessionRouteAction .default 300 (rerouteSession "two" false) [] 2000 2000
      boundSession).1 = .ok (reroutePlan.response (rerouteSession "two" false)) := by
    decide +kernel
  have hroot : ((reroutedSession boundSession []).sessionRoots.find sessionKey.keyHash).map
      SessionRoot.effectiveAccountId = some (some 2) := by decide +kernel
  apply route_action_idempotent boundSession_reached rfl (Prod.ext hok rfl)
  intro id hmem
  obtain ⟨root, hfind, heffective⟩ := Option.map_eq_some_iff.mp hroot
  cases List.mem_singleton.mp hmem
  exact ⟨root, hfind, heffective⟩

end CodexLb
