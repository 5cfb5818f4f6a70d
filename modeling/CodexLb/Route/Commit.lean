import CodexLb.Route.Reachable
import Mathlib.Order.Bounds.Basic

/-!
# What a route action leaves behind

A committed route action moves the whole session and nothing else, and a dry
run reports exactly what a commit would do.
-/

namespace CodexLb

open Relational Transition

/-- The roots, other than the request root, that an input key was mapped to. -/
def mergedRoots (inputs : List String) (rootKeyHash : String) (s : Store) : Set String :=
  {r | r ≠ rootKeyHash ∧ ∃ j ∈ inputs, ∃ row,
    s.sessionRouteKeys.find j = some row ∧ row.rootKeyHash = r}

/-- The generations of the covered roots and of the affinity rows of the covered keys. -/
def previousGenerations (inputs : List String) (rootKeyHash : String) (s : Store) : Set Nat :=
  {g | (∃ r root, (r = rootKeyHash ∨ r ∈ mergedRoots inputs rootKeyHash s) ∧
      s.sessionRoots.find r = some root ∧ root.routeGeneration = g) ∨
    ∃ k ∈ coveredKeys inputs rootKeyHash s, ∃ row,
      s.affinity.find k = some row ∧ row.routeGeneration = g}

/-- The store `t` is `s` after the whole session of a request went to its root, and nothing
else. -/
structure MovedWhole (request : SessionRouteActionRequest) (response : SessionRouteActionResponse)
    (s t : Store) : Prop where
  mapped : ∀ k ∈ coveredKeys (request.keys.map SessionRouteKey.keyHash) request.rootKeyHash s,
    ∃ row, t.sessionRouteKeys.find k = some row ∧ row.rootKeyHash = request.rootKeyHash
  merged : ∀ r ∈ mergedRoots (request.keys.map SessionRouteKey.keyHash) request.rootKeyHash s,
    t.sessionRoots.find r = none
  root : ∃ root, t.sessionRoots.find request.rootKeyHash = some root ∧
    root.routeGeneration = response.routeGeneration ∧
    root.actionStatus = some response.status ∧
    (root.effectiveAccountId.isSome = response.effectiveAccount.isSome) ∧
    (∀ e, root.effectiveAccountId = some e →
      ∀ k ∈ coveredKeys (request.keys.map SessionRouteKey.keyHash) request.rootKeyHash s,
        ∃ row, t.affinity.find k = some row ∧ row.accountId = e ∧
          row.routeGeneration = root.routeGeneration) ∧
    (root.effectiveAccountId = none → t.affinity = s.affinity ∧
      IsLUB (previousGenerations (request.keys.map SessionRouteKey.keyHash) request.rootKeyHash s)
        root.routeGeneration)
  otherRoots : ∀ r, r ≠ request.rootKeyHash →
    r ∉ mergedRoots (request.keys.map SessionRouteKey.keyHash) request.rootKeyHash s →
    t.sessionRoots.find r = s.sessionRoots.find r
  otherKeys : ∀ k, k ∉ coveredKeys (request.keys.map SessionRouteKey.keyHash)
      request.rootKeyHash s →
    t.sessionRouteKeys.find k = s.sessionRouteKeys.find k ∧
      t.affinity.find k = s.affinity.find k
  otherTables : t = { s with
    affinity := t.affinity
    sessionRoots := t.sessionRoots
    sessionRouteKeys := t.sessionRouteKeys }

/-- The covered roots are the request root and the merged roots. -/
theorem mem_coveredRoots_iff_merged {inputs : List String} {rootKeyHash r : String} {s : Store} :
    r ∈ coveredRoots inputs rootKeyHash s ↔
      r = rootKeyHash ∨ r ∈ mergedRoots inputs rootKeyHash s := by
  rw [mem_coveredRoots_iff]
  constructor
  · rintro (he | hm)
    · exact .inl he
    · by_cases he : r = rootKeyHash
      · exact .inl he
      · exact .inr ⟨he, hm⟩
  · rintro (he | ⟨-, hm⟩)
    · exact .inl he
    · exact .inr hm

/-- The roots that a request merges depend on the set of its hashes only. -/
theorem mergedRoots_congr {inputs inputs' : List String} (h : ∀ k, k ∈ inputs ↔ k ∈ inputs')
    (rootKeyHash : String) (s : Store) :
    mergedRoots inputs rootKeyHash s = mergedRoots inputs' rootKeyHash s := by
  ext r
  change (_ ∧ _) ↔ (_ ∧ _)
  simp only [h]

/-- The current generation of a plan is the maximum of the previous generations. -/
theorem Planned.current_isLUB {settings : RuntimeSettings} {usageRefreshInterval : Nat}
    {rootKeyHash : String} {inputKeys : RouteKeys} {target : Option ResolvedSessionRouteTarget}
    {liveAccountIds : List Uuid} {selectedAt : Instant} {s : Store} {plan : RoutePlan}
    (h : Planned settings usageRefreshInterval rootKeyHash inputKeys target liveAccountIds
      selectedAt s plan) (hs : s.AccountsStored) :
    IsLUB (previousGenerations inputKeys.hashes rootKeyHash s) plan.currentGeneration := by
  constructor
  · rintro g (⟨r, root, hr, hroot, rfl⟩ | ⟨k, hk, row, hrow, rfl⟩)
    · exact h.root_le (mem_coveredRoots_iff_merged.mpr hr) hroot
    · exact h.affinity_le hs hk hrow
  · intro n hn
    rw [h.current, Nat.max_le, rootGeneration, maximum_le_iff, maximum_le_iff]
    constructor
    · intro g hg
      obtain ⟨⟨r, root⟩, hm, rfl⟩ := List.mem_map.mp hg
      obtain ⟨hroot, hr⟩ := Table.mem_select_iff.mp hm
      rw [h.rootHashes, List.contains_eq_mem, decide_eq_true_eq] at hr
      exact hn (.inl ⟨r, root, mem_coveredRoots_iff_merged.mp hr, hroot, rfl⟩)
    · intro g hg
      obtain ⟨route, hm, rfl⟩ := List.mem_map.mp hg
      obtain ⟨hk, row, hrow, -, -, hgen, -⟩ := mem_affinityRoutes_iff.mp hm
      exact hn (.inr ⟨route.keyHash, h.mem_hashes_iff.mp hk, row, hrow, hgen.symm⟩)

section Commit

variable [UuidText] {settings : RuntimeSettings} {usageRefreshInterval : Nat}
  {request : SessionRouteActionRequest} {liveAccountIds : List Uuid} {selectedAt now : Instant}
  {s t : Store}

/-- A committed route action moves the whole session and nothing else. -/
theorem route_action_moves_whole_session {response : SessionRouteActionResponse}
    (hs : s.Reached) (hdry : request.dryRun = false)
    (h : applySessionRouteAction settings usageRefreshInterval request liveAccountIds selectedAt
      now s = (.ok response, t)) : MovedWhole request response s t := by
  obtain ⟨inputKeys, target, plan, rfl, hc⟩ := committed_of_ok hdry h
  have hmem := mem_hashes_of_validate hc.validated.keys
  have hcovered := coveredKeys_congr hmem request.rootKeyHash s
  have hmerged := mergedRoots_congr hmem request.rootKeyHash s
  have hplanned := hc.planned
  have hroot := hc.handover.installed
  have hprevious : previousGenerations (request.keys.map SessionRouteKey.keyHash)
      request.rootKeyHash s = previousGenerations inputKeys.hashes request.rootKeyHash s := by
    rw [previousGenerations, previousGenerations, ← hcovered, ← hmerged]
  constructor
  · intro k hk
    rw [← hcovered] at hk
    obtain ⟨key, -, -, hfind⟩ := hc.routeKeys_of_mem hk
    exact ⟨_, hfind, rfl⟩
  · rintro r hr
    rw [← hmerged] at hr
    rw [hc.roots, if_neg hr.1, if_pos (mem_coveredRoots_iff_merged.mpr (.inr hr))]
  · refine ⟨_, hroot, rfl, rfl, ?_, ?_, ?_⟩
    · change plan.effectiveAccountId.isSome = plan.effectiveAccount.isSome
      rw [hplanned.label_isSome]
    · intro e he k hk
      rw [← hcovered] at hk
      exact hc.affinity_of_mem he hk
    · intro he
      obtain ⟨hm, ha⟩ := hc.affinity_of_pending he
      refine ⟨ha, ?_⟩
      have hgen : plan.routeGeneration = plan.currentGeneration := by
        rw [hplanned.generation, hm]
        rfl
      rw [hprevious]
      change IsLUB _ plan.routeGeneration
      rw [hgen]
      exact hplanned.current_isLUB hs.routesSound.accounts
  · intro r hne hr
    rw [← hmerged] at hr
    rw [hc.roots, if_neg hne, if_neg]
    rw [mem_coveredRoots_iff_merged]
    rintro (he | hm)
    · exact hne he
    · exact hr hm
  · intro k hk
    rw [← hcovered] at hk
    exact ⟨hc.routeKeys_of_notMem hk, hc.affinity_of_notMem hk⟩
  · exact hc.frame

end Commit

/-- The session that was sent to the second account moved whole. -/
theorem route_action_moves_whole_session_rerouted :
    MovedWhole (rerouteSession "two" false) (reroutePlan.response (rerouteSession "two" false))
      boundSession (reroutedSession boundSession []) := by
  let _ := hyphenatedText
  have hok : (applySessionRouteAction .default 300 (rerouteSession "two" false) [] 2000 2000
      boundSession).1 = .ok (reroutePlan.response (rerouteSession "two" false)) := by
    decide +kernel
  exact route_action_moves_whole_session boundSession_reached rfl (Prod.ext hok rfl)

/-! ### Dry runs -/

section Preview

variable [UuidText] (settings : RuntimeSettings) (usageRefreshInterval : Nat)
  (request : SessionRouteActionRequest) (liveAccountIds : List Uuid) (selectedAt : Instant)
  (s : Store)

/-- The plan of a request does not depend on whether it is a dry run. -/
theorem routeActionPlan_dryRun (dryRun : Bool) :
    routeActionPlan settings usageRefreshInterval { request with dryRun := dryRun }
        liveAccountIds selectedAt s =
      routeActionPlan settings usageRefreshInterval request liveAccountIds selectedAt s := rfl

/-- A dry run answers what the commit answers, apart from its own flag, and changes nothing; and
a commit that fails changes nothing. -/
theorem preview_equals_commit (previewed committed : Instant) :
    let preview := applySessionRouteAction settings usageRefreshInterval
      { request with dryRun := true } liveAccountIds selectedAt previewed s
    let commit := applySessionRouteAction settings usageRefreshInterval
      { request with dryRun := false } liveAccountIds selectedAt committed s
    preview.2 = s ∧
      preview.1 = commit.1.map (fun response ↦ { response with dryRun := true }) ∧
      ∀ e, commit.1 = .error e → commit.2 = s := by
  intro preview commit
  have hpreview := applySessionRouteAction_eq settings usageRefreshInterval
    { request with dryRun := true } liveAccountIds selectedAt previewed s
  have hcommit := applySessionRouteAction_eq settings usageRefreshInterval
    { request with dryRun := false } liveAccountIds selectedAt committed s
  rw [routeActionPlan_dryRun] at hpreview hcommit
  change preview = _ at hpreview
  change commit = _ at hcommit
  cases hplan : routeActionPlan settings usageRefreshInterval request liveAccountIds
      selectedAt s with
  | error e =>
    rw [hplan] at hpreview hcommit
    rw [hpreview, hcommit]
    exact ⟨rfl, rfl, fun _ _ ↦ rfl⟩
  | ok plan =>
    rw [hplan] at hpreview hcommit
    rw [hpreview, hcommit]
    refine ⟨rfl, rfl, ?_⟩
    rintro e he
    cases he

end Preview

end CodexLb
