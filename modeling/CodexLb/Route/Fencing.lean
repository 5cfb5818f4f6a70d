import CodexLb.Route.Reachable

/-!
# Stale transports are fenced off

A transport captures an epoch when it is set up and binds with it when it has
succeeded. Once a route action has taken the captured session over, no later
bind with that capture writes anything, whatever happened in between.
-/

namespace CodexLb

open Relational Transition

/-- A route action takes a capture over: it moves the session of a captured root, or it covers a
key that had no root. -/
def Supersedes (request : SessionRouteActionRequest) (plan : RoutePlan) (s : Store)
    (keys : List SessionRouteKey) (captured : Option SessionRouteEpoch) : Prop :=
  let covered := coveredKeys (request.keys.map SessionRouteKey.keyHash) request.rootKeyHash s
  match captured with
  | some epoch => plan.requiresMove = true ∧ epoch.rootKeyHash ∈ covered
  | none => ∃ key ∈ keys, key.keyHash ∈ covered

variable [UuidText] {settings : RuntimeSettings} {usageRefreshInterval : Nat}
  {request : SessionRouteActionRequest} {liveAccountIds : List Uuid} {selectedAt now : Instant}
  {inputKeys : RouteKeys} {target : Option ResolvedSessionRouteTarget} {plan : RoutePlan}
  {s t : Store}

/-- A move puts every covered key past the generation that it had. -/
theorem Committed.generation_lt (h : Committed settings usageRefreshInterval request
    liveAccountIds selectedAt now inputKeys target plan s t) (hm : plan.requiresMove = true)
    {k : String} (hk : k ∈ h.covered) {g : Nat} (hg : s.generation k = some g) :
    ∃ g', t.generation k = some g' ∧ g < g' := by
  obtain ⟨⟨r, g'⟩, hroute, rfl⟩ := Option.map_eq_some_iff.mp hg
  obtain ⟨root, hroot, rfl⟩ := Store.route_eq_some_iff.mp hroute
  obtain ⟨row, hrow, rfl, hfind⟩ := Store.rootOf_eq_some_iff.mp hroot
  have hle := h.planned.root_le (mem_coveredRoots_of_mem_coveredKeys hk hrow) hfind
  have hgen := h.planned.generation
  rw [hm, if_pos rfl] at hgen
  refine ⟨plan.routeGeneration, ?_, by omega⟩
  rw [Store.generation, Store.route, h.handover.rootOf_of_mem hk]
  rfl

/-- A committed action leaves every covered key in a session that has received a command. -/
theorem Committed.commanded (h : Committed settings usageRefreshInterval request liveAccountIds
    selectedAt now inputKeys target plan s t) {k : String} (hk : k ∈ h.covered) :
    t.Commanded k := ⟨_, _, h.handover.rootOf_of_mem hk, rfl⟩

/-- No stale transport restores an old route: once a committed route action has superseded a
captured epoch, every later bind with it is refused and changes no table. -/
theorem superseded_epoch_never_binds {s₁ s₂ : Store} (hs : s.Reached)
    {keys : List SessionRouteKey} {captured : Option SessionRouteEpoch}
    (hcaptured : resolveSessionRouteEpoch keys s = .ok captured)
    {before after : List (Op × Clock)} (hbefore : Run Store.Step s before s₁)
    (hdry : request.dryRun = false)
    (hplan : routeActionPlan settings usageRefreshInterval request liveAccountIds selectedAt s₁ =
      .ok plan)
    (hsuper : Supersedes request plan s₁ keys captured)
    (hafter : Run Store.Step (applySessionRouteAction settings usageRefreshInterval request
      liveAccountIds selectedAt now s₁).2 after s₂)
    (accountId : Uuid) (later : Instant) :
    bindAffinitiesAtEpoch keys accountId captured later s₂ = (.ok false, s₂) := by
  obtain ⟨inputKeys, target, h⟩ := committed_of_plan hdry hplan now
  have hreach : ∀ u ops, Run Store.Step s ops u → u.RoutesSound :=
    fun u ops hrun ↦ Store.Reached.routesSound (hs.run hrun)
  have hsound₁ := hreach _ _ hbefore
  have hstep : Run Store.Step s₁ [(.applySessionRouteAction settings usageRefreshInterval request
      liveAccountIds selectedAt, ⟨now, ""⟩)] (applySessionRouteAction settings
        usageRefreshInterval request liveAccountIds selectedAt now s₁).2 := .single rfl
  have hsound := hreach _ _ (hbefore.append hstep)
  have hsound₂ := hreach _ _ ((hbefore.append hstep).append hafter)
  cases captured with
  | some epoch =>
    obtain ⟨hm, hcover⟩ := hsuper
    obtain ⟨validated, hv, routed, hrouted, rfl⟩ := resolveSessionRouteEpoch_some hcaptured
    obtain ⟨hin, -, hroot⟩ := mem_routedKeys_iff.mp hrouted
    -- the root's own key carries the captured generation, then never less
    have hgen : s.generation routed.rootKeyHash = some routed.root.routeGeneration := by
      rw [Store.generation, Store.route, hs.routesSound.invariant.rootOf_self hroot]
      rfl
    obtain ⟨g₁, hg₁, hle⟩ := hs.routesSound.forward hbefore _ _ hgen
    rw [← h.covered_eq] at hcover
    obtain ⟨g₂, hg₂, hlt⟩ := h.generation_lt hm hcover hg₁
    have hpassed := (hsound.forward hafter).passed hg₂ (Nat.lt_of_le_of_lt hle hlt)
    apply bindAffinitiesAtEpoch_stale hv
    · intro hempty
      rw [RouteKeys.hashes, hempty] at hin
      cases hin
    · intro root hfind
      exact hsound₂.invariant.root_ne hpassed hfind
  | none =>
    obtain ⟨key, hkey, hcover⟩ := hsuper
    rw [← h.covered_eq] at hcover
    cases hv : validateSessionRouteKeys keys with
    | error e => rw [resolveSessionRouteEpoch, hv] at hcaptured; cases hcaptured
    | ok validated =>
      have hin : key.keyHash ∈ validated.hashes :=
        (mem_hashes_of_validate hv _).mpr (List.mem_map.mpr ⟨key, hkey, rfl⟩)
      exact bindAffinitiesAtEpoch_commanded hsound₂.invariant hv hin
        (hsound.commanded hafter (h.commanded hcover)) accountId later

omit [UuidText] in
/-- A transport set up before the reroute is refused, whether or not its session had a root. -/
theorem superseded_epoch_never_binds_rerouted :
    bindAffinitiesAtEpoch [sessionKey] 1 (some ⟨hexHash 1, 0, hexHash 1⟩) 3000
        (reroutedSession boundSession []) = (.ok false, reroutedSession boundSession []) ∧
      bindAffinitiesAtEpoch [sessionKey] 1 none 3000 (reroutedSession twoAccounts [1]) =
        (.ok false, reroutedSession twoAccounts [1]) := by
  let _ := hyphenatedText
  have hbound : routeActionPlan .default 300 (rerouteSession "two" false) [] 2000 boundSession =
      .ok reroutePlan := by decide +kernel
  have hfresh : routeActionPlan .default 300 (rerouteSession "two" false) [1] 2000 twoAccounts =
      .ok reroutePlan := by decide +kernel
  have hmoves : Supersedes (rerouteSession "two" false) reroutePlan boundSession [sessionKey]
      (some ⟨hexHash 1, 0, hexHash 1⟩) := ⟨rfl, .inl (List.mem_singleton_self _)⟩
  have hcovers :
      Supersedes (rerouteSession "two" false) reroutePlan twoAccounts [sessionKey] none :=
    ⟨sessionKey, List.mem_singleton_self _, .inl (List.mem_singleton_self _)⟩
  constructor
  · exact superseded_epoch_never_binds boundSession_reached (by decide +kernel) (.nil _) rfl
      hbound hmoves (.nil _) 1 3000
  · exact superseded_epoch_never_binds twoAccounts_reached (by decide +kernel) (.nil _) rfl
      hfresh hcovers (.nil _) 1 3000

end CodexLb
