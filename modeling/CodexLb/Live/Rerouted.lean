import CodexLb.Catalog.Command
import CodexLb.Proxy.Returning
import CodexLb.Route.Standing

/-!
# A reroute reaches the requests

From the command line to the account of a later request. `sessions reroute`
puts the tree of a session into a payload, the daemon reads the request back
and commits it, and every client that names a member of the tree is given the
account, until another command or a bind at the generation of the reroute
takes the session elsewhere.
-/

namespace CodexLb

open Proxy Relational Transition

/-! ### The daemon reads a command -/

section Checks

variable [UuidText] {tree : SessionTree} {request : SessionRouteActionRequest}

/-- The checks of the store accept a well-addressed request with a target that resolves. -/
private theorem validate_reroute {inputKeys : RouteKeys} {target : String}
    (hroot : validAffinityHash request.rootKeyHash = true)
    (hkeys : validateSessionRouteKeys request.keys = .ok inputKeys)
    (hrooted : request.rootKeyHash ∈ inputKeys.hashes) (haction : request.action = .reroute)
    (htarget : request.target = some target) (s : Store) :
    validateRouteAction request s =
      (resolveSessionRouteTarget target s).map fun resolved ↦ (inputKeys, some resolved) := by
  have hne : inputKeys.keys.isEmpty = false := by
    rw [List.isEmpty_eq_false_iff]
    intro hnil
    rw [RouteKeys.hashes, hnil] at hrooted
    cases hrooted
  have hcontains : inputKeys.hashes.contains request.rootKeyHash = true := by simpa using hrooted
  unfold validateRouteAction
  rw [hroot, hkeys]
  show (if inputKeys.keys.isEmpty = true then _ else _) = _
  rw [hne, hcontains, haction, htarget]
  show (resolveSessionRouteTarget target s >>= fun resolved ↦ _) = _
  cases resolveSessionRouteTarget target s <;> rfl

variable [Sha256]

/-- The hashes of a tree: of each member under each kind. -/
def SessionTree.aliasHashes (tree : SessionTree) : Set String :=
  {k | ∃ id ∈ tree.memberIds, ∃ kind ∈ sessionAliasKinds,
    k = affinityHash kind (UuidText.toText id)}

/-- The hashes of a tree are among those of its request. -/
theorem WellAddressed.mem_keys (h : WellAddressed tree request) {k : String}
    (hk : k ∈ tree.aliasHashes) : k ∈ request.keys.map SessionRouteKey.keyHash := by
  obtain ⟨id, hid, kind, hkind, rfl⟩ := hk
  exact List.mem_map.mpr ⟨_, h.complete id hid kind hkind, rfl⟩

/-- The keys of a well-addressed request pass their checks. -/
private theorem WellAddressed.checked (hdigest : HexDigests) (h : WellAddressed tree request) :
    ∃ inputKeys, validAffinityHash request.rootKeyHash = true ∧
      validateSessionRouteKeys request.keys = .ok inputKeys ∧
      request.rootKeyHash ∈ inputKeys.hashes := by
  obtain ⟨inputKeys, hkeys, -⟩ := h.keys.validated
  refine ⟨inputKeys, h.root ▸ hdigest _, hkeys, ?_⟩
  rw [h.root]
  exact (mem_hashes_of_validate hkeys _).mpr (List.mem_map_of_mem h.rooted)

/-- A rebalance of a tree passes every check. -/
theorem WellAddressed.rebalances (hdigest : HexDigests) (h : WellAddressed tree request)
    (haction : request.action = .rebalance) (htarget : request.target = none) :
    ∃ inputKeys, ∀ s, validateRouteAction request s = .ok (inputKeys, none) := by
  obtain ⟨inputKeys, hroot, hkeys, hrooted⟩ := h.checked hdigest
  refine ⟨inputKeys, fun s ↦ validateRouteAction_ok_iff.mpr
    ⟨hroot, hkeys, hrooted, fun _ ↦ ⟨htarget, rfl⟩, fun hreroute ↦ ?_⟩⟩
  rw [haction] at hreroute
  cases hreroute

/-- A reroute of a tree is refused for its target only. -/
theorem WellAddressed.refused (hdigest : HexDigests) (h : WellAddressed tree request)
    (haction : request.action = .reroute) {target : String} (htarget : request.target = some target)
    {s : Store} {e : AppError} (hrefused : validateRouteAction request s = .error e) :
    resolveSessionRouteTarget target s = .error e := by
  obtain ⟨inputKeys, hroot, hkeys, hrooted⟩ := h.checked hdigest
  rw [validate_reroute hroot hkeys hrooted haction htarget] at hrefused
  cases hresolve : resolveSessionRouteTarget target s with
  | error e' =>
    rw [hresolve] at hrefused
    cases hrefused
    rfl
  | ok resolved =>
    rw [hresolve] at hrefused
    cases hrefused

end Checks

/-! ### What a reroute commits -/

/-- A response that names no pending action has an effective account, that of the target unless it
stands in for it. -/
theorem Planned.effective_of_status {settings : RuntimeSettings} {usageRefreshInterval : Nat}
    {rootKeyHash : String} {inputKeys : RouteKeys} {target : ResolvedSessionRouteTarget}
    {liveAccountIds : List Uuid} {selectedAt : Instant} {s : Store} {plan : RoutePlan}
    (h : Planned settings usageRefreshInterval rootKeyHash inputKeys (some target) liveAccountIds
      selectedAt s plan) (hstatus : plan.status ≠ .pending) :
    ∃ accountId, plan.effectiveAccountId = some accountId ∧
      (plan.status ≠ .fallback → accountId = target.accountId) := by
  rw [h.status] at hstatus
  cases heffective : plan.effectiveAccountId with
  | none =>
    rw [heffective] at hstatus
    exact absurd rfl hstatus
  | some accountId =>
    refine ⟨accountId, rfl, fun hdirect ↦ ?_⟩
    have hchosen := h.effective
    rw [h.status, heffective] at hdirect
    rw [heffective] at hchosen
    have hcases : effectiveRouteAccount settings usageRefreshInterval (some target) selectedAt s =
        if accountIsEligible target.accountId selectedAt s then (some target.accountId, false)
        else (previewSmartAccount settings usageRefreshInterval [] selectedAt s, true) := rfl
    by_cases heligible : accountIsEligible target.accountId selectedAt s = true
    · rw [hcases, if_pos heligible] at hchosen
      exact Option.some.inj hchosen
    · rw [hcases, if_neg heligible] at hdirect
      exact absurd rfl hdirect

namespace Committed

variable [UuidText] {settings : RuntimeSettings} {usageRefreshInterval : Nat}
  {request : SessionRouteActionRequest} {liveAccountIds : List Uuid} {selectedAt now : Instant}
  {inputKeys : RouteKeys} {target : Option ResolvedSessionRouteTarget} {plan : RoutePlan}
  {s t : Store}

/-- A committed reroute with an effective account stands. -/
theorem stands (h : Committed settings usageRefreshInterval request liveAccountIds selectedAt now
    inputKeys target plan s t) (haction : request.action = .reroute) {accountId : Uuid}
    (heffective : plan.effectiveAccountId = some accountId) :
    Stands request.rootKeyHash plan.routeGeneration accountId
      {k | k ∈ request.keys.map SessionRouteKey.keyHash} t where
  root := ⟨_, h.handover.installed, rfl, congrArg some haction⟩
  mapped k hk := by
    have hcovered : k ∈ h.covered := by
      rw [h.covered_eq]
      exact mem_coveredKeys_iff.mpr (.inl hk)
    obtain ⟨key, -, -, hrow⟩ := h.routeKeys_of_mem hcovered
    exact ⟨_, hrow, rfl⟩
  routed k row affinity hrow hroot ha := by
    by_cases hk : k ∈ h.covered
    · obtain ⟨written, hwritten, haccount, -⟩ := h.affinity_of_mem heffective hk
      rw [hwritten] at ha
      cases ha
      exact haccount
    · -- a key that was not covered is not on the root of the request
      rw [h.routeKeys_of_notMem hk] at hrow
      exact absurd hroot (h.handover.closed k row hrow hk).1

end Committed

/-! ### What the clients are given -/

section Clients

variable [UuidText] [Sha256] [JsonText]

/-- A reroute holds for the clients of a session: every hash of its tree is on the account at the
generation of the reroute, and along every run that does not take it back, a client that names one
of them, and no other session, selects under the epoch of the reroute and is given the account. -/
structure ReroutedTo (tree : SessionTree) (routeGeneration : Nat) (accountId : Uuid) (t : Store) :
    Prop where
  routed : ∀ k ∈ tree.aliasHashes, ∃ affinity, t.affinity.find k = some affinity ∧
    affinity.accountId = accountId ∧ affinity.routeGeneration = routeGeneration
  clients : ∀ events u,
    Run (guarded Store.Step (Op.Leaves (rootSessionKeyHash tree.rootId) routeGeneration accountId))
      t events u →
    ∀ keys, ClientKeys keys → RootedAt (rootSessionKeyHash tree.rootId) keys u →
      (∃ key ∈ keys, key.keyHash ∈ tree.aliasHashes) →
    ∃ root selection, root.routeGeneration = routeGeneration ∧
      SelectsAt (rootSessionKeyHash tree.rootId) root keys selection u ∧
      GivenTo accountId (rootSessionKeyHash tree.rootId) root keys selection u

/-- While a reroute stands, every client that names its session is given its account. -/
theorem Stands.givesClients (hdigest : HexDigests) {rootKeyHash : String} {routeGeneration : Nat}
    {accountId : Uuid} {hashes : Set String} {u : Store} (hu : u.RoutesSound)
    (h : Stands rootKeyHash routeGeneration accountId hashes u) {keys : List SessionRouteKey}
    (hclient : ClientKeys keys) (hrooted : RootedAt rootKeyHash keys u)
    (hnamed : ∃ key ∈ keys, key.keyHash ∈ hashes) :
    ∃ root selection, root.routeGeneration = routeGeneration ∧
      SelectsAt rootKeyHash root keys selection u ∧
      GivenTo accountId rootKeyHash root keys selection u := by
  obtain ⟨key, hkey, hin⟩ := hnamed
  obtain ⟨row, hrow, -⟩ := h.mapped _ hin
  obtain ⟨validated, hv, -⟩ := (hclient.acceptable hdigest).validated
  obtain ⟨root, selection, hroot, hselects⟩ :=
    hrooted.selects hu.invariant hv ⟨key, hkey, row, hrow⟩
  obtain ⟨stored, hstored, hgeneration, -⟩ := h.root
  rw [hstored] at hroot
  cases hroot
  refine ⟨_, selection, hgeneration, hselects, hselects.givenTo fun affinity ha ↦ ?_⟩
  obtain ⟨mapped, hmapped⟩ := hselects.mapped
  exact h.routed _ _ _ hmapped (hrooted selection hselects.named mapped hmapped) ha

/-- What a reroute from the command line does once the daemon has its payload: it is read as a
request that only its target can have refused, and a commit that is not pending sends the clients
of the tree to the account that was chosen, the target unless the response says that another one
stands in for it. -/
structure Reroutes (tree : SessionTree) (target : String) (dryRun : Bool)
    (request : SessionRouteActionRequest) : Prop where
  admitted : Live.admitted request = .ok ()
  refused : ∀ s e, validateRouteAction request s = .error e →
    resolveSessionRouteTarget target s = .error e
  committed : ∀ s, s.Reached → dryRun = false →
    ∀ settings usageRefreshInterval liveAccountIds selectedAt now response t,
      applySessionRouteAction settings usageRefreshInterval request liveAccountIds selectedAt now
        s = (.ok response, t) → response.status ≠ .pending →
    ∃ accountId, accountIsEligible accountId selectedAt s = true ∧
      (response.status ≠ .fallback → ∃ resolved, resolveSessionRouteTarget target s = .ok resolved ∧
        resolved.accountId = accountId) ∧
      ReroutedTo tree response.routeGeneration accountId t

/-- The commit of a request of a tree. -/
private theorem WellAddressed.rerouted (hdigest : HexDigests) {tree : SessionTree}
    {request : SessionRouteActionRequest} (h : WellAddressed tree request)
    (haction : request.action = .reroute) {target : String}
    (htarget : request.target = some target) (hdry : request.dryRun = false) {s t : Store}
    (hs : s.Reached) {settings : RuntimeSettings} {usageRefreshInterval : Nat}
    {liveAccountIds : List Uuid} {selectedAt now : Instant} {response : SessionRouteActionResponse}
    (hcommand : applySessionRouteAction settings usageRefreshInterval request liveAccountIds
      selectedAt now s = (.ok response, t)) (hstatus : response.status ≠ .pending) :
    ∃ accountId, accountIsEligible accountId selectedAt s = true ∧
      (response.status ≠ .fallback → ∃ resolved, resolveSessionRouteTarget target s = .ok resolved ∧
        resolved.accountId = accountId) ∧
      ReroutedTo tree response.routeGeneration accountId t := by
  obtain ⟨inputKeys, chosen, plan, rfl, hcommitted⟩ := committed_of_ok hdry hcommand
  obtain ⟨text, resolved, htext, rfl, hresolved⟩ := hcommitted.validated.reroute haction
  rw [htarget] at htext
  cases htext
  obtain ⟨accountId, heffective, hdirect⟩ := hcommitted.planned.effective_of_status hstatus
  have hstands := hcommitted.stands haction heffective
  have hstep : Store.Step s (.applySessionRouteAction settings usageRefreshInterval request
      liveAccountIds selectedAt, ⟨now, ""⟩) t := congrArg Prod.snd hcommand
  have ht : t.RoutesSound := hs.routesSound.step hstep
  refine ⟨accountId, (hcommitted.planned.effective_stored heffective).1,
    fun hdirectly ↦ ⟨resolved, hresolved, (hdirect hdirectly).symm⟩, fun k hk ↦ ?_,
    fun events u hrun keys hclient hrooted hnamed ↦ ?_⟩
  · have hcovered : k ∈ hcommitted.covered := by
      rw [hcommitted.covered_eq]
      exact mem_coveredKeys_iff.mpr (.inl (h.mem_keys hk))
    exact hcommitted.affinity_of_mem heffective hcovered
  · rw [← h.root] at hrun hrooted ⊢
    obtain ⟨hu, hstill⟩ := hstands.run ht hrun
    obtain ⟨key, hkey, hin⟩ := hnamed
    exact hstill.givesClients hdigest hu hclient hrooted ⟨key, hkey, h.mem_keys hin⟩

/-- What the daemon reads from the payload of a session command. -/
private theorem reads_command (hdigest : HexDigests) {files : List RolloutFile}
    {sessionId : Uuid} {action : SessionRouteActionKind} {target : Option String} {dryRun : Bool}
    {payload : JsonValue}
    (hsent : sessionsAction files sessionId action target dryRun = .ok payload)
    (hsha : ∀ tree, discoverTree files sessionId = .ok tree → NoCollisions tree) :
    ∃ tree aliases, discoverTree files sessionId = .ok tree ∧
      SessionRouteActionRequest.fromJson payload =
        some (treeRequest tree aliases action target dryRun) ∧
      WellAddressed tree (treeRequest tree aliases action target dryRun) := by
  unfold sessionsAction at hsent
  obtain ⟨tree, htree, hsent⟩ := bind_eq_ok.mp hsent
  obtain ⟨aliases, haliases, hread⟩ := fromJson_sessionActionPayload hsent
  have hroot : tree.rootId ∈ tree.memberIds := by
    obtain ⟨catalog, -, hfor⟩ := bind_eq_ok.mp htree
    obtain ⟨-, hfor⟩ := SessionCatalog.mutationTreeFor_ok_iff.mp hfor
    exact ((SessionCatalog.treeFor_ok hfor).2.2 _).mpr (.inl rfl)
  exact ⟨tree, aliases, htree, hread,
    treeRequest_wellAddressed hdigest haliases hroot (hsha tree htree) action target dryRun⟩

/-- The daemon reads a rebalance of the command line as a request that passes every check. -/
theorem sessionsRebalance_accepted (hdigest : HexDigests) {files : List RolloutFile}
    {sessionId : Uuid} {dryRun : Bool} {payload : JsonValue}
    (hsent : sessionsRebalance files sessionId dryRun = .ok payload)
    (hsha : ∀ tree, discoverTree files sessionId = .ok tree → NoCollisions tree) :
    ∃ request inputKeys, SessionRouteActionRequest.fromJson payload = some request ∧
      Live.admitted request = .ok () ∧
      ∀ s, validateRouteAction request s = .ok (inputKeys, none) := by
  obtain ⟨tree, aliases, -, hread, haddressed⟩ := reads_command hdigest hsent hsha
  obtain ⟨inputKeys, hchecked⟩ := haddressed.rebalances hdigest rfl rfl
  exact ⟨_, inputKeys, hread, haddressed.admitted, hchecked⟩

/-- A reroute of the command line reaches the requests of its session. Whatever rollout files
there are, if the command sends a payload then the daemon reads it as a request that only its
target can have refused, and once it is committed and not pending, every client that names a
member of the tree and no other session is given the chosen account, along every run in which no
other command covers the session and no bind at the generation of the reroute is to another
account. -/
theorem reroute_reaches_requests (hdigest : HexDigests) {files : List RolloutFile}
    {sessionId : Uuid} {label : String} {dryRun : Bool} {payload : JsonValue}
    (hsent : sessionsReroute files sessionId label dryRun = .ok payload)
    (hsha : ∀ tree, discoverTree files sessionId = .ok tree → NoCollisions tree) :
    ∃ tree request, discoverTree files sessionId = .ok tree ∧
      SessionRouteActionRequest.fromJson payload = some request ∧
      Reroutes tree (trim label) dryRun request := by
  unfold sessionsReroute at hsent
  dsimp only at hsent
  split at hsent
  · cases hsent
  · obtain ⟨tree, aliases, htree, hread, haddressed⟩ := reads_command hdigest hsent hsha
    exact ⟨tree, _, htree, hread, haddressed.admitted,
      fun s e hrefused ↦ haddressed.refused hdigest rfl rfl hrefused,
      fun s hs hdry _ _ _ _ _ _ _ hcommand hstatus ↦
        haddressed.rerouted hdigest rfl rfl hdry hs hcommand hstatus⟩

end Clients

/-! ### A session is sent to the second account -/

private def memberDigests : List (String × String) :=
  [(affinityText "session_id" "00000000-0000-0000-0000-000000000001",
      "981392b425358be60f49af7b99dfd0cd33ccf127f3704be01f202222f45bf260"),
    (affinityText "thread_id" "00000000-0000-0000-0000-000000000001",
      "dd3170f6c9d65cc01bb30b3f949f770bad7e900f6d5f8101c2f21e812e395300"),
    (affinityText "conversation_id" "00000000-0000-0000-0000-000000000001",
      "0ee4d852fb939d30ccf90c97625abe6518bbb7f1ff0d97ebf24158dc99d906fe"),
    (affinityText "prompt_cache_key" "00000000-0000-0000-0000-000000000001",
      "ba5f14993b4051df25d9ee5e2d603e679a396989191a7291d1146c3f59f4a8b8")]

/-- No line is JSON. -/
@[reducible] private def unreadable : JsonText where
  fromStr _ := none

/-- A rollout of one session, which nothing was written to yet. -/
private def freshRollout : RolloutFile := ⟨"rollout.jsonl", some 1, [], 0⟩

/-- What the daemon reads from the command that sends the session to the second account. -/
private def freshRequest : SessionRouteActionRequest :=
  let _ := hyphenatedText
  let _ := listedDigests memberDigests
  treeRequest ⟨1, [1], 0⟩ (sessionAliasKinds.map (sessionAlias 1)) .reroute (some "two") false

private def freshCommit : Except AppError SessionRouteActionResponse × Store :=
  let _ := hyphenatedText
  applySessionRouteAction .default 300 freshRequest [1] 2000 2000 twoAccounts

/-- A session that is open on the first account is sent to the second one, and its clients
follow. -/
theorem reroute_reaches_requests_applied :
    let _ := hyphenatedText
    let _ := listedDigests memberDigests
    let _ := unreadable
    (∃ payload, sessionsReroute [freshRollout] 1 "two" false = .ok payload ∧
      SessionRouteActionRequest.fromJson payload = some freshRequest) ∧
    (∃ response, freshCommit.1 = .ok response ∧ response.status = .applied ∧
      response.routeGeneration = 1) ∧
    ReroutedTo ⟨1, [1], 0⟩ 1 2 freshCommit.2 := by
  let _ := hyphenatedText
  let _ := listedDigests memberDigests
  let _ := unreadable
  have htree : discoverTree [freshRollout] 1 = .ok ⟨1, [1], 0⟩ := by decide +kernel
  have haliases : sessionTreeAliases ⟨1, [1], 0⟩ =
      .ok (sessionAliasKinds.map (sessionAlias 1)) := by decide +kernel
  have hsha : ∀ tree, discoverTree [freshRollout] 1 = .ok tree → NoCollisions tree := by
    intro tree hfound
    rw [htree] at hfound
    cases hfound
    exact noCollisions_of_nodup (by decide +kernel)
  have hread : ∃ payload, sessionsReroute [freshRollout] 1 "two" false = .ok payload ∧
      SessionRouteActionRequest.fromJson payload = some freshRequest := by
    have hpayload : ∃ payload, sessionsReroute [freshRollout] 1 "two" false = .ok payload ∧
        sessionActionPayload ⟨1, [1], 0⟩ SessionRouteActionKind.reroute.asStr (some "two") false =
          .ok payload := by
      have hlabel : trim "two" = "two" := by decide +kernel
      unfold sessionsReroute sessionsAction sessionActionPayload
      rw [hlabel, htree, haliases]
      exact ⟨_, rfl, rfl⟩
    obtain ⟨payload, hsent, hbuilt⟩ := hpayload
    obtain ⟨aliases, hlisted, hread⟩ := fromJson_sessionActionPayload hbuilt
    rw [haliases] at hlisted
    cases hlisted
    exact ⟨payload, hsent, hread⟩
  have hcommit : ∃ response, freshCommit.1 = .ok response ∧ response.status = .applied ∧
      response.routeGeneration = 1 := by
    have hanswer : (freshCommit.1.toOption.map fun response ↦
        (response.status, response.routeGeneration)) = some (.applied, 1) := by decide +kernel
    cases hcommit : freshCommit.1 with
    | error e =>
      rw [hcommit] at hanswer
      cases hanswer
    | ok response =>
      rw [hcommit] at hanswer
      have hpair := Option.some.inj hanswer
      exact ⟨response, rfl, congrArg Prod.fst hpair, congrArg Prod.snd hpair⟩
  refine ⟨hread, hcommit, ?_⟩
  obtain ⟨payload, hsent, hrequest⟩ := hread
  obtain ⟨tree, request, hfound, hread, hreroutes⟩ :=
    reroute_reaches_requests (hexDigests_listedDigests (by decide +kernel)) hsent hsha
  rw [htree] at hfound
  cases hfound
  rw [hrequest] at hread
  cases hread
  obtain ⟨response, hanswered, hstatus, hgeneration⟩ := hcommit
  obtain ⟨accountId, -, htarget, hrerouted⟩ := hreroutes.committed twoAccounts twoAccounts_reached
    rfl _ _ _ _ _ response freshCommit.2 (Prod.ext hanswered rfl) (by rw [hstatus]; decide)
  obtain ⟨resolved, hresolved, rfl⟩ := htarget (by rw [hstatus]; decide)
  have htwo : (resolveSessionRouteTarget (trim "two") twoAccounts).toOption.map
      ResolvedSessionRouteTarget.accountId = some 2 := by decide +kernel
  rw [hresolved] at htwo
  have haccount : resolved.accountId = 2 := Option.some.inj htwo
  rwa [hgeneration, haccount] at hrerouted

end CodexLb
