import CodexLb.Route.Reachable

/-!
# Pending actions are replayed

The scheduler retries a pending root with every key mapped to it. The retry
passes the checks on caller-supplied requests exactly while the session fits
into one request.
-/

namespace CodexLb

open Relational Transition

/-- The keys that a session has accumulated. -/
def aliasCount (rootKeyHash : String) (s : Store) : Nat :=
  (s.sessionRouteKeys.select fun _ row ↦ row.rootKeyHash = rootKeyHash).length

section Replay

variable [UuidText] {rootKeyHash : String} {action : SessionRouteActionKind}
  {requestedAccountId : Option Uuid} {s : Store}

/-- A listed request is the command of a stored pending root. -/
theorem mem_listPendingSessionRouteActions {limit : Int} {request : SessionRouteActionRequest}
    (h : request ∈ listPendingSessionRouteActions limit s) :
    ∃ r root action, s.sessionRoots.find r = some root ∧ root.actionStatus = some .pending ∧
      root.lastAction = some action ∧
      request = pendingRequest r action root.requestedAccountId s := by
  unfold listPendingSessionRouteActions at h
  obtain ⟨⟨r, root⟩, hm, hrequest⟩ := List.mem_filterMap.mp h
  obtain ⟨hroot, hpending⟩ := Table.mem_select_iff.mp (mem_of_mem_firstRows hm)
  obtain ⟨action, haction, rfl⟩ := Option.map_eq_some_iff.mp hrequest
  rw [Bool.and_eq_true, decide_eq_true_eq] at hpending
  exact ⟨r, root, action, hroot, hpending.1, haction, rfl⟩

/-- The command of a pending root is listed when no other root is stored. -/
theorem pendingRequest_mem_of_only {root : SessionRoot}
    (hroot : s.sessionRoots.find rootKeyHash = some root)
    (hpending : root.actionStatus = some .pending) (haction : root.lastAction = some action)
    (honly : ∀ r, r ≠ rootKeyHash → s.sessionRoots.find r = none) :
    pendingRequest rootKeyHash action root.requestedAccountId s ∈
      listPendingSessionRouteActions 100 s := by
  let pending := s.sessionRoots.select fun _ root ↦
    root.actionStatus = some .pending && root.lastAction.isSome
  have hmem : (rootKeyHash, root) ∈ pending :=
    Table.mem_select_iff.mpr ⟨hroot, by simp [hpending, haction]⟩
  have hsub : pending.map Prod.fst ⊆ [rootKeyHash] := by
    intro r hr
    obtain ⟨row, hm, rfl⟩ := List.mem_map.mp hr
    rw [List.mem_singleton]
    by_contra hne
    have hstored := (Table.mem_select_iff.mp hm).1
    rw [honly _ hne] at hstored
    cases hstored
  have hlength : pending.length ≤ 1 := by
    have hle := (List.subperm_of_subset (Table.nodup_select _ _) hsub).length_le
    rwa [List.length_map] at hle
  have hlisted : (rootKeyHash, root) ∈ firstRows pendingNotAfter 100 pending :=
    mem_firstRows_of_length_le (Nat.le_trans hlength (by decide)) hmem
  exact List.mem_filterMap.mpr ⟨_, hlisted, by rw [haction]; rfl⟩

/-- A request with more than 500 keys is refused. -/
theorem validateRouteAction_of_length {request : SessionRouteActionRequest}
    (hhash : validAffinityHash request.rootKeyHash = true) (hkeys : 500 < request.keys.length) :
    validateRouteAction request s =
      .error (.badRequest "at most 500 session route keys can be used at once") := by
  rw [validateRouteAction, hhash, validateSessionRouteKeys_of_length hkeys]
  rfl

/-- The keys of a pending command are the stored keys of its root. -/
theorem mem_pendingRequest_keys {key : SessionRouteKey} :
    key ∈ (pendingRequest rootKeyHash action requestedAccountId s).keys ↔
      s.sessionRouteKeys.find key.keyHash = some ⟨rootKeyHash, key.kind⟩ := by
  rw [pendingRequest, List.mem_insertionSort, List.mem_map]
  constructor
  · rintro ⟨⟨k, row⟩, hm, rfl⟩
    obtain ⟨hrow, hr⟩ := Table.mem_select_iff.mp hm
    rw [decide_eq_true_eq] at hr
    rw [← hr]
    exact hrow
  · intro hrow
    exact ⟨(key.keyHash, ⟨rootKeyHash, key.kind⟩), Table.mem_select_iff.mpr ⟨hrow, by simp⟩, rfl⟩

/-- A pending command carries every key of its session. -/
theorem length_pendingRequest_keys :
    (pendingRequest rootKeyHash action requestedAccountId s).keys.length =
      aliasCount rootKeyHash s := by
  rw [pendingRequest, List.length_insertionSort, List.length_map, aliasCount]

/-- No two keys of a pending command share a hash. -/
theorem nodup_pendingRequest_keys :
    ((pendingRequest rootKeyHash action requestedAccountId s).keys.map
      SessionRouteKey.keyHash).Nodup := by
  have hperm := (List.perm_insertionSort (fun a b : SessionRouteKey ↦ a.keyHash ≤ b.keyHash)
    ((s.sessionRouteKeys.select fun _ row ↦ row.rootKeyHash = rootKeyHash).map
      storedRouteKey)).map SessionRouteKey.keyHash
  refine (List.Perm.nodup_iff hperm).mpr ?_
  rw [List.map_map]
  exact Table.nodup_select _ _

/-- A pending command that fits into one request passes every check. -/
theorem validated_pendingRequest (hs : s.RoutesSound) {root : SessionRoot}
    (hroot : s.sessionRoots.find rootKeyHash = some root) (haction : root.lastAction = some action)
    (hcount : aliasCount rootKeyHash s ≤ 500) :
    ∃ inputKeys target, ValidatedAction
      (pendingRequest rootKeyHash action root.requestedAccountId s) inputKeys target s := by
  have hwell : ∀ key ∈ (pendingRequest rootKeyHash action root.requestedAccountId s).keys,
      key.WellFormed := by
    intro key hkey
    have hstored := hs.replayable.wellFormed _ _ (mem_pendingRequest_keys.mp hkey)
    exact hstored
  obtain ⟨inputKeys, hkeys, hsame⟩ := validateSessionRouteKeys_of_wellFormed
    (by rwa [length_pendingRequest_keys]) nodup_pendingRequest_keys hwell
  -- the root is one of its own keys
  obtain ⟨row, hrow, he⟩ := hs.invariant.rootOwnsKey _ _ hroot
  have hself : s.sessionRouteKeys.find rootKeyHash = some ⟨rootKeyHash, row.kind⟩ := by
    rw [hrow, ← he]
  have hown : ⟨rootKeyHash, row.kind⟩ ∈
      (pendingRequest rootKeyHash action root.requestedAccountId s).keys :=
    mem_pendingRequest_keys.mpr hself
  have hrooted : rootKeyHash ∈ inputKeys.hashes := by
    rw [RouteKeys.hashes, hsame]
    exact List.mem_map.mpr ⟨_, hown, rfl⟩
  have hhash := (hs.replayable.wellFormed _ _ hrow).1
  cases hrequested : root.requestedAccountId with
  | none =>
    rw [hrequested] at hkeys
    refine ⟨inputKeys, none, hhash, hkeys, hrooted, fun _ ↦ ⟨rfl, rfl⟩, ?_⟩
    intro hreroute
    cases action with
    | rebalance => cases hreroute
    | reroute => cases hreroute
  | some accountId =>
    rw [hrequested] at hkeys
    have hreroute : action = .reroute := by
      cases action with
      | rebalance =>
        have hnone := hs.replayable.rebalance _ _ hroot haction
        rw [hrequested] at hnone
        cases hnone
      | reroute => rfl
    subst hreroute
    obtain ⟨label, hresolved⟩ := resolveSessionRouteTarget_toText
      (hs.accounts.requested _ _ _ hroot hrequested)
    refine ⟨inputKeys, some ⟨accountId, label⟩, hhash, hkeys, hrooted, ?_, ?_⟩
    · intro hrebalance
      cases hrebalance
    · intro _
      exact ⟨_, _, rfl, rfl, hresolved⟩

/-- A pending action can be replayed exactly while its session has at most 500 keys. -/
theorem pending_action_replayable_iff (hs : s.Reached) {limit : Int}
    {request : SessionRouteActionRequest}
    (h : request ∈ listPendingSessionRouteActions limit s) :
    (∃ validated, validateRouteAction request s = .ok validated) ↔
      aliasCount request.rootKeyHash s ≤ 500 := by
  obtain ⟨r, root, action, hroot, -, haction, rfl⟩ := mem_listPendingSessionRouteActions h
  constructor
  · rintro ⟨⟨inputKeys, target⟩, hv⟩
    by_contra hcount
    have hlong : 500 < (pendingRequest r action root.requestedAccountId s).keys.length := by
      rw [length_pendingRequest_keys]
      exact Nat.lt_of_not_le hcount
    rw [validateRouteAction_of_length (validateRouteAction_ok_iff.mp hv).rootHash hlong] at hv
    cases hv
  · intro hcount
    obtain ⟨inputKeys, target, hv⟩ :=
      validated_pendingRequest hs.routesSound hroot haction hcount
    exact ⟨(inputKeys, target), validateRouteAction_ok_iff.mpr hv⟩

omit [UuidText] in
/-- A reroute that was recorded while both accounts were paused passes every check again. -/
theorem pending_action_replayable_paused : let _ := hyphenatedText
    ∃ validated, validateRouteAction ⟨hexHash 1, [sessionKey], .reroute,
      some (UuidText.toText 2), false⟩ pausedReroute = .ok validated := by
  intro _
  have hfacts : (⟨hexHash 1, [sessionKey], .reroute, some (UuidText.toText 2), false⟩ :
      SessionRouteActionRequest) ∈ listPendingSessionRouteActions 100 pausedReroute ∧
      aliasCount (hexHash 1) pausedReroute ≤ 500 := by decide +kernel
  exact (pending_action_replayable_iff pausedReroute_reached hfacts.1).mpr hfacts.2

/-- A request on a stored root that finds no account is planned as pending. -/
theorem routeActionPlan_pending {settings : RuntimeSettings} {usageRefreshInterval : Nat}
    {request : SessionRouteActionRequest} {inputKeys : RouteKeys} {selectedAt : Instant}
    (liveAccountIds : List Uuid) (hv : ValidatedAction request inputKeys none s)
    (hroot : s.sessionRoots.has request.rootKeyHash = true)
    (hnone : previewSmartAccount settings usageRefreshInterval [] selectedAt s = none) :
    ∃ plan, routeActionPlan settings usageRefreshInterval request liveAccountIds selectedAt s =
      .ok plan ∧ plan.status = .pending := by
  have heffective : effectiveRouteAccount settings usageRefreshInterval none selectedAt s =
      (none, false) := by rw [effectiveRouteAccount, hnone]
  have hplan : ∃ plan, planSessionRouteAction settings usageRefreshInterval request.rootKeyHash
      inputKeys none liveAccountIds selectedAt (s.sessionRoots.has request.rootKeyHash) s =
        .ok plan ∧ plan.status = .pending := by
    simp only [planSessionRouteAction, decideRouteAction, hroot, heffective, Option.any_none,
      Bool.not_true, Bool.false_and, Bool.false_eq_true, if_false, Option.isSome_none]
    exact ⟨_, rfl, rfl⟩
  obtain ⟨plan, hok, hstatus⟩ := hplan
  exact ⟨plan, routeActionPlan_ok_iff.mpr ⟨inputKeys, none, hv, hok⟩, hstatus⟩

end Replay

/-! ### A session that has outgrown one request -/

/-- The bound session after some further turns, each of which adds its response identifier. -/
def answeredSession : Nat → Store
  | 0 => boundSession
  | n + 1 => (bindAffinitiesAtEpoch [⟨hexHash (n + 2), "response_id"⟩] 1
      (some ⟨hexHash 1, 0, hexHash 1⟩) 1000 (answeredSession n)).2

/-- What some turns leave of the session. -/
structure Answered [UuidText] (n : Nat) (s : Store) : Prop where
  reached : s.Reached
  accounts : s.accounts = twoAccounts.accounts
  root : ∃ root, s.sessionRoots.find (hexHash 1) = some root ∧ root.routeGeneration = 0 ∧
    root.lastAction = none
  others : ∀ r, r ≠ hexHash 1 → s.sessionRoots.find r = none
  mapped : ∀ i ≤ n, ∃ row, s.sessionRouteKeys.find (hexHash (i + 1)) = some row ∧
    row.rootKeyHash = hexHash 1

/-- A key that the session has not seen is added to it by a turn. -/
theorem Answered.turn [UuidText] {n : Nat} {s t : Store} (hs : Answered n s)
    (ht : bindAffinitiesAtEpoch [⟨hexHash (n + 2), "response_id"⟩] 1
      (some ⟨hexHash 1, 0, hexHash 1⟩) 1000 s = (.ok true, t)) : Answered (n + 1) t := by
  have hinv := hs.reached.routesSound.invariant
  have hstep : Run Store.Step s [(.bindAffinitiesAtEpoch [⟨hexHash (n + 2), "response_id"⟩] 1
      (some ⟨hexHash 1, 0, hexHash 1⟩), ⟨1000, ""⟩)] t := .single (by rw [Store.Step, Op.exec, ht])
  obtain ⟨root, hroot, hgeneration, haction⟩ := hs.root
  cases bindAffinitiesAtEpoch_outcome hinv ht with
  | refused h => exact absurd rfl h
  | empty hv h =>
    have hin := (mem_hashes_of_validate hv (hexHash (n + 2))).mpr (by simp)
    rw [RouteKeys.hashes, h] at hin
    cases hin
  | unclaimed _ he _ => cases he
  | @atEpoch validated captured stored _ hv he h =>
    cases he
    have hin := (mem_hashes_of_validate hv (hexHash (n + 2))).mpr (by simp)
    have hsame : stored = root := Option.some.inj (h.current.symm.trans hroot)
    subst hsame
    have hkept : BoundAtEpoch.rootAfter 1 1000 stored = stored := by
      rw [BoundAtEpoch.rootAfter, if_neg]
      simp [replacesEffective, haction]
    have hroots : ∀ r, t.sessionRoots.find r = s.sessionRoots.find r := by
      intro r
      rw [h.roots_after, hkept]
      split
      · next he => rw [he, hroot]
      · rfl
    have hhandover := h.handover hinv
    refine ⟨hs.reached.run hstep, hhandover.accounts.trans hs.accounts, ⟨stored, ?_, hgeneration,
      haction⟩, ?_, ?_⟩
    · rw [hroots, hroot]
    · intro r hr
      rw [hroots, hs.others r hr]
    · intro i hi
      have hjoined : hexHash (i + 1) ∈ joinedKeys validated (hexHash 1) s := by
        rcases Nat.lt_or_eq_of_le hi with hlt | rfl
        · exact .inr (hs.mapped i (Nat.le_of_lt_succ hlt))
        · exact .inl hin
      obtain ⟨kind, hrow⟩ := hhandover.mapped _ hjoined
      exact ⟨_, hrow, rfl⟩

/-- A turn of the session is accepted. -/
theorem Answered.accepted [UuidText] {n : Nat} {s : Store} (hs : Answered n s) :
    (bindAffinitiesAtEpoch [⟨hexHash (n + 2), "response_id"⟩] 1
      (some ⟨hexHash 1, 0, hexHash 1⟩) 1000 s).1 = .ok true := by
  have hinv := hs.reached.routesSound.invariant
  obtain ⟨root, hroot, hgeneration, -⟩ := hs.root
  have hwell : ∀ key ∈ [(⟨hexHash (n + 2), "response_id"⟩ : SessionRouteKey)],
      key.WellFormed := by
    intro key hkey
    rw [List.mem_singleton.mp hkey]
    have hkind : validRouteKind "response_id" = true := by decide
    exact ⟨validAffinityHash_hexHash _, hkind⟩
  obtain ⟨validated, hv, hkeys⟩ := validateSessionRouteKeys_of_wellFormed (by simp) (by simp) hwell
  apply bindAffinitiesAtEpoch_current hv (by rw [hkeys]; simp) 1000 hroot hgeneration
  · intro k _ row hrow
    obtain ⟨stored, hstored⟩ := hinv.keyHasRoot k row hrow
    by_contra hne
    rw [hs.others _ hne] at hstored
    cases hstored
  · rw [hs.accounts]
    decide +kernel

/-- Every turn of the session adds one key to it. -/
theorem answeredSession_answered [UuidText] (n : Nat) : Answered n (answeredSession n) := by
  induction n with
  | zero =>
    have hroots : boundSession.sessionRoots = Table.empty.insert (hexHash 1) (.default 1000) := by
      decide +kernel
    refine ⟨boundSession_reached, by decide +kernel, ⟨.default 1000, ?_, rfl, rfl⟩, ?_, ?_⟩
    · change boundSession.sessionRoots.find _ = _
      rw [hroots, Table.find_insert, if_pos rfl]
      rfl
    · intro r hr
      change boundSession.sessionRoots.find _ = _
      rw [hroots, Table.find_insert, if_neg hr]
      rfl
    · intro i hi
      rw [Nat.le_zero.mp hi]
      exact ⟨⟨hexHash 1, "session_id"⟩, by decide +kernel, rfl⟩
  | succ n ih =>
    apply ih.turn
    rw [answeredSession, ← ih.accepted]

/-- A session of `n` turns has more than `n` keys. -/
theorem lt_aliasCount {n : Nat} {s : Store} (hn : n < 16 ^ 63)
    (hmapped : ∀ i ≤ n, ∃ row, s.sessionRouteKeys.find (hexHash (i + 1)) = some row ∧
      row.rootKeyHash = hexHash 1) : n < aliasCount (hexHash 1) s := by
  have hnodup : ((List.range (n + 1)).map fun i ↦ hexHash (i + 1)).Nodup := by
    refine List.Nodup.map_on ?_ List.nodup_range
    intro i hi j hj he
    rw [List.mem_range] at hi hj
    have := hexHash_injOn (by omega) (by omega) he
    omega
  have hsub : ((List.range (n + 1)).map fun i ↦ hexHash (i + 1)) ⊆
      (s.sessionRouteKeys.select fun _ row ↦ row.rootKeyHash = hexHash 1).map Prod.fst := by
    intro k hk
    obtain ⟨i, hi, rfl⟩ := List.mem_map.mp hk
    obtain ⟨row, hrow, hr⟩ := hmapped i (Nat.le_of_lt_succ (List.mem_range.mp hi))
    exact List.mem_map.mpr ⟨(_, row), Table.mem_select_iff.mpr ⟨hrow, by simpa using hr⟩, rfl⟩
  have hle := (List.subperm_of_subset hnodup hsub).length_le
  rw [List.length_map, List.length_map, List.length_range] at hle
  exact hle

/-- The command that rebalances the session. -/
def rebalanceSession : SessionRouteActionRequest where
  rootKeyHash := sessionKey.keyHash
  keys := [sessionKey]
  action := .rebalance
  target := none
  dryRun := false

/-- The store after the session was rebalanced while both accounts were paused. -/
def strandSession (s : Store) : Store :=
  (@applySessionRouteAction hyphenatedText .default 300 rebalanceSession [] 2000 2000
    (setAccounts "paused" s)).2

private theorem pauseAccounts_eq {s : Store} (h : s.accounts = twoAccounts.accounts) :
    setAccounts "paused" s =
      { s with accounts := (setAccounts "paused" twoAccounts).accounts } := by
  obtain ⟨accounts, runtime, windows, samples, snapshots, logs, affinity, roots, routeKeys⟩ := s
  cases h
  rfl

private theorem paused_of_find : ∀ row ∈ (setAccounts "paused" twoAccounts).accounts.rows,
    row.2.status ≠ .active := by
  decide +kernel

private theorem noAccount_of_paused {s : Store} (h : s.accounts = twoAccounts.accounts)
    (settings : RuntimeSettings) (usageRefreshInterval : Nat) (selectedAt : Instant) :
    previewSmartAccount settings usageRefreshInterval [] selectedAt
      (setAccounts "paused" s) = none := by
  cases hp : previewSmartAccount settings usageRefreshInterval [] selectedAt
      (setAccounts "paused" s) with
  | none => rfl
  | some accountId =>
    obtain ⟨account, _, ha, -, hactive, -⟩ :=
      accountIsEligible_iff.mp (previewSmartAccount_eligible hp).1
    rw [pauseAccounts_eq h] at ha
    exact absurd hactive (paused_of_find _ (Table.mem_rows_iff.mpr ha))

private theorem rebalance_validated [UuidText] (s : Store) :
    ∃ inputKeys, ValidatedAction rebalanceSession inputKeys none s := by
  have hwell : ∀ key ∈ [sessionKey], key.WellFormed := by
    intro key hkey
    rw [List.mem_singleton.mp hkey]
    exact ⟨validAffinityHash_hexHash 1, by decide⟩
  obtain ⟨inputKeys, hkeys, hsame⟩ :=
    validateSessionRouteKeys_of_wellFormed (by decide) (by simp) hwell
  have hrooted : hexHash 1 ∈ inputKeys.hashes := by
    rw [RouteKeys.hashes, hsame]
    exact List.mem_singleton_self _
  have hkind : rebalanceSession.action ≠ .reroute := by decide
  exact ⟨inputKeys, validAffinityHash_hexHash 1, hkeys, hrooted, fun _ ↦ ⟨rfl, rfl⟩,
    fun h ↦ absurd h hkind⟩

/-- Rebalancing a session while no account is available leaves it pending, with all its keys. -/
private theorem stranded {n : Nat} {s : Store} (hs : @Answered hyphenatedText n s) :
    @Store.Reached hyphenatedText (strandSession s) ∧
      (∀ i ≤ n, ∃ row, (strandSession s).sessionRouteKeys.find (hexHash (i + 1)) = some row ∧
        row.rootKeyHash = hexHash 1) ∧
      ∃ root, (strandSession s).sessionRoots.find (hexHash 1) = some root ∧
        root.actionStatus = some .pending ∧ root.lastAction = some .rebalance ∧
        ∀ r, r ≠ hexHash 1 → (strandSession s).sessionRoots.find r = none := by
  let _ := hyphenatedText
  have hpaused := pauseAccounts_eq hs.accounts
  have hnone := noAccount_of_paused hs.accounts .default 300 2000
  obtain ⟨inputKeys, hv⟩ := rebalance_validated (setAccounts "paused" s)
  obtain ⟨root, hroot, -, -⟩ := hs.root
  have hhas : (setAccounts "paused" s).sessionRoots.has (hexHash 1) = true := by
    rw [hpaused]
    exact Table.has_iff.mpr ⟨root, hroot⟩
  obtain ⟨plan, hplan, hstatus⟩ := routeActionPlan_pending [] hv hhas hnone
  obtain ⟨inputKeys, target, hc⟩ := committed_of_plan rfl hplan 2000
  change Committed .default 300 rebalanceSession [] 2000 2000 inputKeys target plan
    (setAccounts "paused" s) (strandSession s) at hc
  have hrun : Run Store.Step s
      [(.updateAccount 1 (some "paused") none none none, ⟨1500, ""⟩),
        (.updateAccount 2 (some "paused") none none none, ⟨1500, ""⟩),
        (.applySessionRouteAction .default 300 rebalanceSession [] 2000, ⟨2000, ""⟩)]
      (strandSession s) := .cons rfl (.cons rfl (.single rfl))
  refine ⟨hs.reached.run hrun, ?_, commandedRoot .rebalance plan 2000, ?_, ?_, rfl, ?_⟩
  · intro i hi
    obtain ⟨row, hrow, hr⟩ := hs.mapped i hi
    have hcovered : hexHash (i + 1) ∈ hc.covered := by
      refine mem_coveredKeys_iff.mpr (.inr ⟨row, ?_, ?_⟩)
      · rw [hpaused]
        exact hrow
      · exact mem_coveredRoots_iff.mpr (.inl hr)
    obtain ⟨key, -, -, hfind⟩ := hc.routeKeys_of_mem hcovered
    exact ⟨_, hfind, rfl⟩
  · exact hc.handover.installed
  · exact congrArg some hstatus
  · intro r hr
    have hne : r ≠ rebalanceSession.rootKeyHash := hr
    rw [hc.roots, if_neg hne]
    split
    · rfl
    · rw [hpaused]
      exact hs.others r hr

/-- A pending action cannot be replayed once its session has outgrown one request: the 501 keys
of the session are refused as a bad request. -/
theorem pending_action_not_replayable :
    let _ := hyphenatedText
    (strandSession (answeredSession 500)).Reached ∧
      ∃ request ∈ listPendingSessionRouteActions 100 (strandSession (answeredSession 500)),
        validateRouteAction request (strandSession (answeredSession 500)) =
          .error (.badRequest "at most 500 session route keys can be used at once") := by
  let _ := hyphenatedText
  obtain ⟨hreached, hmapped, root, hroot, hpending, haction, hothers⟩ :=
    stranded (answeredSession_answered 500)
  have hcount := lt_aliasCount (by decide) hmapped
  generalize strandSession (answeredSession 500) = s at *
  refine ⟨hreached, pendingRequest (hexHash 1) .rebalance root.requestedAccountId s, ?_, ?_⟩
  · exact pendingRequest_mem_of_only hroot hpending haction hothers
  · apply validateRouteAction_of_length
    · exact validAffinityHash_hexHash 1
    · rw [length_pendingRequest_keys]
      exact hcount

end CodexLb
