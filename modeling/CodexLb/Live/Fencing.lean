import CodexLb.Live.System
import CodexLb.Route.Fencing
import CodexLb.Websocket.Relay

/-!
# Fencing at the wire

A transport binds with the epoch that it captured before it forwards a request.
Once a command has superseded the capture, the transport forwards at most the
request that had passed its check before the commit, and its next request ends
it with a notice to connect again.
-/

namespace CodexLb.Live

open Transition Websocket

/-! ### Captures -/

section Captures

variable {keys : List SessionRouteKey} {captured : Option SessionRouteEpoch} {s t : Store}

/-- A capture whose keys are valid and whose root has not fallen behind it. -/
structure Captured (keys : List SessionRouteKey) (captured : Option SessionRouteEpoch)
    (s : Store) : Prop where
  valid : ∃ validated, validateSessionRouteKeys keys = .ok validated ∧
    (captured.isSome = true → validated.keys ≠ [])
  kept : ∀ epoch, captured = some epoch → ∃ g, s.generation epoch.rootKeyHash = some g ∧
    epoch.routeGeneration ≤ g

/-- A capture that was taken over: its root has moved on, or one of its keys has received a
command. -/
def Outdated (keys : List SessionRouteKey) (captured : Option SessionRouteEpoch) (s : Store) :
    Prop :=
  match captured with
  | some epoch => ∃ g, s.generation epoch.rootKeyHash = some g ∧ epoch.routeGeneration < g
  | none => ∃ key ∈ keys, s.Commanded key.keyHash

/-- What a request captures is a capture. -/
theorem captured_of_resolve (hs : s.RoutesSound)
    (h : resolveSessionRouteEpoch keys s = .ok captured) : Captured keys captured s := by
  cases captured with
  | none =>
    refine ⟨?_, fun epoch he ↦ by cases he⟩
    cases hv : validateSessionRouteKeys keys with
    | error e => rw [resolveSessionRouteEpoch, hv] at h; cases h
    | ok validated => exact ⟨validated, rfl, fun hsome ↦ by cases hsome⟩
  | some epoch =>
    obtain ⟨validated, hv, routed, hrouted, rfl⟩ := resolveSessionRouteEpoch_some h
    obtain ⟨hin, -, hroot⟩ := mem_routedKeys_iff.mp hrouted
    refine ⟨⟨validated, hv, fun _ hempty ↦ ?_⟩, ?_⟩
    · rw [RouteKeys.hashes, hempty] at hin
      cases hin
    · rintro _ ⟨⟩
      refine ⟨routed.root.routeGeneration, ?_, Nat.le_refl _⟩
      rw [Store.generation, Store.route, hs.invariant.rootOf_self hroot]
      rfl

variable [UuidText] {ops : List (Op × Clock)}

/-- A capture stays one along every run. -/
theorem Captured.run (h : Captured keys captured s) (hs : s.RoutesSound)
    (hrun : Run Store.Step s ops t) : Captured keys captured t := by
  refine ⟨h.valid, fun epoch he ↦ ?_⟩
  obtain ⟨g, hg, hle⟩ := h.kept epoch he
  obtain ⟨g', hg', hle'⟩ := hs.forward hrun _ _ hg
  exact ⟨g', hg', Nat.le_trans hle hle'⟩

/-- A capture that was taken over stays so along every run. -/
theorem Outdated.run (h : Outdated keys captured s) (hs : s.RoutesSound)
    (hrun : Run Store.Step s ops t) : Outdated keys captured t := by
  cases captured with
  | some epoch =>
    obtain ⟨g, hg, hlt⟩ := h
    obtain ⟨g', hg', hle⟩ := hs.forward hrun _ _ hg
    exact ⟨g', hg', Nat.lt_of_lt_of_le hlt hle⟩
  | none =>
    obtain ⟨key, hkey, hc⟩ := h
    exact ⟨key, hkey, hs.commanded hrun hc⟩

omit [UuidText] in
/-- A bind with a capture that was taken over is refused and changes nothing. -/
theorem Captured.refused (h : Captured keys captured s) (hs : s.RouteInvariant)
    (hout : Outdated keys captured s) (accountId : Uuid) (now : Instant) :
    bindAffinitiesAtEpoch keys accountId captured now s = (.ok false, s) := by
  obtain ⟨validated, hv, hne⟩ := h.valid
  cases captured with
  | some epoch =>
    obtain ⟨g, hg, hlt⟩ := hout
    apply bindAffinitiesAtEpoch_stale hv (hne rfl)
    intro root hfind he
    have hsame : s.generation epoch.rootKeyHash = some root.routeGeneration := by
      rw [Store.generation, Store.route, hs.rootOf_self hfind]
      rfl
    rw [hg, Option.some.injEq] at hsame
    omega
  | none =>
    obtain ⟨key, hkey, hc⟩ := hout
    have hin : key.keyHash ∈ validated.hashes :=
      (mem_hashes_of_validate hv _).mpr (List.mem_map.mpr ⟨key, hkey, rfl⟩)
    exact bindAffinitiesAtEpoch_commanded hs hv hin hc accountId now

/-- A committed command that supersedes a capture takes it over. -/
theorem Captured.outdated {settings : RuntimeSettings} {usageRefreshInterval : Nat}
    {request : SessionRouteActionRequest} {liveAccountIds : List Uuid} {selectedAt now : Instant}
    {plan : RoutePlan} (h : Captured keys captured s) (hdry : request.dryRun = false)
    (hplan : routeActionPlan settings usageRefreshInterval request liveAccountIds selectedAt s =
      .ok plan) (hsuper : Supersedes request plan s keys captured) :
    Outdated keys captured (applySessionRouteAction settings usageRefreshInterval request
      liveAccountIds selectedAt now s).2 := by
  obtain ⟨inputKeys, target, hc⟩ := committed_of_plan hdry hplan now
  cases captured with
  | some epoch =>
    obtain ⟨hm, hcover⟩ := hsuper
    obtain ⟨g, hg, hle⟩ := h.kept epoch rfl
    rw [← hc.covered_eq] at hcover
    obtain ⟨g', hg', hlt⟩ := hc.generation_lt hm hcover hg
    exact ⟨g', hg', Nat.lt_of_le_of_lt hle hlt⟩
  | none =>
    obtain ⟨key, hkey, hcover⟩ := hsuper
    rw [← hc.covered_eq] at hcover
    exact ⟨key, hkey, hc.commanded hcover⟩

end Captures

/-! ### Requests on the wire -/

section Requests

variable [JsonText]

/-- A message to the upstream that is a request. -/
def isRequest : UpstreamMessage → Bool
  | .text content => (parseResponseCreate content "").isSome
  | _ => false

/-- How many requests were written to the upstream among some effects. -/
def requestsWritten (effects : List BridgeEffect) : Nat :=
  (upstreamWrites effects).countP fun write ↦ isRequest write.1

/-- How many requests a transport has written to the upstream. -/
def Transport.requestsSent (transport : Transport) : Nat :=
  (transport.stage.bridge.map fun bridge ↦ requestsWritten bridge.trace).getD 0

omit [JsonText] in
/-- How many requests of a transport have passed their check and are not written yet. -/
def Transport.cleared (transport : Transport) : Nat :=
  match transport.stage with
  | .serving _ _ _ (.checked _ (.ok true)) => 1
  | _ => 0

private theorem isSome_request (message : ClientMessage) (freshId otherId : String) :
    (message.request freshId).isSome = (message.request otherId).isSome := by
  cases message with
  | text content =>
    simp only [ClientMessage.request, parseResponseCreate, Option.isSome_bind]
    congr 1
    funext value
    split <;> rfl
  | _ => rfl

/-- A request that goes upstream is a request of the client. -/
theorem isRequest_toUpstreamMessage (message : ClientMessage) (freshId : String) :
    isRequest (toUpstreamMessage message) = (message.request freshId).isSome := by
  rw [isSome_request message freshId ""]
  cases message <;> rfl

variable [Sha256] {config : BridgeConfig} {answers : BridgeAnswers} {b : Bridge}

/-- A pass writes upstream the message of the client that passes, and nothing else. -/
theorem upstreamWrites_next (config : BridgeConfig) (answers : BridgeAnswers) (b : Bridge)
    (input : BridgeInput) :
    (∃ message, input = .client message ∧ Passes config answers message ∧
      upstreamWrites (b.next config ⟨input, answers⟩).trace =
        upstreamWrites b.trace ++ [(toUpstreamMessage message, answers.written)]) ∨
    upstreamWrites (b.next config ⟨input, answers⟩).trace = upstreamWrites b.trace := by
  have hnext : upstreamWrites (b.next config ⟨input, answers⟩).trace =
      upstreamWrites b.trace ++ upstreamWrites (handle config answers input b.state).effects := by
    unfold Bridge.next
    dsimp only
    split
    · exact upstreamWrites_append
    · rw [upstreamWrites_append, upstreamWrites_append, (closeBridge_writes ..).1, List.append_nil]
  rw [hnext]
  cases input with
  | client message =>
    by_cases hpasses : Passes config answers message
    · refine .inl ⟨message, rfl, hpasses, ?_⟩
      rw [← (handleClient_carries hpasses b.state).upstream]
      rfl
    · right
      have hup := (handleClient_refused hpasses b.state).1.carries.upstream
      change upstreamWrites b.trace ++
        upstreamWrites (handleClient config answers message b.state).effects = _
      rw [hup, List.append_nil]
  | upstream message =>
    right
    have hup : upstreamWrites (handleUpstream config answers message b.state).effects = [] := by
      by_cases hback : HeldBack message
      · exact (handleUpstream_refused config answers hback b.state).1.carries.upstream
      · exact (handleUpstream_carries config answers hback b.state).upstream
    change upstreamWrites b.trace ++
      upstreamWrites (handleUpstream config answers message b.state).effects = _
    rw [hup, List.append_nil]
  | _ => exact .inr (List.append_nil _)

/-- A pass writes one request at most. -/
theorem requestsWritten_next_le (config : BridgeConfig) (answers : BridgeAnswers) (b : Bridge)
    (input : BridgeInput) :
    requestsWritten (b.next config ⟨input, answers⟩).trace ≤ requestsWritten b.trace + 1 := by
  rw [requestsWritten, requestsWritten]
  rcases upstreamWrites_next config answers b input with
    ⟨message, -, -, hup⟩ | hup
  · rw [hup, List.countP_append]
    have hone := List.countP_le_length (p := fun write : UpstreamMessage × WriteOutcome ↦
      isRequest write.1) (l := [(toUpstreamMessage message, answers.written)])
    rw [List.length_singleton] at hone
    omega
  · rw [hup]
    omega

/-- A pass writes no request unless it is one that passes. -/
theorem requestsWritten_next_eq (input : BridgeInput)
    (h : ∀ message request, input = .client message →
      message.request answers.freshId = some request → ¬ Passes config answers message) :
    requestsWritten (b.next config ⟨input, answers⟩).trace = requestsWritten b.trace := by
  rw [requestsWritten, requestsWritten]
  rcases upstreamWrites_next config answers b input with
    ⟨message, hinput, hpasses, hup⟩ | hup
  · have hnone : message.request answers.freshId = none := by
      rw [Option.eq_none_iff_forall_ne_some]
      intro request hrequest
      exact h message request hinput hrequest hpasses
    have hplain : isRequest (toUpstreamMessage message) = false := by
      rw [isRequest_toUpstreamMessage message answers.freshId, hnone]
      rfl
    rw [hup, List.countP_append, List.countP_singleton, hplain]
    rfl
  · rw [hup]

end Requests

/-! ### Runs -/

section Runs

variable [UuidText] [JsonText] [Sha256] {live live' : System} {action : Action}

/-- The store of a step is written by operations of the store. -/
theorem System.Step.storeRun (h : System.Step live action live') :
    ∃ ops, Run Store.Step live.store ops live'.store := by
  cases h with
  | operate op now => exact ⟨[(op, now)], .single rfl⟩
  | check now found serving routed requested =>
    exact ⟨[(.bindAffinitiesAtEpoch _ _ _, now)], .single rfl⟩
  | @commit _ _ request settings usageRefreshInterval liveAccountIds selectedAt now _ _ _ applied =>
    refine ⟨[(.applySessionRouteAction settings usageRefreshInterval request liveAccountIds
      selectedAt, now)], .single ?_⟩
    exact congrArg Prod.snd applied
  | _ => exact ⟨[], .nil _⟩

/-- A check in hand was in hand before, or refused the route. -/
def Stage.CheckedSince (before after : Stage) : Prop :=
  ∀ accountId token bridge message bound,
    after = .serving accountId token bridge (.checked message bound) →
    after = before ∨ bound = .ok false

/-- A transport whose capture was taken over, since some state of it. -/
structure Fenced (i : Nat) (before : Transport) (live : System) : Prop where
  sound : live.store.RoutesSound
  captured : Captured before.affinities before.routeEpoch live.store
  outdated : Outdated before.affinities before.routeEpoch live.store
  sent : ∃ stage, live.transports i = some (before.at stage) ∧
    (before.at stage).requestsSent + (before.at stage).cleared ≤
      before.requestsSent + before.cleared ∧
    before.stage.CheckedSince stage

omit [UuidText] [JsonText] [Sha256] in
/-- A capture that was taken over has keys. -/
theorem Captured.ne_nil {keys : List SessionRouteKey} {captured : Option SessionRouteEpoch}
    {s : Store} (h : Captured keys captured s) (hout : Outdated keys captured s) : keys ≠ [] := by
  rintro rfl
  cases captured with
  | none =>
    obtain ⟨key, hkey, -⟩ := hout
    cases hkey
  | some epoch =>
    obtain ⟨validated, hv, hne⟩ := h.valid
    cases hv
    exact hne rfl rfl

omit [UuidText] [Sha256] in
/-- A request of a transport with affinities passes only under an accepted bind. -/
theorem not_passes {config : BridgeConfig} {answers : BridgeAnswers} {message : ClientMessage}
    {request : ParsedRequest} (hrequest : message.request answers.freshId = some request)
    (hrouted : config.affinities ≠ [])
    (h : answers.available = .ok true → answers.bound ≠ .ok true) :
    ¬ Passes config answers message := by
  intro hpasses
  obtain ⟨havailable, hbound⟩ := hpasses request hrequest
  exact h havailable (hbound hrouted)

/-- A fenced transport sends no more than the request that had passed its check. -/
theorem Fenced.step {i : Nat} {before : Transport} (h : Fenced i before live)
    (hstep : System.Step live action live') : Fenced i before live' := by
  obtain ⟨ops, hrun⟩ := hstep.storeRun
  have hsound : live'.store.RoutesSound := hrun.invariant (fun _ _ _ hs hstep ↦ hs.step hstep)
    h.sound
  have hne := h.captured.ne_nil h.outdated
  obtain ⟨stage, hfound, hsent, hchecked⟩ := h.sent
  obtain ⟨next, hnext, hchange⟩ := hstep.stageChange hfound
  refine ⟨hsound, h.captured.run h.sound hrun, h.outdated.run h.sound hrun, next, hnext, ?_⟩
  have hquiet : (before.at next).requestsSent ≤ (before.at stage).requestsSent →
      (before.at next).cleared = 0 → before.stage.CheckedSince next →
      (before.at next).requestsSent + (before.at next).cleared ≤
        before.requestsSent + before.cleared ∧ before.stage.CheckedSince next := by
    intro hle hcleared hsince
    exact ⟨by omega, hsince⟩
  cases hchange with
  | rest => exact ⟨hsent, hchecked⟩
  | connect accountId reason opening =>
    exact hquiet (Nat.zero_le _) rfl (fun _ _ _ _ _ he ↦ by cases he)
  | receive serving polled =>
    change stage = _ at serving
    subst serving
    exact hquiet (Nat.le_refl _) rfl (fun _ _ _ _ _ he ↦ by cases he)
  | @check accountId token bridge message now serving =>
    change stage = _ at serving
    subst serving
    have hbound := congrArg Prod.fst
      (h.captured.refused h.sound.invariant h.outdated accountId now.instant)
    refine hquiet (Nat.le_refl _) ?_ (fun _ _ _ _ _ he ↦ .inr ?_)
    · rw [Transport.cleared]
      change (match Stage.serving accountId token bridge (.checked message
        (bindAffinitiesAtEpoch before.affinities accountId before.routeEpoch now.instant
          live.store).1) with
        | .serving _ _ _ (.checked _ (.ok true)) => 1
        | _ => 0) = 0
      rw [hbound]
    · cases he
      exact hbound
  | @finish accountId token bridge input answers serving unbound =>
    change stage = _ at serving
    subst serving
    refine hquiet (Nat.le_of_eq ?_) rfl (fun _ _ _ _ _ he ↦ by cases he)
    apply requestsWritten_next_eq
    intro message request hinput hrequest
    apply not_passes hrequest hne
    intro havailable
    exact absurd ⟨hne, havailable, message, request, hinput, hrequest⟩ unbound
  | @finishChecked accountId token bridge message bound answers serving answered =>
    change stage = _ at serving
    subst serving
    by_cases hbound : bound = .ok true
    · subst hbound
      have hle := requestsWritten_next_le (before.config accountId) answers bridge (.client message)
      exact ⟨Nat.le_trans hle hsent, fun _ _ _ _ _ he ↦ by cases he⟩
    · refine hquiet (Nat.le_of_eq ?_) rfl (fun _ _ _ _ _ he ↦ by cases he)
      apply requestsWritten_next_eq
      intro other request _ hrequest
      apply not_passes hrequest hne
      rw [answered]
      exact fun _ ↦ hbound
  | hangUp serving =>
    change stage = _ at serving
    subst serving
    exact hquiet (Nat.le_refl _) rfl (fun _ _ _ _ _ he ↦ by cases he)

/-- The routes are sound, and every transport holds a capture. -/
structure System.Sound (live : System) : Prop where
  routes : live.store.RoutesSound
  captured : ∀ i transport, live.transports i = some transport →
    Captured transport.affinities transport.routeEpoch live.store

/-- A new transport holds what its request has captured. -/
theorem System.Step.accepted (h : System.Step live action live') {i : Nat}
    (hfree : live.transports i = none) {transport : Transport}
    (hfound : live'.transports i = some transport) :
    live'.store = live.store ∧ transport.stage = .opening ∧
      resolveSessionRouteEpoch transport.affinities live.store = .ok transport.routeEpoch := by
  have hstays : ∀ {other : Nat} {moved next : Transport}, live.transports other = some moved →
      (live.setTransport other next).transports i ≠ some transport := by
    intro other moved next found he
    have hi : i ≠ other := by
      rintro rfl
      rw [hfree] at found
      cases found
    rw [System.setTransport_ne live hi, hfree] at he
    cases he
  cases h with
  | operate | snapshot | commit | signal => cases hfree.symm.trans hfound
  | @accept other affinities routeEpoch free captured =>
    by_cases hi : i = other
    · subst hi
      rw [System.setTransport_self] at hfound
      cases hfound
      exact ⟨rfl, rfl, captured⟩
    · cases (System.setTransport_ne live hi _).symm.trans hfound |>.symm.trans hfree
  | connect _ _ found => exact absurd hfound (hstays found)
  | receive found => exact absurd hfound (hstays found)
  | check _ found => exact absurd hfound (hstays found)
  | finish found => exact absurd hfound (hstays found)
  | finishChecked found => exact absurd hfound (hstays found)
  | hangUp found => exact absurd hfound (hstays found)

/-- Every step keeps the routes and the captures sound. -/
theorem System.Sound.step (h : live.Sound) (hstep : System.Step live action live') :
    live'.Sound := by
  obtain ⟨ops, hrun⟩ := hstep.storeRun
  have hroutes : live'.store.RoutesSound :=
    hrun.invariant (fun _ _ _ hs hstep ↦ hs.step hstep) h.routes
  refine ⟨hroutes, fun i transport hfound ↦ ?_⟩
  cases hbefore : live.transports i with
  | none =>
    obtain ⟨hstore, -, hcaptured⟩ := hstep.accepted hbefore hfound
    rw [hstore]
    exact captured_of_resolve h.routes hcaptured
  | some before =>
    obtain ⟨stage, hafter, -⟩ := hstep.stageChange hbefore
    cases hafter.symm.trans hfound
    exact (h.captured i before hbefore).run h.routes hrun

/-- The routes and the captures are sound along every run of the system. -/
theorem System.sound {store : Store} (hstore : store.Reached) {actions : List Action}
    (h : Run System.Step (.start store) actions live) : live.Sound := by
  refine h.invariant (fun _ _ _ hs hstep ↦ hs.step hstep) ⟨hstore.routesSound, ?_⟩
  intro i transport hfound
  cases hfound

/-- A command that supersedes the capture of a transport fences the transport when it commits. -/
theorem System.Sound.fenced (h : live.Sound) {i j : Nat} {before : Transport} {origin : Origin}
    {request : SessionRouteActionRequest} {settings : RuntimeSettings}
    {usageRefreshInterval : Nat} {liveAccountIds : List Uuid} {selectedAt : Instant} {now : Clock}
    {plan : RoutePlan} (hfound : live.transports i = some before)
    (hcommand : live.commands j = some ⟨origin, request, .snapshotted liveAccountIds.toFinset⟩)
    (hdry : request.dryRun = false)
    (hplan : routeActionPlan settings usageRefreshInterval request liveAccountIds selectedAt
      live.store = .ok plan)
    (hsuper : Supersedes request plan live.store before.affinities before.routeEpoch)
    (hcommit : System.Step live (.commit j settings usageRefreshInterval liveAccountIds selectedAt
      now) live') : Fenced i before live' := by
  have hsound := h.step hcommit
  have hcaptured := h.captured i before hfound
  cases hcommit with
  | @commit _ origin' request' _ _ _ _ _ response store found applied =>
    cases hcommand.symm.trans found
    have hstore := congrArg Prod.snd applied
    change _ = store at hstore
    subst hstore
    refine ⟨hsound.routes, hsound.captured i before hfound,
      hcaptured.outdated hdry hplan hsuper, before.stage, hfound, Nat.le_refl _, ?_⟩
    exact fun _ _ _ _ _ _ ↦ .inl rfl

/-- Fencing at the wire: once a command has superseded the capture of a transport, the transport
sends upstream at most the request that had passed its check before the commit, and the next
request whose turn is started ends it and tells Codex to connect again. -/
theorem superseded_transport_fenced {store : Store} (hstore : store.Reached)
    {actions more : List Action} {live committed live' : System}
    (hreach : Run System.Step (.start store) actions live) {i j : Nat} {before : Transport}
    {origin : Origin} {request : SessionRouteActionRequest} {settings : RuntimeSettings}
    {usageRefreshInterval : Nat} {liveAccountIds : List Uuid} {selectedAt : Instant} {now : Clock}
    {plan : RoutePlan} (hfound : live.transports i = some before)
    (hcommand : live.commands j = some ⟨origin, request, .snapshotted liveAccountIds.toFinset⟩)
    (hdry : request.dryRun = false)
    (hplan : routeActionPlan settings usageRefreshInterval request liveAccountIds selectedAt
      live.store = .ok plan)
    (hsuper : Supersedes request plan live.store before.affinities before.routeEpoch)
    (hcommit : System.Step live (.commit j settings usageRefreshInterval liveAccountIds selectedAt
      now) committed) (hrun : Run System.Step committed more live') :
    ∃ stage, live'.transports i = some (before.at stage) ∧
      (before.at stage).requestsSent ≤ before.requestsSent + before.cleared ∧
      ∀ accountId token bridge message bound,
        stage = .serving accountId token bridge (.checked message bound) → stage ≠ before.stage →
        ∀ answers next, System.Step live' (.finish i answers) next →
          ∃ ended, next.transports i =
              some (before.at (.serving accountId token ended .waiting)) ∧
            ended.returned = true ∧ upstreamWrites ended.trace = upstreamWrites bridge.trace ∧
            clientWrites ended.trace =
              clientWrites bridge.trace ++ [(reconnectNotice true, answers.notified)] := by
  have hfenced : Fenced i before live' := hrun.invariant (fun _ _ _ hs hstep ↦ hs.step hstep)
    ((System.sound hstore hreach).fenced hfound hcommand hdry hplan hsuper hcommit)
  obtain ⟨stage, hafter, hsent, hchecked⟩ := hfenced.sent
  refine ⟨stage, hafter, by omega, ?_⟩
  rintro accountId token bridge message bound rfl hsince answers next hstep
  have hbound : bound = .ok false := (hchecked _ _ _ _ _ rfl).resolve_left hsince
  cases hstep with
  | @finish _ transport _ _ _ _ _ found serving unbound =>
    cases hafter.symm.trans found
    cases serving
  | @finishChecked _ transport _ _ _ _ _ _ found serving binds answered =>
    cases hafter.symm.trans found
    cases serving
    obtain ⟨hrouted, havailable, other, request, hinput, hrequest⟩ := binds
    cases hinput
    have hmoved : (before.config accountId).affinities ≠ [] := hrouted
    obtain ⟨hreturned, hup, hclient⟩ := next_refused hrequest havailable hmoved
      (answered.trans hbound) bridge
    exact ⟨_, System.setTransport_self .., hreturned, hup, hclient⟩

end Runs

/-! ### A transport that is rerouted -/

/-- The capture of the bound session. -/
def boundEpoch : SessionRouteEpoch := ⟨hexHash 1, 0, hexHash 1⟩

/-- A transport of the bound session. -/
def boundTransport (stage : Stage) : Transport := ⟨[sessionKey], some boundEpoch, stage⟩

/-- A transport of the bound session on the first account. -/
def connectedSession : System :=
  let opened := (System.start boundSession).setTransport 0 (boundTransport .opening)
  { opened.setTransport 0 (boundTransport (.serving 1
      (opened.registered (boundTransport .opening) 1).2 (.start .sticky) .waiting)) with
    registry := (opened.registered (boundTransport .opening) 1).1 }

/-- A command is about to send the session to the second account. -/
def beforeReroute : System :=
  connectedSession.setCommand 0
    ⟨.operator, rerouteSession "two" false, .snapshotted [1].toFinset⟩

/-- The command has committed. -/
def afterReroute : System :=
  { beforeReroute.setCommand 0 ⟨.operator, rerouteSession "two" false,
      .committed (reroutePlan.response (rerouteSession "two" false))⟩ with
    store := reroutedSession boundSession [1] }

/-- The session with its transport and the command is reached. -/
theorem beforeReroute_run : let _ := hyphenatedText
    let _ := overlapReader
    let _ := overlapDigests
    Run (guarded System.Step FreshToken) (.start boundSession) [.accept 0 [sessionKey],
      .connect 0 1 .sticky, .snapshot 0 .operator (rerouteSession "two" false)] beforeReroute := by
  intro _ _ _
  have hcaptured : resolveSessionRouteEpoch [sessionKey] boundSession = .ok (some boundEpoch) := by
    decide +kernel
  have hadmitted : admitted (rerouteSession "two" false) = .ok () := by decide +kernel
  have haccounts : (connectedSession.registry.snapshot (rerouteSession "two" false).rootKeyHash
      (candidateHashes (rerouteSession "two" false))).accountIds = [1].toFinset := by
    decide +kernel
  have hsnapshot := @System.Step.snapshot _ _ _ connectedSession 0 .operator
    (rerouteSession "two" false) rfl fun _ ↦ hadmitted
  rw [haccounts] at hsnapshot
  exact .cons ⟨trivial, .accept rfl hcaptured⟩ (.cons ⟨rfl, .connect 1 .sticky
    (System.setTransport_self ..) rfl⟩ (.single ⟨trivial, hsnapshot⟩))

/-- The command commits. -/
theorem afterReroute_step : let _ := hyphenatedText
    let _ := overlapReader
    let _ := overlapDigests
    System.Step beforeReroute (.commit 0 .default 300 [1] 2000 ⟨2000, ""⟩) afterReroute := by
  intro _ _ _
  have happlied : applySessionRouteAction .default 300 (rerouteSession "two" false) [1] 2000 2000
      boundSession = (.ok (reroutePlan.response (rerouteSession "two" false)),
        reroutedSession boundSession [1]) := Prod.ext (by decide +kernel) rfl
  exact .commit rfl happlied

/-- A request that comes after the reroute is not sent to the account that the session has left:
its transport ends and tells Codex to connect again. -/
theorem superseded_transport_fenced_rerouted : let _ := hyphenatedText
    let _ := overlapReader
    let _ := overlapDigests
    ∃ live ended, Run System.Step beforeReroute
        [.commit 0 .default 300 [1] 2000 ⟨2000, ""⟩,
          .receive 0 (.client (.text (createText "turn-1"))), .check 0 ⟨2500, ""⟩,
          .finish 0 { overlapAnswers with bound := .ok false }] live ∧
      live.transports 0 = some (boundTransport (.serving 1 (some 1) ended .waiting)) ∧
      ended.returned = true ∧ upstreamWrites ended.trace = [] ∧
      clientWrites ended.trace = [(reconnectNotice true, .sent)] := by
  intro _ _ _
  have hplan : routeActionPlan .default 300 (rerouteSession "two" false) [1] 2000 boundSession =
      .ok reroutePlan := by decide +kernel
  have hsuper : Supersedes (rerouteSession "two" false) reroutePlan boundSession [sessionKey]
      (some boundEpoch) := ⟨rfl, .inl (List.mem_singleton_self _)⟩
  have hreach := beforeReroute_run.refine (fun _ ↦ True) (fun _ _ _ _ _ ↦ trivial)
    (fun _ _ _ _ hstep ↦ hstep.2) trivial
  have hrequest : ClientMessage.request (.text (createText "turn-1")) "" =
      some ⟨"turn-1", some "gpt-5.6-sol"⟩ := by decide +kernel
  have hidle : afterReroute.obsolete 0 (some 1) = false := by decide +kernel
  have hreceive : System.Step afterReroute (.receive 0 (.client (.text (createText "turn-1"))))
      (afterReroute.setTransport 0 (boundTransport (.serving 1 (some 1) (.start .sticky)
        (.handling (.client (.text (createText "turn-1"))))))) :=
    @System.Step.receive _ _ _ _ 0 (boundTransport (.serving 1 (some 1) (.start .sticky) .waiting))
      1 (some 1) _ (.client _) rfl rfl rfl trivial hidle
  have hcheck : System.Step (afterReroute.setTransport 0 (boundTransport (.serving 1 (some 1)
      (.start .sticky) (.handling (.client (.text (createText "turn-1")))))))
      (.check 0 ⟨2500, ""⟩) _ :=
    .check _ (System.setTransport_self ..) rfl (List.cons_ne_nil _ _) ⟨"", _, hrequest⟩
  have hrefused : (bindAffinitiesAtEpoch [sessionKey] 1 (some boundEpoch) 2500
      (reroutedSession boundSession [1])).1 = .ok false := by decide +kernel
  have hbinds : System.Binds [sessionKey] { overlapAnswers with bound := .ok false }
      (.client (.text (createText "turn-1"))) :=
    ⟨List.cons_ne_nil _ _, rfl, _, _, rfl, hrequest⟩
  have hfinish : ∀ live : System, live.transports 0 = some (boundTransport (.serving 1 (some 1)
      (.start .sticky) (.checked (.text (createText "turn-1")) (bindAffinitiesAtEpoch [sessionKey]
        1 (some boundEpoch) 2500 (reroutedSession boundSession [1])).1))) →
      System.Step live (.finish 0 { overlapAnswers with bound := .ok false }) _ :=
    fun live found ↦ .finishChecked found rfl hbinds hrefused.symm
  have hbefore : beforeReroute.transports 0 =
      some (boundTransport (.serving 1 (some 1) (.start .sticky) .waiting)) := rfl
  obtain ⟨stage, hafter, -, hends⟩ := superseded_transport_fenced boundSession_reached
    hreach hbefore rfl rfl hplan hsuper afterReroute_step (.cons hreceive (.single hcheck))
  have hfound := System.setTransport_self (afterReroute.setTransport 0 (boundTransport (.serving 1
    (some 1) (.start .sticky) (.handling (.client (.text (createText "turn-1"))))))) 0
    (boundTransport (.serving 1 (some 1) (.start .sticky) (.checked (.text (createText "turn-1"))
      (bindAffinitiesAtEpoch [sessionKey] 1 (some boundEpoch) 2500
        (reroutedSession boundSession [1])).1)))
  have hstage := congrArg Transport.stage (Option.some.inj (hafter.symm.trans hfound))
  obtain ⟨ended, hended, hreturned, hup, hclient⟩ := hends _ _ _ _ _ hstage
    (fun he ↦ by cases hstage.symm.trans he) _ _ (hfinish _ hfound)
  have hrest := Run.cons hreceive (.cons hcheck (.single (hfinish _ hfound)))
  exact ⟨_, ended, .cons afterReroute_step hrest, hended, hreturned, hup, hclient⟩

end CodexLb.Live
