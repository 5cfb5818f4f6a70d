import CodexLb.Websocket.Bridge

/-!
# Exactly-once accounting of WebSocket turns

A bridge keeps to one turn at a time: the marks that it leaves are those of
items held one at a time, from its first event to its return. Each of its
turns is logged once, with the turn's own data, and gives its lease back once.
-/

namespace CodexLb.Websocket

open Transition (Mark Custody Run guarded)

/-- The marks that a trace leaves. -/
def marks (trace : List BridgeEffect) : List (Mark Nat) := trace.filterMap BridgeEffect.mark

/-- The turns that a trace acquires. -/
def turns (trace : List BridgeEffect) : List ActiveTurn :=
  trace.filterMap fun
    | .acquired turn => some turn
    | _ => none

/-- An effect that sends something upstream. -/
def BridgeEffect.goesUpstream : BridgeEffect → Bool
  | toUpstream _ _ => true
  | _ => false

/-- The log insert and the release succeed. -/
def FinishAnswers.Succeed (answers : FinishAnswers) : Prop :=
  answers.inserted = true ∧ answers.released = true

/-- The log inserts and the releases succeed, in the loop and after it. -/
def BridgeAnswers.Succeed (answers : BridgeAnswers) : Prop :=
  answers.finished.Succeed ∧ answers.closed.Succeed

/-- A log row with the data of a turn. -/
structure RowOf (config : BridgeConfig) (turn : ActiveTurn) (entry : RequestLogEntry) : Prop where
  accountId : entry.accountId = some config.accountId
  requestId : entry.requestId = turn.requestId
  model : entry.model = turn.model
  selectionReason : entry.selectionReason = some turn.selectionReason

/-- The turn that a bridge has in custody. -/
def BridgeState.custody (s : BridgeState) : Custody Nat :=
  match s.activeTurn with
  | some turn => .held turn.lease.number
  | none => .idle

/-- Effects that lead from one state to another by turns in custody, numbered in order; the log
rows are those of the active turn and of the turns that were acquired. -/
structure Follows (config : BridgeConfig) (s t : BridgeState) (effects : List BridgeEffect) :
    Prop where
  custody : s.custody.after (marks effects) = some t.custody
  numbered : List.range s.acquisitions ++ (turns effects).map (fun turn ↦ turn.lease.number) =
    List.range t.acquisitions
  active : ∀ turn, t.activeTurn = some turn → s.activeTurn = some turn ∨ turn ∈ turns effects
  rows : ∀ number entry, .logged number entry ∈ effects → ∃ turn,
    (s.activeTurn = some turn ∨ turn ∈ turns effects) ∧ turn.lease.number = number ∧
      RowOf config turn entry

section Traces

variable {config : BridgeConfig} {s t u : BridgeState} {effects more : List BridgeEffect}

private theorem marks_append : marks (effects ++ more) = marks effects ++ marks more :=
  List.filterMap_append

private theorem turns_append : turns (effects ++ more) = turns effects ++ turns more :=
  List.filterMap_append

private theorem mem_turns {turn : ActiveTurn} :
    turn ∈ turns effects ↔ .acquired turn ∈ effects := by
  rw [turns, List.mem_filterMap]
  constructor
  · rintro ⟨effect, hmem, heffect⟩
    cases effect <;> simp only [Option.some.injEq, reduceCtorEq] at heffect
    exact heffect ▸ hmem
  · intro hmem
    exact ⟨_, hmem, rfl⟩

/-- Effects follow one another. -/
theorem Follows.trans (h : Follows config s t effects) (k : Follows config t u more) :
    Follows config s u (effects ++ more) := by
  have hturn : ∀ turn, t.activeTurn = some turn ∨ turn ∈ turns more →
      s.activeTurn = some turn ∨ turn ∈ turns (effects ++ more) := by
    intro turn hturn
    rw [turns_append, List.mem_append]
    rcases hturn with hactive | hmem
    · exact (h.active turn hactive).imp_right .inl
    · exact .inr (.inr hmem)
  refine ⟨?_, ?_, fun turn hactive ↦ hturn turn (k.active turn hactive),
    fun number entry hmem ↦ ?_⟩
  · rw [marks_append, Custody.after_append h.custody, k.custody]
  · rw [turns_append, List.map_append, ← List.append_assoc, h.numbered, k.numbered]
  · rcases List.mem_append.mp hmem with hmem | hmem
    · obtain ⟨turn, hfrom, hnumber, hrow⟩ := h.rows number entry hmem
      refine ⟨turn, ?_, hnumber, hrow⟩
      rw [turns_append, List.mem_append]
      exact hfrom.imp_right .inl
    · obtain ⟨turn, hfrom, hnumber, hrow⟩ := k.rows number entry hmem
      exact ⟨turn, hturn turn hfrom, hnumber, hrow⟩

private theorem turns_of_marks (h : ∀ item, .opened item ∉ marks effects) : turns effects = [] := by
  rw [List.eq_nil_iff_forall_not_mem]
  intro turn hmem
  apply h turn.lease.number
  exact List.mem_filterMap.mpr ⟨_, mem_turns.mp hmem, rfl⟩

/-- A log row leaves a mark. -/
private theorem not_logged_of_marks (h : marks effects = []) (number : Nat)
    (entry : RequestLogEntry) : .logged number entry ∉ effects := by
  intro hmem
  have hmark : Mark.recorded number ∈ marks effects := List.mem_filterMap.mpr ⟨_, hmem, rfl⟩
  rw [h] at hmark
  cases hmark

/-- Effects without marks leave the turns alone. -/
theorem Follows.quiet (hmarks : marks effects = []) (hactive : t.activeTurn = s.activeTurn)
    (hacquisitions : t.acquisitions = s.acquisitions) : Follows config s t effects := by
  have hturns : turns effects = [] := turns_of_marks fun item hmem ↦ by
    rw [hmarks] at hmem
    cases hmem
  refine ⟨?_, ?_, fun turn h ↦ .inl (hactive ▸ h), fun number entry hmem ↦ ?_⟩
  · rw [hmarks, BridgeState.custody, BridgeState.custody, hactive, Custody.after_nil]
  · rw [hturns, List.map_nil, List.append_nil, hacquisitions]
  · exact absurd hmem (not_logged_of_marks hmarks number entry)

/-! ### The end of a turn -/

/-- Effects that log a turn and give its lease back. -/
structure Settles (config : BridgeConfig) (turn : ActiveTurn) (effects : List BridgeEffect) :
    Prop where
  marks : marks effects = [.recorded turn.lease.number, .closed turn.lease.number]
  rows : ∀ number entry, .logged number entry ∈ effects →
    turn.lease.number = number ∧ RowOf config turn entry

/-- Settling the active turn leaves no turn in custody. -/
theorem Settles.follows {turn : ActiveTurn} (h : Settles config turn effects)
    (hactive : s.activeTurn = some turn) :
    Follows config s { s with activeTurn := none } effects := by
  have hturns : turns effects = [] := turns_of_marks fun item hmem ↦ by
    rw [h.marks] at hmem
    simp at hmem
  refine ⟨?_, ?_, fun turn h ↦ (by cases h), fun number entry hmem ↦ ?_⟩
  · rw [h.marks, BridgeState.custody, hactive]
    simp [Custody.after, Custody.next, BridgeState.custody]
  · rw [hturns, List.map_nil, List.append_nil]
  · exact ⟨turn, .inl hactive, h.rows number entry hmem⟩

private theorem Settles.append_left {turn : ActiveTurn} (hmarks : Websocket.marks effects = [])
    (h : Settles config turn more) : Settles config turn (effects ++ more) := by
  refine ⟨by rw [marks_append, hmarks, h.marks, List.nil_append], fun number entry hmem ↦ ?_⟩
  rcases List.mem_append.mp hmem with hmem | hmem
  · exact absurd hmem (not_logged_of_marks hmarks number entry)
  · exact h.rows number entry hmem

/-- The row that is logged for a turn has the turn's data. -/
private theorem row_of_persist {answers : FinishAnswers} {turn : ActiveTurn} {status : String}
    {errorCode errorMessage : Option String} {usage : UsageData} {number : Nat}
    {entry : RequestLogEntry} (h : .logged number entry ∈ persistTurn config.accountId turn status
      errorCode errorMessage usage answers ++ turn.lease.release answers) :
    turn.lease.number = number ∧ RowOf config turn entry := by
  rcases List.mem_append.mp h with h | h
  · rw [persistTurn] at h
    split at h
    · cases List.mem_singleton.mp h
      exact ⟨rfl, rfl, rfl, rfl, rfl⟩
    · cases h
  · rw [AccountLease.release, AccountLease.drop, AccountLease.drop] at h
    split at h
    · simp at h
    · split at h <;> simp at h

/-- Logging a turn and releasing its lease settles it. -/
private theorem settles_persist {answers : FinishAnswers} (h : answers.Succeed) (turn : ActiveTurn)
    (status : String) (errorCode errorMessage : Option String) (usage : UsageData) :
    Settles config turn (persistTurn config.accountId turn status errorCode errorMessage usage
      answers ++ turn.lease.release answers) := by
  refine ⟨?_, fun number entry hmem ↦ row_of_persist hmem⟩
  rw [persistTurn, if_pos h.1, AccountLease.release, if_pos h.2]
  rfl

private theorem silent_persist (accountId : Uuid) (turn : ActiveTurn) (status : String)
    (errorCode errorMessage : Option String) (usage : UsageData) (answers : FinishAnswers) :
    (persistTurn accountId turn status errorCode errorMessage usage answers ++
      turn.lease.release answers).any BridgeEffect.goesUpstream = false := by
  rw [List.any_append, persistTurn, AccountLease.release, AccountLease.drop, AccountLease.drop]
  split <;> split <;> first | rfl | (split <;> rfl)

/-- A turn that ends without a response is settled. -/
theorem settles_finishDisconnectedTurn {answers : FinishAnswers} (h : answers.Succeed)
    (turn : ActiveTurn) (errorCode message : String) :
    Settles config turn
      (finishDisconnectedTurn config.accountId turn errorCode message answers) :=
  settles_persist h turn _ _ _ _

/-- Effects that are no business of a turn. -/
private def Quiet (effects : List BridgeEffect) : Prop :=
  marks effects = [] ∧ effects.any BridgeEffect.goesUpstream = false

private theorem quiet_append (h : Quiet effects) (k : Quiet more) : Quiet (effects ++ more) := by
  rw [Quiet, marks_append, List.any_append, h.1, h.2, k.1, k.2]
  exact ⟨rfl, rfl⟩

private theorem quiet_ite {p : Prop} [Decidable p] (h : Quiet effects) :
    Quiet (if p then effects else []) := by
  split
  · exact h
  · exact ⟨rfl, rfl⟩

private theorem quiet_applyTerminalErrorState (accountId : Uuid) (event : JsonValue)
    (errorMessage : Option String) (answers : FinishAnswers) :
    Quiet (applyTerminalErrorState accountId event errorMessage answers) := by
  unfold applyTerminalErrorState
  split
  · split
    · exact ⟨rfl, rfl⟩
    · split
      · exact ⟨rfl, rfl⟩
      · exact quiet_ite ⟨rfl, rfl⟩
  · exact ⟨rfl, rfl⟩

/-- A turn that ends with a terminal event is logged and gives its lease back, after effects that
are no business of the turn. -/
private theorem finishTurn_split [Sha256] (config : BridgeConfig) (turn : ActiveTurn)
    (event : JsonValue) (answers : FinishAnswers) :
    ∃ others status errorCode errorMessage, Quiet others ∧
      finishTurn config turn event answers = others ++ (persistTurn config.accountId turn status
        errorCode errorMessage (extractUsageFromJson event) answers ++
          turn.lease.release answers) := by
  unfold finishTurn
  dsimp only
  rw [List.append_assoc]
  refine ⟨_, _, _, _, quiet_append ?_ ?_, rfl⟩
  · split <;> exact ⟨rfl, rfl⟩
  · exact quiet_ite (quiet_applyTerminalErrorState _ _ _ _)

/-- A turn that ends with a terminal event is settled. -/
theorem settles_finishTurn [Sha256] {answers : FinishAnswers} (h : answers.Succeed)
    (turn : ActiveTurn) (event : JsonValue) :
    Settles config turn (finishTurn config turn event answers) := by
  obtain ⟨others, status, errorCode, errorMessage, ⟨hmarks, -⟩, hsplit⟩ :=
    finishTurn_split config turn event answers
  rw [hsplit]
  exact (settles_persist h turn _ _ _ _).append_left hmarks

/-- A terminal event is logged with the data of the turn that it finishes. -/
theorem row_of_finishTurn [Sha256] {answers : FinishAnswers} {turn : ActiveTurn}
    {event : JsonValue} {number : Nat} {entry : RequestLogEntry}
    (h : .logged number entry ∈ finishTurn config turn event answers) :
    RowOf config turn entry := by
  obtain ⟨others, status, errorCode, errorMessage, ⟨hmarks, -⟩, hsplit⟩ :=
    finishTurn_split config turn event answers
  rw [hsplit] at h
  rcases List.mem_append.mp h with h | h
  · exact absurd h (not_logged_of_marks hmarks number entry)
  · exact (row_of_persist h).2

end Traces

/-! ### The parts of the loop -/

section Parts

variable {config : BridgeConfig} {answers : BridgeAnswers} {s : BridgeState}

/-- Parts of the body follow one another. -/
theorem follows_andThen {h : Handled} {next : BridgeState → Handled}
    (hh : Follows config s h.state h.effects)
    (hnext : Follows config h.state (next h.state).state (next h.state).effects) :
    Follows config s (h.andThen next).state (h.andThen next).effects := by
  unfold Handled.andThen
  split
  · exact hh
  · exact hh.trans hnext

private theorem follows_endPrevious (hs : answers.Succeed) :
    Follows config s (endPrevious config answers s).state
      (endPrevious config answers s).effects := by
  unfold endPrevious
  split
  · next previous hactive =>
    exact (settles_finishDisconnectedTurn hs.1 previous _ _).follows hactive
  · exact .quiet rfl rfl rfl

private theorem endPrevious_idle (config : BridgeConfig) (answers : BridgeAnswers)
    (s : BridgeState) : (endPrevious config answers s).state.activeTurn = none := by
  unfold endPrevious
  split
  · rfl
  · next hidle => exact hidle

private theorem startTurn_ok {request : ParsedRequest} {reason : SelectionReason} {number : Nat}
    {available : Except AppError Bool} {turn : ActiveTurn}
    (h : startTurn request reason number available = .ok turn) :
    turn = ⟨request.requestId, request.model, reason, .new number⟩ := by
  cases available with
  | error e => cases h
  | ok available =>
    cases available with
    | true => exact (Except.ok.inj h).symm
    | false => cases h

private theorem follows_beginTurn (hidle : s.activeTurn = none) (request : ParsedRequest) :
    Follows config s (beginTurn answers request s).state (beginTurn answers request s).effects := by
  unfold beginTurn
  dsimp only
  split
  · next turn hstart =>
    have hnumber : turn.lease.number = s.acquisitions := by rw [startTurn_ok hstart]; rfl
    refine ⟨?_, ?_, fun other hother ↦ .inr ?_, fun number entry hmem ↦ ?_⟩
    · rw [BridgeState.custody, hidle]
      rfl
    · change List.range s.acquisitions ++ [turn.lease.number] = _
      rw [hnumber, List.range_succ]
    · cases hother
      exact List.mem_singleton_self _
    · cases hmem with
      | tail _ hmem => cases hmem
  · exact .quiet rfl rfl rfl

private theorem follows_checkRoute : Follows config s (checkRoute config answers s).state
    (checkRoute config answers s).effects := by
  unfold checkRoute
  split
  · exact .quiet rfl rfl rfl
  · dsimp only
    split <;> exact .quiet rfl rfl rfl

private theorem follows_forwardClient (message : ClientMessage) :
    Follows config s (forwardClient answers message s).state
      (forwardClient answers message s).effects := by
  unfold forwardClient
  dsimp only
  split <;> exact .quiet rfl rfl rfl

private theorem follows_forwardUpstream (message : UpstreamMessage) :
    Follows config s (forwardUpstream answers message s).state
      (forwardUpstream answers message s).effects := by
  unfold forwardUpstream
  dsimp only
  split
  · split <;> exact .quiet rfl rfl rfl
  · exact .quiet rfl rfl rfl

variable [JsonText]

private theorem follows_openTurn (hs : answers.Succeed) (message : ClientMessage) :
    Follows config s (openTurn config answers message s).state
      (openTurn config answers message s).effects := by
  unfold openTurn
  split
  · next request hrequest =>
    apply follows_andThen _ follows_checkRoute
    apply follows_andThen (follows_endPrevious hs)
    exact follows_beginTurn (endPrevious_idle config answers s) request
  · exact .quiet rfl rfl rfl

variable [Sha256]

private theorem follows_settleTerminal (hs : answers.Succeed) (message : UpstreamMessage) :
    Follows config s (settleTerminal config answers message s).state
      (settleTerminal config answers message s).effects := by
  unfold settleTerminal
  split
  · next event hevent =>
    dsimp only
    split
    · next turn hactive => exact (settles_finishTurn hs.1 turn event).follows hactive
    · exact .quiet rfl rfl rfl
  · exact .quiet rfl rfl rfl

/-- A pass of the loop keeps the turns in custody. -/
theorem follows_handle (hs : answers.Succeed) (input : BridgeInput) :
    Follows config s (handle config answers input s).state
      (handle config answers input s).effects := by
  cases input with
  | client message =>
    exact follows_andThen (follows_openTurn hs message) (follows_forwardClient message)
  | upstream message =>
    exact follows_andThen (follows_settleTerminal hs message) (follows_forwardUpstream message)
  | _ => exact .quiet rfl rfl rfl

omit [JsonText] [Sha256] in
/-- What follows the loop settles the turn that is active. -/
theorem follows_closeBridge (hs : answers.Succeed) (message : String) :
    Follows config s { s with activeTurn := none } (closeBridge config answers message s) := by
  unfold closeBridge
  have hturn : Follows config s { s with activeTurn := none } (match s.activeTurn with
      | some turn => finishDisconnectedTurn config.accountId turn
          (if s.sessionReroute then "session_reroute"
            else if s.serviceRestart then "service_restart" else "websocket_disconnected")
          message answers.closed
      | none => []) := by
    split
    · next turn hactive => exact (settles_finishDisconnectedTurn hs.2 turn _ _).follows hactive
    · next hidle => exact .quiet rfl hidle.symm rfl
  refine (((Follows.quiet ?_ rfl rfl).trans (Follows.quiet ?_ rfl rfl)).trans hturn).trans
    (.quiet ?_ rfl rfl)
  · split <;> rfl
  · split <;> rfl
  · split
    · rfl
    · split <;> rfl

end Parts

/-! ### Requests that go upstream -/

section Forwards

variable [JsonText]

/-- The effects of a route check that the request has passed. -/
def passedChecks (config : BridgeConfig) : List BridgeEffect :=
  if config.affinities = [] then []
  else [.bound config.affinities config.routeEpoch (.ok true)]

/-- A request goes upstream right after its turn acquired the account and passed the check. -/
def RequestsGuarded (config : BridgeConfig) (effects : List BridgeEffect) : Prop :=
  ∀ before text outcome after, effects = before ++ .toUpstream (.text text) outcome :: after →
    ∀ anyId, (parseResponseCreate text anyId).isSome = true →
      ∃ freshId request turn earlier, parseResponseCreate text freshId = some request ∧
        turn.requestId = request.requestId ∧ turn.model = request.model ∧
        before = earlier ++ .acquired turn :: passedChecks config

variable {config : BridgeConfig} {answers : BridgeAnswers} {s : BridgeState}
  {effects more : List BridgeEffect}

private theorem guarded_append (h : RequestsGuarded config effects)
    (k : RequestsGuarded config more) : RequestsGuarded config (effects ++ more) := by
  intro before text outcome after heq anyId hparse
  rcases List.append_eq_append_iff.mp heq with ⟨middle, hbefore, hmore⟩ | ⟨middle, heffects, hafter⟩
  · obtain ⟨freshId, request, turn, earlier, hrequest, hid, hmodel, hmiddle⟩ :=
      k middle text outcome after hmore anyId hparse
    refine ⟨freshId, request, turn, effects ++ earlier, hrequest, hid, hmodel, ?_⟩
    rw [hbefore, hmiddle, List.append_assoc]
  · cases middle with
    | nil =>
      obtain ⟨freshId, request, turn, earlier, hrequest, hid, hmodel, hmiddle⟩ :=
        k [] text outcome after hafter.symm anyId hparse
      simp at hmiddle
    | cons effect middle =>
      rw [List.cons_append, List.cons.injEq] at hafter
      exact h before text outcome middle (hafter.1 ▸ heffects) anyId hparse

private theorem guarded_of_silent (h : effects.any BridgeEffect.goesUpstream = false) :
    RequestsGuarded config effects := by
  intro before text outcome after heq
  rw [heq, List.any_append, List.any_cons] at h
  simp [BridgeEffect.goesUpstream] at h

omit [JsonText] in
private theorem silent_finishTurn [Sha256] (config : BridgeConfig) (turn : ActiveTurn)
    (event : JsonValue) (answers : FinishAnswers) :
    (finishTurn config turn event answers).any BridgeEffect.goesUpstream = false := by
  obtain ⟨others, status, errorCode, errorMessage, ⟨-, hsilent⟩, hsplit⟩ :=
    finishTurn_split config turn event answers
  rw [hsplit, List.any_append, hsilent, silent_persist]
  rfl

omit [JsonText] in
private theorem silent_endPrevious (config : BridgeConfig) (answers : BridgeAnswers)
    (s : BridgeState) :
    (endPrevious config answers s).effects.any BridgeEffect.goesUpstream = false := by
  unfold endPrevious
  split
  · exact silent_persist _ _ _ _ _ _ _
  · rfl

omit [JsonText] in
private theorem silent_beginTurn (answers : BridgeAnswers) (request : ParsedRequest)
    (s : BridgeState) :
    (beginTurn answers request s).effects.any BridgeEffect.goesUpstream = false := by
  unfold beginTurn
  dsimp only
  split <;> rfl

omit [JsonText] in
private theorem silent_checkRoute (config : BridgeConfig) (answers : BridgeAnswers)
    (s : BridgeState) :
    (checkRoute config answers s).effects.any BridgeEffect.goesUpstream = false := by
  unfold checkRoute
  split
  · rfl
  · dsimp only
    split <;> rfl

omit [JsonText] in
private theorem silent_andThen {h : Handled} {next : BridgeState → Handled}
    (hh : h.effects.any BridgeEffect.goesUpstream = false)
    (hnext : ∀ s, (next s).effects.any BridgeEffect.goesUpstream = false) :
    (h.andThen next).effects.any BridgeEffect.goesUpstream = false := by
  unfold Handled.andThen
  split
  · exact hh
  · rw [List.any_append, hh, hnext]
    rfl

private theorem silent_openTurn (config : BridgeConfig) (answers : BridgeAnswers)
    (message : ClientMessage) (s : BridgeState) :
    (openTurn config answers message s).effects.any BridgeEffect.goesUpstream = false := by
  unfold openTurn
  split
  · next request _ =>
    apply silent_andThen _ (silent_checkRoute config answers)
    exact silent_andThen (silent_endPrevious config answers s) (silent_beginTurn answers request)
  · rfl

omit [JsonText] in
/-- Both parts of a body that goes on go on. -/
theorem andThen_stop {h : Handled} {next : BridgeState → Handled}
    (hstop : (h.andThen next).stop = none) :
    h.stop = none ∧ (h.andThen next).state = (next h.state).state ∧
      (h.andThen next).effects = h.effects ++ (next h.state).effects ∧
      (next h.state).stop = none := by
  unfold Handled.andThen at hstop ⊢
  split at hstop
  · next message hmessage =>
    rw [hmessage] at hstop
    cases hstop
  · next hnone => exact ⟨hnone, rfl, rfl, hstop⟩

omit [JsonText] in
/-- A turn that begins is active, and its acquisition is the only effect. -/
private theorem beginTurn_last {request : ParsedRequest}
    (hstop : (beginTurn answers request s).stop = none) :
    ∃ turn, turn.requestId = request.requestId ∧ turn.model = request.model ∧
      (beginTurn answers request s).state.activeTurn = some turn ∧
      (beginTurn answers request s).effects = [.acquired turn] := by
  unfold beginTurn at hstop ⊢
  dsimp only at hstop ⊢
  split
  · next turn hstart =>
    rw [startTurn_ok hstart]
    exact ⟨_, rfl, rfl, rfl, rfl⟩
  · next e hstart =>
    rw [hstart] at hstop
    cases hstop

omit [JsonText] in
/-- A route check that lets the request pass leaves nothing but the bind. -/
private theorem checkRoute_passed (hstop : (checkRoute config answers s).stop = none) :
    (checkRoute config answers s).state = s ∧
      (checkRoute config answers s).effects = passedChecks config := by
  unfold checkRoute at hstop ⊢
  unfold passedChecks
  split
  · exact ⟨rfl, rfl⟩
  · next haffinities =>
    rw [if_neg haffinities] at hstop
    dsimp only at hstop ⊢
    split at hstop
    · next hbound =>
      rw [hbound]
      exact ⟨rfl, rfl⟩
    · cases hstop
    · cases hstop

/-- A request that is opened leaves its turn active, and its acquisition and the passed check
last. -/
theorem openTurn_last {message : ClientMessage} {request : ParsedRequest}
    (hrequest : message.request answers.freshId = some request)
    (hstop : (openTurn config answers message s).stop = none) :
    ∃ turn earlier, turn.requestId = request.requestId ∧ turn.model = request.model ∧
      (openTurn config answers message s).state.activeTurn = some turn ∧
      (openTurn config answers message s).effects =
        earlier ++ .acquired turn :: passedChecks config := by
  unfold openTurn at hstop ⊢
  rw [hrequest] at hstop ⊢
  dsimp only at hstop ⊢
  obtain ⟨hfirst, hstate, heffects, hcheck⟩ := andThen_stop hstop
  obtain ⟨-, hstate', heffects', hbegin⟩ := andThen_stop hfirst
  obtain ⟨turn, hid, hmodel, hactive, hturn⟩ := beginTurn_last hbegin
  obtain ⟨hkept, hchecks⟩ := checkRoute_passed hcheck
  refine ⟨turn, (endPrevious config answers s).effects, hid, hmodel, ?_, ?_⟩
  · rw [hstate, hkept, hstate', hactive]
  · rw [heffects, hchecks, heffects', hturn, List.append_assoc, List.singleton_append]

private theorem isSome_parseResponseCreate (text anyId freshId : String) :
    (parseResponseCreate text anyId).isSome = (parseResponseCreate text freshId).isSome := by
  unfold parseResponseCreate
  cases JsonText.fromStr text with
  | none => rfl
  | some value =>
    rw [Option.bind_some, Option.bind_some]
    split <;> rfl

omit [JsonText] in
private theorem forward_last {effect forwarded : BridgeEffect} {before after : List BridgeEffect}
    (hsilent : effects.any BridgeEffect.goesUpstream = false)
    (heffect : effect.goesUpstream = true)
    (heq : effects ++ [forwarded] = before ++ effect :: after) :
    before = effects ∧ effect = forwarded := by
  rcases List.eq_nil_or_concat after with rfl | ⟨middle, last, rfl⟩
  · obtain ⟨heffects, hlast⟩ := List.append_inj' heq rfl
    exact ⟨heffects.symm, (List.cons.inj hlast).1.symm⟩
  · rw [List.concat_eq_append, ← List.cons_append, ← List.append_assoc] at heq
    obtain ⟨heffects, _⟩ := List.append_inj' heq rfl
    rw [heffects, List.any_append, List.any_cons, heffect] at hsilent
    simp at hsilent

/-- A message from Codex that is a request goes upstream guarded. -/
private theorem guarded_handleClient (config : BridgeConfig) (answers : BridgeAnswers)
    (message : ClientMessage) (s : BridgeState) :
    RequestsGuarded config (handleClient config answers message s).effects := by
  have hsilent := silent_openTurn config answers message s
  unfold handleClient Handled.andThen
  split
  · exact guarded_of_silent hsilent
  · next hstop =>
    intro before text outcome after heq anyId hparse
    have hlast : (forwardClient answers message
        (openTurn config answers message s).state).effects =
          [.toUpstream (toUpstreamMessage message) answers.written] := by
      unfold forwardClient
      dsimp only
      split <;> rfl
    dsimp only at heq
    rw [hlast] at heq
    obtain ⟨hbefore, hforwarded⟩ := forward_last hsilent rfl heq
    rw [BridgeEffect.toUpstream.injEq] at hforwarded
    cases message with
    | text content =>
      have htext : text = content := UpstreamMessage.text.inj hforwarded.1
      rw [htext, isSome_parseResponseCreate content anyId answers.freshId] at hparse
      obtain ⟨request, hrequest⟩ := Option.isSome_iff_exists.mp hparse
      have hmessage : ClientMessage.request (.text content) answers.freshId = some request :=
        hrequest
      obtain ⟨turn, earlier, hid, hmodel, -, heffects⟩ := openTurn_last hmessage hstop
      refine ⟨answers.freshId, request, turn, earlier, htext ▸ hrequest, hid, hmodel, ?_⟩
      rw [hbefore, heffects]
    | _ => cases hforwarded.1

omit [JsonText] in
private theorem silent_closeBridge (config : BridgeConfig) (answers : BridgeAnswers)
    (message : String) (s : BridgeState) :
    (closeBridge config answers message s).any BridgeEffect.goesUpstream = false := by
  unfold closeBridge
  rw [List.any_append, List.any_append, List.any_append, Bool.or_eq_false_iff,
    Bool.or_eq_false_iff, Bool.or_eq_false_iff]
  refine ⟨⟨⟨?_, ?_⟩, ?_⟩, ?_⟩
  · split <;> rfl
  · split <;> rfl
  · split
    · exact silent_persist _ _ _ _ _ _ _
    · rfl
  · split
    · rfl
    · split <;> rfl

variable [Sha256]

private theorem silent_handleUpstream (config : BridgeConfig) (answers : BridgeAnswers)
    (message : UpstreamMessage) (s : BridgeState) :
    (handleUpstream config answers message s).effects.any BridgeEffect.goesUpstream = false := by
  apply silent_andThen
  · unfold settleTerminal
    split
    · dsimp only
      split
      · exact silent_finishTurn _ _ _ _
      · rfl
    · rfl
  · intro s
    unfold forwardUpstream
    dsimp only
    split
    · split <;> rfl
    · rfl

/-- In every pass of the loop the requests go upstream guarded. -/
theorem guarded_handle (config : BridgeConfig) (answers : BridgeAnswers) (input : BridgeInput)
    (s : BridgeState) : RequestsGuarded config (handle config answers input s).effects := by
  cases input with
  | client message => exact guarded_handleClient config answers message s
  | upstream message => exact guarded_of_silent (silent_handleUpstream config answers message s)
  | _ => exact guarded_of_silent rfl

end Forwards

/-! ### Runs -/

section Runs

variable [JsonText] [Sha256] {config : BridgeConfig} {reason : SelectionReason}
  {events : List BridgeEvent} {b : Bridge}

/-- What holds of a bridge and its trace. -/
structure Accounted (config : BridgeConfig) (reason : SelectionReason) (b : Bridge) : Prop where
  follows : Follows config (Bridge.start reason).state b.state b.trace
  guarded : RequestsGuarded config b.trace
  settled : b.returned = true → b.state.activeTurn = none

/-- Every event that a bridge handles keeps the account. -/
theorem accounted_step {t : Bridge} {event : BridgeEvent} (hb : Accounted config reason b)
    (h : guarded (BridgeStep config) (fun _ event ↦ event.answers.Succeed) b event t) :
    Accounted config reason t := by
  obtain ⟨hs, -, -, rfl⟩ := h
  have hfollows := hb.follows.trans (follows_handle hs event.input)
  have hguarded := guarded_append hb.guarded
    (guarded_handle config event.answers event.input b.state)
  unfold Bridge.next
  dsimp only
  split
  · exact ⟨hfollows, hguarded, fun h ↦ (by cases h)⟩
  · next message _ =>
    exact ⟨hfollows.trans (follows_closeBridge hs message),
      guarded_append hguarded (guarded_of_silent (silent_closeBridge _ _ _ _)), fun _ ↦ rfl⟩

/-- The account holds along every run. -/
theorem accounted_run
    (h : Run (guarded (BridgeStep config) fun _ event ↦ event.answers.Succeed) (.start reason)
      events b) : Accounted config reason b := by
  apply h.invariant (fun _ _ _ hb hstep ↦ accounted_step hb hstep)
  refine ⟨.quiet rfl rfl rfl, guarded_of_silent rfl, fun h ↦ ?_⟩
  cases h

omit [Sha256] in
private theorem nodup_numbers (hb : Accounted config reason b) :
    ((turns b.trace).map fun turn ↦ turn.lease.number).Nodup := by
  have hnumbered := hb.follows.numbered
  change List.range 0 ++ _ = _ at hnumbered
  rw [List.range_zero, List.nil_append] at hnumbered
  rw [hnumbered]
  exact List.nodup_range

omit [JsonText] [Sha256] in
private theorem count_opened (trace : List BridgeEffect) (number : Nat) :
    (marks trace).count (.opened number) =
      ((turns trace).map fun turn ↦ turn.lease.number).count number := by
  induction trace with
  | nil => rfl
  | cons effect trace ih =>
    have hsplit : effect :: trace = [effect] ++ trace := rfl
    rw [hsplit, marks_append, turns_append, List.map_append, List.count_append, List.count_append,
      ih]
    congr 1
    cases effect with
    | acquired turn => simp [marks, turns, BridgeEffect.mark, List.count_singleton]
    | _ => rfl

/-- At most one turn is active at any time, a request goes upstream only after its turn acquired
the account and its route check passed, and once the bridge has returned every turn that was
acquired has been logged once, with its own data, and has given its lease back once. -/
theorem turns_accounted_once
    (h : Run (guarded (BridgeStep config) fun _ event ↦ event.answers.Succeed) (.start reason)
      events b) :
    (∀ before after, b.trace = before ++ after →
      (marks before).countP Mark.isOpened ≤ (marks before).countP Mark.isClosed + 1) ∧
    RequestsGuarded config b.trace ∧
    (b.returned = true → ∀ turn, .acquired turn ∈ b.trace →
      (marks b.trace).count (.opened turn.lease.number) = 1 ∧
      (marks b.trace).count (.recorded turn.lease.number) = 1 ∧
      (marks b.trace).count (.closed turn.lease.number) = 1 ∧
      ∃ entry, .logged turn.lease.number entry ∈ b.trace ∧ RowOf config turn entry) := by
  have hb := accounted_run h
  refine ⟨fun before after hsplit ↦ ?_, hb.guarded, fun hreturned turn hturn ↦ ?_⟩
  · have hcustody := hb.follows.custody
    rw [hsplit, marks_append] at hcustody
    exact Custody.opened_le hcustody
  · have hcustody := hb.follows.custody
    have hidle : b.state.custody = .idle := by
      rw [BridgeState.custody, hb.settled hreturned]
    rw [hidle] at hcustody
    obtain ⟨hrecorded, hclosed⟩ := Custody.settled hcustody turn.lease.number
    have hmem : turn.lease.number ∈ (turns b.trace).map fun turn ↦ turn.lease.number :=
      List.mem_map.mpr ⟨turn, mem_turns.mpr hturn, rfl⟩
    have hopened : (marks b.trace).count (.opened turn.lease.number) = 1 := by
      rw [count_opened, List.count_eq_one_of_mem (nodup_numbers hb) hmem]
    refine ⟨hopened, hrecorded.trans hopened, hclosed.trans hopened, ?_⟩
    have hlogged : Mark.recorded turn.lease.number ∈ marks b.trace := by
      rw [← List.count_pos_iff, hrecorded, hopened]
      exact Nat.one_pos
    obtain ⟨effect, heffect, hmark⟩ := List.mem_filterMap.mp hlogged
    cases effect with
    | logged number entry =>
      cases hmark
      refine ⟨entry, heffect, ?_⟩
      obtain ⟨other, hother, hnumber, hrow⟩ := hb.follows.rows _ _ heffect
      rcases hother with hother | hother
      · cases hother
      · have hsame : other = turn :=
          List.inj_on_of_nodup_map (nodup_numbers hb) hother (mem_turns.mpr hturn) hnumber
        exact hsame ▸ hrow
    | _ => cases hmark

end Runs

/-! ### Two requests that overlap -/

/-- A request with a name. -/
def createText (name : String) : String :=
  "\x7b\"type\":\"response.create\",\"model\":\"gpt-5.6-sol\"," ++
    "\"client_metadata\":\x7b\"turn_id\":\"" ++ name ++ "\"\x7d\x7d"

/-- The value of a request with a name. -/
def createValue (name : String) : JsonValue :=
  .object [("type", .string "response.create"), ("model", .string "gpt-5.6-sol"),
    ("client_metadata", .object [("turn_id", .string name)])]

/-- A terminal event with a usage. -/
def completedText : String :=
  "\x7b\"type\":\"response.completed\",\"response\":\x7b\"usage\":\x7b" ++
    "\"input_tokens\":1200,\"output_tokens\":11\x7d\x7d\x7d"

/-- The value of the terminal event. -/
def completedValue : JsonValue :=
  .object [("type", .string "response.completed"), ("response", .object [("usage", .object
    [("input_tokens", .number (.posInt 1200)), ("output_tokens", .number (.posInt 11))])])]

/-- The reader on the texts of the run. -/
@[reducible] def overlapReader : JsonText where
  fromStr text := [(createText "turn-1", createValue "turn-1"),
    (createText "turn-2", createValue "turn-2"), (completedText, completedValue)].lookup text

/-- No text of the run is hashed. -/
@[reducible] def overlapDigests : Sha256 := ⟨fun _ ↦ ""⟩

/-- A connection with a session. -/
def overlapConfig : BridgeConfig := ⟨7, [⟨"hash", "session_id"⟩], none⟩

/-- Every statement and every write succeeds. -/
def overlapAnswers : BridgeAnswers :=
  ⟨"", .ok true, .ok true, .sent, ⟨.ok true, none, true, true, true, 0⟩, .sent,
    ⟨.ok true, none, true, true, true, 0⟩⟩

/-- The second request is sent before the first is answered. -/
def overlapInputs : List BridgeInput :=
  [.client (.text (createText "turn-1")), .client (.text (createText "turn-2")),
    .upstream (.text completedText)]

/-- Both turns are logged once and give their leases back once. -/
theorem turns_accounted_once_overlap :
    let _ := overlapReader
    let _ := overlapDigests
    ∃ b, Run (guarded (BridgeStep overlapConfig) fun _ event ↦ event.answers.Succeed)
        (.start .sticky)
        ((overlapInputs ++ [BridgeInput.clientClosed]).map (⟨·, overlapAnswers⟩)) b ∧
      (turns b.trace).map (fun turn ↦ turn.requestId) = ["turn-1", "turn-2"] ∧
      ∀ turn, .acquired turn ∈ b.trace →
        (marks b.trace).count (.recorded turn.lease.number) = 1 ∧
        (marks b.trace).count (.closed turn.lease.number) = 1 := by
  intro _ _
  have hs : overlapAnswers.Succeed := ⟨⟨rfl, rfl⟩, rfl, rfl⟩
  have hrun : Run (guarded (BridgeStep overlapConfig) fun _ event ↦ event.answers.Succeed)
      (.start .sticky)
      ((overlapInputs ++ [BridgeInput.clientClosed]).map (⟨·, overlapAnswers⟩)) _ :=
    .cons ⟨hs, rfl, trivial, rfl⟩ (.cons ⟨hs, by decide +kernel, trivial, rfl⟩
      (.cons ⟨hs, by decide +kernel, trivial, rfl⟩
        (.single ⟨hs, by decide +kernel, trivial, rfl⟩)))
  refine ⟨_, hrun, by decide +kernel, fun turn hturn ↦ ?_⟩
  obtain ⟨-, -, hsettled⟩ := turns_accounted_once hrun
  obtain ⟨-, hrecorded, hclosed, -⟩ := hsettled (by decide +kernel) turn hturn
  exact ⟨hrecorded, hclosed⟩

end CodexLb.Websocket
