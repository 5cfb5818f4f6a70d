import CodexLb.Websocket.Turns

/-!
# What a bridge relays

A bridge writes to each socket what it read from the other one, in order and
unaltered. Only the message that ends the loop can be held back. When the loop
has ended the bridge closes the socket of the upstream, and Codex is given a
notice or has its socket closed too.
-/

namespace CodexLb.Websocket

open Transition (Run)

/-- The messages sent to the upstream among some effects, with how each write ended. -/
def upstreamWrites (effects : List BridgeEffect) : List (UpstreamMessage × WriteOutcome) :=
  effects.filterMap fun
    | .toUpstream message outcome => some (message, outcome)
    | _ => none

/-- The messages sent to Codex among some effects, with how each write ended. -/
def clientWrites (effects : List BridgeEffect) : List (ClientMessage × WriteOutcome) :=
  effects.filterMap fun
    | .toClient message outcome => some (message, outcome)
    | _ => none

/-- All that the socket of the upstream is asked to write: the messages sent, and the Close frame of
`close(None)`. -/
def upstreamFrames (effects : List BridgeEffect) : List UpstreamMessage :=
  effects.filterMap fun
    | .toUpstream message _ => some message
    | .closedUpstream => some (.close none)
    | _ => none

/-- All that the socket of Codex is asked to write: the messages sent, and the Close frame of
`close()`. -/
def clientFrames (effects : List BridgeEffect) : List ClientMessage :=
  effects.filterMap fun
    | .toClient message _ => some message
    | .closedClient => some (.close none)
    | _ => none

/-- What Codex sent, as the upstream is to receive it. -/
def fromClient (events : List BridgeEvent) : List UpstreamMessage :=
  events.filterMap fun event ↦
    match event.input with
    | .client message => some (toUpstreamMessage message)
    | _ => none

/-- What the upstream sent, as Codex is to receive it. -/
def fromUpstream (events : List BridgeEvent) : List ClientMessage :=
  events.filterMap fun event ↦
    match event.input with
    | .upstream message => toClientMessage message
    | _ => none

/-- The frame that tells Codex to connect again, `src/websocket.rs:511–527`. -/
def reconnectNotice (sessionReroute : Bool) : ClientMessage :=
  .close (some ⟨1012, if sessionReroute then "session reroute" else "service restart"⟩)

/-- Effects that write to no socket. -/
def Silent (effects : List BridgeEffect) : Prop :=
  upstreamFrames effects = [] ∧ clientFrames effects = []

/-- Effects that send some messages, and close no socket. -/
structure Carries (effects : List BridgeEffect) (toUpstream : List (UpstreamMessage × WriteOutcome))
    (toClient : List (ClientMessage × WriteOutcome)) : Prop where
  upstream : upstreamWrites effects = toUpstream
  client : clientWrites effects = toClient
  upstreamFrames : upstreamFrames effects = toUpstream.map Prod.fst
  clientFrames : clientFrames effects = toClient.map Prod.fst

section Writes

variable {effects more : List BridgeEffect}

@[simp] theorem upstreamWrites_append :
    upstreamWrites (effects ++ more) = upstreamWrites effects ++ upstreamWrites more :=
  List.filterMap_append

@[simp] theorem clientWrites_append :
    clientWrites (effects ++ more) = clientWrites effects ++ clientWrites more :=
  List.filterMap_append

@[simp] theorem upstreamFrames_append :
    upstreamFrames (effects ++ more) = upstreamFrames effects ++ upstreamFrames more :=
  List.filterMap_append

@[simp] theorem clientFrames_append :
    clientFrames (effects ++ more) = clientFrames effects ++ clientFrames more :=
  List.filterMap_append

theorem fromClient_cons (event : BridgeEvent) (events : List BridgeEvent) :
    fromClient (event :: events) = fromClient [event] ++ fromClient events :=
  List.filterMap_append (l := [event])

theorem fromUpstream_cons (event : BridgeEvent) (events : List BridgeEvent) :
    fromUpstream (event :: events) = fromUpstream [event] ++ fromUpstream events :=
  List.filterMap_append (l := [event])

theorem Silent.nil : Silent [] := ⟨rfl, rfl⟩

theorem Silent.append (h : Silent effects) (k : Silent more) : Silent (effects ++ more) := by
  rw [Silent, upstreamFrames_append, clientFrames_append, h.1, h.2, k.1, k.2]
  exact ⟨rfl, rfl⟩

/-- Effects that write to no socket send nothing. -/
theorem Silent.carries (h : Silent effects) : Carries effects [] [] where
  upstream := by
    refine List.filterMap_eq_nil_iff.mpr fun effect hmem ↦ ?_
    have hnone := List.filterMap_eq_nil_iff.mp h.1 effect hmem
    cases effect with
    | toUpstream message outcome => cases hnone
    | _ => rfl
  client := by
    refine List.filterMap_eq_nil_iff.mpr fun effect hmem ↦ ?_
    have hnone := List.filterMap_eq_nil_iff.mp h.2 effect hmem
    cases effect with
    | toClient message outcome => cases hnone
    | _ => rfl
  upstreamFrames := h.1
  clientFrames := h.2

/-- Effects that write to no socket come before others unnoticed. -/
theorem Carries.after {toUpstream : List (UpstreamMessage × WriteOutcome)}
    {toClient : List (ClientMessage × WriteOutcome)} (h : Carries more toUpstream toClient)
    (k : Silent effects) : Carries (effects ++ more) toUpstream toClient where
  upstream := by rw [upstreamWrites_append, k.carries.upstream, h.upstream, List.nil_append]
  client := by rw [clientWrites_append, k.carries.client, h.client, List.nil_append]
  upstreamFrames := by rw [upstreamFrames_append, k.1, h.upstreamFrames, List.nil_append]
  clientFrames := by rw [clientFrames_append, k.2, h.clientFrames, List.nil_append]

private theorem Silent.ite {p : Prop} [Decidable p] (h : Silent effects) (k : Silent more) :
    Silent (if p then effects else more) := by
  split
  · exact h
  · exact k

end Writes

/-! ### The end of a turn -/

section Turns

private theorem persistTurn_writesNothing (accountId : Uuid) (turn : ActiveTurn) (status : String)
    (errorCode errorMessage : Option String) (usage : UsageData) (answers : FinishAnswers) :
    Silent (persistTurn accountId turn status errorCode errorMessage usage answers) :=
  .ite ⟨rfl, rfl⟩ .nil

private theorem drop_writesNothing (lease : AccountLease) (dropReleased : Bool) :
    Silent (lease.drop dropReleased) := .ite ⟨rfl, rfl⟩ .nil

private theorem release_writesNothing (lease : AccountLease) (answers : FinishAnswers) :
    Silent (lease.release answers) := by
  unfold AccountLease.release
  split
  · have hreleased : Silent [.released lease.number] := ⟨rfl, rfl⟩
    exact hreleased.append (drop_writesNothing ..)
  · exact drop_writesNothing ..

private theorem finishDisconnectedTurn_writesNothing (accountId : Uuid) (turn : ActiveTurn)
    (errorCode message : String) (answers : FinishAnswers) :
    Silent (finishDisconnectedTurn accountId turn errorCode message answers) :=
  (persistTurn_writesNothing ..).append (release_writesNothing ..)

private theorem applyTerminalErrorState_writesNothing (accountId : Uuid) (event : JsonValue)
    (errorMessage : Option String) (answers : FinishAnswers) :
    Silent (applyTerminalErrorState accountId event errorMessage answers) := by
  unfold applyTerminalErrorState
  split
  · exact .ite ⟨rfl, rfl⟩ (.ite ⟨rfl, rfl⟩ (.ite ⟨rfl, rfl⟩ .nil))
  · exact .nil

private theorem finishTurn_writesNothing [Sha256] (config : BridgeConfig) (turn : ActiveTurn)
    (event : JsonValue) (answers : FinishAnswers) :
    Silent (finishTurn config turn event answers) := by
  unfold finishTurn
  dsimp only
  refine ((Silent.append ?_ ?_).append (persistTurn_writesNothing ..)).append
    (release_writesNothing ..)
  · split
    · exact ⟨rfl, rfl⟩
    · exact .nil
  · exact .ite (applyTerminalErrorState_writesNothing ..) .nil

end Turns

/-! ### Messages from Codex -/

section Client

variable [JsonText] {config : BridgeConfig} {answers : BridgeAnswers} {s : BridgeState}

/-- A message passes to the upstream unless it is a request whose account could not be acquired, or
whose session has moved on. -/
def Passes (config : BridgeConfig) (answers : BridgeAnswers) (message : ClientMessage) : Prop :=
  ∀ request, message.request answers.freshId = some request →
    answers.available = .ok true ∧ (config.affinities ≠ [] → answers.bound = .ok true)

omit [JsonText] in
private theorem endPrevious_writesNothing : Silent (endPrevious config answers s).effects := by
  unfold endPrevious
  split
  · exact finishDisconnectedTurn_writesNothing ..
  · exact .nil

omit [JsonText] in
private theorem beginTurn_writesNothing (request : ParsedRequest) :
    Silent (beginTurn answers request s).effects := by
  unfold beginTurn
  dsimp only
  split
  · exact ⟨rfl, rfl⟩
  · exact .nil

omit [JsonText] in
private theorem checkRoute_writesNothing : Silent (checkRoute config answers s).effects := by
  unfold checkRoute
  split
  · exact .nil
  · dsimp only
    split <;> exact ⟨rfl, rfl⟩

omit [JsonText] in
private theorem andThen_writesNothing {h : Handled} {next : BridgeState → Handled}
    (hh : Silent h.effects) (hnext : ∀ s, Silent (next s).effects) :
    Silent (h.andThen next).effects := by
  unfold Handled.andThen
  split
  · exact hh
  · exact hh.append (hnext _)

/-- Opening a turn writes to no socket. -/
theorem openTurn_writesNothing (config : BridgeConfig) (answers : BridgeAnswers)
    (message : ClientMessage) (s : BridgeState) :
    Silent (openTurn config answers message s).effects := by
  unfold openTurn
  split
  · exact andThen_writesNothing (andThen_writesNothing endPrevious_writesNothing fun _ ↦
      beginTurn_writesNothing _) fun _ ↦ checkRoute_writesNothing
  · exact .nil

omit [JsonText] in
private theorem beginTurn_stop {request : ParsedRequest} :
    (beginTurn answers request s).stop = none ↔ answers.available = .ok true := by
  unfold beginTurn startTurn
  cases answers.available with
  | error e => simp [Except.bind]
  | ok available => cases available <;> simp [Except.bind]

omit [JsonText] in
private theorem checkRoute_stop : (checkRoute config answers s).stop = none ↔
    (config.affinities ≠ [] → answers.bound = .ok true) := by
  unfold checkRoute
  split
  · next hempty => simp [hempty]
  · next hsome =>
    dsimp only
    split <;> simp_all

omit [JsonText] in
private theorem goesOn_andThen {h : Handled} {next : BridgeState → Handled} :
    (h.andThen next).stop = none ↔ h.stop = none ∧ (next h.state).stop = none := by
  unfold Handled.andThen
  split
  · next message hstop => simp [hstop]
  · next hstop => simp [hstop]

omit [JsonText] in
private theorem andThen_of_stop {h : Handled} {next : BridgeState → Handled}
    (hstop : h.stop ≠ none) : h.andThen next = h := by
  unfold Handled.andThen
  split
  · rfl
  · next hnone => exact absurd hnone hstop

omit [JsonText] in
private theorem endPrevious_stop : (endPrevious config answers s).stop = none := by
  unfold endPrevious
  split <;> rfl

/-- The loop goes on to the write when the message passes. -/
theorem openTurn_stop {message : ClientMessage} :
    (openTurn config answers message s).stop = none ↔ Passes config answers message := by
  unfold openTurn Passes
  split
  · next request hrequest =>
    rw [goesOn_andThen, goesOn_andThen, beginTurn_stop, checkRoute_stop, hrequest]
    simp [endPrevious_stop]
  · next hnone => simp [hnone]

end Client

/-! ### One pass of the loop -/

section Pass

variable [JsonText] [Sha256] {config : BridgeConfig} {answers : BridgeAnswers} {s : BridgeState}

/-- A terminal event that asks for a new connection is held back, `src/websocket.rs:489–491`. -/
def HeldBack (message : UpstreamMessage) : Prop :=
  ∃ event, message.terminal = some event ∧ shouldRetryOnNewConnection event = true

omit [Sha256] in
/-- A message from Codex that passes is the one write of its pass. -/
theorem handleClient_carries {message : ClientMessage} (h : Passes config answers message)
    (s : BridgeState) : Carries (handleClient config answers message s).effects
      [(toUpstreamMessage message, answers.written)] [] := by
  have hsilent := openTurn_writesNothing config answers message s
  have hforward : ∀ s, Carries (forwardClient answers message s).effects
      [(toUpstreamMessage message, answers.written)] [] := by
    intro s
    unfold forwardClient
    dsimp only
    split <;> exact ⟨rfl, rfl, rfl, rfl⟩
  rw [handleClient, Handled.andThen, openTurn_stop.mpr h]
  exact (hforward _).after hsilent

omit [Sha256] in
/-- A message from Codex that does not pass ends the loop unwritten. -/
theorem handleClient_refused {message : ClientMessage} (h : ¬ Passes config answers message)
    (s : BridgeState) :
    Silent (handleClient config answers message s).effects ∧
      (handleClient config answers message s).stop ≠ none := by
  have hstop : (openTurn config answers message s).stop ≠ none := mt openTurn_stop.mp h
  rw [handleClient, andThen_of_stop hstop]
  exact ⟨openTurn_writesNothing config answers message s, hstop⟩

private theorem settleTerminal_writes (config : BridgeConfig) (answers : BridgeAnswers)
    (message : UpstreamMessage) (s : BridgeState) :
    Silent (settleTerminal config answers message s).effects ∧
      ((settleTerminal config answers message s).stop = none ↔ ¬ HeldBack message) := by
  unfold settleTerminal HeldBack
  split
  · next event hevent =>
    have hstop : ((if shouldRetryOnNewConnection event then
        some "upstream requested a retry on a new WebSocket connection" else none) = none) ↔
        ¬ ∃ event, message.terminal = some event ∧ shouldRetryOnNewConnection event = true := by
      rw [hevent]
      simp
    dsimp only
    split
    · exact ⟨finishTurn_writesNothing .., hstop⟩
    · exact ⟨.nil, hstop⟩
  · next hnone => simp [hnone, Silent.nil]

/-- A message from the upstream that is not held back is the one write of its pass, if Codex has a
message for it. -/
theorem handleUpstream_carries (config : BridgeConfig) (answers : BridgeAnswers)
    {message : UpstreamMessage} (h : ¬ HeldBack message) (s : BridgeState) :
    Carries (handleUpstream config answers message s).effects []
      ((toClientMessage message).toList.map fun message ↦ (message, answers.written)) := by
  obtain ⟨hsilent, hstop⟩ := settleTerminal_writes config answers message s
  have hforward : ∀ s, Carries (forwardUpstream answers message s).effects []
      ((toClientMessage message).toList.map fun message ↦ (message, answers.written)) := by
    intro s
    unfold forwardUpstream
    dsimp only
    split
    · next forwarded hforwarded =>
      rw [hforwarded]
      split <;> exact ⟨rfl, rfl, rfl, rfl⟩
    · next hnone =>
      rw [hnone]
      exact ⟨rfl, rfl, rfl, rfl⟩
  rw [handleUpstream, Handled.andThen, hstop.mpr h]
  exact (hforward _).after hsilent

/-- A message from the upstream that is held back ends the loop unwritten. -/
theorem handleUpstream_refused (config : BridgeConfig) (answers : BridgeAnswers)
    {message : UpstreamMessage} (h : HeldBack message) (s : BridgeState) :
    Silent (handleUpstream config answers message s).effects ∧
      (handleUpstream config answers message s).stop ≠ none := by
  obtain ⟨hsilent, hstop⟩ := settleTerminal_writes config answers message s
  have hne := mt hstop.mp (not_not_intro h)
  rw [handleUpstream, andThen_of_stop hne]
  exact ⟨hsilent, hne⟩

/-- The loop ends with a notice to Codex, `src/websocket.rs:511`. -/
def BridgeState.reconnects (s : BridgeState) : Bool := s.serviceRestart || s.sessionReroute

omit [JsonText] [Sha256] in
/-- After the loop the bridge sends a notice at most. -/
theorem closeBridge_writes (config : BridgeConfig) (answers : BridgeAnswers) (message : String)
    (s : BridgeState) :
    upstreamWrites (closeBridge config answers message s) = [] ∧
      clientWrites (closeBridge config answers message s) =
        if s.reconnects then [(reconnectNotice s.sessionReroute, answers.notified)] else [] := by
  have hturn : ∀ turn errorCode, Carries
      (finishDisconnectedTurn config.accountId turn errorCode message answers.closed) [] [] :=
    fun _ _ ↦ (finishDisconnectedTurn_writesNothing ..).carries
  unfold closeBridge BridgeState.reconnects
  rcases hactive : s.activeTurn with _ | turn <;> rcases hroute : s.sessionReroute with _ | _ <;>
    rcases hrestart : s.serviceRestart with _ | _ <;>
  · simp only [upstreamWrites_append, clientWrites_append, (hturn _ _).upstream,
      (hturn _ _).client, List.append_nil]
    exact ⟨rfl, rfl⟩

end Pass

/-! ### A route that has moved on -/

section Refused

variable [JsonText] [Sha256] {config : BridgeConfig} {answers : BridgeAnswers}

omit [Sha256] in
/-- A request whose route has moved on is what ends the loop. -/
private theorem openTurn_refused {message : ClientMessage} {request : ParsedRequest}
    (hrequest : message.request answers.freshId = some request)
    (havailable : answers.available = .ok true) (hrouted : config.affinities ≠ [])
    (hbound : answers.bound = .ok false) (s : BridgeState) :
    (openTurn config answers message s).stop = some "session route generation changed" ∧
      (openTurn config answers message s).state.sessionReroute = true := by
  have hbegun : ((endPrevious config answers s).andThen (beginTurn answers request)).stop = none :=
    goesOn_andThen.mpr ⟨endPrevious_stop, beginTurn_stop.mpr havailable⟩
  have hchecked : ∀ s, (checkRoute config answers s).stop =
      some "session route generation changed" ∧
        (checkRoute config answers s).state.sessionReroute = true := by
    intro s
    rw [checkRoute, if_neg hrouted, hbound]
    exact ⟨rfl, rfl⟩
  rw [openTurn, hrequest]
  dsimp only
  rw [Handled.andThen, hbegun]
  exact hchecked _

/-- A request whose route has moved on is not written to the upstream: the bridge returns and tells
Codex to connect again. -/
theorem next_refused {message : ClientMessage} {request : ParsedRequest}
    (hrequest : message.request answers.freshId = some request)
    (havailable : answers.available = .ok true) (hrouted : config.affinities ≠ [])
    (hbound : answers.bound = .ok false) (b : Bridge) :
    (b.next config ⟨.client message, answers⟩).returned = true ∧
      upstreamWrites (b.next config ⟨.client message, answers⟩).trace = upstreamWrites b.trace ∧
      clientWrites (b.next config ⟨.client message, answers⟩).trace =
        clientWrites b.trace ++ [(reconnectNotice true, answers.notified)] := by
  obtain ⟨hstop, hreroute⟩ := openTurn_refused hrequest havailable hrouted hbound b.state
  have hhandle : handle config answers (.client message) b.state =
      openTurn config answers message b.state := andThen_of_stop (by rw [hstop]; simp)
  have hsilent := (openTurn_writesNothing config answers message b.state).carries
  have hreconnects : (openTurn config answers message b.state).state.reconnects = true := by
    rw [BridgeState.reconnects, hreroute, Bool.or_true]
  have hnext : b.next config ⟨.client message, answers⟩ =
      ⟨{ (openTurn config answers message b.state).state with activeTurn := none }, true,
        b.trace ++ (openTurn config answers message b.state).effects ++
          closeBridge config answers "session route generation changed"
            (openTurn config answers message b.state).state⟩ := by
    simp only [Bridge.next, hhandle, hstop]
  rw [hnext]
  refine ⟨rfl, ?_, ?_⟩
  · rw [upstreamWrites_append, upstreamWrites_append, hsilent.upstream, (closeBridge_writes ..).1,
      List.append_nil, List.append_nil]
  · rw [clientWrites_append, clientWrites_append, hsilent.client, (closeBridge_writes ..).2,
      hreconnects, hreroute, List.append_nil]
    rfl

end Refused

/-! ### Runs -/

section Runs

variable [JsonText] [Sha256] {config : BridgeConfig}

/-- What a bridge sends for the events that it handles: to the upstream what came from Codex but
for a request that was refused, to Codex what came from the upstream but for a terminal event that
asks for a new connection, or all of it and a notice. The frames that close the socket of Codex are
that of a bridge which has returned without a notice. A write that did not succeed is the last. -/
structure Relays (config : BridgeConfig) (events : List BridgeEvent) (returned : Bool)
    (toUpstream : List (UpstreamMessage × WriteOutcome))
    (toClient : List (ClientMessage × WriteOutcome)) (closing : List ClientMessage) : Prop where
  upstream : ∃ held, fromClient events = toUpstream.map Prod.fst ++ held ∧ held.length ≤ 1 ∧
    ∀ message ∈ held, returned = true ∧ ∃ event ∈ events, ∃ request,
      event.input = .client request ∧ toUpstreamMessage request = message ∧
        ¬ Passes config event.answers request
  client : ∃ delivered held notice, fromUpstream events = delivered ++ held ∧
    toClient.map Prod.fst = delivered ++ notice ∧ held.length + notice.length ≤ 1 ∧
    (∀ message ∈ held, returned = true ∧ ∃ event ∈ events, ∃ terminal,
      event.input = .upstream terminal ∧ toClientMessage terminal = some message ∧
        HeldBack terminal) ∧
    (∀ message ∈ notice, returned = true ∧
      ∃ sessionReroute, message = reconnectNotice sessionReroute) ∧
    closing = if returned && notice.isEmpty then [.close none] else []
  upstreamSent : ∀ write ∈ toUpstream.dropLast, write.2 = .sent
  clientSent : ∀ write ∈ toClient.dropLast, write.2 = .sent

/-- What a pass sends that does not end the loop. -/
abbrev Passed (event : BridgeEvent) (effects : List BridgeEffect) : Prop :=
  Carries effects ((fromClient [event]).map fun message ↦ (message, .sent))
    ((fromUpstream [event]).map fun message ↦ (message, .sent))

omit [JsonText] [Sha256] in
private theorem mem_dropLast_append {α : Type} {first rest : List α} {x : α}
    (h : x ∈ (first ++ rest).dropLast) : x ∈ first ∨ x ∈ rest.dropLast := by
  cases hrest : rest with
  | nil =>
    rw [hrest, List.append_nil] at h
    exact .inl (List.dropLast_subset _ h)
  | cons y ys =>
    have hne : rest ≠ [] := by simp [hrest]
    rw [List.dropLast_append_of_ne_nil hne, List.mem_append, hrest] at h
    exact h

omit [JsonText] [Sha256] in
private theorem map_fst_sent {α : Type} (messages : List α) :
    (messages.map fun message ↦ (message, WriteOutcome.sent)).map Prod.fst = messages := by
  rw [List.map_map]
  exact List.map_id messages

omit [Sha256] in
/-- A pass that does not end the loop comes before what is relayed later. -/
theorem Relays.cons {event : BridgeEvent} {events : List BridgeEvent} {returned : Bool}
    {effects : List BridgeEffect} {toUpstream : List (UpstreamMessage × WriteOutcome)}
    {toClient : List (ClientMessage × WriteOutcome)} {closing : List ClientMessage}
    (h : Passed event effects) (k : Relays config events returned toUpstream toClient closing) :
    Relays config (event :: events) returned (upstreamWrites effects ++ toUpstream)
      (clientWrites effects ++ toClient) closing := by
  obtain ⟨⟨held, hfrom, hone, hheld⟩, ⟨delivered, back, notice, hback, hto, hmost, hheldBack,
    hnotice, hclosing⟩, hupSent, hclientSent⟩ := k
  have hsent : ∀ {α : Type} (messages : List α) write, write ∈ messages.map
      (fun message ↦ (message, WriteOutcome.sent)) → write.2 = .sent := by
    intro α messages write hmem
    obtain ⟨message, -, rfl⟩ := List.mem_map.mp hmem
    rfl
  refine ⟨⟨held, ?_, hone, fun message hmem ↦ ?_⟩,
    ⟨fromUpstream [event] ++ delivered, back, notice, ?_, ?_, hmost, fun message hmem ↦ ?_,
      hnotice, hclosing⟩, fun write hmem ↦ ?_, fun write hmem ↦ ?_⟩
  · rw [fromClient_cons, hfrom, h.upstream, List.map_append, map_fst_sent, List.append_assoc]
  · obtain ⟨hreturned, event, hin, hrest⟩ := hheld message hmem
    exact ⟨hreturned, event, List.mem_cons_of_mem _ hin, hrest⟩
  · rw [fromUpstream_cons, hback, List.append_assoc]
  · rw [List.map_append, hto, h.client, map_fst_sent, List.append_assoc]
  · obtain ⟨hreturned, event, hin, hrest⟩ := hheldBack message hmem
    exact ⟨hreturned, event, List.mem_cons_of_mem _ hin, hrest⟩
  · rcases mem_dropLast_append hmem with hmem | hmem
    · exact hsent _ write (h.upstream ▸ hmem)
    · exact hupSent write hmem
  · rcases mem_dropLast_append hmem with hmem | hmem
    · exact hsent _ write (h.client ▸ hmem)
    · exact hclientSent write hmem

omit [Sha256] in
/-- A bridge that has handled nothing has relayed nothing. -/
theorem Relays.nil {returned : Bool} (hopen : returned = false) :
    Relays config [] returned [] [] [] where
  upstream := ⟨[], rfl, Nat.zero_le 1, fun _ h ↦ absurd h List.not_mem_nil⟩
  client := by
    refine ⟨[], [], [], rfl, rfl, Nat.zero_le 1, fun _ h ↦ absurd h List.not_mem_nil,
      fun _ h ↦ absurd h List.not_mem_nil, ?_⟩
    rw [hopen]
    rfl
  upstreamSent _ h := absurd h List.not_mem_nil
  clientSent _ h := absurd h List.not_mem_nil

omit [JsonText] [Sha256] in
private theorem sent_of_length {α : Type} {writes : List (α × WriteOutcome)}
    (h : writes.length ≤ 1) : ∀ write ∈ writes.dropLast, write.2 = .sent := by
  have hnil : writes.dropLast = [] := by
    apply List.eq_nil_of_length_eq_zero
    rw [List.length_dropLast]
    omega
  intro write hmem
  rw [hnil] at hmem
  cases hmem

/-- The frames that close the socket of Codex after the loop. -/
def BridgeState.closing (s : BridgeState) : List ClientMessage :=
  if s.reconnects then [] else [.close none]

omit [Sha256] in
/-- A pass that ends the loop and sends nothing itself leaves a notice at most. -/
private theorem Relays.notice {event : BridgeEvent} (hback : fromUpstream [event] = [])
    (hheld : ∀ message ∈ fromClient [event], ∃ request, event.input = .client request ∧
      toUpstreamMessage request = message ∧ ¬ Passes config event.answers request)
    (s : BridgeState) (notified : WriteOutcome) :
    Relays config [event] true []
      (if s.reconnects then [(reconnectNotice s.sessionReroute, notified)] else [])
      s.closing := by
  have hone : (fromClient [event]).length ≤ 1 := List.length_filterMap_le ..
  refine ⟨⟨fromClient [event], rfl, hone, fun message hmem ↦ ⟨rfl, event,
    List.mem_singleton_self _, hheld message hmem⟩⟩, ?_, sent_of_length (Nat.zero_le 1), ?_⟩
  · refine ⟨[], [], _, hback, rfl, ?_, fun _ h ↦ absurd h List.not_mem_nil,
      fun message hmem ↦ ?_, ?_⟩
    · split <;> simp
    · split at hmem
      · exact ⟨rfl, _, List.mem_singleton.mp hmem⟩
      · cases hmem
    · rw [BridgeState.closing]
      split <;> rfl
  · apply sent_of_length
    split <;> simp

omit [Sha256] in
/-- A pass that ends the loop without a reason for a notice sends its message or holds it back. -/
private theorem Relays.last {event : BridgeEvent}
    {toUpstream : List (UpstreamMessage × WriteOutcome)}
    {toClient : List (ClientMessage × WriteOutcome)} {held : List ClientMessage}
    (hfrom : fromClient [event] = toUpstream.map Prod.fst)
    (hback : fromUpstream [event] = toClient.map Prod.fst ++ held)
    (hheld : ∀ message ∈ held, ∃ terminal, event.input = .upstream terminal ∧
      toClientMessage terminal = some message ∧ HeldBack terminal)
    {s : BridgeState} (hs : s.reconnects = false) :
    Relays config [event] true toUpstream toClient s.closing := by
  have hone : toUpstream.length ≤ 1 := by
    rw [← List.length_map Prod.fst, ← hfrom]
    exact List.length_filterMap_le ..
  have hmost : (toClient.map Prod.fst ++ held).length ≤ 1 := by
    rw [← hback]
    exact List.length_filterMap_le ..
  rw [List.length_append, List.length_map] at hmost
  refine ⟨⟨[], ?_, Nat.zero_le 1, fun _ h ↦ absurd h List.not_mem_nil⟩,
    ⟨_, held, [], hback, (List.append_nil _).symm, ?_, fun message hmem ↦ ⟨rfl, event,
      List.mem_singleton_self _, hheld message hmem⟩, fun _ h ↦ absurd h List.not_mem_nil, ?_⟩,
    sent_of_length hone, sent_of_length (by omega)⟩
  · rw [hfrom, List.append_nil]
  · rw [List.length_nil]
    omega
  · rw [BridgeState.closing, hs]
    rfl

end Runs

end CodexLb.Websocket
