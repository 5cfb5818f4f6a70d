import CodexLb.Websocket.Turns

/-!
# Which request a terminal event answers

The upstream answers the requests that it receives in order, one terminal
event each. A bridge gives a terminal event to the turn that is active, which
is that of the last request; where an earlier request is still unanswered this
is another one than the event answers.
-/

namespace CodexLb.Websocket

open Transition (Run guarded)

/-- The log rows that effects insert. -/
def loggedRows (effects : List BridgeEffect) : List RequestLogEntry :=
  effects.filterMap fun
    | .logged _ entry => some entry
    | _ => none

/-- A bridge, the requests that the upstream has received and not answered, oldest first, and the
log row of each terminal event with the request that the event answered. -/
structure Conversation where
  bridge : Bridge
  unanswered : List ParsedRequest
  attributed : List (ParsedRequest × RequestLogEntry)

/-- A log row with the identifier and the model of a request. -/
def RowFor (request : ParsedRequest) (entry : RequestLogEntry) : Prop :=
  entry.requestId = request.requestId ∧ entry.model = request.model

instance (request : ParsedRequest) (entry : RequestLogEntry) :
    Decidable (RowFor request entry) := inferInstanceAs (Decidable (_ ∧ _))

/-- Every terminal event was logged for the request that it answered. -/
def Conversation.Attributed (c : Conversation) : Prop :=
  ∀ row ∈ c.attributed, RowFor row.1 row.2

/-- A conversation before its first event. -/
def Conversation.start (selectionReason : SelectionReason) : Conversation :=
  ⟨.start selectionReason, [], []⟩

section Steps

variable [JsonText]

/-- The request of an event. -/
def BridgeEvent.request (event : BridgeEvent) : Option ParsedRequest :=
  match event.input with
  | .client message => message.request event.answers.freshId
  | _ => none

/-- The terminal event of an event. -/
def BridgeEvent.terminal (event : BridgeEvent) : Option JsonValue :=
  match event.input with
  | .upstream message => message.terminal
  | _ => none

/-- The request that the upstream receives from a pass of the loop. -/
def received (event : BridgeEvent) (effects : List BridgeEffect) : List ParsedRequest :=
  if effects.any BridgeEffect.goesUpstream ∧ event.answers.written = .sent then
    event.request.toList
  else []

variable [Sha256]

/-- A conversation after an event: a terminal event answers the oldest request. -/
def Conversation.next (config : BridgeConfig) (c : Conversation) (event : BridgeEvent) :
    Conversation :=
  let effects := (handle config event.answers event.input c.bridge.state).effects
  match event.terminal, c.unanswered with
  | some _, request :: rest =>
    ⟨c.bridge.next config event, rest,
      c.attributed ++ (loggedRows effects).map fun entry ↦ (request, entry)⟩
  | _, _ => ⟨c.bridge.next config event, c.unanswered ++ received event effects, c.attributed⟩

/-- A step of a conversation: the upstream sends a terminal event only to answer a request. -/
def ConversationStep (config : BridgeConfig) (c : Conversation) (event : BridgeEvent)
    (t : Conversation) : Prop :=
  BridgeStep config c.bridge event (c.bridge.next config event) ∧
    (event.terminal.isSome = true → c.unanswered ≠ []) ∧ c.next config event = t

omit [Sha256] in
/-- A terminal event that arrives while a turn is active answers the only open request. -/
def AnswersOnlyRequest (c : Conversation) (event : BridgeEvent) : Prop :=
  event.terminal.isSome = true → c.bridge.state.activeTurn.isSome = true → c.unanswered.length = 1

end Steps

/-! ### The active turn -/

section ActiveTurn

variable [JsonText] [Sha256] {config : BridgeConfig} {event : BridgeEvent} {s : BridgeState}

omit [JsonText] [Sha256] in
private theorem forwardClient_sent {answers : BridgeAnswers} {message : ClientMessage}
    (h : (forwardClient answers message s).stop = none) :
    (forwardClient answers message s).state = s ∧ answers.written = .sent ∧
      (forwardClient answers message s).effects.any BridgeEffect.goesUpstream = true := by
  unfold forwardClient at h ⊢
  dsimp only at h ⊢
  split at h
  · next hsent => exact ⟨rfl, hsent, rfl⟩
  · cases h
  · cases h

omit [JsonText] [Sha256] in
private theorem forwardUpstream_state (answers : BridgeAnswers) (message : UpstreamMessage)
    (s : BridgeState) : (forwardUpstream answers message s).state = s ∧
      loggedRows (forwardUpstream answers message s).effects = [] := by
  unfold forwardUpstream
  dsimp only
  split
  · split <;> exact ⟨rfl, rfl⟩
  · exact ⟨rfl, rfl⟩

omit [Sha256] in
/-- A message from Codex that is no request leaves the active turn and asks nothing. -/
private theorem openTurn_none {answers : BridgeAnswers} {message : ClientMessage}
    (hrequest : message.request answers.freshId = none) :
    openTurn config answers message s = ⟨s, [], none⟩ := by
  rw [openTurn, hrequest]

omit [Sha256] in
/-- After a message from Codex that went on, the active turn is that of the request that the
upstream has received, if the message is one. -/
private theorem active_client {answers : BridgeAnswers} {message : ClientMessage}
    {turn : ActiveTurn} (hstop : (handleClient config answers message s).stop = none)
    (hactive : (handleClient config answers message s).state.activeTurn = some turn) :
    s.activeTurn = some turn ∧ message.request answers.freshId = none ∨
      ∃ request, message.request answers.freshId = some request ∧ answers.written = .sent ∧
        (handleClient config answers message s).effects.any BridgeEffect.goesUpstream = true ∧
        turn.requestId = request.requestId ∧ turn.model = request.model := by
  obtain ⟨hopen, hstate, heffects, hforward⟩ := andThen_stop hstop
  obtain ⟨hkept, hsent, hupstream⟩ := forwardClient_sent hforward
  change (handleClient config answers message s).effects = _ at heffects
  change (handleClient config answers message s).state = _ at hstate
  rw [hstate, hkept] at hactive
  cases hrequest : message.request answers.freshId with
  | none =>
    left
    rw [openTurn_none hrequest] at hactive
    exact ⟨hactive, rfl⟩
  | some request =>
    right
    obtain ⟨other, earlier, hid, hmodel, hother, -⟩ := openTurn_last hrequest hopen
    rw [hother] at hactive
    cases hactive
    refine ⟨request, rfl, hsent, ?_, hid, hmodel⟩
    rw [heffects, List.any_append, hupstream, Bool.or_true]

/-- A turn that is active after a message of the upstream was so before, and the message is no
terminal event. -/
private theorem active_upstream {answers : BridgeAnswers} {message : UpstreamMessage}
    {turn : ActiveTurn} (hstop : (handleUpstream config answers message s).stop = none)
    (hactive : (handleUpstream config answers message s).state.activeTurn = some turn) :
    message.terminal = none ∧ s.activeTurn = some turn := by
  obtain ⟨-, hstate, -, -⟩ := andThen_stop hstop
  change (handleUpstream config answers message s).state = _ at hstate
  rw [hstate, (forwardUpstream_state _ _ _).1] at hactive
  unfold settleTerminal at hactive
  split at hactive
  · dsimp only at hactive
    split at hactive
    · cases hactive
    · next hidle =>
      rw [hidle] at hactive
      cases hactive
  · next hnone => exact ⟨hnone, hactive⟩

/-- While the loop goes on, the active turn is that of the request that the upstream has received
in this pass, or, in a pass without one, it is the turn that was active before. -/
private theorem active_after {turn : ActiveTurn}
    (hstop : (handle config event.answers event.input s).stop = none)
    (hactive : (handle config event.answers event.input s).state.activeTurn = some turn) :
    event.terminal = none ∧
    (s.activeTurn = some turn ∧
        received event (handle config event.answers event.input s).effects = [] ∨
      ∃ request, received event (handle config event.answers event.input s).effects = [request] ∧
        turn.requestId = request.requestId ∧ turn.model = request.model) := by
  obtain ⟨input, answers⟩ := event
  cases input with
  | client message =>
    refine ⟨rfl, ?_⟩
    rcases active_client hstop hactive with
      ⟨hkept, hrequest⟩ | ⟨request, hrequest, hsent, hupstream, hid, hmodel⟩
    · refine .inl ⟨hkept, ?_⟩
      rw [received]
      split
      · exact congrArg Option.toList hrequest
      · rfl
    · refine .inr ⟨request, ?_, hid, hmodel⟩
      rw [received, if_pos ⟨hupstream, hsent⟩]
      exact congrArg Option.toList hrequest
  | upstream message =>
    obtain ⟨hnone, hkept⟩ := active_upstream hstop hactive
    refine ⟨hnone, .inl ⟨hkept, ?_⟩⟩
    rw [received]
    split <;> rfl
  | _ => cases hstop

/-- The log rows of a terminal event have the data of the turn that is active. -/
private theorem rows_of_terminal {value : JsonValue} (hterminal : event.terminal = some value)
    {entry : RequestLogEntry}
    (h : entry ∈ loggedRows (handle config event.answers event.input s).effects) :
    ∃ turn, s.activeTurn = some turn ∧ RowOf config turn entry := by
  obtain ⟨input, answers⟩ := event
  cases input with
  | upstream message =>
    have hmessage : message.terminal = some value := hterminal
    have hsettled : entry ∈ loggedRows (settleTerminal config answers message s).effects := by
      change entry ∈ loggedRows (handleUpstream config answers message s).effects at h
      unfold handleUpstream Handled.andThen at h
      split at h
      · exact h
      · dsimp only at h
        rw [loggedRows, List.filterMap_append, List.mem_append] at h
        rcases h with h | h
        · exact h
        · have hempty := (forwardUpstream_state answers message
            (settleTerminal config answers message s).state).2
          rw [loggedRows] at hempty
          rw [hempty] at h
          cases h
    unfold settleTerminal at hsettled
    rw [hmessage] at hsettled
    dsimp only at hsettled
    split at hsettled
    · next turn hactive =>
      refine ⟨turn, hactive, ?_⟩
      obtain ⟨effect, heffect, hentry⟩ := List.mem_filterMap.mp hsettled
      cases effect with
      | logged number row =>
        cases hentry
        exact row_of_finishTurn heffect
      | _ => cases hentry
    · cases hsettled
  | _ => cases hterminal

end ActiveTurn

/-! ### Conversations -/

section Conversations

variable [JsonText] [Sha256] {config : BridgeConfig} {reason : SelectionReason}
  {event : BridgeEvent} {events : List BridgeEvent} {c t : Conversation}

omit [JsonText] [Sha256] in
/-- The active turn is that of the last request that the upstream has received. -/
def Conversation.Attends (c : Conversation) : Prop :=
  ∀ turn, c.bridge.state.activeTurn = some turn → ∃ request,
    c.unanswered.getLast? = some request ∧ turn.requestId = request.requestId ∧
      turn.model = request.model

private theorem active_next {b : Bridge} {turn : ActiveTurn}
    (h : (b.next config event).state.activeTurn = some turn) :
    (handle config event.answers event.input b.state).stop = none ∧
      (handle config event.answers event.input b.state).state.activeTurn = some turn := by
  unfold Bridge.next at h
  dsimp only at h
  split at h
  · next hstop => exact ⟨hstop, h⟩
  · cases h

/-- Every step keeps the active turn with the last request. -/
theorem attends_step (hc : c.Attends) (h : ConversationStep config c event t) : t.Attends := by
  obtain ⟨-, -, rfl⟩ := h
  intro turn hactive
  unfold Conversation.next at hactive ⊢
  split at hactive
  · next value request rest hterminal hunanswered =>
    obtain ⟨hstop, hactive⟩ := active_next hactive
    rw [(active_after hstop hactive).1] at hterminal
    cases hterminal
  · next hnone =>
    obtain ⟨hstop, hactive⟩ := active_next hactive
    obtain ⟨-, hturn⟩ := active_after hstop hactive
    dsimp only
    rcases hturn with ⟨hbefore, hreceived⟩ | ⟨request, hreceived, hid, hmodel⟩
    · rw [hreceived, List.append_nil]
      exact hc turn hbefore
    · rw [hreceived]
      exact ⟨request, List.getLast?_concat, hid, hmodel⟩

/-- A terminal event is logged for the last request that the upstream has received. -/
theorem terminal_rows (hc : c.Attends) {value : JsonValue}
    (hterminal : event.terminal = some value) {entry : RequestLogEntry}
    (h : entry ∈ loggedRows (handle config event.answers event.input c.bridge.state).effects) :
    ∃ request, c.unanswered.getLast? = some request ∧ RowFor request entry := by
  obtain ⟨turn, hactive, hrow⟩ := rows_of_terminal hterminal h
  obtain ⟨request, hlast, hid, hmodel⟩ := hc turn hactive
  exact ⟨request, hlast, hrow.requestId.trans hid, hrow.model.trans hmodel⟩

/-- A step in which a terminal event answers the only open request attributes it. -/
theorem attributed_step (hc : c.Attends) (hrows : c.Attributed)
    (h : guarded (ConversationStep config) AnswersOnlyRequest c event t) : t.Attributed := by
  obtain ⟨honly, -, -, rfl⟩ := h
  unfold Conversation.next
  split
  · next value request rest hterminal hunanswered =>
    intro row hrow
    rcases List.mem_append.mp hrow with hrow | hrow
    · exact hrows row hrow
    · obtain ⟨entry, hentry, rfl⟩ := List.mem_map.mp hrow
      obtain ⟨turn, hactive, -⟩ := rows_of_terminal hterminal hentry
      obtain ⟨last, hlast, hfor⟩ := terminal_rows hc hterminal hentry
      have hone := honly (by rw [hterminal]; rfl) (by rw [hactive]; rfl)
      rw [hunanswered, List.length_cons] at hone
      have hrest : rest = [] := List.length_eq_zero_iff.mp (by omega)
      rw [hunanswered, hrest] at hlast
      cases hlast
      exact hfor
  · exact hrows

/-- Where every terminal event that arrives while a turn is active answers the only open request,
every terminal event is logged for the request that it answers. -/
theorem usage_attributed (h : Run (guarded (ConversationStep config) AnswersOnlyRequest)
    (.start reason) events c) : c.Attributed := by
  have hboth : c.Attends ∧ c.Attributed := by
    apply h.invariant (fun _ _ _ hc hstep ↦
      ⟨attends_step hc.1 hstep.2, attributed_step hc.1 hc.2 hstep⟩)
    refine ⟨fun turn hactive ↦ ?_, fun row hrow ↦ ?_⟩
    · cases hactive
    · cases hrow
  exact hboth.2

end Conversations

/-- A request that is answered before the next one is logged for itself. -/
theorem usage_attributed_single :
    let _ := overlapReader
    let _ := overlapDigests
    ∃ c, Run (guarded (ConversationStep overlapConfig) AnswersOnlyRequest) (.start .sticky)
        ([.client (.text (createText "turn-1")), .upstream (.text completedText)].map
          fun input ↦ ⟨input, overlapAnswers⟩) c ∧
      c.attributed.map (fun row ↦ (row.1.requestId, row.2.requestId)) = [("turn-1", "turn-1")] ∧
      c.Attributed := by
  intro _ _
  have hrun : Run (guarded (ConversationStep overlapConfig) AnswersOnlyRequest) (.start .sticky)
      ([.client (.text (createText "turn-1")), .upstream (.text completedText)].map
        fun input ↦ ⟨input, overlapAnswers⟩) _ :=
    .cons ⟨fun h ↦ (by cases h), ⟨rfl, trivial, rfl⟩, fun h ↦ (by cases h), rfl⟩
      (.single ⟨fun _ _ ↦ by decide +kernel, ⟨by decide +kernel, trivial, rfl⟩,
        fun _ ↦ by decide +kernel, rfl⟩)
  exact ⟨_, hrun, by decide +kernel, usage_attributed hrun⟩

/-- Of two requests that overlap, the terminal event of the first is logged for the second. -/
theorem usage_misattributed :
    let _ := overlapReader
    let _ := overlapDigests
    ¬ ∀ config reason events c, Run (ConversationStep config) (.start reason) events c →
      c.Attributed := by
  intro _ _ h
  have hrun : Run (ConversationStep overlapConfig) (.start .sticky)
      (overlapInputs.map (⟨·, overlapAnswers⟩)) _ :=
    .cons ⟨⟨rfl, trivial, rfl⟩, fun h ↦ (by cases h), rfl⟩
      (.cons ⟨⟨by decide +kernel, trivial, rfl⟩, fun h ↦ (by cases h), rfl⟩
        (.single ⟨⟨by decide +kernel, trivial, rfl⟩, fun _ ↦ by decide +kernel, rfl⟩))
  have hall := h _ _ _ _ hrun
  revert hall
  unfold Conversation.Attributed
  decide +kernel

end CodexLb.Websocket
