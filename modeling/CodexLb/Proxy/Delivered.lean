import CodexLb.Proxy.Stream

/-!
# What a response stream leaves behind

A stream gives its lease back once and delivers a prefix of the body, however
it ends. Its log row is inserted at a poll that the chunks determine; a stream
that is dropped before that poll leaves no row.
-/

namespace CodexLb.Proxy

open Transition (Run)

/-- The number of log rows. -/
def rowCount (effects : List StreamEffect) : Nat :=
  effects.countP fun
    | .logged _ => true
    | _ => false

/-- The number of releases of the lease. -/
def releaseCount (effects : List StreamEffect) : Nat :=
  effects.countP fun
    | .released => true
    | _ => false

/-- A response that is accounted for exactly once: one log row, one release, and the client has a
prefix of the body, all of it if it read to the end. -/
structure AccountedOnce (body : StreamBody) (s : StreamState) : Prop where
  row : rowCount s.effects = 1
  lease : releaseCount s.effects = 1
  delivered : s.delivered.flatten <+: body.chunks.flatten
  complete : s.point = .finished → s.delivered = body.chunks

/-! ### The poll that logs -/

section Polls

variable [JsonText]

/-- The polls until the insert of the log row has ended: two for a chunk on which the detector
reports nothing, and two or three from the first one on which it does, or from the end of the
body, as the response has an identifier or not. -/
def pollsToLog (eventStream : Bool) (capture : TailCapture) (detector : SseTerminalDetector) :
    List (List UInt8) → Nat
  | [] => if (captureMetadata capture eventStream).2.isSome then 3 else 2
  | bytes :: rest =>
    if (detector.observe bytes).2.isSome then
      if (captureMetadata (capture.push bytes) true).2.isSome then 3 else 2
    else pollsToLog eventStream (capture.push bytes) (detector.observe bytes).1 rest + 2

/-- The polls until the log row of a response. -/
def StreamBody.pollsToLog (body : StreamBody) (context : StreamLogContext) : Nat :=
  Proxy.pollsToLog context.eventStream (.new sseCaptureLimit) .fresh body.chunks

/-- The stream is polled until its insert has ended, and the insert succeeds. -/
def LoggedBeforeDrop (context : StreamLogContext) (body : StreamBody) (events : List StreamEvent) :
    Prop :=
  ∃ answers, events[body.pollsToLog context - 1]? = some (.advance answers) ∧
    answers.inserted = true

/-- The polls that are left until the insert has ended, zero once it has. -/
def StreamState.pollsLeft (s : StreamState) (context : StreamLogContext) : Nat :=
  match s.point with
  | .reading =>
    if s.settled then 0 else Proxy.pollsToLog context.eventStream s.capture s.detector s.unread
  | .yielding =>
    if s.settled then 0
    else Proxy.pollsToLog context.eventStream s.capture s.detector s.unread + 1
  | .binding _ _ => 2
  | .logging _ => 1
  | .logged _ | .finished | .dropped => 0

/-- One where the poll at a position is there and its insert succeeds. -/
def insertedAt (polls : Nat) (events : List StreamEvent) : Nat :=
  match polls with
  | 0 => 0
  | n + 1 =>
    match events[n]? with
    | some (.advance answers) => if answers.inserted then 1 else 0
    | _ => 0

private theorem two_le_pollsToLog (eventStream : Bool) (capture : TailCapture)
    (detector : SseTerminalDetector) (chunks : List (List UInt8)) :
    2 ≤ pollsToLog eventStream capture detector chunks := by
  induction chunks generalizing capture detector with
  | nil =>
    unfold pollsToLog
    split <;> omega
  | cons bytes rest ih =>
    unfold pollsToLog
    split
    · split <;> omega
    · have hrest := ih (capture.push bytes) (detector.observe bytes).1
      omega

end Polls

/-! ### Log rows -/

section Rows

variable {context : StreamLogContext} {s t : StreamState} {effects more : List StreamEffect}

private theorem rowCount_append : rowCount (effects ++ more) = rowCount effects + rowCount more :=
  List.countP_append

private theorem rowCount_dropLease (s : StreamState) : rowCount s.dropLease = 0 := by
  unfold StreamState.dropLease AccountLease.drop
  split
  · split <;> rfl
  · rfl

private theorem rowCount_releaseLease (s : StreamState) : rowCount s.releaseLease = 0 := by
  unfold StreamState.releaseLease AccountLease.release AccountLease.drop
  split
  · split <;> rfl
  · rfl

private theorem rowCount_finish (s : StreamState) :
    rowCount s.finish.effects = rowCount s.effects := by
  have hfailed : rowCount s.failed = 0 := by
    unfold StreamState.failed
    split <;> rfl
  unfold StreamState.finish
  dsimp only
  rw [rowCount_append, rowCount_append, rowCount_dropLease, hfailed, Nat.add_zero]

private theorem rowCount_drop (s : StreamState) : rowCount s.drop.effects = rowCount s.effects := by
  unfold StreamState.drop
  rw [rowCount_append, rowCount_dropLease, Nat.add_zero]

variable [JsonText]

private theorem settle_effects (context : StreamLogContext) (s : StreamState)
    (responseId : Option String) (settlement : Settlement) :
    (s.settle responseId settlement).effects = s.effects ∧
      (s.settle responseId settlement).pollsLeft context =
        if responseId.isSome then 2 else 1 := by
  cases responseId <;> exact ⟨rfl, rfl⟩

private theorem readChunk_row (s : StreamState) (bytes : List UInt8) (rest : List (List UInt8))
    (hunread : s.unread = bytes :: rest) (hpoint : s.point = .reading) :
    (s.readChunk bytes rest).pollsLeft context = s.pollsLeft context - 1 ∧
      rowCount (s.readChunk bytes rest).effects = rowCount s.effects := by
  unfold StreamState.readChunk
  dsimp only
  rw [StreamState.pollsLeft.eq_def s, hpoint, hunread]
  dsimp only
  cases hsettled : s.settled with
  | true => exact ⟨by simp [StreamState.yield, StreamState.pollsLeft], rfl⟩
  | false =>
    simp only [Bool.false_eq_true, if_false]
    rw [pollsToLog]
    split
    · next detector terminal hobserve =>
      rw [hobserve]
      dsimp only
      rw [(settle_effects context _ _ _).1, (settle_effects context _ _ _).2]
      refine ⟨?_, rfl⟩
      simp only [Option.isSome_some, if_true]
      split <;> rfl
    · next detector hobserve =>
      rw [hobserve]
      refine ⟨?_, rfl⟩
      simp [StreamState.yield, StreamState.pollsLeft]

private theorem readEnd_row (s : StreamState) (hunread : s.unread = [])
    (hpoint : s.point = .reading) :
    (s.readEnd context).pollsLeft context = s.pollsLeft context - 1 ∧
      rowCount (s.readEnd context).effects = rowCount s.effects := by
  unfold StreamState.readEnd
  rw [StreamState.pollsLeft.eq_def s, hpoint, hunread]
  dsimp only
  cases hsettled : s.settled with
  | true =>
    refine ⟨rfl, ?_⟩
    exact rowCount_finish s
  | false =>
    simp only [Bool.false_eq_true, if_false]
    rw [(settle_effects context _ _ _).1, (settle_effects context _ _ _).2, pollsToLog]
    refine ⟨?_, rfl⟩
    split <;> rfl

private theorem afterLog_row (s : StreamState) (settlement : Settlement) :
    (s.afterLog settlement).pollsLeft context = 0 ∧
      rowCount (s.afterLog settlement).effects = rowCount s.effects := by
  unfold StreamState.afterLog
  dsimp only
  split
  · refine ⟨rfl, ?_⟩
    change rowCount (s.effects ++ s.releaseLease) = rowCount s.effects
    rw [rowCount_append, rowCount_releaseLease, Nat.add_zero]
  · refine ⟨rfl, ?_⟩
    rw [rowCount_finish]
    change rowCount (s.effects ++ s.releaseLease) = rowCount s.effects
    rw [rowCount_append, rowCount_releaseLease, Nat.add_zero]

variable [Sha256]

/-- A poll brings the log row one poll closer, and the last one before it inserts the row. -/
theorem advance_row (context : StreamLogContext) (s : StreamState) (answers : StreamAnswers) :
    (s.advance context answers).pollsLeft context = s.pollsLeft context - 1 ∧
      rowCount (s.advance context answers).effects =
        rowCount s.effects +
          if s.pollsLeft context = 1 ∧ answers.inserted = true then 1 else 0 := by
  have htwo := two_le_pollsToLog context.eventStream s.capture s.detector s.unread
  cases hpoint : s.point with
  | reading =>
    have hnot : s.pollsLeft context ≠ 1 := by
      rw [StreamState.pollsLeft, hpoint]
      dsimp only
      split <;> omega
    rw [if_neg fun h ↦ hnot h.1, Nat.add_zero]
    unfold StreamState.advance
    rw [hpoint]
    dsimp only
    split
    · next bytes rest hunread => exact readChunk_row s bytes rest hunread hpoint
    · next hunread => exact readEnd_row s hunread hpoint
  | binding responseId settlement =>
    simp only [StreamState.advance, StreamState.pollsLeft, hpoint, rowCount_append]
    exact ⟨trivial, rfl⟩
  | logging settlement =>
    simp only [StreamState.advance, StreamState.pollsLeft, hpoint, rowCount_append, true_and]
    split <;> rfl
  | logged settlement =>
    simp only [StreamState.advance, hpoint]
    have hzero : s.pollsLeft context = 0 := by rw [StreamState.pollsLeft, hpoint]
    rw [hzero]
    exact afterLog_row s settlement
  | yielding =>
    simp only [StreamState.advance, StreamState.pollsLeft, hpoint]
    split
    · exact ⟨rfl, rfl⟩
    · refine ⟨rfl, ?_⟩
      rw [if_neg (by omega), Nat.add_zero]
  | finished =>
    simp only [StreamState.advance, StreamState.pollsLeft, hpoint]
    exact ⟨trivial, rfl⟩
  | dropped =>
    simp only [StreamState.advance, StreamState.pollsLeft, hpoint]
    exact ⟨trivial, rfl⟩

omit [JsonText] [Sha256] in
/-- A stream that is closed takes no step. -/
theorem run_closed {step : StreamState → StreamEvent → StreamState → Prop}
    {events : List StreamEvent}
    (hstep : ∀ s event t, step s event t → s.closed = false) (hs : s.closed = true)
    (h : Run step s events t) : events = [] ∧ t = s := by
  cases h with
  | nil => exact ⟨rfl, rfl⟩
  | cons head _ =>
    rw [hstep _ _ _ head] at hs
    cases hs

/-- The log row of a run is the one of the poll that logs, if the run gets there. -/
theorem rows_run {events : List StreamEvent} (h : Run (StreamStep context) s events t) :
    rowCount t.effects = rowCount s.effects + insertedAt (s.pollsLeft context) events := by
  induction h with
  | nil s => cases s.pollsLeft context <;> rfl
  | @cons s middle t event events head tail ih =>
    obtain ⟨_, hmiddle⟩ := head
    cases event with
    | advance answers =>
      dsimp only at hmiddle
      subst hmiddle
      obtain ⟨hleft, hrow⟩ := advance_row context s answers
      rw [ih, hleft, hrow]
      match hpolls : s.pollsLeft context with
      | 0 => simp [insertedAt]
      | 1 => simp [insertedAt]
      | n + 2 => simp [insertedAt]
    | drop =>
      dsimp only at hmiddle
      subst hmiddle
      obtain ⟨rfl, rfl⟩ := run_closed (fun _ _ _ h ↦ h.1) rfl tail
      rw [rowCount_drop]
      match s.pollsLeft context with
      | 0 => rfl
      | 1 => rfl
      | n + 2 => rfl

end Rows

/-! ### Leases and bytes -/

section Kept

/-- The settlement that a stream is at. -/
def StreamPoint.settlement : StreamPoint → Option Settlement
  | binding _ settlement | logging settlement | logged settlement => some settlement
  | _ => none

/-- The chunk that is held back until it is logged. -/
def StreamPoint.held (point : StreamPoint) : List (List UInt8) :=
  (point.settlement.bind Settlement.chunk).toList

/-- The lease is held, or it has been given back once. -/
def LeaseOnce (lease : Option AccountLease) (effects : List StreamEffect) : Prop :=
  (lease = some .new ∧ releaseCount effects = 0) ∨ (lease = none ∧ releaseCount effects = 1)

/-- What holds at every point: of the lease, and of every chunk, which was delivered, is held back
or has not been read. -/
structure Kept (body : StreamBody) (s : StreamState) : Prop where
  lease : LeaseOnce s.lease s.effects
  closed : s.closed = true → s.lease = none
  delivered : s.delivered <+: body.chunks
  chunks : s.closed = false → s.delivered ++ s.point.held ++ s.unread = body.chunks
  ending : ∀ settlement, s.point.settlement = some settlement → settlement.chunk = none →
    s.unread = []
  complete : s.point = .finished → s.delivered = body.chunks

variable {context : StreamLogContext} {body : StreamBody} {s t : StreamState}
  {effects more : List StreamEffect} {lease : Option AccountLease}

/-- At a point that is still open, every chunk was delivered, is held back or has not been read. -/
private theorem Kept.chunks_at (h : Kept body s) {point : StreamPoint} (hpoint : s.point = point)
    (hopen : StreamState.closed { s with point := point } = false) :
    s.delivered ++ point.held ++ s.unread = body.chunks := by
  subst hpoint
  exact h.chunks hopen

private theorem LeaseOnce.append (h : LeaseOnce lease effects) (hmore : releaseCount more = 0) :
    LeaseOnce lease (effects ++ more) := by
  have hsum : releaseCount (effects ++ more) = releaseCount effects := by
    rw [releaseCount, List.countP_append]
    exact (congrArg (releaseCount effects + ·) hmore).trans (Nat.add_zero _)
  rw [LeaseOnce, hsum]
  exact h

/-- Effects that give the lease back if it is held leave it given back once. -/
private theorem LeaseOnce.give_back (h : LeaseOnce lease effects)
    (hheld : lease = some .new → releaseCount more = 1)
    (hgone : lease = none → releaseCount more = 0) : LeaseOnce none (effects ++ more) := by
  right
  refine ⟨rfl, ?_⟩
  have hsum : releaseCount (effects ++ more) = releaseCount effects + releaseCount more :=
    List.countP_append
  rcases h with ⟨hlease, hcount⟩ | ⟨hlease, hcount⟩
  · rw [hsum, hcount, hheld hlease]
  · rw [hsum, hcount, hgone hlease]

private theorem leaseOnce_drop (h : LeaseOnce s.lease s.effects) :
    LeaseOnce none (s.effects ++ s.dropLease) := by
  apply h.give_back
  · intro hlease
    rw [StreamState.dropLease, hlease]
    rfl
  · intro hlease
    rw [StreamState.dropLease, hlease]
    rfl

private theorem leaseOnce_release (h : LeaseOnce s.lease s.effects) :
    LeaseOnce none (s.effects ++ s.releaseLease) := by
  apply h.give_back
  · intro hlease
    rw [StreamState.releaseLease, hlease]
    rfl
  · intro hlease
    rw [StreamState.releaseLease, hlease]
    rfl

private theorem kept_yield {bytes : List UInt8} (hlease : LeaseOnce s.lease s.effects)
    (hchunks : s.delivered ++ [bytes] ++ s.unread = body.chunks) : Kept body (s.yield bytes) := by
  refine ⟨hlease, fun h ↦ (by cases h), ⟨s.unread, hchunks⟩, fun _ ↦ ?_, fun _ h ↦ (by cases h),
    fun h ↦ (by cases h)⟩
  change s.delivered ++ [bytes] ++ [] ++ s.unread = body.chunks
  rw [List.append_nil, hchunks]

private theorem kept_finish (hlease : LeaseOnce s.lease s.effects)
    (hchunks : s.delivered = body.chunks) : Kept body s.finish := by
  have hfailed : releaseCount s.failed = 0 := by
    unfold StreamState.failed
    split <;> rfl
  have hdrop := leaseOnce_drop (s := { s with effects := s.effects ++ s.failed })
    (hlease.append hfailed)
  exact ⟨hdrop, fun _ ↦ rfl, hchunks ▸ List.prefix_refl _, fun h ↦ (by cases h),
    fun _ h ↦ (by cases h), fun _ ↦ hchunks⟩

private theorem kept_drop (h : Kept body s) : Kept body s.drop :=
  ⟨leaseOnce_drop h.lease, fun _ ↦ rfl, h.delivered, fun h ↦ (by cases h),
    fun _ h ↦ (by cases h), fun h ↦ (by cases h)⟩

private theorem kept_settle {responseId : Option String} {settlement : Settlement}
    (hlease : LeaseOnce s.lease s.effects)
    (hchunks : s.delivered ++ settlement.chunk.toList ++ s.unread = body.chunks)
    (hending : settlement.chunk = none → s.unread = []) :
    Kept body (s.settle responseId settlement) := by
  have hlead : s.delivered <+: body.chunks := by
    rw [← hchunks, List.append_assoc]
    exact List.prefix_append _ _
  cases responseId with
  | some responseId =>
    refine ⟨hlease, fun h ↦ (by cases h), hlead, fun _ ↦ hchunks, fun other h ↦ ?_,
      fun h ↦ (by cases h)⟩
    cases h
    exact hending
  | none =>
    refine ⟨hlease, fun h ↦ (by cases h), hlead, fun _ ↦ hchunks, fun other h ↦ ?_,
      fun h ↦ (by cases h)⟩
    cases h
    exact hending

variable [JsonText]

private theorem kept_readChunk (h : Kept body s) {bytes : List UInt8} {rest : List (List UInt8)}
    (hunread : s.unread = bytes :: rest) (hpoint : s.point = .reading) :
    Kept body (s.readChunk bytes rest) := by
  have hchunks : s.delivered ++ [bytes] ++ rest = body.chunks := by
    have hall := h.chunks_at hpoint rfl
    rw [hunread] at hall
    change s.delivered ++ [] ++ bytes :: rest = body.chunks at hall
    rw [← hall, List.append_nil, List.append_assoc]
    rfl
  unfold StreamState.readChunk
  dsimp only
  split
  · exact kept_yield h.lease hchunks
  · split
    · exact kept_settle h.lease hchunks fun h ↦ (by cases h)
    · exact kept_yield h.lease hchunks

private theorem kept_readEnd (h : Kept body s) (hunread : s.unread = [])
    (hpoint : s.point = .reading) : Kept body (s.readEnd context) := by
  have hchunks : s.delivered = body.chunks := by
    have hall := h.chunks_at hpoint rfl
    rw [hunread, List.append_nil] at hall
    exact (List.append_nil _).symm.trans hall
  unfold StreamState.readEnd
  split
  · exact kept_finish h.lease hchunks
  · have hnone : ∀ usage, (endSettlement s.failure usage).chunk = none := by
      intro usage
      unfold endSettlement
      split <;> rfl
    apply kept_settle h.lease
    · rw [hnone, hunread, List.append_nil]
      exact (List.append_nil _).trans hchunks
    · exact fun _ ↦ hunread

omit [JsonText] in
private theorem kept_afterLog (h : Kept body s) {settlement : Settlement}
    (hpoint : s.point = .logged settlement) : Kept body (s.afterLog settlement) := by
  have hall := h.chunks_at hpoint rfl
  unfold StreamState.afterLog
  dsimp only
  split
  · next bytes hchunk =>
    apply kept_yield (leaseOnce_release h.lease)
    change s.delivered ++ settlement.chunk.toList ++ s.unread = body.chunks at hall
    rw [hchunk] at hall
    exact hall
  · next hchunk =>
    apply kept_finish (leaseOnce_release h.lease)
    change s.delivered ++ settlement.chunk.toList ++ s.unread = body.chunks at hall
    rw [hchunk, h.ending settlement (by rw [hpoint]; rfl) hchunk, List.append_nil] at hall
    exact (List.append_nil _).symm.trans hall

variable [Sha256]

/-- A poll keeps the lease and the bytes. -/
theorem kept_advance (h : Kept body s) (answers : StreamAnswers) :
    Kept body (s.advance context answers) := by
  unfold StreamState.advance
  split
  · next hpoint =>
    split
    · next bytes rest hunread => exact kept_readChunk h hunread hpoint
    · next hunread => exact kept_readEnd h hunread hpoint
  · next responseId settlement hpoint =>
    have hall := h.chunks_at hpoint rfl
    refine ⟨h.lease.append rfl, fun h ↦ (by cases h), h.delivered, fun _ ↦ hall,
      fun other hother ↦ ?_, fun h ↦ (by cases h)⟩
    cases hother
    exact h.ending settlement (by rw [hpoint]; rfl)
  · next settlement hpoint =>
    have hall := h.chunks_at hpoint rfl
    refine ⟨h.lease.append ?_, fun h ↦ (by cases h), h.delivered, fun _ ↦ hall,
      fun other hother ↦ ?_, fun h ↦ (by cases h)⟩
    · split <;> rfl
    · cases hother
      exact h.ending settlement (by rw [hpoint]; rfl)
  · next settlement hpoint => exact kept_afterLog h hpoint
  · next hpoint =>
    have hall := h.chunks_at hpoint rfl
    exact ⟨h.lease, fun h ↦ (by cases h), h.delivered, fun _ ↦ hall, fun _ h ↦ (by cases h),
      fun h ↦ (by cases h)⟩
  · exact h
  · exact h

/-- The lease and the bytes are kept along every run. -/
theorem kept_run {events : List StreamEvent}
    (h : Run (StreamStep context) (.start body) events s) : Kept body s := by
  apply h.invariant (P := Kept body)
  · intro s event t hs hstep
    obtain ⟨_, rfl⟩ := hstep
    cases event with
    | advance answers => exact kept_advance hs answers
    | drop => exact kept_drop hs
  · exact ⟨.inl ⟨rfl, rfl⟩, fun h ↦ (by cases h), List.nil_prefix, fun _ ↦ rfl,
      fun _ h ↦ (by cases h), fun h ↦ (by cases h)⟩

/-- Once a response stream has finished or been dropped, the lease has been given back once and the
client has a prefix of the body, all of it if it read to the end; and the response is accounted for
exactly once if and only if the stream was polled until its insert had ended and succeeded. -/
theorem response_accounted_once {events : List StreamEvent}
    (h : Run (StreamStep context) (.start body) events s) (hclosed : s.closed = true) :
    (releaseCount s.effects = 1 ∧ s.delivered.flatten <+: body.chunks.flatten ∧
      (s.point = .finished → s.delivered = body.chunks)) ∧
    (AccountedOnce body s ↔ LoggedBeforeDrop context body events) := by
  have hkept := kept_run h
  have hlease : releaseCount s.effects = 1 := by
    rcases hkept.lease with ⟨hheld, _⟩ | ⟨_, hcount⟩
    · rw [hkept.closed hclosed] at hheld
      cases hheld
    · exact hcount
  have hlead : s.delivered.flatten <+: body.chunks.flatten := by
    obtain ⟨rest, hrest⟩ := hkept.delivered
    exact ⟨rest.flatten, by rw [← List.flatten_append, hrest]⟩
  have hrows : rowCount s.effects = insertedAt (body.pollsToLog context) events := by
    have hrun := rows_run h
    exact hrun.trans (Nat.zero_add _)
  have hpolls : 2 ≤ body.pollsToLog context := two_le_pollsToLog _ _ _ _
  obtain ⟨n, hn⟩ : ∃ n, body.pollsToLog context = n + 1 :=
    ⟨body.pollsToLog context - 1, by omega⟩
  have hrow : rowCount s.effects = 1 ↔ LoggedBeforeDrop context body events := by
    rw [hrows, LoggedBeforeDrop, hn, insertedAt, Nat.add_sub_cancel]
    cases hevent : events[n]? with
    | none => simp
    | some event =>
      cases event with
      | advance answers => simp
      | drop => simp
  refine ⟨⟨hlease, hlead, hkept.complete⟩, ?_⟩
  rw [← hrow]
  exact ⟨fun h ↦ h.row, fun h ↦ ⟨h, hlease, hlead, hkept.complete⟩⟩

end Kept

/-! ### A response of two events -/

private def eventText (kind : String) : String := "\x7b\"type\":\"" ++ kind ++ "\"\x7d"

private def eventChunk (kind : String) : List UInt8 :=
  bytesOf ("data: " ++ eventText kind ++ "\n\n")

@[reducible] private def eventReader : JsonText where
  fromStr text := [(eventText "response.created", .object [("type", .string "response.created")]),
    (eventText "response.completed", .object [("type", .string "response.completed")])].lookup text

@[reducible] private def noDigests : Sha256 := ⟨fun _ ↦ ""⟩

private def eventContext : StreamLogContext := ⟨7, "request", none, .roundRobin, true, [], none⟩

private def eventBody : StreamBody :=
  ⟨[eventChunk "response.created", eventChunk "response.completed"], none⟩

private def eventPoll : StreamEvent := .advance ⟨.ok true, true, 0⟩

/-- A response that is read to its end leaves one row. -/
theorem response_accounted_once_complete :
    let _ := eventReader
    let _ := noDigests
    ∃ s, Run (StreamStep eventContext) (.start eventBody) (List.replicate 7 eventPoll) s ∧
      s.point = .finished ∧ AccountedOnce eventBody s := by
  intro _ _
  have hrun : Run (StreamStep eventContext) (.start eventBody) (List.replicate 7 eventPoll) _ :=
    .cons ⟨rfl, rfl⟩ (.cons ⟨by decide +kernel, rfl⟩ (.cons ⟨by decide +kernel, rfl⟩
      (.cons ⟨by decide +kernel, rfl⟩ (.cons ⟨by decide +kernel, rfl⟩
        (.cons ⟨by decide +kernel, rfl⟩ (.single ⟨by decide +kernel, rfl⟩))))))
  have hpolls : eventBody.pollsToLog eventContext = 4 := by decide +kernel
  refine ⟨_, hrun, by decide +kernel, ?_⟩
  have hclosed := response_accounted_once hrun (by decide +kernel)
  apply hclosed.2.mpr
  rw [LoggedBeforeDrop, hpolls]
  exact ⟨_, rfl, rfl⟩

/-- A client that stops reading after the first event leaves no row. -/
theorem response_dropped_unlogged :
    let _ := eventReader
    let _ := noDigests
    ¬ ∀ context body events s, Run (StreamStep context) (.start body) events s →
      s.closed = true → AccountedOnce body s := by
  intro _ _ h
  have hrun : Run (StreamStep eventContext) (.start eventBody) [eventPoll, .drop] _ :=
    .cons ⟨rfl, rfl⟩ (.single ⟨by decide +kernel, rfl⟩)
  have hrow := (h _ _ _ _ hrun rfl).row
  revert hrow
  decide +kernel

end CodexLb.Proxy
