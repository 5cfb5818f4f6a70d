import CodexLb.Proxy.Detector
import CodexLb.Websocket.Messages

/-!
# Terminal events of both transports

An event of the upstream as the bridge reads it from a WebSocket text and as
the detector finds it in an event stream. `terminal_event` looks at the type of
the object, `src/websocket.rs:650–658`; `find_sse_terminal` looks for eight
patterns in the bytes, `src/proxy.rs:781–804`.
-/

namespace CodexLb.Proxy

open Streaming Websocket

/-! ### Event streams -/

/-- The class that the detector reports for a terminal event. -/
def sseTerminalOf : TerminalEvent → SseTerminal
  | .completed => .completed
  | .incomplete => .incomplete
  | .failed => .failed
  | .error => .error

section Events

variable [JsonText]

/-- An event and its line in the stream: one line that reads as the event. -/
structure SseEvent where
  value : JsonValue
  text : String
  /-- The reader of the bridge reads the event from the line. -/
  reads : JsonText.fromStr text = some value
  oneLine : 10 ∉ bytesOf text
  /-- A space follows the colon of the field. -/
  spaced : Bool
  /-- The lines end with a carriage return and a line feed. -/
  returns : Bool

namespace SseEvent

/-- The name of the field. -/
def lead (event : SseEvent) : List UInt8 := bytesOf (if event.spaced then "data: " else "data:")

/-- The end of the line and the blank line. -/
def ending (event : SseEvent) : List UInt8 :=
  bytesOf (if event.returns then "\r\n\r\n" else "\n\n")

/-- The line of the event and the blank line that follows it. -/
def frame (event : SseEvent) : List UInt8 := event.lead ++ bytesOf event.text ++ event.ending

/-- What `terminal_event` says of the event. -/
def terminal (event : SseEvent) : Option SseTerminal :=
  (terminalEvent event.value).map sseTerminalOf

end SseEvent

/-- The stream of the events. -/
def sseStream (events : List SseEvent) : List UInt8 := events.flatMap SseEvent.frame

/-- The end of the first event in the stream that is classified, and its class. -/
def firstOf (classify : SseEvent → Option SseTerminal) :
    List SseEvent → Option (Nat × SseTerminal)
  | [] => none
  | event :: events =>
    match classify event with
    | some terminal => some (event.frame.length, terminal)
    | none => (firstOf classify events).map fun first ↦ (event.frame.length + first.1, first.2)

/-- The end of the first terminal event in the stream, and its class. -/
def firstTerminal (events : List SseEvent) : Option (Nat × SseTerminal) :=
  firstOf SseEvent.terminal events

/-- The detector reports the first terminal event, with its class, in the chunk that completes it,
and nothing where no event is terminal. -/
def ReportsFirstTerminal (events : List SseEvent) (chunks : List (List UInt8)) : Prop :=
  ∀ k terminal, SseTerminalDetector.fresh.firstReport chunks = some (k, terminal) ↔
    ∃ length, firstTerminal events = some (length, terminal) ∧
      (chunks.take k).flatten.length < length ∧ length ≤ (chunks.take (k + 1)).flatten.length

/-- The first of the eight patterns in a line is of a class, or the line has none of them. -/
def MarkedAs (text : String) : Option SseTerminal → Prop
  | none => ∀ marker ∈ markers, ∀ i, ¬OccursAt marker.1 (bytesOf text) i
  | some terminal => ∃ i, FirstMarker (bytesOf text) i terminal

/-- No line before the first terminal event has any of the eight patterns, and the first pattern
in the line of that event is of its class. -/
def MarkedAsTyped : List SseEvent → Prop
  | [] => True
  | event :: events =>
    MarkedAs event.text event.terminal ∧ (event.terminal = none → MarkedAsTyped events)

/-! ### The frame of an event -/

variable {event : SseEvent} {events : List SseEvent} {bytes : List UInt8}

/-- The name of the field has no quote and no line feed. -/
theorem SseEvent.lead_shape (event : SseEvent) : 34 ∉ event.lead ∧ 10 ∉ event.lead := by
  have hlead : 34 ∉ bytesOf "data: " ∧ 10 ∉ bytesOf "data: " ∧
      34 ∉ bytesOf "data:" ∧ 10 ∉ bytesOf "data:" := by decide +kernel
  obtain ⟨hspaced, hspaced', hplain, hplain'⟩ := hlead
  unfold SseEvent.lead
  split
  · exact ⟨hspaced, hspaced'⟩
  · exact ⟨hplain, hplain'⟩

/-- The ending is a boundary without quotes; only with its last byte it has two line feeds. -/
theorem SseEvent.ending_shape (event : SseEvent) :
    event.ending ∈ boundaries ∧
      (∃ x tail, event.ending = x :: tail ∧ (x = 10 ∨ x = 13) ∧ 34 ∉ tail) ∧
      ∃ most, event.ending = most ++ [10] ∧ most.count 10 = 1 := by
  have hfeeds : bytesOf "\n\n" = [10, 10] := by decide +kernel
  have hreturns : bytesOf "\r\n\r\n" = [13, 10, 13, 10] := by decide +kernel
  unfold SseEvent.ending boundaries
  rw [hfeeds, hreturns]
  cases event.returns with
  | false =>
    rw [if_neg Bool.false_ne_true, hfeeds]
    exact ⟨by decide, ⟨10, [10], rfl, .inl rfl, by decide⟩, [10], rfl, by decide⟩
  | true =>
    rw [if_pos rfl, hreturns]
    exact ⟨by decide, ⟨13, [10, 13, 10], rfl, .inr rfl, by decide⟩, [13, 10, 13], rfl, by decide⟩

/-- A part of a frame that is not all of it has no boundary. -/
theorem SseEvent.boundary_take {n : Nat} (hn : n < event.frame.length) :
    containsSseBoundary (event.frame.take n) = false := by
  obtain ⟨-, -, most, hmost, hcount⟩ := event.ending_shape
  rw [Bool.eq_false_iff]
  intro hends
  obtain ⟨boundary, hmem, i, hi⟩ := containsSseBoundary_iff.mp hends
  have htwo := Nat.le_trans (boundaries_shape boundary hmem).2.1 (hi.count_le (x := 10))
  have hframe : event.frame = (event.lead ++ bytesOf event.text ++ most) ++ [10] := by
    unfold SseEvent.frame
    rw [hmost]
    simp
  rw [hframe, List.length_append, List.length_singleton] at hn
  rw [hframe, List.take_append_of_le_length (by omega)] at htwo
  have hone : (event.lead ++ bytesOf event.text ++ most).count 10 = 1 := by
    rw [List.count_append, List.count_append, List.count_eq_zero.mpr event.lead_shape.2,
      List.count_eq_zero.mpr event.oneLine, hcount]
  have hle := ((event.lead ++ bytesOf event.text ++ most).take_sublist n).count_le 10
  omega

omit [JsonText] in
/-- A marker does not start among bytes without a quote. -/
theorem occursAt_append_of_quote {marker : List UInt8 × SseTerminal} (hmem : marker ∈ markers)
    {before : List UInt8} (hquote : 34 ∉ before) {i : Nat} :
    OccursAt marker.1 (before ++ bytes) i ↔
      ∃ j, i = before.length + j ∧ OccursAt marker.1 bytes j := by
  obtain ⟨⟨tail, htail⟩, -⟩ := markers_shape marker hmem
  constructor
  · intro h
    by_cases hbehind : before.length ≤ i
    · obtain ⟨j, rfl⟩ := Nat.exists_eq_add_of_le hbehind
      exact ⟨j, rfl, occursAt_append_right.mp h⟩
    · rw [htail] at h
      exact absurd (h.head_mem (by omega)) hquote
  · rintro ⟨j, rfl, h⟩
    exact occursAt_append_right.mpr h

/-- The markers of a stream that starts with a frame: those of its line, and those behind it. -/
theorem SseEvent.occursAt_frame {marker : List UInt8 × SseTerminal} (hmem : marker ∈ markers)
    {i : Nat} : OccursAt marker.1 (event.frame ++ bytes) i ↔
      (∃ j, i = event.lead.length + j ∧ OccursAt marker.1 (bytesOf event.text) j) ∨
        ∃ j, i = event.frame.length + j ∧ OccursAt marker.1 bytes j := by
  obtain ⟨-, ⟨x, tail, hending, hx, hquote⟩, -⟩ := event.ending_shape
  have hnot : x ∉ marker.1 := by
    obtain ⟨-, ⟨hfeed, hreturn⟩, -⟩ := markers_shape marker hmem
    rcases hx with rfl | rfl
    · exact hfeed
    · exact hreturn
  have hframe : event.frame ++ bytes =
      event.lead ++ (bytesOf event.text ++ x :: (tail ++ bytes)) := by
    unfold SseEvent.frame
    rw [hending]
    simp
  have hlength : event.frame.length =
      event.lead.length + ((bytesOf event.text).length + 1 + tail.length) := by
    unfold SseEvent.frame
    rw [hending, List.length_append, List.length_append, List.length_cons]
    omega
  rw [hframe, occursAt_append_of_quote hmem event.lead_shape.1]
  simp only [occursAt_append_cons hnot, occursAt_append_of_quote hmem hquote]
  constructor
  · rintro ⟨j, rfl, hline | ⟨k, rfl, l, rfl, hbehind⟩⟩
    · exact .inl ⟨j, rfl, hline⟩
    · exact .inr ⟨l, by omega, hbehind⟩
  · rintro (⟨j, rfl, hline⟩ | ⟨j, rfl, hbehind⟩)
    · exact ⟨j, rfl, .inl hline⟩
    · exact ⟨(bytesOf event.text).length + 1 + (tail.length + j), by omega,
        .inr ⟨tail.length + j, rfl, j, rfl, hbehind⟩⟩

/-! ### What is reported at once -/

/-- The class of the first marker in the line of an event. -/
def SseEvent.marked (event : SseEvent) : Option SseTerminal :=
  (findSseTerminal (bytesOf event.text)).map Prod.snd

/-- The class of the first marker is that of the first pattern. -/
theorem SseEvent.marked_eq_iff {terminal : Option SseTerminal} :
    event.marked = terminal ↔ MarkedAs event.text terminal := by
  unfold SseEvent.marked
  cases terminal with
  | none => rw [Option.map_eq_none_iff, findSseTerminal_eq_none, MarkedAs]
  | some terminal =>
    rw [Option.map_eq_some_iff, MarkedAs]
    constructor
    · rintro ⟨⟨i, t⟩, hfound, rfl⟩
      exact ⟨i, findSseTerminal_eq_some.mp hfound⟩
    · rintro ⟨i, h⟩
      exact ⟨(i, terminal), findSseTerminal_eq_some.mpr h, rfl⟩

/-- A frame with a marker is reported, with the class of the first one. -/
theorem SseEvent.atOnce_marked {terminal : SseTerminal} (h : event.marked = some terminal) :
    SseTerminalDetector.atOnce (event.frame ++ bytes) = some terminal := by
  obtain ⟨⟨i, t⟩, hfound, rfl⟩ := Option.map_eq_some_iff.mp h
  have hline := findSseTerminal_eq_some.mp hfound
  have hle := hline.le_length
  obtain ⟨⟨pattern, hmarker, hoccurs⟩, hfirst⟩ := hline
  have hlength : event.lead.length + (bytesOf event.text).length ≤ event.frame.length := by
    unfold SseEvent.frame
    simp only [List.length_append]
    omega
  have hframe : FirstMarker (event.frame ++ bytes) (event.lead.length + i) t := by
    refine ⟨⟨pattern, hmarker, (SseEvent.occursAt_frame hmarker).mpr (.inl ⟨i, rfl, hoccurs⟩)⟩, ?_⟩
    intro marker hmem j hj
    rcases (SseEvent.occursAt_frame hmem).mp hj with ⟨k, rfl, hk⟩ | ⟨k, rfl, -⟩
    · have hik := hfirst marker hmem k hk
      omega
    · omega
  have hends : containsSseBoundary ((event.frame ++ bytes).drop (event.lead.length + i)) =
      true := by
    rw [containsSseBoundary_iff]
    refine ⟨event.ending, event.ending_shape.1, (bytesOf event.text).length - i, ?_⟩
    have hsplit : event.frame ++ bytes =
        (event.lead ++ bytesOf event.text) ++ (event.ending ++ bytes) := by
      unfold SseEvent.frame
      simp
    have hindex : event.lead.length + i + ((bytesOf event.text).length - i) =
        (event.lead ++ bytesOf event.text).length + 0 := by
      rw [List.length_append]
      omega
    rw [occursAt_drop, hindex, hsplit, occursAt_append_right]
    exact List.prefix_append event.ending bytes
  rw [SseTerminalDetector.atOnce_eq, findSseTerminal_eq_some.mpr hframe, Option.bind_some,
    if_pos hends]

/-- A frame without markers changes no report. -/
theorem SseEvent.atOnce_unmarked (h : event.marked = none) :
    SseTerminalDetector.atOnce (event.frame ++ bytes) = SseTerminalDetector.atOnce bytes := by
  have hline := SseEvent.marked_eq_iff.mp h
  have hmoved : ∀ marker ∈ markers, ∀ i, OccursAt marker.1 (event.frame ++ bytes) i ↔
      ∃ j, i = event.frame.length + j ∧ OccursAt marker.1 bytes j := by
    intro marker hmem i
    rw [SseEvent.occursAt_frame hmem]
    constructor
    · rintro (⟨j, -, hj⟩ | hbehind)
      · exact absurd hj (hline marker hmem j)
      · exact hbehind
    · exact .inr
  rw [SseTerminalDetector.atOnce_eq, SseTerminalDetector.atOnce_eq, findSseTerminal_moved hmoved]
  cases findSseTerminal bytes with
  | none => rfl
  | some found =>
    have hdrop : (event.frame ++ bytes).drop (event.frame.length + found.1) =
        bytes.drop found.1 := by
      rw [← List.drop_drop, List.drop_left]
    rw [Option.map_some, Option.bind_some, Option.bind_some, hdrop]

/-- A part of a frame that is not all of it is not reported. -/
theorem SseEvent.atOnce_take {n : Nat} (hn : n < event.frame.length) :
    SseTerminalDetector.atOnce (event.frame.take n) = none := by
  have hopen := event.boundary_take hn
  rw [SseTerminalDetector.atOnce_eq]
  cases findSseTerminal (event.frame.take n) with
  | none => rfl
  | some found =>
    rw [Option.bind_some]
    apply if_neg
    intro hends
    obtain ⟨boundary, hmem, i, hi⟩ := containsSseBoundary_iff.mp hends
    rw [occursAt_drop] at hi
    rw [containsSseBoundary_iff.mpr ⟨boundary, hmem, _, hi⟩] at hopen
    cases hopen

/-- A frame is not empty. -/
theorem SseEvent.frame_pos (event : SseEvent) : 0 < event.frame.length := by
  obtain ⟨-, -, most, hmost, -⟩ := event.ending_shape
  unfold SseEvent.frame
  rw [hmost]
  simp only [List.length_append, List.length_singleton]
  omega

/-- A part of the stream is reported when it has the first frame with a marker. -/
theorem atOnce_take_sseStream (events : List SseEvent) (n : Nat) :
    SseTerminalDetector.atOnce ((sseStream events).take n) =
      (firstOf SseEvent.marked events).bind fun first ↦
        if first.1 ≤ n then some first.2 else none := by
  induction events generalizing n with
  | nil => simp [sseStream, firstOf, SseTerminalDetector.atOnce_eq, findSseTerminal, positionOf]
  | cons event events ih =>
    have hstream : sseStream (event :: events) = event.frame ++ sseStream events := by
      simp [sseStream]
    rw [hstream, firstOf]
    by_cases hn : n < event.frame.length
    · rw [List.take_append_of_le_length (by omega), event.atOnce_take hn]
      cases hmarked : event.marked with
      | some terminal =>
        rw [Option.bind_some, if_neg (by dsimp only; omega)]
      | none =>
        dsimp only
        cases firstOf SseEvent.marked events with
        | none => rfl
        | some first =>
          rw [Option.map_some, Option.bind_some, if_neg (by dsimp only; omega)]
    · obtain ⟨m, rfl⟩ := Nat.exists_eq_add_of_le (Nat.le_of_not_lt hn)
      rw [List.take_length_add_append]
      cases hmarked : event.marked with
      | some terminal =>
        rw [event.atOnce_marked hmarked, Option.bind_some, if_pos (Nat.le_add_right _ _)]
      | none =>
        rw [event.atOnce_unmarked hmarked, ih]
        dsimp only
        cases firstOf SseEvent.marked events with
        | none => rfl
        | some first =>
          rw [Option.map_some, Option.bind_some, Option.bind_some]
          simp only [Nat.add_le_add_iff_left]

/-! ### The first report over a stream -/

/-- What is classified first ends within the stream. -/
theorem firstOf_bounds {classify : SseEvent → Option SseTerminal} {first : Nat × SseTerminal}
    (h : firstOf classify events = some first) :
    0 < first.1 ∧ first.1 ≤ (sseStream events).length := by
  induction events generalizing first with
  | nil => cases h
  | cons event events ih =>
    have hlength : (sseStream (event :: events)).length =
        event.frame.length + (sseStream events).length := by simp [sseStream]
    have hpos := event.frame_pos
    rw [firstOf] at h
    split at h
    · cases h
      exact ⟨hpos, by dsimp only; omega⟩
    · obtain ⟨later, hlater, rfl⟩ := Option.map_eq_some_iff.mp h
      have hle := (ih hlater).2
      exact ⟨by dsimp only; omega, by dsimp only; omega⟩

/-- The first report over the chunks of a stream is made in the chunk that completes the first
frame with a marker. -/
theorem firstReport_sseStream {chunks : List (List UInt8)}
    (hchunks : chunks.flatten = sseStream events) {k : Nat} {terminal : SseTerminal} :
    SseTerminalDetector.fresh.firstReport chunks = some (k, terminal) ↔
      ∃ length, firstOf SseEvent.marked events = some (length, terminal) ∧
        (chunks.take k).flatten.length < length ∧
        length ≤ (chunks.take (k + 1)).flatten.length := by
  have hpart : ∀ j, (chunks.take j).flatten =
      (sseStream events).take (chunks.take j).flatten.length := by
    intro j
    have hsplit : chunks.flatten = (chunks.take j).flatten ++ (chunks.drop j).flatten := by
      rw [← List.flatten_append, List.take_append_drop]
    rw [← hchunks, hsplit, List.take_left]
  have hreport : ∀ j, SseTerminalDetector.atOnce (chunks.take j).flatten =
      (firstOf SseEvent.marked events).bind fun first ↦
        if first.1 ≤ (chunks.take j).flatten.length then some first.2 else none := by
    intro j
    rw [← atOnce_take_sseStream, ← hpart]
  have hgrows : ∀ i j, i ≤ j → (chunks.take i).flatten.length ≤ (chunks.take j).flatten.length := by
    intro i j hij
    have hprefix : chunks.take i <+: chunks.take j := List.take_prefix_take_left hij
    obtain ⟨more, hmore⟩ := hprefix
    rw [← hmore, List.flatten_append, List.length_append]
    omega
  have hiff := @SseTerminalDetector.firstReport_iff _ [] SseTerminalDetector.tracks_fresh chunks k
    terminal
  simp only [List.nil_append, hreport] at hiff
  rw [hiff]
  cases hfirst : firstOf SseEvent.marked events with
  | none => simp
  | some first =>
    obtain ⟨length, found⟩ := first
    have hpos := (firstOf_bounds hfirst).1
    simp only [Option.bind_some]
    constructor
    · rintro ⟨hk, hat, hbefore⟩
      split at hat
      · next hle =>
        cases hat
        refine ⟨length, rfl, ?_, hle⟩
        cases k with
        | zero => exact hpos
        | succ k =>
          have hnone := hbefore k (Nat.lt_succ_self k)
          by_contra hge
          rw [if_pos (Nat.le_of_not_lt hge)] at hnone
          cases hnone
      · cases hat
    · rintro ⟨other, heq, hlt, hle⟩
      cases heq
      refine ⟨?_, if_pos hle, ?_⟩
      · by_contra hge
        rw [List.take_of_length_le (by omega)] at hlt hle
        omega
      · intro j hj
        have hj' := hgrows (j + 1) k hj
        rw [if_neg (by omega)]

/-- Two ways to classify agree on what comes first when they agree up to there. -/
theorem firstOf_marked_iff : firstOf SseEvent.marked events = firstTerminal events ↔
    MarkedAsTyped events := by
  unfold firstTerminal
  induction events with
  | nil => simp [firstOf, MarkedAsTyped]
  | cons event events ih =>
    rw [MarkedAsTyped, ← SseEvent.marked_eq_iff, ← ih, firstOf, firstOf]
    cases hmarked : event.marked with
    | some marked =>
      cases hterminal : event.terminal with
      | some terminal => simp
      | none =>
        constructor
        · intro heq
          obtain ⟨first, hfirst, hshift⟩ := Option.map_eq_some_iff.mp heq.symm
          have hpos := (firstOf_bounds hfirst).1
          have hlength := congrArg Prod.fst hshift
          dsimp only at hlength
          omega
        · rintro ⟨heq, -⟩
          cases heq
    | none =>
      cases hterminal : event.terminal with
      | some terminal =>
        constructor
        · intro heq
          obtain ⟨first, hfirst, hshift⟩ := Option.map_eq_some_iff.mp heq
          have hpos := (firstOf_bounds hfirst).1
          have hlength := congrArg Prod.fst hshift
          dsimp only at hlength
          omega
        · rintro ⟨heq, -⟩
          cases heq
      | none =>
        have hinj : Function.Injective fun first : Nat × SseTerminal ↦
            (event.frame.length + first.1, first.2) := by
          rintro ⟨i, t⟩ ⟨j, u⟩ heq
          rw [Prod.mk.injEq] at heq
          obtain ⟨hi, rfl⟩ := heq
          have hij : i = j := Nat.add_left_cancel hi
          rw [hij]
        constructor
        · intro heq
          exact ⟨rfl, fun _ ↦ Option.map_injective hinj heq⟩
        · rintro ⟨-, heq⟩
          rw [heq rfl]

/-- **Both transports agree on the end of a response** exactly when no line before the first
terminal event has any of the eight patterns and the first pattern in its own line is of its
class. -/
theorem reports_first_terminal_iff (events : List SseEvent) :
    (∀ chunks : List (List UInt8), chunks.flatten = sseStream events →
      ReportsFirstTerminal events chunks) ↔ MarkedAsTyped events := by
  rw [← firstOf_marked_iff]
  constructor
  · -- Cut into single bytes, the stream tells where the reported frame ends.
    intro hreports
    have hbytes : ((sseStream events).map fun b ↦ [b]).flatten = sseStream events := by
      rw [← List.flatMap_def, List.flatMap_singleton']
    have hcount : ∀ k, k ≤ (sseStream events).length →
        (((sseStream events).map fun b ↦ [b]).take k).flatten.length = k := by
      intro k hk
      rw [← List.map_take, ← List.flatMap_def, List.flatMap_singleton', List.length_take]
      omega
    have hends : ∀ k terminal, k + 1 ≤ (sseStream events).length →
        (firstOf SseEvent.marked events = some (k + 1, terminal) ↔
          firstTerminal events = some (k + 1, terminal)) := by
      intro k terminal hk
      have hboth := (firstReport_sseStream hbytes).symm.trans (hreports _ hbytes k terminal)
      rw [hcount k (by omega), hcount (k + 1) hk] at hboth
      have honly : ∀ found : Option (Nat × SseTerminal),
          (∃ length, found = some (length, terminal) ∧ k < length ∧ length ≤ k + 1) ↔
            found = some (k + 1, terminal) := by
        intro found
        constructor
        · rintro ⟨length, hfound, hlt, hle⟩
          rw [hfound, show length = k + 1 by omega]
        · intro hfound
          exact ⟨k + 1, hfound, by omega, by omega⟩
      rw [honly, honly] at hboth
      exact hboth
    cases hmarked : firstOf SseEvent.marked events with
    | some first =>
      obtain ⟨length, terminal⟩ := first
      obtain ⟨hpos, hle⟩ := firstOf_bounds hmarked
      cases length with
      | zero => exact absurd hpos (Nat.lt_irrefl 0)
      | succ k => exact ((hends k terminal hle).mp hmarked).symm
    | none =>
      cases hterminal : firstTerminal events with
      | none => rfl
      | some first =>
        obtain ⟨length, terminal⟩ := first
        obtain ⟨hpos, hle⟩ := firstOf_bounds hterminal
        cases length with
        | zero => exact absurd hpos (Nat.lt_irrefl 0)
        | succ k =>
          have hother := (hends k terminal hle).mpr hterminal
          rw [hmarked] at hother
          cases hother
  · intro heq chunks hchunks k terminal
    rw [firstReport_sseStream hchunks, heq]

end Events

/-! ### An object within an event, and a space before the colon -/

/-- A line of an event that is not terminal and has an error object within. -/
def nestedText : String :=
  "\x7b\"type\":\"response.output_item.done\",\"item\":\x7b\"type\":\"error\"\x7d\x7d"

/-- A line of a terminal event in another spacing. -/
def spacedText : String := "\x7b\"type\" : \"response.completed\"\x7d"

/-- The event of the first line. -/
def nestedValue : JsonValue :=
  .object [("type", .string "response.output_item.done"),
    ("item", .object [("type", .string "error")])]

/-- The event of the second line. -/
def spacedValue : JsonValue := .object [("type", .string "response.completed")]

/-- The reader of the two lines. -/
@[reducible] def twoLinesReader : JsonText where
  fromStr text :=
    if text = nestedText then some nestedValue
    else if text = spacedText then some spacedValue
    else none

private theorem nestedText_reads :
    @JsonText.fromStr twoLinesReader nestedText = some nestedValue := if_pos rfl

private theorem spacedText_reads :
    @JsonText.fromStr twoLinesReader spacedText = some spacedValue := by
  have hne : spacedText ≠ nestedText := by decide +kernel
  exact (if_neg hne).trans (if_pos rfl)

private theorem nestedText_oneLine : 10 ∉ bytesOf nestedText := by decide +kernel

private theorem spacedText_oneLine : 10 ∉ bytesOf spacedText := by decide +kernel

/-- The first line in a stream. -/
def nestedEvent : @SseEvent twoLinesReader :=
  @SseEvent.mk twoLinesReader nestedValue nestedText nestedText_reads nestedText_oneLine true false

/-- The second line in a stream. -/
def spacedEvent : @SseEvent twoLinesReader :=
  @SseEvent.mk twoLinesReader spacedValue spacedText spacedText_reads spacedText_oneLine true false

/-- The error object within an event that is not terminal is reported, and a terminal event with a
space before the colon is not. -/
theorem reports_other_than_terminal : let _ := twoLinesReader
    (nestedEvent.terminal = none ∧
      SseTerminalDetector.fresh.firstReport [sseStream [nestedEvent]] = some (0, .error) ∧
      ¬ReportsFirstTerminal [nestedEvent] [sseStream [nestedEvent]]) ∧
    spacedEvent.terminal = some .completed ∧
      SseTerminalDetector.fresh.firstReport [sseStream [spacedEvent]] = none ∧
      ¬ReportsFirstTerminal [spacedEvent] [sseStream [spacedEvent]] := by
  intro reader
  have hnested : SseTerminalDetector.fresh.firstReport [sseStream [nestedEvent]] =
      some (0, .error) := by decide +kernel
  have hspaced : SseTerminalDetector.fresh.firstReport [sseStream [spacedEvent]] = none := by
    decide +kernel
  refine ⟨⟨rfl, hnested, ?_⟩, rfl, hspaced, ?_⟩
  · intro hreports
    obtain ⟨length, hfirst, -⟩ := (hreports 0 .error).mp hnested
    cases hfirst
  · intro hreports
    have hfirst : firstTerminal [spacedEvent] =
        some ((sseStream [spacedEvent]).length, .completed) := by decide +kernel
    have hreport := (hreports 0 .completed).mpr
      ⟨_, hfirst, by decide +kernel, by decide +kernel⟩
    rw [hspaced] at hreport
    cases hreport

end CodexLb.Proxy
