import CodexLb.Upstream.Sse

/-!
# What a response stream captures

The tail of the body, the detector of terminal events and the metadata that is
read from the tail, `src/proxy.rs:483–503` and `661–813`.
-/

namespace CodexLb.Proxy

/-! ### The tail of the body -/

/-- `TailCapture`, `src/proxy.rs:679–683`. -/
structure TailCapture where
  buffer : List UInt8
  capacity : Nat
  start : Nat

namespace TailCapture

/-- `TailCapture::new`, `src/proxy.rs:686–692`. -/
def new (capacity : Nat) : TailCapture := ⟨[], capacity, 0⟩

/-- `copy_from_slice` into a buffer at an index. -/
def overwrite (buffer : List UInt8) (start : Nat) (bytes : List UInt8) : List UInt8 :=
  buffer.take start ++ bytes ++ buffer.drop (start + bytes.length)

/-- The end of a push into a full buffer, `src/proxy.rs:715–721`. -/
def wrap (capture : TailCapture) (bytes : List UInt8) : TailCapture :=
  let first := min bytes.length (capture.capacity - capture.start)
  { capture with
    buffer := overwrite (overwrite capture.buffer capture.start (bytes.take first)) 0
      (bytes.drop first)
    start := (capture.start + bytes.length) % capture.capacity }

/-- `TailCapture::push`, `src/proxy.rs:694–722`. -/
def push (capture : TailCapture) (bytes : List UInt8) : TailCapture :=
  if capture.capacity = 0 then capture
  else if capture.capacity ≤ bytes.length then
    { capture with buffer := bytes.drop (bytes.length - capture.capacity), start := 0 }
  else if capture.buffer.length < capture.capacity then
    let append := min bytes.length (capture.capacity - capture.buffer.length)
    let grown := { capture with buffer := capture.buffer ++ bytes.take append }
    if bytes.drop append = [] then grown else grown.wrap (bytes.drop append)
  else capture.wrap bytes

/-- `TailCapture::to_vec`, `src/proxy.rs:724–732`. -/
def toVec (capture : TailCapture) : List UInt8 :=
  if capture.buffer.length < capture.capacity ∨ capture.start = 0 then capture.buffer
  else capture.buffer.drop capture.start ++ capture.buffer.take capture.start

end TailCapture

/-- `SSE_CAPTURE_LIMIT`, `src/proxy.rs:27`. -/
def sseCaptureLimit : Nat := 1024 * 1024

/-! ### Terminal events -/

/-- `SseTerminal`, `src/proxy.rs:735–741`. -/
inductive SseTerminal where
  | completed
  | incomplete
  | failed
  | error
  deriving DecidableEq

/-- The first index at which a pattern occurs, as in `windows(..).position(..)`. -/
def positionOf (pattern : List UInt8) : List UInt8 → Option Nat
  | [] => none
  | b :: bytes =>
    if pattern.isPrefixOf (b :: bytes) then some 0 else (positionOf pattern bytes).map (· + 1)

/-- The bytes of a text. -/
def bytesOf (text : String) : List UInt8 := text.toUTF8.data.toList

/-- The patterns of `find_sse_terminal`, `src/proxy.rs:782–794`. -/
def terminalPatterns : List (String × SseTerminal) :=
  [("\"type\":\"response.completed\"", .completed),
    ("\"type\": \"response.completed\"", .completed),
    ("\"type\":\"response.incomplete\"", .incomplete),
    ("\"type\": \"response.incomplete\"", .incomplete),
    ("\"type\":\"response.failed\"", .failed),
    ("\"type\": \"response.failed\"", .failed),
    ("\"type\":\"error\"", .error),
    ("\"type\": \"error\"", .error)]

/-- `find_sse_terminal`, `src/proxy.rs:781–804`: the first pattern that occurs. -/
def findSseTerminal (bytes : List UInt8) : Option (Nat × SseTerminal) :=
  let found := terminalPatterns.filterMap fun pattern ↦
    (positionOf (bytesOf pattern.1) bytes).map fun position ↦ (position, pattern.2)
  found.foldl (fun best candidate ↦ match best with
    | some least => if candidate.1 < least.1 then some candidate else some least
    | none => some candidate) none

/-- `contains_sse_boundary`, `src/proxy.rs:806–809`. -/
def containsSseBoundary (bytes : List UInt8) : Bool :=
  (positionOf (bytesOf "\n\n") bytes).isSome || (positionOf (bytesOf "\r\n\r\n") bytes).isSome

/-- `tail_bytes`, `src/proxy.rs:811–813`. -/
def tailBytes (bytes : List UInt8) (limit : Nat) : List UInt8 := bytes.drop (bytes.length - limit)

/-- `SseTerminalDetector`, `src/proxy.rs:743–747`. -/
structure SseTerminalDetector where
  carry : List UInt8
  pending : Option SseTerminal

/-- `SseTerminalDetector::default`. -/
def SseTerminalDetector.fresh : SseTerminalDetector := ⟨[], none⟩

/-- `SseTerminalDetector::observe`, `src/proxy.rs:750–778`. -/
def SseTerminalDetector.observe (detector : SseTerminalDetector) (bytes : List UInt8) :
    SseTerminalDetector × Option SseTerminal :=
  let combined := detector.carry ++ bytes
  match detector.pending with
  | some terminal =>
    if containsSseBoundary combined then (⟨[], none⟩, some terminal)
    else (⟨tailBytes combined 3, some terminal⟩, none)
  | none =>
    match findSseTerminal combined with
    | some (position, terminal) =>
      let afterMarker := combined.drop position
      if containsSseBoundary afterMarker then (⟨[], none⟩, some terminal)
      else (⟨tailBytes afterMarker 3, some terminal⟩, none)
    | none => (⟨tailBytes combined 64, none⟩, none)

/-! ### Metadata -/

/-- `response_id_from_value`, `src/proxy.rs:672–677`. -/
def responseIdFromValue (value : JsonValue) : Option String :=
  ((value.get "id").bind JsonValue.asStr).or
    ((value.pointer ["response", "id"]).bind JsonValue.asStr)

/-- Whether a text contains another. -/
def containsText (pattern : List Char) : List Char → Bool
  | [] => pattern.isEmpty
  | c :: text => pattern.isPrefixOf (c :: text) || containsText pattern text

variable [JsonText]

/-- `response_id_from_sse`, `src/proxy.rs:661–670`. -/
def responseIdFromSse (text : List Char) : Option String :=
  ((dataLines text).reverse.filterMap JsonText.fromStr).findSome? responseIdFromValue

/-- `capture_metadata`, `src/proxy.rs:483–503`. -/
def captureMetadata (capture : TailCapture) (assumeSse : Bool) : UsageData × Option String :=
  let bytes := capture.toVec
  let captured := fromUtf8Lossy bytes
  if assumeSse || "data:".toList.isPrefixOf captured || containsText "\ndata:".toList captured then
    (extractUsageFromSse captured, responseIdFromSse captured)
  else
    let json := (String.fromUTF8? ⟨bytes.toArray⟩).bind JsonText.fromStr
    ((json.map extractUsageFromJson).getD .none, json.bind responseIdFromValue)

end CodexLb.Proxy
