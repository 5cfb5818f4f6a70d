import CodexLb.Base.Text
import CodexLb.Upstream.Usage

/-!
# Event streams as text

The data lines of a server-sent event stream, and the usage that
`src/upstream.rs:299–320` finds in them or, where the stream is cut, in the
last usage object of the text, `src/upstream.rs:377–422`.
-/

namespace CodexLb

/-! ### Lossy decoding -/

/-- A character that is not complete: the bytes it still needs, the range of the next one and the
bits so far. -/
structure PartialChar where
  need : Nat
  low : Nat
  high : Nat
  bits : Nat

/-- The first byte of a character. -/
def lossyStart (b : Nat) : List Char × Option PartialChar :=
  if b < 0x80 then ([Char.ofNat b], none)
  else if 0xC2 ≤ b ∧ b ≤ 0xDF then ([], some ⟨1, 0x80, 0xBF, b % 0x20⟩)
  else if b = 0xE0 then ([], some ⟨2, 0xA0, 0xBF, 0⟩)
  else if b = 0xED then ([], some ⟨2, 0x80, 0x9F, 0xD⟩)
  else if 0xE1 ≤ b ∧ b ≤ 0xEF then ([], some ⟨2, 0x80, 0xBF, b % 0x10⟩)
  else if b = 0xF0 then ([], some ⟨3, 0x90, 0xBF, 0⟩)
  else if 0xF1 ≤ b ∧ b ≤ 0xF3 then ([], some ⟨3, 0x80, 0xBF, b % 8⟩)
  else if b = 0xF4 then ([], some ⟨3, 0x80, 0x8F, 4⟩)
  else ([Char.ofNat 0xFFFD], none)

/-- A byte after a character that may be incomplete; a byte out of range starts anew. -/
def lossyStep (pending : Option PartialChar) (b : Nat) : List Char × Option PartialChar :=
  match pending with
  | none => lossyStart b
  | some p =>
    if p.low ≤ b ∧ b ≤ p.high then
      let bits := 0x40 * p.bits + b % 0x40
      if p.need = 1 then ([Char.ofNat bits], none) else ([], some ⟨p.need - 1, 0x80, 0xBF, bits⟩)
    else
      (Char.ofNat 0xFFFD :: (lossyStart b).1, (lossyStart b).2)

/-- `String::from_utf8_lossy` from a character that may be incomplete. -/
def lossyFrom (pending : Option PartialChar) : List UInt8 → List Char
  | [] => if pending.isSome then [Char.ofNat 0xFFFD] else []
  | b :: bytes => (lossyStep pending b.toNat).1 ++ lossyFrom (lossyStep pending b.toNat).2 bytes

/-- `String::from_utf8_lossy`: a replacement character for every maximal part that is not UTF-8. -/
def fromUtf8Lossy (bytes : List UInt8) : List Char := lossyFrom none bytes

/-! ### Lines -/

/-- The pieces between line feeds. -/
def splitLines : List Char → List Char × List (List Char)
  | [] => ([], [])
  | c :: rest =>
    let (line, lines) := splitLines rest
    if c = '\n' then ([], line :: lines) else (c :: line, lines)

/-- `str::lines`: no empty last line, and no carriage return before a line feed. -/
def textLines (text : List Char) : List (List Char) :=
  let (first, rest) := splitLines text
  let ended := (first :: rest).dropLast.map fun line ↦
    if line.getLast? = some '\r' then line.dropLast else line
  match (first :: rest).getLast? with
  | some [] | none => ended
  | some last => ended ++ [last]

/-- `str::strip_prefix`. -/
def stripPrefix (lead text : List Char) : Option (List Char) :=
  if lead.isPrefixOf text then some (text.drop lead.length) else none

/-- The data of an event stream's lines, trimmed; neither blank nor the end mark. -/
def dataLines (text : List Char) : List String :=
  ((textLines text).filterMap (stripPrefix "data:".toList)).map
      (fun data ↦ String.ofList (stripBoth isWhiteSpace data))
    |>.filter fun data ↦ data ≠ "" ∧ data ≠ "[DONE]"

section Objects

variable [JsonText]

/-! ### The last named object -/

/-- `str::rmatch_indices` below a position: the matches that end at most at the bound, from the
right, without overlaps. -/
def rmatchIndices (needle text : List Char) : Nat → Nat → List Nat
  | 0, _ => []
  | start + 1, bound =>
    if start + needle.length ≤ bound ∧ needle.isPrefixOf (text.drop start) then
      start :: rmatchIndices needle text start start
    else rmatchIndices needle text start bound

/-- The scan of an object for its closing brace, `src/upstream.rs:389–418`. What has been read is
kept in reverse. -/
def scanObject (read : List Char) (depth : Nat) (inString escaped : Bool) :
    List Char → Option (List Char)
  | [] => none
  | c :: rest =>
    if inString then
      if escaped then scanObject (c :: read) depth true false rest
      else if c = '\\' then scanObject (c :: read) depth true true rest
      else if c = '"' then scanObject (c :: read) depth false false rest
      else scanObject (c :: read) depth true false rest
    else if c = '"' then scanObject (c :: read) depth true false rest
    else if c = Char.ofNat 0x7B then scanObject (c :: read) (depth + 1) false false rest
    else if c = Char.ofNat 0x7D then
      if depth - 1 = 0 then some (c :: read).reverse
      else scanObject (c :: read) (depth - 1) false false rest
    else scanObject (c :: read) depth false false rest

/-- The object after a key, `src/upstream.rs:380–418`: the first brace after the first colon. -/
def objectAfterKey (afterKey : List Char) : Option JsonValue :=
  match afterKey.dropWhile (· ≠ ':') with
  | [] => none
  | _ :: rest =>
    ((scanObject [] 0 false false (rest.dropWhile (· ≠ Char.ofNat 0x7B))).map String.ofList).bind
      JsonText.fromStr

/-- `last_named_json_object`, `src/upstream.rs:377–422`. -/
def lastNamedJsonObject (text : List Char) (name : String) : Option JsonValue :=
  let needle := '"' :: name.toList ++ ['"']
  (rmatchIndices needle text text.length text.length).findSome? fun start ↦
    objectAfterKey (text.drop (start + needle.length))

/-! ### Usage -/

/-- `extract_usage_from_sse`, `src/upstream.rs:299–320`. -/
def extractUsageFromSse (text : List Char) : UsageData :=
  let usage := ((dataLines text).filterMap JsonText.fromStr).foldl mergeUsage .none
  if usage.inputTokens = none ∧ usage.outputTokens = none then
    match lastNamedJsonObject text "usage" with
    | some value => mergeUsageFields usage value
    | none => usage
  else usage

end Objects

end CodexLb
