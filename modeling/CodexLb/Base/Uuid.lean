import CodexLb.Base.Text
import Mathlib.Tactic.IntervalCases

/-!
# Identifiers and their text

Account identifiers, what the source relies on in the `uuid` crate's text of
them, and the hyphenated form that the crate prints. The hexadecimal digits
are also those of an affinity hash.
-/

namespace CodexLb

/-- Account identifiers are sixteen-byte blobs; `migrations/202605050001_initial.sql:2`. -/
abbrev Uuid := BitVec 128

/-- The textual form of account identifiers, which the `uuid` crate fixes: an identifier is
printed in 36 word characters that parse back to it. -/
class UuidText where
  parseStr : String → Option Uuid
  toText : Uuid → String
  parseStr_toText : ∀ id, parseStr (toText id) = some id
  length_toText : ∀ id, (toText id).toList.length = 36
  word_toText : ∀ id, (toText id).toList.all isWordChar = true

/-! ### Hexadecimal digits -/

/-- The last `width` hexadecimal digits of a number, most significant first. -/
def hexDigits : Nat → Nat → List Char
  | 0, _ => []
  | width + 1, n => hexDigits width (n / 16) ++ [Nat.digitChar (n % 16)]

/-- The value of a hexadecimal digit in either case. -/
def hexValue (c : Char) : Option Nat :=
  if c.isDigit then some (c.toNat - 48)
  else if 'a' ≤ c ∧ c ≤ 'f' then some (c.toNat - 87)
  else if 'A' ≤ c ∧ c ≤ 'F' then some (c.toNat - 55)
  else none

/-- The number that hexadecimal digits spell. -/
def parseHex (digits : List Char) : Option Nat :=
  digits.foldlM (fun n c ↦ (hexValue c).map fun d ↦ 16 * n + d) 0

private theorem hexValue_digitChar : ∀ d < 16, hexValue (Nat.digitChar d) = some d := by decide

private theorem word_digitChar : ∀ d < 16, isWordChar (Nat.digitChar d) = true := by decide

/-- The letter case of a digit makes no difference. -/
theorem hexValue_toLower (c : Char) : hexValue c.toLower = hexValue c :=
  toLower_cases (P := fun c d ↦ hexValue d = hexValue c) (fun _ ↦ rfl) (by decide) c

/-- The letter case of digits makes no difference. -/
theorem parseHex_map_toLower (digits : List Char) :
    parseHex (digits.map Char.toLower) = parseHex digits := by
  simp only [parseHex, List.foldlM_map, hexValue_toLower]

/-- The digits have the requested width. -/
theorem length_hexDigits (width n : Nat) : (hexDigits width n).length = width := by
  induction width generalizing n with
  | zero => rfl
  | succ width ih => rw [hexDigits, List.length_append, ih]; rfl

/-- Every digit is the digit of a number below sixteen. -/
theorem mem_hexDigits {width n : Nat} {c : Char} (h : c ∈ hexDigits width n) :
    ∃ d < 16, c = Nat.digitChar d := by
  induction width generalizing n with
  | zero => cases h
  | succ width ih =>
    rcases List.mem_append.mp h with h | h
    · exact ih h
    · exact ⟨n % 16, Nat.mod_lt _ (by decide), List.mem_singleton.mp h⟩

/-- The digits of a number spell it. -/
theorem parseHex_hexDigits {width n : Nat} (h : n < 16 ^ width) :
    parseHex (hexDigits width n) = some n := by
  induction width generalizing n with
  | zero =>
    have hn : n = 0 := by simpa using h
    subst hn
    rfl
  | succ width ih =>
    have hq : n / 16 < 16 ^ width := by
      rw [Nat.div_lt_iff_lt_mul (by decide), ← Nat.pow_succ]
      exact h
    have hd := hexValue_digitChar (n % 16) (Nat.mod_lt _ (by decide))
    rw [parseHex, hexDigits, List.foldlM_append]
    change (parseHex (hexDigits width (n / 16))).bind _ = _
    rw [ih hq]
    change (((hexValue (Nat.digitChar (n % 16))).map fun d ↦ 16 * (n / 16) + d).bind some) = _
    rw [hd]
    change some (16 * (n / 16) + n % 16) = _
    rw [Nat.div_add_mod]

/-! ### The hyphenated form -/

/-- Cut digits into groups joined by hyphens; the last group takes what is left. -/
def writeGroups : List Nat → List Char → List Char
  | [], digits => digits
  | width :: widths, digits =>
    digits.take width ++ '-' :: writeGroups widths (digits.drop width)

/-- Undo `writeGroups`, refusing any other arrangement of the hyphens. -/
def readGroups : List Nat → List Char → Option (List Char)
  | [], digits => some digits
  | width :: widths, text =>
    match text.drop width with
    | '-' :: rest => (readGroups widths rest).map fun digits ↦ text.take width ++ digits
    | _ => none

private theorem readGroups_writeGroups {widths : List Nat} {digits : List Char}
    (h : widths.sum ≤ digits.length) : readGroups widths (writeGroups widths digits) =
      some digits := by
  induction widths generalizing digits with
  | nil => rfl
  | cons width widths ih =>
    rw [List.sum_cons] at h
    have hlen : (digits.take width).length = width := by
      rw [List.length_take]
      omega
    have hrest : widths.sum ≤ (digits.drop width).length := by
      rw [List.length_drop]
      omega
    rw [writeGroups, readGroups, List.drop_left' hlen]
    change (readGroups widths (writeGroups widths (digits.drop width))).map _ = _
    rw [ih hrest, Option.map_some, List.take_left' hlen, List.take_append_drop]

private theorem length_writeGroups {widths : List Nat} {digits : List Char}
    (h : widths.sum ≤ digits.length) :
    (writeGroups widths digits).length = digits.length + widths.length := by
  induction widths generalizing digits with
  | nil => rfl
  | cons width widths ih =>
    rw [List.sum_cons] at h
    rw [writeGroups, List.length_append, List.length_cons, ih (by rw [List.length_drop]; omega),
      List.length_take, List.length_drop, List.length_cons]
    omega

private theorem mem_writeGroups {widths : List Nat} {digits : List Char} {c : Char}
    (h : c ∈ writeGroups widths digits) : c ∈ digits ∨ c = '-' := by
  induction widths generalizing digits with
  | nil => exact .inl h
  | cons width widths ih =>
    rw [writeGroups, List.mem_append, List.mem_cons] at h
    rcases h with h | h | h
    · exact .inl (List.mem_of_mem_take h)
    · exact .inr h
    · rcases ih h with h | h
      · exact .inl (List.mem_of_mem_drop h)
      · exact .inr h

/-- The hyphenated text of an identifier. -/
def hyphenated (id : Uuid) : String :=
  String.ofList (writeGroups [8, 4, 4, 4] (hexDigits 32 id.toNat))

/-- An identifier from its hyphenated text or its 32 bare digits. -/
def parseUuid (text : String) : Option Uuid :=
  let digits := (readGroups [8, 4, 4, 4] text.toList).getD text.toList
  if digits.length = 32 then (parseHex digits).map (BitVec.ofNat 128) else none

/-- The `uuid` crate's text on hyphenated and on bare identifiers. -/
@[reducible] def hyphenatedText : UuidText where
  parseStr := parseUuid
  toText := hyphenated
  parseStr_toText id := by
    have hsum : [8, 4, 4, 4].sum ≤ (hexDigits 32 id.toNat).length := by
      rw [length_hexDigits]
      decide
    have hlt : id.toNat < 16 ^ 32 := id.isLt
    rw [parseUuid, hyphenated, String.toList_ofList, readGroups_writeGroups hsum]
    change (if (hexDigits 32 id.toNat).length = 32 then _ else _) = _
    rw [length_hexDigits, if_pos rfl, Option.getD_some, parseHex_hexDigits hlt, Option.map_some,
      BitVec.ofNat_toNat, BitVec.setWidth_eq]
  length_toText id := by
    rw [hyphenated, String.toList_ofList, length_writeGroups, length_hexDigits]
    · rfl
    · rw [length_hexDigits]
      decide
  word_toText id := by
    rw [hyphenated, String.toList_ofList, List.all_eq_true]
    intro c hc
    rcases mem_writeGroups hc with hc | rfl
    · obtain ⟨d, hd, rfl⟩ := mem_hexDigits hc
      exact word_digitChar d hd
    · decide

end CodexLb
