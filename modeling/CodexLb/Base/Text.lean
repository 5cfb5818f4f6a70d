import Mathlib.Algebra.Group.Nat.Defs

/-!
# Text operations of the source's standard library

`str::trim`, `to_ascii_lowercase` and the ASCII classes of Rust, and the
`trim` and `lower` of SQLite, on the characters of a string. A length test in
bytes next to a test that every byte is ASCII is a length test in characters.
-/

namespace CodexLb

/-- Unicode `White_Space`, the class that `str::trim` strips. -/
def isWhiteSpace (c : Char) : Bool :=
  (0x09 ≤ c.toNat && c.toNat ≤ 0x0d) || c.toNat == 0x20 || c.toNat == 0x85 || c.toNat == 0xa0 ||
    c.toNat == 0x1680 || (0x2000 ≤ c.toNat && c.toNat ≤ 0x200a) || c.toNat == 0x2028 ||
    c.toNat == 0x2029 || c.toNat == 0x202f || c.toNat == 0x205f || c.toNat == 0x3000

/-- An ASCII letter or digit, `_` or `-`: the characters of a label or of a key kind. -/
def isWordChar (c : Char) : Bool := c.isAlphanum || c == '_' || c == '-'

/-- Drop the characters of a class from both ends. -/
def stripBoth (drop : Char → Bool) (value : List Char) : List Char :=
  (((value.dropWhile drop).reverse).dropWhile drop).reverse

/-- `str::trim`. -/
def trim (value : String) : String := String.ofList (stripBoth isWhiteSpace value.toList)

/-- SQLite's `trim`, which strips spaces only. -/
def sqlTrim (value : String) : String := String.ofList (stripBoth (· == ' ') value.toList)

/-- `to_ascii_lowercase`, and SQLite's `lower`. -/
def toAsciiLowercase (value : String) : String := String.ofList (value.toList.map Char.toLower)

/-- `str::parse::<u64>`: decimal digits after an optional plus sign. -/
def parseU64 (text : String) : Option Nat :=
  let digits : List Char := match text.toList with
    | '+' :: rest => rest
    | digits => digits
  let value : Nat := digits.foldl (fun value c ↦ 10 * value + (c.toNat - 48)) 0
  if digits ≠ [] ∧ digits.all Char.isDigit ∧ value < 2 ^ 64 then some value else none

/-- A word character is not white space. -/
theorem isWhiteSpace_of_isWordChar {c : Char} (h : isWordChar c = true) :
    isWhiteSpace c = false := by
  have hn : (48 ≤ c.toNat ∧ c.toNat ≤ 57) ∨ (65 ≤ c.toNat ∧ c.toNat ≤ 90) ∨
      (97 ≤ c.toNat ∧ c.toNat ≤ 122) ∨ c.toNat = 95 ∨ c.toNat = 45 := by
    have hc : (((decide (c.val ≥ 'A'.val ∧ c.val ≤ 'Z'.val) ||
        (c.val ≥ 'a'.val && c.val ≤ 'z'.val)) || (c.val ≥ '0'.val && c.val ≤ '9'.val)) ||
          c == '_' || c == '-') = true := h
    simp only [Bool.or_eq_true, Bool.and_eq_true, decide_eq_true_eq, beq_iff_eq, ge_iff_le,
      UInt32.le_iff_toNat_le] at hc
    rcases hc with ((h | h) | rfl) | rfl
    · rcases h with h | h
      · exact .inr (.inl h)
      · exact .inr (.inr (.inl h))
    · exact .inl h
    · exact .inr (.inr (.inr (.inl rfl)))
    · exact .inr (.inr (.inr (.inr rfl)))
  simp only [isWhiteSpace, Bool.or_eq_false_iff, Bool.and_eq_false_iff, decide_eq_false_iff_not,
    beq_eq_false_iff_ne]
  omega

private theorem stripBoth_of_all {drop : Char → Bool} {value : List Char}
    (h : ∀ c ∈ value, drop c = false) : stripBoth drop value = value := by
  have hself : ∀ l : List Char, (∀ c ∈ l, drop c = false) → l.dropWhile drop = l := by
    intro l hl
    cases l with
    | nil => rfl
    | cons c l => rw [List.dropWhile_cons, hl c List.mem_cons_self]; rfl
  rw [stripBoth, hself value h, hself value.reverse (by simpa using h), List.reverse_reverse]

/-- Trimming keeps a text without white space. -/
theorem trim_of_solid {value : String} (h : ∀ c ∈ value.toList, isWhiteSpace c = false) :
    trim value = value := by
  rw [trim, stripBoth_of_all h, String.ofList_toList]

/-- Trimming keeps a word. -/
theorem trim_of_word {value : String} (h : value.toList.all isWordChar = true) :
    trim value = value :=
  trim_of_solid fun c hc ↦ isWhiteSpace_of_isWordChar (List.all_eq_true.mp h c hc)

/-- SQLite's trimming keeps a word. -/
theorem sqlTrim_of_word {value : String} (h : value.toList.all isWordChar = true) :
    sqlTrim value = value := by
  rw [sqlTrim, stripBoth_of_all, String.ofList_toList]
  intro c hc
  have hspace := isWhiteSpace_of_isWordChar (List.all_eq_true.mp h c hc)
  cases heq : c == ' ' with
  | false => rfl
  | true =>
    rw [beq_iff_eq.mp heq] at hspace
    cases hspace

/-! ### Letter case -/

/-- What holds of equal characters, and of each capital letter with its small one, holds of a
character with its lower case. -/
theorem toLower_cases {P : Char → Char → Prop} (same : ∀ c, P c c)
    (capital : ∀ n < 26, P (Char.ofNat (65 + n)) (Char.ofNat (97 + n))) (c : Char) :
    P c c.toLower := by
  have hsmall : ∀ n < 26, (Char.ofNat (65 + n)).toLower = Char.ofNat (97 + n) := by decide
  by_cases h : c.val ≥ 'A'.val ∧ c.val ≤ 'Z'.val
  · have hlow : 65 ≤ c.toNat := UInt32.le_iff_toNat_le.mp h.1
    have hhigh : c.toNat ≤ 90 := UInt32.le_iff_toNat_le.mp h.2
    have hc : c = Char.ofNat (65 + (c.toNat - 65)) := by
      rw [Nat.add_sub_cancel' hlow, Char.ofNat_toNat]
    rw [hc, hsmall _ (by omega)]
    exact capital _ (by omega)
  · have hc : c.toLower = c := by
      unfold Char.toLower
      exact dif_neg h
    rw [hc]
    exact same c

/-- The lower case of a character is a word character exactly when the character is one. -/
theorem isWordChar_toLower (c : Char) : isWordChar c.toLower = isWordChar c :=
  toLower_cases (P := fun c d ↦ isWordChar d = isWordChar c) (fun _ ↦ rfl) (by decide) c

/-- A lower case is its own lower case. -/
theorem toLower_toLower (c : Char) : c.toLower.toLower = c.toLower :=
  toLower_cases (P := fun c d ↦ d.toLower = c.toLower) (fun _ ↦ rfl) (by decide) c

/-- A lower-cased text is its own lower case. -/
theorem toAsciiLowercase_idem (value : String) :
    toAsciiLowercase (toAsciiLowercase value) = toAsciiLowercase value := by
  have hcomp : Char.toLower ∘ Char.toLower = Char.toLower := funext toLower_toLower
  simp [toAsciiLowercase, hcomp]

/-- A text is a word exactly when its lower case is one. -/
theorem all_isWordChar_toAsciiLowercase (value : String) :
    (toAsciiLowercase value).toList.all isWordChar = value.toList.all isWordChar := by
  simp [toAsciiLowercase, List.all_map, Function.comp_def, isWordChar_toLower]

end CodexLb
