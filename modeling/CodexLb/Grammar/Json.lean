import Mathlib.Data.Bool.AllAny
import Mathlib.Data.List.Basic

/-!
# The grammar of JSON

Texts as lists of characters, and the grammar of RFC 8259 as a relation. What
a reader of the text can rely on is proved once: which characters stand
outside strings, and that a property which holds of plain characters and of
strings, and which concatenation and braces keep, holds of every value.
-/

namespace Grammar

/-! ### Tokens -/

/-- White space. -/
def isSpace (c : Char) : Bool := c == ' ' || c == '\t' || c == '\n' || c == '\r'

/-- A text of white space. -/
def Spaces (text : List Char) : Prop := ∀ c ∈ text, isSpace c = true

/-- One digit or more. -/
def Digits (text : List Char) : Prop := text ≠ [] ∧ ∀ c ∈ text, c.isDigit = true

/-- The whole part of a number, without leading zeros. -/
inductive Whole : List Char → Prop
  | zero : Whole ['0']
  | other (d : Char) (rest : List Char) (hd : d.isDigit = true) (hzero : d ≠ '0')
      (hrest : ∀ c ∈ rest, c.isDigit = true) : Whole (d :: rest)

/-- The fraction of a number. -/
inductive Fraction : List Char → Prop
  | absent : Fraction []
  | digits (text : List Char) (h : Digits text) : Fraction ('.' :: text)

/-- The exponent of a number. -/
inductive Exponent : List Char → Prop
  | absent : Exponent []
  | digits (e : Char) (sign text : List Char) (he : e ∈ ['e', 'E'])
      (hsign : sign ∈ [[], ['+'], ['-']]) (h : Digits text) : Exponent (e :: sign ++ text)

/-- A number. -/
inductive Number : List Char → Prop
  | parts (sign whole fraction exponent : List Char) (hsign : sign ∈ [[], ['-']])
      (hwhole : Whole whole) (hfraction : Fraction fraction) (hexponent : Exponent exponent) :
      Number (sign ++ whole ++ fraction ++ exponent)

/-- A hexadecimal digit. -/
def isHex (c : Char) : Bool :=
  c.isDigit || (decide ('a' ≤ c) && decide (c ≤ 'f')) || (decide ('A' ≤ c) && decide (c ≤ 'F'))

/-- A character that stands for itself in a string: no quote, no escape and no control character. -/
def isStringChar (c : Char) : Bool := c != '"' && c != '\\' && decide (0x20 ≤ c.toNat)

/-- What stands between the quotes of a string. -/
inductive StringBody : List Char → Prop
  | empty : StringBody []
  | char (c : Char) (rest : List Char) (hc : isStringChar c = true) (hrest : StringBody rest) :
      StringBody (c :: rest)
  | escape (c : Char) (rest : List Char) (hc : c ∈ ['"', '\\', '/', 'b', 'f', 'n', 'r', 't'])
      (hrest : StringBody rest) : StringBody ('\\' :: c :: rest)
  | unicode (digits rest : List Char) (hdigits : ∀ c ∈ digits, isHex c = true)
      (hfour : digits.length = 4) (hrest : StringBody rest) :
      StringBody ('\\' :: 'u' :: digits ++ rest)

/-- A string with its quotes. -/
def Quoted (text : List Char) : Prop := ∃ body, StringBody body ∧ text = '"' :: body ++ ['"']

/-- A text whose characters stand for themselves is the inside of a string. -/
theorem stringBody_of_all {text : List Char} (h : text.all isStringChar = true) :
    StringBody text := by
  induction text with
  | nil => exact .empty
  | cons c rest ih =>
    rw [List.all_cons, Bool.and_eq_true] at h
    exact .char c rest h.1 (ih h.2)

/-! ### Values -/

/-- The literal names. -/
def literals : List (List Char) := ["null".toList, "true".toList, "false".toList]

/-- The symbols of the grammar; an element is a value with white space around it. -/
inductive Symbol where
  | value
  | element
  | elements
  | member
  | members

/-- The texts that the grammar derives from a symbol. -/
inductive Derives : Symbol → List Char → Prop
  | literal (text : List Char) (h : text ∈ literals) : Derives .value text
  | number (text : List Char) (h : Number text) : Derives .value text
  | string (text : List Char) (h : Quoted text) : Derives .value text
  | emptyArray (space : List Char) (h : Spaces space) : Derives .value ('[' :: space ++ [']'])
  | array (elements : List Char) (h : Derives .elements elements) :
      Derives .value ('[' :: elements ++ [']'])
  | emptyObject (space : List Char) (h : Spaces space) :
      Derives .value ('\x7b' :: space ++ ['\x7d'])
  | object (members : List Char) (h : Derives .members members) :
      Derives .value ('\x7b' :: members ++ ['\x7d'])
  | element (before value after : List Char) (hbefore : Spaces before)
      (hvalue : Derives .value value) (hafter : Spaces after) :
      Derives .element (before ++ value ++ after)
  | lastElement (element : List Char) (h : Derives .element element) : Derives .elements element
  | elements (element rest : List Char) (h : Derives .element element)
      (hrest : Derives .elements rest) : Derives .elements (element ++ ',' :: rest)
  | member (before name after value : List Char) (hbefore : Spaces before) (hname : Quoted name)
      (hafter : Spaces after) (hvalue : Derives .element value) :
      Derives .member (before ++ name ++ after ++ ':' :: value)
  | lastMember (member : List Char) (h : Derives .member member) : Derives .members member
  | members (member rest : List Char) (h : Derives .member member)
      (hrest : Derives .members rest) : Derives .members (member ++ ',' :: rest)

/-- The text of an object. -/
def IsObject (text : List Char) : Prop :=
  ∃ inner, (Spaces inner ∨ Derives .members inner) ∧ text = '\x7b' :: inner ++ ['\x7d']

/-- An object is a value. -/
theorem IsObject.derives {text : List Char} (h : IsObject text) : Derives .value text := by
  obtain ⟨inner, hspace | hmembers, rfl⟩ := h
  · exact .emptyObject inner hspace
  · exact .object inner hmembers

/-! ### Characters outside strings -/

/-- A character that opens or closes neither a string nor an object. -/
def IsPlain (c : Char) : Prop := c ≠ '"' ∧ c ≠ '\x7b' ∧ c ≠ '\x7d'

instance (c : Char) : Decidable (IsPlain c) := inferInstanceAs (Decidable (_ ∧ _))

/-- White space is plain. -/
theorem isPlain_of_isSpace {c : Char} (h : isSpace c = true) : IsPlain c := by
  simp only [isSpace, Bool.or_eq_true, beq_iff_eq] at h
  rcases h with ((rfl | rfl) | rfl) | rfl <;> decide

/-- A digit is plain. -/
theorem isPlain_of_isDigit {c : Char} (h : c.isDigit = true) : IsPlain c := by
  constructor
  · rintro rfl
    revert h
    decide
  · constructor
    · rintro rfl
      revert h
      decide
    · rintro rfl
      revert h
      decide

/-- A number is plain. -/
theorem Number.isPlain {text : List Char} (h : Number text) : ∀ c ∈ text, IsPlain c := by
  obtain ⟨sign, whole, fraction, exponent, hsign, hwhole, hfraction, hexponent⟩ := h
  have hsigns : ∀ sign ∈ [[], ['+'], ['-']], ∀ c ∈ sign, IsPlain c := by simp [IsPlain]
  have hminus : sign ∈ [[], ['+'], ['-']] := by
    rcases List.mem_pair.mp hsign with rfl | rfl
    · simp
    · simp
  simp only [List.forall_mem_append]
  refine ⟨⟨⟨hsigns sign hminus, ?_⟩, ?_⟩, ?_⟩
  · cases hwhole with
    | zero => simp [IsPlain]
    | other d rest hd hzero hrest =>
      rw [List.forall_mem_cons]
      exact ⟨isPlain_of_isDigit hd, fun c hc ↦ isPlain_of_isDigit (hrest c hc)⟩
  · cases hfraction with
    | absent => simp
    | digits text htext =>
      rw [List.forall_mem_cons]
      exact ⟨by decide, fun c hc ↦ isPlain_of_isDigit (htext.2 c hc)⟩
  · cases hexponent with
    | absent => simp
    | digits e sign text he hsign htext =>
      rw [List.cons_append, List.forall_mem_cons, List.forall_mem_append]
      have hmark : IsPlain e := by
        rcases List.mem_pair.mp he with rfl | rfl
        · decide
        · decide
      exact ⟨hmark, hsigns sign hsign, fun c hc ↦ isPlain_of_isDigit (htext.2 c hc)⟩

/-- A literal name is plain. -/
theorem isPlain_of_mem_literals {text : List Char} (h : text ∈ literals) :
    ∀ c ∈ text, IsPlain c := by
  have hall : ∀ text ∈ literals, (text.all fun c ↦ decide (IsPlain c)) = true := by decide
  exact List.all_iff_forall_prop.mp (hall text h)

/-- A property of plain characters that concatenation keeps holds of every plain text. -/
theorem closed_of_isPlain {P : List Char → Prop} (nil : P [])
    (append : ∀ a b, P a → P b → P (a ++ b)) (plain : ∀ c, IsPlain c → P [c]) {text : List Char}
    (h : ∀ c ∈ text, IsPlain c) : P text := by
  induction text with
  | nil => exact nil
  | cons c rest ih =>
    rw [List.forall_mem_cons] at h
    exact append [c] rest (plain c h.1) (ih h.2)

/-- White space is a plain text. -/
theorem Spaces.isPlain {text : List Char} (h : Spaces text) : ∀ c ∈ text, IsPlain c :=
  fun c hc ↦ isPlain_of_isSpace (h c hc)

/-- A property of plain characters and of strings that concatenation and braces keep holds of
every text that the grammar derives. -/
theorem Derives.closed {P : List Char → Prop} (nil : P [])
    (append : ∀ a b, P a → P b → P (a ++ b)) (plain : ∀ c, IsPlain c → P [c])
    (string : ∀ text, Quoted text → P text)
    (braces : ∀ inner, P inner → P ('\x7b' :: inner ++ ['\x7d'])) {symbol : Symbol}
    {text : List Char} (h : Derives symbol text) : P text := by
  have cons : ∀ c rest, IsPlain c → P rest → P (c :: rest) :=
    fun c rest hc hrest ↦ append [c] rest (plain c hc) hrest
  have all : ∀ text, (∀ c ∈ text, IsPlain c) → P text :=
    fun _ ↦ closed_of_isPlain nil append plain
  have space : ∀ text, Spaces text → P text := fun text htext ↦ all text htext.isPlain
  have brackets : ∀ inner, P inner → P ('[' :: inner ++ [']']) := fun inner hinner ↦
    append _ _ (cons _ _ (by decide) hinner) (plain _ (by decide))
  induction h with
  | literal text h => exact all text (isPlain_of_mem_literals h)
  | number text h => exact all text h.isPlain
  | string text h => exact string text h
  | emptyArray text h => exact brackets text (space text h)
  | array elements _ ih => exact brackets elements ih
  | emptyObject text h => exact braces text (space text h)
  | object members _ ih => exact braces members ih
  | element before value after hbefore _ hafter ih =>
    exact append _ _ (append _ _ (space before hbefore) ih) (space after hafter)
  | lastElement element _ ih => exact ih
  | elements element rest _ _ ih ihrest => exact append _ _ ih (cons _ _ (by decide) ihrest)
  | member before name after value hbefore hname hafter _ ih =>
    have hkey := append _ _ (append _ _ (space before hbefore) (string name hname))
      (space after hafter)
    exact append _ _ hkey (cons _ _ (by decide) ih)
  | lastMember member _ ih => exact ih
  | members member rest _ _ ih ihrest => exact append _ _ ih (cons _ _ (by decide) ihrest)

/-! ### The first character of a value -/

/-- The characters with which a value can begin. -/
def startsValue (c : Char) : Bool :=
  c.isDigit || ['n', 't', 'f', '"', '[', '\x7b', '-'].contains c

/-- A number begins with a sign or a digit. -/
theorem Number.head {text : List Char} (h : Number text) :
    ∃ c rest, text = c :: rest ∧ startsValue c = true := by
  have hdigit : ∀ c : Char, c.isDigit = true → startsValue c = true :=
    fun c hc ↦ by rw [startsValue, hc, Bool.true_or]
  obtain ⟨sign, whole, fraction, exponent, hsign, hwhole, -, -⟩ := h
  rcases List.mem_pair.mp hsign with rfl | rfl
  · cases hwhole with
    | zero => exact ⟨'0', _, rfl, by decide⟩
    | other d rest hd hzero hrest => exact ⟨d, _, rfl, hdigit d hd⟩
  · exact ⟨'-', _, rfl, by decide⟩

/-- A value begins with a brace only if it is an object. -/
theorem Derives.head {text : List Char} (h : Derives .value text) :
    ∃ c rest, text = c :: rest ∧ startsValue c = true ∧ (c = '\x7b' → IsObject text) := by
  have hother : ∀ c : Char, c ≠ '\x7b' → c = '\x7b' → IsObject text :=
    fun _ hc hbrace ↦ absurd hbrace hc
  cases h with
  | literal text h =>
    simp only [literals, List.mem_cons, List.not_mem_nil, or_false] at h
    rcases h with rfl | rfl | rfl
    · exact ⟨'n', _, rfl, by decide, hother 'n' (by decide)⟩
    · exact ⟨'t', _, rfl, by decide, hother 't' (by decide)⟩
    · exact ⟨'f', _, rfl, by decide, hother 'f' (by decide)⟩
  | number text h =>
    obtain ⟨c, rest, heq, hstart⟩ := h.head
    have hplain : IsPlain c := h.isPlain c (heq ▸ List.mem_cons_self)
    exact ⟨c, rest, heq, hstart, hother c hplain.2.1⟩
  | string text h =>
    obtain ⟨body, -, rfl⟩ := h
    exact ⟨'"', _, rfl, by decide, hother '"' (by decide)⟩
  | emptyArray space h => exact ⟨'[', _, rfl, by decide, hother '[' (by decide)⟩
  | array elements h => exact ⟨'[', _, rfl, by decide, hother '[' (by decide)⟩
  | emptyObject space h => exact ⟨'\x7b', _, rfl, by decide, fun _ ↦ ⟨space, .inl h, rfl⟩⟩
  | object members h => exact ⟨'\x7b', _, rfl, by decide, fun _ ↦ ⟨members, .inr h, rfl⟩⟩

/-- A value with white space around it that begins and ends with a brace is an object. -/
theorem Derives.isObject {inner : List Char}
    (h : Derives .element ('\x7b' :: inner ++ ['\x7d'])) :
    IsObject ('\x7b' :: inner ++ ['\x7d']) := by
  generalize htext : '\x7b' :: inner ++ ['\x7d'] = text at h
  cases h with | element before value after hbefore hvalue hafter =>
  have hnobefore : before = [] := by
    cases before with
    | nil => rfl
    | cons c before =>
      have hc : c = '\x7b' := (List.cons.inj htext).1.symm
      have hspace := hbefore c List.mem_cons_self
      rw [hc] at hspace
      cases hspace
  have hnoafter : after = [] := by
    rcases List.eq_nil_or_concat after with rfl | ⟨rest, c, rfl⟩
    · rfl
    · have hlast := congrArg List.getLast? htext
      simp only [List.concat_eq_append, ← List.append_assoc, List.getLast?_concat,
        Option.some.injEq] at hlast
      have hspace := hafter c (by simp)
      rw [← hlast] at hspace
      cases hspace
  subst hnobefore hnoafter
  rw [List.nil_append, List.append_nil] at htext ⊢
  obtain ⟨c, rest, heq, -, hobject⟩ := hvalue.head
  apply hobject
  rw [heq] at htext
  exact (List.cons.inj htext).1.symm

end Grammar
