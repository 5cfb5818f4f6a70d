import CodexLb.Grammar.Json
import CodexLb.Streaming.Occurrence
import CodexLb.Upstream.Sse

/-!
# The last named object of a text

What `last_named_json_object`, `src/upstream.rs:377–422`, finds. Its scan counts
braces outside strings and so ends with the object that it starts in. Which
object it starts in is decided by the first colon after the name and the first
brace after that, whatever stands between them.
-/

namespace CodexLb

open Grammar Streaming

/-! ### The scan of a whole object -/

/-- Within an object, the scan reads over a text and is where it was. -/
def ScansOver (text : List Char) : Prop :=
  ∀ read depth rest, 0 < depth → scanObject read depth false false (text ++ rest) =
    scanObject (text.reverse ++ read) depth false false rest

/-- The scan reads over a plain character. -/
theorem scansOver_plain {c : Char} (h : IsPlain c) : ScansOver [c] := by
  intro read depth rest _
  obtain ⟨hquote, hopen, hclose⟩ := h
  have hopen' : c ≠ Char.ofNat 0x7B := hopen
  have hclose' : c ≠ Char.ofNat 0x7D := hclose
  simp only [List.singleton_append, scanObject, Bool.false_eq_true, if_false, if_neg hquote,
    if_neg hopen', if_neg hclose', List.reverse_singleton]

/-- The scan reads over one text after another. -/
theorem ScansOver.append {a b : List Char} (ha : ScansOver a) (hb : ScansOver b) :
    ScansOver (a ++ b) := by
  intro read depth rest hdepth
  rw [List.append_assoc, ha read depth _ hdepth, hb _ depth rest hdepth, List.reverse_append,
    List.append_assoc]

/-- In a string the scan reads to its closing quote. -/
theorem scanObject_stringBody {body : List Char} (h : StringBody body) (read : List Char)
    (depth : Nat) (rest : List Char) :
    scanObject read depth true false (body ++ '"' :: rest) =
      scanObject ('"' :: (body.reverse ++ read)) depth false false rest := by
  induction h generalizing read with
  | empty => simp [scanObject]
  | char c text hc _ ih =>
    simp only [isStringChar, Bool.and_eq_true, bne_iff_ne] at hc
    simp [scanObject, hc.1.1, hc.1.2, ih]
  | escape c text _ _ ih => simp [scanObject, ih]
  | unicode digits text hdigits _ _ ih =>
    have hplain : ∀ c ∈ digits, c ≠ '"' ∧ c ≠ '\\' := by
      intro c hc
      have hhex := hdigits c hc
      constructor
      · rintro rfl
        revert hhex
        decide
      · rintro rfl
        revert hhex
        decide
    have hread : ∀ digits read, (∀ c ∈ digits, c ≠ '"' ∧ c ≠ '\\') →
        scanObject read depth true false (digits ++ (text ++ '"' :: rest)) =
          scanObject (digits.reverse ++ read) depth true false (text ++ '"' :: rest) := by
      intro digits
      induction digits with
      | nil => simp
      | cons c digits ihdigits =>
        intro read hall
        rw [List.forall_mem_cons] at hall
        simp [scanObject, hall.1.1, hall.1.2, ihdigits _ hall.2]
    simp [scanObject, hread digits _ hplain, ih]

/-- The scan reads over a string, whatever it holds. -/
theorem scansOver_quoted {text : List Char} (h : Quoted text) : ScansOver text := by
  obtain ⟨body, hbody, rfl⟩ := h
  intro read depth rest _
  have hquote : '"' ≠ Char.ofNat 0x7B := by decide
  simp [scanObject, scanObject_stringBody hbody]

/-- The scan reads over braces with what it reads over between them. -/
theorem ScansOver.braces {inner : List Char} (h : ScansOver inner) :
    ScansOver ('\x7b' :: inner ++ ['\x7d']) := by
  intro read depth rest hdepth
  have hpos : depth ≠ 0 := by omega
  simp [scanObject, h _ (depth + 1) _ (Nat.zero_lt_succ depth), hpos]

/-- The scan reads over white space. -/
theorem scansOver_spaces {text : List Char} (h : Spaces text) : ScansOver text :=
  closed_of_isPlain (fun _ _ _ _ ↦ rfl) (fun _ _ ↦ ScansOver.append) (fun _ ↦ scansOver_plain)
    h.isPlain

/-- The scan reads over everything that the grammar derives. -/
theorem scansOver_of_derives {symbol : Symbol} {text : List Char} (h : Derives symbol text) :
    ScansOver text :=
  h.closed (fun _ _ _ _ ↦ rfl) (fun _ _ ↦ ScansOver.append) (fun _ ↦ scansOver_plain)
    (fun _ ↦ scansOver_quoted) (fun _ ↦ ScansOver.braces)

/-- The scan of an object ends at its last brace. -/
theorem scanObject_object {object : List Char} (h : IsObject object) (rest : List Char) :
    scanObject [] 0 false false (object ++ rest) = some object := by
  obtain ⟨inner, hinner, rfl⟩ := h
  have hover : ScansOver inner := hinner.elim scansOver_spaces scansOver_of_derives
  simp [scanObject, hover _ 1 _ Nat.one_pos]

/-- What a scan returns is what it has read, up to a closing brace. -/
theorem scanObject_eq_some {read object text : List Char} {depth : Nat} {inString escaped : Bool}
    (h : scanObject read depth inString escaped text = some object) :
    ∃ inner after, text = inner ++ '\x7d' :: after ∧
      object = read.reverse ++ inner ++ ['\x7d'] := by
  -- one character further, the character belongs to what has been read
  have hextend : ∀ c read rest, (∃ inner after, rest = inner ++ '\x7d' :: after ∧
      object = (c :: read).reverse ++ inner ++ ['\x7d']) →
        ∃ inner after, c :: rest = inner ++ '\x7d' :: after ∧
          object = read.reverse ++ inner ++ ['\x7d'] := by
    rintro c read rest ⟨inner, after, rfl, hobject⟩
    exact ⟨c :: inner, after, rfl, by simp [hobject]⟩
  fun_induction scanObject read depth inString escaped text with
  | case1 => cases h
  | case8 read depth _ _ rest =>
    cases h
    exact ⟨[], rest, rfl, by simp⟩
  | case2 | case3 | case4 | case5 | case6 | case7 | case9 | case10 =>
    rename_i ih
    exact hextend _ _ _ (ih h)

/-! ### White space -/

/-- A text of white space. -/
def Blank (text : List Char) : Prop := ∀ c ∈ text, isWhiteSpace c = true

/-- What is no white space is not in a blank text. -/
theorem Blank.ne {text : List Char} (h : Blank text) {c x : Char} (hx : isWhiteSpace x = false)
    (hc : c ∈ text) : c ≠ x := by
  rintro rfl
  rw [h c hc] at hx
  cases hx

/-- No value begins with white space. -/
theorem isWhiteSpace_of_startsValue {c : Char} (h : startsValue c = true) :
    isWhiteSpace c = false := by
  rcases Bool.or_eq_true_iff.mp h with hdigit | hmark
  · apply isWhiteSpace_of_isWordChar
    simp [isWordChar, Char.isAlphanum, hdigit]
  · have hall : ∀ c ∈ ['n', 't', 'f', '"', '[', '\x7b', '-'], isWhiteSpace c = false :=
      List.all_iff_forall_prop.mp (by decide)
    exact hall c (List.contains_iff_mem.mp hmark)

/-- Skipping to a character that is no white space skips a blank text. -/
theorem dropWhile_blank {space rest : List Char} {x : Char} (hspace : Blank space)
    (hx : isWhiteSpace x = false) : (space ++ x :: rest).dropWhile (· ≠ x) = x :: rest := by
  rw [List.dropWhile_append_of_pos fun c hc ↦ decide_eq_true (hspace.ne hx hc)]
  simp

/-- Skipping white space ends at a character that is none. -/
theorem dropWhile_isWhiteSpace {space rest : List Char} {x : Char} (hspace : Blank space)
    (hx : isWhiteSpace x = false) : (space ++ x :: rest).dropWhile isWhiteSpace = x :: rest := by
  rw [List.dropWhile_append_of_pos hspace, List.dropWhile_cons_of_neg (by simp [hx])]

/-! ### The occurrences of a name -/

/-- A name in quotes. -/
def quotedName (name : String) : List Char := '"' :: name.toList ++ ['"']

/-- The matches below a position, by the occurrences. -/
theorem rmatchIndices_succ (needle text : List Char) (start bound : Nat) :
    rmatchIndices needle text (start + 1) bound =
      if start + needle.length ≤ bound ∧ OccursAt needle text start then
        start :: rmatchIndices needle text start start
      else rmatchIndices needle text start bound :=
  if_congr (and_congr_right' List.isPrefixOf_iff_prefix) rfl rfl

/-- The last occurrence is the first match from the right. -/
theorem rmatchIndices_eq_cons {needle text : List Char} {i start bound : Nat} (hlt : i < start)
    (hle : i + needle.length ≤ bound) (h : OccursAt needle text i)
    (hlast : ∀ j, i < j → ¬OccursAt needle text j) :
    rmatchIndices needle text start bound = i :: rmatchIndices needle text i i := by
  induction start with
  | zero => omega
  | succ start ih =>
    rw [rmatchIndices_succ]
    by_cases heq : i = start
    · subst heq
      exact if_pos ⟨hle, h⟩
    · have hother : ¬(start + needle.length ≤ bound ∧ OccursAt needle text start) :=
        fun hmatch ↦ hlast start (by omega) hmatch.2
      rw [if_neg hother]
      exact ih (by omega)

/-- In a text whose rest has no occurrence, the one before the colon is the last. -/
theorem occursAt_le_of_rest {name : String} {before rest : List Char} {j : Nat}
    (hcolon : ':' ∉ quotedName name) (hrest : ∀ k, ¬OccursAt (quotedName name) rest k)
    (h : OccursAt (quotedName name) (before ++ quotedName name ++ ':' :: rest) j) :
    j ≤ before.length := by
  rcases (occursAt_append_cons hcolon).mp h with h | ⟨k, -, h⟩
  · have hle := h.length_le (List.cons_ne_nil _ _)
    rw [List.length_append] at hle
    omega
  · exact absurd h (hrest k)

/-- A name that is not in white space, not in an object and not behind it is nowhere in them. -/
theorem not_occursAt_object {name : String} {space object after : List Char}
    (hbrace : '\x7d' ∉ quotedName name) (hspace : Blank space) (hobject : IsObject object)
    (hinner : ¬quotedName name <:+: object) (hafter : ¬quotedName name <:+: after) (k : Nat) :
    ¬OccursAt (quotedName name) (space ++ object ++ after) k := by
  obtain ⟨inner, -, hsplit⟩ := hobject
  have hregroup : space ++ object ++ after =
      (space ++ '\x7b' :: inner) ++ '\x7d' :: after := by
    simp [hsplit]
  intro h
  rw [hregroup] at h
  rcases (occursAt_append_cons hbrace).mp h with h | ⟨j, -, h⟩
  · have hwhole : OccursAt (quotedName name) (space ++ object) k := by
      have happend := h.append (b := ['\x7d'])
      rw [hsplit]
      simpa using happend
    by_cases hk : k < space.length
    · exact absurd rfl (hspace.ne (by decide) (OccursAt.head_mem hwhole hk))
    · obtain ⟨m, rfl⟩ := Nat.exists_eq_add_of_le (Nat.not_lt.mp hk)
      exact hinner (occursAt_append_right.mp hwhole).isInfix
  · exact hafter h.isInfix

section Objects

variable [JsonText]

/-- After white space and a colon, what is read begins with the first brace. -/
theorem objectAfterKey_blank {space rest : List Char} (hspace : Blank space) :
    objectAfterKey (space ++ ':' :: rest) =
      ((scanObject [] 0 false false (rest.dropWhile (· ≠ '\x7b'))).map String.ofList).bind
        JsonText.fromStr := by
  rw [objectAfterKey, dropWhile_blank hspace (by decide)]

/-- The object that follows a colon and white space is read. -/
theorem objectAfterKey_object {space object after : List Char} (hspace : Blank space)
    (hobject : IsObject object) : objectAfterKey (':' :: (space ++ object ++ after)) =
      JsonText.fromStr (String.ofList object) := by
  have hskip : (space ++ object ++ after).dropWhile (· ≠ '\x7b') = object ++ after := by
    obtain ⟨inner, -, rfl⟩ := hobject
    simp only [List.append_assoc, List.cons_append]
    exact dropWhile_blank hspace (by decide)
  have hnone : Blank [] := by simp [Blank]
  have hkey : objectAfterKey ([] ++ ':' :: (space ++ object ++ after)) = _ :=
    objectAfterKey_blank hnone
  rw [List.nil_append] at hkey
  rw [hkey, hskip, scanObject_object hobject, Option.map_some, Option.bind_some]

/-- **The whole object is found.** Behind any text, the object that follows the last `"usage"` and
a colon is read to its last brace, whatever strings it holds and whatever comes after it. -/
theorem usage_object_found (before space object after : List Char) (value : JsonValue)
    (hspace : Blank space) (hobject : IsObject object)
    (hread : JsonText.fromStr (String.ofList object) = some value)
    (hinner : ¬quotedName "usage" <:+: object) (hafter : ¬quotedName "usage" <:+: after) :
    lastNamedJsonObject (before ++ quotedName "usage" ++ ':' :: (space ++ object ++ after))
      "usage" = some value := by
  have hrest := not_occursAt_object (by decide) hspace hobject hinner hafter
  have hlast : ∀ j, before.length < j → ¬OccursAt (quotedName "usage")
      (before ++ quotedName "usage" ++ ':' :: (space ++ object ++ after)) j := by
    intro j hj h
    have hle := occursAt_le_of_rest (by decide) hrest h
    omega
  have hoccurs : OccursAt (quotedName "usage")
      (before ++ quotedName "usage" ++ ':' :: (space ++ object ++ after)) before.length := by
    rw [OccursAt, List.append_assoc, List.drop_left]
    exact List.prefix_append _ _
  have hkey : (before ++ quotedName "usage" ++ ':' :: (space ++ object ++ after)).drop
      (before.length + (quotedName "usage").length) = ':' :: (space ++ object ++ after) := by
    rw [← List.length_append, List.drop_left]
  have hlength : before.length + (quotedName "usage").length <
      (before ++ quotedName "usage" ++ ':' :: (space ++ object ++ after)).length := by
    simp only [List.length_append, List.length_cons]
    omega
  have hmatches := rmatchIndices_eq_cons (Nat.lt_of_le_of_lt (Nat.le_add_right _ _) hlength)
    (Nat.le_of_lt hlength) hoccurs hlast
  unfold lastNamedJsonObject
  dsimp only
  rw [show '"' :: "usage".toList ++ ['"'] = quotedName "usage" from rfl, hmatches,
    List.findSome?_cons, hkey, objectAfterKey_object hspace hobject, hread]

/-! ### Where the search stops -/

omit [JsonText] in
/-- The matches are occurrences, from the right. -/
theorem rmatchIndices_sound (needle text : List Char) (start bound : Nat) :
    (∀ i ∈ rmatchIndices needle text start bound, i < start ∧ OccursAt needle text i) ∧
      (rmatchIndices needle text start bound).Pairwise (· > ·) := by
  induction start generalizing bound with
  | zero => exact ⟨by simp [rmatchIndices], List.Pairwise.nil⟩
  | succ start ih =>
    rw [rmatchIndices_succ]
    split
    · next hmatch =>
      obtain ⟨hall, hsorted⟩ := ih start
      rw [List.forall_mem_cons, List.pairwise_cons]
      have hbelow : ∀ i ∈ rmatchIndices needle text start start,
          i < start + 1 ∧ OccursAt needle text i :=
        fun i hi ↦ ⟨Nat.lt_succ_of_lt (hall i hi).1, (hall i hi).2⟩
      exact ⟨⟨⟨Nat.lt_succ_self start, hmatch.2⟩, hbelow⟩, fun i hi ↦ (hall i hi).1, hsorted⟩
    · obtain ⟨hall, hsorted⟩ := ih bound
      exact ⟨fun i hi ↦ ⟨Nat.lt_succ_of_lt (hall i hi).1, (hall i hi).2⟩, hsorted⟩

/-- The text after an occurrence of a name. -/
def afterName (text : List Char) (name : String) (start : Nat) : List Char :=
  text.drop (start + (quotedName name).length)

/-- The occurrence at which the search stops: an object is read from it, and from none to its
right. -/
structure Decides (text : List Char) (name : String) (start : Nat) : Prop where
  found : start ∈ rmatchIndices (quotedName name) text text.length text.length
  read : (objectAfterKey (afterName text name start)).isSome = true
  last : ∀ later ∈ rmatchIndices (quotedName name) text text.length text.length,
    start < later → objectAfterKey (afterName text name later) = none

variable {text : List Char} {name : String} {start start' : Nat} {value : JsonValue}

/-- The search stops at one occurrence. -/
theorem Decides.unique (h : Decides text name start) (h' : Decides text name start') :
    start = start' := by
  rcases Nat.lt_trichotomy start start' with hlt | heq | hlt
  · have hread := h'.read
    rw [h.last start' h'.found hlt] at hread
    cases hread
  · exact heq
  · have hread := h.read
    rw [h'.last start h.found hlt] at hread
    cases hread

/-- The result of the search is what is read where it stops. -/
theorem lastNamedJsonObject_eq_some_iff : lastNamedJsonObject text name = some value ↔
    ∃ start, Decides text name start ∧ objectAfterKey (afterName text name start) = some value := by
  have hsorted := (rmatchIndices_sound (quotedName name) text text.length text.length).2
  have hunfold : lastNamedJsonObject text name =
      (rmatchIndices (quotedName name) text text.length text.length).findSome? fun start ↦
        objectAfterKey (afterName text name start) := rfl
  rw [hunfold]
  constructor
  · intro h
    obtain ⟨before, start, after, hsplit, hvalue, hnone⟩ := List.findSome?_eq_some_iff.mp h
    refine ⟨start, ⟨?_, ?_, fun later hlater hlt ↦ ?_⟩, hvalue⟩
    · rw [hsplit]
      simp
    · rw [hvalue]
      rfl
    · rw [hsplit] at hlater hsorted
      rcases List.mem_append.mp hlater with hbefore | hrest
      · exact hnone later hbefore
      · rcases List.mem_cons.mp hrest with rfl | hafter
        · omega
        · have hgt := (List.pairwise_cons.mp (List.pairwise_append.mp hsorted).2.1).1 later hafter
          omega
  · rintro ⟨start, hdecides, hvalue⟩
    obtain ⟨before, after, hsplit⟩ := List.append_of_mem hdecides.found
    apply List.findSome?_eq_some_iff.mpr
    refine ⟨before, start, after, hsplit, hvalue, fun later hlater ↦ ?_⟩
    rw [hsplit] at hsorted
    have hgt := (List.pairwise_append.mp hsorted).2.2 later hlater start List.mem_cons_self
    exact hdecides.last later (hsplit ▸ List.mem_append_left _ hlater) hgt

/-- An occurrence in the search is the name at its place. -/
theorem Decides.split (h : Decides text name start) : (text.take start).length = start ∧
    text = text.take start ++ quotedName name ++ afterName text name start := by
  obtain ⟨hlt, rest, hrest⟩ := (rmatchIndices_sound _ _ _ _).1 start h.found
  have hafter : afterName text name start = rest := by
    rw [afterName, ← List.drop_drop, ← hrest, List.drop_left]
  constructor
  · rw [List.length_take]
    omega
  · rw [hafter, List.append_assoc, hrest, List.take_append_drop]

/-! ### What the search reads -/

/-- The value is that of the JSON object which follows the name at a place, a colon and white
space. -/
def FollowsName (text : List Char) (name : String) (start : Nat) (value : JsonValue) : Prop :=
  ∃ before space space' object after,
    text = before ++ quotedName name ++ (space ++ ':' :: (space' ++ object ++ after)) ∧
      before.length = start ∧ Blank space ∧ Blank space' ∧ IsObject object ∧
        JsonText.fromStr (String.ofList object) = some value

/-- What the search of a text may read: the object that follows the name, and nothing from an
occurrence that is followed by another value. -/
structure ReadsOnlyNamed (text : List Char) (name : String) : Prop where
  object : ∀ value, lastNamedJsonObject text name = some value →
    ∃ start, Decides text name start ∧ FollowsName text name start value
  others : ∀ start, Decides text name start → ∀ space space' other after,
    afterName text name start = space ++ ':' :: (space' ++ other ++ after) →
      Blank space → Blank space' → Derives .value other → IsObject other

/-- After white space comes a colon, and after white space a brace. -/
def objectIsNext (afterKey : List Char) : Bool :=
  match afterKey.dropWhile isWhiteSpace with
  | c :: rest => c == ':' && (rest.dropWhile isWhiteSpace).head? == some '\x7b'
  | [] => false

omit [JsonText] in
/-- An object is next where white space, a colon, white space and a brace are. -/
theorem objectIsNext_iff {afterKey : List Char} : objectIsNext afterKey = true ↔
    ∃ space space' rest, afterKey = space ++ ':' :: (space' ++ '\x7b' :: rest) ∧
      Blank space ∧ Blank space' := by
  have hsplit : ∀ text : List Char,
      text = text.takeWhile isWhiteSpace ++ text.dropWhile isWhiteSpace :=
    fun text ↦ List.takeWhile_append_dropWhile.symm
  have hblank : ∀ text : List Char, Blank (text.takeWhile isWhiteSpace) :=
    fun _ ↦ List.all_eq_true.mp List.all_takeWhile
  unfold objectIsNext
  constructor
  · intro h
    split at h
    · next c rest hrest =>
      rw [Bool.and_eq_true, beq_iff_eq, beq_iff_eq, List.head?_eq_some_iff] at h
      obtain ⟨rfl, rest', hrest'⟩ := h
      refine ⟨_, _, rest', ?_, hblank afterKey, hblank rest⟩
      rw [← hrest', ← hsplit rest, ← hrest, ← hsplit afterKey]
    · cases h
  · rintro ⟨space, space', rest, rfl, hspace, hspace'⟩
    rw [dropWhile_isWhiteSpace hspace (by decide)]
    dsimp only
    rw [dropWhile_isWhiteSpace hspace' (by decide)]
    rfl

/-- What `serde_json` reads is a JSON text. -/
def ReadsGrammar : Prop := ∀ text value, JsonText.fromStr text = some value →
  Derives .element text.toList

/-- From an occurrence behind which an object is next, that object is read. -/
theorem objectAfterKey_of_next (hreader : ReadsGrammar) {space space' rest : List Char}
    (hspace : Blank space) (hspace' : Blank space')
    (h : objectAfterKey (space ++ ':' :: (space' ++ '\x7b' :: rest)) = some value) :
    ∃ object after, '\x7b' :: rest = object ++ after ∧ IsObject object ∧
      JsonText.fromStr (String.ofList object) = some value := by
  rw [objectAfterKey_blank hspace, dropWhile_blank hspace' (by decide),
    Option.bind_eq_some_iff] at h
  obtain ⟨_, hmap, hread⟩ := h
  obtain ⟨object, hscan, rfl⟩ := Option.map_eq_some_iff.mp hmap
  obtain ⟨inner, after, htext, hobject⟩ := scanObject_eq_some hscan
  refine ⟨object, after, ?_, ?_, hread⟩
  · rw [htext, hobject]
    simp
  · have hderives := hreader _ _ hread
    rw [String.toList_ofList, hobject, List.reverse_nil, List.nil_append] at hderives
    rw [hobject, List.reverse_nil, List.nil_append]
    cases inner with
    | nil => exact absurd (List.cons.inj htext).1 (by decide)
    | cons c inner =>
      rw [List.cons_append] at htext
      rw [← (List.cons.inj htext).1] at hderives ⊢
      exact hderives.isObject

/-- **When the search reads only the named object.** The result is the object that follows the
name, and never one further on, exactly if a colon and a brace are all that stands between the
occurrence at which the search stops and the object. -/
theorem readsOnlyNamed_iff (hreader : ReadsGrammar) (text : List Char) (name : String) :
    ReadsOnlyNamed text name ↔
      ∀ start, Decides text name start → objectIsNext (afterName text name start) = true := by
  constructor
  · intro h start hdecides
    obtain ⟨value, hvalue⟩ := Option.isSome_iff_exists.mp hdecides.read
    have hlast := lastNamedJsonObject_eq_some_iff.mpr ⟨start, hdecides, hvalue⟩
    obtain ⟨start', hdecides', before, space, space', object, after, htext, hlength, hspace,
      hspace', ⟨inner, -, rfl⟩, -⟩ := h.object value hlast
    rw [objectIsNext_iff]
    refine ⟨space, space', inner ++ '\x7d' :: after, ?_, hspace, hspace'⟩
    rw [hdecides.unique hdecides', afterName, htext, ← hlength, ← List.length_append,
      List.drop_left]
    simp
  · intro h
    constructor
    · intro value hvalue
      obtain ⟨start, hdecides, hread⟩ := lastNamedJsonObject_eq_some_iff.mp hvalue
      obtain ⟨space, space', rest, hafter, hspace, hspace'⟩ :=
        objectIsNext_iff.mp (h start hdecides)
      rw [hafter] at hread
      obtain ⟨object, after, hrest, hobject, hread⟩ :=
        objectAfterKey_of_next hreader hspace hspace' hread
      obtain ⟨hlength, htext⟩ := hdecides.split
      refine ⟨start, hdecides, text.take start, space, space', object, after, ?_, hlength, hspace,
        hspace', hobject, hread⟩
      rw [List.append_assoc space' object after, ← hrest, ← hafter]
      exact htext
    · intro start hdecides space space' other after hother hspace hspace' hvalue
      obtain ⟨c, rest, rfl, hstart, hobject⟩ := hvalue.head
      apply hobject
      have hnext := h start hdecides
      rw [hother, objectIsNext, dropWhile_isWhiteSpace hspace (by decide)] at hnext
      dsimp only at hnext
      rw [List.append_assoc, List.cons_append,
        dropWhile_isWhiteSpace hspace' (isWhiteSpace_of_startsValue hstart)] at hnext
      simpa using hnext

end Objects

section Sample

/-- A reader of one text. -/
@[reducible] def readerOf (text : List Char) (value : JsonValue) : JsonText :=
  ⟨fun other ↦ if other.toList = text then some value else none⟩

/-- A reader of one JSON text reads nothing else. -/
theorem readerOf_readsGrammar {text : List Char} {value : JsonValue}
    (h : Derives .element text) : @ReadsGrammar (readerOf text value) := by
  intro other value' hread
  change (if other.toList = text then some value else none) = some value' at hread
  split at hread
  · next heq => exact heq ▸ h
  · cases hread

/-- A value is an element. -/
private theorem element_of_value {text : List Char} (h : Derives .value text) :
    Derives .element text := by
  have helement := Derives.element [] text [] (by simp [Spaces]) h (by simp [Spaces])
  simpa using helement

/-- A name and its value, without white space. -/
private theorem member_of_value {name text : List Char} (hname : StringBody name)
    (h : Derives .value text) : Derives .member ('"' :: name ++ '"' :: ':' :: text) := by
  have hmember := Derives.member [] ('"' :: name ++ ['"']) [] text (by simp [Spaces])
    ⟨name, hname, rfl⟩ (by simp [Spaces]) (element_of_value h)
  simpa using hmember

/-- A counter of one digit. -/
private theorem digit_derives (d : Char) (hd : d.isDigit = true) (hzero : d ≠ '0') :
    Derives .value [d] :=
  .number [d] (.parts [] [d] [] [] (by simp) (.other d [] hd hzero (by simp)) .absent .absent)

/-- An object with a counter. -/
def counterObject : List Char := "\x7b\"input_tokens\":9\x7d".toList

/-- The value of the object. -/
def counterValue : JsonValue := .object [("input_tokens", .number (.posInt 9))]

private theorem counterObject_isObject : IsObject counterObject := by
  refine ⟨"\"input_tokens\":9".toList, .inr (.lastMember _ ?_), by decide +kernel⟩
  have hname : StringBody "input_tokens".toList := stringBody_of_all (by decide +kernel)
  exact member_of_value hname (digit_derives '9' (by decide) (by decide))

/-- An object with escaped quotes and braces in a string, and another object in it. -/
def nestedObject : List Char :=
  "\x7b\"note\":\"\\\"\x7d\x7b é\",\"details\":".toList ++ counterObject ++ ['\x7d']

private theorem nestedObject_isObject : IsObject nestedObject := by
  have hnote : StringBody "\\\"\x7d\x7b é".toList :=
    .escape '"' "\x7d\x7b é".toList (by decide) (stringBody_of_all (by decide +kernel))
  have hname : StringBody "note".toList := stringBody_of_all (by decide +kernel)
  have hdetails : StringBody "details".toList := stringBody_of_all (by decide +kernel)
  have hfirst := member_of_value hname (.string _ ⟨_, hnote, rfl⟩)
  have hsecond := member_of_value hdetails counterObject_isObject.derives
  exact ⟨_, .inr (.members _ _ hfirst (.lastMember _ hsecond)), by decide +kernel⟩

private theorem blank_space : Blank [' '] := by
  intro c hc
  rw [List.mem_singleton.mp hc]
  decide

/-- Behind cut output the whole nested object is read, whatever braces follow. -/
theorem usage_object_found_nested :
    @lastNamedJsonObject (readerOf nestedObject counterValue)
      ("cut \\\"\x7d\x7b, ".toList ++ quotedName "usage" ++
        ':' :: ([' '] ++ nestedObject ++ "\x7d\x7d\n\ndata: [DONE]".toList)) "usage" =
      some counterValue :=
  @usage_object_found (readerOf nestedObject counterValue) _ _ _ _ _ blank_space
    nestedObject_isObject (if_pos String.toList_ofList) (by decide +kernel) (by decide +kernel)

/-- A text in which the object directly follows the name. -/
theorem readsOnlyNamed_iff_direct : let _ := readerOf counterObject counterValue
    ReadsOnlyNamed (quotedName "usage" ++ ':' :: counterObject) "usage" ↔
      ∀ start, Decides (quotedName "usage" ++ ':' :: counterObject) "usage" start →
        objectIsNext (afterName (quotedName "usage" ++ ':' :: counterObject) "usage" start) =
          true := by
  intro _
  exact readsOnlyNamed_iff
    (readerOf_readsGrammar (element_of_value counterObject_isObject.derives)) _ _

/-- A text in which the name has no object and another name has one. -/
def foreignText : List Char := "\"usage\":null,\"metadata\":".toList ++ counterObject

private theorem foreignText_matches : rmatchIndices (quotedName "usage") foreignText
    foreignText.length foreignText.length = [0] := by
  decide +kernel

/-- Another object is read for a name that is null. -/
theorem foreign_object_read : let _ := readerOf counterObject counterValue
    lastNamedJsonObject foreignText "usage" = some counterValue ∧
      ¬ReadsOnlyNamed foreignText "usage" := by
  intro reader
  have hempty : Blank [] := by simp [Blank]
  have hafter : afterName foreignText "usage" 0 =
      [] ++ ':' :: ([] ++ "null".toList ++ (",\"metadata\":".toList ++ counterObject)) := by
    decide +kernel
  have hvalue : objectAfterKey (afterName foreignText "usage" 0) = some counterValue := by
    have hscan : scanObject [] 0 false false
        (([] ++ "null".toList ++ (",\"metadata\":".toList ++ counterObject)).dropWhile
          (· ≠ '\x7b')) = some counterObject := by
      decide +kernel
    rw [hafter, objectAfterKey_blank hempty, hscan, Option.map_some, Option.bind_some]
    exact if_pos String.toList_ofList
  have hdecides : Decides foreignText "usage" 0 := by
    constructor
    · rw [foreignText_matches]
      exact List.mem_singleton_self 0
    · rw [hvalue]
      rfl
    · intro later hlater hlt
      rw [foreignText_matches, List.mem_singleton] at hlater
      omega
  constructor
  · exact lastNamedJsonObject_eq_some_iff.mpr ⟨0, hdecides, hvalue⟩
  · intro h
    obtain ⟨inner, -, hnull⟩ := h.others 0 hdecides [] [] _ _ hafter hempty hempty
      (.literal _ (by decide))
    have hhead : some 'n' = some '\x7b' := congrArg List.head? hnull
    exact absurd hhead (by decide)

end Sample

end CodexLb
