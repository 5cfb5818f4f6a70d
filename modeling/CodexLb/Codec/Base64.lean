import Mathlib.Data.List.Basic
import Mathlib.Data.List.Infix
import Mathlib.Data.Nat.Bitwise

/-!
# Base64

The encoding of bytes by an alphabet of 64 characters, six bits a character,
and its strict decoding. The decoder accepts a text exactly when it is the
encoding of what it yields, so every sequence of bytes has one text, and one
more with padding.
-/

namespace CodexLb.Codec

/-! ### Binary digits -/

/-- The last binary digits of a number, the most significant first. -/
def bits : Nat → Nat → List Bool
  | 0, _ => []
  | width + 1, n => n.testBit width :: bits width n

/-- The number that binary digits stand for. -/
def ofBits : List Bool → Nat
  | [] => 0
  | digit :: digits => 2 ^ digits.length * digit.toNat + ofBits digits

@[simp] theorem length_bits (width n : Nat) : (bits width n).length = width := by
  induction width with
  | zero => rfl
  | succ width ih => rw [bits, List.length_cons, ih]

/-- Digits stand for a number below a power of two. -/
theorem ofBits_lt (digits : List Bool) : ofBits digits < 2 ^ digits.length := by
  induction digits with
  | nil => exact Nat.one_pos
  | cons digit digits ih =>
    rw [ofBits, List.length_cons, Nat.pow_succ]
    cases digit
    · simp only [Bool.toNat_false]
      omega
    · simp only [Bool.toNat_true]
      omega

/-- The digits of a number are those of its last digits. -/
theorem ofBits_bits (width n : Nat) : ofBits (bits width n) = n % 2 ^ width := by
  induction width with
  | zero => simp [bits, ofBits, Nat.mod_one]
  | succ width ih =>
    rw [bits, ofBits, length_bits, ih, Nat.mod_pow_succ, Nat.testBit_eq_decide_div_mod_eq,
      Nat.add_comm]
    rcases Nat.mod_two_eq_zero_or_one (n / 2 ^ width) with h | h
    · simp [h]
    · simp [h]

/-- Higher digits are not seen. -/
theorem bits_add (width high n : Nat) {above : Nat} (h : width ≤ above) :
    bits width (2 ^ above * high + n) = bits width n := by
  induction width with
  | zero => rfl
  | succ width ih =>
    have hbit : (2 ^ above * high + n).testBit width = n.testBit width := by
      rw [Nat.testBit_eq_decide_div_mod_eq, Nat.testBit_eq_decide_div_mod_eq]
      obtain ⟨more, rfl⟩ := Nat.exists_eq_add_of_le h
      have hsplit : 2 ^ (width + 1 + more) * high = 2 ^ width * (2 * (2 ^ more * high)) := by
        rw [Nat.pow_add, Nat.pow_succ]
        simp only [Nat.mul_assoc]
      rw [hsplit, Nat.mul_add_div (Nat.two_pow_pos width), Nat.mul_add_mod]
    rw [bits, bits, hbit, ih (by omega)]

/-- The digits can be read back from their number. -/
theorem bits_ofBits (digits : List Bool) : bits digits.length (ofBits digits) = digits := by
  induction digits with
  | nil => rfl
  | cons digit digits ih =>
    have hlt := ofBits_lt digits
    rw [ofBits, List.length_cons, bits, bits_add _ _ _ (Nat.le_refl _), ih,
      Nat.testBit_eq_decide_div_mod_eq, Nat.mul_add_div (Nat.two_pow_pos _),
      Nat.div_eq_of_lt hlt]
    cases digit <;> rfl

/-! ### Pieces of equal length -/

variable {α : Type*}

/-- The first pieces of a list, all of one size. -/
def chunks (size : Nat) : Nat → List α → List (List α)
  | 0, _ => []
  | count + 1, items => items.take size :: chunks size count (items.drop size)

@[simp] theorem length_chunks (size count : Nat) (items : List α) :
    (chunks size count items).length = count := by
  induction count generalizing items with
  | zero => rfl
  | succ count ih => rw [chunks, List.length_cons, ih]

/-- Every piece has the size. -/
theorem length_of_mem_chunks {size count : Nat} {items : List α} (h : size * count ≤ items.length)
    {piece : List α} (hpiece : piece ∈ chunks size count items) : piece.length = size := by
  induction count generalizing items with
  | zero => cases hpiece
  | succ count ih =>
    rw [Nat.mul_succ] at h
    rw [chunks] at hpiece
    rcases List.mem_cons.mp hpiece with rfl | hpiece
    · rw [List.length_take]
      omega
    · refine ih ?_ hpiece
      rw [List.length_drop]
      omega

/-- The pieces make up the front of the list. -/
theorem flatten_chunks (size count : Nat) (items : List α) :
    (chunks size count items).flatten = items.take (size * count) := by
  induction count generalizing items with
  | zero => simp [chunks]
  | succ count ih =>
    rw [chunks, List.flatten_cons, ih, Nat.mul_succ, Nat.add_comm, List.take_add]

/-- Pieces of one size can be read back from a list that they begin. -/
theorem chunks_flatten_append {size : Nat} {pieces : List (List α)}
    (h : ∀ piece ∈ pieces, piece.length = size) (rest : List α) :
    chunks size pieces.length (pieces.flatten ++ rest) = pieces := by
  induction pieces with
  | nil => rfl
  | cons piece pieces ih =>
    have hpiece := h piece List.mem_cons_self
    rw [List.length_cons, chunks, List.flatten_cons, List.append_assoc, ← hpiece, List.take_left,
      List.drop_left, hpiece, ih fun other hother ↦ h other (List.mem_cons_of_mem _ hother)]

/-- Pieces of digits give back the front of the list, number by number. -/
theorem flatMap_bits_chunks {width count : Nat} {digits : List Bool}
    (h : width * count ≤ digits.length) :
    ((chunks width count digits).map ofBits).flatMap (bits width) =
      digits.take (width * count) := by
  have hpieces : ∀ piece ∈ chunks width count digits, bits width (ofBits piece) = piece := by
    intro piece hpiece
    have hlength := length_of_mem_chunks h hpiece
    rw [← hlength, bits_ofBits]
  rw [List.flatMap_map, List.flatMap_def, List.map_congr_left hpieces, List.map_id',
    flatten_chunks]

/-- Numbers can be read back from the digits that they begin. -/
theorem chunks_flatMap_bits {width : Nat} {numbers : List Nat}
    (h : ∀ n ∈ numbers, n < 2 ^ width) (rest : List Bool) :
    (chunks width numbers.length (numbers.flatMap (bits width) ++ rest)).map ofBits = numbers := by
  have hpieces : ∀ piece ∈ numbers.map (bits width), piece.length = width := by
    intro piece hpiece
    obtain ⟨n, -, rfl⟩ := List.mem_map.mp hpiece
    exact length_bits width n
  have hchunks := chunks_flatten_append hpieces rest
  rw [List.length_map] at hchunks
  rw [List.flatMap_def, hchunks, List.map_map]
  refine (List.map_congr_left fun n hn ↦ ?_).trans (List.map_id' numbers)
  rw [Function.comp_apply, ofBits_bits, Nat.mod_eq_of_lt (h n hn)]

/-! ### Alphabets -/

/-- Sixty-four distinct characters, none of them that of the padding. -/
structure Alphabet where
  chars : List Char
  length_chars : chars.length = 64
  distinct : chars.Nodup
  unpadded : '=' ∉ chars

namespace Alphabet

/-- The character of six bits. -/
def char (a : Alphabet) (n : Nat) : Char := a.chars.getD n 'A'

/-- The six bits of a character. -/
def value (a : Alphabet) (c : Char) : Option Nat := a.chars.idxOf? c

/-- A character stands for six bits exactly when it is their character. -/
theorem value_eq_some_iff (a : Alphabet) {c : Char} {n : Nat} :
    a.value c = some n ↔ n < 64 ∧ a.char n = c := by
  rw [value, List.idxOf?_eq_some_iff]
  constructor
  · rintro ⟨hlt, hget, -⟩
    refine ⟨a.length_chars ▸ hlt, ?_⟩
    rw [char, List.getD_eq_getElem _ _ hlt]
    simpa using hget
  · rintro ⟨hlt, rfl⟩
    rw [← a.length_chars] at hlt
    refine ⟨hlt, ?_, fun j hj ↦ ?_⟩
    · rw [char, List.getD_eq_getElem _ _ hlt]
    · rw [char, List.getD_eq_getElem _ _ hlt]
      exact fun he ↦ hj.ne ((List.getElem_inj a.distinct).mp he)

/-- A text stands for groups of six bits exactly when it is made of their characters. -/
theorem mapM_value_eq_some_iff (a : Alphabet) {text : List Char} {sextets : List Nat} :
    text.mapM a.value = some sextets ↔ (∀ n ∈ sextets, n < 64) ∧ sextets.map a.char = text := by
  induction text generalizing sextets with
  | nil =>
    rw [List.mapM_nil]
    cases sextets <;> simp
  | cons c text ih =>
    rw [List.mapM_cons]
    constructor
    · intro h
      obtain ⟨n, hn, h⟩ := Option.bind_eq_some_iff.mp h
      obtain ⟨rest, hrest, h⟩ := Option.bind_eq_some_iff.mp h
      cases h
      obtain ⟨hlt, hchar⟩ := a.value_eq_some_iff.mp hn
      obtain ⟨hall, htext⟩ := ih.mp hrest
      refine ⟨fun m hm ↦ ?_, by rw [List.map_cons, hchar, htext]⟩
      rcases List.mem_cons.mp hm with rfl | hm
      · exact hlt
      · exact hall m hm
    · rintro ⟨hall, htext⟩
      cases sextets with
      | nil => cases htext
      | cons n rest =>
        obtain ⟨hchar, hrest⟩ := List.cons.inj htext
        have hvalue := a.value_eq_some_iff.mpr ⟨hall n List.mem_cons_self, hchar⟩
        have hmore := ih.mpr ⟨fun m hm ↦ hall m (List.mem_cons_of_mem _ hm), hrest⟩
        rw [hvalue, hmore]
        rfl

/-- The standard alphabet. -/
def standard : Alphabet where
  chars := "ABCDEFGHIJKLMNOPQRSTUVWXYZabcdefghijklmnopqrstuvwxyz0123456789+/".toList
  length_chars := by decide +kernel
  distinct := by decide +kernel
  unpadded := by decide +kernel

end Alphabet

/-! ### The encoding -/

/-- The bits of bytes. -/
def octets (bytes : List UInt8) : List Bool := bytes.flatMap fun byte ↦ bits 8 byte.toNat

/-- The bits of bytes, filled up with zeros to groups of six. -/
def filled (bytes : List UInt8) : List Bool :=
  octets bytes ++ List.replicate ((6 - (octets bytes).length % 6) % 6) false

/-- The text of bytes. -/
def encode (a : Alphabet) (bytes : List UInt8) : String :=
  .ofList ((chunks 6 ((filled bytes).length / 6) (filled bytes)).map fun sextet ↦
    a.char (ofBits sextet))

/-- The bytes of a text. Bits that are left over must be fewer than six, and zeros. -/
def decode (a : Alphabet) (text : String) : Option (List UInt8) :=
  (text.toList.mapM a.value).bind fun sextets ↦
    let data := sextets.flatMap (bits 6)
    let count := data.length / 8
    let rest := data.drop (8 * count)
    if rest.length < 6 ∧ ∀ digit ∈ rest, digit = false then
      some ((chunks 8 count data).map fun octet ↦ .ofNat (ofBits octet))
    else none

/-- A text filled up to groups of four. -/
def padded (text : String) : String :=
  text ++ .ofList (List.replicate ((4 - text.toList.length % 4) % 4) '=')

/-- The bytes of a text with padding. -/
def decodePadded (a : Alphabet) (text : String) : Option (List UInt8) :=
  (decode a (.ofList (text.toList.takeWhile (· ≠ '=')))).filter fun bytes ↦
    padded (encode a bytes) = text

/-! ### Round trips -/

theorem length_octets (bytes : List UInt8) : (octets bytes).length = 8 * bytes.length := by
  induction bytes with
  | nil => rfl
  | cons byte bytes ih =>
    rw [octets, List.flatMap_cons, List.length_append, length_bits, ← octets, ih, List.length_cons]
    omega

theorem length_filled (bytes : List UInt8) :
    (filled bytes).length = 8 * bytes.length + (6 - 8 * bytes.length % 6) % 6 := by
  rw [filled, List.length_append, List.length_replicate, length_octets]

/-- Bytes can be read back from their bits. -/
theorem chunks_octets (bytes : List UInt8) (rest : List Bool) :
    (chunks 8 bytes.length (octets bytes ++ rest)).map (fun octet ↦ UInt8.ofNat (ofBits octet)) =
      bytes := by
  have hlt : ∀ n ∈ bytes.map UInt8.toNat, n < 2 ^ 8 := by
    intro n hn
    obtain ⟨byte, -, rfl⟩ := List.mem_map.mp hn
    exact byte.toNat_lt
  have hnumbers := chunks_flatMap_bits hlt rest
  rw [List.length_map, List.flatMap_map] at hnumbers
  calc (chunks 8 bytes.length (octets bytes ++ rest)).map (fun octet ↦ UInt8.ofNat (ofBits octet))
      = ((chunks 8 bytes.length (octets bytes ++ rest)).map ofBits).map UInt8.ofNat := by
        rw [List.map_map]
        rfl
    _ = (bytes.map UInt8.toNat).map UInt8.ofNat := by
        rw [octets, hnumbers]
    _ = bytes := by
        rw [List.map_map]
        refine (List.map_congr_left fun byte _ ↦ ?_).trans (List.map_id' bytes)
        exact UInt8.ofNat_toNat

/-- The groups of six bits of a text. -/
private theorem sextets_encode (a : Alphabet) (bytes : List UInt8) :
    ∃ sextets, (encode a bytes).toList.mapM a.value = some sextets ∧
      sextets.flatMap (bits 6) = filled bytes := by
  have hfilled : (filled bytes).length = 6 * ((filled bytes).length / 6) := by
    rw [length_filled]
    omega
  refine ⟨_, a.mapM_value_eq_some_iff.mpr ⟨?_, ?_⟩,
    (flatMap_bits_chunks hfilled.ge).trans (List.take_of_length_le hfilled.le)⟩
  · intro n hn
    obtain ⟨piece, hpiece, rfl⟩ := List.mem_map.mp hn
    have hlt := ofBits_lt piece
    rwa [length_of_mem_chunks hfilled.ge hpiece] at hlt
  · rw [encode, String.toList_ofList, List.map_map]
    rfl

/-- Six bits go into one character. -/
theorem length_encode (a : Alphabet) (bytes : List UInt8) :
    (encode a bytes).toList.length = (8 * bytes.length + 5) / 6 := by
  rw [encode, String.toList_ofList, List.length_map, length_chunks, length_filled]
  omega

/-- A text is read back as its bytes. -/
theorem decode_encode (a : Alphabet) (bytes : List UInt8) :
    decode a (encode a bytes) = some bytes := by
  obtain ⟨sextets, hsextets, hdata⟩ := sextets_encode a bytes
  have hlength := length_filled bytes
  have hcount : (filled bytes).length / 8 = bytes.length := by omega
  have hrest : (filled bytes).drop (8 * bytes.length) =
      List.replicate ((6 - (octets bytes).length % 6) % 6) false := by
    rw [filled, ← length_octets, List.drop_left]
  unfold decode
  rw [hsextets, Option.bind_some]
  simp only [hdata, hcount, hrest]
  rw [if_pos ⟨by rw [List.length_replicate]; omega,
    fun digit hdigit ↦ List.eq_of_mem_replicate hdigit⟩, filled, chunks_octets]

/-- The bits of bytes that were made of bits. -/
private theorem octets_chunks {count : Nat} {digits : List Bool} (h : 8 * count ≤ digits.length) :
    octets ((chunks 8 count digits).map fun octet ↦ .ofNat (ofBits octet)) =
      digits.take (8 * count) := by
  rw [← flatMap_bits_chunks h, octets, List.flatMap_map, List.flatMap_map]
  refine List.flatMap_congr fun piece hpiece ↦ ?_
  have hlt := ofBits_lt piece
  rw [length_of_mem_chunks h hpiece] at hlt
  rw [UInt8.toNat_ofNat_of_lt' hlt]

/-- A text that is read is the text of its bytes. -/
theorem encode_of_decode {a : Alphabet} {text : String} {bytes : List UInt8}
    (h : decode a text = some bytes) : encode a bytes = text := by
  unfold decode at h
  obtain ⟨sextets, hsextets, h⟩ := Option.bind_eq_some_iff.mp h
  obtain ⟨hall, htext⟩ := a.mapM_value_eq_some_iff.mp hsextets
  generalize hdata : sextets.flatMap (bits 6) = data at h
  have hlength : data.length = 6 * sextets.length := by
    rw [← hdata, List.length_flatMap]
    simp [Nat.mul_comm]
  dsimp only at h
  split at h
  · next hrest =>
    obtain ⟨hshort, hzeros⟩ := hrest
    obtain rfl := Option.some.inj h
    have hcount : 8 * (data.length / 8) ≤ data.length := Nat.mul_div_le _ _
    have hfilled : filled ((chunks 8 (data.length / 8) data).map fun octet ↦
        .ofNat (ofBits octet)) = data := by
      -- the bits that are left over are those that the encoder fills up
      have hfill : data.drop (8 * (data.length / 8)) =
          List.replicate (data.length - 8 * (data.length / 8)) false :=
        List.eq_replicate_iff.mpr ⟨List.length_drop .., hzeros⟩
      rw [List.length_drop] at hshort
      rw [filled, octets_chunks hcount, List.length_take, Nat.min_eq_left hcount]
      have hpad : (6 - 8 * (data.length / 8) % 6) % 6 =
          data.length - 8 * (data.length / 8) := by omega
      rw [hpad, ← hfill, List.take_append_drop]
    have hsextet : data.length / 6 = sextets.length := by omega
    have hsmall : ∀ n ∈ sextets, n < 2 ^ 6 := hall
    have hnumbers := chunks_flatMap_bits hsmall []
    rw [List.append_nil, hdata] at hnumbers
    rw [encode, hfilled, hsextet, ← String.toList_inj, String.toList_ofList, ← htext, ← hnumbers,
      List.map_map, hnumbers]
    rfl
  · cases h

/-- A text is read exactly when it is the text of the bytes. -/
theorem decode_eq_some_iff {a : Alphabet} {text : String} {bytes : List UInt8} :
    decode a text = some bytes ↔ encode a bytes = text :=
  ⟨encode_of_decode, fun h ↦ h ▸ decode_encode a bytes⟩

/-- A text is made of characters of the alphabet. -/
theorem mem_chars_of_mem_encode {a : Alphabet} {bytes : List UInt8} {c : Char}
    (h : c ∈ (encode a bytes).toList) : c ∈ a.chars := by
  obtain ⟨sextets, hsextets, -⟩ := sextets_encode a bytes
  obtain ⟨hall, htext⟩ := a.mapM_value_eq_some_iff.mp hsextets
  rw [← htext] at h
  obtain ⟨n, hn, rfl⟩ := List.mem_map.mp h
  have hlt : n < a.chars.length := a.length_chars ▸ hall n hn
  rw [Alphabet.char, List.getD_eq_getElem _ _ hlt]
  exact List.getElem_mem hlt

/-- A text with padding is read exactly when it is that of the bytes. -/
theorem decodePadded_eq_some_iff {a : Alphabet} {text : String} {bytes : List UInt8} :
    decodePadded a text = some bytes ↔ padded (encode a bytes) = text := by
  rw [decodePadded, Option.filter_eq_some_iff, decode_eq_some_iff, decide_eq_true_eq]
  refine and_iff_right_of_imp fun h ↦ ?_
  have hbody : ∀ c ∈ (encode a bytes).toList, c ≠ '=' :=
    fun c hc he ↦ a.unpadded (he ▸ mem_chars_of_mem_encode hc)
  rw [← h, padded, String.toList_append, String.toList_ofList,
    List.takeWhile_append_of_pos (by simpa using hbody), List.takeWhile_replicate]
  simp [String.ofList_toList]

end CodexLb.Codec
