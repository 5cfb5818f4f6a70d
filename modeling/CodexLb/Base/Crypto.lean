import CodexLb.Base.Models
import CodexLb.Base.Text
import CodexLb.Codec.Base64

/-!
# Tokens at rest

`src/crypto.rs`. A token is stored as a version, a nonce and a ciphertext, the
key as one line of a file. What is read back is exactly what was written, and
nothing else is accepted.
-/

namespace CodexLb

/-! ### Third parties -/

/-- The `base64` crate's standard engine without padding, and its decoder with padding. Both
decoders are strict: a text is read exactly when it is that of the bytes. -/
class StandardBase64 where
  encode : List UInt8 → String
  decode : String → Option (List UInt8)
  decodePadded : String → Option (List UInt8)
  decode_eq_some_iff : ∀ text bytes, decode text = some bytes ↔ encode bytes = text
  decodePadded_eq_some_iff : ∀ text bytes,
    decodePadded text = some bytes ↔ Codec.padded (encode bytes) = text
  mem_encode : ∀ bytes, ∀ c ∈ (encode bytes).toList, c.isAlphanum ∨ c = '+' ∨ c = '/'

/-- The standard alphabet is that of letters, digits and two signs. -/
private theorem mem_standard_chars {c : Char} (hc : c ∈ Codec.Alphabet.standard.chars) :
    c.isAlphanum ∨ c = '+' ∨ c = '/' := by
  have hall : Codec.Alphabet.standard.chars.all
      (fun c ↦ c.isAlphanum || c == '+' || c == '/') = true := by
    decide +kernel
  have h := List.all_eq_true.mp hall c hc
  simpa only [Bool.or_eq_true, beq_iff_eq, or_assoc] using h

/-- The standard alphabet, read strictly. -/
@[reducible] def standardBase64 : StandardBase64 where
  encode := Codec.encode .standard
  decode := Codec.decode .standard
  decodePadded := Codec.decodePadded .standard
  decode_eq_some_iff _ _ := Codec.decode_eq_some_iff
  decodePadded_eq_some_iff _ _ := Codec.decodePadded_eq_some_iff
  mem_encode _ _ hc := mem_standard_chars (Codec.mem_chars_of_mem_encode hc)

/-- AES-256-GCM under a key and a nonce, as the `aes_gcm` crate has it. -/
class Aes256Gcm where
  encrypt : List UInt8 → List UInt8 → List UInt8 → Option (List UInt8)
  decrypt : List UInt8 → List UInt8 → List UInt8 → Option (List UInt8)

/-- What is decrypted under a key and a nonce is what was encrypted under them. -/
def Authenticated [Aes256Gcm] : Prop := ∀ key nonce plaintext ciphertext,
  Aes256Gcm.decrypt key nonce ciphertext = some plaintext ↔
    Aes256Gcm.encrypt key nonce plaintext = some ciphertext

/-! ### The code -/

/-- `[u8; 32]`, the key of `TokenCrypto`. -/
structure EncryptionKey where
  bytes : List UInt8
  length_bytes : bytes.length = 32
  deriving DecidableEq

/-- `[u8; 12]`, a nonce. -/
structure TokenNonce where
  bytes : List UInt8
  length_bytes : bytes.length = 12
  deriving DecidableEq

/-- The bytes of a text. -/
def utf8Bytes (text : String) : List UInt8 := text.toUTF8.data.toList

/-- `String::from_utf8`. -/
def fromUtf8 (bytes : List UInt8) : Option String := String.fromUTF8? ⟨bytes.toArray⟩

/-- `str::splitn`. -/
def splitn (separator : Char) : Nat → List Char → List (List Char)
  | 0, _ => []
  | 1, text => [text]
  | count + 2, text =>
    match text.dropWhile (· ≠ separator) with
    | [] => [text]
    | _ :: rest => text.takeWhile (· ≠ separator) :: splitn separator (count + 1) rest

section Code

variable [StandardBase64]

/-- `decode_key`, `src/crypto.rs:92–100`. -/
def decodeKey (raw : String) : Except String EncryptionKey :=
  match (StandardBase64.decode raw).or (StandardBase64.decodePadded raw) with
  | none => .error "decoding encryption key"
  | some bytes =>
    if h : bytes.length = 32 then .ok ⟨bytes, h⟩
    else .error "encryption key must decode to exactly 32 bytes"

/-- Where `TokenCrypto::load_or_create` is stopped, by an I/O error or with its process. `fs::write`
creates the file before it writes it, so that a part of the text may be left in it. -/
inductive KeyFileStop where
  | creatingParent (parent : String)
  | reading
  | opening
  | writing (written : Nat)
  | settingMode

/-- The key file that `load_or_create` makes of a fresh key, `src/crypto.rs:27–41`, if it is not
stopped before. -/
def makeKeyFile (path : String) (fresh : EncryptionKey) (stopped : Option KeyFileStop) :
    Except String EncryptionKey × Option String :=
  let encoded := StandardBase64.encode fresh.bytes
  match stopped with
  | some .opening => (.error ("writing encryption key to " ++ path), none)
  | some (.writing written) =>
    (.error ("writing encryption key to " ++ path),
      some (.ofList (encoded.toList.take written)))
  | some .settingMode => (.error ("chmod 0600 " ++ path), some encoded)
  | _ => (.ok fresh, some encoded)

/-- `TokenCrypto::load_or_create`, `src/crypto.rs:18–47`, on the text of the key file and a fresh
key: the key, and the file afterwards. A file that is no text is one that cannot be read. -/
def loadOrCreate (path : String) (keyFile : Option String) (fresh : EncryptionKey)
    (stopped : Option KeyFileStop) : Except String EncryptionKey × Option String :=
  match stopped with
  | some (.creatingParent parent) => (.error ("creating " ++ parent), keyFile)
  | some .reading => (.error ("reading " ++ path), keyFile)
  | stopped =>
    match keyFile with
    | some raw => (decodeKey (trim raw), keyFile)
    | none => makeKeyFile path fresh stopped

variable [Aes256Gcm]

/-- `TokenCrypto::encrypt`, `src/crypto.rs:49–62`, with the nonce that was drawn. -/
def encryptToken (key : EncryptionKey) (nonce : TokenNonce) (plaintext : String) :
    Except String String :=
  match Aes256Gcm.encrypt key.bytes nonce.bytes (utf8Bytes plaintext) with
  | none => .error "encryption failed"
  | some ciphertext =>
    .ok ("v1:" ++ StandardBase64.encode nonce.bytes ++ ":" ++ StandardBase64.encode ciphertext)

/-- `TokenCrypto::decrypt` after its parts were split off, `src/crypto.rs:73–89`. -/
def decryptParts (key : EncryptionKey) (version nonce ciphertext : String) :
    Except String String :=
  if version ≠ "v1" then .error "unsupported encrypted token version"
  else
    match StandardBase64.decode nonce with
    | none => .error "decoding nonce"
    | some nonce =>
      match StandardBase64.decode ciphertext with
      | none => .error "decoding ciphertext"
      | some ciphertext =>
        if nonce.length ≠ 12 then .error "invalid nonce length"
        else
          match Aes256Gcm.decrypt key.bytes nonce ciphertext with
          | none => .error "decryption failed"
          | some plaintext =>
            match fromUtf8 plaintext with
            | none => .error "decrypted token was not utf-8"
            | some text => .ok text

/-- `TokenCrypto::decrypt`, `src/crypto.rs:64–89`. -/
def decryptToken (key : EncryptionKey) (encoded : String) : Except String String :=
  match splitn ':' 3 encoded.toList with
  | [] | [_] => .error "encrypted token missing nonce"
  | [_, _] => .error "encrypted token missing ciphertext"
  | version :: nonce :: ciphertext :: _ =>
    decryptParts key (.ofList version) (.ofList nonce) (.ofList ciphertext)

/-- The crypto of a daemon with a key. Its errors are internal ones, `src/error.rs:72–76`. -/
def EncryptionKey.crypto (key : EncryptionKey) : TokenCrypto where
  decrypt encoded := (decryptToken key encoded).mapError .internal

end Code

/-! ### Parts of a text -/

private theorem splitn_of_mem {separator : Char} {first rest : List Char}
    (h : separator ∉ first) (count : Nat) :
    splitn separator (count + 2) (first ++ separator :: rest) =
      first :: splitn separator (count + 1) rest := by
  have hfirst : ∀ c ∈ first, decide (c ≠ separator) = true :=
    fun c hc ↦ decide_eq_true fun he ↦ h (he ▸ hc)
  rw [splitn, List.dropWhile_append_of_pos hfirst, List.takeWhile_append_of_pos hfirst]
  simp

private theorem of_splitn {separator : Char} {text first : List Char} {more : List (List Char)}
    {count : Nat} (h : splitn separator (count + 2) text = first :: more) (hmore : more ≠ []) :
    ∃ rest, text = first ++ separator :: rest ∧ separator ∉ first ∧
      more = splitn separator (count + 1) rest := by
  rw [splitn] at h
  split at h
  · cases h
    exact absurd rfl hmore
  · next found rest hdrop =>
    obtain ⟨rfl, rfl⟩ := List.cons.inj h
    have hfound : found = separator := by
      have hhead := List.head?_dropWhile_not (fun c ↦ decide (c ≠ separator)) text
      rw [hdrop] at hhead
      simpa using hhead
    refine ⟨rest, ?_, fun hin ↦ ?_, rfl⟩
    · rw [hfound] at hdrop
      rw [← hdrop, List.takeWhile_append_dropWhile]
    · simpa using List.all_eq_true.mp List.all_takeWhile separator hin

/-- A text is split into three at its first two separators. -/
theorem splitn_three_iff {separator : Char} {text first second third : List Char} :
    splitn separator 3 text = [first, second, third] ↔
      text = first ++ separator :: (second ++ separator :: third) ∧ separator ∉ first ∧
        separator ∉ second := by
  constructor
  · intro h
    obtain ⟨rest, rfl, hfirst, hrest⟩ := of_splitn h (by simp)
    obtain ⟨last, rfl, hsecond, hlast⟩ := of_splitn hrest.symm (by simp)
    rw [splitn] at hlast
    cases hlast
    exact ⟨rfl, hfirst, hsecond⟩
  · rintro ⟨rfl, hfirst, hsecond⟩
    rw [splitn_of_mem hfirst, splitn_of_mem hsecond, splitn]

/-- Nothing is split into more than three. -/
private theorem length_splitn_le (separator : Char) (count : Nat) (text : List Char) :
    (splitn separator (count + 1) text).length ≤ count + 1 := by
  induction count generalizing text with
  | zero => exact Nat.le_refl 1
  | succ count ih =>
    rw [splitn]
    split
    · simp
    · exact Nat.succ_le_succ (ih _)

/-- A text is read from bytes exactly when they are its bytes. -/
theorem fromUtf8_eq_some_iff {bytes : List UInt8} {text : String} :
    fromUtf8 bytes = some text ↔ utf8Bytes text = bytes := by
  unfold fromUtf8 String.fromUTF8? utf8Bytes
  constructor
  · intro h
    split at h
    · cases h
      rfl
    · cases h
  · rintro rfl
    exact dif_pos text.isValidUTF8

section Formats

variable [StandardBase64]

/-- The text of bytes holds no separator. -/
private theorem colon_notMem_encode (bytes : List UInt8) :
    ':' ∉ (StandardBase64.encode bytes).toList := by
  intro hin
  rcases StandardBase64.mem_encode bytes _ hin with h | h | h
  · exact absurd h (by decide)
  · exact absurd h (by decide)
  · exact absurd h (by decide)

/-- The text of bytes holds no white space. -/
private theorem solid_of_mem_encode {bytes : List UInt8} {c : Char}
    (hc : c ∈ (StandardBase64.encode bytes).toList) : isWhiteSpace c = false := by
  rcases StandardBase64.mem_encode bytes c hc with h | rfl | rfl
  · exact isWhiteSpace_of_isWordChar (by simp [isWordChar, h])
  · decide
  · decide

/-- Trimming keeps the text of bytes. -/
private theorem trim_encode (bytes : List UInt8) :
    trim (StandardBase64.encode bytes) = StandardBase64.encode bytes :=
  trim_of_solid fun _ hc ↦ solid_of_mem_encode hc

/-! ### The key file -/

/-- The text of bytes holds no padding. -/
private theorem equals_notMem_encode (bytes : List UInt8) :
    '=' ∉ (StandardBase64.encode bytes).toList := by
  intro hin
  rcases StandardBase64.mem_encode bytes _ hin with h | h | h
  · exact absurd h (by decide)
  · exact absurd h (by decide)
  · exact absurd h (by decide)

omit [StandardBase64] in
/-- Padding that is not seen is empty. -/
private theorem padded_of_notMem {text : String} (h : '=' ∉ (Codec.padded text).toList) :
    Codec.padded text = text := by
  rw [Codec.padded, String.toList_append, String.toList_ofList, List.mem_append, not_or] at h
  have hnone : (4 - text.toList.length % 4) % 4 = 0 := by
    by_contra hne
    exact h.2 (List.mem_replicate.mpr ⟨hne, rfl⟩)
  rw [Codec.padded, hnone]
  exact String.append_empty

/-- A key is read exactly from its text, with padding or without. -/
theorem decodeKey_ok_iff {raw : String} {key : EncryptionKey} :
    decodeKey raw = .ok key ↔ raw = StandardBase64.encode key.bytes ∨
      raw = Codec.padded (StandardBase64.encode key.bytes) := by
  have hread : (StandardBase64.decode raw).or (StandardBase64.decodePadded raw) =
      some key.bytes ↔ raw = StandardBase64.encode key.bytes ∨
        raw = Codec.padded (StandardBase64.encode key.bytes) := by
    rw [Option.or_eq_some_iff, StandardBase64.decode_eq_some_iff,
      StandardBase64.decodePadded_eq_some_iff]
    constructor
    · rintro (h | ⟨-, h⟩)
      · exact .inl h.symm
      · exact .inr h.symm
    · rintro (h | h)
      · exact .inl h.symm
      · cases hplain : StandardBase64.decode raw with
        | none => exact .inr ⟨rfl, h.symm⟩
        | some bytes =>
          -- then the padding is empty, and both decoders read the same
          have hraw := (StandardBase64.decode_eq_some_iff _ _).mp hplain
          have hunpadded := equals_notMem_encode bytes
          rw [hraw, h] at hunpadded
          exact .inl (h.trans (padded_of_notMem hunpadded)).symm
  rw [← hread]
  unfold decodeKey
  split
  · next hnone => simp [hnone]
  · next bytes hsome =>
    rw [hsome, Option.some.injEq]
    obtain ⟨keyBytes, hkey⟩ := key
    constructor
    · intro h
      split at h
      · cases h
        rfl
      · cases h
    · rintro rfl
      exact dif_pos hkey

/-- A key file that is there is left as it is. -/
theorem loadOrCreate_kept (path raw : String) (fresh : EncryptionKey)
    (stopped : Option KeyFileStop) :
    (loadOrCreate path (some raw) fresh stopped).2 = some raw := by
  unfold loadOrCreate
  split <;> rfl

/-- The key that is got from a file is read from it. -/
theorem decodeKey_of_load {path raw : String} {fresh key : EncryptionKey}
    {stopped : Option KeyFileStop} {keyFile : Option String}
    (h : loadOrCreate path (some raw) fresh stopped = (.ok key, keyFile)) :
    decodeKey (trim raw) = .ok key := by
  unfold loadOrCreate at h
  split at h
  · cases h
  · cases h
  · exact (Prod.mk.inj h).1

/-- A key that was made is read from its text. -/
theorem decodeKey_encode (key : EncryptionKey) :
    decodeKey (trim (StandardBase64.encode key.bytes)) = .ok key := by
  rw [trim_encode]
  exact decodeKey_ok_iff.mpr (.inl rfl)

/-- A key that is got is in the file afterwards. -/
theorem loadOrCreate_ok {path : String} {keyFile file : Option String}
    {fresh key : EncryptionKey} {stopped : Option KeyFileStop}
    (h : loadOrCreate path keyFile fresh stopped = (.ok key, file)) :
    ∃ raw, file = some raw ∧ decodeKey (trim raw) = .ok key := by
  cases keyFile with
  | some raw =>
    have hkept := loadOrCreate_kept path raw fresh stopped
    rw [h] at hkept
    exact ⟨raw, hkept, decodeKey_of_load h⟩
  | none =>
    unfold loadOrCreate makeKeyFile at h
    cases stopped with
    | none =>
      cases h
      exact ⟨_, rfl, decodeKey_encode fresh⟩
    | some stop => cases stop <;> cases h

/-- Where there was no key file, there is none, or a part of the text of the fresh key if the start
was stopped while it wrote it, or all of this text. -/
theorem loadOrCreate_file (path : String) (fresh : EncryptionKey) (stopped : Option KeyFileStop) :
    (loadOrCreate path none fresh stopped).2 = none ∨
    (∃ written, stopped = some (.writing written) ∧
      (loadOrCreate path none fresh stopped).2 =
        some (.ofList ((StandardBase64.encode fresh.bytes).toList.take written))) ∨
    (loadOrCreate path none fresh stopped).2 = some (StandardBase64.encode fresh.bytes) := by
  cases stopped with
  | none => exact .inr (.inr rfl)
  | some stop =>
    cases stop with
    | creatingParent parent => exact .inl rfl
    | reading => exact .inl rfl
    | opening => exact .inl rfl
    | writing written => exact .inr (.inl ⟨written, rfl, rfl⟩)
    | settingMode => exact .inr (.inr rfl)

/-- A text has one character for six bits. -/
def SizedBase64 : Prop := ∀ bytes : List UInt8,
  (StandardBase64.encode bytes).toList.length = (8 * bytes.length + 5) / 6

omit [StandardBase64] in
/-- The standard alphabet does. -/
theorem sized_standardBase64 : @SizedBase64 standardBase64 :=
  Codec.length_encode .standard

/-- A part of the text of a key is read as no key. -/
theorem decodeKey_part (hsized : SizedBase64) {fresh : EncryptionKey} {written : Nat}
    (h : written < (StandardBase64.encode fresh.bytes).toList.length) (key : EncryptionKey) :
    decodeKey (trim (.ofList ((StandardBase64.encode fresh.bytes).toList.take written))) ≠
      .ok key := by
  have htrim : trim (.ofList ((StandardBase64.encode fresh.bytes).toList.take written)) =
      .ofList ((StandardBase64.encode fresh.bytes).toList.take written) := by
    refine trim_of_solid fun c hc ↦ ?_
    rw [String.toList_ofList] at hc
    exact solid_of_mem_encode (List.mem_of_mem_take hc)
  have hsame : (StandardBase64.encode fresh.bytes).toList.length =
      (StandardBase64.encode key.bytes).toList.length := by
    rw [hsized, hsized, fresh.length_bytes, key.length_bytes]
  have hshort : ((StandardBase64.encode fresh.bytes).toList.take written).length <
      (StandardBase64.encode key.bytes).toList.length := by
    rw [List.length_take]
    omega
  rw [htrim, ne_eq, decodeKey_ok_iff]
  rintro (heq | heq)
  · rw [← heq, String.toList_ofList] at hshort
    exact Nat.lt_irrefl _ hshort
  · -- padding only makes a text longer
    have hlonger := congrArg (fun text : String ↦ text.toList.length) heq
    simp only [String.toList_ofList, Codec.padded, String.toList_append,
      List.length_append] at hlonger
    omega

/-! ### The tokens -/

variable [Aes256Gcm]

/-- A token is encrypted to the text of its nonce and its ciphertext. -/
theorem encryptToken_ok_iff {key : EncryptionKey} {nonce : TokenNonce} {encoded text : String} :
    encryptToken key nonce text = .ok encoded ↔ ∃ ciphertext,
      Aes256Gcm.encrypt key.bytes nonce.bytes (utf8Bytes text) = some ciphertext ∧
      encoded = "v1:" ++ StandardBase64.encode nonce.bytes ++ ":" ++
        StandardBase64.encode ciphertext := by
  unfold encryptToken
  split
  · next hnone => simp [hnone]
  · next ciphertext hsome =>
    rw [hsome]
    constructor
    · intro h
      cases h
      exact ⟨ciphertext, rfl, rfl⟩
    · rintro ⟨other, hother, rfl⟩
      cases hother
      rfl

/-- The parts of a token that decrypt. -/
private theorem decryptParts_ok_iff {key : EncryptionKey} {version nonce ciphertext text : String} :
    decryptParts key version nonce ciphertext = .ok text ↔ version = "v1" ∧
      ∃ (bytes : TokenNonce) (sealed : List UInt8),
        StandardBase64.encode bytes.bytes = nonce ∧ StandardBase64.encode sealed = ciphertext ∧
        Aes256Gcm.decrypt key.bytes bytes.bytes sealed = some (utf8Bytes text) := by
  constructor
  · intro h
    unfold decryptParts at h
    split at h
    · cases h
    · next hversion =>
      split at h
      · cases h
      · next nonceBytes hnonce =>
        split at h
        · cases h
        · next sealed hsealed =>
          split at h
          · cases h
          · next hlength =>
            split at h
            · cases h
            · next plaintext hplaintext =>
              split at h
              · cases h
              · next found htext =>
                cases h
                rw [← fromUtf8_eq_some_iff.mp htext] at hplaintext
                exact ⟨not_not.mp hversion, ⟨nonceBytes, not_not.mp hlength⟩, sealed,
                  (StandardBase64.decode_eq_some_iff _ _).mp hnonce,
                  (StandardBase64.decode_eq_some_iff _ _).mp hsealed, hplaintext⟩
  · rintro ⟨rfl, bytes, sealed, hnonce, hsealed, hplaintext⟩
    have hlength : ¬ bytes.bytes.length ≠ 12 := not_not.mpr bytes.length_bytes
    simp only [decryptParts, (StandardBase64.decode_eq_some_iff _ _).mpr hnonce,
      (StandardBase64.decode_eq_some_iff _ _).mpr hsealed, hplaintext, hlength,
      fromUtf8_eq_some_iff.mpr (Eq.refl (utf8Bytes text)), ne_eq, not_true_eq_false, if_false]

/-- What a token decrypts to is what it was encrypted from, under some nonce. -/
theorem decryptToken_ok_iff (haead : Authenticated) {key : EncryptionKey} {encoded text : String} :
    decryptToken key encoded = .ok text ↔ ∃ nonce, encryptToken key nonce text = .ok encoded := by
  have hsplit : ∀ nonce sealed : List UInt8,
      splitn ':' 3 ("v1:" ++ StandardBase64.encode nonce ++ ":" ++
        StandardBase64.encode sealed).toList = ["v1".toList, (StandardBase64.encode nonce).toList,
          (StandardBase64.encode sealed).toList] := by
    intro nonce sealed
    refine splitn_three_iff.mpr ⟨?_, by decide, colon_notMem_encode nonce⟩
    simp
  constructor
  · intro h
    unfold decryptToken at h
    split at h
    · cases h
    · cases h
    · cases h
    · next version nonce ciphertext more hparts =>
      have hlength := length_splitn_le ':' 2 encoded.toList
      rw [hparts] at hlength
      simp only [List.length_cons] at hlength
      have hmore : more = [] := List.eq_nil_of_length_eq_zero (by omega)
      subst hmore
      obtain ⟨htext, -, -⟩ := splitn_three_iff.mp hparts
      obtain ⟨hversion, bytes, sealed, hnonce, hsealed, hopened⟩ := decryptParts_ok_iff.mp h
      refine ⟨bytes, encryptToken_ok_iff.mpr ⟨sealed, (haead _ _ _ _).mp hopened, ?_⟩⟩
      rw [hnonce, hsealed, ← String.toList_inj, htext, ← String.toList_ofList (l := version),
        hversion]
      simp
  · rintro ⟨nonce, h⟩
    obtain ⟨sealed, hsealed, rfl⟩ := encryptToken_ok_iff.mp h
    unfold decryptToken
    rw [hsplit]
    exact decryptParts_ok_iff.mpr ⟨String.ofList_toList, nonce, sealed,
      String.ofList_toList.symm, String.ofList_toList.symm, (haead _ _ _ _).mpr hsealed⟩

/-- The formats at rest are exact: a text decrypts to a token exactly when it is an encryption of
the token under the key and some nonce, which is then no other token's, and a text is read as a
key exactly when it is that of the key, with padding or without. -/
theorem rest_formats_exact (haead : Authenticated) :
    (∀ key encoded text, decryptToken key encoded = .ok text ↔
      ∃ nonce, encryptToken key nonce text = .ok encoded) ∧
    (∀ key encoded nonce nonce' text text', encryptToken key nonce text = .ok encoded →
      encryptToken key nonce' text' = .ok encoded → text = text') ∧
    ∀ raw key, decodeKey raw = .ok key ↔ raw = StandardBase64.encode key.bytes ∨
      raw = Codec.padded (StandardBase64.encode key.bytes) := by
  refine ⟨fun _ _ _ ↦ decryptToken_ok_iff haead, fun key encoded nonce nonce' text text' h h' ↦ ?_,
    fun _ _ ↦ decodeKey_ok_iff⟩
  have hread := (decryptToken_ok_iff haead).mpr ⟨nonce, h⟩
  rw [(decryptToken_ok_iff haead).mpr ⟨nonce', h'⟩] at hread
  exact (Except.ok.inj hread).symm

end Formats

/-! ### Texts that were encrypted -/

/-- A text that was encrypted. -/
structure SealedText where
  key : List UInt8
  nonce : List UInt8
  plaintext : List UInt8
  ciphertext : List UInt8

/-- The encryption of some texts, each under a nonce of its own. -/
@[reducible] def listedGcm (texts : List SealedText) : Aes256Gcm where
  encrypt key nonce plaintext := (texts.find? fun text ↦ text.nonce = nonce).bind fun text ↦
    if text.key = key ∧ text.plaintext = plaintext then some text.ciphertext else none
  decrypt key nonce ciphertext := (texts.find? fun text ↦ text.nonce = nonce).bind fun text ↦
    if text.key = key ∧ text.ciphertext = ciphertext then some text.plaintext else none

/-- Such an encryption is authenticated. -/
theorem listedGcm_authenticated (texts : List SealedText) :
    @Authenticated (listedGcm texts) := by
  intro key nonce plaintext ciphertext
  show (texts.find? fun text ↦ text.nonce = nonce).bind _ = _ ↔
    (texts.find? fun text ↦ text.nonce = nonce).bind _ = _
  cases texts.find? fun text ↦ text.nonce = nonce with
  | none => simp
  | some text =>
    simp only [Option.bind_some, Option.ite_none_right_eq_some, Option.some.injEq]
    constructor
    · rintro ⟨⟨hkey, rfl⟩, rfl⟩
      exact ⟨⟨hkey, rfl⟩, rfl⟩
    · rintro ⟨⟨hkey, rfl⟩, rfl⟩
      exact ⟨⟨hkey, rfl⟩, rfl⟩

/-- A key. -/
def firstKey : EncryptionKey := ⟨(List.range 32).map .ofNat, by decide⟩

/-- A nonce of one byte. -/
def nonceOf (byte : UInt8) : TokenNonce := ⟨List.replicate 12 byte, by simp⟩

/-- Three texts under the key. -/
def sealedTexts : List SealedText :=
  [⟨firstKey.bytes, (nonceOf 1).bytes, utf8Bytes "access",
      [22, 160, 134, 80, 27, 246, 71, 224, 127, 66, 171, 231, 123, 35, 179, 52, 63, 154, 36, 199,
        12, 29]⟩,
    ⟨firstKey.bytes, (nonceOf 2).bytes, utf8Bytes "refresh",
      [233, 77, 127, 201, 220, 170, 89, 51, 201, 68, 252, 42, 118, 255, 204, 47, 216, 193, 126, 68,
        209, 60, 135]⟩,
    ⟨firstKey.bytes, (nonceOf 3).bytes, utf8Bytes "id",
      [135, 47, 177, 187, 140, 74, 82, 199, 103, 67, 83, 150, 137, 162, 212, 13, 203, 162]⟩]

/-- A stored token is read under the key that encrypted it. -/
theorem rest_formats_exact_access :
    let _ := standardBase64
    let _ := listedGcm sealedTexts
    decryptToken firstKey "v1:AQEBAQEBAQEBAQEB:FqCGUBv2R+B/QqvneyOzND+aJMcMHQ" = .ok "access" := by
  intro _ _
  exact ((rest_formats_exact (listedGcm_authenticated sealedTexts)).1 firstKey _ "access").mpr
    ⟨nonceOf 1, by decide +kernel⟩

end CodexLb
