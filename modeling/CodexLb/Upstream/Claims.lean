import CodexLb.Proxy.Selected
import CodexLb.Upstream.Windows
import Mathlib.Algebra.Order.Ring.Rat

/-!
# Claims of refreshed tokens

`claims_from_auth` with its readers, `src/auth_file.rs:158–373`, and what a
refresh stores of them. A claim that no token carries is a placeholder for the
email and the plan, and `NULL` for the other columns; the statement merges the
four of them by `COALESCE`.
-/

namespace CodexLb

open Relational Proxy

/-! ### The payload of a token -/

/-- The `base64` crate's URL-safe engines, without and with padding. -/
class Base64Text where
  urlSafeNoPad : String → Option (List UInt8)
  urlSafe : String → Option (List UInt8)

/-- The reader of RFC 3339 texts that `chrono` provides. -/
class Rfc3339Text where
  parse : String → Option Instant

/-- `decode_jwt_payload`, `src/auth_file.rs:190–197`. -/
def decodeJwtPayload [Base64Text] [JsonText] (token : String) : Option JsonValue :=
  ((trim token).toList.splitOn '.')[1]?.bind fun payload ↦
    ((Base64Text.urlSafeNoPad (.ofList payload)).or (Base64Text.urlSafe (.ofList payload))).bind
      fun decoded ↦ (String.fromUTF8? ⟨decoded.toArray⟩).bind JsonText.fromStr

/-- `AUTH_CLAIMS_NAMESPACE`, `src/auth_file.rs:12`. -/
def authClaimsNamespace : String := "https://api.openai.com/auth"

/-- `PROFILE_CLAIMS_NAMESPACE`, `src/auth_file.rs:13`. -/
def profileClaimsNamespace : String := "https://api.openai.com/profile"

/-- `non_empty_str`, `src/auth_file.rs:362–367`. -/
def JsonValue.nonEmptyStr (value : JsonValue) : Option String :=
  (value.asStr.map trim).filter fun text ↦ !text.isEmpty

/-- `non_empty_owned`, `src/auth_file.rs:369–373`. -/
def nonEmptyOwned (value : Option String) : Option String :=
  (value.map trim).filter fun text ↦ !text.isEmpty

/-- `claim_string`, `src/auth_file.rs:233–239`. -/
def claimString (key : String) (claims : JsonValue) : Option String :=
  (((claims.get authClaimsNamespace).bind (·.get key)).bind JsonValue.nonEmptyStr).or
    ((claims.get key).bind JsonValue.nonEmptyStr)

/-- `email_claim`, `src/auth_file.rs:241–253`. -/
def emailClaim (claims : JsonValue) : Option String :=
  ((claims.get "email").bind JsonValue.nonEmptyStr).or
    (((claims.get profileClaimsNamespace).bind (·.get "email")).bind JsonValue.nonEmptyStr)

/-! ### The expiry of a token -/

/-- An integer from 2^63 on as the `f64` it is read as: a multiple of 2048, the even one of two that
are equally near. -/
def nearestFloat (value : Nat) : Rat :=
  let quotient := value / 2048
  let up := 1024 < value % 2048 ∨ value % 2048 = 1024 ∧ quotient % 2 = 1
  2048 * (if up then quotient + 1 else quotient : Nat)

/-- `raw.trunc() as i64` in the range of an `i64`; 2^63 itself is in that range and saturates. -/
def truncateFloat (raw : Rat) : Option Int :=
  if -(2 ^ 63 : Rat) ≤ raw ∧ raw ≤ 2 ^ 63 then some (min (raw.num.tdiv raw.den) (2 ^ 63 - 1))
  else none

section Expiry

variable [ChronoRange]

/-- `epoch_timestamp`, `src/auth_file.rs:282–289`. -/
def epochTimestamp (raw : Int) : Option Instant :=
  if 100000000000 ≤ raw.natAbs then if Representable raw then some raw else none
  else fromTimestamp raw

variable [Rfc3339Text]

/-- `parse_timestamp`, `src/auth_file.rs:259–280`. -/
def parseTimestamp : JsonValue → Option Instant
  | .number (.posInt value) =>
    if value < 2 ^ 63 then epochTimestamp value
    else (truncateFloat (nearestFloat value)).bind epochTimestamp
  | .number (.negInt value) => epochTimestamp value
  | .number (.float value) => (truncateFloat value).bind epochTimestamp
  | .string value =>
    match parseI64 (trim value) with
    | some epoch => epochTimestamp epoch
    | none => Rfc3339Text.parse (trim value)
  | _ => none

/-- `token_expiry`, `src/auth_file.rs:255–257`. -/
def tokenExpiry (claims : JsonValue) : Option Instant := (claims.get "exp").bind parseTimestamp

end Expiry

/-! ### Claims of a pair of tokens -/

section Claims

variable [Base64Text] [JsonText]

/-- The claims of a token; one that does not decode has none. -/
def tokenClaims (token : String) : JsonValue := (decodeJwtPayload token).getD .null

/-- What a reader finds in the claims of the id token, or failing that of the access token. -/
def carried (reader : JsonValue → Option String) (tokens : AccountTokens) : Option String :=
  (reader (tokenClaims tokens.idToken)).or (reader (tokenClaims tokens.accessToken))

/-- The email of a token without one, `src/auth_file.rs:169`. -/
def unknownEmail : String := "unknown@example.com"

/-- The plan of a token without one, `src/auth_file.rs:166`. -/
def unknownPlan : String := "unknown"

variable [ChronoRange] [Rfc3339Text]

/-- `claims_from_auth`, `src/auth_file.rs:158–188`, without the workspace and the expiry of the id
token, which no account column keeps. -/
def claimsFromAuth (tokens : AccountTokens) (accountId : Option String) : AuthClaims where
  chatgptAccountId :=
    (nonEmptyOwned accountId).or (carried (claimString "chatgpt_account_id") tokens)
  email := (carried emailClaim tokens).getD unknownEmail
  planType := (carried (claimString "chatgpt_plan_type") tokens).getD unknownPlan
  accessTokenExpiresAt := tokenExpiry (tokenClaims tokens.accessToken)

end Claims

/-! ### What a refresh leaves in the account -/

section Refresh

variable [UuidText] {crypto : TokenCrypto} {accountId : Uuid} {exchange : TokenExchange}
  {s t : Store} {before after : Account}

/-- A store of tokens leaves the account that it reads back: the stored one under the claims. -/
theorem storeTokens_ok (hfind : s.accounts.find accountId = some before)
    (h : storeTokens accountId exchange s = (.ok after, t)) :
    t.accounts.find accountId = some after ∧ after = { before with
      encrypted := exchange.answer.encrypted
      chatgptAccountId := exchange.answer.claims.chatgptAccountId.or before.chatgptAccountId
      email := exchange.answer.claims.email
      planType := exchange.answer.claims.planType
      accessTokenExpiresAt :=
        exchange.answer.claims.accessTokenExpiresAt.or before.accessTokenExpiresAt
      lastRefreshAt := exchange.now
      status := .active
      statusReason := none } := by
  unfold storeTokens at h
  split at h
  · cases h
  · next u hupdate =>
    split at h
    · cases h
    · next account haccount =>
      cases h
      refine ⟨haccount, ?_⟩
      unfold updateAccountTokens at hupdate
      split at hupdate
      · cases hupdate
      · split at hupdate
        · cases hupdate
        · cases hupdate
          rw [Table.find_update_self, hfind, Option.map_some, Option.some.injEq] at haccount
          exact haccount.symm

/-- A store of tokens that fails leaves the store as it was. -/
theorem storeTokens_error {e : AppError} (h : storeTokens accountId exchange s = (.error e, t)) :
    t = s := by
  unfold storeTokens at h
  split at h
  · next hupdate =>
    cases h
    exact updateAccountTokens_error hupdate
  · next u hupdate =>
    split at h
    · next hmissing =>
      have hkept := updateAccountTokens_kept accountId exchange.answer.encrypted
        exchange.answer.claims exchange.now s
      rw [hupdate] at hkept
      have hhas := (hkept.accounts accountId).trans (updateAccountTokens_has hupdate)
      rw [Table.has_eq_false_iff.mpr hmissing] at hhas
      cases hhas
    · cases h

/-- A refresh stores tokens, or it fails and leaves the store as it was. -/
theorem refreshAccountTokens_cases (crypto : TokenCrypto) (accountId : Uuid)
    (exchange : TokenExchange) (s : Store) :
    refreshAccountTokens crypto accountId exchange s = storeTokens accountId exchange s ∨
      ∃ e, refreshAccountTokens crypto accountId exchange s = (.error e, s) := by
  unfold refreshAccountTokens
  split
  · exact .inr ⟨_, rfl⟩
  · split
    · exact .inr ⟨_, rfl⟩
    · split
      · exact .inr ⟨_, rfl⟩
      · exact .inl rfl

end Refresh

section Learned

variable [Base64Text] [JsonText] [ChronoRange] [Rfc3339Text]

/-- Each column has the value that the tokens carry, if they carry one, and otherwise the one it had
before. -/
structure Learns (tokens : AccountTokens) (before after : Account) : Prop where
  email : after.email = (carried emailClaim tokens).getD before.email
  planType : after.planType =
    (carried (claimString "chatgpt_plan_type") tokens).getD before.planType
  chatgptAccountId : after.chatgptAccountId =
    (carried (claimString "chatgpt_account_id") tokens).or before.chatgptAccountId
  accessTokenExpiresAt : after.accessTokenExpiresAt =
    (tokenExpiry (tokenClaims tokens.accessToken)).or before.accessTokenExpiresAt

omit [Base64Text] [JsonText] [ChronoRange] [Rfc3339Text] in
/-- A default stands for another one where it is not used or is the same. -/
private theorem getD_eq_getD_iff {value : Option String} {placeholder stored : String} :
    value.getD placeholder = value.getD stored ↔ value.isSome ∨ stored = placeholder := by
  cases value with
  | none => simp [eq_comm]
  | some value => simp

/-- **When a refresh keeps what it did not learn.** It does exactly when the tokens carry an email,
or the stored one is the placeholder, and the same for the plan. A refresh that fails keeps the
store. -/
theorem refresh_learns_iff [UuidText] (crypto : TokenCrypto) (accountId : Uuid)
    (exchange : TokenExchange) (tokens : AccountTokens) (s : Store) (before : Account)
    (hfind : s.accounts.find accountId = some before)
    (hresponse : exchange.answer.response.tokens = .ok tokens)
    (hclaims : ∀ tokens, exchange.answer.response.tokens = .ok tokens →
      exchange.answer.claims = claimsFromAuth tokens none) :
    (∀ after t, refreshAccountTokens crypto accountId exchange s = (.ok after, t) →
      t.accounts.find accountId = some after ∧
        (Learns tokens before after ↔
          ((carried emailClaim tokens).isSome ∨ before.email = unknownEmail) ∧
          ((carried (claimString "chatgpt_plan_type") tokens).isSome ∨
            before.planType = unknownPlan))) ∧
    ∀ e t, refreshAccountTokens crypto accountId exchange s = (.error e, t) → t = s := by
  rcases refreshAccountTokens_cases crypto accountId exchange s with hstore | ⟨e, hfailed⟩
  · rw [hstore]
    refine ⟨fun after t h ↦ ?_, fun e t h ↦ storeTokens_error h⟩
    obtain ⟨hafter, heq⟩ := storeTokens_ok hfind h
    refine ⟨hafter, ?_⟩
    have hemail : after.email = (carried emailClaim tokens).getD unknownEmail := by
      rw [heq, hclaims tokens hresponse, claimsFromAuth]
    have hplan : after.planType =
        (carried (claimString "chatgpt_plan_type") tokens).getD unknownPlan := by
      rw [heq, hclaims tokens hresponse, claimsFromAuth]
    rw [← getD_eq_getD_iff, ← getD_eq_getD_iff]
    constructor
    · intro hlearns
      exact ⟨hemail.symm.trans hlearns.email, hplan.symm.trans hlearns.planType⟩
    · rintro ⟨hemailKept, hplanKept⟩
      refine ⟨hemail.trans hemailKept, hplan.trans hplanKept, ?_, ?_⟩
      · rw [heq, hclaims tokens hresponse, claimsFromAuth, nonEmptyOwned, Option.map_none,
          Option.filter_none, Option.none_or]
      · rw [heq, hclaims tokens hresponse, claimsFromAuth]
  · rw [hfailed]
    constructor
    · intro after t h
      cases h
    · intro e t h
      cases h
      rfl

end Learned

section Erased

/-- The URL-safe engines on the payload of no claims, which has no padding. -/
@[reducible] def emptyPayload : Base64Text where
  urlSafeNoPad text := if text = "e30" then some [123, 125] else none
  urlSafe _ := none

/-- A reader that knows the empty object. -/
@[reducible] def emptyObject : JsonText where
  fromStr text := if text = "{}" then some (.object []) else none

/-- A reader that knows no RFC 3339 text. -/
@[reducible] def noRfc3339 : Rfc3339Text := ⟨fun _ ↦ none⟩

/-- One stored account. -/
def storedAccount (email planType : String) : Account :=
  importedAccount ⟨"access", "refresh", "id"⟩ none ⟨none, email, planType, none⟩ "one" 0

/-- A store with one account. -/
def storedAlone (account : Account) : Store := .initial ⟨[(1, account)], by simp⟩

/-- Tokens without claims. -/
def claimlessTokens : AccountTokens := ⟨"a.e30.c", "refresh2", "a.e30.c"⟩

/-- The endpoint answers with the tokens. -/
def claimlessExchange : TokenExchange where
  answer :=
    { response := .answered true "200 OK" ⟨some claimlessTokens.accessToken,
        some claimlessTokens.refreshToken, some claimlessTokens.idToken, none, none, none, none⟩
      encrypted := ⟨"access2", "refresh2", "id2"⟩
      claims := ⟨none, unknownEmail, unknownPlan, none⟩ }
  now := 1000

/-- The tokens decode to no claims. -/
theorem claimsFromAuth_claimless : @claimsFromAuth emptyPayload emptyObject chronoYears noRfc3339
    claimlessTokens none = claimlessExchange.answer.claims := by
  decide +kernel

/-- The payload of an id token with an email and a plan. -/
def idPayload : String :=
  "eyJlbWFpbCI6Im5ld0BleGFtcGxlLmludmFsaWQiLCJjaGF0Z3B0X3BsYW5fdHlwZSI6InBybyJ9"

/-- The payload of an access token. -/
def accessPayload : String := "eyJleHAiOjIwMDB9"

/-- The texts of the payloads and their values. -/
def carriedPayloads : List (String × String × JsonValue) :=
  [(idPayload, "\x7b\"email\":\"new@example.invalid\",\"chatgpt_plan_type\":\"pro\"\x7d",
    .object [("email", .string "new@example.invalid"), ("chatgpt_plan_type", .string "pro")]),
  (accessPayload, "\x7b\"exp\":2000\x7d", .object [("exp", .number (.posInt 2000))])]

/-- The URL-safe engines on these payloads. -/
@[reducible] def carriedText : Base64Text where
  urlSafeNoPad text := (carriedPayloads.find? fun payload ↦ payload.1 = text).map
    fun payload ↦ payload.2.1.toUTF8.data.toList
  urlSafe _ := none

/-- A reader that knows their texts. -/
@[reducible] def carriedObject : JsonText where
  fromStr text := (carriedPayloads.find? fun payload ↦ payload.2.1 = text).map fun payload ↦
    payload.2.2

/-- Tokens with the payloads. -/
def carriedTokens : AccountTokens :=
  ⟨"a." ++ accessPayload ++ ".c", "refresh2", "a." ++ idPayload ++ ".c"⟩

/-- The endpoint answers with these tokens. -/
def carriedExchange : TokenExchange where
  answer :=
    { response := .answered true "200 OK" ⟨some carriedTokens.accessToken,
        some carriedTokens.refreshToken, some carriedTokens.idToken, none, none, none, none⟩
      encrypted := ⟨"access2", "refresh2", "id2"⟩
      claims := ⟨none, "new@example.invalid", "pro", some 2000000⟩ }
  now := 1000

private theorem isSome_of_getD {value : Option String} {placeholder found : String}
    (h : value.getD placeholder = found) (hne : placeholder ≠ found) : value.isSome = true := by
  cases value with
  | none => exact absurd h hne
  | some value => rfl

/-- What the tokens decode to. -/
theorem claimsFromAuth_carried : @claimsFromAuth carriedText carriedObject chronoYears noRfc3339
    carriedTokens none = carriedExchange.answer.claims := by
  decide +kernel

/-- Tokens that carry an email and a plan replace known ones. -/
theorem refresh_learns_iff_carried :
    let _ := hyphenatedText
    let _ := carriedText
    let _ := carriedObject
    let _ := chronoYears
    let _ := noRfc3339
    let before := storedAccount "one@example.invalid" "plus"
    ∃ after t, refreshAccountTokens ⟨Except.ok⟩ 1 carriedExchange (storedAlone before) =
        (.ok after, t) ∧ Learns carriedTokens before after ∧
      (after.email, after.planType) = ("new@example.invalid", "pro") := by
  intro _ _ _ _ _ before
  refine ⟨_, _, rfl, ?_, rfl⟩
  have hlearns := (refresh_learns_iff ⟨Except.ok⟩ 1 carriedExchange carriedTokens
    (storedAlone before) before rfl rfl fun tokens htokens ↦ by
      cases htokens
      exact claimsFromAuth_carried.symm).1 _ _ rfl
  -- what was decoded is no placeholder
  have hemail : (carried emailClaim carriedTokens).getD unknownEmail = "new@example.invalid" :=
    congrArg AuthClaims.email claimsFromAuth_carried
  have hplan : (carried (claimString "chatgpt_plan_type") carriedTokens).getD unknownPlan = "pro" :=
    congrArg AuthClaims.planType claimsFromAuth_carried
  exact hlearns.2.mpr
    ⟨.inl (isSome_of_getD hemail (by decide)), .inl (isSome_of_getD hplan (by decide))⟩

/-- A refresh whose tokens carry no email replaces the stored one by the placeholder. -/
theorem refresh_erases_email :
    let _ := hyphenatedText
    let _ := emptyPayload
    let _ := emptyObject
    let _ := chronoYears
    let _ := noRfc3339
    ¬∀ (crypto : TokenCrypto) (accountId : Uuid) (exchange : TokenExchange)
      (tokens : AccountTokens) (s : Store) (before after : Account) (t : Store),
      s.accounts.find accountId = some before →
      exchange.answer.response.tokens = .ok tokens →
      exchange.answer.claims = claimsFromAuth tokens none →
      refreshAccountTokens crypto accountId exchange s = (.ok after, t) →
      Learns tokens before after := by
  intro _ _ _ _ _ h
  have hlearns := h ⟨Except.ok⟩ 1 claimlessExchange claimlessTokens
    (storedAlone (storedAccount "one@example.invalid" "plus")) _ _ _ rfl rfl
    claimsFromAuth_claimless.symm rfl
  have hemail := hlearns.email
  revert hemail
  decide +kernel

end Erased

end CodexLb
