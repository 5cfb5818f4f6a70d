import CodexLb.Proxy.Capture
import CodexLb.Proxy.Selected
import CodexLb.Streaming.Occurrence
import CodexLb.Upstream.Windows

/-!
# Polling the usage endpoint

`refresh_account_usage` with `fetch_usage_raw` and `is_auth_error`,
`src/upstream.rs:117–166`, `188–190` and `424–472`. Whether the endpoint has
rejected the token is read from the text of the error, into which transport
errors and the bodies of answers are formatted.
-/

namespace CodexLb

open Proxy Streaming

/-! ### The usage endpoint -/

/-- `http::StatusCode`. -/
structure StatusCode where
  code : Nat
  range : 100 ≤ code ∧ code < 1000

/-- The reasons that `http` knows for status codes. -/
class StatusReason where
  canonicalReason : Nat → Option String

/-- The writer of values that `serde_json` provides. -/
class JsonDisplay where
  display : JsonValue → String

namespace StatusCode

/-- `StatusCode::is_success`. -/
def isSuccess (status : StatusCode) : Bool := decide (200 ≤ status.code ∧ status.code < 300)

/-- The statuses of a rejected token. -/
def isAuth (status : StatusCode) : Bool := status.code == 401 || status.code == 403

/-- How `http` writes a status. -/
def display [StatusReason] (status : StatusCode) : String :=
  toString status.code ++ " " ++
    (StatusReason.canonicalReason status.code).getD "<unknown status code>"

end StatusCode

/-- What a usage request meets: it is not sent, its answer cannot be read, or it is answered. -/
inductive UsageAnswer where
  | unsent (error : String)
  | unread (status : StatusCode) (error : String)
  | answered (status : StatusCode) (text : String)

section Fetch

variable [JsonText] [JsonDisplay] [StatusReason]

/-- The value of a body; what is no JSON is kept as a string, `src/upstream.rs:446–447`. -/
def usageBody (text : String) : JsonValue :=
  (JsonText.fromStr text).getD (.string (.ofList (text.toList.take 1000)))

/-- `Value::is_string`. -/
def JsonValue.isString (value : JsonValue) : Bool := value.asStr.isSome

/-- `fetch_usage_raw`, `src/upstream.rs:424–460`. -/
def fetchUsageRaw : UsageAnswer → Except AppError JsonValue
  | .unsent error => .error (.upstream ("usage request failed: " ++ error))
  | .unread _ error => .error (.upstream ("failed to read usage response: " ++ error))
  | .answered status text =>
    let raw := usageBody text
    if !status.isSuccess then
      .error (.upstream ("usage request failed (" ++ status.display ++ "): " ++
        JsonDisplay.display raw))
    else if raw.isString then .error (.upstream "usage response was not valid JSON")
    else .ok raw

end Fetch

/-- `str::contains` of one of the two codes. -/
def mentionsAuthStatus (text : List Char) : Bool :=
  containsText "401".toList text || containsText "403".toList text

/-- `is_auth_error`, `src/upstream.rs:188–190`. -/
def isAuthError : AppError → Bool
  | .upstream message => mentionsAuthStatus message.toList
  | _ => false

/-! ### The refresh of an account's usage -/

/-- The `UsageSnapshot` that a refresh returns, without the columns that the database fills in. -/
structure PolledSnapshot where
  accountId : Uuid
  usedPercent : Option FloatValue
  resetAt : Option Instant
  rawJson : JsonValue

/-- `parse_primary_usage_window`, `src/upstream.rs:462–472`. -/
def parsePrimaryUsageWindow [ChronoRange] (raw : JsonValue) : Option FloatValue × Option Instant :=
  let primary := raw.pointer ["rate_limit", "primary_window"]
  let usedPercent := (primary.bind (·.get "used_percent")).bind fun value ↦ match value with
    | .number (.posInt value) => some (FloatValue.finite value)
    | .number (.negInt value) => some (.finite value)
    | .number (.float value) => some (.finite value)
    | _ => none
  (usedPercent,
    ((primary.bind (·.get "reset_at")).bind JsonValue.asI64).bind fromTimestamp)

/-- How a refresh of usage ends. -/
inductive PollEnd where
  | returned (result : Except AppError PolledSnapshot)
  | panicked (panic : ChronoPanic)

/-- A request that a refresh of usage sends. -/
inductive PollRequest where
  | usage (accessToken : String) (chatgptAccountId : Option String)
  | exchange (refreshToken : String)
  deriving DecidableEq

/-- How a refresh of usage ends, what it has stored and what it has sent. -/
structure UsagePoll where
  ended : PollEnd
  store : Store
  sent : List PollRequest

/-- What others commit while a refresh of usage waits: for the first answer of the usage endpoint,
for the refresh lock of the account, for the token endpoint and for the second answer. -/
structure Meanwhile where
  request : Store → Store
  lock : Store → Store
  exchange : Store → Store
  again : Store → Store

/-- Nobody else commits anything. -/
def Meanwhile.quiet : Meanwhile := ⟨id, id, id, id⟩

section Tokens

variable [UuidText]

/-- `refresh_account_tokens`, `src/upstream.rs:36–103`, amid what others commit, and what it
sends. -/
def refreshTokensAmid (crypto : TokenCrypto) (accountId : Uuid) (exchange : TokenExchange)
    (meanwhile : Meanwhile) (s : Store) : Except AppError Account × Store × List PollRequest :=
  match s.accounts.find accountId with
  | none => (.error (accountNotFound accountId), s, [])
  | some observed =>
    let s := meanwhile.lock s
    match s.accounts.find accountId with
    | none => (.error (accountNotFound accountId), s, [])
    | some account =>
      if account.encrypted.refreshToken ≠ observed.encrypted.refreshToken ∨
          account.encrypted.accessToken ≠ observed.encrypted.accessToken then (.ok account, s, [])
      else
        match crypto.decrypt account.encrypted.refreshToken with
        | .error e => (.error e, s, [])
        | .ok refreshToken =>
          let s := meanwhile.exchange s
          match exchange.answer.response.tokens with
          | .error e => (.error e, s, [.exchange refreshToken])
          | .ok _ =>
            let (result, s) := storeTokens accountId exchange s
            (result, s, [.exchange refreshToken])

/-- While nobody else commits anything, this is the refresh alone. -/
theorem refreshTokensAmid_quiet (crypto : TokenCrypto) (accountId : Uuid)
    (exchange : TokenExchange) (s : Store) :
    ((refreshTokensAmid crypto accountId exchange .quiet s).1,
      (refreshTokensAmid crypto accountId exchange .quiet s).2.1) =
        refreshAccountTokens crypto accountId exchange s := by
  unfold refreshTokensAmid refreshAccountTokens Meanwhile.quiet
  cases hfind : s.accounts.find accountId with
  | none => rfl
  | some account =>
    simp only [id, hfind, ne_eq, not_true_eq_false, or_self, if_false]
    cases crypto.decrypt account.encrypted.refreshToken with
    | error e => rfl
    | ok refreshToken =>
      cases exchange.answer.response.tokens with
      | error e => rfl
      | ok tokens => rfl

/-- The account is still stored under its lock with the ciphertexts that were observed, and its
refresh token can be read. -/
def CanExchange (crypto : TokenCrypto) (accountId : Uuid) (observedIn lockedIn : Store) : Prop :=
  ∃ observed account refreshToken, observedIn.accounts.find accountId = some observed ∧
    lockedIn.accounts.find accountId = some account ∧
      account.encrypted.refreshToken = observed.encrypted.refreshToken ∧
        account.encrypted.accessToken = observed.encrypted.accessToken ∧
          crypto.decrypt account.encrypted.refreshToken = .ok refreshToken

/-- A token is exchanged where it can be. -/
theorem exchange_mem_refreshTokensAmid_iff (crypto : TokenCrypto) (accountId : Uuid)
    (exchange : TokenExchange) (meanwhile : Meanwhile) (s : Store) :
    (∃ refreshToken, PollRequest.exchange refreshToken ∈
        (refreshTokensAmid crypto accountId exchange meanwhile s).2.2) ↔
      CanExchange crypto accountId s (meanwhile.lock s) := by
  unfold refreshTokensAmid CanExchange
  cases s.accounts.find accountId with
  | none => simp
  | some observed =>
    dsimp only
    cases (meanwhile.lock s).accounts.find accountId with
    | none => simp
    | some account =>
      dsimp only
      split
      · next hchanged =>
        apply iff_of_false
        · simp
        · rintro ⟨_, _, refreshToken, ⟨⟩, ⟨⟩, hrefresh, haccess, -⟩
          rcases hchanged with hchanged | hchanged
          · exact hchanged hrefresh
          · exact hchanged haccess
      · next hsame =>
        simp only [ne_eq, not_or, not_not] at hsame
        cases hdecrypt : crypto.decrypt account.encrypted.refreshToken with
        | error e =>
          apply iff_of_false
          · simp
          · rintro ⟨_, _, refreshToken, ⟨⟩, ⟨⟩, -, -, hread⟩
            rw [hdecrypt] at hread
            cases hread
        | ok refreshToken =>
          apply iff_of_true
          · refine ⟨refreshToken, ?_⟩
            dsimp only
            split
            · simp
            · simp
          · exact ⟨observed, account, refreshToken, rfl, rfl, hsame.1, hsame.2, hdecrypt⟩

end Tokens

section Poll

variable [UuidText] [JsonText] [JsonDisplay] [StatusReason] [ChronoRange] [FloatText]

/-- The end of `refresh_account_usage`, `src/upstream.rs:151–161`. -/
def storeUsage (accountId : Uuid) (raw : JsonValue) (fetchedAt now : Instant) (s : Store)
    (sent : List PollRequest) : UsagePoll :=
  match parseUsageWindows raw fetchedAt with
  | .error panic => ⟨.panicked panic, s, sent⟩
  | .ok windows =>
    let planType := ((raw.get "plan_type").or (raw.get "plan")).bind JsonValue.asStr
    match replaceUsageWindows accountId planType fetchedAt windows s with
    | (.error e, s) => ⟨.returned (.error e), s, sent⟩
    | (.ok (), s) =>
      match insertUsageSnapshot accountId now s with
      | (.error e, s) => ⟨.returned (.error e), s, sent⟩
      | (.ok (), s) =>
        let (usedPercent, resetAt) := parsePrimaryUsageWindow raw
        ⟨.returned (.ok ⟨accountId, usedPercent, resetAt, raw⟩), s, sent⟩

/-- `refresh_account_usage`, `src/upstream.rs:117–161`; the two answers of the usage endpoint, that
of the token endpoint and what others commit come from outside. -/
def refreshAccountUsage (crypto : TokenCrypto) (accountId : Uuid) (first second : UsageAnswer)
    (exchange : TokenExchange) (meanwhile : Meanwhile) (fetchedAt now : Instant) (s : Store) :
    UsagePoll :=
  match s.accounts.find accountId with
  | none => ⟨.returned (.error (accountNotFound accountId)), s, []⟩
  | some account =>
    match crypto.decrypt account.encrypted.accessToken with
    | .error e => ⟨.returned (.error e), s, []⟩
    | .ok accessToken =>
      let asked := PollRequest.usage accessToken account.chatgptAccountId
      let s := meanwhile.request s
      match fetchUsageRaw first with
      | .ok raw => storeUsage accountId raw fetchedAt now s [asked]
      | .error e =>
        if isAuthError e then
          match refreshTokensAmid crypto accountId exchange meanwhile s with
          | (.error e, s, exchanged) => ⟨.returned (.error e), s, asked :: exchanged⟩
          | (.ok refreshed, s, exchanged) =>
            match crypto.decrypt refreshed.encrypted.accessToken with
            | .error e => ⟨.returned (.error e), s, asked :: exchanged⟩
            | .ok accessToken =>
              let again := PollRequest.usage accessToken refreshed.chatgptAccountId
              let s := meanwhile.again s
              match fetchUsageRaw second with
              | .error e => ⟨.returned (.error e), s, asked :: exchanged ++ [again]⟩
              | .ok raw =>
                storeUsage accountId raw fetchedAt now s (asked :: exchanged ++ [again])
        else ⟨.returned (.error e), s, [asked]⟩

omit [UuidText] [JsonText] [JsonDisplay] [StatusReason] in
/-- Storing the usage sends nothing. -/
@[simp] theorem storeUsage_sent (accountId : Uuid) (raw : JsonValue) (fetchedAt now : Instant)
    (s : Store) (sent : List PollRequest) :
    (storeUsage accountId raw fetchedAt now s sent).sent = sent := by
  unfold storeUsage
  split
  · rfl
  · dsimp only
    split
    · rfl
    · split <;> rfl

end Poll

/-! ### What the text of an error mentions -/

private theorem containsText_iff {p l : List Char} :
    containsText p l = true ↔ ∃ i, OccursAt p l i := by
  induction l with
  | nil => simp [containsText, OccursAt]
  | cons c l ih =>
    rw [containsText, Bool.or_eq_true, ih, List.isPrefixOf_iff_prefix]
    constructor
    · rintro (h | ⟨i, h⟩)
      · exact ⟨0, h⟩
      · exact ⟨i + 1, h⟩
    · rintro ⟨i, h⟩
      cases i with
      | zero => exact .inl h
      | succ i => exact .inr ⟨i, h⟩

/-- A text mentions one of the codes where it occurs. -/
theorem mentionsAuthStatus_iff {text : List Char} : mentionsAuthStatus text = true ↔
    ∃ p ∈ ["401".toList, "403".toList], ∃ i, OccursAt p text i := by
  rw [mentionsAuthStatus, Bool.or_eq_true, containsText_iff, containsText_iff]
  simp

/-- No code reaches over a character that is no digit. -/
theorem mentionsAuthStatus_append_cons {a b : List Char} {x : Char} (hx : x.isDigit = false) :
    mentionsAuthStatus (a ++ x :: b) = (mentionsAuthStatus a || mentionsAuthStatus b) := by
  have hout : ∀ p ∈ ["401".toList, "403".toList], x ∉ p := by
    intro p hp hmem
    have hdigits : ∀ p ∈ ["401".toList, "403".toList], p.all Char.isDigit = true := by decide
    rw [List.all_eq_true.mp (hdigits p hp) x hmem] at hx
    cases hx
  rw [Bool.eq_iff_iff, Bool.or_eq_true, mentionsAuthStatus_iff, mentionsAuthStatus_iff,
    mentionsAuthStatus_iff]
  constructor
  · rintro ⟨p, hp, h⟩
    rcases (exists_occursAt_append_cons (hout p hp)).mp h with h | h
    · exact .inl ⟨p, hp, h⟩
    · exact .inr ⟨p, hp, h⟩
  · rintro (⟨p, hp, h⟩ | ⟨p, hp, h⟩)
    · exact ⟨p, hp, (exists_occursAt_append_cons (hout p hp)).mpr (.inl h)⟩
    · exact ⟨p, hp, (exists_occursAt_append_cons (hout p hp)).mpr (.inr h)⟩

/-- A text without digits. -/
def hasNoDigit (text : List Char) : Bool := text.all fun c ↦ !c.isDigit

/-- A text without digits mentions no code. -/
theorem mentionsAuthStatus_of_no_digit {text : List Char} (h : hasNoDigit text = true) :
    mentionsAuthStatus text = false := by
  rw [← Bool.not_eq_true, mentionsAuthStatus_iff]
  rintro ⟨p, hp, i, hi⟩
  have hfour : '4' ∈ text := by
    rcases List.mem_pair.mp hp with rfl | rfl
    · exact hi.mem
    · exact hi.mem
  have hdigit := List.all_eq_true.mp h '4' hfour
  revert hdigit
  decide

/-- A text without digits adds no mention before another. -/
theorem mentionsAuthStatus_append {a b : List Char} (ha : hasNoDigit a = true) :
    mentionsAuthStatus (a ++ b) = mentionsAuthStatus b := by
  rcases List.eq_nil_or_concat a with rfl | ⟨before, x, rfl⟩
  · rfl
  · rw [List.concat_eq_append] at ha ⊢
    simp only [hasNoDigit, List.all_append, List.all_cons, List.all_nil, Bool.and_true,
      Bool.and_eq_true, Bool.not_eq_true'] at ha
    rw [List.append_assoc, List.singleton_append, mentionsAuthStatus_append_cons ha.2,
      mentionsAuthStatus_of_no_digit ha.1, Bool.false_or]

/-- A code has at most three digits. -/
private theorem StatusCode.length_digits_le (status : StatusCode) :
    (toString status.code).toList.length ≤ 3 := by
  rw [Nat.toString_eq_repr, Nat.toList_repr]
  exact (Nat.length_toDigits_le_iff (by decide) (by decide)).mpr status.range.2

/-- No two numbers have the same digits. -/
private theorem eq_of_digits {m n : Nat} (h : (toString m).toList = (toString n).toList) :
    m = n := by
  rw [Nat.toString_eq_repr, Nat.toString_eq_repr, Nat.toList_repr, Nat.toList_repr] at h
  rw [← Nat.ofDigitChars_ten_toDigits (n := m), h, Nat.ofDigitChars_ten_toDigits]

/-- Of the codes with three digits, only the two mention themselves. -/
theorem mentionsAuthStatus_code (status : StatusCode) :
    mentionsAuthStatus (toString status.code).toList = status.isAuth := by
  rw [Bool.eq_iff_iff, mentionsAuthStatus_iff, StatusCode.isAuth, Bool.or_eq_true, beq_iff_eq,
    beq_iff_eq]
  constructor
  · rintro ⟨p, hp, i, hi⟩
    have hle := status.length_digits_le
    rcases List.mem_pair.mp hp with rfl | rfl
    · exact .inl (eq_of_digits (hi.eq_of_length_le (by decide) hle).symm)
    · exact .inr (eq_of_digits (hi.eq_of_length_le (by decide) hle).symm)
  · rintro (hcode | hcode)
    · exact ⟨"401".toList, by simp, 0, by rw [hcode]; exact List.prefix_rfl⟩
    · exact ⟨"403".toList, by simp, 0, by rw [hcode]; exact List.prefix_rfl⟩

/-! ### When the text tells what the status does -/

section Told

variable [JsonText] [JsonDisplay] [StatusReason]

/-- The reasons of status codes are words. -/
def PlainReasons : Prop := ∀ code reason, StatusReason.canonicalReason code = some reason →
  hasNoDigit reason.toList = true

namespace UsageAnswer

/-- The endpoint has rejected the token. -/
def rejected : UsageAnswer → Bool
  | unsent _ => false
  | unread status _ => status.isAuth
  | answered status _ => status.isAuth

/-- The answer was read to its end. -/
def isRead : UsageAnswer → Bool
  | answered _ _ => true
  | _ => false

/-- What the error of a request takes from outside, besides the status: the error of the transport,
or the body as it is printed. -/
def detail : UsageAnswer → String
  | unsent error => error
  | unread _ error => error
  | answered status text => if status.isSuccess then "" else JsonDisplay.display (usageBody text)

end UsageAnswer

omit [JsonText] [JsonDisplay] in
/-- The error of an answer mentions a code in its status or in its printed body. -/
private theorem mentionsAuthStatus_answered (hreasons : PlainReasons) (status : StatusCode)
    (body : String) : mentionsAuthStatus ("usage request failed (" ++ status.display ++ "): " ++
      body).toList = (status.isAuth || mentionsAuthStatus body.toList) := by
  have hreason : hasNoDigit ((StatusReason.canonicalReason status.code).getD
      "<unknown status code>").toList = true := by
    cases hknown : StatusReason.canonicalReason status.code with
    | none => decide
    | some reason => exact hreasons status.code reason hknown
  have hplain : hasNoDigit (((StatusReason.canonicalReason status.code).getD
      "<unknown status code>").toList ++ "): ".toList) = true := by
    have hclose : hasNoDigit "): ".toList = true := by decide
    unfold hasNoDigit at hreason hclose ⊢
    rw [List.all_append, hreason, hclose, Bool.and_self]
  rw [StatusCode.display]
  simp only [String.toList_append, List.append_assoc]
  rw [mentionsAuthStatus_append (by decide), show " ".toList = [' '] from rfl,
    List.singleton_append, mentionsAuthStatus_append_cons (by decide), mentionsAuthStatus_code,
    ← List.append_assoc, mentionsAuthStatus_append hplain]

/-- A usage request is recognised as rejected by its status, if the answer is read, or by a code in
what its error takes from outside. -/
theorem isAuthError_fetchUsageRaw (hreasons : PlainReasons) (answer : UsageAnswer) :
    (∃ e, fetchUsageRaw answer = .error e ∧ isAuthError e = true) ↔
      answer.rejected = true ∧ answer.isRead = true ∨
        mentionsAuthStatus answer.detail.toList = true := by
  cases answer with
  | unsent error =>
    rw [UsageAnswer.detail, ← mentionsAuthStatus_append (a := "usage request failed: ".toList)
      (by decide), ← String.toList_append]
    simp [fetchUsageRaw, isAuthError, UsageAnswer.isRead]
  | unread status error =>
    rw [UsageAnswer.detail, ← mentionsAuthStatus_append
      (a := "failed to read usage response: ".toList) (by decide), ← String.toList_append]
    simp [fetchUsageRaw, isAuthError, UsageAnswer.isRead]
  | answered status text =>
    cases hsuccess : status.isSuccess with
    | true =>
      -- no success is a rejection, and the one error of a success mentions nothing
      have hauth : status.isAuth = false := by
        simp only [StatusCode.isSuccess, decide_eq_true_eq] at hsuccess
        simp only [StatusCode.isAuth, Bool.or_eq_false_iff, beq_eq_false_iff_ne]
        omega
      apply iff_of_false
      · rintro ⟨e, herror, hrecognised⟩
        simp only [fetchUsageRaw, hsuccess, Bool.not_true, Bool.false_eq_true, if_false] at herror
        split at herror
        · cases herror
          revert hrecognised
          decide
        · cases herror
      · have hempty : mentionsAuthStatus "".toList = false := by decide
        simp only [UsageAnswer.rejected, UsageAnswer.detail, hsuccess, hauth, hempty, if_true,
          Bool.false_eq_true, false_and, or_self, not_false_iff]
    | false =>
      have herror : fetchUsageRaw (.answered status text) = .error (.upstream
          ("usage request failed (" ++ status.display ++ "): " ++
            JsonDisplay.display (usageBody text))) := by
        simp only [fetchUsageRaw, hsuccess, Bool.not_false, if_true]
      simp only [herror, Except.error.injEq, exists_eq_left', isAuthError,
        mentionsAuthStatus_answered hreasons, Bool.or_eq_true, UsageAnswer.rejected,
        UsageAnswer.isRead, UsageAnswer.detail, hsuccess, Bool.false_eq_true, if_false, and_true]

variable [UuidText] [ChronoRange] [FloatText] {crypto : TokenCrypto} {accountId : Uuid}
  {account : Account} {accessToken : String} {s : Store}

/-- A refresh of usage exchanges a token if the first request fails for an error that is recognised
as a rejection, and the account's token can be exchanged. -/
theorem exchange_mem_sent_iff (hfind : s.accounts.find accountId = some account)
    (haccess : crypto.decrypt account.encrypted.accessToken = .ok accessToken)
    (first second : UsageAnswer) (exchange : TokenExchange) (meanwhile : Meanwhile)
    (fetchedAt now : Instant) :
    (∃ refreshToken, PollRequest.exchange refreshToken ∈ (refreshAccountUsage crypto accountId
        first second exchange meanwhile fetchedAt now s).sent) ↔
      (∃ e, fetchUsageRaw first = .error e ∧ isAuthError e = true) ∧
        CanExchange crypto accountId (meanwhile.request s)
          (meanwhile.lock (meanwhile.request s)) := by
  rw [← exchange_mem_refreshTokensAmid_iff crypto accountId exchange]
  simp only [refreshAccountUsage, hfind, haccess]
  cases hfirst : fetchUsageRaw first with
  | ok raw => simp
  | error e =>
    cases hauth : isAuthError e with
    | false => simp [hauth]
    | true =>
      simp only [Except.error.injEq, exists_eq_left', hauth, if_true, true_and]
      rcases refreshTokensAmid crypto accountId exchange meanwhile (meanwhile.request s) with
        ⟨e | refreshed, t, exchanged⟩
      · simp
      · dsimp only
        split
        · simp
        · split
          · simp
          · simp

/-- The outcomes that the text of an error tells apart: a rejection is read or mentions a code, and
the account's token can be exchanged; nothing else mentions a code. -/
structure ToldByText (crypto : TokenCrypto) (accountId : Uuid) (answer : UsageAnswer)
    (observedIn lockedIn : Store) : Prop where
  rejected : answer.rejected = true → CanExchange crypto accountId observedIn lockedIn ∧
    (answer.isRead = true ∨ mentionsAuthStatus answer.detail.toList = true)
  others : answer.rejected = false → CanExchange crypto accountId observedIn lockedIn →
    mentionsAuthStatus answer.detail.toList = false

/-- **When the text tells a rejection.** The first usage request is followed by a token exchange
exactly if the endpoint has answered with status 401 or 403, for the outcomes that the text of an
error tells apart and for no others. -/
theorem exchange_iff_rejected_iff (hreasons : PlainReasons) (crypto : TokenCrypto)
    (accountId : Uuid) (account : Account) (accessToken : String) (s : Store)
    (hfind : s.accounts.find accountId = some account)
    (haccess : crypto.decrypt account.encrypted.accessToken = .ok accessToken)
    (first second : UsageAnswer) (exchange : TokenExchange) (meanwhile : Meanwhile)
    (fetchedAt now : Instant) :
    ((∃ refreshToken, PollRequest.exchange refreshToken ∈ (refreshAccountUsage crypto accountId
        first second exchange meanwhile fetchedAt now s).sent) ↔ first.rejected = true) ↔
      ToldByText crypto accountId first (meanwhile.request s)
        (meanwhile.lock (meanwhile.request s)) := by
  rw [exchange_mem_sent_iff hfind haccess, isAuthError_fetchUsageRaw hreasons]
  constructor
  · intro h
    constructor
    · intro hrejected
      obtain ⟨hmentions, hcan⟩ := h.mpr hrejected
      exact ⟨hcan, hmentions.imp_left And.right⟩
    · intro hother hcan
      by_contra hmentions
      rw [Bool.not_eq_false] at hmentions
      have hrejected := h.mp ⟨.inr hmentions, hcan⟩
      rw [hother] at hrejected
      cases hrejected
  · intro htold
    constructor
    · rintro ⟨hmentions | hmentions, hcan⟩
      · exact hmentions.1
      · by_contra hother
        rw [Bool.not_eq_true] at hother
        rw [htold.others hother hcan] at hmentions
        cases hmentions
    · intro hrejected
      obtain ⟨hcan, hread⟩ := htold.rejected hrejected
      exact ⟨hread.imp_left fun hread ↦ ⟨hrejected, hread⟩, hcan⟩

end Told

/-! ### An answer that mentions a code -/

section Sample

/-- The reasons of three statuses. -/
@[reducible] def someReasons : StatusReason where
  canonicalReason code :=
    if code = 200 then some "OK" else if code = 401 then some "Unauthorized"
    else if code = 502 then some "Bad Gateway" else none

/-- A writer of plain strings. -/
@[reducible] def plainDisplay : JsonDisplay where
  display value := "\"" ++ value.asStr.getD "" ++ "\""

/-- A reader to which no text is JSON. -/
@[reducible] def neverJson : JsonText := ⟨fun _ ↦ none⟩

/-- The reasons are words. -/
theorem someReasons_plain : @PlainReasons someReasons := by
  intro code reason h
  dsimp only [StatusReason.canonicalReason] at h
  split at h
  · cases h
    decide
  · split at h
    · cases h
      decide
    · split at h
      · cases h
        decide
      · cases h

/-- An account whose usage is polled. -/
def polledAccount : Account :=
  importedAccount ⟨"access", "refresh", "id"⟩ none ⟨none, "polled@example.invalid", "plus", none⟩
    "polled" 0

/-- A store with the account. -/
def polledStore : Store :=
  .initial ⟨[(1, polledAccount)], by decide⟩

/-- The token endpoint refuses. -/
def refusedExchange : TokenExchange where
  answer :=
    { response := .failed "connection closed"
      encrypted := ⟨"access2", "refresh2", "id2"⟩
      claims := ⟨none, "polled@example.invalid", "plus", none⟩ }
  now := 1000

/-- The requests of a refresh of usage whose first request meets some answer. -/
def polled (first : UsageAnswer) : List PollRequest :=
  (@refreshAccountUsage hyphenatedText neverJson plainDisplay someReasons chronoYears decimalText
    ⟨Except.ok⟩ 1 first (.unsent "connection closed") refusedExchange .quiet 1000 1000
    polledStore).sent

/-- A status 401 whose body is read is told by the text. -/
theorem exchange_iff_rejected_iff_unauthorized :
    ((∃ token, PollRequest.exchange token ∈ polled (.answered ⟨401, by decide⟩ "expired")) ↔
      (UsageAnswer.answered ⟨401, by decide⟩ "expired").rejected = true) ↔
    @ToldByText neverJson plainDisplay ⟨Except.ok⟩ 1 (.answered ⟨401, by decide⟩ "expired")
      polledStore polledStore :=
  @exchange_iff_rejected_iff neverJson plainDisplay someReasons hyphenatedText chronoYears
    decimalText someReasons_plain ⟨Except.ok⟩ 1 polledAccount "access" polledStore rfl rfl
    _ _ _ .quiet _ _

/-- A bad gateway whose body quotes a request number rotates the credentials. -/
theorem exchange_after_bad_gateway : ¬∀ first : UsageAnswer,
    (∃ token, PollRequest.exchange token ∈ polled first) ↔ first.rejected = true := by
  intro h
  have hsent : PollRequest.exchange "refresh" ∈
      polled (.answered ⟨502, by decide⟩ "request 40123 failed") := by
    have heq : polled (.answered ⟨502, by decide⟩ "request 40123 failed") =
        [.usage "access" none, .exchange "refresh"] := by
      decide +kernel
    simp [heq]
  have hrejected := (h (.answered ⟨502, by decide⟩ "request 40123 failed")).mp ⟨_, hsent⟩
  revert hrejected
  decide

end Sample

end CodexLb
