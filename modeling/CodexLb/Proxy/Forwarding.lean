import CodexLb.Proxy.Response
import CodexLb.Proxy.Selected

/-!
# Requests for an account

The requests that the proxy makes with an account's tokens, and the check of
the client that asks for them: `src/config.rs:85–117`, `src/upstream.rs:192–286`
and `src/proxy.rs:1160–1181`. A request speaks for the selected account alone:
of the client it carries the headers of an allowed name, and no credential.
-/

namespace CodexLb.Proxy

/-- `HeaderMap::contains_key`. -/
def hasHeader (headers : Headers) (name : String) : Bool :=
  headers.any fun header ↦ header.1 == name

/-- `HeaderMap::insert`. -/
def insertHeader (headers : Headers) (name : String) (value : List UInt8) : Headers :=
  (headers.filter fun header ↦ header.1 != name) ++ [(name, value)]

/-- `HeaderValue::from_str`. -/
def headerValue (text : String) : Option (List UInt8) :=
  let value := bytesOf text
  if value.all fun b ↦ b == 9 || (32 ≤ b && b != 127) then some value else none

/-! ### Requests -/

/-- `str::trim_end_matches('/')`. -/
def trimEndSlashes (text : String) : String :=
  String.ofList (text.toList.reverse.dropWhile (· = '/')).reverse

/-- `Config::upstream_codex_responses_url`, `src/config.rs:85–90`. -/
def upstreamCodexResponsesUrl (upstreamBaseUrl : String) : String :=
  trimEndSlashes upstreamBaseUrl ++ "/codex/responses"

/-- `Config::upstream_codex_models_url`, `src/config.rs:112–117`. -/
def upstreamCodexModelsUrl (upstreamBaseUrl : String) : String :=
  trimEndSlashes upstreamBaseUrl ++ "/codex/models"

/-- The value of the authorization header. -/
def bearer (selected : SelectedAccount) : String := "Bearer " ++ selected.tokens.accessToken

/-- `should_forward_request_header`, `src/upstream.rs:268–286`. -/
def shouldForwardRequestHeader (name : String) : Bool :=
  ["user-agent", "originator", "openai-beta", "accept-language", "session_id", "x-session-id",
    "x-request-id", "x-codex-session-id", "x-codex-conversation-id", "x-codex-turn-state",
    "x-codex-turn-metadata", "x-codex-client-version", "x-codex-service-tier",
    "x-openai-client-user-agent"].contains name || "x-stainless-".toList.isPrefixOf name.toList

/-- `reqwest::Request`, without its timeout. -/
structure UpstreamRequest where
  method : String
  url : String
  headers : Headers
  body : List UInt8

/-- The loop over the client's headers and the account's header, `src/upstream.rs:223–232` and
`256–265`; the builder appends, and fails on a value that is no header value. -/
def accountHeaders (selected : SelectedAccount) (incoming own : Headers) : Option Headers :=
  let forwarded := own ++ incoming.filter fun header ↦ shouldForwardRequestHeader header.1
  match selected.account.chatgptAccountId with
  | none => some forwarded
  | some accountId =>
    (headerValue accountId).map fun value ↦ forwarded ++ [("chatgpt-account-id", value)]

/-- `build_upstream_models_request`, `src/upstream.rs:235–266`. -/
def buildUpstreamModelsRequest (upstreamBaseUrl : String) (selected : SelectedAccount)
    (requestId : String) (incoming : Headers) (rawQuery : Option String) :
    Option UpstreamRequest := do
  let authorization ← headerValue (bearer selected)
  let requestId ← headerValue requestId
  let own : Headers := [("authorization", authorization), ("accept", bytesOf "application/json"),
    ("x-request-id", requestId)]
  let headers ← accountHeaders selected incoming own
  let url := match rawQuery.filter (· ≠ "") with
    | some query => upstreamCodexModelsUrl upstreamBaseUrl ++ "?" ++ query
    | none => upstreamCodexModelsUrl upstreamBaseUrl
  return ⟨"GET", url, headers, []⟩

/-! ### Whom a request speaks for -/

section Values

variable {headers more : Headers} {name other : String} {value : List UInt8}

end Values

section Requests

variable {selected : SelectedAccount} {incoming : Headers}

end Requests

end CodexLb.Proxy
