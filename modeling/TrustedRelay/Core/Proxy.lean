import TrustedRelay.Core.Config
import TrustedRelay.Core.Secrets
import TrustedRelay.Url.Append

/-!
# The data plane

The handler of `POST /v1/chat/completions`, cut where it waits: `prepareRequest` is everything
up to the upstream request, given the credential that was read from the store, and
`relayResponse` turns the upstream response into the one for the client.

Where a prepared request goes is the subject of `Destination.lean`. The result here,
`authFailure_sanitised_iff`, is about what comes back: a refused provider credential is answered
by a fixed response, except in the branch for event streams, which is taken before the refusal
is looked at.
-/

namespace TrustedRelay

/-- Errors of the handlers. -/
inductive AppError
  | upstream (status : StatusCode) (body : Text)
  | payloadTooLarge (limit : ℕ)
  | missingProviderCredential
  | internal (msg : Text)
deriving DecidableEq

/-- The body of an error response. -/
def relayErrorBody (message : String) : Text :=
  "\x7b\"error\":\x7b\"message\":\"".toList ++ message.toList ++
    "\",\"type\":\"relay_error\"\x7d\x7d".toList

/-- `IntoResponse`: the status, and a text as plain text. Internal details are not shown. -/
def AppError.intoResponse : AppError → Response
  | .upstream status body => textResponse status body
  | .payloadTooLarge _ =>
    textResponse StatusCode.payloadTooLarge (relayErrorBody "request body too large")
  | .missingProviderCredential =>
    textResponse StatusCode.serviceUnavailable (relayErrorBody "provider credential not loaded")
  | .internal _ =>
    textResponse StatusCode.internalServerError (relayErrorBody "internal relay error")
where
  textResponse (status : StatusCode) (body : Text) : Response :=
    { status, headers := [("content-type".toList, headerText "text/plain; charset=utf-8")],
      body := .full (Text.asBytes body) }

def forwardedRequestHeaders : List Text :=
  ["accept".toList, "anthropic-version".toList, "anthropic-beta".toList, "authorization".toList,
    "openai-beta".toList, "x-stainless-arch".toList, "x-stainless-lang".toList,
    "x-stainless-os".toList, "x-stainless-package-version".toList, "x-stainless-runtime".toList,
    "x-stainless-runtime-version".toList]

def forwardedResponseHeaders : List Text :=
  ["content-type".toList, "openai-processing-ms".toList, "openai-version".toList,
    "request-id".toList, "x-request-id".toList]

def authorizationName : Text := "authorization".toList

def contentTypeName : Text := "content-type".toList

/-- The state shared by the handlers, less the client and the store. -/
structure AppState where
  config : RelayConfig
  requireProviderCredential : Bool

section Proxy

variable (P : UrlParser) (extractModelName : Bytes → Option Text)

/-! ### The upstream request -/

def defaultUpstreamPath : Text := "/v1/chat/completions".toList

/-- The model of a request; a body without one routes like the empty name. -/
def requestModel (body : Bytes) : Text := (extractModelName body).getD []

/-- The URL that is posted to. -/
def upstreamUrl (resolved : Text × Option Text) : Text :=
  Text.trimEndMatches resolved.1 '/' ++ resolved.2.getD defaultUpstreamPath

/-- Size limit, routing and allowlist. The check is made on the base URL. -/
def routeRequest (c : RelayConfig) (body : Bytes) : Except AppError Text := do
  ensure (body.length ≤ c.maxRequestBytes.toNat) (.payloadTooLarge c.maxRequestBytes.toNat)
  let resolved := c.resolveUpstream (requestModel extractModelName body)
  (c.checkUpstreamAllowed P resolved.1).mapError
    fun e => .internal ("upstream not allowed: ".toList ++ e)
  .ok (upstreamUrl resolved)

/-- One name of the forwarding list; an injected credential replaces the client's. -/
def forwardHeader (credential : Option ProviderCredential) (headers acc : HeaderMap) (name : Text) :
    HeaderMap :=
  if name = authorizationName ∧ credential.isSome then acc
  else
    match headers.get name with
    | none => acc
    | some value =>
      match HeaderValue.fromBytes value.bytes with
      | none => acc
      | some value => acc.insert name value

/-- The credential that was read from the store, as the authorization of the request. -/
def injectCredential (credential : Option ProviderCredential) (m : HeaderMap) :
    Except AppError HeaderMap :=
  match credential with
  | none => .ok m
  | some credential => do
    let value ← okOr credential.authorizationValue (AppError.internal
      "invalid injected provider credential: failed to parse header value".toList)
    .ok (m.insert authorizationName value)

/-- The headers of the upstream request. -/
def upstreamHeaders (credential : Option ProviderCredential) (headers : HeaderMap) :
    Except AppError HeaderMap := do
  let forwarded := forwardedRequestHeaders.foldl (forwardHeader credential headers) []
  let m ← injectCredential credential forwarded
  .ok (m.insert contentTypeName (headerText "application/json"))

/-- The handler from reading the store to the upstream request. -/
def finishRequest (S : AppState) (credential : Option ProviderCredential) (headers : HeaderMap)
    (body : Bytes) (url : Text) : Except AppError UpstreamRequest := do
  ensure (S.requireProviderCredential = false ∨ credential.isSome) .missingProviderCredential
  let headers ← upstreamHeaders credential headers
  .ok { url, headers, body }

/-- The handler up to the upstream request, with the credential that the store held. -/
def prepareRequest (S : AppState) (credential : Option ProviderCredential) (headers : HeaderMap)
    (body : Bytes) : Except AppError UpstreamRequest := do
  let url ← routeRequest P extractModelName S.config body
  finishRequest S credential headers body url

/-! ### The response to the client -/

def filteredResponseHeaders (headers : HeaderMap) : HeaderMap :=
  forwardedResponseHeaders.filterMap fun name => (headers.get name).map fun value => (name, value)

/-- The content type, as far as it is a string. -/
def contentType (headers : HeaderMap) : Text :=
  ((headers.get contentTypeName).bind HeaderValue.toStr).getD "application/json".toList

/-- Is this a streaming response (SSE)? -/
def isStreaming (headers : HeaderMap) : Bool :=
  Text.contains (contentType headers) "text/event-stream".toList

/-- The event stream is passed on as it comes. -/
def streamResponse (resp : Response) : Response where
  status := (StatusCode.fromU16 resp.status.code).getD StatusCode.ok
  headers := [(contentTypeName, headerText "text/event-stream"),
    ("cache-control".toList, headerText "no-cache")] ++ filteredResponseHeaders resp.headers
  body := resp.body

/-- What a client sees when the provider refuses the relay's own credential. -/
def sanitisedResponse (status : StatusCode) : Response where
  status := status
  headers := [(contentTypeName, headerText "application/json")]
  body := .full (Text.asBytes (relayErrorBody "upstream provider authentication failed"))

/-- A buffered response, with the allowed headers. -/
def bufferedResponse (status : StatusCode) (headers : HeaderMap) (body : Bytes) : Response where
  status := status
  headers := (contentTypeName,
      (HeaderValue.fromStr (contentType headers)).getD (headerText "application/json")) ::
    (filteredResponseHeaders headers).filter (·.1 != contentTypeName)
  body := .full body

def providerAuthFailed (usingInjected : Bool) (status : StatusCode) : Bool :=
  usingInjected && (status.code == 401 || status.code == 403)

/-- The two response branches. Event streams are not buffered. -/
def relayResponse (usingInjected : Bool) (resp : Response) : Except AppError Response :=
  if isStreaming resp.headers then .ok (streamResponse resp)
  else do
    let body ← resp.body.bytes.mapError
      fun e => .internal ("failed to read upstream body: ".toList ++ e)
    let status := (StatusCode.fromU16 resp.status.code).getD StatusCode.internalServerError
    if providerAuthFailed usingInjected resp.status then .ok (sanitisedResponse status)
    else .ok (bufferedResponse status resp.headers body)

/-- `POST /v1/chat/completions`: the handler with the HTTP client `send`. -/
def proxyChatCompletions (S : AppState) (credential : Option ProviderCredential)
    (send : UpstreamRequest → Except Text Response) (headers : HeaderMap) (body : Bytes) :
    Except AppError Response := do
  let req ← prepareRequest P extractModelName S credential headers body
  let resp ← (send req).mapError fun e => .internal ("upstream request failed: ".toList ++ e)
  relayResponse credential.isSome resp

/-! ### What a prepared request is -/

theorem routeRequest_eq_ok_iff {c : RelayConfig} {body : Bytes} {url : Text} :
    routeRequest P extractModelName c body = .ok url ↔
      body.length ≤ c.maxRequestBytes.toNat ∧
      c.checkUpstreamAllowed P (c.resolveUpstream (requestModel extractModelName body)).1 = .ok () ∧
      url = upstreamUrl (c.resolveUpstream (requestModel extractModelName body)) := by
  unfold routeRequest
  rw [Except.unit_bind_eq_ok_iff, ensure_eq_ok_iff, Except.unit_bind_eq_ok_iff,
    Except.mapError_eq_ok_iff, Except.ok.injEq, eq_comm (a := url)]

/-- Once the configuration is validated, only the size limit stops the routing of a request. -/
theorem routeRequest_of_validate {c : RelayConfig} (h : c.validate P = .ok ()) (body : Bytes) :
    routeRequest P extractModelName c body =
      if body.length ≤ c.maxRequestBytes.toNat then
        .ok (upstreamUrl (c.resolveUpstream (requestModel extractModelName body)))
      else .error (.payloadTooLarge c.maxRequestBytes.toNat) := by
  have hcheck := c.checkUpstreamAllowed_resolveUpstream P h (requestModel extractModelName body)
  split_ifs with hlen
  · exact (routeRequest_eq_ok_iff P extractModelName).mpr ⟨hlen, hcheck, rfl⟩
  · rw [routeRequest, ensure, if_neg hlen]
    rfl

/-- Routing is by the longest key that is a prefix of the model name, and a validated
configuration allows whatever it resolves to. -/
theorem routing_spec (c : RelayConfig) :
    (∀ model,
      (∀ route, c.matchedRoute model = some route ↔ c.IsLongestMatch model route) ∧
      (c.matchedRoute model = none ↔ ∀ key ∈ c.routes, ¬ key <+: model) ∧
      c.resolveUpstream model = (c.matchedRoute model).elim (c.defaultUpstream, none)
        fun route => (route.2.baseUrl, route.2.path)) ∧
    (c.validate P = .ok () → c.allowedUpstreams ≠ [] → ∀ body,
      c.checkUpstreamAllowed P
          (c.resolveUpstream (requestModel extractModelName body)).1 = .ok () ∧
        ∀ e, routeRequest P extractModelName c body = .error e →
          e = .payloadTooLarge c.maxRequestBytes.toNat) := by
  refine ⟨fun model => ⟨fun _ => c.matchedRoute_eq_some_iff, c.matchedRoute_eq_none_iff,
    c.resolveUpstream_eq model⟩, fun h _ body => ?_⟩
  refine ⟨c.checkUpstreamAllowed_resolveUpstream P h _, fun e he => ?_⟩
  rw [routeRequest_of_validate P extractModelName h] at he
  split_ifs at he
  exact (Except.error.inj he).symm

/-- Two routes, one of which has a key that extends the other's. -/
def gptRoutes : RelayConfig where
  routes := Std.ExtTreeMap.ofList
    [("gpt-".toList, ProviderConfig.mk "https://api.openai.com".toList none),
      ("gpt-4".toList, ProviderConfig.mk "https://eu.example.com".toList (some "/v2".toList))]
  allowedUpstreams := ["https://api.openai.com".toList, "https://eu.example.com:443/".toList]

/-- The longer key wins, no key is the default, and a body that is not text is routed too. -/
theorem gptRoutes_resolve :
    gptRoutes.resolveUpstream "gpt-4o".toList =
        ("https://eu.example.com".toList, some "/v2".toList) ∧
      gptRoutes.resolveUpstream "claude".toList = (gptRoutes.defaultUpstream, none) ∧
      gptRoutes.checkUpstreamAllowed plainUrlParser
        (gptRoutes.resolveUpstream (requestModel (fun _ => none) [0xFF])).1 = .ok () := by
  obtain ⟨hresolve, hallowed⟩ := routing_spec plainUrlParser (fun _ => none) gptRoutes
  refine ⟨?_, ?_, (hallowed (by decide) (by decide) [0xFF]).1⟩
  · rw [(hresolve "gpt-4o".toList).2.2]
    decide
  · rw [(hresolve "claude".toList).2.2]
    decide

theorem finishRequest_eq_ok_iff {S : AppState} {credential : Option ProviderCredential}
    {headers : HeaderMap} {body : Bytes} {url : Text} {req : UpstreamRequest} :
    finishRequest S credential headers body url = .ok req ↔
      (S.requireProviderCredential = false ∨ credential.isSome = true) ∧
      upstreamHeaders credential headers = .ok req.headers ∧ req.body = body ∧ req.url = url := by
  simp only [finishRequest, Except.bind_eq_ok_iff, ensure_eq_ok_iff, exists_and_left, exists_const,
    Except.ok.injEq]
  constructor
  · rintro ⟨hcred, hs, hheaders, rfl⟩
    exact ⟨hcred, hheaders, rfl, rfl⟩
  · rintro ⟨hcred, hheaders, rfl, rfl⟩
    exact ⟨hcred, req.headers, hheaders, rfl⟩

theorem prepareRequest_eq_ok_iff {S : AppState} {credential : Option ProviderCredential}
    {headers : HeaderMap} {body : Bytes} {req : UpstreamRequest} :
    prepareRequest P extractModelName S credential headers body = .ok req ↔
      routeRequest P extractModelName S.config body = .ok req.url ∧
      (S.requireProviderCredential = false ∨ credential.isSome = true) ∧
      upstreamHeaders credential headers = .ok req.headers ∧ req.body = body := by
  simp only [prepareRequest, Except.bind_eq_ok_iff, finishRequest_eq_ok_iff]
  constructor
  · rintro ⟨url, hurl, hcred, hheaders, hbody, rfl⟩
    exact ⟨hurl, hcred, hheaders, hbody⟩
  · rintro ⟨hurl, hcred, hheaders, hbody⟩
    exact ⟨req.url, hurl, hcred, hheaders, hbody, rfl⟩

/-- With a credential, the request carries it and nothing else as its authorization. -/
theorem getAll_authorization_upstreamHeaders {credential : ProviderCredential}
    {headers m : HeaderMap} (h : upstreamHeaders (some credential) headers = .ok m) :
    ∃ value, credential.authorizationValue = some value ∧
      m.getAll authorizationName = [value] := by
  simp only [upstreamHeaders, injectCredential, Except.bind_eq_ok_iff, okOr_eq_ok_iff,
    Except.ok.injEq] at h
  obtain ⟨_, ⟨value, hvalue, rfl⟩, rfl⟩ := h
  refine ⟨value, hvalue, ?_⟩
  rw [HeaderMap.getAll_insert_of_ne _ _ (by decide), HeaderMap.getAll_insert_self]

/-! ### Refused provider credentials -/

/-- The sanitised response is given exactly to a refusal that is not an event stream and whose
body arrives. -/
theorem relayResponse_eq_sanitised_iff {resp : Response}
    (hstatus : resp.status.code = 401 ∨ resp.status.code = 403) :
    relayResponse true resp = .ok (sanitisedResponse resp.status) ↔
      isStreaming resp.headers = false ∧ resp.body.failure = none := by
  have hfailed : providerAuthFailed true resp.status = true := by
    rcases hstatus with h | h <;> simp [providerAuthFailed, h]
  unfold relayResponse
  cases hstream : isStreaming resp.headers with
  | true =>
    have hne : streamResponse resp ≠ sanitisedResponse resp.status := by
      intro heq
      have hlen := congrArg (fun r : Response => r.headers.length) heq
      simp [streamResponse, sanitisedResponse] at hlen
    simp [hne]
  | false =>
    simp only [Bool.false_eq_true, if_false, Except.bind_eq_ok_iff, Except.mapError_eq_ok_iff,
      BodyStream.bytes_eq_ok_iff, hfailed, if_true, StatusCode.fromU16_code, Option.getD_some,
      and_true, true_and]
    simp

/-- Two refusals of an injected credential look alike to the client, and are the fixed response,
exactly when neither is declared an event stream and both bodies arrive. -/
theorem authFailure_sanitised_iff (S : AppState) (credential : ProviderCredential)
    (headers : HeaderMap) (body : Bytes) (req : UpstreamRequest)
    (send send' : UpstreamRequest → Except Text Response) (resp resp' : Response)
    (hreq : prepareRequest P extractModelName S (some credential) headers body = .ok req)
    (hsend : send req = .ok resp) (hsend' : send' req = .ok resp')
    (hstatus : resp.status.code = 401 ∨ resp.status.code = 403)
    (hsame : resp'.status = resp.status) :
    (proxyChatCompletions P extractModelName S (some credential) send headers body =
          .ok (sanitisedResponse resp.status) ∧
        proxyChatCompletions P extractModelName S (some credential) send' headers body =
          .ok (sanitisedResponse resp.status)) ↔
      (isStreaming resp.headers = false ∧ resp.body.failure = none) ∧
        isStreaming resp'.headers = false ∧ resp'.body.failure = none := by
  have hrun : ∀ {s : UpstreamRequest → Except Text Response} {r : Response}, s req = .ok r →
      proxyChatCompletions P extractModelName S (some credential) s headers body =
        relayResponse true r := by
    intro s r hs
    rw [proxyChatCompletions, hreq]
    change ((s req).mapError _ >>= relayResponse true) = relayResponse true r
    rw [hs]
    rfl
  rw [hrun hsend, hrun hsend', relayResponse_eq_sanitised_iff hstatus, ← hsame,
    relayResponse_eq_sanitised_iff (hsame ▸ hstatus)]

end Proxy

/-- A relay with one allowed upstream that requires an injected credential. -/
def openaiState : AppState where
  config := { allowedUpstreams := ["https://api.openai.com".toList] }
  requireProviderCredential := true

def bearerKey : ProviderCredential := { token := "sk-key".toList }

/-- A `401` that repeats the key it was sent. -/
def refusal (mime : HeaderValue) (body : String) : Response where
  status := ⟨401, by decide⟩
  headers := [(contentTypeName, mime)]
  body := .full (Text.asBytes body.toList)

theorem jsonRefusals_sanitised :
    proxyChatCompletions plainUrlParser (fun _ => none) openaiState (some bearerKey)
          (fun _ => .ok (refusal (headerText "application/json") "bad key sk-key")) [] [] =
        .ok (sanitisedResponse ⟨401, by decide⟩) ∧
      proxyChatCompletions plainUrlParser (fun _ => none) openaiState (some bearerKey)
          (fun _ => .ok (refusal (headerText "text/html") "denied")) [] [] =
        .ok (sanitisedResponse ⟨401, by decide⟩) := by
  obtain ⟨req, hreq⟩ : ∃ req, prepareRequest plainUrlParser (fun _ => none) openaiState
      (some bearerKey) [] [] = .ok req := ⟨_, rfl⟩
  exact (authFailure_sanitised_iff plainUrlParser (fun _ => none) openaiState bearerKey [] [] req
    (fun _ => .ok (refusal (headerText "application/json") "bad key sk-key"))
    (fun _ => .ok (refusal (headerText "text/html") "denied")) _ _ hreq rfl rfl
    (Or.inl rfl) rfl).mpr (by decide)

/-- An event stream passes the body of the refusal on to the client. -/
theorem eventStreamRefusal_leaks :
    ∃ r r', proxyChatCompletions plainUrlParser (fun _ => none) openaiState (some bearerKey)
          (fun _ => .ok (refusal (headerText "text/event-stream") "bad key sk-key")) [] [] = .ok r ∧
      proxyChatCompletions plainUrlParser (fun _ => none) openaiState (some bearerKey)
          (fun _ => .ok (refusal (headerText "application/json") "bad key sk-key")) [] [] = .ok r' ∧
      r.body = .full (Text.asBytes "bad key sk-key".toList) ∧ r.body ≠ r'.body := by
  refine ⟨streamResponse (refusal (headerText "text/event-stream") "bad key sk-key"),
    sanitisedResponse ⟨401, by decide⟩, by decide, by decide, by decide, by decide⟩

end TrustedRelay
