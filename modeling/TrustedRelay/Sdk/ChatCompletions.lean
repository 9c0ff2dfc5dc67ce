import TrustedRelay.Core.ResponseHeaders
import TrustedRelay.Core.Router
import TrustedRelay.Http.Client
import TrustedRelay.Sdk.Client
import TrustedRelay.Sdk.Types

/-!
# A call of the SDK

`chat_completions` posts a request to the relay and reads the answer as JSON; the relay posts it to
a provider and relays the answer. `chatCompletions_through_relay` says what the two make of a call:
a completion is what the provider has answered to the request of this call, and the provider sees
the body that the SDK has written, under the routing of the relay's configuration, with the
credential of the relay in place of the SDK's key. The relay never redirects, so the SDK's own
client asks nobody else; what the provider answers to a request is the end of the redirects that the
relay's client follows.
-/

namespace TrustedRelay

/-! ### Answers to a `POST` request -/

/-- `StatusCode::is_success`. -/
def StatusCode.isSuccess (s : StatusCode) : Bool := decide (200 ≤ s.code ∧ s.code < 300)

theorem StatusCode.isSuccess_iff {s : StatusCode} :
    s.isSuccess = true ↔ 200 ≤ s.code ∧ s.code < 300 := decide_eq_true_iff

def locationName : Text := "location".toList

section Answers

variable {P : UrlParser} {extractModelName : Bytes → Option Text} {S : AppState}
  {credential : Option ProviderCredential} {send : UpstreamRequest → Except Text Response}

theorem relayResponse_of_buffered {usingInjected : Bool} {upstream r : Response}
    (hstream : isStreaming upstream.headers = false) :
    relayResponse usingInjected upstream = .ok r ↔ ∃ body, upstream.body.bytes = .ok body ∧
      r = if providerAuthFailed usingInjected upstream.status then
        sanitisedResponse upstream.status
      else bufferedResponse upstream.status upstream.headers body := by
  simp only [relayResponse, hstream, Bool.false_eq_true, if_false, Except.bind_eq_ok_iff,
    Except.mapError_eq_ok_iff, StatusCode.fromU16_code, Option.getD_some]
  refine exists_congr fun body => and_congr_right fun _ => ?_
  split_ifs
  · rw [Except.ok.injEq, eq_comm]
  · rw [Except.ok.injEq, eq_comm]

/-- A success is relayed as one, with its body, and nothing else is. -/
theorem relayResponse_success_iff {usingInjected : Bool} {upstream : Response} {bytes : Bytes} :
    (∃ r, relayResponse usingInjected upstream = .ok r ∧ r.status.isSuccess = true ∧
        r.body.bytes = .ok bytes) ↔
      upstream.status.isSuccess = true ∧ upstream.body.bytes = .ok bytes := by
  cases hstream : isStreaming upstream.headers with
  | true =>
    have hrelay : relayResponse usingInjected upstream = .ok (streamResponse upstream) :=
      if_pos hstream
    have hstatus : (streamResponse upstream).status = upstream.status := by
      rw [streamResponse, StatusCode.fromU16_code, Option.getD_some]
    constructor
    · rintro ⟨r, hr, hsuccess, hbytes⟩
      obtain rfl := Except.ok.inj (hrelay.symm.trans hr)
      exact ⟨hstatus ▸ hsuccess, hbytes⟩
    · rintro ⟨hsuccess, hbytes⟩
      exact ⟨_, hrelay, hstatus.symm ▸ hsuccess, hbytes⟩
  | false =>
    have hfull : ∀ b : Bytes, (BodyStream.full b).bytes = .ok b := fun b => by
      rw [BodyStream.bytes_eq_ok_iff]
      exact ⟨rfl, List.append_nil b⟩
    -- a refused credential is answered with its own status
    have hfailed : upstream.status.isSuccess = true →
        ¬providerAuthFailed usingInjected upstream.status = true := by
      rw [StatusCode.isSuccess_iff]
      simp only [providerAuthFailed, Bool.and_eq_true, Bool.or_eq_true, beq_iff_eq, not_and]
      omega
    simp only [relayResponse_of_buffered hstream]
    constructor
    · rintro ⟨r, ⟨body, hbody, rfl⟩, hsuccess, hbytes⟩
      by_cases hrefused : providerAuthFailed usingInjected upstream.status = true
      · rw [if_pos hrefused] at hsuccess
        exact absurd hrefused (hfailed hsuccess)
      · rw [if_neg hrefused] at hsuccess hbytes
        exact ⟨hsuccess, hbody.trans ((hfull body).symm.trans hbytes)⟩
    · rintro ⟨hsuccess, hbytes⟩
      refine ⟨_, ⟨bytes, hbytes, rfl⟩, ?_, ?_⟩
      · rw [if_neg (hfailed hsuccess)]
        exact hsuccess
      · rw [if_neg (hfailed hsuccess)]
        exact hfull bytes

theorem relayResponse_location {usingInjected : Bool} {upstream r : Response}
    (h : relayResponse usingInjected upstream = .ok r) : r.headers.get locationName = none := by
  have hforwarded : locationName ∉ forwardedResponseHeaders := by decide
  have hcontent : contentTypeName ≠ locationName := by decide
  have hcache : "cache-control".toList ≠ locationName := by decide
  have hfiltered : ∀ e ∈ filteredResponseHeaders upstream.headers, e.1 ≠ locationName :=
    fun e he hname => hforwarded (hname ▸ (mem_filteredResponseHeaders.mp he).1)
  refine HeaderMap.get_eq_none fun e he => ?_
  obtain ⟨-, rfl⟩ | ⟨-, rfl | ⟨body, rfl⟩⟩ := relayResponse_cases h
  · rcases List.mem_append.mp he with he | he
    · simp only [List.mem_cons, List.not_mem_nil, or_false] at he
      rcases he with rfl | rfl
      · exact hcontent
      · exact hcache
    · exact hfiltered e he
  · obtain rfl := List.mem_singleton.mp he
    exact hcontent
  · rcases List.mem_cons.mp he with rfl | he
    · exact hcontent
    · exact hfiltered e (List.mem_of_mem_filter he)

/-- An error that is answered by a refusal, which names no other place. -/
def AppError.Refuses (e : AppError) : Prop :=
  e.intoResponse.status.isSuccess = false ∧ e.intoResponse.headers.get locationName = none

theorem routeRequest_refuses {c : RelayConfig} {body : Bytes} {e : AppError}
    (h : routeRequest P extractModelName c body = .error e) : e.Refuses := by
  rcases Except.bind_eq_error_iff.mp h with hsize | ⟨_, -, h⟩
  · obtain ⟨-, rfl⟩ := ensure_eq_error_iff.mp hsize
    exact ⟨rfl, rfl⟩
  · rcases Except.bind_eq_error_iff.mp h with hallowed | ⟨_, -, hok⟩
    · obtain ⟨_, -, rfl⟩ := Except.mapError_eq_error_iff.mp hallowed
      exact ⟨rfl, rfl⟩
    · cases hok

theorem upstreamHeaders_refuses {headers : HeaderMap} {e : AppError}
    (h : upstreamHeaders credential headers = .error e) : e.Refuses := by
  rcases Except.bind_eq_error_iff.mp h with hinject | ⟨_, -, hok⟩
  · cases credential with
    | none => cases hinject
    | some credential =>
      rcases Except.bind_eq_error_iff.mp hinject with hvalue | ⟨_, -, hok⟩
      · obtain ⟨-, rfl⟩ := okOr_eq_error_iff.mp hvalue
        exact ⟨rfl, rfl⟩
      · cases hok
  · cases hok

theorem prepareRequest_refuses {headers : HeaderMap} {body : Bytes} {e : AppError}
    (h : prepareRequest P extractModelName S credential headers body = .error e) :
    e.Refuses := by
  rcases Except.bind_eq_error_iff.mp h with hroute | ⟨_, -, h⟩
  · exact routeRequest_refuses hroute
  · rcases Except.bind_eq_error_iff.mp h with hcredential | ⟨_, -, h⟩
    · obtain ⟨-, rfl⟩ := ensure_eq_error_iff.mp hcredential
      exact ⟨rfl, rfl⟩
    · rcases Except.bind_eq_error_iff.mp h with hheaders | ⟨_, -, hok⟩
      · exact upstreamHeaders_refuses hheaders
      · cases hok

theorem relayResponse_refuses {usingInjected : Bool} {upstream : Response} {e : AppError}
    (h : relayResponse usingInjected upstream = .error e) : e.Refuses := by
  cases hstream : isStreaming upstream.headers with
  | true =>
    rw [relayResponse, if_pos hstream] at h
    cases h
  | false =>
    rw [relayResponse, hstream, if_neg Bool.false_ne_true] at h
    rcases Except.bind_eq_error_iff.mp h with hbody | ⟨_, -, hok⟩
    · obtain ⟨_, -, rfl⟩ := Except.mapError_eq_error_iff.mp hbody
      exact ⟨rfl, rfl⟩
    · dsimp only at hok
      split_ifs at hok

/-- The handler's own errors are not successes. -/
theorem proxyChatCompletions_refuses {headers : HeaderMap} {body : Bytes} {e : AppError}
    (h : proxyChatCompletions P extractModelName S credential send headers body = .error e) :
    e.Refuses := by
  rcases Except.bind_eq_error_iff.mp h with hprepare | ⟨_, -, h⟩
  · exact prepareRequest_refuses hprepare
  · rcases Except.bind_eq_error_iff.mp h with hsend | ⟨_, -, hrelay⟩
    · obtain ⟨_, -, rfl⟩ := Except.mapError_eq_error_iff.mp hsend
      exact ⟨rfl, rfl⟩
    · exact relayResponse_refuses hrelay

variable (P extractModelName S credential send)

/-- The answer to a `POST` request is a relayed one, or a refusal. -/
theorem serve_post_cases {r : Request} (hmethod : r.method = .post) :
    (∃ req upstream, upstreamRequest P extractModelName S credential r = some req ∧
        send req = .ok upstream ∧ relayResponse credential.isSome upstream =
          .ok (serve P extractModelName S credential send r)) ∨
      (serve P extractModelName S credential send r).status.isSuccess = false ∧
        (serve P extractModelName S credential send r).headers.get locationName = none ∧
        ∀ req upstream resp, upstreamRequest P extractModelName S credential r = some req →
          send req = .ok upstream → relayResponse credential.isSome upstream ≠ .ok resp := by
  have hpost : RequestMethod.post ≠ .head := by decide
  rw [serve, upstreamRequest, hmethod, RequestMethod.respond, if_neg hpost]
  by_cases hpath : r.path = chatCompletionsPath
  · rw [if_pos hpath, if_pos ⟨hpath, rfl⟩]
    dsimp only
    cases readLimited r.body.failure S.config.maxRequestBytes.toNat r.body.chunks with
    | error rejection =>
      refine Or.inr ⟨?_, ?_, fun req upstream resp h => by cases h⟩
      · cases rejection <;> rfl
      · cases rejection <;> rfl
    | ok body =>
      dsimp only
      simp only [Except.toOption_eq_some_iff]
      cases hproxy : proxyChatCompletions P extractModelName S credential send r.headers body with
      | ok resp =>
        obtain ⟨req, upstream, hreq, hsend, hrelay⟩ :=
          (proxyChatCompletions_eq_ok_iff P extractModelName).mp hproxy
        exact Or.inl ⟨req, upstream, hreq, hsend, hrelay⟩
      | error e =>
        obtain ⟨hstatus, hlocation⟩ := proxyChatCompletions_refuses hproxy
        refine Or.inr ⟨hstatus, hlocation, fun req upstream resp hreq hsend hrelay => ?_⟩
        have hok := (proxyChatCompletions_eq_ok_iff P extractModelName).mpr
          ⟨req, upstream, hreq, hsend, hrelay⟩
        rw [hproxy] at hok
        cases hok
  · rw [if_neg hpath, if_neg fun h => hpath h.1]
    refine Or.inr ⟨?_, ?_, fun req upstream resp h => by cases h⟩
    · split_ifs <;> rfl
    · split_ifs <;> rfl

theorem serve_post_location {r : Request} (hmethod : r.method = .post) :
    (serve P extractModelName S credential send r).headers.get locationName = none := by
  obtain ⟨_, _, -, -, hrelay⟩ | ⟨-, hlocation, -⟩ :=
    serve_post_cases P extractModelName S credential send hmethod
  · exact relayResponse_location hrelay
  · exact hlocation

/-- A success with its body is the provider's. -/
theorem serve_post_success_iff {r : Request} (hmethod : r.method = .post) {bytes : Bytes} :
    ((serve P extractModelName S credential send r).status.isSuccess = true ∧
        (serve P extractModelName S credential send r).body.bytes = .ok bytes) ↔
      ∃ req upstream, upstreamRequest P extractModelName S credential r = some req ∧
        send req = .ok upstream ∧ upstream.status.isSuccess = true ∧
        upstream.body.bytes = .ok bytes := by
  obtain ⟨req, upstream, hreq, hsend, hrelay⟩ | ⟨hrefused, -, hnone⟩ :=
    serve_post_cases P extractModelName S credential send hmethod
  · constructor
    · rintro ⟨hsuccess, hbytes⟩
      exact ⟨req, upstream, hreq, hsend,
        relayResponse_success_iff.mp ⟨_, hrelay, hsuccess, hbytes⟩⟩
    · rintro ⟨req', upstream', hreq', hsend', hanswer⟩
      obtain rfl := Option.some.inj (hreq.symm.trans hreq')
      obtain rfl := Except.ok.inj (hsend.symm.trans hsend')
      obtain ⟨resp, hresp, hsuccess⟩ := relayResponse_success_iff.mpr hanswer
      obtain rfl := Except.ok.inj (hrelay.symm.trans hresp)
      exact hsuccess
  · constructor
    · rintro ⟨hsuccess, -⟩
      rw [hrefused] at hsuccess
      cases hsuccess
    · rintro ⟨req, upstream, hreq, hsend, hanswer⟩
      obtain ⟨resp, hresp, -⟩ := relayResponse_success_iff.mpr hanswer
      exact absurd hresp (hnone req upstream resp hreq hsend)

end Answers

namespace Sdk

/-- The library functions that read a response: the reason phrase of a status, the text of a body
under the charset of its headers, and a completion in JSON. -/
structure ResponseReader (α : Type) where
  canonicalReason : StatusCode → Option Text
  text : HeaderMap → Bytes → Text
  json : Bytes → Except Text α

/-- `Display` of a status code. -/
def ResponseReader.displayStatus {α : Type} (L : ResponseReader α) (s : StatusCode) : Text :=
  Text.decimal s.code ++ ' ' :: (L.canonicalReason s).getD "<unknown status code>".toList

section Call

variable {α : Type} (P : UrlParser) (H : HttpClient) (L : ResponseReader α)

namespace TrustedRelayClient

variable (C : TrustedRelayClient)

/-- Where the endpoint takes chat completions. -/
def chatUrl : Text := Text.trimEndMatches C.endpoint '/' ++ "/v1/chat/completions".toList

/-- The key as a header, if it can stand in one. -/
def keyHeaders : Except Text HeaderMap :=
  match C.apiKey with
  | none => .ok []
  | some key => do
    let value ← okOr (HeaderValue.fromStr ("Bearer ".toList ++ key)) "builder error".toList
    .ok [(authorizationName, value)]

/-- The headers of a call: credentials in the endpoint come before the key, and the library accepts
any media type. -/
def headers (u : Url) : Except Text HeaderMap := do
  let key ← C.keyHeaders
  .ok (authorityHeaders H u ++
    [(contentTypeName, headerText "application/json" jsonContentType_isHeaderValue)] ++ key ++
    [("accept".toList, headerText "*/*" anyMedia_isHeaderValue)])

/-- The request of a call. -/
def call (headers : HeaderMap) (request : ChatRequest) : UpstreamRequest :=
  ⟨C.chatUrl, headers, request.toJson⟩

/-- `chat_completions`; `answers` are what the servers send to a call, in order. -/
def chatCompletions (answers : UpstreamRequest → List (Except Text Response))
    (request : ChatRequest) : Except Text α := do
  let u ← okOr (requestTarget P C.chatUrl) "builder error".toList
  let headers ← C.headers H u
  let resp ← send P H (answers (C.call headers request)) (C.call headers request)
  if resp.status.isSuccess then do
    let body ← resp.body.bytes
    L.json body
  else
    -- a body that does not arrive is shown as an empty one
    .error ("upstream error ".toList ++ L.displayStatus resp.status ++ ": ".toList ++
      (resp.body.bytes.toOption.map (L.text resp.headers)).getD [])

/-! ### Over a relay -/

variable (extractModelName : Bytes → Option Text)
  (deliver : UpstreamRequest → Except Text Request) (S : AppState)
  (credential : Option ProviderCredential)

/-- The request to the provider that a call leads to, if it leads to one. -/
def upstreamOfCall (request : ChatRequest) : Option UpstreamRequest := do
  let u ← requestTarget P C.chatUrl
  let headers ← (C.headers H u).toOption
  let r ← (deliver (C.call headers request)).toOption
  upstreamRequest P extractModelName S credential r

end TrustedRelayClient

/-- HTTP between the SDK and the relay: a request that arrives is the call, in its method, in a body
that is complete, and in the headers that the relay looks at. -/
structure Delivers (deliver : UpstreamRequest → Except Text Request) : Prop where
  method : ∀ call r, deliver call = .ok r → r.method = .post
  body : ∀ call r, deliver call = .ok r → r.body.failure = none →
    r.body.chunks.flatten = call.body
  headers : ∀ call r, deliver call = .ok r → ∀ name ∈ forwardedRequestHeaders,
    r.headers.getAll name = call.headers.getAll name

/-- The answers to a call when a relay is the server, and any others are ready to follow. -/
def relayAnswers (extractModelName : Bytes → Option Text)
    (deliver : UpstreamRequest → Except Text Request) (S : AppState)
    (credential : Option ProviderCredential) (provider : UpstreamRequest → Except Text Response)
    (others : UpstreamRequest → List (Except Text Response)) (call : UpstreamRequest) :
    List (Except Text Response) :=
  (deliver call).map (serve P extractModelName S credential provider) :: others call

variable {P H L} {extractModelName : Bytes → Option Text}
  {deliver : UpstreamRequest → Except Text Request} {S : AppState}
  {credential : Option ProviderCredential} {C : TrustedRelayClient}

theorem chatCompletions_eq_ok_iff {answers : UpstreamRequest → List (Except Text Response)}
    {request : ChatRequest} {completion : α} :
    C.chatCompletions P H L answers request = .ok completion ↔
      ∃ u headers resp bytes, requestTarget P C.chatUrl = some u ∧ C.headers H u = .ok headers ∧
        send P H (answers (C.call headers request)) (C.call headers request) = .ok resp ∧
        (resp.status.isSuccess = true ∧ resp.body.bytes = .ok bytes) ∧
        L.json bytes = .ok completion := by
  simp only [TrustedRelayClient.chatCompletions, Except.bind_eq_ok_iff, okOr_eq_ok_iff]
  constructor
  · rintro ⟨u, hu, headers, hheaders, resp, hresp, hcompletion⟩
    split_ifs at hcompletion with hsuccess
    obtain ⟨bytes, hbytes, hjson⟩ := Except.bind_eq_ok_iff.mp hcompletion
    exact ⟨u, headers, resp, bytes, hu, hheaders, hresp, ⟨hsuccess, hbytes⟩, hjson⟩
  · rintro ⟨u, headers, resp, bytes, hu, hheaders, hresp, ⟨hsuccess, hbytes⟩, hjson⟩
    refine ⟨u, hu, headers, hheaders, resp, hresp, ?_⟩
    rw [if_pos hsuccess]
    exact Except.bind_eq_ok_iff.mpr ⟨bytes, hbytes, hjson⟩

/-- The client takes the relay's answer as it is. -/
theorem send_relayAnswers (hdeliver : Delivers deliver)
    {provider : UpstreamRequest → Except Text Response}
    {others : UpstreamRequest → List (Except Text Response)} (call : UpstreamRequest) {u : Url}
    (hu : requestTarget P call.url = some u) {resp : Response} :
    send P H (relayAnswers P extractModelName deliver S credential provider others call) call =
        .ok resp ↔
      ∃ r, deliver call = .ok r ∧ serve P extractModelName S credential provider r = resp := by
  rw [relayAnswers]
  cases hr : deliver call with
  | error e =>
    change send P H (.error e :: others call) call = _ ↔ _
    rw [send_error P H hu]
    refine iff_of_false (fun h => by cases h) ?_
    rintro ⟨r, h, -⟩
    cases h
  | ok r =>
    change send P H (.ok (serve P extractModelName S credential provider r) :: others call) call =
      _ ↔ _
    rw [send_of_no_location P H hu (serve_post_location P extractModelName S credential provider
      (hdeliver.method call r hr)), Except.ok.injEq]
    constructor
    · intro h
      exact ⟨r, rfl, h⟩
    · rintro ⟨r', h, hresp⟩
      rw [Except.ok.inj h]
      exact hresp

theorem upstreamOfCall_eq_some_iff {request : ChatRequest} {req : UpstreamRequest} :
    C.upstreamOfCall P H extractModelName deliver S credential request = some req ↔
      ∃ u headers r, requestTarget P C.chatUrl = some u ∧ C.headers H u = .ok headers ∧
        deliver (C.call headers request) = .ok r ∧
        upstreamRequest P extractModelName S credential r = some req := by
  simp only [TrustedRelayClient.upstreamOfCall, Option.bind_eq_bind, Option.bind_eq_some_iff,
    Except.toOption_eq_some_iff, exists_and_left]

/-- What a call comes to when the server is a relay. `provider` is what the relay's HTTP client gets
for the one request that it is handed, at the end of the redirects it follows; the SDK's own client
has none to follow. -/
theorem chatCompletions_through_relay (P : UrlParser) (H : HttpClient) (L : ResponseReader α)
    (extractModelName : Bytes → Option Text) (deliver : UpstreamRequest → Except Text Request)
    (hdeliver : Delivers deliver) (S : AppState) (credential : Option ProviderCredential)
    (provider : UpstreamRequest → Except Text Response)
    (others : UpstreamRequest → List (Except Text Response)) (C : TrustedRelayClient)
    (request : ChatRequest) :
    (∀ completion, C.chatCompletions P H L
        (relayAnswers P extractModelName deliver S credential provider others) request =
          .ok completion ↔
      ∃ req upstream bytes,
        C.upstreamOfCall P H extractModelName deliver S credential request = some req ∧
        provider req = .ok upstream ∧ upstream.status.isSuccess = true ∧
        upstream.body.bytes = .ok bytes ∧ L.json bytes = .ok completion) ∧
    ∀ req, C.upstreamOfCall P H extractModelName deliver S credential request = some req →
      req.body = request.toJson ∧
      routeRequest P extractModelName S.config request.toJson = .ok req.url ∧
      ∃ u headers, requestTarget P C.chatUrl = some u ∧ C.headers H u = .ok headers ∧
        ∀ name, req.headers.getAll name = forwardedValues credential headers name := by
  constructor
  · intro completion
    rw [chatCompletions_eq_ok_iff]
    constructor
    · -- no redirect is followed, so the response is the relay's own
      rintro ⟨u, headers, resp, bytes, hu, hheaders, hresp, hanswer, hjson⟩
      obtain ⟨r, hr, rfl⟩ := (send_relayAnswers hdeliver (C.call headers request) hu).mp hresp
      obtain ⟨req, upstream, hreq, hsend, hsuccess, hbytes⟩ := (serve_post_success_iff P
        extractModelName S credential provider (hdeliver.method _ r hr)).mp hanswer
      exact ⟨req, upstream, bytes,
        upstreamOfCall_eq_some_iff.mpr ⟨u, headers, r, hu, hheaders, hr, hreq⟩, hsend, hsuccess,
        hbytes, hjson⟩
    · rintro ⟨req, upstream, bytes, hcall, hsend, hsuccess, hbytes, hjson⟩
      obtain ⟨u, headers, r, hu, hheaders, hr, hreq⟩ := upstreamOfCall_eq_some_iff.mp hcall
      exact ⟨u, headers, _, bytes, hu, hheaders,
        (send_relayAnswers hdeliver (C.call headers request) hu).mpr ⟨r, hr, rfl⟩,
        (serve_post_success_iff P extractModelName S credential provider
          (hdeliver.method _ r hr)).mpr ⟨req, upstream, hreq, hsend, hsuccess, hbytes⟩, hjson⟩
  · intro req hcall
    obtain ⟨u, headers, r, hu, hheaders, hr, hreq⟩ := upstreamOfCall_eq_some_iff.mp hcall
    obtain ⟨-, -, hcomplete, hprepare⟩ := upstreamRequest_eq_some_iff.mp hreq
    obtain ⟨hurl, -, hforwarded, hbody⟩ :=
      (prepareRequest_eq_ok_iff P extractModelName).mp hprepare
    have hjson : r.body.chunks.flatten = request.toJson := hdeliver.body _ r hr hcomplete
    rw [hjson] at hurl hbody
    refine ⟨hbody, hurl, u, headers, hu, hheaders, fun name => ?_⟩
    rw [getAll_upstreamHeaders hforwarded]
    exact forwardedValues_of_getAll (hdeliver.headers _ r hr name)

end Call

/-! ### A call with a key of its own -/

def sampleClient : TrustedRelayClient where
  endpoint := "https://relay.example:8443/".toList
  apiKey := some "local".toList
  tls := ⟨fun _ _ => .error (.err (.verificationFailed [])), none, none⟩

/-- The bytes of a completion, for which only the empty object is one. -/
def sampleReader : ResponseReader Bytes where
  canonicalReason _ := none
  text _ body := body.map fun b => Char.ofNat b.toNat
  json body := if body = [123, 125] then .ok body else .error "missing field".toList

def sampleDeliver (call : UpstreamRequest) : Except Text Request :=
  .ok ⟨.post, some chatCompletionsPath, call.headers, { chunks := [call.body] }⟩

def sampleProvider (_ : UpstreamRequest) : Except Text Response :=
  .ok ⟨StatusCode.ok, [], { chunks := [[123], [125]] }⟩

/-- The provider sees the relay's key, and its completion is what the caller gets, whoever else
would have an answer. -/
theorem sampleClient_completes :
    ∃ req, sampleClient.upstreamOfCall plainUrlParser plainClient (fun _ => none) sampleDeliver
        openaiState (some bearerKey) (ChatRequest.simple "gpt-4o".toList "Hi".toList) = some req ∧
      req.headers.getAll authorizationName = [headerText "Bearer sk-key"] ∧
      sampleClient.chatCompletions plainUrlParser plainClient sampleReader
        (relayAnswers plainUrlParser (fun _ => none) sampleDeliver openaiState (some bearerKey)
          sampleProvider fun _ => [.error []])
        (ChatRequest.simple "gpt-4o".toList "Hi".toList) = .ok [123, 125] := by
  have hdeliver : Delivers sampleDeliver := by
    refine ⟨?_, ?_, ?_⟩
    · rintro _ _ ⟨⟩
      rfl
    · rintro call _ ⟨⟩ -
      exact List.append_nil call.body
    · rintro _ _ ⟨⟩ _ _
      rfl
  obtain ⟨req, hreq⟩ : ∃ req, sampleClient.upstreamOfCall plainUrlParser plainClient
      (fun _ => none) sampleDeliver openaiState (some bearerKey)
      (ChatRequest.simple "gpt-4o".toList "Hi".toList) = some req := ⟨_, rfl⟩
  obtain ⟨hcompletion, hseen⟩ := chatCompletions_through_relay plainUrlParser plainClient
    sampleReader (fun _ => none) sampleDeliver hdeliver openaiState (some bearerKey) sampleProvider
    (fun _ => [.error []]) sampleClient (ChatRequest.simple "gpt-4o".toList "Hi".toList)
  obtain ⟨-, -, u, headers, -, -, hvalues⟩ := hseen req hreq
  refine ⟨req, hreq, ?_, (hcompletion _).mpr ⟨req, _, [123, 125], hreq, rfl, rfl, rfl, rfl⟩⟩
  rw [hvalues, forwardedValues, if_neg (by decide), if_pos rfl]
  rfl

end Sdk

end TrustedRelay
