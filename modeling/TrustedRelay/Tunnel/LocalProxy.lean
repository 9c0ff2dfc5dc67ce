import TrustedRelay.Core.Router
import TrustedRelay.Tunnel.LocalError
import TrustedRelay.Tunnel.Transport

/-!
# The local proxy

Local applications talk to a proxy on their own machine, which passes every request on to the relay
through the attested connection, less the headers that name the local key and the local host.

`upstream_of_local` follows a request through both, to what the relay sends to the provider: the
body and the listed headers are the application's, and the key is never the application's, whatever
the relay is configured to do with a client's key.
-/

namespace TrustedRelay

/-! ### Headers -/

namespace HeaderMap

/-- `remove`: every value of a name goes. -/
def remove (m : HeaderMap) (name : Text) : HeaderMap := m.filter (·.1 != name)

theorem getAll_remove_self (m : HeaderMap) (name : Text) : getAll (remove m name) name = [] := by
  rw [getAll, remove, List.filter_filter, List.map_eq_nil_iff, List.filter_eq_nil_iff]
  intro e _
  simp

theorem getAll_remove_of_ne (m : HeaderMap) {name other : Text} (h : other ≠ name) :
    getAll (remove m name) other = getAll m other := by
  rw [getAll, remove, List.filter_filter, getAll]
  refine congrArg _ (List.filter_congr fun e _ => ?_)
  by_cases he : e.1 = other
  · simp [he, h]
  · simp [he]

end HeaderMap

namespace LocalProxy

def hostName : Text := "host".toList

/-- The local key and the local host are not passed on. -/
def sanitizeLocalHeaders (headers : HeaderMap) : HeaderMap :=
  (headers.remove authorizationName).remove hostName

theorem getAll_sanitizeLocalHeaders (headers : HeaderMap) (name : Text) :
    (sanitizeLocalHeaders headers).getAll name =
      if name = authorizationName ∨ name = hostName then [] else headers.getAll name := by
  rw [sanitizeLocalHeaders]
  by_cases hhost : name = hostName
  · rw [if_pos (Or.inr hhost), hhost, HeaderMap.getAll_remove_self]
  rw [HeaderMap.getAll_remove_of_ne _ hhost]
  by_cases hauth : name = authorizationName
  · rw [if_pos (Or.inl hauth), hauth, HeaderMap.getAll_remove_self]
  · rw [if_neg (not_or.mpr ⟨hauth, hhost⟩), HeaderMap.getAll_remove_of_ne _ hauth]

/-! ### The handler -/

/-- A URI, as the HTTP client takes it. -/
structure Uri where
  scheme : Text
  authority : Text
  pathAndQuery : Option Text
deriving DecidableEq

/-- The state of the proxy, less the client. -/
structure AppState where
  relayBase : Url
deriving DecidableEq

section Handler

variable (parseUri : Text → Except Text Uri)
  (client : Uri → Request → Except Text Response)

/-- The URI of a request to the relay. -/
def upstreamUri (S : AppState) (r : Request) : Except LocalProxyError Uri := do
  let authority ← (relayAuthority S.relayBase).mapError
    fun e => .internal ("invalid relay endpoint: ".toList ++ e)
  (parseUri (S.relayBase.scheme ++ "://".toList ++ authority ++
    r.pathAndQuery.getD "/".toList)).mapError
      fun e => .internal ("failed to build relay URI: ".toList ++ e)

/-- The request that the client is given. -/
def relayRequest (uri : Uri) (r : Request) : Request :=
  { r with pathAndQuery := uri.pathAndQuery, headers := sanitizeLocalHeaders r.headers }

def proxyRequest (S : AppState) (r : Request) : Except LocalProxyError Response := do
  let uri ← upstreamUri parseUri S r
  (client uri (relayRequest uri r)).mapError
    fun e => .badGateway ("relay request failed: ".toList ++ e)

/-- The router of the proxy: the answer to a local request. -/
def serve (S : AppState) (r : Request) : Response :=
  r.method.respond <|
    if r.path = healthPath then getRoute health r.method
    else match proxyRequest parseUri client S r with
      | .ok resp => resp
      | .error e => e.intoResponse

end Handler

/-- `run` up to its listener: the endpoint must be an `https` URL. -/
def run (P : UrlParser) (relayEndpoint : Text) : Except Text AppState := do
  let relayBase ← okOr (Url.parse P relayEndpoint) "invalid relay endpoint".toList
  ensure (relayBase.scheme = "https".toList) "relay endpoint must use https://".toList
  .ok ⟨relayBase⟩

/-! ### Through the proxy and the relay -/

section Chain

/-- HTTP between the proxy and the relay: a request that arrives is the one that was sent, in its
method, in a body that is complete, and in the headers that the relay looks at. -/
structure Delivers (deliver : Uri → Request → Except Text Request) : Prop where
  method : ∀ uri r r', deliver uri r = .ok r' → r'.method = r.method
  body : ∀ uri r r', deliver uri r = .ok r' → r'.body.failure = none →
    r.body.failure = none ∧ r'.body.chunks.flatten = r.body.chunks.flatten
  headers : ∀ uri r r', deliver uri r = .ok r' → ∀ name ∈ forwardedRequestHeaders,
    r'.headers.getAll name = r.headers.getAll name

variable (P : UrlParser) (extractModelName : Bytes → Option Text)
  (parseUri : Text → Except Text Uri) (deliver : Uri → Request → Except Text Request)

/-- The client of the proxy, when a relay answers. -/
def relayClient (S : TrustedRelay.AppState) (credential : Option ProviderCredential)
    (send : UpstreamRequest → Except Text Response) (uri : Uri) (r : Request) :
    Except Text Response :=
  (deliver uri r).map (TrustedRelay.serve P extractModelName S credential send)

/-- The request to the provider that a local request leads to, if it leads to one. -/
def upstreamOfLocal (L : AppState) (S : TrustedRelay.AppState)
    (credential : Option ProviderCredential) (r : Request) : Option UpstreamRequest :=
  if r.path = healthPath then none
  else do
    let uri ← (upstreamUri parseUri L r).toOption
    let r' ← (deliver uri (relayRequest uri r)).toOption
    upstreamRequest P extractModelName S credential r'

variable {P extractModelName parseUri deliver}

theorem upstreamOfLocal_eq_some_iff {L : AppState} {S : TrustedRelay.AppState}
    {credential : Option ProviderCredential} {r : Request} {req : UpstreamRequest} :
    upstreamOfLocal P extractModelName parseUri deliver L S credential r = some req ↔
      r.path ≠ healthPath ∧ ∃ uri r', upstreamUri parseUri L r = .ok uri ∧
        deliver uri (relayRequest uri r) = .ok r' ∧
        upstreamRequest P extractModelName S credential r' = some req := by
  rw [upstreamOfLocal]
  split_ifs with hhealth
  · exact iff_of_false (fun h => by cases h) fun h => h.1 hhealth
  · simp only [Option.bind_eq_bind, Option.bind_eq_some_iff, Except.toOption_eq_some_iff,
      exists_and_left, ne_eq,
      hhealth, not_false_eq_true, true_and]

theorem forwardedValues_sanitized_authorization {credential : Option ProviderCredential}
    {headers : HeaderMap} :
    forwardedValues credential (sanitizeLocalHeaders headers) authorizationName =
      (credential.bind ProviderCredential.authorizationValue).toList := by
  have hget : (sanitizeLocalHeaders headers).get authorizationName = none := by
    rw [HeaderMap.get_eq_head?, getAll_sanitizeLocalHeaders, if_pos (Or.inl rfl), List.head?_nil]
  rw [forwardedValues, if_neg (by decide), if_pos rfl, hget]
  cases credential <;> rfl

theorem forwardedValues_sanitized {credential : Option ProviderCredential} {headers : HeaderMap}
    {name : Text} (hname : name ≠ authorizationName) :
    forwardedValues credential (sanitizeLocalHeaders headers) name =
      forwardedValues none headers name := by
  have hhost : hostName ∉ forwardedRequestHeaders := by decide
  rw [forwardedValues, forwardedValues, if_neg hname, if_neg hname]
  split_ifs with hcontent hmem
  · rfl
  · have hne : ¬(name = authorizationName ∨ name = hostName) := by
      rintro (heq | rfl)
      · exact hname heq
      · exact hhost hmem
    rw [HeaderMap.get_eq_head?, HeaderMap.get_eq_head?, getAll_sanitizeLocalHeaders, if_neg hne]
  · rfl

/-- The provider sees the body and the listed headers of the local request, and no key but the one
that was injected into the relay. -/
theorem upstream_of_local (P : UrlParser) (extractModelName : Bytes → Option Text)
    (parseUri : Text → Except Text Uri) (deliver : Uri → Request → Except Text Request)
    (hdeliver : Delivers deliver) (L : AppState) (S : TrustedRelay.AppState)
    (credential : Option ProviderCredential) (r : Request) :
    (∀ send send' : UpstreamRequest → Except Text Response,
      (∀ req, upstreamOfLocal P extractModelName parseUri deliver L S credential r = some req →
        send req = send' req) →
      LocalProxy.serve parseUri (relayClient P extractModelName deliver S credential send) L r =
        LocalProxy.serve parseUri (relayClient P extractModelName deliver S credential send') L r) ∧
    ∀ req, upstreamOfLocal P extractModelName parseUri deliver L S credential r = some req →
      r.method = .post ∧ r.body.failure = none ∧ req.body = r.body.chunks.flatten ∧
      routeRequest P extractModelName S.config r.body.chunks.flatten = .ok req.url ∧
      req.headers.getAll authorizationName =
        (credential.bind ProviderCredential.authorizationValue).toList ∧
      ∀ name, name ≠ authorizationName →
        req.headers.getAll name = forwardedValues none r.headers name := by
  constructor
  · intro send send' h
    unfold LocalProxy.serve
    refine congrArg _ ?_
    split_ifs with hhealth
    · rfl
    have hproxy : proxyRequest parseUri
          (relayClient P extractModelName deliver S credential send) L r =
        proxyRequest parseUri (relayClient P extractModelName deliver S credential send') L r := by
      unfold proxyRequest
      cases huri : upstreamUri parseUri L r with
      | error e => rfl
      | ok uri =>
        change (relayClient P extractModelName deliver S credential send uri _).mapError _ =
          (relayClient P extractModelName deliver S credential send' uri _).mapError _
        refine congrArg _ ?_
        unfold relayClient
        cases hr : deliver uri (relayRequest uri r) with
        | error e => rfl
        | ok r' =>
          refine congrArg Except.ok (serve_congr fun req hreq => h req ?_)
          exact upstreamOfLocal_eq_some_iff.mpr ⟨hhealth, uri, r', huri, hr, hreq⟩
    rw [hproxy]
  · intro req hreq
    obtain ⟨-, uri, r', -, hr', hreq⟩ := upstreamOfLocal_eq_some_iff.mp hreq
    obtain ⟨⟨-, hmethod⟩, -, hcomplete, hprepare⟩ := upstreamRequest_eq_some_iff.mp hreq
    obtain ⟨hurl, -, hheaders, hbody⟩ := (prepareRequest_eq_ok_iff P extractModelName).mp hprepare
    obtain ⟨hcomplete', hflatten⟩ := hdeliver.body _ _ _ hr' hcomplete
    rw [hflatten] at hurl hbody
    have hget : ∀ name ∈ forwardedRequestHeaders, r'.headers.getAll name =
        (sanitizeLocalHeaders r.headers).getAll name := hdeliver.headers _ _ _ hr'
    refine ⟨(hdeliver.method _ _ _ hr').symm.trans hmethod, hcomplete', hbody, hurl, ?_, ?_⟩
    · rw [getAll_upstreamHeaders hheaders, forwardedValues_of_getAll (hget _),
        forwardedValues_sanitized_authorization]
    · intro name hname
      rw [getAll_upstreamHeaders hheaders, forwardedValues_of_getAll (hget _),
        forwardedValues_sanitized hname]

/-! ### A request with a local key -/

/-- A reader of the URIs of one relay. -/
def sampleUriParser (s : Text) : Except Text Uri :=
  match Text.stripPrefix s "https://10.0.0.5:8443".toList with
  | some pq => .ok ⟨"https".toList, "10.0.0.5:8443".toList, some pq⟩
  | none => .error "invalid uri character".toList

theorem eventStream_isHeaderValue :
    (Text.asBytes "text/event-stream".toList).all isHeaderValueByte = true := by
  decide

def keyedRequest : Request where
  method := .post
  pathAndQuery := some "/v1/chat/completions".toList
  headers := [("host".toList, headerText "localhost:11434"),
    ("accept".toList, headerText "text/event-stream" eventStream_isHeaderValue),
    ("authorization".toList, headerText "Bearer local"),
    ("cookie".toList, headerText "theme=dark")]
  body := { chunks := [[123], [125]] }

/-- A relay that would pass on a client's key. -/
def forwardingState : TrustedRelay.AppState :=
  { openaiState with requireProviderCredential := false }

/-- The relay has no credential, and the provider is sent no key at all. -/
theorem keyedRequest_upstream :
    ∃ req, upstreamOfLocal plainUrlParser (fun _ => none) sampleUriParser (fun _ r => .ok r)
        ⟨sampleUrl⟩ forwardingState none keyedRequest = some req ∧
      req.body = [123, 125] ∧ req.headers.getAll authorizationName = [] ∧
      req.headers.getAll "accept".toList = [headerText "text/event-stream"] ∧
      req.headers.getAll "cookie".toList = [] := by
  have hdeliver : Delivers fun (_ : Uri) r => .ok r := by
    refine ⟨?_, ?_, ?_⟩
    · rintro _ _ _ ⟨⟩
      rfl
    · rintro _ _ _ ⟨⟩ hcomplete
      exact ⟨hcomplete, rfl⟩
    · rintro _ _ _ ⟨⟩ _ _
      rfl
  obtain ⟨req, hreq⟩ : ∃ req, upstreamOfLocal plainUrlParser (fun _ => none) sampleUriParser
      (fun _ r => .ok r) ⟨sampleUrl⟩ forwardingState none keyedRequest = some req := ⟨_, rfl⟩
  obtain ⟨-, -, hbody, -, hauth, hheaders⟩ := (upstream_of_local plainUrlParser (fun _ => none)
    sampleUriParser _ hdeliver ⟨sampleUrl⟩ forwardingState none keyedRequest).2 req hreq
  refine ⟨req, hreq, hbody, hauth, ?_, ?_⟩
  · rw [hheaders _ (by decide)]
    decide
  · rw [hheaders _ (by decide)]
    decide

end Chain

end LocalProxy

end TrustedRelay
