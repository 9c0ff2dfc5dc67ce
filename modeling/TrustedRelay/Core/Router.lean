import TrustedRelay.Core.Proxy

/-!
# The router of the relay

Two routes, and a limit on the body that is enforced while the body is read, before the handler is
called. `serve` is the answer to any request. In `serve_spec` the configuration and the credential
are valid: then the handler's own size check never fails, nor does any other internal check, and
what is left are the answers that a client can get.
-/

namespace TrustedRelay

/-! ### Requests -/

/-- Request methods, as far as the routers tell them apart. -/
inductive RequestMethod
  | get
  | head
  | post
  | other (name : Text)
deriving DecidableEq

/-- A request as it arrives. Of the target there is the path with the query; the authority form has
none. -/
structure Request where
  method : RequestMethod
  pathAndQuery : Option Text
  headers : HeaderMap
  body : BodyStream
deriving DecidableEq

/-- `Uri::path`. -/
def Request.path (r : Request) : Text :=
  match r.pathAndQuery with
  | none => []
  | some pq => if pq.takeWhile (· != '?') = [] then ['/'] else pq.takeWhile (· != '?')

/-- The response to a `HEAD` request has no body. -/
def RequestMethod.respond (method : RequestMethod) (r : Response) : Response :=
  if method = .head then { r with body := .full [] } else r

/-! ### The body limit -/

/-- Why a body is not passed to the handler. -/
inductive BodyRejection
  | lengthLimit
  | unknown (e : Text)
deriving DecidableEq

/-- The body under a limit, chunk by chunk. -/
def readLimited (failure : Option Text) : ℕ → List Bytes → Except BodyRejection Bytes
  | _, [] => match failure with
    | none => .ok []
    | some e => .error (.unknown e)
  | remaining, chunk :: chunks =>
    if remaining < chunk.length then .error .lengthLimit
    else (readLimited failure (remaining - chunk.length) chunks).map (chunk ++ ·)

/-- `IntoResponse` of the rejections. -/
def BodyRejection.intoResponse : BodyRejection → Response
  | .lengthLimit => AppError.intoResponse.textResponse StatusCode.payloadTooLarge
    "Failed to buffer the request body: length limit exceeded".toList
  | .unknown e => AppError.intoResponse.textResponse StatusCode.badRequest
    ("Failed to buffer the request body: ".toList ++ e)

/-- The limit counts what arrives; a body that exceeds it is refused for that alone. -/
theorem readLimited_eq (failure : Option Text) (limit : ℕ) (chunks : List Bytes) :
    readLimited failure limit chunks =
      if limit < chunks.flatten.length then .error .lengthLimit
      else failure.elim (.ok chunks.flatten) fun e => .error (.unknown e) := by
  induction chunks generalizing limit with
  | nil =>
    rw [List.flatten_nil, List.length_nil, if_neg (Nat.not_lt_zero limit)]
    cases failure <;> rfl
  | cons chunk chunks ih =>
    rw [readLimited, ih, List.flatten_cons, List.length_append]
    by_cases hchunk : limit < chunk.length
    · rw [if_pos hchunk, if_pos (Nat.lt_add_right _ hchunk)]
    · have hrest : limit - chunk.length < chunks.flatten.length ↔
          limit < chunk.length + chunks.flatten.length := by omega
      rw [if_neg hchunk]
      by_cases hover : limit < chunk.length + chunks.flatten.length
      · rw [if_pos (hrest.mpr hover), if_pos hover]
        rfl
      · rw [if_neg (mt hrest.mp hover), if_neg hover]
        cases failure <;> rfl

/-! ### The routes -/

section Serve

variable (P : UrlParser) (extractModelName : Bytes → Option Text)

def chatCompletionsPath : Text := "/v1/chat/completions".toList

def healthPath : Text := "/health".toList

def health : Response := AppError.intoResponse.textResponse StatusCode.ok "ok".toList

def notFound : Response := ⟨⟨404, by decide⟩, [], .full []⟩

/-- A path that is routed, with another method. -/
def methodNotAllowed (allow : HeaderValue) : Response :=
  ⟨⟨405, by decide⟩, [("allow".toList, allow)], .full []⟩

/-- `get(handler)`: a route that answers `HEAD` requests too. -/
def getRoute (handler : Response) (method : RequestMethod) : Response :=
  match method with
  | .get => handler
  | .head => handler
  | _ => methodNotAllowed (headerText "GET,HEAD")

/-- What the handler returns, as a response. -/
def intoResponse (result : Except AppError Response) : Response :=
  match result with
  | .ok resp => resp
  | .error e => e.intoResponse

/-- `build_router`: the answer to a request, with the credential that the store holds. -/
def serve (S : AppState) (credential : Option ProviderCredential)
    (send : UpstreamRequest → Except Text Response) (r : Request) : Response :=
  r.method.respond <|
    if r.path = chatCompletionsPath then
      match r.method with
      | .post =>
        match readLimited r.body.failure S.config.maxRequestBytes.toNat r.body.chunks with
        | .error rejection => rejection.intoResponse
        | .ok body =>
          intoResponse (proxyChatCompletions P extractModelName S credential send r.headers body)
      | _ => methodNotAllowed (headerText "POST")
    else if r.path = healthPath then getRoute health r.method
    else notFound

/-- The request to the provider that a request to the relay leads to, if it leads to one. -/
def upstreamRequest (S : AppState) (credential : Option ProviderCredential) (r : Request) :
    Option UpstreamRequest :=
  if r.path = chatCompletionsPath ∧ r.method = .post then
    match readLimited r.body.failure S.config.maxRequestBytes.toNat r.body.chunks with
    | .error _ => none
    | .ok body => (prepareRequest P extractModelName S credential r.headers body).toOption
  else none

variable {P extractModelName}

theorem Except.toOption_eq_some_iff {ε α : Type} {x : Except ε α} {a : α} :
    x.toOption = some a ↔ x = .ok a := by
  cases x <;> simp [Except.toOption]

theorem upstreamRequest_eq_some_iff {S : AppState} {credential : Option ProviderCredential}
    {r : Request} {req : UpstreamRequest} :
    upstreamRequest P extractModelName S credential r = some req ↔
      (r.path = chatCompletionsPath ∧ r.method = .post) ∧
      r.body.chunks.flatten.length ≤ S.config.maxRequestBytes.toNat ∧ r.body.failure = none ∧
      prepareRequest P extractModelName S credential r.headers r.body.chunks.flatten =
        .ok req := by
  rw [upstreamRequest, readLimited_eq]
  split_ifs with hroute hover
  · exact iff_of_false nofun fun h => absurd hover (Nat.not_lt.mpr h.2.1)
  · rw [and_iff_right hroute, and_iff_right (Nat.le_of_not_lt hover)]
    cases r.body.failure with
    | some e => exact iff_of_false nofun fun h => nomatch h.1
    | none =>
      rw [and_iff_right rfl]
      dsimp only [Option.elim_none]
      exact Except.toOption_eq_some_iff
  · exact iff_of_false nofun fun h => hroute h.1

/-- Nothing else is sent. -/
theorem serve_congr {S : AppState} {credential : Option ProviderCredential} {r : Request}
    {send send' : UpstreamRequest → Except Text Response}
    (h : ∀ req, upstreamRequest P extractModelName S credential r = some req →
      send req = send' req) :
    serve P extractModelName S credential send r =
      serve P extractModelName S credential send' r := by
  have hproxy : ∀ body, r.path = chatCompletionsPath → r.method = .post →
      readLimited r.body.failure S.config.maxRequestBytes.toNat r.body.chunks = .ok body →
      proxyChatCompletions P extractModelName S credential send r.headers body =
        proxyChatCompletions P extractModelName S credential send' r.headers body := by
    intro body hpath hmethod hbody
    cases hprepare : prepareRequest P extractModelName S credential r.headers body with
    | error e => rw [proxyChatCompletions, proxyChatCompletions, hprepare]; rfl
    | ok req =>
      have hsend : send req = send' req := by
        apply h
        rw [upstreamRequest, if_pos ⟨hpath, hmethod⟩, hbody]
        dsimp only
        rw [hprepare]
        rfl
      rw [proxyChatCompletions, proxyChatCompletions, hprepare]
      change ((send req).mapError _ >>= _) = ((send' req).mapError _ >>= _)
      rw [hsend]
  unfold serve
  split_ifs with hpath hhealth
  · cases hmethod : r.method with
    | post =>
      dsimp only
      cases hbody : readLimited r.body.failure S.config.maxRequestBytes.toNat r.body.chunks with
      | error rejection => rfl
      | ok body =>
        dsimp only
        rw [hproxy body hpath hmethod hbody]
    | get => rfl
    | head => rfl
    | other name => rfl
  · rfl
  · rfl

/-! ### The headers of the upstream request -/

theorem getAll_forwardHeader {credential : Option ProviderCredential} {headers acc : HeaderMap}
    {name other : Text} : (forwardHeader credential headers acc name).getAll other =
      if other = name ∧ ¬(name = authorizationName ∧ credential.isSome = true) then
        (headers.get name).elim (acc.getAll other) fun value => [value]
      else acc.getAll other := by
  unfold forwardHeader
  by_cases hskip : name = authorizationName ∧ credential.isSome = true
  · rw [if_pos hskip, if_neg fun h => h.2 hskip]
  · rw [if_neg hskip]
    cases hget : headers.get name with
    | none => rw [Option.elim_none, ite_self]
    | some value =>
      dsimp only
      rw [HeaderValue.fromBytes_bytes]
      dsimp only
      by_cases hname : other = name
      · rw [if_pos ⟨hname, hskip⟩, hname, HeaderMap.getAll_insert_self, Option.elim_some]
      · rw [if_neg fun h => hname h.1, HeaderMap.getAll_insert_of_ne _ _ hname]

/-- A forwarded name has the client's first value. -/
theorem getAll_foldl_forwardHeader {credential : Option ProviderCredential}
    {headers acc : HeaderMap} {names : List Text} {other : Text} :
    (names.foldl (forwardHeader credential headers) acc).getAll other =
      if other ∈ names ∧ ¬(other = authorizationName ∧ credential.isSome = true) then
        (headers.get other).elim (acc.getAll other) fun value => [value]
      else acc.getAll other := by
  induction names generalizing acc with
  | nil => rw [List.foldl_nil, if_neg fun h => List.not_mem_nil h.1]
  | cons name names ih =>
    rw [List.foldl_cons, ih, getAll_forwardHeader]
    simp only [List.mem_cons]
    by_cases hname : other = name
    · subst hname
      by_cases hskip : other = authorizationName ∧ credential.isSome = true
      · have hno : ∀ p : Prop, ¬(p ∧ ¬(other = authorizationName ∧ credential.isSome = true)) :=
          fun _ h => h.2 hskip
        rw [if_neg (hno _), if_neg (hno _), if_neg (hno _)]
      · cases headers.get other <;> simp [hskip]
    · simp only [hname, false_and, false_or, if_false]

theorem jsonContentType_isHeaderValue :
    (Text.asBytes "application/json".toList).all isHeaderValueByte = true := by
  decide

/-- What an upstream request has under a name: the content type is fixed, the authorization is the
injected one if there is one, and the other names of the list have the client's first value. -/
def forwardedValues (credential : Option ProviderCredential) (headers : HeaderMap) (name : Text) :
    List HeaderValue :=
  if name = contentTypeName then [headerText "application/json" jsonContentType_isHeaderValue]
  else if name = authorizationName then
    (credential.elim (headers.get name) ProviderCredential.authorizationValue).toList
  else if name ∈ forwardedRequestHeaders then (headers.get name).toList
  else []

theorem getAll_upstreamHeaders {credential : Option ProviderCredential} {headers m : HeaderMap}
    (h : upstreamHeaders credential headers = .ok m) (name : Text) :
    m.getAll name = forwardedValues credential headers name := by
  unfold forwardedValues
  have hforwarded : ∀ other, (forwardedRequestHeaders.foldl (forwardHeader credential headers)
      []).getAll other = if other ∈ forwardedRequestHeaders ∧
        ¬(other = authorizationName ∧ credential.isSome = true) then (headers.get other).toList
        else [] := by
    intro other
    rw [getAll_foldl_forwardHeader, HeaderMap.getAll_nil]
    cases headers.get other <;> rfl
  have hmem : authorizationName ∈ forwardedRequestHeaders := by decide
  simp only [upstreamHeaders, Except.bind_eq_ok_iff, Except.ok.injEq] at h
  obtain ⟨m', hm', rfl⟩ := h
  by_cases hcontent : name = contentTypeName
  · rw [if_pos hcontent, hcontent, HeaderMap.getAll_insert_self]
  rw [if_neg hcontent, HeaderMap.getAll_insert_of_ne _ _ hcontent]
  cases credential with
  | none =>
    obtain rfl := Except.ok.inj hm'
    rw [hforwarded]
    by_cases hname : name = authorizationName
    · subst hname
      simp [hmem]
    · simp [hname]
  | some credential =>
    simp only [injectCredential, Except.bind_eq_ok_iff, okOr_eq_ok_iff, Except.ok.injEq] at hm'
    obtain ⟨value, hvalue, rfl⟩ := hm'
    by_cases hname : name = authorizationName
    · subst hname
      simp [HeaderMap.getAll_insert_self, hvalue]
    · rw [if_neg hname, HeaderMap.getAll_insert_of_ne _ _ hname, hforwarded]
      simp [hname]

/-- The values depend on the names of the list alone. -/
theorem forwardedValues_of_getAll {credential : Option ProviderCredential} {h h' : HeaderMap}
    {name : Text} (hnames : name ∈ forwardedRequestHeaders → h.getAll name = h'.getAll name) :
    forwardedValues credential h name = forwardedValues credential h' name := by
  have hauth : authorizationName ∈ forwardedRequestHeaders := by decide
  rw [forwardedValues, forwardedValues, HeaderMap.get_eq_head?, HeaderMap.get_eq_head?]
  split_ifs with hcontent hname hmem
  · rfl
  · rw [hnames (hname ▸ hauth)]
  · rw [hnames hmem]
  · rfl

/-! ### The answers -/

theorem upstreamHeaders_of_valid {credential : Option ProviderCredential}
    (hcredential : ∀ c, credential = some c → c.validate = .ok ()) (headers : HeaderMap) :
    ∃ m, upstreamHeaders credential headers = .ok m := by
  cases credential with
  | none => exact ⟨_, rfl⟩
  | some c =>
    obtain ⟨value, hvalue⟩ := ProviderCredential.authorizationValue_of_validate (hcredential c rfl)
    simp only [upstreamHeaders, injectCredential, hvalue]
    exact ⟨_, rfl⟩

/-- Of the handler's checks, only that for a credential is left: the limit is the router's. -/
theorem prepareRequest_of_valid {S : AppState} {credential : Option ProviderCredential}
    {headers m : HeaderMap} {body : Bytes} (hconfig : S.config.validate P = .ok ())
    (hlimit : body.length ≤ S.config.maxRequestBytes.toNat)
    (hm : upstreamHeaders credential headers = .ok m) :
    prepareRequest P extractModelName S credential headers body =
      if S.requireProviderCredential = true ∧ credential = none then
        .error .missingProviderCredential
      else .ok ⟨upstreamUrl (S.config.resolveUpstream (requestModel extractModelName body)), m,
        body⟩ := by
  have hcheck : S.requireProviderCredential = false ∨ credential.isSome = true ↔
      ¬(S.requireProviderCredential = true ∧ credential = none) := by
    cases S.requireProviderCredential <;> cases credential <;> simp
  rw [prepareRequest, routeRequest_of_validate P extractModelName hconfig, if_pos hlimit]
  change finishRequest S credential headers body _ = _
  rw [finishRequest, hm, ensure]
  by_cases hmissing : S.requireProviderCredential = true ∧ credential = none
  · rw [if_pos hmissing, if_neg (mt hcheck.mp (not_not_intro hmissing))]
    rfl
  · rw [if_neg hmissing, if_pos (hcheck.mpr hmissing)]
    rfl

/-- A chat request to a relay with a valid configuration and a valid credential, or none. -/
theorem serve_spec (P : UrlParser) (extractModelName : Bytes → Option Text) (S : AppState)
    (credential : Option ProviderCredential) (hconfig : S.config.validate P = .ok ())
    (hcredential : ∀ c, credential = some c → c.validate = .ok ())
    (send : UpstreamRequest → Except Text Response) (r : Request)
    (hpath : r.path = chatCompletionsPath) (hmethod : r.method = .post) :
    (S.config.maxRequestBytes.toNat < r.body.chunks.flatten.length →
      serve P extractModelName S credential send r = BodyRejection.lengthLimit.intoResponse) ∧
    (r.body.chunks.flatten.length ≤ S.config.maxRequestBytes.toNat →
      (∀ e, r.body.failure = some e →
        serve P extractModelName S credential send r = (BodyRejection.unknown e).intoResponse) ∧
      (r.body.failure = none →
        (S.requireProviderCredential = true → credential = none →
          serve P extractModelName S credential send r =
            AppError.intoResponse .missingProviderCredential) ∧
        ((S.requireProviderCredential = true → credential ≠ none) →
          ∃ req : UpstreamRequest, req.body = r.body.chunks.flatten ∧
            req.url = upstreamUrl (S.config.resolveUpstream
              (requestModel extractModelName r.body.chunks.flatten)) ∧
            (∀ name, req.headers.getAll name = forwardedValues credential r.headers name) ∧
            serve P extractModelName S credential send r =
              match send req with
              | .error e =>
                AppError.intoResponse (.internal ("upstream request failed: ".toList ++ e))
              | .ok resp => intoResponse (relayResponse credential.isSome resp)))) := by
  have hserve : serve P extractModelName S credential send r =
      match readLimited r.body.failure S.config.maxRequestBytes.toNat r.body.chunks with
      | .error rejection => rejection.intoResponse
      | .ok body =>
        intoResponse
          (proxyChatCompletions P extractModelName S credential send r.headers body) := by
    rw [serve, hmethod, if_pos hpath, RequestMethod.respond, if_neg nofun]
  rw [hserve, readLimited_eq]
  refine ⟨fun hover => ?_, fun hlimit => ⟨fun e he => ?_, fun hcomplete => ?_⟩⟩
  · rw [if_pos hover]
  · rw [if_neg (Nat.not_lt.mpr hlimit), he]
    rfl
  · -- the handler's own limit is the router's, so it lets the body pass
    obtain ⟨m, hm⟩ := upstreamHeaders_of_valid hcredential r.headers
    rw [if_neg (Nat.not_lt.mpr hlimit), hcomplete]
    dsimp only [Option.elim_none]
    rw [proxyChatCompletions, prepareRequest_of_valid hconfig hlimit hm]
    constructor
    · intro hrequire hnone
      rw [if_pos ⟨hrequire, hnone⟩]
      rfl
    · intro hloaded
      rw [if_neg fun h => hloaded h.1 h.2]
      refine ⟨⟨_, m, _⟩, rfl, rfl, getAll_upstreamHeaders hm, ?_⟩
      have hanswer : ∀ result : Except Text Response, intoResponse (do
          let resp ← result.mapError fun e => .internal ("upstream request failed: ".toList ++ e)
          relayResponse credential.isSome resp) = match result with
            | .error e =>
              AppError.intoResponse (.internal ("upstream request failed: ".toList ++ e))
            | .ok resp => intoResponse (relayResponse credential.isSome resp) := by
        rintro (e | resp) <;> rfl
      exact hanswer _

/-- A relay that takes four bytes. -/
def smallState : AppState :=
  { openaiState with config := { openaiState.config with maxRequestBytes := 4 } }

def chatBody (chunks : List Bytes) : Request where
  method := .post
  pathAndQuery := some "/v1/chat/completions?n=1".toList
  headers := []
  body := { chunks }

/-- Five bytes in two chunks are refused by the router, and four are refused for want of a
credential. -/
theorem smallState_serves :
    serve plainUrlParser (fun _ => none) smallState (some bearerKey) (fun _ => .error [])
        (chatBody [[1, 2, 3], [4, 5]]) = BodyRejection.lengthLimit.intoResponse ∧
      serve plainUrlParser (fun _ => none) smallState none (fun _ => .error [])
        (chatBody [[1, 2, 3], [4]]) = AppError.intoResponse .missingProviderCredential ∧
      ∃ req : UpstreamRequest, req.body = [1, 2, 3, 4] ∧
        req.headers.getAll authorizationName = [headerText "Bearer sk-key"] := by
  have hkey : ∀ c, some bearerKey = some c → c.validate = .ok () := by
    rintro c hc
    obtain rfl := Option.some.inj hc
    decide
  refine ⟨?_, ?_, ?_⟩
  · exact (serve_spec plainUrlParser (fun _ => none) smallState (some bearerKey) (by decide) hkey _
      _ (by decide) rfl).1 (by decide)
  · exact (((serve_spec plainUrlParser (fun _ => none) smallState none (by decide) nofun _ _
      (by decide) rfl).2 (by decide)).2 rfl).1 rfl rfl
  · obtain ⟨req, hbody, -, hheaders, -⟩ := (((serve_spec plainUrlParser (fun _ => none) smallState
      (some bearerKey) (by decide) hkey (fun _ => .error []) (chatBody [[1, 2, 3], [4]]) (by decide)
      rfl).2 (by decide)).2 rfl).2 nofun
    exact ⟨req, hbody, (hheaders _).trans (by decide)⟩

end Serve

end TrustedRelay
