import TrustedRelay.Http.Message

/-!
# The upstream HTTP client

`build_upstream_http_client` sets a timeout and, when there are pins, a TLS configuration; the
redirect policy is the default one of the library, which follows up to ten redirects. A `307` or
`308` answer repeats the method and the body, the other redirects continue as a `GET` without
one. A run of the client is the list of requests it puts on the wire, as the servers' answers
drive it. Which headers a repeated request has is the library's choice, of which only the
authorization matters here (`ForwardsAuthorization`): it is not sent on to another host.

`follow_invariant` is the rule for such runs: what holds of the first request and is kept by every
redirect that is followed holds of every request of the run.
-/

namespace TrustedRelay

inductive Method
  | post
  | get
deriving DecidableEq, Repr

/-- One request on the wire, its headers apart. -/
structure Hop where
  target : Url
  method : Method
  body : Option Bytes
deriving DecidableEq

/-- The library functions that are not modelled: the value of a basic authorization, a `Location`
value read as a URI reference, and the headers that a redirected request has, by those of the first
request, the requests so far and the request itself. -/
structure HttpClient where
  basicAuth : Text → Option Text → HeaderValue
  reference : HeaderValue → Option Text
  redirectHeaders : HeaderMap → List Hop → Hop → HeaderMap

section Client

variable (P : UrlParser) (C : HttpClient)

/-- The URL a request goes to; other schemes than `http` and `https` are refused. -/
def requestTarget (url : Text) : Option Url :=
  (Url.parse P url).filter fun u => Url.isHttpScheme u.scheme

/-- Credentials in a URL become an `Authorization` header. -/
def authorityHeaders (u : Url) : HeaderMap :=
  if u.username = [] ∧ u.password = none then []
  else [("authorization".toList, C.basicAuth u.username u.password)]

theorem anyMedia_isHeaderValue :
    (Text.asBytes "*/*".toList).all isHeaderValueByte = true := by
  decide

/-- The default header of the client goes in where the caller has none of its name. -/
def withDefaultAccept (headers : HeaderMap) : HeaderMap :=
  if headers.any (·.1 == "accept".toList) then headers
  else headers ++ [("accept".toList, headerText "*/*" anyMedia_isHeaderValue)]

/-- The headers of a request: those of the caller replace those from the URL. -/
def requestHeaders (u : Url) (headers : HeaderMap) : HeaderMap :=
  withDefaultAccept (HeaderMap.replaceHeaders (authorityHeaders C u) headers)

theorem getAll_withDefaultAccept {headers : HeaderMap} {name : Text} (h : name ≠ "accept".toList) :
    (withDefaultAccept headers).getAll name = headers.getAll name := by
  have hne : ("accept".toList == name) = false := beq_false_of_ne h.symm
  rw [withDefaultAccept]
  split_ifs
  · rfl
  · simp only [HeaderMap.getAll, List.filter_append, List.filter_cons, hne, Bool.false_eq_true,
      if_false, List.filter_nil, List.append_nil]

theorem single_withDefaultAccept {headers : HeaderMap} (h : headers.Single) :
    (withDefaultAccept headers).Single := by
  rw [withDefaultAccept]
  split_ifs with hany
  · exact h
  · rw [HeaderMap.Single, List.map_append, List.nodup_append]
    refine ⟨h, List.nodup_singleton _, ?_⟩
    rintro name hname _ hlast rfl
    obtain ⟨e, he, rfl⟩ := List.mem_map.mp hname
    exact hany (List.any_eq_true.mpr ⟨e, he, beq_iff_eq.mpr (List.mem_singleton.mp hlast)⟩)

/-! ### Redirects -/

/-- A reference names an authority, or it stays below the current one. -/
inductive Reference
  | relative
  | absolute (text : Text)
deriving DecidableEq

/-- Resolve a reference against the current URL, as far as the authority. -/
def resolveReference (base : Url) (loc : Text) : Reference :=
  if (Url.splitScheme loc).isSome then .absolute loc
  else if Text.startsWith loc "//".toList then .absolute (base.scheme ++ ':' :: loc)
  else .relative

/-- The reference of an answer, if it has a usable one. -/
def redirectReference (hop : Hop) (resp : Response) : Option Reference :=
  ((resp.headers.get "location".toList).bind C.reference).map (resolveReference hop.target)

/-- The request that a redirect status asks for, before its target is known. -/
def redirectRequest (hop : Hop) (resp : Response) : Option Hop :=
  if resp.status.code = 301 ∨ resp.status.code = 302 then
    some (if hop.method = .post then { hop with method := .get, body := none } else hop)
  else if resp.status.code = 303 then some { hop with method := .get, body := none }
  else if resp.status.code = 307 ∨ resp.status.code = 308 then some hop
  else none

/-- What the client does with an answer. -/
inductive Step
  | done
  | fail (e : Text)
  | follow (next : Hop)
deriving DecidableEq

def nextHop (hop : Hop) (resp : Response) : Step :=
  match redirectRequest hop resp, redirectReference C hop resp with
  | some next, some .relative => .follow next
  | some next, some (.absolute text) =>
    match requestTarget P text with
    | some u => .follow { next with target := u }
    | none => .fail "error following redirect".toList
  | _, _ => .done

/-- The run of one call: at most `n` redirects are followed, and `answers` are what the servers
send, in order. The result is what the caller gets. -/
def follow : ℕ → List (Except Text Response) → Hop → List Hop × Except Text Response
  | _, [], hop => ([hop], .error "operation timed out".toList)
  | _, .error e :: _, hop => ([hop], .error e)
  | n, .ok resp :: answers, hop =>
    match nextHop P C hop resp with
    | .done => ([hop], .ok resp)
    | .fail e => ([hop], .error e)
    | .follow next =>
      match n with
      | 0 => ([hop], .error "too many redirects".toList)
      | n + 1 => (hop :: (follow n answers next).1, (follow n answers next).2)

/-- The redirects that the default policy follows. -/
def redirectLimit : ℕ := 10

/-- The requests that one `post(url).body(body).send()` puts on the wire. -/
def sentHops (answers : List (Except Text Response)) (req : UpstreamRequest) : List Hop :=
  match requestTarget P req.url with
  | none => []
  | some u => (follow P C redirectLimit answers ⟨u, .post, some req.body⟩).1

/-- The result of `post(url).body(body).send()`. -/
def send (answers : List (Except Text Response)) (req : UpstreamRequest) : Except Text Response :=
  match requestTarget P req.url with
  | none => .error "builder error".toList
  | some u => (follow P C redirectLimit answers ⟨u, .post, some req.body⟩).2

/-! ### The headers of redirected requests -/

/-- The two URLs name one host and one port. -/
def SameHost (u v : Url) : Prop :=
  u.hostStr = v.hostStr ∧ u.portOrKnownDefault = v.portOrKnownDefault

instance (u v : Url) : Decidable (SameHost u v) :=
  inferInstanceAs (Decidable (u.hostStr = v.hostStr ∧ u.portOrKnownDefault = v.portOrKnownDefault))

/-- What the library does with the authorization of the first request when it follows a redirect:
the request that a redirect leads to another host or port has none, one that has stayed where the
first request went has the same, and no other comes in its place. -/
structure HttpClient.ForwardsAuthorization : Prop where
  other : ∀ headers before last next, before.getLast? = some last →
    ¬SameHost last.target next.target →
      (C.redirectHeaders headers before next).getAll "authorization".toList = []
  same : ∀ headers before next, (∀ hop ∈ before, SameHost hop.target next.target) →
    (C.redirectHeaders headers before next).getAll "authorization".toList =
      headers.getAll "authorization".toList
  kept : ∀ headers before next,
    (C.redirectHeaders headers before next).getAll "authorization".toList = [] ∨
      (C.redirectHeaders headers before next).getAll "authorization".toList =
        headers.getAll "authorization".toList

/-! ### A call without redirects -/

theorem nextHop_of_no_location {hop : Hop} {resp : Response}
    (h : resp.headers.get "location".toList = none) : nextHop P C hop resp = .done := by
  have href : redirectReference C hop resp = none := by rw [redirectReference, h]; rfl
  rw [nextHop, href]
  cases redirectRequest hop resp <;> rfl

/-- An answer that names no other place is the result. -/
theorem send_of_no_location {req : UpstreamRequest} {u : Url} {resp : Response}
    {answers : List (Except Text Response)} (hu : requestTarget P req.url = some u)
    (h : resp.headers.get "location".toList = none) :
    send P C (.ok resp :: answers) req = .ok resp := by
  rw [send, hu]
  dsimp only
  rw [follow, nextHop_of_no_location P C h]

theorem send_error {req : UpstreamRequest} {u : Url} {e : Text}
    {answers : List (Except Text Response)} (hu : requestTarget P req.url = some u) :
    send P C (.error e :: answers) req = .error e := by
  rw [send, hu]
  rfl

/-! ### Runs -/

/-- A request that is repeated by a redirect is the old one, with a new target or without its
body. -/
theorem nextHop_eq_follow {hop next : Hop} {resp : Response}
    (h : nextHop P C hop resp = .follow next) :
    ∃ req ref, redirectRequest hop resp = some req ∧ redirectReference C hop resp = some ref ∧
      ((ref = .relative ∧ next = req) ∨
        ∃ text u, ref = .absolute text ∧ requestTarget P text = some u ∧
          next = { req with target := u }) := by
  unfold nextHop at h
  split at h
  · next req hreq href =>
    exact ⟨req, .relative, hreq, href, Or.inl ⟨rfl, (Step.follow.inj h).symm⟩⟩
  · next req text hreq href =>
    split at h
    · next u hu =>
      exact ⟨req, .absolute text, hreq, href, Or.inr ⟨text, u, rfl, hu, (Step.follow.inj h).symm⟩⟩
    · exact absurd h (by simp)
  · exact absurd h (by simp)

/-- A body survives only the redirects that repeat the request. -/
theorem redirectRequest_body {hop req : Hop} {resp : Response}
    (h : redirectRequest hop resp = some req) :
    req.target = hop.target ∧ (req.body = none ∨ req.body = hop.body) ∧
      (hop.method = .post → req.body.isSome = true →
        resp.status.code = 307 ∨ resp.status.code = 308) := by
  unfold redirectRequest at h
  split_ifs at h with h1 hpost h3 h7
  · cases h
    exact ⟨rfl, Or.inl rfl, fun _ hsome => absurd hsome (by simp)⟩
  · cases h
    exact ⟨rfl, Or.inr rfl, fun hmethod => absurd hmethod hpost⟩
  · cases h
    exact ⟨rfl, Or.inl rfl, fun _ hsome => absurd hsome (by simp)⟩
  · cases h
    exact ⟨rfl, Or.inr rfl, fun _ _ => h7⟩

/-- Requests each of which is a redirect of the one before are those of a run, for some answers. -/
theorem exists_follow {n : ℕ} {hop : Hop} {hops : List Hop}
    (h : List.IsChain (fun a b => ∃ resp, nextHop P C a resp = .follow b) (hop :: hops))
    (hlen : hops.length ≤ n) : ∃ answers, (follow P C n answers hop).1 = hop :: hops := by
  induction hops generalizing n hop with
  | nil => exact ⟨[], by rw [follow]⟩
  | cons next hops ih =>
    obtain ⟨⟨resp, hresp⟩, hrest⟩ := List.isChain_cons_cons.mp h
    obtain ⟨n, rfl⟩ : ∃ m, n = m + 1 := Nat.exists_eq_add_one.mpr (by
      rw [List.length_cons] at hlen
      omega)
    obtain ⟨answers, hanswers⟩ := ih hrest (Nat.le_of_succ_le_succ hlen)
    exact ⟨.ok resp :: answers, by simp only [follow, hresp, hanswers]⟩

/-- Invariant rule for runs of the client. -/
theorem follow_invariant (I : Hop → Prop) {n : ℕ} {answers : List (Except Text Response)}
    {hop : Hop}
    (hstart : I hop)
    (hstep : ∀ h resp next, (h, .ok resp) ∈ (follow P C n answers hop).1.zip answers → I h →
      nextHop P C h resp = .follow next → I next) :
    ∀ h ∈ (follow P C n answers hop).1, I h := by
  induction answers generalizing n hop with
  | nil => simpa [follow] using hstart
  | cons answer answers ih =>
    cases answer with
    | error e => simpa [follow] using hstart
    | ok resp =>
      cases hnext : nextHop P C hop resp with
      | done => simpa [follow, hnext] using hstart
      | fail e => simpa [follow, hnext] using hstart
      | follow next =>
        cases n with
        | zero => simpa [follow, hnext] using hstart
        | succ n =>
          simp only [follow, hnext, List.zip_cons_cons, List.mem_cons] at hstep ⊢
          have hkeep : I next := hstep hop resp next (Or.inl rfl) hstart hnext
          rintro h (rfl | hh)
          · exact hstart
          · exact ih hkeep (fun h' resp' next' hmem => hstep h' resp' next' (Or.inr hmem)) h hh

end Client

/-- The names that are dropped when a redirect leads to another host or port. -/
def sensitiveHeaders : List Text :=
  ["authorization".toList, "cookie".toList, "cookie2".toList, "proxy-authorization".toList,
    "www-authenticate".toList]

/-- The names that are dropped with the body. -/
def payloadHeaders : List Text :=
  ["content-type".toList, "content-length".toList, "content-encoding".toList,
    "transfer-encoding".toList]

/-- The headers of a redirected request, without a `Referer`. -/
def plainRedirectHeaders (headers : HeaderMap) (before : List Hop) (next : Hop) : HeaderMap :=
  let kept := headers.filter fun e => next.body.isSome || !payloadHeaders.contains e.1
  if before.getLast?.all fun last => SameHost last.target next.target then kept
  else kept.filter fun e => !sensitiveHeaders.contains e.1

/-- A client for visible ASCII locations and for URLs without credentials. -/
def plainClient : HttpClient where
  basicAuth := fun _ _ => headerText "Basic"
  reference := HeaderValue.toStr
  redirectHeaders := plainRedirectHeaders

theorem plainRedirectHeaders_authorization (headers : HeaderMap) (before : List Hop) (next : Hop) :
    (plainRedirectHeaders headers before next).getAll "authorization".toList =
      if before.getLast?.all fun last => SameHost last.target next.target then
        headers.getAll "authorization".toList
      else [] := by
  have hpayload : payloadHeaders.contains "authorization".toList = false := by decide
  have hsensitive : sensitiveHeaders.contains "authorization".toList = true := by decide
  have hkept : ∀ e : Text × HeaderValue, ((e.1 == "authorization".toList) &&
      (next.body.isSome || !payloadHeaders.contains e.1)) = (e.1 == "authorization".toList) := by
    intro e
    by_cases he : e.1 = "authorization".toList
    · simp only [he, hpayload, Bool.not_false, Bool.or_true, Bool.and_true]
    · rw [beq_false_of_ne he, Bool.false_and]
  have hdropped : ∀ e : Text × HeaderValue,
      ((e.1 == "authorization".toList) && !sensitiveHeaders.contains e.1) = false := by
    intro e
    by_cases he : e.1 = "authorization".toList
    · simp only [he, hsensitive, Bool.not_true, Bool.and_false]
    · rw [beq_false_of_ne he, Bool.false_and]
  unfold plainRedirectHeaders
  split_ifs
  · simp only [HeaderMap.getAll, List.filter_filter, hkept]
  · simp only [HeaderMap.getAll, List.filter_filter, hdropped, ← Bool.and_assoc, Bool.false_and,
      List.filter_false, List.map_nil]

theorem plainClient_forwardsAuthorization : plainClient.ForwardsAuthorization where
  other headers before last next hlast hother := by
    rw [plainClient, plainRedirectHeaders_authorization, hlast, Option.all_some,
      decide_eq_false hother, if_neg Bool.false_ne_true]
  same headers before next hsame := by
    rw [plainClient, plainRedirectHeaders_authorization, if_pos]
    rw [Option.all_eq_true]
    exact fun last hlast => decide_eq_true (hsame last (List.mem_of_getLast? hlast))
  kept headers before next := by
    rw [plainClient, plainRedirectHeaders_authorization]
    split_ifs
    · exact Or.inr rfl
    · exact Or.inl rfl

/-- An answer that sends the request on as it is. -/
def temporaryRedirect (location : HeaderValue) : Response where
  status := ⟨307, by decide⟩
  headers := [("location".toList, location)]
  body := .full []

end TrustedRelay
