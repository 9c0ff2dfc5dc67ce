import TrustedRelay.Core.Origin
import TrustedRelay.Core.Proxy
import TrustedRelay.Http.Client

/-!
# Where a prompt goes

The allowlist is checked once, on the base URL of the route. The request goes to the base with a
path glued to it as text, and from there to wherever redirects point. So two things can carry a
prompt off the list:

* a path override that runs into the authority. `post_origin_allowed_of_keeps` says that a path
  which stays behind it is posted to an allowed origin, and `split_upstreamUrl_of_not_keeps` that
  every other path becomes a part of the authority;
* a `307` or `308` answer with a foreign `Location`. `resent_origin_allowed` says that the runs
  without such an answer keep the prompt on the list, request by request.

What goes there with the prompt is the subject of `upstream_request_eq_of_agree`: of the client's
headers, the first value of each forwarded name.
-/

namespace TrustedRelay

section Destination

variable (P : UrlParser) (C : HttpClient)

/-! ### The posted URL -/

theorem requestTarget_eq_some_iff {url : Text} {u : Url} :
    requestTarget P url = some u ↔ Url.parse P url = some u ∧ Url.isHttpScheme u.scheme = true := by
  simp [requestTarget, Option.filter_eq_some_iff]

/-- The glued text cannot be read as part of the authority of the base. -/
def pathKeepsAuthority (resolved : Text × Option Text) : Bool :=
  Url.closesAuthority (Text.trimEndMatches resolved.1 '/') ||
    Url.opensPath (resolved.2.getD defaultUpstreamPath)

/-- A path that stays behind the authority leaves the origin of the base. -/
theorem urlOrigin_upstreamUrl {resolved : Text × Option Text} {o : Text}
    (hkeep : pathKeepsAuthority resolved = true) (ho : urlOrigin P resolved.1 = some o) :
    Url.parse P (upstreamUrl resolved) = none ∨ urlOrigin P (upstreamUrl resolved) = some o := by
  obtain ⟨u, hu, horigin⟩ := Option.bind_eq_some_iff.mp ho
  rw [pathKeepsAuthority, Bool.or_eq_true] at hkeep
  rcases Url.parse_trimmed_append P hu (isHttpScheme_of_origin horigin) hkeep with hnone | hsome
  · exact Or.inl hnone
  · exact Or.inr (by rw [urlOrigin, upstreamUrl, hsome]; exact horigin)

/-- The default path is glued safely to every base. -/
theorem pathKeepsAuthority_default (base : Text) : pathKeepsAuthority (base, none) = true := by
  have hopens : Url.opensPath defaultUpstreamPath = true := by decide
  simp [pathKeepsAuthority, hopens]

/-- A path that does not stay behind the authority of the base becomes a part of it: what the
client then takes for the authority is that of the base with something more. -/
theorem split_upstreamUrl_of_not_keeps {resolved : Text × Option Text} {u : Url}
    (hu : Url.parse P resolved.1 = some u) (hs : Url.isHttpScheme u.scheme = true)
    (hspill : pathKeepsAuthority resolved = false) :
    ∃ scheme a more, Url.parseAuthority P scheme a = some u ∧ more ≠ [] ∧
      Url.split (upstreamUrl resolved) = some (scheme, a ++ more) := by
  obtain ⟨hne, scheme, r, a, v, hr, -, hrne, ha, -, hauth⟩ := Url.trimmed_base P hu hs
  obtain ⟨hopen, hpath⟩ := Bool.or_eq_false_iff.mp hspill
  unfold upstreamUrl
  generalize resolved.2.getD defaultUpstreamPath = path at *
  -- the cleaned path starts with a character of an authority, so it is not trimmed away
  obtain ⟨c, t, hclean, hc⟩ : ∃ c t, Url.cleanEnd path = c :: t ∧ Url.isAuthorityEnd c = false := by
    unfold Url.opensPath at hpath
    cases hclean : Url.cleanEnd path with
    | nil => simp [hclean] at hpath
    | cons c t => exact ⟨c, t, rfl, by simpa [hclean] using hpath⟩
  have hkept : path.rdropWhile isC0OrSpace ≠ [] := by
    intro hnil
    simp [Url.cleanEnd, hnil] at hclean
  have hany : (r.dropWhile Url.isSlash).any Url.isAuthorityEnd = false := by
    simpa [Url.closesAuthority, Url.afterSlashes, hr] using hopen
  refine ⟨scheme, a, v ++ (c :: t).takeWhile (!Url.isAuthorityEnd ·), ha, by simp [hc], ?_⟩
  rw [Url.split, Url.clean_append hne, if_neg hkept, hclean,
    Url.splitScheme_append hr, Option.map_some,
    Url.authorityText_append_of_not_any _ hrne hany, hauth, List.append_assoc]

/-- A path that keeps behind the authority of the base is posted to an allowed origin. -/
theorem post_origin_allowed_of_keeps (extractModelName : Bytes → Option Text) (S : AppState)
    (credential : Option ProviderCredential) (headers : HeaderMap) (body : Bytes)
    (req : UpstreamRequest) (hlist : S.config.allowedUpstreams ≠ [])
    (hreq : prepareRequest P extractModelName S credential headers body = .ok req)
    (hkeep : pathKeepsAuthority
      (S.config.resolveUpstream (requestModel extractModelName body)) = true) :
    ∀ u, requestTarget P req.url = some u →
      ∃ o, urlOrigin P req.url = some o ∧ S.config.AllowedOrigin P o := by
  intro u hu
  obtain ⟨hroute, -⟩ := (prepareRequest_eq_ok_iff P extractModelName).mp hreq
  obtain ⟨-, hcheck, hurl⟩ := (routeRequest_eq_ok_iff P extractModelName).mp hroute
  rw [hurl] at hu ⊢
  -- the checked upstream has the origin of the posted URL
  obtain hnil | ⟨o, ho, hallowed⟩ := (S.config.checkUpstreamAllowed_eq_ok_iff P _).mp hcheck
  · exact absurd hnil hlist
  rcases urlOrigin_upstreamUrl P hkeep ho with hnone | hsome
  · rw [((requestTarget_eq_some_iff P).mp hu).1] at hnone
    exact absurd hnone (by simp)
  · exact ⟨o, hsome, hallowed⟩

/-- A route whose path starts inside the authority. -/
def spillingState : AppState where
  config :=
    { routes := Std.ExtTreeMap.ofList [("gpt-".toList,
        ProviderConfig.mk "https://api.openai.com".toList (some ".evil.example/v1".toList))]
      allowedUpstreams := ["https://api.openai.com".toList] }
  requireProviderCredential := true

/-- The configuration passes the start-up check, and the prompt is posted to another host. -/
theorem spillingState_posts_elsewhere :
    spillingState.config.validate plainUrlParser = .ok () ∧
      ∃ req u, prepareRequest plainUrlParser (fun _ => some "gpt-4".toList) spillingState
          (some bearerKey) [] [] = .ok req ∧
        requestTarget plainUrlParser req.url = some u ∧
        urlOrigin plainUrlParser req.url = some "https://api.openai.com.evil.example:443".toList ∧
        ¬spillingState.config.AllowedOrigin plainUrlParser
          "https://api.openai.com.evil.example:443".toList := by
  refine ⟨by decide, _, _, rfl, rfl, by decide, ?_⟩
  rintro ⟨a, ha, hao⟩
  obtain rfl : a = "https://api.openai.com".toList := List.mem_singleton.mp ha
  exact absurd hao (by decide)

theorem openaiState_posts_to_allowed_origin :
    ∃ req, prepareRequest plainUrlParser (fun _ => none) openaiState (some bearerKey) [] [] =
        .ok req ∧ ∀ u, requestTarget plainUrlParser req.url = some u →
      ∃ o, urlOrigin plainUrlParser req.url = some o ∧
        openaiState.config.AllowedOrigin plainUrlParser o := by
  refine ⟨_, rfl, ?_⟩
  exact post_origin_allowed_of_keeps plainUrlParser (fun _ => none) openaiState (some bearerKey)
    [] [] _ (by decide) rfl (by decide)

/-! ### What the provider sees of the client -/

/-- With a credential, a forwarded name takes nothing from the client but the first value of that
name, and the authorization takes nothing at all. -/
theorem forwardHeader_congr {credential : ProviderCredential} {h h' : HeaderMap} {name : Text}
    (hagree : name ≠ authorizationName → h.get name = h'.get name) (acc : HeaderMap) :
    forwardHeader (some credential) h acc name = forwardHeader (some credential) h' acc name := by
  by_cases hname : name = authorizationName
  · simp [forwardHeader, hname]
  · simp [forwardHeader, hname, hagree hname]

theorem single_forwardHeader {credential : Option ProviderCredential} {h acc : HeaderMap}
    (hacc : acc.Single) (name : Text) : (forwardHeader credential h acc name).Single := by
  unfold forwardHeader
  split_ifs
  · exact hacc
  · split
    · exact hacc
    · split
      · exact hacc
      · exact hacc.insert name _

/-- The loop over the forwarding list keeps the names apart. -/
theorem single_foldl_forwardHeader (credential : Option ProviderCredential) (h : HeaderMap)
    (names : List Text) :
    (names.foldl (forwardHeader credential h) []).Single :=
  List.foldlRecOn names (forwardHeader credential h) HeaderMap.single_nil
    fun _ hacc name _ => single_forwardHeader hacc name

theorem single_upstreamHeaders {credential : Option ProviderCredential} {h m : HeaderMap}
    (hm : upstreamHeaders credential h = .ok m) : m.Single := by
  simp only [upstreamHeaders, Except.bind_eq_ok_iff, Except.ok.injEq] at hm
  obtain ⟨m', hinject, rfl⟩ := hm
  refine HeaderMap.Single.insert ?_ _ _
  cases credential with
  | none =>
    rw [← Except.ok.inj hinject]
    exact single_foldl_forwardHeader none h _
  | some credential =>
    simp only [injectCredential, Except.bind_eq_ok_iff, Except.ok.injEq] at hinject
    obtain ⟨value, -, rfl⟩ := hinject
    exact (single_foldl_forwardHeader (some credential) h _).insert _ _

/-- The injected authorization takes the place of one from the URL, so that the headers on the
wire are the prepared ones, and the client's own `Accept` if there is none. -/
theorem requestHeaders_upstreamHeaders {credential : ProviderCredential} {h m : HeaderMap}
    (hm : upstreamHeaders (some credential) h = .ok m) (u : Url) :
    requestHeaders C u m = withDefaultAccept m := by
  obtain ⟨value, -, hvalue⟩ := getAll_authorization_upstreamHeaders hm
  have hany : m.any (·.1 == authorizationName) = true := by
    obtain ⟨e, he, -⟩ := List.mem_map.mp
      (show value ∈ m.getAll authorizationName from hvalue ▸ List.mem_cons_self)
    exact List.any_eq_true.mpr ⟨e, (List.mem_filter.mp he).1, (List.mem_filter.mp he).2⟩
  refine congrArg withDefaultAccept (HeaderMap.replaceHeaders_eq_right fun e he => ?_)
  unfold authorityHeaders at he
  split_ifs at he
  · exact absurd he List.not_mem_nil
  · rw [List.mem_singleton.mp he]
    exact hany

/-- Two requests whose headers agree on the first value of the forwarded names, the authorization
apart, become the same upstream request, byte for byte, in which no name occurs twice. -/
theorem upstream_request_eq_of_agree (extractModelName : Bytes → Option Text) (S : AppState)
    (credential : ProviderCredential) (h h' : HeaderMap) (body : Bytes)
    (hagree : ∀ name ∈ forwardedRequestHeaders, name ≠ authorizationName →
      h.get name = h'.get name) :
    prepareRequest P extractModelName S (some credential) h body =
        prepareRequest P extractModelName S (some credential) h' body ∧
      ∀ req, prepareRequest P extractModelName S (some credential) h body = .ok req →
        req.body = body ∧ ∀ u, requestHeaders C u req.headers = withDefaultAccept req.headers ∧
          (requestHeaders C u req.headers).Single := by
  have hforward : forwardedRequestHeaders.foldl (forwardHeader (some credential) h) [] =
      forwardedRequestHeaders.foldl (forwardHeader (some credential) h') [] :=
    List.foldl_ext _ _ _ fun acc name hname => forwardHeader_congr (hagree name hname) acc
  have hheaders : upstreamHeaders (some credential) h = upstreamHeaders (some credential) h' := by
    rw [upstreamHeaders, hforward, ← upstreamHeaders]
  constructor
  · simp only [prepareRequest, finishRequest, hheaders]
  · intro req hreq
    obtain ⟨-, -, hm, hbody⟩ := (prepareRequest_eq_ok_iff P extractModelName).mp hreq
    refine ⟨hbody, fun u => ?_⟩
    rw [requestHeaders_upstreamHeaders C hm u]
    exact ⟨rfl, single_withDefaultAccept (single_upstreamHeaders hm)⟩

/-! ### Redirected requests -/

/-- The request goes to an allowed origin, as far as it carries a body. -/
def RelayConfig.BodyAllowed (c : RelayConfig) (hop : Hop) : Prop :=
  hop.body.isSome = true →
    hop.method = .post ∧ ∃ o, hop.target.origin = some o ∧ c.AllowedOrigin P o

/-- An answer that repeats a body stays below the current authority, or the URL it names is one
that the client refuses or that the allowlist accepts. -/
def RelayConfig.RedirectAllowed (c : RelayConfig) (hop : Hop) (resp : Response) : Prop :=
  hop.body.isSome = true → resp.status.code = 307 ∨ resp.status.code = 308 →
    ∀ text, redirectReference C hop resp = some (.absolute text) →
      requestTarget P text = none ∨ c.checkUpstreamAllowed P text = .ok ()

/-- One redirect keeps the body on the allowlist. -/
theorem bodyAllowed_of_nextHop {c : RelayConfig} {hop next : Hop} {resp : Response}
    (hlist : c.allowedUpstreams ≠ []) (hop_ok : c.BodyAllowed P hop)
    (hredirect : c.RedirectAllowed P C hop resp) (hnext : nextHop P C hop resp = .follow next) :
    c.BodyAllowed P next := by
  obtain ⟨req, ref, hreq, href, hcases⟩ := nextHop_eq_follow P C hnext
  obtain ⟨htarget, hbody, hstatus⟩ := redirectRequest_body hreq
  have hreq_ok : req.body.isSome = true → hop.body.isSome = true := by
    rcases hbody with h | h <;> simp [h]
  -- only the redirects that repeat a POST as it is keep its body
  have hreq_method : hop.method = .post → req.body.isSome = true → req.method = .post := by
    intro hmethod hsome
    have hcode := hstatus hmethod hsome
    have hsame : req = hop := by
      have hne : ¬(resp.status.code = 301 ∨ resp.status.code = 302) ∧ resp.status.code ≠ 303 := by
        omega
      rw [redirectRequest, if_neg hne.1, if_neg hne.2, if_pos hcode] at hreq
      exact (Option.some.inj hreq).symm
    rw [hsame, hmethod]
  rcases hcases with ⟨-, rfl⟩ | ⟨text, u, rfl, hu, rfl⟩
  · intro hsome
    obtain ⟨hmethod, ho⟩ := hop_ok (hreq_ok hsome)
    exact ⟨hreq_method hmethod hsome, htarget ▸ ho⟩
  · intro hsome
    obtain ⟨hmethod, -⟩ := hop_ok (hreq_ok hsome)
    refine ⟨hreq_method hmethod hsome, ?_⟩
    have hcheck : c.checkUpstreamAllowed P text = .ok () := by
      rcases hredirect (hreq_ok hsome) (hstatus hmethod hsome) text href with hnone | hok
      · rw [hu] at hnone
        exact absurd hnone (by simp)
      · exact hok
    obtain hnil | ⟨o, ho, hallowed⟩ := (c.checkUpstreamAllowed_eq_ok_iff P text).mp hcheck
    · exact absurd hnil hlist
    · rw [urlOrigin, ((requestTarget_eq_some_iff P).mp hu).1, Option.bind_some] at ho
      exact ⟨o, ho, hallowed⟩

/-- In a run whose repeating redirects all stay on the allowlist, every request that carries the
prompt goes to an allowed origin. -/
theorem resent_origin_allowed (extractModelName : Bytes → Option Text) (S : AppState)
    (credential : Option ProviderCredential) (headers : HeaderMap) (body : Bytes)
    (req : UpstreamRequest) (answers : List (Except Text Response))
    (hlist : S.config.allowedUpstreams ≠ [])
    (hreq : prepareRequest P extractModelName S credential headers body = .ok req)
    (hfirst : S.config.checkUpstreamAllowed P req.url = .ok ())
    (hanswers : ∀ hop resp, (hop, .ok resp) ∈ (sentHops P C answers req).zip answers →
      S.config.RedirectAllowed P C hop resp) :
    ∀ hop ∈ sentHops P C answers req, hop.body = some body →
      ∃ o, hop.target.origin = some o ∧ S.config.AllowedOrigin P o := by
  obtain ⟨-, -, -, rfl⟩ := (prepareRequest_eq_ok_iff P extractModelName).mp hreq
  obtain hnil | ⟨o, ho, hallowed⟩ := (S.config.checkUpstreamAllowed_eq_ok_iff P _).mp hfirst
  · exact absurd hnil hlist
  unfold sentHops at hanswers ⊢
  cases htarget : requestTarget P req.url with
  | none => simp
  | some u =>
    simp only [htarget] at hanswers ⊢
    have hstart : S.config.BodyAllowed P ⟨u, .post, some req.body⟩ := by
      intro _
      rw [urlOrigin, ((requestTarget_eq_some_iff P).mp htarget).1, Option.bind_some] at ho
      exact ⟨rfl, o, ho, hallowed⟩
    intro hop hhop hbody
    have hall := follow_invariant P C (S.config.BodyAllowed P) hstart
      (fun h resp next hmem hI hnext =>
        bodyAllowed_of_nextHop P C hlist hI (hanswers h resp hmem) hnext) hop hhop
    exact (hall (by rw [hbody]; rfl)).2

end Destination

/-- A client that sends its own keys, a cookie and a second `Accept`. -/
def talkativeHeaders : HeaderMap :=
  [("cookie".toList, headerText "session=1"), ("accept".toList, headerText "text/html"),
    (authorizationName, headerText "Bearer client"), ("accept".toList, headerText "image/png"),
    ("x-forwarded-for".toList, headerText "203.0.113.7"),
    (authorizationName, headerText "Bearer spare")]

/-- Of all that, the provider sees the first `Accept`. -/
theorem talkativeHeaders_reach_provider_as_accept :
    ∃ req, prepareRequest plainUrlParser (fun _ => none) openaiState (some bearerKey)
          talkativeHeaders [] = .ok req ∧
      prepareRequest plainUrlParser (fun _ => none) openaiState (some bearerKey)
        [("accept".toList, headerText "text/html")] [] = .ok req := by
  obtain ⟨req, hreq⟩ : ∃ req, prepareRequest plainUrlParser (fun _ => none) openaiState
      (some bearerKey) [("accept".toList, headerText "text/html")] [] = .ok req := ⟨_, rfl⟩
  have hsame := (upstream_request_eq_of_agree plainUrlParser plainClient (fun _ => none) openaiState
    bearerKey talkativeHeaders [("accept".toList, headerText "text/html")] [] (by decide)).1
  exact ⟨req, hsame.trans hreq, hreq⟩

def chatRequest : UpstreamRequest where
  url := "https://api.openai.com/v1/chat/completions".toList
  headers := []
  body := [123, 125]

/-- A `307` to another host is followed, with the body. -/
theorem temporaryRedirect_resends_elsewhere :
    openaiState.config.validate plainUrlParser = .ok () ∧
      openaiState.config.checkUpstreamAllowed plainUrlParser chatRequest.url = .ok () ∧
      ∃ hop ∈ sentHops plainUrlParser plainClient
          [.ok (temporaryRedirect (headerText "https://evil.example/"))] chatRequest,
        hop.body = some chatRequest.body ∧
        hop.target.origin = some "https://evil.example:443".toList ∧
        openaiState.config.checkUpstreamAllowed plainUrlParser "https://evil.example/".toList ≠
          .ok () := by
  refine ⟨by decide, by decide, _, List.mem_cons_of_mem _ List.mem_cons_self, by decide, by decide,
    by decide⟩

/-- A relative redirect keeps the prompt where it is. -/
theorem relativeRedirect_keeps_origin :
    ∃ req, prepareRequest plainUrlParser (fun _ => none) openaiState (some bearerKey) [] [123, 125] =
        .ok req ∧
      ∀ hop ∈ sentHops plainUrlParser plainClient
          [.ok (temporaryRedirect (headerText "/v2/chat"))] req,
        hop.body = some [123, 125] → ∃ o, hop.target.origin = some o ∧
          openaiState.config.AllowedOrigin plainUrlParser o := by
  refine ⟨_, rfl, ?_⟩
  refine resent_origin_allowed plainUrlParser plainClient (fun _ => none) openaiState
    (some bearerKey) [] [123, 125] _ _ (by decide) rfl (by decide) ?_
  intro hop resp hmem _ _ text htext
  have hresp : resp = temporaryRedirect (headerText "/v2/chat") := by
    have := (List.of_mem_zip hmem).2
    simpa using this
  have hrel : redirectReference plainClient hop (temporaryRedirect (headerText "/v2/chat")) =
      some .relative := rfl
  rw [hresp, hrel] at htext
  exact absurd htext (by simp)

end TrustedRelay
