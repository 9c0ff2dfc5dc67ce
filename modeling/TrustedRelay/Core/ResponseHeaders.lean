import TrustedRelay.Core.Proxy

/-!
# The headers of a relay response

The handler answers an upstream response in one of three ways, each with its own headers: the event
stream branch, the fixed answer to a refused credential, and the buffered response. The last two
have every header once. The first sets a content type and then forwards the upstream's too, so
`isClean_iff` holds of exactly the upstream responses that are not declared an event stream.
-/

namespace TrustedRelay

def cacheControlName : Text := "cache-control".toList

/-- The upstream's content type is a string that names event streams. -/
def DeclaresEventStream (headers : HeaderMap) : Prop :=
  ∃ value mime, headers.get contentTypeName = some value ∧ value.toStr = some mime ∧
    "text/event-stream".toList <:+: mime

/-- A response with one content type, with forwarded headers only, none of them twice, and with the
status of the upstream's. -/
structure IsClean (upstream r : Response) : Prop where
  contentType : ∃ value, r.headers.getAll contentTypeName = [value]
  allowed : ∀ e ∈ r.headers, e.1 ∈ forwardedResponseHeaders ∨
    e.1 = cacheControlName ∧ DeclaresEventStream upstream.headers
  single : r.headers.Single
  status : r.status = upstream.status

/-- The default content type is no event stream, so there must be a header that says so. -/
theorem isStreaming_iff {headers : HeaderMap} :
    isStreaming headers = true ↔ DeclaresEventStream headers := by
  rw [isStreaming, Text.contains, decide_eq_true_iff, contentType]
  constructor
  · intro h
    cases hmime : (headers.get contentTypeName).bind HeaderValue.toStr with
    | none =>
      rw [hmime] at h
      exact absurd h (by decide)
    | some mime =>
      obtain ⟨value, hvalue, hstr⟩ := Option.bind_eq_some_iff.mp hmime
      rw [hmime] at h
      exact ⟨value, mime, hvalue, hstr, h⟩
  · rintro ⟨value, mime, hvalue, hstr, h⟩
    rw [hvalue, Option.bind_some, hstr]
    exact h

/-! ### Forwarded headers -/

theorem mem_filteredResponseHeaders {headers : HeaderMap} {e : Text × HeaderValue} :
    e ∈ filteredResponseHeaders headers ↔
      e.1 ∈ forwardedResponseHeaders ∧ headers.get e.1 = some e.2 := by
  simp only [filteredResponseHeaders, List.mem_filterMap, Option.map_eq_some_iff]
  constructor
  · rintro ⟨name, hname, value, hvalue, rfl⟩
    exact ⟨hname, hvalue⟩
  · rintro ⟨hname, hvalue⟩
    exact ⟨e.1, hname, e.2, hvalue, rfl⟩

/-- Each name of the forwarding list is looked up once. -/
theorem single_filteredResponseHeaders (headers : HeaderMap) :
    (filteredResponseHeaders headers).Single := by
  have hsub : ∀ names : List Text, ((names.filterMap fun name =>
      (headers.get name).map fun value => (name, value)).map Prod.fst).Sublist names := by
    intro names
    induction names with
    | nil => exact List.Sublist.refl []
    | cons name names ih =>
      cases hget : headers.get name with
      | none =>
        rw [List.filterMap_cons_none (by rw [hget]; rfl)]
        exact ih.cons name
      | some value =>
        rw [List.filterMap_cons_some (by rw [hget]; rfl)]
        exact ih.cons_cons name
  exact (hsub forwardedResponseHeaders).nodup (by decide)

/-! ### The three answers -/

theorem contentTypeName_mem : contentTypeName ∈ forwardedResponseHeaders := by decide

theorem isClean_sanitisedResponse {upstream : Response} :
    IsClean upstream (sanitisedResponse upstream.status) where
  contentType := ⟨headerText "application/json", rfl⟩
  allowed := by
    intro e he
    obtain rfl := List.mem_singleton.mp he
    exact .inl contentTypeName_mem
  single := List.nodup_singleton _
  status := rfl

/-- A buffered response leaves the upstream's content type out of the forwarded headers. -/
theorem isClean_bufferedResponse {upstream : Response} {body : Bytes} :
    IsClean upstream (bufferedResponse upstream.status upstream.headers body) where
  contentType := by
    have hrest : ((filteredResponseHeaders upstream.headers).filter
        (·.1 != contentTypeName)).filter (·.1 == contentTypeName) = [] := by
      rw [List.filter_filter, List.filter_eq_nil_iff]
      intro e _
      simp
    refine ⟨(HeaderValue.fromStr (contentType upstream.headers)).getD
      (headerText "application/json"), ?_⟩
    rw [bufferedResponse, HeaderMap.getAll, List.filter_cons_of_pos (by simp), hrest]
    rfl
  allowed := by
    intro e he
    rcases List.mem_cons.mp he with rfl | he
    · exact .inl contentTypeName_mem
    · exact .inl (mem_filteredResponseHeaders.mp (List.mem_filter.mp he).1).1
  single := by
    have hsub : ((filteredResponseHeaders upstream.headers).filter (·.1 != contentTypeName)).Sublist
        (filteredResponseHeaders upstream.headers) := List.filter_sublist
    refine List.nodup_cons.mpr ⟨fun hmem => ?_,
      (single_filteredResponseHeaders upstream.headers).sublist (hsub.map Prod.fst)⟩
    obtain ⟨e, he, hname⟩ := List.mem_map.mp hmem
    exact bne_iff_ne.mp (List.mem_filter.mp he).2 hname
  status := rfl

/-- The event stream branch has two content types: its own and the one that declared the stream. -/
theorem not_isClean_streamResponse {upstream : Response}
    (h : DeclaresEventStream upstream.headers) : ¬ IsClean upstream (streamResponse upstream) := by
  obtain ⟨value, mime, hvalue, -, -⟩ := h
  intro hclean
  have hforwarded : (contentTypeName, value) ∈ filteredResponseHeaders upstream.headers :=
    mem_filteredResponseHeaders.mpr ⟨contentTypeName_mem, hvalue⟩
  refine (List.nodup_cons.mp hclean.single).1 (List.mem_map.mpr ⟨(contentTypeName, value), ?_, rfl⟩)
  exact List.mem_cons_of_mem _ hforwarded

section Relay

variable (P : UrlParser) (extractModelName : Bytes → Option Text)

/-- A request that is answered was sent, and its answer is the relayed response. -/
theorem proxyChatCompletions_eq_ok_iff {S : AppState} {credential : Option ProviderCredential}
    {send : UpstreamRequest → Except Text Response} {headers : HeaderMap} {body : Bytes}
    {r : Response} :
    proxyChatCompletions P extractModelName S credential send headers body = .ok r ↔
      ∃ req upstream, prepareRequest P extractModelName S credential headers body = .ok req ∧
        send req = .ok upstream ∧ relayResponse credential.isSome upstream = .ok r := by
  simp only [proxyChatCompletions, Except.bind_eq_ok_iff, Except.mapError_eq_ok_iff]
  constructor
  · rintro ⟨req, hreq, upstream, hsend, hr⟩
    exact ⟨req, upstream, hreq, hsend, hr⟩
  · rintro ⟨req, upstream, hreq, hsend, hr⟩
    exact ⟨req, hreq, upstream, hsend, hr⟩

theorem relayResponse_cases {usingInjected : Bool} {upstream r : Response}
    (h : relayResponse usingInjected upstream = .ok r) :
    (DeclaresEventStream upstream.headers ∧ r = streamResponse upstream) ∨
      (¬ DeclaresEventStream upstream.headers ∧
        (r = sanitisedResponse upstream.status ∨
          ∃ body, r = bufferedResponse upstream.status upstream.headers body)) := by
  unfold relayResponse at h
  simp only [StatusCode.fromU16_code, Option.getD_some] at h
  split_ifs at h with hstream hfailed
  · exact .inl ⟨isStreaming_iff.mp hstream, (Except.ok.inj h).symm⟩
  · obtain ⟨-, -, h⟩ := Except.bind_eq_ok_iff.mp h
    exact .inr ⟨fun hdeclared => hstream (isStreaming_iff.mpr hdeclared),
      .inl (Except.ok.inj h).symm⟩
  · obtain ⟨body, -, h⟩ := Except.bind_eq_ok_iff.mp h
    exact .inr ⟨fun hdeclared => hstream (isStreaming_iff.mpr hdeclared),
      .inr ⟨body, (Except.ok.inj h).symm⟩⟩

/-- What the client gets for an upstream response is clean exactly if the upstream did not declare
an event stream. -/
theorem isClean_iff (S : AppState) (credential : Option ProviderCredential)
    (send : UpstreamRequest → Except Text Response) (headers : HeaderMap) (body : Bytes)
    (req : UpstreamRequest) (upstream r : Response)
    (hreq : prepareRequest P extractModelName S credential headers body = .ok req)
    (hsend : send req = .ok upstream)
    (hr : proxyChatCompletions P extractModelName S credential send headers body = .ok r) :
    IsClean upstream r ↔ ¬ DeclaresEventStream upstream.headers := by
  obtain ⟨req', upstream', hreq', hsend', hrelay⟩ :=
    (proxyChatCompletions_eq_ok_iff P extractModelName).mp hr
  obtain rfl := Except.ok.inj (hreq.symm.trans hreq')
  obtain rfl := Except.ok.inj (hsend.symm.trans hsend')
  obtain ⟨hdeclared, rfl⟩ | ⟨hnot, rfl | ⟨_, rfl⟩⟩ := relayResponse_cases hrelay
  · exact iff_of_false (not_isClean_streamResponse hdeclared) (not_not.mpr hdeclared)
  · exact iff_of_true isClean_sanitisedResponse hnot
  · exact iff_of_true isClean_bufferedResponse hnot

end Relay

/-- An event stream without further headers. -/
def eventStream : Response where
  status := StatusCode.ok
  headers := [(contentTypeName, headerText "text/event-stream; charset=utf-8")]
  body := .full (Text.asBytes "data: [DONE]\n\n".toList)

/-- A JSON answer with a request id, and with headers that are not forwarded. -/
def jsonAnswer : Response where
  status := ⟨429, by decide⟩
  headers := [("server".toList, headerText "nginx"), ("x-request-id".toList, headerText "r-1"),
    (contentTypeName, headerText "application/json; charset=utf-8"),
    ("x-request-id".toList, headerText "r-2")]
  body := .full (Text.asBytes "[]".toList)

theorem isClean_jsonAnswer :
    ∃ r, proxyChatCompletions plainUrlParser (fun _ => none) openaiState (some bearerKey)
        (fun _ => .ok jsonAnswer) [] [] = .ok r ∧ IsClean jsonAnswer r := by
  obtain ⟨req, hreq⟩ : ∃ req, prepareRequest plainUrlParser (fun _ => none) openaiState
      (some bearerKey) [] [] = .ok req := ⟨_, rfl⟩
  have hr : proxyChatCompletions plainUrlParser (fun _ => none) openaiState (some bearerKey)
      (fun _ => .ok jsonAnswer) [] [] =
        .ok (bufferedResponse ⟨429, by decide⟩ jsonAnswer.headers (Text.asBytes "[]".toList)) := by
    decide
  refine ⟨_, hr, (isClean_iff plainUrlParser (fun _ => none) openaiState (some bearerKey)
    (fun _ => .ok jsonAnswer) [] [] req jsonAnswer _ hreq rfl hr).mpr ?_⟩
  rw [← isStreaming_iff]
  decide

/-- An event stream reaches the client with two content types. -/
theorem eventStream_has_two_contentTypes :
    ∃ r, proxyChatCompletions plainUrlParser (fun _ => none) openaiState (some bearerKey)
        (fun _ => .ok eventStream) [] [] = .ok r ∧
      r.headers.getAll contentTypeName =
        [headerText "text/event-stream", headerText "text/event-stream; charset=utf-8"] ∧
      ¬ IsClean eventStream r := by
  refine ⟨streamResponse eventStream, by decide, by decide, not_isClean_streamResponse ?_⟩
  rw [← isStreaming_iff]
  decide

end TrustedRelay
