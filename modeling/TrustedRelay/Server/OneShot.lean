import TrustedRelay.Core.Proxy
import TrustedRelay.Http.Client
import TrustedRelay.Machine.Run

/-!
# The one-shot credential

The relay starts without a provider credential; the operator injects one through the admin plane
while requests already arrive. Both planes are modelled as handlers of which any number may be
under way. A handler moves in the pieces between its store accesses, each access being atomic
under the lock, and a run is any interleaving of such moves.

What follows a request on the wire is up to the servers: the HTTP client obeys redirects, and so a
run also has the answers that redirect a request. `oneShot_protocol` collects what holds in every
run: one injection wins, its credential stays, and every request that leaves the relay carries that
credential and no other, until a redirect leads it to another host, where it carries none.
-/

namespace TrustedRelay

open Machine

/-! ### The handlers -/

/-- `inject_provider_credential`, when nothing moves in between. -/
def injectProviderCredential (store : ProviderCredentialStore) (credential : ProviderCredential) :
    ProviderCredentialStore × StatusCode :=
  match credential.validate with
  | .error _ => (store, StatusCode.badRequest)
  | .ok () =>
    match store.setOnce credential with
    | (store, .ok ()) => (store, StatusCode.noContent)
    | (store, .error _) => (store, StatusCode.conflict)

/-- An injection under way. -/
inductive Injection
  | received (credential : ProviderCredential)
  | validated (credential : ProviderCredential)
  | finished (credential : ProviderCredential) (status : StatusCode)
  | answered (credential : ProviderCredential) (status : StatusCode)
deriving DecidableEq

/-- The outcome of an injection, once it has one. -/
def Injection.result : Injection → Option (ProviderCredential × StatusCode)
  | .received _ => none
  | .validated _ => none
  | .finished credential status => some (credential, status)
  | .answered credential status => some (credential, status)

/-- A request on the wire. -/
structure WireRequest where
  target : Url
  headers : HeaderMap
  body : Bytes
deriving DecidableEq

/-- The request, its headers apart. -/
def WireRequest.hop (req : WireRequest) : Hop := ⟨req.target, .post, some req.body⟩

/-- A data-plane request under way: routed, with the store read, sent upstream, or failed. -/
inductive Exchange
  | received (headers : HeaderMap) (body : Bytes)
  | routed (headers : HeaderMap) (body : Bytes) (url : Text)
  | loaded (headers : HeaderMap) (body : Bytes) (url : Text) (credential : Option ProviderCredential)
  | sent (req : WireRequest)
  | failed (e : AppError)
deriving DecidableEq

/-- What an exchange has put on the wire by itself. -/
def Exchange.request : Exchange → Option WireRequest
  | .sent req => some req
  | _ => none

/-- The running relay: the store, the handlers of both planes by number, and for each exchange that
was sent the requests that redirects have made of it, in order. -/
structure Server where
  store : ProviderCredentialStore
  injections : ℕ → Option Injection
  exchanges : ℕ → Option Exchange
  resent : ℕ → List Hop

namespace Server

/-- Nothing is under way. -/
def withStore (store : ProviderCredentialStore) : Server :=
  ⟨store, fun _ => none, fun _ => none, fun _ => []⟩

/-- Nothing is stored either. -/
def start : Server := withStore .new

def setInjection (s : Server) (i : ℕ) (x : Injection) : Server :=
  { s with injections := Function.update s.injections i (some x) }

def setExchange (s : Server) (j : ℕ) (x : Exchange) : Server :=
  { s with exchanges := Function.update s.exchanges j (some x) }

/-- One more request of an exchange. -/
def resend (s : Server) (j : ℕ) (hop : Hop) : Server :=
  { s with resent := Function.update s.resent j (s.resent j ++ [hop]) }

@[simp] theorem withStore_store (store : ProviderCredentialStore) :
    (withStore store).store = store := rfl

@[simp] theorem withStore_injections (store : ProviderCredentialStore) (i : ℕ) :
    (withStore store).injections i = none := rfl

@[simp] theorem withStore_exchanges (store : ProviderCredentialStore) (j : ℕ) :
    (withStore store).exchanges j = none := rfl

@[simp] theorem withStore_resent (store : ProviderCredentialStore) (j : ℕ) :
    (withStore store).resent j = [] := rfl

@[simp] theorem setInjection_store (s : Server) (i : ℕ) (x : Injection) :
    (s.setInjection i x).store = s.store := rfl

@[simp] theorem setInjection_exchanges (s : Server) (i : ℕ) (x : Injection) :
    (s.setInjection i x).exchanges = s.exchanges := rfl

@[simp] theorem setExchange_store (s : Server) (j : ℕ) (x : Exchange) :
    (s.setExchange j x).store = s.store := rfl

@[simp] theorem setExchange_injections (s : Server) (j : ℕ) (x : Exchange) :
    (s.setExchange j x).injections = s.injections := rfl

theorem setInjection_injections (s : Server) (i i' : ℕ) (x : Injection) :
    (s.setInjection i x).injections i' = if i' = i then some x else s.injections i' := by
  simp [setInjection, Function.update_apply]

@[simp] theorem setExchange_resent (s : Server) (j : ℕ) (x : Exchange) :
    (s.setExchange j x).resent = s.resent := rfl

@[simp] theorem resend_store (s : Server) (j : ℕ) (hop : Hop) :
    (s.resend j hop).store = s.store := rfl

@[simp] theorem resend_exchanges (s : Server) (j : ℕ) (hop : Hop) :
    (s.resend j hop).exchanges = s.exchanges := rfl

theorem resend_resent (s : Server) (j j' : ℕ) (hop : Hop) :
    (s.resend j hop).resent j' = if j' = j then s.resent j ++ [hop] else s.resent j' := by
  simp [resend, Function.update_apply]

/-- The outcome of the injection `i`, once it has one. -/
def result (s : Server) (i : ℕ) : Option (ProviderCredential × StatusCode) :=
  (s.injections i).bind Injection.result

/-- What the exchange `j` has sent. -/
def request (s : Server) (j : ℕ) : Option WireRequest := (s.exchanges j).bind Exchange.request

theorem request_eq_some_iff {s : Server} {j : ℕ} {req : WireRequest} :
    s.request j = some req ↔ s.exchanges j = some (.sent req) := by
  rw [request, Option.bind_eq_some_iff]
  constructor
  · rintro ⟨x, hx, hreq⟩
    cases x with
    | sent req' => rw [hx, Option.some.inj hreq]
    | _ => cases hreq
  · exact fun h => ⟨.sent req, h, rfl⟩

theorem setInjection_result (s : Server) (i i' : ℕ) (x : Injection) :
    (s.setInjection i x).result i' = if i' = i then x.result else s.result i' := by
  rw [result, setInjection_injections]
  split_ifs <;> rfl

theorem setExchange_exchanges (s : Server) (j j' : ℕ) (x : Exchange) :
    (s.setExchange j x).exchanges j' = if j' = j then some x else s.exchanges j' := by
  simp [setExchange, Function.update_apply]

end Server

/-- The moves of the handlers, and the arrival of new ones. -/
inductive Action
  | inject (i : ℕ) (credential : ProviderCredential)
  | validate (i : ℕ)
  | setOnce (i : ℕ)
  | answer (i : ℕ)
  | request (j : ℕ) (headers : HeaderMap) (body : Bytes)
  | route (j : ℕ)
  | readStore (j : ℕ)
  | send (j : ℕ)
  | redirect (j : ℕ) (resp : Response)

section OneShot

variable (P : UrlParser) (C : HttpClient) (extractModelName : Bytes → Option Text) (S : AppState)

/-- The data plane after the store was read: build the request and hand it to the client. -/
def sendRequest (headers : HeaderMap) (body : Bytes) (url : Text)
    (credential : Option ProviderCredential) : Except AppError WireRequest := do
  let req ← finishRequest S credential headers body url
  let target ← okOr (requestTarget P req.url)
    (.internal "upstream request failed: builder error".toList)
  .ok { target, headers := requestHeaders C target req.headers, body := req.body }

/-- A move of the relay. An answer to the last request of an exchange counts only if the client
follows it. -/
def step (s : Server) : Action → Option Server
  | .inject i credential =>
    match s.injections i with
    | none => some (s.setInjection i (.received credential))
    | some _ => none
  | .validate i =>
    match s.injections i with
    | some (.received credential) =>
      match credential.validate with
      | .ok () => some (s.setInjection i (.validated credential))
      | .error _ => some (s.setInjection i (.finished credential StatusCode.badRequest))
    | _ => none
  | .setOnce i =>
    match s.injections i with
    | some (.validated credential) =>
      match s.store.setOnce credential with
      | (store, .ok ()) =>
        some ({ s with store }.setInjection i (.finished credential StatusCode.noContent))
      | (store, .error _) =>
        some ({ s with store }.setInjection i (.finished credential StatusCode.conflict))
    | _ => none
  | .answer i =>
    match s.injections i with
    | some (.finished credential status) => some (s.setInjection i (.answered credential status))
    | _ => none
  | .request j headers body =>
    match s.exchanges j with
    | none => some (s.setExchange j (.received headers body))
    | some _ => none
  | .route j =>
    match s.exchanges j with
    | some (.received headers body) =>
      match routeRequest P extractModelName S.config body with
      | .ok url => some (s.setExchange j (.routed headers body url))
      | .error e => some (s.setExchange j (.failed e))
    | _ => none
  | .readStore j =>
    match s.exchanges j with
    | some (.routed headers body url) =>
      some (s.setExchange j (.loaded headers body url s.store.get))
    | _ => none
  | .send j =>
    match s.exchanges j with
    | some (.loaded headers body url credential) =>
      match sendRequest P C S headers body url credential with
      | .ok req => some (s.setExchange j (.sent req))
      | .error e => some (s.setExchange j (.failed e))
    | _ => none
  | .redirect j resp =>
    match s.exchanges j with
    | some (.sent req) =>
      if (s.resent j).length < redirectLimit then
        match nextHop P C ((s.resent j).getLastD req.hop) resp with
        | .follow next => some (s.resend j next)
        | _ => none
      else none
    | _ => none

/-- An injection that is not interrupted does what the handler does in one piece. -/
theorem run_injection_alone {s : Server} {i : ℕ} {c : ProviderCredential}
    (h : s.injections i = some (.received c)) :
    ∃ actions s', run (step P C extractModelName S) s actions = some s' ∧
      s'.store = (injectProviderCredential s.store c).1 ∧
      s'.injections i = some (.answered c (injectProviderCredential s.store c).2) := by
  cases hc : c.validate with
  | error e =>
    refine ⟨[.validate i, .answer i],
      (s.setInjection i (.finished c StatusCode.badRequest)).setInjection i
        (.answered c StatusCode.badRequest), ?_, ?_, ?_⟩
    · simp [run_cons, step, h, hc, Server.setInjection_injections]
    · simp [injectProviderCredential, hc]
    · simp [injectProviderCredential, hc, Server.setInjection_injections]
  | ok u =>
    refine ⟨[.validate i, .setOnce i, .answer i],
      ({ s.setInjection i (.validated c) with store := (s.store.setOnce c).1 }.setInjection i
        (.finished c (injectProviderCredential s.store c).2)).setInjection i
        (.answered c (injectProviderCredential s.store c).2), ?_, ?_, ?_⟩
    · cases hs : s.store <;> simp [run_cons, step, h, hc, hs, injectProviderCredential,
        ProviderCredentialStore.setOnce, Server.setInjection_injections]
    · cases hs : s.store <;> simp [injectProviderCredential, hc, ProviderCredentialStore.setOnce]
    · simp [Server.setInjection_injections]

/-- A request that is not interrupted is prepared with the credential in the store. -/
theorem run_exchange_alone {s : Server} {j : ℕ} {headers : HeaderMap} {body : Bytes}
    {req : UpstreamRequest} {target : Url} (h : s.exchanges j = some (.received headers body))
    (hreq : prepareRequest P extractModelName S s.store headers body = .ok req)
    (htarget : requestTarget P req.url = some target) :
    ∃ s', run (step P C extractModelName S) s [.route j, .readStore j, .send j] = some s' ∧
      s'.exchanges j =
        some (.sent ⟨target, requestHeaders C target req.headers, req.body⟩) := by
  rw [prepareRequest, Except.bind_eq_ok_iff] at hreq
  obtain ⟨url, hurl, hfinish⟩ := hreq
  have hsend : sendRequest P C S headers body url s.store =
      .ok ⟨target, requestHeaders C target req.headers, req.body⟩ := by
    simp only [sendRequest, Except.bind_eq_ok_iff, okOr_eq_ok_iff]
    exact ⟨req, hfinish, target, htarget, rfl⟩
  simp [run_cons, step, h, hurl, hsend, Server.setExchange_exchanges, ProviderCredentialStore.get]

/-! ### What a step can do -/

/-- The moves of an injection that leave the store alone. -/
inductive InjectionMove (s : Server) (i : ℕ) : Injection → Prop
  | arrive (c) (h : s.injections i = none) : InjectionMove s i (.received c)
  | accept (c) (h : s.injections i = some (.received c)) (hc : c.validate = .ok ()) :
    InjectionMove s i (.validated c)
  | reject (c) (h : s.injections i = some (.received c)) (hc : c.validate ≠ .ok ()) :
    InjectionMove s i (.finished c StatusCode.badRequest)
  | lose (c) (h : s.injections i = some (.validated c)) (hs : s.store.isSome = true) :
    InjectionMove s i (.finished c StatusCode.conflict)
  | answer (c status) (h : s.injections i = some (.finished c status)) :
    InjectionMove s i (.answered c status)

/-- The moves of a data-plane handler; none changes the store. -/
inductive ExchangeMove (s : Server) (j : ℕ) : Exchange → Prop
  | arrive (headers body) (h : s.exchanges j = none) : ExchangeMove s j (.received headers body)
  | route (headers body url) (h : s.exchanges j = some (.received headers body)) :
    ExchangeMove s j (.routed headers body url)
  | read (headers body url) (h : s.exchanges j = some (.routed headers body url)) :
    ExchangeMove s j (.loaded headers body url s.store)
  | send (headers body url credential req)
    (h : s.exchanges j = some (.loaded headers body url credential))
    (hreq : sendRequest P C S headers body url credential = .ok req) : ExchangeMove s j (.sent req)
  | fail (e) (h : ∀ req, s.exchanges j ≠ some (.sent req)) : ExchangeMove s j (.failed e)

/-- The store changes only when it is empty, by a validated injection. -/
inductive Move (s : Server) : Server → Prop
  | injection (i x) (h : InjectionMove s i x) : Move s (s.setInjection i x)
  | win (i c) (h : s.injections i = some (.validated c)) (hs : s.store = none) :
    Move s ({ s with store := some c }.setInjection i (.finished c StatusCode.noContent))
  | exchange (j x) (h : ExchangeMove P C S s j x) : Move s (s.setExchange j x)
  | redirect (j req next resp) (h : s.exchanges j = some (.sent req))
    (hlen : (s.resent j).length < redirectLimit)
    (hnext : nextHop P C ((s.resent j).getLastD req.hop) resp = .follow next) :
    Move s (s.resend j next)

theorem step_move {s s' : Server} {a : Action} (h : step P C extractModelName S s a = some s') :
    Move P C S s s' := by
  cases a with
  | inject i c =>
    cases hi : s.injections i <;> simp only [step, hi, Option.some.injEq, reduceCtorEq] at h
    exact h ▸ .injection i _ (.arrive c hi)
  | validate i =>
    simp only [step] at h
    split at h
    · next c hi =>
      split at h
      · next hc => exact Option.some.inj h ▸ .injection i _ (.accept c hi hc)
      · next e hc => exact Option.some.inj h ▸ .injection i _ (.reject c hi (by simp [hc]))
    · simp at h
  | setOnce i =>
    simp only [step] at h
    split at h
    · next c hi =>
      cases hs : s.store with
      | none =>
        rw [hs] at h
        exact Option.some.inj h ▸ .win i c hi hs
      | some c' =>
        rw [hs] at h
        -- a loaded store is written back as it is
        have hsame : { s with store := some c' } = s := by rw [← hs]
        rw [← Option.some.inj h, hsame]
        exact .injection i _ (.lose c hi (by rw [hs]; rfl))
    · simp at h
  | answer i =>
    simp only [step] at h
    split at h
    · next c status hi => exact Option.some.inj h ▸ .injection i _ (.answer c status hi)
    · simp at h
  | request j headers body =>
    cases hj : s.exchanges j <;> simp only [step, hj, Option.some.injEq, reduceCtorEq] at h
    exact h ▸ .exchange j _ (.arrive headers body hj)
  | route j =>
    simp only [step] at h
    split at h
    · next headers body hj =>
      split at h
      · exact Option.some.inj h ▸ .exchange j _ (.route headers body _ hj)
      · exact Option.some.inj h ▸ .exchange j _ (.fail _ (by simp [hj]))
    · simp at h
  | readStore j =>
    simp only [step] at h
    split at h
    · next headers body url hj =>
        exact Option.some.inj h ▸ .exchange j _ (.read headers body url hj)
    · simp at h
  | send j =>
    simp only [step] at h
    split at h
    · next headers body url credential hj =>
      split at h
      · next req hreq =>
        exact Option.some.inj h ▸ .exchange j _ (.send headers body url credential req hj hreq)
      · exact Option.some.inj h ▸ .exchange j _ (.fail _ (by simp [hj]))
    · simp at h
  | redirect j resp =>
    simp only [step] at h
    split at h
    · next req hj =>
      split_ifs at h with hlen
      split at h
      · next next hnext => exact Option.some.inj h ▸ .redirect j req next resp hj hlen hnext
      · simp at h
    · simp at h

/-! ### The invariant -/

/-- What the outcome of an injection says about the store. -/
def ResultHolds (s : Server) (c : ProviderCredential) (status : StatusCode) : Prop :=
  (status = StatusCode.badRequest ∧ c.validate ≠ .ok ()) ∨
    (c.validate = .ok () ∧ ((status = StatusCode.noContent ∧ s.store = some c) ∨
      (status = StatusCode.conflict ∧ s.store.isSome = true)))

/-- The request carries the stored credential as its only authorization. -/
def CarriesStored (s : Server) (req : WireRequest) : Prop :=
  ∃ c v, s.store = some c ∧ c.authorizationValue = some v ∧
    req.headers.getAll authorizationName = [v]

/-- The stored credential is the one of the only injection that won; handlers know it or know of
none, and what they sent carries it. -/
structure Inv (s : Server) : Prop where
  validated : ∀ i c, s.injections i = some (.validated c) → c.validate = .ok ()
  results : ∀ i c status, s.result i = some (c, status) → ResultHolds s c status
  winner : ∀ c, s.store = some c → ∃ i, s.result i = some (c, StatusCode.noContent)
  unique : ∀ i i' c c', s.result i = some (c, StatusCode.noContent) →
    s.result i' = some (c', StatusCode.noContent) → i = i'
  loaded : ∀ j headers body url credential,
    s.exchanges j = some (.loaded headers body url credential) →
      credential = none ∨ credential = s.store
  sent : ∀ j req, s.exchanges j = some (.sent req) → CarriesStored s req

/-- Only what was sent is sent on, each request as the redirect of the one before. -/
structure ResentInv (s : Server) : Prop where
  sent : ∀ j, s.resent j ≠ [] → ∃ req, s.exchanges j = some (.sent req)
  chain : ∀ j req, s.exchanges j = some (.sent req) →
    List.IsChain (fun a b => ∃ resp, nextHop P C a resp = .follow b) (req.hop :: s.resent j) ∧
      (s.resent j).length ≤ redirectLimit

theorem inv_start : Inv Server.start where
  validated := by simp [Server.start]
  results := by simp [Server.start, Server.result]
  winner := by simp [Server.start, ProviderCredentialStore.new]
  unique := by simp [Server.start, Server.result]
  loaded := by simp [Server.start]
  sent := by simp [Server.start]

/-- A move that leaves the store alone produces no winner. -/
theorem InjectionMove.result_noContent {s : Server} {i : ℕ} {x : Injection}
    (h : InjectionMove s i x) (c : ProviderCredential) :
    x.result = some (c, StatusCode.noContent) ↔ s.result i = some (c, StatusCode.noContent) := by
  have hbad : StatusCode.badRequest ≠ StatusCode.noContent := by decide
  have hconflict : StatusCode.conflict ≠ StatusCode.noContent := by decide
  cases h with
  | arrive c' h => simp [Injection.result, Server.result, h]
  | accept c' h => simp [Injection.result, Server.result, h]
  | reject c' h => simp [Injection.result, Server.result, h, hbad]
  | lose c' h => simp [Injection.result, Server.result, h, hconflict]
  | answer c' status h => simp [Injection.result, Server.result, h]

/-- The outcome of such a move is in order. -/
theorem InjectionMove.resultHolds {s : Server} (hs : Inv s) {i : ℕ} {x : Injection}
    (h : InjectionMove s i x) {c : ProviderCredential} {status : StatusCode}
    (hx : x.result = some (c, status)) : ResultHolds s c status := by
  cases h with
  | arrive c' h => simp [Injection.result] at hx
  | accept c' h => simp [Injection.result] at hx
  | reject c' h hc =>
    obtain ⟨rfl, rfl⟩ := Prod.mk.inj (Option.some.inj hx)
    exact Or.inl ⟨rfl, hc⟩
  | lose c' h hstore =>
    obtain ⟨rfl, rfl⟩ := Prod.mk.inj (Option.some.inj hx)
    exact Or.inr ⟨hs.validated i _ h, Or.inr ⟨rfl, hstore⟩⟩
  | answer c' status' h =>
    refine hs.results i c status ?_
    simpa [Server.result, h, Injection.result] using hx

theorem inv_injection {s : Server} (hs : Inv s) {i : ℕ} {x : Injection} (h : InjectionMove s i x) :
    Inv (s.setInjection i x) := by
  have hwon : ∀ i' c, (s.setInjection i x).result i' = some (c, StatusCode.noContent) ↔
      s.result i' = some (c, StatusCode.noContent) := by
    intro i' c
    rw [Server.setInjection_result]
    split_ifs with hi
    · rw [hi, h.result_noContent]
    · exact Iff.rfl
  constructor
  · intro i' c hc
    rw [Server.setInjection_injections] at hc
    split_ifs at hc
    · cases h with
      | accept c' _ hvalid => cases hc; exact hvalid
      | _ => cases hc
    · exact hs.validated i' c hc
  · intro i' c status hr
    rw [Server.setInjection_result] at hr
    split_ifs at hr
    · exact h.resultHolds hs hr
    · exact hs.results i' c status hr
  · intro c hc
    obtain ⟨i', hi'⟩ := hs.winner c hc
    exact ⟨i', (hwon i' c).mpr hi'⟩
  · intro i₁ i₂ c₁ c₂ h₁ h₂
    exact hs.unique i₁ i₂ c₁ c₂ ((hwon i₁ c₁).mp h₁) ((hwon i₂ c₂).mp h₂)
  · exact hs.loaded
  · exact hs.sent

/-- Before the win no injection has an outcome but refusals, and nothing was sent. -/
theorem inv_win {s : Server} (hs : Inv s) {i : ℕ} {c : ProviderCredential}
    (h : s.injections i = some (.validated c)) (hstore : s.store = none) :
    Inv ({ s with store := some c }.setInjection i (.finished c StatusCode.noContent)) := by
  -- while the store is empty nobody has won, and nobody has come too late
  have hold : ∀ i' c' status, s.result i' = some (c', status) →
      status = StatusCode.badRequest ∧ c'.validate ≠ .ok () := by
    intro i' c' status hr
    rcases hs.results i' c' status hr with hbad | ⟨-, ⟨-, hsome⟩ | ⟨-, hsome⟩⟩
    · exact hbad
    · rw [hstore] at hsome
      exact absurd hsome (by simp)
    · rw [hstore] at hsome
      exact absurd hsome (by decide)
  have hresult : ∀ i', ({ s with store := some c }.setInjection i
      (.finished c StatusCode.noContent)).result i' =
        if i' = i then some (c, StatusCode.noContent) else s.result i' :=
    fun i' => Server.setInjection_result _ i i' _
  constructor
  · intro i' c' hc
    rw [Server.setInjection_injections] at hc
    split_ifs at hc
    · cases hc
    · exact hs.validated i' c' hc
  · intro i' c' status hr
    rw [hresult] at hr
    split_ifs at hr
    · obtain ⟨rfl, rfl⟩ := Prod.mk.inj (Option.some.inj hr)
      exact Or.inr ⟨hs.validated i _ h, Or.inl ⟨rfl, rfl⟩⟩
    · exact Or.inl (hold i' c' status hr)
  · intro c' hc
    obtain rfl : c = c' := Option.some.inj hc
    exact ⟨i, by rw [hresult, if_pos rfl]⟩
  · have honly : ∀ i' c', ({ s with store := some c }.setInjection i
        (.finished c StatusCode.noContent)).result i' = some (c', StatusCode.noContent) → i' = i := by
      intro i' c' hr
      rw [hresult] at hr
      split_ifs at hr with hi
      · exact hi
      · exact absurd (hold i' c' _ hr).1 (by decide)
    intro i₁ i₂ c₁ c₂ h₁ h₂
    rw [honly i₁ c₁ h₁, honly i₂ c₂ h₂]
  · intro j headers body url credential hj
    rcases hs.loaded j headers body url credential hj with hnone | hsame
    · exact Or.inl hnone
    · exact Or.inl (hsame.trans hstore)
  · intro j req hj
    obtain ⟨c', v, hc', -⟩ := hs.sent j req hj
    rw [hstore] at hc'
    exact absurd hc' (by simp)

/-- A request that is built from a credential carries it, whatever the client sent. -/
theorem sendRequest_carries {headers : HeaderMap} {body : Bytes} {url : Text}
    {c : ProviderCredential} {req : WireRequest}
    (h : sendRequest P C S headers body url (some c) = .ok req) :
    ∃ v, c.authorizationValue = some v ∧ req.headers.getAll authorizationName = [v] := by
  simp only [sendRequest, Except.bind_eq_ok_iff, finishRequest_eq_ok_iff, okOr_eq_ok_iff,
    Except.ok.injEq] at h
  obtain ⟨ureq, ⟨-, hheaders, -⟩, target, -, rfl⟩ := h
  obtain ⟨v, hv, hall⟩ := getAll_authorization_upstreamHeaders hheaders
  refine ⟨v, hv, ?_⟩
  change HeaderMap.getAll (requestHeaders C target ureq.headers) authorizationName = [v]
  rw [requestHeaders, getAll_withDefaultAccept (by decide),
    HeaderMap.getAll_replaceHeaders (by rw [hall]; simp), hall]

/-- Without a credential nothing is sent. -/
theorem sendRequest_none (hS : S.requireProviderCredential = true) {headers : HeaderMap}
    {body : Bytes} {url : Text} {req : WireRequest} :
    sendRequest P C S headers body url none ≠ .ok req := by
  intro h
  simp only [sendRequest, Except.bind_eq_ok_iff, finishRequest_eq_ok_iff] at h
  obtain ⟨-, ⟨hcred, -⟩, -⟩ := h
  simp [hS] at hcred

theorem inv_exchange (hS : S.requireProviderCredential = true) {s : Server} (hs : Inv s) {j : ℕ}
    {x : Exchange} (h : ExchangeMove P C S s j x) : Inv (s.setExchange j x) := by
  constructor
  · exact hs.validated
  · exact hs.results
  · exact hs.winner
  · exact hs.unique
  · intro j' headers body url credential hj
    rw [Server.setExchange_exchanges] at hj
    split_ifs at hj
    · cases h with
      | read => cases hj; exact Or.inr rfl
      | _ => cases hj
    · exact hs.loaded j' headers body url credential hj
  · intro j' req hj
    rw [Server.setExchange_exchanges] at hj
    split_ifs at hj
    · cases h with
      | send headers body url credential req' hload hreq =>
        cases hj
        cases credential with
        | none => exact absurd hreq (sendRequest_none P C S hS)
        | some c =>
          obtain ⟨v, hv, hall⟩ := sendRequest_carries P C S hreq
          rcases hs.loaded j headers body url (some c) hload with hnone | hsame
          · exact absurd hnone (by simp)
          · exact ⟨c, v, hsame.symm, hv, hall⟩
      | _ => cases hj
    · exact hs.sent j' req hj

theorem inv_step (hS : S.requireProviderCredential = true) {s s' : Server} {a : Action} (hs : Inv s)
    (h : step P C extractModelName S s a = some s') : Inv s' := by
  cases step_move P C extractModelName S h with
  | injection i x hmove => exact inv_injection hs hmove
  | win i c hmove hstore => exact inv_win hs hmove hstore
  | exchange j x hmove => exact inv_exchange P C S hS hs hmove
  | redirect j req next resp hj hlen hnext =>
    exact ⟨hs.validated, hs.results, hs.winner, hs.unique, hs.loaded, hs.sent⟩

theorem resentInv_start : ResentInv P C Server.start where
  sent := by simp [Server.start]
  chain := by simp [Server.start]

/-- An exchange that moves was not sent before, and nothing was made of it. -/
theorem ResentInv.setExchange {s : Server} (hs : ResentInv P C s) {j : ℕ} {x : Exchange}
    (h : ExchangeMove P C S s j x) : ResentInv P C (s.setExchange j x) := by
  have hidle : ∀ req, s.exchanges j ≠ some (.sent req) := by
    intro req
    cases h with
    | fail e hidle => exact hidle req
    | _ => simp [*]
  have hnil : s.resent j = [] := by
    by_contra hne
    obtain ⟨req, hreq⟩ := hs.sent j hne
    exact hidle req hreq
  constructor
  · intro j' hne
    rw [Server.setExchange_exchanges]
    split_ifs with hj
    · exact absurd (hj ▸ hnil) hne
    · exact hs.sent j' hne
  · intro j' req hreq
    rw [Server.setExchange_exchanges] at hreq
    split_ifs at hreq with hj
    · rw [Server.setExchange_resent, hj, hnil]
      exact ⟨List.isChain_singleton _, Nat.zero_le _⟩
    · exact hs.chain j' req hreq

theorem ResentInv.resend {s : Server} (hs : ResentInv P C s) {j : ℕ} {req : WireRequest}
    {next : Hop} {resp : Response} (hj : s.exchanges j = some (.sent req))
    (hlen : (s.resent j).length < redirectLimit)
    (hnext : nextHop P C ((s.resent j).getLastD req.hop) resp = .follow next) :
    ResentInv P C (s.resend j next) := by
  constructor
  · intro j' hne
    rw [Server.resend_resent] at hne
    split_ifs at hne with hsame
    · exact ⟨req, hsame ▸ hj⟩
    · exact hs.sent j' hne
  · intro j' req' hreq
    rw [Server.resend_resent]
    split_ifs with hsame
    · subst hsame
      obtain rfl : req = req' := by simpa [hj] using hreq
      refine ⟨?_, by rw [List.length_append, List.length_singleton]; exact hlen⟩
      rw [← List.cons_append, List.isChain_append]
      refine ⟨(hs.chain j' req hj).1, List.isChain_singleton _, ?_⟩
      intro last hlast first hfirst
      rw [List.head?_cons, Option.mem_some_iff] at hfirst
      rw [List.getLast?_cons, Option.mem_some_iff] at hlast
      rw [← hfirst, ← hlast]
      exact ⟨resp, by rwa [List.getLastD_eq_getLast?] at hnext⟩
    · exact hs.chain j' req' hreq

theorem resentInv_step {s s' : Server} {a : Action} (hs : ResentInv P C s)
    (h : step P C extractModelName S s a = some s') : ResentInv P C s' := by
  cases step_move P C extractModelName S h with
  | injection i x hmove => exact ⟨hs.sent, hs.chain⟩
  | win i c hmove hstore => exact ⟨hs.sent, hs.chain⟩
  | exchange j x hmove => exact hs.setExchange P C S hmove
  | redirect j req next resp hj hlen hnext => exact hs.resend P C hj hlen hnext

/-! ### Runs -/

/-- The store changes only by a validated injection that finds it empty. -/
theorem store_ne_of_step {s s' : Server} {a : Action} (hs : Inv s)
    (h : step P C extractModelName S s a = some s') (hne : s'.store ≠ s.store) :
    ∃ i c, s.injections i = some (.validated c) ∧ c.validate = .ok () ∧ s.store = none ∧
      s'.store = some c := by
  cases step_move P C extractModelName S h with
  | injection i x hmove => exact absurd rfl hne
  | win i c hmove hstore => exact ⟨i, c, hmove, hs.validated i c hmove, hstore, rfl⟩
  | exchange j x hmove => exact absurd rfl hne
  | redirect j req next resp hj hlen hnext => exact absurd rfl hne

/-- The handler has read the store. -/
def Exchange.hasRead : Exchange → Bool
  | .loaded _ _ _ _ => true
  | .sent _ => true
  | _ => false

/-- The handler read an empty store. -/
def ReadNothing (j : ℕ) (s : Server) : Prop :=
  (∃ headers body url, s.exchanges j = some (.loaded headers body url none)) ∨
    ∃ e, s.exchanges j = some (.failed e)

/-- A handler that read an empty store fails. -/
theorem readNothing_step (hS : S.requireProviderCredential = true) {j : ℕ} {s s' : Server}
    {a : Action} (hs : ReadNothing j s) (h : step P C extractModelName S s a = some s') :
    ReadNothing j s' := by
  cases step_move P C extractModelName S h with
  | injection i x hmove => exact hs
  | win i c hmove hstore => exact hs
  | redirect j' req next resp hj hlen hnext => exact hs
  | exchange j' x hmove =>
    by_cases hj : j = j'
    · subst hj
      have hslot : (s.setExchange j x).exchanges j = some x := by
        rw [Server.setExchange_exchanges, if_pos rfl]
      cases hmove with
      | arrive headers body hnone =>
        rcases hs with ⟨_, _, _, hj⟩ | ⟨_, hj⟩ <;> rw [hnone] at hj <;> cases hj
      | route headers body url hrec =>
        rcases hs with ⟨_, _, _, hj⟩ | ⟨_, hj⟩ <;> rw [hrec] at hj <;> cases hj
      | read headers body url hrouted =>
        rcases hs with ⟨_, _, _, hj⟩ | ⟨_, hj⟩ <;> rw [hrouted] at hj <;> cases hj
      | send headers body url credential req hload hreq =>
        rcases hs with ⟨_, _, _, hj⟩ | ⟨_, hj⟩ <;> rw [hload] at hj <;> cases hj
        exact absurd hreq (sendRequest_none P C S hS)
      | fail e hidle => exact Or.inr ⟨e, hslot⟩
    · have hslot : (s.setExchange j' x).exchanges j = s.exchanges j := by
        rw [Server.setExchange_exchanges, if_neg hj]
      rw [ReadNothing, hslot]
      exact hs

/-- With an empty store, a handler that has read it read nothing. -/
theorem Inv.readNothing {s : Server} (hs : Inv s) (hnone : s.store = none) {j : ℕ} {x : Exchange}
    (hx : s.exchanges j = some x) (hread : x.hasRead = true) : ReadNothing j s := by
  cases x with
  | loaded headers body url credential =>
    refine Or.inl ⟨headers, body, url, ?_⟩
    rcases hs.loaded j headers body url credential hx with rfl | rfl
    · exact hx
    · rw [hx, hnone]
  | sent req =>
    obtain ⟨c, -, hc, -⟩ := hs.sent j req hx
    exact absurd (hnone.symm.trans hc) (by simp)
  | received headers body => cases hread
  | routed headers body url => cases hread
  | failed e => cases hread

/-- The credential of the winner is the stored one. -/
theorem Inv.store_of_noContent {s : Server} (hs : Inv s) {i : ℕ} {c : ProviderCredential}
    (h : s.result i = some (c, StatusCode.noContent)) : s.store = some c := by
  rcases hs.results i c _ h with ⟨hbad, -⟩ | ⟨-, ⟨-, hc⟩ | ⟨hconflict, -⟩⟩
  · exact absurd hbad (by decide)
  · exact hc
  · exact absurd hconflict (by decide)

/-- A win is not taken back. -/
theorem noContent_of_step {s s' : Server} {a : Action} {i : ℕ} {c : ProviderCredential}
    (hs : s.result i = some (c, StatusCode.noContent))
    (h : step P C extractModelName S s a = some s') :
    s'.result i = some (c, StatusCode.noContent) := by
  cases step_move P C extractModelName S h with
  | injection i' x hmove =>
    rw [Server.setInjection_result]
    split_ifs with hi
    · rw [hmove.result_noContent, ← hi]
      exact hs
    · exact hs
  | win i' c' hmove hnone =>
    rw [Server.setInjection_result]
    split_ifs with hi
    · -- the injection that wins now has no result yet
      rw [hi, Server.result, hmove] at hs
      exact absurd hs (by simp [Injection.result])
    · exact hs
  | exchange j x hmove => exact hs
  | redirect j req next resp hj hlen hnext => exact hs

/-- What the requests that redirects have made of `req` carry as their authorization: the value `v`
while they stay where `req` went, nothing on another host or port than the request before them, and
in no case anything else. -/
def RedirectsCarry (v : HeaderValue) (req : WireRequest) (resent : List Hop) : Prop :=
  ∀ before hop after, resent = before ++ hop :: after →
    let value := (C.redirectHeaders req.headers (req.hop :: before) hop).getAll authorizationName
    ((∀ prior ∈ req.hop :: before, SameHost prior.target hop.target) → value = [v]) ∧
    (∀ last, (req.hop :: before).getLast? = some last → ¬SameHost last.target hop.target →
      value = []) ∧
    (value = [v] ∨ value = [])

theorem redirectsCarry (hC : C.ForwardsAuthorization) {v : HeaderValue} {req : WireRequest}
    (hv : req.headers.getAll authorizationName = [v]) (resent : List Hop) :
    RedirectsCarry C v req resent := by
  intro before hop after _ value
  refine ⟨fun hsame => ?_, fun last hlast hother => ?_, ?_⟩
  · exact (hC.same req.headers _ hop hsame).trans hv
  · exact hC.other req.headers _ last hop hlast hother
  · rcases hC.kept req.headers (req.hop :: before) hop with hnone | hkept
    · exact Or.inr hnone
    · exact Or.inl (hkept.trans hv)

/-- In every interleaving of injections, requests and redirects, from a start without a credential:
at most one injection is answered `204`; its credential then stays, every other valid injection
is answered `409` and every invalid one `400`; only a validated injection that finds the store
empty changes it; a handler that read the store before the win sends nothing; every request
that was sent carries the winning credential as its only authorization, and what redirects make of
it carries the same, or nothing behind a change of host; and these are all the requests there are,
each a redirect of the one before. -/
theorem oneShot_protocol (hS : S.requireProviderCredential = true)
    (hC : C.ForwardsAuthorization) (actions : List Action)
    (s : Server) (hrun : run (step P C extractModelName S) Server.start actions = some s) :
    (∀ i i' c c', s.injections i = some (.answered c StatusCode.noContent) →
      s.injections i' = some (.answered c' StatusCode.noContent) → i = i') ∧
    (∀ i c, s.injections i = some (.answered c StatusCode.noContent) → ∀ later s',
      run (step P C extractModelName S) s later = some s' → s'.store = some c ∧
        ∀ i' c' status, i' ≠ i → s'.injections i' = some (.answered c' status) →
          c'.validate = .ok () → status = StatusCode.conflict) ∧
    (∀ i c status, s.injections i = some (.answered c status) → c.validate ≠ .ok () →
      status = StatusCode.badRequest) ∧
    (∀ a s', step P C extractModelName S s a = some s' → s'.store ≠ s.store →
      ∃ i c, s.injections i = some (.validated c) ∧ c.validate = .ok () ∧ s.store = none ∧
        s'.store = some c) ∧
    (∀ j x, s.store = none → s.exchanges j = some x → x.hasRead = true → ∀ later s',
      run (step P C extractModelName S) s later = some s' →
        ∀ req, s'.exchanges j ≠ some (.sent req)) ∧
    (∀ j req, s.exchanges j = some (.sent req) → ∃ i c v,
      s.result i = some (c, StatusCode.noContent) ∧ s.store = some c ∧
        c.authorizationValue = some v ∧ req.headers.getAll authorizationName = [v] ∧
        RedirectsCarry C v req (s.resent j)) ∧
    (∀ j, s.resent j ≠ [] → ∃ req answers, s.exchanges j = some (.sent req) ∧
      (follow P C redirectLimit answers req.hop).1 = req.hop :: s.resent j) := by
  have hstep : ∀ s a s', Inv s → step P C extractModelName S s a = some s' → Inv s' :=
    fun _ _ _ hs h => inv_step P C extractModelName S hS hs h
  have hs : Inv s := run_invariant Inv hstep inv_start hrun
  have hresult : ∀ {t : Server} {i c status}, t.injections i = some (.answered c status) →
      t.result i = some (c, status) := by
    intro t i c status h
    rw [Server.result, h]
    rfl
  have hresent : ResentInv P C s := run_invariant (ResentInv P C)
    (fun _ _ _ hs h => resentInv_step P C extractModelName S hs h) (resentInv_start P C) hrun
  refine ⟨?_, ?_, ?_, ?_, ?_, ?_, ?_⟩
  · intro i i' c c' h h'
    exact hs.unique i i' c c' (hresult h) (hresult h')
  · intro i c h later s' hlater
    have hs' : Inv s' := run_invariant Inv hstep hs hlater
    have hwon : s'.result i = some (c, StatusCode.noContent) :=
      run_invariant (·.result i = some (c, StatusCode.noContent))
        (fun _ _ _ ht hstep => noContent_of_step P C extractModelName S ht hstep) (hresult h) hlater
    refine ⟨hs'.store_of_noContent hwon, fun i' c' status hne h' hvalid => ?_⟩
    rcases hs'.results i' c' status (hresult h') with ⟨-, hbad⟩ | ⟨-, ⟨rfl, -⟩ | ⟨hconflict, -⟩⟩
    · exact absurd hvalid hbad
    · exact absurd (hs'.unique i' i c' c (hresult h') hwon) hne
    · exact hconflict
  · intro i c status h hinvalid
    rcases hs.results i c status (hresult h) with ⟨hbad, -⟩ | ⟨hvalid, -⟩
    · exact hbad
    · exact absurd hvalid hinvalid
  · intro a s' h hne
    exact store_ne_of_step P C extractModelName S hs h hne
  · intro j x hnone hx hread later s' hlater req hsent
    have hstart : ReadNothing j s := hs.readNothing hnone hx hread
    have hend : ReadNothing j s' := run_invariant (ReadNothing j)
      (fun _ _ _ ht hstep => readNothing_step P C extractModelName S hS ht hstep) hstart hlater
    rcases hend with ⟨_, _, _, hj⟩ | ⟨_, hj⟩ <;> rw [hsent] at hj <;> cases hj
  · intro j req hj
    obtain ⟨c, v, hc, hv, hall⟩ := hs.sent j req hj
    obtain ⟨i, hi⟩ := hs.winner c hc
    exact ⟨i, c, v, hi, hc, hv, hall, redirectsCarry C hC hall _⟩
  · intro j hne
    obtain ⟨req, hreq⟩ := hresent.sent j hne
    obtain ⟨hchain, hlen⟩ := hresent.chain j req hreq
    obtain ⟨answers, hanswers⟩ := exists_follow P C hchain hlen
    exact ⟨req, answers, hreq, hanswers⟩

end OneShot

/-- A request arrives with an authorization of its own while two injections race. -/
def racingActions : List Action :=
  [.inject 0 bearerKey, .inject 1 { token := "other".toList }, .validate 0, .validate 1,
    .request 0 [(authorizationName, headerText "Bearer mine")] [], .route 0, .setOnce 1, .setOnce 0,
    .readStore 0, .send 0, .answer 0, .answer 1]

def race : Option Server :=
  run (step plainUrlParser plainClient (fun _ => none) openaiState) Server.start racingActions

theorem race_outcome :
    ∃ s, race = some s ∧ s.injections 0 = some (.answered bearerKey StatusCode.conflict) ∧
      ∃ req v, s.exchanges 0 = some (.sent req) ∧
        req.headers.getAll authorizationName = [v] ∧
        v.bytes = Text.asBytes "Bearer other".toList := by
  obtain ⟨s, hs⟩ : ∃ s, race = some s := Option.isSome_iff_exists.mp (by decide +kernel)
  have hlost : (race.bind (·.injections 0)) = some (.answered bearerKey StatusCode.conflict) := by
    decide +kernel
  have hstore : race.bind (·.store) = some { token := "other".toList } := by decide +kernel
  have hrequest : (race.bind (·.request 0)).isSome = true := by decide +kernel
  rw [hs, Option.bind_some] at hlost hstore hrequest
  obtain ⟨req, hreq⟩ := Option.isSome_iff_exists.mp hrequest
  have hx : s.exchanges 0 = some (.sent req) := Server.request_eq_some_iff.mp hreq
  obtain ⟨-, -, -, -, -, hcarries, -⟩ := oneShot_protocol plainUrlParser plainClient (fun _ => none)
    openaiState rfl plainClient_forwardsAuthorization racingActions s hs
  obtain ⟨i, c, v, -, hc, hv, hall, -⟩ := hcarries 0 req hx
  obtain rfl : _ = c := Option.some.inj (hstore.symm.trans hc)
  refine ⟨s, hs, hlost, req, v, hx, hall, ?_⟩
  obtain rfl : headerText "Bearer other" = v := by
    refine Option.some.inj (Eq.trans ?_ hv)
    decide
  rfl

/-- The provider answers the request of the race with a redirect to another host. -/
def leavingActions : List Action :=
  racingActions ++ [.redirect 0 (temporaryRedirect (headerText "https://evil.example/"))]

def leaving : Option Server :=
  run (step plainUrlParser plainClient (fun _ => none) openaiState) Server.start leavingActions

/-- The request that follows the redirect repeats the body, and carries no authorization. -/
theorem redirect_drops_authorization :
    ∃ s req hop,
      run (step plainUrlParser plainClient (fun _ => none) openaiState) Server.start
        leavingActions = some s ∧
      s.result 1 = some ({ token := "other".toList }, StatusCode.noContent) ∧
      s.exchanges 0 = some (.sent req) ∧ s.resent 0 = [hop] ∧ hop.body = some req.body ∧
      (plainClient.redirectHeaders req.headers [req.hop] hop).getAll authorizationName = [] := by
  obtain ⟨s, hs⟩ : ∃ s, leaving = some s := Option.isSome_iff_exists.mp (by decide +kernel)
  have hwinner : leaving.bind (·.result 1) =
      some ({ token := "other".toList }, StatusCode.noContent) := by decide +kernel
  have hrequest : (leaving.bind (·.request 0)).isSome = true := by decide +kernel
  have hlength : leaving.map (fun t => (t.resent 0).length) = some 1 := by decide +kernel
  have hdropped : leaving.all (fun t => (t.request 0).all fun req => (t.resent 0).all fun hop =>
      hop.body = some req.body ∧
        (plainClient.redirectHeaders req.headers [req.hop] hop).getAll authorizationName = []) =
      true := by
    decide +kernel
  rw [hs, Option.bind_some] at hwinner hrequest
  rw [hs, Option.map_some, Option.some.injEq] at hlength
  obtain ⟨req, hreq⟩ := Option.isSome_iff_exists.mp hrequest
  obtain ⟨hop, hhop⟩ := List.length_eq_one_iff.mp hlength
  rw [hs, Option.all_some, hreq, Option.all_some, hhop, List.all_cons, List.all_nil, Bool.and_true,
    decide_eq_true_iff] at hdropped
  exact ⟨s, req, hop, hs, hwinner, Server.request_eq_some_iff.mp hreq, hhop, hdropped⟩

end TrustedRelay
