import TrustedRelay.Server.Linearise

/-!
# The readiness report

The admin plane also tells whether the relay has its credential. The probe reads the store once,
between its arrival and its answer, while injections and exchanges are under way. `readiness_report`
says what an answer is worth in every interleaving: a positive one stays true, of the store, of all
probes that arrive later and of all exchanges that arrive later, none of which fails for want of
a credential; a negative one means that nobody had been told otherwise when the probe arrived.
-/

namespace TrustedRelay

open Machine

/-! ### Probes -/

structure AdminHealth where
  ok : Bool
  providerCredentialLoaded : Bool
deriving DecidableEq, Repr

/-- `admin_health`, at the moment when it reads the store. -/
def adminHealth (store : ProviderCredentialStore) : AdminHealth := ⟨true, store.isLoaded⟩

/-- A probe under way. -/
inductive Probe
  | received
  | finished (health : AdminHealth)
  | answered (health : AdminHealth)
deriving DecidableEq

/-- What the probe reports, once it has read the store. -/
def Probe.report : Probe → Option AdminHealth
  | .received => none
  | .finished health => some health
  | .answered health => some health

/-- The running relay, with its probes. -/
structure AdminServer where
  relay : Server
  probes : ℕ → Option Probe

namespace AdminServer

/-- Nothing is under way; the credential may be there already. -/
def start (store : ProviderCredentialStore) : AdminServer :=
  ⟨.withStore store, fun _ => none⟩

def setProbe (s : AdminServer) (k : ℕ) (x : Probe) : AdminServer :=
  { s with probes := Function.update s.probes k (some x) }

@[simp] theorem setProbe_relay (s : AdminServer) (k : ℕ) (x : Probe) :
    (s.setProbe k x).relay = s.relay := rfl

def report (s : AdminServer) (k : ℕ) : Option AdminHealth := (s.probes k).bind Probe.report

theorem setProbe_report (s : AdminServer) (k k' : ℕ) (x : Probe) :
    (s.setProbe k x).report k' = if k' = k then x.report else s.report k' := by
  have hprobe : (s.setProbe k x).probes k' = if k' = k then some x else s.probes k' :=
    Function.update_apply ..
  rw [report, hprobe]
  split_ifs <;> rfl

end AdminServer

/-- The moves of the relay, and those of the probes. -/
inductive AdminAction
  | relay (a : Action)
  | probe (k : ℕ)
  | isLoaded (k : ℕ)
  | answer (k : ℕ)

/-- What the relay sees of an action. -/
def AdminAction.ofRelay : AdminAction → Option Action
  | .relay a => some a
  | _ => none

section Admin

variable (P : UrlParser) (C : HttpClient) (extractModelName : Bytes → Option Text) (S : AppState)

def adminStep (s : AdminServer) : AdminAction → Option AdminServer
  | .relay a => (step P C extractModelName S s.relay a).map fun relay => { s with relay }
  | .probe k =>
    match s.probes k with
    | none => some (s.setProbe k .received)
    | some _ => none
  | .isLoaded k =>
    match s.probes k with
    | some .received => some (s.setProbe k (.finished (adminHealth s.relay.store)))
    | _ => none
  | .answer k =>
    match s.probes k with
    | some (.finished health) => some (s.setProbe k (.answered health))
    | _ => none

/-- The moves of a probe. -/
inductive ProbeMove (s : AdminServer) (k : ℕ) : Probe → Prop
  | arrive (h : s.probes k = none) : ProbeMove s k .received
  | read (h : s.probes k = some .received) : ProbeMove s k (.finished (adminHealth s.relay.store))
  | answer (health) (h : s.probes k = some (.finished health)) : ProbeMove s k (.answered health)

variable {P C extractModelName S} {start : ProviderCredentialStore} {s s' t u : AdminServer}
  {c : ProviderCredential} {k : ℕ} {health : AdminHealth}

theorem adminStep_cases {a : AdminAction} (h : adminStep P C extractModelName S s a = some s') :
    (∃ b relay, a.ofRelay = some b ∧ step P C extractModelName S s.relay b = some relay ∧
      s' = { s with relay }) ∨
      (a.ofRelay = none ∧ ∃ k x, ProbeMove s k x ∧ s' = s.setProbe k x) := by
  cases a with
  | relay b =>
    obtain ⟨relay, hrelay, rfl⟩ := Option.map_eq_some_iff.mp h
    exact Or.inl ⟨b, relay, rfl, hrelay, rfl⟩
  | probe k =>
    simp only [adminStep] at h
    split at h
    · next hk => exact Or.inr ⟨rfl, k, _, .arrive hk, (Option.some.inj h).symm⟩
    · simp at h
  | isLoaded k =>
    simp only [adminStep] at h
    split at h
    · next hk => exact Or.inr ⟨rfl, k, _, .read hk, (Option.some.inj h).symm⟩
    · simp at h
  | answer k =>
    simp only [adminStep] at h
    split at h
    · next health hk => exact Or.inr ⟨rfl, k, _, .answer health hk, (Option.some.inj h).symm⟩
    · simp at h

/-- Without its probes, a run is one of the relay. -/
theorem run_relay {actions : List AdminAction}
    (h : run (adminStep P C extractModelName S) s actions = some t) :
    run (step P C extractModelName S) s.relay (actions.filterMap AdminAction.ofRelay) =
      some t.relay := by
  refine run_filterMap AdminServer.relay AdminAction.ofRelay ?_ ?_ h
  · intro s a s' b ha hb
    obtain ⟨b', relay, hb', hrelay, rfl⟩ | ⟨hnone, -⟩ := adminStep_cases ha
    · obtain rfl := Option.some.inj (hb.symm.trans hb')
      exact hrelay
    · rw [hnone] at hb
      cases hb
  · intro s a s' ha hnone
    obtain ⟨b, -, hb, -⟩ | ⟨-, k, x, -, rfl⟩ := adminStep_cases ha
    · rw [hnone] at hb
      cases hb
    · rfl

/-! ### What the probes report -/

/-- A credential that is in the store stays there. -/
theorem store_of_step {r r' : Server} {a : Action} (h : step P C extractModelName S r a = some r')
    (hr : r.store = some c) : r'.store = some c := by
  cases step_move P C extractModelName S h with
  | injection i x hmove => exact hr
  | win i c' hmove hstore => rw [hstore] at hr; cases hr
  | exchange j x hmove => exact hr
  | redirect j req next resp hsent hlen hnext => exact hr

/-- Every report is of the store, at a time since the probe arrived: where a credential was there
before the probe, the report is positive. -/
structure ReportsSince (u : AdminServer) (c : ProviderCredential) (s : AdminServer) : Prop where
  store : s.relay.store = some c
  report : ∀ k health, u.probes k = none → s.report k = some health → health = ⟨true, true⟩

theorem reportsSince_step (h : ReportsSince u c s) {a : AdminAction}
    (ha : adminStep P C extractModelName S s a = some s') : ReportsSince u c s' := by
  obtain ⟨b, relay, -, hrelay, rfl⟩ | ⟨-, k, x, hmove, rfl⟩ := adminStep_cases ha
  · exact ⟨store_of_step hrelay h.store, h.report⟩
  · refine ⟨h.store, fun k' health hk' hreport => ?_⟩
    rw [AdminServer.setProbe_report] at hreport
    split_ifs at hreport with hk
    · cases hmove with
      | arrive hnone => cases hreport
      | read hreceived =>
        rw [← Option.some.inj hreport, adminHealth, h.store]
        rfl
      | answer health' hfinished =>
        refine h.report k' health hk' ?_
        rw [AdminServer.report, hk, hfinished]
        exact hreport
    · exact h.report k' health hk' hreport

/-- A positive report is of a credential that is in the store. -/
def ReportsTrue (s : AdminServer) : Prop :=
  ∀ k health, s.report k = some health →
    health.ok = true ∧ (health.providerCredentialLoaded = true → ∃ c, s.relay.store = some c)

theorem reportsTrue_step (h : ReportsTrue s) {a : AdminAction}
    (ha : adminStep P C extractModelName S s a = some s') : ReportsTrue s' := by
  obtain ⟨b, relay, -, hrelay, rfl⟩ | ⟨-, k, x, hmove, rfl⟩ := adminStep_cases ha
  · intro k health hreport
    refine ⟨(h k health hreport).1, fun hloaded => ?_⟩
    obtain ⟨c, hc⟩ := (h k health hreport).2 hloaded
    exact ⟨c, store_of_step hrelay hc⟩
  · intro k' health hreport
    rw [AdminServer.setProbe_report] at hreport
    split_ifs at hreport with hk
    · cases hmove with
      | arrive hnone => cases hreport
      | read hreceived =>
        rw [← Option.some.inj hreport]
        exact ⟨rfl, Option.isSome_iff_exists.mp⟩
      | answer health' hfinished =>
        refine h k' health ?_
        rw [AdminServer.report, hk, hfinished]
        exact hreport
    · exact h k' health hreport

/-! ### What arrives after a credential -/

/-- With a credential, no exchange fails for want of one. -/
theorem exchangeOnce_ne_missing {headers : HeaderMap} {body : Bytes} :
    exchangeOnce P C extractModelName S (some c) headers body ≠
      .error .missingProviderCredential := by
  simp only [exchangeOnce, routeRequest, sendRequest, finishRequest, upstreamHeaders,
    injectCredential, ProviderCredentialStore.get, Except.bind_eq_error_iff, ensure_eq_error_iff,
    okOr_eq_error_iff, Except.mapError_eq_error_iff, ne_eq, reduceCtorEq, and_false, exists_false,
    or_false, Option.isSome_some, or_true, not_true_eq_false, false_and, not_false_eq_true]

/-- What the injections and exchanges that arrive at a loaded relay come to. -/
structure Ready (c : ProviderCredential) (r t : Server) : Prop where
  injection : ∀ i c' status, r.injections i = none → t.result i = some (c', status) →
    status ≠ StatusCode.noContent
  failed : ∀ j e, r.exchanges j = none → t.exchanges j = some (.failed e) →
    e ≠ .missingProviderCredential
  sent : ∀ j req, r.exchanges j = none → t.exchanges j = some (.sent req) → ∃ v,
    c.authorizationValue = some v ∧ req.headers.getAll authorizationName = [v]

theorem ready_of_loaded {r r' : Server} {before after : List Action}
    (hr : run (step P C extractModelName S) (Server.withStore start) before = some r)
    (hr' : run (step P C extractModelName S) r after = some r') (hc : r.store = some c) :
    Ready c r r' := by
  have hrun : run (step P C extractModelName S) (Server.withStore start)
      (before ++ after) = some r' := by
    rw [run_append, hr]
    exact hr'
  have hfirst := linearised_run hr
  have hall := linearised_run hrun
  -- what had not arrived takes effect after the part of the log that led to the credential
  have hloaded : ∀ call store, ¬r.HasArrived call.id →
      TookEffect Call.apply start (effects (step P C extractModelName S)
        (takesEffect P extractModelName S) (Server.withStore start)
        (before ++ after)) call store → store = some c := by
    intro call store harrived htook
    obtain ⟨later, rfl⟩ := htook.after (effects_prefix_append hr) fun hmem =>
      hfirst.log_ids.2 call.id harrived (List.mem_map_of_mem hmem)
    rw [← hfirst.store, hc, foldl_apply_some]
  refine ⟨fun i c' status hi hstatus => ?_, fun j e hj he => ?_, fun j req hj hreq => ?_⟩
  · obtain ⟨store, htook, rfl⟩ := hall.answered hstatus
    rw [hloaded (.inject i c') store (fun h => h hi) htook]
    have hconflict : StatusCode.conflict ≠ StatusCode.noContent := by decide
    have hbad : StatusCode.badRequest ≠ StatusCode.noContent := by decide
    cases hc' : c'.validate with
    | ok u =>
      rw [injectProviderCredential_of_valid hc', if_neg nofun]
      exact hconflict
    | error e =>
      rw [injectProviderCredential_of_invalid hc']
      exact hbad
  · obtain ⟨headers, body, store, htook, honce⟩ := hall.exchange j _ he
    rw [hloaded (.exchange j headers body) store (fun h => h hj) htook] at honce
    rintro rfl
    exact exchangeOnce_ne_missing honce
  · obtain ⟨headers, body, store, htook, honce⟩ := hall.exchange j _ hreq
    rw [hloaded (.exchange j headers body) store (fun h => h hj) htook] at honce
    obtain ⟨url, -, hsend⟩ := Except.bind_eq_ok_iff.mp honce
    exact sendRequest_carries P C S hsend

/-- An injection that was told of its success has left a credential. -/
theorem Linearised.store_ne_none {actions : List Action} {log : List Call} {r : Server}
    (h : Linearised P C extractModelName S start actions log r) {i : ℕ}
    (hi : r.result i = some (c, StatusCode.noContent)) : r.store ≠ none := by
  obtain ⟨store, htook, hstatus⟩ := h.answered hi
  obtain ⟨later, hlater⟩ := htook.later
  rw [h.store, hlater]
  cases hc : c.validate with
  | ok u =>
    have happly : Call.apply store (.inject i c) = some (store.getD c) :=
      congrArg Prod.fst (injectProviderCredential_of_valid hc store)
    rw [happly, foldl_apply_some]
    nofun
  | error e =>
    rw [injectProviderCredential_of_invalid hc] at hstatus
    have hne : StatusCode.noContent ≠ StatusCode.badRequest := by decide
    exact absurd hstatus hne

/-- What the answers of `admin_health` are worth, in every run of the relay from any store. -/
theorem readiness_report (P : UrlParser) (C : HttpClient) (extractModelName : Bytes → Option Text)
    (S : AppState) (start : ProviderCredentialStore) (before after : List AdminAction)
    (s t : AdminServer)
    (hs : run (adminStep P C extractModelName S) (AdminServer.start start) before = some s)
    (ht : run (adminStep P C extractModelName S) s after = some t) :
    (∀ k health, s.report k = some health → health.providerCredentialLoaded = true →
      ∃ c, s.relay.store = some c ∧ t.relay.store = some c ∧ Ready c s.relay t.relay ∧
        ∀ k' health', s.probes k' = none → t.report k' = some health' → health' = ⟨true, true⟩) ∧
    ∀ k health, s.probes k = none → t.report k = some health → health.ok = true ∧
      (health.providerCredentialLoaded = false →
        s.relay.store = none ∧ ∀ i c, s.relay.result i ≠ some (c, StatusCode.noContent)) := by
  have hrelay := run_relay hs
  have hsince : ∀ c, s.relay.store = some c → ReportsSince s c t := fun c hc =>
    run_invariant (ReportsSince s c) (fun _ _ _ h ha => reportsSince_step h ha)
      ⟨hc, fun k health hk hreport => by rw [AdminServer.report, hk] at hreport; cases hreport⟩ ht
  have htrue : ReportsTrue s :=
    run_invariant ReportsTrue (fun _ _ _ h ha => reportsTrue_step h ha)
      (fun k health hreport => by cases hreport) hs
  have htrue' : ReportsTrue t :=
    run_invariant ReportsTrue (fun _ _ _ h ha => reportsTrue_step h ha) htrue ht
  constructor
  · intro k health hreport hloaded
    obtain ⟨c, hc⟩ := (htrue k health hreport).2 hloaded
    exact ⟨c, hc, (hsince c hc).store, ready_of_loaded hrelay (run_relay ht) hc,
      (hsince c hc).report⟩
  · intro k health hk hreport
    refine ⟨(htrue' k health hreport).1, fun hmissing => ?_⟩
    have hnone : s.relay.store = none := by
      cases hc : s.relay.store with
      | none => rfl
      | some c =>
        rw [(hsince c hc).report k health hk hreport] at hmissing
        cases hmissing
    exact ⟨hnone, fun i c hi => (linearised_run hrelay).store_ne_none hi hnone⟩

end Admin

/-- One probe reads before the injection is stored, one after it. -/
def probedActions : List AdminAction :=
  [.probe 0, .relay (.inject 0 bearerKey), .relay (.validate 0), .isLoaded 0, .relay (.setOnce 0),
    .probe 1, .isLoaded 1, .answer 0, .answer 1]

/-- An exchange and an injection that arrive then. -/
def readyActions : List AdminAction :=
  [.relay (.request 0 [] []), .relay (.inject 1 { token := "other".toList }), .relay (.route 0),
    .relay (.readStore 0), .relay (.validate 1), .relay (.setOnce 1), .relay (.send 0), .probe 2]

def probed : Option AdminServer :=
  run (adminStep plainUrlParser plainClient (fun _ => none) openaiState) (AdminServer.start none)
    probedActions

/-- The first probe reports what it has read, though the credential is there when it answers. After
the second, the exchange is ready. -/
theorem probed_ready :
    ∃ s t, probed = some s ∧ s.report 0 = some ⟨true, false⟩ ∧
      run (adminStep plainUrlParser plainClient (fun _ => none) openaiState) s readyActions =
        some t ∧
      ∃ c, s.relay.store = some c ∧ Ready c s.relay t.relay := by
  obtain ⟨s, hs⟩ : ∃ s, probed = some s := Option.isSome_iff_exists.mp (by decide +kernel)
  have hearly : probed.bind (·.report 0) = some ⟨true, false⟩ := by decide +kernel
  have hlate : probed.bind (·.report 1) = some ⟨true, true⟩ := by decide +kernel
  have hrun : (probed.bind fun s =>
      run (adminStep plainUrlParser plainClient (fun _ => none) openaiState) s
        readyActions).isSome = true := by decide +kernel
  rw [hs, Option.bind_some] at hearly hlate hrun
  obtain ⟨t, ht⟩ := Option.isSome_iff_exists.mp hrun
  obtain ⟨c, hc, -, hready, -⟩ := (readiness_report plainUrlParser plainClient (fun _ => none)
    openaiState none probedActions readyActions s t hs ht).1 1 _ hlate rfl
  exact ⟨s, t, hs, hearly, ht, c, hc, hready⟩

end TrustedRelay
