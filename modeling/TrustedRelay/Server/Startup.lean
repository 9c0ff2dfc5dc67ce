import TrustedRelay.Server.OneShot

/-!
# Start-up of the relay server

`main` turns the command line into the configuration that is validated, hashed and attested, and
puts a credential from the command line into the store before either plane listens. From there on
the server moves as in `OneShot.lean`, with injections only if there is an admin listener.

Two things that the checks suggest do not follow from them.

* The scheme of an injected credential is not compared with the attested one:
  `attestedScheme_iff` says which runs keep to it.
* The credential from the command line is not validated, unlike an injected one:
  `storedValid_iff` says when every stored credential is valid all the same.
-/

namespace TrustedRelay

open Machine

/-- The server's command line, after list values were split. -/
structure Cli where
  listen : Text := "0.0.0.0:8443".toList
  upstream : Text := "https://api.openai.com".toList
  maxRequestBytes : UInt64 := 1048576
  upstreamTimeoutSecs : UInt64 := 120
  allowedUpstream : List Text := []
  upstreamTlsLeafSha256 : List Text := []
  providerToken : Option Text := none
  providerAuthScheme : Text := "Bearer".toList
  adminListen : Option Text := none
  allowClientProviderAuth : Bool := false
  releaseArtifactDigest : Option Text := none

/-- One pin of the list, filed under its origin as it is written. -/
def addPin (pins : BTreeMap (List Text)) (item : Text) : Except Text (BTreeMap (List Text)) := do
  let (origin, pin) ← okOr (Text.splitOnce item '=')
    "upstream TLS pin must be ORIGIN=sha256:<64-hex>".toList
  .ok (pins.alter origin fun values => some (values.getD [] ++ [pin]))

def parseUpstreamTlsPins (raw : List Text) : Except Text (BTreeMap (List Text)) :=
  raw.foldlM addPin ∅

/-- An empty allowlist becomes that of the default upstream. -/
def allowedOrDefault (upstream : Text) (allowed : List Text) : List Text :=
  if allowed = [] then [upstream] else allowed

namespace Cli

variable (cli : Cli)

/-- The scheme that goes into the configuration, and with a token from the command line into the
store. -/
def authScheme : Text := Text.trim cli.providerAuthScheme

def relayConfig : Except Text RelayConfig := do
  let pins ← parseUpstreamTlsPins cli.upstreamTlsLeafSha256
  .ok
    { listenAddr := cli.listen
      runtime :=
        { allowClientProviderAuth := cli.allowClientProviderAuth
          privateAdminEnabled := cli.adminListen.isSome
          providerAuthScheme := cli.authScheme
          bodyLogPolicy := "metadata-only".toList }
      defaultUpstream := cli.upstream
      allowedUpstreams := allowedOrDefault cli.upstream cli.allowedUpstream
      maxRequestBytes := cli.maxRequestBytes
      releaseArtifactDigest := cli.releaseArtifactDigest
      upstreamTimeoutSecs := cli.upstreamTimeoutSecs
      upstreamTlsLeafSha256 := pins }

/-- The store when the planes start to listen. -/
def initialStore : ProviderCredentialStore :=
  match cli.providerToken with
  | none => .new
  | some token => ProviderCredentialStore.new.set { authScheme := cli.authScheme, token }

/-- The credential that the command line brings. -/
def credential (token : Text) : ProviderCredential := ⟨cli.authScheme, token⟩

theorem initialStore_eq_some_iff {c : ProviderCredential} :
    cli.initialStore = some c ↔
      ∃ token, cli.providerToken = some token ∧ cli.credential token = c := by
  unfold initialStore
  cases cli.providerToken <;>
    simp [ProviderCredentialStore.new, ProviderCredentialStore.set, credential]

end Cli

/-- A server that has come up. -/
structure Boot where
  state : AppState
  store : ProviderCredentialStore
  adminEnabled : Bool

/-- No handler is under way yet. -/
def Boot.server (B : Boot) : Server := .withStore B.store

/-- The scheme that is bound into the configuration hash. -/
def Boot.attestedScheme (B : Boot) : Text := B.state.config.runtime.providerAuthScheme

section Startup

variable (P : UrlParser) (C : HttpClient) (extractModelName : Bytes → Option Text)

/-- Start-up, as far as it depends on the command line. -/
def startup (cli : Cli) : Except Text Boot := do
  let config ← cli.relayConfig
  (config.validate P).mapError fun e => "config validation failed: ".toList ++ e
  let _ ← (config.upstreamTlsPinHosts P).mapError
    fun e => "invalid upstream TLS pin config: ".toList ++ e
  .ok
    { state := { config, requireProviderCredential := !cli.allowClientProviderAuth }
      store := cli.initialStore
      adminEnabled := cli.adminListen.isSome }

/-- A move of the running server. Without an admin listener no injection arrives. -/
def Boot.step (B : Boot) (s : Server) (a : Action) : Option Server :=
  match a with
  | .inject i credential =>
    if B.adminEnabled then TrustedRelay.step P C extractModelName B.state s (.inject i credential)
    else none
  | a => TrustedRelay.step P C extractModelName B.state s a

/-! ### What start-up gives -/

variable {P}

theorem startup_eq_ok {cli : Cli} {B : Boot} (h : startup P cli = .ok B) :
    B.state.config.validate P = .ok () ∧ B.attestedScheme = cli.authScheme ∧
      B.store = cli.initialStore := by
  simp only [startup, Cli.relayConfig, Except.bind_eq_ok_iff, Except.mapError_eq_ok_iff] at h
  obtain ⟨config, ⟨pins, -, hconfig⟩, _, hvalid, hosts, -, h⟩ := h
  obtain rfl := Except.ok.inj hconfig
  obtain rfl := Except.ok.inj h
  exact ⟨hvalid, rfl, rfl⟩

variable (P)

theorem Boot.step_eq_some {B : Boot} {s s' : Server} {a : Action}
    (h : B.step P C extractModelName s a = some s') :
    TrustedRelay.step P C extractModelName B.state s a = some s' := by
  cases a with
  | inject i c =>
    rw [Boot.step] at h
    split_ifs at h
    exact h
  | _ => exact h

/-- The store changes only by the write of a validated injection that finds it empty. -/
theorem store_of_step_cases {S : AppState} {s s' : Server} {a : Action}
    (h : TrustedRelay.step P C extractModelName S s a = some s') :
    s'.store = s.store ∨ ∃ i c, a = .setOnce i ∧ s.injections i = some (.validated c) ∧
      s.store = none ∧ s'.store = some c := by
  cases a with
  | setOnce i =>
    simp only [TrustedRelay.step] at h
    split at h
    · next c hi =>
      cases hs : s.store with
      | none =>
        rw [hs] at h
        rw [← Option.some.inj h]
        exact Or.inr ⟨i, c, rfl, hi, rfl, rfl⟩
      | some c' =>
        rw [hs] at h
        rw [← Option.some.inj h]
        exact Or.inl rfl
    · exact absurd h (by simp)
  | _ =>
    left
    simp only [TrustedRelay.step] at h
    grind [Server.setInjection_store, Server.setExchange_store, Server.resend_store]

/-! ### Credentials of the running server -/

/-- The server has a credential for upstream requests: in the store, or with a handler that has
read it. -/
def Server.Holds (s : Server) (c : ProviderCredential) : Prop :=
  s.store = some c ∨ ∃ j headers body url, s.exchanges j = some (.loaded headers body url (some c))

/-- Credentials come only from the write of a validated injection. -/
theorem holds_of_step {S : AppState} {s s' : Server} {a : Action} {c : ProviderCredential}
    (h : TrustedRelay.step P C extractModelName S s a = some s') (hc : s'.Holds c) :
    s.Holds c ∨ ∃ i, a = .setOnce i ∧ s.injections i = some (.validated c) ∧ s.store = none := by
  rcases hc with hstore | ⟨j, headers, body, url, hj⟩
  · rcases store_of_step_cases P C extractModelName h with hsame | ⟨i, c', ha, hi, hnone, hc'⟩
    · exact Or.inl (Or.inl (hsame ▸ hstore))
    · obtain rfl : c' = c := Option.some.inj (hc'.symm.trans hstore)
      exact Or.inr ⟨i, ha, hi, hnone⟩
  · left
    cases step_move P C extractModelName S h with
    | injection i x hmove => exact Or.inr ⟨j, headers, body, url, hj⟩
    | win i c' hmove hnone => exact Or.inr ⟨j, headers, body, url, hj⟩
    | exchange j' x hmove =>
      rw [Server.setExchange_exchanges] at hj
      split_ifs at hj
      · cases hmove with
        | read headers' body' url' hrouted =>
          simp only [Option.some.injEq, Exchange.loaded.injEq] at hj
          exact Or.inl hj.2.2.2
        | _ => cases hj
      · exact Or.inr ⟨j, headers, body, url, hj⟩
    | redirect j' req next resp hsent hlen hnext => exact Or.inr ⟨j, headers, body, url, hj⟩

/-- Injections that wait for the store have passed the check. -/
def Server.InjectionsValid (s : Server) : Prop :=
  ∀ i c, s.injections i = some (.validated c) → c.validate = .ok ()

theorem injectionsValid_of_step {S : AppState} {s s' : Server} {a : Action}
    (hs : s.InjectionsValid) (h : TrustedRelay.step P C extractModelName S s a = some s') :
    s'.InjectionsValid := by
  intro i c hi
  cases step_move P C extractModelName S h with
  | injection i' x hmove =>
    rw [Server.setInjection_injections] at hi
    split_ifs at hi
    · cases hmove with
      | accept c' _ hvalid =>
        cases hi
        exact hvalid
      | _ => cases hi
    · exact hs i c hi
  | win i' c' hmove hnone =>
    rw [Server.setInjection_injections] at hi
    split_ifs at hi
    · cases hi
    · exact hs i c hi
  | exchange j x hmove => exact hs i c hi
  | redirect j req next resp hsent hlen hnext => exact hs i c hi

theorem Boot.holds_server_iff {B : Boot} {c : ProviderCredential} :
    B.server.Holds c ↔ B.store = some c := by
  simp [Server.Holds, Boot.server]

theorem Boot.injectionsValid_server (B : Boot) : B.server.InjectionsValid := by
  intro i c hi
  cases hi

/-! ### The attested scheme -/

/-- Whatever the server has for upstream requests is written under the scheme. -/
def UsesScheme (scheme : Text) (s : Server) : Prop :=
  ∀ c, s.Holds c → ∀ v, c.authorizationValue = some v →
    v.bytes = Text.asBytes (scheme ++ ' ' :: c.token)

/-- If the action is a write that finds the store empty, it writes a credential of the scheme. -/
def StoresScheme (scheme : Text) (s : Server) (a : Action) : Prop :=
  ∀ i c, a = .setOnce i → s.injections i = some (.validated c) → s.store = none →
    c.authScheme = scheme

/-- The scheme of a credential can be read off its header value. -/
theorem authScheme_eq_of_bytes {c : ProviderCredential} {v : HeaderValue} {scheme : Text}
    (hv : c.authorizationValue = some v)
    (hbytes : v.bytes = Text.asBytes (scheme ++ ' ' :: c.token)) : c.authScheme = scheme := by
  have htext : c.authScheme ++ ' ' :: c.token = scheme ++ ' ' :: c.token :=
    Text.asBytes_injective ((ProviderCredential.bytes_of_authorizationValue hv).symm.trans hbytes)
  exact List.append_cancel_right htext

/-- In a run of the server, all that is ever sent as an injected authorization is written under
the attested scheme exactly when the injection that fills the store has that scheme. -/
theorem attestedScheme_iff (cli : Cli) (B : Boot) (hB : startup P cli = .ok B)
    (actions : List Action) (s : Server)
    (hrun : run (B.step P C extractModelName) B.server actions = some s) :
    ((∀ before after t, actions = before ++ after →
          run (B.step P C extractModelName) B.server before = some t →
            UsesScheme B.attestedScheme t) ↔
        Throughout (B.step P C extractModelName) B.server actions
          (StoresScheme B.attestedScheme)) ∧
      ∀ headers body url c req, sendRequest P C B.state headers body url (some c) = .ok req →
        ∃ v, c.authorizationValue = some v ∧ req.headers.getAll authorizationName = [v] := by
  obtain ⟨-, hscheme, hstore⟩ := startup_eq_ok hB
  refine ⟨⟨fun huses before a after t heq ht i c ha hi hnone => ?_,
    fun hmeet before after t heq ht => ?_⟩, fun _ _ _ _ _ h => sendRequest_carries P C B.state h⟩
  · have hvalid : t.InjectionsValid := run_invariant Server.InjectionsValid
      (fun _ _ _ hI h => injectionsValid_of_step P C extractModelName hI (B.step_eq_some P C _ h))
      B.injectionsValid_server ht
    obtain ⟨v, hv⟩ := ProviderCredential.authorizationValue_of_validate (hvalid i c hi)
    -- the write is enabled, and the state after it is one of the run
    rw [heq, run_append, ht, Option.bind_some, run_cons, Option.bind_eq_some_iff] at hrun
    obtain ⟨t', ht', -⟩ := hrun
    have hholds : t'.Holds c := by
      left
      have hwrite := B.step_eq_some P C _ ht'
      rw [ha, TrustedRelay.step, hi, hnone] at hwrite
      rw [← Option.some.inj hwrite]
      rfl
    refine authScheme_eq_of_bytes hv (huses (before ++ [a]) after t' ?_ ?_ c hholds v hv)
    · rw [heq, List.append_assoc, List.singleton_append]
    · rw [run_append, ht, Option.bind_some, run_cons, ht', Option.bind_some, run_nil]
  · have hall : ∀ c, t.Holds c → c.authScheme = B.attestedScheme := by
      refine run_invariant_of_throughout (fun u => ∀ c, u.Holds c → c.authScheme = B.attestedScheme)
        ?_ ?_ (heq ▸ hmeet).of_append ht
      · intro u a u' hu hG h c hc
        rcases holds_of_step P C extractModelName (B.step_eq_some P C _ h) hc with
          hold | ⟨i, ha, hi, hnone⟩
        · exact hu c hold
        · exact hG i c ha hi hnone
      · intro c hc
        rw [Boot.holds_server_iff, hstore] at hc
        obtain ⟨token, -, rfl⟩ := (cli.initialStore_eq_some_iff).mp hc
        exact hscheme.symm
    intro c hc v hv
    rw [ProviderCredential.bytes_of_authorizationValue hv, hall c hc]

/-! ### Valid credentials -/

theorem not_control_or_whitespace_of_tchar {b : UInt8} (h : isHttpTchar b = true) :
    (isAsciiControl b || isAsciiWhitespace b) = false := by
  revert b
  decide +kernel

theorem isHeaderValueByte_of_not_control {b : UInt8}
    (h : (isAsciiControl b || isAsciiWhitespace b) = false) : isHeaderValueByte b = true := by
  revert b
  decide +kernel

/-- Under a validated scheme, a credential is as valid as its token. -/
theorem validate_credential_iff {cli : Cli} {B : Boot} (hB : startup P cli = .ok B) (token : Text) :
    (cli.credential token).validate = .ok () ↔ token ≠ [] ∧
      (Text.asBytes token).any (fun b => isAsciiControl b || isAsciiWhitespace b) = false := by
  obtain ⟨hvalid, hscheme, -⟩ := startup_eq_ok hB
  obtain ⟨hruntime, -⟩ := (RelayConfig.validate_eq_ok_iff P _).mp hvalid
  rw [RuntimeConfig.validate, Except.unit_bind_eq_ok_iff, validateHttpToken,
    Except.unit_bind_eq_ok_iff, ensure_eq_ok_iff, ensure_eq_ok_iff] at hruntime
  obtain ⟨⟨hne, htchar⟩, -⟩ := hruntime
  change B.attestedScheme ≠ [] at hne
  change (Text.asBytes B.attestedScheme).all isHttpTchar = true at htchar
  rw [hscheme] at hne htchar
  -- the scheme has passed start-up, so only the token is left to check
  have htrim : Text.trim (cli.credential token).authScheme = cli.authScheme :=
    Text.trim_trim cli.providerAuthScheme
  have hclean : (Text.asBytes cli.authScheme).any
      (fun b => isAsciiControl b || isAsciiWhitespace b) = false := by
    rw [List.any_eq_false]
    intro b hb
    rw [not_control_or_whitespace_of_tchar (List.all_eq_true.mp htchar b hb)]
    exact Bool.false_ne_true
  rw [ProviderCredential.validate_eq_ok_iff, htrim]
  constructor
  · rintro ⟨-, -, htoken, hbytes, -⟩
    exact ⟨htoken, hbytes⟩
  · rintro ⟨htoken, hbytes⟩
    refine ⟨hne, hclean, htoken, hbytes, ?_⟩
    have hall : (Text.asBytes (cli.authScheme ++ ' ' :: token)).all isHeaderValueByte = true := by
      rw [← List.singleton_append, Text.asBytes_append, Text.asBytes_append, List.all_append,
        List.all_append, Bool.and_eq_true, Bool.and_eq_true]
      refine ⟨?_, by decide, ?_⟩ <;> refine List.all_eq_true.mpr fun b hb => ?_
      · exact isHeaderValueByte_of_not_control
          (Bool.eq_false_iff.mpr (List.any_eq_false.mp hclean b hb))
      · exact isHeaderValueByte_of_not_control
          (Bool.eq_false_iff.mpr (List.any_eq_false.mp hbytes b hb))
    exact ⟨⟨_, hall⟩, dif_pos hall⟩

/-- Every credential that the server ever stores is valid, and so has a header value and a token,
exactly when the command line brings no token or one without whitespace and control bytes. -/
theorem storedValid_iff (cli : Cli) (B : Boot) (hB : startup P cli = .ok B) :
    (∀ actions s, run (B.step P C extractModelName) B.server actions = some s →
        ∀ c, s.store = some c → c.validate = .ok () ∧ (∃ v, c.authorizationValue = some v) ∧
          c.token ≠ []) ↔
      ∀ token, cli.providerToken = some token → token ≠ [] ∧
        (Text.asBytes token).any (fun b => isAsciiControl b || isAsciiWhitespace b) = false := by
  obtain ⟨-, -, hstore⟩ := startup_eq_ok hB
  constructor
  · intro hall token htoken
    have hstart : B.server.store = some (cli.credential token) :=
      hstore.trans (cli.initialStore_eq_some_iff.mpr ⟨token, htoken, rfl⟩)
    exact (validate_credential_iff P hB token).mp (hall [] B.server rfl _ hstart).1
  · intro htoken actions s hrun c hc
    have hvalid : ∀ c, s.Holds c → c.validate = .ok () := by
      refine (run_invariant (fun u => u.InjectionsValid ∧ ∀ c, u.Holds c → c.validate = .ok ())
        ?_ ⟨B.injectionsValid_server, ?_⟩ hrun).2
      · rintro u a u' ⟨hinj, hholds⟩ h
        have hstep := B.step_eq_some P C extractModelName h
        refine ⟨injectionsValid_of_step P C extractModelName hinj hstep, fun c hc => ?_⟩
        rcases holds_of_step P C extractModelName hstep hc with hold | ⟨i, -, hi, -⟩
        · exact hholds c hold
        · exact hinj i c hi
      · intro c hc
        rw [Boot.holds_server_iff, hstore] at hc
        obtain ⟨token, heq, rfl⟩ := cli.initialStore_eq_some_iff.mp hc
        exact (validate_credential_iff P hB token).mpr (htoken token heq)
    have hok := hvalid c (Or.inl hc)
    obtain ⟨-, -, hne, -, hv⟩ := ProviderCredential.validate_eq_ok_iff.mp hok
    exact ⟨hok, hv, hne⟩

end Startup

/-- The default command line with an admin listener. -/
def adminCli : Cli := { adminListen := some "127.0.0.1:9000".toList }

/-- What comes up from a command line for the default upstream. -/
def defaultBoot (cli : Cli) : Boot where
  state :=
    { config :=
        { allowedUpstreams := ["https://api.openai.com".toList]
          runtime := { privateAdminEnabled := cli.adminListen.isSome } }
      requireProviderCredential := true }
  store := cli.initialStore
  adminEnabled := cli.adminListen.isSome

theorem startup_adminCli : startup plainUrlParser adminCli = .ok (defaultBoot adminCli) := rfl

/-- An injection of the given scheme that fills the store. -/
def injectScheme (scheme : String) : List Action :=
  [.inject 0 ⟨scheme.toList, "key".toList⟩, .validate 0, .setOnce 0]

/-- The attested scheme is `Bearer`, and upstream requests carry `Basic`. -/
theorem basicInjection_off_scheme :
    ∃ B s, startup plainUrlParser adminCli = .ok B ∧
      run (B.step plainUrlParser plainClient fun _ => none) B.server (injectScheme "Basic") = some s ∧
      s.store = some ⟨"Basic".toList, "key".toList⟩ ∧ B.attestedScheme = "Bearer".toList ∧
      ¬UsesScheme B.attestedScheme s := by
  obtain ⟨s, hs⟩ : ∃ s, run ((defaultBoot adminCli).step plainUrlParser plainClient fun _ => none)
      (defaultBoot adminCli).server (injectScheme "Basic") = some s :=
    Option.isSome_iff_exists.mp (by decide +kernel)
  have hstore : (run ((defaultBoot adminCli).step plainUrlParser plainClient fun _ => none)
      (defaultBoot adminCli).server (injectScheme "Basic")).bind (·.store) =
        some ⟨"Basic".toList, "key".toList⟩ := by decide +kernel
  rw [hs, Option.bind_some] at hstore
  refine ⟨defaultBoot adminCli, s, startup_adminCli, hs, hstore, rfl, fun huses => ?_⟩
  have hbytes := huses _ (Or.inl hstore) (headerText "Basic key") (by decide)
  exact absurd hbytes (by decide)

/-- An injection of the attested scheme keeps to it. -/
theorem bearerInjection_on_scheme :
    ∃ B s, startup plainUrlParser adminCli = .ok B ∧
      run (B.step plainUrlParser plainClient fun _ => none) B.server (injectScheme "Bearer") =
        some s ∧ UsesScheme B.attestedScheme s := by
  obtain ⟨s, hs⟩ : ∃ s, run ((defaultBoot adminCli).step plainUrlParser plainClient fun _ => none)
      (defaultBoot adminCli).server (injectScheme "Bearer") = some s :=
    Option.isSome_iff_exists.mp (by decide +kernel)
  refine ⟨defaultBoot adminCli, s, startup_adminCli, hs, ?_⟩
  refine (attestedScheme_iff plainUrlParser plainClient (fun _ => none) adminCli _ startup_adminCli
    _ s hs).1.mpr ?_ (injectScheme "Bearer") [] s (List.append_nil _).symm hs
  intro before a after t heq ht i c ha hi _
  -- only the last of the three actions writes
  rcases before with _ | ⟨a₀, _ | ⟨a₁, _ | ⟨a₂, before⟩⟩⟩
  · simp [injectScheme, ha] at heq
  · simp [injectScheme, ha] at heq
  · simp only [injectScheme, ha, List.cons_append, List.nil_append, List.cons.injEq,
      Action.setOnce.injEq] at heq
    obtain ⟨rfl, rfl, rfl, -⟩ := heq
    have hslot : (run ((defaultBoot adminCli).step plainUrlParser plainClient fun _ => none)
        (defaultBoot adminCli).server
        [.inject 0 ⟨"Bearer".toList, "key".toList⟩, .validate 0]).bind (·.injections 0) =
          some (.validated ⟨"Bearer".toList, "key".toList⟩) := by decide +kernel
    rw [ht, Option.bind_some, hi] at hslot
    obtain rfl := Injection.validated.inj (Option.some.inj hslot)
    rfl
  · simp [injectScheme] at heq

/-- The command line with a token. -/
def tokenCli (token : String) : Cli := { providerToken := some token.toList }

/-- A token that is the empty string is stored, and its header value is sent. -/
theorem emptyToken_stored :
    ∃ B s c, startup plainUrlParser (tokenCli "") = .ok B ∧
      run (B.step plainUrlParser plainClient fun _ => none) B.server [] = some s ∧
      s.store = some c ∧ c.validate ≠ .ok () ∧ c.token = [] :=
  ⟨defaultBoot (tokenCli ""), _, ⟨"Bearer".toList, []⟩, rfl, rfl, by decide, by decide, rfl⟩

theorem plainToken_valid :
    ∃ B, startup plainUrlParser (tokenCli "key") = .ok B ∧
      ∀ actions s, run (B.step plainUrlParser plainClient fun _ => none) B.server actions = some s →
        ∀ c, s.store = some c → c.validate = .ok () ∧ (∃ v, c.authorizationValue = some v) ∧
          c.token ≠ [] := by
  refine ⟨defaultBoot (tokenCli "key"), rfl, ?_⟩
  refine (storedValid_iff plainUrlParser plainClient (fun _ => none) (tokenCli "key") _ rfl).mpr ?_
  intro token htoken
  obtain rfl := Option.some.inj htoken
  exact ⟨by decide, by decide⟩

end TrustedRelay
