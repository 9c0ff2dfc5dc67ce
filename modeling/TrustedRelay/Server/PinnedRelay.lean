import TrustedRelay.Core.ConfigHash
import TrustedRelay.Core.Destination
import TrustedRelay.Core.Pinning
import TrustedRelay.Server.Linearise
import TrustedRelay.Server.SelectAttester
import TrustedRelay.Server.Startup

/-!
# What a pinned configuration says about a running relay

A client pins the hash of a configuration that it has read, and accepts the certificate of a relay
that some operator has started with some command line on some host. `pinned_relay_sound` says what
the client then knows of every request that the relay ever makes: it goes to the default upstream of
the configuration that was read, it is no longer than that configuration allows, and it carries the
credential that was put into the relay and not the client's, unless the configuration says
otherwise. `pinned_relay_peer` adds with whom the relay speaks, if the configuration pins
certificates.

On the way lie the choice of the attester, the REPORTDATA, the certificate, the hash and its input,
and all interleavings of the handlers. The assumptions are that the platform is authentic, that the
truncated hash does not collide on the two inputs, and that no upstream on the command line imitates
a line of the hash input; the last is not checked by the relay.
-/

namespace TrustedRelay

open Machine

/-! ### Start-up with the attester -/

section BringUp

variable (F : ServerFeatures) (R : RuntimeEnvironment) (D : Devices) (I : AttestedTls.Issuer)
  (sha384 : Bytes → ByteArr 48) (P : UrlParser)

/-- `main`, up to the listeners. -/
def bringUp (cli : Cli) (keyPair : AttestedTls.KeyPair) :
    Except Text (Boot × AttestedTls.AttestedTlsServer) := do
  let selected ← selectAttester F R
  let config ← cli.relayConfig
  (config.validate P).mapError fun e => "config validation failed: ".toList ++ e
  let configHash ← okOr (config.configHash P D.sha256)
    "RelayConfig::validate checks upstream TLS pins".toList
  let server ← (AttestedTls.fromKeyPair I sha384 (selected.attester D) (some configHash)
    keyPair).mapError fun e => "attested TLS setup failed: ".toList ++ e.display
  let _ ← (config.upstreamTlsPinHosts P).mapError
    fun e => "invalid upstream TLS pin config: ".toList ++ e
  .ok ({ state := { config, requireProviderCredential := !cli.allowClientProviderAuth }
         store := cli.initialStore
         adminEnabled := cli.adminListen.isSome }, server)

variable {F R D I sha384 P} {cli : Cli} {keyPair : AttestedTls.KeyPair} {B : Boot}
  {server : AttestedTls.AttestedTlsServer}

theorem bringUp_eq_ok_iff : bringUp F R D I sha384 P cli keyPair = .ok (B, server) ↔
    startup P cli = .ok B ∧ ∃ selected configHash, selectAttester F R = .ok selected ∧
      B.state.config.configHash P D.sha256 = some configHash ∧
      AttestedTls.fromKeyPair I sha384 (selected.attester D) (some configHash) keyPair =
        .ok server := by
  simp only [bringUp, startup, Except.bind_eq_ok_iff, Except.mapError_eq_ok_iff, okOr_eq_ok_iff,
    Except.ok.injEq, Prod.mk.injEq]
  constructor
  · rintro ⟨selected, hselected, config, hconfig, u, hvalid, hash, hhash, server', hserver, hosts,
      hpins, rfl, rfl⟩
    exact ⟨⟨config, hconfig, u, hvalid, hosts, hpins, rfl⟩, selected, hash, hselected, hhash,
      hserver⟩
  · rintro ⟨⟨config, hconfig, u, hvalid, hosts, hpins, rfl⟩, selected, hash, hselected, hhash,
      hserver⟩
    exact ⟨selected, hselected, config, hconfig, u, hvalid, hash, hhash, server, hserver, hosts,
      hpins, rfl, rfl⟩

/-- A command line brings no routes. -/
theorem startup_config (h : startup P cli = .ok B) :
    B.state.config.routes = ∅ ∧ B.state.config.defaultUpstream = cli.upstream ∧
      B.state.config.allowedUpstreams = allowedOrDefault cli.upstream cli.allowedUpstream ∧
      B.state.requireProviderCredential = !B.state.config.runtime.allowClientProviderAuth := by
  simp only [startup, Cli.relayConfig, Except.bind_eq_ok_iff, Except.mapError_eq_ok_iff] at h
  obtain ⟨config, ⟨pins, -, hconfig⟩, _, -, hosts, -, h⟩ := h
  obtain rfl := Except.ok.inj hconfig
  obtain rfl := Except.ok.inj h
  exact ⟨rfl, rfl, rfl, rfl⟩

theorem allowedOrDefault_ne_nil (upstream : Text) (allowed : List Text) :
    allowedOrDefault upstream allowed ≠ [] := by
  unfold allowedOrDefault
  split_ifs with hnil
  · exact List.cons_ne_nil _ _
  · exact hnil

/-- No upstream of the command line imitates a line of the hash input. -/
def Cli.UpstreamsFree (cli : Cli) : Prop :=
  ∀ u ∈ cli.upstream :: cli.allowedUpstream, Delimited.Free RelayConfig.upstreamMarks u

theorem Cli.UpstreamsFree.delimiterFree (hfree : cli.UpstreamsFree) (h : startup P cli = .ok B) :
    B.state.config.DelimiterFree := by
  obtain ⟨hroutes, hdefault, hallowed, -⟩ := startup_config h
  have hnone : ∀ r, r ∉ B.state.config.routes.toList := by
    have hnil : (∅ : BTreeMap ProviderConfig).toList = [] := rfl
    rw [hroutes, hnil]
    exact fun r => List.not_mem_nil
  refine ⟨hdefault ▸ hfree _ List.mem_cons_self, fun r hr => absurd hr (hnone r),
    fun r hr => absurd hr (hnone r), fun r hr => absurd hr (hnone r), fun a ha => ?_⟩
  rw [hallowed, allowedOrDefault] at ha
  split_ifs at ha
  · rw [List.mem_singleton.mp ha]
    exact hfree _ List.mem_cons_self
  · exact hfree _ (List.mem_cons_of_mem _ ha)

end BringUp

/-! ### What the hash fixes -/

/-- The configurations agree in all that the relay's requests depend on. -/
structure RelayConfig.SameRequests (P : UrlParser) (c c' : RelayConfig) : Prop where
  runtime : c.runtime = c'.runtime
  maxRequestBytes : c.maxRequestBytes = c'.maxRequestBytes
  defaultUpstream : c.defaultUpstream = c'.defaultUpstream
  routes : c.routes = c'.routes
  allowedUpstreams : c.allowedUpstreams.Perm c'.allowedUpstreams
  pins : normalizeUpstreamTlsPins P c.upstreamTlsLeafSha256 =
    normalizeUpstreamTlsPins P c'.upstreamTlsLeafSha256

theorem RelayConfig.sameRequests_of_preimage_eq {P : UrlParser} {c c' : RelayConfig}
    (hc : c.validate P = .ok ()) (hc' : c'.validate P = .ok ()) (hd : c.DelimiterFree)
    (hd' : c'.DelimiterFree) (h : c.configHashPreimage P = c'.configHashPreimage P) :
    c.SameRequests P c' := by
  obtain ⟨hruntime, hupstream, hmax, -, -, N, N', hN, hN', hpins⟩ :=
    segments_eq_of_preimage_eq hc hc' h
  obtain ⟨hdefault, hroutes, hallowed⟩ := upstream_eq_of_unlines_eq hd hd' hupstream
  have hsorted : ∀ d : RelayConfig, d.sortedAllowed.Perm d.allowedUpstreams :=
    fun d => List.perm_insertionSort _ d.allowedUpstreams
  have hmaps : N = N' := by
    refine Std.ExtTreeMap.toList_inj.mp (Delimited.map_inj_of_mem (fun e he e' he' heq => ?_) hpins)
    obtain ⟨⟨-, horigin⟩, hfree⟩ := normalizeUpstreamTlsPins_free hN e he
    obtain ⟨⟨-, horigin'⟩, hfree'⟩ := normalizeUpstreamTlsPins_free hN' e' he'
    exact pinLine_inj horigin horigin' (fun pin hpin => (hfree pin hpin).2)
      (fun pin hpin => (hfree' pin hpin).2) heq
  exact
    { runtime := runtimeLines_injective hruntime
      maxRequestBytes :=
        UInt64.toNat_inj.mp (Text.decimal_injective (List.append_cancel_left hmax))
      defaultUpstream := hdefault
      routes := hroutes
      allowedUpstreams := (hsorted c).symm.trans (hallowed ▸ hsorted c')
      pins := by rw [hN, hN', hmaps] }

/-! ### What a request keeps to -/

/-- A request of a relay with this configuration and this credential in its store. -/
structure WireRequest.KeepsTo (P : UrlParser) (c : RelayConfig) (store : ProviderCredentialStore)
    (req : WireRequest) : Prop where
  origin : ∃ url o, Url.parse P url = some req.target ∧ req.target.origin = some o ∧
    urlOrigin P c.defaultUpstream = some o ∧ c.AllowedOrigin P o
  size : req.body.length ≤ c.maxRequestBytes.toNat
  authorization : c.runtime.allowClientProviderAuth = false → ∃ credential value,
    store = some credential ∧ credential.authorizationValue = some value ∧
    req.headers.getAll authorizationName = [value]

theorem WireRequest.KeepsTo.congr {P : UrlParser} {c c' : RelayConfig}
    {store : ProviderCredentialStore} {req : WireRequest} (h : req.KeepsTo P c store)
    (hsame : c.SameRequests P c') : req.KeepsTo P c' store := by
  obtain ⟨url, o, hurl, ho, hdefault, a, ha, hao⟩ := h.origin
  refine ⟨⟨url, o, hurl, ho, hsame.defaultUpstream ▸ hdefault, a, ?_, hao⟩,
    hsame.maxRequestBytes ▸ h.size,
    hsame.runtime ▸ h.authorization⟩
  exact hsame.allowedUpstreams.mem_iff.mp ha

/-- Without routes, everything goes to the default upstream, and the default path cannot leave its
origin. -/
theorem keepsTo_of_exchangeOnce {P : UrlParser} {C : HttpClient}
    {extractModelName : Bytes → Option Text} {S : AppState} {store : ProviderCredentialStore}
    {headers : HeaderMap} {body : Bytes} {req : WireRequest} (hroutes : S.config.routes = ∅)
    (hlist : S.config.allowedUpstreams ≠ [])
    (hrequire : S.requireProviderCredential = !S.config.runtime.allowClientProviderAuth)
    (h : exchangeOnce P C extractModelName S store headers body = .ok req) :
    req.KeepsTo P S.config store := by
  obtain ⟨url, hroute, hsend⟩ := Except.bind_eq_ok_iff.mp h
  obtain ⟨hsize, hcheck, rfl⟩ := (routeRequest_eq_ok_iff P extractModelName).mp hroute
  -- without routes every model goes to the default upstream
  have hresolve : S.config.resolveUpstream (requestModel extractModelName body) =
      (S.config.defaultUpstream, none) := by
    rcases S.config.resolveUpstream_cases (requestModel extractModelName body) with
      hdefault | ⟨route, hmem, -⟩
    · exact hdefault
    · have hnil : (∅ : BTreeMap ProviderConfig).toList = [] := rfl
      rw [hroutes, hnil] at hmem
      exact absurd hmem List.not_mem_nil
  rw [hresolve] at hcheck
  have hauthorization : S.config.runtime.allowClientProviderAuth = false → ∃ credential value,
      store = some credential ∧ credential.authorizationValue = some value ∧
      req.headers.getAll authorizationName = [value] := by
    intro hclient
    rw [hclient, Bool.not_false] at hrequire
    cases store with
    | none => exact absurd hsend (sendRequest_none P C S hrequire)
    | some credential =>
      obtain ⟨value, hvalue, hall⟩ := sendRequest_carries P C S hsend
      exact ⟨credential, value, rfl, hvalue, hall⟩
  simp only [sendRequest, Except.bind_eq_ok_iff, finishRequest_eq_ok_iff, okOr_eq_ok_iff,
    Except.ok.injEq, hresolve] at hsend
  obtain ⟨ureq, ⟨-, -, hbody, hurl⟩, target, htarget, rfl⟩ := hsend
  refine ⟨?_, hbody ▸ hsize, hauthorization⟩
  obtain hnil | ⟨o, ho, hallowed⟩ := (S.config.checkUpstreamAllowed_eq_ok_iff P _).mp hcheck
  · exact absurd hnil hlist
  rw [hurl] at htarget
  obtain ⟨hparse, -⟩ := (requestTarget_eq_some_iff P).mp htarget
  refine ⟨_, o, hparse, ?_, ho, hallowed⟩
  -- the origin that was checked is that of the base, and the default path does not change it
  rcases urlOrigin_upstreamUrl P (pathKeepsAuthority_default S.config.defaultUpstream) ho with
    hnone | hsome
  · rw [hparse] at hnone
    cases hnone
  · rwa [urlOrigin, hparse] at hsome

/-- Every request that the server has sent keeps to its configuration, with the credential that it
has now. -/
theorem keepsTo_of_run {P : UrlParser} {C : HttpClient} {extractModelName : Bytes → Option Text}
    {cli : Cli} {B : Boot} (hB : startup P cli = .ok B) {actions : List Action} {s : Server}
    (hrun : run (B.step P C extractModelName) B.server actions = some s) {j : ℕ}
    {req : WireRequest} (hj : s.exchanges j = some (.sent req)) :
    req.KeepsTo P B.state.config s.store := by
  obtain ⟨hroutes, -, hallowed, hrequire⟩ := startup_config hB
  have hlog := linearised_run (run_mono (fun _ _ _ => B.step_eq_some P C extractModelName) hrun)
  obtain ⟨headers, body, store, htook, hreq⟩ := hlog.exchange j _ hj
  have hkeeps := keepsTo_of_exchangeOnce hroutes (hallowed ▸ allowedOrDefault_ne_nil _ _) hrequire
    hreq
  refine { hkeeps with authorization := fun hclient => ?_ }
  obtain ⟨credential, value, rfl, hvalue, hall⟩ := hkeeps.authorization hclient
  exact ⟨credential, value, hlog.store.trans (store_of_tookEffect htook), hvalue, hall⟩

/-- The TLS server verification of `build_upstream_http_client`, over any WebPKI delegate: without
pins, the delegate's alone. -/
def verifyUpstreamCert (N : IpDisplay) (sha256 : Bytes → ByteArr 32)
    (delegate : Bytes → List Bytes → ServerName → Bytes → ℕ → Except Text Unit)
    (pinsByHost : BTreeMap (List Text)) (leaf : Bytes) (intermediates : List Bytes)
    (name : ServerName) (ocspResponse : Bytes) (now : ℕ) : Except Text Unit :=
  if pinsByHost.isEmpty then delegate leaf intermediates name ocspResponse now
  else (PinnedServerCertVerifier.mk delegate pinsByHost).verifyServerCert N sha256 leaf
    intermediates name ocspResponse now

/-! ### The pinned relay -/

section Pinned

variable (F : ServerFeatures) (R : RuntimeEnvironment) (fits : Text → Bool) (D : Devices)
  (E : AttestedTls.Environment) (x509 : X509Parser) (sha384 : Bytes → ByteArr 48)
  (I : AttestedTls.Issuer) (P : UrlParser) (cli : Cli) (keyPair : AttestedTls.KeyPair) (B : Boot)
  (pinned : RelayConfig) (b : ClientBackend) (expectedMeasurement : Option Bytes)

/-- The relay has come up, and a client has accepted its certificate that expects the hash of the
configuration `pinned`. -/
structure PinnedRelay : Prop where
  authentic : Authentic fits D E
  preserves : I.Preserves x509
  upstreamsFree : cli.UpstreamsFree
  validate : pinned.validate P = .ok ()
  delimiterFree : pinned.DelimiterFree
  noCollision : ∀ p p', pinned.configHashPreimage P = some p →
    B.state.config.configHashPreimage P = some p' →
    (D.sha256 p).1.take 16 = (D.sha256 p').1.take 16 → p = p'
  accepted : ∃ server h, bringUp F R D I sha384 P cli keyPair = .ok (B, server) ∧
    pinned.configHash P D.sha256 = some h ∧
    AttestedTls.AttestedCertVerifier.verifyServerCert x509 sha384
      ⟨b.verifier E, expectedMeasurement, some h⟩ server.certDer = .ok ()

variable {F R fits D E x509 sha384 I P cli keyPair B pinned b expectedMeasurement}

theorem PinnedRelay.startup
    (h : PinnedRelay F R fits D E x509 sha384 I P cli keyPair B pinned b expectedMeasurement) :
    TrustedRelay.startup P cli = .ok B ∧ R.Selects F b.teeType ∧
      B.state.config.SameRequests P pinned := by
  obtain ⟨server, hash, hup, hhash, haccept⟩ := h.accepted
  obtain ⟨hB, selected, configHash, hselect, hconfig, hserver⟩ := bringUp_eq_ok_iff.mp hup
  obtain ⟨htee, hagrees⟩ := h.authentic.accepted h.preserves hserver haccept
  refine ⟨hB, htee ▸ selects_of_selectAttester hselect, ?_⟩
  -- the two hashes agree in the half that is attested, so their inputs are equal
  obtain ⟨p, hp, hph⟩ := Option.map_eq_some_iff.mp hhash
  obtain ⟨p', hp', hph'⟩ := Option.map_eq_some_iff.mp hconfig
  have htake : hash.1.take 16 = configHash.1.take 16 := by
    rcases hagrees with hnone | ⟨h', hh', ⟨ch, hch, htake⟩ | ⟨hnone, -⟩⟩
    · cases hnone
    · rwa [Option.some.inj hh', Option.some.inj hch]
    · cases hnone
  have heq : p = p' := h.noCollision p p' hp hp' (by rw [hph, hph', htake])
  refine RelayConfig.sameRequests_of_preimage_eq (startup_eq_ok hB).1 h.validate
    (h.upstreamsFree.delimiterFree hB) h.delimiterFree ?_
  rw [hp, hp', heq]

end Pinned

/-- A client that has pinned a configuration and accepted the certificate of a relay knows on what
kind of host the relay runs, and that whatever it sends upstream, in any interleaving of any
requests and injections, keeps to that configuration. -/
theorem pinned_relay_sound (F : ServerFeatures) (R : RuntimeEnvironment) (fits : Text → Bool)
    (D : Devices) (E : AttestedTls.Environment) (x509 : X509Parser) (sha384 : Bytes → ByteArr 48)
    (I : AttestedTls.Issuer) (P : UrlParser) (cli : Cli) (keyPair : AttestedTls.KeyPair) (B : Boot)
    (pinned : RelayConfig) (b : ClientBackend) (expectedMeasurement : Option Bytes)
    (h : PinnedRelay F R fits D E x509 sha384 I P cli keyPair B pinned b expectedMeasurement)
    (C : HttpClient) (extractModelName : Bytes → Option Text) :
    R.Selects F b.teeType ∧ ∀ actions s,
      run (B.step P C extractModelName) B.server actions = some s →
      ∀ j req, s.exchanges j = some (.sent req) → req.KeepsTo P pinned s.store := by
  obtain ⟨hB, hselects, hsame⟩ := h.startup
  exact ⟨hselects, fun actions s hrun j req hj => (keepsTo_of_run hB hrun hj).congr hsame⟩

/-- If the configuration also pins certificates for its default upstream, and the upstream is not an
IPv6 address, then the relay has a TLS connection for a request only with a server whose certificate
passes WebPKI and is pinned in that configuration for the host. -/
theorem pinned_relay_peer (F : ServerFeatures) (R : RuntimeEnvironment) (fits : Text → Bool)
    (D : Devices) (E : AttestedTls.Environment) (x509 : X509Parser) (sha384 : Bytes → ByteArr 48)
    (I : AttestedTls.Issuer) (P : UrlParser) (cli : Cli) (keyPair : AttestedTls.KeyPair) (B : Boot)
    (pinned : RelayConfig) (b : ClientBackend) (expectedMeasurement : Option Bytes)
    (h : PinnedRelay F R fits D E x509 sha384 I P cli keyPair B pinned b expectedMeasurement)
    (C : HttpClient) (extractModelName : Bytes → Option Text) (actions : List Action) (s : Server)
    (hrun : run (B.step P C extractModelName) B.server actions = some s) (j : ℕ) (req : WireRequest)
    (hj : s.exchanges j = some (.sent req)) (pins : List Text)
    (hpins : pinned.upstreamTlsPinsFor P pinned.defaultUpstream = .ok (some pins)) (host : Host)
    (hhost : req.target.host = some host) (hkind : host.kind ≠ .ipv6) (N : IpDisplay)
    (delegate : Bytes → List Bytes → ServerName → Bytes → ℕ → Except Text Unit)
    (pinsByHost : BTreeMap (List Text))
    (hclient : B.state.config.upstreamTlsPinHosts P = .ok pinsByHost) (leaf : Bytes)
    (intermediates : List Bytes) (ocspResponse : Bytes) (now : ℕ)
    (hverify : verifyUpstreamCert N D.sha256 delegate pinsByHost leaf intermediates
      (serverName host) ocspResponse now = .ok ()) :
    delegate leaf intermediates (serverName host) ocspResponse now = .ok () ∧
      pinned.PinnedFor P host (leafSha256Pin D.sha256 leaf) := by
  obtain ⟨hB, -, hsame⟩ := h.startup
  obtain ⟨url, o, hurl, ho, hdefault, -⟩ := (keepsTo_of_run hB hrun hj).origin
  have hscheme := isHttpScheme_of_origin ho
  have htarget : urlOrigin P url = some o := by rw [urlOrigin, hurl]; exact ho
  -- the pins are filed under the host of the origin, which is the host of the request
  simp only [RelayConfig.upstreamTlsPinsFor, Except.bind_eq_ok_iff, okOr_eq_ok_iff,
    Except.ok.injEq, ← hsame.defaultUpstream, hdefault, Option.some.injEq] at hpins
  obtain ⟨normal, hnormal, o', rfl, hget⟩ := hpins
  rw [← hsame.pins] at hnormal
  obtain ⟨normal', hnormal', hby⟩ := upstreamTlsPinHosts_eq_ok P hclient
  obtain rfl := Except.ok.inj (hnormal'.symm.trans hnormal)
  have hfiled : pinHost P o = some host.hostStr := pinHost_urlOrigin P htarget hurl hhost
  obtain ⟨expected, hexpected⟩ := Option.isSome_iff_exists.mp ((hby host.hostStr).1.mpr
    ⟨(o, pins), Std.ExtTreeMap.mem_toList_iff_getElem?_eq_some.mpr hget, hfiled⟩)
  unfold verifyUpstreamCert at hverify
  split_ifs at hverify with hempty
  · rw [Std.ExtTreeMap.isEmpty_iff.mp hempty] at hexpected
    cases hexpected
  · obtain ⟨hdelegate, hlookup⟩ :=
      (PinnedServerCertVerifier.verifyServerCert_eq_ok_iff N).mp hverify
    rw [toStr_serverName N hkind] at hlookup
    obtain ⟨M, hM, hpinned⟩ := pinnedFor_of_mem_byHost P hclient hurl hscheme hhost hexpected
      (hlookup expected hexpected)
    exact ⟨hdelegate, M, hsame.pins ▸ hM, hpinned⟩

/-! ### A relay with a pin -/

section Samples

open AttestedTls

/-- The default relay with an admin listener and a pin for its upstream. -/
def pinCli : Cli :=
  { adminCli with
    upstreamTlsLeafSha256 := ["https://api.openai.com=sha256:".toList ++ List.replicate 64 '0'] }

def pinBoot : Boot := ((startup plainUrlParser pinCli).toOption).getD (defaultBoot adminCli)

/-- The configuration of the relay, as a client might write it down. -/
def readConfig : RelayConfig :=
  { pinBoot.state.config with listenAddr := "localhost:443".toList }

theorem startup_pinCli : startup plainUrlParser pinCli = .ok pinBoot := by
  have hok : ((startup plainUrlParser pinCli).toOption).isSome = true := by decide +kernel
  rw [pinBoot]
  cases hstartup : startup plainUrlParser pinCli with
  | error e =>
    rw [hstartup] at hok
    cases hok
  | ok B => rfl

/-- The configuration hash of the relay. -/
def pinHash : ByteArr 32 :=
  (pinBoot.state.config.configHash plainUrlParser lengthHash).getD zeroHash

theorem configHash_pinBoot :
    pinBoot.state.config.configHash plainUrlParser lengthHash = some pinHash := by
  obtain ⟨N, -, hpre⟩ := RelayConfig.configHashPreimage_eq_some (startup_eq_ok startup_pinCli).1
  rw [pinHash, RelayConfig.configHash, hpre]
  rfl

theorem bringUp_pinCli :
    bringUp ⟨true, true, true, true⟩ snpHost snpDevices (evidenceIssuer (snpEvidence pinHash))
      emptySha384 plainUrlParser pinCli emptyKey = .ok (pinBoot, ⟨[]⟩) :=
  bringUp_eq_ok_iff.mpr
    ⟨startup_pinCli, .sevSnp, pinHash, by decide, configHash_pinBoot, snpServer pinHash⟩

theorem pinCli_upstreamsFree : pinCli.UpstreamsFree := by
  intro u hu
  obtain rfl := List.mem_singleton.mp hu
  decide

/-- The listen address is not in the hash. -/
theorem pinCli_pinned :
    PinnedRelay ⟨true, true, true, true⟩ snpHost (fun _ => true) snpDevices mockEnvironment
      (evidenceParser (snpEvidence pinHash)) emptySha384 (evidenceIssuer (snpEvidence pinHash))
      plainUrlParser pinCli emptyKey pinBoot readConfig .sevSnp none := by
  have hfree := pinCli_upstreamsFree.delimiterFree startup_pinCli
  have hvalid : readConfig.validate plainUrlParser = .ok () := (startup_eq_ok startup_pinCli).1
  have hsame : readConfig.configHashPreimage plainUrlParser =
      pinBoot.state.config.configHashPreimage plainUrlParser := rfl
  have hhash : readConfig.configHash plainUrlParser lengthHash = some pinHash := configHash_pinBoot
  exact
    { authentic := snpDevices_authentic
      preserves := evidenceIssuer_preserves (snpEvidence pinHash)
      upstreamsFree := pinCli_upstreamsFree
      validate := hvalid
      delimiterFree :=
        ⟨hfree.default_free, hfree.prefix_free, hfree.base_free, hfree.path_free,
          hfree.allowed_free⟩
      noCollision := fun p p' hp hp' _ => Option.some.inj (hp.symm.trans (hsame.trans hp'))
      accepted := ⟨⟨[]⟩, pinHash, bringUp_pinCli, hhash, snpServer_accepted pinHash⟩ }

/-- A key is injected and a request sent. -/
def keyedActions : List Action :=
  injectScheme "Bearer" ++ [.request 0 [] [1], .route 0, .readStore 0, .send 0]

def keyedRun : Option Server :=
  run (pinBoot.step plainUrlParser plainClient fun _ => none) pinBoot.server keyedActions

theorem keyedRun_sends : ∃ s req, keyedRun = some s ∧ s.exchanges 0 = some (.sent req) ∧
    req.target.host = some openaiHost := by
  have hsent : (keyedRun.bind (·.request 0)).any (fun req => req.target.host = some openaiHost) =
      true := by decide +kernel
  obtain ⟨req, hreq, hhost⟩ := (Option.any_eq_true _ _).mp hsent
  obtain ⟨s, hs, hj⟩ := Option.bind_eq_some_iff.mp hreq
  exact ⟨s, req, hs, Server.request_eq_some_iff.mp hj, of_decide_eq_true hhost⟩

/-- The request goes to the default upstream with the injected key. -/
theorem keyedRun_keeps : ∃ s req, keyedRun = some s ∧ s.exchanges 0 = some (.sent req) ∧
    req.KeepsTo plainUrlParser readConfig s.store := by
  obtain ⟨s, req, hs, hj, -⟩ := keyedRun_sends
  exact ⟨s, req, hs, hj, (pinned_relay_sound _ _ _ _ _ _ _ _ _ _ _ _ _ _ _ pinCli_pinned plainClient
    fun _ => none).2 keyedActions s hs 0 req hj⟩

/-- Of a WebPKI that takes every certificate, the relay takes those that are pinned. -/
theorem keyedRun_peer : ∃ pinsByHost,
    pinBoot.state.config.upstreamTlsPinHosts plainUrlParser = .ok pinsByHost ∧
    ∀ leaf, verifyUpstreamCert plainDisplay snpDevices.sha256 (fun _ _ _ _ _ => .ok ()) pinsByHost
      leaf [] (serverName openaiHost) [] 0 = .ok () →
      readConfig.PinnedFor plainUrlParser openaiHost (leafSha256Pin snpDevices.sha256 leaf) := by
  obtain ⟨s, req, hs, hj, hhost⟩ := keyedRun_sends
  obtain ⟨pinsByHost, hclient⟩ : ∃ pinsByHost,
      pinBoot.state.config.upstreamTlsPinHosts plainUrlParser = .ok pinsByHost := ⟨_, rfl⟩
  obtain ⟨pins, hpins⟩ : ∃ pins, readConfig.upstreamTlsPinsFor plainUrlParser
      readConfig.defaultUpstream = .ok (some pins) := ⟨_, rfl⟩
  refine ⟨pinsByHost, hclient, fun leaf hverify => ?_⟩
  exact (pinned_relay_peer _ _ _ _ _ _ _ _ _ _ _ _ _ _ _ pinCli_pinned plainClient (fun _ => none)
    keyedActions s hs 0 req hj pins hpins openaiHost hhost (by decide) plainDisplay _ pinsByHost
    hclient leaf [] [] 0 hverify).2

end Samples

end TrustedRelay
