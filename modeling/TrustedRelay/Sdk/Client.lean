import TrustedRelay.Tls.Backends

/-!
# The client of the SDK

`TrustedRelayClient::builder` collects settings in any order and number, and `build` turns them into
a client whose TLS connections are attested. Which verifier it takes depends on the policy, on an
explicit verifier, and on the features that the SDK was compiled with.

`built_client_sound` is what a user of the client can rely on, for every sequence of settings and
every set of features: the last setting of each kind counts, and a certificate that the client
accepts meets the policy. In particular there is no way to mock evidence but the mock policy with
the mock feature, or a verifier that the user has brought.
-/

namespace TrustedRelay

namespace Sdk

open AttestedTls

/-- How the SDK verifies the relay's attestation evidence. -/
inductive VerificationPolicy
  | strict (expectedMeasurement : Bytes)
  | trustOnFirstUse
  | audit
  | gcpConfidentialSpace (audience imageDigest : Text)
  | mockDev
deriving DecidableEq

namespace VerificationPolicy

def expectedMeasurement : VerificationPolicy → Option Bytes
  | .strict expectedMeasurement => some expectedMeasurement
  | _ => none

/-- The policies that also pin the configuration. -/
def pinsConfig : VerificationPolicy → Bool
  | .strict _ => true
  | .gcpConfidentialSpace _ _ => true
  | _ => false

end VerificationPolicy

structure TrustedRelayClientBuilder where
  endpoint : Text
  apiKey : Option Text
  policy : VerificationPolicy
  explicitVerifier : Option Verifier
  expectedConfigHash : Option (ByteArr 32)

structure TrustedRelayClient where
  endpoint : Text
  apiKey : Option Text
  tls : AttestedCertVerifier

/-- `TrustedRelayClient::builder`. -/
def builder : TrustedRelayClientBuilder where
  endpoint := []
  apiKey := none
  policy := .audit
  explicitVerifier := none
  expectedConfigHash := none

/-- The calls on a builder before `build`. -/
inductive Setter
  | endpoint (endpoint : Text)
  | apiKey (key : Text)
  | verification (policy : VerificationPolicy)
  | verifier (verifier : Verifier)
  | expectedConfigHash (hash : ByteArr 32)

namespace TrustedRelayClientBuilder

def set (b : TrustedRelayClientBuilder) : Setter → TrustedRelayClientBuilder
  | .endpoint endpoint => { b with endpoint := endpoint }
  | .apiKey key => { b with apiKey := some key }
  | .verification policy => { b with policy := policy }
  | .verifier verifier => { b with explicitVerifier := some verifier }
  | .expectedConfigHash hash => { b with expectedConfigHash := some hash }

/-- The verifier for `Strict` and `Audit`; `debug` is how the policy prints. -/
def productionVerifier (F : Features) (E : Environment) (explicit : Option Verifier)
    (debug : Text) : Except Text Verifier :=
  match explicit with
  | some v => .ok v
  | none =>
    if F.sevSnp then .ok (SevSnp.verify E.certs E.kds)
    else .error ("production verification policy (".toList ++ debug ++
      ") requires a concrete verifier. Enable 'sev-snp', provide one via .verifier(), ".toList ++
      "or use VerificationPolicy::GcpConfidentialSpace with an image digest.".toList)

/-- The verifier of the client. Fails closed where there is none. -/
def selectVerifier (F : Features) (E : Environment) (b : TrustedRelayClientBuilder) :
    Except Text Verifier :=
  match b.policy with
  | .gcpConfidentialSpace audience imageDigest =>
    match b.explicitVerifier with
    | some v => .ok v
    | none =>
      if F.gcpConfidentialSpace then do
        let v ← (GcpConfidentialSpaceVerifier.new E.urls E.jwks
          (.strictForImage audience imageDigest)).mapError AttestError.display
        .ok (v.verify E.urls E.jwt E.wellKnown E.clock)
      else .error ("GcpConfidentialSpace policy requires the gcp-confidential-space feature ".toList
        ++ "or an explicit verifier".toList)
  -- an explicit verifier is ignored here
  | .mockDev =>
    if F.mock then .ok (Mock.verify E.mock)
    else .error "MockDev policy requires the 'mock' feature".toList
  | .trustOnFirstUse =>
    .error ("VerificationPolicy::TrustOnFirstUse is not implemented yet. ".toList ++
      "Use Strict with an expected measurement, Audit, or MockDev.".toList)
  | .strict expectedMeasurement =>
    productionVerifier F E b.explicitVerifier ("Strict \x7b expected_measurement: [".toList ++
      ", ".toList.intercalate (expectedMeasurement.map fun b => Text.decimal b.toNat) ++
      "] \x7d".toList)
  | .audit => productionVerifier F E b.explicitVerifier "Audit".toList

def build (F : Features) (E : Environment) (b : TrustedRelayClientBuilder) :
    Except Text TrustedRelayClient := do
  let verifier ← selectVerifier F E b
  ensure (¬ (b.policy.pinsConfig ∧ b.expectedConfigHash = none))
    ("Strict/GCP Confidential Space verification requires expected_config_hash() so the ".toList ++
      "client pins the relay's upstream routing configuration as well as its workload ".toList ++
      "identity.".toList)
  ensure (Text.trim b.endpoint ≠ []) "relay endpoint must not be empty".toList
  .ok ⟨b.endpoint, b.apiKey, ⟨verifier, b.policy.expectedMeasurement, b.expectedConfigHash⟩⟩

end TrustedRelayClientBuilder

open TrustedRelayClientBuilder

/-- The builder after some calls. -/
def configured (setters : List Setter) : TrustedRelayClientBuilder := setters.foldl set builder

/-! ### The settings that count -/

/-- The value of the last call of one kind. -/
def lastSet {α : Type} (kind : Setter → Option α) (setters : List Setter) : Option α :=
  (setters.filterMap kind).getLast?

def Setter.policy? : Setter → Option VerificationPolicy
  | .verification policy => some policy
  | _ => none

def Setter.verifier? : Setter → Option Verifier
  | .verifier v => some v
  | _ => none

def Setter.expectedConfigHash? : Setter → Option (ByteArr 32)
  | .expectedConfigHash hash => some hash
  | _ => none

/-- The policy of a client that was set up by `setters`. -/
def policyOf (setters : List Setter) : VerificationPolicy :=
  (lastSet Setter.policy? setters).getD .audit

theorem lastSet_concat {α : Type} (kind : Setter → Option α) (setters : List Setter) (x : Setter) :
    lastSet kind (setters ++ [x]) = (kind x).or (lastSet kind setters) := by
  rw [lastSet, List.filterMap_append, lastSet]
  cases h : kind x <;> simp [h]

theorem configured_eq (setters : List Setter) :
    (configured setters).policy = policyOf setters ∧
      (configured setters).explicitVerifier = lastSet Setter.verifier? setters ∧
      (configured setters).expectedConfigHash = lastSet Setter.expectedConfigHash? setters := by
  induction setters using List.reverseRecOn with
  | nil => exact ⟨rfl, rfl, rfl⟩
  | append_singleton setters x ih =>
    obtain ⟨hpolicy, hverifier, hhash⟩ := ih
    have hset : configured (setters ++ [x]) = (configured setters).set x := by
      rw [configured, List.foldl_append]
      rfl
    rw [hset, policyOf, lastSet_concat, lastSet_concat, lastSet_concat]
    cases x with
    | endpoint | apiKey => exact ⟨hpolicy, hverifier, hhash⟩
    | verification policy => exact ⟨rfl, hverifier, hhash⟩
    | verifier v => exact ⟨hpolicy, rfl, hhash⟩
    | expectedConfigHash hash => exact ⟨hpolicy, hverifier, rfl⟩

/-! ### Accepted certificates -/

/-- The policy is met by evidence with the REPORTDATA `r`, for a client with the given explicit
verifier. -/
def Meets (F : Features) (E : Environment) (policy : VerificationPolicy)
    (explicit : Option Verifier) (evidence : Evidence) (r : ByteArr 64) : Prop :=
  match policy, explicit with
  | .trustOnFirstUse, _ => False
  | .mockDev, _ => F.mock = true ∧ evidence.teeType = .mock ∧
      ∃ payload quote signature,
        Mock.parseEvidence E.mock evidence = .ok (payload, quote, signature) ∧
        E.mock.verifySignature payload signature = true ∧ quote.userData = r.1
  | .strict m, none => F.sevSnp = true ∧ SevSnp.EvidenceAccepted E.certs E.kds evidence (some m) ∧
      r.1 = Bytes.range evidence.data 0x50 0x90
  | .audit, none => F.sevSnp = true ∧ SevSnp.EvidenceAccepted E.certs E.kds evidence none ∧
      r.1 = Bytes.range evidence.data 0x50 0x90
  | .gcpConfidentialSpace audience imageDigest, none => F.gcpConfidentialSpace = true ∧
      TokenMet E.jwt E.wellKnown E.clock ⟨.strictForImage audience imageDigest, E.jwks, true⟩
        evidence r
  | policy, some v => ∃ expected, v evidence expected = .ok r ∧
      (evidence.teeType ≠ .gcpConfidentialSpace → expected = policy.expectedMeasurement)

section

variable {F : Features} {E : Environment} {b : TrustedRelayClientBuilder}
  {client : TrustedRelayClient} {x509 : X509Parser} {sha384 : Bytes → ByteArr 48} {certDer : Bytes}

/-- What `build` has checked, and what it puts into the client. -/
theorem build_eq_ok_iff : build F E b = .ok client ↔ ∃ verifier,
    selectVerifier F E b = .ok verifier ∧ (b.policy.pinsConfig → b.expectedConfigHash.isSome) ∧
      Text.trim b.endpoint ≠ [] ∧
      client = ⟨b.endpoint, b.apiKey,
        ⟨verifier, b.policy.expectedMeasurement, b.expectedConfigHash⟩⟩ := by
  have hpins : ¬ (b.policy.pinsConfig ∧ b.expectedConfigHash = none) ↔
      (b.policy.pinsConfig → b.expectedConfigHash.isSome) := by
    rw [not_and, Option.isSome_iff_ne_none]
  simp only [build, Except.bind_eq_ok_iff, exists_unit_iff, ensure_eq_ok_iff, hpins,
    Except.ok.injEq, eq_comm (b := client)]

/-- A verifier that the user has brought is asked for the policy's measurement. -/
theorem meets_explicit {v : Verifier} {policy : VerificationPolicy}
    {configHash : Option (ByteArr 32)}
    (h : AttestedCertVerifier.verifyServerCert x509 sha384
      ⟨v, policy.expectedMeasurement, configHash⟩ certDer = .ok ()) :
    ∃ evidence r, Attests x509 sha384 configHash certDer evidence r ∧
      ∃ expected, v evidence expected = .ok r ∧
        (evidence.teeType ≠ .gcpConfidentialSpace → expected = policy.expectedMeasurement) := by
  obtain ⟨evidence, expected, r, hattests, hverify⟩ := attests_of_verifyServerCert h
  refine ⟨evidence, r, hattests, _, hverify, fun htee => ?_⟩
  cases hcase : evidence.teeType with
  | gcpConfidentialSpace => exact absurd hcase htee
  | tdx | sevSnp | mock => rfl

/-- `Strict` and `Audit` take the user's verifier, or the SEV-SNP one with the policy's
measurement. -/
theorem production_accepted {explicit : Option Verifier} {debug : Text} {verifier : Verifier}
    {policy : VerificationPolicy} {configHash : Option (ByteArr 32)}
    (hselect : productionVerifier F E explicit debug = .ok verifier)
    (haccept : AttestedCertVerifier.verifyServerCert x509 sha384
      ⟨verifier, policy.expectedMeasurement, configHash⟩ certDer = .ok ()) :
    ∃ evidence r, Attests x509 sha384 configHash certDer evidence r ∧
      (∀ v, explicit = some v → ∃ expected, v evidence expected = .ok r ∧
        (evidence.teeType ≠ .gcpConfidentialSpace → expected = policy.expectedMeasurement)) ∧
      (explicit = none → F.sevSnp = true ∧
        SevSnp.EvidenceAccepted E.certs E.kds evidence policy.expectedMeasurement ∧
        r.1 = Bytes.range evidence.data 0x50 0x90) := by
  cases explicit with
  | some v =>
    obtain rfl := Except.ok.inj hselect
    obtain ⟨evidence, r, hattests, hmeets⟩ := meets_explicit haccept
    exact ⟨evidence, r, hattests, fun _ hv => Option.some.inj hv ▸ hmeets, nofun⟩
  | none =>
    dsimp only [productionVerifier] at hselect
    split_ifs at hselect with hfeature
    obtain rfl := Except.ok.inj hselect
    obtain ⟨evidence, r, hattests, haccepted, hr⟩ := sevSnp_accepted haccept
    exact ⟨evidence, r, hattests, nofun, fun _ => ⟨hfeature, haccepted, hr⟩⟩

/-- What the client accepts meets the policy of its builder. -/
theorem meets_of_build (hbuild : build F E b = .ok client)
    (haccept : client.tls.verifyServerCert x509 sha384 certDer = .ok ()) :
    ∃ evidence r, Attests x509 sha384 b.expectedConfigHash certDer evidence r ∧
      Meets F E b.policy b.explicitVerifier evidence r := by
  obtain ⟨verifier, hselect, -, -, rfl⟩ := build_eq_ok_iff.mp hbuild
  rw [selectVerifier] at hselect
  cases hpolicy : b.policy with
  | trustOnFirstUse =>
    rw [hpolicy] at hselect
    cases hselect
  | mockDev =>
    -- the mock verifier, whatever verifier the user has brought
    rw [hpolicy] at hselect haccept
    dsimp only at hselect
    split_ifs at hselect with hfeature
    obtain rfl := Except.ok.inj hselect
    obtain ⟨evidence, r, payload, quote, signature, hattests, htee, hparse, hsig, -, hdata⟩ :=
      mock_accepted haccept
    exact ⟨evidence, r, hattests, hfeature, htee, payload, quote, signature, hparse, hsig, hdata⟩
  | strict m =>
    rw [hpolicy] at hselect haccept
    obtain ⟨evidence, r, hattests, hsome, hnone⟩ := production_accepted hselect haccept
    refine ⟨evidence, r, hattests, ?_⟩
    cases hexplicit : b.explicitVerifier with
    | some v => exact hsome v hexplicit
    | none => exact hnone hexplicit
  | audit =>
    rw [hpolicy] at hselect haccept
    obtain ⟨evidence, r, hattests, hsome, hnone⟩ := production_accepted hselect haccept
    refine ⟨evidence, r, hattests, ?_⟩
    cases hexplicit : b.explicitVerifier with
    | some v => exact hsome v hexplicit
    | none => exact hnone hexplicit
  | gcpConfidentialSpace audience imageDigest =>
    rw [hpolicy] at hselect haccept
    cases hexplicit : b.explicitVerifier with
    | some v =>
      rw [hexplicit] at hselect
      obtain rfl := Except.ok.inj hselect
      exact meets_explicit haccept
    | none =>
      rw [hexplicit] at hselect
      dsimp only at hselect
      split_ifs at hselect with hfeature
      obtain ⟨V, hV, hverifier⟩ := Except.bind_eq_ok_iff.mp hselect
      rw [Except.mapError_eq_ok_iff] at hV
      obtain ⟨-, hV⟩ := Except.unit_bind_eq_ok_iff.mp hV
      obtain rfl := Except.ok.inj hV
      obtain rfl := Except.ok.inj hverifier
      obtain ⟨evidence, r, hattests, htoken⟩ := confidentialSpace_accepted haccept
      exact ⟨evidence, r, hattests, hfeature, htoken⟩

/-- Mock evidence meets no policy but the mock policy, unless the user's own verifier takes it. -/
theorem policy_of_meets_mock {policy : VerificationPolicy} {explicit : Option Verifier}
    {evidence : Evidence} {r : ByteArr 64} (h : Meets F E policy explicit evidence r)
    (hmock : evidence.teeType = .mock) :
    policy = .mockDev ∧ F.mock = true ∨
      ∃ v expected, explicit = some v ∧ v evidence expected = .ok r := by
  cases policy with
  | trustOnFirstUse => exact h.elim
  | mockDev => exact Or.inl ⟨rfl, h.1⟩
  | strict m =>
    cases explicit with
    | some v => exact Or.inr ⟨v, h.choose, rfl, h.choose_spec.1⟩
    | none => exact absurd (hmock.symm.trans h.2.1.teeType) nofun
  | audit =>
    cases explicit with
    | some v => exact Or.inr ⟨v, h.choose, rfl, h.choose_spec.1⟩
    | none => exact absurd (hmock.symm.trans h.2.1.teeType) nofun
  | gcpConfidentialSpace audience imageDigest =>
    cases explicit with
    | some v => exact Or.inr ⟨v, h.choose, rfl, h.choose_spec.1⟩
    | none => exact absurd (hmock.symm.trans h.2.1) nofun

end

/-- For every sequence of settings and every set of features: a certificate that the built client
accepts embeds evidence that meets the policy set last, and its REPORTDATA is made for the
certificate's key and the configuration set last, which a strict or Confidential Space policy cannot
do without. Mock evidence is accepted only under the mock policy with the mock feature, or by the
user's own verifier. -/
theorem built_client_sound (F : Features) (E : Environment) (setters : List Setter)
    (client : TrustedRelayClient) (x509 : X509Parser) (sha384 : Bytes → ByteArr 48)
    (certDer : Bytes) (hbuild : build F E (configured setters) = .ok client)
    (haccept : client.tls.verifyServerCert x509 sha384 certDer = .ok ()) :
    ((policyOf setters).pinsConfig → (lastSet Setter.expectedConfigHash? setters).isSome) ∧
      ∃ evidence r,
        Attests x509 sha384 (lastSet Setter.expectedConfigHash? setters) certDer evidence r ∧
        Meets F E (policyOf setters) (lastSet Setter.verifier? setters) evidence r ∧
        (evidence.teeType = .mock → policyOf setters = .mockDev ∧ F.mock = true ∨
          ∃ v expected, lastSet Setter.verifier? setters = some v ∧
            v evidence expected = .ok r) := by
  obtain ⟨evidence, r, hattests, hmeets⟩ := meets_of_build hbuild haccept
  obtain ⟨-, -, hpins, -, -⟩ := build_eq_ok_iff.mp hbuild
  obtain ⟨hpolicy, hverifier, hhash⟩ := configured_eq setters
  rw [hpolicy, hverifier] at hmeets
  rw [hhash] at hattests
  rw [hpolicy, hhash] at hpins
  exact ⟨hpins, evidence, r, hattests, hmeets, policy_of_meets_mock hmeets⟩

section Samples

/-- The mock policy is set first and then replaced. -/
def strictSetters : List Setter :=
  [.verification .mockDev, .endpoint "https://relay".toList,
    .verification (.strict (List.replicate 48 0)), .expectedConfigHash zeroHash]

theorem strict_client_accepts :
    ∃ evidence r, Attests (fun _ => some (certWith 2 zeroReport)) emptySha384 (some zeroHash) []
        evidence r ∧
      SevSnp.EvidenceAccepted oneEndorsement (fun _ => .ok []) evidence
        (some (List.replicate 48 0)) := by
  obtain ⟨-, evidence, r, hattests, ⟨-, haccepted, -⟩, -⟩ := built_client_sound ⟨true, true, true⟩
    sevSnpEnvironment strictSetters _ (fun _ => some (certWith 2 zeroReport)) emptySha384 [] rfl
    (by decide +kernel)
  exact ⟨evidence, r, hattests, haccepted⟩

end Samples

end Sdk

end TrustedRelay
