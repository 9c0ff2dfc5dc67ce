import TrustedRelay.Tls.Client

/-!
# The three backends behind the certificate verifier

What an accepted certificate says depends on the backend of the client and on what the client
expects; both expectations may be absent. In each of the three results the certificate embeds
evidence of the backend's own type, and the REPORTDATA that the backend vouches for is made for the
certificate's key (`Attests`).
-/

namespace TrustedRelay

/-- The policy without its pins on the workload. -/
def GcpConfidentialSpacePolicy.withoutWorkload (policy : GcpConfidentialSpacePolicy) :
    GcpConfidentialSpacePolicy :=
  { policy with imageDigest := none, imageReference := none, signatureKeyIds := [] }

/-- What is in force of the policy: an audit verifier does not look at the workload. -/
def GcpConfidentialSpaceVerifier.inForce (V : GcpConfidentialSpaceVerifier) :
    GcpConfidentialSpacePolicy :=
  if V.enforceWorkloadIdentity then V.policy else V.policy.withoutWorkload

namespace AttestedTls

/-- The backends that a program was compiled with. -/
structure Features where
  mock : Bool
  sevSnp : Bool
  gcpConfidentialSpace : Bool
deriving DecidableEq

/-- What the backends run on. -/
structure Environment where
  mock : Mock.MockLibraries
  certs : CertLibraries
  kds : SevSnp.Kds
  urls : UrlParser
  jwt : JwtLibrary
  wellKnown : Text → Except AttestError Text
  jwks : JwksProvider
  clock : Option ℕ

variable {x509 : X509Parser} {sha384 : Bytes → ByteArr 48} {certDer : Bytes}

/-- The certificate embeds `evidence`, and `r` binds its key and the expected configuration. -/
def Attests (x509 : X509Parser) (sha384 : Bytes → ByteArr 48) (configHash : Option (ByteArr 32))
    (certDer : Bytes) (evidence : Evidence) (r : ByteArr 64) : Prop :=
  ∃ cert, x509 certDer = some cert ∧ Quote.Embeds cert evidence ∧
    Binds sha384 cert.publicKeyRaw configHash r

/-- Whatever the backend, an accepted certificate is for the key and configuration of the REPORTDATA
that the backend has returned. -/
theorem attests_of_verifyServerCert {V : AttestedCertVerifier}
    (h : V.verifyServerCert x509 sha384 certDer = .ok ()) :
    ∃ evidence expected r, Attests x509 sha384 V.expectedConfigHash certDer evidence r ∧
      V.verifier evidence (V.expectedAttestedData evidence.teeType expected) = .ok r := by
  obtain ⟨cert, evidence, r, hcert, hembeds, hverify, hkey, hconfig⟩ := verifyServerCert_eq_ok h
  refine ⟨evidence, _, r, ⟨cert, hcert, hembeds, hkey, fun ch hch => ?_⟩, hverify⟩
  rw [hconfig ch hch, List.drop_left' (sha384 cert.publicKeyRaw).2]

section

variable {expectedMeasurement : Option Bytes} {configHash : Option (ByteArr 32)}

theorem mock_accepted {M : Mock.MockLibraries}
    (h : AttestedCertVerifier.verifyServerCert x509 sha384
      ⟨Mock.verify M, expectedMeasurement, configHash⟩ certDer = .ok ()) :
    ∃ evidence r payload quote signature,
      Attests x509 sha384 configHash certDer evidence r ∧ evidence.teeType = .mock ∧
      Mock.parseEvidence M evidence = .ok (payload, quote, signature) ∧
      M.verifySignature payload signature = true ∧
      (∀ m, expectedMeasurement = some m → quote.measurement = m) ∧ quote.userData = r.1 := by
  obtain ⟨evidence, expected, r, hattests, hverify⟩ := attests_of_verifyServerCert h
  obtain ⟨payload, quote, signature, hparse, hsig, hmeas, hdata⟩ := Mock.verify_eq_ok_iff.mp hverify
  have htee := Mock.teeType_of_parseEvidence hparse
  rw [htee] at hmeas
  exact ⟨evidence, r, payload, quote, signature, hattests, htee, hparse, hsig, hmeas, hdata⟩

theorem sevSnp_accepted {L : CertLibraries} {kds : SevSnp.Kds}
    (h : AttestedCertVerifier.verifyServerCert x509 sha384
      ⟨SevSnp.verify L kds, expectedMeasurement, configHash⟩ certDer = .ok ()) :
    ∃ evidence r, Attests x509 sha384 configHash certDer evidence r ∧
      SevSnp.EvidenceAccepted L kds evidence expectedMeasurement ∧
      r.1 = Bytes.range evidence.data 0x50 0x90 := by
  obtain ⟨evidence, expected, r, hattests, hverify⟩ := attests_of_verifyServerCert h
  obtain ⟨haccepted, hdata⟩ := SevSnp.verify_eq_ok_iff.mp hverify
  rw [haccepted.teeType] at haccepted
  rw [Bytes.range_range (by omega), Nat.zero_add, Nat.zero_add] at hdata
  exact ⟨evidence, r, hattests, haccepted, hdata⟩

end

/-! ### Confidential Space -/

section

variable {P : UrlParser} {J : JwtLibrary} {wellKnown : Text → Except AttestError Text}
  {clock : Option ℕ} {V : GcpConfidentialSpaceVerifier}

/-- The claims are accepted exactly when they meet what is in force of the policy. -/
theorem verifyClaims_iff_policyMet {claims : ConfidentialSpaceClaims}
    {expected : Option (ByteArr 64)} {r : ByteArr 64} :
    V.verifyClaims clock claims expected = .ok r ↔
      ∃ now, clock = some now ∧ PolicyMet V.inForce now claims expected r := by
  have hflag : ∀ {b : Bool} {p : Prop}, (b = false ∨ p) ↔ (b = true → p) := by
    intro b p
    cases b <;> simp
  have hworkload : ∀ container, V.checkWorkload container = .ok () ↔
      ContainerMet V.inForce container := by
    intro container
    rw [GcpConfidentialSpaceVerifier.checkWorkload, GcpConfidentialSpaceVerifier.inForce]
    split_ifs
    · exact checkContainer_eq_ok_iff
    · exact iff_of_true rfl
        ⟨fun _ h => (by cases h), fun _ h => (by cases h), fun h => absurd rfl h⟩
  -- the other pins are the same in both
  have hsame : ∀ {α : Type} (f : GcpConfidentialSpacePolicy → α),
      f V.policy.withoutWorkload = f V.policy → f V.inForce = f V.policy := by
    intro α f hf
    rw [GcpConfidentialSpaceVerifier.inForce]
    split_ifs
    · rfl
    · exact hf
  rw [GcpConfidentialSpaceVerifier.verifyClaims]
  simp only [Except.bind_eq_ok_iff, exists_unit_iff, okOr_eq_ok_iff, ensure_eq_ok_iff,
    checkServiceAccount_eq_ok_iff, checkPinned_eq_ok_iff, checkReportdata_eq_ok_iff, hflag,
    hworkload, Option.bind_eq_some_iff, Except.ok.injEq]
  constructor
  · rintro ⟨now, hnow, hiat, hswname, hdbgstat, hsecboot, haccount, hproject, hzone, hinstance,
      container, hcontainer, hmet, r', hnonces, hreportdata, rfl⟩
    refine ⟨now, hnow, hiat, ?_, ?_, ?_, ?_, ?_, ?_, ?_, ⟨container, hcontainer, hmet⟩, hnonces,
      hreportdata⟩
    · rwa [hsame GcpConfidentialSpacePolicy.requireConfidentialSpace rfl]
    · rwa [hsame GcpConfidentialSpacePolicy.requireDebugDisabled rfl]
    · rwa [hsame GcpConfidentialSpacePolicy.requireSecureBoot rfl]
    · rwa [hsame GcpConfidentialSpacePolicy.serviceAccount rfl]
    · rwa [hsame GcpConfidentialSpacePolicy.projectId rfl]
    · rwa [hsame GcpConfidentialSpacePolicy.zone rfl]
    · rwa [hsame GcpConfidentialSpacePolicy.instanceName rfl]
  · rintro ⟨now, hnow, hmet⟩
    obtain ⟨container, hcontainer, hpins⟩ := hmet.container
    exact ⟨now, hnow, hmet.iat,
      hsame GcpConfidentialSpacePolicy.requireConfidentialSpace rfl ▸ hmet.swname,
      hsame GcpConfidentialSpacePolicy.requireDebugDisabled rfl ▸ hmet.dbgstat,
      hsame GcpConfidentialSpacePolicy.requireSecureBoot rfl ▸ hmet.secboot,
      hsame GcpConfidentialSpacePolicy.serviceAccount rfl ▸ hmet.serviceAccount,
      hsame GcpConfidentialSpacePolicy.projectId rfl ▸ hmet.projectId,
      hsame GcpConfidentialSpacePolicy.zone rfl ▸ hmet.zone,
      hsame GcpConfidentialSpacePolicy.instanceName rfl ▸ hmet.instanceName,
      container, hcontainer, hpins, r, hmet.nonces, hmet.reportdata, rfl⟩

/-- The evidence is a token that the verifier's key set vouches for, and the claims of this token
meet what is in force of the policy. -/
def TokenMet (J : JwtLibrary) (wellKnown : Text → Except AttestError Text) (clock : Option ℕ)
    (V : GcpConfidentialSpaceVerifier) (evidence : Evidence) (r : ByteArr 64) : Prop :=
  evidence.teeType = .gcpConfidentialSpace ∧ ∃ token claims now,
    Text.fromUtf8 evidence.data = some token ∧ V.decodeAndValidate J wellKnown token = .ok claims ∧
    clock = some now ∧ PolicyMet V.inForce now claims none r

theorem confidentialSpace_accepted {expectedMeasurement : Option Bytes}
    {configHash : Option (ByteArr 32)}
    (h : AttestedCertVerifier.verifyServerCert x509 sha384
      ⟨V.verify P J wellKnown clock, expectedMeasurement, configHash⟩ certDer = .ok ()) :
    ∃ evidence r, Attests x509 sha384 configHash certDer evidence r ∧
      TokenMet J wellKnown clock V evidence r := by
  obtain ⟨evidence, expected, r, hattests, hverify⟩ := attests_of_verifyServerCert h
  obtain ⟨htee, token, claims, checked, htoken, hclaims, -, hchecked⟩ :=
    GcpConfidentialSpaceVerifier.verify_eq_ok hverify
  obtain ⟨now, hnow, hmet⟩ := verifyClaims_iff_policyMet.mp hchecked
  exact ⟨evidence, r, hattests, htee, token, claims, now, htoken, hclaims, hnow,
    { hmet with reportdata := nofun }⟩

end

/-- A world with one endorsement key and one token. -/
def sevSnpEnvironment : Environment where
  mock := oneQuote
  certs := oneEndorsement
  kds := fun _ => .ok []
  urls := plainUrlParser
  jwt := oneToken
  wellKnown := fun _ => .ok []
  jwks := fun _ => .ok []
  clock := some 1700000000

end AttestedTls

end TrustedRelay
