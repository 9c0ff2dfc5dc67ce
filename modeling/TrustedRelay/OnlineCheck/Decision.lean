import TrustedRelay.Tls.Client

/-!
# The checker's decision

`trusted-relay-online-check` verifies the certificate of a live relay with the same backends as
the attested TLS client, in code of its own. In strict mode it pins what the client pins, in
audit mode it pins nothing. `decisions_agree_iff` compares the two programs, certificate by
certificate: they agree whatever the backend answers, except for Confidential Space without a
pinned configuration, where the checker still passes on a REPORTDATA with zeros (or with a hash
that audit mode is not to enforce) and the client passes nothing. With the real Confidential
Space backend the checker then rejects every relay that attests another configuration:
`audit_agree_iff`.
-/

namespace TrustedRelay

namespace OnlineCheck

open Outcome (lift)
open AttestedTls (AttestedCertVerifier Binds configPart)

inductive Mode
  /-- Verify real evidence and the binding of the TLS key. -/
  | audit
  /-- Verify also the workload identity and the configuration hash. -/
  | strict
deriving DecidableEq, Repr

inductive Backend
  | sevSnp
  | gcpConfidentialSpace
deriving DecidableEq, Repr

def Backend.teeType : Backend → TeeType
  | .sevSnp => .sevSnp
  | .gcpConfidentialSpace => .gcpConfidentialSpace

/-- What the command line asks for. -/
structure Pins where
  backend : Backend
  mode : Mode
  expectedMeasurement : Option (ByteArr 48)
  expectedConfigHash : Option (ByteArr 32)

def expectedReportdata (certSpkiHash : ByteArr 48) (expectedConfigHash : Option (ByteArr 32)) :
    ByteArr 64 :=
  ⟨certSpkiHash.1 ++ (configPart expectedConfigHash).1, by
    rw [List.length_append, certSpkiHash.2, (configPart expectedConfigHash).2]⟩

/-- What the backend is asked to expect. -/
def Pins.expectedAttestationData (p : Pins) (reportdata : ByteArr 64) : Option Bytes :=
  match p.backend with
  | .sevSnp =>
    match p.mode with
    | .audit => none
    | .strict => p.expectedMeasurement.map (·.1)
  | .gcpConfidentialSpace => some reportdata.1

def Pins.configHashForVerify (p : Pins) : Option (ByteArr 32) :=
  match p.mode with
  | .audit => none
  | .strict => p.expectedConfigHash

/-- The configuration part of REPORTDATA, if a configuration is expected. -/
def verifyConfigHash (actual : ByteArr 64) : Option (ByteArr 32) → Except Text Unit
  | none => .ok ()
  | some configHash =>
    ensure (actual.1.drop 48 = configHash.1.take 16)
      ("REPORTDATA config hash mismatch: expected ".toList ++ hexEncode (configHash.1.take 16) ++
        ", actual ".toList ++ hexEncode (actual.1.drop 48))

def verifyReportdata (actual : ByteArr 64) (certSpkiHash : ByteArr 48)
    (expectedConfigHash : Option (ByteArr 32)) : Except Text Unit := do
  ensure (actual.1.take 48 = certSpkiHash.1)
    ("REPORTDATA SPKI binding mismatch: expected ".toList ++ hexEncode certSpkiHash.1 ++
      ", actual ".toList ++ hexEncode (actual.1.take 48))
  verifyConfigHash actual expectedConfigHash

/-- Strict mode needs its pins; the workload identity of Confidential Space is an image digest or
a signing key. -/
def Pins.checkStrict (p : Pins) (imageDigest : Option Text) (signatureKeyIds : List Text) :
    Except Text Unit :=
  match p.mode with
  | .audit => .ok ()
  | .strict => do
    ensure (p.backend = .sevSnp → p.expectedMeasurement.isSome)
      "strict SEV-SNP mode requires --expected-measurement".toList
    ensure (p.backend = .gcpConfidentialSpace → imageDigest.isSome ∨ signatureKeyIds ≠ [])
      ("strict GCP Confidential Space mode requires ".toList ++
        "--gcp-cs-image-digest or --gcp-cs-signature-key-id".toList)
    ensure p.expectedConfigHash.isSome
      "strict mode requires --expected-config-hash or enough config inputs to compute it".toList

variable (x509 : X509Parser) (sha384 : Bytes → ByteArr 48)

/-- The decision of `main` on a fetched certificate. -/
def decision (p : Pins) (verifier : Verifier) (certDer : Bytes) : Outcome Text Unit := do
  let evidence ← lift ((Quote.extractEvidenceFromCert x509 certDer).mapError
    fun e => "certificate lacks evidence: ".toList ++ e.display)
  lift (ensure (evidence.teeType = p.backend.teeType)
    ("expected ".toList ++ p.backend.teeType.debug ++ " evidence, got ".toList ++
      evidence.teeType.debug))
  let spki ← lift ((Quote.extractSpkiFromCert x509 certDer).mapError
    fun e => "failed to extract cert SPKI: ".toList ++ e.display)
  let certSpkiHash := sha384 spki
  let reportdata ← Outcome.mapErr
    (fun e => "attestation evidence verification failed: ".toList ++ AttestError.display e)
    (verifier evidence
      (p.expectedAttestationData (expectedReportdata certSpkiHash p.expectedConfigHash)))
  lift (verifyReportdata reportdata certSpkiHash p.configHashForVerify)

/-- The client with the corresponding pins: a measurement for SEV-SNP in strict mode, a
configuration in strict mode. -/
def Pins.client (p : Pins) (verifier : Verifier) : AttestedCertVerifier where
  verifier := verifier
  expectedMeasurement :=
    if p.backend = .sevSnp ∧ p.mode = .strict then p.expectedMeasurement.map (·.1) else none
  expectedConfigHash := p.configHashForVerify

/-- The two programs accept or reject together. -/
def Agree (p : Pins) (verifier : Verifier) (certDer : Bytes) : Prop :=
  decision x509 sha384 p verifier certDer = .ok () ↔
    (p.client verifier).verifyServerCert x509 sha384 certDer = .ok ()

/-! ### What is accepted -/

variable {x509 sha384}

theorem verifyReportdata_eq_ok_iff {r : ByteArr 64} {spki : Bytes} {h : Option (ByteArr 32)} :
    verifyReportdata r (sha384 spki) h = .ok () ↔ Binds sha384 spki h r := by
  rw [verifyReportdata, Except.unit_bind_eq_ok_iff, ensure_eq_ok_iff, Binds]
  cases h with
  | none => simp [verifyConfigHash]
  | some ch => simp [verifyConfigHash]

theorem extractSpki_of_extractEvidence {certDer : Bytes} {evidence : Evidence}
    (h : Quote.extractEvidenceFromCert x509 certDer = .ok evidence) :
    ∃ spki, Quote.extractSpkiFromCert x509 certDer = .ok spki := by
  obtain ⟨cert, hcert, -⟩ := Except.bind_eq_ok_iff.mp h
  exact ⟨cert.publicKeyRaw, Except.bind_eq_ok_iff.mpr ⟨cert, hcert, rfl⟩⟩

/-- What the client asks the backend to expect. -/
def Pins.clientExpected (p : Pins) (sha384 : Bytes → ByteArr 48) (spki : Bytes) : Option Bytes :=
  (p.client fun _ _ => .error .panic).expectedAttestedData p.backend.teeType
    (AttestedTls.expectedReportdata sha384 spki p.configHashForVerify)

section Certificate

variable {p : Pins} {certDer spki : Bytes} {evidence : Evidence}
  (hevidence : Quote.extractEvidenceFromCert x509 certDer = .ok evidence)
  (hspki : Quote.extractSpkiFromCert x509 certDer = .ok spki)
  (htee : evidence.teeType = p.backend.teeType)

include hevidence hspki htee

theorem decision_eq_ok_iff {verifier : Verifier} :
    decision x509 sha384 p verifier certDer = .ok () ↔
      ∃ r, verifier evidence (p.expectedAttestationData
          (expectedReportdata (sha384 spki) p.expectedConfigHash)) = .ok r ∧
        Binds sha384 spki p.configHashForVerify r := by
  simp only [decision, Except.bind_eq_ok_iff, exists_unit_iff, Outcome.lift_eq_ok_iff,
    Except.mapError_eq_ok_iff, Outcome.mapErr_eq_ok_iff, verifyReportdata_eq_ok_iff, hevidence,
    hspki, ensure_eq_ok_iff, Except.ok.injEq, exists_eq_left', htee, true_and]

theorem client_eq_ok_iff {verifier : Verifier} :
    (p.client verifier).verifyServerCert x509 sha384 certDer = .ok () ↔
      ∃ r, verifier evidence (p.clientExpected sha384 spki) = .ok r ∧
        Binds sha384 spki p.configHashForVerify r := by
  rw [AttestedTls.verifyServerCert_eq_ok_iff]
  simp only [hevidence, hspki, Except.ok.injEq, exists_and_left, exists_eq_left', htee]
  rfl

end Certificate

/-! ### Agreement -/

/-- Where the client passes on as much as the checker, it passes on the same. -/
theorem clientExpected_eq {p : Pins} {spki : Bytes}
    (h : p.backend = .gcpConfidentialSpace → p.configHashForVerify.isSome = true) :
    p.clientExpected sha384 spki =
      p.expectedAttestationData (expectedReportdata (sha384 spki) p.expectedConfigHash) := by
  cases hbackend : p.backend with
  | sevSnp =>
    cases hmode : p.mode <;>
      simp [Pins.clientExpected, AttestedCertVerifier.expectedAttestedData, Backend.teeType,
        Pins.client, Pins.expectedAttestationData, hbackend, hmode]
  | gcpConfidentialSpace =>
    have hsome := h hbackend
    cases hmode : p.mode with
    | audit => simp [Pins.configHashForVerify, hmode] at hsome
    | strict =>
      simp only [Pins.configHashForVerify, hmode] at hsome
      simp [Pins.clientExpected, AttestedCertVerifier.expectedAttestedData, Backend.teeType,
        Pins.client, Pins.expectedAttestationData, Pins.configHashForVerify, hbackend, hmode, hsome,
        expectedReportdata, AttestedTls.expectedReportdata]

theorem clientExpected_eq_none {p : Pins} {spki : Bytes}
    (hbackend : p.backend = .gcpConfidentialSpace)
    (h : p.configHashForVerify = none) : p.clientExpected sha384 spki = none := by
  simp [Pins.clientExpected, AttestedCertVerifier.expectedAttestedData, Backend.teeType, Pins.client,
    hbackend, h]

/-- A backend that vouches for a REPORTDATA, unless it is asked to expect something. -/
def unaskedVerifier (r : ByteArr 64) : Verifier := fun _ expected =>
  match expected with
  | none => .ok r
  | some _ => .error (.err .reportDataMismatch)

/-- For Confidential Space without a pinned configuration, the real backend makes the two programs
agree exactly when no token that the client accepts is for another configuration than the one
that the checker passes on. -/
theorem audit_agree_iff {p : Pins} {certDer spki : Bytes} {evidence : Evidence}
    (hevidence : Quote.extractEvidenceFromCert x509 certDer = .ok evidence)
    (hspki : Quote.extractSpkiFromCert x509 certDer = .ok spki)
    (htee : evidence.teeType = p.backend.teeType) (hbackend : p.backend = .gcpConfidentialSpace)
    (hnone : p.configHashForVerify = none) (P : UrlParser) (J : JwtLibrary)
    (wellKnown : Text → Except AttestError Text) (clock : Option ℕ)
    (V : GcpConfidentialSpaceVerifier) :
    Agree x509 sha384 p (V.verify P J wellKnown clock) certDer ↔
      ∀ r, V.verify P J wellKnown clock evidence none = .ok r → r.1.take 48 = (sha384 spki).1 →
        r.1.drop 48 = (configPart p.expectedConfigHash).1 := by
  -- the checker asks the backend for all of the report data, the client for none of it
  have hasked : p.expectedAttestationData (expectedReportdata (sha384 spki) p.expectedConfigHash) =
      some (expectedReportdata (sha384 spki) p.expectedConfigHash).1 := by
    simp [Pins.expectedAttestationData, hbackend]
  have htake : (expectedReportdata (sha384 spki) p.expectedConfigHash).1.take 48 = (sha384 spki).1 :=
    List.take_left' (sha384 spki).2
  have hdrop : (expectedReportdata (sha384 spki) p.expectedConfigHash).1.drop 48 =
      (configPart p.expectedConfigHash).1 := List.drop_left' (sha384 spki).2
  rw [Agree, decision_eq_ok_iff hevidence hspki htee, client_eq_ok_iff hevidence hspki htee,
    clientExpected_eq_none hbackend hnone, hasked]
  simp only [GcpConfidentialSpaceVerifier.verify_some_iff]
  constructor
  · intro hagree r hr hkey
    obtain ⟨r', ⟨hr', heq⟩, -⟩ := hagree.mpr ⟨r, hr, hkey, by simp [hnone]⟩
    obtain rfl : r = r' := Except.ok.inj (hr.symm.trans hr')
    rw [heq, hdrop]
  · intro hall
    constructor
    · rintro ⟨r, ⟨hr, -⟩, hbinds⟩
      exact ⟨r, hr, hbinds⟩
    · rintro ⟨r, hr, hbinds⟩
      refine ⟨r, ⟨hr, Subtype.ext ?_⟩, hbinds⟩
      rw [← List.take_append_drop 48 r.1, hbinds.1, hall r hr hbinds.1, ← hdrop]
      nth_rewrite 1 [← htake]
      exact List.take_append_drop 48 _

/-- For a certificate of the chosen type, the checker and the client with the corresponding pins
agree with every backend exactly when the type is not Confidential Space without a pinned
configuration; and there the real backend separates them by the tokens of other configurations. -/
theorem decisions_agree_iff (x509 : X509Parser) (sha384 : Bytes → ByteArr 48) (p : Pins)
    (certDer : Bytes) (evidence : Evidence)
    (hevidence : Quote.extractEvidenceFromCert x509 certDer = .ok evidence)
    (htee : evidence.teeType = p.backend.teeType) :
    ((∀ verifier, Agree x509 sha384 p verifier certDer) ↔
        (p.backend = .gcpConfidentialSpace → p.configHashForVerify.isSome = true)) ∧
      ∀ spki P J wellKnown clock (V : GcpConfidentialSpaceVerifier),
        Quote.extractSpkiFromCert x509 certDer = .ok spki → p.backend = .gcpConfidentialSpace →
        p.configHashForVerify = none →
          (Agree x509 sha384 p (V.verify P J wellKnown clock) certDer ↔
            ∀ r, V.verify P J wellKnown clock evidence none = .ok r →
              r.1.take 48 = (sha384 spki).1 →
                r.1.drop 48 = (configPart p.expectedConfigHash).1) := by
  obtain ⟨spki, hspki⟩ := extractSpki_of_extractEvidence hevidence
  refine ⟨⟨fun hagree hbackend => ?_, fun hpinned verifier => ?_⟩,
    fun spki' P J wellKnown clock V hspki' hbackend hnone =>
      audit_agree_iff hevidence hspki' htee hbackend hnone P J wellKnown clock V⟩
  · by_contra hunpinned
    have hnone : p.configHashForVerify = none := by simpa using hunpinned
    -- the client asks for nothing and accepts, the checker asks and is refused
    have hclient :
        (p.client (unaskedVerifier (expectedReportdata (sha384 spki) none))).verifyServerCert
        x509 sha384 certDer = .ok () := by
      rw [client_eq_ok_iff hevidence hspki htee, clientExpected_eq_none hbackend hnone]
      exact ⟨_, rfl, List.take_left' (sha384 spki).2, by simp [hnone]⟩
    obtain ⟨r, hr, -⟩ := (decision_eq_ok_iff hevidence hspki htee).mp ((hagree _).mpr hclient)
    simp [Pins.expectedAttestationData, hbackend, unaskedVerifier] at hr
  · rw [Agree, decision_eq_ok_iff hevidence hspki htee, client_eq_ok_iff hevidence hspki htee,
      clientExpected_eq hpinned]

open AttestedTls (certWith emptySha384 oneToken tokenVerifier zeroHash zeroReport)

/-- Audit mode for Confidential Space, without any pin. -/
def auditGcp : Pins := ⟨.gcpConfidentialSpace, .audit, none, none⟩

/-- Tokens for the configuration that hashes to ones. -/
def configuredToken : JwtLibrary where
  DecodingKey := Bytes
  decodeHeader := oneToken.decodeHeader
  fromRsaComponents _ _ := some []
  decode _ _ _ := some { pinnedClaims with
    eatNonce := .many (reportdataNonces (AttestedTls.expectedReportdata emptySha384 []
      (some (ByteArr.fill 32 1)))) }

/-- The backend of audit mode. -/
def auditVerifier : Verifier :=
  GcpConfidentialSpaceVerifier.verify plainUrlParser configuredToken (fun _ => .ok [])
    (some 1700000000) { tokenVerifier with enforceWorkloadIdentity := false }

/-- The client accepts the relay in audit mode, the checker rejects it for its configuration. -/
theorem auditGcp_disagree :
    Quote.extractEvidenceFromCert (fun _ => some (certWith 3 (Text.asBytes "token".toList))) [] =
        .ok ⟨auditGcp.backend.teeType, Text.asBytes "token".toList⟩ ∧
      (auditGcp.client auditVerifier).verifyServerCert
        (fun _ => some (certWith 3 (Text.asBytes "token".toList))) emptySha384 [] = .ok () ∧
      decision (fun _ => some (certWith 3 (Text.asBytes "token".toList))) emptySha384 auditGcp
        auditVerifier [] ≠ .ok () := by
  refine ⟨by decide, by decide +kernel, by decide +kernel⟩

/-- Strict mode for SEV-SNP. -/
def strictSnp : Pins := ⟨.sevSnp, .strict, some ⟨List.replicate 48 0, by decide⟩, some zeroHash⟩

theorem strictSnp_agree :
    Agree (fun _ => some (certWith 2 zeroReport)) emptySha384 strictSnp
      (fun _ _ => .ok AttestedTls.boundReportdata) [] :=
  (decisions_agree_iff (fun _ => some (certWith 2 zeroReport)) emptySha384 strictSnp []
    ⟨.sevSnp, zeroReport⟩ (by decide +kernel) rfl).1.mpr nofun _

end OnlineCheck

end TrustedRelay
