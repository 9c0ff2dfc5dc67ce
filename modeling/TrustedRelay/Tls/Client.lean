import TrustedRelay.Attest.ConfidentialSpace
import TrustedRelay.Attest.Mock
import TrustedRelay.Attest.Quote
import TrustedRelay.Attest.SevSnp

/-!
# Attested TLS, the client side

The certificate verifier of the attested TLS client. The type of TEE comes from the certificate,
so the peer chooses what the backend is asked to expect; the backend is fixed by the client. In
`attestedTls_sound` the two are matched for every certificate: whatever the peer writes into it,
a certificate is accepted only with evidence of the client's backend, with the expected
measurement, for the certificate's own key and the expected configuration.
-/

namespace TrustedRelay

namespace AttestedTls

open Outcome (lift)

inductive TlsError
  | general (msg : Text)
deriving DecidableEq

structure AttestedCertVerifier where
  verifier : Verifier
  expectedMeasurement : Option Bytes
  expectedConfigHash : Option (ByteArr 32)

/-- The second part of the REPORTDATA: half of the configuration hash, or zeros. -/
def configPart : Option (ByteArr 32) → ByteArr 16
  | some ch => ⟨ch.1.take 16, by rw [List.length_take, ch.2]; rfl⟩
  | none => ⟨List.replicate 16 0, List.length_replicate⟩

variable (x509 : X509Parser) (sha384 : Bytes → ByteArr 48)

/-- The REPORTDATA that binds a TLS key and a configuration. -/
def expectedReportdata (spki : Bytes) (configHash : Option (ByteArr 32)) : ByteArr 64 :=
  ⟨(sha384 spki).1 ++ (configPart configHash).1, by
    rw [List.length_append, (sha384 spki).2, (configPart configHash).2]⟩

/-- What the backend is asked to expect: the type in the certificate decides. -/
def AttestedCertVerifier.expectedAttestedData (V : AttestedCertVerifier) (teeType : TeeType)
    (reportdata : ByteArr 64) : Option Bytes :=
  match teeType with
  | .gcpConfidentialSpace => if V.expectedConfigHash.isSome then some reportdata.1 else none
  | _ => V.expectedMeasurement

def checkTlsKey (actual expected : ByteArr 64) : Except TlsError Unit :=
  ensure (actual.1.take 48 = expected.1.take 48) (.general
    ("REPORTDATA does not match TLS public key hash — ".toList ++
      "the TLS channel may not terminate inside the TEE".toList))

def AttestedCertVerifier.checkConfig (V : AttestedCertVerifier) (actual expected : ByteArr 64) :
    Except TlsError Unit :=
  ensure (¬ (V.expectedConfigHash.isSome ∧ actual.1.drop 48 ≠ expected.1.drop 48)) (.general
    ("REPORTDATA config hash mismatch — relay upstream config is not as expected ".toList ++
      "(expected: ".toList ++ hexEncode (expected.1.drop 48) ++ ", actual: ".toList ++
      hexEncode (actual.1.drop 48) ++ ")".toList))

def AttestedCertVerifier.verifyServerCert (V : AttestedCertVerifier) (endEntity : Bytes) :
    Outcome TlsError Unit := do
  let evidence ← lift ((Quote.extractEvidenceFromCert x509 endEntity).mapError fun e =>
    .general ("failed to extract attestation evidence: ".toList ++ e.display))
  let spkiBytes ← lift ((Quote.extractSpkiFromCert x509 endEntity).mapError fun e =>
    .general ("failed to extract SPKI: ".toList ++ e.display))
  let expected := expectedReportdata sha384 spkiBytes V.expectedConfigHash
  let actual ← Outcome.mapErr
    (fun e => .general ("attestation verification failed: ".toList ++ AttestError.display e))
    (V.verifier evidence (V.expectedAttestedData evidence.teeType expected))
  lift (checkTlsKey actual expected)
  lift (V.checkConfig actual expected)

/-! ### Accepted certificates -/

variable {x509 sha384}

/-- The REPORTDATA is bound to a key, and to a configuration if one is expected. -/
def Binds (sha384 : Bytes → ByteArr 48) (spki : Bytes) (configHash : Option (ByteArr 32))
    (r : ByteArr 64) : Prop :=
  r.1.take 48 = (sha384 spki).1 ∧ ∀ ch, configHash = some ch → r.1.drop 48 = ch.1.take 16

theorem take_expectedReportdata (spki : Bytes) (configHash : Option (ByteArr 32)) :
    (expectedReportdata sha384 spki configHash).1.take 48 = (sha384 spki).1 :=
  List.take_left' (sha384 spki).2

theorem drop_expectedReportdata (spki : Bytes) (configHash : Option (ByteArr 32)) :
    (expectedReportdata sha384 spki configHash).1.drop 48 = (configPart configHash).1 :=
  List.drop_left' (sha384 spki).2

/-- The two comparisons of the verifier. -/
theorem checks_eq_ok_iff {V : AttestedCertVerifier} {spki : Bytes} {r : ByteArr 64} :
    checkTlsKey r (expectedReportdata sha384 spki V.expectedConfigHash) = .ok () ∧
        V.checkConfig r (expectedReportdata sha384 spki V.expectedConfigHash) = .ok () ↔
      Binds sha384 spki V.expectedConfigHash r := by
  rw [checkTlsKey, AttestedCertVerifier.checkConfig, ensure_eq_ok_iff, ensure_eq_ok_iff,
    take_expectedReportdata, drop_expectedReportdata, Binds]
  cases V.expectedConfigHash with
  | none => simp
  | some ch => simp [configPart]

/-- A certificate is accepted exactly when its evidence and key can be read and the backend
vouches for a REPORTDATA that is bound to the key and the expected configuration. -/
theorem verifyServerCert_eq_ok_iff {V : AttestedCertVerifier} {certDer : Bytes} :
    V.verifyServerCert x509 sha384 certDer = .ok () ↔
      ∃ evidence spki r, Quote.extractEvidenceFromCert x509 certDer = .ok evidence ∧
        Quote.extractSpkiFromCert x509 certDer = .ok spki ∧
        V.verifier evidence (V.expectedAttestedData evidence.teeType
          (expectedReportdata sha384 spki V.expectedConfigHash)) = .ok r ∧
        Binds sha384 spki V.expectedConfigHash r := by
  simp only [AttestedCertVerifier.verifyServerCert, Except.bind_eq_ok_iff, exists_unit_iff,
    Outcome.lift_eq_ok_iff, Except.mapError_eq_ok_iff, Outcome.mapErr_eq_ok_iff, checks_eq_ok_iff,
    exists_and_left]

/-- An accepted certificate embeds evidence that the backend accepted, with REPORTDATA for the
certificate's key. If a configuration is expected, it is the one in the REPORTDATA. -/
theorem verifyServerCert_eq_ok {V : AttestedCertVerifier} {certDer : Bytes}
    (h : V.verifyServerCert x509 sha384 certDer = .ok ()) :
    ∃ cert evidence r, x509 certDer = some cert ∧ Quote.Embeds cert evidence ∧
      V.verifier evidence (V.expectedAttestedData evidence.teeType
        (expectedReportdata sha384 cert.publicKeyRaw V.expectedConfigHash)) = .ok r ∧
      r.1.take 48 = (sha384 cert.publicKeyRaw).1 ∧
      ∀ ch, V.expectedConfigHash = some ch →
        r.1 = (sha384 cert.publicKeyRaw).1 ++ ch.1.take 16 := by
  obtain ⟨evidence, spki, r, hevidence, hspki, hr, hkey, hconfig⟩ := verifyServerCert_eq_ok_iff.mp h
  obtain ⟨cert, hcert, hembeds⟩ := Quote.embeds_of_extract hevidence
  obtain ⟨cert', hcert', hspki⟩ := Except.bind_eq_ok_iff.mp hspki
  obtain rfl : cert = cert' := Option.some.inj (hcert.symm.trans (okOr_eq_ok_iff.mp hcert'))
  obtain rfl := Except.ok.inj hspki
  refine ⟨cert, evidence, r, hcert, hembeds, hr, hkey, fun ch hch => ?_⟩
  rw [← List.take_append_drop 48 r.1, hkey, hconfig ch hch]

/-- Soundness for the three backends, for every certificate: accepted evidence is of the
backend's type and passed its signature check, it carries the expected measurement (or, for
Confidential Space, the expected nonces), and its REPORTDATA is made from the certificate's key
and the expected configuration hash. -/
theorem attestedTls_sound (x509 : X509Parser) (sha384 : Bytes → ByteArr 48) (m : Bytes)
    (h : ByteArr 32) (certDer : Bytes) :
    (∀ M : Mock.MockLibraries,
      AttestedCertVerifier.verifyServerCert x509 sha384 ⟨Mock.verify M, some m, some h⟩ certDer =
        .ok () →
      ∃ cert evidence payload quote signature, x509 certDer = some cert ∧
        Quote.Embeds cert evidence ∧ evidence.teeType = .mock ∧
        Mock.parseEvidence M evidence = .ok (payload, quote, signature) ∧
        M.verifySignature payload signature = true ∧ quote.measurement = m ∧
        quote.userData = (sha384 cert.publicKeyRaw).1 ++ h.1.take 16) ∧
    (∀ (L : CertLibraries) (kds : SevSnp.Kds),
      AttestedCertVerifier.verifyServerCert x509 sha384 ⟨SevSnp.verify L kds, some m, some h⟩
        certDer = .ok () →
      ∃ cert evidence, x509 certDer = some cert ∧ Quote.Embeds cert evidence ∧
        evidence.teeType = .sevSnp ∧ SevSnp.EvidenceAccepted L kds evidence (some m) ∧
        Bytes.range evidence.data 0x90 0xC0 = m ∧
        Bytes.range evidence.data 0x50 0x90 = (sha384 cert.publicKeyRaw).1 ++ h.1.take 16) ∧
    (∀ (P : UrlParser) (J : JwtLibrary) (wellKnown : Text → Except AttestError Text)
      (clock : Option ℕ) (V : GcpConfidentialSpaceVerifier) (expectedMeasurement : Option Bytes),
      AttestedCertVerifier.verifyServerCert x509 sha384
        ⟨V.verify P J wellKnown clock, expectedMeasurement, some h⟩ certDer = .ok () →
      ∃ cert evidence token claims r, x509 certDer = some cert ∧ Quote.Embeds cert evidence ∧
        evidence.teeType = .gcpConfidentialSpace ∧ Text.fromUtf8 evidence.data = some token ∧
        V.decodeAndValidate J wellKnown token = .ok claims ∧
        nonceReportdata claims.eatNonce = .ok r ∧
        r.1 = (sha384 cert.publicKeyRaw).1 ++ h.1.take 16) := by
  refine ⟨fun M haccept => ?_, fun L kds haccept => ?_,
    fun P J wellKnown clock V expectedMeasurement haccept => ?_⟩
  · obtain ⟨cert, evidence, r, hcert, hembeds, hverify, -, hr⟩ := verifyServerCert_eq_ok haccept
    obtain ⟨payload, quote, signature, hparse, hsig, hmeas, hdata⟩ :=
      Mock.verify_eq_ok_iff.mp hverify
    have htee := Mock.teeType_of_parseEvidence hparse
    -- the backend has fixed the type, so the client asked for the measurement
    rw [htee] at hmeas
    exact ⟨cert, evidence, payload, quote, signature, hcert, hembeds, htee, hparse, hsig,
      hmeas m rfl, hdata.trans (hr h rfl)⟩
  · obtain ⟨cert, evidence, r, hcert, hembeds, hverify, -, hr⟩ := verifyServerCert_eq_ok haccept
    obtain ⟨haccepted, hdata⟩ := SevSnp.verify_eq_ok_iff.mp hverify
    have htee := haccepted.teeType
    rw [htee] at haccepted
    have hmeas := haccepted.report.measurement m rfl
    rw [Bytes.range_range (by omega), Nat.zero_add, Nat.zero_add] at hmeas hdata
    exact ⟨cert, evidence, hcert, hembeds, htee, haccepted, hmeas, hdata.symm.trans (hr h rfl)⟩
  · obtain ⟨cert, evidence, r, hcert, hembeds, hverify, -, hr⟩ := verifyServerCert_eq_ok haccept
    obtain ⟨htee, token, claims, expected, htoken, hclaims, -, hchecked⟩ :=
      GcpConfidentialSpaceVerifier.verify_eq_ok hverify
    obtain ⟨hnonces, -⟩ := GcpConfidentialSpaceVerifier.nonces_of_verifyClaims hchecked
    exact ⟨cert, evidence, token, claims, r, hcert, hembeds, htee, htoken, hclaims, hnonces,
      hr h rfl⟩

/-- The SHA-384 digest of the empty string. -/
def emptySha384 : Bytes → ByteArr 48 := fun _ =>
  ⟨[0x38, 0xb0, 0x60, 0xa7, 0x51, 0xac, 0x96, 0x38, 0x4c, 0xd9, 0x32, 0x7e, 0xb1, 0xb1, 0xe3, 0x6a,
    0x21, 0xfd, 0xb7, 0x11, 0x14, 0xbe, 0x07, 0x43, 0x4c, 0x0c, 0xc7, 0xbf, 0x63, 0xf6, 0xe1, 0xda,
    0x27, 0x4e, 0xde, 0xbf, 0xe7, 0x6f, 0x65, 0xfb, 0xd5, 0x1a, 0xd2, 0xf1, 0x48, 0x98, 0xb9, 0x5b],
    by decide⟩

def zeroHash : ByteArr 32 := ⟨List.replicate 32 0, by decide⟩

/-- A certificate with an empty key that embeds evidence. -/
def certWith (teeTypeByte : UInt8) (data : Bytes) : X509Certificate where
  extensions := [⟨Quote.oidTeeTypeStr, [teeTypeByte]⟩, ⟨Quote.oidEvidenceBlobStr, data⟩]
  publicKeyRaw := []
  subjectPublicKey := []
  signatureAlgorithm := ⟨Endorsement.oidPkcs1RsassaPss, some []⟩
  signatureValue := []
  isValid := true

def boundReportdata : ByteArr 64 := expectedReportdata emptySha384 [] (some zeroHash)

/-- A mock key that signs one quote. -/
def oneQuote : Mock.MockLibraries where
  parseQuote b :=
    if b = Mock.MockQuote.toJson ⟨zeroHash.1, boundReportdata.1⟩ then
      some ⟨zeroHash.1, boundReportdata.1⟩
    else none
  sign _ := ⟨List.replicate 64 1, by decide⟩
  verifySignature payload signature :=
    payload = Mock.MockQuote.toJson ⟨zeroHash.1, boundReportdata.1⟩ ∧
      signature.1 = List.replicate 64 1

/-- A world with one endorsement key, under the pinned Milan root. -/
def oneEndorsement : CertLibraries where
  x509 _ := some (certWith 2 [])
  header b := some ⟨b, some 0⟩
  hashAlgorithmOid _ := some Endorsement.oidNistHashSha384
  rsaPssVerify alg _ _ _ := alg = .sha384
  pemParse _ := none
  pemParseMany _ := some [[0], [1]]
  TrustAnchor := Bytes
  EndEntityCert := Bytes
  anchorFromTrustedCert := some
  endEntityCert := some
  verifyForUsage _ anchor := anchor = [0]
  sha256 _ := Endorsement.milanArkDigest
  Signature := Bytes
  VerifyingKey := Bytes
  signatureFromSlice := some
  verifyingKeyFromSec1 := some
  p384Verify _ signedData _ := signedData.length = 0x2A0

/-- A report with an all-zero measurement. -/
def zeroReport : Bytes :=
  List.replicate 0x50 0 ++ boundReportdata.1 ++ List.replicate 0x210 0 ++ 1 :: List.replicate 0x1FF 0

/-- Tokens with one key, that all carry the same claims. -/
def oneToken : JwtLibrary where
  DecodingKey := Bytes
  decodeHeader _ := some ⟨.rs256, some "key".toList⟩
  fromRsaComponents _ _ := some []
  decode _ _ _ := some { pinnedClaims with eatNonce := .many (reportdataNonces boundReportdata) }

def tokenVerifier : GcpConfidentialSpaceVerifier :=
  ⟨pinnedPolicy, fun _ => .ok [⟨"RSA".toList, "key".toList, [], [], none⟩], true⟩

/-- One certificate for each backend, all of them accepted. -/
theorem attestedTls_accepts :
    (∃ cert evidence, Quote.Embeds cert evidence ∧ evidence.teeType = .mock ∧
      cert = certWith 0 (Mock.signMockQuote oneQuote zeroHash boundReportdata).data) ∧
    (∃ cert evidence, Quote.Embeds cert evidence ∧ evidence.teeType = .sevSnp ∧
      cert = certWith 2 zeroReport) ∧
    ∃ cert evidence, Quote.Embeds cert evidence ∧ evidence.teeType = .gcpConfidentialSpace ∧
      cert = certWith 3 (Text.asBytes "token".toList) := by
  obtain ⟨cert, evidence, -, -, -, hcert, hembeds, htee, -⟩ :=
    (attestedTls_sound (fun _ => some (certWith 0
      (Mock.signMockQuote oneQuote zeroHash boundReportdata).data)) emptySha384 zeroHash.1 zeroHash
      []).1 oneQuote (by decide +kernel)
  obtain ⟨cert', evidence', hcert', hembeds', htee', -⟩ :=
    (attestedTls_sound (fun _ => some (certWith 2 zeroReport)) emptySha384 (List.replicate 48 0)
      zeroHash []).2.1 oneEndorsement (fun _ => .ok []) (by decide +kernel)
  obtain ⟨cert'', evidence'', -, -, -, hcert'', hembeds'', htee'', -⟩ :=
    (attestedTls_sound (fun _ => some (certWith 3 (Text.asBytes "token".toList))) emptySha384 []
      zeroHash []).2.2 plainUrlParser oneToken (fun _ => .ok []) (some 1700000000) tokenVerifier none
      (by decide +kernel)
  exact ⟨⟨cert, evidence, hembeds, htee, (Option.some.inj hcert).symm⟩,
    ⟨cert', evidence', hembeds', htee', (Option.some.inj hcert').symm⟩,
    cert'', evidence'', hembeds'', htee'', (Option.some.inj hcert'').symm⟩

end AttestedTls

end TrustedRelay
