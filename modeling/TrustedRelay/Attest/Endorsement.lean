import TrustedRelay.Attest.Libraries
import TrustedRelay.Attest.Types
import TrustedRelay.Rust.Usize

/-!
# Endorsement certificates

The checks on the certificate of the key that signs SNP reports: the chain from it through the
intermediate to a pinned root, its validity, and its public key. Each function has one lemma that
says when it succeeds, in terms of the libraries; `ChainsToPinnedArk` collects the chain's.
-/

namespace TrustedRelay

namespace Endorsement

open Outcome (lift)

variable (L : CertLibraries)

/-! ### Signatures over certificates -/

/-- `OID_PKCS1_RSASSAPSS`. -/
def oidPkcs1RsassaPss : Text := "1.2.840.113549.1.1.10".toList

/-- `OID_NIST_HASH_SHA256`. -/
def oidNistHashSha256 : Text := "2.16.840.1.101.3.4.2.1".toList

/-- `OID_NIST_HASH_SHA384`. -/
def oidNistHashSha384 : Text := "2.16.840.1.101.3.4.2.2".toList

/-- `OID_NIST_HASH_SHA512`. -/
def oidNistHashSha512 : Text := "2.16.840.1.101.3.4.2.3".toList

/-- The verification algorithm for a digest. -/
def rsaPssOfHash (hash : Text) : Except AttestError RsaPss :=
  if hash = oidNistHashSha256 then .ok .sha256
  else if hash = oidNistHashSha384 then .ok .sha384
  else if hash = oidNistHashSha512 then .ok .sha512
  else .error (.verificationFailed ("unsupported RSA-PSS hash algorithm: ".toList ++ hash))

/-- The verification algorithm of a certificate: RSASSA-PSS, with the digest of its parameters. -/
def rsaPssVerificationAlg (alg : AlgorithmIdentifier) : Except AttestError RsaPss := do
  ensure (alg.algorithm = oidPkcs1RsassaPss) (.verificationFailed
    ("certificate uses unsupported signature algorithm: ".toList ++ alg.algorithm))
  let params ← okOr alg.parameters
    (.verificationFailed "RSA-PSS signature is missing parameters".toList)
  let hash ← okOr (L.hashAlgorithmOid params)
    (.verificationFailed "invalid RSA-PSS signature parameters".toList)
  rsaPssOfHash hash

/-- `b.len()`. -/
def usizeLen (b : Bytes) : UInt64 := UInt64.ofNat b.length

/-- The end of `tbs_certificate_der`: the first element of the body, by the length in its header. -/
def firstElementDer (checks : Bool) (certInner : Bytes) : Outcome AttestError Bytes := do
  let tbsHeader ← lift (okOr (L.header certInner)
    (.verificationFailed "failed to parse TBS DER header: ".toList))
  let tbsContentLen ← lift (okOr tbsHeader.length
    (.verificationFailed "invalid TBS DER length: ".toList))
  let tbsHeaderLen ← usizeSub checks certInner.length tbsHeader.rest.length
  let totalTbsLen ← usizeAdd checks tbsHeaderLen tbsContentLen.toNat
  lift (okOr (Bytes.get certInner 0 totalTbsLen)
    (.verificationFailed "TBS DER extends past certificate".toList))

/-- The bytes of the TBS certificate: `tbs_certificate_der` in a build with or without overflow
checks. -/
def tbsCertificateDerIn (checks : Bool) (certDer : Bytes) : Outcome AttestError Bytes := do
  let outer ← lift (okOr (L.header certDer)
    (.verificationFailed "failed to parse certificate DER header: ".toList))
  let outerLen ← lift (okOr outer.length
    (.verificationFailed "invalid certificate DER length: ".toList))
  let start ← usizeSub checks certDer.length outerLen.toNat
  let certInner ← lift (okOr (Bytes.get certDer start certDer.length)
    (.verificationFailed "certificate DER length is inconsistent".toList))
  firstElementDer L checks certInner

/-- The issuer's signature over the TBS bytes. The relay is built without overflow checks. -/
def verifyCertSignatureWithAlg (certDer issuerDer : Bytes) (label : Text) :
    Outcome AttestError Unit := do
  let cert ← lift (okOr (L.x509 certDer)
    (.verificationFailed ("failed to parse ".toList ++ label ++ " certificate: ".toList)))
  let issuer ← lift (okOr (L.x509 issuerDer)
    (.verificationFailed ("failed to parse ".toList ++ label ++ " issuer certificate: ".toList)))
  let tbsDer ← tbsCertificateDerIn L false certDer
  let alg ← lift (rsaPssVerificationAlg L cert.signatureAlgorithm)
  lift (ensure (L.rsaPssVerify alg issuer.subjectPublicKey tbsDer cert.signatureValue = true)
    (.verificationFailed (label ++ " certificate signature validation failed".toList)))

/-- The issuer's RSA key verifies the certificate's signature over its TBS bytes. -/
def SignedBy (certDer issuerDer : Bytes) : Prop :=
  ∃ cert issuer tbsDer alg, L.x509 certDer = some cert ∧ L.x509 issuerDer = some issuer ∧
    tbsCertificateDerIn L false certDer = .ok tbsDer ∧
    rsaPssVerificationAlg L cert.signatureAlgorithm = .ok alg ∧
    L.rsaPssVerify alg issuer.subjectPublicKey tbsDer cert.signatureValue = true

variable {L}

theorem tbsCertificateDerIn_false_safe (certDer : Bytes) :
    Outcome.Safe (tbsCertificateDerIn L false certDer) := by
  refine Outcome.safe_lift.bind fun _ _ => Outcome.safe_lift.bind fun _ _ =>
    usizeSub_false_safe.bind fun _ _ => Outcome.safe_lift.bind fun _ _ => ?_
  exact Outcome.safe_lift.bind fun _ _ => Outcome.safe_lift.bind fun _ _ =>
    usizeSub_false_safe.bind fun _ _ => usizeAdd_false_safe.bind fun _ _ => Outcome.safe_lift

theorem verifyCertSignatureWithAlg_safe (certDer issuerDer : Bytes) (label : Text) :
    Outcome.Safe (verifyCertSignatureWithAlg L certDer issuerDer label) :=
  Outcome.safe_lift.bind fun _ _ => Outcome.safe_lift.bind fun _ _ =>
    (tbsCertificateDerIn_false_safe certDer).bind fun _ _ => Outcome.safe_lift.bind fun _ _ =>
      Outcome.safe_lift

theorem verifyCertSignatureWithAlg_eq_ok_iff {certDer issuerDer : Bytes} {label : Text} :
    verifyCertSignatureWithAlg L certDer issuerDer label = .ok () ↔
      SignedBy L certDer issuerDer := by
  simp only [verifyCertSignatureWithAlg, Except.bind_eq_ok_iff, Outcome.lift_eq_ok_iff,
    okOr_eq_ok_iff, ensure_eq_ok_iff]
  constructor
  · rintro ⟨cert, hcert, issuer, hissuer, tbs, htbs, alg, halg, hverify⟩
    exact ⟨cert, issuer, tbs, alg, hcert, hissuer, htbs, halg, hverify⟩
  · rintro ⟨cert, issuer, tbs, alg, hcert, hissuer, htbs, halg, hverify⟩
    exact ⟨cert, hcert, issuer, hissuer, tbs, htbs, alg, halg, hverify⟩

variable (L)

/-- Path validation from a certificate to its issuer, as the trust anchor. -/
def verifyCertSignedByTrustAnchor (certDer trustAnchorDer : Bytes) (label : Text) :
    Except AttestError Unit := do
  let anchor ← okOr (L.anchorFromTrustedCert trustAnchorDer) (.verificationFailed
    ("failed to parse ".toList ++ label ++ " issuer as trust anchor: ".toList))
  let endEntity ← okOr (L.endEntityCert certDer)
    (.verificationFailed ("failed to parse ".toList ++ label ++ " certificate: ".toList))
  ensure (L.verifyForUsage endEntity anchor = true) (.verificationFailed
    (label ++ " certificate signature/path validation failed: ".toList))

/-- Path validation from the certificate to the anchor succeeds. -/
def PathTo (certDer trustAnchorDer : Bytes) : Prop :=
  ∃ anchor endEntity, L.anchorFromTrustedCert trustAnchorDer = some anchor ∧
    L.endEntityCert certDer = some endEntity ∧ L.verifyForUsage endEntity anchor = true

variable {L}

theorem verifyCertSignedByTrustAnchor_eq_ok_iff {certDer trustAnchorDer : Bytes} {label : Text} :
    verifyCertSignedByTrustAnchor L certDer trustAnchorDer label = .ok () ↔
      PathTo L certDer trustAnchorDer := by
  simp only [verifyCertSignedByTrustAnchor, Except.bind_eq_ok_iff, okOr_eq_ok_iff,
    ensure_eq_ok_iff]
  constructor
  · rintro ⟨anchor, hanchor, endEntity, hend, hverify⟩
    exact ⟨anchor, endEntity, hanchor, hend, hverify⟩
  · rintro ⟨anchor, endEntity, hanchor, hend, hverify⟩
    exact ⟨anchor, hanchor, endEntity, hend, hverify⟩

/-! ### The chain -/

/-- The SHA-256 digests of the known root certificates. -/
def pinnedArkFingerprints : List (Text × Text) :=
  [("Milan".toList, "69d063b45344d26a2e94e1f4210de49ef555308287d4c174445c95639a540bcd".toList),
    ("Genoa".toList, "4c6598d19c18719c5dfd4a7d335f674e5bfe1d8f800cea2cf270c10d103db2f1".toList),
    ("Turin".toList, "1f084161a44bb6d93778a904877d4819cafa5d05ef4193b2ded9dd9c73dd3f6a".toList)]

/-- The digest of the first of them. -/
def milanArkDigest : ByteArr 32 :=
  ⟨[0x69, 0xd0, 0x63, 0xb4, 0x53, 0x44, 0xd2, 0x6a, 0x2e, 0x94, 0xe1, 0xf4, 0x21, 0x0d, 0xe4, 0x9e,
    0xf5, 0x55, 0x30, 0x82, 0x87, 0xd4, 0xc1, 0x74, 0x44, 0x5c, 0x95, 0x63, 0x9a, 0x54, 0x0b, 0xcd],
    by decide⟩

/-- The root's digest is pinned. -/
def isKnownArk (fingerprint : Text) : Bool :=
  pinnedArkFingerprints.any fun (_, fp) => fp == fingerprint

/-- The refusal of a root that is not pinned. -/
def unknownArk (fingerprint : Text) : AttestError :=
  .verificationFailed ("ARK certificate fingerprint ".toList ++ fingerprint ++
    " does not match any known AMD root key. ".toList ++
    "This may indicate a MITM attack or an unrecognised AMD generation. ".toList ++
    "Known fingerprints: ".toList ++
    debugStrs (pinnedArkFingerprints.map fun (name, fp) => name ++ ": ".toList ++ fp))

variable (L)

/-- The chain from a leaf over the first certificate to the second, which must be pinned. -/
def verifyVcekChain (leafDer chainPemBytes : Bytes) : Outcome AttestError Unit := do
  let chainStr ← lift (okOr (Text.fromUtf8 chainPemBytes)
    (.verificationFailed "cert chain PEM is not valid UTF-8: ".toList))
  let pems ← lift (okOr (L.pemParseMany chainStr)
    (.verificationFailed "failed to parse cert chain PEM: ".toList))
  lift (ensure (2 ≤ pems.length) (.verificationFailed
    ("expected at least 2 certificates in chain (ASK + ARK), got ".toList ++
      Text.decimal pems.length)))
  let arkDer ← indexAt pems 1
  let askDer ← indexAt pems 0
  let _ ← lift (okOr (L.x509 askDer)
    (.verificationFailed "failed to parse ASK/ASVK certificate: ".toList))
  let _ ← lift (okOr (L.x509 arkDer)
    (.verificationFailed "failed to parse ARK certificate: ".toList))
  let arkFingerprint := hexEncode (L.sha256 arkDer).1
  lift (ensure (isKnownArk arkFingerprint = true) (unknownArk arkFingerprint))
  verifyCertSignatureWithAlg L askDer arkDer "ASK/ASVK".toList
  lift (verifyCertSignedByTrustAnchor L leafDer askDer "VCEK/VLEK".toList)
  let _ ← lift (okOr (L.x509 leafDer)
    (.verificationFailed "failed to parse VCEK/VLEK certificate: ".toList))
  .ok ()

/-- The leaf chains through the first PEM certificate to the second one, a pinned root. -/
def ChainsToPinnedArk (leafDer chainPemBytes : Bytes) : Prop :=
  ∃ text ask ark more, Text.fromUtf8 chainPemBytes = some text ∧
    L.pemParseMany text = some (ask :: ark :: more) ∧
    (∃ product, (product, hexEncode (L.sha256 ark).1) ∈ pinnedArkFingerprints) ∧
    SignedBy L ask ark ∧ PathTo L leafDer ask ∧ (L.x509 leafDer).isSome = true

variable {L}

theorem isKnownArk_eq_true_iff {fingerprint : Text} :
    isKnownArk fingerprint = true ↔
      ∃ product, (product, fingerprint) ∈ pinnedArkFingerprints := by
  simp [isKnownArk, List.any_eq_true]

theorem verifyVcekChain_safe (leafDer chainPemBytes : Bytes) :
    Outcome.Safe (verifyVcekChain L leafDer chainPemBytes) := by
  refine Outcome.safe_lift.bind fun _ _ => Outcome.safe_lift.bind fun pems _ =>
    Outcome.safe_lift.bind fun _ hlen => ?_
  have hlen : 2 ≤ pems.length := ensure_eq_ok_iff.mp (Outcome.lift_eq_ok_iff.mp hlen)
  rw [indexAt_eq_ok hlen, indexAt_eq_ok (by omega)]
  refine Outcome.safe_ok.bind fun _ _ => Outcome.safe_ok.bind fun _ _ => ?_
  exact Outcome.safe_lift.bind fun _ _ => Outcome.safe_lift.bind fun _ _ =>
    Outcome.safe_lift.bind fun _ _ => (verifyCertSignatureWithAlg_safe _ _ _).bind fun _ _ =>
    Outcome.safe_lift.bind fun _ _ => Outcome.safe_lift.bind fun _ _ => Outcome.safe_ok

theorem verifyVcekChain_eq_ok_iff {leafDer chainPemBytes : Bytes} :
    verifyVcekChain L leafDer chainPemBytes = .ok () ↔
      ChainsToPinnedArk L leafDer chainPemBytes := by
  simp only [verifyVcekChain, Except.bind_eq_ok_iff, Outcome.lift_eq_ok_iff, okOr_eq_ok_iff,
    exists_unit_iff, ensure_eq_ok_iff, isKnownArk_eq_true_iff,
    verifyCertSignatureWithAlg_eq_ok_iff, verifyCertSignedByTrustAnchor_eq_ok_iff]
  constructor
  · rintro ⟨text, htext, pems, hpems, hlen, ark, hark, ask, hask, -, -, -, -, hpinned, hsigned,
      hpath, leaf, hleaf, -⟩
    obtain ⟨ask', ark', more, rfl⟩ : ∃ ask' ark' more, pems = ask' :: ark' :: more := by
      rcases pems with _ | ⟨ask', _ | ⟨ark', more⟩⟩
      · simp at hlen
      · simp at hlen
      · exact ⟨ask', ark', more, rfl⟩
    obtain rfl : ark' = ark := Except.ok.inj hark
    obtain rfl : ask' = ask := Except.ok.inj hask
    exact ⟨text, ask', ark', more, htext, hpems, hpinned, hsigned, hpath, by simp [hleaf]⟩
  · rintro ⟨text, ask, ark, more, htext, hpems, hpinned, hsigned, hpath, hleaf⟩
    obtain ⟨leaf, hleaf⟩ := Option.isSome_iff_exists.mp hleaf
    have hcerts := hsigned
    obtain ⟨askCert, arkCert, -, -, haskCert, harkCert, -⟩ := hcerts
    exact ⟨text, htext, _, hpems, by simp, ark, rfl, ask, rfl, askCert, haskCert, arkCert,
      harkCert, hpinned, hsigned, hpath, leaf, hleaf, trivial⟩

/-! ### The leaf -/

variable (L)

/-- `b"-----BEGIN"`. -/
def pemBegin : Bytes := Text.asBytes "-----BEGIN".toList

/-- The DER bytes of a certificate that may be PEM. -/
def derOfCertBytes (certBytes : Bytes) : Except AttestError Bytes :=
  if pemBegin.isPrefixOf certBytes then do
    let pemStr ← okOr (Text.fromUtf8 certBytes)
      (.verificationFailed "VCEK/VLEK PEM is not valid UTF-8: ".toList)
    okOr (L.pemParse pemStr) (.verificationFailed "failed to parse VCEK/VLEK PEM: ".toList)
  else .ok certBytes

/-- The P-384 key of a certificate. -/
def extractP384PubkeyFromDer (certBytes : Bytes) : Except AttestError L.VerifyingKey := do
  let derBytes ← derOfCertBytes L certBytes
  let cert ← okOr (L.x509 derBytes)
    (.verificationFailed "failed to parse VCEK/VLEK X.509 certificate: ".toList)
  okOr (L.verifyingKeyFromSec1 cert.subjectPublicKey) (.verificationFailed
    ("VCEK/VLEK public key is not a valid P-384 key (".toList ++
      Text.decimal cert.subjectPublicKey.length ++ " bytes): ".toList))

/-- The endorsement certificate is in its validity period. -/
def verifyVcekCertificate (endorsementDer : Bytes) : Except AttestError Unit := do
  let cert ← okOr (L.x509 endorsementDer)
    (.verificationFailed "failed to parse VCEK/VLEK X.509 certificate: ".toList)
  ensure (cert.isValid = true)
    (.verificationFailed "VCEK/VLEK certificate is not currently valid".toList)

variable {L}

theorem verifyVcekCertificate_eq_ok_iff {endorsementDer : Bytes} :
    verifyVcekCertificate L endorsementDer = .ok () ↔
      ∃ cert, L.x509 endorsementDer = some cert ∧ cert.isValid = true := by
  simp only [verifyVcekCertificate, Except.bind_eq_ok_iff, okOr_eq_ok_iff, ensure_eq_ok_iff]

end Endorsement

end TrustedRelay
