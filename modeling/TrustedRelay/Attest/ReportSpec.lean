import TrustedRelay.Attest.SevSnp
import TrustedRelay.Attest.TbsCertificate

/-!
# When a SEV-SNP report is verified

What verification is for, in the terms of X.509: the leaf is the certificate of the selected key,
path validation leads from it to the first certificate of the chain, the pinned root has signed the
TBS certificate of that one, and the subject public key of the leaf verifies the signature of the
report. `sevSnp_verify_spec` says that `verify` accepts exactly such reports.

The code finds the TBS certificate by counting from the end of the buffer, and takes a leaf for PEM
if it looks like it. Neither matters where the libraries read DER (`ReadsDer`): a certificate starts
with the tag of a sequence, and a trust anchor is a certificate with nothing behind it.
-/

namespace TrustedRelay

namespace Endorsement

variable (L : CertLibraries)

/-! ### Certificates -/

/-- What is relied on of the libraries. A certificate is DER, so it starts with the tag of a
sequence; path validation refuses a trust anchor with trailing data; a buffer has at most
`isize::MAX` bytes. -/
structure ReadsDer : Prop where
  headers : ReadsHeaders L.header
  certificates : ReadsCertificates L
  sequences : ∀ der cert, L.x509 der = some cert → der.head? = some 0x30
  anchors : ∀ der anchor (o : CertOctets), L.anchorFromTrustedCert der = some anchor →
    o.Encodes L.header der → o.trailing = []
  buffers : ∀ text ders, L.pemParseMany text = some ders → ∀ der ∈ ders, der.length < 2 ^ 63

/-- The digests that a certificate may be signed with. -/
def pssDigests : List (Text × RsaPss) :=
  [(oidNistHashSha256, .sha256), (oidNistHashSha384, .sha384), (oidNistHashSha512, .sha512)]

/-- The algorithm is RSASSA-PSS, with one of the digests as its parameter. -/
def IsPss (a : AlgorithmIdentifier) (alg : RsaPss) : Prop :=
  a.algorithm = oidPkcs1RsassaPss ∧ ∃ params hash, a.parameters = some params ∧
    L.hashAlgorithmOid params = some hash ∧ (hash, alg) ∈ pssDigests

/-- The issuer's key verifies the signature of the certificate over its TBS certificate, the first
element of its outer sequence. -/
def IssuedBy (certDer issuerDer : Bytes) : Prop :=
  ∃ (o : CertOctets) (cert issuer : X509Certificate) (alg : RsaPss), o.Encodes L.header certDer ∧
    L.x509 certDer = some cert ∧ L.x509 issuerDer = some issuer ∧
    IsPss L cert.signatureAlgorithm alg ∧
    L.rsaPssVerify alg issuer.subjectPublicKey o.tbs cert.signatureValue = true

/-- The leaf chains through the first certificate of the PEM text to the second one, which is a
pinned root. -/
def ChainsThrough (leafDer chainPemBytes : Bytes) : Prop :=
  ∃ text ask ark more, Text.fromUtf8 chainPemBytes = some text ∧
    L.pemParseMany text = some (ask :: ark :: more) ∧
    (∃ product, (product, hexEncode (L.sha256 ark).1) ∈ pinnedArkFingerprints) ∧
    IssuedBy L ask ark ∧ PathTo L leafDer ask

variable {L}

theorem rsaPssOfHash_eq_ok_iff {hash : Text} {alg : RsaPss} :
    rsaPssOfHash hash = .ok alg ↔ (hash, alg) ∈ pssDigests := by
  have hne : oidNistHashSha384 ≠ oidNistHashSha256 ∧ oidNistHashSha512 ≠ oidNistHashSha256 ∧
      oidNistHashSha512 ≠ oidNistHashSha384 := by decide
  simp only [rsaPssOfHash, pssDigests, List.mem_cons, Prod.mk.injEq, List.not_mem_nil, or_false]
  split_ifs <;> grind

theorem rsaPssVerificationAlg_eq_ok_iff {a : AlgorithmIdentifier} {alg : RsaPss} :
    rsaPssVerificationAlg L a = .ok alg ↔ IsPss L a alg := by
  simp only [rsaPssVerificationAlg, Except.bind_eq_ok_iff, exists_unit_iff, ensure_eq_ok_iff,
    okOr_eq_ok_iff, rsaPssOfHash_eq_ok_iff, IsPss, exists_and_left]

/-- The bytes that are found in a trust anchor are its TBS certificate. -/
theorem ReadsDer.tbsCertificateDer (hL : ReadsDer L) {der : Bytes} {anchor : L.TrustAnchor}
    (hanchor : L.anchorFromTrustedCert der = some anchor) (hlen : der.length < 2 ^ 63)
    {o : CertOctets} (ho : o.Encodes L.header der) :
    tbsCertificateDerIn L false der = .ok o.tbs :=
  tbsCertificateDerIn_eq_ok hL.headers hlen ho
    (CertOctets.prefix_lastBytes (hL.anchors der anchor o hanchor ho)) false

/-- For a trust anchor, the check of its signature is one of its TBS certificate. -/
theorem ReadsDer.signedBy_iff (hL : ReadsDer L) {der issuerDer : Bytes} {anchor : L.TrustAnchor}
    (hanchor : L.anchorFromTrustedCert der = some anchor) (hlen : der.length < 2 ^ 63) :
    SignedBy L der issuerDer ↔ IssuedBy L der issuerDer := by
  constructor
  · rintro ⟨cert, issuer, tbs, alg, hcert, hissuer, htbs, halg, hverify⟩
    obtain ⟨o, ho⟩ := hL.certificates der cert hcert
    obtain rfl := Except.ok.inj ((hL.tbsCertificateDer hanchor hlen ho).symm.trans htbs)
    exact ⟨o, cert, issuer, alg, ho, hcert, hissuer, rsaPssVerificationAlg_eq_ok_iff.mp halg,
      hverify⟩
  · rintro ⟨o, cert, issuer, alg, ho, hcert, hissuer, halg, hverify⟩
    exact ⟨cert, issuer, o.tbs, alg, hcert, hissuer, hL.tbsCertificateDer hanchor hlen ho,
      rsaPssVerificationAlg_eq_ok_iff.mpr halg, hverify⟩

theorem ReadsDer.chainsToPinnedArk_iff (hL : ReadsDer L) {leafDer chainPemBytes : Bytes} :
    ChainsToPinnedArk L leafDer chainPemBytes ↔
      ChainsThrough L leafDer chainPemBytes ∧ (L.x509 leafDer).isSome = true := by
  have hsigned : ∀ {text ask ark more}, L.pemParseMany text = some (ask :: ark :: more) →
      PathTo L leafDer ask → (SignedBy L ask ark ↔ IssuedBy L ask ark) := by
    rintro text ask ark more hpems ⟨anchor, -, hanchor, -⟩
    exact hL.signedBy_iff hanchor (hL.buffers text _ hpems ask List.mem_cons_self)
  constructor
  · rintro ⟨text, ask, ark, more, htext, hpems, hpinned, hask, hpath, hleaf⟩
    exact ⟨⟨text, ask, ark, more, htext, hpems, hpinned, (hsigned hpems hpath).mp hask, hpath⟩,
      hleaf⟩
  · rintro ⟨⟨text, ask, ark, more, htext, hpems, hpinned, hask, hpath⟩, hleaf⟩
    exact ⟨text, ask, ark, more, htext, hpems, hpinned, (hsigned hpems hpath).mpr hask, hpath,
      hleaf⟩

/-- The key of a certificate is read off its subject public key: DER is not taken for PEM. -/
theorem ReadsDer.extractP384PubkeyFromDer_eq_ok_iff (hL : ReadsDer L) {der : Bytes}
    {cert : X509Certificate} (hcert : L.x509 der = some cert) {key : L.VerifyingKey} :
    extractP384PubkeyFromDer L der = .ok key ↔
      L.verifyingKeyFromSec1 cert.subjectPublicKey = some key := by
  have hpem : pemBegin.isPrefixOf der = false := by
    obtain ⟨rest, rfl⟩ := List.head?_eq_some_iff.mp (hL.sequences der cert hcert)
    rfl
  have hder : derOfCertBytes L der = .ok der := by
    rw [derOfCertBytes, hpem, if_neg Bool.false_ne_true]
  simp only [extractP384PubkeyFromDer, hder, hcert, Except.bind_eq_ok_iff, Except.ok.injEq,
    exists_eq_left', okOr_eq_ok_iff, Option.some.injEq]

end Endorsement

namespace SevSnp

open Endorsement

/-! ### Reports -/

section Report

variable (L : CertLibraries) (kds : Kds)

/-- The product endorses the report: the certificate of the selected key chains to its pinned root
and is currently valid, and its subject public key verifies the signature. -/
def Endorses (signedData : Bytes) (signature : L.Signature) (signingKey : ℕ)
    (certs : Option Bytes) (chipId : Bytes) (reportedTcb : ℕ) (productName : Text) : Prop :=
  ∃ leafDer chainPemBytes leaf key,
    IsLeaf kds signingKey certs chipId reportedTcb productName leafDer ∧
    kds (certChainUrl (endorser signingKey) productName) = .ok chainPemBytes ∧
    ChainsThrough L leafDer chainPemBytes ∧
    L.x509 leafDer = some leaf ∧ leaf.isValid = true ∧
    L.verifyingKeyFromSec1 leaf.subjectPublicKey = some key ∧
    L.p384Verify key signedData signature = true

/-- A verified report: it says what is expected, and some product endorses it. All of this is about
the bytes under the signature, the two signature fields and the certificate blob. -/
structure ReportVerified (signedData sigR sigS : Bytes) (certs expected : Option Bytes) : Prop
    extends ReportChecks signedData sigR sigS expected where
  endorsed : ∃ signature,
    L.signatureFromSlice ((sigR.take 48).reverse ++ (sigS.take 48).reverse) = some signature ∧
    ∃ productName ∈ candidateProductNames,
      Endorses L kds signedData signature (selector signedData) certs
        (Bytes.range signedData 0x1A0 0x1E0) (Bytes.le (Bytes.range signedData 0x180 0x188))
        productName

/-- The evidence is a verified report. -/
structure EvidenceVerified (evidence : Evidence) (expected : Option Bytes) : Prop where
  teeType : evidence.teeType = .sevSnp
  length : 1184 ≤ evidence.data.length
  report : ReportVerified L kds (Bytes.range evidence.data 0 0x2A0)
    (Bytes.range evidence.data 0x2A0 0x2E8) (Bytes.range evidence.data 0x2E8 0x330)
    (certBlobBytes evidence.data) expected

end Report

variable {L : CertLibraries} {kds : Kds}

theorem endorsedBy_iff (hL : ReadsDer L) {signedData : Bytes} {signature : L.Signature}
    {signingKey : ℕ} {certs : Option Bytes} {chipId : Bytes} {reportedTcb : ℕ}
    {productName : Text} :
    EndorsedBy L kds signedData signature signingKey certs chipId reportedTcb productName ↔
      Endorses L kds signedData signature signingKey certs chipId reportedTcb productName := by
  constructor
  · rintro ⟨leafDer, chain, leaf, key, hleaf, hchain, hark, hcert, hvalid, hkey, hverify⟩
    exact ⟨leafDer, chain, leaf, key, hleaf, hchain, (hL.chainsToPinnedArk_iff.mp hark).1, hcert,
      hvalid, (hL.extractP384PubkeyFromDer_eq_ok_iff hcert).mp hkey, hverify⟩
  · rintro ⟨leafDer, chain, leaf, key, hleaf, hchain, hark, hcert, hvalid, hkey, hverify⟩
    exact ⟨leafDer, chain, leaf, key, hleaf, hchain,
      hL.chainsToPinnedArk_iff.mpr ⟨hark, by rw [hcert]; rfl⟩, hcert, hvalid,
      (hL.extractP384PubkeyFromDer_eq_ok_iff hcert).mpr hkey, hverify⟩

theorem evidenceAccepted_iff (hL : ReadsDer L) {evidence : Evidence} {expected : Option Bytes} :
    EvidenceAccepted L kds evidence expected ↔ EvidenceVerified L kds evidence expected := by
  constructor
  · rintro ⟨htee, hlen, hchecks, signature, hsignature, product, hproduct, hendorsed⟩
    exact ⟨htee, hlen, hchecks, signature, hsignature, product, hproduct,
      (endorsedBy_iff hL).mp hendorsed⟩
  · rintro ⟨htee, hlen, hchecks, signature, hsignature, product, hproduct, hendorsed⟩
    exact ⟨htee, hlen, hchecks, signature, hsignature, product, hproduct,
      (endorsedBy_iff hL).mpr hendorsed⟩

/-- Verification never panics. It accepts exactly the verified reports, whichever product endorses
them, with the REPORTDATA that lies under the signature. -/
theorem sevSnp_verify_spec (L : CertLibraries) (hL : ReadsDer L) (kds : Kds) (evidence : Evidence)
    (expected : Option Bytes) :
    Outcome.Safe (verify L kds evidence expected) ∧
      ∀ reportData : ByteArr 64, verify L kds evidence expected = .ok reportData ↔
        EvidenceVerified L kds evidence expected ∧
          reportData.1 = Bytes.range (Bytes.range evidence.data 0 0x2A0) 0x50 0x90 :=
  ⟨verify_safe evidence expected, fun _ =>
    verify_eq_ok_iff.trans (and_congr_left' (evidenceAccepted_iff hL))⟩

/-! ### A chain of three certificates -/

section Samples

/-- DER headers of one tag octet and a length below 256. -/
def derHeader : Bytes → Option Asn1Header
  | tag :: len :: rest =>
    if tag &&& 0x1f = 0x1f then none
    else if len < 0x80 then some ⟨rest, some len.toUInt64⟩
    else if len = 0x81 then rest.head?.map fun n => ⟨rest.tail, some n.toUInt64⟩
    else none
  | _ => none

theorem derHeader_readsHeaders : ReadsHeaders derHeader := by
  intro input h hinput
  match input, hinput with
  | tag :: len :: rest, hinput =>
    rw [derHeader] at hinput
    split_ifs at hinput with htag hshort hlong
    · obtain rfl := Option.some.inj hinput
      refine ⟨[tag, len], rfl, fun more => ?_⟩
      exact (if_neg htag).trans (if_pos hshort)
    · obtain ⟨n, hn, rfl⟩ := Option.map_eq_some_iff.mp hinput
      obtain ⟨rest, rfl⟩ := List.head?_eq_some_iff.mp hn
      refine ⟨[tag, len, n], rfl, fun more => ?_⟩
      exact (if_neg htag).trans ((if_neg hshort).trans (if_pos hlong))

/-- The parameters of RSASSA-PSS over SHA-384. -/
def pssParameters : Bytes :=
  [0x30, 0x11, 0xa0, 0x0f, 0x30, 0x0d, 0x06, 0x09, 0x60, 0x86, 0x48, 0x01, 0x65, 0x03, 0x04, 0x02,
    0x02, 0x05, 0x00]

/-- The signature algorithm of the certificates. -/
def pssAlgorithm : Bytes :=
  [0x30, 0x1e, 0x06, 0x09, 0x2a, 0x86, 0x48, 0x86, 0xf7, 0x0d, 0x01, 0x01, 0x0a] ++ pssParameters

/-- The public key of a certificate, one byte on P-384. -/
def chainKey (key : UInt8) : Bytes :=
  [0x30, 0x16, 0x30, 0x10, 0x06, 0x07, 0x2a, 0x86, 0x48, 0xce, 0x3d, 0x02, 0x01, 0x06, 0x05, 0x2b,
    0x81, 0x04, 0x00, 0x22, 0x03, 0x02, 0x00, key]

/-- A version 3 certificate without names, with the given key and a signature of one byte, and what
follows it. -/
def chainCert (key : UInt8) (trailing : Bytes) : CertOctets where
  outerFront := [0x30, 0x81, 0x8a]
  tbsFront := [0x30, 0x64]
  tbsContent := [0xa0, 0x03, 0x02, 0x01, 0x02, 0x02, 0x01, key] ++ pssAlgorithm ++ [0x30, 0x00] ++
    [0x30, 0x1e] ++ [0x17, 0x0d] ++ Text.asBytes "250101000000Z".toList ++
      [0x17, 0x0d] ++ Text.asBytes "350101000000Z".toList ++
    [0x30, 0x00] ++ chainKey key
  others := pssAlgorithm ++ [0x03, 0x02, 0x00, 0xbb]
  trailing := trailing

/-- What the parser reads off such a certificate. -/
def chainCertFields (key : UInt8) : X509Certificate where
  extensions := []
  publicKeyRaw := chainKey key
  subjectPublicKey := [key]
  signatureAlgorithm := ⟨oidPkcs1RsassaPss, some pssParameters⟩
  signatureValue := [0xbb]
  isValid := true

/-- The leaf, the intermediate and the root: the keys 1, 2 and 3. -/
def chainParser : X509Parser := fun certDer =>
  ([1, 2, 3] : List UInt8).findSome? fun key =>
    if (chainCert key []).bytes.isPrefixOf certDer then some (chainCertFields key) else none

/-- Libraries that know these certificates, with the third one as the pinned Milan root. -/
def chainLibraries : CertLibraries where
  x509 := chainParser
  header := derHeader
  hashAlgorithmOid params := if params = pssParameters then some oidNistHashSha384 else none
  rsaPssVerify alg key message signature :=
    alg = .sha384 ∧ key = [3] ∧ message = (chainCert 2 []).tbs ∧ signature = [0xbb]
  pemParse _ := none
  pemParseMany text :=
    if text = "chain".toList then some [(chainCert 2 []).bytes, (chainCert 3 []).bytes] else none
  TrustAnchor := Bytes
  EndEntityCert := Bytes
  anchorFromTrustedCert der := if der = (chainCert 2 []).bytes then some der else none
  endEntityCert der := if der = (chainCert 1 []).bytes then some der else none
  verifyForUsage _ _ := true
  sha256 _ := milanArkDigest
  Signature := Bytes
  VerifyingKey := Bytes
  signatureFromSlice := some
  verifyingKeyFromSec1 := some
  p384Verify key signedData _ := key = [1] ∧ signedData.length = 0x2A0

/-- A service that has the leaf and its chain. -/
def chainKds : Kds := fun url =>
  .ok (if "cert_chain".toList.isSuffixOf url then Text.asBytes "chain".toList
    else (chainCert 1 []).bytes)

theorem chainCert_encodes (key : UInt8) (trailing : Bytes) :
    (chainCert key trailing).Encodes derHeader (chainCert key trailing).bytes where
  certDer_eq := rfl
  outer := rfl
  first := rfl

theorem exists_of_chainParser {certDer : Bytes} {cert : X509Certificate}
    (h : chainParser certDer = some cert) :
    ∃ key trailing, certDer = (chainCert key trailing).bytes := by
  obtain ⟨key, -, hkey⟩ := List.exists_of_findSome?_eq_some h
  obtain ⟨hfront, -⟩ := Option.ite_none_right_eq_some.mp hkey
  obtain ⟨trailing, rfl⟩ := List.isPrefixOf_iff_prefix.mp hfront
  exact ⟨key, trailing, rfl⟩

theorem chainLibraries_readsDer : ReadsDer chainLibraries where
  headers := derHeader_readsHeaders
  certificates certDer cert hcert := by
    obtain ⟨key, trailing, rfl⟩ := exists_of_chainParser hcert
    exact ⟨chainCert key trailing, chainCert_encodes key trailing⟩
  sequences certDer cert hcert := by
    obtain ⟨key, trailing, rfl⟩ := exists_of_chainParser hcert
    rfl
  anchors der anchor o hanchor ho := by
    obtain ⟨rfl, -⟩ := Option.ite_none_right_eq_some.mp hanchor
    rw [(chainCert_encodes 2 []).unique (by decide +kernel) ho]
    rfl
  buffers text ders hders der hder := by
    obtain ⟨-, h⟩ := Option.ite_none_right_eq_some.mp hders
    obtain rfl := Option.some.inj h
    rcases List.mem_pair.mp hder with rfl | rfl <;> decide +kernel

/-- A report of the VCEK that says nothing but the beginning of its signature. -/
def chainReport : Bytes := List.replicate 0x2A0 0 ++ 1 :: List.replicate 0x1FF 0

/-- The report is accepted, for the chain of the first product. -/
theorem chainReport_verified :
    verify chainLibraries chainKds ⟨.sevSnp, chainReport⟩ none = .ok (.fill 64 0) ∧
      EvidenceVerified chainLibraries chainKds ⟨.sevSnp, chainReport⟩ none := by
  have haccept : verify chainLibraries chainKds ⟨.sevSnp, chainReport⟩ none = .ok (.fill 64 0) := by
    decide +kernel
  exact ⟨haccept, (((sevSnp_verify_spec chainLibraries chainLibraries_readsDer chainKds
    ⟨.sevSnp, chainReport⟩ none).2 _).mp haccept).1⟩

end Samples

end SevSnp

end TrustedRelay
