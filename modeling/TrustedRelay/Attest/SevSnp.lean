import TrustedRelay.Attest.CertTable
import TrustedRelay.Attest.Endorsement

/-!
# SEV-SNP reports

The verifier for AMD SEV-SNP attestation reports: fixed-offset parsing, the guest policy, the
measurement, the choice of the endorsement key, and the search for a product whose certificate
chain endorses the signature. The key distribution service is an oracle from URLs to bytes; a
call asks it for each URL at most once.

`verify_eq` brings `verify` into a form that only looks at the signed bytes of the report, the
two signature fields and the certificate blob; `verify_safe` says that it never panics and
`verify_eq_ok_iff` when it accepts, step by step as the code has it.
-/

namespace TrustedRelay

namespace SevSnp

open Outcome (lift)

/-! ### The report -/

/-- The bytes of a report. -/
def snpReportSize : ℕ := 0x4A0

/-- Where REPORTDATA starts. -/
def reportDataOffset : ℕ := 0x50

/-- The bytes of REPORTDATA. -/
def reportDataLen : ℕ := 64

/-- Where the launch measurement starts. -/
def measurementOffset : ℕ := 0x90

/-- The bytes of a measurement, a SHA-384 digest. -/
def measurementLen : ℕ := 48

/-- Where the guest's security version is. -/
def guestSvnOffset : ℕ := 0x04

/-- Where the guest policy is. -/
def policyOffset : ℕ := 0x08

/-- Where the signer info is. -/
def signingKeyOffset : ℕ := 0x48

/-- Where the signature starts, behind everything that it signs. -/
def signatureOffset : ℕ := 0x2A0

/-- The bytes of the signature area. -/
def signatureLen : ℕ := 512

/-- The bytes of a scalar of P-384. -/
def ecdsaP384ScalarLen : ℕ := 48

/-- The bytes that a report has for one. -/
def ecdsaP384AmdScalarLen : ℕ := 72

/-- The bytes under the signature. -/
def signedDataLen : ℕ := signatureOffset

/-- Where the chip identifier starts. -/
def chipIdOffset : ℕ := 0x1A0

/-- The bytes of a chip identifier. -/
def chipIdLen : ℕ := 64

/-- Where the reported TCB version is. -/
def reportedTcbOffset : ℕ := 0x180

/-- The bit of the guest policy that opens the guest to a debugger. -/
def policyDebugAllowedBit : ℕ := 1 <<< 19

/-- The selector of the key of the chip. -/
def snpSigningKeyVcek : ℕ := 0

/-- The selector of the key that a provider has loaded. -/
def snpSigningKeyVlek : ℕ := 1

/-- The report at the start of the data. -/
def reportBytes (data : Bytes) : Except AttestError Bytes :=
  okOr (Bytes.get data 0 snpReportSize) (.verificationFailed "report too short".toList)

/-- What follows the report, if anything does. -/
def certBlobBytes (data : Bytes) : Option Bytes :=
  (Bytes.get data snpReportSize data.length).filter (· ≠ [])

/-- A number of `n` bytes; `read_le_u32` and `read_le_u64`. -/
def readLe (n : ℕ) (name : Text) (report : Bytes) (offset : ℕ) : Outcome AttestError ℕ := do
  let bytes ← lift (okOr (Bytes.get report offset (offset + n))
    (.verificationFailed ("report too short for ".toList ++ name)))
  let array ← Bytes.toArr n bytes
  .ok (Bytes.le array.1)

/-- `read_le_u32`. -/
def readLeU32 : Bytes → ℕ → Outcome AttestError ℕ := readLe 4 "u32".toList

/-- `read_le_u64`. -/
def readLeU64 : Bytes → ℕ → Outcome AttestError ℕ := readLe 8 "u64".toList

/-- `{:0width$x}`. -/
def hexPadded (width n : ℕ) : Text :=
  let digits := Nat.toDigits 16 n
  List.replicate (width - digits.length) '0' ++ digits

/-- The guest must not be open to a debugger. -/
def checkGuestPolicy (policy : ℕ) : Except AttestError Unit :=
  ensure (policy &&& policyDebugAllowedBit = 0) (.verificationFailed
    ("SEV-SNP guest policy enables debug access (policy=0x".toList ++ hexPadded 16 policy ++
      ")".toList))

/-- The key that the signer info selects. -/
def signingKeyOf (flags : ℕ) : Except AttestError ℕ := do
  ensure (flags >>> 5 = 0) (.verificationFailed
    ("SEV-SNP signer info has non-zero reserved bits: 0x".toList ++ hexPadded 8 flags))
  let key := (flags >>> 2) &&& 0x7
  ensure (¬ (snpSigningKeyVlek < key ∧ key ≠ 7)) (.verificationFailed
    ("reserved SEV-SNP signing key selector: ".toList ++ Text.decimal key))
  ensure (key ≠ 7) (.verificationFailed "SEV-SNP report is marked unsigned".toList)
  .ok key

/-- The key that the signer info of a report selects. -/
def signingKey (report : Bytes) : Outcome AttestError ℕ := do
  let bytes ← lift (okOr (Bytes.get report signingKeyOffset (signingKeyOffset + 4))
    (.verificationFailed "report too short for signing key flags".toList))
  let array ← Bytes.toArr 4 bytes
  lift (signingKeyOf (Bytes.le array.1))

/-! ### The key distribution service -/

/-- The answers of the key distribution service, by URL. -/
abbrev Kds := Text → Except AttestError Bytes

/-- Where the service has the certificate of a chip, by the parts of the TCB version. -/
def vcekUrl (productName : Text) (chipId : Bytes) (reportedTcb : ℕ) : Text :=
  let bootLoader := reportedTcb &&& 0xFF
  let tee := (reportedTcb >>> 8) &&& 0xFF
  let snp := (reportedTcb >>> 48) &&& 0xFF
  let microcode := (reportedTcb >>> 56) &&& 0xFF
  "https://kdsintf.amd.com/vcek/v1/".toList ++ productName ++ "/".toList ++ hexEncode chipId ++
    "?blSPL=".toList ++ Text.decimal bootLoader ++ "&teeSPL=".toList ++ Text.decimal tee ++
    "&snpSPL=".toList ++ Text.decimal snp ++ "&ucodeSPL=".toList ++ Text.decimal microcode

/-- Where the service has the chain of a product. -/
def certChainUrl (endorser productName : Text) : Text :=
  "https://kdsintf.amd.com/".toList ++ endorser ++ "/v1/".toList ++ productName ++
    "/cert_chain".toList

/-- The products that are tried, in this order. -/
def candidateProductNames : List Text := ["Milan".toList, "Genoa".toList, "Turin".toList]

/-! ### The signature -/

variable (L : CertLibraries) (kds : Kds)

/-- The signature fields are little-endian, with more room than a scalar needs. -/
def amdSignatureToP384 (sigR sigS : Bytes) : Outcome AttestError L.Signature := do
  lift (ensure (sigR.length = ecdsaP384AmdScalarLen ∧ sigS.length = ecdsaP384AmdScalarLen)
    (.verificationFailed ("invalid SEV-SNP ECDSA signature field length: r=".toList ++
      Text.decimal sigR.length ++ ", s=".toList ++ Text.decimal sigS.length ++
      ", expected ".toList ++ Text.decimal ecdsaP384AmdScalarLen ++ " each".toList)))
  let r ← Bytes.index sigR 0 ecdsaP384ScalarLen
  let s ← Bytes.index sigS 0 ecdsaP384ScalarLen
  lift (okOr (L.signatureFromSlice (r.reverse ++ s.reverse))
    (.verificationFailed "invalid ECDSA P-384 signature encoding: ".toList))

/-- The embedded certificate with the GUID, if there is a blob. -/
def embeddedCert (certs : Option Bytes) (guid : Bytes) : Outcome AttestError (Option Bytes) :=
  match certs with
  | some certs => CertTable.findCert certs guid
  | none => .ok none

/-- An embedded certificate, or the one the service has. -/
def orFetch (url : Text) : Option Bytes → Except AttestError Bytes
  | some cert => .ok cert
  | none => kds url

/-- The endorsement certificate, the URL of its chain, and its name. -/
def leafCert (signingKey : ℕ) (certs : Option Bytes) (chipId : Bytes) (reportedTcb : ℕ)
    (productName : Text) : Outcome AttestError (Bytes × Text × Text) :=
  if signingKey = snpSigningKeyVcek then do
    let leaf ← embeddedCert certs CertTable.guidVcek
    let leafDer ← lift (orFetch kds (vcekUrl productName chipId reportedTcb) leaf)
    .ok (leafDer, certChainUrl "vcek".toList productName, "VCEK".toList)
  else if signingKey = snpSigningKeyVlek then do
    let certs ← lift (okOr certs (.verificationFailed
      "SEV-SNP report is signed by VLEK but no certificate blob is embedded".toList))
    let leaf ← CertTable.findCert certs CertTable.guidVlek
    let leafDer ← lift (okOr leaf (.verificationFailed
      "SEV-SNP certificate blob does not contain a VLEK certificate".toList))
    .ok (leafDer, certChainUrl "vlek".toList productName, "VLEK".toList)
  else .error (.err (.verificationFailed
    ("unsupported SEV-SNP signing key selector: ".toList ++ Text.decimal signingKey)))

/-- One product: its chain endorses a key that verifies the signature. -/
def tryProduct (signedData : Bytes) (signature : L.Signature) (signingKey : ℕ)
    (certs : Option Bytes) (chipId : Bytes) (reportedTcb : ℕ) (productName : Text) :
    Outcome AttestError Unit := do
  let (leafDer, chainUrl, endorserName) ← leafCert kds signingKey certs chipId reportedTcb productName
  let chainPemBytes ← lift (kds chainUrl)
  Endorsement.verifyVcekChain L leafDer chainPemBytes
  lift (Endorsement.verifyVcekCertificate L leafDer)
  let vcekPubkey ← lift (Endorsement.extractP384PubkeyFromDer L leafDer)
  lift (ensure (L.p384Verify vcekPubkey signedData signature = true) (.verificationFailed
    ("SEV-SNP report signature verification failed against ".toList ++ productName ++
      " ".toList ++ endorserName ++ ": ".toList)))

/-- The loop over the products: the first success ends it, errors are collected. -/
def firstProduct (attempt : Text → Outcome AttestError Unit) :
    List Text → List Text → Outcome AttestError Unit
  | [], errors => .error (.err (.verificationFailed
      ("SEV-SNP report could not be verified against AMD KDS product roots: ".toList ++
        "; ".toList.intercalate errors)))
  | productName :: rest, errors =>
    match attempt productName with
    | .ok () => .ok ()
    | .error (.err e) =>
      firstProduct attempt rest (errors ++ [productName ++ ": ".toList ++ e.display])
    | .error .panic => .error .panic

/-- Every byte is zero. -/
def allZero (b : Bytes) : Bool := b.all (· == 0)

/-- The signature of a report, for any of the candidate products. -/
def verifyReportSignature (signedData sigR sigS chipId : Bytes) (reportedTcb signingKey : ℕ)
    (certs : Option Bytes) : Outcome AttestError Unit := do
  lift (ensure (¬ (allZero sigR = true ∧ allZero sigS = true)) (.verificationFailed
    "SEV-SNP report has all-zero signature — report is unsigned or corrupted".toList))
  let signature ← amdSignatureToP384 L sigR sigS
  firstProduct (tryProduct L kds signedData signature signingKey certs chipId reportedTcb)
    candidateProductNames []

/-- `SevSnpVerifier::verify`. -/
def verify : Verifier := fun evidence expectedMeasurement => do
  lift (ensure (evidence.teeType = .sevSnp) (.unsupportedTeeType evidence.teeType))
  lift (ensure (snpReportSize ≤ evidence.data.length) (.verificationFailed
    ("report too short: ".toList ++ Text.decimal evidence.data.length ++ " < ".toList ++
      Text.decimal snpReportSize)))
  let report ← lift (reportBytes evidence.data)
  let certs := certBlobBytes evidence.data
  let policy ← readLeU64 report policyOffset
  lift (checkGuestPolicy policy)
  let _guestSvn ← readLeU32 report guestSvnOffset
  let reportData ← Bytes.array reportDataLen report reportDataOffset
  let measurement ← Bytes.index report measurementOffset (measurementOffset + measurementLen)
  lift (checkMeasurement expectedMeasurement measurement)
  let signedData ← Bytes.index report 0 signedDataLen
  let sigArea ← Bytes.index report signatureOffset (signatureOffset + signatureLen)
  let sigR ← Bytes.index sigArea 0 ecdsaP384AmdScalarLen
  let sigS ← Bytes.index sigArea ecdsaP384AmdScalarLen (ecdsaP384AmdScalarLen * 2)
  let signingKey ← signingKey report
  let chipId ← Bytes.array chipIdLen report chipIdOffset
  let reportedTcb ← Bytes.array 8 report reportedTcbOffset
  verifyReportSignature L kds signedData sigR sigS chipId.1 (Bytes.le reportedTcb.1) signingKey certs
  .ok reportData

/-! ### The search for a product -/

section Search

variable {attempt : Text → Outcome AttestError Unit}

theorem firstProduct_safe {products : List Text} (h : ∀ p ∈ products, Outcome.Safe (attempt p))
    (errors : List Text) : Outcome.Safe (firstProduct attempt products errors) := by
  induction products generalizing errors with
  | nil => exact Outcome.safe_err
  | cons p rest ih =>
    have hp := h p (List.mem_cons_self ..)
    have ih := ih fun q hq => h q (List.mem_cons_of_mem _ hq)
    rw [firstProduct]
    match hattempt : attempt p with
    | .ok () => exact Outcome.safe_ok
    | .error (.err e) => exact ih _
    | .error .panic => exact absurd hattempt hp

/-- The loop succeeds exactly when some product does, whatever errors came before it. -/
theorem firstProduct_eq_ok_iff {products : List Text}
    (h : ∀ p ∈ products, Outcome.Safe (attempt p)) (errors : List Text) :
    firstProduct attempt products errors = .ok () ↔ ∃ p ∈ products, attempt p = .ok () := by
  induction products generalizing errors with
  | nil => simp [firstProduct]
  | cons p rest ih =>
    have hp := h p (List.mem_cons_self ..)
    have ih := ih fun q hq => h q (List.mem_cons_of_mem _ hq)
    rw [firstProduct, List.exists_mem_cons_iff]
    match hattempt : attempt p with
    | .ok () => exact iff_of_true rfl (.inl rfl)
    | .error (.err e) => exact (ih _).trans (by simp)
    | .error .panic => exact absurd hattempt hp

end Search

/-! ### Endorsement -/

/-- The certificate of the selected key: the embedded one, or for a VCEK, if none is embedded, the
one of the key distribution service. -/
def IsLeaf (signingKey : ℕ) (certs : Option Bytes) (chipId : Bytes) (reportedTcb : ℕ)
    (productName : Text) (leafDer : Bytes) : Prop :=
  (signingKey = snpSigningKeyVcek ∧
    (certs.bind (CertTable.lookup · CertTable.guidVcek) = some leafDer ∨
      certs.bind (CertTable.lookup · CertTable.guidVcek) = none ∧
        kds (vcekUrl productName chipId reportedTcb) = .ok leafDer)) ∨
  (signingKey = snpSigningKeyVlek ∧
    certs.bind (CertTable.lookup · CertTable.guidVlek) = some leafDer)

/-- The service's name for the selected key. -/
def endorser (signingKey : ℕ) : Text :=
  if signingKey = snpSigningKeyVcek then "vcek".toList else "vlek".toList

/-- The name that an error gives the selected key. -/
def endorserName (signingKey : ℕ) : Text :=
  if signingKey = snpSigningKeyVcek then "VCEK".toList else "VLEK".toList

/-- The product's chain endorses a currently valid certificate of the selected key, and its key
verifies the signature. -/
def EndorsedBy (signedData : Bytes) (signature : L.Signature) (signingKey : ℕ)
    (certs : Option Bytes) (chipId : Bytes) (reportedTcb : ℕ) (productName : Text) : Prop :=
  ∃ leafDer chainPemBytes cert vcekPubkey,
    IsLeaf kds signingKey certs chipId reportedTcb productName leafDer ∧
    kds (certChainUrl (endorser signingKey) productName) = .ok chainPemBytes ∧
    Endorsement.ChainsToPinnedArk L leafDer chainPemBytes ∧
    L.x509 leafDer = some cert ∧ cert.isValid = true ∧
    Endorsement.extractP384PubkeyFromDer L leafDer = .ok vcekPubkey ∧
    L.p384Verify vcekPubkey signedData signature = true

variable {L kds}

theorem embeddedCert_eq (certs : Option Bytes) (guid : Bytes) :
    embeddedCert certs guid = .ok (certs.bind (CertTable.lookup · guid)) := by
  cases certs with
  | none => rfl
  | some certs => exact CertTable.findCert_eq certs guid

theorem orFetch_eq_ok_iff {url : Text} {cert : Option Bytes} {leafDer : Bytes} :
    orFetch kds url cert = .ok leafDer ↔
      cert = some leafDer ∨ cert = none ∧ kds url = .ok leafDer := by
  cases cert <;> simp [orFetch]

variable {signingKey reportedTcb : ℕ} {certs : Option Bytes} {chipId : Bytes} {productName : Text}

theorem leafCert_safe :
    Outcome.Safe (leafCert kds signingKey certs chipId reportedTcb productName) := by
  rw [leafCert]
  split_ifs
  · rw [embeddedCert_eq]
    exact Outcome.safe_ok.bind fun _ _ => Outcome.safe_lift.bind fun _ _ => Outcome.safe_ok
  · refine Outcome.safe_lift.bind fun certs _ => ?_
    rw [CertTable.findCert_eq]
    exact Outcome.safe_ok.bind fun _ _ => Outcome.safe_lift.bind fun _ _ => Outcome.safe_ok
  · exact Outcome.safe_err

theorem leafCert_eq_ok_iff {leafDer : Bytes} {chainUrl name : Text} :
    leafCert kds signingKey certs chipId reportedTcb productName = .ok (leafDer, chainUrl, name) ↔
      IsLeaf kds signingKey certs chipId reportedTcb productName leafDer ∧
        chainUrl = certChainUrl (endorser signingKey) productName ∧
        name = endorserName signingKey := by
  have hne : ¬ snpSigningKeyVlek = snpSigningKeyVcek := by decide
  rw [leafCert]
  split_ifs with hvcek hvlek
  · subst hvcek
    rw [embeddedCert_eq]
    simp only [Except.bind_eq_ok_iff, Except.ok.injEq, exists_eq_left', Outcome.lift_eq_ok_iff,
      orFetch_eq_ok_iff, Prod.mk.injEq, IsLeaf, endorser, endorserName, if_true, true_and,
      Ne.symm hne, false_and, or_false]
    grind
  · subst hvlek
    simp only [CertTable.findCert_eq, Except.bind_eq_ok_iff, Except.ok.injEq, exists_eq_left',
      Outcome.lift_eq_ok_iff, okOr_eq_ok_iff, Prod.mk.injEq, IsLeaf, endorser, endorserName, hne,
      if_false, false_and, false_or, true_and, Option.bind_eq_some_iff]
    grind
  · simp [IsLeaf, hvcek, hvlek]

theorem tryProduct_safe {signedData : Bytes} {signature : L.Signature} :
    Outcome.Safe (tryProduct L kds signedData signature signingKey certs chipId reportedTcb
      productName) := by
  refine leafCert_safe.bind fun _ _ => Outcome.safe_lift.bind fun _ _ => ?_
  refine (Endorsement.verifyVcekChain_safe _ _).bind fun _ _ => ?_
  exact Outcome.safe_lift.bind fun _ _ => Outcome.safe_lift.bind fun _ _ => Outcome.safe_lift

theorem tryProduct_eq_ok_iff {signedData : Bytes} {signature : L.Signature} :
    tryProduct L kds signedData signature signingKey certs chipId reportedTcb productName = .ok () ↔
      EndorsedBy L kds signedData signature signingKey certs chipId reportedTcb productName := by
  rw [tryProduct, Except.bind_eq_ok_iff]
  simp only [Prod.exists, leafCert_eq_ok_iff, Except.bind_eq_ok_iff, exists_unit_iff,
    Outcome.lift_eq_ok_iff, ensure_eq_ok_iff, Endorsement.verifyVcekChain_eq_ok_iff,
    Endorsement.verifyVcekCertificate_eq_ok_iff]
  constructor
  · rintro ⟨leafDer, _, _, ⟨hleaf, rfl, rfl⟩, chain, hchain, hark, ⟨cert, hcert, hvalid⟩, key, hkey,
      hverify⟩
    exact ⟨leafDer, chain, cert, key, hleaf, hchain, hark, hcert, hvalid, hkey, hverify⟩
  · rintro ⟨leafDer, chain, cert, key, hleaf, hchain, hark, hcert, hvalid, hkey, hverify⟩
    exact ⟨leafDer, _, _, ⟨hleaf, rfl, rfl⟩, chain, hchain, hark, ⟨cert, hcert, hvalid⟩, key, hkey,
      hverify⟩

theorem amdSignatureToP384_eq {sigR sigS : Bytes} (hr : sigR.length = 72) (hs : sigS.length = 72) :
    amdSignatureToP384 L sigR sigS =
      lift (okOr (L.signatureFromSlice ((sigR.take 48).reverse ++ (sigS.take 48).reverse))
        (.verificationFailed "invalid ECDSA P-384 signature encoding: ".toList)) := by
  have hr48 : ecdsaP384ScalarLen ≤ sigR.length := by rw [hr]; decide
  have hs48 : ecdsaP384ScalarLen ≤ sigS.length := by rw [hs]; decide
  rw [amdSignatureToP384, ensure, if_pos ⟨hr, hs⟩, Bytes.index_eq_ok (Nat.zero_le _) hr48,
    Bytes.index_eq_ok (Nat.zero_le _) hs48]
  rfl

section Signature

variable {signedData sigR sigS : Bytes} (hr : sigR.length = 72) (hs : sigS.length = 72)
include hr hs

theorem verifyReportSignature_safe : Outcome.Safe
    (verifyReportSignature L kds signedData sigR sigS chipId reportedTcb signingKey certs) := by
  refine Outcome.safe_lift.bind fun _ _ => ?_
  rw [amdSignatureToP384_eq hr hs]
  exact Outcome.safe_lift.bind fun _ _ => firstProduct_safe (fun _ _ => tryProduct_safe) []

theorem verifyReportSignature_eq_ok_iff :
    verifyReportSignature L kds signedData sigR sigS chipId reportedTcb signingKey certs = .ok () ↔
      (∃ b ∈ sigR ++ sigS, b ≠ 0) ∧ ∃ signature,
        L.signatureFromSlice ((sigR.take 48).reverse ++ (sigS.take 48).reverse) = some signature ∧
        ∃ productName ∈ candidateProductNames,
          EndorsedBy L kds signedData signature signingKey certs chipId reportedTcb productName := by
  have hzero : ¬ (allZero sigR = true ∧ allZero sigS = true) ↔ ∃ b ∈ sigR ++ sigS, b ≠ 0 := by
    rw [← Bool.and_eq_true, allZero, allZero, ← List.all_append, List.all_eq_true]
    simp only [beq_iff_eq, not_forall, exists_prop, ne_eq]
  rw [verifyReportSignature, amdSignatureToP384_eq hr hs]
  simp only [Except.bind_eq_ok_iff, exists_unit_iff, Outcome.lift_eq_ok_iff, ensure_eq_ok_iff, hzero,
    okOr_eq_ok_iff, firstProduct_eq_ok_iff (fun _ _ => tryProduct_safe), tryProduct_eq_ok_iff]

end Signature

/-! ### What is accepted -/

/-- The signer info word. -/
def signerInfo (signedData : Bytes) : ℕ := Bytes.le (Bytes.range signedData 0x48 0x4C)

/-- The selected key: bits 2 to 4 of the signer info. -/
def selector (signedData : Bytes) : ℕ := (signerInfo signedData >>> 2) &&& 7

/-- What a report has to say, and that it is signed at all. -/
structure ReportChecks (signedData sigR sigS : Bytes) (expected : Option Bytes) : Prop where
  debugDisabled : (Bytes.le (Bytes.range signedData 0x08 0x10)).testBit 19 = false
  measurement : ∀ m, expected = some m → Bytes.range signedData 0x90 0xC0 = m
  noReservedBits : signerInfo signedData < 2 ^ 5
  selectsKey : selector signedData = snpSigningKeyVcek ∨ selector signedData = snpSigningKeyVlek
  nonzero : ∃ b ∈ sigR ++ sigS, b ≠ 0

/-- A report is accepted, as a condition on the bytes under its signature, the two signature
fields and the certificate blob; nothing else of the report is read. -/
structure ReportAccepted (L : CertLibraries) (kds : Kds) (signedData sigR sigS : Bytes)
    (certs expected : Option Bytes) : Prop extends ReportChecks signedData sigR sigS expected where
  endorsed : ∃ signature,
    L.signatureFromSlice ((sigR.take 48).reverse ++ (sigS.take 48).reverse) = some signature ∧
    ∃ productName ∈ candidateProductNames,
      EndorsedBy L kds signedData signature (selector signedData) certs
        (Bytes.range signedData 0x1A0 0x1E0) (Bytes.le (Bytes.range signedData 0x180 0x188))
        productName

theorem checkGuestPolicy_eq_ok_iff {policy : ℕ} :
    checkGuestPolicy policy = .ok () ↔ policy.testBit 19 = false := by
  have hbit : policyDebugAllowedBit = 2 ^ 19 := by decide
  rw [checkGuestPolicy, ensure_eq_ok_iff, hbit, Nat.and_two_pow]
  cases policy.testBit 19 <;> simp

theorem signingKeyOf_eq_ok_iff {flags key : ℕ} :
    signingKeyOf flags = .ok key ↔ flags < 2 ^ 5 ∧
      ((flags >>> 2) &&& 7 = snpSigningKeyVcek ∨ (flags >>> 2) &&& 7 = snpSigningKeyVlek) ∧
      key = (flags >>> 2) &&& 7 := by
  have hshift : flags >>> 5 = 0 ↔ flags < 2 ^ 5 := by
    rw [Nat.shiftRight_eq_div_pow, Nat.div_eq_zero_iff]
    simp
  have hsel : ∀ k : ℕ, (¬ (snpSigningKeyVlek < k ∧ k ≠ 7) ∧ k ≠ 7) ↔
      (k = snpSigningKeyVcek ∨ k = snpSigningKeyVlek) := by
    intro k
    simp only [snpSigningKeyVlek, snpSigningKeyVcek]
    omega
  rw [signingKeyOf]
  simp only [Except.unit_bind_eq_ok_iff, ensure_eq_ok_iff, hshift, Except.ok.injEq, ← hsel]
  grind

section Fields

/-! A field of the report is a field of the data. -/

variable {data : Bytes} (hlen : 0x4A0 ≤ data.length)
include hlen

theorem array_report {n offset : ℕ} (h : offset + n ≤ 0x4A0) :
    ∃ a : ByteArr n, a.1 = Bytes.range data offset (offset + n) ∧
      (Bytes.array n (Bytes.range data 0 0x4A0) offset : Outcome AttestError _) = .ok a := by
  have hreport := Bytes.length_range (Nat.zero_le _) hlen
  have hfield := Bytes.range_range (b := data) (i := 0) (k := offset) (l := offset + n) (j := 0x4A0)
    (by omega)
  rw [Nat.zero_add, Nat.zero_add] at hfield
  exact ⟨_, hfield, Bytes.array_eq_ok (by omega)⟩

theorem readLe_report {n offset : ℕ} {name : Text} (h : offset + n ≤ 0x4A0) :
    readLe n name (Bytes.range data 0 0x4A0) offset =
      .ok (Bytes.le (Bytes.range data offset (offset + n))) := by
  have hreport := Bytes.length_range (Nat.zero_le _) hlen
  have hfield := Bytes.length_range (b := data) (Nat.le_add_right offset n) (by omega)
  rw [Nat.add_sub_cancel_left] at hfield
  rw [readLe, Bytes.get_eq_some (Nat.le_add_right offset n) (by omega),
    Bytes.range_range (by omega), Nat.zero_add, Nat.zero_add]
  change (Bytes.toArr n (Bytes.range data offset (offset + n)) >>= fun array =>
    .ok (Bytes.le array.1)) = _
  rw [Bytes.toArr_eq_ok hfield]
  rfl

theorem signingKey_report : SevSnp.signingKey (Bytes.range data 0 0x4A0) =
    lift (signingKeyOf (signerInfo data)) := by
  have hreport := Bytes.length_range (Nat.zero_le _) hlen
  have hfield := Bytes.length_range (b := data) (i := 0x48) (j := 0x4C) (by omega) (by omega)
  have hget : Bytes.get (Bytes.range data 0 0x4A0) signingKeyOffset (signingKeyOffset + 4) =
      some (Bytes.range (Bytes.range data 0 0x4A0) 0x48 0x4C) :=
    Bytes.get_eq_some (by decide) (by rw [hreport]; decide)
  rw [SevSnp.signingKey, hget, Bytes.range_range (by omega)]
  change (Bytes.toArr 4 (Bytes.range data 0x48 0x4C) >>= fun array =>
    lift (signingKeyOf (Bytes.le array.1))) = _
  rw [Bytes.toArr_eq_ok hfield]
  rfl

/-- On data that is long enough the report parses, so that only the checks remain. -/
theorem verify_eq (L : CertLibraries) (kds : Kds) {evidence : Evidence}
    (htee : evidence.teeType = .sevSnp)
    (hdata : evidence.data = data) (expected : Option Bytes) :
    ∃ reportData : ByteArr 64, reportData.1 = Bytes.range data 0x50 0x90 ∧
      verify L kds evidence expected = (do
        lift (checkGuestPolicy (Bytes.le (Bytes.range data 0x08 0x10)))
        lift (checkMeasurement expected (Bytes.range data 0x90 0xC0))
        let signingKey ← lift (signingKeyOf (signerInfo data))
        verifyReportSignature L kds (Bytes.range data 0 0x2A0) (Bytes.range data 0x2A0 0x2E8)
          (Bytes.range data 0x2E8 0x330) (Bytes.range data 0x1A0 0x1E0)
          (Bytes.le (Bytes.range data 0x180 0x188)) signingKey (certBlobBytes data)
        .ok reportData) := by
  have hreport : reportBytes data = .ok (Bytes.range data 0 0x4A0) :=
    okOr_eq_ok_iff.mpr (Bytes.get_eq_some (Nat.zero_le _) hlen)
  -- every read at a fixed offset is inside the report, and so inside the evidence
  have hpolicy : readLeU64 (Bytes.range data 0 0x4A0) policyOffset =
      .ok (Bytes.le (Bytes.range data 0x08 0x10)) := readLe_report hlen (by decide)
  have hguestSvn : readLeU32 (Bytes.range data 0 0x4A0) guestSvnOffset =
      .ok (Bytes.le (Bytes.range data 0x04 0x08)) := readLe_report hlen (by decide)
  obtain ⟨reportData, hrd, hreportData⟩ :
      ∃ a : ByteArr reportDataLen, a.1 = Bytes.range data 0x50 0x90 ∧
        Bytes.array reportDataLen (Bytes.range data 0 0x4A0) reportDataOffset = .ok a :=
    array_report hlen (by decide)
  have hmeasurement : (Bytes.index (Bytes.range data 0 0x4A0) measurementOffset
      (measurementOffset + measurementLen) : Outcome AttestError Bytes) =
      .ok (Bytes.range data 0x90 0xC0) := Bytes.index_range hlen (by decide) (by decide)
  have hsignedData : (Bytes.index (Bytes.range data 0 0x4A0) 0 signedDataLen :
      Outcome AttestError Bytes) =
      .ok (Bytes.range data 0 0x2A0) := Bytes.index_range hlen (by decide) (by decide)
  have hsigArea : (Bytes.index (Bytes.range data 0 0x4A0) signatureOffset
      (signatureOffset + signatureLen) : Outcome AttestError Bytes) =
      .ok (Bytes.range data 0x2A0 0x4A0) := Bytes.index_range hlen (by decide) (by decide)
  have hsigR : (Bytes.index (Bytes.range data 0x2A0 0x4A0) 0 ecdsaP384AmdScalarLen :
      Outcome AttestError Bytes) =
      .ok (Bytes.range data 0x2A0 0x2E8) := Bytes.index_range hlen (by decide) (by decide)
  have hsigS : (Bytes.index (Bytes.range data 0x2A0 0x4A0) ecdsaP384AmdScalarLen
      (ecdsaP384AmdScalarLen * 2) : Outcome AttestError Bytes) =
      .ok (Bytes.range data 0x2E8 0x330) := Bytes.index_range hlen (by decide) (by decide)
  obtain ⟨chipId, hchip, hchipId⟩ :
      ∃ a : ByteArr chipIdLen, a.1 = Bytes.range data 0x1A0 0x1E0 ∧
        Bytes.array chipIdLen (Bytes.range data 0 0x4A0) chipIdOffset = .ok a :=
    array_report hlen (by decide)
  obtain ⟨tcb, htcb, hreportedTcb⟩ :
      ∃ a : ByteArr 8, a.1 = Bytes.range data 0x180 0x188 ∧
        Bytes.array 8 (Bytes.range data 0 0x4A0) reportedTcbOffset = .ok a :=
    array_report hlen (by decide)
  have hbind : ∀ {α β : Type} (a : α) (f : α → Outcome AttestError β),
      (Except.ok a : Outcome AttestError α) >>= f = f a := fun _ _ => rfl
  have hlift : ∀ {α : Type} (a : α), lift (.ok a : Except AttestError α) = .ok a := fun _ => rfl
  have htee : ∀ e : AttestError, ensure (evidence.teeType = .sevSnp) e = .ok () :=
    fun _ => ensure_eq_ok_iff.mpr htee
  have hsize : ∀ e : AttestError, ensure (snpReportSize ≤ data.length) e = .ok () :=
    fun _ => ensure_eq_ok_iff.mpr hlen
  refine ⟨reportData, hrd, ?_⟩
  subst hdata
  -- what is left of the body are the checks that can fail
  rw [verify]
  simp only [htee, hsize, hreport, hlift, hbind, hpolicy, hguestSvn, hreportData, hmeasurement,
    hsignedData, hsigArea, hsigR, hsigS, signingKey_report hlen, hchipId, hreportedTcb, hchip, htcb]

end Fields

/-- Evidence of another type and data that is too short are refused. -/
theorem verify_eq_err (L : CertLibraries) (kds : Kds) {evidence : Evidence}
    (h : ¬ (evidence.teeType = .sevSnp ∧ snpReportSize ≤ evidence.data.length))
    (expected : Option Bytes) :
    ∃ e, verify L kds evidence expected = .error (.err e) := by
  by_cases htee : evidence.teeType = .sevSnp
  · have hlen : ¬ snpReportSize ≤ evidence.data.length := fun hlen => h ⟨htee, hlen⟩
    rw [verify, ensure, if_pos htee, ensure, if_neg hlen]
    exact ⟨_, rfl⟩
  · rw [verify, ensure, if_neg htee]
    exact ⟨_, rfl⟩

/-- `verify_eq`, with every field read from the signed bytes: all of them end before the
signature. -/
theorem verify_eq_signed (L : CertLibraries) (kds : Kds) {evidence : Evidence}
    (htee : evidence.teeType = .sevSnp)
    (hlen : 0x4A0 ≤ evidence.data.length) (expected : Option Bytes) :
    let signedData := Bytes.range evidence.data 0 0x2A0
    ∃ reportData : ByteArr 64, reportData.1 = Bytes.range signedData 0x50 0x90 ∧
      verify L kds evidence expected = (do
        lift (checkGuestPolicy (Bytes.le (Bytes.range signedData 0x08 0x10)))
        lift (checkMeasurement expected (Bytes.range signedData 0x90 0xC0))
        let signingKey ← lift (signingKeyOf (signerInfo signedData))
        verifyReportSignature L kds signedData (Bytes.range evidence.data 0x2A0 0x2E8)
          (Bytes.range evidence.data 0x2E8 0x330) (Bytes.range signedData 0x1A0 0x1E0)
          (Bytes.le (Bytes.range signedData 0x180 0x188)) signingKey (certBlobBytes evidence.data)
        .ok reportData) := by
  intro signedData
  obtain ⟨reportData, hrd, hverify⟩ := verify_eq hlen L kds htee rfl expected
  have hfield : ∀ i j, j ≤ 0x2A0 →
      Bytes.range evidence.data i j = Bytes.range signedData i j := by
    intro i j hj
    rw [Bytes.range_range (by omega), Nat.zero_add, Nat.zero_add]
  have hinfo : signerInfo evidence.data = signerInfo signedData :=
    congrArg Bytes.le (hfield 0x48 0x4C (by omega))
  refine ⟨reportData, hrd.trans (hfield 0x50 0x90 (by omega)), ?_⟩
  rw [hverify, hfield 0x08 0x10 (by omega), hfield 0x90 0xC0 (by omega), hinfo,
    hfield 0x1A0 0x1E0 (by omega), hfield 0x180 0x188 (by omega)]

/-- The evidence is a report that is accepted. -/
structure EvidenceAccepted (L : CertLibraries) (kds : Kds) (evidence : Evidence)
    (expected : Option Bytes) : Prop where
  teeType : evidence.teeType = .sevSnp
  length : 1184 ≤ evidence.data.length
  report : ReportAccepted L kds (Bytes.range evidence.data 0 0x2A0)
    (Bytes.range evidence.data 0x2A0 0x2E8) (Bytes.range evidence.data 0x2E8 0x330)
    (certBlobBytes evidence.data) expected

theorem length_sigR {data : Bytes} (hlen : 0x4A0 ≤ data.length) :
    (Bytes.range data 0x2A0 0x2E8).length = 72 :=
  Bytes.length_range (by omega) (by omega)

theorem length_sigS {data : Bytes} (hlen : 0x4A0 ≤ data.length) :
    (Bytes.range data 0x2E8 0x330).length = 72 :=
  Bytes.length_range (by omega) (by omega)

theorem verify_safe (evidence : Evidence) (expected : Option Bytes) :
    Outcome.Safe (verify L kds evidence expected) := by
  by_cases hheader : evidence.teeType = .sevSnp ∧ snpReportSize ≤ evidence.data.length
  · obtain ⟨htee, hlen⟩ := hheader
    obtain ⟨rd, -, hverify⟩ := verify_eq_signed L kds htee hlen expected
    rw [hverify]
    refine Outcome.safe_lift.bind fun _ _ => Outcome.safe_lift.bind fun _ _ =>
      Outcome.safe_lift.bind fun _ _ => ?_
    exact (verifyReportSignature_safe (length_sigR hlen) (length_sigS hlen)).bind fun _ _ =>
      Outcome.safe_ok
  · obtain ⟨e, he⟩ := verify_eq_err L kds hheader expected
    rw [he]
    exact Outcome.safe_err

theorem verify_eq_ok_iff {evidence : Evidence} {expected : Option Bytes} {reportData : ByteArr 64} :
    verify L kds evidence expected = .ok reportData ↔
      EvidenceAccepted L kds evidence expected ∧
        reportData.1 = Bytes.range (Bytes.range evidence.data 0 0x2A0) 0x50 0x90 := by
  by_cases hheader : evidence.teeType = .sevSnp ∧ snpReportSize ≤ evidence.data.length
  · obtain ⟨htee, hlen⟩ := hheader
    obtain ⟨rd, hrd, hverify⟩ := verify_eq_signed L kds htee hlen expected
    have hresult : rd = reportData ↔
        reportData.1 = Bytes.range (Bytes.range evidence.data 0 0x2A0) 0x50 0x90 := by
      rw [← hrd, Subtype.ext_iff, eq_comm]
    rw [hverify]
    simp only [Except.bind_eq_ok_iff, exists_unit_iff, Outcome.lift_eq_ok_iff,
      checkGuestPolicy_eq_ok_iff, checkMeasurement_eq_ok_iff, signingKeyOf_eq_ok_iff,
      verifyReportSignature_eq_ok_iff (length_sigR hlen) (length_sigS hlen), Except.ok.injEq, hresult]
    constructor
    · rintro ⟨hdebug, hmeasurement, _, ⟨hreserved, hselects, rfl⟩, ⟨hnonzero, hendorsed⟩, hrd'⟩
      exact ⟨⟨htee, hlen, ⟨hdebug, hmeasurement, hreserved, hselects, hnonzero⟩, hendorsed⟩, hrd'⟩
    · rintro ⟨⟨-, -, h⟩, hrd'⟩
      exact ⟨h.debugDisabled, h.measurement, _, ⟨h.noReservedBits, h.selectsKey, rfl⟩,
        ⟨h.nonzero, h.endorsed⟩, hrd'⟩
  · obtain ⟨e, he⟩ := verify_eq_err L kds hheader expected
    rw [he]
    refine iff_of_false (by simp) ?_
    rintro ⟨⟨htee, hlen, -⟩, -⟩
    exact hheader ⟨htee, hlen⟩

end SevSnp

end TrustedRelay
