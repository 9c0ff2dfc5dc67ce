import TrustedRelay.Attest.Libraries
import TrustedRelay.Attest.Types

/-!
# Evidence in certificates

Attestation evidence travels in two extensions of the TLS certificate, one with the evidence and
one with the type of TEE. Any certificate may hold any number of each, in any order:
`embeds_of_extract` says that what is read is the last of either.
-/

namespace TrustedRelay

namespace Quote

/-- The object identifier of the evidence extension, in dotted form. -/
def oidEvidenceBlobStr : Text := "1.2.840.113741.1337.6".toList

/-- The object identifier of the TEE type extension, in dotted form. -/
def oidTeeTypeStr : Text := "1.2.840.113741.1337.7".toList

/-- The same as arcs, as the generator takes it. -/
def oidEvidenceBlob : List ℕ := [1, 2, 840, 113741, 1337, 6]

/-- The same as arcs. -/
def oidTeeType : List ℕ := [1, 2, 840, 113741, 1337, 7]

/-- The dotted form of an object identifier. -/
def oidText (arcs : List ℕ) : Text := ".".toList.intercalate (arcs.map Text.decimal)

/-- The byte that stands for a TEE type. -/
def teeTypeToByte : TeeType → UInt8
  | .mock => 0
  | .tdx => 1
  | .sevSnp => 2
  | .gcpConfidentialSpace => 3

/-- An extension of the caller's own: its object identifier in arcs, and its content. -/
structure CustomExtension where
  oid : List ℕ
  content : Bytes
deriving DecidableEq

/-- The certificate parameters, as far as the caller chooses them. -/
structure CertificateParams where
  subjectAltNames : List Text
  distinguishedName : List (Text × Text)
  customExtensions : List CustomExtension
deriving DecidableEq

/-- The certificate parameters with the evidence in two extensions. -/
def certParamsWithEvidence (evidence : Evidence) : CertificateParams where
  subjectAltNames := ["trusted-relay".toList]
  distinguishedName :=
    [("CommonName".toList, "trusted-relay".toList),
      ("OrganizationName".toList, "trusted-relay".toList)]
  customExtensions :=
    [⟨oidEvidenceBlob, evidence.data⟩, ⟨oidTeeType, [teeTypeToByte evidence.teeType]⟩]

/-- The TEE type that a byte stands for. -/
def byteToTeeType (b : UInt8) : Except AttestError TeeType :=
  if b = 0 then .ok .mock
  else if b = 1 then .ok .tdx
  else if b = 2 then .ok .sevSnp
  else if b = 3 then .ok .gcpConfidentialSpace
  else .error (.x509Error ("unknown TEE type byte: ".toList ++ Text.decimal b.toNat))

/-- The evidence and the type that were seen so far. -/
abbrev Found := Option Bytes × Option TeeType

/-- The TEE type in an extension value, which is one byte. -/
def teeTypeOf (value : Bytes) : Except AttestError TeeType :=
  match value with
  | [] => .error (.x509Error "TEE type extension is empty".toList)
  | b :: _ => byteToTeeType b

/-- One extension of the loop: the last of each kind counts. -/
def addExtension (found : Found) (ext : X509Extension) : Except AttestError Found :=
  if ext.oid = oidEvidenceBlobStr then .ok (some ext.value, found.2)
  else if ext.oid = oidTeeTypeStr then do .ok (found.1, some (← teeTypeOf ext.value))
  else .ok found

/-- The parsed certificate. -/
def parseCert (x509 : X509Parser) (certDer : Bytes) : Except AttestError X509Certificate :=
  okOr (x509 certDer) (.x509Error "failed to parse cert: ".toList)

/-- The evidence in a certificate; both extensions are required. -/
def extractEvidenceFromCert (x509 : X509Parser) (certDer : Bytes) :
    Except AttestError Evidence := do
  let cert ← parseCert x509 certDer
  let found ← cert.extensions.foldlM addExtension (none, none)
  let data ← okOr found.1 (.x509Error "missing attestation evidence extension".toList)
  let tt ← okOr found.2 (.x509Error "missing TEE type extension".toList)
  .ok ⟨tt, data⟩

/-- The SubjectPublicKeyInfo of a certificate. -/
def extractSpkiFromCert (x509 : X509Parser) (certDer : Bytes) : Except AttestError Bytes := do
  let cert ← parseCert x509 certDer
  .ok cert.publicKeyRaw

/-! ### What is read -/

/-- The value of the last extension with an object identifier. -/
def lastValue (oid : Text) (extensions : List X509Extension) : Option Bytes :=
  ((extensions.filter (·.oid = oid)).getLast?).map X509Extension.value

/-- The certificate's last evidence extension holds the evidence, and its last type extension
names the type. -/
structure Embeds (cert : X509Certificate) (evidence : Evidence) : Prop where
  data : lastValue oidEvidenceBlobStr cert.extensions = some evidence.data
  teeType : ∃ value, lastValue oidTeeTypeStr cert.extensions = some value ∧
    teeTypeOf value = .ok evidence.teeType

theorem lastValue_concat (oid : Text) (extensions : List X509Extension) (ext : X509Extension) :
    lastValue oid (extensions ++ [ext]) =
      if ext.oid = oid then some ext.value else lastValue oid extensions := by
  by_cases h : ext.oid = oid <;> simp [lastValue, List.filter_append, h]

/-- The loop's state describes the last extensions of the part that it has passed. -/
def Describes (extensions : List X509Extension) (found : Found) : Prop :=
  (∀ data, found.1 = some data → lastValue oidEvidenceBlobStr extensions = some data) ∧
  ∀ tt, found.2 = some tt → ∃ value, lastValue oidTeeTypeStr extensions = some value ∧
    teeTypeOf value = .ok tt

theorem describes_addExtension {extensions : List X509Extension} {ext : X509Extension}
    {found found' : Found} (h : Describes extensions found)
    (hadd : addExtension found ext = .ok found') : Describes (extensions ++ [ext]) found' := by
  have hne : oidEvidenceBlobStr ≠ oidTeeTypeStr := by decide
  unfold Describes
  rw [lastValue_concat, lastValue_concat]
  rw [addExtension] at hadd
  split_ifs at hadd with hblob htype
  · obtain rfl := Except.ok.inj hadd
    rw [if_pos hblob, if_neg (hblob ▸ hne)]
    exact ⟨fun _ hdata => hdata, h.2⟩
  · obtain ⟨tt, htt, hfound⟩ := Except.bind_eq_ok_iff.mp hadd
    obtain rfl := Except.ok.inj hfound
    rw [if_neg hblob, if_pos htype]
    refine ⟨h.1, fun tt' htt' => ⟨ext.value, rfl, ?_⟩⟩
    rw [← Option.some.inj htt', htt]
  · obtain rfl := Except.ok.inj hadd
    rw [if_neg hblob, if_neg htype]
    exact h

/-- Extracted evidence is the evidence that the certificate embeds. -/
theorem embeds_of_extract {x509 : X509Parser} {certDer : Bytes} {evidence : Evidence}
    (h : extractEvidenceFromCert x509 certDer = .ok evidence) :
    ∃ cert, x509 certDer = some cert ∧ Embeds cert evidence := by
  obtain ⟨cert, hcert, h⟩ := Except.bind_eq_ok_iff.mp h
  obtain ⟨found, hfound, h⟩ := Except.bind_eq_ok_iff.mp h
  obtain ⟨data, hdata, h⟩ := Except.bind_eq_ok_iff.mp h
  obtain ⟨tt, htt, h⟩ := Except.bind_eq_ok_iff.mp h
  obtain rfl := Except.ok.inj h
  have hdescribes : Describes cert.extensions found := by
    refine foldlM_invariant Describes (by simp [Describes]) ?_ hfound
    intro pre ext s s' _ hs hstep
    exact describes_addExtension hs hstep
  exact ⟨cert, okOr_eq_ok_iff.mp hcert, hdescribes.1 data (okOr_eq_ok_iff.mp hdata),
    hdescribes.2 tt (okOr_eq_ok_iff.mp htt)⟩

/-! ### Reading what was written -/

/-- The extensions that the loop looks at. -/
def isAttestation (ext : X509Extension) : Bool :=
  ext.oid = oidEvidenceBlobStr ∨ ext.oid = oidTeeTypeStr

/-- All other extensions are passed over. -/
theorem foldlM_addExtension_filter (extensions : List X509Extension) (found : Found) :
    extensions.foldlM addExtension found =
      (extensions.filter isAttestation).foldlM addExtension found := by
  induction extensions generalizing found with
  | nil => rfl
  | cons ext extensions ih =>
    by_cases hext : isAttestation ext = true
    · rw [List.filter_cons_of_pos hext, List.foldlM_cons, List.foldlM_cons]
      exact congrArg _ (funext ih)
    · have hskip : addExtension found ext = .ok found := by
        rw [isAttestation, decide_eq_true_eq, not_or] at hext
        rw [addExtension, if_neg hext.1, if_neg hext.2]
      rw [List.filter_cons_of_neg hext, List.foldlM_cons, hskip]
      exact ih found

theorem teeTypeOf_teeTypeToByte (t : TeeType) : teeTypeOf [teeTypeToByte t] = .ok t := by
  cases t <;> rfl

/-- The extensions of the parameters, as a parsed certificate shows them. -/
def CertificateParams.extensions (params : CertificateParams) : List X509Extension :=
  params.customExtensions.map fun ext => ⟨oidText ext.oid, ext.content⟩

/-- Evidence is read back from a certificate that has the written extensions and no others of
their kind. -/
theorem extractEvidence_of_extensions {x509 : X509Parser} {certDer : Bytes} {cert : X509Certificate}
    {evidence : Evidence} (hcert : x509 certDer = some cert)
    (hext : cert.extensions.filter isAttestation = (certParamsWithEvidence evidence).extensions) :
    extractEvidenceFromCert x509 certDer = .ok evidence := by
  have hne : oidTeeTypeStr ≠ oidEvidenceBlobStr := by decide
  have hblob : oidText oidEvidenceBlob = oidEvidenceBlobStr := by decide
  have htype : oidText oidTeeType = oidTeeTypeStr := by decide
  have hfold : cert.extensions.foldlM addExtension (none, none) =
      .ok (some evidence.data, some evidence.teeType) := by
    rw [foldlM_addExtension_filter, hext]
    simp [CertificateParams.extensions, certParamsWithEvidence, hblob, htype, addExtension, hne,
      teeTypeOf_teeTypeToByte]
    rfl
  refine Except.bind_eq_ok_iff.mpr ⟨cert, okOr_eq_ok_iff.mpr hcert, ?_⟩
  exact Except.bind_eq_ok_iff.mpr ⟨_, hfold, rfl⟩

end Quote

end TrustedRelay
