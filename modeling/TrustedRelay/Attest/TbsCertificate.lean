import TrustedRelay.Attest.Endorsement

/-!
# The signed part of a certificate

`tbs_certificate_der` finds the TBS bytes by counting back from the end of the buffer; the
certificate parser counts forward from its start and leaves what follows the certificate unread.
Both agree when nothing follows. `checksParsedTbs_iff` says exactly when they agree: when the bytes
as far into the body as the unread part is long start with the TBS certificate again.

Of the header parser it is assumed that it looks at no more than the header (`ReadsHeaders`), and of
the certificate parser that what it accepts starts with a sequence whose first element is the TBS
certificate (`ReadsCertificates`).
-/

namespace TrustedRelay

namespace Endorsement

/-! ### What the parsers read -/

/-- The header parser consumes a front of its input and does not look at the rest. -/
def ReadsHeaders (header : Bytes → Option Asn1Header) : Prop :=
  ∀ input h, header input = some h → ∃ front, input = front ++ h.rest ∧
    ∀ rest, header (front ++ rest) = some ⟨rest, h.length⟩

/-- The bytes of a certificate and what follows it: an outer header, the TBS certificate with its
own header, the other elements of the outer sequence, and the bytes after it. -/
@[ext] structure CertOctets where
  outerFront : Bytes
  tbsFront : Bytes
  tbsContent : Bytes
  others : Bytes
  trailing : Bytes
deriving DecidableEq

namespace CertOctets

/-- The encoded first element of the outer sequence. -/
def tbs (o : CertOctets) : Bytes := o.tbsFront ++ o.tbsContent

/-- The content of the outer sequence. -/
def body (o : CertOctets) : Bytes := o.tbs ++ o.others

/-- The last bytes of the buffer, as many as the outer sequence has. -/
def lastBytes (o : CertOctets) : Bytes := (o.body ++ o.trailing).drop o.trailing.length

/-- The buffer is these bytes, and the lengths in the headers are theirs. -/
structure Encodes (header : Bytes → Option Asn1Header) (o : CertOctets) (certDer : Bytes) :
    Prop where
  certDer_eq : certDer = o.outerFront ++ (o.body ++ o.trailing)
  outer : header certDer = some ⟨o.body ++ o.trailing, some (usizeLen o.body)⟩
  first : header o.body = some ⟨o.tbsContent ++ o.others, some (usizeLen o.tbsContent)⟩

end CertOctets

/-- The certificate parser reads a leading sequence and its first element. -/
def ReadsCertificates (L : CertLibraries) : Prop :=
  ∀ certDer cert, L.x509 certDer = some cert → ∃ o : CertOctets, o.Encodes L.header certDer

section Layout

variable {header : Bytes → Option Asn1Header} {o o' : CertOctets} {certDer : Bytes}

theorem toNat_usizeLen {b : Bytes} (h : b.length < 2 ^ 64) : (usizeLen b).toNat = b.length :=
  UInt64.toNat_ofNat_of_lt' h

/-- Parts of one length, at the start of one buffer, are equal, and so is what follows. -/
private theorem append_inj_of_usizeLen {a a' b b' : Bytes} (ha : (a ++ b).length < 2 ^ 64)
    (h : a ++ b = a' ++ b') (hlen : usizeLen a = usizeLen a') : a = a' ∧ b = b' := by
  have hall := congrArg List.length h
  simp only [List.length_append] at ha hall
  have heq : a.length = a'.length := by
    rw [← toNat_usizeLen (by omega : a.length < 2 ^ 64), hlen,
      toNat_usizeLen (by omega : a'.length < 2 ^ 64)]
  exact List.append_inj h heq

/-- A buffer is encoded in one way. -/
theorem CertOctets.Encodes.unique (hlen : certDer.length < 2 ^ 63) (h : o.Encodes header certDer)
    (h' : o'.Encodes header certDer) : o' = o := by
  have hall := congrArg List.length h.certDer_eq
  have hall' := congrArg List.length h'.certDer_eq
  simp only [List.length_append] at hall hall'
  have houter := h.outer.symm.trans h'.outer
  obtain ⟨hbody, htrailing⟩ := append_inj_of_usizeLen (by rw [List.length_append]; omega)
    (congrArg Asn1Header.rest (Option.some.inj houter))
    (Option.some.inj (congrArg Asn1Header.length (Option.some.inj houter)))
  have hfirst := h.first.symm.trans (hbody ▸ h'.first)
  have htbs := congrArg List.length (show o.body = o.tbsFront ++ (o.tbsContent ++ o.others) by
    rw [CertOctets.body, CertOctets.tbs, List.append_assoc])
  simp only [List.length_append] at htbs
  obtain ⟨hcontent, hothers⟩ := append_inj_of_usizeLen (by rw [List.length_append]; omega)
    (congrArg Asn1Header.rest (Option.some.inj hfirst))
    (Option.some.inj (congrArg Asn1Header.length (Option.some.inj hfirst)))
  have hfront : o.tbsFront = o'.tbsFront := by
    have hb : o.body = o'.body := hbody
    simp only [CertOctets.body, CertOctets.tbs, hcontent, hothers] at hb
    exact List.append_cancel_right (List.append_cancel_right hb)
  have houterFront : o.outerFront = o'.outerFront := by
    have hd := h.certDer_eq.symm.trans h'.certDer_eq
    rw [hbody, htrailing] at hd
    exact List.append_cancel_right hd
  exact CertOctets.ext houterFront.symm hfront.symm hcontent.symm hothers.symm htrailing.symm

/-- The TBS header is read the same whatever follows the TBS certificate. -/
theorem CertOctets.Encodes.first_append (hheader : ReadsHeaders header)
    (h : o.Encodes header certDer) (more : Bytes) : header (o.tbs ++ more) =
      some ⟨o.tbsContent ++ more, some (usizeLen o.tbsContent)⟩ := by
  obtain ⟨front, hfront, hread⟩ := hheader _ _ h.first
  have heq : front = o.tbsFront := by
    rw [CertOctets.body, CertOctets.tbs, List.append_assoc] at hfront
    exact (List.append_cancel_right hfront).symm
  rw [CertOctets.tbs, List.append_assoc, ← heq]
  exact hread _

theorem CertOctets.length_lastBytes (o : CertOctets) : o.lastBytes.length = o.body.length := by
  rw [CertOctets.lastBytes, List.length_drop, List.length_append, Nat.add_sub_cancel]

end Layout

/-! ### Which bytes are found -/

section Agreement

variable {L : CertLibraries} {certDer : Bytes}

/-- The body that is found is the last bytes of the buffer. -/
theorem tbsCertificateDerIn_eq {o : CertOctets} (hlen : certDer.length < 2 ^ 63)
    (h : o.Encodes L.header certDer) (checks : Bool) :
    tbsCertificateDerIn L checks certDer = firstElementDer L checks o.lastBytes := by
  have hall := congrArg List.length h.certDer_eq
  simp only [List.length_append] at hall
  have hbody : (usizeLen o.body).toNat = o.body.length := toNat_usizeLen (by omega)
  have hget : Bytes.get certDer (certDer.length - o.body.length) certDer.length =
      some o.lastBytes := by
    have hstart : certDer.length - o.body.length = o.outerFront.length + o.trailing.length := by
      omega
    have hdrop : certDer.drop (o.outerFront.length + o.trailing.length) = o.lastBytes := by
      rw [h.certDer_eq, ← List.drop_drop, List.drop_left]
      rfl
    rw [Bytes.get_eq_some (by omega) le_rfl, Bytes.range, hstart, hdrop,
      List.take_of_length_le (by rw [CertOctets.length_lastBytes]; omega)]
  unfold tbsCertificateDerIn
  rw [h.outer]
  change (usizeSub checks _ _ >>= _) = _
  rw [hbody, usizeSub_eq_ok (by omega)]
  change (Outcome.lift (okOr (Bytes.get _ _ _) _) >>= _) = _
  rw [hget]
  rfl

/-- What is found is a front of the last bytes. -/
theorem prefix_of_firstElementDer {checks : Bool} {certInner tbs : Bytes}
    (h : firstElementDer L checks certInner = .ok tbs) : tbs <+: certInner := by
  simp only [firstElementDer, Except.bind_eq_ok_iff, Outcome.lift_eq_ok_iff, okOr_eq_ok_iff] at h
  obtain ⟨_, _, _, _, _, _, n, _, hget⟩ := h
  rw [Bytes.get, Option.ite_none_right_eq_some, Option.some.injEq] at hget
  rw [← hget.2]
  exact List.take_prefix _ _

/-- A body that starts with the TBS certificate gives it. -/
theorem firstElementDer_append (hheader : ReadsHeaders L.header) {o : CertOctets}
    (h : o.Encodes L.header certDer) (checks : Bool) (more : Bytes)
    (hmore : (o.tbs ++ more).length < 2 ^ 63) :
    firstElementDer L checks (o.tbs ++ more) = .ok o.tbs := by
  have htbs : o.tbs.length = o.tbsFront.length + o.tbsContent.length := List.length_append
  have hall : (o.tbs ++ more).length = o.tbs.length + more.length := List.length_append
  have hrest : (o.tbsContent ++ more).length = o.tbsContent.length + more.length :=
    List.length_append
  have hheaderLen : (usizeSub checks (o.tbs ++ more).length (o.tbsContent ++ more).length :
      Outcome AttestError ℕ) = .ok o.tbsFront.length := by
    rw [usizeSub_eq_ok (by omega)]
    exact congrArg Except.ok (by omega)
  have htotal : (usizeAdd checks o.tbsFront.length (usizeLen o.tbsContent).toNat :
      Outcome AttestError ℕ) = .ok o.tbs.length := by
    rw [toNat_usizeLen (by omega), usizeAdd_eq_ok (by omega), htbs]
  have hget : Bytes.get (o.tbs ++ more) 0 o.tbs.length = some o.tbs := by
    rw [Bytes.get_eq_some (Nat.zero_le _) (by omega), Bytes.range, List.drop_zero, Nat.sub_zero,
      List.take_left]
  unfold firstElementDer
  rw [h.first_append hheader]
  change (usizeSub checks _ (o.tbsContent ++ more).length >>= _) = _
  rw [hheaderLen]
  change (usizeAdd checks _ (usizeLen o.tbsContent).toNat >>= _) = _
  rw [htotal]
  change Outcome.lift (okOr (Bytes.get _ 0 _) _) = _
  rw [hget]
  rfl

/-- Last bytes that start with the TBS certificate lead to it. -/
theorem tbsCertificateDerIn_eq_ok (hheader : ReadsHeaders L.header) {o : CertOctets}
    (hlen : certDer.length < 2 ^ 63) (h : o.Encodes L.header certDer)
    (hleading : o.tbs <+: o.lastBytes) (checks : Bool) : tbsCertificateDerIn L checks certDer = .ok o.tbs := by
  obtain ⟨more, hmore⟩ := hleading
  have hbody := o.length_lastBytes
  have hall := congrArg List.length h.certDer_eq
  simp only [List.length_append] at hall
  rw [tbsCertificateDerIn_eq hlen h, ← hmore]
  exact firstElementDer_append hheader h checks more (by rw [hmore]; omega)

/-- Where nothing follows the certificate, its last bytes are the body. -/
theorem CertOctets.prefix_lastBytes {o : CertOctets} (h : o.trailing = []) :
    o.tbs <+: o.lastBytes := by
  rw [CertOctets.lastBytes, h, List.append_nil]
  exact List.prefix_append _ _

/-- The signature check of a certificate is over `tbs`, with the parsed signature. -/
def VerifiesOver (L : CertLibraries) (cert : X509Certificate) (issuerDer tbs : Bytes) : Prop :=
  ∃ issuer alg, L.x509 issuerDer = some issuer ∧
    rsaPssVerificationAlg L cert.signatureAlgorithm = .ok alg ∧
    L.rsaPssVerify alg issuer.subjectPublicKey tbs cert.signatureValue = true

/-- The bytes that are checked are the parsed certificate's: they are found, with and without
overflow checks, and the issuer's signature is verified over them. -/
structure ChecksParsedTbs (L : CertLibraries) (certDer : Bytes) (cert : X509Certificate)
    (tbs : Bytes) : Prop where
  found : ∀ checks, tbsCertificateDerIn L checks certDer = .ok tbs
  verified : ∀ issuerDer label, verifyCertSignatureWithAlg L certDer issuerDer label = .ok () ↔
    VerifiesOver L cert issuerDer tbs

/-- For every accepted buffer, the bytes that are checked are the TBS certificate that was parsed
exactly when the last bytes of the buffer start with it, as they do when nothing follows the
certificate. A buffer has at most `isize::MAX` bytes. -/
theorem checksParsedTbs_iff (hheader : ReadsHeaders L.header) (hx509 : ReadsCertificates L)
    {cert : X509Certificate} (hlen : certDer.length < 2 ^ 63) (hcert : L.x509 certDer = some cert) :
    ∃ o : CertOctets, o.Encodes L.header certDer ∧
      (∀ o' : CertOctets, o'.Encodes L.header certDer → o' = o) ∧
      (ChecksParsedTbs L certDer cert o.tbs ↔ o.tbs <+: o.lastBytes) ∧
      (o.trailing = [] → o.tbs <+: o.lastBytes) := by
  obtain ⟨o, ho⟩ := hx509 certDer cert hcert
  refine ⟨o, ho, fun o' ho' => ho.unique hlen ho', ⟨fun h => ?_, fun hleading => ?_⟩,
    CertOctets.prefix_lastBytes⟩
  · have hfound := h.found true
    rw [tbsCertificateDerIn_eq hlen ho] at hfound
    exact prefix_of_firstElementDer hfound
  · have hfound := tbsCertificateDerIn_eq_ok hheader hlen ho hleading
    refine ⟨hfound, fun issuerDer label => ?_⟩
    simp only [verifyCertSignatureWithAlg_eq_ok_iff, SignedBy, VerifiesOver, hcert, hfound,
      Option.some.injEq, Except.ok.injEq]
    constructor
    · rintro ⟨_, issuer, _, alg, rfl, hissuer, rfl, halg, hverify⟩
      exact ⟨issuer, alg, hissuer, halg, hverify⟩
    · rintro ⟨issuer, alg, hissuer, halg, hverify⟩
      exact ⟨cert, issuer, o.tbs, alg, rfl, hissuer, rfl, halg, hverify⟩

end Agreement

/-! ### A certificate with a byte after it -/

/-- DER headers of one tag octet and one length octet. -/
def shortHeader : Bytes → Option Asn1Header
  | tag :: len :: rest =>
    if tag &&& 0x1f ≠ 0x1f ∧ len < 0x80 then some ⟨rest, some len.toUInt64⟩ else none
  | _ => none

theorem shortHeader_readsHeaders : ReadsHeaders shortHeader := by
  intro input h hinput
  match input, hinput with
  | tag :: len :: rest, hinput =>
    rw [shortHeader, Option.ite_none_right_eq_some, Option.some.injEq] at hinput
    obtain ⟨hshort, rfl⟩ := hinput
    exact ⟨[tag, len], rfl, fun more => if_pos hshort⟩

/-- A version 1 certificate without names, with a key and a signature of one byte, and what
follows it. -/
def smallCert (trailing : Bytes) : CertOctets where
  outerFront := [0x30, 0x5c]
  tbsFront := [0x30, 0x49]
  tbsContent := [0x02, 0x01, 0x01] ++
    [0x30, 0x0b, 0x06, 0x09, 0x2a, 0x86, 0x48, 0x86, 0xf7, 0x0d, 0x01, 0x01, 0x0a] ++
    [0x30, 0x00] ++
    [0x30, 0x1e] ++ [0x17, 0x0d] ++ Text.asBytes "250101000000Z".toList ++
      [0x17, 0x0d] ++ Text.asBytes "350101000000Z".toList ++
    [0x30, 0x00] ++
    [0x30, 0x13, 0x30, 0x0d, 0x06, 0x09, 0x2a, 0x86, 0x48, 0x86, 0xf7, 0x0d, 0x01, 0x01, 0x01,
      0x05, 0x00, 0x03, 0x02, 0x00, 0xaa]
  others := [0x30, 0x0b, 0x06, 0x09, 0x2a, 0x86, 0x48, 0x86, 0xf7, 0x0d, 0x01, 0x01, 0x0a] ++
    [0x03, 0x02, 0x00, 0xbb]
  trailing := trailing

/-- The buffer. -/
def CertOctets.bytes (o : CertOctets) : Bytes := o.outerFront ++ (o.body ++ o.trailing)

def smallCertFields : X509Certificate where
  extensions := []
  publicKeyRaw := [0x30, 0x13, 0x30, 0x0d, 0x06, 0x09, 0x2a, 0x86, 0x48, 0x86, 0xf7, 0x0d, 0x01,
    0x01, 0x01, 0x05, 0x00, 0x03, 0x02, 0x00, 0xaa]
  subjectPublicKey := [0xaa]
  signatureAlgorithm := ⟨oidPkcs1RsassaPss, none⟩
  signatureValue := [0xbb]
  isValid := true

/-- A parser that knows one certificate. -/
def smallCertParser : X509Parser := fun certDer =>
  if (smallCert []).bytes.isPrefixOf certDer then some smallCertFields else none

def smallCertLibraries : CertLibraries :=
  { CertLibraries.refusing with x509 := smallCertParser, header := shortHeader }

theorem smallCert_encodes (trailing : Bytes) :
    (smallCert trailing).Encodes shortHeader (smallCert trailing).bytes where
  certDer_eq := rfl
  outer := rfl
  first := rfl

theorem smallCertParser_readsCertificates : ReadsCertificates smallCertLibraries := by
  intro certDer cert hcert
  obtain ⟨hfront, -⟩ := Option.ite_none_right_eq_some.mp hcert
  obtain ⟨trailing, rfl⟩ := List.isPrefixOf_iff_prefix.mp hfront
  exact ⟨smallCert trailing, smallCert_encodes trailing⟩

/-- With one byte after the certificate, four other bytes are taken for the TBS certificate. -/
theorem trailingByte_misplaces_tbs :
    smallCertLibraries.x509 (smallCert [0x00]).bytes = some smallCertFields ∧
      (smallCert [0x00]).Encodes smallCertLibraries.header (smallCert [0x00]).bytes ∧
      tbsCertificateDerIn smallCertLibraries true (smallCert [0x00]).bytes =
        .ok [0x49, 0x02, 0x01, 0x01] ∧
      ¬ ChecksParsedTbs smallCertLibraries (smallCert [0x00]).bytes smallCertFields
        (smallCert [0x00]).tbs := by
  have hfound : tbsCertificateDerIn smallCertLibraries true (smallCert [0x00]).bytes =
      .ok [0x49, 0x02, 0x01, 0x01] := by decide
  refine ⟨by decide, smallCert_encodes _, hfound, fun h => ?_⟩
  have htbs := Except.ok.inj (hfound.symm.trans (h.found true))
  exact absurd htbs (by decide)

theorem smallCert_checksParsedTbs :
    ChecksParsedTbs smallCertLibraries (smallCert []).bytes smallCertFields (smallCert []).tbs := by
  have hcert : smallCertLibraries.x509 (smallCert []).bytes = some smallCertFields := by decide
  obtain ⟨o, -, hunique, hiff, hnone⟩ := checksParsedTbs_iff shortHeader_readsHeaders
    smallCertParser_readsCertificates (by decide) hcert
  obtain rfl := hunique _ (smallCert_encodes [])
  exact hiff.mpr (hnone rfl)

end Endorsement

end TrustedRelay
