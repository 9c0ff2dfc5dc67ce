import TrustedRelay.Attest.SnpAttester
import TrustedRelay.Tls.Served

/-!
# A server with a SEV-SNP report

From the guest device to the client's decision: the report goes through the attester, with the
certificates of the platform or without, through the certificate of the server, and through the
verifier, which takes the evidence apart again.

`snpCert_accepted_iff` is the good case, on either way through the attester. The two ways differ for
a report that is signed by a VLEK: the plain report comes without its certificate, and
`vlekFallback_rejected` says that no client accepts the server then, whatever it expects.
-/

namespace TrustedRelay

namespace AttestedTls

open SevSnp

/-- A certificate over a genuine report is accepted exactly by a client that expects the report's
measurement or none, and no configuration or the server's. -/
theorem snpCert_accepted_iff (x509 : X509Parser) (sha384 : Bytes → ByteArr 48) (I : Issuer)
    (hI : I.Preserves x509) (L : CertLibraries) (kds : Kds) (ext : SevGuest) (plain : PlainGuest)
    (keyPair : KeyPair) (c : Option (ByteArr 32)) (measurement : Bytes)
    (hext : ∀ evidence, attestLinuxExt ext (serverReportdata sha384 c keyPair) = .ok evidence →
      ∀ resp certs, ext (serverReportdata sha384 c keyPair) = .ok (resp, certs) →
        Genuine L kds (responseReport resp) (some certs.1) (serverReportdata sha384 c keyPair) ∧
          Bytes.range (responseReport resp) 0x90 0xC0 = measurement)
    (hplain : ∀ resp, plain (serverReportdata sha384 c keyPair) = .ok resp →
      Genuine L kds (responseReport resp) none (serverReportdata sha384 c keyPair) ∧
        Bytes.range (responseReport resp) 0x90 0xC0 = measurement)
    (expectedMeasurement : Option Bytes) (expectedConfigHash : Option (ByteArr 32))
    (server : AttestedTlsServer)
    (hserver : fromKeyPair I sha384 (attesterOf (attestLinux ext plain)) c keyPair = .ok server) :
    AttestedCertVerifier.verifyServerCert x509 sha384
        ⟨SevSnp.verify L kds, expectedMeasurement, expectedConfigHash⟩ server.certDer = .ok () ↔
      (expectedMeasurement = none ∨ expectedMeasurement = some measurement) ∧
        ConfigAgrees c expectedConfigHash := by
  obtain ⟨evidence, hevidence, -⟩ := fromKeyPair_eq_ok hserver
  have hverify : evidence.teeType = .sevSnp ∧ ∀ r, SevSnp.verify L kds evidence
      expectedMeasurement = .ok r ↔ (∀ m, expectedMeasurement = some m → measurement = m) ∧
        r = serverReportdata sha384 c keyPair := by
    obtain ⟨resp, certs, hextended, hresp, rfl⟩ | ⟨-, resp, -, hresp, rfl⟩ :=
      attestLinux_eq_ok (attesterOf_eq_ok_iff.mp hevidence)
    · -- the table is cut to its used part, in which the same certificates are found
      obtain ⟨hgenuine, rfl⟩ := hext _ hextended resp certs hresp
      exact ⟨rfl, evidenceAccepted_of_genuine hgenuine (length_responseReport resp)
        (fun guid => (lookup_usedLen certs.1 guid).symm) expectedMeasurement⟩
    · obtain ⟨hgenuine, rfl⟩ := hplain resp hresp
      exact ⟨rfl, plainEvidence_accepted_of_genuine hgenuine (length_responseReport resp)
        expectedMeasurement⟩
  obtain ⟨htee, hverify⟩ := hverify
  have hmeasurement : (∀ m, expectedMeasurement = some m → measurement = m) ↔
      expectedMeasurement = none ∨ expectedMeasurement = some measurement := by
    cases expectedMeasurement <;> simp [eq_comm]
  rw [served_accepted_iff hI hserver hevidence, htee]
  dsimp only [AttestedCertVerifier.expectedAttestedData]
  simp only [hverify, hmeasurement]
  rw [← binds_serverReportdata_iff sha384 keyPair]
  constructor
  · rintro ⟨r, ⟨hm, rfl⟩, hbinds⟩
    exact ⟨hm, hbinds⟩
  · rintro ⟨hm, hbinds⟩
    exact ⟨_, ⟨hm, rfl⟩, hbinds⟩

/-- If the device gives no extended report, and signs its plain one with a VLEK, then the attester
makes do with it and the server starts with the certificate it is signed, but no client accepts this
certificate. -/
theorem vlekFallback_rejected (x509 : X509Parser) (sha384 : Bytes → ByteArr 48) (I : Issuer)
    (hI : I.Preserves x509) (ext : SevGuest) (plain : PlainGuest) (keyPair : KeyPair)
    (c : Option (ByteArr 32)) (resp : ByteArr 4000) (certDer privateKeyDer : Bytes)
    (hext : ∀ evidence, attestLinuxExt ext (serverReportdata sha384 c keyPair) ≠ .ok evidence)
    (hplain : plain (serverReportdata sha384 c keyPair) = .ok resp)
    (hvlek : selector (Bytes.range (responseReport resp) 0 0x2A0) = snpSigningKeyVlek)
    (hsigned : I.selfSigned (Quote.certParamsWithEvidence ⟨.sevSnp, responseReport resp⟩) keyPair =
      .ok certDer)
    (hkey : I.privateKeyDer keyPair.serializedDer = .ok privateKeyDer)
    (hconfig : I.withSingleCert [certDer] privateKeyDer = .ok ()) :
    attestLinux ext plain (serverReportdata sha384 c keyPair) =
        .ok ⟨.sevSnp, responseReport resp⟩ ∧
      fromKeyPair I sha384 (attesterOf (attestLinux ext plain)) c keyPair = .ok ⟨certDer⟩ ∧
      ∀ (L : CertLibraries) (kds : Kds) (expectedMeasurement : Option Bytes)
        (expectedConfigHash : Option (ByteArr 32)), AttestedCertVerifier.verifyServerCert x509
          sha384 ⟨SevSnp.verify L kds, expectedMeasurement, expectedConfigHash⟩ certDer ≠
            .ok () := by
  have hattest := attestLinux_of_plain hext hplain
  have hevidence := attesterOf_eq_ok_iff.mpr hattest
  have hserver : fromKeyPair I sha384 (attesterOf (attestLinux ext plain)) c keyPair =
      .ok ⟨certDer⟩ := fromKeyPair_of_signed hevidence hsigned hkey hconfig
  refine ⟨hattest, hserver, fun L kds expectedMeasurement expectedConfigHash haccept => ?_⟩
  obtain ⟨r, hr, -⟩ := (served_accepted_iff hI hserver hevidence
    ⟨SevSnp.verify L kds, expectedMeasurement, expectedConfigHash⟩).mp haccept
  exact not_accepted_of_vlek (length_responseReport resp) hvlek _ r hr

/-! ### Genuine reports -/

/-- The signed part of a report for `r`, with an all-zero measurement. -/
def signedPart (r : ByteArr 64) : Bytes := List.replicate 0x50 0 ++ r.1 ++ List.replicate 0x210 0

/-- A report for `r`. -/
def reportFor (r : ByteArr 64) : Bytes := signedPart r ++ 1 :: List.replicate 0x1FF 0

theorem length_signedPart (r : ByteArr 64) : (signedPart r).length = 0x2A0 := by
  rw [signedPart, List.length_append, List.length_append, r.2, List.length_replicate,
    List.length_replicate]

theorem length_reportFor (r : ByteArr 64) : (reportFor r).length = 1184 := by
  rw [reportFor, List.length_append, length_signedPart, List.length_cons, List.length_replicate]

theorem range_reportFor (r : ByteArr 64) {i j : ℕ} (hj : j ≤ 0x2A0) :
    Bytes.range (reportFor r) i j = Bytes.range (signedPart r) i j :=
  Bytes.range_append_left (length_signedPart r) hj

/-- The fields in front of the REPORTDATA are zero. -/
theorem range_signedPart (r : ByteArr 64) {i j : ℕ} (hj : j ≤ 0x50) :
    Bytes.range (signedPart r) i j = Bytes.range (List.replicate 0x50 0) i j := by
  rw [signedPart, List.append_assoc]
  exact Bytes.range_append_left List.length_replicate hj

theorem reportData_reportFor (r : ByteArr 64) : Bytes.range (reportFor r) 0x50 0x90 = r.1 := by
  have h := Bytes.range_append (List.replicate 0x50 0) r.1 (List.replicate 0x210 0)
  rw [List.length_replicate, r.2] at h
  rw [range_reportFor r (by decide)]
  exact h

theorem measurement_reportFor (r : ByteArr 64) :
    Bytes.range (reportFor r) 0x90 0xC0 = List.replicate 48 0 := by
  have hlen : (List.replicate 0x50 (0 : UInt8) ++ r.1).length = 0x90 := by
    rw [List.length_append, List.length_replicate, r.2]
  rw [range_reportFor r (by decide), Bytes.range, signedPart, List.drop_left' hlen,
    List.take_replicate]
  rfl

theorem one_mem_signature (r : ByteArr 64) : 1 ∈ Bytes.range (reportFor r) 0x2A0 0x2E8 := by
  rw [Bytes.range, reportFor, List.drop_left' (length_signedPart r)]
  exact List.mem_cons_self

/-- In the sample world every leaf chains to the pinned Milan root. -/
theorem oneEndorsement_chains (leaf : Bytes) :
    Endorsement.ChainsToPinnedArk oneEndorsement leaf [] := by
  have hpinned : ("Milan".toList, hexEncode (oneEndorsement.sha256 [1]).1) ∈
      Endorsement.pinnedArkFingerprints := by decide +kernel
  have hsigned : Endorsement.SignedBy oneEndorsement [0] [1] :=
    ⟨certWith 2 [], certWith 2 [], [], .sha384, rfl, rfl, rfl, rfl, rfl⟩
  exact ⟨[], [0], [1], [], rfl, rfl, ⟨_, hpinned⟩, hsigned, ⟨[0], leaf, rfl, rfl, rfl⟩, rfl⟩

/-- The sample device's reports are genuine, with whatever leaf certificate is at hand. -/
theorem reportFor_genuine (r : ByteArr 64) {certs : Option Bytes} {leaf : Bytes}
    (hleaf : certs.bind (CertTable.lookup · CertTable.guidVcek) = some leaf ∨
      certs.bind (CertTable.lookup · CertTable.guidVcek) = none ∧ leaf = [])
    (hder : Endorsement.pemBegin.isPrefixOf leaf = false) :
    Genuine oneEndorsement (fun _ => .ok []) (reportFor r) certs r := by
  have hsigned : Bytes.range (reportFor r) 0 0x2A0 = signedPart r := by
    rw [Bytes.range, List.drop_zero]
    exact List.take_left' (length_signedPart r)
  have hinfo : signerInfo (signedPart r) = 0 := by
    rw [signerInfo, range_signedPart r (by decide)]
    decide
  have hselector : selector (signedPart r) = snpSigningKeyVcek := by
    rw [selector, hinfo]
    rfl
  have hkey : Endorsement.extractP384PubkeyFromDer oneEndorsement leaf =
      .ok (certWith 2 []).subjectPublicKey := by
    rw [Endorsement.extractP384PubkeyFromDer, Endorsement.derOfCertBytes, hder,
      if_neg Bool.false_ne_true]
    rfl
  refine ⟨reportData_reportFor r, ?_⟩
  rw [hsigned]
  exact
    { debugDisabled := by
        rw [range_signedPart r (by decide)]
        decide
      measurement := fun _ h => (by cases h)
      noReservedBits := by
        rw [hinfo]
        decide
      selectsKey := Or.inl hselector
      nonzero := ⟨1, List.mem_append_left _ (one_mem_signature r), by decide⟩
      endorsed := ⟨_, rfl, "Milan".toList, List.mem_cons_self, leaf, [], certWith 2 [], _,
        Or.inl ⟨hselector, hleaf.imp_right fun h => ⟨h.1, congrArg Except.ok h.2.symm⟩⟩, rfl,
        oneEndorsement_chains leaf, rfl, rfl, hkey, decide_eq_true (length_signedPart r)⟩ }

/-! ### Devices -/

def noExtended : SevGuest := fun _ => .error (.generationFailed "SNP_GET_EXT_REPORT".toList)

/-- A response with a report behind its header of 32 bytes. -/
def responseWith (report : Bytes) (h : report.length = 1184) : ByteArr 4000 :=
  ⟨List.replicate 32 0 ++ (report ++ List.replicate 2784 0), by
    rw [List.length_append, List.length_append, h, List.length_replicate, List.length_replicate]⟩

theorem responseReport_responseWith {report : Bytes} (h : report.length = 1184) :
    responseReport (responseWith report h) = report := by
  change ((List.replicate 32 0 ++ (report ++ List.replicate 2784 0)).drop 32).take 1184 = report
  rw [List.drop_left' List.length_replicate, List.take_left' h]

/-- A device that answers each request with a report for it. -/
def plainGuest : PlainGuest := fun r => .ok (responseWith (reportFor r) (length_reportFor r))

theorem plainGuest_attest (r : ByteArr 64) :
    attesterOf (attestLinux noExtended plainGuest) r = .ok ⟨.sevSnp, reportFor r⟩ := by
  have hplain : attestLinuxReportOnly plainGuest r = .ok ⟨.sevSnp, reportFor r⟩ :=
    attestLinuxReportOnly_eq_ok_iff.mpr ⟨_, rfl, by rw [responseReport_responseWith]⟩
  exact attesterOf_eq_ok_iff.mpr hplain

/-- The certificate buffer: a table of two certificates and their bytes, and zeros behind them. -/
def extendedCerts : ByteArr snpCertBlobSize :=
  ⟨CertTable.sampleBlob ++ List.replicate (snpCertBlobSize - CertTable.sampleBlob.length) 0, by
    rw [List.length_append, List.length_replicate]
    exact Nat.add_sub_cancel' (by decide)⟩

theorem lookup_extendedCerts :
    (some extendedCerts.1).bind (CertTable.lookup · CertTable.guidVcek) =
      some (Text.asBytes "vcek-cert".toList) := by
  have hencodes : CertTable.Encodes CertTable.sampleTable extendedCerts.1 :=
    CertTable.Encodes.append
      ⟨⟨_, (List.append_assoc ..).symm⟩, by decide, by decide, by decide, by decide⟩ _
  rw [Option.bind_some]
  exact (CertTable.lookup_of_encodes hencodes CertTable.vcekGuid).trans (by decide)

/-- The header of a response with status 0 and the size of a report. -/
def extendedHeader : Bytes :=
  List.replicate 4 0 ++ Bytes.toLe 4 snpReportSize ++ List.replicate 24 0

theorem length_extendedHeader : extendedHeader.length = 32 := by decide

def extendedResponse (r : ByteArr 64) : ByteArr 4000 :=
  ⟨extendedHeader ++ (reportFor r ++ List.replicate 2784 0), by
    rw [List.length_append, List.length_append, length_extendedHeader, length_reportFor,
      List.length_replicate]⟩

theorem responseReport_extendedResponse (r : ByteArr 64) :
    responseReport (extendedResponse r) = reportFor r := by
  change ((extendedHeader ++ (reportFor r ++ List.replicate 2784 0)).drop 32).take 1184 =
    reportFor r
  rw [List.drop_left' length_extendedHeader, List.take_left' (length_reportFor r)]

theorem reportOfResponse_extendedResponse (r : ByteArr 64) :
    reportOfResponse (extendedResponse r) = .ok (reportFor r) := by
  have hlen := (extendedResponse r).2
  have hheader : ∀ {i j}, j ≤ 32 →
      Bytes.range (extendedResponse r).1 i j = Bytes.range extendedHeader i j :=
    fun hj => Bytes.range_append_left length_extendedHeader hj
  have hstatus : Bytes.le (Bytes.range (extendedResponse r).1 0 (0 + 4)) = 0 := by
    rw [hheader (by decide)]
    decide
  have hsize : Bytes.le (Bytes.range (extendedResponse r).1 4 (4 + 4)) = snpReportSize := by
    rw [hheader (by decide)]
    decide
  have hreport : (Bytes.index (extendedResponse r).1 32 (32 + snpReportSize) :
      Outcome AttestError Bytes) = .ok (responseReport (extendedResponse r)) :=
    Bytes.index_eq_ok (by decide) (by rw [hlen]; decide)
  rw [responseReport_extendedResponse] at hreport
  simp only [reportOfResponse, Except.bind_eq_ok_iff, Outcome.lift_eq_ok_iff, ensure_eq_ok_iff]
  refine ⟨_, Bytes.array_eq_ok (by rw [hlen]; decide), _, Bytes.array_eq_ok (by rw [hlen]; decide),
    (), hstatus, (), ?_, hreport⟩
  rw [hsize, hlen]
  decide

/-- A device with certificates. -/
def extendedGuest : SevGuest := fun r => .ok (extendedResponse r, extendedCerts)

theorem extendedGuest_attest (plain : PlainGuest) (r : ByteArr 64) :
    attesterOf (attestLinux extendedGuest plain) r =
      .ok ⟨.sevSnp, reportFor r ++ extendedCerts.1.take (usedLen extendedCerts.1)⟩ := by
  have hextended : attestLinuxExt extendedGuest r =
      .ok ⟨.sevSnp, reportFor r ++ extendedCerts.1.take (usedLen extendedCerts.1)⟩ := by
    simp only [attestLinuxExt, evidenceData_eq, Except.bind_eq_ok_iff, Outcome.lift_eq_ok_iff]
    exact ⟨_, rfl, _, reportOfResponse_extendedResponse r, _, rfl, rfl⟩
  rw [attesterOf_eq_ok_iff, attestLinux, hextended]

/-- The server's report is accepted with its measurement, in a plain response and in an extended one
that carries the certificate of its key. -/
theorem sampleReport_accepted :
    (∃ evidence server, fromKeyPair (evidenceIssuer evidence) emptySha384
        (attesterOf (attestLinux noExtended plainGuest)) (some zeroHash) emptyKey = .ok server ∧
      AttestedCertVerifier.verifyServerCert (evidenceParser evidence) emptySha384
        ⟨SevSnp.verify oneEndorsement fun _ => .ok [], some (List.replicate 48 0), some zeroHash⟩
        server.certDer = .ok ()) ∧
    ∃ evidence server, fromKeyPair (evidenceIssuer evidence) emptySha384
        (attesterOf (attestLinux extendedGuest plainGuest)) (some zeroHash) emptyKey = .ok server ∧
      AttestedCertVerifier.verifyServerCert (evidenceParser evidence) emptySha384
        ⟨SevSnp.verify oneEndorsement fun _ => .ok [], some (List.replicate 48 0), some zeroHash⟩
        server.certDer = .ok () := by
  have hagrees : ConfigAgrees (some zeroHash) (some zeroHash) :=
    Or.inr ⟨zeroHash, rfl, Or.inl ⟨zeroHash, rfl, rfl⟩⟩
  have hplain : ∀ r resp, plainGuest r = .ok resp →
      Genuine oneEndorsement (fun _ => .ok []) (responseReport resp) none r ∧
        Bytes.range (responseReport resp) 0x90 0xC0 = List.replicate 48 0 := by
    intro r resp hresp
    obtain rfl := Except.ok.inj hresp
    rw [responseReport_responseWith]
    exact ⟨reportFor_genuine r (Or.inr ⟨rfl, rfl⟩) (by decide), measurement_reportFor r⟩
  have hextended : ∀ r resp certs, extendedGuest r = .ok (resp, certs) →
      Genuine oneEndorsement (fun _ => .ok []) (responseReport resp) (some certs.1) r ∧
        Bytes.range (responseReport resp) 0x90 0xC0 = List.replicate 48 0 := by
    intro r resp certs hresp
    obtain ⟨rfl, rfl⟩ := Prod.mk.inj (Except.ok.inj hresp)
    rw [responseReport_extendedResponse]
    exact ⟨reportFor_genuine r (Or.inl lookup_extendedCerts) (by decide), measurement_reportFor r⟩
  constructor
  · have hserver := fromKeyPair_evidenceIssuer
      (plainGuest_attest (serverReportdata emptySha384 (some zeroHash) emptyKey))
    refine ⟨_, _, hserver, (snpCert_accepted_iff _ _ _ (evidenceIssuer_preserves _) oneEndorsement
      (fun _ => .ok []) noExtended plainGuest emptyKey (some zeroHash) (List.replicate 48 0) ?_
      (hplain _) _ _ _ hserver).mpr ⟨Or.inr rfl, hagrees⟩⟩
    rintro _ - resp certs ⟨⟩
  · have hserver := fromKeyPair_evidenceIssuer (extendedGuest_attest plainGuest
      (serverReportdata emptySha384 (some zeroHash) emptyKey))
    exact ⟨_, _, hserver, (snpCert_accepted_iff _ _ _ (evidenceIssuer_preserves _) oneEndorsement
      (fun _ => .ok []) extendedGuest plainGuest emptyKey (some zeroHash) (List.replicate 48 0)
      (fun _ _ => hextended _) (hplain _) _ _ _ hserver).mpr ⟨Or.inr rfl, hagrees⟩⟩

/-- A report whose signer info selects the VLEK. -/
def vlekReport : Bytes := List.replicate 0x48 0 ++ 4 :: List.replicate 0x457 0

theorem length_vlekReport : vlekReport.length = 1184 := by
  rw [vlekReport, List.length_append, List.length_cons, List.length_replicate,
    List.length_replicate]

/-- The server starts, and no client takes its certificate. -/
theorem vlekReport_rejected :
    attestLinux noExtended (fun _ => .ok (responseWith vlekReport length_vlekReport))
        (serverReportdata emptySha384 none emptyKey) = .ok ⟨.sevSnp, vlekReport⟩ ∧
      fromKeyPair (evidenceIssuer ⟨.sevSnp, vlekReport⟩) emptySha384
        (attesterOf
          (attestLinux noExtended fun _ => .ok (responseWith vlekReport length_vlekReport)))
        none emptyKey = .ok ⟨[]⟩ ∧
      AttestedCertVerifier.verifyServerCert (evidenceParser ⟨.sevSnp, vlekReport⟩) emptySha384
        ⟨SevSnp.verify oneEndorsement fun _ => .ok [], none, none⟩ [] ≠ .ok () := by
  have hreport : responseReport (responseWith vlekReport length_vlekReport) = vlekReport :=
    responseReport_responseWith length_vlekReport
  obtain ⟨hattest, hserver, hrejected⟩ := vlekFallback_rejected
    (evidenceParser ⟨.sevSnp, vlekReport⟩) emptySha384 (evidenceIssuer ⟨.sevSnp, vlekReport⟩)
    (evidenceIssuer_preserves _) noExtended
    (fun _ => .ok (responseWith vlekReport length_vlekReport)) emptyKey none
    (responseWith vlekReport length_vlekReport) [] _ (fun _ h => (by cases h)) rfl
    (by rw [hreport]; decide +kernel) (by rw [hreport]; exact evidenceIssuer_selfSigned _) rfl rfl
  rw [hreport] at hattest
  exact ⟨hattest, hserver, hrejected oneEndorsement (fun _ => .ok []) none none⟩

end AttestedTls

end TrustedRelay
