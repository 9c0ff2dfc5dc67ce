import TrustedRelay.Attest.SnpEvidence

/-!
# The SEV-SNP attester

The attester asks the guest device for an extended report, which comes with the certificates of the
platform, and makes do with a plain report if that fails. A plain report comes without certificates,
and its response is not checked for a status or a size.

The verifier looks at the certificates only to look one up, so it makes no difference to it that the
attester has truncated them (`evidenceAccepted_of_genuine`). What it cannot do without certificates
is check a report that a VLEK has signed (`not_accepted_of_vlek`).
-/

namespace TrustedRelay

namespace SevSnp

open Outcome (lift)

/-- The device, asked for a plain report: the response buffer, once the device could be opened and
asked. -/
abbrev PlainGuest := ByteArr 64 → Except AttestError (ByteArr 4000)

def attestLinuxReportOnly (guest : PlainGuest) (userData : ByteArr 64) :
    Outcome AttestError Evidence := do
  let resp ← lift (guest userData)
  let reportData ← Bytes.index resp.1 32 (32 + snpReportSize)
  .ok ⟨.sevSnp, reportData⟩

/-- `attest_linux`. -/
def attestLinux (ext : SevGuest) (plain : PlainGuest) (userData : ByteArr 64) :
    Outcome AttestError Evidence :=
  match attestLinuxExt ext userData with
  | .ok evidence => .ok evidence
  | .error (.err _) => attestLinuxReportOnly plain userData
  | .error .panic => .error .panic

/-- The report in a response buffer. -/
def responseReport (resp : ByteArr 4000) : Bytes := Bytes.range resp.1 32 (32 + snpReportSize)

theorem length_responseReport (resp : ByteArr 4000) : (responseReport resp).length = 1184 :=
  Bytes.length_range (by decide) (by rw [resp.2]; decide)

section Attester

variable {ext : SevGuest} {plain : PlainGuest} {userData : ByteArr 64} {evidence : Evidence}

theorem attestLinuxReportOnly_eq_ok_iff : attestLinuxReportOnly plain userData = .ok evidence ↔
    ∃ resp, plain userData = .ok resp ∧ evidence = ⟨.sevSnp, responseReport resp⟩ := by
  have hindex : ∀ resp : ByteArr 4000, (Bytes.index resp.1 32 (32 + snpReportSize) :
      Outcome AttestError Bytes) = .ok (responseReport resp) := fun resp =>
    Bytes.index_eq_ok (by decide) (by rw [resp.2]; decide)
  simp only [attestLinuxReportOnly, Except.bind_eq_ok_iff, Outcome.lift_eq_ok_iff, hindex,
    Except.ok.injEq, exists_eq_left', eq_comm (b := evidence)]

/-- The evidence is an extended report with the certificates in use, or a plain report alone if
there was no extended one. -/
theorem attestLinux_eq_ok (h : attestLinux ext plain userData = .ok evidence) :
    (∃ resp certs, attestLinuxExt ext userData = .ok evidence ∧
      ext userData = .ok (resp, certs) ∧
      evidence = ⟨.sevSnp, responseReport resp ++ certs.1.take (usedLen certs.1)⟩) ∨
    ∃ e resp, attestLinuxExt ext userData = .error (.err e) ∧ plain userData = .ok resp ∧
      evidence = ⟨.sevSnp, responseReport resp⟩ := by
  obtain ⟨hsafe, hok⟩ := attestLinuxExt_spec ext userData
  rw [attestLinux] at h
  match hext : attestLinuxExt ext userData with
  | .ok evidence' =>
    rw [hext] at h
    obtain rfl := Except.ok.inj h
    obtain ⟨resp, certs, hresp, htee, hdata⟩ := hok _ hext
    refine Or.inl ⟨resp, certs, rfl, hresp, ?_⟩
    cases evidence'
    exact congrArg₂ Evidence.mk htee hdata
  | .error (.err e) =>
    rw [hext] at h
    obtain ⟨resp, hresp, hevidence⟩ := attestLinuxReportOnly_eq_ok_iff.mp h
    exact Or.inr ⟨e, resp, rfl, hresp, hevidence⟩
  | .error .panic => exact absurd hext hsafe

/-- Without an extended report the attester returns the plain one, as it is. -/
theorem attestLinux_of_plain {resp : ByteArr 4000}
    (hext : ∀ evidence, attestLinuxExt ext userData ≠ .ok evidence)
    (hplain : plain userData = .ok resp) :
    attestLinux ext plain userData = .ok ⟨.sevSnp, responseReport resp⟩ := by
  obtain ⟨hsafe, -⟩ := attestLinuxExt_spec ext userData
  rw [attestLinux]
  match hresult : attestLinuxExt ext userData with
  | .ok evidence => exact absurd hresult (hext evidence)
  | .error (.err e) => exact attestLinuxReportOnly_eq_ok_iff.mpr ⟨resp, hplain, rfl⟩
  | .error .panic => exact absurd hresult hsafe

end Attester

/-! ### Evidence from a genuine report -/

variable {L : CertLibraries} {kds : Kds}

/-- A report of the firmware for `userData`, that the verifier would accept with the certificates at
hand. -/
structure Genuine (L : CertLibraries) (kds : Kds) (report : Bytes) (certs : Option Bytes)
    (userData : ByteArr 64) : Prop where
  reportData : Bytes.range report 0x50 0x90 = userData.1
  accepted : ReportAccepted L kds (Bytes.range report 0 0x2A0) (Bytes.range report 0x2A0 0x2E8)
    (Bytes.range report 0x2E8 0x330) certs none

/-- The certificates matter by what is found in them. -/
theorem ReportAccepted.congr {signedData sigR sigS : Bytes} {certs certs' expected : Option Bytes}
    (h : ReportAccepted L kds signedData sigR sigS certs expected)
    (hlookup : ∀ guid : ByteArr 16, certs.bind (CertTable.lookup · guid.1) =
      certs'.bind (CertTable.lookup · guid.1)) :
    ReportAccepted L kds signedData sigR sigS certs' expected where
  toReportChecks := h.toReportChecks
  endorsed := by
    obtain ⟨signature, hsignature, product, hproduct, leaf, chain, cert, key, hleaf, hrest⟩ :=
      h.endorsed
    refine ⟨signature, hsignature, product, hproduct, leaf, chain, cert, key, ?_, hrest⟩
    have hvcek : certs.bind (CertTable.lookup · CertTable.guidVcek) =
        certs'.bind (CertTable.lookup · CertTable.guidVcek) := hlookup CertTable.vcekGuid
    have hvlek : certs.bind (CertTable.lookup · CertTable.guidVlek) =
        certs'.bind (CertTable.lookup · CertTable.guidVlek) := hlookup CertTable.vlekGuid
    rw [IsLeaf, ← hvcek, ← hvlek]
    exact hleaf

theorem bind_lookup_filter (certs : Bytes) (guid : Bytes) :
    (if certs = [] then none else some certs).bind (CertTable.lookup · guid) =
      CertTable.lookup certs guid := by
  split_ifs with hnil
  · rw [hnil]
    rfl
  · rfl

/-- A genuine report and some of its certificates make evidence that is accepted with the report's
measurement, or with none, provided that a lookup in what is left finds what it would have found. -/
theorem evidenceAccepted_of_genuine {report kept : Bytes} {certs : Option Bytes}
    {userData : ByteArr 64} (h : Genuine L kds report certs userData) (hlen : report.length = 1184)
    (hkept : ∀ guid, certs.bind (CertTable.lookup · guid) = CertTable.lookup kept guid)
    (expected : Option Bytes) (r : ByteArr 64) :
    verify L kds ⟨.sevSnp, report ++ kept⟩ expected = .ok r ↔
      (∀ m, expected = some m → Bytes.range report 0x90 0xC0 = m) ∧ r = userData := by
  have hmeasurement : Bytes.range (Bytes.range report 0 0x2A0) 0x90 0xC0 =
      Bytes.range report 0x90 0xC0 := Bytes.range_range (by omega)
  have hreportData : Bytes.range (Bytes.range report 0 0x2A0) 0x50 0x90 =
      Bytes.range report 0x50 0x90 := Bytes.range_range (by omega)
  obtain ⟨-, hblob⟩ := evidence_split hlen kept
  rw [verify_eq_ok_iff]
  dsimp only
  rw [Bytes.range_append_left hlen (by omega), hreportData, h.reportData, ← Subtype.ext_iff]
  refine and_congr_left fun _ => ?_
  constructor
  · rintro ⟨-, -, hreport⟩ m hm
    dsimp only at hreport
    rw [Bytes.range_append_left hlen (by omega)] at hreport
    exact hmeasurement.symm.trans (hreport.measurement m hm)
  · intro hexpected
    refine ⟨rfl, ?_, ?_⟩
    · rw [List.length_append, hlen]
      exact Nat.le_add_right _ _
    · dsimp only
      rw [Bytes.range_append_left hlen (by omega), Bytes.range_append_left hlen (by omega),
        Bytes.range_append_left hlen (by omega), hblob]
      have hlookup : ∀ guid, certs.bind (CertTable.lookup · guid) =
          (if kept = [] then none else some kept).bind (CertTable.lookup · guid) :=
        fun guid => by rw [hkept, bind_lookup_filter]
      have haccepted := h.accepted.congr fun guid => hlookup guid.1
      exact { haccepted with measurement := fun m hm => hmeasurement.trans (hexpected m hm) }

/-- Without a table no certificate is found, as in an empty one. -/
theorem plainEvidence_accepted_of_genuine {report : Bytes} {userData : ByteArr 64}
    (h : Genuine L kds report none userData) (hlen : report.length = 1184)
    (expected : Option Bytes) (r : ByteArr 64) :
    verify L kds ⟨.sevSnp, report⟩ expected = .ok r ↔
      (∀ m, expected = some m → Bytes.range report 0x90 0xC0 = m) ∧ r = userData := by
  have hnone : ∀ guid, (none : Option Bytes).bind (CertTable.lookup · guid) =
      CertTable.lookup [] guid := fun _ => rfl
  have haccepted := evidenceAccepted_of_genuine h hlen hnone expected r
  rw [List.append_nil] at haccepted
  exact haccepted

/-- Without certificates no report of a VLEK is accepted. -/
theorem not_accepted_of_vlek {report : Bytes} (hlen : report.length = 1184)
    (hvlek : selector (Bytes.range report 0 0x2A0) = snpSigningKeyVlek) (expected : Option Bytes)
    (r : ByteArr 64) : verify L kds ⟨.sevSnp, report⟩ expected ≠ .ok r := by
  intro h
  obtain ⟨haccepted, -⟩ := verify_eq_ok_iff.mp h
  obtain ⟨-, hblob⟩ := evidence_split hlen []
  rw [List.append_nil, if_pos rfl] at hblob
  obtain ⟨signature, -, product, -, leaf, chain, cert, key, hleaf, -⟩ := haccepted.report.endorsed
  dsimp only at hleaf
  rw [hvlek, hblob] at hleaf
  rcases hleaf with ⟨hvcek, -⟩ | ⟨-, hnone⟩
  · cases hvcek
  · cases hnone

end SevSnp

end TrustedRelay
