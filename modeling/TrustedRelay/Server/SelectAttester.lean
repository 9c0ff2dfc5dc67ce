import TrustedRelay.Attest.TokenAttester
import TrustedRelay.Tls.SnpServer

/-!
# Which attester the server takes

`select_attester` looks at the features of the build, at environment variables, at the launcher's
socket and at device files, and takes the first backend that it finds; a server without one does not
start. The choice is made on the server's host and is not attested. What a client knows of it is the
evidence: `accepted_server_selected` says what an accepted certificate tells about the host, and
that it is for the server's own key and configuration.

For that the platform must be `Authentic`: what it attests is what it was asked to attest. Nothing
is assumed about measurements, claims or endorsements here.
-/

namespace TrustedRelay

open SerdeJson

/-! ### The choice -/

/-- The backends that the server was compiled with. -/
structure ServerFeatures where
  mock : Bool
  tdx : Bool
  sevSnp : Bool
  gcpConfidentialSpace : Bool
deriving DecidableEq

/-- What the server finds on its host when it starts. -/
structure RuntimeEnvironment where
  var : Text → Option Text
  pathExists : Text → Bool
  canConnect : Text → Bool

namespace RuntimeEnvironment

variable (R : RuntimeEnvironment)

/-- An environment variable is set, to whatever value. -/
def isSet (name : Text) : Bool := (R.var name).isSome

/-- The launcher's socket: the configured one or the default. -/
def socketPath : Text :=
  (R.var "TRUSTED_RELAY_GCP_CS_SOCKET".toList).getD GcpConfidentialSpaceAttester.defaultSocketPath

/-- Confidential Space is asked for, or there is a launcher. -/
def inConfidentialSpace : Bool :=
  R.isSet "TRUSTED_RELAY_GCP_CONFIDENTIAL_SPACE".toList || R.canConnect R.socketPath

/-- One of the TDX guest devices is there. -/
def hasTdxDevice : Bool :=
  R.pathExists "/dev/tdx_guest".toList || R.pathExists "/dev/tdx-guest".toList

/-- The SEV-SNP guest device is there. -/
def hasSevDevice : Bool :=
  R.pathExists "/dev/sev-guest".toList || R.pathExists "/dev/sev".toList

/-- The operator has permitted the mock. -/
def devMock : Bool := R.isSet "TRUSTED_RELAY_DEV_MOCK".toList

/-- The mock is allowed even where there is a SEV-SNP device. -/
def mockFallback : Bool :=
  R.isSet "TRUSTED_RELAY_ALLOW_MOCK_FALLBACK_IN_SNP".toList && R.devMock

end RuntimeEnvironment

/-- The attesters, without what they call. -/
inductive SelectedAttester
  | gcpConfidentialSpace (A : GcpConfidentialSpaceAttester)
  | tdx
  | sevSnp
  | mock
deriving DecidableEq

/-- `select_attester`; an error is a panic with that message. -/
def selectAttester (F : ServerFeatures) (R : RuntimeEnvironment) : Except Text SelectedAttester :=
  if F.gcpConfidentialSpace && R.inConfidentialSpace then
    .ok (.gcpConfidentialSpace (.fromEnv R.var))
  else if F.tdx && R.hasTdxDevice then .ok .tdx
  else if F.sevSnp && R.hasSevDevice then
    if F.mock && R.mockFallback then .ok .mock else .ok .sevSnp
  else if F.mock then
    if R.devMock then .ok .mock
    else .error ("mock attestation is compiled in but disabled. Set TRUSTED_RELAY_DEV_MOCK=1 for " ++
      "local development, or run in real TEE mode.").toList
  else .error "no attestation backend available — enable at least one tee-* feature".toList

/-- What the host must be like for evidence of a type. -/
def RuntimeEnvironment.Selects (R : RuntimeEnvironment) (F : ServerFeatures) : TeeType → Prop
  | .gcpConfidentialSpace => F.gcpConfidentialSpace = true ∧ R.inConfidentialSpace = true
  | .tdx => F.tdx = true ∧ R.hasTdxDevice = true
  | .sevSnp => F.sevSnp = true ∧ R.hasSevDevice = true ∧ (F.mock && R.mockFallback) = false ∧
      (F.gcpConfidentialSpace && R.inConfidentialSpace) = false ∧ (F.tdx && R.hasTdxDevice) = false
  | .mock => F.mock = true ∧ R.devMock = true ∧
      (F.sevSnp = true → R.hasSevDevice = true → R.mockFallback = true) ∧
      (F.gcpConfidentialSpace && R.inConfidentialSpace) = false ∧ (F.tdx && R.hasTdxDevice) = false

/-- The type of the evidence that an attester makes. -/
def SelectedAttester.teeType : SelectedAttester → TeeType
  | .gcpConfidentialSpace _ => .gcpConfidentialSpace
  | .tdx => .tdx
  | .sevSnp => .sevSnp
  | .mock => .mock

theorem selects_of_selectAttester {F : ServerFeatures} {R : RuntimeEnvironment}
    {selected : SelectedAttester} (h : selectAttester F R = .ok selected) :
    R.Selects F selected.teeType := by
  unfold selectAttester at h
  split_ifs at h with hspace htdx hsev hfallback hmock hdev
  · obtain rfl := Except.ok.inj h
    exact Bool.and_eq_true_iff.mp hspace
  · obtain rfl := Except.ok.inj h
    exact Bool.and_eq_true_iff.mp htdx
  · obtain rfl := Except.ok.inj h
    obtain ⟨hmock, hfallback⟩ := Bool.and_eq_true_iff.mp hfallback
    exact ⟨hmock, (Bool.and_eq_true_iff.mp hfallback).2, fun _ _ => hfallback,
      Bool.eq_false_of_not_eq_true hspace, Bool.eq_false_of_not_eq_true htdx⟩
  · obtain rfl := Except.ok.inj h
    obtain ⟨hfeature, hdevice⟩ := Bool.and_eq_true_iff.mp hsev
    exact ⟨hfeature, hdevice, Bool.eq_false_of_not_eq_true hfallback,
      Bool.eq_false_of_not_eq_true hspace, Bool.eq_false_of_not_eq_true htdx⟩
  · obtain rfl := Except.ok.inj h
    refine ⟨hmock, hdev, fun hfeature hdevice => ?_, Bool.eq_false_of_not_eq_true hspace,
      Bool.eq_false_of_not_eq_true htdx⟩
    exact absurd (Bool.and_eq_true_iff.mpr ⟨hfeature, hdevice⟩) hsev

/-! ### The attesters on their platform -/

/-- What the attesters call: the guest device, the launcher at a socket path, and the libraries.
`overflowChecks` is the build's. -/
structure Devices where
  sevGuest : SevSnp.SevGuest
  sevGuestPlain : SevSnp.PlainGuest
  launcher : Text → Launcher.Socket Launcher.Stream
  overflowChecks : Bool
  mock : Mock.MockLibraries
  sha256 : Bytes → ByteArr 32

/-- `TdxAttester`. -/
def tdxAttester : Attester := fun _ => .error (.generationFailed
  "TDX attestation requires /dev/tdx_guest (not available on this platform)".toList)

/-- The measurement that the mock reports. -/
def mockMeasurement (sha256 : Bytes → ByteArr 32) : ByteArr 32 :=
  sha256 (Text.asBytes "trusted-relay-mock-measurement".toList)

/-- The attester itself, over the devices of the host. -/
def SelectedAttester.attester (D : Devices) : SelectedAttester → Attester
  | .gcpConfidentialSpace A =>
    AttestedTls.attesterOf (A.attest D.overflowChecks (D.launcher A.socketPath))
  | .tdx => tdxAttester
  | .sevSnp => AttestedTls.attesterOf (SevSnp.attestLinux D.sevGuest D.sevGuestPlain)
  | .mock => Mock.measuredMockAttester D.mock (mockMeasurement D.sha256)

/-- `TdxVerifier`. -/
def tdxVerifier : Verifier := fun _ _ =>
  .error (.err (.verificationFailed "TDX verification not yet implemented".toList))

/-- A backend of the client. -/
inductive ClientBackend
  | gcpConfidentialSpace (V : GcpConfidentialSpaceVerifier)
  | tdx
  | sevSnp
  | mock

namespace ClientBackend

/-- The type of the evidence that a backend accepts. -/
def teeType : ClientBackend → TeeType
  | .gcpConfidentialSpace _ => .gcpConfidentialSpace
  | .tdx => .tdx
  | .sevSnp => .sevSnp
  | .mock => .mock

/-- The verifier of a backend. -/
def verifier (E : AttestedTls.Environment) : ClientBackend → Verifier
  | .gcpConfidentialSpace V => V.verify E.urls E.jwt E.wellKnown E.clock
  | .tdx => tdxVerifier
  | .sevSnp => SevSnp.verify E.certs E.kds
  | .mock => Mock.verify E.mock

end ClientBackend

/-- The platform attests what it was asked to attest: the libraries of the mock are those of the
client, a report holds the REPORTDATA that the device was given, and a token that the client can
decode holds the nonces of the request that it answers. -/
structure Authentic (fits : Text → Bool) (D : Devices) (E : AttestedTls.Environment) : Prop where
  sameMock : D.mock = E.mock
  lawfulMock : E.mock.Lawful
  extended : ∀ userData resp certs, D.sevGuest userData = .ok (resp, certs) →
    Bytes.range (SevSnp.responseReport resp) 0x50 0x90 = userData.1
  plain : ∀ userData resp, D.sevGuestPlain userData = .ok resp →
    Bytes.range (SevSnp.responseReport resp) 0x50 0x90 = userData.1
  token : ∀ path n stream, (D.launcher path).attempt n = .ok stream →
    ∀ body v response data token (V : GcpConfidentialSpaceVerifier) claims,
      fromSlice fits body = some v → stream (Launcher.postToken body) = .ok response →
      Launcher.parseHttpTokenResponse D.overflowChecks response = .ok data →
      Text.fromUtf8 data = some token → V.decodeAndValidate E.jwt E.wellKnown token = .ok claims →
      claims.eatNonce = .many (Launcher.requestedNonces v)

section Accepted

variable {fits : Text → Bool} {D : Devices} {E : AttestedTls.Environment}
  {selected : SelectedAttester} {b : ClientBackend} {userData r : ByteArr 64} {evidence : Evidence}
  {expected : Option Bytes}

theorem teeType_of_attester (h : selected.attester D userData = .ok evidence) :
    evidence.teeType = selected.teeType := by
  cases selected with
  | gcpConfidentialSpace A =>
    rw [SelectedAttester.attester, AttestedTls.attesterOf_eq_ok_iff,
      GcpConfidentialSpaceAttester.attest] at h
    obtain ⟨_, -, h⟩ := Except.bind_eq_ok_iff.mp h
    obtain ⟨_, -, h⟩ := Except.bind_eq_ok_iff.mp h
    rw [← Except.ok.inj h]
    rfl
  | tdx => cases h
  | sevSnp =>
    rw [SelectedAttester.attester, AttestedTls.attesterOf_eq_ok_iff] at h
    obtain ⟨resp, certs, -, -, rfl⟩ | ⟨-, resp, -, -, rfl⟩ := SevSnp.attestLinux_eq_ok h <;> rfl
  | mock =>
    rw [← Except.ok.inj h]
    rfl

theorem teeType_of_verifier (h : b.verifier E evidence expected = .ok r) :
    evidence.teeType = b.teeType := by
  cases b with
  | gcpConfidentialSpace V => exact (GcpConfidentialSpaceVerifier.verify_eq_ok h).1
  | tdx => cases h
  | sevSnp => exact (SevSnp.verify_eq_ok_iff.mp h).1.teeType
  | mock =>
    obtain ⟨_, _, _, hparse, -⟩ := Mock.verify_eq_ok_iff.mp h
    exact Mock.teeType_of_parseEvidence hparse

/-- A report that a client accepts is for the user data that the device was given. -/
theorem Authentic.sevSnp (hD : Authentic fits D E)
    (hevidence : SelectedAttester.attester D .sevSnp userData = .ok evidence)
    (hverify : SevSnp.verify E.certs E.kds evidence expected = .ok r) : r = userData := by
  refine Subtype.ext ?_
  obtain ⟨-, hr⟩ := SevSnp.verify_eq_ok_iff.mp hverify
  rw [Bytes.range_range (by omega), Nat.zero_add, Nat.zero_add] at hr
  obtain ⟨resp, certs, -, hresp, rfl⟩ | ⟨-, resp, -, hresp, rfl⟩ :=
    SevSnp.attestLinux_eq_ok (AttestedTls.attesterOf_eq_ok_iff.mp hevidence)
  · rw [hr, Bytes.range_append_left (SevSnp.length_responseReport resp) (by omega),
      hD.extended _ _ _ hresp]
  · rw [hr, hD.plain _ _ hresp]

/-- So is a token. -/
theorem Authentic.gcpConfidentialSpace (hD : Authentic fits D E) {A : GcpConfidentialSpaceAttester}
    {V : GcpConfidentialSpaceVerifier}
    (hevidence : SelectedAttester.attester D (.gcpConfidentialSpace A) userData = .ok evidence)
    (hverify : V.verify E.urls E.jwt E.wellKnown E.clock evidence expected = .ok r) :
    r = userData := by
  rw [SelectedAttester.attester, AttestedTls.attesterOf_eq_ok_iff,
    GcpConfidentialSpaceAttester.attest] at hevidence
  obtain ⟨stream, hstream, hevidence⟩ := Except.bind_eq_ok_iff.mp hevidence
  obtain ⟨data, hdata, hevidence⟩ := Except.bind_eq_ok_iff.mp hevidence
  obtain rfl := Except.ok.inj hevidence
  obtain ⟨n, -, -, hattempt, -⟩ :=
    Launcher.connectLoop_eq_ok_iff.mp (Outcome.lift_eq_ok_iff.mp hstream)
  obtain ⟨response, hresponse, hparse⟩ := Except.bind_eq_ok_iff.mp hdata
  rw [Outcome.lift_eq_ok_iff, Except.mapError_eq_ok_iff] at hresponse
  obtain ⟨-, token, claims, checked, htoken, hclaims, -, hchecked⟩ :=
    GcpConfidentialSpaceVerifier.verify_eq_ok hverify
  obtain ⟨hread, -, hnonces⟩ :=
    Launcher.fromSlice_request fits ⟨A.audience, A.tokenType, reportdataNonces userData⟩
  have hclaim := hD.token _ n stream hattempt _ _ response data token V claims hread hresponse
    hparse htoken hclaims
  obtain ⟨now, -, hmet⟩ := AttestedTls.verifyClaims_iff_policyMet.mp hchecked
  have hr := hmet.nonces
  rw [hclaim, hnonces, Launcher.nonceReportdata_requested] at hr
  exact (Except.ok.inj hr).symm

theorem Authentic.mock (hD : Authentic fits D E)
    (hevidence : SelectedAttester.attester D .mock userData = .ok evidence)
    (hverify : Mock.verify E.mock evidence expected = .ok r) : r = userData := by
  obtain rfl := Except.ok.inj hevidence
  rw [hD.sameMock] at hverify
  exact ((Mock.verify_signMockQuote hD.lawfulMock).mp hverify).2

/-- What a client accepts comes from the attester of its own kind and is for the user data that was
attested. -/
theorem Authentic.verified (hD : Authentic fits D E)
    (hevidence : selected.attester D userData = .ok evidence)
    (hverify : b.verifier E evidence expected = .ok r) :
    selected.teeType = b.teeType ∧ r = userData := by
  have htee : selected.teeType = b.teeType :=
    (teeType_of_attester hevidence).symm.trans (teeType_of_verifier hverify)
  refine ⟨htee, ?_⟩
  cases b with
  | tdx => cases hverify
  | gcpConfidentialSpace V =>
    cases selected with
    | gcpConfidentialSpace A => exact hD.gcpConfidentialSpace hevidence hverify
    | _ => cases htee
  | sevSnp =>
    cases selected with
    | sevSnp => exact hD.sevSnp hevidence hverify
    | _ => cases htee
  | mock =>
    cases selected with
    | mock => exact hD.mock hevidence hverify
    | _ => cases htee

/-- So an accepted certificate comes from that attester, and is for a configuration that the client
expects. -/
theorem Authentic.accepted (hD : Authentic fits D E) {x509 : X509Parser}
    {sha384 : Bytes → ByteArr 48} {I : AttestedTls.Issuer} (hI : I.Preserves x509)
    {c : Option (ByteArr 32)} {keyPair : AttestedTls.KeyPair}
    {server : AttestedTls.AttestedTlsServer}
    (hserver : AttestedTls.fromKeyPair I sha384 (selected.attester D) c keyPair = .ok server)
    {expectedConfigHash : Option (ByteArr 32)}
    (haccept : AttestedTls.AttestedCertVerifier.verifyServerCert x509 sha384
      ⟨b.verifier E, expected, expectedConfigHash⟩ server.certDer = .ok ()) :
    selected.teeType = b.teeType ∧ AttestedTls.ConfigAgrees c expectedConfigHash := by
  obtain ⟨evidence, hevidence, -⟩ := AttestedTls.fromKeyPair_eq_ok hserver
  obtain ⟨r, hverify, hbinds⟩ := (AttestedTls.served_accepted_iff hI hserver hevidence _).mp haccept
  obtain ⟨htee, rfl⟩ := hD.verified hevidence hverify
  exact ⟨htee, (AttestedTls.binds_serverReportdata_iff _ _).mp hbinds⟩

/-- Whatever the build and the host of the server and whatever the client expects: a certificate
that a client accepts is for a configuration that the client expects, and the host has selected the
attester of the client's backend. So a mock is met only on a host that was told to mock, and never
where a launcher, a TDX device or, without the second permission, a SEV-SNP device was found. -/
theorem accepted_server_selected (F : ServerFeatures) (R : RuntimeEnvironment)
    (fits : Text → Bool) (D : Devices) (E : AttestedTls.Environment) (hD : Authentic fits D E)
    (x509 : X509Parser) (sha384 : Bytes → ByteArr 48) (I : AttestedTls.Issuer)
    (hI : I.Preserves x509) (selected : SelectedAttester)
    (hselect : selectAttester F R = .ok selected) (c : Option (ByteArr 32))
    (keyPair : AttestedTls.KeyPair) (server : AttestedTls.AttestedTlsServer)
    (hserver : AttestedTls.fromKeyPair I sha384 (selected.attester D) c keyPair = .ok server)
    (b : ClientBackend) (expectedMeasurement : Option Bytes)
    (expectedConfigHash : Option (ByteArr 32))
    (haccept : AttestedTls.AttestedCertVerifier.verifyServerCert x509 sha384
      ⟨b.verifier E, expectedMeasurement, expectedConfigHash⟩ server.certDer = .ok ()) :
    R.Selects F b.teeType ∧ AttestedTls.ConfigAgrees c expectedConfigHash := by
  obtain ⟨htee, hagrees⟩ := hD.accepted hI hserver haccept
  exact ⟨htee ▸ selects_of_selectAttester hselect, hagrees⟩

end Accepted

/-! ### Two SEV-SNP guests, one of them with a mock -/

section Samples

open AttestedTls

/-- A host with a SEV-SNP device on which both permissions for the mock are given. -/
def mockHost : RuntimeEnvironment where
  var name :=
    if name = "TRUSTED_RELAY_DEV_MOCK".toList ∨
      name = "TRUSTED_RELAY_ALLOW_MOCK_FALLBACK_IN_SNP".toList then some ['1'] else none
  pathExists path := path = "/dev/sev-guest".toList
  canConnect _ := false

/-- A SEV-SNP device that answers nothing, and no launcher. -/
def mockDevices : Devices where
  sevGuest _ := .error (.generationFailed [])
  sevGuestPlain _ := .error (.generationFailed [])
  launcher _ := ⟨fun n => 250 * n, fun _ => .error [], fun _ => le_rfl⟩
  overflowChecks := true
  mock := plainMock
  sha256 _ := zeroHash

/-- The sample world with the same mock. -/
def mockEnvironment : Environment :=
  { sevSnpEnvironment with mock := plainMock }

theorem mockDevices_authentic : Authentic (fun _ => true) mockDevices mockEnvironment where
  sameMock := rfl
  lawfulMock := plainMock_lawful
  extended := nofun
  plain := nofun
  token := nofun

/-- The evidence that its mock makes. -/
def mockEvidence : Evidence :=
  Mock.signMockQuote plainMock zeroHash
    (serverReportdata emptySha384 (some zeroHash) emptyKey)

/-- The mock's server, with a zero configuration hash. -/
theorem mockServer :
    fromKeyPair (evidenceIssuer mockEvidence) emptySha384
      (SelectedAttester.mock.attester mockDevices) (some zeroHash) emptyKey =
        .ok ⟨[]⟩ :=
  fromKeyPair_evidenceIssuer rfl

theorem mockServer_accepted :
    AttestedCertVerifier.verifyServerCert (evidenceParser mockEvidence)
      emptySha384 ⟨ClientBackend.mock.verifier mockEnvironment, none, some zeroHash⟩ [] =
        .ok () := by
  refine (served_accepted_iff (evidenceIssuer_preserves mockEvidence)
    mockServer rfl _).mpr ⟨_, ?_, (binds_serverReportdata_iff _ _).mpr
      (Or.inr ⟨zeroHash, rfl, Or.inl ⟨zeroHash, rfl, rfl⟩⟩)⟩
  exact (Mock.verify_signMockQuote plainMock_lawful).mpr ⟨Or.inl rfl, rfl⟩

/-- A SEV-SNP guest that is told nothing about mocks. -/
def snpHost : RuntimeEnvironment where
  var _ := none
  pathExists path := path = "/dev/sev-guest".toList
  canConnect _ := false

/-- A hash that tells texts of different lengths apart. -/
def lengthHash (b : Bytes) : ByteArr 32 := ⟨Bytes.toLe 32 b.length, Bytes.length_toLe 32 _⟩

/-- Its device gives plain reports of what it is asked for. -/
def snpDevices : Devices :=
  { mockDevices with
    sevGuest := noExtended
    sevGuestPlain := plainGuest
    sha256 := lengthHash }

theorem snpDevices_authentic : Authentic (fun _ => true) snpDevices mockEnvironment where
  sameMock := rfl
  lawfulMock := plainMock_lawful
  extended := fun _ _ _ h => (by cases h)
  plain userData resp h := by
    obtain rfl := Except.ok.inj h
    rw [responseReport_responseWith, reportData_reportFor]
  token := fun _ _ _ h => (by cases h)

theorem snpDevices_attest (r : ByteArr 64) :
    SelectedAttester.sevSnp.attester snpDevices r = .ok ⟨.sevSnp, reportFor r⟩ :=
  plainGuest_attest r

/-- The evidence for a configuration hash. -/
def snpEvidence (c : ByteArr 32) : Evidence :=
  ⟨.sevSnp, reportFor (serverReportdata emptySha384 (some c) emptyKey)⟩

theorem snpServer (c : ByteArr 32) :
    fromKeyPair (evidenceIssuer (snpEvidence c)) emptySha384
      (SelectedAttester.sevSnp.attester snpDevices) (some c) emptyKey = .ok ⟨[]⟩ :=
  fromKeyPair_evidenceIssuer (snpDevices_attest _)

theorem snpServer_accepted (c : ByteArr 32) :
    AttestedCertVerifier.verifyServerCert (evidenceParser (snpEvidence c)) emptySha384
      ⟨ClientBackend.sevSnp.verifier mockEnvironment, none, some c⟩ [] = .ok () := by
  have hgenuine : SevSnp.Genuine oneEndorsement (fun _ => .ok [])
      (reportFor (serverReportdata emptySha384 (some c) emptyKey)) none _ :=
    reportFor_genuine _ (Or.inr ⟨rfl, rfl⟩) (by decide)
  have hverify := (SevSnp.plainEvidence_accepted_of_genuine hgenuine (length_reportFor _) none
    _).mpr ⟨fun _ h => (by cases h), rfl⟩
  exact (served_accepted_iff (evidenceIssuer_preserves _) (snpServer c)
    (snpDevices_attest _) _).mpr ⟨_, hverify, (binds_serverReportdata_iff _ _).mpr
      (Or.inr ⟨c, rfl, Or.inl ⟨c, rfl, rfl⟩⟩)⟩

/-- A build with every backend selects the mock on the one host and SEV-SNP on the other, and a
client of the backend learns it. -/
theorem hosts_select :
    (selectAttester ⟨true, true, true, true⟩ mockHost = .ok .mock ∧
      mockHost.Selects ⟨true, true, true, true⟩ .mock) ∧
    selectAttester ⟨true, true, true, true⟩ snpHost = .ok .sevSnp ∧
      snpHost.Selects ⟨true, true, true, true⟩ .sevSnp := by
  have hmock : selectAttester ⟨true, true, true, true⟩ mockHost = .ok .mock := by decide
  have hsnp : selectAttester ⟨true, true, true, true⟩ snpHost = .ok .sevSnp := by decide
  refine ⟨⟨hmock, ?_⟩, hsnp, ?_⟩
  · exact (accepted_server_selected _ _ _ _ _ mockDevices_authentic _ _ _
      (evidenceIssuer_preserves mockEvidence) _ hmock _ _ _ mockServer .mock none _
      mockServer_accepted).1
  · exact (accepted_server_selected _ _ _ _ _ snpDevices_authentic _ _ _
      (evidenceIssuer_preserves (snpEvidence zeroHash)) _ hsnp _ _ _ (snpServer zeroHash) .sevSnp
      none _ (snpServer_accepted zeroHash)).1

end Samples

end TrustedRelay
