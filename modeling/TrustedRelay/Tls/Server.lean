import TrustedRelay.Tls.Client

/-!
# Attested TLS, the server side

The server makes a certificate of its own for a key pair: REPORTDATA from the key and the
configuration hash, evidence for it from an attester, and the evidence in two extensions of the
certificate. The client recomputes every part of this. `attestedCert_accepted_iff` says that the
two agree: a certificate of the mock attester is accepted exactly by the clients that expect its
measurement or none, and the first half of its configuration hash or none.
-/

namespace TrustedRelay

namespace AttestedTls

/-- A key pair: the encoded SubjectPublicKeyInfo and the encoded private key. -/
structure KeyPair where
  publicKeyDer : Bytes
  serializedDer : Bytes
deriving DecidableEq

/-- The libraries that issue certificates and configure TLS. -/
structure Issuer where
  selfSigned : Quote.CertificateParams → KeyPair → Except Text Bytes
  privateKeyDer : Bytes → Except Text Bytes
  withSingleCert : List Bytes → Bytes → Except Text Unit

/-- What the client relies on: a parsed certificate shows the key it was made for and, outside the
standard arc 2.5.29, the extensions that the caller put in. -/
structure Issuer.Preserves (I : Issuer) (x509 : X509Parser) : Prop where
  certificate : ∀ params keyPair certDer, I.selfSigned params keyPair = .ok certDer →
    (∀ ext ∈ params.customExtensions, ¬[2, 5, 29] <+: ext.oid) →
      ∃ cert, x509 certDer = some cert ∧ cert.publicKeyRaw = keyPair.publicKeyDer ∧
        cert.extensions.filter (fun ext => params.extensions.any (·.oid == ext.oid)) =
          params.extensions

structure AttestedTlsServer where
  certDer : Bytes
deriving DecidableEq

variable (I : Issuer) (sha384 : Bytes → ByteArr 48)

def fromCertDerAndKey (certDer privateKeyDer : Bytes) : Except AttestError AttestedTlsServer := do
  (I.withSingleCert [certDer] privateKeyDer).mapError fun e =>
    .other ("rustls config: ".toList ++ e)
  .ok ⟨certDer⟩

def fromCertKeyPair (certDer : Bytes) (keyPair : KeyPair) :
    Except AttestError AttestedTlsServer := do
  let privateKeyDer ← (I.privateKeyDer keyPair.serializedDer).mapError
    fun e => .x509Error ("private key DER: ".toList ++ e)
  fromCertDerAndKey I certDer privateKeyDer

/-- The REPORTDATA of the server: the hash of the key, then half of the configuration hash. -/
def serverReportdata (configHash : Option (ByteArr 32)) (keyPair : KeyPair) : ByteArr 64 :=
  ⟨(sha384 keyPair.publicKeyDer).1 ++ (configPart configHash).1, by
    rw [List.length_append, (sha384 keyPair.publicKeyDer).2, (configPart configHash).2]⟩

def fromKeyPair (attester : Attester) (configHash : Option (ByteArr 32)) (keyPair : KeyPair) :
    Except AttestError AttestedTlsServer := do
  let evidence ← attester (serverReportdata sha384 configHash keyPair)
  let certDer ← (I.selfSigned (Quote.certParamsWithEvidence evidence) keyPair).mapError
    fun e => .x509Error ("self-sign: ".toList ++ e)
  fromCertKeyPair I certDer keyPair

variable {I sha384}

theorem fromKeyPair_eq_ok {attester : Attester} {configHash : Option (ByteArr 32)}
    {keyPair : KeyPair} {server : AttestedTlsServer}
    (h : fromKeyPair I sha384 attester configHash keyPair = .ok server) :
    ∃ evidence, attester (serverReportdata sha384 configHash keyPair) = .ok evidence ∧
      I.selfSigned (Quote.certParamsWithEvidence evidence) keyPair = .ok server.certDer := by
  simp only [fromKeyPair, fromCertKeyPair, fromCertDerAndKey, Except.bind_eq_ok_iff,
    Except.mapError_eq_ok_iff, Except.ok.injEq] at h
  obtain ⟨evidence, hevidence, certDer, hcert, _, -, _, -, rfl⟩ := h
  exact ⟨evidence, hevidence, hcert⟩

/-- The server starts as soon as the libraries sign its certificate and take it. -/
theorem fromKeyPair_of_signed {attester : Attester} {configHash : Option (ByteArr 32)}
    {keyPair : KeyPair} {evidence : Evidence} {certDer privateKeyDer : Bytes}
    (hevidence : attester (serverReportdata sha384 configHash keyPair) = .ok evidence)
    (hsigned : I.selfSigned (Quote.certParamsWithEvidence evidence) keyPair = .ok certDer)
    (hkey : I.privateKeyDer keyPair.serializedDer = .ok privateKeyDer)
    (hconfig : I.withSingleCert [certDer] privateKeyDer = .ok ()) :
    fromKeyPair I sha384 attester configHash keyPair = .ok ⟨certDer⟩ := by
  simp only [fromKeyPair, fromCertKeyPair, fromCertDerAndKey, Except.bind_eq_ok_iff,
    Except.mapError_eq_ok_iff]
  exact ⟨evidence, hevidence, certDer, hsigned, privateKeyDer, hkey, (), hconfig, rfl⟩

/-- The client reads back the evidence and the key that the server put in. -/
theorem extract_selfSigned {x509 : X509Parser} (hI : I.Preserves x509) {evidence : Evidence}
    {keyPair : KeyPair} {certDer : Bytes}
    (h : I.selfSigned (Quote.certParamsWithEvidence evidence) keyPair = .ok certDer) :
    Quote.extractEvidenceFromCert x509 certDer = .ok evidence ∧
      Quote.extractSpkiFromCert x509 certDer = .ok keyPair.publicKeyDer := by
  obtain ⟨cert, hcert, hkey, hext⟩ := hI.certificate _ keyPair certDer h
    (by simp [Quote.certParamsWithEvidence, Quote.oidEvidenceBlob, Quote.oidTeeType])
  have hblob : Quote.oidText Quote.oidEvidenceBlob = Quote.oidEvidenceBlobStr := by decide
  have htype : Quote.oidText Quote.oidTeeType = Quote.oidTeeTypeStr := by decide
  have hsame : (fun ext : X509Extension =>
      (Quote.certParamsWithEvidence evidence).extensions.any (·.oid == ext.oid)) =
      Quote.isAttestation := by
    funext ext
    simp [Quote.CertificateParams.extensions, Quote.certParamsWithEvidence, Quote.isAttestation,
      hblob, htype, Bool.beq_eq_decide_eq, eq_comm]
  rw [hsame] at hext
  refine ⟨Quote.extractEvidence_of_extensions hcert hext, ?_⟩
  exact Except.bind_eq_ok_iff.mpr ⟨cert, okOr_eq_ok_iff.mpr hcert, congrArg Except.ok hkey⟩

/-- The client expects no configuration, or one with the first half of the server's. A server
without a configuration has zeros there. -/
def ConfigAgrees (c expected : Option (ByteArr 32)) : Prop :=
  expected = none ∨ ∃ h, expected = some h ∧
    ((∃ ch, c = some ch ∧ h.1.take 16 = ch.1.take 16) ∨
      (c = none ∧ h.1.take 16 = List.replicate 16 0))

theorem binds_serverReportdata_iff (sha384 : Bytes → ByteArr 48) (keyPair : KeyPair)
    {c expected : Option (ByteArr 32)} :
    Binds sha384 keyPair.publicKeyDer expected (serverReportdata sha384 c keyPair) ↔
      ConfigAgrees c expected := by
  rw [Binds, serverReportdata, List.take_left' (sha384 keyPair.publicKeyDer).2,
    List.drop_left' (sha384 keyPair.publicKeyDer).2, ConfigAgrees]
  cases expected <;> cases c <;> simp [configPart, eq_comm]

/-- The client's decision on a served certificate is its backend's decision on the server's
evidence, and a comparison of what the backend returns. -/
theorem served_accepted_iff {x509 : X509Parser} (hI : I.Preserves x509) {attester : Attester}
    {c : Option (ByteArr 32)} {keyPair : KeyPair} {server : AttestedTlsServer}
    (hserver : fromKeyPair I sha384 attester c keyPair = .ok server) {evidence : Evidence}
    (hevidence : attester (serverReportdata sha384 c keyPair) = .ok evidence)
    (V : AttestedCertVerifier) :
    V.verifyServerCert x509 sha384 server.certDer = .ok () ↔
      ∃ r, V.verifier evidence (V.expectedAttestedData evidence.teeType
          (expectedReportdata sha384 keyPair.publicKeyDer V.expectedConfigHash)) = .ok r ∧
        Binds sha384 keyPair.publicKeyDer V.expectedConfigHash r := by
  obtain ⟨evidence', hevidence', hsigned⟩ := fromKeyPair_eq_ok hserver
  obtain rfl := Except.ok.inj (hevidence.symm.trans hevidence')
  obtain ⟨hextract, hspki⟩ := extract_selfSigned hI hsigned
  rw [verifyServerCert_eq_ok_iff]
  constructor
  · rintro ⟨evidence', spki, r, hevidence', hspki', hr, hbinds⟩
    obtain rfl := Except.ok.inj (hextract.symm.trans hevidence')
    obtain rfl := Except.ok.inj (hspki.symm.trans hspki')
    exact ⟨r, hr, hbinds⟩
  · rintro ⟨r, hr, hbinds⟩
    exact ⟨evidence, _, r, hextract, hspki, hr, hbinds⟩

/-- A certificate of the mock attester is accepted exactly by a client that expects no measurement
or the attester's, and no configuration or the server's. -/
theorem attestedCert_accepted_iff (x509 : X509Parser) (sha384 : Bytes → ByteArr 48) (I : Issuer)
    (M : Mock.MockLibraries) (hI : I.Preserves x509) (hM : M.Lawful) (keyPair : KeyPair)
    (c : Option (ByteArr 32)) (m : ByteArr 32) (expectedMeasurement : Option Bytes)
    (expectedConfigHash : Option (ByteArr 32)) (server : AttestedTlsServer)
    (hserver : fromKeyPair I sha384 (Mock.measuredMockAttester M m) c keyPair = .ok server) :
    AttestedCertVerifier.verifyServerCert x509 sha384
        ⟨Mock.verify M, expectedMeasurement, expectedConfigHash⟩ server.certDer = .ok () ↔
      (expectedMeasurement = none ∨ expectedMeasurement = some m.1) ∧
      (expectedConfigHash = none ∨ ∃ h, expectedConfigHash = some h ∧
        ((∃ ch, c = some ch ∧ h.1.take 16 = ch.1.take 16) ∨
          (c = none ∧ h.1.take 16 = List.replicate 16 0))) := by
  have hevidence : Mock.measuredMockAttester M m (serverReportdata sha384 c keyPair) =
      .ok (Mock.signMockQuote M m (serverReportdata sha384 c keyPair)) := rfl
  rw [served_accepted_iff hI hserver hevidence]
  refine Iff.trans ?_ (and_congr_right fun _ => binds_serverReportdata_iff sha384 keyPair)
  constructor
  · rintro ⟨r, hr, hbinds⟩
    -- the evidence is of the mock type, so the measurement is what the backend is asked for
    obtain ⟨hmeasurement, rfl⟩ := (Mock.verify_signMockQuote hM).mp hr
    exact ⟨hmeasurement, hbinds⟩
  · rintro ⟨hmeasurement, hbinds⟩
    exact ⟨_, (Mock.verify_signMockQuote hM).mpr ⟨hmeasurement, rfl⟩, hbinds⟩

/-! ### An accepted certificate -/

/-- The bytes of a JSON array, without its brackets. -/
def readBytes (body : Text) : Bytes :=
  if body = [] then [] else (body.splitOn ',').map fun d => UInt8.ofNat (Nat.ofDigitChars 10 d 0)

/-- A decoder for quotes as they are written. -/
def readQuote (b : Bytes) : Option Mock.MockQuote := do
  let text ← Text.fromUtf8 b
  let rest ← Text.stripPrefix text "\x7b\"measurement\":[".toList
  let (measurement, rest) ← Text.splitOnce rest ']'
  let rest ← Text.stripPrefix rest ",\"user_data\":[".toList
  let (userData, _) ← Text.splitOnce rest ']'
  some ⟨readBytes measurement, readBytes userData⟩

/-- The body of a JSON array. -/
def jsonBody (b : Bytes) : Text := ",".toList.intercalate (b.map fun x => Text.decimal x.toNat)

theorem mem_intercalate {sep c : Char} {ls : List Text} (h : c ∈ [sep].intercalate ls) :
    c = sep ∨ ∃ l ∈ ls, c ∈ l := by
  induction ls with
  | nil => simp at h
  | cons l ls ih =>
    cases ls with
    | nil =>
      rw [List.intercalate_singleton] at h
      exact Or.inr ⟨l, List.mem_cons_self, h⟩
    | cons l' ls =>
      rw [List.intercalate_cons_cons, List.mem_append, List.mem_append, List.mem_singleton] at h
      rcases h with (hl | rfl) | hrest
      · exact Or.inr ⟨l, List.mem_cons_self, hl⟩
      · exact Or.inl rfl
      · obtain heq | ⟨k, hk, hck⟩ := ih hrest
        · exact Or.inl heq
        · exact Or.inr ⟨k, List.mem_cons_of_mem _ hk, hck⟩

theorem not_mem_jsonBody (b : Bytes) : ']' ∉ jsonBody b := by
  intro h
  obtain heq | ⟨l, hl, hmem⟩ := mem_intercalate h
  · exact absurd heq (by decide)
  · obtain ⟨x, -, rfl⟩ := List.mem_map.mp hl
    exact absurd (Text.isDigit_of_mem_decimal hmem) (by decide)

theorem readBytes_jsonBody (b : Bytes) : readBytes (jsonBody b) = b := by
  cases b with
  | nil => rfl
  | cons x b =>
    have hpieces : ∀ l ∈ (x :: b).map fun x => Text.decimal x.toNat, ',' ∉ l := by
      intro l hl hmem
      obtain ⟨y, -, rfl⟩ := List.mem_map.mp hl
      exact absurd (Text.isDigit_of_mem_decimal hmem) (by decide)
    have hsplit : (jsonBody (x :: b)).splitOn ',' = (x :: b).map fun x => Text.decimal x.toNat :=
      List.splitOn_intercalate ',' hpieces (by simp)
    have hne : jsonBody (x :: b) ≠ [] := by
      intro hnil
      have hlen : (Text.decimal x.toNat).length = 0 := by
        rw [hnil, List.splitOn_nil, List.map_cons] at hsplit
        rw [← (List.cons.inj hsplit).1, List.length_nil]
      exact absurd hlen (Nat.ne_of_gt Nat.length_toDigits_pos)
    have hread : ∀ y : UInt8, UInt8.ofNat (Nat.ofDigitChars 10 (Text.decimal y.toNat) 0) = y := by
      intro y
      rw [Text.decimal, Nat.ofDigitChars_ten_toDigits, UInt8.ofNat_toNat]
    rw [readBytes, if_neg hne, hsplit, List.map_map]
    exact (List.map_congr_left fun y _ => hread y).trans (List.map_id _)

theorem readQuote_toJson (quote : Mock.MockQuote) : readQuote quote.toJson = some quote := by
  have htext : quote.toJson = Text.asBytes ("\x7b\"measurement\":[".toList ++
      (jsonBody quote.measurement ++ ']' :: (",\"user_data\":[".toList ++
        (jsonBody quote.userData ++ ']' :: "\x7d".toList)))) := by
    simp [Mock.MockQuote.toJson, Mock.jsonBytes, jsonBody]
  rw [htext, readQuote, Text.fromUtf8_asBytes]
  simp only [Option.bind_eq_bind, Option.bind_some, Text.stripPrefix_append,
    Text.splitOnce_append (not_mem_jsonBody _), readBytes_jsonBody]

/-- Mock libraries with one signature for everything. -/
def plainMock : Mock.MockLibraries where
  parseQuote := readQuote
  sign _ := ByteArr.fill 64 1
  verifySignature _ signature := signature.1 = List.replicate 64 1

theorem plainMock_lawful : plainMock.Lawful where
  parseQuote_toJson := readQuote_toJson
  verifySignature_sign _ := by simp [plainMock, ByteArr.fill]

def emptyKey : KeyPair := ⟨[], [0]⟩

/-- The parameters for the empty key, a zero measurement and a zero configuration hash. -/
def attestedParams : Quote.CertificateParams :=
  Quote.certParamsWithEvidence (Mock.signMockQuote plainMock zeroHash
    (serverReportdata emptySha384 (some zeroHash) emptyKey))

/-- An issuer of one certificate. -/
def oneIssuer : Issuer where
  selfSigned params keyPair :=
    if params = attestedParams ∧ keyPair = emptyKey then .ok [] else .error "unsupported".toList
  privateKeyDer := .ok
  withSingleCert _ _ := .ok ()

/-- The certificate shows its subject names besides the evidence. -/
def oneParser : X509Parser := fun _ =>
  some { certWith 0 [] with extensions := ⟨"2.5.29.17".toList, [0]⟩ :: attestedParams.extensions }

theorem oneIssuer_preserves : oneIssuer.Preserves oneParser where
  certificate := by
    intro params keyPair certDer h _
    simp only [oneIssuer] at h
    split_ifs at h with hparams
    obtain ⟨rfl, rfl⟩ := hparams
    refine ⟨_, rfl, rfl, ?_⟩
    decide +kernel

/-- The certificate is accepted with both pins, and not with another measurement. -/
theorem attestedCert_accepted :
    ∃ server, fromKeyPair oneIssuer emptySha384 (Mock.measuredMockAttester plainMock zeroHash)
        (some zeroHash) emptyKey = .ok server ∧
      AttestedCertVerifier.verifyServerCert oneParser emptySha384
        ⟨Mock.verify plainMock, some zeroHash.1, some zeroHash⟩ server.certDer = .ok () ∧
      AttestedCertVerifier.verifyServerCert oneParser emptySha384
        ⟨Mock.verify plainMock, some [], some zeroHash⟩ server.certDer ≠ .ok () := by
  have hserver : fromKeyPair oneIssuer emptySha384 (Mock.measuredMockAttester plainMock zeroHash)
      (some zeroHash) emptyKey = .ok ⟨[]⟩ := by decide +kernel
  refine ⟨⟨[]⟩, hserver, ?_, ?_⟩
  · exact (attestedCert_accepted_iff oneParser emptySha384 oneIssuer plainMock oneIssuer_preserves
      plainMock_lawful emptyKey _ zeroHash _ _ _ hserver).mpr
      ⟨Or.inr rfl, Or.inr ⟨zeroHash, rfl, Or.inl ⟨zeroHash, rfl, rfl⟩⟩⟩
  · rw [Ne, attestedCert_accepted_iff oneParser emptySha384 oneIssuer plainMock oneIssuer_preserves
      plainMock_lawful emptyKey _ zeroHash _ _ _ hserver]
    rintro ⟨hmeasurement, -⟩
    revert hmeasurement
    decide

end AttestedTls

end TrustedRelay
