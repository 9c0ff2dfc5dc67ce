import TrustedRelay.OnlineCheck.Decision
import TrustedRelay.OnlineCheck.ExpectedHash
import TrustedRelay.Rust.SerdeJson
import TrustedRelay.Tunnel.LocalCli

/-!
# The checker, from its command line to its verdict

`main` reads its pins from the command line, fetches the certificate of the relay, prints what is in
the evidence, and then decides. The local proxy does the same in code of its own, with another
reader for the measurement and without the printing. `checker_proxy_agree` compares the two from the
command line on: in strict mode the checker passes a relay exactly when a proxy with the same
options accepts it, except that it rejects a Confidential Space token that it cannot print. For
SEV-SNP there is no exception, as no report that is accepted is too short to be printed.
-/

namespace TrustedRelay

namespace OnlineCheck

open Outcome (lift)
open AttestedTls (Features Environment)

/-- The whole command line. -/
structure Command extends Cli where
  endpoint : Text
  backend : Backend := .sevSnp
  mode : Mode := .audit
  expectedMeasurement : Option Text := none
  expectedConfigHash : Option Text := none
  printOnly : Bool := false
  gcpCsAudience : Text := "trusted-relay-attested-tls".toList
  gcpCsImageDigest : Option Text := none
  gcpCsImageReference : Option Text := none
  gcpCsSignatureKeyId : List Text := []
  gcpCsServiceAccount : Option Text := none
  gcpCsProjectId : Option Text := none
  gcpCsZone : Option Text := none

/-! ### Pins from the command line -/

/-- `hex::decode` of the text without its prefix, for a given number of bytes. -/
def parseHexArray (n : ℕ) (raw label : Text) : Except Text (ByteArr n) := do
  let bytes ← (LocalProxy.hexDecode (LocalProxy.strip0x raw)).mapError
    fun _ => label ++ " is not valid hex".toList
  Bytes.tryInto n bytes (label ++ " must decode to ".toList ++ Text.decimal n ++
    " bytes, got ".toList ++ Text.decimal bytes.length ++ " bytes".toList)

/-- An optional pin of `n` bytes in hex. -/
def parseOptionalHex (n : ℕ) (raw : Option Text) (label : Text) :
    Except Text (Option (ByteArr n)) :=
  match raw with
  | none => .ok none
  | some value => do
    let bytes ← parseHexArray n value label
    .ok (some bytes)

/-- The hash that is written, or one that is computed from the options where it will be used. -/
def Command.configHash (P : UrlParser) (sha256 : Bytes → ByteArr 32) (cli : Command) :
    Outcome Text (Option (ByteArr 32)) :=
  match cli.expectedConfigHash with
  | some raw => do
    let hash ← lift (parseHexArray 32 raw "--expected-config-hash".toList)
    .ok (some hash)
  | none =>
    if cli.mode = .strict ∨ cli.printOnly = true then do
      let hash ← computeExpectedConfigHash P sha256 cli.toCli
      .ok (some hash)
    else .ok none

/-! ### Printing -/

/-- What the checker prints of a report. -/
structure ReportDetails where
  reportdata : Bytes
  measurement : Bytes
  policy : ℕ
  debugAllowed : Bool
  reportedTcb : ℕ
  chipIdPrefix : Text

/-- A part of the report, or the error that names it. -/
def slice (buf : Bytes) (offset len : ℕ) (label : String) : Except Text Bytes :=
  okOr (Bytes.get buf offset (offset + len)) ("report too short for ".toList ++ label.toList)

/-- The details of a report. -/
def reportDetails (report : Bytes) : Except Text ReportDetails := do
  let reportdata ← slice report 0x50 64 "REPORTDATA"
  let measurement ← slice report 0x90 48 "MEASUREMENT"
  let policy ← slice report 0x08 8 "POLICY"
  let reportedTcb ← slice report 0x180 8 "REPORTED_TCB"
  let chipId ← slice report 0x1A0 64 "CHIP_ID"
  .ok
    { reportdata
      measurement
      policy := Bytes.le policy
      debugAllowed := (Bytes.le policy).testBit 19
      reportedTcb := Bytes.le reportedTcb
      chipIdPrefix := hexEncode (chipId.take 8) }

/-- The libraries that the printing of a token rests on: base64 with padding, and the numbers that
JSON can hold. -/
structure PrintLibraries where
  base64Decode : Text → Option Bytes
  fits : Text → Bool

/-- Filled up to whole groups of four bytes, as the base64 library wants it. -/
def padded (s : Text) : Text := s ++ List.replicate ((4 - (Text.asBytes s).length % 4) % 4) '='

/-- Base64url, by way of the standard alphabet with padding. -/
def base64UrlDecode (T : PrintLibraries) (raw : Text) : Except Text Bytes :=
  okOr (T.base64Decode (padded (raw.map fun c =>
    if c = '-' then '+' else if c = '_' then '/' else c))) "invalid base64url".toList

/-- The claims of a token as they are printed. -/
def decodeJwtClaimsWithoutVerification (T : PrintLibraries) (token : Text) :
    Except Text Json.Value := do
  let payload ← okOr (token.splitOn '.')[1]? "JWT lacks payload segment".toList
  let bytes ← base64UrlDecode T payload
  okOr (SerdeJson.fromSlice T.fits bytes) "JWT payload is not JSON".toList

/-- What is printed of the evidence: it can fail, and else has no influence. -/
def printEvidence (T : PrintLibraries) (backend : Backend) (evidence : Evidence) :
    Except Text Unit :=
  match backend with
  | .sevSnp => do
    let _ ← reportDetails evidence.data
    .ok ()
  | .gcpConfidentialSpace => do
    let token ← okOr (Text.fromUtf8 evidence.data)
      "Confidential Space token is not UTF-8".toList
    let _ ← decodeJwtClaimsWithoutVerification T token
    .ok ()

/-! ### The verdict -/

/-- The Confidential Space policy of a command line. -/
def Command.policy (cli : Command) : GcpConfidentialSpacePolicy where
  audience := cli.gcpCsAudience
  imageDigest := cli.gcpCsImageDigest
  imageReference := cli.gcpCsImageReference
  signatureKeyIds := cli.gcpCsSignatureKeyId
  serviceAccount := cli.gcpCsServiceAccount
  projectId := cli.gcpCsProjectId
  zone := cli.gcpCsZone

/-- The verifier of a command line, if its backend is compiled in. -/
def verifierForBackend (F : Features) (E : Environment) (cli : Command) : Except Text Verifier :=
  match cli.backend with
  | .sevSnp =>
    if F.sevSnp then .ok (SevSnp.verify E.certs E.kds)
    else .error (LocalProxy.requiresFeature "sev-snp" "sev-snp")
  | .gcpConfidentialSpace =>
    if F.gcpConfidentialSpace then
      if cli.mode = .audit then
        .ok ((GcpConfidentialSpaceVerifier.newAudit E.jwks cli.policy).verify E.urls E.jwt
          E.wellKnown E.clock)
      else do
        let v ← (GcpConfidentialSpaceVerifier.new E.urls E.jwks cli.policy).mapError
          AttestError.display
        .ok (v.verify E.urls E.jwt E.wellKnown E.clock)
    else .error (LocalProxy.requiresFeature "gcp-confidential-space" "gcp-confidential-space")

/-- How the checker ends. -/
inductive Verdict
  /-- The evidence was printed, and not verified. -/
  | printed
  /-- `RESULT: OK`. -/
  | verified
deriving DecidableEq, Repr

/-- `main`; `fetch` gives the certificate of an endpoint. -/
def main (F : Features) (E : Environment) (T : PrintLibraries) (x509 : X509Parser)
    (sha384 : Bytes → ByteArr 48) (sha256 : Bytes → ByteArr 32) (fetch : Url → Except Text Bytes)
    (cli : Command) : Outcome Text Verdict := do
  let endpoint ← lift (okOr (Url.parse E.urls cli.endpoint) "--endpoint must be a valid URL".toList)
  lift (ensure (endpoint.scheme = "https".toList) "--endpoint must use https://".toList)
  let expectedMeasurement ← lift
    (parseOptionalHex 48 cli.expectedMeasurement "--expected-measurement".toList)
  let expectedConfigHash ← cli.configHash E.urls sha256
  let pins : Pins := ⟨cli.backend, cli.mode, expectedMeasurement, expectedConfigHash⟩
  if cli.printOnly = false then
    lift (pins.checkStrict cli.gcpCsImageDigest cli.gcpCsSignatureKeyId)
  let certDer ← lift (fetch endpoint)
  let evidence ← lift ((Quote.extractEvidenceFromCert x509 certDer).mapError
    fun e => "certificate lacks evidence: ".toList ++ e.display)
  lift (ensure (evidence.teeType = cli.backend.teeType)
    ("expected ".toList ++ cli.backend.teeType.debug ++ " evidence, got ".toList ++
      evidence.teeType.debug))
  let _ ← lift ((Quote.extractSpkiFromCert x509 certDer).mapError
    fun e => "failed to extract cert SPKI: ".toList ++ e.display)
  lift (printEvidence T cli.backend evidence)
  if cli.printOnly = true then .ok .printed
  else do
    let verifier ← lift (verifierForBackend F E cli)
    -- begins with the evidence and the key once more
    decision x509 sha384 pins verifier certDer
    .ok .verified

/-! ### The same options for the checker and the proxy -/

/-- The backend that the local proxy has for it. -/
def Backend.attestationBackend : Backend → LocalProxy.AttestationBackend
  | .sevSnp => .sevSnp
  | .gcpConfidentialSpace => .gcpConfidentialSpace

/-- A checker in strict mode, with the hash written out, and a proxy without audit mode. -/
structure SameOptions (K : Command) (L : LocalProxy.Cli) : Prop where
  strict : K.mode = .strict
  verifying : K.printOnly = false
  noAudit : L.allowAudit = false
  endpoint : K.endpoint = L.relayEndpoint
  backend : L.backend = K.backend.attestationBackend
  measurement : K.backend = .sevSnp → K.expectedMeasurement = some L.expectedMeasurement
  configHash : K.expectedConfigHash = some L.expectedConfigHash
  policy : K.policy = L.policy

/-- What the checker does beyond the proxy, for Confidential Space alone: it reads a measurement
that it has no use for, and prints claims that are not verified. -/
def Printable (T : PrintLibraries) (x509 : X509Parser) (K : Command) (certDer : Bytes) : Prop :=
  K.backend = .gcpConfidentialSpace →
    (∃ m, parseOptionalHex 48 K.expectedMeasurement "--expected-measurement".toList = .ok m) ∧
      ∃ evidence, Quote.extractEvidenceFromCert x509 certDer = .ok evidence ∧
        printEvidence T K.backend evidence = .ok ()

section

variable {F : Features} {E : Environment} {T : PrintLibraries} {x509 : X509Parser}
  {sha384 : Bytes → ByteArr 48} {sha256 : Bytes → ByteArr 32} {fetch : Url → Except Text Bytes}
  {K : Command} {L : LocalProxy.Cli} {certDer : Bytes}

theorem parseHexArray_eq_ok_iff {n : ℕ} {raw label : Text} {a : ByteArr n} :
    parseHexArray n raw label = .ok a ↔ LocalProxy.Spells raw a.1 := by
  simp only [parseHexArray, Except.bind_eq_ok_iff, Except.mapError_eq_ok_iff,
    LocalProxy.hexDecode_strip0x_iff, Bytes.tryInto_eq_ok_iff, exists_eq_right]

theorem parseOptionalHex_some_eq_ok_iff {n : ℕ} {raw label : Text} {a : Option (ByteArr n)} :
    parseOptionalHex n (some raw) label = .ok a ↔
      ∃ b, LocalProxy.Spells raw b.1 ∧ some b = a := by
  simp only [parseOptionalHex, Except.bind_eq_ok_iff, parseHexArray_eq_ok_iff, Except.ok.injEq]

/-- What the checker passes, with a configuration hash that is written out. -/
theorem main_eq_verified_iff {raw : Text} (hverifying : K.printOnly = false)
    (hhash : K.expectedConfigHash = some raw) :
    main F E T x509 sha384 sha256 fetch K = .ok .verified ↔
      ∃ endpoint, Url.parse E.urls K.endpoint = some endpoint ∧ endpoint.scheme = "https".toList ∧
      ∃ measurement, parseOptionalHex 48 K.expectedMeasurement "--expected-measurement".toList =
          .ok measurement ∧
      ∃ configHash, LocalProxy.Spells raw configHash.1 ∧
      (Pins.mk K.backend K.mode measurement (some configHash)).checkStrict K.gcpCsImageDigest
        K.gcpCsSignatureKeyId = .ok () ∧
      ∃ certDer, fetch endpoint = .ok certDer ∧
      ∃ evidence, Quote.extractEvidenceFromCert x509 certDer = .ok evidence ∧
        evidence.teeType = K.backend.teeType ∧
      ∃ spki, Quote.extractSpkiFromCert x509 certDer = .ok spki ∧
        printEvidence T K.backend evidence = .ok () ∧
      ∃ verifier, verifierForBackend F E K = .ok verifier ∧
        decision x509 sha384 ⟨K.backend, K.mode, measurement, some configHash⟩ verifier certDer =
          .ok () := by
  simp only [main, Command.configHash, hhash, hverifying, if_true, Bool.false_eq_true, if_false,
    Except.bind_eq_ok_iff, exists_unit_iff, Outcome.lift_eq_ok_iff, okOr_eq_ok_iff,
    ensure_eq_ok_iff, Except.mapError_eq_ok_iff, parseHexArray_eq_ok_iff, Except.ok.injEq,
    exists_exists_and_eq_and, and_true]

/-! ### The proxy on the same command line -/

theorem verifierForBackend_eq (hsame : SameOptions K L) :
    LocalProxy.verifierForBackend F E L = verifierForBackend F E K := by
  unfold LocalProxy.verifierForBackend verifierForBackend
  rw [hsame.backend, hsame.noAudit, hsame.strict, hsame.policy]
  cases K.backend <;> rfl

/-- Every backend looks at the type of the evidence. -/
theorem teeType_of_verifier {verifier : Verifier} {evidence : Evidence} {expected : Option Bytes}
    {r : ByteArr 64} (hverifier : verifierForBackend F E K = .ok verifier)
    (hr : verifier evidence expected = .ok r) : evidence.teeType = K.backend.teeType := by
  rw [verifierForBackend] at hverifier
  cases hbackend : K.backend with
  | sevSnp =>
    rw [hbackend] at hverifier
    dsimp only at hverifier
    split_ifs at hverifier
    obtain rfl := Except.ok.inj hverifier
    exact (SevSnp.verify_eq_ok_iff.mp hr).1.teeType
  | gcpConfidentialSpace =>
    rw [hbackend] at hverifier
    dsimp only at hverifier
    split_ifs at hverifier
    · obtain rfl := Except.ok.inj hverifier
      exact (GcpConfidentialSpaceVerifier.verify_eq_ok hr).1
    · obtain ⟨V, -, hV⟩ := Except.bind_eq_ok_iff.mp hverifier
      obtain rfl := Except.ok.inj hV
      exact (GcpConfidentialSpaceVerifier.verify_eq_ok hr).1

/-- No text that spells bytes is empty. -/
theorem ne_nil_of_spells {n : ℕ} {raw : Text} {b : ByteArr n} (hn : 0 < n)
    (h : LocalProxy.Spells raw b.1) : raw ≠ [] := by
  rintro rfl
  have hnil : LocalProxy.hexDecode (LocalProxy.strip0x []) = .ok [] := rfl
  have hlen := b.2
  rw [← Except.ok.inj (hnil.symm.trans (LocalProxy.hexDecode_strip0x_iff.mpr h))] at hlen
  exact hn.ne hlen

/-- The pins of the proxy are those of the checker. -/
theorem proxy_of_checker {endpoint : Url} {verifier : Verifier} {measurement : Option (ByteArr 48)}
    {configHash : ByteArr 32} (hsame : SameOptions K L)
    (hendpoint : Url.parse E.urls K.endpoint = some endpoint)
    (hscheme : endpoint.scheme = "https".toList)
    (hmeasurement : parseOptionalHex 48 K.expectedMeasurement "--expected-measurement".toList =
      .ok measurement)
    (hhash : LocalProxy.Spells L.expectedConfigHash configHash.1)
    (hverifier : verifierForBackend F E K = .ok verifier) :
    LocalProxy.main F E L = .ok ⟨⟨endpoint⟩, L.gatewayAddr, L.gatewayToken,
      (Pins.mk K.backend .strict measurement (some configHash)).client verifier⟩ := by
  rw [LocalProxy.main_eq_ok_iff]
  refine ⟨verifier, (verifierForBackend_eq hsame).trans hverifier, ?_, ?_, ?_, rfl⟩
  · rw [LocalProxy.measurementPin_eq_ok_iff, hsame.backend]
    cases hbackend : K.backend with
    | gcpConfidentialSpace => exact Or.inl ⟨rfl, Or.inl rfl⟩
    | sevSnp =>
      rw [hsame.measurement hbackend, parseOptionalHex_some_eq_ok_iff] at hmeasurement
      obtain ⟨m, hspells, rfl⟩ := hmeasurement
      exact Or.inr ⟨m.1, rfl, nofun, ne_nil_of_spells (by decide) hspells, hspells⟩
  · exact LocalProxy.configPin_eq_ok_iff.mpr (Or.inr ⟨configHash, rfl, hhash⟩)
  · simp only [LocalProxy.run, Except.bind_eq_ok_iff, exists_unit_iff, okOr_eq_ok_iff,
      ensure_eq_ok_iff, Except.ok.injEq]
    exact ⟨endpoint, hsame.endpoint ▸ hendpoint, hscheme, rfl⟩

/-- The other way round: what the proxy runs with, in the words of the checker. A measurement that
the relay has attested is of the right length. -/
theorem checker_of_proxy {C : LocalProxy.RunConfig} (hsame : SameOptions K L)
    (hmain : LocalProxy.main F E L = .ok C)
    (haccept : C.tls.verifyServerCert x509 sha384 certDer = .ok ())
    (hprintable : Printable T x509 K certDer) :
    ∃ measurement configHash verifier,
      parseOptionalHex 48 K.expectedMeasurement "--expected-measurement".toList = .ok measurement ∧
      LocalProxy.Spells L.expectedConfigHash configHash.1 ∧
      verifierForBackend F E K = .ok verifier ∧
      (Pins.mk K.backend .strict measurement (some configHash)).checkStrict K.gcpCsImageDigest
        K.gcpCsSignatureKeyId = .ok () ∧
      C.tls = (Pins.mk K.backend .strict measurement (some configHash)).client verifier := by
  have hpinned := LocalProxy.fullyPinned_of_main hmain hsame.noAudit
  obtain ⟨verifier, hverifier, hmeasurement, hconfig, -, hC⟩ := LocalProxy.main_eq_ok_iff.mp hmain
  have htls : C.tls = ⟨verifier, C.tls.expectedMeasurement, C.tls.expectedConfigHash⟩ :=
    congrArg LocalProxy.RunConfig.tls hC
  obtain ⟨configHash, hhash, hspells⟩ : ∃ h, C.tls.expectedConfigHash = some h ∧
      LocalProxy.Spells L.expectedConfigHash h.1 := by
    rcases LocalProxy.configPin_eq_ok_iff.mp hconfig with ⟨-, haudit, -⟩ | h
    · rw [hsame.noAudit] at haudit
      cases haudit
    · exact h
  rw [verifierForBackend_eq hsame] at hverifier
  rw [LocalProxy.measurementPin_eq_ok_iff, hsame.backend, hsame.noAudit] at hmeasurement
  cases hbackend : K.backend with
  | sevSnp =>
    rw [hbackend] at hmeasurement
    obtain ⟨-, h | ⟨h, -⟩⟩ | ⟨m, hm, -, -, hmspells⟩ := hmeasurement
    · cases h
    · cases h
    -- the length is that of the measurement in the report
    obtain ⟨evidence, r, -, hmeets⟩ := LocalProxy.meets_of_main hmain haccept
    rw [LocalProxy.Cli.Meets, hsame.backend, hbackend] at hmeets
    have hlen : m.length = 48 := by
      rw [← hmeets.1.report.measurement m hm, Bytes.range_range (by omega)]
      exact Bytes.length_range (by omega) (by have := hmeets.1.length; omega)
    refine ⟨some ⟨m, hlen⟩, configHash, verifier, ?_, hspells, hverifier, ?_, ?_⟩
    · rw [hsame.measurement hbackend, parseOptionalHex_some_eq_ok_iff]
      exact ⟨⟨m, hlen⟩, hmspells, rfl⟩
    · rfl
    · rw [htls, hm, hhash]
      rfl
  | gcpConfidentialSpace =>
    rw [hbackend] at hmeasurement
    obtain ⟨hm, -⟩ | ⟨m, -, h, -⟩ := hmeasurement
    · obtain ⟨⟨measurement, hparse⟩, -⟩ := hprintable hbackend
      refine ⟨measurement, configHash, verifier, hparse, hspells, hverifier, ?_, ?_⟩
      · have hworkload : L.policy.imageDigest.isSome ∨ L.policy.signatureKeyIds ≠ [] := by
          have h := hpinned.2
          rw [hsame.backend, hbackend] at h
          exact h
        rw [← hsame.policy] at hworkload
        simp only [Pins.checkStrict, Except.unit_bind_eq_ok_iff, ensure_eq_ok_iff]
        exact ⟨nofun, fun _ => hworkload, rfl⟩
      · rw [htls, hm, hhash]
        rfl
    · exact absurd rfl h

/-- Evidence that is accepted can be printed. -/
theorem printEvidence_eq_ok {evidence : Evidence} {verifier : Verifier} {expected : Option Bytes}
    {r : ByteArr 64} (hverifier : verifierForBackend F E K = .ok verifier)
    (hr : verifier evidence expected = .ok r)
    (hevidence : Quote.extractEvidenceFromCert x509 certDer = .ok evidence)
    (hprintable : Printable T x509 K certDer) : printEvidence T K.backend evidence = .ok () := by
  cases hbackend : K.backend with
  | gcpConfidentialSpace =>
    obtain ⟨-, evidence', hevidence', hprint⟩ := hprintable hbackend
    obtain rfl := Except.ok.inj (hevidence.symm.trans hevidence')
    rwa [hbackend] at hprint
  | sevSnp =>
    rw [verifierForBackend, hbackend] at hverifier
    dsimp only at hverifier
    split_ifs at hverifier
    obtain rfl := Except.ok.inj hverifier
    have hlen := (SevSnp.verify_eq_ok_iff.mp hr).1.length
    simp only [printEvidence, reportDetails, slice]
    rw [Bytes.get_eq_some (by omega) (by omega), Bytes.get_eq_some (by omega) (by omega),
      Bytes.get_eq_some (by omega) (by omega), Bytes.get_eq_some (by omega) (by omega),
      Bytes.get_eq_some (by omega) (by omega)]
    rfl

/-- From the command line on, and in strict mode, the checker passes a relay exactly when the proxy
with the same options accepts its certificate and the evidence can be printed. -/
theorem checker_proxy_agree (F : Features) (E : Environment) (T : PrintLibraries)
    (x509 : X509Parser) (sha384 : Bytes → ByteArr 48) (sha256 : Bytes → ByteArr 32)
    (fetch : Url → Except Text Bytes) (K : Command) (L : LocalProxy.Cli)
    (hsame : SameOptions K L) :
    main F E T x509 sha384 sha256 fetch K = .ok .verified ↔
      ∃ C certDer, LocalProxy.main F E L = .ok C ∧ fetch C.state.relayBase = .ok certDer ∧
        C.tls.verifyServerCert x509 sha384 certDer = .ok () ∧ Printable T x509 K certDer := by
  rw [main_eq_verified_iff hsame.verifying hsame.configHash, hsame.strict]
  have hexpected : ∀ (m : Option (ByteArr 48)) (h : ByteArr 32) (spki : Bytes),
      (Pins.mk K.backend .strict m (some h)).clientExpected sha384 spki =
        (Pins.mk K.backend .strict m (some h)).expectedAttestationData
          (expectedReportdata (sha384 spki) (some h)) :=
    fun _ _ _ => clientExpected_eq fun _ => rfl
  constructor
  · rintro ⟨endpoint, hendpoint, hscheme, measurement, hmeasurement, configHash, hhash, -, certDer,
      hfetch, evidence, hevidence, htee, spki, hspki, hprint, verifier, hverifier, hdecided⟩
    refine ⟨_, certDer, proxy_of_checker hsame hendpoint hscheme hmeasurement hhash hverifier,
      hfetch, ?_, fun _ => ⟨⟨measurement, hmeasurement⟩, evidence, hevidence, hprint⟩⟩
    rw [client_eq_ok_iff hevidence hspki htee, hexpected]
    exact (decision_eq_ok_iff hevidence hspki htee).mp hdecided
  · rintro ⟨C, certDer, hmain, hfetch, haccept, hprintable⟩
    obtain ⟨measurement, configHash, verifier, hmeasurement, hhash, hverifier, hstrict, htls⟩ :=
      checker_of_proxy hsame hmain haccept hprintable
    obtain ⟨-, -, -, -, hrun, -⟩ := LocalProxy.main_eq_ok_iff.mp hmain
    simp only [LocalProxy.run, Except.bind_eq_ok_iff, exists_unit_iff, okOr_eq_ok_iff,
      ensure_eq_ok_iff, Except.ok.injEq] at hrun
    obtain ⟨endpoint, hendpoint, hscheme, hstate⟩ := hrun
    rw [← hstate] at hfetch
    rw [htls] at haccept
    obtain ⟨evidence, spki, r, hevidence, hspki, hr, -⟩ :=
      AttestedTls.verifyServerCert_eq_ok_iff.mp haccept
    have htee := teeType_of_verifier hverifier hr
    refine ⟨endpoint, hsame.endpoint ▸ hendpoint, hscheme, measurement, hmeasurement, configHash,
      hhash, hstrict, certDer, hfetch, evidence, hevidence, htee, spki, hspki,
      printEvidence_eq_ok hverifier hr hevidence hprintable, verifier, hverifier, ?_⟩
    rw [decision_eq_ok_iff hevidence hspki htee, ← hexpected]
    exact (client_eq_ok_iff hevidence hspki htee).mp haccept

end

open AttestedTls (certWith emptySha384 sevSnpEnvironment zeroHash zeroReport)

/-- The options of `LocalProxy.pinnedCli`, for the checker. -/
def pinnedCommand : Command where
  endpoint := LocalProxy.pinnedCli.relayEndpoint
  mode := .strict
  expectedMeasurement := some LocalProxy.pinnedCli.expectedMeasurement
  expectedConfigHash := some LocalProxy.pinnedCli.expectedConfigHash

/-- The checker passes what the proxy accepts, without a library for tokens. -/
theorem pinnedCommand_verified :
    main ⟨false, true, false⟩ sevSnpEnvironment ⟨fun _ => none, fun _ => false⟩
      (fun _ => some (certWith 2 zeroReport)) emptySha384 (fun _ => zeroHash) (fun _ => .ok [])
      pinnedCommand = .ok .verified :=
  (checker_proxy_agree ⟨false, true, false⟩ sevSnpEnvironment ⟨fun _ => none, fun _ => false⟩
    (fun _ => some (certWith 2 zeroReport)) emptySha384 (fun _ => zeroHash) (fun _ => .ok [])
    pinnedCommand LocalProxy.pinnedCli ⟨rfl, rfl, rfl, rfl, rfl, fun _ => rfl, rfl, rfl⟩).mpr
    ⟨_, [], rfl, rfl, by decide +kernel, nofun⟩

end OnlineCheck

end TrustedRelay
