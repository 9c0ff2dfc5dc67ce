import TrustedRelay.Tls.Backends
import TrustedRelay.Tunnel.LocalProxy

/-!
# The command line of the local proxy

`main` turns the command line into a verifier and its pins. The pins are hex texts; audit mode lets
them be absent, and takes the workload pins of Confidential Space out of force.

`connection_sound` goes from the command line to a connection: whatever is on the command line, a
certificate that the proxy accepts was checked by the backend that is named there, with the pins
that are written there, and without audit mode no pin is missing.
-/

namespace TrustedRelay

namespace LocalProxy

open AttestedTls

inductive AttestationBackend
  | sevSnp
  | gcpConfidentialSpace
  | mock
deriving DecidableEq, Repr

def AttestationBackend.debug : AttestationBackend → Text
  | .sevSnp => "SevSnp".toList
  | .gcpConfidentialSpace => "GcpConfidentialSpace".toList
  | .mock => "Mock".toList

/-- The command line, less the listen address. -/
structure Cli where
  relayEndpoint : Text
  gatewayAddr : Option Text := none
  gatewayToken : Option Text := none
  backend : AttestationBackend := .sevSnp
  expectedMeasurement : Text := []
  expectedConfigHash : Text := []
  gcpCsAudience : Text := "trusted-relay-attested-tls".toList
  gcpCsImageDigest : Option Text := none
  gcpCsImageReference : Option Text := none
  gcpCsSignatureKeyId : List Text := []
  gcpCsServiceAccount : Option Text := none
  gcpCsProjectId : Option Text := none
  gcpCsZone : Option Text := none
  allowAudit : Bool := false

/-! ### Hex texts -/

def strip0x (raw : Text) : Text :=
  ((Text.stripPrefix raw "0x".toList).or (Text.stripPrefix raw "0X".toList)).getD raw

/-- `hex::decode`; the library's own error texts are left out. -/
def hexDecode (s : Text) : Except Text Bytes := okOr (hexBytes s) "invalid hex".toList

def parseHexVec (raw : Text) : Except Text Bytes := hexDecode (strip0x raw)

def parseHash32 (raw : Text) : Except Text (ByteArr 32) := do
  let bytes ← hexDecode (strip0x raw)
  Bytes.tryInto 32 bytes
    ("expected 32-byte hash, got ".toList ++ Text.decimal bytes.length ++ " bytes".toList)

/-! ### Verifier and pins -/

/-- The Confidential Space policy of the command line. -/
def Cli.policy (cli : Cli) : GcpConfidentialSpacePolicy where
  audience := cli.gcpCsAudience
  imageDigest := cli.gcpCsImageDigest
  imageReference := cli.gcpCsImageReference
  signatureKeyIds := cli.gcpCsSignatureKeyId
  serviceAccount := cli.gcpCsServiceAccount
  projectId := cli.gcpCsProjectId
  zone := cli.gcpCsZone

def requiresFeature (backend feature : String) : Text :=
  "backend=".toList ++ backend.toList ++ " requires the ".toList ++ feature.toList ++
    " feature".toList

def verifierForBackend (F : Features) (E : Environment) (cli : Cli) : Except Text Verifier :=
  match cli.backend with
  | .sevSnp =>
    if F.sevSnp then .ok (SevSnp.verify E.certs E.kds)
    else .error (requiresFeature "sev-snp" "sev-snp")
  | .gcpConfidentialSpace =>
    if F.gcpConfidentialSpace then
      if cli.allowAudit then
        .ok ((GcpConfidentialSpaceVerifier.newAudit E.jwks cli.policy).verify E.urls E.jwt
          E.wellKnown E.clock)
      else do
        let v ← (GcpConfidentialSpaceVerifier.new E.urls E.jwks cli.policy).mapError
          AttestError.display
        .ok (v.verify E.urls E.jwt E.wellKnown E.clock)
    else .error (requiresFeature "gcp-confidential-space" "gcp-confidential-space")
  | .mock =>
    if F.mock then .ok (Mock.verify E.mock) else .error (requiresFeature "mock" "mock")

/-- The measurement to expect. Audit mode leaves out an absent one only. -/
def Cli.measurementPin (cli : Cli) : Except Text (Option Bytes) :=
  if cli.backend = .gcpConfidentialSpace then .ok none
  else if cli.allowAudit = true ∧ cli.expectedMeasurement = [] then .ok none
  else if cli.expectedMeasurement = [] then
    .error ("--expected-measurement is required for ".toList ++ cli.backend.debug ++
      " unless --allow-audit is used".toList)
  else do
    let bytes ← (parseHexVec cli.expectedMeasurement).mapError
      fun _ => "invalid --expected-measurement".toList
    .ok (some bytes)

def Cli.configPin (cli : Cli) : Except Text (Option (ByteArr 32)) :=
  if cli.allowAudit = true ∧ cli.expectedConfigHash = [] then .ok none
  else do
    let hash ← (parseHash32 cli.expectedConfigHash).mapError
      fun _ => "invalid --expected-config-hash".toList
    .ok (some hash)

/-- What the proxy runs with. -/
structure RunConfig where
  state : AppState
  gatewayAddr : Option Text
  gatewayToken : Option Text
  tls : AttestedCertVerifier

/-- `main`, and `run` up to its listener. -/
def main (F : Features) (E : Environment) (cli : Cli) : Except Text RunConfig := do
  let verifier ← verifierForBackend F E cli
  let expectedMeasurement ← cli.measurementPin
  let expectedConfigHash ← cli.configPin
  let state ← run E.urls cli.relayEndpoint
  .ok ⟨state, cli.gatewayAddr, cli.gatewayToken,
    ⟨verifier, expectedMeasurement, expectedConfigHash⟩⟩

/-! ### What the pins say -/

/-- The text spells the bytes: hex digits of either case, with or without a prefix. -/
def Spells (raw : Text) (b : Bytes) : Prop := Text.toAsciiLowercase (strip0x raw) = hexEncode b

theorem hexDecode_strip0x_iff {raw : Text} {b : Bytes} :
    hexDecode (strip0x raw) = .ok b ↔ Spells raw b := by
  rw [hexDecode, okOr_eq_ok_iff, Spells]
  constructor
  · exact toAsciiLowercase_of_hexBytes
  · intro h
    rw [← hexBytes_toAsciiLowercase, h, hexBytes_hexEncode]

theorem parseHash32_eq_ok_iff {raw : Text} {h : ByteArr 32} :
    parseHash32 raw = .ok h ↔ Spells raw h.1 := by
  simp only [parseHash32, Except.bind_eq_ok_iff, hexDecode_strip0x_iff, Bytes.tryInto_eq_ok_iff]
  constructor
  · rintro ⟨b, hb, rfl⟩
    exact hb
  · exact fun hb => ⟨h.1, hb, rfl⟩

variable {cli : Cli}

/-- A configuration is pinned exactly as it is spelt; without audit mode it has to be. -/
theorem configPin_eq_ok_iff {pin : Option (ByteArr 32)} : cli.configPin = .ok pin ↔
    (pin = none ∧ cli.allowAudit = true ∧ cli.expectedConfigHash = []) ∨
      ∃ h, pin = some h ∧ Spells cli.expectedConfigHash h.1 := by
  have hempty : ∀ h : ByteArr 32, ¬Spells [] h.1 := by
    intro h hspells
    have hnil : hexDecode (strip0x []) = .ok [] := rfl
    have hlen := h.2
    rw [← Except.ok.inj (hnil.symm.trans (hexDecode_strip0x_iff.mpr hspells))] at hlen
    cases hlen
  rw [Cli.configPin]
  split_ifs with haudit
  · rw [Except.ok.injEq, eq_comm]
    refine ⟨fun h => Or.inl ⟨h, haudit⟩, ?_⟩
    rintro (h | ⟨h, -, hspells⟩)
    · exact h.1
    · rw [haudit.2] at hspells
      exact absurd hspells (hempty h)
  · rw [or_iff_right fun h => haudit h.2]
    simp only [Except.bind_eq_ok_iff, Except.mapError_eq_ok_iff, parseHash32_eq_ok_iff,
      Except.ok.injEq, eq_comm (b := pin), and_comm]

/-- The measurement is the one that is spelt, if the backend looks at a measurement. -/
theorem measurementPin_eq_ok_iff {pin : Option Bytes} : cli.measurementPin = .ok pin ↔
    (pin = none ∧ (cli.backend = .gcpConfidentialSpace ∨
      cli.allowAudit = true ∧ cli.expectedMeasurement = [])) ∨
      ∃ m, pin = some m ∧ cli.backend ≠ .gcpConfidentialSpace ∧ cli.expectedMeasurement ≠ [] ∧
        Spells cli.expectedMeasurement m := by
  rw [Cli.measurementPin]
  split_ifs with hbackend haudit hempty
  · simp only [Except.ok.injEq, hbackend, eq_comm (a := none), true_or, and_true, ne_eq,
      not_true_eq_false, false_and, and_false, exists_false, or_false]
  · simp only [Except.ok.injEq, haudit, eq_comm (a := none), and_self, or_true, and_true, ne_eq,
      not_true_eq_false, false_and, and_false, exists_false, or_false]
  · refine iff_of_false nofun ?_
    rintro (⟨-, h | h⟩ | ⟨m, -, -, hne, -⟩)
    · exact hbackend h
    · exact haudit h
    · exact hne hempty
  · rw [or_iff_right fun h => h.2.elim hbackend haudit]
    simp only [Except.bind_eq_ok_iff, Except.mapError_eq_ok_iff, parseHexVec,
      hexDecode_strip0x_iff, Except.ok.injEq, eq_comm (b := pin), ne_eq, hbackend, hempty,
      not_false_eq_true, true_and, and_comm]

/-! ### An accepted connection -/

/-- The Confidential Space verifier of the command line; in audit mode it does not enforce the
workload. -/
def Cli.tokenVerifier (cli : Cli) (E : Environment) : GcpConfidentialSpaceVerifier :=
  ⟨cli.policy, E.jwks, !cli.allowAudit⟩

/-- The evidence was checked by the backend of the command line. -/
def Cli.Meets (cli : Cli) (E : Environment) (measurement : Option Bytes) (evidence : Evidence)
    (r : ByteArr 64) : Prop :=
  match cli.backend with
  | .sevSnp => SevSnp.EvidenceAccepted E.certs E.kds evidence measurement ∧
      r.1 = Bytes.range evidence.data 0x50 0x90
  | .gcpConfidentialSpace => TokenMet E.jwt E.wellKnown E.clock (cli.tokenVerifier E) evidence r
  | .mock => evidence.teeType = .mock ∧ ∃ payload quote signature,
      Mock.parseEvidence E.mock evidence = .ok (payload, quote, signature) ∧
      E.mock.verifySignature payload signature = true ∧
      (∀ m, measurement = some m → quote.measurement = m) ∧ quote.userData = r.1

/-- No pin is missing: the configuration, and what identifies the workload. -/
def Cli.FullyPinned (cli : Cli) (C : RunConfig) : Prop :=
  C.tls.expectedConfigHash.isSome ∧
    match cli.backend with
    | .gcpConfidentialSpace => cli.gcpCsImageDigest.isSome ∨ cli.gcpCsSignatureKeyId ≠ []
    | _ => C.tls.expectedMeasurement.isSome

variable {F : Features} {E : Environment} {C : RunConfig}

theorem main_eq_ok_iff : main F E cli = .ok C ↔ ∃ verifier,
    verifierForBackend F E cli = .ok verifier ∧
      cli.measurementPin = .ok C.tls.expectedMeasurement ∧
      cli.configPin = .ok C.tls.expectedConfigHash ∧
      run E.urls cli.relayEndpoint = .ok C.state ∧
      C = ⟨C.state, cli.gatewayAddr, cli.gatewayToken,
        ⟨verifier, C.tls.expectedMeasurement, C.tls.expectedConfigHash⟩⟩ := by
  simp only [main, Except.bind_eq_ok_iff, Except.ok.injEq]
  constructor
  · rintro ⟨verifier, hverifier, m, hm, h, hh, state, hstate, rfl⟩
    exact ⟨verifier, hverifier, hm, hh, hstate, rfl⟩
  · rintro ⟨verifier, hverifier, hm, hh, hstate, hC⟩
    exact ⟨verifier, hverifier, _, hm, _, hh, _, hstate, hC.symm⟩

/-- Without audit mode no pin is missing. -/
theorem fullyPinned_of_main (hmain : main F E cli = .ok C) (haudit : cli.allowAudit = false) :
    cli.FullyPinned C := by
  obtain ⟨verifier, hverifier, hmeasurement, hconfig, -, -⟩ := main_eq_ok_iff.mp hmain
  have hnot : ∀ p : Prop, ¬(cli.allowAudit = true ∧ p) :=
    fun p h => Bool.false_ne_true (haudit.symm.trans h.1)
  constructor
  · rcases configPin_eq_ok_iff.mp hconfig with ⟨-, h⟩ | ⟨h, hh, -⟩
    · exact absurd h (hnot _)
    · rw [hh]
      rfl
  · have hpin : cli.backend ≠ .gcpConfidentialSpace → C.tls.expectedMeasurement.isSome := by
      intro hbackend
      rcases measurementPin_eq_ok_iff.mp hmeasurement with ⟨-, h | h⟩ | ⟨m, hm, -⟩
      · exact absurd h hbackend
      · exact absurd h (hnot _)
      · rw [hm]
        rfl
    cases hbackend : cli.backend with
    | sevSnp => exact hpin (hbackend ▸ nofun)
    | mock => exact hpin (hbackend ▸ nofun)
    | gcpConfidentialSpace =>
      rw [verifierForBackend, hbackend] at hverifier
      dsimp only at hverifier
      split_ifs at hverifier with hfeature haudit'
      · exact absurd haudit' (Bool.eq_false_iff.mp haudit)
      · obtain ⟨V, hV, -⟩ := Except.bind_eq_ok_iff.mp hverifier
        rw [Except.mapError_eq_ok_iff] at hV
        obtain ⟨hvalid, -⟩ := Except.unit_bind_eq_ok_iff.mp hV
        rw [GcpConfidentialSpacePolicy.validate] at hvalid
        obtain ⟨-, hvalid⟩ := Except.unit_bind_eq_ok_iff.mp hvalid
        exact ensure_eq_ok_iff.mp (Except.unit_bind_eq_ok_iff.mp hvalid).1

/-- The backend of the command line has looked at the evidence. -/
theorem meets_of_main {x509 : X509Parser} {sha384 : Bytes → ByteArr 48} {certDer : Bytes}
    (hmain : main F E cli = .ok C)
    (haccept : C.tls.verifyServerCert x509 sha384 certDer = .ok ()) :
    ∃ evidence r, Attests x509 sha384 C.tls.expectedConfigHash certDer evidence r ∧
      cli.Meets E C.tls.expectedMeasurement evidence r := by
  obtain ⟨verifier, hverifier, -, -, -, hC⟩ := main_eq_ok_iff.mp hmain
  have htls : C.tls = ⟨verifier, C.tls.expectedMeasurement, C.tls.expectedConfigHash⟩ :=
    congrArg RunConfig.tls hC
  rw [htls] at haccept
  rw [verifierForBackend] at hverifier
  unfold Cli.Meets
  cases hbackend : cli.backend with
  | sevSnp =>
    rw [hbackend] at hverifier
    dsimp only at hverifier
    split_ifs at hverifier
    obtain rfl := Except.ok.inj hverifier
    obtain ⟨evidence, r, hattests, haccepted, hr⟩ := sevSnp_accepted haccept
    exact ⟨evidence, r, hattests, haccepted, hr⟩
  | mock =>
    rw [hbackend] at hverifier
    dsimp only at hverifier
    split_ifs at hverifier
    obtain rfl := Except.ok.inj hverifier
    obtain ⟨evidence, r, payload, quote, signature, hattests, htee, hmet⟩ := mock_accepted haccept
    exact ⟨evidence, r, hattests, htee, payload, quote, signature, hmet⟩
  | gcpConfidentialSpace =>
    rw [hbackend] at hverifier
    dsimp only at hverifier
    have hV : verifier =
        (cli.tokenVerifier E).verify E.urls E.jwt E.wellKnown E.clock := by
      unfold Cli.tokenVerifier
      split_ifs at hverifier with hfeature haudit
      · rw [haudit]
        exact (Except.ok.inj hverifier).symm
      · obtain ⟨V, hV, hok⟩ := Except.bind_eq_ok_iff.mp hverifier
        rw [Except.mapError_eq_ok_iff] at hV
        obtain rfl := Except.ok.inj (Except.unit_bind_eq_ok_iff.mp hV).2
        rw [Bool.eq_false_iff.mpr haudit]
        exact (Except.ok.inj hok).symm
    rw [hV] at haccept
    exact confidentialSpace_accepted haccept

/-- Whatever is on the command line: an accepted certificate is for its key and the configuration
that is spelt there, its evidence was checked by the backend and with the measurement or the policy
that are named there, and without audit mode all of these are pinned. -/
theorem connection_sound (F : Features) (E : Environment) (cli : Cli) (C : RunConfig)
    (x509 : X509Parser) (sha384 : Bytes → ByteArr 48) (certDer : Bytes)
    (hmain : main F E cli = .ok C)
    (haccept : C.tls.verifyServerCert x509 sha384 certDer = .ok ()) :
    C.state.relayBase.scheme = "https".toList ∧
      (cli.allowAudit = false → cli.FullyPinned C) ∧
      (∀ h, C.tls.expectedConfigHash = some h → Spells cli.expectedConfigHash h.1) ∧
      (∀ m, C.tls.expectedMeasurement = some m → Spells cli.expectedMeasurement m) ∧
      ∃ evidence r, Attests x509 sha384 C.tls.expectedConfigHash certDer evidence r ∧
        cli.Meets E C.tls.expectedMeasurement evidence r := by
  obtain ⟨verifier, -, hmeasurement, hconfig, hrun, -⟩ := main_eq_ok_iff.mp hmain
  refine ⟨?_, fullyPinned_of_main hmain, ?_, ?_, meets_of_main hmain haccept⟩
  · rw [run] at hrun
    obtain ⟨relayBase, -, hrun⟩ := Except.bind_eq_ok_iff.mp hrun
    obtain ⟨hscheme, hstate⟩ := Except.unit_bind_eq_ok_iff.mp hrun
    rw [← Except.ok.inj hstate]
    exact ensure_eq_ok_iff.mp hscheme
  · intro h hh
    rcases configPin_eq_ok_iff.mp hconfig with ⟨hnone, -⟩ | ⟨h', hh', hspells⟩
    · rw [hnone] at hh
      cases hh
    · obtain rfl := Option.some.inj (hh.symm.trans hh')
      exact hspells
  · intro m hm
    rcases measurementPin_eq_ok_iff.mp hmeasurement with ⟨hnone, -⟩ | ⟨m', hm', -, -, hspells⟩
    · rw [hnone] at hm
      cases hm
    · obtain rfl := Option.some.inj (hm.symm.trans hm')
      exact hspells

/-- A command line for SEV-SNP, with its pins in two spellings. -/
def pinnedCli : Cli where
  relayEndpoint := "https://relay.internal:8443".toList
  expectedMeasurement := List.replicate 96 '0'
  expectedConfigHash := "0X".toList ++ List.replicate 64 '0'

/-- The zero report is accepted, for all-zero pins. -/
theorem pinnedCli_accepts :
    ∃ evidence r, Attests (fun _ => some (certWith 2 zeroReport)) emptySha384 (some zeroHash) []
        evidence r ∧
      SevSnp.EvidenceAccepted oneEndorsement (fun _ => .ok []) evidence
        (some (List.replicate 48 0)) := by
  obtain ⟨C, hmain, hhash, hmeasurement, haccept⟩ : ∃ C,
      main ⟨false, true, false⟩ sevSnpEnvironment pinnedCli = .ok C ∧
        C.tls.expectedConfigHash = some zeroHash ∧
        C.tls.expectedMeasurement = some (List.replicate 48 0) ∧
        C.tls.verifyServerCert (fun _ => some (certWith 2 zeroReport)) emptySha384 [] = .ok () :=
    ⟨_, rfl, by decide, by decide, by decide +kernel⟩
  obtain ⟨-, -, -, -, evidence, r, hattests, hmeets⟩ := connection_sound ⟨false, true, false⟩
    sevSnpEnvironment pinnedCli C (fun _ => some (certWith 2 zeroReport)) emptySha384 [] hmain
    haccept
  rw [hhash] at hattests
  rw [hmeasurement] at hmeets
  exact ⟨evidence, r, hattests, hmeets.1⟩

end LocalProxy

end TrustedRelay
