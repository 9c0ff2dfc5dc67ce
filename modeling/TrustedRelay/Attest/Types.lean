import TrustedRelay.Rust.Outcome

/-!
# Attestation evidence

The types that the attestation backends share. A verifier turns evidence into the 64 bytes of
REPORTDATA that the evidence vouches for; what the optional expected value means (a measurement
or a nonce) is up to the backend.
-/

namespace TrustedRelay

/-- The type of TEE that produced the attestation evidence. -/
inductive TeeType
  | tdx
  | sevSnp
  | gcpConfidentialSpace
  | mock
deriving DecidableEq, Repr

/-- The `{:?}` rendering. -/
def TeeType.debug : TeeType → Text
  | .tdx => "Tdx".toList
  | .sevSnp => "SevSnp".toList
  | .gcpConfidentialSpace => "GcpConfidentialSpace".toList
  | .mock => "Mock".toList

/-- A TEE-signed blob that binds user-supplied data to the platform's measurement. -/
structure Evidence where
  teeType : TeeType
  data : Bytes
deriving DecidableEq

/-- Errors from attestation operations. -/
inductive AttestError
  | generationFailed (msg : Text)
  | verificationFailed (msg : Text)
  | measurementMismatch (expected actual : Text)
  | imageDigestMismatch (expected actual : Text)
  | reportDataMismatch
  | unsupportedTeeType (t : TeeType)
  | x509Error (msg : Text)
  | other (msg : Text)
deriving DecidableEq

/-- `to_string`. -/
def AttestError.display : AttestError → Text
  | .generationFailed msg => "attestation generation failed: ".toList ++ msg
  | .verificationFailed msg => "verification failed: ".toList ++ msg
  | .measurementMismatch expected actual =>
    "measurement mismatch: expected ".toList ++ expected ++ ", got ".toList ++ actual
  | .imageDigestMismatch expected actual =>
    "Confidential Space image digest mismatch: expected ".toList ++ expected ++ ", got ".toList ++
      actual
  | .reportDataMismatch => "REPORTDATA mismatch".toList
  | .unsupportedTeeType t => "unsupported TEE type: ".toList ++ t.debug
  | .x509Error msg => "X.509 error: ".toList ++ msg
  | .other msg => msg

/-- A measurement that must be the expected one, when there is one. -/
def checkMeasurement (expected : Option Bytes) (measurement : Bytes) : Except AttestError Unit :=
  match expected with
  | none => .ok ()
  | some e => ensure (measurement = e) (.measurementMismatch (hexEncode e) (hexEncode measurement))

theorem checkMeasurement_eq_ok_iff {expected : Option Bytes} {measurement : Bytes} :
    checkMeasurement expected measurement = .ok () ↔ ∀ m, expected = some m → measurement = m := by
  cases expected <;> simp [checkMeasurement]

/-- A backend: the REPORTDATA of valid evidence. -/
abbrev Verifier := Evidence → Option Bytes → Outcome AttestError (ByteArr 64)

/-- An attester: evidence for 64 bytes of user data. -/
abbrev Attester := ByteArr 64 → Except AttestError Evidence

end TrustedRelay
