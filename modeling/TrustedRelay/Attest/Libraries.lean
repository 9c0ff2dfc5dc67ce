import TrustedRelay.Rust.Outcome

/-!
# Certificate libraries

The parts of the certificate and signature libraries that the attestation code calls, as a record
of functions: parsers return what they accept, and signature checks are predicates. Nothing is
assumed about them, except where a statement says so.
-/

namespace TrustedRelay

/-- A signature algorithm: its object identifier, in dotted form, and its encoded parameters. -/
structure AlgorithmIdentifier where
  algorithm : Text
  parameters : Option Bytes
deriving DecidableEq

structure X509Extension where
  oid : Text
  value : Bytes
deriving DecidableEq

/-- The parts of a parsed certificate that are read. `publicKeyRaw` is the encoded
SubjectPublicKeyInfo and `subjectPublicKey` the key bits in it; `isValid` says whether the current
time lies in the validity period. -/
structure X509Certificate where
  extensions : List X509Extension
  publicKeyRaw : Bytes
  subjectPublicKey : Bytes
  signatureAlgorithm : AlgorithmIdentifier
  signatureValue : Bytes
  isValid : Bool
deriving DecidableEq

/-- `X509Certificate::from_der`. -/
abbrev X509Parser := Bytes → Option X509Certificate

/-- `asn1_rs::Header::from_der`: the unread input and the length, if it is definite. -/
structure Asn1Header where
  rest : Bytes
  length : Option UInt64
deriving DecidableEq

/-- The RSA-PSS verification algorithms, by their digest. -/
inductive RsaPss
  | sha256
  | sha384
  | sha512
deriving DecidableEq

/-- The libraries behind the chain and the report signature. -/
structure CertLibraries where
  x509 : X509Parser
  header : Bytes → Option Asn1Header
  /-- The digest that encoded RSA-PSS parameters name. -/
  hashAlgorithmOid : Bytes → Option Text
  /-- Key, message, signature. -/
  rsaPssVerify : RsaPss → Bytes → Bytes → Bytes → Bool
  pemParse : Text → Option Bytes
  pemParseMany : Text → Option (List Bytes)
  TrustAnchor : Type
  EndEntityCert : Type
  anchorFromTrustedCert : Bytes → Option TrustAnchor
  endEntityCert : Bytes → Option EndEntityCert
  /-- Signature and path validation at the current time, without intermediates. -/
  verifyForUsage : EndEntityCert → TrustAnchor → Bool
  sha256 : Bytes → ByteArr 32
  Signature : Type
  VerifyingKey : Type
  signatureFromSlice : Bytes → Option Signature
  verifyingKeyFromSec1 : Bytes → Option VerifyingKey
  /-- ECDSA P-384 over the SHA-384 digest of the message. -/
  p384Verify : VerifyingKey → Bytes → Signature → Bool

/-- Libraries that accept nothing. -/
def CertLibraries.refusing : CertLibraries where
  x509 _ := none
  header _ := none
  hashAlgorithmOid _ := none
  rsaPssVerify _ _ _ _ := false
  pemParse _ := none
  pemParseMany _ := none
  TrustAnchor := Bytes
  EndEntityCert := Bytes
  anchorFromTrustedCert _ := none
  endEntityCert _ := none
  verifyForUsage _ _ := false
  sha256 _ := .fill 32 0
  Signature := ℕ × ℕ
  VerifyingKey := Bytes
  signatureFromSlice _ := none
  verifyingKeyFromSec1 _ := none
  p384Verify _ _ _ := false

end TrustedRelay
