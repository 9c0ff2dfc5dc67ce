import TrustedRelay.Attest.Types
import TrustedRelay.Rust.Base64
import TrustedRelay.Url.Parse

/-!
# Confidential Space tokens

The verifier for Google's attestation tokens: JWT validation against a key set, then the checks
of the claims against the pinned policy. The JWT library, the key sets and the clock are
parameters; the claims are the decoded record, of which only the fields that are checked are
modelled.

`verifyClaims_eq_ok_iff` states the checks as one structure, `PolicyMet`: a token is accepted
exactly when every configured pin is met by a claim that is there.
-/

namespace TrustedRelay

/-! ### The policy -/

def defaultIssuer : Text := "https://confidentialcomputing.googleapis.com".toList

def maxClockSkewSecs : ℕ := 300

/-- Verifier policy for Confidential Space. -/
structure GcpConfidentialSpacePolicy where
  audience : Text
  imageDigest : Option Text := none
  imageReference : Option Text := none
  signatureKeyIds : List Text := []
  serviceAccount : Option Text := none
  projectId : Option Text := none
  zone : Option Text := none
  instanceName : Option Text := none
  requireDebugDisabled : Bool := true
  requireConfidentialSpace : Bool := true
  requireSecureBoot : Bool := true
  issuer : Text := defaultIssuer
  jwksUri : Option Text := none
deriving DecidableEq

/-- Lower case, with the `sha256:` prefix. -/
def normalizeDigest (raw : Text) : Text :=
  let clean := Text.toAsciiLowercase (Text.trim raw)
  if Text.startsWith clean "sha256:".toList then clean else "sha256:".toList ++ clean

def validateImageDigest (raw : Text) : Except AttestError Unit := do
  let hex := Text.trimStartMatches (normalizeDigest raw) "sha256:".toList
  ensure (Text.len hex = 64 ∧ (Text.asBytes hex).all isAsciiHexdigit)
    (.verificationFailed ("Confidential Space image digest must be sha256:<64 hex>, got ".toList ++
      raw))

/-- An `https` URL without credentials. The parser's own error text is left out. -/
def validateHttpsUrl (P : UrlParser) (raw label : Text) : Except AttestError Unit := do
  let parsed ← okOr (Url.parse P raw) (.verificationFailed (label ++ " is invalid: ".toList))
  ensure (parsed.scheme = "https".toList)
    (.verificationFailed (label ++ " must use https: ".toList ++ raw))
  ensure (parsed.hostStr.isSome ∧ parsed.username = [] ∧ parsed.password = none)
    (.verificationFailed (label ++ " must be an https URL without userinfo: ".toList ++ raw))

namespace GcpConfidentialSpacePolicy

/-- The policy of `new`, with an image. -/
def strictForImage (audience imageDigest : Text) : GcpConfidentialSpacePolicy where
  audience := audience
  imageDigest := some (normalizeDigest imageDigest)

variable (P : UrlParser) (policy : GcpConfidentialSpacePolicy)

def validateMetadataSources : Except AttestError Unit := do
  ensure (Text.trim policy.audience ≠ [])
    (.verificationFailed "Confidential Space audience must not be empty".toList)
  validateHttpsUrl P policy.issuer "Confidential Space issuer".toList
  ensure (Text.trimEndMatches policy.issuer '/' = defaultIssuer ∨ policy.jwksUri.isSome)
    (.verificationFailed "custom Confidential Space issuer requires an explicit jwks_uri".toList)
  match policy.jwksUri with
  | some uri => validateHttpsUrl P uri "Confidential Space JWKS URI".toList
  | none => .ok ()

def validate : Except AttestError Unit := do
  policy.validateMetadataSources P
  ensure (policy.imageDigest.isSome ∨ policy.signatureKeyIds ≠ [])
    (.verificationFailed
      "Confidential Space policy must pin --gcp-cs-image-digest or --gcp-cs-signature-key-id".toList)
  match policy.imageDigest with
  | some digest => validateImageDigest digest
  | none => .ok ()

end GcpConfidentialSpacePolicy

/-! ### The claims -/

/-- A nonce claim is one string or a list of them. -/
inductive NonceClaim
  | one (nonce : Text)
  | many (nonces : List Text)
deriving DecidableEq

structure ContainerClaims where
  imageDigest : Option Text := none
  imageReference : Option Text := none
  imageSignatures : Option (List Text) := none
deriving DecidableEq

structure GceClaims where
  instanceName : Option Text := none
  projectId : Option Text := none
  zone : Option Text := none
deriving DecidableEq

structure SubmodsClaims where
  container : Option ContainerClaims := none
  gce : Option GceClaims := none
deriving DecidableEq

/-- The claims that are checked; of an image signature, its key id. -/
structure ConfidentialSpaceClaims where
  dbgstat : Text
  eatNonce : NonceClaim
  googleServiceAccounts : List Text := []
  iat : UInt64
  secboot : Bool := false
  submods : SubmodsClaims := {}
  swname : Text
deriving DecidableEq

/-! ### Nonces -/

def nonceSpkiPrefix : Text := "trr1s.".toList

def nonceConfigPrefix : Text := "trr1c.".toList

/-- Decode one part of the REPORTDATA; it has the length that is asked for. -/
def decodeNoncePart (encoded : Text) (len : ℕ) (label : Text) :
    Except AttestError (ByteArr len) := do
  let bytes ← okOr (base64urlDecode encoded) (AttestError.verificationFailed
    ("Confidential Space ".toList ++ label ++ " nonce is not base64url: ".toList))
  if h : bytes.length = len then .ok ⟨bytes, h⟩
  else .error (.verificationFailed ("Confidential Space ".toList ++ label ++
    " nonce decoded to ".toList ++ Text.decimal bytes.length ++ " bytes, expected ".toList ++
    Text.decimal len))

/-- The parts that were seen so far; a later nonce replaces an earlier one. -/
abbrev NonceParts := Option (ByteArr 48) × Option (ByteArr 16)

def addNonce (parts : NonceParts) (nonce : Text) : Except AttestError NonceParts :=
  match Text.stripPrefix nonce nonceSpkiPrefix with
  | some encoded => do .ok (some (← decodeNoncePart encoded 48 "SPKI".toList), parts.2)
  | none =>
    match Text.stripPrefix nonce nonceConfigPrefix with
    | some encoded => do .ok (parts.1, some (← decodeNoncePart encoded 16 "config".toList))
    | none => .ok parts

def NonceClaim.nonces : NonceClaim → List Text
  | .one nonce => nonce.splitOn ','
  | .many nonces => nonces

/-- The REPORTDATA that the nonces carry. -/
def nonceReportdata (nonceClaim : NonceClaim) : Except AttestError (ByteArr 64) := do
  let parts ← nonceClaim.nonces.foldlM addNonce (none, none)
  let spki ← okOr parts.1
    (AttestError.verificationFailed "Confidential Space token lacks trusted-relay SPKI nonce".toList)
  let config ← okOr parts.2
    (AttestError.verificationFailed
      "Confidential Space token lacks trusted-relay config nonce".toList)
  .ok ⟨spki.1 ++ config.1, by rw [List.length_append, spki.2, config.2]⟩

/-- The nonces that a relay asks for. -/
def reportdataNonces (reportdata : ByteArr 64) : List Text :=
  [nonceSpkiPrefix ++ base64urlEncode (reportdata.1.take 48),
    nonceConfigPrefix ++ base64urlEncode (reportdata.1.drop 48)]

/-- The nonces as one string. -/
def reportdataNonce (reportdata : ByteArr 64) : Text :=
  [','].intercalate (reportdataNonces reportdata)

/-! ### The checks -/

/-- A claim that must equal its pin, when there is one. -/
def checkPinned (label : Text) (expected actual : Option Text) : Except AttestError Unit :=
  match expected with
  | none => .ok ()
  | some pin => ensure (actual = some pin) (.verificationFailed ("Confidential Space ".toList ++
      label ++ " mismatch: expected ".toList ++ pin ++ ", got ".toList ++ debugOption actual))

def checkServiceAccount (expected : Option Text) (accounts : List Text) : Except AttestError Unit :=
  match expected with
  | none => .ok ()
  | some sa => ensure (sa ∈ accounts) (.verificationFailed
      ("Confidential Space service account mismatch: expected ".toList ++ sa ++ ", got ".toList ++
        debugStrs accounts))

def checkImageDigest (expected : Option Text) (container : ContainerClaims) :
    Except AttestError Unit :=
  match expected with
  | none => .ok ()
  | some digest => do
    let actual ← okOr (container.imageDigest.map normalizeDigest) (AttestError.verificationFailed
      "Confidential Space token lacks container.image_digest".toList)
    ensure (actual = normalizeDigest digest) (.imageDigestMismatch (normalizeDigest digest) actual)

def checkSignatures (expected : List Text) (container : ContainerClaims) :
    Except AttestError Unit :=
  ensure (expected = [] ∨ (container.imageSignatures.getD []).any (· ∈ expected) = true)
    (.verificationFailed
      ("Confidential Space container image signature key mismatch: expected one of ".toList ++
        debugStrs expected))

/-- The pins on the workload. -/
def checkContainer (policy : GcpConfidentialSpacePolicy) (container : ContainerClaims) :
    Except AttestError Unit := do
  checkImageDigest policy.imageDigest container
  checkPinned "image_reference".toList policy.imageReference container.imageReference
  checkSignatures policy.signatureKeyIds container

/-- One key of a key set. -/
structure Jwk where
  kty : Text
  kid : Text
  n : Text
  e : Text
  alg : Option Text := none
deriving DecidableEq

/-- Where a key set comes from: the keys behind a URI. -/
abbrev JwksProvider := Text → Except AttestError (List Jwk)

/-- A verifier: its policy, its key source, and whether the workload pins are enforced. -/
structure GcpConfidentialSpaceVerifier where
  policy : GcpConfidentialSpacePolicy
  jwks : JwksProvider
  enforceWorkloadIdentity : Bool

namespace GcpConfidentialSpaceVerifier

/-- A verifier that enforces a valid policy and fetches the keys over HTTP. -/
def new (P : UrlParser) (httpJwks : JwksProvider) (policy : GcpConfidentialSpacePolicy) :
    Except AttestError GcpConfidentialSpaceVerifier := do
  policy.validate P
  .ok ⟨policy, httpJwks, true⟩

/-- A verifier that enforces a valid policy with a fixed key set. -/
def withStaticJwks (P : UrlParser) (policy : GcpConfidentialSpacePolicy) (jwks : List Jwk) :
    Except AttestError GcpConfidentialSpaceVerifier := do
  policy.validate P
  .ok ⟨policy, fun _ => .ok jwks, true⟩

/-- A verifier for diagnostics, which does not pin the workload. -/
def newAudit (httpJwks : JwksProvider) (policy : GcpConfidentialSpacePolicy) :
    GcpConfidentialSpaceVerifier := ⟨policy, httpJwks, false⟩

/-- The verifier enforces `policy`: it was built by `new` or by `withStaticJwks`. -/
def Enforces (P : UrlParser) (policy : GcpConfidentialSpacePolicy)
    (V : GcpConfidentialSpaceVerifier) : Prop :=
  (∃ httpJwks, new P httpJwks policy = .ok V) ∨ ∃ jwks, withStaticJwks P policy jwks = .ok V

theorem enforces_iff {P : UrlParser} {policy : GcpConfidentialSpacePolicy}
    {V : GcpConfidentialSpaceVerifier} : Enforces P policy V ↔
      policy.validate P = .ok () ∧ V.policy = policy ∧ V.enforceWorkloadIdentity = true := by
  constructor
  · rintro (⟨httpJwks, h⟩ | ⟨jwks, h⟩)
    · obtain ⟨hvalid, hV⟩ := Except.unit_bind_eq_ok_iff.mp h
      rw [← Except.ok.inj hV]
      exact ⟨hvalid, rfl, rfl⟩
    · obtain ⟨hvalid, hV⟩ := Except.unit_bind_eq_ok_iff.mp h
      rw [← Except.ok.inj hV]
      exact ⟨hvalid, rfl, rfl⟩
  · rintro ⟨hvalid, rfl, henf⟩
    refine .inl ⟨V.jwks, Except.unit_bind_eq_ok_iff.mpr ⟨hvalid, ?_⟩⟩
    rw [← henf]

end GcpConfidentialSpaceVerifier

/-- The pins on the workload, if they are enforced. -/
def GcpConfidentialSpaceVerifier.checkWorkload (V : GcpConfidentialSpaceVerifier)
    (container : ContainerClaims) : Except AttestError Unit :=
  if V.enforceWorkloadIdentity then checkContainer V.policy container else .ok ()

/-- The expected REPORTDATA, when one is given. -/
def checkReportdata (expected : Option (ByteArr 64)) (reportdata : ByteArr 64) :
    Except AttestError Unit :=
  match expected with
  | none => .ok ()
  | some e => ensure (reportdata = e) .reportDataMismatch

/-- The claims against the policy. The clock gives seconds since the epoch, or is before it;
63 bits hold them, so the allowance for skew does not overflow. -/
def GcpConfidentialSpaceVerifier.verifyClaims (V : GcpConfidentialSpaceVerifier) (clock : Option ℕ)
    (claims : ConfidentialSpaceClaims) (expectedReportdata : Option (ByteArr 64)) :
    Except AttestError (ByteArr 64) := do
  let now ← okOr clock (.verificationFailed "system clock before epoch: ".toList)
  ensure (claims.iat.toNat ≤ now + maxClockSkewSecs)
    (.verificationFailed ("Confidential Space token iat is in the future: ".toList ++
      Text.decimal claims.iat.toNat ++ " > ".toList ++ Text.decimal now))
  ensure (V.policy.requireConfidentialSpace = false ∨ claims.swname = "CONFIDENTIAL_SPACE".toList)
    (.verificationFailed
      ("Confidential Space swname mismatch: expected CONFIDENTIAL_SPACE, got ".toList ++
        claims.swname))
  ensure (V.policy.requireDebugDisabled = false ∨ claims.dbgstat = "disabled-since-boot".toList)
    (.verificationFailed
      ("Confidential Space debug status is not production-safe: ".toList ++ claims.dbgstat))
  ensure (V.policy.requireSecureBoot = false ∨ claims.secboot = true)
    (.verificationFailed "Confidential Space token reports secboot=false".toList)
  checkServiceAccount V.policy.serviceAccount claims.googleServiceAccounts
  checkPinned "project_id".toList V.policy.projectId (claims.submods.gce.bind GceClaims.projectId)
  checkPinned "zone".toList V.policy.zone (claims.submods.gce.bind GceClaims.zone)
  checkPinned "instance_name".toList V.policy.instanceName
    (claims.submods.gce.bind GceClaims.instanceName)
  let container ← okOr claims.submods.container
    (.verificationFailed "Confidential Space token lacks submods.container claims".toList)
  V.checkWorkload container
  let reportdata ← nonceReportdata claims.eatNonce
  checkReportdata expectedReportdata reportdata
  .ok reportdata

/-! ### Acceptance is the pinned policy -/

/-- A container claim meets the pins on the workload. -/
structure ContainerMet (policy : GcpConfidentialSpacePolicy) (container : ContainerClaims) :
    Prop where
  imageDigest : ∀ pin, policy.imageDigest = some pin → ∃ digest,
    container.imageDigest = some digest ∧ normalizeDigest digest = normalizeDigest pin
  imageReference : ∀ pin, policy.imageReference = some pin → container.imageReference = some pin
  signature : policy.signatureKeyIds ≠ [] → ∃ keyIds, container.imageSignatures = some keyIds ∧
    ∃ keyId ∈ keyIds, keyId ∈ policy.signatureKeyIds

/-- Every pin of the policy is met, and the nonces carry `r`. -/
structure PolicyMet (policy : GcpConfidentialSpacePolicy) (now : ℕ)
    (claims : ConfidentialSpaceClaims) (expected : Option (ByteArr 64)) (r : ByteArr 64) :
    Prop where
  iat : claims.iat.toNat ≤ now + 300
  swname : policy.requireConfidentialSpace = true → claims.swname = "CONFIDENTIAL_SPACE".toList
  dbgstat : policy.requireDebugDisabled = true → claims.dbgstat = "disabled-since-boot".toList
  secboot : policy.requireSecureBoot = true → claims.secboot = true
  serviceAccount : ∀ pin, policy.serviceAccount = some pin → pin ∈ claims.googleServiceAccounts
  projectId : ∀ pin, policy.projectId = some pin →
    ∃ gce, claims.submods.gce = some gce ∧ gce.projectId = some pin
  zone : ∀ pin, policy.zone = some pin →
    ∃ gce, claims.submods.gce = some gce ∧ gce.zone = some pin
  instanceName : ∀ pin, policy.instanceName = some pin →
    ∃ gce, claims.submods.gce = some gce ∧ gce.instanceName = some pin
  container : ∃ container, claims.submods.container = some container ∧ ContainerMet policy container
  nonces : nonceReportdata claims.eatNonce = .ok r
  reportdata : ∀ e, expected = some e → r = e

theorem checkPinned_eq_ok_iff {label : Text} {expected actual : Option Text} :
    checkPinned label expected actual = .ok () ↔
      ∀ pin, expected = some pin → actual = some pin := by
  cases expected <;> simp [checkPinned]

theorem checkServiceAccount_eq_ok_iff {expected : Option Text} {accounts : List Text} :
    checkServiceAccount expected accounts = .ok () ↔
      ∀ pin, expected = some pin → pin ∈ accounts := by
  cases expected <;> simp [checkServiceAccount]

theorem checkReportdata_eq_ok_iff {expected : Option (ByteArr 64)} {r : ByteArr 64} :
    checkReportdata expected r = .ok () ↔ ∀ e, expected = some e → r = e := by
  cases expected <;> simp [checkReportdata]

theorem checkContainer_eq_ok_iff {policy : GcpConfidentialSpacePolicy}
    {container : ContainerClaims} :
    checkContainer policy container = .ok () ↔ ContainerMet policy container := by
  have hdigest : checkImageDigest policy.imageDigest container = .ok () ↔
      ∀ pin, policy.imageDigest = some pin → ∃ digest, container.imageDigest = some digest ∧
        normalizeDigest digest = normalizeDigest pin := by
    cases hp : policy.imageDigest <;>
      simp [checkImageDigest, Except.bind_eq_ok_iff]
  have hsig : checkSignatures policy.signatureKeyIds container = .ok () ↔
      (policy.signatureKeyIds ≠ [] → ∃ keyIds, container.imageSignatures = some keyIds ∧
        ∃ keyId ∈ keyIds, keyId ∈ policy.signatureKeyIds) := by
    rw [checkSignatures, ensure_eq_ok_iff, or_iff_not_imp_left]
    cases hs : container.imageSignatures <;> simp
  rw [checkContainer, Except.unit_bind_eq_ok_iff, Except.unit_bind_eq_ok_iff, hdigest,
    checkPinned_eq_ok_iff, hsig]
  constructor
  · rintro ⟨h1, h2, h3⟩
    exact ⟨h1, h2, h3⟩
  · intro h
    exact ⟨h.1, h.2, h.3⟩

/-- A verifier that was built from a valid policy accepts a claims record, with REPORTDATA `r`,
exactly when the record meets the policy. In particular a pin is met only by a claim that is
there. -/
theorem verifyClaims_eq_ok_iff (P : UrlParser) (policy : GcpConfidentialSpacePolicy)
    (V : GcpConfidentialSpaceVerifier)
    (hV : GcpConfidentialSpaceVerifier.Enforces P policy V)
    (clock : Option ℕ) (claims : ConfidentialSpaceClaims) (expected : Option (ByteArr 64))
    (r : ByteArr 64) :
    V.verifyClaims clock claims expected = .ok r ↔
      ∃ now, clock = some now ∧ PolicyMet policy now claims expected r := by
  obtain ⟨-, rfl, henf⟩ := GcpConfidentialSpaceVerifier.enforces_iff.mp hV
  have hflag : ∀ {b : Bool} {p : Prop}, (b = false ∨ p) ↔ (b = true → p) := by
    intro b p
    cases b <;> simp
  have hgce : ∀ {f : GceClaims → Option Text} {pin : Option Text},
      (∀ x, pin = some x → claims.submods.gce.bind f = some x) ↔
        ∀ x, pin = some x → ∃ g, claims.submods.gce = some g ∧ f g = some x := by
    intro f pin
    simp only [Option.bind_eq_some_iff]
  rw [GcpConfidentialSpaceVerifier.verifyClaims, Except.bind_eq_ok_iff]
  simp only [Except.bind_eq_ok_iff, exists_unit_iff, okOr_eq_ok_iff, ensure_eq_ok_iff,
    checkServiceAccount_eq_ok_iff, checkPinned_eq_ok_iff, checkReportdata_eq_ok_iff, hflag, hgce,
    GcpConfidentialSpaceVerifier.checkWorkload, henf, if_true, checkContainer_eq_ok_iff,
    Except.ok.injEq]
  constructor
  · rintro ⟨now, hnow, hiat, hsw, hdbg, hboot, hsa, hproj, hzone, hinst, container, hcont, hmet, r',
      hr', hexp, rfl⟩
    exact ⟨now, hnow, hiat, hsw, hdbg, hboot, hsa, hproj, hzone, hinst, ⟨container, hcont, hmet⟩,
      hr', hexp⟩
  · rintro ⟨now, hnow, h⟩
    obtain ⟨container, hcont, hmet⟩ := h.container
    exact ⟨now, hnow, h.iat, h.swname, h.dbgstat, h.secboot, h.serviceAccount, h.projectId, h.zone,
      h.instanceName, container, hcont, hmet, r, h.nonces, h.reportdata, rfl⟩

/-- A policy that pins the image, a signing key, the account and the project. -/
def pinnedPolicy : GcpConfidentialSpacePolicy where
  audience := "trusted-relay-attested-tls".toList
  imageDigest := some (List.replicate 64 'a')
  signatureKeyIds := ["key-1".toList, "key-2".toList]
  serviceAccount := some "relay@project.iam.gserviceaccount.com".toList
  projectId := some "project".toList

def zeroReportdata : ByteArr 64 := ⟨List.replicate 64 0, by decide⟩

/-- Claims that meet `pinnedPolicy`. -/
def pinnedClaims : ConfidentialSpaceClaims where
  dbgstat := "disabled-since-boot".toList
  eatNonce := .many (reportdataNonces zeroReportdata)
  googleServiceAccounts := ["relay@project.iam.gserviceaccount.com".toList]
  iat := 1700000300
  secboot := true
  swname := "CONFIDENTIAL_SPACE".toList
  submods :=
    { container := some
        { imageDigest := some ("SHA256:".toList ++ List.replicate 64 'A')
          imageSignatures := some ["key-2".toList] }
      gce := some { projectId := some "project".toList } }

def pinnedVerifier : GcpConfidentialSpaceVerifier := ⟨pinnedPolicy, fun _ => .ok [], true⟩

theorem pinnedVerifier_enforces :
    GcpConfidentialSpaceVerifier.Enforces plainUrlParser pinnedPolicy pinnedVerifier :=
  GcpConfidentialSpaceVerifier.enforces_iff.mpr ⟨by decide, rfl, rfl⟩

theorem pinnedVerifier_accepts :
    GcpConfidentialSpaceVerifier.Enforces plainUrlParser pinnedPolicy pinnedVerifier ∧
      (∃ now, some 1700000000 = some now ∧
        PolicyMet pinnedPolicy now pinnedClaims (some zeroReportdata) zeroReportdata) ∧
      ¬ ∃ now, some 1700000000 = some now ∧
        PolicyMet pinnedPolicy now { pinnedClaims with submods := { pinnedClaims.submods with
          gce := none } } (some zeroReportdata) zeroReportdata :=
  ⟨pinnedVerifier_enforces,
    (verifyClaims_eq_ok_iff plainUrlParser pinnedPolicy pinnedVerifier pinnedVerifier_enforces
      (some 1700000000) pinnedClaims (some zeroReportdata) zeroReportdata).mp (by decide),
    (verifyClaims_eq_ok_iff plainUrlParser pinnedPolicy pinnedVerifier pinnedVerifier_enforces
      (some 1700000000) _ (some zeroReportdata) zeroReportdata).not.mp (by decide)⟩

/-! ### Tokens -/

/-- The signature algorithms that the JWT library knows. -/
inductive JwtAlgorithm
  | hs256
  | hs384
  | hs512
  | es256
  | es384
  | rs256
  | rs384
  | rs512
  | ps256
  | ps384
  | ps512
  | edDSA
deriving DecidableEq

def JwtAlgorithm.debug : JwtAlgorithm → Text
  | .hs256 => "HS256".toList
  | .hs384 => "HS384".toList
  | .hs512 => "HS512".toList
  | .es256 => "ES256".toList
  | .es384 => "ES384".toList
  | .rs256 => "RS256".toList
  | .rs384 => "RS384".toList
  | .rs512 => "RS512".toList
  | .ps256 => "PS256".toList
  | .ps384 => "PS384".toList
  | .ps512 => "PS512".toList
  | .edDSA => "EdDSA".toList

structure JwtHeader where
  alg : JwtAlgorithm
  kid : Option Text
deriving DecidableEq

/-- What a token is validated against. -/
structure JwtValidation where
  algorithm : JwtAlgorithm
  issuer : Text
  audience : Text
  leeway : ℕ
  validateExp : Bool
  validateNbf : Bool
  requiredSpecClaims : List Text
deriving DecidableEq

/-- The JWT library. `decode` checks the signature and the registered claims. -/
structure JwtLibrary where
  DecodingKey : Type
  decodeHeader : Text → Option JwtHeader
  fromRsaComponents : Text → Text → Option DecodingKey
  decode : Text → DecodingKey → JwtValidation → Option ConfidentialSpaceClaims

namespace GcpConfidentialSpaceVerifier

def defaultWellKnownPath : Text := "/.well-known/openid-configuration".toList

/-- The key set URI that the issuer publishes; `wellKnown` reads the metadata behind a URL. -/
def fetchWellKnown (wellKnown : Text → Except AttestError Text) (issuer : Text) :
    Except AttestError Text :=
  wellKnown (Text.trimEndMatches issuer '/' ++ defaultWellKnownPath)

/-- What is asked of a token beyond its signature. -/
def jwtValidation (policy : GcpConfidentialSpacePolicy) : JwtValidation where
  algorithm := .rs256
  issuer := policy.issuer
  audience := policy.audience
  leeway := maxClockSkewSecs
  validateExp := true
  validateNbf := true
  requiredSpecClaims := ["exp".toList, "nbf".toList, "aud".toList, "iss".toList]

def jwksUri (wellKnown : Text → Except AttestError Text) (policy : GcpConfidentialSpacePolicy) :
    Except AttestError Text :=
  match policy.jwksUri with
  | some uri => .ok uri
  | none => fetchWellKnown wellKnown policy.issuer

/-- The claims of a token that an RSA key of the key set signed. The library's own error texts are
left out. -/
def decodeAndValidate (J : JwtLibrary) (wellKnown : Text → Except AttestError Text)
    (V : GcpConfidentialSpaceVerifier) (token : Text) :
    Except AttestError ConfidentialSpaceClaims := do
  let header ← okOr (J.decodeHeader token)
    (.verificationFailed "invalid Confidential Space JWT header: ".toList)
  ensure (header.alg = .rs256) (.verificationFailed
    ("Confidential Space token alg must be RS256, got ".toList ++ header.alg.debug))
  let kid ← okOr header.kid (.verificationFailed "Confidential Space token lacks kid".toList)
  let uri ← jwksUri wellKnown V.policy
  let keys ← V.jwks uri
  let jwk ← okOr (keys.find? (·.kid == kid))
    (.verificationFailed ("Confidential Space JWKS does not contain kid ".toList ++ kid))
  ensure (∀ alg, jwk.alg = some alg → alg = "RS256".toList) (.verificationFailed
    ("Confidential Space JWK alg must be RS256, got ".toList ++ jwk.alg.getD []))
  ensure (jwk.kty = "RSA".toList)
    (.verificationFailed ("Confidential Space JWK kty must be RSA, got ".toList ++ jwk.kty))
  let key ← okOr (J.fromRsaComponents jwk.n jwk.e)
    (.verificationFailed "invalid Confidential Space RSA JWK: ".toList)
  okOr (J.decode token key (jwtValidation V.policy))
    (.verificationFailed "Confidential Space JWT validation failed: ".toList)

/-- The expected value is a whole REPORTDATA. -/
def expectedReportdata : Option Bytes → Except AttestError (Option (ByteArr 64))
  | none => .ok none
  | some bytes => do
    .ok (some (← Bytes.tryInto 64 bytes (.verificationFailed
      ("Confidential Space verifier expected a 64-byte nonce/reportdata, got ".toList ++
        Text.decimal bytes.length ++ " bytes".toList))))

/-- The policy is checked again, if it is enforced. -/
def recheckPolicy (P : UrlParser) (V : GcpConfidentialSpaceVerifier) : Except AttestError Unit :=
  if V.enforceWorkloadIdentity then V.policy.validate P else .ok ()

def verify (P : UrlParser) (J : JwtLibrary) (wellKnown : Text → Except AttestError Text)
    (clock : Option ℕ) (V : GcpConfidentialSpaceVerifier) : Verifier :=
  fun evidence expectedMeasurement => Outcome.lift do
    ensure (evidence.teeType = .gcpConfidentialSpace) (.unsupportedTeeType evidence.teeType)
    V.recheckPolicy P
    let expected ← expectedReportdata expectedMeasurement
    let token ← okOr (Text.fromUtf8 evidence.data)
      (.verificationFailed "Confidential Space token is not UTF-8: ".toList)
    let claims ← V.decodeAndValidate J wellKnown token
    V.verifyClaims clock claims expected

/-- Accepted evidence is a token of this backend whose signature was checked and whose claims
were, against the expected REPORTDATA. -/
theorem verify_eq_ok {P : UrlParser} {J : JwtLibrary} {wellKnown : Text → Except AttestError Text}
    {clock : Option ℕ} {V : GcpConfidentialSpaceVerifier} {evidence : Evidence}
    {expectedMeasurement : Option Bytes} {r : ByteArr 64}
    (h : V.verify P J wellKnown clock evidence expectedMeasurement = .ok r) :
    evidence.teeType = .gcpConfidentialSpace ∧ ∃ token claims expected,
      Text.fromUtf8 evidence.data = some token ∧
      V.decodeAndValidate J wellKnown token = .ok claims ∧
      expectedReportdata expectedMeasurement = .ok expected ∧
      V.verifyClaims clock claims expected = .ok r := by
  rw [verify, Outcome.lift_eq_ok_iff] at h
  obtain ⟨htee, h⟩ := Except.unit_bind_eq_ok_iff.mp h
  obtain ⟨-, h⟩ := Except.unit_bind_eq_ok_iff.mp h
  obtain ⟨expected, hexp, h⟩ := Except.bind_eq_ok_iff.mp h
  obtain ⟨token, htoken, h⟩ := Except.bind_eq_ok_iff.mp h
  obtain ⟨claims, hclaims, h⟩ := Except.bind_eq_ok_iff.mp h
  exact ⟨ensure_eq_ok_iff.mp htee, token, claims, expected, okOr_eq_ok_iff.mp htoken, hclaims,
    hexp, h⟩

/-- Accepted claims carry their REPORTDATA as nonces, and it is the expected one. -/
theorem nonces_of_verifyClaims {clock : Option ℕ} {V : GcpConfidentialSpaceVerifier}
    {claims : ConfidentialSpaceClaims} {expected : Option (ByteArr 64)} {r : ByteArr 64}
    (h : V.verifyClaims clock claims expected = .ok r) :
    nonceReportdata claims.eatNonce = .ok r ∧ ∀ e, expected = some e → r = e := by
  rw [verifyClaims] at h
  simp only [Except.bind_eq_ok_iff, exists_unit_iff, checkReportdata_eq_ok_iff] at h
  obtain ⟨_, _, _, _, _, _, _, _, _, _, _, _, _, r', hr', hexp, hr⟩ := h
  rw [← Except.ok.inj hr]
  exact ⟨hr', hexp⟩

/-- An expected REPORTDATA is one more check on what would be accepted without it. -/
theorem verifyClaims_some_iff {clock : Option ℕ} {V : GcpConfidentialSpaceVerifier}
    {claims : ConfidentialSpaceClaims} {e r : ByteArr 64} :
    V.verifyClaims clock claims (some e) = .ok r ↔
      V.verifyClaims clock claims none = .ok r ∧ r = e := by
  have hlast : ∀ r', (r' = e ∧ r' = r) ↔ (r' = r ∧ r = e) := by
    intro r'
    constructor
    · rintro ⟨rfl, rfl⟩
      exact ⟨rfl, rfl⟩
    · rintro ⟨rfl, rfl⟩
      exact ⟨rfl, rfl⟩
  simp only [verifyClaims, Except.bind_eq_ok_iff, exists_unit_iff, checkReportdata_eq_ok_iff,
    Except.ok.injEq, Option.some.injEq, forall_eq', reduceCtorEq, false_implies, implies_true,
    true_and, ← exists_and_right, and_assoc, hlast]

theorem verify_some_iff {P : UrlParser} {J : JwtLibrary}
    {wellKnown : Text → Except AttestError Text} {clock : Option ℕ}
    {V : GcpConfidentialSpaceVerifier} {evidence : Evidence} {e r : ByteArr 64} :
    V.verify P J wellKnown clock evidence (some e.1) = .ok r ↔
      V.verify P J wellKnown clock evidence none = .ok r ∧ r = e := by
  have hexpected : expectedReportdata (some e.1) = .ok (some e) :=
    Except.bind_eq_ok_iff.mpr ⟨e, Bytes.tryInto_eq_ok_iff.mpr rfl, rfl⟩
  simp only [verify, Outcome.lift_eq_ok_iff, Except.bind_eq_ok_iff, exists_unit_iff, hexpected,
    show expectedReportdata none = .ok none from rfl, Except.ok.injEq, exists_eq_left',
    verifyClaims_some_iff]
  constructor
  · rintro ⟨h1, h2, token, htoken, claims, hclaims, hr, he⟩
    exact ⟨⟨h1, h2, token, htoken, claims, hclaims, hr⟩, he⟩
  · rintro ⟨⟨h1, h2, token, htoken, claims, hclaims, hr⟩, he⟩
    exact ⟨h1, h2, token, htoken, claims, hclaims, hr, he⟩

end GcpConfidentialSpaceVerifier

end TrustedRelay
