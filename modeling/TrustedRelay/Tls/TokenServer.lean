import TrustedRelay.Attest.ChunkedToken
import TrustedRelay.Attest.TokenAttester
import TrustedRelay.Tls.Served

/-!
# A server with a Confidential Space token

The token in the certificate comes from the launcher, which is sent nonces and signs claims with
them. Between the REPORTDATA of the server and that of the client stand the request, the response in
either framing, the token and the nonce claim. `tokenCert_accepted_iff` goes through all of them: if
the launcher issues tokens for a workload that meets the policy, a client with that policy accepts
the certificate exactly when it expects no configuration or the first half of the server's.
-/

namespace TrustedRelay

open SerdeJson

namespace Launcher

/-- The body of the response is the token, plainly or in chunks. -/
inductive Carries (response : Slice) (token : Bytes) : Prop
  | plain (head : ResponseHead) (hplain : ¬head.IsChunked)
    (hresponse : response.1 = Text.asBytes head.text ++ token)
  | chunked (head : ResponseHead) (hchunked : head.IsChunked) (chunks : List Chunk)
    (hsplit : chunks.flatMap Chunk.data = token) (trailing : Bytes)
    (hresponse : response.1 = Text.asBytes head.text ++ (encodeChunks chunks ++ trailing))

theorem Carries.parse_eq_ok {checks : Bool} {response : Slice} {token : Bytes}
    (h : Carries response token) (htoken : IsToken token) :
    parseHttpTokenResponse checks response = .ok token := by
  cases h with
  | plain head hplain hresponse => exact head.parse_plain hplain hresponse htoken
  | chunked head hchunked chunks hsplit trailing hresponse =>
    exact head.parse_chunked hchunked hsplit hresponse htoken

section

variable (J : JwtLibrary) (wellKnown : Text → Except AttestError Text)
  (V : GcpConfidentialSpaceVerifier) (now : ℕ)

/-- The launcher, and the issuer behind it: whatever JSON asks for the verifier's audience and the
nonces of `r` is answered with a token that the verifier can decode. The claims in the token hold
the nonces of the request, and meet the policy besides. -/
structure IssuesTokens (fits : Text → Bool) (r : ByteArr 64) (stream : Stream) : Prop where
  answers : ∀ body v, fromSlice fits body = some v →
    get "audience".toList v = some (.string V.policy.audience) →
    requestedNonces v = reportdataNonces r →
    ∃ response token claims, stream (postToken body) = .ok response ∧
      Carries response (Text.asBytes token) ∧ IsToken (Text.asBytes token) ∧
      V.decodeAndValidate J wellKnown token = .ok claims ∧
      claims.eatNonce = .many (requestedNonces v) ∧
      ∀ r', nonceReportdata claims.eatNonce = .ok r' → PolicyMet V.inForce now claims none r'

variable {J wellKnown V now}

/-- The token in the evidence is for the REPORTDATA that was attested. -/
theorem attest_eq_ok {fits : Text → Bool} {A : GcpConfidentialSpaceAttester} {checks : Bool}
    {S : Socket Stream} {r : ByteArr 64} (haudience : A.audience = V.policy.audience)
    (hlauncher : ∀ n stream, S.attempt n = .ok stream →
      IssuesTokens J wellKnown V now fits r stream)
    {evidence : Evidence} (h : A.attest checks S r = .ok evidence) :
    evidence.teeType = .gcpConfidentialSpace ∧ ∃ token claims,
      evidence.data = Text.asBytes token ∧ V.decodeAndValidate J wellKnown token = .ok claims ∧
      PolicyMet V.inForce now claims none r := by
  rw [GcpConfidentialSpaceAttester.attest] at h
  obtain ⟨stream, hstream, h⟩ := Except.bind_eq_ok_iff.mp h
  obtain ⟨bytes, hbytes, h⟩ := Except.bind_eq_ok_iff.mp h
  obtain rfl := Except.ok.inj h
  obtain ⟨n, -, -, hattempt, -⟩ := connectLoop_eq_ok_iff.mp (Outcome.lift_eq_ok_iff.mp hstream)
  obtain ⟨hread, hget, hnonces⟩ :=
    fromSlice_request fits ⟨A.audience, A.tokenType, reportdataNonces r⟩
  obtain ⟨response, token, claims, hresponse, hcarries, htoken, hdecode, hclaim, hmet⟩ :=
    (hlauncher n stream hattempt).answers _ _ hread (haudience ▸ hget) hnonces
  rw [requestTokenOverStream, hresponse] at hbytes
  obtain rfl := Except.ok.inj ((hcarries.parse_eq_ok htoken).symm.trans hbytes)
  refine ⟨rfl, token, claims, rfl, hdecode, hmet r ?_⟩
  rw [hclaim, hnonces]
  exact nonceReportdata_requested r

end

end Launcher

namespace GcpConfidentialSpaceVerifier

variable {P : UrlParser} {J : JwtLibrary} {wellKnown : Text → Except AttestError Text}
  {V : GcpConfidentialSpaceVerifier} {now : ℕ} {claims : ConfidentialSpaceClaims}
  {r : ByteArr 64}

/-- Evidence with a token for REPORTDATA `r` is verified to it, unless another is expected. -/
theorem verify_token_iff {evidence : Evidence} {token : Text} {expected : Option (ByteArr 64)}
    {actual : ByteArr 64} (hpolicy : V.recheckPolicy P = .ok ())
    (htee : evidence.teeType = .gcpConfidentialSpace) (hdata : evidence.data = Text.asBytes token)
    (hdecode : V.decodeAndValidate J wellKnown token = .ok claims)
    (hmet : PolicyMet V.inForce now claims none r) :
    V.verify P J wellKnown (some now) evidence (expected.map Subtype.val) = .ok actual ↔
      actual = r ∧ ∀ e, expected = some e → r = e := by
  have hok : V.verify P J wellKnown (some now) evidence none = .ok r := by
    simp only [verify, Outcome.lift_eq_ok_iff, Except.bind_eq_ok_iff, exists_unit_iff,
      ensure_eq_ok_iff, okOr_eq_ok_iff]
    refine ⟨htee, hpolicy, none, rfl, token, ?_, claims, hdecode,
      AttestedTls.verifyClaims_iff_policyMet.mpr ⟨now, rfl, hmet⟩⟩
    rw [hdata, Text.fromUtf8_asBytes]
  have hnone : V.verify P J wellKnown (some now) evidence none = .ok actual ↔ actual = r := by
    rw [hok, Except.ok.injEq, eq_comm]
  cases expected with
  | none =>
    rw [Option.map_none, hnone]
    exact ⟨fun h => ⟨h, fun _ he => (by cases he)⟩, And.left⟩
  | some e =>
    rw [Option.map_some, verify_some_iff, hnone]
    refine and_congr_right ?_
    rintro rfl
    exact ⟨fun h _ he => h.trans (Option.some.inj he), fun h => h e rfl⟩

end GcpConfidentialSpaceVerifier

namespace AttestedTls

/-- A certificate with a token for the server's REPORTDATA is accepted exactly by a client that
expects no configuration or the server's; a measurement that the client expects is not looked at. -/
theorem tokenCert_accepted_iff (x509 : X509Parser) (sha384 : Bytes → ByteArr 48) (I : Issuer)
    (hI : I.Preserves x509) (A : GcpConfidentialSpaceAttester) (checks : Bool)
    (S : Launcher.Socket Launcher.Stream) (P : UrlParser) (J : JwtLibrary)
    (wellKnown : Text → Except AttestError Text) (now : ℕ) (V : GcpConfidentialSpaceVerifier)
    (hpolicy : V.recheckPolicy P = .ok ()) (haudience : A.audience = V.policy.audience)
    (fits : Text → Bool) (keyPair : KeyPair) (c : Option (ByteArr 32))
    (hlauncher : ∀ n stream, S.attempt n = .ok stream →
      Launcher.IssuesTokens J wellKnown V now fits (serverReportdata sha384 c keyPair) stream)
    (expectedMeasurement : Option Bytes) (expectedConfigHash : Option (ByteArr 32))
    (server : AttestedTlsServer)
    (hserver : fromKeyPair I sha384 (attesterOf (A.attest checks S)) c keyPair = .ok server) :
    AttestedCertVerifier.verifyServerCert x509 sha384
        ⟨V.verify P J wellKnown (some now), expectedMeasurement, expectedConfigHash⟩
        server.certDer = .ok () ↔
      ConfigAgrees c expectedConfigHash := by
  obtain ⟨evidence, hevidence, -⟩ := fromKeyPair_eq_ok hserver
  obtain ⟨htee, token, claims, hdata, hdecode, hmet⟩ :=
    Launcher.attest_eq_ok haudience hlauncher (attesterOf_eq_ok_iff.mp hevidence)
  -- the type in the certificate makes the client ask for a whole REPORTDATA, or for none
  have hexpected : ∀ R : ByteArr 64, AttestedCertVerifier.expectedAttestedData
      ⟨V.verify P J wellKnown (some now), expectedMeasurement, expectedConfigHash⟩
      evidence.teeType R = (expectedConfigHash.map fun _ => R).map Subtype.val := by
    intro R
    rw [htee]
    cases expectedConfigHash <;> rfl
  rw [served_accepted_iff hI hserver hevidence, ← binds_serverReportdata_iff sha384 keyPair,
    hexpected]
  simp only [GcpConfidentialSpaceVerifier.verify_token_iff hpolicy htee hdata hdecode hmet]
  constructor
  · rintro ⟨r, ⟨rfl, -⟩, hbinds⟩
    exact hbinds
  · intro hbinds
    refine ⟨_, ⟨rfl, fun e he => ?_⟩, hbinds⟩
    obtain ⟨h, rfl, rfl⟩ := Option.map_eq_some_iff.mp he
    exact serverReportdata_eq_of_binds hbinds

/-! ### A token from a late launcher -/

theorem lateSocket_sleeps (n : ℕ) : 300 * n + 250 ≤ 300 * (n + 1) := by
  omega

/-- A socket that appears after the first attempt. -/
def lateSocket : Launcher.Socket Launcher.Stream where
  elapsed n := 300 * n
  attempt
    | 0 => .error "No such file or directory (os error 2)".toList
    | _ + 1 => .ok fun _ => .ok Launcher.sampleChunked
  sleeps := lateSocket_sleeps

def sampleEvidence : Evidence := ⟨.gcpConfidentialSpace, Launcher.sampleToken⟩

theorem sampleChunked_carries : Launcher.Carries Launcher.sampleChunked Launcher.sampleToken :=
  .chunked Launcher.chunkedHead Launcher.chunkedHead_isChunked Launcher.sampleChunks (by decide)
    Launcher.crlf rfl

theorem lateSocket_issuesTokens : ∀ n stream, lateSocket.attempt n = .ok stream →
    Launcher.IssuesTokens oneToken (fun _ => .ok []) tokenVerifier 1700000000 (fun _ => true)
      (serverReportdata emptySha384 (some zeroHash) emptyKey) stream := by
  intro n stream h
  cases n with
  | zero => cases h
  | succ n =>
    obtain rfl := Except.ok.inj h
    refine ⟨fun body v _ _ hv => ⟨_, "abc.def.ghi".toList, _, rfl, sampleChunked_carries,
      Launcher.sampleToken_isToken, rfl, ?_, fun r hr => ?_⟩⟩
    · rw [hv]
      rfl
    · have hclaims : tokenVerifier.verifyClaims (some 1700000000) { pinnedClaims with
          eatNonce := .many (reportdataNonces boundReportdata) } none = .ok boundReportdata := by
        decide +kernel
      obtain ⟨now, hnow, hmet⟩ := verifyClaims_iff_policyMet.mp hclaims
      obtain rfl := Option.some.inj hnow
      obtain rfl := Except.ok.inj (hmet.nonces.symm.trans hr)
      exact hmet

def sampleAttester : GcpConfidentialSpaceAttester := .new pinnedPolicy.audience

theorem lateSocket_attest (r : ByteArr 64) :
    attesterOf (sampleAttester.attest true lateSocket) r = .ok sampleEvidence := by
  have hconnect : Launcher.connectLauncherSocket lateSocket sampleAttester.socketPath =
      .ok fun _ => .ok Launcher.sampleChunked := by
    refine Launcher.connectLoop_eq_ok_iff.mpr ⟨1, Nat.zero_le 1, by decide, rfl, fun m _ hm => ?_⟩
    obtain rfl := Nat.lt_one_iff.mp hm
    exact ⟨_, rfl⟩
  rw [attesterOf_eq_ok_iff, GcpConfidentialSpaceAttester.attest, hconnect]
  change Launcher.parseHttpTokenResponse true Launcher.sampleChunked >>= _ = _
  rw [sampleChunked_carries.parse_eq_ok Launcher.sampleToken_isToken]
  rfl

/-- The token is accepted with the configuration pinned, whatever the measurement; and not with
another configuration. -/
theorem lateToken_accepted :
    ∃ server, fromKeyPair (evidenceIssuer sampleEvidence) emptySha384
        (attesterOf (sampleAttester.attest true lateSocket)) (some zeroHash) emptyKey =
          .ok server ∧
      AttestedCertVerifier.verifyServerCert (evidenceParser sampleEvidence) emptySha384
        ⟨tokenVerifier.verify plainUrlParser oneToken (fun _ => .ok []) (some 1700000000), some [0],
          some zeroHash⟩ server.certDer = .ok () ∧
      AttestedCertVerifier.verifyServerCert (evidenceParser sampleEvidence) emptySha384
        ⟨tokenVerifier.verify plainUrlParser oneToken (fun _ => .ok []) (some 1700000000), none,
          some (ByteArr.fill 32 1)⟩ server.certDer ≠ .ok () := by
  have hserver : fromKeyPair (evidenceIssuer sampleEvidence) emptySha384
      (attesterOf (sampleAttester.attest true lateSocket)) (some zeroHash) emptyKey = .ok ⟨[]⟩ :=
    fromKeyPair_evidenceIssuer (lateSocket_attest _)
  have hiff := fun measurement hash => tokenCert_accepted_iff (evidenceParser sampleEvidence)
    emptySha384 (evidenceIssuer sampleEvidence) (evidenceIssuer_preserves sampleEvidence)
    sampleAttester true lateSocket plainUrlParser oneToken (fun _ => .ok []) 1700000000
    tokenVerifier (by decide) rfl (fun _ => true) emptyKey (some zeroHash)
    lateSocket_issuesTokens measurement hash ⟨[]⟩ hserver
  refine ⟨⟨[]⟩, hserver, ?_, ?_⟩
  · exact (hiff _ _).mpr (Or.inr ⟨zeroHash, rfl, Or.inl ⟨zeroHash, rfl, rfl⟩⟩)
  · rw [Ne, hiff]
    rintro (hnone | ⟨h, hh, ⟨ch, hch, heq⟩ | ⟨hnone, -⟩⟩)
    · cases hnone
    · obtain rfl := Option.some.inj hh
      obtain rfl := Option.some.inj hch
      revert heq
      decide
    · cases hnone

end AttestedTls

end TrustedRelay
