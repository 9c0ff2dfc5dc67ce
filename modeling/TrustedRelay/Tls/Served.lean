import TrustedRelay.Tls.Backends
import TrustedRelay.Tls.Server

/-!
# A served certificate at the client

What the backends share when a client looks at a certificate that a server has made with an attester
of its own (`served_accepted_iff`): an attester that may panic as the server calls it, and what the
server's REPORTDATA is when it binds the client's configuration.
-/

namespace TrustedRelay

namespace AttestedTls

variable {I : Issuer} {x509 : X509Parser} {sha384 : Bytes → ByteArr 48}

/-- An attester as the server calls it. A panic unwinds; here it is an error, which makes no
certificate either. -/
def attesterOf (attest : ByteArr 64 → Outcome AttestError Evidence) : Attester := fun userData =>
  match attest userData with
  | .ok evidence => .ok evidence
  | .error (.err e) => .error e
  | .error .panic => .error (.other "panic".toList)

theorem attesterOf_eq_ok_iff {attest : ByteArr 64 → Outcome AttestError Evidence} {r : ByteArr 64}
    {evidence : Evidence} : attesterOf attest r = .ok evidence ↔ attest r = .ok evidence := by
  rw [attesterOf]
  rcases attest r with (_ | _) | _ <;> simp

/-- A REPORTDATA that binds the server's key and configuration is the server's, if a configuration
is expected. -/
theorem serverReportdata_eq_of_binds {keyPair : KeyPair} {c : Option (ByteArr 32)}
    {h : ByteArr 32}
    (hbinds : Binds sha384 keyPair.publicKeyDer (some h) (serverReportdata sha384 c keyPair)) :
    serverReportdata sha384 c keyPair =
      expectedReportdata sha384 keyPair.publicKeyDer (some h) := by
  refine Subtype.ext ?_
  rw [← List.take_append_drop 48 (serverReportdata sha384 c keyPair).1, hbinds.1, hbinds.2 h rfl]
  rfl

/-! ### One certificate -/

/-- An issuer of one certificate, for the empty key. -/
def evidenceIssuer (evidence : Evidence) : Issuer where
  selfSigned params keyPair :=
    if params = Quote.certParamsWithEvidence evidence ∧ keyPair = emptyKey then .ok []
    else .error "unsupported".toList
  privateKeyDer := .ok
  withSingleCert _ _ := .ok ()

def evidenceParser (evidence : Evidence) : X509Parser := fun _ =>
  some { certWith 0 [] with extensions := (Quote.certParamsWithEvidence evidence).extensions }

theorem evidenceIssuer_preserves (evidence : Evidence) :
    (evidenceIssuer evidence).Preserves (evidenceParser evidence) where
  certificate := by
    intro params keyPair certDer h _
    simp only [evidenceIssuer] at h
    split_ifs at h with hparams
    obtain ⟨rfl, rfl⟩ := hparams
    refine ⟨_, rfl, rfl, List.filter_eq_self.mpr fun ext hext => ?_⟩
    exact List.any_eq_true.mpr ⟨ext, hext, beq_self_eq_true _⟩

theorem evidenceIssuer_selfSigned (evidence : Evidence) :
    (evidenceIssuer evidence).selfSigned (Quote.certParamsWithEvidence evidence) emptyKey =
      .ok [] :=
  if_pos ⟨rfl, rfl⟩

theorem fromKeyPair_evidenceIssuer {attester : Attester} {c : Option (ByteArr 32)}
    {evidence : Evidence}
    (h : attester (serverReportdata sha384 c emptyKey) = .ok evidence) :
    fromKeyPair (evidenceIssuer evidence) sha384 attester c emptyKey = .ok ⟨[]⟩ :=
  fromKeyPair_of_signed h (evidenceIssuer_selfSigned evidence) rfl rfl

end AttestedTls

end TrustedRelay
