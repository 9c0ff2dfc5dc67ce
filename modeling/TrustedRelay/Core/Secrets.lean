import TrustedRelay.Rust.Outcome
import TrustedRelay.Rust.Ascii
import TrustedRelay.Http.Message

/-!
# The provider credential

The credential that the relay puts on upstream requests, its check, and the store that holds at
most one. Each store operation takes the lock for its whole duration, so it is a function of the
stored value; `setOnce` is the only one the admin plane uses.

The check looks at a trimmed copy of the scheme, the header value is made from the scheme itself:
`isSchemeAndToken_iff` says for which valid credentials the value has the two parts it should have.
-/

namespace TrustedRelay

/-- `u8::is_ascii_control`. -/
def isAsciiControl (b : UInt8) : Bool := b < 32 || b == 127

def defaultAuthScheme : Text := "Bearer".toList

/-- Provider credential material used when calling upstream APIs. -/
structure ProviderCredential where
  authScheme : Text := defaultAuthScheme
  token : Text
deriving DecidableEq

namespace ProviderCredential

/-- Build the `Authorization` header value for upstream requests. -/
def authorizationValue (c : ProviderCredential) : Option HeaderValue :=
  HeaderValue.fromStr (c.authScheme ++ ' ' :: c.token)

/-- Validate enough that the credential becomes a header without header splitting. -/
def validate (c : ProviderCredential) : Except Text Unit := do
  let scheme := Text.trim c.authScheme
  ensure (scheme ≠ []) "auth_scheme must not be empty".toList
  ensure ((Text.asBytes scheme).any (fun b => isAsciiControl b || isAsciiWhitespace b) = false)
    "auth_scheme must be a single HTTP token".toList
  ensure (c.token ≠ []) "token must not be empty".toList
  ensure ((Text.asBytes c.token).any (fun b => isAsciiControl b || isAsciiWhitespace b) = false)
    "token must not contain whitespace or control bytes".toList
  let _ ← okOr c.authorizationValue "credential is not a valid Authorization header".toList
  .ok ()

theorem validate_eq_ok_iff {c : ProviderCredential} :
    c.validate = .ok () ↔
      Text.trim c.authScheme ≠ [] ∧
      (Text.asBytes (Text.trim c.authScheme)).any
        (fun b => isAsciiControl b || isAsciiWhitespace b) = false ∧
      c.token ≠ [] ∧
      (Text.asBytes c.token).any (fun b => isAsciiControl b || isAsciiWhitespace b) = false ∧
      ∃ v, c.authorizationValue = some v := by
  simp only [validate, Except.bind_eq_ok_iff, exists_unit_iff, ensure_eq_ok_iff,
    okOr_eq_ok_iff, and_true]

/-- A valid credential has a header value. -/
theorem authorizationValue_of_validate {c : ProviderCredential} (h : c.validate = .ok ()) :
    ∃ v, c.authorizationValue = some v := by
  obtain ⟨-, -, -, -, hv⟩ := validate_eq_ok_iff.mp h
  exact hv

/-- The header value is the scheme and the token, as bytes. -/
theorem bytes_of_authorizationValue {c : ProviderCredential} {v : HeaderValue}
    (h : c.authorizationValue = some v) :
    v.bytes = Text.asBytes (c.authScheme ++ ' ' :: c.token) := by
  rw [authorizationValue, HeaderValue.fromStr, HeaderValue.fromBytes] at h
  split_ifs at h
  rw [← Option.some.inj h]

/-! ### The header value in two parts -/

/-- The value is one word, a space and the token, and its first space separates the two. -/
structure IsSchemeAndToken (c : ProviderCredential) (v : HeaderValue) : Prop where
  bytes : v.bytes = Text.asBytes (c.authScheme ++ ' ' :: c.token)
  scheme_ne_nil : c.authScheme ≠ []
  scheme_word : ∀ x ∈ c.authScheme, Text.isWhitespace x = false
  token_ne_nil : c.token ≠ []
  token_word : ∀ b ∈ Text.asBytes c.token, isAsciiControl b = false ∧ isAsciiWhitespace b = false
  split : ∀ s, v.bytes = Text.asBytes s → Text.splitOnce s ' ' = some (c.authScheme, c.token)

/-- ASCII whitespace is refused as a byte. -/
theorem isAsciiControl_or_isAsciiWhitespace {x : Char} (hx : Text.isWhitespace x = true)
    (hlt : x.toNat < 0x80) :
    (isAsciiControl (UInt8.ofNat x.toNat) || isAsciiWhitespace (UInt8.ofNat x.toNat)) = true :=
  Text.forall_ascii (P := fun x => Text.isWhitespace x = true →
    (isAsciiControl (UInt8.ofNat x.toNat) || isAsciiWhitespace (UInt8.ofNat x.toNat)) = true)
    (by decide) hlt hx

/-- A valid scheme is one word exactly if the check, which is made on the bytes of the trimmed
scheme, has seen all of its whitespace: nothing was trimmed, and what is left has no whitespace
outside ASCII. -/
theorem isSchemeAndToken_iff (c : ProviderCredential) (h : c.validate = .ok ()) :
    (∃ v, c.authorizationValue = some v ∧ c.IsSchemeAndToken v) ↔
      Text.trim c.authScheme = c.authScheme ∧
        ∀ x ∈ c.authScheme, Text.isWhitespace x = true → x.toNat < 0x80 := by
  obtain ⟨hne, hbytes, htoken, htokenBytes, v, hv⟩ := validate_eq_ok_iff.mp h
  constructor
  · rintro ⟨v, -, hparts⟩
    refine ⟨Text.trim_eq_self hparts.scheme_word, fun x hx hws => ?_⟩
    rw [hparts.scheme_word x hx] at hws
    cases hws
  · rintro ⟨htrim, hascii⟩
    rw [htrim] at hne hbytes
    have hword : ∀ x ∈ c.authScheme, Text.isWhitespace x = false := by
      intro x hx
      by_contra hws
      rw [Bool.not_eq_false] at hws
      have hlt := hascii x hx hws
      have hbyte := List.any_eq_false.mp hbytes _ (Text.mem_asBytes_of_mem hlt hx)
      exact hbyte (isAsciiControl_or_isAsciiWhitespace hws hlt)
    have hspace : ' ' ∉ c.authScheme := fun hmem => by
      have hws := hword ' ' hmem
      exact absurd hws (by decide)
    refine ⟨v, hv, bytes_of_authorizationValue hv, hne, hword, htoken, fun b hb => ?_,
      fun s hs => ?_⟩
    · simpa using List.any_eq_false.mp htokenBytes b hb
    · rw [bytes_of_authorizationValue hv] at hs
      rw [← Text.asBytes_injective hs, Text.splitOnce_append hspace]

/-- `Bearer sk-key` is read back. -/
theorem bearer_isSchemeAndToken : ∃ v,
    (ProviderCredential.mk defaultAuthScheme "sk-key".toList).authorizationValue = some v ∧
      (ProviderCredential.mk defaultAuthScheme "sk-key".toList).IsSchemeAndToken v :=
  (isSchemeAndToken_iff ⟨defaultAuthScheme, "sk-key".toList⟩ (by decide)).mpr
    ⟨by decide, List.all_iff_forall_prop.mp (by decide)⟩

/-- A scheme with a space in front of it is accepted, and is not what its header value starts
with. -/
theorem paddedScheme_misread :
    (ProviderCredential.mk " Bearer".toList "sk-key".toList).validate = .ok () ∧
      (∃ v, (ProviderCredential.mk " Bearer".toList "sk-key".toList).authorizationValue = some v ∧
        v.bytes = Text.asBytes " Bearer sk-key".toList) ∧
      Text.splitOnce " Bearer sk-key".toList ' ' = some ([], "Bearer sk-key".toList) ∧
      ¬ ∃ v, (ProviderCredential.mk " Bearer".toList "sk-key".toList).authorizationValue = some v ∧
        (ProviderCredential.mk " Bearer".toList "sk-key".toList).IsSchemeAndToken v := by
  refine ⟨by decide, ⟨⟨Text.asBytes " Bearer sk-key".toList, by decide⟩, by decide, rfl⟩,
    by decide, ?_⟩
  rintro ⟨v, -, hparts⟩
  exact absurd (hparts.scheme_word ' ' List.mem_cons_self) (by decide)

end ProviderCredential

/-- Shared runtime provider credential state. -/
abbrev ProviderCredentialStore := Option ProviderCredential

namespace ProviderCredentialStore

def new : ProviderCredentialStore := none

def get (s : ProviderCredentialStore) : Option ProviderCredential := s

def isLoaded (s : ProviderCredentialStore) : Bool := s.isSome

def set (_ : ProviderCredentialStore) (c : ProviderCredential) : ProviderCredentialStore := some c

/-- Store a credential if there is none; a refused credential is handed back. -/
def setOnce (s : ProviderCredentialStore) (c : ProviderCredential) :
    ProviderCredentialStore × Except ProviderCredential Unit :=
  match s with
  | some _ => (s, .error c)
  | none => (some c, .ok ())

end ProviderCredentialStore

end TrustedRelay
