import TrustedRelay.Attest.SevSnp

/-!
# Signature fields by value

A report carries the two numbers of its ECDSA signature as little-endian fields of 72 bytes;
`amdSignatureToP384` hands the P-384 library 48 big-endian bytes for each. The upper 24 bytes of
the fields are not looked at, so a field denotes the scalar that is verified only when they are
zero: `decodesByValue_iff`.

Of the library's reader it is assumed that it reads two big-endian scalars and accepts exactly
those between `1` and `n - 1` (`ReadsScalars`).
-/

namespace TrustedRelay

/-! ### Numbers in bytes -/

namespace Bytes

/-- `from_be_bytes`. -/
def be (b : Bytes) : ℕ := le b.reverse

/-- The low bytes of a little-endian number, and the high ones. -/
theorem le_append (a b : Bytes) : le (a ++ b) = le a + 256 ^ a.length * le b := by
  induction a with
  | nil => simp [le]
  | cons x a ih =>
    have hcons : ∀ c : Bytes, le (x :: c) = x.toNat + 256 * le c := fun _ => rfl
    rw [List.cons_append, hcons, hcons, ih, List.length_cons, pow_succ]
    ring

theorem le_eq_zero_iff {b : Bytes} : le b = 0 ↔ ∀ x ∈ b, x = 0 := by
  induction b with
  | nil => simp [le]
  | cons x b ih =>
    have hcons : le (x :: b) = x.toNat + 256 * le b := rfl
    rw [hcons, List.forall_mem_cons, ← ih, ← UInt8.toNat_inj]
    have hzero : (0 : UInt8).toNat = 0 := rfl
    omega

end Bytes

namespace SevSnp

/-! ### Scalars -/

/-- The order of the P-384 group. -/
def p384Order : ℕ :=
  0xffffffffffffffffffffffffffffffffffffffffffffffffc7634d81f4372ddf581a0db248b0a77aecec196accc52973

def IsScalar (k : ℕ) : Prop := 1 ≤ k ∧ k < p384Order

instance (k : ℕ) : Decidable (IsScalar k) := inferInstanceAs (Decidable (_ ∧ _))

/-- The reader takes two big-endian scalars of 48 bytes, and refuses zero and what is not below
the order of the group. -/
structure ReadsScalars (L : CertLibraries) (scalars : L.Signature → ℕ × ℕ) : Prop where
  reads : ∀ r s : Bytes, r.length = ecdsaP384ScalarLen → s.length = ecdsaP384ScalarLen →
    ∀ sig, L.signatureFromSlice (r ++ s) = some sig →
      IsScalar (Bytes.be r) ∧ IsScalar (Bytes.be s) ∧ scalars sig = (Bytes.be r, Bytes.be s)
  accepts : ∀ r s : Bytes, r.length = ecdsaP384ScalarLen → s.length = ecdsaP384ScalarLen →
    IsScalar (Bytes.be r) → IsScalar (Bytes.be s) →
      ∃ sig, L.signatureFromSlice (r ++ s) = some sig

/-! ### The fields -/

/-- The number that the low 48 bytes of a field denote. -/
def lowValue (field : Bytes) : ℕ := Bytes.le (field.take ecdsaP384ScalarLen)

/-- The bytes of a field that are not looked at. -/
def highBytes (field : Bytes) : Bytes := field.drop ecdsaP384ScalarLen

theorem le_field {field : Bytes} (h : field.length = ecdsaP384AmdScalarLen) :
    Bytes.le field = lowValue field + 256 ^ 48 * Bytes.le (highBytes field) := by
  have hlow : (field.take ecdsaP384ScalarLen).length = 48 := by
    rw [List.length_take, h]
    decide
  have happend := Bytes.le_append (field.take ecdsaP384ScalarLen) (highBytes field)
  rwa [highBytes, List.take_append_drop, hlow] at happend

/-- A field denotes the number in its low bytes exactly when its high bytes are zero. -/
theorem lowValue_eq_le_iff {field : Bytes} (h : field.length = ecdsaP384AmdScalarLen) :
    lowValue field = Bytes.le field ↔ ∀ b ∈ highBytes field, b = 0 := by
  have hpos : 0 < 256 ^ 48 := by decide
  rw [← Bytes.le_eq_zero_iff, le_field h, left_eq_add, Nat.mul_eq_zero, or_iff_right hpos.ne']

/-- A number below the base has no high part. -/
theorem low_eq_of_lt {base k low high : ℕ} (hk : k < base) (h : k = low + base * high) :
    low = k := by
  cases high with
  | zero => exact h.symm
  | succ n =>
    have hle : base ≤ base * (n + 1) := Nat.le_mul_of_pos_right base n.succ_pos
    omega

theorem p384Order_lt : p384Order < 256 ^ 48 := by decide

/-- A scalar fits the low bytes of its field. -/
theorem lowValue_toLe {k : ℕ} (h : IsScalar k) :
    lowValue (Bytes.toLe ecdsaP384AmdScalarLen k) = k := by
  have hlow : k < 256 ^ 48 := lt_trans h.2 p384Order_lt
  have hle : 256 ^ 48 ≤ 256 ^ ecdsaP384AmdScalarLen := Nat.pow_le_pow_right (by decide) (by decide)
  have hvalue : Bytes.le (Bytes.toLe ecdsaP384AmdScalarLen k) = k :=
    Bytes.le_toLe (lt_of_lt_of_le hlow hle)
  have hsplit := le_field (Bytes.length_toLe ecdsaP384AmdScalarLen k)
  exact low_eq_of_lt hlow (hvalue.symm.trans hsplit)

section Decoding

variable {L : CertLibraries} {scalars : L.Signature → ℕ × ℕ}

/-- A decoded signature has the scalars that the fields denote. -/
def DecodesByValue (L : CertLibraries) (scalars : L.Signature → ℕ × ℕ) (sigR sigS : Bytes) : Prop :=
  ∀ sig, amdSignatureToP384 L sigR sigS = .ok sig → scalars sig = (Bytes.le sigR, Bytes.le sigS)

/-- The two arguments that the reader is given. -/
theorem amdSignatureToP384_eq_ok_iff {sigR sigS : Bytes}
    (hr : sigR.length = ecdsaP384AmdScalarLen) (hs : sigS.length = ecdsaP384AmdScalarLen)
    {sig : L.Signature} : amdSignatureToP384 L sigR sigS = .ok sig ↔
      L.signatureFromSlice ((sigR.take ecdsaP384ScalarLen).reverse ++
        (sigS.take ecdsaP384ScalarLen).reverse) = some sig := by
  rw [amdSignatureToP384_eq hr hs, Outcome.lift_eq_ok_iff, okOr_eq_ok_iff]
  rfl

theorem length_scalar {field : Bytes} (h : field.length = ecdsaP384AmdScalarLen) :
    (field.take ecdsaP384ScalarLen).reverse.length = ecdsaP384ScalarLen := by
  rw [List.length_reverse, List.length_take, h]
  decide

theorem be_scalar (field : Bytes) :
    Bytes.be (field.take ecdsaP384ScalarLen).reverse = lowValue field := by
  rw [Bytes.be, List.reverse_reverse, lowValue]

/-- The scalars are the low values of the fields. -/
theorem scalars_of_amdSignature (hL : ReadsScalars L scalars) {sigR sigS : Bytes}
    (hr : sigR.length = ecdsaP384AmdScalarLen) (hs : sigS.length = ecdsaP384AmdScalarLen)
    {sig : L.Signature} (h : amdSignatureToP384 L sigR sigS = .ok sig) :
    IsScalar (lowValue sigR) ∧ IsScalar (lowValue sigS) ∧
      scalars sig = (lowValue sigR, lowValue sigS) := by
  have hread := hL.reads _ _ (length_scalar hr) (length_scalar hs) sig
    ((amdSignatureToP384_eq_ok_iff hr hs).mp h)
  rwa [be_scalar, be_scalar] at hread

/-- Fields whose low values are scalars are accepted. -/
theorem amdSignature_isOk (hL : ReadsScalars L scalars) {sigR sigS : Bytes}
    (hr : sigR.length = ecdsaP384AmdScalarLen) (hs : sigS.length = ecdsaP384AmdScalarLen)
    (hlowR : IsScalar (lowValue sigR)) (hlowS : IsScalar (lowValue sigS)) :
    ∃ sig, amdSignatureToP384 L sigR sigS = .ok sig := by
  rw [← be_scalar] at hlowR hlowS
  obtain ⟨sig, hsig⟩ := hL.accepts _ _ (length_scalar hr) (length_scalar hs) hlowR hlowS
  exact ⟨sig, (amdSignatureToP384_eq_ok_iff hr hs).mpr hsig⟩

/-- The fields are decoded by value exactly when their high bytes are zero or their low values are
refused; a pair of scalars is decoded to itself. -/
theorem decodesByValue_iff (hL : ReadsScalars L scalars) (sigR sigS : Bytes)
    (hr : sigR.length = ecdsaP384AmdScalarLen) (hs : sigS.length = ecdsaP384AmdScalarLen) :
    (DecodesByValue L scalars sigR sigS ↔
      (∀ b ∈ highBytes sigR ++ highBytes sigS, b = 0) ∨
        ¬ (IsScalar (lowValue sigR) ∧ IsScalar (lowValue sigS))) ∧
    ∀ a b, IsScalar a → IsScalar b → ∃ sig,
      amdSignatureToP384 L (Bytes.toLe ecdsaP384AmdScalarLen a)
          (Bytes.toLe ecdsaP384AmdScalarLen b) =
        .ok sig ∧ scalars sig = (a, b) := by
  refine ⟨?_, fun a b ha hb => ?_⟩
  · rw [List.forall_mem_append, ← lowValue_eq_le_iff hr, ← lowValue_eq_le_iff hs]
    constructor
    · intro hdecodes
      rw [or_iff_not_imp_right, not_not]
      rintro ⟨hlowR, hlowS⟩
      obtain ⟨sig, hsig⟩ := amdSignature_isOk hL hr hs hlowR hlowS
      have hvalue := hdecodes sig hsig
      rw [(scalars_of_amdSignature hL hr hs hsig).2.2] at hvalue
      exact Prod.mk.inj hvalue
    · intro hcond sig hsig
      obtain ⟨hlowR, hlowS, hscalars⟩ := scalars_of_amdSignature hL hr hs hsig
      rcases hcond with ⟨heqR, heqS⟩ | hrefused
      · rw [hscalars, heqR, heqS]
      · exact absurd ⟨hlowR, hlowS⟩ hrefused
  · have hlowA := lowValue_toLe ha
    have hlowB := lowValue_toLe hb
    obtain ⟨sig, hsig⟩ := amdSignature_isOk hL (Bytes.length_toLe _ a) (Bytes.length_toLe _ b)
      (by rwa [hlowA]) (by rwa [hlowB])
    refine ⟨sig, hsig, ?_⟩
    rw [(scalars_of_amdSignature hL (Bytes.length_toLe _ a) (Bytes.length_toLe _ b) hsig).2.2,
      hlowA, hlowB]

end Decoding

/-- Two big-endian scalars, as the P-384 library reads them. -/
def plainSignature (b : Bytes) : Option (ℕ × ℕ) :=
  if b.length = 2 * ecdsaP384ScalarLen ∧ IsScalar (Bytes.be (b.take ecdsaP384ScalarLen)) ∧
      IsScalar (Bytes.be (b.drop ecdsaP384ScalarLen)) then
    some (Bytes.be (b.take ecdsaP384ScalarLen), Bytes.be (b.drop ecdsaP384ScalarLen))
  else none

def plainEcdsa : CertLibraries :=
  { CertLibraries.refusing with signatureFromSlice := plainSignature }

theorem plainSignature_eq_some_iff {r s : Bytes} (hr : r.length = ecdsaP384ScalarLen)
    (hs : s.length = ecdsaP384ScalarLen) {sig : ℕ × ℕ} : plainSignature (r ++ s) = some sig ↔
      IsScalar (Bytes.be r) ∧ IsScalar (Bytes.be s) ∧ sig = (Bytes.be r, Bytes.be s) := by
  have hlen : (r ++ s).length = 2 * ecdsaP384ScalarLen := by
    rw [List.length_append, hr, hs, Nat.two_mul]
  simp only [plainSignature, hlen, true_and, List.take_left' hr, List.drop_left' hr,
    Option.ite_none_right_eq_some, Option.some.injEq, and_assoc, eq_comm (a := sig)]

theorem plainEcdsa_readsScalars : ReadsScalars plainEcdsa id where
  reads _ _ hr hs _ hsig := (plainSignature_eq_some_iff hr hs).mp hsig
  accepts _ _ hr hs hscalarR hscalarS :=
    ⟨_, (plainSignature_eq_some_iff hr hs).mpr ⟨hscalarR, hscalarS, rfl⟩⟩

/-- One more than `2 ^ 384` is read as one. -/
theorem oversizedField_decoded :
    ¬ DecodesByValue plainEcdsa id (Bytes.toLe ecdsaP384AmdScalarLen (256 ^ 48 + 1))
      (Bytes.toLe ecdsaP384AmdScalarLen 1) := by
  intro h
  have hone : amdSignatureToP384 plainEcdsa (Bytes.toLe ecdsaP384AmdScalarLen (256 ^ 48 + 1))
      (Bytes.toLe ecdsaP384AmdScalarLen 1) = .ok (1, 1) := by rfl
  have hvalue : 1 = Bytes.le (Bytes.toLe ecdsaP384AmdScalarLen (256 ^ 48 + 1)) :=
    congrArg Prod.fst (h _ hone)
  rw [Bytes.le_toLe (by decide)] at hvalue
  exact absurd hvalue (by decide)

theorem smallFields_decode :
    DecodesByValue plainEcdsa id (Bytes.toLe ecdsaP384AmdScalarLen 5)
        (Bytes.toLe ecdsaP384AmdScalarLen 7) ∧
      ∃ sig, amdSignatureToP384 plainEcdsa (Bytes.toLe ecdsaP384AmdScalarLen 5)
        (Bytes.toLe ecdsaP384AmdScalarLen 7) = .ok sig ∧ id sig = (5, 7) := by
  obtain ⟨hiff, hround⟩ := decodesByValue_iff plainEcdsa_readsScalars
    (Bytes.toLe ecdsaP384AmdScalarLen 5) (Bytes.toLe ecdsaP384AmdScalarLen 7)
    (Bytes.length_toLe _ _) (Bytes.length_toLe _ _)
  exact ⟨hiff.mpr (.inl (by decide +kernel)), hround 5 7 (by decide) (by decide)⟩

end SevSnp

end TrustedRelay
