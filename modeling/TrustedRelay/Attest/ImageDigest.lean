import TrustedRelay.Attest.ConfidentialSpace
import TrustedRelay.Rust.Ascii

/-!
# Image digests

A pinned image digest is checked when the policy is made, and compared in its normal form when a
token is verified. The check takes every copy of the prefix off, the normal form adds one only if
there is none. So a pin with the prefix twice is accepted, and no digest meets it:
`normalizeDigest_isCanonical_iff`.
-/

namespace TrustedRelay

def sha256Tag : Text := "sha256:".toList

/-- `sha256:` and 64 hex digits in lower case. -/
def IsCanonicalDigest (digest : Text) : Prop :=
  ∃ hex, digest = sha256Tag ++ hex ∧ hex.length = 64 ∧ ∀ c ∈ hex, c ∈ "0123456789abcdef".toList

/-- The trimmed pin, in lower case, has the prefix twice. -/
def HasDoubleTag (raw : Text) : Prop :=
  sha256Tag ++ sha256Tag <+: Text.toAsciiLowercase (Text.trim raw)

instance (raw : Text) : Decidable (HasDoubleTag raw) :=
  inferInstanceAs (Decidable (_ <+: _))

section Digest

variable {raw digest : Text}

theorem mem_hexDigits {c : Char} (hc : hexDigitValue c ≠ none) (hlow : c.toLower = c) :
    c ∈ "0123456789abcdef".toList := by
  obtain ⟨x, hx⟩ := Option.ne_none_iff_exists'.mp hc
  obtain ⟨hlt, hdigit⟩ := toLower_of_hexDigitValue hx
  rw [← hlow, hdigit]
  clear hdigit
  interval_cases x <;> decide

/-- What follows the prefix in the normal form. -/
theorem normalizeDigest_eq (raw : Text) : ∃ hex, normalizeDigest raw = sha256Tag ++ hex ∧
    Text.toAsciiLowercase hex = hex ∧
      (Text.startsWith hex sha256Tag = true ↔ HasDoubleTag raw) := by
  unfold HasDoubleTag
  cases htag : Text.startsWith (Text.toAsciiLowercase (Text.trim raw)) "sha256:".toList with
  | true =>
    obtain ⟨hex, hhex⟩ := Text.startsWith_iff.mp htag
    have hnormal : normalizeDigest raw = Text.toAsciiLowercase (Text.trim raw) := if_pos htag
    refine ⟨hex, hnormal.trans hhex.symm, ?_, ?_⟩
    · have h := Text.toAsciiLowercase_toAsciiLowercase (Text.trim raw)
      rw [← hhex, Text.toAsciiLowercase_append] at h
      exact List.append_cancel_left h
    · rw [← hhex, Text.startsWith_iff]
      exact (List.prefix_append_right_inj sha256Tag).symm
  | false =>
    have hnot : ¬ Text.startsWith (Text.toAsciiLowercase (Text.trim raw)) sha256Tag = true :=
      Bool.eq_false_iff.mp htag
    refine ⟨Text.toAsciiLowercase (Text.trim raw), if_neg hnot,
      Text.toAsciiLowercase_toAsciiLowercase _, iff_of_false hnot fun h => ?_⟩
    have hpre : sha256Tag <+: Text.toAsciiLowercase (Text.trim raw) :=
      (List.prefix_append sha256Tag sha256Tag).trans h
    exact hnot (Text.startsWith_iff.mpr hpre)

/-- A canonical digest is its own normal form. -/
theorem IsCanonicalDigest.normalizeDigest_eq_self (h : IsCanonicalDigest digest) :
    normalizeDigest digest = digest := by
  obtain ⟨hex, rfl, -, hhex⟩ := h
  have hall : ∀ c ∈ sha256Tag ++ hex, Text.isWhitespace c = false ∧ c.toLower = c := by
    have hplain : ∀ c ∈ sha256Tag ++ "0123456789abcdef".toList,
        Text.isWhitespace c = false ∧ c.toLower = c := List.all_iff_forall_prop.mp (by decide)
    intro c hc
    refine hplain c (List.mem_append.mpr ?_)
    exact (List.mem_append.mp hc).imp_right (hhex c)
  have hclean : Text.toAsciiLowercase (Text.trim (sha256Tag ++ hex)) = sha256Tag ++ hex := by
    rw [Text.trim_eq_self fun c hc => (hall c hc).1, Text.toAsciiLowercase]
    exact List.map_congr_left (g := id) (fun c hc => (hall c hc).2) |>.trans (List.map_id _)
  rw [normalizeDigest, hclean]
  exact if_pos (Text.startsWith_append sha256Tag hex)

/-- A hex text has no prefix. -/
theorem IsCanonicalDigest.not_startsWith {hex : Text} (h : IsCanonicalDigest (sha256Tag ++ hex)) :
    Text.startsWith hex sha256Tag = false := by
  obtain ⟨hex', heq, -, hhex⟩ := h
  obtain rfl := List.append_cancel_left heq
  by_contra htag
  rw [Bool.not_eq_false, Text.startsWith_iff] at htag
  have hs := hhex 's' (htag.mem (by decide))
  exact absurd hs (by decide)

theorem validateImageDigest_eq_ok_iff : validateImageDigest raw = .ok () ↔
    Text.len (Text.trimStartMatches (normalizeDigest raw) sha256Tag) = 64 ∧
      (Text.asBytes (Text.trimStartMatches (normalizeDigest raw) sha256Tag)).all
        isAsciiHexdigit = true :=
  ensure_eq_ok_iff

/-- The normal form of an accepted pin is canonical unless the pin has the prefix twice. -/
theorem isCanonicalDigest_normalizeDigest (h : validateImageDigest raw = .ok ()) :
    IsCanonicalDigest (normalizeDigest raw) ↔ ¬ HasDoubleTag raw := by
  obtain ⟨hex, hnormal, hlower, hdouble⟩ := normalizeDigest_eq raw
  rw [← hdouble]
  constructor
  · intro hcanonical
    rw [hnormal] at hcanonical
    rw [hcanonical.not_startsWith]
    exact Bool.false_ne_true
  · intro hsingle
    rw [Bool.not_eq_true] at hsingle
    rw [validateImageDigest_eq_ok_iff, hnormal,
      Text.trimStartMatches_append (p := sha256Tag) (by decide) hsingle] at h
    obtain ⟨hlen, hdigits⟩ := hexDigits_of_all h.2
    refine ⟨hex, hnormal, hlen.symm.trans h.1, fun c hc => mem_hexDigits (hdigits c hc) ?_⟩
    exact List.map_inj_left.mp (hlower.trans (List.map_id hex).symm) c hc

theorem checkImageDigest_eq_ok_iff {container : ContainerClaims}
    (hdigest : container.imageDigest = some digest) :
    checkImageDigest (some raw) container = .ok () ↔
      normalizeDigest digest = normalizeDigest raw := by
  simp only [checkImageDigest, hdigest, Option.map_some, okOr, Except.bind_eq_ok_iff,
    ensure_eq_ok_iff]
  simp

/-- Some canonical digest passes the comparison with the pin. -/
def Satisfiable (pin : Option Text) : Prop :=
  ∃ digest, IsCanonicalDigest digest ∧ ∀ container : ContainerClaims,
    container.imageDigest = some digest → checkImageDigest pin container = .ok ()

theorem satisfiable_iff : Satisfiable (some raw) ↔ IsCanonicalDigest (normalizeDigest raw) := by
  constructor
  · rintro ⟨digest, hcanonical, hmet⟩
    have heq := (checkImageDigest_eq_ok_iff rfl).mp (hmet { imageDigest := some digest } rfl)
    rw [hcanonical.normalizeDigest_eq_self] at heq
    exact heq ▸ hcanonical
  · intro hcanonical
    refine ⟨normalizeDigest raw, hcanonical, fun container hdigest => ?_⟩
    rw [checkImageDigest_eq_ok_iff hdigest, hcanonical.normalizeDigest_eq_self]

/-- An accepted pin is canonical in its normal form exactly if it does not have the prefix twice,
and exactly then a policy with this pin, when it is valid, can be met. -/
theorem normalizeDigest_isCanonical_iff (raw : Text) (h : validateImageDigest raw = .ok ()) :
    (IsCanonicalDigest (normalizeDigest raw) ↔ ¬ HasDoubleTag raw) ∧
      ∀ (P : UrlParser) (policy : GcpConfidentialSpacePolicy), policy.imageDigest = some raw →
        policy.validate P = .ok () → (Satisfiable policy.imageDigest ↔ ¬ HasDoubleTag raw) := by
  refine ⟨isCanonicalDigest_normalizeDigest h, fun P policy hpin _ => ?_⟩
  rw [hpin, satisfiable_iff, isCanonicalDigest_normalizeDigest h]

end Digest

/-- A pin in upper case, with whitespace and without the prefix. -/
def upperPin : Text := " ".toList ++ List.replicate 64 'A'

def doublePin : Text := sha256Tag ++ sha256Tag ++ List.replicate 64 'a'

/-- The policy that pins the image only. -/
def pinOnly (pin : Text) : GcpConfidentialSpacePolicy :=
  { audience := "relay".toList, imageDigest := some pin }

theorem upperPin_isCanonical :
    IsCanonicalDigest (normalizeDigest upperPin) ∧ Satisfiable (some upperPin) := by
  obtain ⟨hcanonical, hpolicy⟩ := normalizeDigest_isCanonical_iff upperPin (by decide)
  exact ⟨hcanonical.mpr (by decide),
    (hpolicy plainUrlParser (pinOnly upperPin) rfl (by decide)).mpr (by decide)⟩

/-- The pin is accepted, in a policy too, and no digest meets it. -/
theorem doublePin_not_satisfiable :
    validateImageDigest doublePin = .ok () ∧
      (pinOnly doublePin).validate plainUrlParser = .ok () ∧
      ¬ IsCanonicalDigest (normalizeDigest doublePin) ∧ ¬ Satisfiable (some doublePin) := by
  have hvalid : validateImageDigest doublePin = .ok () := by decide
  have hnot : ¬ IsCanonicalDigest (normalizeDigest doublePin) :=
    mt (isCanonicalDigest_normalizeDigest hvalid).mp (not_not.mpr (by decide))
  exact ⟨hvalid, by decide, hnot, mt satisfiable_iff.mp hnot⟩

end TrustedRelay
