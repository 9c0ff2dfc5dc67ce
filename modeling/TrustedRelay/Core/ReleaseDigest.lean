import TrustedRelay.Core.ConfigHash

/-!
# Spellings of the release digest

A release digest may be written with whitespace around it, in either letter case, and with or
without a prefix. The check takes the prefix off before it looks at the digits; the configuration
hash takes the trimmed text in lower case, prefix included. `releaseDigest_preimage_iff` says which
spellings of one digest are hashed alike.
-/

namespace TrustedRelay

/-- The hex digits of a release digest, as the check reads them. -/
def releaseDigestHex (raw : Text) : Text :=
  ((Text.stripPrefix (Text.trim raw) "sha256:".toList).or
    (Text.stripPrefix (Text.trim raw) "SHA256:".toList)).getD (Text.trim raw)

/-- The 32 bytes that a release digest denotes. -/
def releaseDigestBytes (raw : Text) : Option Bytes := hexBytes (releaseDigestHex raw)

/-- The release digest is written with its prefix. -/
def HasReleaseTag (raw : Text) : Prop :=
  "sha256:".toList <+: Text.trim raw ∨ "SHA256:".toList <+: Text.trim raw

instance (raw : Text) : Decidable (HasReleaseTag raw) := inferInstanceAs (Decidable (_ ∨ _))

theorem validateReleaseArtifactDigest_eq_ok_iff {raw : Text} :
    validateReleaseArtifactDigest raw = .ok () ↔ Text.len (releaseDigestHex raw) = 64 ∧
      (Text.asBytes (releaseDigestHex raw)).all isAsciiHexdigit = true := by
  unfold validateReleaseArtifactDigest
  rw [Except.unit_bind_eq_ok_iff, ensure_eq_ok_iff, ensure_eq_ok_iff]
  rfl

/-- An accepted digest has 64 hex digits, which denote bytes. -/
theorem length_releaseDigestHex {raw : Text} (h : validateReleaseArtifactDigest raw = .ok ()) :
    (releaseDigestHex raw).length = 64 ∧ releaseDigestBytes raw ≠ none := by
  obtain ⟨hlen, hall⟩ := validateReleaseArtifactDigest_eq_ok_iff.mp h
  obtain ⟨hlength, hdigits⟩ := hexDigits_of_all hall
  rw [hlength] at hlen
  exact ⟨hlen, hexBytes_ne_none hdigits (by rw [hlen])⟩

/-- What is hashed: the digits in lower case, behind the prefix if there is one. -/
theorem toAsciiLowercase_trim_releaseDigest (raw : Text) :
    Text.toAsciiLowercase (Text.trim raw) =
      (if HasReleaseTag raw then "sha256:".toList else []) ++
        Text.toAsciiLowercase (releaseDigestHex raw) := by
  have htag : Text.toAsciiLowercase "SHA256:".toList = "sha256:".toList ∧
      Text.toAsciiLowercase "sha256:".toList = "sha256:".toList := by decide
  cases hlow : Text.stripPrefix (Text.trim raw) "sha256:".toList with
  | some hex =>
    have heq := Text.stripPrefix_eq_some_iff.mp hlow
    have hhex : releaseDigestHex raw = hex := by rw [releaseDigestHex, hlow]; rfl
    have hhas : HasReleaseTag raw := .inl (heq ▸ List.prefix_append _ _)
    rw [if_pos hhas, hhex, heq, Text.toAsciiLowercase_append, htag.2]
  | none =>
    cases hup : Text.stripPrefix (Text.trim raw) "SHA256:".toList with
    | some hex =>
      have heq := Text.stripPrefix_eq_some_iff.mp hup
      have hhex : releaseDigestHex raw = hex := by rw [releaseDigestHex, hlow, hup]; rfl
      have hhas : HasReleaseTag raw := .inr (heq ▸ List.prefix_append _ _)
      rw [if_pos hhas, hhex, heq, Text.toAsciiLowercase_append, htag.1]
    | none =>
      have hhex : releaseDigestHex raw = Text.trim raw := by rw [releaseDigestHex, hlow, hup]; rfl
      rw [Text.stripPrefix_eq_none_iff, ← Bool.not_eq_true, Text.startsWith_iff] at hlow hup
      have hnot : ¬ HasReleaseTag raw := not_or.mpr ⟨hlow, hup⟩
      rw [if_neg hnot, hhex, List.nil_append]

/-- Two spellings of one digest are hashed alike exactly if both or neither have the prefix. -/
theorem toAsciiLowercase_trim_eq_iff {raw raw' : Text}
    (h : validateReleaseArtifactDigest raw = .ok ())
    (hsame : releaseDigestBytes raw = releaseDigestBytes raw') :
    Text.toAsciiLowercase (Text.trim raw) = Text.toAsciiLowercase (Text.trim raw') ↔
      (HasReleaseTag raw ↔ HasReleaseTag raw') := by
  have hhex := (hexBytes_eq_iff (length_releaseDigestHex h).2).mp hsame
  have hlen : ∀ t : Text, "sha256:".toList ++ t ≠ t := by
    intro t heq
    exact absurd (List.append_left_eq_self.mp heq) (by decide)
  rw [toAsciiLowercase_trim_releaseDigest, toAsciiLowercase_trim_releaseDigest, hhex]
  by_cases hr : HasReleaseTag raw
  · by_cases hr' : HasReleaseTag raw'
    · simp [hr, hr']
    · rw [if_pos hr, if_neg hr', List.nil_append]
      exact iff_of_false (hlen _) fun hiff => hr' (hiff.mp hr)
  · by_cases hr' : HasReleaseTag raw'
    · rw [if_neg hr, if_pos hr', List.nil_append]
      exact iff_of_false (hlen _).symm fun hiff => hr (hiff.mpr hr')
    · simp [hr, hr']

namespace RelayConfig

/-- The configuration with the given release digest. -/
def withReleaseDigest (c : RelayConfig) (raw : Text) : RelayConfig :=
  { c with releaseArtifactDigest := some raw }

/-- Two valid configurations that differ only in how they write one release digest have the same
hash input exactly if both or neither write the prefix. -/
theorem releaseDigest_preimage_iff (P : UrlParser) (c : RelayConfig) (raw raw' : Text)
    (h : (c.withReleaseDigest raw).validate P = .ok ())
    (h' : (c.withReleaseDigest raw').validate P = .ok ())
    (hsame : releaseDigestBytes raw = releaseDigestBytes raw') :
    (c.withReleaseDigest raw).configHashPreimage P =
        (c.withReleaseDigest raw').configHashPreimage P ↔
      (HasReleaseTag raw ↔ HasReleaseTag raw') := by
  obtain ⟨-, hdigest, -⟩ := (validate_eq_ok_iff P _).mp h
  rw [← toAsciiLowercase_trim_eq_iff ((validateDigest_eq_ok_iff _).mp hdigest raw rfl) hsame]
  constructor
  · intro hpre
    obtain ⟨-, -, -, hhashed, -⟩ := segments_eq_of_preimage_eq h h' hpre
    exact Option.some.inj hhashed
  · intro heq
    -- the digest goes into the input as it is hashed, and nothing else differs
    have hhashed : (c.withReleaseDigest raw).hashedDigest =
        (c.withReleaseDigest raw').hashedDigest := congrArg some heq
    unfold configHashPreimage limitUpdates
    rw [hhashed]
    rfl

def releaseDigits : Text := List.replicate 64 'a'

theorem paddedRelease_preimage_eq :
    (withReleaseDigest {} (" SHA256:".toList ++ List.replicate 64 'A')).configHashPreimage
        plainUrlParser =
      (withReleaseDigest {} ("sha256:".toList ++ releaseDigits)).configHashPreimage
        plainUrlParser :=
  (releaseDigest_preimage_iff plainUrlParser {} _ _ (by decide) (by decide) (by decide)).mpr
    (by decide)

/-- The same digest with and without the prefix gives two hash inputs. -/
theorem taggedRelease_preimage_ne :
    (withReleaseDigest {} releaseDigits).validate plainUrlParser = .ok () ∧
      (withReleaseDigest {} ("sha256:".toList ++ releaseDigits)).validate plainUrlParser = .ok () ∧
      releaseDigestBytes releaseDigits = releaseDigestBytes ("sha256:".toList ++ releaseDigits) ∧
      (withReleaseDigest {} releaseDigits).configHashPreimage plainUrlParser ≠
        (withReleaseDigest {} ("sha256:".toList ++ releaseDigits)).configHashPreimage
          plainUrlParser := by
  decide +kernel

end RelayConfig

end TrustedRelay
