import TrustedRelay.Core.TlsPins
import TrustedRelay.Rust.Ascii
import TrustedRelay.Format.Delimited

/-!
# The configuration hash and what it determines

`config_hash` feeds SHA-256 a text of tagged lines, unescaped. Clients read the hash as a
description of the relay, so the question is what equal inputs imply.

* The lines before and after the upstream description hold only validated fields, so they can be
  read back from both ends of the input, whatever the middle is: `configHashPreimage_inj`.
* The middle (default upstream, routes, allowlist) holds raw configuration strings, in which a
  line break or a separator can be smuggled. It determines the upstream policy when none of its
  fields holds a delimiter: `upstreamPolicy_eq_of_delimiterFree`.
-/

namespace TrustedRelay

open Delimited

namespace RelayConfig

/-! ### The hash input -/

def flagText (b : Bool) : Text := if b then "true".toList else "false".toList

def schemaTag : Text := "config_hash_schema:v2".toList
def clientAuthTag : Text := "runtime.allow_client_provider_auth:".toList
def privateAdminTag : Text := "runtime.private_admin_enabled:".toList
def authSchemeTag : Text := "runtime.provider_auth_scheme:".toList
def logPolicyTag : Text := "runtime.body_log_policy:".toList
def defaultTag : Text := "default_upstream:".toList
def routeTag : Text := "route:".toList
def pathTag : Text := "|path:".toList
def allowedTag : Text := "allowed:".toList
def maxTag : Text := "max_request_bytes:".toList
def digestTag : Text := "release_artifact_digest:".toList
def timeoutTag : Text := "upstream_timeout_secs:".toList
def pinTag : Text := "upstream_tls_leaf_sha256:".toList

/-- The `update` calls for the schema and the runtime choices. -/
def runtimeUpdates (r : RuntimeConfig) : List Text :=
  [schemaTag ++ ['\n'],
    clientAuthTag, flagText r.allowClientProviderAuth, ['\n'],
    privateAdminTag, flagText r.privateAdminEnabled, ['\n'],
    authSchemeTag, r.providerAuthScheme, ['\n'],
    logPolicyTag, r.bodyLogPolicy, ['\n']]

/-- The `update` calls for one route. -/
def routeUpdates (route : Text × ProviderConfig) : List Text :=
  [routeTag, route.1, ['=', '>'], route.2.baseUrl] ++
    (match route.2.path with
    | some path => [pathTag, path]
    | none => []) ++
    [['\n']]

/-- The allowlist, sorted for determinism. -/
def sortedAllowed (c : RelayConfig) : List Text := c.allowedUpstreams.insertionSort (· ≤ ·)

/-- The `update` calls for the upstreams: default, routes and allowlist. -/
def upstreamUpdates (c : RelayConfig) : List Text :=
  [defaultTag, c.defaultUpstream, ['\n']] ++
    c.routes.toList.flatMap routeUpdates ++
    c.sortedAllowed.flatMap fun allowed => [allowedTag, allowed, ['\n']]

/-- The release digest as it is hashed. -/
def hashedDigest (c : RelayConfig) : Option Text :=
  c.releaseArtifactDigest.map fun digest => Text.toAsciiLowercase (Text.trim digest)

/-- The `update` calls for one origin's pins. -/
def pinUpdates (entry : Text × List Text) : List Text :=
  [pinTag, entry.1, ['=', '>']] ++ (entry.2.flatMap fun pin => [pin, [',']]) ++ [['\n']]

/-- The `update` calls for the limits, the digest and the pins. -/
def limitUpdates (c : RelayConfig) (pins : BTreeMap (List Text)) : List Text :=
  [maxTag, Text.decimal c.maxRequestBytes.toNat, ['\n']] ++
    (match c.hashedDigest with
    | some digest => [digestTag, digest, ['\n']]
    | none => []) ++
    [timeoutTag, Text.decimal c.upstreamTimeoutSecs.toNat, ['\n']] ++
    pins.toList.flatMap pinUpdates

/-- The bytes that `config_hash` feeds to the hash; `none` is the `expect` on invalid pins. -/
def configHashPreimage (P : UrlParser) (c : RelayConfig) : Option Bytes :=
  match normalizeUpstreamTlsPins P c.upstreamTlsLeafSha256 with
  | .ok pins =>
    some ((runtimeUpdates c.runtime ++ c.upstreamUpdates ++ c.limitUpdates pins).flatMap
      Text.asBytes)
  | .error _ => none

/-- Compute a deterministic hash of the security-critical configuration. -/
def configHash (P : UrlParser) (sha256 : Bytes → ByteArr 32) (c : RelayConfig) :
    Option (ByteArr 32) :=
  (c.configHashPreimage P).map sha256

/-! ### Reading the input as lines -/

theorem flatMap_asBytes (updates : List Text) :
    updates.flatMap Text.asBytes = Text.asBytes updates.flatten := by
  induction updates with
  | nil => rfl
  | cons t updates ih => simp [ih]

/-- The lines of the runtime choices. -/
def runtimeLines (r : RuntimeConfig) : List Text :=
  [schemaTag,
    clientAuthTag ++ flagText r.allowClientProviderAuth,
    privateAdminTag ++ flagText r.privateAdminEnabled,
    authSchemeTag ++ r.providerAuthScheme,
    logPolicyTag ++ r.bodyLogPolicy]

/-- What follows the base URL of a route. -/
def pathPart (path : Option Text) : Text := path.elim [] (pathTag ++ ·)

/-- A route, without its tag and its line break. -/
def routeBody (route : Text × ProviderConfig) : Text :=
  route.1 ++ '=' :: '>' :: (route.2.baseUrl ++ pathPart route.2.path)

/-- The lines of the upstream description; their fields may hold line breaks. -/
def upstreamLines (c : RelayConfig) : List Text :=
  (defaultTag ++ c.defaultUpstream) ::
    (c.routes.toList.map (routeTag ++ routeBody ·) ++ c.sortedAllowed.map (allowedTag ++ ·))

def maxLine (c : RelayConfig) : Text := maxTag ++ Text.decimal c.maxRequestBytes.toNat

def timeoutLine (c : RelayConfig) : Text := timeoutTag ++ Text.decimal c.upstreamTimeoutSecs.toNat

/-- The line of one origin's pins. -/
def pinLine (entry : Text × List Text) : Text :=
  pinTag ++ (entry.1 ++ '=' :: '>' :: unlines ',' entry.2)

/-- The lines after the upstream description. -/
def limitLines (c : RelayConfig) (pins : BTreeMap (List Text)) : List Text :=
  c.maxLine ::
    (c.hashedDigest.toList.map (digestTag ++ ·) ++ c.timeoutLine :: pins.toList.map pinLine)

theorem flatten_flatMap_eq_unlines {α : Type} {updates : α → List Text} {line : α → Text}
    (h : ∀ a, (updates a).flatten = line a ++ ['\n']) (l : List α) :
    (l.flatMap updates).flatten = unlines '\n' (l.map line) := by
  induction l with
  | nil => rfl
  | cons a l ih => simp [ih, h]

theorem runtimeUpdates_flatten (r : RuntimeConfig) :
    (runtimeUpdates r).flatten = unlines '\n' (runtimeLines r) := by
  simp [runtimeUpdates, runtimeLines]

theorem routeUpdates_flatten (route : Text × ProviderConfig) :
    (routeUpdates route).flatten = routeTag ++ routeBody route ++ ['\n'] := by
  cases hpath : route.2.path <;> simp [routeUpdates, routeBody, pathPart, hpath]

theorem upstreamUpdates_flatten (c : RelayConfig) :
    c.upstreamUpdates.flatten = unlines '\n' c.upstreamLines := by
  have hroutes := flatten_flatMap_eq_unlines routeUpdates_flatten c.routes.toList
  have hline : ∀ allowed : Text,
      [allowedTag, allowed, ['\n']].flatten = (allowedTag ++ allowed) ++ ['\n'] := by simp
  have hallowed := flatten_flatMap_eq_unlines hline c.sortedAllowed
  simp [upstreamUpdates, upstreamLines, hroutes, hallowed]

theorem pinUpdates_flatten (entry : Text × List Text) :
    (pinUpdates entry).flatten = pinLine entry ++ ['\n'] := by
  have hpins : (entry.2.flatMap fun pin => [pin, [',']]).flatten = unlines ',' entry.2 := by
    induction entry.2 with
    | nil => rfl
    | cons pin pins ih => simp [ih]
  simp [pinUpdates, pinLine, hpins]

theorem limitUpdates_flatten (c : RelayConfig) (pins : BTreeMap (List Text)) :
    (c.limitUpdates pins).flatten = unlines '\n' (c.limitLines pins) := by
  have hpins := flatten_flatMap_eq_unlines pinUpdates_flatten pins.toList
  cases hd : c.hashedDigest <;>
    simp [limitUpdates, limitLines, maxLine, timeoutLine, hd, hpins]

/-! ### The validated lines hold no line break -/

theorem newline_not_mem_decimal (n : ℕ) : '\n' ∉ Text.decimal n :=
  fun hm => absurd (Text.isDigit_of_mem_decimal hm) (by decide)

theorem newline_not_mem_append {t u : Text} (ht : '\n' ∉ t) (hu : '\n' ∉ u) : '\n' ∉ t ++ u :=
  fun hm => (List.mem_append.mp hm).elim ht hu

theorem runtimeLines_newline_free {r : RuntimeConfig} (h : r.validate = .ok ()) :
    ∀ line ∈ runtimeLines r, '\n' ∉ line := by
  simp only [RuntimeConfig.validate, validateHttpToken, Except.unit_bind_eq_ok_iff,
    ensure_eq_ok_iff] at h
  obtain ⟨⟨-, htoken⟩, hpolicy⟩ := h
  have hflag : ∀ b, '\n' ∉ flagText b := by decide
  have hscheme : '\n' ∉ r.providerAuthScheme :=
    Text.not_mem_of_all_asBytes htoken (by decide) (by decide)
  have hlog : '\n' ∉ r.bodyLogPolicy := by
    rw [hpolicy]
    decide
  intro line hline
  simp only [runtimeLines, List.mem_cons, List.not_mem_nil, or_false] at hline
  rcases hline with rfl | rfl | rfl | rfl | rfl
  · decide
  · exact newline_not_mem_append (by decide) (hflag _)
  · exact newline_not_mem_append (by decide) (hflag _)
  · exact newline_not_mem_append (by decide) hscheme
  · exact newline_not_mem_append (by decide) hlog

/-- A text of which a checked remainder is left after an optional tag. -/
theorem newline_not_mem_of_stripPrefix {s tag rest : Text} (h : Text.stripPrefix s tag = some rest)
    (htag : '\n' ∉ tag) (hrest : '\n' ∉ rest) : '\n' ∉ s := by
  rw [Text.stripPrefix_eq_some_iff.mp h]
  exact newline_not_mem_append htag hrest

theorem newline_not_mem_digest {raw : Text} (h : validateReleaseArtifactDigest raw = .ok ()) :
    '\n' ∉ Text.toAsciiLowercase (Text.trim raw) := by
  simp only [validateReleaseArtifactDigest, Except.unit_bind_eq_ok_iff, ensure_eq_ok_iff] at h
  have hhex := Text.not_mem_of_all_asBytes (c := '\n') h.2 (by decide) (by decide)
  intro hm
  refine absurd (Text.mem_of_mem_toAsciiLowercase (by decide) hm) ?_
  cases hlow : Text.stripPrefix (Text.trim raw) "sha256:".toList with
  | some rest =>
    rw [hlow] at hhex
    exact newline_not_mem_of_stripPrefix hlow (by decide) hhex
  | none =>
    cases hup : Text.stripPrefix (Text.trim raw) "SHA256:".toList with
    | some rest =>
      rw [hlow, hup] at hhex
      exact newline_not_mem_of_stripPrefix hup (by decide) hhex
    | none =>
      rw [hlow, hup] at hhex
      exact hhex

/-- The entries of a normalised pin map hold none of the delimiters around them. -/
theorem normalizeUpstreamTlsPins_free {P : UrlParser} {raw N : BTreeMap (List Text)}
    (h : normalizeUpstreamTlsPins P raw = .ok N) :
    ∀ e ∈ N.toList, ('\n' ∉ e.1 ∧ '>' ∉ e.1) ∧ ∀ pin ∈ e.2, '\n' ∉ pin ∧ ',' ∉ pin := by
  rintro ⟨origin, pins⟩ he
  rw [Std.ExtTreeMap.mem_toList_iff_getElem?_eq_some] at he
  obtain ⟨entry, -, hentry⟩ := normalizeUpstreamTlsPins_getElem P h he
  obtain ⟨horigin, -, -, -, hpins⟩ := normalizePinEntry_eq_ok P hentry
  refine ⟨not_mem_urlOrigin P horigin, fun pin hpin => ?_⟩
  obtain ⟨v, -, hv⟩ := (hpins pin).mp hpin
  exact not_mem_normalizeSha256Pin hv

theorem newline_not_mem_pinLine {e : Text × List Text} (horigin : '\n' ∉ e.1)
    (hpins : ∀ pin ∈ e.2, '\n' ∉ pin) : '\n' ∉ pinLine e := by
  refine newline_not_mem_append (by decide) (newline_not_mem_append horigin ?_)
  have hall : '\n' ∉ unlines ',' e.2 := by
    simpa [unlines] using hpins
  simpa using hall

theorem limitLines_newline_free {P : UrlParser} {c : RelayConfig} {N : BTreeMap (List Text)}
    (hdigest : c.validateDigest = .ok ())
    (hN : normalizeUpstreamTlsPins P c.upstreamTlsLeafSha256 = .ok N) :
    ∀ line ∈ c.limitLines N, '\n' ∉ line := by
  intro line hline
  simp only [limitLines, List.mem_cons, List.mem_append, List.mem_map, Option.mem_toList] at hline
  rcases hline with rfl | ⟨digest, hd, rfl⟩ | rfl | ⟨e, he, rfl⟩
  · exact newline_not_mem_append (by decide) (newline_not_mem_decimal _)
  · obtain ⟨raw, hraw, rfl⟩ := Option.map_eq_some_iff.mp hd
    exact newline_not_mem_append (by decide)
      (newline_not_mem_digest ((c.validateDigest_eq_ok_iff).mp hdigest raw hraw))
  · exact newline_not_mem_append (by decide) (newline_not_mem_decimal _)
  · have hfree := normalizeUpstreamTlsPins_free hN e he
    exact newline_not_mem_pinLine hfree.1.1 fun pin hpin => (hfree.2 pin hpin).1

/-! ### Decoding from both ends -/

theorem runtimeLines_injective : Function.Injective runtimeLines := by
  intro r r' h
  have hflag : ∀ b b', flagText b = flagText b' → b = b' := by decide
  simp only [runtimeLines, List.cons.injEq, List.append_cancel_left_eq, true_and, and_true] at h
  obtain ⟨h1, h2, h3, h4⟩ := h
  cases r
  cases r'
  simp only [RuntimeConfig.mk.injEq]
  exact ⟨hflag _ _ h1, hflag _ _ h2, h3, h4⟩

/-- A line that starts with one of two tags, neither of which starts the other, does not start
with the second one. -/
theorem not_prefix_append {t u : Text} (htu : ¬t <+: u) (hut : ¬u <+: t) (x : Text) :
    ¬t <+: u ++ x := by
  intro h
  rcases List.prefix_or_prefix_of_prefix h (List.prefix_append u x) with h' | h'
  · exact htu h'
  · exact hut h'

/-- The pins end at the timeout line and the digest at the size line, read from the back. -/
theorem append_limitLines_inj {c c' : RelayConfig} {N N' : BTreeMap (List Text)}
    {U U' : List Text} (h : U ++ c.limitLines N = U' ++ c'.limitLines N') :
    U = U' ∧ c.maxLine = c'.maxLine ∧ c.hashedDigest = c'.hashedDigest ∧
      c.timeoutLine = c'.timeoutLine ∧ N.toList.map pinLine = N'.toList.map pinLine := by
  have hpin : ∀ (M : BTreeMap (List Text)), ∀ line ∈ M.toList.map pinLine, pinTag <+: line := by
    intro M line hline
    obtain ⟨e, -, rfl⟩ := List.mem_map.mp hline
    exact List.prefix_append _ _
  have hdig : ∀ o : Option Text, ∀ line ∈ o.toList.map (digestTag ++ ·), digestTag <+: line := by
    intro o line hline
    obtain ⟨d, -, rfl⟩ := List.mem_map.mp hline
    exact List.prefix_append _ _
  have hsplit : (U ++ c.maxLine :: c.hashedDigest.toList.map (digestTag ++ ·)) ++
        c.timeoutLine :: N.toList.map pinLine =
      (U' ++ c'.maxLine :: c'.hashedDigest.toList.map (digestTag ++ ·)) ++
        c'.timeoutLine :: N'.toList.map pinLine := by
    simpa [limitLines] using h
  obtain ⟨hfront, htimeout, hpins⟩ := append_cons_inj_of_last (hpin N) (hpin N')
    (not_prefix_append (by decide) (by decide) _) (not_prefix_append (by decide) (by decide) _)
    hsplit
  obtain ⟨hU, hmax, hd⟩ := append_cons_inj_of_last (hdig c.hashedDigest) (hdig c'.hashedDigest)
    (not_prefix_append (by decide) (by decide) _) (not_prefix_append (by decide) (by decide) _)
    hfront
  have htoList := map_inj_of_mem (fun _ _ _ _ heq => List.append_cancel_left heq) hd
  refine ⟨hU, hmax, Option.ext fun d => ?_, htimeout, hpins⟩
  have hmem : d ∈ c.hashedDigest.toList ↔ d ∈ c'.hashedDigest.toList := by rw [htoList]
  simpa using hmem

/-- A pin line is its origin, which holds no `>`, and its pins, which hold no comma. -/
theorem pinLine_inj {e e' : Text × List Text} (h1 : '>' ∉ e.1) (h1' : '>' ∉ e'.1)
    (h2 : ∀ pin ∈ e.2, ',' ∉ pin) (h2' : ∀ pin ∈ e'.2, ',' ∉ pin) (h : pinLine e = pinLine e') :
    e = e' := by
  have hbody : (e.1 ++ ['=']) ++ '>' :: unlines ',' e.2 =
      (e'.1 ++ ['=']) ++ '>' :: unlines ',' e'.2 := by
    simpa using List.append_cancel_left h
  have hne : ∀ {o : Text}, '>' ∉ o → ∀ x ∈ o ++ ['='], x ≠ '>' := by
    rintro o ho x hx rfl
    rcases List.mem_append.mp hx with hx | hx
    · exact ho hx
    · exact absurd hx (by decide)
  obtain ⟨horigin, -, hpins⟩ := append_cons_inj_of_first (hne h1) (hne h1') (by simp) (by simp)
    hbody
  exact Prod.ext (List.append_cancel_right horigin) (unlines_inj h2 h2' hpins)

/-- The text behind the hash input of a configuration that starts up. -/
theorem configHashPreimage_eq_some {P : UrlParser} {c : RelayConfig} (h : c.validate P = .ok ()) :
    ∃ N, normalizeUpstreamTlsPins P c.upstreamTlsLeafSha256 = .ok N ∧
      c.configHashPreimage P = some (Text.asBytes
        (unlines '\n' (runtimeLines c.runtime ++ (c.upstreamLines ++ c.limitLines N)))) := by
  obtain ⟨-, -, ⟨N, hN⟩, -⟩ := (c.validate_eq_ok_iff P).mp h
  refine ⟨N, hN, ?_⟩
  simp only [configHashPreimage, hN]
  rw [flatMap_asBytes, List.flatten_append, List.flatten_append, runtimeUpdates_flatten,
    upstreamUpdates_flatten, limitUpdates_flatten, List.append_assoc, unlines_append,
    unlines_append]

/-- Equal hash inputs have the same segments: the front by its fixed number of lines, the back
by its tags, and so the middle, whatever it holds. -/
theorem segments_eq_of_preimage_eq {P : UrlParser} {c c' : RelayConfig}
    (hc : c.validate P = .ok ()) (hc' : c'.validate P = .ok ())
    (h : c.configHashPreimage P = c'.configHashPreimage P) :
    runtimeLines c.runtime = runtimeLines c'.runtime ∧
      unlines '\n' c.upstreamLines = unlines '\n' c'.upstreamLines ∧
      c.maxLine = c'.maxLine ∧ c.hashedDigest = c'.hashedDigest ∧
      c.timeoutLine = c'.timeoutLine ∧
      ∃ N N', normalizeUpstreamTlsPins P c.upstreamTlsLeafSha256 = .ok N ∧
        normalizeUpstreamTlsPins P c'.upstreamTlsLeafSha256 = .ok N' ∧
        N.toList.map pinLine = N'.toList.map pinLine := by
  obtain ⟨N, hN, hpre⟩ := configHashPreimage_eq_some hc
  obtain ⟨N', hN', hpre'⟩ := configHashPreimage_eq_some hc'
  rw [hpre, hpre'] at h
  have htext := Text.asBytes_injective (Option.some.inj h)
  -- the middle is cut again at every line break that its fields hold
  obtain ⟨M, hM, hMeq⟩ := exists_lines_of_unlines '\n' c.upstreamLines
  obtain ⟨M', hM', hMeq'⟩ := exists_lines_of_unlines '\n' c'.upstreamLines
  rw [unlines_append, unlines_append, ← hMeq, ← unlines_append, ← unlines_append,
    unlines_append '\n' (runtimeLines c'.runtime), unlines_append '\n' c'.upstreamLines, ← hMeq',
    ← unlines_append, ← unlines_append] at htext
  have hfree : ∀ {d : RelayConfig} {D : BTreeMap (List Text)} {L : List Text},
      d.validate P = .ok () → normalizeUpstreamTlsPins P d.upstreamTlsLeafSha256 = .ok D →
      (∀ l ∈ L, '\n' ∉ l) → ∀ l ∈ runtimeLines d.runtime ++ (L ++ d.limitLines D), '\n' ∉ l := by
    intro d D L hd hD hL l hl
    obtain ⟨hruntime, hdigest, -⟩ := (d.validate_eq_ok_iff P).mp hd
    rcases List.mem_append.mp hl with hl | hl
    · exact runtimeLines_newline_free hruntime l hl
    rcases List.mem_append.mp hl with hl | hl
    · exact hL l hl
    · exact limitLines_newline_free hdigest hD l hl
  have hlines := unlines_inj (hfree hc hN hM) (hfree hc' hN' hM') htext
  obtain ⟨hruntime, hrest⟩ := List.append_inj hlines rfl
  obtain ⟨hmiddle, hmax, hdigest, htimeout, hpins⟩ := append_limitLines_inj hrest
  refine ⟨hruntime, ?_, hmax, hdigest, htimeout, N, N', hN, hN', hpins⟩
  rw [← hMeq, ← hMeq', hmiddle]

/-- Equal hash inputs agree on everything but the upstream description, whose bytes they fix:
runtime choices, size limit, digest, timeout and pin map are read back from the two ends. -/
theorem configHashPreimage_inj (P : UrlParser) (c c' : RelayConfig) (hc : c.validate P = .ok ())
    (hc' : c'.validate P = .ok ()) (h : c.configHashPreimage P = c'.configHashPreimage P) :
    c.runtime = c'.runtime ∧ c.maxRequestBytes = c'.maxRequestBytes ∧
      c.releaseArtifactDigest.map (fun digest => Text.toAsciiLowercase (Text.trim digest)) =
        c'.releaseArtifactDigest.map (fun digest => Text.toAsciiLowercase (Text.trim digest)) ∧
      c.upstreamTimeoutSecs = c'.upstreamTimeoutSecs ∧
      normalizeUpstreamTlsPins P c.upstreamTlsLeafSha256 =
        normalizeUpstreamTlsPins P c'.upstreamTlsLeafSha256 ∧
      c.upstreamUpdates.flatMap Text.asBytes = c'.upstreamUpdates.flatMap Text.asBytes ∧
      unlines '\n' ((defaultTag ++ c.defaultUpstream) ::
          (c.routes.toList.map (routeTag ++ routeBody ·) ++
            c.sortedAllowed.map (allowedTag ++ ·))) =
        unlines '\n' ((defaultTag ++ c'.defaultUpstream) ::
          (c'.routes.toList.map (routeTag ++ routeBody ·) ++
            c'.sortedAllowed.map (allowedTag ++ ·))) := by
  obtain ⟨hruntime, hupstream, hmax, hdigest, htimeout, N, N', hN, hN', hpins⟩ :=
    segments_eq_of_preimage_eq hc hc' h
  have hpinmaps : N = N' := by
    refine Std.ExtTreeMap.toList_inj.mp (map_inj_of_mem (fun e he e' he' heq => ?_) hpins)
    have hf := normalizeUpstreamTlsPins_free hN e he
    have hf' := normalizeUpstreamTlsPins_free hN' e' he'
    exact pinLine_inj hf.1.2 hf'.1.2 (fun pin hpin => (hf.2 pin hpin).2)
      (fun pin hpin => (hf'.2 pin hpin).2) heq
  refine ⟨runtimeLines_injective hruntime, ?_, hdigest, ?_, by rw [hN, hN', hpinmaps], ?_,
    hupstream⟩
  · exact UInt64.toNat_inj.mp (Text.decimal_injective (List.append_cancel_left hmax))
  · exact UInt64.toNat_inj.mp (Text.decimal_injective (List.append_cancel_left htimeout))
  · rw [flatMap_asBytes, flatMap_asBytes, upstreamUpdates_flatten, upstreamUpdates_flatten,
      hupstream]

/-- A default upstream that ends in what looks like a route line. -/
def smuggledDefault : RelayConfig where
  defaultUpstream := "https://api.openai.com/\nroute:gpt-=>https://api.openai.com|path:/v2".toList
  allowedUpstreams := ["https://api.openai.com".toList]
  releaseArtifactDigest := some (" SHA256:".toList ++ List.replicate 64 'A')
  upstreamTlsLeafSha256 := Std.ExtTreeMap.ofList
    [("https://API.openai.com/v1".toList, [List.replicate 64 'F'])]

/-- The same hash input from a real route. -/
def realRoute : RelayConfig where
  defaultUpstream := "https://api.openai.com/".toList
  routes := Std.ExtTreeMap.ofList
    [("gpt-".toList, ProviderConfig.mk "https://api.openai.com".toList (some "/v2".toList))]
  allowedUpstreams := ["https://api.openai.com".toList]
  releaseArtifactDigest := some ("sha256:".toList ++ List.replicate 64 'a')
  upstreamTlsLeafSha256 := Std.ExtTreeMap.ofList
    [("https://api.openai.com".toList, ["sha256:".toList ++ List.replicate 64 'f'])]

theorem smuggledDefault_validate : smuggledDefault.validate plainUrlParser = .ok () := by
  decide +kernel

theorem realRoute_validate : realRoute.validate plainUrlParser = .ok () := by
  decide +kernel

theorem smuggledDefault_preimage_eq :
    smuggledDefault.configHashPreimage plainUrlParser =
      realRoute.configHashPreimage plainUrlParser := by
  decide +kernel

theorem smuggledDefault_realRoute_agree :
    smuggledDefault.hashedDigest = realRoute.hashedDigest ∧
      normalizeUpstreamTlsPins plainUrlParser smuggledDefault.upstreamTlsLeafSha256 =
        normalizeUpstreamTlsPins plainUrlParser realRoute.upstreamTlsLeafSha256 := by
  obtain ⟨-, -, hdigest, -, hpins, -, -⟩ := configHashPreimage_inj plainUrlParser smuggledDefault
    realRoute smuggledDefault_validate realRoute_validate smuggledDefault_preimage_eq
  exact ⟨hdigest, hpins⟩

/-! ### The upstream description -/

/-- A tag at the start of a line, as a field can imitate it. -/
def upstreamMarks : List Text := ['\n' :: routeTag, '\n' :: allowedTag]

/-- No field of the upstream description holds the delimiters around it. -/
structure DelimiterFree (c : RelayConfig) : Prop where
  default_free : Free upstreamMarks c.defaultUpstream
  prefix_free : ∀ r ∈ c.routes.toList, Free upstreamMarks r.1 ∧ Free [['=', '>']] r.1
  base_free : ∀ r ∈ c.routes.toList, Free upstreamMarks r.2.baseUrl ∧ Free [pathTag] r.2.baseUrl
  path_free : ∀ r ∈ c.routes.toList, ∀ path ∈ r.2.path, Free upstreamMarks path
  allowed_free : ∀ a ∈ c.allowedUpstreams, Free upstreamMarks a

theorem isMark_upstreamMarks : ∀ m ∈ upstreamMarks, IsMark '\n' m := by
  intro m hm
  simp only [upstreamMarks, List.mem_cons, List.not_mem_nil, or_false] at hm
  rcases hm with rfl | rfl
  · exact ⟨routeTag, rfl, by decide⟩
  · exact ⟨allowedTag, rfl, by decide⟩

theorem upstreamMarks_prefix_free :
    ∀ m ∈ upstreamMarks, ∀ m' ∈ upstreamMarks, m <+: m' → m = m' := by
  intro m hm m' hm' h
  simp only [upstreamMarks, List.mem_cons, List.not_mem_nil, or_false] at hm hm'
  rcases hm with rfl | rfl <;> rcases hm' with rfl | rfl <;> revert h <;> decide

theorem free_routeBody {c : RelayConfig} (hc : c.DelimiterFree) {r : Text × ProviderConfig}
    (hr : r ∈ c.routes.toList) : Free upstreamMarks (routeBody r) := by
  have harrow : ∀ m ∈ upstreamMarks, '=' ∉ m := by
    intro m hm
    simp only [upstreamMarks, List.mem_cons, List.not_mem_nil, or_false] at hm
    rcases hm with rfl | rfl <;> decide
  have hbar : ∀ m ∈ upstreamMarks, '|' ∉ m := by
    intro m hm
    simp only [upstreamMarks, List.mem_cons, List.not_mem_nil, or_false] at hm
    rcases hm with rfl | rfl <;> decide
  have htarget : Free upstreamMarks (r.2.baseUrl ++ pathPart r.2.path) := by
    cases hpath : r.2.path with
    | none => simpa [pathPart] using (hc.base_free r hr).1
    | some path =>
      have hcolon : '\n' ∉ "path:".toList := by decide
      exact Free.append_sep isMark_upstreamMarks (hc.base_free r hr).1
        (hc.path_free r hr path hpath) hbar hcolon
  have hgt : '\n' ∉ ['>'] := by decide
  exact Free.append_sep isMark_upstreamMarks (hc.prefix_free r hr).1 htarget harrow hgt

theorem pathPart_injective : Function.Injective pathPart := by
  have hne : ∀ path, pathPart (some path) ≠ [] := by
    intro path hnil
    exact absurd (List.append_eq_nil_iff.mp hnil).1 (by decide)
  intro p p' h
  cases p with
  | none =>
    cases p' with
    | none => rfl
    | some path' => exact absurd h.symm (hne path')
  | some path =>
    cases p' with
    | none => exact absurd h (hne path)
    | some path' => exact congrArg some (List.append_cancel_left h)

/-- A route is its prefix, up to the first `=>`, its base URL, up to the first `|path:`, and its
path. -/
theorem routeBody_inj {r r' : Text × ProviderConfig} (hp : Free [['=', '>']] r.1)
    (hp' : Free [['=', '>']] r'.1) (hb : Free [pathTag] r.2.baseUrl)
    (hb' : Free [pathTag] r'.2.baseUrl) (h : routeBody r = routeBody r') : r = r' := by
  have harrow : ∀ m ∈ [['=', '>']], IsMark '=' m := by
    intro m hm
    obtain rfl := List.mem_singleton.mp hm
    exact ⟨['>'], rfl, by decide⟩
  have hpath : ∀ m ∈ [pathTag], IsMark '|' m := by
    intro m hm
    obtain rfl := List.mem_singleton.mp hm
    exact ⟨"path:".toList, rfl, by decide⟩
  have hopens : ∀ p : Option Text, Opens [pathTag] (pathPart p) := by
    intro p
    cases p with
    | none => exact opens_nil _
    | some path => exact opens_append (List.mem_singleton_self _) path
  obtain ⟨hkey, hrest⟩ := append_inj_of_free harrow hp hp'
    (opens_append (List.mem_singleton_self _) (r.2.baseUrl ++ pathPart r.2.path))
    (opens_append (List.mem_singleton_self _) (r'.2.baseUrl ++ pathPart r'.2.path)) h
  obtain ⟨hbase, hpart⟩ := append_inj_of_free hpath hb hb' (hopens _) (hopens _)
    (List.append_cancel_left hrest)
  have hpaths := pathPart_injective hpart
  refine Prod.ext hkey ?_
  cases hr : r.2
  cases hr' : r'.2
  rw [hr, hr'] at hbase hpaths
  rw [ProviderConfig.mk.injEq]
  exact ⟨hbase, hpaths⟩

/-- The tagged fields behind the default upstream. -/
def upstreamItems (c : RelayConfig) : List (Text × Text) :=
  c.routes.toList.map (fun r => (routeTag, routeBody r)) ++
    c.sortedAllowed.map fun a => (allowedTag, a)

theorem upstreamLines_eq (c : RelayConfig) :
    c.upstreamLines =
      (defaultTag ++ c.defaultUpstream) :: c.upstreamItems.map fun i => i.1 ++ i.2 := by
  simp [upstreamLines, upstreamItems, Function.comp_def]

/-- The fields of the upstream description are read back when they hold no delimiter. -/
theorem upstream_eq_of_unlines_eq {c c' : RelayConfig} (hc : c.DelimiterFree)
    (hc' : c'.DelimiterFree) (h : unlines '\n' c.upstreamLines = unlines '\n' c'.upstreamLines) :
    c.defaultUpstream = c'.defaultUpstream ∧ c.routes = c'.routes ∧
      c.sortedAllowed = c'.sortedAllowed := by
  have hitem : ∀ {d : RelayConfig}, d.DelimiterFree →
      ∀ i ∈ d.upstreamItems.map (fun i => ('\n' :: i.1, i.2)),
        i.1 ∈ upstreamMarks ∧ Free upstreamMarks i.2 := by
    intro d hd i hi
    simp only [upstreamItems, List.map_append, List.map_map, List.mem_append, List.mem_map,
      Function.comp_apply] at hi
    rcases hi with ⟨r, hr, rfl⟩ | ⟨a, ha, rfl⟩
    · exact ⟨by simp [upstreamMarks], free_routeBody hd hr⟩
    · exact ⟨by simp [upstreamMarks], hd.allowed_free a ((List.mem_insertionSort _).mp ha)⟩
  rw [upstreamLines_eq, upstreamLines_eq, unlines_cons_map_eq, unlines_cons_map_eq] at h
  have hbody := List.append_cancel_right h
  rw [List.append_assoc, List.append_assoc] at hbody
  obtain ⟨hdefault, hitems⟩ := append_tagged_inj isMark_upstreamMarks upstreamMarks_prefix_free
    hc.default_free hc'.default_free (hitem hc) (hitem hc') (List.append_cancel_left hbody)
  have hitems' : c.upstreamItems = c'.upstreamItems :=
    map_inj_of_mem (fun i _ i' _ heq => by simpa [Prod.ext_iff] using heq) hitems
  have hne : routeTag ≠ allowedTag := by decide
  have hroutes := congrArg (List.filter (·.1 == routeTag)) hitems'
  have hallowed := congrArg (List.filter (·.1 == allowedTag)) hitems'
  simp only [upstreamItems, List.filter_append, List.filter_map, Function.comp_def, beq_self_eq_true,
    beq_eq_false_iff_ne.mpr hne, beq_eq_false_iff_ne.mpr hne.symm, List.filter_true,
    List.filter_false, List.map_nil, List.append_nil, List.nil_append] at hroutes hallowed
  refine ⟨hdefault, ?_, ?_⟩
  · refine Std.ExtTreeMap.toList_inj.mp (map_inj_of_mem (fun r hr r' hr' heq => ?_) hroutes)
    exact routeBody_inj (hc.prefix_free r hr).2 (hc'.prefix_free r' hr').2 (hc.base_free r hr).2
      (hc'.base_free r' hr').2 (Prod.ext_iff.mp heq).2
  · exact map_inj_of_mem (fun a _ a' _ heq => (Prod.ext_iff.mp heq).2) hallowed

/-- Delimiter-free configurations with equal hash inputs route every model alike and allow the
same upstreams. -/
theorem upstreamPolicy_eq_of_delimiterFree (P : UrlParser) (c c' : RelayConfig)
    (hc : c.validate P = .ok ()) (hc' : c'.validate P = .ok ()) (hd : c.DelimiterFree)
    (hd' : c'.DelimiterFree) (h : c.configHashPreimage P = c'.configHashPreimage P) :
    (∀ model, c.resolveUpstream model = c'.resolveUpstream model) ∧
      ∀ u, c.checkUpstreamAllowed P u = .ok () ↔ c'.checkUpstreamAllowed P u = .ok () := by
  obtain ⟨-, hupstream, -⟩ := segments_eq_of_preimage_eq hc hc' h
  obtain ⟨hdefault, hroutes, hallowed⟩ := upstream_eq_of_unlines_eq hd hd' hupstream
  have hperm : c.allowedUpstreams.Perm c'.allowedUpstreams := by
    have hsorted : ∀ d : RelayConfig, d.sortedAllowed.Perm d.allowedUpstreams :=
      fun d => List.perm_insertionSort _ d.allowedUpstreams
    exact (hsorted c).symm.trans (hallowed ▸ hsorted c')
  constructor
  · intro model
    simp only [resolveUpstream, sortedRoutes, hroutes, hdefault]
  · intro u
    have hnil : c.allowedUpstreams = [] ↔ c'.allowedUpstreams = [] := by
      rw [← List.length_eq_zero_iff, hperm.length_eq, List.length_eq_zero_iff]
    simp only [checkUpstreamAllowed_eq_ok_iff, AllowedOrigin, hnil, hperm.mem_iff]

def twoAllowed (allowed : List Text) : RelayConfig := { realRoute with allowedUpstreams := allowed }

/-- The order of the allowlist is not hashed. -/
theorem twoAllowed_policy_eq :
    (twoAllowed ["https://api.openai.com".toList, "https://a.example".toList]).resolveUpstream
        "gpt-4".toList =
      (twoAllowed ["https://a.example".toList, "https://api.openai.com".toList]).resolveUpstream
        "gpt-4".toList ∧
    ((twoAllowed ["https://api.openai.com".toList, "https://a.example".toList]).checkUpstreamAllowed
        plainUrlParser "https://a.example/v1".toList = .ok () ↔
      (twoAllowed ["https://a.example".toList, "https://api.openai.com".toList]).checkUpstreamAllowed
        plainUrlParser "https://a.example/v1".toList = .ok ()) := by
  have hroutes : realRoute.routes.toList =
      [("gpt-".toList, ProviderConfig.mk "https://api.openai.com".toList (some "/v2".toList))] := by
    decide
  have hfree : ∀ allowed : List Text, (∀ a ∈ allowed, Free upstreamMarks a) →
      (twoAllowed allowed).DelimiterFree := by
    intro allowed hallowed
    refine ⟨?_, ?_, ?_, ?_, hallowed⟩ <;> simp only [twoAllowed, hroutes] <;> decide
  obtain ⟨hroute, hallow⟩ := upstreamPolicy_eq_of_delimiterFree plainUrlParser
    (twoAllowed ["https://api.openai.com".toList, "https://a.example".toList])
    (twoAllowed ["https://a.example".toList, "https://api.openai.com".toList])
    (by decide +kernel) (by decide +kernel) (hfree _ (by decide)) (hfree _ (by decide))
    (by decide +kernel)
  exact ⟨hroute _, hallow _⟩

/-- A smuggled route line: the hash inputs are equal, the routing of `gpt-4` is not. -/
theorem smuggledDefault_collides :
    smuggledDefault.validate plainUrlParser = .ok () ∧ realRoute.validate plainUrlParser = .ok () ∧
      smuggledDefault.configHashPreimage plainUrlParser =
        realRoute.configHashPreimage plainUrlParser ∧
      smuggledDefault.resolveUpstream "gpt-4".toList ≠
        realRoute.resolveUpstream "gpt-4".toList := by
  refine ⟨smuggledDefault_validate, realRoute_validate, smuggledDefault_preimage_eq, ?_⟩
  decide +kernel

end RelayConfig

end TrustedRelay
