import TrustedRelay.Core.Config

/-!
# Origins as strings

`url_origin` prints an origin, and the pin maps and `config_hash` use the printed form. This
file says what an origin string looks like (`urlOrigin_eq_some`), which characters it cannot
hold (`not_mem_urlOrigin`), and that parsing it again yields the host and the port it was
printed from (`parse_urlOrigin`).
-/

namespace TrustedRelay

section Origin

variable (P : UrlParser)

/-- Only `https` URLs and local `http` URLs have an origin. -/
theorem isHttpScheme_of_origin {u : Url} {o : Text} (h : u.origin = some o) :
    Url.isHttpScheme u.scheme = true := by
  unfold Url.origin at h
  split_ifs at h with hs
  by_cases hhttps : u.scheme = "https".toList
  · rw [hhttps]
    decide
  · have hlocal : isLocalHttpUrl u = true := by
      by_contra hl
      exact hs ⟨hhttps, by simpa using hl⟩
    simp only [isLocalHttpUrl, Bool.and_eq_true, beq_iff_eq] at hlocal
    rw [hlocal.1]
    decide

/-- An origin is printed from the scheme, the host and the port of a parsed URL. -/
theorem urlOrigin_eq_some {raw o : Text} (h : urlOrigin P raw = some o) :
    ∃ u host port, Url.parse P raw = some u ∧ Url.isHttpScheme u.scheme = true ∧
      (∃ t, P.hostParse t = some host) ∧ u.host = some host ∧
      u.portOrKnownDefault = some port ∧ port ≤ 65535 ∧
      o = u.scheme ++ "://".toList ++ host.hostStr ++ ":".toList ++ Text.decimal port := by
  obtain ⟨u, hu, ho⟩ := Option.bind_eq_some_iff.mp h
  have hs := isHttpScheme_of_origin ho
  obtain ⟨⟨t, host, hparse, hhost⟩, hport⟩ := Url.parse_eq_some P hu hs
  unfold Url.origin at ho
  split_ifs at ho
  simp only [Url.hostStr, hhost, Option.map_some, Option.bind_eq_bind, Option.bind_some,
    Option.bind_eq_some_iff, Option.some.injEq, Host.toAsciiLowercase_hostStr] at ho
  obtain ⟨port, hpd, rfl⟩ := ho
  refine ⟨u, host, port, hu, hs, ⟨t, hparse⟩, hhost, hpd, ?_, rfl⟩
  cases hup : u.port with
  | none =>
    simp only [Url.portOrKnownDefault, hup, Option.none_or, Url.defaultPort] at hpd
    split_ifs at hpd <;> cases hpd <;> decide
  | some n =>
    simp only [Url.portOrKnownDefault, hup, Option.some_or, Option.some.injEq] at hpd
    exact hpd ▸ hport n hup

/-- An origin string holds no line break and no `>`. -/
theorem not_mem_urlOrigin {raw o : Text} (h : urlOrigin P raw = some o) : '\n' ∉ o ∧ '>' ∉ o := by
  obtain ⟨u, host, port, -, hs, -, -, -, -, rfl⟩ := urlOrigin_eq_some P h
  have key : ∀ c ∈ hostFreeChars, c ∉ u.scheme ++ "://".toList →
      c ∉ u.scheme ++ "://".toList ++ host.hostStr ++ ":".toList ++ Text.decimal port := by
    intro c hc hsch hmem
    have hmem' : c ∈ u.scheme ++ "://".toList ∨ c ∈ host.hostStr ++ ':' :: Text.decimal port := by
      rw [← List.mem_append]
      simpa using hmem
    rcases hmem' with hm | hm
    · exact hsch hm
    · exact (Url.mem_hostport hm).2 hc
  simp only [Url.isHttpScheme, Bool.or_eq_true, beq_iff_eq] at hs
  constructor <;> refine key _ (by decide) ?_ <;> rcases hs with hs | hs <;> rw [hs] <;> decide

/-- Parsing an origin string yields the host and the port it was printed from. -/
theorem parse_urlOrigin {raw o : Text} {u : Url} (h : urlOrigin P raw = some o)
    (hu : Url.parse P raw = some u) :
    ∃ v, Url.parse P o = some v ∧ v.scheme = u.scheme ∧ v.host = u.host := by
  obtain ⟨u', host, port, hu', hs, ⟨t, ht⟩, hhost, -, hport, rfl⟩ := urlOrigin_eq_some P h
  obtain rfl : u = u' := Option.some.inj (hu.symm.trans hu')
  exact ⟨_, Url.parse_printed P hs ht hport, rfl, hhost.symm⟩

end Origin

end TrustedRelay
