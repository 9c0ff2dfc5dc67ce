import TrustedRelay.Core.TlsPins

/-!
# Pins at the handshake

The verifier that the upstream client is built with asks the WebPKI delegate first and then looks
the server name up in the map by host; a name that is not in the map needs no pin. The map is
keyed by `Url::host_str`, the lookup is made with `ServerName::to_str`. For names and IPv4
addresses the two agree. An IPv6 address is filed in brackets and looked up without them, so its
pins are never consulted: `pins_enforced_iff`.
-/

namespace TrustedRelay

/-- The name that a TLS client verifies the server against. -/
inductive ServerName
  | dnsName (name : Text)
  | ipAddress (address : Host)
deriving DecidableEq

/-- How the TLS library prints addresses: IPv4 in dotted decimal, IPv6 without brackets. -/
structure IpDisplay where
  display : Host → Text
  display_ipv4 : ∀ h, h.kind = .ipv4 → display h = h.text
  display_ipv6 : ∀ h, h.kind = .ipv6 → ':' ∈ display h ∧ '[' ∉ display h

/-- The server name of a URL's host, as the HTTP client makes it. -/
def serverName (h : Host) : ServerName :=
  if h.kind = .domain then .dnsName h.text else .ipAddress h

section Pinning

variable (D : IpDisplay)

/-- `ServerName::to_str`. -/
def ServerName.toStr : ServerName → Text
  | .dnsName name => name
  | .ipAddress address => D.display address

/-- `sha256:` and the digest of the certificate in hex. -/
def leafSha256Pin (sha256 : Bytes → ByteArr 32) (certDer : Bytes) : Text :=
  "sha256:".toList ++ hexEncode (sha256 certDer).1

/-- `PinnedServerCertVerifier`, over any WebPKI delegate. -/
structure PinnedServerCertVerifier where
  delegate : Bytes → List Bytes → ServerName → Bytes → ℕ → Except Text Unit
  pinsByHost : BTreeMap (List Text)

/-- The delegate's checks, then the pin of the leaf if the host has pins. -/
def PinnedServerCertVerifier.verifyServerCert (sha256 : Bytes → ByteArr 32)
    (V : PinnedServerCertVerifier) (endEntity : Bytes) (intermediates : List Bytes)
    (name : ServerName) (ocspResponse : Bytes) (now : ℕ) : Except Text Unit := do
  V.delegate endEntity intermediates name ocspResponse now
  let host := Text.toAsciiLowercase (name.toStr D)
  match V.pinsByHost[host]? with
  | none => .ok ()
  | some expectedPins =>
    let actual := leafSha256Pin sha256 endEntity
    ensure (actual ∈ expectedPins)
      ("upstream TLS leaf certificate pin mismatch for ".toList ++ host ++ ": got ".toList ++
        actual)

theorem PinnedServerCertVerifier.verifyServerCert_eq_ok_iff {sha256 : Bytes → ByteArr 32}
    {V : PinnedServerCertVerifier} {endEntity : Bytes} {intermediates : List Bytes}
    {name : ServerName} {ocspResponse : Bytes} {now : ℕ} :
    V.verifyServerCert D sha256 endEntity intermediates name ocspResponse now = .ok () ↔
      V.delegate endEntity intermediates name ocspResponse now = .ok () ∧
        ∀ expected, V.pinsByHost[Text.toAsciiLowercase (name.toStr D)]? = some expected →
          leafSha256Pin sha256 endEntity ∈ expected := by
  rw [verifyServerCert, Except.unit_bind_eq_ok_iff]
  cases hget : V.pinsByHost[Text.toAsciiLowercase (name.toStr D)]? <;> simp [hget]

/-! ### Lookups -/

/-- For names and IPv4 addresses the TLS library prints what the URL library prints. -/
theorem toStr_serverName {h : Host} (hk : h.kind ≠ .ipv6) :
    Text.toAsciiLowercase ((serverName h).toStr D) = h.hostStr := by
  have hstr : h.hostStr = h.text := if_neg hk
  have hprint : (serverName h).toStr D = h.text := by
    unfold serverName
    split_ifs with hd
    · rfl
    · cases hkind : h.kind with
      | domain => exact absurd hkind hd
      | ipv4 => exact D.display_ipv4 h hkind
      | ipv6 => exact absurd hkind hk
  rw [hprint, ← hstr, h.toAsciiLowercase_hostStr]

/-- An IPv6 address is not looked up under any printed host. -/
theorem toStr_serverName_ne_hostStr {h : Host} (hk : h.kind = .ipv6) (h' : Host) :
    Text.toAsciiLowercase ((serverName h).toStr D) ≠ h'.hostStr := by
  have hprint : (serverName h).toStr D = D.display h := by
    simp [serverName, hk, ServerName.toStr]
  obtain ⟨hcolon, hbracket⟩ := D.display_ipv6 h hk
  rw [hprint]
  intro heq
  by_cases hk' : h'.kind = .ipv6
  · have hmem : '[' ∈ Text.toAsciiLowercase (D.display h) := by
      rw [heq, Host.hostStr, if_pos hk']
      exact List.mem_cons_self
    exact hbracket (Text.mem_of_mem_toAsciiLowercase (by decide) hmem)
  · have hmem : ':' ∈ h'.text := by
      have hlow : ':' ∈ Text.toAsciiLowercase (D.display h) := List.mem_map.mpr ⟨':', hcolon, rfl⟩
      rwa [heq, Host.hostStr, if_neg hk'] at hlow
    have hchar := h'.chars _ hmem
    cases hkind : h'.kind with
    | domain => rw [hkind] at hchar; exact absurd hchar (by decide)
    | ipv4 => rw [hkind] at hchar; exact absurd hchar (by decide)
    | ipv6 => exact hk' hkind

variable (P : UrlParser)

/-- The leaf is pinned for some origin of the host. -/
def RelayConfig.PinnedFor (c : RelayConfig) (host : Host) (pin : Text) : Prop :=
  ∃ N, normalizeUpstreamTlsPins P c.upstreamTlsLeafSha256 = .ok N ∧ ∃ origin pins u,
    N[origin]? = some pins ∧ Url.parse P origin = some u ∧ u.host = some host ∧ pin ∈ pins

/-- Printed hosts determine the host that was parsed. -/
theorem host_eq_of_hostStr_eq {raw raw' : Text} {u u' : Url} {h h' : Host}
    (hu : Url.parse P raw = some u) (hs : Url.isHttpScheme u.scheme = true) (hh : u.host = some h)
    (hu' : Url.parse P raw' = some u') (hs' : Url.isHttpScheme u'.scheme = true)
    (hh' : u'.host = some h') (heq : h.hostStr = h'.hostStr) : h = h' := by
  obtain ⟨⟨t, host, ht, hhost⟩, -⟩ := Url.parse_eq_some P hu hs
  obtain ⟨⟨t', host', ht', hhost'⟩, -⟩ := Url.parse_eq_some P hu' hs'
  obtain rfl : host = h := Option.some.inj (hhost.symm.trans hh)
  obtain rfl : host' = h' := Option.some.inj (hhost'.symm.trans hh')
  have hself := P.hostParse_hostStr t host ht
  rw [heq, P.hostParse_hostStr t' host' ht'] at hself
  exact (Option.some.inj hself).symm

/-- A normalised origin parses, and is filed under its own host. -/
theorem pinHost_of_mem {raw N : BTreeMap (List Text)} (hN : normalizeUpstreamTlsPins P raw = .ok N)
    {e : Text × List Text} (he : e ∈ N.toList) :
    ∃ u h, Url.parse P e.1 = some u ∧ Url.isHttpScheme u.scheme = true ∧ u.host = some h ∧
      pinHost P e.1 = some h.hostStr := by
  rw [Std.ExtTreeMap.mem_toList_iff_getElem?_eq_some] at he
  obtain ⟨entry, -, hentry⟩ := normalizeUpstreamTlsPins_getElem P hN he
  obtain ⟨horigin, ⟨v, hv, hscheme⟩, -⟩ := normalizePinEntry_eq_ok P hentry
  have hs : Url.isHttpScheme v.scheme = true := by
    rw [hscheme]
    decide
  obtain ⟨⟨-, h, -, hhost⟩, -⟩ := Url.parse_eq_some P hv hs
  obtain ⟨u, hu, husch, huhost⟩ := parse_urlOrigin P horigin hv
  exact ⟨u, h, hu, husch ▸ hs, huhost.trans hhost, pinHost_urlOrigin P horigin hv hhost⟩

/-- The lookup of a name or an IPv4 address finds the pins of its origins. -/
theorem pinnedFor_of_mem_byHost {c : RelayConfig} {byHost : BTreeMap (List Text)} {raw : Text}
    {u : Url} {host : Host} (hhosts : c.upstreamTlsPinHosts P = .ok byHost)
    (hu : Url.parse P raw = some u) (hs : Url.isHttpScheme u.scheme = true)
    (hhost : u.host = some host) {pins : List Text} (hpins : byHost[host.hostStr]? = some pins)
    {pin : Text} (hpin : pin ∈ pins) : c.PinnedFor P host pin := by
  obtain ⟨N, hN, hby⟩ := upstreamTlsPinHosts_eq_ok P hhosts
  obtain ⟨e, he, hfiled, hmem⟩ := ((hby host.hostStr).2 pins hpins pin).mp hpin
  obtain ⟨v, h, hv, hvs, hvhost, hvfiled⟩ := pinHost_of_mem P hN he
  have hstr : h.hostStr = host.hostStr := Option.some.inj (hvfiled.symm.trans hfiled)
  have hsame : h = host := host_eq_of_hostStr_eq P hv hvs hvhost hu hs hhost hstr
  refine ⟨N, hN, e.1, e.2, v, ?_, hv, hsame ▸ hvhost, hmem⟩
  exact Std.ExtTreeMap.mem_toList_iff_getElem?_eq_some.mp he

/-- The pins of an upstream are enforced exactly when its host is not an IPv6 address, or nothing
is excluded by them. -/
theorem pins_enforced_iff (sha256 : Bytes → ByteArr 32) (c : RelayConfig)
    (byHost : BTreeMap (List Text)) (raw : Text) (u : Url) (host : Host) (pins : List Text)
    (hhosts : c.upstreamTlsPinHosts P = .ok byHost)
    (hpins : c.upstreamTlsPinsFor P raw = .ok (some pins)) (hu : Url.parse P raw = some u)
    (hhost : u.host = some host) :
    (∀ delegate leaf intermediates ocspResponse now,
      (PinnedServerCertVerifier.mk delegate byHost).verifyServerCert D sha256 leaf intermediates
          (serverName host) ocspResponse now = .ok () →
        delegate leaf intermediates (serverName host) ocspResponse now = .ok () ∧
          c.PinnedFor P host (leafSha256Pin sha256 leaf)) ↔
      host.kind ≠ .ipv6 ∨ ∀ leaf, c.PinnedFor P host (leafSha256Pin sha256 leaf) := by
  obtain ⟨N, hN, hby⟩ := upstreamTlsPinHosts_eq_ok P hhosts
  simp only [RelayConfig.upstreamTlsPinsFor, Except.bind_eq_ok_iff, okOr_eq_ok_iff,
    Except.ok.injEq] at hpins
  obtain ⟨N', hN', o, ho, hget⟩ := hpins
  obtain rfl : N' = N := Except.ok.inj (hN'.symm.trans hN)
  have hs : Url.isHttpScheme u.scheme = true := by
    obtain ⟨v, hv, hvo⟩ := Option.bind_eq_some_iff.mp ho
    obtain rfl : v = u := Option.some.inj (hv.symm.trans hu)
    exact isHttpScheme_of_origin hvo
  constructor
  · intro h
    by_cases hk : host.kind = .ipv6
    · -- no host is filed under the printed address, so the lookup misses
      refine Or.inr fun leaf => ?_
      have hmiss : byHost[Text.toAsciiLowercase ((serverName host).toStr D)]? = none := by
        rw [← Option.not_isSome_iff_eq_none, (hby _).1]
        rintro ⟨e, he, hfiled⟩
        obtain ⟨-, h', -, -, -, hfiled'⟩ := pinHost_of_mem P hN he
        exact toStr_serverName_ne_hostStr D hk h' (Option.some.inj (hfiled.symm.trans hfiled'))
      refine (h (fun _ _ _ _ _ => .ok ()) leaf [] [] 0 ?_).2
      rw [PinnedServerCertVerifier.verifyServerCert_eq_ok_iff]
      exact ⟨rfl, fun expected hexpected => by rw [hmiss] at hexpected; simp at hexpected⟩
    · exact Or.inl hk
  · rintro hcond delegate leaf intermediates ocspResponse now hverify
    rw [PinnedServerCertVerifier.verifyServerCert_eq_ok_iff] at hverify
    obtain ⟨hdelegate, hlookup⟩ := hverify
    refine ⟨hdelegate, ?_⟩
    rcases hcond with hk | hall
    · rw [toStr_serverName D hk] at hlookup
      have hfiled : pinHost P o = some host.hostStr := pinHost_urlOrigin P ho hu hhost
      have hthere := (hby host.hostStr).1.mpr
        ⟨(o, pins), Std.ExtTreeMap.mem_toList_iff_getElem?_eq_some.mpr hget, hfiled⟩
      obtain ⟨expected, hexpected⟩ := Option.isSome_iff_exists.mp hthere
      exact pinnedFor_of_mem_byHost P hhosts hu hs hhost hexpected (hlookup expected hexpected)
    · exact hall leaf

end Pinning

/-- Addresses as the URL library prints them, less the brackets. -/
def plainDisplay : IpDisplay where
  display := Host.text
  display_ipv4 := fun _ _ => rfl
  display_ipv6 := fun h hk => ⟨h.colon hk, fun hb => by
    have hchar := h.chars _ hb
    rw [HostKind.isChar_eq_false_of_mem h.kind _ (by simp)] at hchar
    exact absurd hchar (by decide)⟩

/-- The SHA-256 digest of the empty string, for every input. -/
def emptyDigest : Bytes → ByteArr 32 := fun _ =>
  ⟨[0xe3, 0xb0, 0xc4, 0x42, 0x98, 0xfc, 0x1c, 0x14, 0x9a, 0xfb, 0xf4, 0xc8, 0x99, 0x6f, 0xb9, 0x24,
    0x27, 0xae, 0x41, 0xe4, 0x64, 0x9b, 0x93, 0x4c, 0xa4, 0x95, 0x99, 0x1b, 0x78, 0x52, 0xb8, 0x55],
    rfl⟩

def pinnedConfig (origin : String) : RelayConfig where
  upstreamTlsLeafSha256 := Std.ExtTreeMap.ofList [(origin.toList, [List.replicate 64 'a'])]

def hostPinned (host : String) : BTreeMap (List Text) :=
  Std.ExtTreeMap.ofList [(host.toList, ["sha256:".toList ++ List.replicate 64 'a'])]

def openaiHost : Host := (Host.ofText .domain "api.openai.com".toList).get (by decide)

def loopbackHost : Host := (Host.ofText .ipv6 "::1".toList).get (by decide)

def emptyPin : Text := hexEncode (emptyDigest []).1

/-- The pin of the certificate that `emptyDigest` gives to all of them. -/
def emptyPinned : RelayConfig where
  upstreamTlsLeafSha256 := Std.ExtTreeMap.ofList [("https://api.openai.com".toList, [emptyPin])]

def emptyPinnedHosts : BTreeMap (List Text) :=
  Std.ExtTreeMap.ofList [("api.openai.com".toList, ["sha256:".toList ++ emptyPin])]

/-- An accepted certificate has the pin of its host. -/
theorem openaiHost_pins_enforced :
    (PinnedServerCertVerifier.mk (fun _ _ _ _ _ => .ok ()) emptyPinnedHosts).verifyServerCert
        plainDisplay emptyDigest [] [] (serverName openaiHost) [] 0 = .ok () ∧
      emptyPinned.PinnedFor plainUrlParser openaiHost (leafSha256Pin emptyDigest []) := by
  have haccepted :
      (PinnedServerCertVerifier.mk (fun _ _ _ _ _ => .ok ()) emptyPinnedHosts).verifyServerCert
      plainDisplay emptyDigest [] [] (serverName openaiHost) [] 0 = .ok () := by decide
  have henforced := (pins_enforced_iff plainDisplay plainUrlParser emptyDigest emptyPinned
    emptyPinnedHosts "https://API.openai.com:443/v1".toList
    ⟨"https".toList, [], none, some openaiHost, none⟩ openaiHost ["sha256:".toList ++ emptyPin]
    (by decide) (by decide) (by decide) rfl).mpr (Or.inl (by decide))
  exact ⟨haccepted, (henforced _ _ _ _ _ haccepted).2⟩

/-- The pin of an IPv6 upstream is configured and not enforced. -/
theorem loopbackHost_pins_skipped :
    (pinnedConfig "https://[::1]").upstreamTlsPinHosts plainUrlParser = .ok (hostPinned "[::1]") ∧
      (pinnedConfig "https://[::1]").upstreamTlsPinsFor plainUrlParser "https://[::1]/v1".toList =
        .ok (some ["sha256:".toList ++ List.replicate 64 'a']) ∧
      Url.parse plainUrlParser "https://[::1]/v1".toList =
        some ⟨"https".toList, [], none, some loopbackHost, none⟩ ∧
      (PinnedServerCertVerifier.mk (fun _ _ _ _ _ => .ok ()) (hostPinned "[::1]")).verifyServerCert
        plainDisplay emptyDigest [] [] (serverName loopbackHost) [] 0 = .ok () ∧
      ¬(pinnedConfig "https://[::1]").PinnedFor plainUrlParser loopbackHost
        (leafSha256Pin emptyDigest []) := by
  refine ⟨by decide, by decide, by decide, by decide, ?_⟩
  rintro ⟨N, hN, origin, pins, u, hget, -, -, hpin⟩
  obtain ⟨entry, hmem, hentry⟩ := normalizeUpstreamTlsPins_getElem plainUrlParser hN hget
  obtain ⟨-, -, -, -, hpins⟩ := normalizePinEntry_eq_ok plainUrlParser hentry
  obtain ⟨value, hvalue, hnormal⟩ := (hpins _).mp hpin
  have hraw : (pinnedConfig "https://[::1]").upstreamTlsLeafSha256.toList =
      [("https://[::1]".toList, [List.replicate 64 'a'])] := by decide
  rw [hraw, List.mem_singleton] at hmem
  rw [hmem, List.mem_singleton] at hvalue
  rw [hvalue] at hnormal
  exact absurd hnormal (by decide)

end TrustedRelay
