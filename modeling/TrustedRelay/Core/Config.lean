import TrustedRelay.Rust.Outcome
import TrustedRelay.Url.Parse

/-!
# Relay configuration

The configuration of the relay: routing by model prefix, the allowlist of upstream origins, the
TLS leaf pins and the runtime choices, with the checks made at start-up. `usize` is 64 bits
wide. Everything that reads a URL goes through the parser `P`.

`config_hash` is in `ConfigHash.lean`; here are the definitions it and the data plane share, and
one specification lemma for each of them: `validate_eq_ok_iff`, `checkUpstreamAllowed_isOk_iff`,
`resolveUpstream_mem`.
-/

namespace TrustedRelay

/-- Configuration for a single upstream provider. -/
structure ProviderConfig where
  baseUrl : Text
  path : Option Text
deriving DecidableEq

def defaultProviderAuthScheme : Text := "Bearer".toList

def defaultBodyLogPolicy : Text := "metadata-only".toList

/-- Runtime choices that are not upstream routes but that clients verify. -/
structure RuntimeConfig where
  allowClientProviderAuth : Bool := false
  privateAdminEnabled : Bool := false
  providerAuthScheme : Text := defaultProviderAuthScheme
  bodyLogPolicy : Text := defaultBodyLogPolicy
deriving DecidableEq

/-- Top-level configuration for the relay server. -/
structure RelayConfig where
  listenAddr : Text := "0.0.0.0:8443".toList
  runtime : RuntimeConfig := {}
  defaultUpstream : Text := "https://api.openai.com".toList
  routes : BTreeMap ProviderConfig := ∅
  allowedUpstreams : List Text := []
  maxRequestBytes : UInt64 := 1024 * 1024
  releaseArtifactDigest : Option Text := none
  upstreamTimeoutSecs : UInt64 := 120
  upstreamTlsLeafSha256 : BTreeMap (List Text) := ∅
deriving DecidableEq

/-! ### Runtime choices -/

def isHttpTchar (b : UInt8) : Bool :=
  isAsciiAlphanumeric b ||
    b ∈ ([33, 35, 36, 37, 38, 39, 42, 43, 45, 46, 94, 95, 96, 124, 126] : List UInt8)

def validateHttpToken (value field : Text) : Except Text Unit := do
  ensure (value ≠ []) (field ++ " must not be empty".toList)
  ensure ((Text.asBytes value).all isHttpTchar) (field ++ " must be a valid HTTP token".toList)

def RuntimeConfig.validate (r : RuntimeConfig) : Except Text Unit := do
  validateHttpToken r.providerAuthScheme "provider_auth_scheme".toList
  ensure (r.bodyLogPolicy = "metadata-only".toList)
    ("body_log_policy must be 'metadata-only', got '".toList ++ r.bodyLogPolicy ++ "'".toList)

/-! ### Digests and pins -/

def validateReleaseArtifactDigest (raw : Text) : Except Text Unit := do
  let digest := Text.trim raw
  let hex := ((Text.stripPrefix digest "sha256:".toList).or
    (Text.stripPrefix digest "SHA256:".toList)).getD digest
  ensure (Text.len hex = 64)
    ("release_artifact_digest must be a 32-byte sha256 hex digest, got ".toList ++
      Text.decimal (Text.len hex) ++ " hex chars".toList)
  ensure ((Text.asBytes hex).all isAsciiHexdigit) "release_artifact_digest must be hex".toList

def normalizeSha256Pin (raw : Text) : Option Text :=
  let pin := Text.toAsciiLowercase (Text.trim raw)
  let hex := (Text.stripPrefix pin "sha256:".toList).getD pin
  if Text.len hex = 64 ∧ (Text.asBytes hex).all isAsciiHexdigit then
    some ("sha256:".toList ++ hex)
  else none

/-! ### Origins -/

/-- The host test is made on `host_str`, which writes an IPv6 address in brackets. -/
def isLocalHttpUrl (parsed : Url) : Bool :=
  parsed.scheme == "http".toList &&
    parsed.hostStr.any fun host =>
      Text.toAsciiLowercase host ∈
        ["localhost".toList, "127.0.0.1".toList, "::1".toList]

/-- The origin of a parsed URL. Host strings are ASCII, where `to_lowercase` is the ASCII one. -/
def Url.origin (parsed : Url) : Option Text :=
  if parsed.scheme ≠ "https".toList ∧ isLocalHttpUrl parsed = false then none
  else if parsed.username ≠ [] ∨ parsed.password.isSome then none
  else do
    let host ← parsed.hostStr
    let port ← parsed.portOrKnownDefault
    some (parsed.scheme ++ "://".toList ++ Text.toAsciiLowercase host ++ ":".toList ++
      Text.decimal port)

section Config

variable (P : UrlParser)

/-- Extract the origin (scheme, host and port) from a URL string. -/
def urlOrigin (raw : Text) : Option Text := (Url.parse P raw).bind Url.origin

/-- One pin value: normalised, and kept once. -/
def pushPin (origin : Text) (pins : List Text) (value : Text) : Except Text (List Text) := do
  let pin ← okOr (normalizeSha256Pin value)
    ("upstream TLS pin for '".toList ++ origin ++ "' must be sha256:<64 hex>, got ".toList ++ value)
  .ok (if pin ∈ pins then pins else pins ++ [pin])

/-- One entry of the pin map. -/
def normalizePinEntry (origin : Text) (values : List Text) : Except Text (Text × List Text) := do
  let parsed ← okOr (Url.parse P origin)
    ("upstream TLS pin origin '".toList ++ origin ++ "' is not a valid URL".toList)
  ensure (parsed.scheme = "https".toList)
    ("upstream TLS pin origin '".toList ++ origin ++ "' must use https://".toList)
  let origin ← okOr (urlOrigin P origin)
    ("upstream TLS pin origin '".toList ++ origin ++ "' is not a valid HTTPS origin".toList)
  ensure (values ≠ [])
    ("upstream TLS pin origin '".toList ++ origin ++
      "' must include at least one sha256 pin".toList)
  let pins ← values.foldlM (pushPin origin) []
  .ok (origin, pins.insertionSort (· ≤ ·))

/-- The pin map keyed by origin. A later key of the same origin replaces an earlier one. -/
def normalizeUpstreamTlsPins (pins : BTreeMap (List Text)) :
    Except Text (BTreeMap (List Text)) :=
  pins.toList.foldlM (fun normalized entry => do
    let (origin, values) ← normalizePinEntry P entry.1 entry.2
    .ok (normalized.insert origin values)) ∅

namespace RelayConfig

variable (c : RelayConfig)

/-- The routes in the order they are tried: longest prefix first, stably. -/
def sortedRoutes : List (Text × ProviderConfig) :=
  c.routes.toList.insertionSort fun a b => Text.len b.1 ≤ Text.len a.1

/-- Resolve the upstream URL for a model name, with the path override if there is one. -/
def resolveUpstream (model : Text) : Text × Option Text :=
  match c.sortedRoutes.find? (fun r => Text.startsWith model r.1) with
  | some (_, config) => (config.baseUrl, config.path)
  | none => (c.defaultUpstream, none)

/-- Check a resolved upstream URL against the allowlist; an empty list allows everything. -/
def checkUpstreamAllowed (upstreamUrl : Text) : Except Text Unit :=
  if c.allowedUpstreams = [] then .ok ()
  else do
    let candidateOrigin ← okOr (urlOrigin P upstreamUrl)
      ("upstream URL '".toList ++ upstreamUrl ++
        "' is not a valid URL (cannot extract origin)".toList)
    ensure (c.allowedUpstreams.any fun allowed => urlOrigin P allowed == some candidateOrigin)
      ("upstream origin '".toList ++ candidateOrigin ++ "' (from '".toList ++ upstreamUrl ++
        "') is not in the allowed list: ".toList ++ debugStrs c.allowedUpstreams)

/-- Normalised pins for a resolved upstream origin, if configured. -/
def upstreamTlsPinsFor (upstreamUrl : Text) : Except Text (Option (List Text)) := do
  let pins ← normalizeUpstreamTlsPins P c.upstreamTlsLeafSha256
  let origin ← okOr (urlOrigin P upstreamUrl)
    ("upstream URL '".toList ++ upstreamUrl ++
      "' is not a valid URL (cannot extract origin)".toList)
  .ok pins[origin]?

/-- One origin's pins, added to the set of its host. -/
def addHostPins (byHost : BTreeMap (Std.ExtTreeSet Text)) (entry : Text × List Text) :
    Except Text (BTreeMap (Std.ExtTreeSet Text)) := do
  let parsed ← okOr (Url.parse P entry.1)
    ("normalized upstream TLS pin origin '".toList ++ entry.1 ++ "' is invalid".toList)
  let host ← okOr parsed.hostStr
    ("normalized upstream TLS pin origin '".toList ++ entry.1 ++ "' lacks host".toList)
  .ok (byHost.alter (Text.toAsciiLowercase host) fun pins =>
    some ((pins.getD ∅).insertMany entry.2))

/-- Normalised pins keyed by TLS server name: origins of one host share their pins. -/
def upstreamTlsPinHosts : Except Text (BTreeMap (List Text)) := do
  let pins ← normalizeUpstreamTlsPins P c.upstreamTlsLeafSha256
  let byHost ← pins.toList.foldlM (addHostPins P) ∅
  .ok (byHost.map fun _ pins => pins.toList)

/-- `map_err`: the reason is put behind a heading. -/
def withReason {α : Type} (heading : Text) : Except Text α → Except Text α
  | .ok a => .ok a
  | .error e => .error (heading ++ e)

/-- The digest, when one is configured, must be well formed. -/
def validateDigest : Except Text Unit :=
  match c.releaseArtifactDigest with
  | some digest => validateReleaseArtifactDigest digest
  | none => .ok ()

/-- With an allowlist, the default upstream and every route must be on it. -/
def validateUpstreams : Except Text Unit :=
  if c.allowedUpstreams = [] then .ok ()
  else do
    withReason "default upstream not allowed: ".toList (c.checkUpstreamAllowed P c.defaultUpstream)
    forM c.routes.toList fun route =>
      withReason ("route '".toList ++ route.1 ++ "' upstream not allowed: ".toList)
        (c.checkUpstreamAllowed P route.2.baseUrl)

/-- The start-up check: runtime choices, digest, pins, and every configured upstream. -/
def validate : Except Text Unit := do
  c.runtime.validate
  c.validateDigest
  let _ ← normalizeUpstreamTlsPins P c.upstreamTlsLeafSha256
  c.validateUpstreams P

/-! ### Specifications -/

@[simp] theorem withReason_eq_ok_iff {α : Type} {heading : Text} {x : Except Text α} {a : α} :
    withReason heading x = .ok a ↔ x = .ok a := by
  cases x <;> simp [withReason]

/-- The origin `o` is the origin of an allowlist entry. -/
def AllowedOrigin (o : Text) : Prop := ∃ a ∈ c.allowedUpstreams, urlOrigin P a = some o

/-- A URL passes the check when the list is empty or its origin is on it. -/
theorem checkUpstreamAllowed_eq_ok_iff (u : Text) :
    c.checkUpstreamAllowed P u = .ok () ↔
      c.allowedUpstreams = [] ∨ ∃ o, urlOrigin P u = some o ∧ c.AllowedOrigin P o := by
  unfold checkUpstreamAllowed
  split_ifs with h
  · exact iff_of_true rfl (Or.inl h)
  · simp [Except.bind_eq_ok_iff, AllowedOrigin, h]

theorem validateDigest_eq_ok_iff :
    c.validateDigest = .ok () ↔ ∀ digest, c.releaseArtifactDigest = some digest →
      validateReleaseArtifactDigest digest = .ok () := by
  unfold validateDigest
  cases c.releaseArtifactDigest <;> simp

/-- An empty allowlist passes every upstream, so the test for it can be left out. -/
theorem validateUpstreams_eq_ok_iff :
    c.validateUpstreams P = .ok () ↔ c.checkUpstreamAllowed P c.defaultUpstream = .ok () ∧
      ∀ route ∈ c.routes.toList, c.checkUpstreamAllowed P route.2.baseUrl = .ok () := by
  unfold validateUpstreams
  split_ifs with h
  · have hall : ∀ u, c.checkUpstreamAllowed P u = .ok () :=
      fun u => (c.checkUpstreamAllowed_eq_ok_iff P u).mpr (Or.inl h)
    exact iff_of_true rfl ⟨hall _, fun route _ => hall _⟩
  · rw [Except.unit_bind_eq_ok_iff, withReason_eq_ok_iff, forM_eq_ok_iff]
    simp only [withReason_eq_ok_iff]

/-- What a configuration that starts up satisfies. -/
theorem validate_eq_ok_iff :
    c.validate P = .ok () ↔
      c.runtime.validate = .ok () ∧ c.validateDigest = .ok () ∧
      (∃ pins, normalizeUpstreamTlsPins P c.upstreamTlsLeafSha256 = .ok pins) ∧
      c.checkUpstreamAllowed P c.defaultUpstream = .ok () ∧
      ∀ route ∈ c.routes.toList, c.checkUpstreamAllowed P route.2.baseUrl = .ok () := by
  unfold validate
  rw [Except.unit_bind_eq_ok_iff, Except.unit_bind_eq_ok_iff, Except.bind_eq_ok_iff,
    exists_and_right, validateUpstreams_eq_ok_iff]

/-- A resolution is the default upstream without an override, or one of the routes. -/
theorem resolveUpstream_cases (model : Text) :
    c.resolveUpstream model = (c.defaultUpstream, none) ∨
      ∃ route ∈ c.routes.toList, c.resolveUpstream model = (route.2.baseUrl, route.2.path) := by
  unfold resolveUpstream
  split
  · next prefixKey config hfind =>
    have hmem := List.mem_of_find?_eq_some hfind
    exact Or.inr ⟨_, (List.mem_insertionSort _).mp hmem, rfl⟩
  · exact Or.inl rfl

/-! ### Routing is by the longest prefix -/

/-- The route that the loop over the sorted routes stops at. -/
def matchedRoute (model : Text) : Option (Text × ProviderConfig) :=
  c.sortedRoutes.find? fun r => Text.startsWith model r.1

theorem resolveUpstream_eq (model : Text) :
    c.resolveUpstream model = (c.matchedRoute model).elim (c.defaultUpstream, none)
      fun route => (route.2.baseUrl, route.2.path) := by
  unfold resolveUpstream matchedRoute
  split <;> simp [*]

/-- The route's key is a prefix of the model name, and no other such key is longer in bytes. -/
structure IsLongestMatch (model : Text) (route : Text × ProviderConfig) : Prop where
  isRoute : c.routes[route.1]? = some route.2
  isPrefix : route.1 <+: model
  longest : ∀ key ∈ c.routes, key <+: model → Text.len key ≤ Text.len route.1

theorem mem_sortedRoutes {route : Text × ProviderConfig} :
    route ∈ c.sortedRoutes ↔ c.routes[route.1]? = some route.2 := by
  rw [sortedRoutes, List.mem_insertionSort]
  exact Std.ExtTreeMap.mem_toList_iff_getElem?_eq_some

/-- The sorted routes go from long keys to short ones. -/
theorem sortedRoutes_pairwise :
    c.sortedRoutes.Pairwise fun a b => Text.len b.1 ≤ Text.len a.1 := by
  have : Std.Total fun a b : Text × ProviderConfig => Text.len b.1 ≤ Text.len a.1 :=
    ⟨fun a b => Nat.le_total _ _⟩
  have : IsTrans (Text × ProviderConfig) fun a b => Text.len b.1 ≤ Text.len a.1 :=
    ⟨fun _ _ _ hab hbc => hbc.trans hab⟩
  exact List.pairwise_insertionSort _ _

/-- Two longest matches have the same key, and a key has one route. -/
theorem IsLongestMatch.unique {model : Text} {route route' : Text × ProviderConfig}
    (h : c.IsLongestMatch model route) (h' : c.IsLongestMatch model route') : route = route' := by
  have hmem : route.1 ∈ c.routes := Std.ExtTreeMap.mem_iff_isSome_getElem?.mpr (by simp [h.isRoute])
  have hmem' : route'.1 ∈ c.routes :=
    Std.ExtTreeMap.mem_iff_isSome_getElem?.mpr (by simp [h'.isRoute])
  have hlen : Text.len route.1 = Text.len route'.1 :=
    Nat.le_antisymm (h'.longest _ hmem h.isPrefix) (h.longest _ hmem' h'.isPrefix)
  have hkey : route.1 = route'.1 := by
    rcases List.prefix_or_prefix_of_prefix h.isPrefix h'.isPrefix with hp | hp
    · exact Text.eq_of_prefix_of_len_le hp hlen.ge
    · exact (Text.eq_of_prefix_of_len_le hp hlen.le).symm
  have hroute := h.isRoute
  rw [hkey, h'.isRoute] at hroute
  exact Prod.ext hkey (Option.some.inj hroute).symm

theorem matchedRoute_eq_none_iff {model : Text} :
    c.matchedRoute model = none ↔ ∀ key ∈ c.routes, ¬ key <+: model := by
  rw [matchedRoute, List.find?_eq_none]
  constructor
  · intro h key hkey hp
    obtain ⟨config, hconfig⟩ :=
      Option.isSome_iff_exists.mp (Std.ExtTreeMap.mem_iff_isSome_getElem?.mp hkey)
    exact h (key, config) (c.mem_sortedRoutes.mpr hconfig) (List.isPrefixOf_iff_prefix.mpr hp)
  · rintro h route hroute hp
    have hmem : route.1 ∈ c.routes :=
      Std.ExtTreeMap.mem_iff_isSome_getElem?.mpr (by simp [c.mem_sortedRoutes.mp hroute])
    exact h route.1 hmem (List.isPrefixOf_iff_prefix.mp hp)

/-- The first match of a list from long keys to short ones is the longest. -/
theorem isLongestMatch_of_matchedRoute {model : Text} {route : Text × ProviderConfig}
    (h : c.matchedRoute model = some route) : c.IsLongestMatch model route := by
  obtain ⟨hp, before, after, hsplit, hbefore⟩ := List.find?_eq_some_iff_append.mp h
  refine ⟨c.mem_sortedRoutes.mp (List.mem_of_find?_eq_some h), List.isPrefixOf_iff_prefix.mp hp,
    fun key hkey hkp => ?_⟩
  obtain ⟨config, hconfig⟩ :=
    Option.isSome_iff_exists.mp (Std.ExtTreeMap.mem_iff_isSome_getElem?.mp hkey)
  have hmem : (key, config) ∈ before ++ route :: after := by
    rw [← hsplit]
    exact c.mem_sortedRoutes.mpr hconfig
  have hsorted := c.sortedRoutes_pairwise
  rw [hsplit] at hsorted
  rcases List.mem_append.mp hmem with hb | hcons
  · -- the loop would have stopped before
    have hno := hbefore _ hb
    rw [Text.startsWith, List.isPrefixOf_iff_prefix.mpr hkp] at hno
    exact absurd hno (by decide)
  · rcases List.mem_cons.mp hcons with heq | ha
    · rw [← heq]
    · exact List.rel_of_pairwise_cons (List.pairwise_append.mp hsorted).2.1 ha

theorem matchedRoute_eq_some_iff {model : Text} {route : Text × ProviderConfig} :
    c.matchedRoute model = some route ↔ c.IsLongestMatch model route := by
  refine ⟨c.isLongestMatch_of_matchedRoute, fun h => ?_⟩
  cases hm : c.matchedRoute model with
  | none =>
    have hmem : route.1 ∈ c.routes :=
      Std.ExtTreeMap.mem_iff_isSome_getElem?.mpr (by simp [h.isRoute])
    exact absurd h.isPrefix (c.matchedRoute_eq_none_iff.mp hm _ hmem)
  | some found => rw [(c.isLongestMatch_of_matchedRoute hm).unique c h]

/-- The start-up check covers every runtime resolution. -/
theorem checkUpstreamAllowed_resolveUpstream (h : c.validate P = .ok ()) (model : Text) :
    c.checkUpstreamAllowed P (c.resolveUpstream model).1 = .ok () := by
  obtain ⟨-, -, -, hdefault, hroutes⟩ := (c.validate_eq_ok_iff P).mp h
  rcases c.resolveUpstream_cases model with heq | ⟨route, hmem, heq⟩
  · rw [heq]
    exact hdefault
  · rw [heq]
    exact hroutes route hmem

end RelayConfig

end Config

end TrustedRelay
