import TrustedRelay.Core.ConfigHash
import TrustedRelay.Server.Startup

/-!
# The configuration hash that the checker expects

`trusted-relay-online-check` builds the relay's configuration a second time, from options of the
same names, to compare its hash with the attested one. The two programs differ in how they take
two of the options: the server splits every allowlist value at commas and trims the authorization
scheme, the checker does neither. `expectedHash_eq_iff` says that nothing else is different.
-/

namespace TrustedRelay

/-- The `value_delimiter` of the argument parser: every value of the list is split at commas. -/
def splitValues (values : List Text) : List Text := values.flatMap (·.splitOn ',')

theorem splitValues_eq_nil_iff {values : List Text} : splitValues values = [] ↔ values = [] := by
  constructor
  · intro h
    by_contra hne
    obtain ⟨v, rest, rfl⟩ := List.exists_cons_of_ne_nil hne
    exact List.splitOn_ne_nil ',' v (List.append_eq_nil_iff.mp h).1
  · rintro rfl
    rfl

theorem splitValues_of_comma_free {values : List Text} (h : ∀ v ∈ values, ',' ∉ v) :
    splitValues values = values := by
  induction values with
  | nil => rfl
  | cons v values ih =>
    rw [splitValues, List.flatMap_cons, List.splitOn_eq_singleton (h v List.mem_cons_self),
      List.singleton_append]
    exact congrArg _ (ih fun w hw => h w (List.mem_cons_of_mem _ hw))

namespace OnlineCheck

/-- The configuration inputs on the checker's command line, after list values were split. -/
structure Cli where
  upstream : Text := "https://api.openai.com".toList
  allowedUpstream : List Text := []
  route : List Text := []
  maxRequestBytes : UInt64 := 1048576
  releaseArtifactDigest : Option Text := none
  upstreamTimeoutSecs : UInt64 := 120
  upstreamTlsLeafSha256 : List Text := []
  allowClientProviderAuth : Bool := false
  privateAdminEnabled : Bool := false
  providerAuthScheme : Text := "Bearer".toList
  bodyLogPolicy : Text := "metadata-only".toList

/-- The base URL and the path of a route. -/
def routeTarget (rest : Text) : ProviderConfig :=
  match Text.splitOnce rest '|' with
  | some (base, path) => ⟨base, some path⟩
  | none => ⟨rest, none⟩

def addRoute (routes : BTreeMap ProviderConfig) (raw : Text) :
    Except Text (BTreeMap ProviderConfig) := do
  let (key, rest) ← okOr (Text.splitOnce raw '=')
    ("invalid --route '".toList ++ raw ++ "', expected prefix=base_url".toList)
  .ok (routes.insert key (routeTarget rest))

/-- The same loop as in the server. -/
def parseUpstreamTlsPins : List Text → Except Text (BTreeMap (List Text)) :=
  TrustedRelay.parseUpstreamTlsPins

def Cli.relayConfig (cli : Cli) : Except Text RelayConfig := do
  let routes ← cli.route.foldlM addRoute ∅
  let pins ← parseUpstreamTlsPins cli.upstreamTlsLeafSha256
  .ok
    { listenAddr := "0.0.0.0:8443".toList
      runtime :=
        { allowClientProviderAuth := cli.allowClientProviderAuth
          privateAdminEnabled := cli.privateAdminEnabled
          providerAuthScheme := cli.providerAuthScheme
          bodyLogPolicy := cli.bodyLogPolicy }
      defaultUpstream := cli.upstream
      routes
      allowedUpstreams := allowedOrDefault cli.upstream cli.allowedUpstream
      maxRequestBytes := cli.maxRequestBytes
      releaseArtifactDigest := cli.releaseArtifactDigest
      upstreamTimeoutSecs := cli.upstreamTimeoutSecs
      upstreamTlsLeafSha256 := pins }

/-- The `expect` in `config_hash` is the only way to a panic. -/
def computeExpectedConfigHash (P : UrlParser) (sha256 : Bytes → ByteArr 32) (cli : Cli) :
    Outcome Text (ByteArr 32) := do
  let config ← Outcome.lift cli.relayConfig
  Outcome.lift ((config.validate P).mapError
    fun e => "provided config inputs are invalid: ".toList ++ e)
  match config.configHash P sha256 with
  | some hash => .ok hash
  | none => .error .panic

theorem computeExpectedConfigHash_eq_ok_iff {P : UrlParser} {sha256 : Bytes → ByteArr 32}
    {cli : Cli}
    {hash : ByteArr 32} :
    computeExpectedConfigHash P sha256 cli = .ok hash ↔ ∃ config, cli.relayConfig = .ok config ∧
      config.validate P = .ok () ∧ config.configHash P sha256 = some hash := by
  have hmatch : ∀ o : Option (ByteArr 32), (match o with
      | some hash => (.ok hash : Outcome Text (ByteArr 32))
      | none => .error .panic) = .ok hash ↔ o = some hash := by
    intro o
    cases o <;> simp
  simp only [computeExpectedConfigHash, Except.bind_eq_ok_iff, Outcome.lift_eq_ok_iff,
    Except.mapError_eq_ok_iff, exists_unit_iff, hmatch]

end OnlineCheck

/-! ### The same options for both programs -/

/-- The option strings of a deployment. -/
structure Options where
  upstream : Text := "https://api.openai.com".toList
  allowedUpstream : List Text := []
  upstreamTlsLeafSha256 : List Text := []
  maxRequestBytes : UInt64 := 1048576
  upstreamTimeoutSecs : UInt64 := 120
  releaseArtifactDigest : Option Text := none
  providerAuthScheme : Text := "Bearer".toList
  allowClientProviderAuth : Bool := false
  adminListen : Option Text := none

namespace Options

variable (o : Options)

/-- The server's argument parser splits both lists. -/
def serverCli : Cli where
  upstream := o.upstream
  maxRequestBytes := o.maxRequestBytes
  upstreamTimeoutSecs := o.upstreamTimeoutSecs
  allowedUpstream := splitValues o.allowedUpstream
  upstreamTlsLeafSha256 := splitValues o.upstreamTlsLeafSha256
  providerAuthScheme := o.providerAuthScheme
  adminListen := o.adminListen
  allowClientProviderAuth := o.allowClientProviderAuth
  releaseArtifactDigest := o.releaseArtifactDigest

/-- The checker's splits the pins alone. -/
def checkerCli : OnlineCheck.Cli where
  upstream := o.upstream
  allowedUpstream := o.allowedUpstream
  maxRequestBytes := o.maxRequestBytes
  releaseArtifactDigest := o.releaseArtifactDigest
  upstreamTimeoutSecs := o.upstreamTimeoutSecs
  upstreamTlsLeafSha256 := splitValues o.upstreamTlsLeafSha256
  allowClientProviderAuth := o.allowClientProviderAuth
  privateAdminEnabled := o.adminListen.isSome
  providerAuthScheme := o.providerAuthScheme

/-- The checker's configuration differs from the server's in the two fields that it takes
otherwise, and in the address, which is not hashed. -/
def recomputed (config : RelayConfig) : RelayConfig :=
  { config with
    listenAddr := "0.0.0.0:8443".toList
    runtime := { config.runtime with providerAuthScheme := o.providerAuthScheme }
    allowedUpstreams := allowedOrDefault o.upstream o.allowedUpstream }

/-- Where the two fields agree, so do the configurations. -/
theorem recomputed_eq {config : RelayConfig}
    (hscheme : config.runtime.providerAuthScheme = o.providerAuthScheme)
    (hallowed : config.allowedUpstreams = allowedOrDefault o.upstream o.allowedUpstream) :
    o.recomputed config = { config with listenAddr := "0.0.0.0:8443".toList } := by
  unfold recomputed
  congr 1
  · rw [← hscheme]
  · exact hallowed.symm

/-- What the server makes of the options. -/
theorem relayConfig_serverCli {config : RelayConfig} (h : o.serverCli.relayConfig = .ok config) :
    config.runtime.providerAuthScheme = Text.trim o.providerAuthScheme ∧
      config.allowedUpstreams = allowedOrDefault o.upstream (splitValues o.allowedUpstream) ∧
      config.defaultUpstream = o.upstream ∧ config.routes = ∅ ∧
      o.checkerCli.relayConfig = .ok (o.recomputed config) := by
  simp only [Cli.relayConfig, Except.bind_eq_ok_iff, Except.ok.injEq] at h
  obtain ⟨pins, hpins, rfl⟩ := h
  refine ⟨rfl, rfl, rfl, rfl, ?_⟩
  have hchecker : OnlineCheck.parseUpstreamTlsPins (splitValues o.upstreamTlsLeafSha256) = .ok pins :=
    hpins
  simp only [OnlineCheck.Cli.relayConfig, checkerCli, hchecker]
  rfl

end Options

open Delimited

theorem unlines_upstreamLines {c : RelayConfig} (h : c.routes = ∅) :
    unlines '\n' c.upstreamLines = (RelayConfig.defaultTag ++ c.defaultUpstream) ++
      '\n' :: unlines '\n' (c.sortedAllowed.map (RelayConfig.allowedTag ++ ·)) := by
  have hnil : (∅ : BTreeMap ProviderConfig).toList = [] := rfl
  rw [RelayConfig.upstreamLines, h, hnil, List.map_nil, List.nil_append, unlines_cons]

/-- Equal hash inputs mean that no allowlist value was split: the pieces hold no comma, and the
lines before them are the same. -/
theorem comma_free_of_preimage_eq {P : UrlParser} {o : Options} {config : RelayConfig}
    (h : o.serverCli.relayConfig = .ok config) (hvalid : config.validate P = .ok ())
    (hchecker : (o.recomputed config).validate P = .ok ())
    (heq : config.configHashPreimage P = (o.recomputed config).configHashPreimage P) :
    ∀ a ∈ o.allowedUpstream, ',' ∉ a := by
  obtain ⟨-, hallowed, hdefault, hroutes, -⟩ := o.relayConfig_serverCli h
  obtain ⟨-, hlines, -⟩ := RelayConfig.segments_eq_of_preimage_eq hvalid hchecker heq
  intro a ha hcomma
  have hne : o.allowedUpstream ≠ [] := List.ne_nil_of_mem ha
  have hsplit : splitValues o.allowedUpstream ≠ [] := splitValues_eq_nil_iff.not.mpr hne
  rw [unlines_upstreamLines hroutes,
    unlines_upstreamLines (show (o.recomputed config).routes = ∅ from hroutes)] at hlines
  have hrest := (List.cons.inj (List.append_cancel_left hlines)).2
  -- the comma stands in one of the checker's lines, so also in one of the server's
  have hmem : ',' ∈ unlines '\n' (config.sortedAllowed.map (RelayConfig.allowedTag ++ ·)) := by
    rw [hrest, mem_unlines_iff (by decide)]
    refine ⟨_, List.mem_map_of_mem ((List.mem_insertionSort _).mpr ?_),
      List.mem_append_right _ hcomma⟩
    change a ∈ allowedOrDefault o.upstream o.allowedUpstream
    rw [allowedOrDefault, if_neg hne]
    exact ha
  obtain ⟨line, hline, hin⟩ := (mem_unlines_iff (by decide)).mp hmem
  obtain ⟨piece, hpiece, rfl⟩ := List.mem_map.mp hline
  rcases List.mem_append.mp hin with htag | hpart
  · exact absurd htag (by decide)
  · have hmember := (List.mem_insertionSort _).mp hpiece
    rw [hallowed, allowedOrDefault, if_neg hsplit] at hmember
    obtain ⟨v, -, hv⟩ := List.mem_flatMap.mp hmember
    exact not_mem_of_mem_splitOn hv hpart

/-- Digests that tell two hash inputs apart. -/
def separatingHash (pre : Bytes) (b : Bytes) : ByteArr 32 :=
  if b = pre then ByteArr.fill 32 0 else ByteArr.fill 32 1

theorem eq_of_separatingHash_eq {pre b : Bytes}
    (h : separatingHash pre b = separatingHash pre pre) :
    b = pre := by
  by_contra hne
  rw [separatingHash, separatingHash, if_neg hne, if_pos rfl] at h
  exact absurd (congrArg Subtype.val h) (by decide)

/-- The checker recomputes the hash of a server that starts up, whatever the hash function is,
exactly when the scheme needs no trimming and no allowlist value holds a comma. -/
theorem expectedHash_eq_iff (P : UrlParser) (o : Options) (config : RelayConfig)
    (h : o.serverCli.relayConfig = .ok config) (hvalid : config.validate P = .ok ()) :
    (∀ sha256, ∃ hash, config.configHash P sha256 = some hash ∧
        OnlineCheck.computeExpectedConfigHash P sha256 o.checkerCli = .ok hash) ↔
      Text.trim o.providerAuthScheme = o.providerAuthScheme ∧ ∀ a ∈ o.allowedUpstream, ',' ∉ a := by
  obtain ⟨hscheme, hallowed, -, -, hchecker⟩ := o.relayConfig_serverCli h
  obtain ⟨N, -, hpre⟩ := RelayConfig.configHashPreimage_eq_some hvalid
  constructor
  · intro hsame
    obtain ⟨pre, hpre⟩ : ∃ pre, config.configHashPreimage P = some pre := ⟨_, hpre⟩
    -- equal digests under a hash function that separates the server's input from all others
    obtain ⟨hash, hserver, hcheck⟩ := hsame (separatingHash pre)
    obtain ⟨config', hconfig', hvalid', hhash'⟩ :=
      OnlineCheck.computeExpectedConfigHash_eq_ok_iff.mp hcheck
    obtain rfl : o.recomputed config = config' := Except.ok.inj (hchecker.symm.trans hconfig')
    rw [RelayConfig.configHash, hpre, Option.map_some] at hserver
    obtain ⟨pre', hpre', heq⟩ := Option.map_eq_some_iff.mp hhash'
    have hinput : config.configHashPreimage P = (o.recomputed config).configHashPreimage P := by
      rw [hpre, hpre', eq_of_separatingHash_eq (heq.trans (Option.some.inj hserver).symm)]
    refine ⟨?_, comma_free_of_preimage_eq h hvalid hvalid' hinput⟩
    obtain ⟨hruntime, -⟩ := RelayConfig.segments_eq_of_preimage_eq hvalid hvalid' hinput
    have hruntime := congrArg RuntimeConfig.providerAuthScheme
      (RelayConfig.runtimeLines_injective hruntime)
    rw [hscheme] at hruntime
    exact hruntime
  · rintro ⟨htrim, hcomma⟩ sha256
    rw [splitValues_of_comma_free hcomma] at hallowed
    have hsame := o.recomputed_eq (hscheme.trans htrim) hallowed
    refine ⟨_, by rw [RelayConfig.configHash, hpre, Option.map_some], ?_⟩
    rw [OnlineCheck.computeExpectedConfigHash_eq_ok_iff]
    refine ⟨_, hchecker, ?_, ?_⟩
    · rw [hsame]
      exact hvalid
    · rw [hsame, RelayConfig.configHash]
      exact congrArg (Option.map sha256) hpre

def openaiUrl : Text := "https://api.openai.com".toList

def anthropicUrl : Text := "https://api.anthropic.com".toList

/-- The configuration of a default server with two allowed upstreams. -/
def twoUpstreams : RelayConfig := { allowedUpstreams := [openaiUrl, anthropicUrl] }

/-- Both upstreams in one value, as the environment variable of the server takes them. -/
def commaOptions : Options := { allowedUpstream := [openaiUrl ++ ',' :: anthropicUrl] }

/-- The option is given twice. -/
def repeatedOptions : Options := { allowedUpstream := [openaiUrl, anthropicUrl] }

/-- The server starts up, and the checker refuses the same options, whatever the hash. -/
theorem commaOptions_not_recomputed :
    commaOptions.serverCli.relayConfig = .ok twoUpstreams ∧
      twoUpstreams.validate plainUrlParser = .ok () ∧
      ∀ sha256 hash, OnlineCheck.computeExpectedConfigHash plainUrlParser sha256
        commaOptions.checkerCli ≠ .ok hash := by
  have hserver : commaOptions.serverCli.relayConfig = .ok twoUpstreams := by decide
  refine ⟨hserver, by decide, fun sha256 hash hcheck => ?_⟩
  obtain ⟨config, hconfig, hvalid, -⟩ :=
    OnlineCheck.computeExpectedConfigHash_eq_ok_iff.mp hcheck
  obtain ⟨-, -, -, -, hchecker⟩ := commaOptions.relayConfig_serverCli hserver
  obtain rfl : commaOptions.recomputed twoUpstreams = config :=
    Except.ok.inj (hchecker.symm.trans hconfig)
  exact absurd hvalid (by decide)

theorem repeatedOptions_recomputed :
    ∃ hash, twoUpstreams.configHash plainUrlParser (separatingHash []) = some hash ∧
      OnlineCheck.computeExpectedConfigHash plainUrlParser (separatingHash [])
        repeatedOptions.checkerCli = .ok hash :=
  (expectedHash_eq_iff plainUrlParser repeatedOptions twoUpstreams (by decide) (by decide)).mpr
    (by decide) _

end TrustedRelay
