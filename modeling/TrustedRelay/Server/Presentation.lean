import TrustedRelay.Core.ConfigHash
import TrustedRelay.Rust.Ascii
import TrustedRelay.Server.Startup

/-!
# What the configuration hash does not depend on

An operator may list the allowed upstreams and the TLS pins in any order, repeat a pin argument,
and write a pin in several ways. `Change` lists these choices of presentation, one constructor
each; `presentation_invariant` says that none of them, nor the listen address, has an influence
on whether the configuration is accepted or on the bytes that are hashed.

The way there: what `parse_upstream_tls_pins` collects under an origin is known from the set of
the arguments' origins and normal forms (`argKey`), and so is what normalisation makes of it.
-/

namespace TrustedRelay

/-! ### Ways to write a pin -/

/-- One change in the way a pin is written. The prefix is put before a pin that has none. -/
inductive PinChange : Text → Text → Prop
  | letterCase {v v' : Text} (h : Text.toAsciiLowercase v' = Text.toAsciiLowercase v) :
    PinChange v v'
  | whitespace {pin before after before' after' : Text}
    (h : ∀ c ∈ before ++ after ++ (before' ++ after'), Text.isWhitespace c = true) :
    PinChange (before ++ pin ++ after) (before' ++ pin ++ after')
  | addPrefix {pin tag before after : Text}
    (h : ∀ c ∈ before ++ after, Text.isWhitespace c = true)
    (htag : Text.toAsciiLowercase tag = "sha256:".toList)
    (hpin : pin ≠ [] ∧ Text.trim pin = pin)
    (hnone : Text.stripPrefix (Text.toAsciiLowercase pin) "sha256:".toList = none) :
    PinChange (before ++ pin ++ after) (before ++ (tag ++ pin) ++ after)
  | removePrefix {pin tag before after : Text}
    (h : ∀ c ∈ before ++ after, Text.isWhitespace c = true)
    (htag : Text.toAsciiLowercase tag = "sha256:".toList)
    (hpin : pin ≠ [] ∧ Text.trim pin = pin)
    (hnone : Text.stripPrefix (Text.toAsciiLowercase pin) "sha256:".toList = none) :
    PinChange (before ++ (tag ++ pin) ++ after) (before ++ pin ++ after)

/-- Nothing is trimmed away between the prefix and a trimmed pin. -/
theorem trim_tagged {tag pin : Text} (htag : Text.toAsciiLowercase tag = "sha256:".toList)
    (hpin : pin ≠ [] ∧ Text.trim pin = pin) : Text.trim (tag ++ pin) = tag ++ pin := by
  obtain ⟨hne, htrim⟩ := hpin
  have hdrop : pin.dropWhile Text.isWhitespace = pin := by
    rw [← htrim, Text.dropWhile_trim]
  have hrdrop : pin.rdropWhile Text.isWhitespace = pin := by
    rw [Text.trim, hdrop] at htrim
    exact htrim
  obtain ⟨c, rest, rfl⟩ : ∃ c rest, tag = c :: rest := by
    cases tag with
    | nil => cases htag
    | cons c rest => exact ⟨c, rest, rfl⟩
  have hc : Text.isWhitespace c = false := by
    have hs : c.toLower = 's' := (List.cons.inj htag).1
    rw [← Text.isWhitespace_toLower, hs]
    decide
  rw [Text.trim, List.cons_append, List.dropWhile_cons_of_neg (by simp [hc]), ← List.cons_append,
    Text.rdropWhile_append, hrdrop, if_neg hne]

/-- Only the trimmed text in lower case is looked at. -/
theorem normalizeSha256Pin_congr {v v' : Text}
    (h : Text.toAsciiLowercase (Text.trim v') = Text.toAsciiLowercase (Text.trim v)) :
    normalizeSha256Pin v' = normalizeSha256Pin v := by
  unfold normalizeSha256Pin
  rw [h]

/-- The prefix is optional. -/
theorem normalizeSha256Pin_tagged {tag pin : Text}
    (htag : Text.toAsciiLowercase tag = "sha256:".toList) (hpin : pin ≠ [] ∧ Text.trim pin = pin)
    (hnone : Text.stripPrefix (Text.toAsciiLowercase pin) "sha256:".toList = none) :
    normalizeSha256Pin (tag ++ pin) = normalizeSha256Pin pin := by
  have hlow : Text.toAsciiLowercase (tag ++ pin) =
      "sha256:".toList ++ Text.toAsciiLowercase pin := by
    rw [← htag, Text.toAsciiLowercase, List.map_append]
    rfl
  simp only [normalizeSha256Pin, trim_tagged htag hpin, hpin.2, hlow, Text.stripPrefix_append,
    hnone, Option.getD_some, Option.getD_none]

/-- The normal form does not depend on the way a pin is written. -/
theorem PinChange.normalizeSha256Pin_eq {v v' : Text} (h : PinChange v v') :
    normalizeSha256Pin v' = normalizeSha256Pin v := by
  have hsurrounded : ∀ {before pin after : Text},
      (∀ c ∈ before ++ after, Text.isWhitespace c = true) →
      normalizeSha256Pin (before ++ pin ++ after) = normalizeSha256Pin pin := fun h =>
    normalizeSha256Pin_congr (congrArg Text.toAsciiLowercase (Text.trim_surrounded h))
  cases h with
  | letterCase h =>
    refine normalizeSha256Pin_congr ?_
    rw [← Text.trim_toAsciiLowercase, h, Text.trim_toAsciiLowercase]
  | whitespace h =>
    obtain ⟨hold, hnew⟩ := List.forall_mem_append.mp h
    rw [hsurrounded hold, hsurrounded hnew]
  | addPrefix h htag hpin hnone =>
    rw [hsurrounded h, hsurrounded h, normalizeSha256Pin_tagged htag hpin hnone]
  | removePrefix h htag hpin hnone =>
    rw [hsurrounded h, hsurrounded h, normalizeSha256Pin_tagged htag hpin hnone]

/-! ### What the arguments say -/

/-- What counts about a pin argument: the origin as it is written, and the normal form of the pin.
Without an equals sign there is neither. -/
def argKey (item : Text) : Option (Text × Option Text) :=
  (Text.splitOnce item '=').map fun arg => (arg.1, normalizeSha256Pin arg.2)

/-- The pins that the arguments give for an origin, in order. -/
def pinsOf (raw : List Text) (origin : Text) : List Text :=
  raw.filterMap fun item =>
    (Text.splitOnce item '=').bind fun arg => if arg.1 = origin then some arg.2 else none

/-- Two lists of arguments say the same: order, repetitions and spellings aside. -/
def SameArgs (raw raw' : List Text) : Prop :=
  ∀ key, key ∈ raw.map argKey ↔ key ∈ raw'.map argKey

theorem pinsOf_concat {raw : List Text} {item origin pin : Text}
    (h : Text.splitOnce item '=' = some (origin, pin)) (o : Text) :
    pinsOf (raw ++ [item]) o = pinsOf raw o ++ if origin = o then [pin] else [] := by
  rw [pinsOf, List.filterMap_append, ← pinsOf]
  by_cases ho : origin = o <;> simp [h, ho]

theorem mem_map_pinsOf {raw : List Text} {o : Text} {n : Option Text} :
    n ∈ (pinsOf raw o).map normalizeSha256Pin ↔ some (o, n) ∈ raw.map argKey := by
  simp only [List.mem_map, pinsOf, List.mem_filterMap, argKey, Option.map_eq_some_iff]
  constructor
  · rintro ⟨v, ⟨item, hitem, hv⟩, rfl⟩
    obtain ⟨⟨origin, pin⟩, hsplit, hpin⟩ := Option.bind_eq_some_iff.mp hv
    obtain ⟨rfl, rfl⟩ : origin = o ∧ pin = v := by simpa using hpin
    exact ⟨item, hitem, (origin, pin), hsplit, rfl⟩
  · rintro ⟨item, hitem, ⟨origin, pin⟩, hsplit, heq⟩
    obtain ⟨rfl, rfl⟩ := Prod.mk.inj heq
    exact ⟨pin, ⟨item, hitem, by rw [hsplit]; simp⟩, rfl⟩

/-- The map that is parsed holds, for each origin that is named, the pins given for it. -/
theorem parseUpstreamTlsPins_getElem {raw : List Text} {M : BTreeMap (List Text)}
    (h : parseUpstreamTlsPins raw = .ok M) (o : Text) :
    M[o]? = if pinsOf raw o = [] then none else some (pinsOf raw o) := by
  refine foldlM_invariant (fun pre (M : BTreeMap (List Text)) =>
    ∀ o, M[o]? = if pinsOf pre o = [] then none else some (pinsOf pre o)) ?_ ?_ h o
  · intro o
    simp [pinsOf]
  · rintro pre item M M' - hI hstep o
    simp only [addPin, Except.bind_eq_ok_iff, okOr_eq_ok_iff, Except.ok.injEq] at hstep
    obtain ⟨⟨origin, pin⟩, hsplit, rfl⟩ := hstep
    rw [pinsOf_concat hsplit, Std.ExtTreeMap.getElem?_alter]
    by_cases ho : origin = o
    · subst ho
      rw [if_pos Std.ReflCmp.compare_self, hI]
      split_ifs with hnil <;> simp_all
    · rw [if_neg fun hcmp => ho (Std.LawfulEqCmp.eq_of_compare hcmp), if_neg ho, List.append_nil]
      exact hI o

/-- Parsing fails exactly on an argument without an equals sign. -/
theorem parseUpstreamTlsPins_isOk_iff {raw : List Text} :
    (∃ M, parseUpstreamTlsPins raw = .ok M) ↔ none ∉ raw.map argKey := by
  have hsplit : none ∉ raw.map argKey ↔
      ∀ item ∈ raw, ∃ arg, Text.splitOnce item '=' = some arg := by
    simp [argKey, ← Option.ne_none_iff_exists']
  rw [hsplit]
  constructor
  · rintro ⟨M, h⟩
    refine foldlM_invariant (fun (pre : List Text) (_ : BTreeMap (List Text)) =>
      ∀ item ∈ pre, ∃ arg, Text.splitOnce item '=' = some arg) (by simp) ?_ h
    rintro pre item M M' - hI hstep
    simp only [addPin, Except.bind_eq_ok_iff, okOr_eq_ok_iff] at hstep
    obtain ⟨arg, harg, -⟩ := hstep
    exact List.forall_mem_append.mpr ⟨hI, by simpa using ⟨_, _, harg⟩⟩
  · intro h
    refine foldlM_isOk (fun item hitem M => ?_) ∅
    obtain ⟨arg, harg⟩ := h item hitem
    simp only [addPin, Except.bind_eq_ok_iff, okOr_eq_ok_iff, Except.ok.injEq]
    exact ⟨_, arg, harg, rfl⟩

/-! ### What normalisation makes of it -/

/-- The normal forms of the values under a key; `none` stands for the invalid ones. -/
def normalForms (values : List Text) : Finset (Option Text) :=
  (values.map normalizeSha256Pin).toFinset

theorem mem_normalForms {values : List Text} {n : Option Text} :
    n ∈ normalForms values ↔ n ∈ values.map normalizeSha256Pin := List.mem_toFinset

theorem normalForms_eq_empty_iff {values : List Text} : normalForms values = ∅ ↔ values = [] := by
  rw [normalForms, List.toFinset_eq_empty_iff, List.map_eq_nil_iff]

theorem normalForms_pinsOf {raw raw' : List Text} (h : SameArgs raw raw') (o : Text) :
    normalForms (pinsOf raw o) = normalForms (pinsOf raw' o) := by
  ext n
  rw [mem_normalForms, mem_normalForms, mem_map_pinsOf, mem_map_pinsOf, h]

/-- Collecting the pins of a key fails exactly on an invalid one. -/
theorem foldlM_pushPin_isOk_iff {origin : Text} {values : List Text} :
    (∃ pins, values.foldlM (pushPin origin) [] = .ok pins) ↔ none ∉ normalForms values := by
  have hvalid : none ∉ normalForms values ↔
      ∀ v ∈ values, ∃ pin, normalizeSha256Pin v = some pin := by
    simp [mem_normalForms, ← Option.ne_none_iff_exists']
  rw [hvalid]
  constructor
  · rintro ⟨pins, h⟩
    refine foldlM_invariant (fun (pre _ : List Text) =>
      ∀ v ∈ pre, ∃ pin, normalizeSha256Pin v = some pin) (by simp) ?_ h
    rintro pre v acc acc' - hI hstep
    simp only [pushPin, Except.bind_eq_ok_iff, okOr_eq_ok_iff] at hstep
    obtain ⟨pin, hpin, -⟩ := hstep
    exact List.forall_mem_append.mpr ⟨hI, by simpa using ⟨pin, hpin⟩⟩
  · intro h
    refine foldlM_isOk (fun v hv acc => ?_) []
    obtain ⟨pin, hpin⟩ := h v hv
    simp only [pushPin, Except.bind_eq_ok_iff, okOr_eq_ok_iff, Except.ok.injEq]
    exact ⟨_, pin, hpin, rfl⟩

section Presentation

variable (P : UrlParser)

/-- An entry is normalised by the set of its normal forms. -/
theorem normalizePinEntry_congr {key origin : Text} {values values' pins : List Text}
    (h : normalForms values = normalForms values')
    (hok : normalizePinEntry P key values = .ok (origin, pins)) :
    normalizePinEntry P key values' = .ok (origin, pins) := by
  obtain ⟨-, -, hne, hsorted, hmem⟩ := normalizePinEntry_eq_ok P hok
  have hne' : values' ≠ [] := by
    rwa [ne_eq, ← normalForms_eq_empty_iff, ← h, normalForms_eq_empty_iff]
  simp only [normalizePinEntry, Except.bind_eq_ok_iff, okOr_eq_ok_iff, ensure_eq_ok_iff,
    Except.ok.injEq, Prod.mk.injEq] at hok
  obtain ⟨u, hu, -, hscheme, o, ho, -, -, collected, hcol, rfl, -⟩ := hok
  obtain ⟨collected', hcol'⟩ : ∃ pins, values'.foldlM (pushPin o) [] = .ok pins := by
    have hnone : none ∉ normalForms values := foldlM_pushPin_isOk_iff.mp ⟨collected, hcol⟩
    exact foldlM_pushPin_isOk_iff.mpr (h ▸ hnone)
  have hok' : normalizePinEntry P key values' =
      .ok (o, collected'.insertionSort (· ≤ ·)) := by
    simp only [normalizePinEntry, Except.bind_eq_ok_iff, okOr_eq_ok_iff, ensure_eq_ok_iff,
      Except.ok.injEq, Prod.mk.injEq]
    exact ⟨u, hu, (), hscheme, o, ho, (), hne', collected', hcol', rfl, rfl⟩
  obtain ⟨-, -, -, hsorted', hmem'⟩ := normalizePinEntry_eq_ok P hok'
  -- both lists are increasing and have the same members
  have heq : collected'.insertionSort (· ≤ ·) = pins := by
    refine hsorted'.eq_of_mem_iff hsorted fun pin => ?_
    rw [hmem, hmem']
    have hpin : some pin ∈ normalForms values ↔ some pin ∈ normalForms values' := by rw [h]
    simpa only [mem_normalForms, List.mem_map] using hpin.symm
  rw [hok', heq]

/-- A loop that looks at its elements through `key` succeeds alike on lists with the same keys. -/
theorem foldlM_congr_key {ε α β γ : Type} {f : β → α → Except ε β} (key : α → γ)
    (hf : ∀ s a a' s', key a = key a' → f s a = .ok s' → f s a' = .ok s') :
    ∀ {l l' : List α} {s s' : β}, l.map key = l'.map key → l.foldlM f s = .ok s' →
      l'.foldlM f s = .ok s' := by
  intro l
  induction l with
  | nil =>
    intro l' s s' hkeys h
    rw [List.map_eq_nil_iff.mp hkeys.symm]
    exact h
  | cons a l ih =>
    intro l' s s' hkeys h
    cases l' with
    | nil => cases hkeys
    | cons a' l' =>
      obtain ⟨hkey, hkeys⟩ := List.cons.inj hkeys
      rw [List.foldlM_cons, Except.bind_eq_ok_iff] at h ⊢
      obtain ⟨t, ht, hrest⟩ := h
      exact ⟨t, hf s a a' t hkey ht, ih hkeys hrest⟩

/-- Two maps of pins with the same normal forms under each key are normalised alike. -/
theorem normalizeUpstreamTlsPins_congr {M M' N : BTreeMap (List Text)}
    (h : ∀ o : Text, M[o]?.map normalForms = M'[o]?.map normalForms)
    (hok : normalizeUpstreamTlsPins P M = .ok N) : normalizeUpstreamTlsPins P M' = .ok N := by
  have hmap : M.map (fun _ values => normalForms values) =
      M'.map fun _ values => normalForms values := by
    refine Std.ExtTreeMap.ext_getElem? fun o => ?_
    rw [Std.ExtTreeMap.getElem?_map, Std.ExtTreeMap.getElem?_map, h]
  refine foldlM_congr_key (fun e : Text × List Text => (e.1, normalForms e.2)) ?_ ?_ hok
  · rintro s ⟨k, values⟩ ⟨k', values'⟩ s' hkey hstep
    obtain ⟨rfl, hforms⟩ := Prod.mk.inj hkey
    simp only [Except.bind_eq_ok_iff, Except.ok.injEq] at hstep ⊢
    obtain ⟨⟨origin, pins⟩, hentry, rfl⟩ := hstep
    exact ⟨(origin, pins), normalizePinEntry_congr P hforms hentry, rfl⟩
  · simpa only [Std.ExtTreeMap.toList_map] using congrArg Std.ExtTreeMap.toList hmap

/-- Arguments that say the same are parsed and normalised alike. -/
theorem SameArgs.normalize {raw raw' : List Text} (h : SameArgs raw raw')
    {M N : BTreeMap (List Text)} (hM : parseUpstreamTlsPins raw = .ok M)
    (hN : normalizeUpstreamTlsPins P M = .ok N) :
    ∃ M', parseUpstreamTlsPins raw' = .ok M' ∧ normalizeUpstreamTlsPins P M' = .ok N := by
  obtain ⟨M', hM'⟩ : ∃ M', parseUpstreamTlsPins raw' = .ok M' := by
    rw [parseUpstreamTlsPins_isOk_iff, ← h none, ← parseUpstreamTlsPins_isOk_iff]
    exact ⟨M, hM⟩
  refine ⟨M', hM', normalizeUpstreamTlsPins_congr P (fun o => ?_) hN⟩
  have hforms := normalForms_pinsOf h o
  have hnil : pinsOf raw o = [] ↔ pinsOf raw' o = [] := by
    rw [← normalForms_eq_empty_iff, hforms, normalForms_eq_empty_iff]
  rw [parseUpstreamTlsPins_getElem hM, parseUpstreamTlsPins_getElem hM']
  by_cases hraw : pinsOf raw o = []
  · rw [if_pos hraw, if_pos (hnil.mp hraw)]
  · rw [if_neg hraw, if_neg (mt hnil.mpr hraw), Option.map_some, Option.map_some, hforms]

/-! ### The configuration -/

/-- What the server is given: the configuration, up to its pins, and the pin arguments. -/
structure ConfigInput where
  base : RelayConfig
  tlsArgs : List Text

def ConfigInput.config (i : ConfigInput) : Except Text RelayConfig := do
  let pins ← parseUpstreamTlsPins i.tlsArgs
  .ok { i.base with upstreamTlsLeafSha256 := pins }

/-- The input is parsed to `c`, and `c` is valid. -/
def ConfigInput.Accepts (i : ConfigInput) (c : RelayConfig) : Prop :=
  i.config = .ok c ∧ c.validate P = .ok ()

/-- One change of presentation. -/
inductive Change : ConfigInput → ConfigInput → Prop
  | listenAddr (i : ConfigInput) (addr : Text) :
    Change i { i with base := { i.base with listenAddr := addr } }
  | allowedUpstreams (i : ConfigInput) (allowed : List Text)
    (h : allowed.Perm i.base.allowedUpstreams) :
    Change i { i with base := { i.base with allowedUpstreams := allowed } }
  | tlsArgs (i : ConfigInput) (args : List Text) (h : args.Perm i.tlsArgs) :
    Change i { i with tlsArgs := args }
  | again (base : RelayConfig) (before after : List Text) (item : Text)
    (h : item ∈ before ++ after) :
    Change ⟨base, before ++ after⟩ ⟨base, before ++ item :: after⟩
  | pin (base : RelayConfig) (before after : List Text) (origin v v' : Text)
    (horigin : '=' ∉ origin) (h : PinChange v v') :
    Change ⟨base, before ++ (origin ++ '=' :: v) :: after⟩
      ⟨base, before ++ (origin ++ '=' :: v') :: after⟩

/-- The inputs agree, apart from their presentation. -/
structure SameInput (i j : ConfigInput) : Prop where
  base : ∃ addr allowed, j.base = { i.base with listenAddr := addr, allowedUpstreams := allowed } ∧
    allowed.Perm i.base.allowedUpstreams
  tlsArgs : SameArgs i.tlsArgs j.tlsArgs

theorem SameInput.equivalence : Equivalence SameInput where
  refl i := ⟨⟨_, _, rfl, .refl _⟩, fun _ => Iff.rfl⟩
  symm h := by
    obtain ⟨⟨addr, allowed, hbase, hperm⟩, hargs⟩ := h
    exact ⟨⟨_, _, by rw [hbase], by rw [hbase]; exact hperm.symm⟩, fun key => (hargs key).symm⟩
  trans h h' := by
    obtain ⟨⟨addr, allowed, hbase, hperm⟩, hargs⟩ := h
    obtain ⟨⟨addr', allowed', hbase', hperm'⟩, hargs'⟩ := h'
    refine ⟨⟨addr', allowed', by rw [hbase', hbase], ?_⟩, fun key => (hargs key).trans (hargs' key)⟩
    rw [hbase] at hperm'
    exact hperm'.trans hperm

theorem Change.sameInput {i j : ConfigInput} (h : Change i j) : SameInput i j := by
  have hrefl := SameInput.equivalence.refl
  cases h with
  | listenAddr _ addr => exact ⟨⟨addr, _, rfl, .refl _⟩, fun _ => Iff.rfl⟩
  | allowedUpstreams _ allowed h => exact ⟨⟨_, allowed, rfl, h⟩, fun _ => Iff.rfl⟩
  | tlsArgs _ args h => exact ⟨(hrefl i).base, fun key => (h.map argKey).mem_iff.symm⟩
  | again base before after item h =>
    refine ⟨(hrefl ⟨base, []⟩).base, fun key => ?_⟩
    have hkey : argKey item ∈ (before ++ after).map argKey := List.mem_map_of_mem h
    simp only [List.map_append, List.map_cons, List.mem_append, List.mem_cons] at hkey ⊢
    constructor
    · tauto
    · rintro (hb | rfl | ha)
      · exact .inl hb
      · exact hkey
      · exact .inr ha
  | pin base before after origin v v' horigin h =>
    have hkey : argKey (origin ++ '=' :: v') = argKey (origin ++ '=' :: v) := by
      rw [argKey, argKey, Text.splitOnce_append horigin, Text.splitOnce_append horigin,
        Option.map_some, Option.map_some, h.normalizeSha256Pin_eq]
    refine ⟨(hrefl ⟨base, []⟩).base, fun key => ?_⟩
    simp only [List.map_append, List.map_cons, hkey]

/-- Any number of changes, there and back. -/
theorem sameInput_of_changes {i j : ConfigInput} (h : Relation.EqvGen Change i j) :
    SameInput i j :=
  (SameInput.equivalence.eqvGen_iff).mp (h.mono fun _ _ => Change.sameInput)

/-! ### The verdict and the hash -/

theorem checkUpstreamAllowed_congr {c c' : RelayConfig}
    (h : c'.allowedUpstreams.Perm c.allowedUpstreams) {u : Text}
    (hok : c.checkUpstreamAllowed P u = .ok ()) : c'.checkUpstreamAllowed P u = .ok () := by
  rw [RelayConfig.checkUpstreamAllowed_eq_ok_iff] at hok ⊢
  rcases hok with hnil | ⟨o, ho, a, ha, hao⟩
  · rw [hnil] at h
    exact .inl h.eq_nil
  · exact .inr ⟨o, ho, a, h.mem_iff.mpr ha, hao⟩

theorem sortedAllowed_congr {c c' : RelayConfig}
    (h : c'.allowedUpstreams.Perm c.allowedUpstreams) : c'.sortedAllowed = c.sortedAllowed := by
  have hperm : c'.sortedAllowed.Perm c.sortedAllowed :=
    ((List.perm_insertionSort _ _).trans h).trans (List.perm_insertionSort _ _).symm
  exact hperm.eq_of_pairwise' (List.pairwise_insertionSort _ _) (List.pairwise_insertionSort _ _)

/-- Inputs that differ in presentation only are accepted alike, with the same hash input. -/
theorem SameInput.accepts {i j : ConfigInput} (h : SameInput i j) {c : RelayConfig}
    (hc : i.Accepts P c) :
    ∃ c', j.Accepts P c' ∧ c'.configHashPreimage P = c.configHashPreimage P := by
  obtain ⟨base', args'⟩ := j
  obtain ⟨⟨addr, allowed, rfl, hperm⟩, hargs⟩ := h
  obtain ⟨hconfig, hvalid⟩ := hc
  obtain ⟨M, hM, hMc⟩ := Except.bind_eq_ok_iff.mp hconfig
  obtain rfl := Except.ok.inj hMc
  obtain ⟨hruntime, hdigest, ⟨N, hN⟩, hdefault, hroutes⟩ :=
    (RelayConfig.validate_eq_ok_iff P _).mp hvalid
  obtain ⟨M', hM', hN'⟩ := hargs.normalize P hM hN
  refine ⟨{ i.base with
      listenAddr := addr, allowedUpstreams := allowed, upstreamTlsLeafSha256 := M' },
    ⟨Except.bind_eq_ok_iff.mpr ⟨M', hM', rfl⟩, ?_⟩, ?_⟩
  · refine (RelayConfig.validate_eq_ok_iff P _).mpr
      ⟨hruntime, hdigest, ⟨N, hN'⟩, checkUpstreamAllowed_congr P hperm hdefault, ?_⟩
    exact fun route hroute => checkUpstreamAllowed_congr P hperm (hroutes route hroute)
  · have hsorted : RelayConfig.sortedAllowed { i.base with
          listenAddr := addr, allowedUpstreams := allowed, upstreamTlsLeafSha256 := M' } =
        RelayConfig.sortedAllowed { i.base with upstreamTlsLeafSha256 := M } :=
      sortedAllowed_congr hperm
    -- everything but the allowlist and the pins is the same field on both sides
    simp only [RelayConfig.configHashPreimage, hN, hN', RelayConfig.upstreamUpdates, hsorted,
      RelayConfig.limitUpdates, RelayConfig.hashedDigest]

/-- Neither the verdict on an input nor the hash input depends on its presentation. -/
theorem presentation_invariant (i j : ConfigInput) (h : Relation.EqvGen Change i j) :
    ((∃ c, i.Accepts P c) ↔ ∃ c, j.Accepts P c) ∧
      ∀ c c', i.Accepts P c → j.Accepts P c' →
        c.configHashPreimage P = c'.configHashPreimage P := by
  have hsame := sameInput_of_changes h
  refine ⟨⟨?_, ?_⟩, ?_⟩
  · rintro ⟨c, hc⟩
    obtain ⟨c', hc', -⟩ := hsame.accepts P hc
    exact ⟨c', hc'⟩
  · rintro ⟨c, hc⟩
    obtain ⟨c', hc', -⟩ := (SameInput.equivalence.symm hsame).accepts P hc
    exact ⟨c', hc'⟩
  · intro c c' hc hc'
    obtain ⟨d, hd, heq⟩ := hsame.accepts P hc
    obtain rfl : d = c' := Except.ok.inj (hd.1.symm.trans hc'.1)
    exact heq.symm

end Presentation

def openaiKey : Text := "https://api.openai.com".toList

/-- A digest in small letters. -/
def smallHex : Text := List.replicate 64 'a'

/-- The same digest in capitals. -/
def capitalHex : Text := List.replicate 64 'A'

/-- One pin, and two allowed upstreams. -/
def plainInput : ConfigInput where
  base :=
    { allowedUpstreams := ["https://api.openai.com".toList, "https://api.anthropic.com".toList] }
  tlsArgs := [openaiKey ++ '=' :: smallHex]

/-- The same, rearranged: the pin is given twice, once with prefix, capitals and a blank. -/
def rearrangedInput : ConfigInput where
  base :=
    { listenAddr := "127.0.0.1:443".toList
      allowedUpstreams := ["https://api.anthropic.com".toList, "https://api.openai.com".toList] }
  tlsArgs := [openaiKey ++ '=' :: ([' '] ++ ("SHA256:".toList ++ capitalHex) ++ []),
    openaiKey ++ '=' :: smallHex]

theorem rearranged_changes : Relation.EqvGen Change plainInput rearrangedInput := by
  have hcase : PinChange smallHex ([] ++ capitalHex ++ []) := .letterCase (by decide)
  have hblank : PinChange ([] ++ capitalHex ++ []) ([' '] ++ capitalHex ++ []) :=
    .whitespace (by simp [Text.isWhitespace])
  have htag : PinChange ([' '] ++ capitalHex ++ [])
      ([' '] ++ ("SHA256:".toList ++ capitalHex) ++ []) :=
    .addPrefix (by simp [Text.isWhitespace]) (by decide) (by decide) (by decide)
  have hpin : ∀ {v v' : Text}, PinChange v v' →
      Relation.EqvGen Change
        ⟨rearrangedInput.base, [openaiKey ++ '=' :: v, openaiKey ++ '=' :: smallHex]⟩
        ⟨rearrangedInput.base, [openaiKey ++ '=' :: v', openaiKey ++ '=' :: smallHex]⟩ :=
    fun h => .rel _ _ (.pin _ [] _ openaiKey _ _ (by decide) h)
  refine .trans _ _ _ (.rel _ _ (.listenAddr _ "127.0.0.1:443".toList)) ?_
  refine .trans _ _ _ (.rel _ _ (.allowedUpstreams _ _ (.swap _ _ []))) ?_
  refine .trans _ _ _ (.rel _ _ (.again _ [] _ (openaiKey ++ '=' :: smallHex)
    (List.mem_singleton_self _))) ?_
  exact .trans _ _ _ (hpin hcase) (.trans _ _ _ (hpin hblank) (hpin htag))

/-- Both inputs are accepted, with one hash input. -/
theorem rearranged_same_hash :
    ∃ c c', plainInput.Accepts plainUrlParser c ∧ rearrangedInput.Accepts plainUrlParser c' ∧
      c.configHashPreimage plainUrlParser = c'.configHashPreimage plainUrlParser := by
  obtain ⟨hiff, hhash⟩ :=
    presentation_invariant plainUrlParser plainInput rearrangedInput rearranged_changes
  have hc : plainInput.Accepts plainUrlParser { plainInput.base with
      upstreamTlsLeafSha256 := Std.ExtTreeMap.ofList [(openaiKey, [smallHex])] } :=
    ⟨by decide, by decide⟩
  obtain ⟨c', hc'⟩ := hiff.mp ⟨_, hc⟩
  exact ⟨_, c', hc, hc', hhash _ c' hc hc'⟩

end TrustedRelay
