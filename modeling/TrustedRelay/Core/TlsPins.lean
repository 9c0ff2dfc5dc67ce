import TrustedRelay.Core.Origin

/-!
# Normalised TLS pins

What `normalize_upstream_tls_pins` and `upstream_tls_pin_hosts` compute. A normalised entry
comes from one key of the raw map: its origin is the key's origin and its pins are the sorted,
duplicate-free normal forms of that key's values. The map by host collects, for each host, the
pins of all normalised origins of that host; re-parsing an origin cannot fail.
-/

namespace TrustedRelay

/-! ### One pin -/

/-- A normalised pin holds no separator of the hash input. -/
theorem not_mem_normalizeSha256Pin {raw pin : Text} (h : normalizeSha256Pin raw = some pin) :
    '\n' ∉ pin ∧ ',' ∉ pin := by
  simp only [normalizeSha256Pin, Option.ite_none_right_eq_some, Option.some.injEq] at h
  obtain ⟨⟨-, hhex⟩, rfl⟩ := h
  constructor <;> rw [List.mem_append] <;> rintro (hm | hm)
  · revert hm; decide
  · exact Text.not_mem_of_all_asBytes hhex (by decide) (by decide) hm
  · revert hm; decide
  · exact Text.not_mem_of_all_asBytes hhex (by decide) (by decide) hm

/-- The collected pins are the normal forms of the values, each once. -/
theorem foldlM_pushPin {origin : Text} {values pins : List Text}
    (h : values.foldlM (pushPin origin) [] = .ok pins) :
    pins.Nodup ∧ ∀ pin, pin ∈ pins ↔ ∃ v ∈ values, normalizeSha256Pin v = some pin := by
  refine foldlM_invariant (fun (pre acc : List Text) => acc.Nodup ∧ ∀ pin, pin ∈ acc ↔
    ∃ v ∈ pre, normalizeSha256Pin v = some pin) (by simp) ?_ h
  rintro pre v acc acc' - ⟨hnd, hmem⟩ hstep
  simp only [pushPin, Except.bind_eq_ok_iff, okOr_eq_ok_iff, Except.ok.injEq] at hstep
  obtain ⟨pin, hpin, rfl⟩ := hstep
  have hsplit : ∀ q, (∃ w ∈ pre ++ [v], normalizeSha256Pin w = some q) ↔ q ∈ acc ∨ q = pin := by
    intro q
    simp only [List.mem_append, List.mem_singleton, or_and_right, exists_or, exists_eq_left,
      hmem, hpin, Option.some.injEq, eq_comm (a := q)]
  split_ifs with hin
  · refine ⟨hnd, fun q => ?_⟩
    rw [hsplit]
    exact ⟨Or.inl, fun hq => hq.elim id fun heq => heq ▸ hin⟩
  · refine ⟨?_, fun q => ?_⟩
    · rw [← List.concat_eq_append]
      exact List.Nodup.concat hin hnd
    · rw [hsplit, List.mem_append, List.mem_singleton]

section TlsPins

variable (P : UrlParser)

/-! ### The map by origin -/

/-- What one normalised entry is. -/
theorem normalizePinEntry_eq_ok {key origin : Text} {values pins : List Text}
    (h : normalizePinEntry P key values = .ok (origin, pins)) :
    urlOrigin P key = some origin ∧ (∃ u, Url.parse P key = some u ∧ u.scheme = "https".toList) ∧
      values ≠ [] ∧ pins.Pairwise (· < ·) ∧
      ∀ pin, pin ∈ pins ↔ ∃ v ∈ values, normalizeSha256Pin v = some pin := by
  simp only [normalizePinEntry, Except.bind_eq_ok_iff, okOr_eq_ok_iff, ensure_eq_ok_iff,
    Except.ok.injEq, Prod.mk.injEq] at h
  obtain ⟨u, hu, -, hscheme, o, ho, -, hne, collected, hcol, rfl, rfl⟩ := h
  obtain ⟨hnd, hmem⟩ := foldlM_pushPin hcol
  refine ⟨ho, ⟨u, hu, hscheme⟩, hne, ?_, fun pin => ?_⟩
  · have hsorted := List.pairwise_insertionSort (· ≤ ·) collected
    have hnodup := (List.perm_insertionSort (· ≤ ·) collected).nodup_iff.mpr hnd
    exact (hsorted.and hnodup).imp fun h => lt_of_le_of_ne h.1 h.2
  · rw [List.mem_insertionSort, hmem]

/-- What the loop has stored for an origin after the entries `pre`: nothing if none of them has
the origin, and else the pins of the last one that has it. -/
def StoresLast (pre : List (Text × List Text)) (M : BTreeMap (List Text)) (o : Text) : Prop :=
  (M[o]? = none ∧ ∀ e ∈ pre, urlOrigin P e.1 ≠ some o) ∨
    ∃ before last after pins, pre = before ++ last :: after ∧
      (∀ e ∈ after, urlOrigin P e.1 ≠ some o) ∧
      normalizePinEntry P last.1 last.2 = .ok (o, pins) ∧ M[o]? = some pins

/-- One entry replaces the pins of its own origin and leaves the others. -/
theorem storesLast_insert {pre : List (Text × List Text)} {M : BTreeMap (List Text)} {o o' : Text}
    {entry : Text × List Text} {pins : List Text} (h : StoresLast P pre M o)
    (hentry : normalizePinEntry P entry.1 entry.2 = .ok (o', pins)) :
    StoresLast P (pre ++ [entry]) (M.insert o' pins) o := by
  obtain ⟨horigin, -⟩ := normalizePinEntry_eq_ok P hentry
  by_cases heq : o' = o
  · subst heq
    refine .inr ⟨pre, entry, [], pins, rfl, by simp, hentry, ?_⟩
    rw [Std.ExtTreeMap.getElem?_insert_self]
  · have hother : urlOrigin P entry.1 ≠ some o := by
      rw [horigin]
      exact fun hsome => heq (Option.some.inj hsome)
    have hget : (M.insert o' pins)[o]? = M[o]? := by
      rw [Std.ExtTreeMap.getElem?_insert, if_neg]
      exact fun hcmp => heq (Std.LawfulEqCmp.eq_of_compare hcmp)
    rcases h with ⟨hnone, hpre⟩ | ⟨before, last, after, ps, rfl, hafter, hlast, hsome⟩
    · refine .inl ⟨hget.trans hnone, fun e he => ?_⟩
      rcases List.mem_append.mp he with he | he
      · exact hpre e he
      · rwa [List.mem_singleton.mp he]
    · refine .inr ⟨before, last, after ++ [entry], ps, by simp, fun e he => ?_, hlast,
        hget.trans hsome⟩
      rcases List.mem_append.mp he with he | he
      · exact hafter e he
      · rwa [List.mem_singleton.mp he]

/-- The normalised map holds the pins of the last key of each origin. -/
theorem storesLast_of_normalize {raw N : BTreeMap (List Text)}
    (h : normalizeUpstreamTlsPins P raw = .ok N) (o : Text) : StoresLast P raw.toList N o := by
  refine foldlM_invariant (fun pre M => ∀ o, StoresLast P pre M o) ?_ ?_ h o
  · exact fun o => .inl ⟨by simp, by simp⟩
  · rintro pre entry M M' - hI hstep o
    simp only [Except.bind_eq_ok_iff, Except.ok.injEq] at hstep
    obtain ⟨⟨o', ps'⟩, hentry, rfl⟩ := hstep
    exact storesLast_insert P (hI o) hentry

/-- Every normalised entry comes from a key of the raw map. -/
theorem normalizeUpstreamTlsPins_getElem {raw N : BTreeMap (List Text)}
    (h : normalizeUpstreamTlsPins P raw = .ok N) {origin : Text} {pins : List Text}
    (hN : N[origin]? = some pins) :
    ∃ entry ∈ raw.toList, normalizePinEntry P entry.1 entry.2 = .ok (origin, pins) := by
  rcases storesLast_of_normalize P h origin with ⟨hnone, -⟩ | ⟨before, last, after, ps, heq, -,
    hlast, hsome⟩
  · exact absurd (hN.symm.trans hnone) (by simp)
  · obtain rfl := Option.some.inj (hsome.symm.trans hN)
    exact ⟨last, by rw [heq]; simp, hlast⟩

/-! ### Several keys of one origin -/

/-- The normal form of a value that stands under a key of the origin. -/
def OriginPin (raw : BTreeMap (List Text)) (o pin : Text) : Prop :=
  ∃ e ∈ raw.toList, urlOrigin P e.1 = some o ∧ ∃ v ∈ e.2, normalizeSha256Pin v = some pin

/-- The normalised map keeps what the raw map says about an origin: it has an entry if a key has
that origin, with the pins of all such keys in increasing order. -/
def KeepsOrigin (raw N : BTreeMap (List Text)) (o : Text) : Prop :=
  (N[o]?.isSome ↔ ∃ e ∈ raw.toList, urlOrigin P e.1 = some o) ∧
    ∀ pins, N[o]? = some pins →
      pins.Pairwise (· < ·) ∧ ∀ pin, pin ∈ pins ↔ OriginPin P raw o pin

/-- The last key of an origin, in byte order, has the pins of all the keys of that origin. -/
def LastKeyHasAll (raw : BTreeMap (List Text)) (o : Text) : Prop :=
  ∀ before last after, raw.toList = before ++ last :: after → urlOrigin P last.1 = some o →
    (∀ e ∈ after, urlOrigin P e.1 ≠ some o) → ∀ pin, OriginPin P raw o pin →
      ∃ v ∈ last.2, normalizeSha256Pin v = some pin

/-- The last element with a property is determined by the list. -/
theorem last_unique {α : Type} {p : α → Prop} {before before' after after' : List α} {a a' : α}
    (h : before ++ a :: after = before' ++ a' :: after') (ha : p a) (ha' : p a')
    (hafter : ∀ e ∈ after, ¬ p e) (hafter' : ∀ e ∈ after', ¬ p e) : a = a' := by
  rcases List.append_eq_append_iff.mp h with ⟨mid, hmid, hcons⟩ | ⟨mid, hmid, hcons⟩
  · cases mid with
    | nil => exact (List.cons.inj hcons).1
    | cons x mid =>
      obtain ⟨rfl, rfl⟩ := List.cons.inj hcons
      exact absurd ha' (hafter a' (by simp))
  · cases mid with
    | nil => exact (List.cons.inj hcons).1.symm
    | cons x mid =>
      obtain ⟨rfl, rfl⟩ := List.cons.inj hcons
      exact absurd ha (hafter' a (by simp))

/-- No pin of an origin is lost exactly when the last of its keys has them all. -/
theorem keepsOrigin_iff (raw N : BTreeMap (List Text))
    (h : normalizeUpstreamTlsPins P raw = .ok N) (o : Text) :
    KeepsOrigin P raw N o ↔ LastKeyHasAll P raw o := by
  rcases storesLast_of_normalize P h o with ⟨hnone, hpre⟩ | ⟨before, last, after, pins, heq, hafter,
    hlast, hsome⟩
  · refine iff_of_true ⟨?_, ?_⟩ ?_
    · rw [hnone]
      refine iff_of_false (by simp) ?_
      rintro ⟨e, he, ho⟩
      exact hpre e he ho
    · intro pins hpins
      exact absurd (hpins.symm.trans hnone) (by simp)
    · intro before last after heq ho
      exact absurd ho (hpre last (by rw [heq]; simp))
  · obtain ⟨ho, -, -, hsorted, hmem⟩ := normalizePinEntry_eq_ok P hlast
    have hin : last ∈ raw.toList := by rw [heq]; simp
    constructor
    · rintro ⟨-, hkeeps⟩ before' last' after' heq' ho' hafter' pin hpin
      obtain rfl : last = last' := last_unique (heq.symm.trans heq') ho ho' hafter hafter'
      exact (hmem pin).mp (((hkeeps pins hsome).2 pin).mpr hpin)
    · intro hall
      refine ⟨iff_of_true (by rw [hsome]; rfl) ⟨last, hin, ho⟩, fun pins' hpins' => ?_⟩
      obtain rfl := Option.some.inj (hsome.symm.trans hpins')
      refine ⟨hsorted, fun pin => ⟨fun hp => ?_, fun hp => ?_⟩⟩
      · exact ⟨last, hin, ho, (hmem pin).mp hp⟩
      · exact (hmem pin).mpr (hall before last after heq ho hafter pin hp)

/-- Two keys of one origin: with and without the default port. -/
def twoSpellings (pins pins' : List Text) : BTreeMap (List Text) :=
  Std.ExtTreeMap.ofList [("https://api.openai.com".toList, pins),
    ("https://api.openai.com:443".toList, pins')]

def openaiOrigin : Text := "https://api.openai.com:443".toList

/-- The pin under the first spelling is lost. -/
theorem twoSpellings_lose_pin :
    ∃ N, normalizeUpstreamTlsPins plainUrlParser
        (twoSpellings [List.replicate 64 'a'] [List.replicate 64 'b']) = .ok N ∧
      ¬ KeepsOrigin plainUrlParser (twoSpellings [List.replicate 64 'a'] [List.replicate 64 'b']) N
        openaiOrigin := by
  refine ⟨Std.ExtTreeMap.ofList [(openaiOrigin, ["sha256:".toList ++ List.replicate 64 'b'])],
    by decide, ?_⟩
  rintro ⟨-, hkeeps⟩
  obtain ⟨-, hmem⟩ := hkeeps ["sha256:".toList ++ List.replicate 64 'b'] (by decide)
  have hlost : "sha256:".toList ++ List.replicate 64 'a' ∈
      ["sha256:".toList ++ List.replicate 64 'b'] :=
    (hmem _).mpr ⟨("https://api.openai.com".toList, [List.replicate 64 'a']), by decide, by decide,
      List.replicate 64 'a', by decide, by decide⟩
  revert hlost
  decide

/-- Under the second spelling both pins are listed, so none is lost. -/
theorem twoSpellings_keep_pins :
    ∃ N, normalizeUpstreamTlsPins plainUrlParser
        (twoSpellings [List.replicate 64 'a'] [List.replicate 64 'b', List.replicate 64 'a']) =
          .ok N ∧
      KeepsOrigin plainUrlParser
        (twoSpellings [List.replicate 64 'a'] [List.replicate 64 'b', List.replicate 64 'a']) N
        openaiOrigin := by
  have hlist : (twoSpellings [List.replicate 64 'a']
      [List.replicate 64 'b', List.replicate 64 'a']).toList =
      [("https://api.openai.com".toList, [List.replicate 64 'a'])] ++
        ("https://api.openai.com:443".toList, [List.replicate 64 'b', List.replicate 64 'a']) ::
          [] := by decide
  have hok : normalizeUpstreamTlsPins plainUrlParser
      (twoSpellings [List.replicate 64 'a'] [List.replicate 64 'b', List.replicate 64 'a']) =
      .ok (Std.ExtTreeMap.ofList [(openaiOrigin, ["sha256:".toList ++ List.replicate 64 'a',
        "sha256:".toList ++ List.replicate 64 'b'])]) := by decide
  refine ⟨_, hok, (keepsOrigin_iff plainUrlParser _ _ hok openaiOrigin).mpr ?_⟩
  rintro before last after heq ho hafter pin ⟨e, he, -, v, hv, hpin⟩
  obtain rfl := last_unique (heq.symm.trans hlist) ho (by decide) hafter (by simp)
  rw [hlist] at he
  simp only [List.cons_append, List.nil_append, List.mem_cons, List.not_mem_nil, or_false] at he
  rcases he with rfl | rfl
  · exact ⟨v, List.mem_cons_of_mem _ hv, hpin⟩
  · exact ⟨v, hv, hpin⟩

/-! ### The map by host -/

/-- The host under which the pins of an origin are filed. -/
def pinHost (origin : Text) : Option Text :=
  ((Url.parse P origin).bind Url.hostStr).map Text.toAsciiLowercase

/-- The pins collected so far: a host is there exactly when one of the origins has it, with the
pins of all such origins. -/
def HostPins (pre : List (Text × List Text)) (M : BTreeMap (Std.ExtTreeSet Text)) : Prop :=
  ∀ host, (M[host]?.isSome ↔ ∃ e ∈ pre, pinHost P e.1 = some host) ∧
    ∀ s, M[host]? = some s → ∀ pin, pin ∈ s ↔ ∃ e ∈ pre, pinHost P e.1 = some host ∧ pin ∈ e.2

theorem hostPins_nil : HostPins P [] ∅ := by
  intro host
  simp

/-- One origin adds its pins to its own host and to no other. -/
theorem hostPins_step {pre : List (Text × List Text)} {M M' : BTreeMap (Std.ExtTreeSet Text)}
    {entry : Text × List Text} (hM : HostPins P pre M)
    (hstep : RelayConfig.addHostPins P M entry = .ok M') : HostPins P (pre ++ [entry]) M' := by
  simp only [RelayConfig.addHostPins, Except.bind_eq_ok_iff, okOr_eq_ok_iff, Except.ok.injEq]
    at hstep
  obtain ⟨u, hu, name, hname, rfl⟩ := hstep
  have hhost : pinHost P entry.1 = some (Text.toAsciiLowercase name) := by
    simp [pinHost, hu, hname]
  intro host
  obtain ⟨hsome, hmem⟩ := hM host
  -- an entry of this host is an old one or the new one
  have hex : ∀ p : Text × List Text → Prop,
      (∃ e ∈ pre ++ [entry], pinHost P e.1 = some host ∧ p e) ↔
        (∃ e ∈ pre, pinHost P e.1 = some host ∧ p e) ∨
          (Text.toAsciiLowercase name = host ∧ p entry) := by
    intro p
    simp only [List.mem_append, List.mem_singleton, or_and_right, exists_or, exists_eq_left, hhost,
      Option.some.injEq]
  have hex1 := hex fun _ => True
  simp only [and_true] at hex1
  rw [Std.ExtTreeMap.getElem?_alter, hex1]
  by_cases heq : Text.toAsciiLowercase name = host
  · subst heq
    rw [if_pos Std.ReflCmp.compare_self]
    refine ⟨iff_of_true rfl (Or.inr rfl), ?_⟩
    rintro s hs pin
    obtain rfl := Option.some.inj hs
    rw [Std.ExtTreeSet.mem_insertMany_list, List.contains_iff_mem, hex fun e => pin ∈ e.2]
    -- a host without an entry so far has no pins so far
    have hold : pin ∈ M[Text.toAsciiLowercase name]?.getD ∅ ↔
        ∃ e ∈ pre, pinHost P e.1 = some (Text.toAsciiLowercase name) ∧ pin ∈ e.2 := by
      cases hget : M[Text.toAsciiLowercase name]? with
      | some s => exact hmem s hget pin
      | none =>
        rw [hget] at hsome
        refine iff_of_false (by simp) ?_
        rintro ⟨e, he, heh, -⟩
        exact absurd (hsome.mpr ⟨e, he, heh⟩) (by simp)
    simp [hold]
  · have hcmp : ¬compare (Text.toAsciiLowercase name) host = .eq :=
      fun h => heq (Std.LawfulEqCmp.eq_of_compare h)
    rw [if_neg hcmp]
    refine ⟨by rw [hsome, or_iff_left heq], ?_⟩
    intro s hs pin
    rw [hmem s hs pin, hex fun e => pin ∈ e.2]
    simp [heq]

/-- The map by host: each host has the pins of all its origins, and no other host is there. -/
theorem upstreamTlsPinHosts_eq_ok {c : RelayConfig} {byHost : BTreeMap (List Text)}
    (h : c.upstreamTlsPinHosts P = .ok byHost) :
    ∃ N, normalizeUpstreamTlsPins P c.upstreamTlsLeafSha256 = .ok N ∧ ∀ host,
      (byHost[host]?.isSome ↔ ∃ e ∈ N.toList, pinHost P e.1 = some host) ∧
      ∀ pins, byHost[host]? = some pins → ∀ pin,
        pin ∈ pins ↔ ∃ e ∈ N.toList, pinHost P e.1 = some host ∧ pin ∈ e.2 := by
  simp only [RelayConfig.upstreamTlsPinHosts, Except.bind_eq_ok_iff, Except.ok.injEq] at h
  obtain ⟨N, hN, M, hM, rfl⟩ := h
  have hinv : HostPins P N.toList M :=
    foldlM_invariant (HostPins P) (hostPins_nil P)
      (fun _ _ _ _ _ hI hstep => hostPins_step P hI hstep) hM
  refine ⟨N, hN, fun host => ?_⟩
  obtain ⟨hsome, hmem⟩ := hinv host
  rw [Std.ExtTreeMap.getElem?_map]
  refine ⟨by simpa using hsome, fun pins hpins pin => ?_⟩
  obtain ⟨s, hs, rfl⟩ := Option.map_eq_some_iff.mp hpins
  rw [Std.ExtTreeSet.mem_toList, hmem s hs pin]

/-- An origin is filed under the host of the URL it was taken from. -/
theorem pinHost_urlOrigin {raw o : Text} {u : Url} {host : Host} (ho : urlOrigin P raw = some o)
    (hu : Url.parse P raw = some u) (hhost : u.host = some host) :
    pinHost P o = some host.hostStr := by
  obtain ⟨v, hv, -, hvhost⟩ := parse_urlOrigin P ho hu
  rw [pinHost, hv, Option.bind_some, Url.hostStr, hvhost, hhost, Option.map_some, Option.map_some,
    Host.toAsciiLowercase_hostStr]

/-! ### From origins to hosts -/

/-- The origin string is printed with this host. -/
def HasHost (origin host : Text) : Prop :=
  ∃ port : ℕ, origin = "https://".toList ++ host ++ ":".toList ++ Text.decimal port

/-- The last colon of an origin string stands before the port. -/
theorem HasHost.unique {o host host' : Text} (h : HasHost o host) (h' : HasHost o host') :
    host = host' := by
  obtain ⟨port, rfl⟩ := h
  obtain ⟨port', heq⟩ := h'
  have hnot : ∀ n : ℕ, ∀ c ∈ Text.decimal n, ¬ c = ':' := by
    rintro n c hc rfl
    exact absurd (Text.isDigit_of_mem_decimal hc) (by decide)
  have hcut : host ++ ':' :: Text.decimal port = host' ++ ':' :: Text.decimal port' := by
    simpa using heq
  -- read from the end, the text up to the first colon is the port
  have hrev := congrArg List.reverse hcut
  simp only [List.reverse_append, List.reverse_cons, List.append_assoc, List.singleton_append]
    at hrev
  have hsplit : ∀ n : ℕ, ∀ s : Text, Text.splitOnce ((Text.decimal n).reverse ++ ':' :: s) ':' =
      some ((Text.decimal n).reverse, s) := fun n s =>
    Text.splitOnce_append (fun hmem => hnot n _ (List.mem_reverse.mp hmem) rfl) s
  have hpair := hsplit port host.reverse
  rw [hrev, hsplit port'] at hpair
  exact List.reverse_injective (Prod.mk.inj (Option.some.inj hpair)).2.symm

/-- A normalised origin is an `https` origin, filed under the host it is printed with. -/
theorem hasHost_of_normalize {raw N : BTreeMap (List Text)}
    (h : normalizeUpstreamTlsPins P raw = .ok N) {o : Text} {pins : List Text}
    (hN : N[o]? = some pins) : ∃ host, HasHost o host ∧ pinHost P o = some host := by
  obtain ⟨⟨key, values⟩, -, hentry⟩ := normalizeUpstreamTlsPins_getElem P h hN
  obtain ⟨horigin, ⟨u, hu, hscheme⟩, -⟩ := normalizePinEntry_eq_ok P hentry
  obtain ⟨u', host, port, hu', -, -, hhost, -, -, heq⟩ := urlOrigin_eq_some P horigin
  obtain rfl : u = u' := Option.some.inj (hu.symm.trans hu')
  refine ⟨host.hostStr, ⟨port, ?_⟩, pinHost_urlOrigin P horigin hu hhost⟩
  rw [heq, hscheme]
  simp

/-- For a normalised origin, the host it is filed under is the host it is printed with. -/
theorem pinHost_eq_some_iff {raw N : BTreeMap (List Text)}
    (h : normalizeUpstreamTlsPins P raw = .ok N) {o : Text} {pins : List Text}
    (hN : N[o]? = some pins) {host : Text} : pinHost P o = some host ↔ HasHost o host := by
  obtain ⟨name, hname, hpin⟩ := hasHost_of_normalize P h hN
  rw [hpin, Option.some.injEq]
  constructor
  · rintro rfl
    exact hname
  · exact hname.unique

/-- The entry of a host: it is there if an origin has the host, and it lists the pins of all
such origins in increasing order. -/
structure IsHostEntry (N : BTreeMap (List Text)) (host : Text) (entry : Option (List Text)) :
    Prop where
  absent : entry = none ↔ ∀ o ∈ N, ¬ HasHost o host
  increasing : ∀ pins, entry = some pins → pins.Pairwise (· < ·)
  union : ∀ pins, entry = some pins → ∀ pin,
    pin ∈ pins ↔ ∃ o ps, N[o]? = some ps ∧ HasHost o host ∧ pin ∈ ps

/-- An origin with a host is added without an error. -/
theorem addHostPins_isOk {o host : Text} {pins : List Text} (h : pinHost P o = some host)
    (byHost : BTreeMap (Std.ExtTreeSet Text)) :
    ∃ byHost', RelayConfig.addHostPins P byHost (o, pins) = .ok byHost' := by
  obtain ⟨name, hname, -⟩ := Option.map_eq_some_iff.mp h
  obtain ⟨u, hu, hstr⟩ := Option.bind_eq_some_iff.mp hname
  simp only [RelayConfig.addHostPins, Except.bind_eq_ok_iff, okOr_eq_ok_iff, Except.ok.injEq]
  exact ⟨_, u, hu, name, hstr, rfl⟩

/-- After a successful normalisation no error branch of the grouping is reached. -/
theorem upstreamTlsPinHosts_isOk {c : RelayConfig} {N : BTreeMap (List Text)}
    (h : normalizeUpstreamTlsPins P c.upstreamTlsLeafSha256 = .ok N) :
    ∃ byHost, c.upstreamTlsPinHosts P = .ok byHost := by
  have hstep : ∀ entry ∈ N.toList, ∀ byHost, ∃ byHost',
      RelayConfig.addHostPins P byHost entry = .ok byHost' := by
    rintro ⟨o, pins⟩ hmem byHost
    obtain ⟨host, -, hhost⟩ :=
      hasHost_of_normalize P h (Std.ExtTreeMap.mem_toList_iff_getElem?_eq_some.mp hmem)
    exact addHostPins_isOk P hhost byHost
  obtain ⟨M, hM⟩ := foldlM_isOk hstep ∅
  exact ⟨_, Except.bind_eq_ok_iff.mpr ⟨N, h, Except.bind_eq_ok_iff.mpr ⟨M, hM, rfl⟩⟩⟩

/-- The pins of a host are listed in increasing order. -/
theorem upstreamTlsPinHosts_increasing {c : RelayConfig} {byHost : BTreeMap (List Text)}
    (h : c.upstreamTlsPinHosts P = .ok byHost) {host : Text} {pins : List Text}
    (hpins : byHost[host]? = some pins) : pins.Pairwise (· < ·) := by
  simp only [RelayConfig.upstreamTlsPinHosts, Except.bind_eq_ok_iff, Except.ok.injEq] at h
  obtain ⟨N, -, M, -, rfl⟩ := h
  rw [Std.ExtTreeMap.getElem?_map] at hpins
  obtain ⟨s, -, rfl⟩ := Option.map_eq_some_iff.mp hpins
  exact s.ordered_toList.imp Text.lt_of_compare

/-- The map by host holds one entry for each host, as `IsHostEntry` describes it. -/
theorem isHostEntry_of_eq_ok {c : RelayConfig} {N byHost : BTreeMap (List Text)}
    (hN : normalizeUpstreamTlsPins P c.upstreamTlsLeafSha256 = .ok N)
    (h : c.upstreamTlsPinHosts P = .ok byHost) (host : Text) :
    IsHostEntry N host byHost[host]? := by
  obtain ⟨N', hN', hspec⟩ := upstreamTlsPinHosts_eq_ok P h
  obtain rfl : N = N' := Except.ok.inj (hN.symm.trans hN')
  obtain ⟨hsome, hmem⟩ := hspec host
  -- the entries of the list by origin are those of the map
  have hex : ∀ p : List Text → Prop,
      (∃ e ∈ N.toList, pinHost P e.1 = some host ∧ p e.2) ↔
        ∃ o ps, N[o]? = some ps ∧ HasHost o host ∧ p ps := by
    intro p
    constructor
    · rintro ⟨⟨o, ps⟩, he, hhost, hp⟩
      have hget := Std.ExtTreeMap.mem_toList_iff_getElem?_eq_some.mp he
      exact ⟨o, ps, hget, (pinHost_eq_some_iff P hN hget).mp hhost, hp⟩
    · rintro ⟨o, ps, hget, hhost, hp⟩
      exact ⟨(o, ps), Std.ExtTreeMap.mem_toList_iff_getElem?_eq_some.mpr hget,
        (pinHost_eq_some_iff P hN hget).mpr hhost, hp⟩
  refine ⟨?_, fun pins hpins => upstreamTlsPinHosts_increasing P h hpins,
    fun pins hpins pin => (hmem pins hpins pin).trans (hex fun ps => pin ∈ ps)⟩
  have hthere := hex fun _ => True
  simp only [and_true] at hthere
  rw [← not_iff_not, ← ne_eq, ← Option.isSome_iff_ne_none, hsome, hthere]
  push Not
  constructor
  · rintro ⟨o, ps, hget, hhost⟩
    exact ⟨o, Std.ExtTreeMap.mem_iff_isSome_getElem?.mpr (by rw [hget]; rfl), hhost⟩
  · rintro ⟨o, ho, hhost⟩
    obtain ⟨ps, hget⟩ := Option.isSome_iff_exists.mp (Std.ExtTreeMap.mem_iff_isSome_getElem?.mp ho)
    exact ⟨o, ps, hget, hhost⟩

/-- The pins of a URL's origin are among the pins of its host. -/
theorem upstreamTlsPinsFor_subset {c : RelayConfig} {byHost : BTreeMap (List Text)}
    (h : c.upstreamTlsPinHosts P = .ok byHost) {raw : Text} {ps : List Text}
    (hps : c.upstreamTlsPinsFor P raw = .ok (some ps)) :
    ∃ u host entry, Url.parse P raw = some u ∧ u.hostStr = some host ∧
      byHost[host]? = some entry ∧ ps ⊆ entry := by
  simp only [RelayConfig.upstreamTlsPinsFor, Except.bind_eq_ok_iff, okOr_eq_ok_iff,
    Except.ok.injEq] at hps
  obtain ⟨N, hN, o, ho, hget⟩ := hps
  obtain ⟨u, host, port, hu, -, -, hhost, -⟩ := urlOrigin_eq_some P ho
  have hfiled := (pinHost_eq_some_iff P hN hget).mp (pinHost_urlOrigin P ho hu hhost)
  have hentry := isHostEntry_of_eq_ok P hN h host.hostStr
  cases hgot : byHost[host.hostStr]? with
  | none =>
    have hmem : o ∈ N := Std.ExtTreeMap.mem_iff_isSome_getElem?.mpr (by rw [hget]; rfl)
    exact absurd hfiled (hentry.absent.mp hgot o hmem)
  | some pins =>
    refine ⟨u, host.hostStr, pins, hu, by rw [Url.hostStr, hhost]; rfl, hgot, fun pin hpin => ?_⟩
    exact (hentry.union pins hgot pin).mpr ⟨o, ps, hget, hfiled, hpin⟩

/-- Grouping by host cannot fail after normalisation and keeps every pin. -/
theorem upstreamTlsPinHosts_spec (c : RelayConfig) (N : BTreeMap (List Text))
    (hN : normalizeUpstreamTlsPins P c.upstreamTlsLeafSha256 = .ok N) :
    ∃ byHost, c.upstreamTlsPinHosts P = .ok byHost ∧
      (∀ host, IsHostEntry N host byHost[host]?) ∧
      ∀ raw ps, c.upstreamTlsPinsFor P raw = .ok (some ps) →
        ∃ u host entry, Url.parse P raw = some u ∧ u.hostStr = some host ∧
          byHost[host]? = some entry ∧ ps ⊆ entry := by
  obtain ⟨byHost, h⟩ := upstreamTlsPinHosts_isOk P hN
  exact ⟨byHost, h, isHostEntry_of_eq_ok P hN h,
    fun raw ps hps => upstreamTlsPinsFor_subset P h hps⟩

end TlsPins

/-- Two ports of one host, with a pin each. -/
def twoPorts : RelayConfig where
  upstreamTlsLeafSha256 := Std.ExtTreeMap.ofList
    [("https://api.openai.com".toList, [List.replicate 64 'B']),
      ("https://api.openai.com:8443".toList, [List.replicate 64 'a'])]

/-- Both pins are filed under the host. -/
theorem twoPorts_share_host :
    ∃ byHost entry, twoPorts.upstreamTlsPinHosts plainUrlParser = .ok byHost ∧
      byHost["api.openai.com".toList]? = some entry ∧
      ["sha256:".toList ++ List.replicate 64 'a', "sha256:".toList ++ List.replicate 64 'b'] ⊆
        entry := by
  obtain ⟨byHost, h, hentry, -⟩ := upstreamTlsPinHosts_spec plainUrlParser twoPorts
    (Std.ExtTreeMap.ofList
      [("https://api.openai.com:443".toList, ["sha256:".toList ++ List.replicate 64 'b']),
        ("https://api.openai.com:8443".toList, ["sha256:".toList ++ List.replicate 64 'a'])])
    (by decide)
  have hopenai := hentry "api.openai.com".toList
  cases hgot : byHost["api.openai.com".toList]? with
  | none =>
    exact absurd ⟨443, by decide⟩
      (hopenai.absent.mp hgot "https://api.openai.com:443".toList (by decide))
  | some entry =>
    refine ⟨byHost, entry, h, hgot, ?_⟩
    have hunion := hopenai.union entry hgot
    simp only [List.cons_subset, List.nil_subset, and_true]
    exact ⟨(hunion _).mpr ⟨"https://api.openai.com:8443".toList, _, rfl, ⟨8443, by decide⟩,
        List.mem_singleton_self _⟩,
      (hunion _).mpr ⟨"https://api.openai.com:443".toList, _, rfl, ⟨443, by decide⟩,
        List.mem_singleton_self _⟩⟩

end TrustedRelay
