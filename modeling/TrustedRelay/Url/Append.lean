import TrustedRelay.Url.Parse

/-!
# Text appended to a URL

A URL is often completed by gluing a path to a base as text. The result names the host of the
base only if the glued text cannot run into the authority: either the base already has something
behind its authority, or the text starts with a character that ends one. `parse_trimmed_append`
shows that this is enough, for every base and every text. What remains is a base with trailing
blanks, which `Url::parse` trims from the base but meets inside the authority of the glued text;
no host and no port holds a blank, so the glued text is then refused.
-/

namespace TrustedRelay

namespace Url

/-- The text as the parser meets it when more follows: only its start is trimmed. -/
def cleanStart (s : Text) : Text := (s.dropWhile isC0OrSpace).filter (!isTabOrNewline ·)

/-- The text as the parser meets it when it stands at the end. -/
def cleanEnd (s : Text) : Text := (s.rdropWhile isC0OrSpace).filter (!isTabOrNewline ·)

/-- The text behind the scheme and the slashes. -/
def afterSlashes (s : Text) : Option Text :=
  (splitScheme (cleanStart s)).map fun p => p.2.dropWhile isSlash

/-- Something follows the authority, so that text behind `s` cannot be part of it. -/
def closesAuthority (s : Text) : Bool := (afterSlashes s).any (·.any isAuthorityEnd)

/-- The text is blank or starts with a character that ends an authority. -/
def opensPath (s : Text) : Bool := (cleanEnd s).head?.all isAuthorityEnd

/-! ### Trimming a concatenation -/

/-- A text that starts outside `p` and outside `q` starts so after trimming its end. -/
theorem dropWhile_rdropWhile {α : Type} {p q : α → Bool} {s : List α} {x : α}
    (hx : (s.dropWhile p).head? = some x) (hq : q x = false) :
    (s.rdropWhile q).dropWhile p = (s.dropWhile p).rdropWhile q := by
  obtain ⟨rest, hrest⟩ : ∃ rest, s.dropWhile p = x :: rest := by
    cases h : s.dropWhile p with
    | nil => simp [h] at hx
    | cons y rest => exact ⟨rest, by simpa [h] using hx⟩
  have hne : (s.dropWhile p).rdropWhile q ≠ [] := by
    rw [hrest, Ne, List.rdropWhile_eq_nil_iff]
    intro hall
    have := hall x List.mem_cons_self
    rw [hq] at this
    exact absurd this (by decide)
  have hpx : p x = false := by
    have := List.head?_dropWhile_not p s
    rw [hx] at this
    simpa using this
  have hhead : ((s.dropWhile p).rdropWhile q).head? = some x := by
    obtain ⟨w, hw⟩ := List.rdropWhile_prefix q (l := s.dropWhile p)
    cases hr : (s.dropWhile p).rdropWhile q with
    | nil => exact absurd hr hne
    | cons y l =>
      rw [hr, hrest] at hw
      simp only [List.cons_append, List.cons.injEq] at hw
      simp [hw.1]
  -- what `p` drops is in front of `x`, where `q` does not reach
  conv_lhs => rw [← List.takeWhile_append_dropWhile (p := p) (l := s)]
  rw [Text.rdropWhile_append, if_neg hne, List.dropWhile_append_of_pos]
  · cases hr : (s.dropWhile p).rdropWhile q with
    | nil => rfl
    | cons y l =>
      rw [hr] at hhead
      obtain rfl : y = x := by simpa using hhead
      rw [List.dropWhile_cons_of_neg (by simp [hpx])]
  · exact fun a ha => List.mem_takeWhile_imp ha

theorem isTabOrNewline_of_not_blank {c : Char} (h : isC0OrSpace c = false) :
    isTabOrNewline c = false := by
  simp only [isTabOrNewline, Bool.or_eq_false_iff, beq_eq_false_iff_ne]
  refine ⟨⟨?_, ?_⟩, ?_⟩ <;> rintro rfl <;> exact absurd h (by decide)

/-- Trimming the end removes blanks only. -/
theorem exists_cleanStart_eq (s : Text) :
    ∃ v, (∀ c ∈ v, isC0OrSpace c = true) ∧ cleanStart s = clean s ++ v := by
  refine ⟨((s.dropWhile isC0OrSpace).rtakeWhile isC0OrSpace).filter (!isTabOrNewline ·), ?_, ?_⟩
  · intro c hc
    exact List.mem_rtakeWhile_imp (List.mem_filter.mp hc).1
  · rw [clean, ← List.filter_append, List.rdropWhile_append_rtakeWhile]
    rfl

/-- The first character of a cleaned text is the first one of the text that is not blank. -/
theorem head?_dropWhile_of_clean {s : Text} {c : Char} (h : (clean s).head? = some c) :
    (s.dropWhile isC0OrSpace).head? = some c := by
  obtain ⟨w, hw⟩ := List.rdropWhile_prefix isC0OrSpace (l := s.dropWhile isC0OrSpace)
  have hnot := List.head?_dropWhile_not isC0OrSpace s
  rw [clean] at h
  cases hr : (s.dropWhile isC0OrSpace).rdropWhile isC0OrSpace with
  | nil => simp [hr] at h
  | cons d l =>
    rw [hr] at h hw
    rw [← hw] at hnot ⊢
    simp only [List.cons_append, List.head?_cons] at hnot
    rw [List.filter_cons_of_pos (by simp [isTabOrNewline_of_not_blank (by simpa using hnot)])] at h
    simpa using h

/-- Cleaning a concatenation whose first part is not blank. -/
theorem clean_append {s t : Text} (hs : s.dropWhile isC0OrSpace ≠ []) :
    clean (s ++ t) = if t.rdropWhile isC0OrSpace = [] then clean s
      else cleanStart s ++ cleanEnd t := by
  rw [clean, List.dropWhile_append, if_neg (by simpa using hs), Text.rdropWhile_append]
  split_ifs with h
  · rfl
  · rw [List.filter_append]
    rfl

/-- A base without the slashes at its end. -/
theorem cleanStart_trimEndMatches {s : Text} {c : Char} (h : (clean s).head? = some c)
    (hc : c ≠ '/') : (Text.trimEndMatches s '/').dropWhile isC0OrSpace ≠ [] ∧
      ∃ sl, (∀ d ∈ sl, d = '/') ∧ cleanStart s = cleanStart (Text.trimEndMatches s '/') ++ sl := by
  have hhead := head?_dropWhile_of_clean h
  have hdrop : (Text.trimEndMatches s '/').dropWhile isC0OrSpace =
      (s.dropWhile isC0OrSpace).rdropWhile (· == '/') :=
    dropWhile_rdropWhile hhead (by simpa using hc)
  constructor
  · rw [hdrop, Ne, List.rdropWhile_eq_nil_iff]
    intro hall
    have := hall c (List.mem_of_mem_head? hhead)
    exact hc (by simpa using this)
  · refine ⟨((s.dropWhile isC0OrSpace).rtakeWhile (· == '/')).filter (!isTabOrNewline ·), ?_, ?_⟩
    · intro d hd
      simpa using List.mem_rtakeWhile_imp (List.mem_filter.mp hd).1
    · rw [cleanStart, cleanStart, hdrop, ← List.filter_append, List.rdropWhile_append_rtakeWhile]

/-! ### Scheme and authority of a concatenation -/

theorem splitScheme_eq_some {s scheme rest : Text} (h : splitScheme s = some (scheme, rest)) :
    ∃ c, s.head? = some c ∧ c.isAlpha = true ∧ s.dropWhile isSchemeChar = ':' :: rest ∧
      scheme = Text.toAsciiLowercase (s.takeWhile isSchemeChar) := by
  unfold splitScheme at h
  split at h
  · next c r hhead hdrop =>
    split_ifs at h with halpha
    simp only [Option.some.injEq, Prod.mk.injEq] at h
    exact ⟨c, hhead, halpha, h.2 ▸ hdrop, h.1.symm⟩
  · simp at h

theorem splitScheme_eq {s rest : Text} {c : Char} (hhead : s.head? = some c)
    (halpha : c.isAlpha = true) (hdrop : s.dropWhile isSchemeChar = ':' :: rest) :
    splitScheme s = some (Text.toAsciiLowercase (s.takeWhile isSchemeChar), rest) := by
  simp [splitScheme, hhead, hdrop, halpha]

/-- The scheme ends at its colon, whatever follows. -/
theorem splitScheme_append {s scheme rest : Text} (h : splitScheme s = some (scheme, rest))
    (t : Text) : splitScheme (s ++ t) = some (scheme, rest ++ t) := by
  obtain ⟨c, hhead, halpha, hdrop, rfl⟩ := splitScheme_eq_some h
  have hdrop' : (s ++ t).dropWhile isSchemeChar = ':' :: (rest ++ t) := by
    simp [List.dropWhile_append, hdrop]
  have htake : (s ++ t).takeWhile isSchemeChar = s.takeWhile isSchemeChar := by
    rw [List.takeWhile_append, if_neg]
    intro hlen
    have hs := congrArg List.length (List.takeWhile_append_dropWhile (p := isSchemeChar) (l := s))
    rw [hdrop, List.length_append, hlen] at hs
    simp at hs
  rw [splitScheme_eq (by simp [hhead]) halpha hdrop', htake]

/-- A scheme is not completed by text that holds neither a colon nor a scheme character. -/
theorem splitScheme_of_append {s t scheme rest : Text}
    (ht : ∀ c ∈ t, isSchemeChar c = false ∧ c ≠ ':') (hs : s ≠ [])
    (h : splitScheme (s ++ t) = some (scheme, rest)) :
    ∃ r, splitScheme s = some (scheme, r) ∧ rest = r ++ t := by
  obtain ⟨c, hhead, halpha, hdrop, rfl⟩ := splitScheme_eq_some h
  have hhead' : s.head? = some c := by
    cases s with
    | nil => exact absurd rfl hs
    | cons d s => simpa using hhead
  rw [List.dropWhile_append] at hdrop
  split_ifs at hdrop with hempty
  · cases t with
    | nil => simp at hdrop
    | cons d t =>
      obtain ⟨hd, hcolon⟩ := ht d List.mem_cons_self
      rw [List.dropWhile_cons_of_neg (by simp [hd])] at hdrop
      exact absurd (List.cons.inj hdrop).1 hcolon
  · cases hds : s.dropWhile isSchemeChar with
    | nil => simp [hds] at hempty
    | cons d r =>
      rw [hds, List.cons_append] at hdrop
      obtain ⟨rfl, rfl⟩ := List.cons.inj hdrop
      have hsplit := splitScheme_eq hhead' halpha hds
      have happ := splitScheme_append hsplit t
      rw [h] at happ
      simp only [Option.some.injEq, Prod.mk.injEq] at happ
      exact ⟨r, by rw [hsplit, ← happ.1], rfl⟩

theorem takeWhile_append_of_exists {α : Type} {p : α → Bool} {s : List α} (t : List α)
    (h : ∃ x ∈ s, p x = false) : (s ++ t).takeWhile p = s.takeWhile p := by
  induction s with
  | nil => simp at h
  | cons y s ih =>
    cases hy : p y with
    | false => simp [hy]
    | true =>
      obtain ⟨x, hx, hpx⟩ := h
      rcases List.mem_cons.mp hx with rfl | hx
      · rw [hy] at hpx
        exact absurd hpx (by decide)
      · simp [hy, ih ⟨x, hx, hpx⟩]

/-- An authority that has ended is not changed by what follows. -/
theorem authorityText_append_of_any {r : Text} (t : Text)
    (h : (r.dropWhile isSlash).any isAuthorityEnd = true) :
    authorityText (r ++ t) = authorityText r := by
  have hne : r.dropWhile isSlash ≠ [] := by
    intro hnil
    simp [hnil] at h
  rw [authorityText, authorityText, List.dropWhile_append, if_neg (by simpa using hne)]
  exact takeWhile_append_of_exists t (by simpa using h)

/-- An authority that has begun and not ended grows by text in front of its end. -/
theorem authorityText_append_of_not_any {r : Text} (t : Text) (hr : r.dropWhile isSlash ≠ [])
    (h : (r.dropWhile isSlash).any isAuthorityEnd = false) :
    authorityText (r ++ t) = authorityText r ++ t.takeWhile (!isAuthorityEnd ·) := by
  have hall : ∀ c ∈ r.dropWhile isSlash, (!isAuthorityEnd c) = true := by
    simpa using h
  rw [authorityText, authorityText, List.dropWhile_append, if_neg (by simpa using hr),
    List.takeWhile_append_of_pos hall, List.takeWhile_eq_self_iff.mpr hall]

/-- Text that is empty or starts with an ending character does not change an authority. -/
theorem authorityText_append_of_head {r t : Text} (hr : r.dropWhile isSlash ≠ [])
    (ht : t.head?.all isAuthorityEnd = true) : authorityText (r ++ t) = authorityText r := by
  cases hany : (r.dropWhile isSlash).any isAuthorityEnd with
  | true => exact authorityText_append_of_any t hany
  | false =>
    have hnil : t.takeWhile (!isAuthorityEnd ·) = [] := by
      cases t with
      | nil => rfl
      | cons c t => simpa using ht
    rw [authorityText_append_of_not_any t hr hany, hnil, List.append_nil]

/-! ### Blanks in an authority -/

theorem spanHost_append_eq (inside : Bool) (s : Text) :
    (spanHost inside s).1 ++ (spanHost inside s).2 = s := by
  induction s generalizing inside with
  | nil => rfl
  | cons c s ih =>
    unfold spanHost
    split_ifs <;> simp [ih]

theorem spanHost_snd (inside : Bool) (s : Text) :
    (spanHost inside s).2 = [] ∨ ∃ digits, (spanHost inside s).2 = ':' :: digits := by
  induction s generalizing inside with
  | nil => exact Or.inl rfl
  | cons c s ih =>
    by_cases hc : (c == ':' && !inside) = true
    · have hcolon : c = ':' := by simpa using (Bool.and_eq_true_iff.mp hc).1
      exact Or.inr ⟨s, by rw [spanHost, if_pos hc, hcolon]⟩
    · simp only [spanHost, hc]
      exact ih _

/-- An authority that ends in a blank is refused: the blank is in the host or in the port. -/
theorem parseAuthority_concat_blank (P : UrlParser) (scheme a : Text) {b : Char}
    (hb : isC0OrSpace b = true) : parseAuthority P scheme (a ++ [b]) = none := by
  have hat : b ≠ '@' := by
    rintro rfl
    exact absurd hb (by decide)
  obtain ⟨hp, hhp⟩ : ∃ hp, (splitUserinfo (a ++ [b])).2.2 = hp ++ [b] := by
    refine ⟨(a.reverse.takeWhile (· != '@')).reverse, ?_⟩
    simp [splitUserinfo, hat]
  have hsplit := spanHost_append_eq false (hp ++ [b])
  simp only [parseAuthority, hhp]
  rcases spanHost_snd false (hp ++ [b]) with hnil | ⟨digits, hcolon⟩
  · -- without a port the blank belongs to the host
    rw [hnil, List.append_nil] at hsplit
    have hnone : P.hostParse (spanHost false (hp ++ [b])).1 = none :=
      P.hostParse_eq_none _ ⟨b, by rw [hsplit]; simp, hb⟩
    simp [hnone]
  · -- with a port it is the last of the digits
    have hmem : b ∈ digits := by
      rw [hcolon] at hsplit
      have hlast := congrArg List.getLast? hsplit
      rw [List.getLast?_append, List.getLast?_concat] at hlast
      cases digits with
      | nil =>
        obtain rfl : ':' = b := by simpa using hlast
        exact absurd hb (by decide)
      | cons d ds =>
        refine List.mem_of_getLast? (?_ : (d :: ds).getLast? = some b)
        simpa using hlast
    have hport : parsePort scheme (':' :: digits) = none := by
      have hdigits : digits.all Char.isDigit = false := by
        rw [List.all_eq_false]
        refine ⟨b, hmem, fun hd => ?_⟩
        have hk : HostKind.ipv4.isChar b = true := by
          simp [HostKind.isChar, hd]
        have := (HostKind.isChar_range hk).1
        simp only [isC0OrSpace, decide_eq_true_eq] at hb
        omega
      simp [parsePort, hdigits]
    simp [hcolon, hport]

/-! ### The glued URL -/

/-- Blanks behind an unfinished authority belong to it; behind a finished one they do not
count. -/
theorem authorityText_append_blanks {r v : Text} (hr : r.dropWhile isSlash ≠ [])
    (hv : ∀ c ∈ v, isC0OrSpace c = true) :
    authorityText (r ++ v) = authorityText r ∨ authorityText (r ++ v) = authorityText r ++ v := by
  cases hany : (r.dropWhile isSlash).any isAuthorityEnd with
  | true => exact Or.inl (authorityText_append_of_any v hany)
  | false =>
    refine Or.inr ?_
    rw [authorityText_append_of_not_any v hr hany, List.takeWhile_eq_self_iff.mpr]
    intro c hc
    have hlow := hv c hc
    simp only [isAuthorityEnd, isSlash, Bool.not_eq_true', Bool.or_eq_false_iff,
      beq_eq_false_iff_ne]
    refine ⟨⟨⟨?_, ?_⟩, ?_⟩, ?_⟩ <;> rintro rfl <;> exact absurd hlow (by decide)

theorem parseAuthority_append_blanks (P : UrlParser) (scheme a : Text) {v : Text}
    (hv : ∀ c ∈ v, isC0OrSpace c = true) :
    parseAuthority P scheme (a ++ v) = none ∨ v = [] := by
  rcases List.eq_nil_or_concat v with rfl | ⟨w, b, rfl⟩
  · exact Or.inr rfl
  · refine Or.inl ?_
    rw [List.concat_eq_append, ← List.append_assoc]
    exact parseAuthority_concat_blank P scheme _ (hv b (by simp))

theorem not_schemeChar_of_blank {c : Char} (h : isC0OrSpace c = true) :
    isSchemeChar c = false ∧ c ≠ ':' := by
  simp only [isC0OrSpace, decide_eq_true_eq, Char.toNat] at h
  constructor
  · simp only [isSchemeChar, Char.isAlphanum, Char.isAlpha, Char.isUpper, Char.isLower,
      Char.isDigit, ge_iff_le, Char.reduceVal, UInt32.le_iff_toNat_le, UInt32.reduceToNat,
      Bool.decide_and, Bool.or_eq_false_iff, Bool.and_eq_false_iff, decide_eq_false_iff_not,
      beq_eq_false_iff_ne]
    refine ⟨⟨⟨⟨⟨by omega, by omega⟩, by omega⟩, ?_⟩, ?_⟩, ?_⟩ <;> rintro rfl <;>
      exact absurd h (by decide)
  · rintro rfl
    exact absurd h (by decide)

theorem parseAuthority_nil (P : UrlParser) (scheme : Text) : parseAuthority P scheme [] = none := by
  rfl

/-- Scheme and authority of a base once more text may follow it: the authority is that of the
base, or blanks make it one that is refused. -/
theorem trimmed_base (P : UrlParser) {base : Text} {u : Url} (hu : parse P base = some u)
    (hs : isHttpScheme u.scheme = true) :
    (Text.trimEndMatches base '/').dropWhile isC0OrSpace ≠ [] ∧
      ∃ scheme r a v, splitScheme (cleanStart (Text.trimEndMatches base '/')) = some (scheme, r) ∧
        isHttpScheme scheme = true ∧ r.dropWhile isSlash ≠ [] ∧
        parseAuthority P scheme a = some u ∧ (∀ c ∈ v, isC0OrSpace c = true) ∧
        authorityText r = a ++ v := by
  obtain ⟨scheme, rest, hsplit, hscheme, hauth⟩ : ∃ scheme rest,
      splitScheme (clean base) = some (scheme, rest) ∧ isHttpScheme scheme = true ∧
      parseAuthority P scheme (authorityText rest) = some u := by
    obtain ⟨a, ha⟩ := split_of_parse P hu
    have hparse := parse_eq_parseAuthority P ha hs
    simp only [split, Option.map_eq_some_iff, Prod.mk.injEq] at ha
    obtain ⟨⟨scheme, rest⟩, hsplit, hscheme, rfl⟩ := ha
    simp only at hscheme
    exact ⟨scheme, rest, hsplit, hscheme ▸ hs, by rw [hscheme, ← hparse, hu]⟩
  obtain ⟨c, hhead, halpha, -, -⟩ := splitScheme_eq_some hsplit
  have hslash : c ≠ '/' := by
    rintro rfl
    exact absurd halpha (by decide)
  obtain ⟨hne, sl, hsl, hstart⟩ := cleanStart_trimEndMatches hhead hslash
  obtain ⟨v, hv, hclean⟩ := exists_cleanStart_eq base
  -- the start-trimmed base is the base with blanks, and the trimmed base with slashes
  have hfull := splitScheme_append hsplit v
  rw [← hclean, hstart] at hfull
  have hsl' : ∀ d ∈ sl, isSchemeChar d = false ∧ d ≠ ':' := by
    intro d hd
    rw [hsl d hd]
    decide
  have hnil : cleanStart (Text.trimEndMatches base '/') ≠ [] := by
    intro hnil
    rw [hnil, List.nil_append] at hfull
    obtain ⟨d, hd, hdalpha, -⟩ := splitScheme_eq_some hfull
    rw [hsl d (List.mem_of_mem_head? hd)] at hdalpha
    exact absurd hdalpha (by decide)
  obtain ⟨r, hr, hrest⟩ := splitScheme_of_append hsl' hnil hfull
  have hrestne : rest.dropWhile isSlash ≠ [] := by
    intro hall
    rw [authorityText, hall] at hauth
    exact absurd hauth (by simp [parseAuthority_nil])
  have hrne : r.dropWhile isSlash ≠ [] := by
    intro hall
    refine hrestne (List.dropWhile_eq_nil_iff.mpr fun d hd => ?_)
    have hd' : d ∈ r ++ sl := hrest ▸ List.mem_append_left v hd
    rcases List.mem_append.mp hd' with hd' | hd'
    · exact List.dropWhile_eq_nil_iff.mp hall d hd'
    · rw [hsl d hd']
      decide
  have hauthr : authorityText r = authorityText (rest ++ v) := by
    rw [hrest]
    refine (authorityText_append_of_head hrne ?_).symm
    cases sl with
    | nil => rfl
    | cons d sl =>
      rw [List.head?_cons, Option.all_some, hsl d List.mem_cons_self]
      decide
  rcases authorityText_append_blanks hrestne hv with heq | heq
  · exact ⟨hne, scheme, r, authorityText rest, [], hr, hscheme, hrne, hauth, by simp,
      by rw [hauthr, heq, List.append_nil]⟩
  · exact ⟨hne, scheme, r, authorityText rest, v, hr, hscheme, hrne, hauth, hv,
      by rw [hauthr, heq]⟩

/-- A valid authority behind which only blanks differ. -/
theorem parseAuthority_of_append_blanks (P : UrlParser) {scheme a x v w : Text} {u : Url}
    (ha : parseAuthority P scheme a = some u) (hv : ∀ c ∈ v, isC0OrSpace c = true)
    (hw : ∀ c ∈ w, isC0OrSpace c = true) (h : x ++ w = a ++ v) :
    parseAuthority P scheme x = none ∨ parseAuthority P scheme x = some u := by
  rcases List.append_eq_append_iff.mp h with ⟨c, rfl, hcw⟩ | ⟨c, rfl, hcv⟩
  · have hc : ∀ d ∈ c, isC0OrSpace d = true := fun d hd => hw d (hcw ▸ List.mem_append_left v hd)
    rcases parseAuthority_append_blanks P scheme x hc with hnone | rfl
    · rw [ha] at hnone
      exact absurd hnone (by simp)
    · exact Or.inr (by simpa using ha)
  · have hc : ∀ d ∈ c, isC0OrSpace d = true := fun d hd => hv d (hcv ▸ List.mem_append_left w hd)
    rcases parseAuthority_append_blanks P scheme a hc with hnone | rfl
    · exact Or.inl hnone
    · exact Or.inr (by simpa using ha)

/-- Gluing a text to a base, less the slashes at its end, names the host of the base or nothing,
if the text cannot run into the authority. -/
theorem parse_trimmed_append (P : UrlParser) {base path : Text} {u : Url}
    (hu : parse P base = some u) (hs : isHttpScheme u.scheme = true)
    (h : closesAuthority (Text.trimEndMatches base '/') = true ∨ opensPath path = true) :
    parse P (Text.trimEndMatches base '/' ++ path) = none ∨
      parse P (Text.trimEndMatches base '/' ++ path) = some u := by
  obtain ⟨hne, scheme, r, a, v, hr, hscheme, hrne, ha, hv, hauth⟩ := trimmed_base P hu hs
  have hclean := clean_append (t := path) hne
  split_ifs at hclean with hblank
  · -- only blanks are appended, and they are trimmed again
    obtain ⟨w, hw, hstart⟩ := exists_cleanStart_eq (Text.trimEndMatches base '/')
    have hnil : clean (Text.trimEndMatches base '/') ≠ [] := by
      intro hnil
      rw [hstart, hnil, List.nil_append] at hr
      obtain ⟨d, hd, hdalpha, -⟩ := splitScheme_eq_some hr
      have hblank := hw d (List.mem_of_mem_head? hd)
      have := (not_schemeChar_of_blank hblank).1
      simp [isSchemeChar, Char.isAlphanum, hdalpha] at this
    rw [hstart] at hr
    obtain ⟨r0, hr0, rfl⟩ := splitScheme_of_append
      (fun d hd => not_schemeChar_of_blank (hw d hd)) hnil hr
    have hparse : parse P (Text.trimEndMatches base '/' ++ path) =
        parseAuthority P scheme (authorityText r0) :=
      parse_eq_parseAuthority P (by rw [split, hclean, hr0, Option.map_some]) hscheme
    rw [hparse]
    by_cases hr0ne : r0.dropWhile isSlash = []
    · exact Or.inl (by rw [authorityText, hr0ne]; exact parseAuthority_nil P scheme)
    rcases authorityText_append_blanks hr0ne hw with heq | heq
    · rw [← heq, hauth]
      exact parseAuthority_of_append_blanks P ha hv (w := []) (by simp) (by simp)
    · exact parseAuthority_of_append_blanks P ha hv hw (by rw [← heq, hauth])
  · have hkeep : authorityText (r ++ cleanEnd path) = authorityText r := by
      rcases h with hclosed | hopens
      · refine authorityText_append_of_any _ ?_
        simpa [closesAuthority, afterSlashes, hr] using hclosed
      · exact authorityText_append_of_head hrne hopens
    have hparse : parse P (Text.trimEndMatches base '/' ++ path) =
        parseAuthority P scheme (authorityText r) := by
      refine parse_eq_parseAuthority P ?_ hscheme
      rw [split, hclean, splitScheme_append hr, Option.map_some, hkeep]
    rw [hparse, hauth]
    exact parseAuthority_of_append_blanks P ha hv (w := []) (by simp) (by simp)

end Url

end TrustedRelay
