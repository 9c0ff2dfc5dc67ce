import TrustedRelay.Attest.ConfidentialSpace
import TrustedRelay.Rust.Ascii

/-!
# Nonces that carry the REPORTDATA

Which nonces `nonce_reportdata` accepts. `addNonce_eq_ok_iff` says what one nonce does; since a part
is read from exactly one text, the two nonces of a REPORTDATA are read back among any others, and no
other pair of nonces carries it (`nonceReportdata_spec`).
-/

namespace TrustedRelay

/-- A nonce has one of the two prefixes. -/
def carriesPart (nonce : Text) : Bool :=
  Text.startsWith nonce nonceSpkiPrefix || Text.startsWith nonce nonceConfigPrefix

def spkiNonce (part : ByteArr 48) : Text := nonceSpkiPrefix ++ base64urlEncode part.1

def configNonce (part : ByteArr 16) : Text := nonceConfigPrefix ++ base64urlEncode part.1

/-- The first 48 bytes. -/
def reportdataSpki (r : ByteArr 64) : ByteArr 48 :=
  ⟨r.1.take 48, by rw [List.length_take, r.2]; rfl⟩

/-- The last 16 bytes. -/
def reportdataConfig (r : ByteArr 64) : ByteArr 16 :=
  ⟨r.1.drop 48, by rw [List.length_drop, r.2]⟩

theorem reportdataNonces_eq (r : ByteArr 64) :
    reportdataNonces r = [spkiNonce (reportdataSpki r), configNonce (reportdataConfig r)] := rfl

/-! ### One nonce -/

section Nonce

variable {nonce encoded label : Text} {parts parts' : NonceParts}

/-- A part is read from the text that encodes it, and from no other. -/
theorem decodeNoncePart_eq_ok_iff {len : ℕ} {part : ByteArr len} :
    decodeNoncePart encoded len label = .ok part ↔ base64urlEncode part.1 = encoded := by
  rw [decodeNoncePart, Except.bind_eq_ok_iff]
  simp only [okOr_eq_ok_iff, base64urlDecode_eq_some_iff]
  constructor
  · rintro ⟨bytes, hbytes, h⟩
    split_ifs at h with hlen
    obtain rfl := Except.ok.inj h
    exact hbytes
  · intro h
    exact ⟨part.1, h, dif_pos part.2⟩

theorem carriesPart_spki (s : Text) : carriesPart (nonceSpkiPrefix ++ s) = true := by
  rw [carriesPart, Text.startsWith_append, Bool.true_or]

theorem carriesPart_config (s : Text) : carriesPart (nonceConfigPrefix ++ s) = true := by
  rw [carriesPart, Text.startsWith_append, Bool.or_true]

/-- The prefixes differ within their length. -/
theorem spkiPrefix_append_ne (s t : Text) : nonceSpkiPrefix ++ s ≠ nonceConfigPrefix ++ t := by
  intro h
  have hlen : nonceSpkiPrefix.length = nonceConfigPrefix.length := by decide
  exact absurd (List.append_inj h hlen).1 (by decide)

/-- What one nonce does: it gives the part that it encodes, or has neither prefix and is skipped. -/
theorem addNonce_eq_ok_iff : addNonce parts nonce = .ok parts' ↔
    (∃ part, nonce = spkiNonce part ∧ parts' = (some part, parts.2)) ∨
    (∃ part, nonce = configNonce part ∧ parts' = (parts.1, some part)) ∨
    (carriesPart nonce = false ∧ parts' = parts) := by
  rw [addNonce]
  cases hspki : Text.stripPrefix nonce nonceSpkiPrefix with
  | some encoded =>
    obtain rfl := Text.stripPrefix_eq_some_iff.mp hspki
    simp only [Except.bind_eq_ok_iff, decodeNoncePart_eq_ok_iff, Except.ok.injEq, spkiNonce,
      List.append_cancel_left_eq, carriesPart_spki, configNonce, spkiPrefix_append_ne, false_and,
      exists_false, or_false, Bool.true_eq_false]
    exact exists_congr fun part => and_congr eq_comm eq_comm
  | none =>
    have hnot : ∀ part, nonce ≠ spkiNonce part := by
      rintro part rfl
      rw [spkiNonce, Text.stripPrefix_append] at hspki
      cases hspki
    rw [Text.stripPrefix_eq_none_iff] at hspki
    cases hconfig : Text.stripPrefix nonce nonceConfigPrefix with
    | some encoded =>
      obtain rfl := Text.stripPrefix_eq_some_iff.mp hconfig
      simp only [Except.bind_eq_ok_iff, decodeNoncePart_eq_ok_iff, Except.ok.injEq, hnot, false_and,
        exists_false, false_or, configNonce, List.append_cancel_left_eq, carriesPart_config,
        or_false, Bool.true_eq_false]
      exact exists_congr fun part => and_congr eq_comm eq_comm
    | none =>
      have hnot' : ∀ part, nonce ≠ configNonce part := by
        rintro part rfl
        rw [configNonce, Text.stripPrefix_append] at hconfig
        cases hconfig
      rw [Text.stripPrefix_eq_none_iff] at hconfig
      simp only [Except.ok.injEq, hnot, hnot', false_and, exists_false, false_or, carriesPart, hspki,
        hconfig, Bool.or_false, true_and]
      exact eq_comm

theorem addNonce_spkiNonce (part : ByteArr 48) :
    addNonce parts (spkiNonce part) = .ok (some part, parts.2) :=
  addNonce_eq_ok_iff.mpr (.inl ⟨part, rfl, rfl⟩)

theorem addNonce_configNonce (part : ByteArr 16) :
    addNonce parts (configNonce part) = .ok (parts.1, some part) :=
  addNonce_eq_ok_iff.mpr (.inr (.inl ⟨part, rfl, rfl⟩))

end Nonce

/-! ### Lists of nonces -/

section Nonces

variable {r : ByteArr 64} {parts : NonceParts} {nonces : List Text}

/-- Nonces without a prefix make no difference. -/
theorem foldlM_addNonce_filter :
    nonces.foldlM addNonce parts = (nonces.filter carriesPart).foldlM addNonce parts := by
  induction nonces generalizing parts with
  | nil => rfl
  | cons nonce nonces ih =>
    by_cases h : carriesPart nonce = true
    · rw [List.filter_cons_of_pos h, List.foldlM_cons, List.foldlM_cons]
      exact bind_congr fun _ => ih
    · have hskip : addNonce parts nonce = .ok parts :=
        addNonce_eq_ok_iff.mpr (.inr (.inr ⟨Bool.eq_false_iff.mpr h, rfl⟩))
      rw [List.filter_cons_of_neg h, List.foldlM_cons, hskip]
      exact ih

theorem nonceReportdata_eq_ok_iff {nonceClaim : NonceClaim} : nonceReportdata nonceClaim = .ok r ↔
    nonceClaim.nonces.foldlM addNonce (none, none) =
      .ok (some (reportdataSpki r), some (reportdataConfig r)) := by
  simp only [nonceReportdata, Except.bind_eq_ok_iff, okOr_eq_ok_iff, Except.ok.injEq]
  constructor
  · rintro ⟨⟨_, _⟩, hfold, spki, rfl, config, rfl, rfl⟩
    rw [hfold]
    have hlen : (spki.1 ++ config.1).length = 64 := by rw [List.length_append, spki.2, config.2]
    have hspki : reportdataSpki ⟨spki.1 ++ config.1, hlen⟩ = spki :=
      Subtype.ext (List.take_left' spki.2)
    have hconfig : reportdataConfig ⟨spki.1 ++ config.1, hlen⟩ = config :=
      Subtype.ext (List.drop_left' spki.2)
    rw [hspki, hconfig]
  · intro hfold
    exact ⟨_, hfold, _, rfl, _, rfl, Subtype.ext (List.take_append_drop 48 r.1)⟩

/-- The two nonces are read in either order, among others. -/
theorem nonceReportdata_of_perm {nonceClaim : NonceClaim}
    (h : (nonceClaim.nonces.filter carriesPart).Perm (reportdataNonces r)) :
    nonceReportdata nonceClaim = .ok r := by
  rw [nonceReportdata_eq_ok_iff, foldlM_addNonce_filter]
  rw [reportdataNonces_eq, List.perm_pair] at h
  rcases h with h | h
  · rw [h, List.foldlM_cons, addNonce_spkiNonce]
    change addNonce _ _ >>= _ = _
    rw [addNonce_configNonce]
    rfl
  · rw [h, List.foldlM_cons, addNonce_configNonce]
    change addNonce _ _ >>= _ = _
    rw [addNonce_spkiNonce]
    rfl

/-- A nonce fills at most one part, so two nonces with both parts are the two that encode them. -/
theorem perm_of_nonceReportdata {a b : Text} (h : nonceReportdata (.many [a, b]) = .ok r) :
    [a, b].Perm (reportdataNonces r) := by
  rw [nonceReportdata_eq_ok_iff, NonceClaim.nonces, List.foldlM_cons, Except.bind_eq_ok_iff] at h
  obtain ⟨parts, ha, h⟩ := h
  obtain ⟨parts', hb, hparts⟩ := Except.bind_eq_ok_iff.mp h
  obtain rfl := Except.ok.inj hparts
  rw [reportdataNonces_eq, List.pair_perm]
  rw [addNonce_eq_ok_iff] at ha hb
  rcases ha with ⟨spki, rfl, rfl⟩ | ⟨config, rfl, rfl⟩ | ⟨-, rfl⟩
  · rcases hb with ⟨spki', rfl, heq⟩ | ⟨config, rfl, heq⟩ | ⟨-, heq⟩
    · cases heq
    · cases heq
      exact .inl rfl
    · cases heq
  · rcases hb with ⟨spki, rfl, heq⟩ | ⟨config', rfl, heq⟩ | ⟨-, heq⟩
    · cases heq
      exact .inr rfl
    · cases heq
    · cases heq
  · rcases hb with ⟨spki, rfl, heq⟩ | ⟨config, rfl, heq⟩ | ⟨-, heq⟩
    · cases heq
    · cases heq
    · cases heq

theorem comma_not_mem_reportdataNonces : ∀ nonce ∈ reportdataNonces r, ',' ∉ nonce := by
  have hencode : ∀ b : Bytes, ',' ∉ base64urlEncode b := fun b hmem =>
    absurd (mem_alphabet_of_mem_encode hmem) (by decide)
  intro nonce hnonce
  rw [reportdataNonces, List.mem_pair] at hnonce
  rcases hnonce with rfl | rfl
  · rw [List.mem_append, not_or]
    exact ⟨by decide, hencode _⟩
  · rw [List.mem_append, not_or]
    exact ⟨by decide, hencode _⟩

/-- Comma-separated nonces are read as the list of them. -/
theorem nonces_intercalate (hcomma : ∀ nonce ∈ nonces, ',' ∉ nonce) (hne : nonces ≠ []) :
    (NonceClaim.one ([','].intercalate nonces)).nonces = nonces :=
  List.splitOn_intercalate ',' hcomma hne

end Nonces

/-- The nonces of a REPORTDATA are read back, as a list and as one comma-separated string, in either
order and among any nonces with neither prefix; and no other two nonces are read as it. -/
theorem nonceReportdata_spec (r : ByteArr 64) :
    nonceReportdata (.many (reportdataNonces r)) = .ok r ∧
    nonceReportdata (.one (reportdataNonce r)) = .ok r ∧
    (∀ nonces : List Text, (nonces.filter carriesPart).Perm (reportdataNonces r) →
      nonceReportdata (.many nonces) = .ok r ∧
      ((∀ nonce ∈ nonces, carriesPart nonce = false → ',' ∉ nonce) →
        nonceReportdata (.one ([','].intercalate nonces)) = .ok r)) ∧
    ∀ a b : Text, nonceReportdata (.many [a, b]) = .ok r → [a, b].Perm (reportdataNonces r) := by
  have hfilter : (reportdataNonces r).filter carriesPart = reportdataNonces r := by
    rw [List.filter_eq_self, reportdataNonces_eq, List.forall_mem_cons, List.forall_mem_singleton]
    exact ⟨carriesPart_spki _, carriesPart_config _⟩
  have hjoined : ∀ nonces : List Text, (nonces.filter carriesPart).Perm (reportdataNonces r) →
      (∀ nonce ∈ nonces, carriesPart nonce = false → ',' ∉ nonce) →
      nonceReportdata (.one ([','].intercalate nonces)) = .ok r := by
    intro nonces h hcomma
    have hall : ∀ nonce ∈ nonces, ',' ∉ nonce := by
      intro nonce hmem
      by_cases hcarries : carriesPart nonce = true
      · exact comma_not_mem_reportdataNonces nonce
          (h.mem_iff.mp (List.mem_filter.mpr ⟨hmem, hcarries⟩))
      · exact hcomma nonce hmem (Bool.eq_false_iff.mpr hcarries)
    have hne : nonces ≠ [] := by
      rintro rfl
      exact absurd h.length_eq (by decide : ¬ 0 = 2)
    apply nonceReportdata_of_perm
    rwa [nonces_intercalate hall hne]
  have hself : ((reportdataNonces r).filter carriesPart).Perm (reportdataNonces r) :=
    List.Perm.of_eq hfilter
  exact ⟨nonceReportdata_of_perm hself,
    hjoined _ hself fun nonce hmem _ => comma_not_mem_reportdataNonces nonce hmem,
    fun nonces h => ⟨nonceReportdata_of_perm h, hjoined nonces h⟩,
    fun _ _ => perm_of_nonceReportdata⟩

/-- The nonces of zero bytes, the other way round, behind and between others. -/
theorem zeroNonces_read :
    nonceReportdata (.one ([','].intercalate ["audience".toList,
      configNonce (reportdataConfig zeroReportdata), [], spkiNonce (reportdataSpki zeroReportdata)])) =
        .ok zeroReportdata :=
  ((nonceReportdata_spec zeroReportdata).2.2.1 _ (by decide +kernel)).2 (by decide +kernel)

end TrustedRelay
