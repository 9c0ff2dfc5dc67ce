import TrustedRelay.Rust.Ascii
import TrustedRelay.Rust.Words

/-!
# Redaction of error texts

`redact_sensitive` replaces what looks like a secret in an error text, word by word, before the text
is logged or shown. The relay and the local proxy have a copy each, which differ in the order of
their tests only.

* `noKey_iff`: of the provider keys in one word only the first is replaced, so a text is free of
  keys exactly if no key stands behind the first one's place in an unmarked word.
* `credential_shows`: the word after `Authorization: Bearer ` is redacted like any other word.
-/

namespace TrustedRelay

open Delimited

/-! ### The redactor -/

def redacted : Text := "<redacted>".toList

def keyTag : Text := "sk-".toList

/-- A character of a provider key. -/
def isKeyChar (c : Char) : Bool := c.isAlphanum || c == '-' || c == '_'

/-- What marks a word as sensitive: how it starts, or what it contains. No marker is found in what
is put in the place of a secret. -/
structure Markers where
  starts : List Text
  parts : List Text
  starts_free : ∀ k ∈ starts, '<' ∉ k := by decide
  parts_free : ∀ k ∈ parts, '<' ∉ k ∧ '>' ∉ k ∧ ¬ k <:+: "redacted".toList := by decide

/-- A word, in lower case, has a marker. -/
def Markers.mark (m : Markers) (lower : Text) : Bool :=
  m.starts.any (Text.startsWith lower) || m.parts.any (Text.contains lower)

/-- Replace the run of key characters at the first `sk-`, if it is long enough for a key. -/
def redactKey (part : Text) : Text :=
  match position keyTag part with
  | none => part
  | some pos =>
    let rest := part.drop pos
    let tokenLen := (rest.takeWhile isKeyChar).length
    if 8 ≤ tokenLen then part.take pos ++ redacted ++ rest.drop tokenLen else part

def redactPart (m : Markers) (part : Text) : Text :=
  if m.mark (Text.toAsciiLowercase part) then redacted else redactKey part

def redactWords (m : Markers) (raw : Text) : Text :=
  Text.joinWords ((Text.splitWhitespace raw).map (redactPart m))

namespace RelayCore

def markers : Markers where
  starts := ["authorization".toList, "bearer".toList]
  parts := ["api_key".toList, "token".toList, "secret".toList]

def redactSensitivePart (part : Text) : Text := redactPart markers part

def redactSensitive (raw : Text) : Text := redactWords markers raw

end RelayCore

namespace LocalProxy

def markers : Markers where
  starts := ["authorization".toList, "bearer".toList]
  parts := ["token".toList, "secret".toList, "api_key".toList]

def redactSensitivePart (part : Text) : Text := redactPart markers part

def redactSensitive (raw : Text) : Text := redactWords markers raw

end LocalProxy

/-- The two copies make the same tests. -/
theorem mark_markers : LocalProxy.markers.mark = RelayCore.markers.mark := by
  funext lower
  simp only [Markers.mark, LocalProxy.markers, RelayCore.markers, List.any_cons, List.any_nil,
    Bool.or_false]
  congr 1
  rw [← Bool.or_assoc, Bool.or_comm]

theorem redactPart_markers : redactPart LocalProxy.markers = redactPart RelayCore.markers := by
  funext part
  rw [redactPart, redactPart, mark_markers]

theorem redactSensitive_copies : LocalProxy.redactSensitive = RelayCore.redactSensitive := by
  funext raw
  rw [LocalProxy.redactSensitive, RelayCore.redactSensitive, redactWords, redactWords,
    redactPart_markers]

/-! ### Provider keys -/

/-- At least eight key characters, which start with `sk-`. -/
structure IsKey (key : Text) : Prop where
  tag : keyTag <+: key
  length_ge : 8 ≤ key.length
  chars : ∀ c ∈ key, isKeyChar c = true

/-- Somewhere in the text, `sk-` starts a run of at least eight key characters. -/
def HasKey (s : Text) : Prop := ∃ key, key <:+: s ∧ IsKey key

section Key

variable {s t w key pre run rest : Text} {c : Char}

theorem IsKey.not_mem (h : IsKey key) (hc : isKeyChar c = false) : c ∉ key := by
  intro hmem
  rw [h.chars c hmem] at hc
  cases hc

theorem IsKey.ne_nil (h : IsKey key) : key ≠ [] := by
  rintro rfl
  exact absurd h.length_ge (by decide)

/-- Without a tag there is no key. -/
theorem not_hasKey_of_no_tag (h : ¬ keyTag <:+: s) : ¬ HasKey s := by
  rintro ⟨key, hinf, hkey⟩
  exact h (hkey.tag.isInfix.trans hinf)

theorem not_hasKey_nil : ¬ HasKey [] := not_hasKey_of_no_tag (by decide)

/-- No key stretches over another character. -/
theorem hasKey_append_cons_iff (hc : isKeyChar c = false) :
    HasKey (s ++ c :: t) ↔ HasKey s ∨ HasKey t := by
  constructor
  · rintro ⟨key, hinf, hkey⟩
    rcases (infix_append_cons_iff (hkey.not_mem hc)).mp hinf with h | h
    · exact .inl ⟨key, h, hkey⟩
    · exact .inr ⟨key, h, hkey⟩
  · rintro (⟨key, hinf, hkey⟩ | ⟨key, hinf, hkey⟩)
    · exact ⟨key, (infix_append_cons_iff (hkey.not_mem hc)).mpr (.inl hinf), hkey⟩
    · exact ⟨key, (infix_append_cons_iff (hkey.not_mem hc)).mpr (.inr hinf), hkey⟩

theorem hasKey_joinWords_iff {ws : List Text} :
    HasKey (Text.joinWords ws) ↔ ∃ w ∈ ws, HasKey w := by
  constructor
  · rintro ⟨key, hinf, hkey⟩
    obtain ⟨w, hw, hinf⟩ :=
      (Text.infix_joinWords_iff hkey.ne_nil (hkey.not_mem (by decide))).mp hinf
    exact ⟨w, hw, key, hinf, hkey⟩
  · rintro ⟨w, hw, key, hinf, hkey⟩
    exact ⟨key, (Text.infix_joinWords_iff hkey.ne_nil (hkey.not_mem (by decide))).mpr ⟨w, hw, hinf⟩,
      hkey⟩

/-! ### One word -/

/-- What stands behind the run of key characters at the first `sk-`. -/
def afterFirstTag (part : Text) : Text :=
  match position keyTag part with
  | none => []
  | some pos => (part.drop pos).dropWhile isKeyChar

/-- A word cut at its first `sk-`, and behind the run of key characters that starts there. -/
structure FirstTag (w pre run rest : Text) : Prop where
  eq : w = pre ++ (run ++ rest)
  tag : keyTag <+: run
  run_keyChar : ∀ c ∈ run, isKeyChar c = true
  rest_head : ∀ c ∈ rest.head?, isKeyChar c = false
  first : ∀ j < pre.length, ¬ keyTag <+: w.drop j

theorem keyTag_ne_nil : keyTag ≠ [] := by decide

/-- The run that starts with a tag has the tag in it. -/
theorem prefix_takeWhile_isKeyChar (h : keyTag <+: s) : keyTag <+: s.takeWhile isKeyChar := by
  obtain ⟨t, rfl⟩ := h
  have hall : ∀ c ∈ keyTag, isKeyChar c = true := by simp [keyTag, isKeyChar]
  rw [List.takeWhile_append_of_pos hall]
  exact List.prefix_append _ _

/-- The redactor of keys by cases: without a tag nothing is done, and otherwise the first one's run
is replaced, if it is long enough. -/
theorem redactKey_cases (w : Text) :
    (¬ keyTag <:+: w ∧ afterFirstTag w = [] ∧ redactKey w = w) ∨
      ∃ pre run rest, FirstTag w pre run rest ∧ afterFirstTag w = rest ∧
        redactKey w = if 8 ≤ run.length then pre ++ (redacted ++ rest) else w := by
  cases hpos : position keyTag w with
  | none =>
    refine .inl ⟨(position_eq_none_iff keyTag_ne_nil).mp hpos, ?_, ?_⟩
    · rw [afterFirstTag, hpos]
    · rw [redactKey, hpos]
  | some pos =>
    obtain ⟨htag, hfirst⟩ := (position_eq_some_iff keyTag_ne_nil).mp hpos
    have hlen := position_lt keyTag_ne_nil hpos
    have hsplit : w.drop pos =
        (w.drop pos).takeWhile isKeyChar ++ (w.drop pos).dropWhile isKeyChar :=
      List.takeWhile_append_dropWhile.symm
    refine .inr ⟨w.take pos, (w.drop pos).takeWhile isKeyChar, (w.drop pos).dropWhile isKeyChar,
      ⟨?_, prefix_takeWhile_isKeyChar htag, fun c hc => List.mem_takeWhile_imp hc, ?_, ?_⟩, ?_, ?_⟩
    · rw [← hsplit, List.take_append_drop]
    · intro c hc
      have hhead := List.head?_dropWhile_not isKeyChar (w.drop pos)
      rw [Option.mem_def.mp hc] at hhead
      simpa using hhead
    · intro j hj
      rw [List.length_take] at hj
      exact hfirst j (by omega)
    · rw [afterFirstTag, hpos]
    · have hdrop : (w.drop pos).drop ((w.drop pos).takeWhile isKeyChar).length =
          (w.drop pos).dropWhile isKeyChar := by
        calc (w.drop pos).drop ((w.drop pos).takeWhile isKeyChar).length
            = ((w.drop pos).takeWhile isKeyChar ++ (w.drop pos).dropWhile isKeyChar).drop
                ((w.drop pos).takeWhile isKeyChar).length := by rw [← hsplit]
          _ = (w.drop pos).dropWhile isKeyChar := List.drop_left
      rw [redactKey, hpos]
      simp only [hdrop, List.append_assoc]

/-- Before the first tag there is no key, and if its run is too short, none starts before its
end. -/
theorem FirstTag.not_hasKey (h : FirstTag w pre run rest) {s : Text} (hs : pre ++ s <+: w)
    (hlen : s.length < 8) : ¬ HasKey (pre ++ s) := by
  rintro ⟨key, ⟨x, y, hxy⟩, hkey⟩
  have hkeyLen := hkey.length_ge
  have hlength := congrArg List.length hxy
  simp only [List.length_append] at hlength
  -- an occurrence would start before the first tag
  refine h.first x.length (by omega) (hkey.tag.trans ?_)
  obtain ⟨z, rfl⟩ := hs
  rw [← hxy, List.append_assoc, List.append_assoc, List.drop_left]
  exact List.prefix_append _ _

/-- A key that is left in the word stands behind the first tag's run. -/
theorem hasKey_redactKey_iff : HasKey (redactKey w) ↔ HasKey (afterFirstTag w) := by
  rcases redactKey_cases w with ⟨hno, hafter, hred⟩ | ⟨pre, run, rest, hfirst, hafter, hred⟩
  · rw [hafter, hred]
    exact iff_of_false (not_hasKey_of_no_tag hno) not_hasKey_nil
  · rw [hafter, hred]
    split_ifs with hlong
    · have hred : pre ++ (redacted ++ rest) = pre ++ '<' :: ("redacted".toList ++ '>' :: rest) :=
        rfl
      have hpre : ¬ HasKey pre := by
        have h := hfirst.not_hasKey (s := []) ⟨run ++ rest, by rw [List.append_nil, hfirst.eq]⟩
          (by decide)
        rwa [List.append_nil] at h
      have hword : ¬ HasKey "redacted".toList := not_hasKey_of_no_tag (by decide)
      rw [hred, hasKey_append_cons_iff (by decide), hasKey_append_cons_iff (by decide)]
      simp only [hpre, hword, false_or]
    · have hshort : ¬ HasKey (pre ++ run) :=
        hfirst.not_hasKey ⟨rest, by rw [hfirst.eq, List.append_assoc]⟩ (Nat.lt_of_not_le hlong)
      rw [hfirst.eq, ← List.append_assoc]
      cases rest with
      | nil =>
        rw [List.append_nil]
        exact iff_of_false hshort not_hasKey_nil
      | cons c rest =>
        have hc := hfirst.rest_head c rfl
        have hrest : HasKey (c :: rest) ↔ HasKey rest := by
          have h := hasKey_append_cons_iff (s := []) (t := rest) hc
          rw [List.nil_append] at h
          rw [h, or_iff_right not_hasKey_nil]
        rw [hasKey_append_cons_iff hc, or_iff_right hshort, hrest]

/-- A word without a key is not changed. -/
theorem redactKey_eq_self (h : ¬ HasKey w) : redactKey w = w := by
  rcases redactKey_cases w with ⟨-, -, hred⟩ | ⟨pre, run, rest, hfirst, -, hred⟩
  · exact hred
  · rw [hred, if_neg]
    intro hlong
    refine h ⟨run, ?_, hfirst.tag, hlong, hfirst.run_keyChar⟩
    rw [hfirst.eq, ← List.append_assoc]
    exact List.infix_append pre run rest

/-- Only key characters are taken out of a word. -/
theorem forall_mem_redactKey_iff {P : Char → Prop} (hred : ∀ c ∈ redacted, P c)
    (hkey : ∀ c, isKeyChar c = true → P c) : (∀ c ∈ redactKey w, P c) ↔ ∀ c ∈ w, P c := by
  rcases redactKey_cases w with ⟨-, -, heq⟩ | ⟨pre, run, rest, hfirst, -, heq⟩
  · rw [heq]
  · rw [heq]
    split_ifs with hlong
    · have hrun : ∀ c ∈ run, P c := fun c hc => hkey c (hfirst.run_keyChar c hc)
      rw [hfirst.eq]
      simp only [List.forall_mem_append]
      exact and_congr_right fun _ => and_congr_left fun _ => iff_of_true hred hrun
    · rfl

/-! ### Redacted words stay as they are -/

section Markers

variable (m : Markers)

theorem Markers.mark_eq_false_iff {lower : Text} : m.mark lower = false ↔
    (∀ k ∈ m.starts, ¬ k <+: lower) ∧ ∀ k ∈ m.parts, ¬ k <:+: lower := by
  simp only [mark, Bool.or_eq_false_iff, List.any_eq_false, Text.startsWith_iff, Text.contains,
    decide_eq_true_eq]

/-- Replacing a key makes no marker. -/
theorem Markers.mark_redactKey (h : m.mark (Text.toAsciiLowercase w) = false) :
    m.mark (Text.toAsciiLowercase (redactKey w)) = false := by
  rcases redactKey_cases w with ⟨-, -, hred⟩ | ⟨pre, run, rest, hfirst, -, hred⟩
  · rwa [hred]
  · rw [hred]
    split_ifs with hlong
    · have hlower : Text.toAsciiLowercase (pre ++ (redacted ++ rest)) = Text.toAsciiLowercase pre ++
          '<' :: ("redacted".toList ++ '>' :: Text.toAsciiLowercase rest) := by
        rw [Text.toAsciiLowercase_append, Text.toAsciiLowercase_append]
        rfl
      have hw : Text.toAsciiLowercase w = Text.toAsciiLowercase pre ++
          (Text.toAsciiLowercase run ++ Text.toAsciiLowercase rest) := by
        rw [hfirst.eq, Text.toAsciiLowercase_append, Text.toAsciiLowercase_append]
      rw [m.mark_eq_false_iff, hw] at h
      rw [m.mark_eq_false_iff, hlower]
      constructor
      · intro k hk hpre
        rw [prefix_append_cons_iff (m.starts_free k hk)] at hpre
        exact h.1 k hk (hpre.trans (List.prefix_append _ _))
      · intro k hk hinf
        obtain ⟨hlt, hgt, hword⟩ := m.parts_free k hk
        rw [infix_append_cons_iff hlt, infix_append_cons_iff hgt] at hinf
        rcases hinf with hinf | hinf | hinf
        · exact h.2 k hk (hinf.trans (List.prefix_append _ _).isInfix)
        · exact hword hinf
        · rw [← List.append_assoc] at h
          exact h.2 k hk (hinf.trans (List.suffix_append _ _).isInfix)
    · exact h

theorem redactPart_redacted : redactPart m redacted = redacted := by
  have hkey : redactKey redacted = redacted := redactKey_eq_self (not_hasKey_of_no_tag (by decide))
  rw [redactPart, hkey, ite_self]

/-- A word that has no key left is not redacted again. -/
theorem redactPart_redactPart
    (h : m.mark (Text.toAsciiLowercase w) = false → ¬ HasKey (afterFirstTag w)) :
    redactPart m (redactPart m w) = redactPart m w := by
  cases hmark : m.mark (Text.toAsciiLowercase w) with
  | true =>
    have hred : redactPart m w = redacted := if_pos hmark
    rw [hred, redactPart_redacted]
  | false =>
    have hred : redactPart m w = redactKey w := if_neg (by rw [hmark]; exact Bool.false_ne_true)
    have hnot : ¬ HasKey (redactKey w) := mt hasKey_redactKey_iff.mp (h hmark)
    rw [hred, redactPart, m.mark_redactKey hmark, redactKey_eq_self hnot]
    exact if_neg Bool.false_ne_true

theorem isWord_redacted : Text.IsWord redacted := by
  exact ⟨by decide, List.all_iff_forall_prop.mp (by decide)⟩

theorem isWord_redactPart (h : Text.IsWord w) : Text.IsWord (redactPart m w) := by
  rw [redactPart]
  split_ifs with hmark
  · exact isWord_redacted
  · rcases redactKey_cases w with ⟨-, -, hred⟩ | ⟨pre, run, rest, hfirst, -, hred⟩
    · rwa [hred]
    · rw [hred]
      split_ifs with hlong
      · have hw := h.2
        rw [hfirst.eq] at hw
        simp only [List.forall_mem_append] at hw
        refine ⟨List.append_ne_nil_of_right_ne_nil _
          (List.append_ne_nil_of_left_ne_nil (by decide) _), ?_⟩
        simp only [List.forall_mem_append]
        exact ⟨hw.1, isWord_redacted.2, hw.2.2⟩
      · exact h

theorem splitWhitespace_redactWords (raw : Text) : Text.splitWhitespace (redactWords m raw) =
    (Text.splitWhitespace raw).map (redactPart m) := by
  refine Text.splitWhitespace_joinWords fun out hout => ?_
  obtain ⟨w, hw, rfl⟩ := List.mem_map.mp hout
  exact isWord_redactPart m (Text.isWord_of_mem_splitWhitespace hw)

/-! ### Whole texts -/

/-- In every word without a marker, no key stands behind the place of the first one. -/
def KeysFirst (raw : Text) : Prop :=
  ∀ w ∈ Text.splitWhitespace raw,
    m.mark (Text.toAsciiLowercase w) = false → ¬ HasKey (afterFirstTag w)

theorem not_hasKey_redactPart_iff : ¬ HasKey (redactPart m w) ↔
    (m.mark (Text.toAsciiLowercase w) = false → ¬ HasKey (afterFirstTag w)) := by
  rw [redactPart]
  split_ifs with hmark
  · refine iff_of_true (not_hasKey_of_no_tag (by decide)) fun hfalse => ?_
    rw [hmark] at hfalse
    cases hfalse
  · rw [hasKey_redactKey_iff]
    rw [Bool.not_eq_true] at hmark
    exact ⟨fun h _ => h, fun h => h hmark⟩

/-- The result has no key exactly if the text has its keys first, and is then not changed again. -/
theorem not_hasKey_redactWords_iff (raw : Text) :
    (¬ HasKey (redactWords m raw) ∧ redactWords m (redactWords m raw) = redactWords m raw) ↔
      KeysFirst m raw := by
  have hkeys : ¬ HasKey (redactWords m raw) ↔ KeysFirst m raw := by
    rw [redactWords, hasKey_joinWords_iff]
    simp only [not_exists, not_and, List.forall_mem_map, not_hasKey_redactPart_iff, KeysFirst]
  refine ⟨fun h => hkeys.mp h.1, fun h => ⟨hkeys.mpr h, ?_⟩⟩
  have hmap : (Text.splitWhitespace (redactWords m raw)).map (redactPart m) =
      (Text.splitWhitespace raw).map (redactPart m) := by
    rw [splitWhitespace_redactWords, List.map_map]
    exact List.map_congr_left fun w hw => redactPart_redactPart m (h w hw)
  rw [redactWords, hmap, redactWords]

end Markers

end Key

/-- No provider key survives redaction, by either copy, and redacting again changes nothing, exactly
if the text has its keys first. -/
theorem noKey_iff (raw : Text) :
    ((¬ HasKey (RelayCore.redactSensitive raw) ∧
        RelayCore.redactSensitive (RelayCore.redactSensitive raw) = RelayCore.redactSensitive raw) ↔
      KeysFirst RelayCore.markers raw) ∧
    ((¬ HasKey (LocalProxy.redactSensitive raw) ∧
        LocalProxy.redactSensitive (LocalProxy.redactSensitive raw) =
          LocalProxy.redactSensitive raw) ↔
      KeysFirst LocalProxy.markers raw) :=
  ⟨not_hasKey_redactWords_iff RelayCore.markers raw,
    not_hasKey_redactWords_iff LocalProxy.markers raw⟩

/-- Two keys in one word. -/
def twoKeys : Text := "sk-abcdefgh,sk-ijklmnop".toList

/-- The second key is shown, and redacted only when the text is redacted again. -/
theorem twoKeys_shown :
    HasKey (RelayCore.redactSensitive twoKeys) ∧ HasKey (LocalProxy.redactSensitive twoKeys) ∧
      RelayCore.redactSensitive (RelayCore.redactSensitive twoKeys) ≠
        RelayCore.redactSensitive twoKeys ∧
      LocalProxy.redactSensitive (LocalProxy.redactSensitive twoKeys) ≠
        LocalProxy.redactSensitive twoKeys := by
  have hred : RelayCore.redactSensitive twoKeys = "<redacted>,sk-ijklmnop".toList := by
    decide +kernel
  have hagain : RelayCore.redactSensitive "<redacted>,sk-ijklmnop".toList =
      "<redacted>,<redacted>".toList := by decide +kernel
  have hkey : HasKey "<redacted>,sk-ijklmnop".toList :=
    ⟨"sk-ijklmnop".toList, by decide, by decide, by decide, by simp [isKeyChar]⟩
  rw [redactSensitive_copies, hred, hagain]
  exact ⟨hkey, hkey, by decide, by decide⟩

/-! ### The word after the scheme -/

/-- A message with a credential `v` in it. -/
def bearerMessage (p v q : Text) : Text := p ++ ("Authorization: Bearer ".toList ++ v) ++ q

/-- The redacted message does not tell which word the credential is. -/
def Hides (redact : Text → Text) (p v q : Text) : Prop :=
  ∀ w, Text.IsWord w → redact (bearerMessage p w q) = redact (bearerMessage p v q)

section Credential

variable {p v w q : Text} (hp : ∀ c ∈ p.getLast?, Text.isWhitespace c = true)
  (hq : ∀ c ∈ q.head?, Text.isWhitespace c = true)

include hp hq

theorem splitWhitespace_bearerMessage (hv : Text.IsWord v) :
    Text.splitWhitespace (bearerMessage p v q) = Text.splitWhitespace p ++
      (["Authorization:".toList, "Bearer".toList, v] ++ Text.splitWhitespace q) := by
  have hscheme : Text.splitWhitespace "Authorization: Bearer ".toList =
      ["Authorization:".toList, "Bearer".toList] := by decide
  have hlast : ∀ c ∈ "Authorization: Bearer ".toList.getLast?, Text.isWhitespace c = true := by
    simp [Text.isWhitespace]
  rw [bearerMessage, List.append_assoc, Text.splitWhitespace_of_last hp,
    Text.splitWhitespace_of_head hq, Text.splitWhitespace_of_last hlast, hscheme,
    hv.splitWhitespace_eq]
  rfl

/-- Two messages look alike exactly if their credentials look alike as words. -/
theorem redactWords_bearerMessage_eq_iff (m : Markers) (hv : Text.IsWord v) (hw : Text.IsWord w) :
    redactWords m (bearerMessage p w q) = redactWords m (bearerMessage p v q) ↔
      redactPart m w = redactPart m v := by
  constructor
  · intro h
    have hwords := congrArg Text.splitWhitespace h
    rw [splitWhitespace_redactWords, splitWhitespace_redactWords,
      splitWhitespace_bearerMessage hp hq hv, splitWhitespace_bearerMessage hp hq hw] at hwords
    simp only [List.map_append, List.map_cons, List.append_cancel_left_eq,
      List.append_cancel_right_eq, List.cons.injEq, true_and, List.map_nil, and_true] at hwords
    exact hwords
  · intro h
    rw [redactWords, redactWords, splitWhitespace_bearerMessage hp hq hv,
      splitWhitespace_bearerMessage hp hq hw]
    simp only [List.map_append, List.map_cons, h]

/-- There are two words that redaction leaves as they are, and at least one of them is not what the
credential becomes. -/
theorem not_hides (m : Markers) (hfree : ∀ c, m.mark [c] = false) (hv : Text.IsWord v) :
    ¬ Hides (redactWords m) p v q := by
  intro hhides
  have hword : ∀ c, Text.isWhitespace c = false → Text.IsWord [c] :=
    fun c hc => ⟨List.cons_ne_nil _ _, by simpa using hc⟩
  have hsame : ∀ c, Text.isWhitespace c = false → redactPart m v = redactKey [c] := by
    intro c hc
    have h := (redactWords_bearerMessage_eq_iff hp hq m hv (hword c hc)).mp (hhides _ (hword c hc))
    have hmark : m.mark (Text.toAsciiLowercase [c]) = false := hfree c.toLower
    rw [← h, redactPart, hmark]
    exact if_neg Bool.false_ne_true
  have hab := (hsame 'a' (by decide)).symm.trans (hsame 'b' (by decide))
  exact absurd hab (by decide)

end Credential

/-- No marker is a single character. -/
theorem mark_singleton (c : Char) : RelayCore.markers.mark [c] = false := by
  rw [Markers.mark_eq_false_iff]
  have hlen : ∀ k ∈ RelayCore.markers.starts ++ RelayCore.markers.parts, 1 < k.length := by decide
  constructor
  · intro k hk hpre
    have h := hlen k (List.mem_append_left _ hk)
    have hle := hpre.length_le
    exact absurd (h.trans_le hle) (by simp)
  · intro k hk hinf
    have h := hlen k (List.mem_append_right _ hk)
    have hle := hinf.length_le
    exact absurd (h.trans_le hle) (by simp)

/-- Whatever stands around it, the word after the scheme is not hidden: the redacted message shows
what that word alone is redacted to. -/
theorem credential_shows (p v q : Text) (hp : ∀ c ∈ p.getLast?, Text.isWhitespace c = true)
    (hq : ∀ c ∈ q.head?, Text.isWhitespace c = true) (hv : Text.IsWord v) :
    ¬ Hides RelayCore.redactSensitive p v q ∧ ¬ Hides LocalProxy.redactSensitive p v q ∧
      ∀ w, Text.IsWord w →
        (RelayCore.redactSensitive (bearerMessage p w q) =
            RelayCore.redactSensitive (bearerMessage p v q) ↔
          RelayCore.redactSensitivePart w = RelayCore.redactSensitivePart v) ∧
        (LocalProxy.redactSensitive (bearerMessage p w q) =
            LocalProxy.redactSensitive (bearerMessage p v q) ↔
          LocalProxy.redactSensitivePart w = LocalProxy.redactSensitivePart v) := by
  have hnot : ¬ Hides RelayCore.redactSensitive p v q :=
    not_hides hp hq RelayCore.markers mark_singleton hv
  refine ⟨hnot, by rwa [redactSensitive_copies], fun w hw => ⟨?_, ?_⟩⟩
  · exact redactWords_bearerMessage_eq_iff hp hq RelayCore.markers hv hw
  · exact redactWords_bearerMessage_eq_iff hp hq LocalProxy.markers hv hw

theorem abc_shows : ¬ Hides RelayCore.redactSensitive [] "abc".toList [] ∧
    ¬ Hides LocalProxy.redactSensitive [] "abc".toList [] := by
  obtain ⟨hrelay, hlocal, -⟩ := credential_shows [] "abc".toList [] (by simp) (by simp)
    ⟨by decide, by simp [Text.isWhitespace]⟩
  exact ⟨hrelay, hlocal⟩

/-- The two credentials are shown. -/
theorem abc_xyz_differ :
    RelayCore.redactSensitive (bearerMessage [] "abc".toList []) =
        "<redacted> <redacted> abc".toList ∧
      RelayCore.redactSensitive (bearerMessage [] "xyz".toList []) =
        "<redacted> <redacted> xyz".toList ∧
      LocalProxy.redactSensitive (bearerMessage [] "abc".toList []) ≠
        LocalProxy.redactSensitive (bearerMessage [] "xyz".toList []) := by
  decide +kernel

end TrustedRelay
