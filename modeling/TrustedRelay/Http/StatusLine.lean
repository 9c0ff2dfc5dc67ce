import TrustedRelay.Rust.Ascii

/-!
# Status lines

The first line of an HTTP/1.x response, in its parts. Both programs that read a response look for
` 200 ` in the whole line; `contains_200_iff` says which lines have it.
-/

namespace TrustedRelay

open Delimited

/-- A status line: the version, three digits, and a reason phrase, which is any bytes but the ones
that end a line. -/
structure StatusLine where
  minor : Char
  code : Text
  reason : Bytes
  minor_digit : minor.isDigit = true
  code_length : code.length = 3
  code_digits : ∀ c ∈ code, c.isDigit = true
  reason_oneLine : ∀ b ∈ reason, b ≠ 13 ∧ b ≠ 10

namespace StatusLine

def version (l : StatusLine) : Text := "HTTP/1.".toList ++ [l.minor]

/-- The line as it is sent, without its line break. -/
def bytes (l : StatusLine) : Bytes :=
  Text.asBytes l.version ++ 32 :: (Text.asBytes l.code ++ 32 :: l.reason)

def IsOk (l : StatusLine) : Prop := l.code = "200".toList

/-- The reason phrase, with the space before it, has ` 200 ` in it. -/
def ReasonHas200 (l : StatusLine) : Prop := Text.asBytes " 200 ".toList <:+: 32 :: l.reason

instance (l : StatusLine) : Decidable l.IsOk := inferInstanceAs (Decidable (_ = _))

instance (l : StatusLine) : Decidable l.ReasonHas200 := inferInstanceAs (Decidable (_ <:+: _))

section Bytes

variable (l : StatusLine) {s t : Text} {rest : Bytes} {c : Char}

theorem ascii_of_isDigit (h : c.isDigit = true) : c.toNat < 0x80 := by
  simp only [Char.isDigit, Bool.and_eq_true, decide_eq_true_eq, UInt32.le_iff_toNat_le] at h
  exact h.2.trans_lt (by decide)

theorem not_mem_code (h : c.isDigit = false) : c ∉ l.code := by
  intro hmem
  rw [l.code_digits c hmem] at h
  cases h

theorem not_mem_version (h : c.isDigit = false) (hname : c ∉ "HTTP/1.".toList) : c ∉ l.version := by
  intro hmem
  rcases List.mem_append.mp hmem with hmem | hmem
  · exact hname hmem
  · rw [List.mem_singleton.mp hmem, l.minor_digit] at h
    cases h

theorem length_asBytes_code : (Text.asBytes l.code).length = 3 :=
  (Text.len_of_ascii fun c hc => ascii_of_isDigit (l.code_digits c hc)).trans l.code_length

/-- The search finds the code, or the reason phrase. -/
theorem infix_bytes_iff : Text.asBytes " 200 ".toList <:+: l.bytes ↔ l.IsOk ∨ l.ReasonHas200 := by
  have hpattern : Text.asBytes " 200 ".toList = 32 :: (Text.asBytes "200".toList ++ [32]) := by
    decide
  have hversion : 32 ∉ Text.asBytes l.version :=
    fun hmem => l.not_mem_version (by decide) (by decide)
      (Text.mem_of_mem_asBytes (c := ' ') (by decide) hmem)
  have hcode : 32 ∉ Text.asBytes l.code :=
    fun hmem => l.not_mem_code (by decide) (Text.mem_of_mem_asBytes (c := ' ') (by decide) hmem)
  -- an occurrence begins at the space before the code, or behind the code
  rw [ReasonHas200, IsOk, hpattern, bytes, infix_append_iff_of_not_mem hversion,
    List.infix_cons_iff, infix_append_iff_of_not_mem hcode, List.cons_prefix_cons]
  refine or_congr_left ⟨fun ⟨_, t, ht⟩ => ?_, fun hok => ⟨rfl, l.reason, ?_⟩⟩
  · rw [List.append_assoc] at ht
    have hlength : (Text.asBytes "200".toList).length = (Text.asBytes l.code).length := by
      rw [length_asBytes_code]
      rfl
    exact Text.asBytes_injective (List.append_inj_left ht hlength).symm
  · rw [hok, List.append_assoc]
    rfl

/-- The line has no line break in it. -/
theorem bytes_oneLine : ∀ b ∈ l.bytes, b ≠ 13 ∧ b ≠ 10 := by
  have hfree : ∀ c : Char, c.toNat < 0x80 → c.isDigit = false → c ∉ "HTTP/1.".toList →
      UInt8.ofNat c.toNat ≠ 32 → UInt8.ofNat c.toNat ∉ l.reason →
      UInt8.ofNat c.toNat ∉ l.bytes := by
    intro c hc hdigit hname hspace hreason hmem
    simp only [bytes, List.mem_append, List.mem_cons, hspace, hreason, false_or, or_false] at hmem
    rcases hmem with hmem | hmem
    · exact l.not_mem_version hdigit hname (Text.mem_of_mem_asBytes hc hmem)
    · exact l.not_mem_code hdigit (Text.mem_of_mem_asBytes hc hmem)
  refine fun b hb => ⟨?_, ?_⟩
  · rintro rfl
    exact hfree '\r' (by decide) (by decide) (by decide) (by decide)
      (fun hmem => (l.reason_oneLine _ hmem).1 rfl) hb
  · rintro rfl
    exact hfree '\n' (by decide) (by decide) (by decide) (by decide)
      (fun hmem => (l.reason_oneLine _ hmem).2 rfl) hb

/-- A text that begins with the bytes of the line begins with the line. -/
theorem exists_text (h : Text.asBytes s = l.bytes ++ 13 :: 10 :: rest) :
    ∃ status t, s = status ++ '\r' :: '\n' :: t ∧ Text.asBytes status = l.bytes ∧
      Text.asBytes t = rest := by
  obtain ⟨status, u, rfl, hstatus, hu⟩ := Text.exists_split_of_asBytes (c := '\r') (by decide)
    (fun hmem => (l.bytes_oneLine _ hmem).1 rfl) h
  obtain ⟨v, t, rfl, hv, ht⟩ := Text.exists_split_of_asBytes (c := '\n') (a := []) (by decide)
    List.not_mem_nil hu
  obtain rfl : v = [] := Text.asBytes_injective hv
  exact ⟨status, t, rfl, hstatus, ht⟩

/-- The first line of bytes that begin with the line is the line with its carriage return. -/
theorem exists_firstLine {front : Bytes} (hs : '\n' ∉ s)
    (h : Text.asBytes s ++ 10 :: front = l.bytes ++ 13 :: 10 :: rest) :
    ∃ status, s = status ++ ['\r'] ∧ Text.asBytes status = l.bytes ∧ front = rest := by
  have hs' : ∀ b ∈ Text.asBytes s, b ≠ 10 := by
    rintro b hb rfl
    exact hs (Text.mem_of_mem_asBytes (c := '\n') (by decide) hb)
  have hline : ∀ b ∈ l.bytes ++ [13], b ≠ 10 := by
    rw [List.forall_mem_append, List.forall_mem_singleton]
    exact ⟨fun b hb => (l.bytes_oneLine b hb).2, by decide⟩
  rw [List.append_cons l.bytes] at h
  obtain ⟨heq, -, hfront⟩ := append_cons_inj_of_first hs' hline (by decide) (by decide) h
  obtain ⟨status, v, rfl, hstatus, hv⟩ := Text.exists_split_of_asBytes (c := '\r') (by decide)
    (fun hmem => (l.bytes_oneLine _ hmem).1 rfl) heq
  obtain rfl : v = [] := Text.asBytes_injective hv
  exact ⟨status, rfl, hstatus, hfront⟩

theorem contains_200_iff (h : Text.asBytes s = l.bytes) :
    Text.contains s " 200 ".toList = true ↔ l.IsOk ∨ l.ReasonHas200 := by
  have hascii : ∀ c ∈ " 200 ".toList, c.toNat < 0x80 := List.all_iff_forall_prop.mp (by decide)
  rw [Text.contains, decide_eq_true_eq, ← Text.asBytes_infix_iff hascii, h, infix_bytes_iff]

/-- The line break is not found. -/
theorem contains_200_break_iff (h : Text.asBytes s = l.bytes) (ht : t.length < 5) :
    Text.contains (s ++ '\r' :: t) " 200 ".toList = true ↔ l.IsOk ∨ l.ReasonHas200 := by
  have hshort : ¬ " 200 ".toList <:+: t := fun hinf => Nat.not_lt.mpr hinf.length_le ht
  rw [← l.contains_200_iff h, Text.contains, Text.contains, decide_eq_true_eq, decide_eq_true_eq,
    infix_append_cons_iff (by decide), or_iff_left hshort]

end Bytes

end StatusLine

end TrustedRelay
