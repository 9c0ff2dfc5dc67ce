import Mathlib

/-!
# Strings and byte strings of the modelled language

A Rust `String` is a sequence of Unicode scalar values stored as UTF-8, so it is modelled as
`Text`, a list of characters; a `Vec<u8>` or a byte slice is a list of bytes. The `str`
methods the development needs are defined here under their own names, and the one fact about
the encoding that hashing rests on is proved: `Text.asBytes` is injective and turns
concatenation into concatenation, so two byte-equal messages are the same text.

`BTreeMap<String, V>` is Lean's extensional tree map. Rust orders strings by their bytes; UTF-8
preserves the order of code points, so this is the lexicographic order of `Text`.
-/

namespace TrustedRelay

/-- A Rust string: its Unicode scalar values. -/
abbrev Text := List Char

/-- A byte string. -/
abbrev Bytes := List UInt8

instance : LawfulBEq Text := inferInstanceAs (LawfulBEq (List Char))

/-- `BTreeMap<String, V>`; iteration (`toList`) is in increasing key order. -/
abbrev BTreeMap (V : Type) := Std.ExtTreeMap Text V

namespace Text

/-- `str::as_bytes`: the UTF-8 encoding. -/
def asBytes (s : Text) : Bytes := s.flatMap String.utf8EncodeChar

@[simp] theorem asBytes_nil : asBytes [] = [] := rfl

@[simp] theorem asBytes_append (s t : Text) : asBytes (s ++ t) = asBytes s ++ asBytes t := by
  simp [asBytes]

/-- UTF-8 is decodable: byte-equal texts are equal. -/
theorem asBytes_injective : Function.Injective asBytes := by
  intro s t h
  have hb : s.utf8Encode = t.utf8Encode := by
    simp only [List.utf8Encode]
    exact congrArg List.toByteArray h
  have hs := congrArg ByteArray.utf8Decode? hb
  rw [List.utf8Decode?_utf8Encode, List.utf8Decode?_utf8Encode] at hs
  simpa using hs

/-- An ASCII character is its own byte. -/
theorem mem_asBytes_of_mem {s : Text} {c : Char} (hc : c.toNat < 0x80) (h : c ∈ s) :
    UInt8.ofNat c.toNat ∈ asBytes s := by
  refine List.mem_flatMap.mpr ⟨c, h, ?_⟩
  have hle : c.val.toNat ≤ 0x7f := Nat.le_of_lt_succ hc
  rw [String.utf8EncodeChar, if_pos hle]
  exact List.mem_singleton_self _

/-- Only the character itself has an ASCII byte in its encoding. -/
theorem mem_of_mem_asBytes {s : Text} {c : Char} (hc : c.toNat < 0x80)
    (h : UInt8.ofNat c.toNat ∈ asBytes s) : c ∈ s := by
  obtain ⟨e, he, hmem⟩ := List.mem_flatMap.mp h
  suffices c = e from this ▸ he
  have hcn : c.toNat = c.val.toNat := rfl
  rw [String.utf8EncodeChar] at hmem
  -- the bytes of a longer encoding are all at least `0x80`
  split_ifs at hmem with h1 h2 h3 <;>
    simp only [List.mem_cons, List.not_mem_nil, or_false, ← UInt8.toNat_inj,
      UInt8.toNat_ofNat'] at hmem
  · apply Char.toNat_inj.mp
    change c.toNat = e.val.toNat
    omega
  all_goals omega

/-- A character whose byte is refused by a test on all bytes does not occur. -/
theorem not_mem_of_all_asBytes {p : UInt8 → Bool} {s : Text} (h : (asBytes s).all p = true)
    {c : Char} (hc : c.toNat < 0x80) (hp : p (UInt8.ofNat c.toNat) = false) : c ∉ s := by
  intro hmem
  rw [List.all_eq_true.mp h _ (mem_asBytes_of_mem hc hmem)] at hp
  exact absurd hp (by decide)

/-- `str::len`: the length in bytes. -/
def len (s : Text) : ℕ := (asBytes s).length

/-- A prefix of the same length in bytes is the whole text. -/
theorem eq_of_prefix_of_len_le {s t : Text} (h : s <+: t) (hlen : len t ≤ len s) : s = t := by
  obtain ⟨u, rfl⟩ := h
  have hu : (asBytes u).length = 0 := by
    rw [len, len, asBytes_append, List.length_append] at hlen
    omega
  have hnil : u = [] := asBytes_injective (by rw [List.length_eq_zero_iff.mp hu, asBytes_nil])
  rw [hnil, List.append_nil]

theorem length_asBytes_le (s : Text) : (asBytes s).length ≤ 4 * s.length := by
  induction s with
  | nil => exact Nat.le_refl 0
  | cons c s ih =>
    have hc : (String.utf8EncodeChar c).length ≤ 4 := by
      rw [String.length_utf8EncodeChar]
      exact Char.utf8Size_le_four c
    simp only [asBytes, List.flatMap_cons, List.length_append, List.length_cons] at ih ⊢
    omega

/-- `char::is_whitespace`: the Unicode property `White_Space`. -/
def isWhitespace (c : Char) : Bool :=
  (0x9 ≤ c.toNat && c.toNat ≤ 0xD) || c.toNat == 0x20 || c.toNat == 0x85 || c.toNat == 0xA0 ||
    c.toNat == 0x1680 || (0x2000 ≤ c.toNat && c.toNat ≤ 0x200A) || c.toNat == 0x2028 ||
    c.toNat == 0x2029 || c.toNat == 0x202F || c.toNat == 0x205F || c.toNat == 0x3000

/-- `str::trim`. -/
def trim (s : Text) : Text := (s.dropWhile isWhitespace).rdropWhile isWhitespace

/-- `str::trim_end`. -/
def trimEnd (s : Text) : Text := s.rdropWhile isWhitespace

/-- Trimming the end of a text trims its last part, and goes on only if nothing of that is left. -/
theorem rdropWhile_append {α : Type} (p : α → Bool) (s t : List α) :
    (s ++ t).rdropWhile p =
      if t.rdropWhile p = [] then s.rdropWhile p else s ++ t.rdropWhile p := by
  simp only [List.rdropWhile, List.reverse_append, List.dropWhile_append, List.isEmpty_iff,
    List.reverse_eq_nil_iff]
  split_ifs <;> simp

/-- Trimming fewer characters first makes no difference. -/
theorem rdropWhile_rdropWhile {p q : Char → Bool} (h : ∀ c, q c = true → p c = true) (s : Text) :
    (s.rdropWhile q).rdropWhile p = s.rdropWhile p := by
  induction s using List.reverseRecOn with
  | nil => rfl
  | append_singleton s c ih =>
    rw [List.rdropWhile_concat q]
    split_ifs with hc
    · rw [ih, List.rdropWhile_concat_pos _ _ _ (h c hc)]
    · rfl

/-- What `trim` leaves has no whitespace at its start. -/
theorem dropWhile_trim (s : Text) : (trim s).dropWhile isWhitespace = trim s := by
  have hhead : ∀ h : 0 < (s.dropWhile isWhitespace).length,
      ¬isWhitespace ((s.dropWhile isWhitespace).get ⟨0, h⟩) = true :=
    List.dropWhile_eq_self_iff.mp (List.dropWhile_idempotent _ _)
  rw [List.dropWhile_eq_self_iff]
  intro h
  -- the end that is cut off leaves the first character in place
  obtain ⟨rest, hrest⟩ := List.rdropWhile_prefix isWhitespace (s.dropWhile isWhitespace)
  have hlen : 0 < (s.dropWhile isWhitespace).length := by
    rw [← hrest, List.length_append]
    exact Nat.lt_add_right _ h
  have hsame : (trim s).get ⟨0, h⟩ = (s.dropWhile isWhitespace).get ⟨0, hlen⟩ := by
    simp only [List.get_eq_getElem, trim]
    exact (List.rdropWhile_prefix isWhitespace _).getElem h
  have hne := hhead hlen
  rwa [← hsame] at hne

theorem trim_trim (s : Text) : trim (trim s) = trim s := by
  rw [trim, dropWhile_trim, trim, List.rdropWhile_idempotent]

/-- `str::to_ascii_lowercase`. -/
def toAsciiLowercase (s : Text) : Text := s.map Char.toLower

/-- Lowercasing only produces characters that were there or lowercase letters. -/
theorem mem_of_mem_toAsciiLowercase {s : Text} {c : Char} (hc : c.isLower = false)
    (h : c ∈ toAsciiLowercase s) : c ∈ s := by
  obtain ⟨d, hd, rfl⟩ := List.mem_map.mp h
  by_cases hup : d.isUpper = true
  · have : (Char.toLower d).isLower = true := by
      simp only [Char.isUpper, ge_iff_le, Char.reduceVal, Bool.decide_and, Bool.and_eq_true,
        decide_eq_true_eq, UInt32.le_iff_toNat_le, UInt32.reduceToNat] at hup
      have hlt : d.val.toNat + 32 < 2 ^ 32 := by omega
      simp only [Char.toLower, Char.isLower, ge_iff_le, Char.reduceVal, UInt32.le_iff_toNat_le,
        UInt32.reduceToNat, hup.1, hup.2, and_self, dite_true, UInt32.reduceSub,
        UInt32.toNat_add, Bool.and_eq_true, decide_eq_true_eq]
      omega
    rw [this] at hc
    exact absurd hc (by decide)
  · have hlow : Char.toLower d = d := by
      rw [Char.toLower, dif_neg]
      simpa [Char.isUpper] using hup
    rwa [hlow]

/-- The order of the keys of a `BTreeMap` is the order of texts. -/
theorem lt_of_compare {s t : Text} (h : compare s t = .lt) : s < t := by
  change List.compareLex compare s t = .lt at h
  induction s generalizing t with
  | nil =>
    cases t with
    | nil => cases h
    | cons d t => exact List.Lex.nil
  | cons c s ih =>
    cases t with
    | nil => cases h
    | cons d t =>
      rw [List.compareLex_cons_cons, Ordering.then_eq_lt] at h
      rcases h with hlt | ⟨heq, hrest⟩
      · exact List.Lex.rel (compare_lt_iff_lt.mp hlt)
      · rw [compare_eq_iff_eq.mp heq]
        exact List.Lex.cons (ih hrest)

/-- `str::starts_with` on a string pattern. -/
def startsWith (s p : Text) : Bool := p.isPrefixOf s

/-- `str::strip_prefix` on a string pattern. -/
def stripPrefix (s p : Text) : Option Text :=
  if startsWith s p then some (s.drop p.length) else none

/-- `str::contains` on a string pattern. -/
def contains (s p : Text) : Bool := decide (p <:+: s)

/-- `str::trim_end_matches` on a character. -/
def trimEndMatches (s : Text) (c : Char) : Text := s.rdropWhile (· == c)

/-- `str::trim_start_matches` on a non-empty string pattern: every copy at the start goes. -/
def trimStartMatches (s p : Text) : Text := go s.length s
where
  go : ℕ → Text → Text
    | 0, s => s
    | n + 1, s => if startsWith s p then go n (s.drop p.length) else s

/-- `str::split_once` at a character. -/
def splitOnce (s : Text) (c : Char) : Option (Text × Text) :=
  match s.dropWhile (· != c) with
  | [] => none
  | _ :: rest => some (s.takeWhile (· != c), rest)

/-- The first occurrence splits. -/
theorem splitOnce_append {s : Text} {c : Char} (h : c ∉ s) (rest : Text) :
    splitOnce (s ++ c :: rest) c = some (s, rest) := by
  have hne : ∀ x ∈ s, (x != c) = true := fun x hx => bne_iff_ne.mpr fun heq => h (heq ▸ hx)
  have hdrop : (s ++ c :: rest).dropWhile (· != c) = c :: rest := by
    rw [List.dropWhile_append_of_pos hne, List.dropWhile_cons_of_neg (by simp)]
  have htake : (s ++ c :: rest).takeWhile (· != c) = s := by
    rw [List.takeWhile_append_of_pos hne, List.takeWhile_cons_of_neg (by simp), List.append_nil]
  rw [splitOnce, hdrop, htake]

theorem stripPrefix_append (p rest : Text) : stripPrefix (p ++ rest) p = some rest := by
  rw [stripPrefix, startsWith, if_pos (List.isPrefixOf_iff_prefix.mpr (List.prefix_append p rest)),
    List.drop_left]

/-- `str::split_whitespace`. -/
def splitWhitespace (s : Text) : List Text := (s.splitOnP isWhitespace).filter (· ≠ [])

/-- A word and the whitespace after it. -/
theorem splitWhitespace_append_cons {w : Text} {c : Char} (hne : w ≠ [])
    (hw : ∀ x ∈ w, isWhitespace x = false) (hc : isWhitespace c = true) (rest : Text) :
    splitWhitespace (w ++ c :: rest) = w :: splitWhitespace rest := by
  rw [splitWhitespace, List.splitOnP_append_cons_of_forall_mem hw c hc,
    List.filter_cons_of_pos (by simpa using hne), splitWhitespace]

theorem splitWhitespace_word {w : Text} (hne : w ≠ []) (hw : ∀ x ∈ w, isWhitespace x = false) :
    splitWhitespace w = [w] := by
  rw [splitWhitespace, List.splitOnP_eq_singleton hw, List.filter_cons_of_pos (by simpa using hne),
    List.filter_nil]

/-- `str::eq_ignore_ascii_case`. -/
def eqIgnoreAsciiCase (s t : Text) : Bool := toAsciiLowercase s == toAsciiLowercase t

/-- `str::from_utf8`. -/
def fromUtf8 (b : Bytes) : Option Text := b.toByteArray.utf8Decode?.map Array.toList

theorem fromUtf8_asBytes (s : Text) : fromUtf8 (asBytes s) = some s := by
  have hb : (asBytes s).toByteArray = s.utf8Encode := rfl
  rw [fromUtf8, hb, List.utf8Decode?_utf8Encode, Option.map_some, List.toList_toArray]

theorem asBytes_of_fromUtf8 {b : Bytes} {s : Text} (h : fromUtf8 b = some s) : asBytes s = b := by
  obtain ⟨a, ha, rfl⟩ := Option.map_eq_some_iff.mp h
  have hsome : b.toByteArray.utf8Decode?.isSome := by rw [ha, Option.isSome_some]
  have henc := ByteArray.utf8Encode_get_utf8Decode? (h := hsome)
  simp only [ha, Option.get_some] at henc
  have hb : (asBytes a.toList).toByteArray = b.toByteArray := henc
  have hlist := congrArg (fun bytes => bytes.data.toList) hb
  simpa only [List.toList_data_toByteArray] using hlist

/-- `to_string` of an unsigned integer. -/
def decimal (n : ℕ) : Text := Nat.toDigits 10 n

theorem isDigit_of_mem_decimal {n : ℕ} {c : Char} (h : c ∈ decimal n) : c.isDigit = true :=
  Nat.isDigit_of_mem_toDigits (by decide) (by decide) h

theorem decimal_injective : Function.Injective decimal := by
  intro m n h
  rw [← Nat.ofDigitChars_ten_toDigits (n := m), ← Nat.ofDigitChars_ten_toDigits (n := n)]
  exact congrArg (fun l => Nat.ofDigitChars 10 l 0) h

end Text

/-- `u8::is_ascii_hexdigit`. -/
def isAsciiHexdigit (b : UInt8) : Bool :=
  (48 ≤ b && b ≤ 57) || (97 ≤ b && b ≤ 102) || (65 ≤ b && b ≤ 70)

/-- `u8::is_ascii_alphanumeric`. -/
def isAsciiAlphanumeric (b : UInt8) : Bool :=
  (48 ≤ b && b ≤ 57) || (97 ≤ b && b ≤ 122) || (65 ≤ b && b ≤ 90)

/-- `u8::is_ascii_whitespace`. -/
def isAsciiWhitespace (b : UInt8) : Bool := b ∈ ([32, 9, 10, 12, 13] : List UInt8)

/-- `hex::encode`. -/
def hexEncode (b : Bytes) : Text :=
  b.flatMap fun x => [Nat.digitChar (x.toNat / 16), Nat.digitChar (x.toNat % 16)]

/-- The `{:?}` rendering of a string. Non-ASCII characters are written as they are. -/
def debugStr (s : Text) : Text :=
  '"' :: s.flatMap (fun c =>
    match c with
    | '"' => "\\\"".toList
    | '\\' => "\\\\".toList
    | '\t' => "\\t".toList
    | '\n' => "\\n".toList
    | '\r' => "\\r".toList
    | c =>
      if c.toNat = 0 then "\\0".toList
      else if c.toNat < 0x20 ∨ c.toNat = 0x7F then
        "\\u\x7b".toList ++ Nat.toDigits 16 c.toNat ++ "\x7d".toList
      else [c]) ++ ['"']

/-- The `{:?}` rendering of an optional string. -/
def debugOption : Option Text → Text
  | some s => "Some(".toList ++ debugStr s ++ ")".toList
  | none => "None".toList

/-- The `{:?}` rendering of a list of strings. -/
def debugStrs (ss : List Text) : Text :=
  '[' :: ", ".toList.intercalate (ss.map debugStr) ++ [']']

end TrustedRelay
