import TrustedRelay.Rust.Scan
import TrustedRelay.Rust.Usize

/-!
# Prefixes, letter case and ASCII texts

What the methods of `Text` do to texts that are known in part: behind a given prefix, in another
letter case, surrounded by whitespace, or made of ASCII. An ASCII text is its own encoding, so
bytes and characters can be searched for it alike (`asBytes_infix_iff`).
-/

namespace TrustedRelay

open Delimited

namespace Text

variable {s t p : Text}

/-! ### Prefixes -/

theorem startsWith_iff : startsWith s p = true ↔ p <+: s := List.isPrefixOf_iff_prefix

theorem startsWith_append (p rest : Text) : startsWith (p ++ rest) p = true :=
  startsWith_iff.mpr (List.prefix_append p rest)

theorem stripPrefix_eq_some_iff {rest : Text} : stripPrefix s p = some rest ↔ s = p ++ rest := by
  constructor
  · intro h
    rw [stripPrefix, Option.ite_none_right_eq_some, Option.some.injEq] at h
    obtain ⟨t, rfl⟩ := startsWith_iff.mp h.1
    rw [← h.2, List.drop_left]
  · rintro rfl
    exact stripPrefix_append p rest

theorem stripPrefix_eq_none_iff : stripPrefix s p = none ↔ startsWith s p = false := by
  rw [stripPrefix]
  split_ifs with h <;> simp [h]

/-- One copy of the prefix is taken off first. -/
theorem trimStartMatches_append (hp : p ≠ []) (h : startsWith t p = false) :
    trimStartMatches (p ++ t) p = t := by
  have hpos : 0 < p.length := List.length_pos_iff.mpr hp
  obtain ⟨n, hn⟩ : ∃ n, (p ++ t).length = n + 1 :=
    Nat.exists_eq_succ_of_ne_zero (by rw [List.length_append]; omega)
  rw [trimStartMatches, hn, trimStartMatches.go, if_pos (startsWith_append p t), List.drop_left]
  cases n with
  | zero => rfl
  | succ n => rw [trimStartMatches.go, if_neg (by simp [h])]

/-! ### Letter case and whitespace -/

theorem toAsciiLowercase_append (s t : Text) :
    toAsciiLowercase (s ++ t) = toAsciiLowercase s ++ toAsciiLowercase t :=
  List.map_append

theorem toAsciiLowercase_toAsciiLowercase (s : Text) :
    toAsciiLowercase (toAsciiLowercase s) = toAsciiLowercase s := by
  rw [toAsciiLowercase, toAsciiLowercase, List.map_map]
  exact List.map_congr_left fun c _ => Char.toLower_toLower_eq_toLower c

/-- A property of the 128 ASCII characters. -/
theorem forall_ascii {P : Char → Prop} (h : ∀ n < 0x80, P (Char.ofNat n)) {c : Char}
    (hc : c.toNat < 0x80) : P c := by
  have hP := h c.toNat hc
  rwa [Char.ofNat_toNat] at hP

/-- What does not depend on the case of ASCII characters does not depend on letter case. -/
theorem toLower_congr {β : Type} {f : Char → β}
    (h : ∀ n < 0x80, f (Char.ofNat n).toLower = f (Char.ofNat n)) (c : Char) :
    f c.toLower = f c := by
  by_cases hup : c.isUpper = true
  · have hrange : 65 ≤ c.toNat ∧ c.toNat ≤ 90 := by
      simpa [Char.isUpper, UInt32.le_iff_toNat_le] using hup
    exact forall_ascii (P := fun c => f c.toLower = f c) h (by omega)
  · rw [Char.toLower_eq_of_not_isUpper hup]

/-- No letter is whitespace. -/
theorem isWhitespace_toLower (c : Char) : isWhitespace c.toLower = isWhitespace c :=
  toLower_congr (by decide) c

theorem trim_toAsciiLowercase (s : Text) :
    trim (toAsciiLowercase s) = toAsciiLowercase (trim s) := by
  have hws : isWhitespace ∘ Char.toLower = isWhitespace := funext isWhitespace_toLower
  simp only [trim, toAsciiLowercase, List.rdropWhile, List.dropWhile_map, hws, ← List.map_reverse]

/-- Whitespace around a text is trimmed away. -/
theorem trim_surrounded {before after : Text}
    (h : ∀ c ∈ before ++ after, isWhitespace c = true) : trim (before ++ s ++ after) = trim s := by
  obtain ⟨hb, ha⟩ := List.forall_mem_append.mp h
  have hafter : after.dropWhile isWhitespace = [] := List.dropWhile_eq_nil_iff.mpr ha
  have hrafter : after.rdropWhile isWhitespace = [] := List.rdropWhile_eq_nil_iff.mpr ha
  rw [trim, trim, List.append_assoc, List.dropWhile_append_of_pos hb, List.dropWhile_append]
  split_ifs with hs
  · rw [hafter, List.isEmpty_iff.mp hs]
  · rw [rdropWhile_append, if_pos hrafter]

/-! ### ASCII -/

theorem utf8EncodeChar_of_ascii {c : Char} (h : c.toNat < 0x80) :
    String.utf8EncodeChar c = [UInt8.ofNat c.toNat] := by
  have hle : c.val.toNat ≤ 0x7F := Nat.le_of_lt_succ h
  rw [String.utf8EncodeChar, if_pos hle]
  rfl

theorem asBytes_cons (c : Char) (s : Text) :
    asBytes (c :: s) = String.utf8EncodeChar c ++ asBytes s := List.flatMap_cons

theorem asBytes_cons_of_ascii {c : Char} (h : c.toNat < 0x80) (s : Text) :
    asBytes (c :: s) = UInt8.ofNat c.toNat :: asBytes s := by
  rw [asBytes_cons, utf8EncodeChar_of_ascii h]
  rfl

/-- The bytes of a character outside ASCII are outside ASCII, and there is at least one. -/
theorem utf8EncodeChar_of_not_ascii {c : Char} (h : 0x80 ≤ c.toNat) :
    String.utf8EncodeChar c ≠ [] ∧ ∀ b ∈ String.utf8EncodeChar c, 0x80 ≤ b.toNat := by
  have hc : 0x80 ≤ c.val.toNat := h
  rw [String.utf8EncodeChar]
  split_ifs with h1 h2 h3
  · omega
  all_goals
    refine ⟨List.cons_ne_nil _ _, fun b hb => ?_⟩
    simp only [List.mem_cons, List.not_mem_nil, or_false] at hb
  · rcases hb with rfl | rfl <;> rw [UInt8.toNat_ofNat'] <;> omega
  · rcases hb with rfl | rfl | rfl <;> rw [UInt8.toNat_ofNat'] <;> omega
  · rcases hb with rfl | rfl | rfl | rfl <;> rw [UInt8.toNat_ofNat'] <;> omega

/-- The first occurrence of an ASCII byte is that of its character. -/
theorem exists_split_of_asBytes {s : Text} {c : Char} (hc : c.toNat < 0x80) {a b : Bytes}
    (ha : UInt8.ofNat c.toNat ∉ a) (h : asBytes s = a ++ UInt8.ofNat c.toNat :: b) :
    ∃ u v, s = u ++ c :: v ∧ asBytes u = a ∧ asBytes v = b := by
  have hmem : c ∈ s := mem_of_mem_asBytes hc (h ▸ List.mem_append_right a List.mem_cons_self)
  obtain ⟨u, v, rfl, hu⟩ := List.eq_append_cons_of_mem hmem
  have hu' : UInt8.ofNat c.toNat ∉ asBytes u := fun hmem => hu (mem_of_mem_asBytes hc hmem)
  rw [asBytes_append, asBytes_cons_of_ascii hc] at h
  obtain ⟨hua, -, hvb⟩ := append_cons_inj_of_first (P := (· ≠ UInt8.ofNat c.toNat))
    (fun x hx heq => hu' (heq ▸ hx)) (fun x hx heq => ha (heq ▸ hx)) (by simp) (by simp) h
  exact ⟨u, v, rfl, hua, hvb⟩

/-- A text whose bytes pass a test for ASCII bytes is one of characters that pass it. -/
theorem forall_mem_of_all_asBytes {q : UInt8 → Bool} (hq : ∀ b, q b = true → b.toNat < 0x80)
    (h : (asBytes s).all q = true) : ∀ c ∈ s, c.toNat < 0x80 ∧ q (UInt8.ofNat c.toNat) = true := by
  intro c hc
  have hbytes : ∀ b ∈ String.utf8EncodeChar c, q b = true := fun b hb =>
    List.all_eq_true.mp h b (List.mem_flatMap.mpr ⟨c, hc, hb⟩)
  by_cases hlt : c.toNat < 0x80
  · refine ⟨hlt, hbytes _ ?_⟩
    rw [utf8EncodeChar_of_ascii hlt]
    exact List.mem_singleton_self _
  · obtain ⟨hne, hhigh⟩ := utf8EncodeChar_of_not_ascii (Nat.le_of_not_lt hlt)
    obtain ⟨b, rest, heq⟩ := List.exists_cons_of_ne_nil hne
    have hb : b ∈ String.utf8EncodeChar c := heq ▸ List.mem_cons_self
    have hlow := hq b (hbytes b hb)
    have hge := hhigh b hb
    omega

theorem len_of_ascii (h : ∀ c ∈ s, c.toNat < 0x80) : len s = s.length := by
  induction s with
  | nil => rfl
  | cons c s ih =>
    rw [List.forall_mem_cons] at h
    rw [len, asBytes_cons_of_ascii h.1, List.length_cons, List.length_cons, ← ih h.2, len]

/-- An ASCII text starts another one exactly if its bytes do. -/
theorem asBytes_prefix_iff (hp : ∀ c ∈ p, c.toNat < 0x80) : asBytes p <+: asBytes s ↔ p <+: s := by
  induction p generalizing s with
  | nil => simp
  | cons c p ih =>
    rw [List.forall_mem_cons] at hp
    rw [asBytes_cons_of_ascii hp.1]
    cases s with
    | nil => simp
    | cons d s =>
      by_cases hd : d.toNat < 0x80
      · have hinj : UInt8.ofNat c.toNat = UInt8.ofNat d.toNat ↔ c = d := by
          rw [← UInt8.toNat_inj, UInt8.toNat_ofNat', UInt8.toNat_ofNat', ← Char.toNat_inj,
            Nat.mod_eq_of_lt (hp.1.trans (by decide)), Nat.mod_eq_of_lt (hd.trans (by decide))]
        rw [asBytes_cons_of_ascii hd, List.cons_prefix_cons, List.cons_prefix_cons, ih hp.2, hinj]
      · -- the encoding of `d` starts with a byte that is not that of `c`
        obtain ⟨hne, hhigh⟩ := utf8EncodeChar_of_not_ascii (Nat.le_of_not_lt hd)
        obtain ⟨b, rest, heq⟩ := List.exists_cons_of_ne_nil hne
        have hb := hhigh b (heq ▸ List.mem_cons_self)
        rw [asBytes_cons, heq, List.cons_append, List.cons_prefix_cons, List.cons_prefix_cons]
        refine iff_of_false ?_ ?_
        · rintro ⟨rfl, -⟩
          rw [UInt8.toNat_ofNat', Nat.mod_eq_of_lt (hp.1.trans (by decide))] at hb
          exact absurd hp.1 (Nat.not_lt.mpr hb)
        · rintro ⟨rfl, -⟩
          exact hd hp.1

/-- An ASCII text occurs in another one exactly if its bytes do. -/
theorem asBytes_infix_iff (hp : ∀ c ∈ p, c.toNat < 0x80) : asBytes p <:+: asBytes s ↔ p <:+: s := by
  cases p with
  | nil => simp
  | cons x p =>
    have hx := (List.forall_mem_cons.mp hp).1
    induction s with
    | nil => rw [asBytes_cons_of_ascii hx]; simp
    | cons d s ih =>
      refine Iff.trans ?_ ((or_congr (asBytes_prefix_iff hp) ih).trans List.infix_cons_iff.symm)
      by_cases hd : d.toNat < 0x80
      · rw [asBytes_cons_of_ascii hd, List.infix_cons_iff]
      · -- an occurrence does not begin inside an encoding
        have hmem : UInt8.ofNat x.toNat ∉ String.utf8EncodeChar d := by
          intro hmem
          have hge := (utf8EncodeChar_of_not_ascii (Nat.le_of_not_lt hd)).2 _ hmem
          rw [UInt8.toNat_ofNat', Nat.mod_eq_of_lt (hx.trans (by decide))] at hge
          exact absurd hx (Nat.not_lt.mpr hge)
        rw [asBytes_cons_of_ascii hx, asBytes_cons d s, infix_append_iff_of_not_mem hmem]
        refine (or_iff_right_of_imp fun hpre => ?_).symm
        rw [← infix_append_iff_of_not_mem hmem]
        exact hpre.isInfix

end Text

/-! ### Hex digits -/

theorem toNat_lt_of_isAsciiHexdigit (b : UInt8) (h : isAsciiHexdigit b = true) :
    b.toNat < 0x80 := by
  simp only [isAsciiHexdigit, Bool.or_eq_true, Bool.and_eq_true, decide_eq_true_eq,
    UInt8.le_iff_toNat_le, UInt8.reduceToNat] at h
  omega

/-- A text of hex digits, as the byte test finds it. -/
theorem hexDigits_of_all {s : Text} (h : (Text.asBytes s).all isAsciiHexdigit = true) :
    Text.len s = s.length ∧ ∀ c ∈ s, hexDigitValue c ≠ none := by
  have hall := Text.forall_mem_of_all_asBytes toNat_lt_of_isAsciiHexdigit h
  refine ⟨Text.len_of_ascii fun c hc => (hall c hc).1, fun c hc => ?_⟩
  obtain ⟨hlt, hdigit⟩ := hall c hc
  have hvalue : ∀ n < 0x80, isAsciiHexdigit (UInt8.ofNat (Char.ofNat n).toNat) = true →
      hexDigitValue (Char.ofNat n) ≠ none := by
    decide
  exact Text.forall_ascii (P := fun c => isAsciiHexdigit (UInt8.ofNat c.toNat) = true →
    hexDigitValue c ≠ none) hvalue hlt hdigit

/-- The value of a hex digit, and the digit in lower case that has it. -/
theorem toLower_of_hexDigitValue {c : Char} {x : ℕ} (h : hexDigitValue c = some x) :
    x < 16 ∧ c.toLower = Nat.digitChar x := by
  have hlt : c.toNat < 0x80 := by
    have hrange := hexDigit_range (c := c) (by simp [h])
    omega
  have hall : ∀ n < 0x80, ∀ x ∈ (hexDigitValue (Char.ofNat n)).toList,
      x < 16 ∧ (Char.ofNat n).toLower = Nat.digitChar x := by
    decide
  exact Text.forall_ascii (P := fun c => ∀ x ∈ (hexDigitValue c).toList,
    x < 16 ∧ c.toLower = Nat.digitChar x) hall hlt x (by simp [h])

theorem hexDigitValue_toLower (c : Char) : hexDigitValue c.toLower = hexDigitValue c :=
  Text.toLower_congr (by decide) c

/-- The bytes that pairs of hex digits, of either case, denote. -/
def hexBytes : Text → Option Bytes
  | [] => some []
  | [_] => none
  | c :: d :: rest =>
    match hexDigitValue c, hexDigitValue d, hexBytes rest with
    | some x, some y, some b => some (UInt8.ofNat (16 * x + y) :: b)
    | _, _, _ => none

theorem hexBytes_ne_none {s : Text} (h : ∀ c ∈ s, hexDigitValue c ≠ none)
    (heven : s.length % 2 = 0) : hexBytes s ≠ none := by
  induction s using hexBytes.induct with
  | case1 => exact Option.some_ne_none _
  | case2 c => exact absurd heven Nat.one_ne_zero
  | case3 c d rest x y b hb hy hx ih =>
    rw [hexBytes, hx, hy, hb]
    exact Option.some_ne_none _
  | case4 c d rest hnone ih =>
    rw [List.forall_mem_cons, List.forall_mem_cons] at h
    obtain ⟨x, hx⟩ := Option.ne_none_iff_exists'.mp h.1
    obtain ⟨y, hy⟩ := Option.ne_none_iff_exists'.mp h.2.1
    have heven : rest.length % 2 = 0 := by
      rw [List.length_cons, List.length_cons] at heven
      omega
    obtain ⟨b, hb⟩ := Option.ne_none_iff_exists'.mp (ih h.2.2 heven)
    exact absurd hb (hnone x y b hx hy)

/-- The digits in lower case are read back from the bytes. -/
theorem toAsciiLowercase_of_hexBytes {s : Text} {b : Bytes} (h : hexBytes s = some b) :
    Text.toAsciiLowercase s = hexEncode b := by
  induction s using hexBytes.induct generalizing b with
  | case1 =>
    obtain rfl := Option.some.inj h
    rfl
  | case2 c => cases h
  | case3 c d rest x y b' hb hy hx ih =>
    rw [hexBytes, hx, hy, hb] at h
    obtain rfl := Option.some.inj h
    obtain ⟨hx16, hc⟩ := toLower_of_hexDigitValue hx
    obtain ⟨hy16, hd⟩ := toLower_of_hexDigitValue hy
    have hbyte : (UInt8.ofNat (16 * x + y)).toNat = 16 * x + y := by
      rw [UInt8.toNat_ofNat', Nat.mod_eq_of_lt (by omega)]
    have hhigh : (16 * x + y) / 16 = x := by omega
    have hlow : (16 * x + y) % 16 = y := by omega
    have hrest := ih hb
    rw [Text.toAsciiLowercase] at hrest
    rw [Text.toAsciiLowercase, List.map_cons, List.map_cons, hc, hd, hrest, hexEncode, hexEncode,
      List.flatMap_cons, hbyte, hhigh, hlow]
    rfl
  | case4 c d rest hnone ih =>
    rw [hexBytes] at h
    split at h
    · next x y b' hx hy hb => exact absurd hb (hnone x y b' hx hy)
    · cases h

theorem hexDigitValue_digitChar : ∀ d < 16, hexDigitValue (Nat.digitChar d) = some d := by decide

theorem hexBytes_hexEncode (b : Bytes) : hexBytes (hexEncode b) = some b := by
  induction b with
  | nil => rfl
  | cons x b ih =>
    have hlt : x.toNat < 256 := x.toNat_lt
    have hbyte : 16 * (x.toNat / 16) + x.toNat % 16 = x.toNat := by omega
    rw [hexEncode, List.flatMap_cons, ← hexEncode, List.cons_append, List.cons_append,
      List.nil_append, hexBytes, hexDigitValue_digitChar _ (by omega),
      hexDigitValue_digitChar _ (by omega), ih]
    dsimp only
    rw [hbyte, UInt8.ofNat_toNat]

theorem hexBytes_toAsciiLowercase (s : Text) :
    hexBytes (Text.toAsciiLowercase s) = hexBytes s := by
  induction s using hexBytes.induct with
  | case1 => rfl
  | case2 c => rfl
  | case3 c d rest x y b hb hy hx ih =>
    rw [Text.toAsciiLowercase] at ih ⊢
    rw [List.map_cons, List.map_cons, hexBytes, hexBytes, hexDigitValue_toLower,
      hexDigitValue_toLower, ih]
  | case4 c d rest hnone ih =>
    rw [Text.toAsciiLowercase] at ih ⊢
    rw [List.map_cons, List.map_cons, hexBytes, hexBytes, hexDigitValue_toLower,
      hexDigitValue_toLower, ih]

/-- Texts of hex digits denote the same bytes exactly if they differ in letter case only. -/
theorem hexBytes_eq_iff {s t : Text} (hs : hexBytes s ≠ none) :
    hexBytes s = hexBytes t ↔ Text.toAsciiLowercase s = Text.toAsciiLowercase t := by
  constructor
  · intro h
    obtain ⟨b, hb⟩ := Option.ne_none_iff_exists'.mp hs
    rw [toAsciiLowercase_of_hexBytes hb, toAsciiLowercase_of_hexBytes (h.symm.trans hb)]
  · intro h
    rw [← hexBytes_toAsciiLowercase s, h, hexBytes_toAsciiLowercase]

end TrustedRelay
