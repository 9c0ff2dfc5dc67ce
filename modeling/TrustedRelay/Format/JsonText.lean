import TrustedRelay.Format.Json

/-!
# Writing JSON texts

The compact text of a value, without white space: strings with the short escapes where there are
some and `\u00XX` for the other controls, members in the order in which they stand. Reading the
text gives the value back (`parses_render`), for every string and every nesting; of a number only
its text has to be one.

The readers count a fuel argument down. `parseText` runs them with fuel for the length of the text,
and `parseText_eq_some_iff` says that more fuel reads nothing else.
-/

namespace TrustedRelay

namespace Json

/-! ### The writer -/

/-- The symbols that have an escape of one letter, and that letter. -/
def shortEscapes : List (Char × Char) :=
  [('"', '"'), ('\\', '\\'), ('\x08', 'b'), ('\x0C', 'f'), ('\n', 'n'), ('\r', 'r'), ('\t', 't')]

def escapeChar (c : Char) : Text :=
  match shortEscapes.lookup c with
  | some letter => ['\\', letter]
  | none =>
    if c.toNat < 0x20 then
      ['\\', 'u', '0', '0', Nat.digitChar (c.toNat / 16), Nat.digitChar (c.toNat % 16)]
    else [c]

/-- A string in its quotes. -/
def quoted (s : Text) : Text := '"' :: (s.flatMap escapeChar ++ ['"'])

mutual

/-- The text of a value. -/
def render : Value → Text
  | .null => "null".toList
  | .bool true => "true".toList
  | .bool false => "false".toList
  | .number t => t
  | .string s => quoted s
  | .array vs => '[' :: (renderElements vs ++ [']'])
  | .object ms => '{' :: (renderMembers ms ++ ['}'])

def renderElements : List Value → Text
  | [] => []
  | [v] => render v
  | v :: w :: vs => render v ++ ',' :: renderElements (w :: vs)

def renderMembers : List (Text × Value) → Text
  | [] => []
  | [m] => renderMember m
  | m :: m' :: ms => renderMember m ++ ',' :: renderMembers (m' :: ms)

def renderMember : Text × Value → Text
  | (k, v) => quoted k ++ ':' :: render v

end

mutual

/-- The texts of the numbers in a value. -/
def numbers : Value → List Text
  | .number t => [t]
  | .array vs => numbersOfElements vs
  | .object ms => numbersOfMembers ms
  | _ => []

def numbersOfElements : List Value → List Text
  | [] => []
  | v :: vs => numbers v ++ numbersOfElements vs

def numbersOfMembers : List (Text × Value) → List Text
  | [] => []
  | m :: ms => numbersOfMember m ++ numbersOfMembers ms

def numbersOfMember : Text × Value → List Text
  | (_, v) => numbers v

end

mutual

/-- How deep arrays and objects are nested. -/
def depth : Value → ℕ
  | .array vs => depthOfElements vs + 1
  | .object ms => depthOfMembers ms + 1
  | _ => 0

def depthOfElements : List Value → ℕ
  | [] => 0
  | v :: vs => max (depth v) (depthOfElements vs)

def depthOfMembers : List (Text × Value) → ℕ
  | [] => 0
  | m :: ms => max (depthOfMember m) (depthOfMembers ms)

def depthOfMember : Text × Value → ℕ
  | (_, v) => depth v

end

/-! ### Strings -/

section String

variable {n : ℕ} {s rest : Text} {c : Char}

theorem escape_shortEscapes {letter : Char} (h : (c, letter) ∈ shortEscapes) (s : Text) :
    escape (letter :: s) = some (c, s) := by
  have hall : ∀ e ∈ shortEscapes, e.2 ≠ 'u' ∧ simpleEscapes.lookup e.2 = some e.1 := by decide
  obtain ⟨hu, hlookup⟩ := hall _ h
  rw [escape, if_neg hu, hlookup]
  rfl

/-- A control symbol is read back from its escape. -/
theorem escape_control (h : c.toNat < 0x20) (s : Text) :
    escape ('u' :: '0' :: '0' :: Nat.digitChar (c.toNat / 16) ::
      Nat.digitChar (c.toNat % 16) :: s) = some (c, s) := by
  have hzero : hexDigitValue '0' = some 0 := by decide
  have hcode : ((0 * 16 + 0) * 16 + c.toNat / 16) * 16 + c.toNat % 16 = c.toNat := by omega
  rw [escape, if_pos rfl, unicodeEscape, hex4, hzero, hexDigitValue_digitChar _ (by omega),
    hexDigitValue_digitChar _ (by omega)]
  dsimp only [Option.bind_some]
  rw [hcode, if_neg (by omega), if_neg (by omega), Char.ofNat_toNat]

/-- What stands for one symbol is read as that symbol. -/
theorem stringBody_escapeChar (n : ℕ) (c : Char) (s : Text) :
    stringBody (n + 1) (escapeChar c ++ s) =
      (stringBody n s).map fun p => (c :: p.1, p.2) := by
  unfold escapeChar
  cases hlookup : shortEscapes.lookup c with
  | some letter =>
    have hmem : (c, letter) ∈ shortEscapes := by
      obtain ⟨l₁, l₂, heq, -⟩ := List.lookup_eq_some_iff.mp hlookup
      exact heq ▸ List.mem_append_right l₁ List.mem_cons_self
    change stringBody (n + 1) ('\\' :: letter :: s) = _
    rw [stringBody, if_neg (by decide), if_pos rfl, escape_shortEscapes hmem, Option.bind_some]
  | none =>
    have hne : c ≠ '"' ∧ c ≠ '\\' := by
      constructor <;> rintro rfl <;> exact absurd hlookup (by decide)
    dsimp only
    split_ifs with hcontrol
    · change stringBody (n + 1) ('\\' :: 'u' :: '0' :: '0' :: Nat.digitChar (c.toNat / 16) ::
        Nat.digitChar (c.toNat % 16) :: s) = _
      rw [stringBody, if_neg (by decide), if_pos rfl, escape_control hcontrol, Option.bind_some]
    · rw [List.singleton_append, stringBody, if_neg hne.1, if_neg hne.2, if_neg hcontrol]

theorem length_escapeChar_pos (c : Char) : 0 < (escapeChar c).length := by
  unfold escapeChar
  split
  · exact Nat.succ_pos _
  · split_ifs <;> exact Nat.succ_pos _

/-- Every string is read back from what is written for it. -/
theorem stringBody_quoted (h : s.length < n) :
    stringBody n (s.flatMap escapeChar ++ '"' :: rest) = some (s, rest) := by
  induction s generalizing n with
  | nil =>
    obtain ⟨n, rfl⟩ := Nat.exists_eq_succ_of_ne_zero (Nat.ne_of_gt h)
    rfl
  | cons c s ih =>
    obtain ⟨n, rfl⟩ := Nat.exists_eq_succ_of_ne_zero (Nat.ne_of_gt (Nat.zero_lt_of_lt h))
    rw [List.flatMap_cons, List.append_assoc, stringBody_escapeChar,
      ih (by rw [List.length_cons] at h; omega)]
    rfl

theorem length_le_flatMap_escapeChar (s : Text) : s.length ≤ (s.flatMap escapeChar).length := by
  induction s with
  | nil => exact le_rfl
  | cons c s ih =>
    have hpos := length_escapeChar_pos c
    rw [List.flatMap_cons, List.length_append, List.length_cons]
    omega

theorem string_quoted (s rest : Text) :
    string (s.flatMap escapeChar ++ '"' :: rest) = some (s, rest) := by
  refine stringBody_quoted ?_
  have hlen := length_le_flatMap_escapeChar s
  rw [List.length_append, List.length_cons]
  omega

theorem quoted_append (s rest : Text) :
    quoted s ++ rest = '"' :: (s.flatMap escapeChar ++ '"' :: rest) := by
  simp [quoted]

theorem key_quoted (k rest : Text) : key (quoted k ++ ':' :: rest) = some (k, rest) := by
  have hskip : skipSpace (':' :: rest) = ':' :: rest := skipSpace_cons (by decide) rest
  rw [quoted_append, key, expect_eq_some_iff.mpr rfl, Option.bind_some, string_quoted,
    Option.bind_some, hskip, expect_eq_some_iff.mpr rfl]
  rfl

end String

/-! ### Numbers -/

/-- The text of a number, as the reader keeps it. -/
def isNumber (t : Text) : Bool :=
  match number t with
  | some (.number u, []) => u == t
  | _ => false

/-- What may follow a number. -/
def EndsNumber (rest : Text) : Prop :=
  ∀ c ∈ rest.head?, c.isDigit = false ∧ c ∉ ['.', 'e', 'E']

section Number

variable {s t a b rest : Text} {c : Char} {n : ℕ}

theorem isNumber_iff : isNumber t = true ↔ number t = some (.number t, []) := by
  unfold isNumber
  split
  · next u h => simp [h]
  · next h =>
    refine iff_of_false Bool.false_ne_true fun heq => h t heq

theorem endsNumber_cons (h : c.isDigit = false ∧ c ∉ ['.', 'e', 'E']) (s : Text) :
    EndsNumber (c :: s) := by
  intro d hd
  obtain rfl := Option.some.inj hd
  exact h

theorem EndsNumber.takeWhile (h : EndsNumber rest) : rest.takeWhile Char.isDigit = [] := by
  cases rest with
  | nil => rfl
  | cons c rest => exact List.takeWhile_cons_of_neg (by simp [(h c rfl).1])

theorem EndsNumber.dropWhile (h : EndsNumber rest) : rest.dropWhile Char.isDigit = rest := by
  cases rest with
  | nil => rfl
  | cons c rest => exact List.dropWhile_cons_of_neg (by simp [(h c rfl).1])

theorem digits_append (hrest : EndsNumber rest) (h : digits s = some (a, b)) :
    digits (s ++ rest) = some (a, b ++ rest) := by
  unfold digits at h ⊢
  split_ifs at h with hnone
  obtain ⟨rfl, rfl⟩ := Prod.mk.inj (Option.some.inj h)
  have htake : (s ++ rest).takeWhile Char.isDigit = s.takeWhile Char.isDigit := by
    rw [List.takeWhile_append, hrest.takeWhile, List.append_nil]
    split_ifs with hlen
    · exact ((List.takeWhile_prefix _).eq_of_length hlen).symm
    · rfl
  have hdrop : (s ++ rest).dropWhile Char.isDigit = s.dropWhile Char.isDigit ++ rest := by
    rw [List.dropWhile_append, hrest.dropWhile]
    split_ifs with hnil
    · rw [List.isEmpty_iff.mp hnil, List.nil_append]
    · rfl
  rw [htake, hdrop, if_neg hnone]

theorem integer_append (hrest : EndsNumber rest) (h : integer s = some (a, b)) :
    integer (s ++ rest) = some (a, b ++ rest) := by
  obtain ⟨⟨a', b'⟩, hdigits, h⟩ := Option.bind_eq_some_iff.mp h
  rw [integer, digits_append hrest hdigits, Option.bind_some]
  split_ifs at h ⊢
  obtain ⟨rfl, rfl⟩ := Prod.mk.inj (Option.some.inj h)
  rfl

theorem fraction_append (hrest : EndsNumber rest) (h : fraction s = some (a, b)) :
    fraction (s ++ rest) = some (a, b ++ rest) := by
  cases s with
  | nil =>
    obtain ⟨rfl, rfl⟩ := Prod.mk.inj (Option.some.inj h)
    rw [List.nil_append, fraction,
      if_neg fun hdot : rest.head? = some '.' => absurd (hrest '.' hdot).2 (by decide)]
  | cons c s =>
    unfold fraction at h ⊢
    rw [List.cons_append, List.head?_cons, List.tail_cons] at *
    split_ifs at h ⊢ with hdot
    · obtain ⟨⟨a', b'⟩, hdigits, heq⟩ := Option.map_eq_some_iff.mp h
      obtain ⟨rfl, rfl⟩ := Prod.mk.inj heq
      rw [digits_append hrest hdigits]
      rfl
    · obtain ⟨rfl, rfl⟩ := Prod.mk.inj (Option.some.inj h)
      rfl

theorem sign_append (allowed : List Char) (hs : s ≠ []) (rest : Text) :
    sign allowed (s ++ rest) = ((sign allowed s).1, (sign allowed s).2 ++ rest) := by
  cases s with
  | nil => exact absurd rfl hs
  | cons c s =>
    rw [List.cons_append, sign, sign]
    split_ifs <;> rfl

theorem exponent_append (hrest : EndsNumber rest) (h : exponent s = some (a, b)) :
    exponent (s ++ rest) = some (a, b ++ rest) := by
  cases s with
  | nil =>
    obtain ⟨rfl, rfl⟩ := Prod.mk.inj (Option.some.inj h)
    have hnone : rest.head?.any (· ∈ ['e', 'E']) = false := by
      rw [Bool.eq_false_iff, Ne, Option.any_eq_true]
      rintro ⟨c, hc, he⟩
      have hnot := (hrest c hc).2
      simp only [decide_eq_true_eq, List.mem_cons] at he hnot
      exact hnot (Or.inr he)
    rw [List.nil_append, exponent, hnone]
    rfl
  | cons c s =>
    unfold exponent at h ⊢
    rw [List.cons_append, List.head?_cons, List.tail_cons] at *
    split_ifs at h ⊢ with he
    · obtain ⟨⟨a', b'⟩, hdigits, heq⟩ := Option.map_eq_some_iff.mp h
      obtain ⟨rfl, rfl⟩ := Prod.mk.inj heq
      have hs : s ≠ [] := by
        rintro rfl
        cases hdigits
      rw [sign_append _ hs, digits_append hrest hdigits]
      rfl
    · obtain ⟨rfl, rfl⟩ := Prod.mk.inj (Option.some.inj h)
      rfl

/-- A number is read back where nothing of a number follows. -/
theorem number_append (ht : isNumber t = true) (hrest : EndsNumber rest) :
    number (t ++ rest) = some (.number t, rest) := by
  obtain ⟨⟨i, ri⟩, hi, h⟩ := Option.bind_eq_some_iff.mp (isNumber_iff.mp ht)
  obtain ⟨⟨f, rf⟩, hf, h⟩ := Option.bind_eq_some_iff.mp h
  obtain ⟨⟨e, re⟩, he, heq⟩ := Option.map_eq_some_iff.mp h
  obtain ⟨htext, rfl⟩ := Prod.mk.inj heq
  have hne : t ≠ [] := by
    rintro rfl
    cases hi
  rw [number, sign_append _ hne, integer_append hrest hi, Option.bind_some,
    fraction_append hrest hf, Option.bind_some, exponent_append hrest he]
  exact congrArg (fun v => some (v, rest)) htext

/-- A number starts with its sign or a digit. -/
theorem head_of_isNumber (ht : isNumber t = true) :
    ∃ c s, t = c :: s ∧ (c = '-' ∨ c.isDigit = true) := by
  obtain ⟨⟨i, ri⟩, hi, -⟩ := Option.bind_eq_some_iff.mp (isNumber_iff.mp ht)
  obtain ⟨⟨a, b⟩, hdigits, -⟩ := Option.bind_eq_some_iff.mp hi
  cases t with
  | nil => cases hdigits
  | cons c s =>
    refine ⟨c, s, rfl, ?_⟩
    by_cases hc : c = '-'
    · exact Or.inl hc
    · rw [sign, if_neg (by simpa using hc), digits] at hdigits
      split_ifs at hdigits with hnil
      by_contra hno
      exact hnil (List.takeWhile_cons_of_neg fun h => hno (Or.inr h))

theorem isDigit_toNat (h : c.isDigit = true) : 48 ≤ c.toNat ∧ c.toNat ≤ 57 := by
  simpa [Char.isDigit, UInt32.le_iff_toNat_le] using h

/-- The first symbol of a number starts no other value. -/
theorem number_start (h : c = '-' ∨ c.isDigit = true) :
    c ≠ '"' ∧ c ≠ '{' ∧ c ≠ '[' ∧ c ≠ ']' ∧ isSpace c = false ∧ ∀ s, literal (c :: s) = none := by
  have hcode : c.toNat = 45 ∨ 48 ≤ c.toNat ∧ c.toNat ≤ 57 := by
    rcases h with rfl | h
    · exact Or.inl rfl
    · exact Or.inr (isDigit_toNat h)
  have hne : ∀ d : Char, (d.toNat < 45 ∨ 57 < d.toNat) → c ≠ d := by
    rintro d hd rfl
    omega
  refine ⟨hne _ (by decide), hne _ (by decide), hne _ (by decide), hne _ (by decide), ?_, ?_⟩
  · simp [isSpace, hne ' ' (by decide), hne '\t' (by decide), hne '\n' (by decide),
      hne '\r' (by decide)]
  · intro s
    have hn := hne 'n' (by decide)
    have ht := hne 't' (by decide)
    have hf := hne 'f' (by decide)
    simp [literal, hn.symm, ht.symm, hf.symm]

theorem value_number (ht : isNumber t = true) (hrest : EndsNumber rest) :
    value (n + 1) (t ++ rest) = some (.number t, rest) := by
  have hnumber := number_append ht hrest
  obtain ⟨c, s, rfl, hc⟩ := head_of_isNumber ht
  obtain ⟨hquote, hbrace, hbracket, -, -, hliteral⟩ := number_start hc
  rw [List.cons_append] at hnumber ⊢
  rw [value, if_neg hquote, if_neg hbrace, if_neg hbracket, hliteral, Option.none_or, hnumber]

/-- A decimal numeral has no leading zero. -/
theorem head?_decimal {m : ℕ} (h : (Text.decimal m).head? = some '0') : m = 0 := by
  induction m using Nat.strong_induction_on with
  | _ m ih =>
    by_cases hm : m < 10
    · rw [Text.decimal, Nat.toDigits_of_lt_base hm] at h
      interval_cases m <;> first | rfl | cases h
    · have hne : Nat.toDigits 10 (m / 10) ≠ [] := Nat.toDigits_ne_nil
      rw [Text.decimal, Nat.toDigits_of_base_le (by omega) (Nat.le_of_not_lt hm),
        List.head?_append_of_ne_nil _ hne] at h
      have hzero := ih (m / 10) (by omega) h
      omega

/-- A natural number in decimal. -/
theorem isNumber_decimal (m : ℕ) : isNumber (Text.decimal m) = true := by
  have hall : ∀ c ∈ Text.decimal m, c.isDigit = true := fun c => Text.isDigit_of_mem_decimal
  have hne : Text.decimal m ≠ [] := Nat.toDigits_ne_nil
  have hdigits : digits (Text.decimal m) = some (Text.decimal m, []) := by
    rw [digits, List.takeWhile_eq_self_iff.mpr hall, List.dropWhile_eq_nil_iff.mpr hall, if_neg hne]
  have hsign : sign ['-'] (Text.decimal m) = ([], Text.decimal m) := by
    cases hd : Text.decimal m with
    | nil => exact absurd hd hne
    | cons c s =>
      rw [sign, if_neg]
      intro hminus
      have hc := hall c (hd ▸ List.mem_cons_self)
      rw [List.mem_singleton.mp hminus] at hc
      cases hc
  have hinteger : integer (Text.decimal m) = some (Text.decimal m, []) := by
    rw [integer, hdigits, Option.bind_some, if_neg]
    rintro ⟨hhead, hzero⟩
    rw [head?_decimal hhead] at hzero
    exact hzero rfl
  rw [isNumber_iff, number, hsign, hinteger]
  exact congrArg (fun t => some (Value.number t, [])) (by simp)

end Number

/-! ### Values -/

section Value

variable {v : Value} {n : ℕ} {rest : Text}

/-- Numbers whose texts the reader keeps. -/
def HasNumbers (v : Value) : Prop := ∀ t ∈ numbers v, isNumber t = true

/-- The text of a value starts at once, and not with a closing bracket. -/
theorem render_eq_cons (hv : HasNumbers v) :
    ∃ c s, render v = c :: s ∧ isSpace c = false ∧ c ≠ ']' := by
  cases v with
  | null => exact ⟨'n', _, rfl, by decide, by decide⟩
  | bool b => cases b <;> exact ⟨_, _, rfl, by decide, by decide⟩
  | number t =>
    obtain ⟨c, s, rfl, hc⟩ := head_of_isNumber (hv t (by simp [numbers]))
    obtain ⟨-, -, -, hbracket, hspace, -⟩ := number_start hc
    exact ⟨c, s, by rw [render], hspace, hbracket⟩
  | string s => exact ⟨'"', _, by rw [render]; rfl, by decide, by decide⟩
  | array vs => exact ⟨'[', _, by rw [render], by decide, by decide⟩
  | object ms => exact ⟨'{', _, by rw [render], by decide, by decide⟩

theorem skipSpace_render (hv : HasNumbers v) (rest : Text) :
    skipSpace (render v ++ rest) = render v ++ rest := by
  obtain ⟨c, s, heq, hspace, -⟩ := render_eq_cons hv
  rw [heq, List.cons_append, skipSpace_cons hspace]

theorem length_render_pos (hv : HasNumbers v) : 0 < (render v).length := by
  obtain ⟨c, s, heq, -⟩ := render_eq_cons hv
  rw [heq]
  exact Nat.succ_pos _

theorem value_literal (b : Bool) (rest : Text) :
    value (n + 1) (render (.bool b) ++ rest) = some (.bool b, rest) ∧
      value (n + 1) (render .null ++ rest) = some (.null, rest) := by
  constructor
  · cases b <;> simp [render, value, literal]
  · simp [render, value, literal]

theorem renderElements_eq_cons (hv : HasNumbers v) (vs : List Value) :
    ∃ c s, renderElements (v :: vs) = c :: s ∧ isSpace c = false ∧ c ≠ ']' := by
  obtain ⟨c, s, heq, hc⟩ := render_eq_cons hv
  cases vs with
  | nil => exact ⟨c, s, by rw [renderElements, heq], hc⟩
  | cons w vs => exact ⟨c, _, by rw [renderElements, heq, List.cons_append], hc⟩

theorem renderMember_append (k : Text) (v : Value) (s : Text) :
    renderMember (k, v) ++ s = quoted k ++ ':' :: (render v ++ s) := by
  rw [renderMember, List.append_assoc, List.cons_append]

theorem renderMembers_eq_cons (m : Text × Value) (ms : List (Text × Value)) :
    ∃ s, renderMembers (m :: ms) = '"' :: s := by
  obtain ⟨k, v⟩ := m
  cases ms with
  | nil => exact ⟨_, by rw [renderMembers, renderMember]; rfl⟩
  | cons m ms => exact ⟨_, by rw [renderMembers, renderMember]; rfl⟩

theorem endsNumber_comma (s : Text) : EndsNumber (',' :: s) := endsNumber_cons (by decide) s

mutual

/-- A value is read back from its text. -/
theorem value_render : ∀ (v : Value), HasNumbers v → ∀ (n : ℕ) (rest : Text),
    2 * (render v).length ≤ n → EndsNumber rest → value n (render v ++ rest) = some (v, rest)
  | .null, _, n, rest, hn, _ => by
    obtain ⟨n, rfl⟩ := Nat.exists_eq_succ_of_ne_zero (n := n) (by rintro rfl; cases hn)
    exact (value_literal true rest).2
  | .bool b, hv, n, rest, hn, _ => by
    have hpos := length_render_pos hv
    obtain ⟨n, rfl⟩ := Nat.exists_eq_succ_of_ne_zero (n := n) (by omega)
    exact (value_literal b rest).1
  | .number t, hv, n, rest, hn, hrest => by
    have hpos := length_render_pos hv
    obtain ⟨n, rfl⟩ := Nat.exists_eq_succ_of_ne_zero (n := n) (by omega)
    rw [render]
    exact value_number (hv t (by simp [numbers])) hrest
  | .string s, hv, n, rest, hn, _ => by
    have hpos := length_render_pos hv
    obtain ⟨n, rfl⟩ := Nat.exists_eq_succ_of_ne_zero (n := n) (by omega)
    rw [render, quoted_append, value_string_iff]
    exact ⟨s, string_quoted s rest, rfl⟩
  | .array vs, hv, n, rest, hn, _ => by
    rw [render, List.length_cons, List.length_append, List.length_singleton] at hn
    obtain ⟨n, rfl⟩ := Nat.exists_eq_succ_of_ne_zero (n := n) (by omega)
    rw [render, List.cons_append, List.append_assoc, List.singleton_append, value,
      if_neg (by decide), if_neg (by decide), if_pos rfl]
    cases vs with
    | nil =>
      have hskip : skipSpace (']' :: rest) = ']' :: rest := skipSpace_cons (by decide) rest
      rw [renderElements, List.nil_append, hskip, if_pos List.head?_cons, List.tail_cons]
    | cons v vs =>
      have hv' : HasNumbers v := fun t ht => hv t (by simp [numbers, numbersOfElements, ht])
      obtain ⟨c, s, heq, hspace, hbracket⟩ := renderElements_eq_cons hv' vs
      have helements := elements_render (v :: vs) (fun t ht => hv t (by rwa [numbers]))
        (List.cons_ne_nil _ _) n rest (by omega)
      rw [heq, List.cons_append] at helements ⊢
      rw [skipSpace_cons hspace, List.head?_cons, if_neg (by simpa using hbracket), helements]
      rfl
  | .object ms, hv, n, rest, hn, _ => by
    rw [render, List.length_cons, List.length_append, List.length_singleton] at hn
    obtain ⟨n, rfl⟩ := Nat.exists_eq_succ_of_ne_zero (n := n) (by omega)
    rw [render, List.cons_append, List.append_assoc, List.singleton_append]
    cases ms with
    | nil =>
      have hskip : skipSpace ('}' :: rest) = '}' :: rest := skipSpace_cons (by decide) rest
      rw [renderMembers, List.nil_append, value, if_neg (by decide), if_pos rfl, hskip,
        if_pos List.head?_cons, List.tail_cons]
    | cons m ms =>
      obtain ⟨s, heq⟩ := renderMembers_eq_cons m ms
      have hmembers := members_render (m :: ms) (fun t ht => hv t (by rwa [numbers]))
        (List.cons_ne_nil _ _) n rest (by omega)
      rw [heq, List.cons_append] at hmembers ⊢
      exact value_object_iff.mpr ⟨_, hmembers, rfl⟩

theorem elements_render : ∀ (vs : List Value), (∀ t ∈ numbersOfElements vs, isNumber t = true) →
    vs ≠ [] → ∀ (n : ℕ) (rest : Text), 2 * (renderElements vs).length + 1 ≤ n →
      elements n (renderElements vs ++ ']' :: rest) = some (vs, rest)
  | [], _, hne, _, _, _ => absurd rfl hne
  | [v], hvs, _, n, rest, hn => by
    have hv : HasNumbers v := fun t ht => hvs t (by simp [numbersOfElements, ht])
    obtain ⟨n, rfl⟩ := Nat.exists_eq_succ_of_ne_zero (n := n) (by omega)
    rw [renderElements] at hn ⊢
    rw [elements, value_render v hv n (']' :: rest) (by omega) (endsNumber_cons (by decide) _)]
    have hskip : skipSpace (']' :: rest) = ']' :: rest := skipSpace_cons (by decide) rest
    rw [Option.bind_some, hskip, if_neg (by simp), expect_eq_some_iff.mpr rfl]
    rfl
  | v :: w :: vs, hvs, _, n, rest, hn => by
    have hv : HasNumbers v := fun t ht => hvs t (by simp [numbersOfElements, ht])
    have hvs' : ∀ t ∈ numbersOfElements (w :: vs), isNumber t = true := fun t ht =>
      hvs t (by rw [numbersOfElements]; exact List.mem_append_right _ ht)
    have hw : HasNumbers w := fun t ht => hvs' t (by simp [numbersOfElements, ht])
    obtain ⟨n, rfl⟩ := Nat.exists_eq_succ_of_ne_zero (n := n) (by omega)
    rw [renderElements, List.length_append, List.length_cons] at hn
    have hmore := elements_render (w :: vs) hvs' (List.cons_ne_nil _ _) n rest (by omega)
    have hskip : skipSpace (renderElements (w :: vs) ++ ']' :: rest) =
        renderElements (w :: vs) ++ ']' :: rest := by
      obtain ⟨c, s, heq, hspace, -⟩ := renderElements_eq_cons hw vs
      rw [heq, List.cons_append, skipSpace_cons hspace]
    have hcomma : ∀ s, skipSpace (',' :: s) = ',' :: s := skipSpace_cons (by decide)
    rw [renderElements, List.append_assoc, List.cons_append, elements,
      value_render v hv n _ (by omega) (endsNumber_comma _), Option.bind_some, hcomma,
      if_pos List.head?_cons, List.tail_cons, hskip, hmore]
    rfl

theorem members_render : ∀ (ms : List (Text × Value)),
    (∀ t ∈ numbersOfMembers ms, isNumber t = true) → ms ≠ [] → ∀ (n : ℕ) (rest : Text),
      2 * (renderMembers ms).length + 1 ≤ n →
        members n (renderMembers ms ++ '}' :: rest) = some (ms, rest)
  | [], _, hne, _, _, _ => absurd rfl hne
  | [(k, v)], hms, _, n, rest, hn => by
    have hv : HasNumbers v := fun t ht => hms t (by simp [numbersOfMembers, numbersOfMember, ht])
    obtain ⟨n, rfl⟩ := Nat.exists_eq_succ_of_ne_zero (n := n) (by omega)
    rw [renderMembers, renderMember, List.length_append, List.length_cons] at hn
    have hskip : skipSpace ('}' :: rest) = '}' :: rest := skipSpace_cons (by decide) rest
    rw [renderMembers, renderMember_append, members, key_quoted, Option.bind_some,
      skipSpace_render hv, value_render v hv n _ (by omega) (endsNumber_cons (by decide) _),
      Option.bind_some, hskip, if_neg (by simp), expect_eq_some_iff.mpr rfl]
    rfl
  | (k, v) :: m :: ms, hms, _, n, rest, hn => by
    have hv : HasNumbers v := fun t ht => hms t (by simp [numbersOfMembers, numbersOfMember, ht])
    have hms' : ∀ t ∈ numbersOfMembers (m :: ms), isNumber t = true := fun t ht =>
      hms t (by rw [numbersOfMembers]; exact List.mem_append_right _ ht)
    obtain ⟨n, rfl⟩ := Nat.exists_eq_succ_of_ne_zero (n := n) (by omega)
    rw [renderMembers, renderMember, List.length_append, List.length_append, List.length_cons,
      List.length_cons] at hn
    have hmore := members_render (m :: ms) hms' (List.cons_ne_nil _ _) n rest (by omega)
    have hcomma : ∀ s, skipSpace (',' :: s) = ',' :: s := skipSpace_cons (by decide)
    obtain ⟨s, heq⟩ := renderMembers_eq_cons m ms
    have hskip : skipSpace ('"' :: (s ++ '}' :: rest)) = '"' :: (s ++ '}' :: rest) :=
      skipSpace_cons (by decide) _
    rw [heq, List.cons_append] at hmore
    rw [renderMembers, heq, List.append_assoc, renderMember_append, List.cons_append,
      List.cons_append, members, key_quoted, Option.bind_some, skipSpace_render hv,
      value_render v hv n _ (by omega) (endsNumber_comma _), Option.bind_some, hcomma,
      if_pos List.head?_cons, List.tail_cons, hskip, hmore]
    rfl

end

end Value

/-! ### Enough fuel -/

section Fuel

variable {n : ℕ} {s t u : Text} {c : Char} {v : Value}

theorem length_skipSpace_le (s : Text) : (skipSpace s).length ≤ s.length :=
  List.length_dropWhile_le _ _

theorem length_stringBody (h : stringBody n s = some (t, u)) : u.length < s.length := by
  induction n generalizing s t with
  | zero => cases h
  | succ n ih =>
    cases s with
    | nil => cases h
    | cons c s =>
      rw [stringBody] at h
      split_ifs at h
      · obtain ⟨-, rfl⟩ := Prod.mk.inj (Option.some.inj h)
        exact Nat.lt_succ_self _
      · obtain ⟨e, hescape, h⟩ := Option.bind_eq_some_iff.mp h
        obtain ⟨p, hbody, heq⟩ := Option.map_eq_some_iff.mp h
        obtain ⟨-, rfl⟩ := Prod.mk.inj heq
        obtain ⟨front, hfront, -, -⟩ := escape_eq_some hescape
        have hlt := ih hbody
        rw [hfront, List.length_cons, List.length_append]
        omega
      · obtain ⟨p, hbody, heq⟩ := Option.map_eq_some_iff.mp h
        obtain ⟨-, rfl⟩ := Prod.mk.inj heq
        exact Nat.lt_succ_of_lt (ih hbody)

theorem length_expect (h : expect c s = some u) : u.length < s.length := by
  rw [expect_eq_some_iff.mp h]
  exact Nat.lt_succ_self _

theorem length_key (h : key s = some (t, u)) : u.length < s.length := by
  obtain ⟨s₁, h₁, h⟩ := Option.bind_eq_some_iff.mp h
  obtain ⟨⟨k, s₂⟩, h₂, h⟩ := Option.bind_eq_some_iff.mp h
  obtain ⟨s₃, h₃, heq⟩ := Option.map_eq_some_iff.mp h
  obtain ⟨-, rfl⟩ := Prod.mk.inj heq
  have hskip := length_skipSpace_le s₂
  have hquote := length_expect h₁
  have hname := length_stringBody h₂
  have hcolon := length_expect h₃
  dsimp only at hcolon
  omega

theorem length_digits (h : digits s = some (t, u)) : u.length < s.length := by
  unfold digits at h
  split_ifs at h with hnil
  obtain ⟨rfl, rfl⟩ := Prod.mk.inj (Option.some.inj h)
  have hpos := List.length_pos_of_ne_nil hnil
  have hlen := congrArg List.length (List.takeWhile_append_dropWhile (p := Char.isDigit) (l := s))
  rw [List.length_append] at hlen
  omega

theorem length_sign_le (allowed : List Char) (s : Text) : (sign allowed s).2.length ≤ s.length := by
  cases s with
  | nil => exact le_rfl
  | cons c s =>
    rw [sign]
    split_ifs
    · exact Nat.le_succ _
    · exact le_rfl

theorem length_integer (h : integer s = some (t, u)) : u.length < s.length := by
  obtain ⟨⟨t', u'⟩, hdigits, h⟩ := Option.bind_eq_some_iff.mp h
  split_ifs at h
  obtain ⟨-, rfl⟩ := Prod.mk.inj (Option.some.inj h)
  exact length_digits hdigits

theorem length_fraction_le (h : fraction s = some (t, u)) : u.length ≤ s.length := by
  unfold fraction at h
  split_ifs at h
  · obtain ⟨p, hdigits, heq⟩ := Option.map_eq_some_iff.mp h
    obtain ⟨-, rfl⟩ := Prod.mk.inj heq
    have hlt : p.2.length < _ := length_digits hdigits
    rw [List.length_tail] at hlt
    omega
  · exact (Prod.mk.inj (Option.some.inj h)).2 ▸ le_rfl

theorem length_exponent_le (h : exponent s = some (t, u)) : u.length ≤ s.length := by
  unfold exponent at h
  split_ifs at h
  · obtain ⟨p, hdigits, heq⟩ := Option.map_eq_some_iff.mp h
    obtain ⟨-, rfl⟩ := Prod.mk.inj heq
    have hlt : p.2.length < _ := length_digits hdigits
    have hle := length_sign_le ['+', '-'] s.tail
    rw [List.length_tail] at hle
    omega
  · exact (Prod.mk.inj (Option.some.inj h)).2 ▸ le_rfl

theorem length_number (h : number s = some (v, u)) : u.length < s.length := by
  obtain ⟨⟨i, afterInteger⟩, hi, h⟩ := Option.bind_eq_some_iff.mp h
  obtain ⟨⟨f, afterFraction⟩, hf, h⟩ := Option.bind_eq_some_iff.mp h
  obtain ⟨⟨e, afterExponent⟩, he, heq⟩ := Option.map_eq_some_iff.mp h
  obtain ⟨-, rfl⟩ := Prod.mk.inj heq
  calc
    afterExponent.length ≤ afterFraction.length := length_exponent_le he
    _ ≤ afterInteger.length := length_fraction_le hf
    _ < (sign ['-'] s).2.length := length_integer hi
    _ ≤ s.length := length_sign_le _ s

theorem length_literal (h : literal s = some (v, u)) : u.length < s.length := by
  have hdrop : ∀ {word : Text} {w : Value} {k : ℕ}, word <+: s → 0 < k → k ≤ word.length →
      some (w, s.drop k) = some (v, u) → u.length < s.length := by
    intro word w k hword hpos hk heq
    obtain ⟨-, rfl⟩ := Prod.mk.inj (Option.some.inj heq)
    have hlen := hword.length_le
    rw [List.length_drop]
    omega
  unfold literal at h
  split_ifs at h with hnull htrue hfalse
  · exact hdrop hnull (by decide) (by decide) h
  · exact hdrop htrue (by decide) (by decide) h
  · exact hdrop hfalse (by decide) (by decide) h

/-- Every reader of values takes something. -/
theorem length_values (n : ℕ) :
    (∀ s v u, value n s = some (v, u) → u.length < s.length) ∧
    (∀ s vs u, elements n s = some (vs, u) → u.length < s.length) ∧
    (∀ s ms u, members n s = some (ms, u) → u.length < s.length) := by
  induction n with
  | zero => refine ⟨?_, ?_, ?_⟩ <;> (intro _ _ _ h; cases h)
  | succ n ih =>
    obtain ⟨ihvalue, ihelements, ihmembers⟩ := ih
    have htail : ∀ s : Text, s.tail.length ≤ s.length := fun s => by rw [List.length_tail]; omega
    refine ⟨fun s v u h => ?_, fun s vs u h => ?_, fun s ms u h => ?_⟩
    · cases s with
      | nil => cases h
      | cons c s =>
        have hskip := length_skipSpace_le s
        have hskipTail := htail (skipSpace s)
        rw [List.length_cons]
        rw [value] at h
        split_ifs at h
        · obtain ⟨p, hstring, heq⟩ := Option.map_eq_some_iff.mp h
          obtain ⟨-, rfl⟩ := Prod.mk.inj heq
          exact Nat.lt_succ_of_lt (length_stringBody hstring)
        · obtain ⟨-, rfl⟩ := Prod.mk.inj (Option.some.inj h)
          omega
        · obtain ⟨p, hmembers, heq⟩ := Option.map_eq_some_iff.mp h
          obtain ⟨-, rfl⟩ := Prod.mk.inj heq
          have hlt := ihmembers _ _ p.2 hmembers
          omega
        · obtain ⟨-, rfl⟩ := Prod.mk.inj (Option.some.inj h)
          omega
        · obtain ⟨p, helements, heq⟩ := Option.map_eq_some_iff.mp h
          obtain ⟨-, rfl⟩ := Prod.mk.inj heq
          have hlt := ihelements _ _ p.2 helements
          omega
        · rcases Option.or_eq_some_iff.mp h with h | ⟨-, h⟩
          · exact length_literal h
          · exact length_number h
    · rw [elements] at h
      obtain ⟨⟨v, r⟩, hvalue, h⟩ := Option.bind_eq_some_iff.mp h
      have hv := ihvalue _ _ _ hvalue
      have hskip := length_skipSpace_le r
      dsimp only at h
      split_ifs at h
      · obtain ⟨p, helements, heq⟩ := Option.map_eq_some_iff.mp h
        obtain ⟨-, rfl⟩ := Prod.mk.inj heq
        have hlt := ihelements _ _ p.2 helements
        have hskip' := length_skipSpace_le (skipSpace r).tail
        have htail' := htail (skipSpace r)
        omega
      · obtain ⟨u', hexpect, heq⟩ := Option.map_eq_some_iff.mp h
        obtain ⟨-, rfl⟩ := Prod.mk.inj heq
        have hlt := length_expect hexpect
        omega
    · rw [members] at h
      obtain ⟨⟨k, r⟩, hkey, h⟩ := Option.bind_eq_some_iff.mp h
      obtain ⟨⟨v, r'⟩, hvalue, h⟩ := Option.bind_eq_some_iff.mp h
      have hk := length_key hkey
      have hv := ihvalue _ _ _ hvalue
      have hskip := length_skipSpace_le r
      have hskip' := length_skipSpace_le r'
      dsimp only at h hv
      split_ifs at h
      · obtain ⟨p, hmembers, heq⟩ := Option.map_eq_some_iff.mp h
        obtain ⟨-, rfl⟩ := Prod.mk.inj heq
        have hlt := ihmembers _ _ p.2 hmembers
        have hskip'' := length_skipSpace_le (skipSpace r').tail
        have htail' := htail (skipSpace r')
        omega
      · obtain ⟨u', hexpect, heq⟩ := Option.map_eq_some_iff.mp h
        obtain ⟨-, rfl⟩ := Prod.mk.inj heq
        have hlt := length_expect hexpect
        omega

/-- One more unit of fuel than the text needs changes nothing. -/
theorem values_succ (n : ℕ) :
    (∀ s, 2 * s.length + 1 ≤ n → value (n + 1) s = value n s) ∧
    (∀ s, 2 * s.length + 2 ≤ n → elements (n + 1) s = elements n s) ∧
    (∀ s, 2 * s.length + 2 ≤ n → members (n + 1) s = members n s) := by
  induction n with
  | zero => exact ⟨fun _ h => by omega, fun _ h => by omega, fun _ h => by omega⟩
  | succ n ih =>
    obtain ⟨ihvalue, ihelements, ihmembers⟩ := ih
    obtain ⟨hshorter, -, -⟩ := length_values n
    have hafter : ∀ r : Text, (skipSpace (skipSpace r).tail).length ≤ r.length := by
      intro r
      have hskip := length_skipSpace_le (skipSpace r).tail
      have hskip' := length_skipSpace_le r
      rw [List.length_tail] at hskip
      omega
    refine ⟨fun s hs => ?_, fun s hs => ?_, fun s hs => ?_⟩
    · cases s with
      | nil => rfl
      | cons c s =>
        have hskip := length_skipSpace_le s
        rw [List.length_cons] at hs
        rw [value, value, ihmembers (skipSpace s) (by omega), ihelements (skipSpace s) (by omega)]
    · rw [elements, elements, ihvalue s (by omega)]
      cases hvalue : value n s with
      | none => rfl
      | some p =>
        have hlt := hshorter _ _ _ hvalue
        have hle := hafter p.2
        rw [Option.bind_some, Option.bind_some, ihelements _ (by omega)]
    · rw [members, members]
      cases hkey : key s with
      | none => rfl
      | some k =>
        have hk := length_key hkey
        have hskip := length_skipSpace_le k.2
        rw [Option.bind_some, Option.bind_some, ihvalue _ (by omega)]
        cases hvalue : value n (skipSpace k.2) with
        | none => rfl
        | some p =>
          have hlt := hshorter _ _ _ hvalue
          have hle := hafter p.2
          rw [Option.bind_some, Option.bind_some, ihmembers _ (by omega)]

theorem parse_of_le {m : ℕ} (hm : 2 * s.length + 1 ≤ m) (hn : 2 * s.length + 1 ≤ n) :
    parse m s = parse n s := by
  have hskip := length_skipSpace_le s
  have hadd : ∀ k, value (2 * s.length + 1 + k) (skipSpace s) =
      value (2 * s.length + 1) (skipSpace s) := by
    intro k
    induction k with
    | zero => rfl
    | succ k ih => exact ((values_succ (2 * s.length + 1 + k)).1 _ (by omega)).trans ih
  obtain ⟨k, rfl⟩ := Nat.exists_eq_add_of_le hm
  obtain ⟨l, rfl⟩ := Nat.exists_eq_add_of_le hn
  rw [parse, parse, hadd k, hadd l]

end Fuel

/-! ### Texts of values -/

section Texts

variable {s : Text} {v w : Value}

/-- The value that a text is, with fuel for all of it. -/
def parseText (s : Text) : Option Value := parse (2 * s.length + 1) s

/-- The fuel does not show. -/
theorem parseText_eq_some_iff : parseText s = some v ↔ Parses s v := by
  constructor
  · intro h
    exact ⟨2 * s.length + 1, fun n hn => (parse_of_le hn le_rfl).trans h⟩
  · rintro ⟨fuel, h⟩
    rw [← h _ (Nat.le_max_left fuel (2 * s.length + 1))]
    exact parse_of_le le_rfl (Nat.le_max_right _ _)

/-- Every value is read back from its text. -/
theorem parseText_render (hv : HasNumbers v) : parseText (render v) = some v := by
  have hvalue := value_render v hv (2 * (render v).length + 1) [] (Nat.le_succ _)
    (fun c hc => by cases hc)
  have hskip := skipSpace_render hv []
  rw [List.append_nil] at hvalue hskip
  rw [parseText, parse, hskip, hvalue]
  rfl

theorem parses_render (hv : HasNumbers v) : Parses (render v) v :=
  parseText_eq_some_iff.mp (parseText_render hv)

end Texts

end Json

end TrustedRelay
