import TrustedRelay.Rust.Ascii

/-!
# JSON texts

A reader for JSON values after RFC 8259, on lists of characters. Every reader returns what it has
read and what follows. Nesting is limited by a fuel argument, and a text is a JSON text for a value
(`Parses`) if the reader returns the value for all large fuel, so there is at most one.

A string is read symbol by symbol. `stringBody_of_plain` reads a string without escapes back, and
`stringBody_cases` says what a successful reading tells about a text that holds no quote: either it
was the whole string, and then equal to it only if it has no escapes, or its last symbol has escaped
the quote behind it.
-/

namespace TrustedRelay

namespace Json

inductive Value
  | null
  | bool (b : Bool)
  | number (text : Text)
  | string (s : Text)
  | array (elements : List Value)
  | object (members : List (Text × Value))

/-- The member of an object with the given name. -/
def Value.field (name : Text) : Value → Option Value
  | .object members => members.lookup name
  | _ => none

def Value.asString : Value → Option Text
  | .string s => some s
  | _ => none

/-! ### The readers -/

def isSpace (c : Char) : Bool := c == ' ' || c == '\t' || c == '\n' || c == '\r'

def skipSpace (s : Text) : Text := s.dropWhile isSpace

/-- The given symbol. -/
def expect (c : Char) (s : Text) : Option Text := if s.head? = some c then some s.tail else none

/-- The number that four hex digits denote. -/
def hex4 : Text → Option (ℕ × Text)
  | a :: b :: c :: d :: s =>
    match hexDigitValue a, hexDigitValue b, hexDigitValue c, hexDigitValue d with
    | some a, some b, some c, some d => some (((a * 16 + b) * 16 + c) * 16 + d, s)
    | _, _, _, _ => none
  | _ => none

/-- The escape of a code unit, behind its `u`. The first half of a surrogate pair must be followed
by the escape of the second. -/
def unicodeEscape (s : Text) : Option (Char × Text) :=
  (hex4 s).bind fun high =>
    if 0xD800 ≤ high.1 ∧ high.1 < 0xDC00 then
      (expect '\\' high.2).bind fun rest => (expect 'u' rest).bind fun rest =>
        (hex4 rest).bind fun low =>
          if 0xDC00 ≤ low.1 ∧ low.1 < 0xE000 then
            some (Char.ofNat (0x10000 + (high.1 - 0xD800) * 0x400 + (low.1 - 0xDC00)), low.2)
          else none
    else if 0xDC00 ≤ high.1 ∧ high.1 < 0xE000 then none
    else some (Char.ofNat high.1, high.2)

/-- The escapes of one letter, and what they stand for. -/
def simpleEscapes : List (Char × Char) :=
  [('"', '"'), ('\\', '\\'), ('/', '/'), ('b', '\x08'), ('f', '\x0C'), ('n', '\n'), ('r', '\r'),
    ('t', '\t')]

/-- An escape, behind its backslash. -/
def escape : Text → Option (Char × Text)
  | [] => none
  | c :: s =>
    if c = 'u' then unicodeEscape s else (simpleEscapes.lookup c).map fun e => (e, s)

/-- A string, behind its opening quote. Controls must be escaped. -/
def stringBody : ℕ → Text → Option (Text × Text)
  | 0, _ => none
  | _ + 1, [] => none
  | n + 1, c :: s =>
    if c = '"' then some ([], s)
    else if c = '\\' then
      (escape s).bind fun e => (stringBody n e.2).map fun p => (e.1 :: p.1, p.2)
    else if c.toNat < 0x20 then none
    else (stringBody n s).map fun p => (c :: p.1, p.2)

def string (s : Text) : Option (Text × Text) := stringBody (s.length + 1) s

/-- At least one digit. -/
def digits (s : Text) : Option (Text × Text) :=
  if s.takeWhile Char.isDigit = [] then none
  else some (s.takeWhile Char.isDigit, s.dropWhile Char.isDigit)

/-- The integer part of a number has no leading zero. -/
def integer (s : Text) : Option (Text × Text) :=
  (digits s).bind fun p => if p.1.head? = some '0' ∧ p.1 ≠ ['0'] then none else some p

def fraction (s : Text) : Option (Text × Text) :=
  if s.head? = some '.' then (digits s.tail).map fun p => ('.' :: p.1, p.2) else some ([], s)

/-- An optional sign. -/
def sign (allowed : List Char) : Text → Text × Text
  | [] => ([], [])
  | c :: s => if c ∈ allowed then ([c], s) else ([], c :: s)

def exponent (s : Text) : Option (Text × Text) :=
  if s.head?.any (· ∈ ['e', 'E']) then
    (digits (sign ['+', '-'] s.tail).2).map fun p =>
      ('e' :: (sign ['+', '-'] s.tail).1 ++ p.1, p.2)
  else some ([], s)

def number (s : Text) : Option (Value × Text) :=
  (integer (sign ['-'] s).2).bind fun i => (fraction i.2).bind fun f => (exponent f.2).map fun e =>
    (.number ((sign ['-'] s).1 ++ i.1 ++ f.1 ++ e.1), e.2)

/-- One of the three words. -/
def literal (s : Text) : Option (Value × Text) :=
  if "null".toList <+: s then some (.null, s.drop 4)
  else if "true".toList <+: s then some (.bool true, s.drop 4)
  else if "false".toList <+: s then some (.bool false, s.drop 5)
  else none

/-- The name of a member, and the colon behind it. -/
def key (s : Text) : Option (Text × Text) :=
  (expect '"' s).bind fun s => (string s).bind fun p =>
    (expect ':' (skipSpace p.2)).map fun rest => (p.1, rest)

mutual

/-- A value that starts at once. -/
def value : ℕ → Text → Option (Value × Text)
  | 0, _ => none
  | _ + 1, [] => none
  | n + 1, c :: s =>
    if c = '"' then (string s).map fun p => (.string p.1, p.2)
    else if c = '{' then
      if (skipSpace s).head? = some '}' then some (.object [], (skipSpace s).tail)
      else (members n (skipSpace s)).map fun p => (.object p.1, p.2)
    else if c = '[' then
      if (skipSpace s).head? = some ']' then some (.array [], (skipSpace s).tail)
      else (elements n (skipSpace s)).map fun p => (.array p.1, p.2)
    else (literal (c :: s)).or (number (c :: s))

/-- The elements of an array that has some, and its closing bracket. -/
def elements : ℕ → Text → Option (List Value × Text)
  | 0, _ => none
  | n + 1, s => (value n s).bind fun v =>
    if (skipSpace v.2).head? = some ',' then
      (elements n (skipSpace (skipSpace v.2).tail)).map fun p => (v.1 :: p.1, p.2)
    else (expect ']' (skipSpace v.2)).map fun rest => ([v.1], rest)

/-- The members of an object that has some, and its closing brace. -/
def members : ℕ → Text → Option (List (Text × Value) × Text)
  | 0, _ => none
  | n + 1, s => (key s).bind fun k => (value n (skipSpace k.2)).bind fun v =>
    if (skipSpace v.2).head? = some ',' then
      (members n (skipSpace (skipSpace v.2).tail)).map fun p => ((k.1, v.1) :: p.1, p.2)
    else (expect '}' (skipSpace v.2)).map fun rest => ([(k.1, v.1)], rest)

end

/-- A text that is one value. -/
def parse (n : ℕ) (s : Text) : Option Value :=
  (value n (skipSpace s)).bind fun p => if skipSpace p.2 = [] then some p.1 else none

/-- The text is a JSON text for the value. -/
def Parses (s : Text) (v : Value) : Prop := ∃ fuel, ∀ n, fuel ≤ n → parse n s = some v

example : ((parse 9 " \x7b\"a\": [1e3, true], \"b\": \"\\ud83d\\ude00\"\x7d\n".toList).bind
    (Value.field ['b'])).bind Value.asString = some [Char.ofNat 0x1F600] := by
  decide +kernel

/-! ### Strings -/

section String

variable {n m : ℕ} {s t u rest : Text} {c : Char}

/-- A symbol that stands for itself in a string. -/
def IsPlain (c : Char) : Prop := c ≠ '\\' ∧ 0x20 ≤ c.toNat

instance (c : Char) : Decidable (IsPlain c) := inferInstanceAs (Decidable (_ ∧ _))

/-- A string without quotes and escapes is read back. -/
theorem stringBody_of_plain (h : ∀ c ∈ s, c ≠ '"' ∧ IsPlain c) (hn : s.length < n) :
    stringBody n (s ++ '"' :: rest) = some (s, rest) := by
  induction s generalizing n with
  | nil =>
    obtain ⟨n, rfl⟩ := Nat.exists_eq_succ_of_ne_zero (Nat.ne_of_gt hn)
    rfl
  | cons c s ih =>
    obtain ⟨n, rfl⟩ := Nat.exists_eq_succ_of_ne_zero (Nat.ne_of_gt (Nat.zero_lt_of_lt hn))
    rw [List.forall_mem_cons] at h
    obtain ⟨⟨hquote, hslash, hcontrol⟩, hs⟩ := h
    rw [List.cons_append, stringBody, if_neg hquote, if_neg hslash, if_neg (by omega),
      ih hs (by rw [List.length_cons] at hn; omega)]
    rfl

theorem string_of_plain (h : ∀ c ∈ s, c ≠ '"' ∧ IsPlain c) :
    string (s ++ '"' :: rest) = some (s, rest) :=
  stringBody_of_plain h (by rw [List.length_append]; omega)

theorem hex4_eq_some (h : hex4 s = some (m, u)) :
    ∃ front, s = front ++ u ∧ ∀ c ∈ front, hexDigitValue c ≠ none := by
  rw [hex4.eq_def] at h
  split at h
  · next a b c d rest =>
    split at h
    · next ha hb hc hd =>
      obtain ⟨-, rfl⟩ := Prod.mk.inj (Option.some.inj h)
      refine ⟨[a, b, c, d], rfl, ?_⟩
      simp only [List.forall_mem_cons, ha, hb, hc, hd]
      simp
    · cases h
  · cases h

theorem expect_eq_some_iff : expect c s = some u ↔ s = c :: u := by
  cases s with
  | nil => simp [expect]
  | cons d s => simp [expect, eq_comm]

/-- The escape of a code unit holds no quote. -/
theorem unicodeEscape_eq_some (h : unicodeEscape s = some (c, u)) :
    ∃ front, s = front ++ u ∧ '"' ∉ front := by
  have hfree : ∀ front : Text, (∀ c ∈ front, hexDigitValue c ≠ none) → '"' ∉ front :=
    fun front hfront hmem => hfront _ hmem (by decide)
  obtain ⟨⟨high, afterHigh⟩, hhigh, hrest⟩ := Option.bind_eq_some_iff.mp h
  obtain ⟨front, rfl, hfront⟩ := hex4_eq_some hhigh
  split_ifs at hrest with hpair hlow
  · obtain ⟨r, hr, hrest⟩ := Option.bind_eq_some_iff.mp hrest
    obtain ⟨r', hr', hrest⟩ := Option.bind_eq_some_iff.mp hrest
    obtain ⟨⟨low, afterLow⟩, hlow, hrest⟩ := Option.bind_eq_some_iff.mp hrest
    obtain ⟨front', hfront', hdigits⟩ := hex4_eq_some hlow
    have hafter : afterHigh = '\\' :: r := expect_eq_some_iff.mp hr
    rw [expect_eq_some_iff.mp hr', hfront'] at hafter
    split_ifs at hrest
    obtain ⟨-, rfl⟩ := Prod.mk.inj (Option.some.inj hrest)
    refine ⟨front ++ '\\' :: 'u' :: front', ?_, ?_⟩
    · rw [hafter, List.append_assoc, List.cons_append, List.cons_append]
    · simp [hfree front hfront, hfree front' hdigits]
  · obtain ⟨-, rfl⟩ := Prod.mk.inj (Option.some.inj hrest)
    exact ⟨front, rfl, hfree front hfront⟩

/-- An escape takes at least one symbol, and a quote only if that is what is escaped. -/
theorem escape_eq_some (h : escape s = some (c, u)) :
    ∃ front, s = front ++ u ∧ front ≠ [] ∧ ('"' ∉ front ∨ front = ['"']) := by
  cases s with
  | nil => cases h
  | cons d s =>
    rw [escape] at h
    split_ifs at h with hu
    · obtain ⟨front, rfl, hfront⟩ := unicodeEscape_eq_some h
      refine ⟨d :: front, rfl, List.cons_ne_nil _ _, .inl ?_⟩
      rw [hu, List.mem_cons, not_or]
      exact ⟨by decide, hfront⟩
    · obtain ⟨e, -, heq⟩ := Option.map_eq_some_iff.mp h
      obtain ⟨-, rfl⟩ := Prod.mk.inj heq
      refine ⟨[d], rfl, List.cons_ne_nil _ _, ?_⟩
      by_cases hd : d = '"'
      · exact .inr (by rw [hd])
      · exact .inl (by simpa using Ne.symm hd)

/-- What is read off the front without a quote ends before the first one. -/
theorem append_eq_append_quote {front : Text} (hfront : '"' ∉ front)
    (h : s ++ '"' :: rest = front ++ u) : ∃ t, s = front ++ t ∧ u = t ++ '"' :: rest := by
  rcases List.append_eq_append_iff.mp h with ⟨t, hs, ht⟩ | ⟨t, hs, ht⟩
  · cases t with
    | nil => exact ⟨[], by rw [hs]; simp, by simpa using ht.symm⟩
    | cons x t =>
      obtain ⟨rfl, -⟩ := List.cons.inj ht
      exact absurd (hs ▸ List.mem_append_right s List.mem_cons_self) hfront
  · exact ⟨t, hs, ht⟩

/-- A text without quotes, read as a string: it is as long as what is read only if it has no
escapes, unless its last symbol escapes the quote behind it and the string goes on. -/
theorem stringBody_cases (hs : '"' ∉ s) (h : stringBody n (s ++ '"' :: rest) = some (t, u)) :
    (u = rest ∧ t.length ≤ s.length ∧ (t.length = s.length → ∀ c ∈ s, IsPlain c)) ∨
      ∃ m v, stringBody m rest = some (v, u) := by
  induction n generalizing s t with
  | zero => cases h
  | succ n ih =>
    cases s with
    | nil =>
      obtain ⟨rfl, rfl⟩ := Prod.mk.inj (Option.some.inj h)
      exact .inl ⟨rfl, le_rfl, fun _ => by simp⟩
    | cons c s =>
      rw [List.mem_cons, not_or] at hs
      rw [List.cons_append, stringBody, if_neg (Ne.symm hs.1)] at h
      split_ifs at h with hslash hcontrol
      · obtain ⟨⟨e, after⟩, hescape, h⟩ := Option.bind_eq_some_iff.mp h
        obtain ⟨⟨v, _⟩, hbody, heq⟩ := Option.map_eq_some_iff.mp h
        obtain ⟨rfl, rfl⟩ := Prod.mk.inj heq
        obtain ⟨front, hfront, hne, hquote | rfl⟩ := escape_eq_some hescape
        · obtain ⟨s', rfl, rfl⟩ := append_eq_append_quote hquote hfront
          have hpos := List.length_pos_of_ne_nil hne
          have hs' : '"' ∉ s' := fun hmem => hs.2 (List.mem_append_right front hmem)
          refine (ih hs' hbody).imp_left fun ⟨hu, hle, _⟩ => ⟨hu, ?_, fun hlen => ?_⟩
          · simp only [List.length_cons, List.length_append]
            omega
          · simp only [List.length_cons, List.length_append] at hlen
            omega
        · -- the quote behind the text is escaped, so the text ends here
          cases s with
          | nil =>
            obtain rfl := (List.cons.inj hfront).2
            exact .inr ⟨n, v, hbody⟩
          | cons d s =>
            obtain ⟨rfl, -⟩ := List.cons.inj hfront
            exact absurd List.mem_cons_self hs.2
      · obtain ⟨⟨v, _⟩, hbody, heq⟩ := Option.map_eq_some_iff.mp h
        obtain ⟨rfl, rfl⟩ := Prod.mk.inj heq
        refine (ih hs.2 hbody).imp_left fun ⟨hu, hle, hplain⟩ =>
          ⟨hu, Nat.succ_le_succ hle, fun hlen => ?_⟩
        rw [List.forall_mem_cons]
        exact ⟨⟨hslash, Nat.le_of_not_lt hcontrol⟩, hplain (Nat.succ.inj hlen)⟩

end String

/-! ### Objects -/

section Object

variable {n : ℕ} {s u name : Text} {v : Value} {ms : List (Text × Value)}

@[simp]
theorem field_object_cons : (Value.object ((name, v) :: ms)).field name = some v :=
  List.lookup_cons_self

theorem skipSpace_cons {c : Char} (h : isSpace c = false) (s : Text) :
    skipSpace (c :: s) = c :: s :=
  List.dropWhile_cons_of_neg (by simp [h])

theorem value_string_iff : value (n + 1) ('"' :: s) = some (v, u) ↔
    ∃ t, string s = some (t, u) ∧ v = .string t := by
  rw [value, if_pos rfl, Option.map_eq_some_iff]
  constructor
  · rintro ⟨p, hp, heq⟩
    obtain ⟨rfl, rfl⟩ := Prod.mk.inj heq
    exact ⟨p.1, hp, rfl⟩
  · rintro ⟨t, ht, rfl⟩
    exact ⟨(t, u), ht, rfl⟩

/-- An object that has members. -/
theorem value_object_iff : value (n + 1) ('{' :: '"' :: s) = some (v, u) ↔
    ∃ ms, members n ('"' :: s) = some (ms, u) ∧ v = .object ms := by
  have hskip : skipSpace ('"' :: s) = '"' :: s := skipSpace_cons (by decide) s
  rw [value, if_neg (by decide), if_pos rfl, hskip, if_neg (by simp), Option.map_eq_some_iff]
  constructor
  · rintro ⟨p, hp, heq⟩
    obtain ⟨rfl, rfl⟩ := Prod.mk.inj heq
    exact ⟨p.1, hp, rfl⟩
  · rintro ⟨ms, hms, rfl⟩
    exact ⟨(ms, u), hms, rfl⟩

theorem key_of_plain (h : ∀ c ∈ name, c ≠ '"' ∧ IsPlain c) :
    key ('"' :: (name ++ '"' :: ':' :: s)) = some (name, s) := by
  have hskip : skipSpace (':' :: s) = ':' :: s := skipSpace_cons (by decide) s
  rw [key, expect_eq_some_iff.mpr rfl, Option.bind_some, string_of_plain h, Option.bind_some, hskip,
    expect_eq_some_iff.mpr rfl]
  rfl

/-- The members of an object: the first one, and a comma and the others or the closing brace. -/
theorem members_iff (h : ∀ c ∈ name, c ≠ '"' ∧ IsPlain c) :
    members (n + 1) ('"' :: (name ++ '"' :: ':' :: s)) = some (ms, u) ↔
      ∃ v rest, value n (skipSpace s) = some (v, rest) ∧
        ((∃ more others, skipSpace rest = ',' :: more ∧
            members n (skipSpace more) = some (others, u) ∧ ms = (name, v) :: others) ∨
          skipSpace rest = '}' :: u ∧ ms = [(name, v)]) := by
  rw [members, key_of_plain h, Option.bind_some, Option.bind_eq_some_iff]
  constructor
  · rintro ⟨⟨v, rest⟩, hv, hrest⟩
    refine ⟨v, rest, hv, ?_⟩
    dsimp only at hrest
    split_ifs at hrest with hcomma
    · obtain ⟨more, hmore⟩ := List.head?_eq_some_iff.mp hcomma
      obtain ⟨⟨others, _⟩, hothers, heq⟩ := Option.map_eq_some_iff.mp hrest
      obtain ⟨rfl, rfl⟩ := Prod.mk.inj heq
      rw [hmore] at hothers
      exact .inl ⟨more, others, hmore, hothers, rfl⟩
    · obtain ⟨after, hafter, heq⟩ := Option.map_eq_some_iff.mp hrest
      obtain ⟨rfl, rfl⟩ := Prod.mk.inj heq
      exact .inr ⟨expect_eq_some_iff.mp hafter, rfl⟩
  · rintro ⟨v, rest, hv, ⟨more, others, hmore, hothers, rfl⟩ | ⟨hclose, rfl⟩⟩
    · refine ⟨(v, rest), hv, ?_⟩
      rw [hmore, if_pos List.head?_cons, List.tail_cons, hothers]
      rfl
    · refine ⟨(v, rest), hv, ?_⟩
      rw [hclose, if_neg (by simp), expect_eq_some_iff.mpr rfl]
      rfl

end Object

/-! ### A text put into an object -/

/-- The object `{"a":{"b":"s","k":"t"}}`, when the five texts are plain. -/
def nested (a b s k t : Text) : Text :=
  '{' :: '"' :: (a ++ '"' :: ':' :: '{' :: '"' :: (b ++ '"' :: ':' :: '"' ::
    (s ++ '"' :: ',' :: '"' :: (k ++ '"' :: ':' :: '"' :: (t ++ ['"', '}', '}'])))))

section Nested

variable {n m : ℕ} {a b s k t u : Text} {c : Char} {v : Value}

theorem members_last (hk : ∀ c ∈ k, c ≠ '"' ∧ IsPlain c) (ht : ∀ c ∈ t, c ≠ '"' ∧ IsPlain c) :
    members (n + 2) ('"' :: (k ++ '"' :: ':' :: '"' :: (t ++ '"' :: '}' :: u))) =
      some ([(k, .string t)], u) := by
  have hvalue : value (n + 1) (skipSpace ('"' :: (t ++ '"' :: '}' :: u))) =
      some (.string t, '}' :: u) := by
    rw [skipSpace_cons (by decide), value_string_iff]
    exact ⟨t, string_of_plain ht, rfl⟩
  rw [members_iff hk]
  exact ⟨.string t, '}' :: u, hvalue, .inr ⟨skipSpace_cons (by decide) u, rfl⟩⟩

/-- A plain text is read back. -/
theorem parses_nested (ha : ∀ c ∈ a, c ≠ '"' ∧ IsPlain c) (hb : ∀ c ∈ b, c ≠ '"' ∧ IsPlain c)
    (hs : ∀ c ∈ s, c ≠ '"' ∧ IsPlain c) (hk : ∀ c ∈ k, c ≠ '"' ∧ IsPlain c)
    (ht : ∀ c ∈ t, c ≠ '"' ∧ IsPlain c) :
    Parses (nested a b s k t) (.object [(a, .object [(b, .string s), (k, .string t)])]) := by
  refine ⟨6, fun n hn => ?_⟩
  obtain ⟨n, rfl⟩ := Nat.exists_eq_add_of_le' hn
  have hskip : skipSpace (nested a b s k t) = nested a b s k t := skipSpace_cons (by decide) _
  have hclose : skipSpace ['}'] = ['}'] := rfl
  have hfirst : value (n + 2) (skipSpace ('"' :: (s ++ '"' :: ',' :: '"' ::
      (k ++ '"' :: ':' :: '"' :: (t ++ ['"', '}', '}']))))) =
      some (.string s, ',' :: '"' :: (k ++ '"' :: ':' :: '"' :: (t ++ ['"', '}', '}']))) := by
    rw [skipSpace_cons (by decide), value_string_iff]
    exact ⟨s, string_of_plain hs, rfl⟩
  have hinner : value (n + 4) (skipSpace ('{' :: '"' :: (b ++ '"' :: ':' :: '"' ::
      (s ++ '"' :: ',' :: '"' :: (k ++ '"' :: ':' :: '"' :: (t ++ ['"', '}', '}'])))))) =
      some (.object [(b, .string s), (k, .string t)], ['}']) := by
    rw [skipSpace_cons (by decide), value_object_iff]
    refine ⟨[(b, .string s), (k, .string t)], ?_, rfl⟩
    rw [members_iff hb]
    refine ⟨_, _, hfirst, .inl ⟨_, _, skipSpace_cons (by decide) _, ?_, rfl⟩⟩
    rw [skipSpace_cons (by decide)]
    exact members_last hk ht
  have houter : value (n + 6) (nested a b s k t) =
      some (.object [(a, .object [(b, .string s), (k, .string t)])], []) := by
    rw [nested, value_object_iff]
    refine ⟨[(a, .object [(b, .string s), (k, .string t)])], ?_, rfl⟩
    rw [members_iff ha]
    exact ⟨_, _, hinner, .inr ⟨hclose, rfl⟩⟩
  rw [parse, hskip, houter]
  rfl

/-- A string that goes on behind a comma ends at the quote. -/
theorem stringBody_comma (h : stringBody m (',' :: '"' :: s) = some (t, u)) : u = s := by
  obtain _ | _ | m := m
  · cases h
  · cases h
  · obtain ⟨-, rfl⟩ := Prod.mk.inj (Option.some.inj h)
    rfl

/-- A text without quotes is found where it was put only if it is plain. -/
theorem plain_of_parses_nested (ha : ∀ c ∈ a, c ≠ '"' ∧ IsPlain c)
    (hb : ∀ c ∈ b, c ≠ '"' ∧ IsPlain c) (hs : '"' ∉ s)
    (hk : k.head? = some c) (hc : isSpace c = false ∧ c ≠ ',' ∧ c ≠ '}')
    (h : Parses (nested a b s k t) v)
    (hv : ((v.field a).bind (Value.field b)).bind Value.asString = some s) :
    ∀ c ∈ s, IsPlain c := by
  have hskip : skipSpace (nested a b s k t) = nested a b s k t := skipSpace_cons (by decide) _
  obtain ⟨n, hn⟩ := h
  -- into the outer object
  obtain ⟨⟨outer, rest⟩, houter, hrest⟩ :=
    Option.bind_eq_some_iff.mp (hn (n + 6) (Nat.le_add_right n 6))
  split_ifs at hrest
  obtain rfl := Option.some.inj hrest
  rw [hskip, nested, value_object_iff] at houter
  obtain ⟨ms, hms, rfl⟩ := houter
  obtain ⟨inner, r, hinner, hmembers⟩ := (members_iff ha).mp hms
  have hfield : (Value.object ms).field a = some inner := by
    rcases hmembers with ⟨_, _, _, _, rfl⟩ | ⟨_, rfl⟩
    · exact field_object_cons
    · exact field_object_cons
  rw [hfield, Option.bind_some] at hv
  -- into the inner one
  rw [skipSpace_cons (by decide), value_object_iff] at hinner
  obtain ⟨ms', hms', rfl⟩ := hinner
  obtain ⟨w, r', hw, hmembers'⟩ := (members_iff hb).mp hms'
  have hfield' : (Value.object ms').field b = some w := by
    rcases hmembers' with ⟨_, _, _, _, rfl⟩ | ⟨_, rfl⟩
    · exact field_object_cons
    · exact field_object_cons
  rw [hfield', Option.bind_some] at hv
  rw [skipSpace_cons (by decide), value_string_iff] at hw
  obtain ⟨read, hread, rfl⟩ := hw
  obtain rfl := Option.some.inj hv
  rcases stringBody_cases hs hread with ⟨-, -, hplain⟩ | ⟨m, v, hbody⟩
  · exact hplain rfl
  · -- the string went on to the quote before `k`, which cannot follow a value
    obtain ⟨k, rfl⟩ := List.head?_eq_some_iff.mp hk
    obtain rfl := stringBody_comma hbody
    rw [List.cons_append, skipSpace_cons hc.1] at hmembers'
    rcases hmembers' with ⟨_, _, heq, _⟩ | ⟨heq, _⟩
    · exact absurd (List.cons.inj heq).1 hc.2.1
    · exact absurd (List.cons.inj heq).1 hc.2.2

end Nested

end Json

end TrustedRelay
