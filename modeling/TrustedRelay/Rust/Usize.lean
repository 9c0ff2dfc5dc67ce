import TrustedRelay.Rust.Outcome

/-!
# `usize`

Unsigned arithmetic on 64 bits. The operators `+` and `-` panic outside the range in a build with
overflow checks and wrap around in one without; `checks` says which of the two a build is. The
`checked_` methods and the parser for hexadecimal numbers are the same in both.
-/

namespace TrustedRelay

/-! ### Arithmetic -/

/-- `a + b`. -/
def usizeAdd {ε : Type} (checks : Bool) (a b : ℕ) : Outcome ε ℕ :=
  if a + b < 2 ^ 64 then .ok (a + b)
  else if checks then .error .panic else .ok (a + b - 2 ^ 64)

/-- `a - b`. -/
def usizeSub {ε : Type} (checks : Bool) (a b : ℕ) : Outcome ε ℕ :=
  if b ≤ a then .ok (a - b)
  else if checks then .error .panic else .ok (a + 2 ^ 64 - b)

/-- `usize::checked_add`. -/
def usizeCheckedAdd (a b : ℕ) : Option ℕ := if a + b < 2 ^ 64 then some (a + b) else none

theorem usizeAdd_eq_ok {ε : Type} {checks : Bool} {a b : ℕ} (h : a + b < 2 ^ 64) :
    (usizeAdd checks a b : Outcome ε ℕ) = .ok (a + b) :=
  if_pos h

theorem eq_of_usizeAdd {ε : Type} {checks : Bool} {a b n : ℕ} (hlt : a + b < 2 ^ 64)
    (h : (usizeAdd checks a b : Outcome ε ℕ) = .ok n) : a + b = n :=
  Except.ok.inj ((usizeAdd_eq_ok hlt).symm.trans h)

theorem usizeSub_eq_ok {ε : Type} {checks : Bool} {a b : ℕ} (h : b ≤ a) :
    (usizeSub checks a b : Outcome ε ℕ) = .ok (a - b) :=
  if_pos h

theorem usizeAdd_false_safe {ε : Type} {a b : ℕ} :
    Outcome.Safe (usizeAdd false a b : Outcome ε ℕ) := by
  rw [usizeAdd, if_neg Bool.false_ne_true]
  split_ifs <;> exact Outcome.safe_ok

theorem usizeSub_false_safe {ε : Type} {a b : ℕ} :
    Outcome.Safe (usizeSub false a b : Outcome ε ℕ) := by
  rw [usizeSub, if_neg Bool.false_ne_true]
  split_ifs <;> exact Outcome.safe_ok

@[simp] theorem usizeCheckedAdd_eq_some_iff {a b n : ℕ} :
    usizeCheckedAdd a b = some n ↔ a + b < 2 ^ 64 ∧ a + b = n := by
  rw [usizeCheckedAdd, Option.ite_none_right_eq_some, Option.some.injEq]

/-! ### Slices -/

/-- A byte slice: it has at most `isize::MAX` bytes. -/
abbrev Slice : Type := { b : Bytes // b.length < 2 ^ 63 }

/-- The bytes from `i` on. -/
def Slice.drop (b : Slice) (i : ℕ) : Slice :=
  ⟨b.1.drop i, by rw [List.length_drop]; exact (Nat.sub_le _ _).trans_lt b.2⟩

/-- `&b[i..]`, which panics outside the slice. -/
def Slice.from {ε : Type} (b : Slice) (i : ℕ) : Outcome ε Slice :=
  if i ≤ b.1.length then .ok (b.drop i) else .error .panic

theorem Slice.from_eq_ok {ε : Type} {b : Slice} {i : ℕ} (h : i ≤ b.1.length) :
    (b.from i : Outcome ε Slice) = .ok (b.drop i) :=
  if_pos h

theorem Slice.drop_left {b : Slice} {front rest : Bytes} (h : b.1 = front ++ rest) :
    (b.drop front.length).1 = rest := by
  change b.1.drop front.length = rest
  rw [h, List.drop_left]

/-! ### Hexadecimal numbers -/

/-- `char::to_digit(16)`. -/
def hexDigitValue (c : Char) : Option ℕ :=
  if 48 ≤ c.toNat ∧ c.toNat ≤ 57 then some (c.toNat - 48)
  else if 97 ≤ c.toNat ∧ c.toNat ≤ 102 then some (c.toNat - 87)
  else if 65 ≤ c.toNat ∧ c.toNat ≤ 70 then some (c.toNat - 55)
  else none

/-- The digit loop of `from_str_radix`, with the number so far. -/
def usizeHexDigits : Text → ℕ → Except Text ℕ
  | [], acc => .ok acc
  | c :: rest, acc => do
    let x ← okOr (hexDigitValue c) "invalid digit found in string".toList
    ensure (acc * 16 + x < 2 ^ 64) "number too large to fit in target type".toList
    usizeHexDigits rest (acc * 16 + x)

/-- `usize::from_str_radix(s, 16)`. -/
def usizeFromHex (s : Text) : Except Text ℕ :=
  if s = [] then .error "cannot parse integer from empty string".toList
  else if s = ['+'] ∨ s = ['-'] then .error "invalid digit found in string".toList
  else if s.head? = some '+' then usizeHexDigits s.tail 0
  else usizeHexDigits s 0

/-- The number that hex digits, of either case, denote after the number so far. -/
def hexNumber : Text → ℕ → Option ℕ
  | [], acc => some acc
  | c :: rest, acc => (hexDigitValue c).bind fun x => hexNumber rest (acc * 16 + x)

theorem le_of_hexNumber {s : Text} {acc n : ℕ} (h : hexNumber s acc = some n) : acc ≤ n := by
  induction s generalizing acc with
  | nil => exact (Option.some.inj h).le
  | cons c rest ih =>
    obtain ⟨x, -, hrest⟩ := Option.bind_eq_some_iff.mp h
    have hle := ih hrest
    omega

/-- The digits of a number below `2 ^ 64` are read. -/
theorem usizeHexDigits_eq_ok {s : Text} {acc n : ℕ} (h : hexNumber s acc = some n)
    (hn : n < 2 ^ 64) : usizeHexDigits s acc = .ok n := by
  induction s generalizing acc with
  | nil => exact congrArg Except.ok (Option.some.inj h)
  | cons c rest ih =>
    obtain ⟨x, hx, hrest⟩ := Option.bind_eq_some_iff.mp h
    have hle := le_of_hexNumber hrest
    simp only [usizeHexDigits, Except.bind_eq_ok_iff, okOr_eq_ok_iff, ensure_eq_ok_iff]
    exact ⟨x, hx, (), by omega, ih hrest⟩

/-- A hex digit is a character with a value; it is neither a sign nor whitespace. -/
theorem hexDigit_range {c : Char} (h : hexDigitValue c ≠ none) :
    (48 ≤ c.toNat ∧ c.toNat ≤ 57) ∨ (97 ≤ c.toNat ∧ c.toNat ≤ 102) ∨
      (65 ≤ c.toNat ∧ c.toNat ≤ 70) := by
  unfold hexDigitValue at h
  split_ifs at h with hdigit hlower hupper
  · exact .inl hdigit
  · exact .inr (.inl hlower)
  · exact .inr (.inr hupper)
  · exact absurd rfl h

theorem hexDigit_of_hexNumber {s : Text} {acc n : ℕ} (h : hexNumber s acc = some n) :
    ∀ c ∈ s, hexDigitValue c ≠ none := by
  induction s generalizing acc with
  | nil => simp
  | cons c rest ih =>
    obtain ⟨x, hx, hrest⟩ := Option.bind_eq_some_iff.mp h
    rw [List.forall_mem_cons]
    exact ⟨by simp [hx], ih hrest⟩

/-- A number in hex digits is parsed. -/
theorem usizeFromHex_eq_ok {s : Text} {n : ℕ} (hne : s ≠ []) (h : hexNumber s 0 = some n)
    (hn : n < 2 ^ 64) : usizeFromHex s = .ok n := by
  have hdigit := hexDigit_of_hexNumber h
  have hplus : '+' ∉ s := fun hmem => absurd (hexDigit_range (hdigit _ hmem)) (by decide)
  have hminus : '-' ∉ s := fun hmem => absurd (hexDigit_range (hdigit _ hmem)) (by decide)
  rw [usizeFromHex, if_neg hne, if_neg, if_neg, usizeHexDigits_eq_ok h hn]
  · exact fun hhead => hplus (List.mem_of_mem_head? hhead)
  · rintro (rfl | rfl)
    · exact hplus (List.mem_singleton_self _)
    · exact hminus (List.mem_singleton_self _)

example : usizeFromHex "fFfFffffffffffed".toList = .ok (2 ^ 64 - 19) := by decide

end TrustedRelay
