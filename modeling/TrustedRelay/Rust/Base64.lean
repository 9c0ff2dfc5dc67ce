import TrustedRelay.Rust.Text

/-!
# Base64 without padding

The URL-safe alphabet as the `base64` crate reads and writes it in its `URL_SAFE_NO_PAD` engine:
no padding, and the unused bits of the last symbol must be zero. So every text that is read is the
one that would be written (`base64urlDecode_eq_some_iff`).
-/

namespace TrustedRelay

/-- The 64 symbols, in order. -/
def base64Alphabet : Text :=
  "ABCDEFGHIJKLMNOPQRSTUVWXYZabcdefghijklmnopqrstuvwxyz0123456789-_".toList

/-- The symbol of a six-bit value. -/
def base64Symbol (n : ℕ) : Char := base64Alphabet.getD n 'A'

/-- The value of a symbol. -/
def base64Value (c : Char) : Option ℕ := base64Alphabet.idxOf? c

/-- `URL_SAFE_NO_PAD.decode`. -/
def base64urlDecode : Text → Option Bytes
  | [] => some []
  | [_] => none
  | [a, b] => do
    let x ← base64Value a
    let y ← base64Value b
    if y % 16 = 0 then some [UInt8.ofNat (x * 4 + y / 16)] else none
  | [a, b, c] => do
    let x ← base64Value a
    let y ← base64Value b
    let z ← base64Value c
    if z % 4 = 0 then
      some [UInt8.ofNat (x * 4 + y / 16), UInt8.ofNat (y % 16 * 16 + z / 4)]
    else none
  | a :: b :: c :: d :: rest => do
    let x ← base64Value a
    let y ← base64Value b
    let z ← base64Value c
    let w ← base64Value d
    let tail ← base64urlDecode rest
    some (UInt8.ofNat (x * 4 + y / 16) :: UInt8.ofNat (y % 16 * 16 + z / 4) ::
      UInt8.ofNat (z % 4 * 64 + w) :: tail)

/-- `URL_SAFE_NO_PAD.encode`. -/
def base64urlEncode : Bytes → Text
  | [] => []
  | [a] => [base64Symbol (a.toNat / 4), base64Symbol (a.toNat % 4 * 16)]
  | [a, b] =>
    [base64Symbol (a.toNat / 4), base64Symbol (a.toNat % 4 * 16 + b.toNat / 16),
      base64Symbol (b.toNat % 16 * 4)]
  | a :: b :: c :: rest =>
    base64Symbol (a.toNat / 4) :: base64Symbol (a.toNat % 4 * 16 + b.toNat / 16) ::
      base64Symbol (b.toNat % 16 * 4 + c.toNat / 64) :: base64Symbol (c.toNat % 64) ::
      base64urlEncode rest

/-! ### Symbols -/

theorem base64Value_symbol : ∀ n < 64, base64Value (base64Symbol n) = some n := by decide +kernel

/-- A symbol is that of its value. -/
theorem base64Symbol_of_value {c : Char} {n : ℕ} (h : base64Value c = some n) :
    n < 64 ∧ base64Symbol n = c := by
  rw [base64Value, List.idxOf?, List.findIdx?_eq_some_iff_getElem] at h
  obtain ⟨hn, hc, -⟩ := h
  refine ⟨hn, ?_⟩
  rw [base64Symbol, List.getD_eq_getElem _ _ hn]
  exact eq_of_beq hc

theorem mem_base64Alphabet (n : ℕ) : base64Symbol n ∈ base64Alphabet := by
  rw [base64Symbol, List.getD_eq_getElem?_getD]
  cases h : base64Alphabet[n]? with
  | none => decide
  | some c => exact List.mem_of_getElem? h

theorem mem_alphabet_of_mem_encode {b : Bytes} {c : Char} (h : c ∈ base64urlEncode b) :
    c ∈ base64Alphabet := by
  induction b using base64urlEncode.induct with
  | case1 => exact absurd h List.not_mem_nil
  | case2 a =>
    simp only [base64urlEncode, List.mem_cons, List.not_mem_nil, or_false] at h
    rcases h with rfl | rfl <;> exact mem_base64Alphabet _
  | case3 a b =>
    simp only [base64urlEncode, List.mem_cons, List.not_mem_nil, or_false] at h
    rcases h with rfl | rfl | rfl <;> exact mem_base64Alphabet _
  | case4 a b c rest ih =>
    simp only [base64urlEncode, List.mem_cons] at h
    rcases h with rfl | rfl | rfl | rfl | h
    · exact mem_base64Alphabet _
    · exact mem_base64Alphabet _
    · exact mem_base64Alphabet _
    · exact mem_base64Alphabet _
    · exact ih h

/-! ### The two directions -/

private theorem toNat_ofNat {n : ℕ} (h : n < 256) : (UInt8.ofNat n).toNat = n :=
  UInt8.toNat_ofNat_of_lt' h

private theorem ofNat_eq {n : ℕ} {b : UInt8} (h : n = b.toNat) : UInt8.ofNat n = b := by
  rw [h, UInt8.ofNat_toNat]

/-- What is written is read back. -/
theorem base64urlDecode_encode (b : Bytes) : base64urlDecode (base64urlEncode b) = some b := by
  induction b using base64urlEncode.induct with
  | case1 => rfl
  | case2 a =>
    have ha := a.toNat_lt
    have hx := base64Value_symbol (a.toNat / 4) (by omega)
    have hy := base64Value_symbol (a.toNat % 4 * 16) (by omega)
    rw [base64urlEncode, base64urlDecode]
    simp only [hx, hy, Option.bind_eq_bind, Option.bind_some]
    rw [if_pos (by omega), ofNat_eq (b := a) (by omega)]
  | case3 a b =>
    have ha := a.toNat_lt
    have hb := b.toNat_lt
    have hx := base64Value_symbol (a.toNat / 4) (by omega)
    have hy := base64Value_symbol (a.toNat % 4 * 16 + b.toNat / 16) (by omega)
    have hz := base64Value_symbol (b.toNat % 16 * 4) (by omega)
    rw [base64urlEncode, base64urlDecode]
    simp only [hx, hy, hz, Option.bind_eq_bind, Option.bind_some]
    rw [if_pos (by omega), ofNat_eq (b := a) (by omega),
      ofNat_eq (b := b) (by omega)]
  | case4 a b c rest ih =>
    have ha := a.toNat_lt
    have hb := b.toNat_lt
    have hc := c.toNat_lt
    have hx := base64Value_symbol (a.toNat / 4) (by omega)
    have hy := base64Value_symbol (a.toNat % 4 * 16 + b.toNat / 16) (by omega)
    have hz := base64Value_symbol (b.toNat % 16 * 4 + c.toNat / 64) (by omega)
    have hw := base64Value_symbol (c.toNat % 64) (by omega)
    rw [base64urlEncode, base64urlDecode]
    simp only [hx, hy, hz, hw, ih, Option.bind_eq_bind, Option.bind_some]
    rw [ofNat_eq (b := a) (by omega), ofNat_eq (b := b) (by omega),
      ofNat_eq (b := c) (by omega)]

/-- What is read is written the same: no other text is read as the same bytes. -/
theorem base64urlEncode_of_decode {s : Text} {b : Bytes} (h : base64urlDecode s = some b) :
    base64urlEncode b = s := by
  induction s using base64urlDecode.induct generalizing b with
  | case1 => rw [← Option.some.inj h, base64urlEncode]
  | case2 a => cases h
  | case3 a b =>
    simp only [base64urlDecode, Option.bind_eq_bind, Option.bind_eq_some_iff,
      Option.ite_none_right_eq_some, Option.some.injEq] at h
    obtain ⟨x, hx, y, hy, hzero, rfl⟩ := h
    obtain ⟨hx, rfl⟩ := base64Symbol_of_value hx
    obtain ⟨hy, rfl⟩ := base64Symbol_of_value hy
    have hfirst : (UInt8.ofNat (x * 4 + y / 16)).toNat = x * 4 + y / 16 := toNat_ofNat (by omega)
    have hx' : (x * 4 + y / 16) / 4 = x := by omega
    have hy' : (x * 4 + y / 16) % 4 * 16 = y := by omega
    rw [base64urlEncode, hfirst, hx', hy']
  | case4 a b c =>
    simp only [base64urlDecode, Option.bind_eq_bind, Option.bind_eq_some_iff,
      Option.ite_none_right_eq_some, Option.some.injEq] at h
    obtain ⟨x, hx, y, hy, z, hz, hzero, rfl⟩ := h
    obtain ⟨hx, rfl⟩ := base64Symbol_of_value hx
    obtain ⟨hy, rfl⟩ := base64Symbol_of_value hy
    obtain ⟨hz, rfl⟩ := base64Symbol_of_value hz
    have hfirst : (UInt8.ofNat (x * 4 + y / 16)).toNat = x * 4 + y / 16 := toNat_ofNat (by omega)
    have hsecond : (UInt8.ofNat (y % 16 * 16 + z / 4)).toNat = y % 16 * 16 + z / 4 :=
      toNat_ofNat (by omega)
    have hx' : (x * 4 + y / 16) / 4 = x := by omega
    have hy' : (x * 4 + y / 16) % 4 * 16 + (y % 16 * 16 + z / 4) / 16 = y := by omega
    have hz' : (y % 16 * 16 + z / 4) % 16 * 4 = z := by omega
    rw [base64urlEncode, hfirst, hsecond, hx', hy', hz']
  | case5 a b c d rest ih =>
    simp only [base64urlDecode, Option.bind_eq_bind, Option.bind_eq_some_iff,
      Option.some.injEq] at h
    obtain ⟨x, hx, y, hy, z, hz, w, hw, tail, htail, rfl⟩ := h
    obtain ⟨hx, rfl⟩ := base64Symbol_of_value hx
    obtain ⟨hy, rfl⟩ := base64Symbol_of_value hy
    obtain ⟨hz, rfl⟩ := base64Symbol_of_value hz
    obtain ⟨hw, rfl⟩ := base64Symbol_of_value hw
    have hfirst : (UInt8.ofNat (x * 4 + y / 16)).toNat = x * 4 + y / 16 := toNat_ofNat (by omega)
    have hsecond : (UInt8.ofNat (y % 16 * 16 + z / 4)).toNat = y % 16 * 16 + z / 4 :=
      toNat_ofNat (by omega)
    have hthird : (UInt8.ofNat (z % 4 * 64 + w)).toNat = z % 4 * 64 + w := toNat_ofNat (by omega)
    have hx' : (x * 4 + y / 16) / 4 = x := by omega
    have hy' : (x * 4 + y / 16) % 4 * 16 + (y % 16 * 16 + z / 4) / 16 = y := by omega
    have hz' : (y % 16 * 16 + z / 4) % 16 * 4 + (z % 4 * 64 + w) / 64 = z := by omega
    have hw' : (z % 4 * 64 + w) % 64 = w := by omega
    rw [base64urlEncode, hfirst, hsecond, hthird, hx', hy', hz', hw', ih htail]

theorem base64urlDecode_eq_some_iff {s : Text} {b : Bytes} :
    base64urlDecode s = some b ↔ base64urlEncode b = s := by
  constructor
  · exact base64urlEncode_of_decode
  · rintro rfl
    exact base64urlDecode_encode b

end TrustedRelay
