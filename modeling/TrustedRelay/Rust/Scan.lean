import TrustedRelay.Format.Delimited
import TrustedRelay.Rust.Text

/-!
# Searching byte strings and texts

The first occurrence of a pattern in a list, as `windows(n).position(..)` finds it, and the parts
of a text that `lines` and `split` give.
-/

namespace TrustedRelay

/-! ### The first occurrence -/

section Position

variable {α : Type} [DecidableEq α] {p b : List α}

/-- `b.windows(p.len()).position(|w| w == p)`, for a pattern that is not empty. -/
def position (p : List α) : List α → Option ℕ
  | [] => none
  | x :: b => if p <+: x :: b then some 0 else (position p b).map (· + 1)

/-- Nothing is found exactly when the pattern does not occur. -/
theorem position_eq_none_iff (hp : p ≠ []) : position p b = none ↔ ¬ p <:+: b := by
  induction b with
  | nil => simp [position, hp]
  | cons x b ih =>
    rw [position, List.infix_cons_iff, not_or, ← ih]
    split_ifs with hpre
    · simp [hpre]
    · simp [hpre]

/-- The first occurrence is found. -/
theorem position_eq_some_iff (hp : p ≠ []) {i : ℕ} :
    position p b = some i ↔ p <+: b.drop i ∧ ∀ j < i, ¬ p <+: b.drop j := by
  induction b generalizing i with
  | nil => simp [position, hp]
  | cons x b ih =>
    rw [position]
    cases i with
    | zero => split_ifs with hpre <;> simp [hpre]
    | succ i =>
      -- the head is no occurrence, and the rest is searched
      have hsplit : (∀ j < i + 1, ¬ p <+: (x :: b).drop j) ↔
          ¬ p <+: x :: b ∧ ∀ j < i, ¬ p <+: b.drop j := by
        rw [Nat.forall_lt_succ_left]
        rfl
      rw [hsplit, List.drop_succ_cons]
      split_ifs with hpre
      · simp [hpre]
      · simp [hpre, ih]

theorem position_lt {i : ℕ} (hp : p ≠ []) (h : position p b = some i) :
    i + p.length ≤ b.length := by
  obtain ⟨hpre, -⟩ := (position_eq_some_iff hp).mp h
  have hlen := hpre.length_le
  have hpos := List.length_pos_iff.mpr hp
  rw [List.length_drop] at hlen
  omega

/-- A pattern that occurs only at the end of a text is found there, whatever follows. -/
theorem position_append {a rest : List α} (hp : p ≠ [])
    (honce : ∀ pre post, a ++ p = pre ++ p ++ post → post = []) :
    position p (a ++ p ++ rest) = some a.length := by
  rw [position_eq_some_iff hp]
  constructor
  · rw [List.append_assoc, List.drop_left]
    exact List.prefix_append _ _
  · rintro j hj hpre
    -- an earlier occurrence lies inside the text
    have hle : j ≤ (a ++ p).length := by rw [List.length_append]; omega
    rw [List.drop_append_of_le_length hle] at hpre
    have hin : p <+: (a ++ p).drop j :=
      List.prefix_of_prefix_length_le hpre (List.prefix_append _ _) (by
        rw [List.length_drop, List.length_append]
        omega)
    obtain ⟨post, hpost⟩ := hin
    have hall : a ++ p = (a ++ p).take j ++ p ++ post := by
      rw [List.append_assoc, hpost, List.take_append_drop]
    obtain rfl := honce _ _ hall
    have hlen := congrArg List.length hpost
    rw [List.append_nil, List.length_drop, List.length_append] at hlen
    omega

/-- A pattern whose first occurrence ends a text does not occur again. -/
theorem eq_nil_of_position {a pre post : List α} (hp : p ≠ [])
    (hfirst : position p (a ++ p) = some a.length) (h : a ++ p = pre ++ p ++ post) : post = [] := by
  have hnot : ¬ pre.length < a.length := by
    intro hlt
    apply ((position_eq_some_iff hp).mp hfirst).2 _ hlt
    rw [h, List.append_assoc, List.drop_left]
    exact List.prefix_append _ _
  have hlen := congrArg List.length h
  simp only [List.length_append] at hlen
  exact List.length_eq_zero_iff.mp (by omega)

/-- A pattern is found behind a text without its first symbol. -/
theorem position_append_of_not_mem {a t rest : List α} {x : α} (h : x ∉ a) :
    position (x :: t) (a ++ (x :: t) ++ rest) = some a.length := by
  rw [position_eq_some_iff (List.cons_ne_nil x t)]
  constructor
  · rw [List.append_assoc, List.drop_left]
    exact List.prefix_append _ _
  · intro j hj hpre
    rw [List.append_assoc, List.drop_append_of_le_length hj.le] at hpre
    cases hdrop : a.drop j with
    | nil => exact absurd (List.drop_eq_nil_iff.mp hdrop) (by omega)
    | cons y s =>
      rw [hdrop, List.cons_append] at hpre
      obtain ⟨rfl, -⟩ := List.cons_prefix_cons.mp hpre
      exact h (List.mem_of_mem_drop (hdrop ▸ List.mem_cons_self))

end Position

/-- Trimming a list whose first and last elements stay. -/
theorem dropWhile_rdropWhile_eq_self {α : Type} {p : α → Bool} {l : List α}
    (hhead : ∀ a ∈ l.head?, p a = false) (hlast : ∀ a ∈ l.getLast?, p a = false) :
    (l.dropWhile p).rdropWhile p = l := by
  have hdrop : l.dropWhile p = l := by
    cases l with
    | nil => rfl
    | cons a l => exact List.dropWhile_cons_of_neg (by simp [hhead a rfl])
  rw [hdrop]
  cases l using List.reverseRecOn with
  | nil => rfl
  | append_singleton l a => exact List.rdropWhile_concat_neg _ _ _ (by simp [hlast a (by simp)])

/-! ### Parts of a text -/

namespace Text

/-- `s.split(c).next()`: what stands before the first `c`. -/
def firstPiece (s : Text) (c : Char) : Text := s.takeWhile (· != c)

theorem firstPiece_append {s : Text} {c : Char} (h : c ∉ s) {t : Text}
    (ht : t = [] ∨ t.head? = some c) : firstPiece (s ++ t) c = s := by
  have hne : ∀ x ∈ s, (x != c) = true := fun x hx => bne_iff_ne.mpr fun heq => h (heq ▸ hx)
  have hnil : t.takeWhile (· != c) = [] := by
    rcases ht with rfl | ht
    · rfl
    · obtain ⟨t', rfl⟩ := List.head?_eq_some_iff.mp ht
      exact List.takeWhile_cons_of_neg (by simp)
  rw [firstPiece, List.takeWhile_append_of_pos hne, hnil, List.append_nil]

theorem splitOnce_eq_some_iff {s a b : Text} {c : Char} :
    splitOnce s c = some (a, b) ↔ s = a ++ c :: b ∧ c ∉ a := by
  constructor
  · intro h
    have hsplit := List.takeWhile_append_dropWhile (p := (· != c)) (l := s)
    rw [splitOnce] at h
    split at h
    · cases h
    · next x rest hdrop =>
      obtain ⟨rfl, rfl⟩ := Prod.mk.inj (Option.some.inj h)
      have hx : (x != c) = false := by
        have hhead := List.head_dropWhile_not (p := (· != c)) (l := s) (by rw [hdrop]; simp)
        simpa only [hdrop, List.head_cons] using hhead
      obtain rfl : x = c := by simpa using hx
      refine ⟨by rw [← hdrop, hsplit], fun hmem => ?_⟩
      simpa using List.mem_takeWhile_imp hmem
  · rintro ⟨rfl, hmem⟩
    exact splitOnce_append hmem b

theorem isWhitespace_of_visible {c : Char} (h : 0x20 < c.toNat) (h' : c.toNat < 0x7F) :
    isWhitespace c = false := by
  simp only [isWhitespace, Bool.or_eq_false_iff, Bool.and_eq_false_iff, decide_eq_false_iff_not,
    beq_eq_false_iff_ne]
  omega

/-- A text without whitespace is its own trimming. -/
theorem trim_eq_self {s : Text} (h : ∀ c ∈ s, isWhitespace c = false) : trim s = s :=
  dropWhile_rdropWhile_eq_self (fun c hc => h c (List.mem_of_mem_head? hc))
    (fun c hc => h c (List.mem_of_getLast? hc))

/-- A line without its carriage return. -/
def stripCr (line : Text) : Text := if line.getLast? = some '\r' then line.dropLast else line

/-- `str::lines`: a line ends at a line feed, which takes one carriage return before it along; what
follows the last line feed is a line if it is not empty. -/
def lines (s : Text) : List Text :=
  let pieces := s.splitOn '\n'
  pieces.dropLast.map stripCr ++ (pieces.getLast?.toList.filter (· ≠ []))

example : lines "a\r\n\nb\r".toList = [['a'], [], ['b', '\r']] := by decide

/-- A line that ends in a carriage return and a line feed. -/
theorem lines_append_crlf {s : Text} (h : '\n' ∉ s) (t : Text) :
    lines (s ++ '\r' :: '\n' :: t) = s :: lines t := by
  have hline : '\n' ∉ s ++ ['\r'] := by simpa using h
  obtain ⟨first, rest, heq⟩ := List.exists_cons_of_ne_nil (List.splitOn_ne_nil '\n' t)
  have hpieces : (s ++ '\r' :: '\n' :: t).splitOn '\n' = (s ++ ['\r']) :: first :: rest := by
    rw [List.append_cons, List.splitOn_append_cons_self, List.splitOn_eq_singleton hline, heq]
    rfl
  have hstrip : stripCr (s ++ ['\r']) = s := by
    rw [stripCr, List.getLast?_concat, if_pos rfl, List.dropLast_concat]
  rw [lines, lines, hpieces, heq]
  rw [List.dropLast_cons_of_ne_nil (List.cons_ne_nil _ _), List.getLast?_cons_cons, List.map_cons,
    hstrip, List.cons_append]

/-- A text before the first separator joins the first piece of what follows. -/
theorem splitOn_append_left {s : Text} {c : Char} (h : c ∉ s) (t : Text) :
    (s ++ t).splitOn c = (t.splitOn c).modifyHead (s ++ ·) := by
  induction s with
  | nil =>
    obtain ⟨first, rest, heq⟩ := List.exists_cons_of_ne_nil (List.splitOn_ne_nil c t)
    rw [List.nil_append, heq]
    rfl
  | cons x s ih =>
    rw [List.mem_cons, not_or] at h
    obtain ⟨first, rest, heq⟩ := List.exists_cons_of_ne_nil (List.splitOn_ne_nil c t)
    rw [List.cons_append, List.splitOn_cons_eq_if_modifyHead, if_neg (by simpa using Ne.symm h.1),
      ih h.2, heq]
    rfl

theorem prefix_stripCr {s line : Text} (h : s <+: line) (hcr : '\r' ∉ s) : s <+: stripCr line := by
  rw [stripCr]
  split_ifs with hlast
  · obtain ⟨t, rfl⟩ := h
    cases t using List.reverseRecOn with
    | nil =>
      rw [List.append_nil] at hlast
      exact absurd (List.mem_of_getLast? hlast) hcr
    | append_singleton t c =>
      rw [← List.append_assoc, List.dropLast_concat]
      exact List.prefix_append _ _
  · exact h

/-- The first line of a text keeps its start. -/
theorem prefix_head_lines {s t : Text} (hne : s ≠ []) (hlf : '\n' ∉ s) (hcr : '\r' ∉ s) :
    ∃ line rest, lines (s ++ t) = line :: rest ∧ s <+: line := by
  obtain ⟨first, rest, heq⟩ := List.exists_cons_of_ne_nil (List.splitOn_ne_nil '\n' t)
  have hpieces : (s ++ t).splitOn '\n' = (s ++ first) :: rest := by
    rw [splitOn_append_left hlf, heq]
    rfl
  rw [lines, hpieces]
  cases rest with
  | nil => exact ⟨s ++ first, [], by simp [hne], List.prefix_append _ _⟩
  | cons second rest =>
    exact ⟨stripCr (s ++ first), _, rfl, prefix_stripCr (List.prefix_append _ _) hcr⟩

/-! ### Lossy decoding -/

/-- A byte inside an encoding. -/
def isContinuation (b : UInt8) : Bool := 0x80 ≤ b && b ≤ 0xBF

/-- The first two bytes of an encoding of three or four bytes. -/
def opensLong (b0 b1 : UInt8) : Bool :=
  (b0 == 0xE0 && 0xA0 ≤ b1 && b1 ≤ 0xBF) || (0xE1 ≤ b0 && b0 ≤ 0xEC && isContinuation b1) ||
    (b0 == 0xED && 0x80 ≤ b1 && b1 ≤ 0x9F) || (0xEE ≤ b0 && b0 ≤ 0xEF && isContinuation b1) ||
    (b0 == 0xF0 && 0x90 ≤ b1 && b1 ≤ 0xBF) || (0xF1 ≤ b0 && b0 ≤ 0xF3 && isContinuation b1) ||
    (b0 == 0xF4 && 0x80 ≤ b1 && b1 ≤ 0x8F)

/-- How many bytes one replacement character stands for: the longest start of an encoding. -/
def invalidLen : Bytes → ℕ
  | b0 :: b1 :: rest =>
    if opensLong b0 b1 then
      if 0xF0 ≤ b0 ∧ (rest.head?.map isContinuation).getD false = true then 3 else 2
    else 1
  | _ => 1

/-- `String::from_utf8_lossy`. -/
def fromUtf8Lossy (b : Bytes) : Text := go b.length b
where
  go : ℕ → Bytes → Text
    | 0, _ => []
    | n + 1, b =>
      match b.toByteArray.utf8DecodeChar? 0 with
      | some c => c :: go n (b.drop c.utf8Size)
      | none => if b = [] then [] else '\uFFFD' :: go n (b.drop (invalidLen b))

example : fromUtf8Lossy [0x61, 0xF0, 0x9F, 0x98, 0x7A] = ['a', '\uFFFD', 'z'] := by decide

end Text

end TrustedRelay
