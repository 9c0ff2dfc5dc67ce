import TrustedRelay.Rust.Scan

/-!
# The words of a text

`split_whitespace` cuts a text into words. The words of texts that meet at whitespace are those of
the two texts, and words that are joined by spaces are found again.
-/

namespace TrustedRelay

open Delimited

namespace Text

/-- A text without whitespace, and not empty. -/
def IsWord (w : Text) : Prop := w ≠ [] ∧ ∀ c ∈ w, isWhitespace c = false

/-- `join(" ")`. -/
def joinWords (ws : List Text) : Text := [' '].intercalate ws

theorem IsWord.splitWhitespace_eq {w : Text} (h : IsWord w) : splitWhitespace w = [w] :=
  splitWhitespace_word h.1 h.2

/-- The pieces between separators hold none. -/
theorem not_of_mem_splitOnP {α : Type} {p : α → Bool} {l piece : List α}
    (h : piece ∈ l.splitOnP p) : ∀ a ∈ piece, p a = false := by
  induction l generalizing piece with
  | nil =>
    rw [List.splitOnP_nil, List.mem_singleton] at h
    rw [h]
    exact fun a ha => absurd ha List.not_mem_nil
  | cons x l ih =>
    obtain ⟨first, rest, heq⟩ := List.exists_cons_of_ne_nil (List.splitOnP_ne_nil p l)
    rw [List.splitOnP_cons_eq_if_modifyHead, heq] at h
    rw [heq] at ih
    split_ifs at h with hx
    · rcases List.mem_cons.mp h with rfl | h
      · exact fun a ha => absurd ha List.not_mem_nil
      · exact ih h
    · rw [List.modifyHead_cons, List.mem_cons] at h
      rcases h with rfl | h
      · rw [List.forall_mem_cons]
        exact ⟨by simpa using hx, ih List.mem_cons_self⟩
      · exact ih (List.mem_cons_of_mem _ h)

theorem isWord_of_mem_splitWhitespace {s w : Text} (h : w ∈ splitWhitespace s) : IsWord w := by
  obtain ⟨hmem, hne⟩ := List.mem_filter.mp h
  exact ⟨of_decide_eq_true hne, not_of_mem_splitOnP hmem⟩

/-- Whitespace separates words. -/
theorem splitWhitespace_append_whitespace {c : Char} (hc : isWhitespace c = true) (s t : Text) :
    splitWhitespace (s ++ c :: t) = splitWhitespace s ++ splitWhitespace t := by
  rw [splitWhitespace, List.splitOnP_append_cons s t hc, List.filter_append, splitWhitespace,
    splitWhitespace]

theorem splitWhitespace_of_last {p : Text} (hp : ∀ c ∈ p.getLast?, isWhitespace c = true)
    (t : Text) :
    splitWhitespace (p ++ t) = splitWhitespace p ++ splitWhitespace t := by
  induction p using List.reverseRecOn with
  | nil => rfl
  | append_singleton p c _ =>
    have hc := hp c (by simp)
    have hnil : splitWhitespace (p ++ c :: []) = splitWhitespace p ++ splitWhitespace [] :=
      splitWhitespace_append_whitespace hc p []
    rw [List.append_assoc, List.singleton_append, splitWhitespace_append_whitespace hc, hnil]
    rw [List.append_assoc]
    rfl

theorem splitWhitespace_of_head {q : Text} (hq : ∀ c ∈ q.head?, isWhitespace c = true) (s : Text) :
    splitWhitespace (s ++ q) = splitWhitespace s ++ splitWhitespace q := by
  cases q with
  | nil =>
    rw [List.append_nil]
    exact (List.append_nil _).symm
  | cons c q =>
    have hc := hq c rfl
    have hnil : splitWhitespace ([] ++ c :: q) = splitWhitespace [] ++ splitWhitespace q :=
      splitWhitespace_append_whitespace hc [] q
    rw [splitWhitespace_append_whitespace hc, ← List.nil_append (c :: q), hnil]
    rfl

/-- Joined words are found again. -/
theorem splitWhitespace_joinWords {ws : List Text} (h : ∀ w ∈ ws, IsWord w) :
    splitWhitespace (joinWords ws) = ws := by
  induction ws with
  | nil => rfl
  | cons w ws ih =>
    rw [List.forall_mem_cons] at h
    cases ws with
    | nil => rw [joinWords, List.intercalate_singleton, h.1.splitWhitespace_eq]
    | cons w' ws =>
      rw [joinWords, List.intercalate_cons_cons, ← joinWords, List.append_assoc,
        List.singleton_append, splitWhitespace_append_cons h.1.1 h.1.2 (by decide), ih h.2]

/-- A pattern without spaces occurs in joined words if it occurs in one of them. -/
theorem infix_joinWords_iff {p : Text} (hp : p ≠ []) (hspace : ' ' ∉ p) {ws : List Text} :
    p <:+: joinWords ws ↔ ∃ w ∈ ws, p <:+: w := by
  induction ws with
  | nil => simp [joinWords, hp]
  | cons w ws ih =>
    cases ws with
    | nil => simp [joinWords]
    | cons w' ws =>
      rw [joinWords, List.intercalate_cons_cons, ← joinWords, List.append_assoc,
        List.singleton_append, infix_append_cons_iff hspace, ih]
      simp only [List.exists_mem_cons_iff]

/-- Joining adds no symbols but spaces. -/
theorem forall_mem_joinWords_iff {P : Char → Prop} (hspace : P ' ') {ws : List Text} :
    (∀ c ∈ joinWords ws, P c) ↔ ∀ w ∈ ws, ∀ c ∈ w, P c := by
  induction ws with
  | nil => simp [joinWords]
  | cons w ws ih =>
    cases ws with
    | nil => simp [joinWords]
    | cons w' ws =>
      rw [joinWords, List.intercalate_cons_cons, ← joinWords, List.append_assoc,
        List.singleton_append, List.forall_mem_append, List.forall_mem_cons, ih,
        List.forall_mem_cons (a := w)]
      simp only [hspace, true_and]

end Text

end TrustedRelay
