import TrustedRelay.Rust.BufReader

/-!
# Lines as they arrive

A loop over lines waits while its stream has not brought the next complete line. `arrived` says what
the loop has done with the bytes that are there: nothing final yet, or the result and the bytes
behind the line that ended it. More bytes do not change a result (`arrived_append`), so there is
one moment at which the loop ends, and `readTextLines_of_arrived` says that a `BufReader` ends it
there too: with the chunk that completes the last line, of which it keeps what follows the line,
and without touching the chunks after it.
-/

namespace TrustedRelay

namespace BufReader

open Delimited

variable {σ ρ : Type*} {capacity : ℕ}

section Arrived

variable (onLine : σ → Text → σ ⊕ ρ)

/-- One round on a line that has arrived. -/
def lineRound (s : σ) (bytes : Bytes) : σ ⊕ Except Text ρ :=
  match Text.fromUtf8 bytes with
  | none => .inr (.error invalidUtf8)
  | some line => (onLine s line).map id .ok

/-- The loop over the complete lines of some bytes. -/
def arrivedLoop : ℕ → σ → Bytes → Option (Except Text ρ × Bytes)
  | 0, _, _ => none
  | fuel + 1, s, b =>
    if 10 ∈ b then
      match lineRound onLine s (cutAfter 10 b).1 with
      | .inl s' => arrivedLoop fuel s' (cutAfter 10 b).2
      | .inr out => some (out, (cutAfter 10 b).2)
    else none

/-- What the loop has made of the bytes that have arrived: nothing yet, or a result and what is
left behind the line that ended it. -/
def arrived (s : σ) (b : Bytes) : Option (Except Text ρ × Bytes) := arrivedLoop onLine b.length s b

variable {onLine} {s : σ} {b b' : Bytes} {out : Except Text ρ} {left : Bytes}

theorem cutAfter_ne_nil (h : (10 : UInt8) ∈ b) : (cutAfter 10 b).1 ≠ [] := by
  rw [Ne, cutAfter_fst_eq_nil_iff]
  exact List.ne_nil_of_mem h

theorem length_cutAfter_snd (h : (10 : UInt8) ∈ b) : (cutAfter 10 b).2.length < b.length := by
  have hsplit := congrArg List.length (cutAfter_fst_append_snd (d := (10 : UInt8)) b)
  have hpos := List.length_pos_of_ne_nil (cutAfter_ne_nil h)
  rw [List.length_append] at hsplit
  omega

theorem arrivedLoop_eq {n m : ℕ} (hn : b.length ≤ n) (hm : b.length ≤ m) :
    arrivedLoop onLine n s b = arrivedLoop onLine m s b := by
  induction n generalizing m s b with
  | zero =>
    obtain rfl := List.eq_nil_of_length_eq_zero (Nat.le_zero.mp hn)
    cases m <;> rfl
  | succ n ih =>
    cases m with
    | zero =>
      obtain rfl := List.eq_nil_of_length_eq_zero (Nat.le_zero.mp hm)
      rfl
    | succ m =>
      rw [arrivedLoop, arrivedLoop]
      split_ifs with hline
      · have hlt := length_cutAfter_snd hline
        cases lineRound onLine s (cutAfter 10 b).1 with
        | inl s' => exact ih (by omega) (by omega)
        | inr out => rfl
      · rfl

/-- The equation of the loop. -/
theorem arrived_eq (s : σ) (b : Bytes) :
    arrived onLine s b =
      if 10 ∈ b then
        match lineRound onLine s (cutAfter 10 b).1 with
        | .inl s' => arrived onLine s' (cutAfter 10 b).2
        | .inr out => some (out, (cutAfter 10 b).2)
      else none := by
  rw [arrived, arrivedLoop_eq le_rfl (Nat.le_succ b.length), arrivedLoop]
  split_ifs with hline
  · have hlt := length_cutAfter_snd hline
    cases lineRound onLine s (cutAfter 10 b).1 with
    | inl s' => exact arrivedLoop_eq hlt.le le_rfl
    | inr out => rfl
  · rfl

/-- A result is not changed by what arrives later. -/
theorem arrived_append (h : arrived onLine s b = some (out, left)) (b' : Bytes) :
    arrived onLine s (b ++ b') = some (out, left ++ b') := by
  induction hn : b.length using Nat.strong_induction_on generalizing s b with
  | _ n ih =>
    rw [arrived_eq] at h
    split_ifs at h with hline
    rw [arrived_eq, if_pos (List.mem_append_left b' hline), cutAfter_append_of_mem hline]
    cases hround : lineRound onLine s (cutAfter 10 b).1 with
    | inl s' =>
      rw [hround] at h
      exact ih _ (hn ▸ length_cutAfter_snd hline) h rfl
    | inr out' =>
      rw [hround] at h
      obtain ⟨rfl, rfl⟩ := Prod.mk.inj (Option.some.inj h)
      rfl

/-- Either the result needs bytes of the second part, or it is there after the first. -/
theorem arrived_split {rest : Bytes} (h : arrived onLine s (b ++ b') = some (out, rest)) :
    arrived onLine s b = none ∧ b' ≠ [] ∨
      ∃ left, arrived onLine s b = some (out, left) ∧ rest = left ++ b' := by
  cases hb : arrived onLine s b with
  | none =>
    refine Or.inl ⟨rfl, ?_⟩
    rintro rfl
    rw [List.append_nil, hb] at h
    cases h
  | some p =>
    obtain ⟨out', left⟩ := p
    rw [arrived_append hb b'] at h
    obtain ⟨rfl, rfl⟩ := Prod.mk.inj (Option.some.inj h)
    exact Or.inr ⟨left, rfl, rfl⟩

/-- On lines of text the loop does what it does on the list of them. -/
theorem arrived_of_overLines {ls ls' : List Text} {o : ρ} (hls : ∀ l ∈ ls, '\n' ∉ l)
    (h : overLines onLine s ls = some (o, ls')) (rest : Bytes) :
    arrived onLine s (Text.asBytes (unlines '\n' ls) ++ rest) =
      some (.ok o, Text.asBytes (unlines '\n' ls') ++ rest) := by
  induction ls generalizing s with
  | nil => cases h
  | cons l ls ih =>
    obtain ⟨hl, hls⟩ := List.forall_mem_cons.mp hls
    have hnl : (10 : UInt8) ∉ Text.asBytes l := fun hmem =>
      hl (Text.mem_of_mem_asBytes (c := '\n') (by decide) hmem)
    have hround : lineRound onLine s (Text.asBytes l ++ [10]) =
        (onLine s (l ++ ['\n'])).map id .ok := by
      have hbytes : Text.asBytes l ++ [10] = Text.asBytes (l ++ ['\n']) := by
        rw [Text.asBytes_append]
        rfl
      rw [hbytes, lineRound, Text.fromUtf8_asBytes]
    rw [asBytes_unlines_cons, arrived_eq, if_pos (by simp), cutAfter_line hnl, hround]
    rw [overLines] at h
    cases hon : onLine s (l ++ ['\n']) with
    | inl s' =>
      rw [hon] at h
      exact ih hls h
    | inr o' =>
      rw [hon] at h
      obtain ⟨rfl, rfl⟩ := Prod.mk.inj (Option.some.inj h)
      rfl

end Arrived

/-! ### The reader -/

section Reader

variable {onEof : σ → ρ} {onLine : σ → Text → σ ⊕ ρ} {s : σ} {out : Except Text ρ}
  {buffer left : Bytes} {c : Chunk UInt8 capacity} {front back reads : List (Chunk UInt8 capacity)}

theorem readTextLines_eq (s : σ) (r : BufReader UInt8 capacity) :
    readTextLines onEof onLine s r =
      if (r.readUntil 10).1 = [] then (.ok (onEof s), (r.readUntil 10).2)
      else match lineRound onLine s (r.readUntil 10).1 with
        | .inl s' => readTextLines onEof onLine s' (r.readUntil 10).2
        | .inr out => (out, (r.readUntil 10).2) := by
  rw [readTextLines, readLines_eq]
  unfold lineRound
  cases Text.fromUtf8 (r.readUntil 10).1 with
  | none => rfl
  | some line =>
    dsimp only
    cases onLine s line <;> rfl

/-- A loop that does the same up to a change of its states and results has the same result, up to
that change. -/
theorem readTextLines_map {σ' ρ' : Type*} {onEof' : σ' → ρ'} {onLine' : σ' → Text → σ' ⊕ ρ'}
    {f : σ → σ'} {g : ρ → ρ'} (hEof : ∀ s, onEof' (f s) = g (onEof s))
    (hLine : ∀ s l, onLine' (f s) l = (onLine s l).map f g) (s : σ) (r : BufReader UInt8 capacity) :
    readTextLines onEof' onLine' (f s) r =
      ((readTextLines onEof onLine s r).1.map g, (readTextLines onEof onLine s r).2) := by
  induction hn : r.pending.length using Nat.strong_induction_on generalizing s r with
  | _ n ih =>
    rw [readTextLines_eq, readTextLines_eq s]
    split_ifs with hl
    · rw [hEof]
      rfl
    · have hlt := length_pending_readUntil 10 hl
      rw [lineRound, lineRound]
      cases Text.fromUtf8 (r.readUntil 10).1 with
      | none => rfl
      | some line =>
        dsimp only
        rw [hLine]
        cases onLine s line with
        | inl s' => exact ih _ (hn ▸ hlt) s' _ rfl
        | inr out => rfl

/-- The same for the loop over a list of lines. -/
theorem overLines_map {σ' ρ' : Type*} {onLine' : σ' → Text → σ' ⊕ ρ'} (f : σ → σ') (g : ρ → ρ')
    (hLine : ∀ s l, onLine' (f s) l = (onLine s l).map f g) (s : σ) (ls : List Text) :
    overLines onLine' (f s) ls = (overLines onLine s ls).map (Prod.map g id) := by
  induction ls generalizing s with
  | nil => rfl
  | cons l ls ih =>
    rw [overLines, overLines, hLine]
    cases onLine s (l ++ ['\n']) with
    | inl s' => exact ih s'
    | inr out => rfl

/-- A line that is in the buffer is taken from it. -/
theorem readUntil_of_mem (h : (10 : UInt8) ∈ buffer) :
    (BufReader.mk buffer reads).readUntil 10 =
      ((cutAfter 10 buffer).1, ⟨(cutAfter 10 buffer).2, reads⟩) := by
  cases reads with
  | nil => rfl
  | cons c reads => rw [readUntil, fill, if_pos h]

/-- While there is no complete line in the buffer, the next chunk might as well be in it. -/
theorem readUntil_absorb (h : (10 : UInt8) ∉ buffer) :
    (BufReader.mk buffer (c :: reads)).readUntil 10 =
      (BufReader.mk (buffer ++ c.items) reads).readUntil 10 := by
  rw [readUntil, readUntil, fill, if_neg h]
  cases reads with
  | nil => rw [fill, fill, cutAfter_append_of_not_mem h]
  | cons c' reads =>
    by_cases hc : (10 : UInt8) ∈ c.items
    · rw [fill, fill, if_pos hc, if_pos (List.mem_append_right _ hc), cutAfter_append_of_not_mem h]
    · rw [fill, fill, if_neg hc, if_neg (by simp [h, hc]), List.append_assoc]

/-- A loop that ends on what is in the buffer reads no further. -/
theorem readTextLines_of_buffer (h : arrived onLine s buffer = some (out, left)) :
    readTextLines onEof onLine s ⟨buffer, reads⟩ = (out, ⟨left, reads⟩) := by
  induction hn : buffer.length using Nat.strong_induction_on generalizing s buffer with
  | _ n ih =>
    rw [arrived_eq] at h
    split_ifs at h with hline
    rw [readTextLines_eq, readUntil_of_mem hline, if_neg (cutAfter_ne_nil hline)]
    dsimp only
    cases hround : lineRound onLine s (cutAfter 10 buffer).1 with
    | inl s' =>
      rw [hround] at h
      exact ih _ (hn ▸ length_cutAfter_snd hline) h rfl
    | inr out' =>
      rw [hround] at h
      obtain ⟨rfl, rfl⟩ := Prod.mk.inj (Option.some.inj h)
      rfl

/-- A loop that does not end on what is in the buffer reads the next chunk. -/
theorem readTextLines_absorb (h : arrived onLine s buffer = none) :
    readTextLines onEof onLine s ⟨buffer, c :: reads⟩ =
      readTextLines onEof onLine s ⟨buffer ++ c.items, reads⟩ := by
  induction hn : buffer.length using Nat.strong_induction_on generalizing s buffer with
  | _ n ih =>
    rw [arrived_eq] at h
    by_cases hline : (10 : UInt8) ∈ buffer
    · rw [if_pos hline] at h
      have hne : (cutAfter 10 buffer).1 ≠ [] := cutAfter_ne_nil hline
      rw [readTextLines_eq, readTextLines_eq (r := ⟨buffer ++ c.items, reads⟩),
        readUntil_of_mem hline, readUntil_of_mem (List.mem_append_left _ hline),
        cutAfter_append_of_mem hline, if_neg hne, if_neg hne]
      dsimp only
      cases hround : lineRound onLine s (cutAfter 10 buffer).1 with
      | inl s' =>
        rw [hround] at h
        exact ih _ (hn ▸ length_cutAfter_snd hline) h rfl
      | inr out =>
        rw [hround] at h
        cases h
    · rw [readTextLines_eq, readTextLines_eq (r := ⟨buffer ++ c.items, reads⟩),
        readUntil_absorb hline]

/-- Chunks without a result might as well be in the buffer. -/
theorem readTextLines_absorb_join
    (h : arrived onLine s (buffer ++ Chunk.join front) = none) :
    readTextLines onEof onLine s ⟨buffer, front ++ reads⟩ =
      readTextLines onEof onLine s ⟨buffer ++ Chunk.join front, reads⟩ := by
  induction front generalizing buffer with
  | nil => rw [List.nil_append, Chunk.join_nil, List.append_nil]
  | cons d front ih =>
    rw [Chunk.join_cons, ← List.append_assoc] at h ⊢
    have hbuffer : arrived onLine s buffer = none := by
      cases hb : arrived onLine s buffer with
      | none => rfl
      | some p =>
        rw [List.append_assoc, arrived_append hb] at h
        cases h
    rw [List.cons_append, readTextLines_absorb hbuffer, ih h]

/-- The reader ends the loop with the chunk that completes the last line. It has what follows the
line in its buffer, and the later chunks are still to come. -/
theorem readTextLines_of_arrived (hfront : arrived onLine s (Chunk.join front) = none)
    (h : arrived onLine s (Chunk.join front ++ c.items) = some (out, left)) :
    readTextLines onEof onLine s (BufReader.new (front ++ c :: back)) = (out, ⟨left, back⟩) := by
  have hjoin : arrived onLine s ([] ++ Chunk.join front) = none := hfront
  rw [BufReader.new, readTextLines_absorb_join hjoin, List.nil_append, readTextLines_absorb hfront]
  exact readTextLines_of_buffer h

/-- At the end of a stream that gave no result, the reader has all of it in its buffer. -/
theorem readTextLines_of_not_arrived (h : arrived onLine s (Chunk.join reads) = none) :
    readTextLines onEof onLine s (BufReader.new reads) =
      readTextLines onEof onLine s (⟨Chunk.join reads, []⟩ : BufReader UInt8 capacity) := by
  have hjoin : arrived onLine s ([] ++ Chunk.join reads) = none := h
  rw [BufReader.new, ← List.append_nil reads, readTextLines_absorb_join hjoin, List.append_nil]
  rfl

end Reader

end BufReader

end TrustedRelay
