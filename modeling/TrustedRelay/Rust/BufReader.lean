import TrustedRelay.Rust.Ascii
import TrustedRelay.Rust.Outcome

/-!
# Buffered reading from a stream that arrives in pieces

A `BufReader` over a socket keeps what it has read and not yet handed out. How the stream is cut
into reads is not the reader's choice: each read brings a `Chunk`, anything from one item to a
full buffer. A reader is therefore its buffer together with the reads that are still to come, and
its `pending` items are what it would return if it were read to the end.

* `readUntil_eq`: one `read_until` returns the first line of the pending items, however they are
  cut.
* `readLines_eq`: a loop that handles line after line until it is done or at the end of the stream
  has the recursion equation of such a loop. The definition counts the pending items down.
* `Reached.buffer_eq_nil_iff`: after any number of lines the buffer is empty exactly if one of the
  reads ended where the consumed part of the stream ends. This decides whether a caller who drops
  the reader and keeps the socket loses something.
* `readTextLines_of_overLines`: a loop over lines of text on a stream of UTF-8 lines is the same
  loop over the list of these lines. `overLines_of_readTextLines` is the way back.
-/

namespace TrustedRelay

variable {α : Type*} {capacity : ℕ}

/-! ### Lines -/

/-- The first line, with its delimiter, and what follows it. -/
def cutAfter [DecidableEq α] (d : α) : List α → List α × List α
  | [] => ([], [])
  | x :: s => if x = d then ([x], s) else (x :: (cutAfter d s).1, (cutAfter d s).2)

section CutAfter

variable [DecidableEq α] {d : α}

theorem cutAfter_fst_append_snd (s : List α) : (cutAfter d s).1 ++ (cutAfter d s).2 = s := by
  induction s with
  | nil => rfl
  | cons x s ih =>
    rw [cutAfter]
    split_ifs
    · rfl
    · rw [List.cons_append, ih]

/-- Only the end of the stream gives an empty line. -/
theorem cutAfter_fst_eq_nil_iff {s : List α} : (cutAfter d s).1 = [] ↔ s = [] := by
  cases s with
  | nil => simp [cutAfter]
  | cons x s =>
    rw [cutAfter]
    split_ifs <;> simp

/-- A complete line is not affected by what follows. -/
theorem cutAfter_append_of_mem {s : List α} (h : d ∈ s) (t : List α) :
    cutAfter d (s ++ t) = ((cutAfter d s).1, (cutAfter d s).2 ++ t) := by
  induction s with
  | nil => exact absurd h List.not_mem_nil
  | cons x s ih =>
    rw [List.cons_append, cutAfter, cutAfter]
    split_ifs with hx
    · rfl
    · rw [ih ((List.mem_cons.mp h).resolve_left (Ne.symm hx))]

/-- An incomplete line goes on in what follows. -/
theorem cutAfter_append_of_not_mem {s : List α} (h : d ∉ s) (t : List α) :
    cutAfter d (s ++ t) = (s ++ (cutAfter d t).1, (cutAfter d t).2) := by
  induction s with
  | nil => rfl
  | cons x s ih =>
    rw [List.mem_cons, not_or] at h
    rw [List.cons_append, cutAfter, if_neg (Ne.symm h.1), ih h.2, List.cons_append]

theorem cutAfter_of_not_mem {s : List α} (h : d ∉ s) : cutAfter d s = (s, []) := by
  have := cutAfter_append_of_not_mem h []
  simpa [cutAfter] using this

theorem cutAfter_line {l : List α} (h : d ∉ l) (rest : List α) :
    cutAfter d (l ++ d :: rest) = (l ++ [d], rest) := by
  rw [cutAfter_append_of_not_mem h, cutAfter, if_pos rfl]

end CutAfter

/-! ### The reader -/

/-- What one read brings: at least one item, and no more than fits into the buffer. -/
structure Chunk (α : Type*) (capacity : ℕ) where
  items : List α
  nonempty : items ≠ []
  length_le : items.length ≤ capacity

/-- The stream that arrives in the given reads. -/
def Chunk.join (reads : List (Chunk α capacity)) : List α := reads.flatMap Chunk.items

@[simp] theorem Chunk.join_nil : Chunk.join ([] : List (Chunk α capacity)) = [] := rfl

@[simp] theorem Chunk.join_cons (c : Chunk α capacity) (reads : List (Chunk α capacity)) :
    Chunk.join (c :: reads) = c.items ++ Chunk.join reads := rfl

@[simp] theorem Chunk.join_append (reads reads' : List (Chunk α capacity)) :
    Chunk.join (reads ++ reads') = Chunk.join reads ++ Chunk.join reads' := by
  simp [Chunk.join]

/-- A reader: what is in the buffer, and the reads still to come. -/
structure BufReader (α : Type*) (capacity : ℕ) where
  buffer : List α
  reads : List (Chunk α capacity)

namespace BufReader

/-- `BufReader::new`. -/
def new (reads : List (Chunk α capacity)) : BufReader α capacity := ⟨[], reads⟩

/-- Everything the reader can still return. -/
def pending (r : BufReader α capacity) : List α := r.buffer ++ Chunk.join r.reads

/-- `BufReader::into_inner`, as the stream that is left on the socket. The buffer is dropped. -/
def intoInner (r : BufReader α capacity) : List α := Chunk.join r.reads

@[simp] theorem pending_new (reads : List (Chunk α capacity)) :
    (new reads).pending = Chunk.join reads := rfl

theorem pending_eq_buffer_append (r : BufReader α capacity) :
    r.pending = r.buffer ++ r.intoInner := rfl

/-- Nothing is lost at the hand-over exactly if the buffer is empty. -/
theorem intoInner_eq_pending_iff {r : BufReader α capacity} :
    r.intoInner = r.pending ↔ r.buffer = [] := by
  rw [pending_eq_buffer_append, List.self_eq_append_left]

/-- A reader that is at its end has nothing left at all. -/
theorem eq_of_pending_eq_nil {r : BufReader α capacity} (h : r.pending = []) : r = ⟨[], []⟩ := by
  obtain ⟨buffer, reads⟩ := r
  obtain ⟨rfl, hjoin⟩ := List.append_eq_nil_iff.mp h
  cases reads with
  | nil => rfl
  | cons c reads => exact absurd (List.append_eq_nil_iff.mp hjoin).1 c.nonempty

variable [DecidableEq α] (d : α)

/-- Hand out the buffer up to the delimiter, reading on while there is none. -/
def fill : List α → List (Chunk α capacity) → List α × BufReader α capacity
  | buffer, [] => ((cutAfter d buffer).1, ⟨(cutAfter d buffer).2, []⟩)
  | buffer, c :: reads =>
    if d ∈ buffer then ((cutAfter d buffer).1, ⟨(cutAfter d buffer).2, c :: reads⟩)
    else (buffer ++ (fill c.items reads).1, (fill c.items reads).2)

/-- `read_until`: the items up to and including the delimiter, or all of them. -/
def readUntil (r : BufReader α capacity) : List α × BufReader α capacity := fill d r.buffer r.reads

/-- How the stream is cut into reads does not show in what is returned. -/
theorem readUntil_eq (r : BufReader α capacity) :
    ((r.readUntil d).1, (r.readUntil d).2.pending) = cutAfter d r.pending := by
  obtain ⟨buffer, reads⟩ := r
  simp only [readUntil, pending]
  induction reads generalizing buffer with
  | nil => simp [fill]
  | cons c reads ih =>
    rw [fill, Chunk.join_cons]
    split_ifs with hd
    · rw [cutAfter_append_of_mem hd]
      rfl
    · rw [cutAfter_append_of_not_mem hd, ← ih c.items]

theorem readUntil_fst (r : BufReader α capacity) : (r.readUntil d).1 = (cutAfter d r.pending).1 :=
  congrArg Prod.fst (readUntil_eq d r)

theorem pending_readUntil (r : BufReader α capacity) :
    (r.readUntil d).2.pending = (cutAfter d r.pending).2 :=
  congrArg Prod.snd (readUntil_eq d r)

/-! ### Loops over lines -/

section Loop

variable {σ ρ : Type*} (onEof : σ → ρ) (onLine : σ → List α → σ ⊕ ρ)

/-- At most `fuel` rounds of a loop over lines. A round goes on with a new state or ends with a
result, and the end of the stream ends the loop too. -/
def readLoop : ℕ → σ → BufReader α capacity → ρ × BufReader α capacity
  | 0, s, r => (onEof s, r)
  | fuel + 1, s, r =>
    if (r.readUntil d).1 = [] then (onEof s, (r.readUntil d).2)
    else match onLine s (r.readUntil d).1 with
      | .inl s' => readLoop fuel s' (r.readUntil d).2
      | .inr out => (out, (r.readUntil d).2)

/-- The loop over lines. Every round takes something off the pending items. -/
def readLines (s : σ) (r : BufReader α capacity) : ρ × BufReader α capacity :=
  readLoop d onEof onLine r.pending.length s r

theorem length_pending_readUntil {r : BufReader α capacity} (h : (r.readUntil d).1 ≠ []) :
    (r.readUntil d).2.pending.length < r.pending.length := by
  have hsplit := cutAfter_fst_append_snd (d := d) r.pending
  rw [← readUntil_fst, ← pending_readUntil] at hsplit
  have hpos := List.length_pos_of_ne_nil h
  have hlen := congrArg List.length hsplit
  rw [List.length_append] at hlen
  omega

/-- Rounds beyond the number of pending items change nothing. -/
theorem readLoop_eq_readLines {fuel : ℕ} (s : σ) {r : BufReader α capacity}
    (h : r.pending.length ≤ fuel) :
    readLoop d onEof onLine fuel s r = readLines d onEof onLine s r := by
  have key : ∀ (m n : ℕ) (s : σ) (r : BufReader α capacity), r.pending.length ≤ m →
      r.pending.length ≤ n → readLoop d onEof onLine m s r = readLoop d onEof onLine n s r := by
    -- both sides read the same line, and then have at least as much fuel as is pending
    intro m
    induction m with
    | zero =>
      intro n s r hm _
      have hr := eq_of_pending_eq_nil (List.eq_nil_of_length_eq_zero (Nat.le_zero.mp hm))
      subst hr
      cases n with
      | zero => rfl
      | succ n => rfl
    | succ m ih =>
      intro n s r hm hn
      cases n with
      | zero =>
        have hr := eq_of_pending_eq_nil (List.eq_nil_of_length_eq_zero (Nat.le_zero.mp hn))
        subst hr
        rfl
      | succ n =>
        rw [readLoop, readLoop]
        split_ifs with hl
        · rfl
        · have hlt := length_pending_readUntil d hl
          cases onLine s (r.readUntil d).1 with
          | inl s' => exact ih n s' _ (by omega) (by omega)
          | inr out => rfl
  exact key fuel _ s r h (Nat.le_refl _)

/-- The equation of the loop. -/
theorem readLines_eq (s : σ) (r : BufReader α capacity) :
    readLines d onEof onLine s r =
      if (r.readUntil d).1 = [] then (onEof s, (r.readUntil d).2)
      else match onLine s (r.readUntil d).1 with
        | .inl s' => readLines d onEof onLine s' (r.readUntil d).2
        | .inr out => (out, (r.readUntil d).2) := by
  rw [← readLoop_eq_readLines d onEof onLine s (Nat.le_succ _), readLoop]
  split_ifs with hl
  · rfl
  · have hlt := length_pending_readUntil d hl
    cases onLine s (r.readUntil d).1 with
    | inl s' => exact readLoop_eq_readLines d onEof onLine s' hlt.le
    | inr out => rfl

end Loop

/-! ### Where the reader stands -/

/-- What a reader of `reads` can look like between two lines: everything it read is handed out, or
it is inside the last chunk it read, past the start of it. -/
inductive Reached (reads : List (Chunk α capacity)) : BufReader α capacity → Prop
  | drained (read rest : List (Chunk α capacity)) (h : read ++ rest = reads) :
    Reached reads ⟨[], rest⟩
  | inside (read : List (Chunk α capacity)) (c : Chunk α capacity) (rest : List (Chunk α capacity))
      (front back : List α) (h : read ++ c :: rest = reads) (hc : front ++ back = c.items)
      (hfront : front ≠ []) : Reached reads ⟨back, rest⟩

omit [DecidableEq α] in
theorem Reached.new (reads : List (Chunk α capacity)) : Reached reads (new reads) :=
  .drained [] reads rfl

variable {d}

/-- While a line is put together the buffer is some end of the last chunk, possibly all of it. -/
private theorem reached_fill {reads rest : List (Chunk α capacity)} {buffer : List α}
    (h : (buffer = [] ∧ ∃ read, read ++ rest = reads) ∨
      ∃ read c front, read ++ c :: rest = reads ∧ front ++ buffer = c.items) :
    Reached reads (fill d buffer rest).2 := by
  induction rest generalizing buffer with
  | nil =>
    rw [fill]
    by_cases hd : d ∈ buffer
    · obtain ⟨rfl, -⟩ | ⟨read, c, front, hread, hc⟩ := h
      · exact absurd hd List.not_mem_nil
      · refine .inside read c [] (front ++ (cutAfter d buffer).1) _ hread ?_ ?_
        · rw [List.append_assoc, cutAfter_fst_append_snd, hc]
        · simp [cutAfter_fst_eq_nil_iff, List.ne_nil_of_mem hd]
    · -- the stream ends inside a line, which is handed out with the rest
      rw [cutAfter_of_not_mem hd]
      exact .drained reads [] (List.append_nil reads)
  | cons c' rest ih =>
    rw [fill]
    split_ifs with hd
    · obtain ⟨rfl, -⟩ | ⟨read, c, front, hread, hc⟩ := h
      · exact absurd hd List.not_mem_nil
      · refine .inside read c (c' :: rest) (front ++ (cutAfter d buffer).1) _ hread ?_ ?_
        · rw [List.append_assoc, cutAfter_fst_append_snd, hc]
        · simp [cutAfter_fst_eq_nil_iff, List.ne_nil_of_mem hd]
    · refine ih (Or.inr ?_)
      obtain ⟨-, read, hread⟩ | ⟨read, c, -, hread, -⟩ := h
      · exact ⟨read, c', [], hread, rfl⟩
      · exact ⟨read ++ [c], c', [], by simpa using hread, rfl⟩

theorem Reached.readUntil {reads : List (Chunk α capacity)} {r : BufReader α capacity}
    (h : Reached reads r) : Reached reads (r.readUntil d).2 := by
  cases h with
  | drained read rest hread => exact reached_fill (Or.inl ⟨rfl, read, hread⟩)
  | inside read c rest front back hread hc _ =>
    exact reached_fill (Or.inr ⟨read, c, front, hread, hc⟩)

theorem Reached.readLines {σ ρ : Type*} {onEof : σ → ρ} {onLine : σ → List α → σ ⊕ ρ}
    {reads : List (Chunk α capacity)} {s : σ} {r : BufReader α capacity} (h : Reached reads r) :
    Reached reads (readLines d onEof onLine s r).2 := by
  unfold BufReader.readLines
  generalize r.pending.length = fuel
  induction fuel generalizing s r with
  | zero => exact h
  | succ fuel ih =>
    rw [readLoop]
    split_ifs
    · exact h.readUntil
    · cases onLine s (r.readUntil d).1 with
      | inl s' => exact ih h.readUntil
      | inr out => exact h.readUntil

omit [DecidableEq α] in
/-- The buffer is empty exactly if some read ended where the consumed part ends. -/
theorem Reached.buffer_eq_nil_iff {reads : List (Chunk α capacity)} {r : BufReader α capacity}
    (h : Reached reads r) {consumed : List α} (hc : Chunk.join reads = consumed ++ r.pending) :
    r.buffer = [] ↔ ∃ k, Chunk.join (reads.take k) = consumed := by
  cases h with
  | drained read rest hread =>
    subst hread
    rw [Chunk.join_append] at hc
    have heq : Chunk.join read = consumed := List.append_cancel_right hc
    exact iff_of_true rfl ⟨read.length, by rw [List.take_left, heq]⟩
  | inside read c rest front back hread hitems hfront =>
    subst hread
    have heq : Chunk.join read ++ front = consumed := by
      rw [Chunk.join_append, Chunk.join_cons, ← hitems] at hc
      have hcut : (Chunk.join read ++ front) ++ (back ++ Chunk.join rest) =
          consumed ++ (back ++ Chunk.join rest) := by simpa [pending] using hc
      exact List.append_cancel_right hcut
    constructor
    · rintro rfl
      refine ⟨(read ++ [c]).length, ?_⟩
      have htake : (read ++ c :: rest).take (read ++ [c]).length = read ++ [c] := by
        rw [List.append_cons read c rest]
        exact List.take_left
      rw [htake, Chunk.join_append, Chunk.join_cons, ← hitems, ← heq]
      simp
    · rintro ⟨k, hk⟩
      -- the first `k` reads reach past the chunk's start, so they hold all of it
      have hlt : read.length < k := by
        by_contra hle
        rw [List.take_append_of_le_length (Nat.le_of_not_lt hle)] at hk
        have hlen := congrArg List.length (congrArg Chunk.join (List.take_append_drop k read))
        rw [Chunk.join_append, hk, ← heq] at hlen
        have hpos := List.length_pos_of_ne_nil hfront
        simp only [List.length_append] at hlen
        omega
      obtain ⟨m, rfl⟩ := Nat.exists_eq_add_of_lt hlt
      rw [Nat.add_assoc, List.take_length_add_append, List.take_succ_cons, Chunk.join_append,
        Chunk.join_cons, ← hitems, ← heq, List.append_assoc] at hk
      have hback := List.append_cancel_left hk
      rw [List.append_right_eq_self, List.append_eq_nil_iff] at hback
      exact hback.1

/-! ### Lines of text -/

section Text

open Delimited

variable {σ ρ : Type*}

def invalidUtf8 : Text := "stream did not contain valid UTF-8".toList

/-- `read_line`. Only at the end of the stream is the line empty. -/
def readLine (r : BufReader UInt8 capacity) : Except Text Text × BufReader UInt8 capacity :=
  (okOr (Text.fromUtf8 (r.readUntil 10).1) invalidUtf8, (r.readUntil 10).2)

/-- A loop that reads line after line with `read_line` and gives up on a line it cannot decode. -/
def readTextLines (onEof : σ → ρ) (onLine : σ → Text → σ ⊕ ρ) :
    σ → BufReader UInt8 capacity → Except Text ρ × BufReader UInt8 capacity :=
  readLines 10 (fun s => .ok (onEof s)) fun s bytes =>
    match Text.fromUtf8 bytes with
    | none => .inr (.error invalidUtf8)
    | some line => (onLine s line).map id .ok

/-- The same loop over a list of lines, with the lines it leaves; `none` if it does not end. -/
def overLines (onLine : σ → Text → σ ⊕ ρ) : σ → List Text → Option (ρ × List Text)
  | _, [] => none
  | s, l :: ls =>
    match onLine s (l ++ ['\n']) with
    | .inl s' => overLines onLine s' ls
    | .inr out => some (out, ls)

/-- One line of text is read as such. -/
theorem readUntil_of_line {r : BufReader UInt8 capacity} {l : Text} {rest : Bytes} (hl : '\n' ∉ l)
    (h : r.pending = Text.asBytes l ++ 10 :: rest) :
    (r.readUntil 10).1 = Text.asBytes (l ++ ['\n']) ∧ (r.readUntil 10).2.pending = rest := by
  have hcut : cutAfter 10 r.pending = (Text.asBytes l ++ [10], rest) := by
    rw [h]
    exact cutAfter_line (fun hmem => hl (Text.mem_of_mem_asBytes (c := '\n') (by decide) hmem)) rest
  rw [readUntil_fst, pending_readUntil, hcut, Text.asBytes_append]
  exact ⟨rfl, rfl⟩

theorem readLine_of_line {r : BufReader UInt8 capacity} {l : Text} {rest : Bytes} (hl : '\n' ∉ l)
    (h : r.pending = Text.asBytes l ++ 10 :: rest) :
    (readLine r).1 = .ok (l ++ ['\n']) ∧ (readLine r).2.pending = rest := by
  obtain ⟨hline, hpending⟩ := readUntil_of_line hl h
  rw [readLine, hline, Text.fromUtf8_asBytes]
  exact ⟨rfl, hpending⟩

theorem asBytes_unlines_cons (l : Text) (ls : List Text) (rest : Bytes) :
    Text.asBytes (unlines '\n' (l :: ls)) ++ rest =
      Text.asBytes l ++ 10 :: (Text.asBytes (unlines '\n' ls) ++ rest) := by
  have hnl : Text.asBytes ('\n' :: unlines '\n' ls) = 10 :: Text.asBytes (unlines '\n' ls) := rfl
  rw [unlines_cons, Text.asBytes_append, hnl, List.append_assoc, List.cons_append]

/-- The loop's round on a line of text. -/
theorem readTextLines_line {onEof : σ → ρ} {onLine : σ → Text → σ ⊕ ρ} {s : σ}
    {r : BufReader UInt8 capacity} {l : Text} {rest : Bytes} (hl : '\n' ∉ l)
    (h : r.pending = Text.asBytes l ++ 10 :: rest) :
    readTextLines onEof onLine s r =
      match onLine s (l ++ ['\n']) with
      | .inl s' => readTextLines onEof onLine s' (r.readUntil 10).2
      | .inr out => (.ok out, (r.readUntil 10).2) := by
  have hline := (readUntil_of_line hl h).1
  have hne : Text.asBytes (l ++ ['\n']) ≠ [] := by
    rw [Text.asBytes_append]
    exact List.append_ne_nil_of_right_ne_nil _ (by decide)
  rw [readTextLines, readLines_eq, hline, if_neg hne, Text.fromUtf8_asBytes]
  dsimp only
  cases onLine s (l ++ ['\n']) with
  | inl s' => rfl
  | inr out => rfl

/-- Loop rule: on a stream of lines the loop does what it does on the list of them. -/
theorem readTextLines_of_overLines (onEof : σ → ρ) {onLine : σ → Text → σ ⊕ ρ} {s : σ}
    {r : BufReader UInt8 capacity} {ls ls' : List Text} {rest : Bytes} {out : ρ}
    (hls : ∀ l ∈ ls, '\n' ∉ l) (hr : r.pending = Text.asBytes (unlines '\n' ls) ++ rest)
    (h : overLines onLine s ls = some (out, ls')) :
    (readTextLines onEof onLine s r).1 = .ok out ∧
      (readTextLines onEof onLine s r).2.pending = Text.asBytes (unlines '\n' ls') ++ rest := by
  induction ls generalizing s r with
  | nil => simp [overLines] at h
  | cons l ls ih =>
    have hl := hls l List.mem_cons_self
    rw [asBytes_unlines_cons] at hr
    have hpending := (readUntil_of_line hl hr).2
    rw [readTextLines_line hl hr]
    rw [overLines] at h
    cases hon : onLine s (l ++ ['\n']) with
    | inl s' =>
      rw [hon] at h
      exact ih (fun m hm => hls m (List.mem_cons_of_mem _ hm)) hpending h
    | inr out' =>
      rw [hon] at h
      obtain ⟨rfl, rfl⟩ := Prod.mk.inj (Option.some.inj h)
      exact ⟨rfl, hpending⟩

/-- A line that was read is complete, or the last one. -/
theorem readUntil_cases {r : BufReader UInt8 capacity} {line : Text}
    (h : Text.fromUtf8 (r.readUntil 10).1 = some line) :
    (∃ l, line = l ++ ['\n'] ∧ '\n' ∉ l ∧
        r.pending = Text.asBytes l ++ 10 :: (r.readUntil 10).2.pending) ∨
      ('\n' ∉ line ∧ (r.readUntil 10).2.pending = []) := by
  have hbytes := Text.asBytes_of_fromUtf8 h
  rw [readUntil_fst] at hbytes
  rw [pending_readUntil]
  by_cases hnl : 10 ∈ r.pending
  · obtain ⟨a, b, hab, ha⟩ := List.eq_append_cons_of_mem hnl
    rw [hab, cutAfter_line ha] at hbytes ⊢
    obtain ⟨l, v, rfl, rfl, hv⟩ := Text.exists_split_of_asBytes (c := '\n') (by decide) ha hbytes
    obtain rfl : v = [] := Text.asBytes_injective hv
    exact .inl ⟨l, rfl, fun hmem => ha (Text.mem_asBytes_of_mem (by decide) hmem), rfl⟩
  · rw [cutAfter_of_not_mem hnl] at hbytes ⊢
    have hall : Text.asBytes line = r.pending := hbytes
    refine .inr ⟨fun hmem => hnl ?_, rfl⟩
    rw [← hall]
    exact Text.mem_asBytes_of_mem (c := '\n') (by decide) hmem

/-- A loop that only complete lines end has done what it does on the list of them, or the stream has
ended. -/
theorem overLines_of_readTextLines {onEof : σ → ρ} {onLine : σ → Text → σ ⊕ ρ}
    (hends : ∀ s line out, onLine s line = .inr out → '\n' ∈ line) {s : σ}
    {r : BufReader UInt8 capacity} {out : ρ} (h : (readTextLines onEof onLine s r).1 = .ok out) :
    (∃ s', out = onEof s') ∨ ∃ ls rest, (∀ l ∈ ls, '\n' ∉ l) ∧
      r.pending = Text.asBytes (unlines '\n' ls) ++ rest ∧
      overLines onLine s ls = some (out, []) := by
  induction hn : r.pending.length using Nat.strong_induction_on generalizing s r with
  | _ n ih =>
    rw [readTextLines, readLines_eq] at h
    split_ifs at h with hl
    · exact .inl ⟨s, (Except.ok.inj h).symm⟩
    · have hlt := length_pending_readUntil 10 hl
      cases htext : Text.fromUtf8 (r.readUntil 10).1 with
      | none =>
        rw [htext] at h
        cases h
      | some line =>
        rw [htext] at h
        dsimp only at h
        cases hon : onLine s line with
        | inl s' =>
          rw [hon] at h
          rcases ih _ (hn ▸ hlt) h rfl with heof | ⟨ls, rest, hls, hpending, hover⟩
          · exact .inl heof
          · rcases readUntil_cases htext with ⟨l, rfl, hl', hsplit⟩ | ⟨-, hend⟩
            · refine .inr ⟨l :: ls, rest, List.forall_mem_cons.mpr ⟨hl', hls⟩, ?_, ?_⟩
              · rw [hsplit, hpending, asBytes_unlines_cons]
              · rw [overLines, hon]
                exact hover
            · -- behind the last line there are no lines that end the loop
              rw [hend] at hpending
              cases ls with
              | nil => cases hover
              | cons l ls =>
                rw [asBytes_unlines_cons] at hpending
                exact absurd hpending.symm
                  (List.append_ne_nil_of_right_ne_nil _ (List.cons_ne_nil _ _))
        | inr out' =>
          rw [hon] at h
          obtain rfl : out' = out := Except.ok.inj h
          rcases readUntil_cases htext with ⟨l, rfl, hl', hsplit⟩ | ⟨hnl, -⟩
          · refine .inr ⟨[l], (r.readUntil 10).2.pending, List.forall_mem_singleton.mpr hl', ?_, ?_⟩
            · exact hsplit.trans (asBytes_unlines_cons l [] _).symm
            · rw [overLines, hon]
          · exact absurd (hends _ _ _ hon) hnl

theorem Reached.readLine {reads : List (Chunk UInt8 capacity)} {r : BufReader UInt8 capacity}
    (h : Reached reads r) : Reached reads r.readLine.2 := h.readUntil

theorem Reached.readTextLines {onEof : σ → ρ} {onLine : σ → Text → σ ⊕ ρ}
    {reads : List (Chunk UInt8 capacity)} {s : σ} {r : BufReader UInt8 capacity}
    (h : Reached reads r) : Reached reads (readTextLines onEof onLine s r).2 := h.readLines

end Text

end BufReader

end TrustedRelay
