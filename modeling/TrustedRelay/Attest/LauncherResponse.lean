import TrustedRelay.Attest.Types
import TrustedRelay.Rust.Scan
import TrustedRelay.Rust.Usize

/-!
# The token launcher's response

The reader of the launcher's HTTP response: the head, and a body that is plain or in chunks. The
chunk decoder walks over the body by positions; `checks` says whether the build has overflow checks
(see `usizeAdd`). The walk is also stated on the body alone (`Follows`), and each step of the code
is shown to be one of its steps.

`launcherParser_safe_iff` says exactly when the reader does not panic: unless a chunk size ends its
chunk one or two bytes below `2 ^ 64`, since only the first of two additions is checked.
-/

namespace TrustedRelay

namespace Launcher

/-! ### Chunks -/

def crlf : Bytes := [13, 10]

def failed (msg : String) : AttestError := .generationFailed msg.toList

/-- The header of a chunk: where its data starts, and its size. -/
def chunkHeader (checks : Bool) (body : Slice) (pos : ℕ) : Outcome AttestError (ℕ × ℕ) := do
  let rest ← body.from pos
  let idx ← Outcome.lift (okOr (position crlf rest.1)
    (failed "chunked launcher token response has unterminated chunk header"))
  let lineEnd ← usizeAdd checks pos idx
  let line ← Bytes.index body.1 pos lineEnd
  let sizeLine ← Outcome.lift (okOr (Text.fromUtf8 line)
    (failed "chunked launcher token response chunk header is not UTF-8: "))
  let sizeHex := Text.trim (Text.firstPiece sizeLine ';')
  let size ← Outcome.lift ((usizeFromHex sizeHex).mapError fun e => AttestError.generationFailed
    ("chunked launcher token response has invalid chunk size '".toList ++ sizeHex ++ "': ".toList ++
      e))
  let dataStart ← usizeAdd checks lineEnd 2
  .ok (dataStart, size)

/-- The data of a chunk, and the position behind the chunk. -/
def chunkData (checks : Bool) (body : Slice) (pos size : ℕ) : Outcome AttestError (ℕ × Bytes) := do
  let chunkEnd ← Outcome.lift (okOr (usizeCheckedAdd pos size)
    (failed "chunked launcher token response chunk size overflow"))
  let next ← usizeAdd checks chunkEnd 2
  Outcome.lift (ensure (next ≤ body.1.length)
    (failed "chunked launcher token response chunk is truncated"))
  let terminator ← Bytes.index body.1 chunkEnd next
  Outcome.lift (ensure (terminator = crlf)
    (failed "chunked launcher token response chunk is truncated"))
  let data ← Bytes.index body.1 pos chunkEnd
  .ok (next, data)

/-- One turn of the loop: a chunk of size zero ends it. -/
def chunkStep (checks : Bool) (body : Slice) (pos : ℕ) :
    Outcome AttestError (Option (ℕ × Bytes)) := do
  let header ← chunkHeader checks body pos
  if header.2 = 0 then .ok none
  else do
    let chunk ← chunkData checks body header.1 header.2
    .ok (some chunk)

/-- There is a chunk header at `pos`: a line that gives the size. -/
def ChunkAt (body : Slice) (pos dataStart size : ℕ) : Prop :=
  ∃ idx line, position crlf (body.1.drop pos) = some idx ∧
    Text.fromUtf8 (Bytes.range body.1 pos (pos + idx)) = some line ∧
    usizeFromHex (Text.trim (Text.firstPiece line ';')) = .ok size ∧ pos + idx + 2 = dataStart

section Steps

variable {checks : Bool} {body : Slice} {pos dataStart size next : ℕ} {data : Bytes}

theorem crlf_ne_nil : crlf ≠ [] := by decide

/-- A line end lies in the body. -/
theorem lineEnd_le {idx : ℕ} (h : position crlf (body.1.drop pos) = some idx) :
    pos + idx + 2 ≤ body.1.length := by
  have hlt := position_lt crlf_ne_nil h
  have hcrlf : crlf.length = 2 := rfl
  rw [List.length_drop, hcrlf] at hlt
  omega

theorem ChunkAt.bounds (h : ChunkAt body pos dataStart size) :
    pos + 2 ≤ dataStart ∧ dataStart ≤ body.1.length := by
  obtain ⟨idx, line, hidx, -, -, rfl⟩ := h
  have hle := lineEnd_le hidx
  omega

/-- What a header is, whatever the build. -/
theorem chunkHeader_eq_ok_iff : chunkHeader checks body pos = .ok (dataStart, size) ↔
    pos ≤ body.1.length ∧ ChunkAt body pos dataStart size := by
  have hbody := body.2
  constructor
  · intro h
    have hpos : pos ≤ body.1.length := by
      by_contra hnot
      rw [chunkHeader, Slice.from, if_neg hnot] at h
      cases h
    simp only [chunkHeader, Slice.from_eq_ok hpos, Except.bind_eq_ok_iff, Except.ok.injEq,
      Outcome.lift_eq_ok_iff, okOr_eq_ok_iff, Except.mapError_eq_ok_iff, Prod.mk.injEq] at h
    obtain ⟨_, rfl, idx, hidx, lineEnd, hend, line, hline, sizeLine, hutf8, n, hsize, start, hstart,
      rfl, rfl⟩ := h
    have hle := lineEnd_le hidx
    obtain rfl := eq_of_usizeAdd (by omega) hend
    obtain rfl := eq_of_usizeAdd (by omega) hstart
    rw [Bytes.index_eq_ok (by omega) (by omega), Except.ok.injEq] at hline
    exact ⟨hpos, idx, sizeLine, hidx, hline ▸ hutf8, hsize, rfl⟩
  · rintro ⟨hpos, idx, line, hidx, hline, hsize, rfl⟩
    have hle := lineEnd_le hidx
    simp only [chunkHeader, Slice.from_eq_ok hpos, Except.bind_eq_ok_iff, Except.ok.injEq,
      Outcome.lift_eq_ok_iff, okOr_eq_ok_iff, Except.mapError_eq_ok_iff, Prod.mk.injEq]
    exact ⟨_, rfl, idx, hidx, pos + idx, usizeAdd_eq_ok (by omega), _,
      Bytes.index_eq_ok (by omega) (by omega), line, hline, size, hsize, pos + idx + 2,
      usizeAdd_eq_ok (by omega), rfl, rfl⟩

theorem chunkHeader_safe (hpos : pos ≤ body.1.length) :
    Outcome.Safe (chunkHeader checks body pos) := by
  have hbody := body.2
  rw [chunkHeader, Slice.from_eq_ok hpos]
  refine Outcome.safe_ok.bind fun rest hrest => Outcome.safe_lift.bind fun idx hidx => ?_
  obtain rfl := Except.ok.inj hrest
  have hle := lineEnd_le (okOr_eq_ok_iff.mp (Outcome.lift_eq_ok_iff.mp hidx))
  rw [usizeAdd_eq_ok (by omega)]
  refine Outcome.safe_ok.bind fun lineEnd hend => ?_
  obtain rfl := Except.ok.inj hend
  rw [Bytes.index_eq_ok (by omega) (by omega)]
  refine Outcome.safe_ok.bind fun _ _ => Outcome.safe_lift.bind fun _ _ =>
    Outcome.safe_lift.bind fun _ _ => ?_
  rw [usizeAdd_eq_ok (by omega)]
  exact Outcome.safe_ok.bind fun _ _ => Outcome.safe_ok

/-- The chunk ends one or two bytes below the bound of `usize`. -/
def AtBound (dataStart size : ℕ) : Prop :=
  2 ^ 64 - 2 ≤ dataStart + size ∧ dataStart + size < 2 ^ 64

instance (dataStart size : ℕ) : Decidable (AtBound dataStart size) :=
  inferInstanceAs (Decidable (_ ∧ _))

theorem chunkData_eq_ok_iff :
    chunkData checks body dataStart size = .ok (next, data) ↔
      next ≤ body.1.length ∧ dataStart + size + 2 = next ∧
        Bytes.range body.1 (dataStart + size) next = crlf ∧
        Bytes.range body.1 dataStart (dataStart + size) = data := by
  have hbody := body.2
  simp only [chunkData, Except.bind_eq_ok_iff, Except.ok.injEq, Outcome.lift_eq_ok_iff,
    okOr_eq_ok_iff, usizeCheckedAdd_eq_some_iff, exists_unit_iff, ensure_eq_ok_iff, Prod.mk.injEq]
  constructor
  · rintro ⟨chunkEnd, ⟨hlt, rfl⟩, n, hn, hle, terminator, hterm, rfl, d, hd, rfl, rfl⟩
    -- a sum that wraps is too small to be the end of a slice that starts at the chunk's end
    have hbounds : dataStart + size ≤ n := by
      by_contra hnot
      rw [Bytes.index, if_neg (by omega)] at hterm
      cases hterm
    have hnext := eq_of_usizeAdd (by omega) hn
    rw [Bytes.index_eq_ok hbounds hle, Except.ok.injEq] at hterm
    rw [Bytes.index_eq_ok (by omega) (by omega), Except.ok.injEq] at hd
    exact ⟨hle, hnext, hterm, hd⟩
  · rintro ⟨hle, rfl, hterm, rfl⟩
    exact ⟨dataStart + size, ⟨by omega, rfl⟩, _, usizeAdd_eq_ok (by omega), hle, _,
      Bytes.index_eq_ok (by omega) hle, hterm, _, Bytes.index_eq_ok (by omega) (by omega), rfl, rfl⟩

/-- At the bound the sum is out of range, or, wrapped, the end of no slice. -/
theorem chunkData_panics (hlen : 2 ≤ body.1.length) (h : AtBound dataStart size) :
    chunkData checks body dataStart size = .error .panic := by
  have hbody := body.2
  obtain ⟨hge, hlt⟩ := h
  have hadd : usizeCheckedAdd dataStart size = some (dataStart + size) := if_pos hlt
  have hover : ¬ dataStart + size + 2 < 2 ^ 64 := by omega
  rw [chunkData, hadd]
  cases checks with
  | true =>
    have hsum : (usizeAdd true (dataStart + size) 2 : Outcome AttestError ℕ) = .error .panic := by
      rw [usizeAdd, if_neg hover, if_pos rfl]
    change (usizeAdd true (dataStart + size) 2 >>= _) = _
    rw [hsum]
    rfl
  | false =>
    obtain ⟨n, hsum, hn⟩ : ∃ n, (usizeAdd false (dataStart + size) 2 : Outcome AttestError ℕ) =
        .ok n ∧ n ≤ 1 := by
      refine ⟨dataStart + size + 2 - 2 ^ 64, ?_, by omega⟩
      rw [usizeAdd, if_neg hover, if_neg Bool.false_ne_true]
    have hindex : (Bytes.index body.1 (dataStart + size) n : Outcome AttestError Bytes) =
        .error .panic := if_neg (by omega)
    change (usizeAdd false (dataStart + size) 2 >>= _) = _
    rw [hsum]
    change (Outcome.lift (ensure (n ≤ _) _) >>= _) = _
    rw [ensure, if_pos (by omega)]
    change (Bytes.index _ _ n >>= _) = _
    rw [hindex]
    rfl

theorem chunkData_safe (h : ¬ AtBound dataStart size) :
    Outcome.Safe (chunkData checks body dataStart size) := by
  have hbody := body.2
  refine Outcome.safe_lift.bind fun chunkEnd hend => ?_
  obtain ⟨hlt, rfl⟩ := usizeCheckedAdd_eq_some_iff.mp
    (okOr_eq_ok_iff.mp (Outcome.lift_eq_ok_iff.mp hend))
  have hnext : dataStart + size + 2 < 2 ^ 64 := by
    by_contra hnot
    exact h ⟨by omega, hlt⟩
  rw [usizeAdd_eq_ok hnext]
  refine Outcome.safe_ok.bind fun n hn => Outcome.safe_lift.bind fun _ hle => ?_
  obtain rfl := Except.ok.inj hn
  have hle := ensure_eq_ok_iff.mp (Outcome.lift_eq_ok_iff.mp hle)
  rw [Bytes.index_eq_ok (by omega) hle, Bytes.index_eq_ok (by omega) (by omega)]
  exact Outcome.safe_ok.bind fun _ _ => Outcome.safe_lift.bind fun _ _ =>
    Outcome.safe_ok.bind fun _ _ => Outcome.safe_ok

/-- A complete chunk at `pos`, and the position behind it. -/
def NextChunk (body : Slice) (pos next : ℕ) (data : Bytes) : Prop :=
  ∃ dataStart size, ChunkAt body pos dataStart size ∧ size ≠ 0 ∧ next ≤ body.1.length ∧
    dataStart + size + 2 = next ∧ Bytes.range body.1 (dataStart + size) next = crlf ∧
    Bytes.range body.1 dataStart (dataStart + size) = data

theorem chunkStep_eq_some_iff : chunkStep checks body pos = .ok (some (next, data)) ↔
    pos ≤ body.1.length ∧ NextChunk body pos next data := by
  rw [chunkStep, Except.bind_eq_ok_iff]
  constructor
  · rintro ⟨⟨dataStart, size⟩, hheader, h⟩
    obtain ⟨hpos, hat⟩ := chunkHeader_eq_ok_iff.mp hheader
    split_ifs at h with hzero
    · cases h
    · obtain ⟨chunk, hchunk, heq⟩ := Except.bind_eq_ok_iff.mp h
      obtain rfl := Option.some.inj (Except.ok.inj heq)
      exact ⟨hpos, dataStart, size, hat, hzero, chunkData_eq_ok_iff.mp hchunk⟩
  · rintro ⟨hpos, dataStart, size, hat, hzero, hchunk⟩
    refine ⟨(dataStart, size), chunkHeader_eq_ok_iff.mpr ⟨hpos, hat⟩, ?_⟩
    rw [if_neg hzero, chunkData_eq_ok_iff.mpr hchunk]
    rfl

/-- The position behind a chunk is further on, inside the body. -/
theorem NextChunk.advances (h : NextChunk body pos next data) :
    pos < next ∧ next ≤ body.1.length := by
  obtain ⟨dataStart, size, hat, -, hle, hnext, -⟩ := h
  have hbounds := hat.bounds
  omega

theorem chunkStep_advances (h : chunkStep checks body pos = .ok (some (next, data))) :
    pos < next ∧ next ≤ body.1.length :=
  (chunkStep_eq_some_iff.mp h).2.advances

end Steps

/-! ### The loop -/

/-- The loop, with what it has collected. It ends because every turn moves forward. -/
def chunkLoop (checks : Bool) (body : Slice) (pos : ℕ) (out : Bytes) : Outcome AttestError Bytes :=
  match h : chunkStep checks body pos with
  | .error fault => .error fault
  | .ok none => .ok out
  | .ok (some (next, data)) =>
    have := chunkStep_advances h
    chunkLoop checks body next (out ++ data)
termination_by body.1.length - pos

def decodeChunkedBody (checks : Bool) (body : Slice) : Outcome AttestError Bytes :=
  chunkLoop checks body 0 []

section Loop

variable {checks : Bool} {body : Slice} {pos next : ℕ} {data out : Bytes}

theorem chunkLoop_eq : chunkLoop checks body pos out = chunkStep checks body pos >>= fun chunk? =>
    chunk?.elim (.ok out) fun chunk => chunkLoop checks body chunk.1 (out ++ chunk.2) := by
  rw [chunkLoop]
  split
  · next fault h =>
    rw [h]
    rfl
  · next h =>
    rw [h]
    rfl
  · next n d h =>
    change chunkLoop checks body n (out ++ d) = _
    rw [h]
    rfl

theorem chunkLoop_of_next (hpos : pos ≤ body.1.length) (h : NextChunk body pos next data) :
    chunkLoop checks body pos out = chunkLoop checks body next (out ++ data) := by
  rw [chunkLoop_eq, chunkStep_eq_some_iff.mpr ⟨hpos, h⟩]
  rfl

/-- The position behind a complete chunk follows the chunk's. -/
def Follows (body : Slice) (pos next : ℕ) : Prop := ∃ data, NextChunk body pos next data

/-- The header at `pos` gives a size at the bound. -/
def AtBoundAt (body : Slice) (pos : ℕ) : Prop :=
  ∃ dataStart size, ChunkAt body pos dataStart size ∧ AtBound dataStart size

/-- No header that the walk over the chunks reaches gives a size at the bound. -/
def NoSizeAtBound (body : Slice) : Prop :=
  ∀ pos, Relation.ReflTransGen (Follows body) 0 pos → ¬ AtBoundAt body pos

theorem chunkStep_safe_iff (hpos : pos ≤ body.1.length) :
    Outcome.Safe (chunkStep checks body pos) ↔ ¬ AtBoundAt body pos := by
  have hbody := body.2
  constructor
  · rintro hsafe ⟨dataStart, size, hat, hbound⟩
    have hbounds := hat.bounds
    have hsize : size ≠ 0 := by
      have hge := hbound.1
      omega
    apply hsafe
    rw [chunkStep, chunkHeader_eq_ok_iff.mpr ⟨hpos, hat⟩]
    change (if size = 0 then _ else chunkData checks body dataStart size >>= _) = _
    rw [if_neg hsize, chunkData_panics (by omega) hbound]
    rfl
  · intro hnot
    refine (chunkHeader_safe hpos).bind fun header hheader => ?_
    split_ifs
    · exact Outcome.safe_ok
    · refine (chunkData_safe fun hbound => hnot ?_).bind fun _ _ => Outcome.safe_ok
      exact ⟨header.1, header.2, (chunkHeader_eq_ok_iff.mp hheader).2, hbound⟩

/-- What holds of everything reached from `a` holds of `a` and of everything reached behind it. -/
theorem forall_reached_iff {r : ℕ → ℕ → Prop} {P : ℕ → Prop} {a : ℕ} :
    (∀ b, Relation.ReflTransGen r a b → P b) ↔
      P a ∧ ∀ c, r a c → ∀ b, Relation.ReflTransGen r c b → P b := by
  constructor
  · exact fun h => ⟨h a .refl, fun c hc b hb => h b (hb.head hc)⟩
  · rintro ⟨ha, hc⟩ b hb
    rcases hb.cases_head with rfl | ⟨c, hac, hcb⟩
    · exact ha
    · exact hc c hac b hcb

/-- The loop panics exactly at a header whose size is at the bound. -/
theorem chunkLoop_safe_iff (hpos : pos ≤ body.1.length) :
    Outcome.Safe (chunkLoop checks body pos out) ↔
      ∀ p, Relation.ReflTransGen (Follows body) pos p → ¬ AtBoundAt body p := by
  induction hn : body.1.length - pos using Nat.strong_induction_on generalizing pos out with
  | _ n ih =>
    rw [chunkLoop_eq, Outcome.safe_bind_iff, chunkStep_safe_iff hpos, forall_reached_iff]
    refine and_congr_right fun _ => ?_
    -- the rest of the walk starts behind the chunk that this turn has read
    have hrest : ∀ next data, NextChunk body pos next data →
        (Outcome.Safe (chunkLoop checks body next (out ++ data)) ↔
          ∀ p, Relation.ReflTransGen (Follows body) next p → ¬ AtBoundAt body p) := by
      intro next data hnext
      have hadvances := hnext.advances
      exact ih _ (by omega) hadvances.2 rfl
    constructor
    · rintro h next ⟨data, hnext⟩
      exact (hrest next data hnext).mp (h _ (chunkStep_eq_some_iff.mpr ⟨hpos, hnext⟩))
    · intro h chunk? hstep
      cases chunk? with
      | none => exact Outcome.safe_ok
      | some chunk =>
        obtain ⟨-, hnext⟩ := chunkStep_eq_some_iff.mp hstep
        exact (hrest _ _ hnext).mpr (h _ ⟨_, hnext⟩)

theorem decodeChunkedBody_safe_iff :
    Outcome.Safe (decodeChunkedBody checks body) ↔ NoSizeAtBound body :=
  chunkLoop_safe_iff (Nat.zero_le _)

end Loop

/-! ### Trimming -/

/-- The first loop of `trim_ascii`, from `start` on. -/
def trimStart (bytes : Bytes) (stop start : ℕ) : Outcome AttestError ℕ :=
  if start < stop then do
    let b ← indexAt bytes start
    if isAsciiWhitespace b then trimStart bytes stop (start + 1) else .ok start
  else .ok start
termination_by stop - start

/-- The second loop, from `stop` down. -/
def trimEnd (bytes : Bytes) (start : ℕ) : ℕ → Outcome AttestError ℕ
  | 0 => .ok 0
  | stop + 1 =>
    if start < stop + 1 then do
      let b ← indexAt bytes stop
      if isAsciiWhitespace b then trimEnd bytes start stop else .ok (stop + 1)
    else .ok (stop + 1)

def trimAscii (bytes : Bytes) : Outcome AttestError Bytes := do
  let start ← trimStart bytes bytes.length 0
  let stop ← trimEnd bytes start bytes.length
  Bytes.index bytes start stop

section Trim

variable {bytes : Bytes} {start stop : ℕ}

theorem trimStart_eq (h : start ≤ bytes.length) : trimStart bytes bytes.length start =
    .ok (start + ((bytes.drop start).takeWhile isAsciiWhitespace).length) := by
  induction hn : bytes.length - start using Nat.strong_induction_on generalizing start with
  | _ n ih =>
    rw [trimStart]
    split_ifs with hlt
    · have hcons : bytes.drop start = bytes[start] :: bytes.drop (start + 1) :=
        List.drop_eq_getElem_cons hlt
      rw [indexAt_eq_ok hlt, hcons]
      change (if isAsciiWhitespace bytes[start] then _ else _) = _
      split_ifs with hws
      · have hnext := ih (bytes.length - (start + 1)) (by omega)
          (show start + 1 ≤ bytes.length from hlt) rfl
        rw [hnext, List.takeWhile_cons_of_pos hws, List.length_cons]
        exact congrArg Except.ok (by omega)
      · rw [List.takeWhile_cons_of_neg hws]
        rfl
    · rw [List.drop_eq_nil_of_le (by omega)]
      rfl

theorem trimEnd_eq (hstart : start ≤ stop) (hstop : stop ≤ bytes.length) :
    trimEnd bytes start stop =
      .ok (start + ((Bytes.range bytes start stop).rdropWhile isAsciiWhitespace).length) := by
  induction stop with
  | zero =>
    obtain rfl := Nat.le_zero.mp hstart
    rfl
  | succ stop ih =>
    rw [trimEnd]
    split_ifs with hlt
    · have hconcat : Bytes.range bytes start (stop + 1) =
          Bytes.range bytes start stop ++ [bytes[stop]] := by
        have hlen : stop - start < (bytes.drop start).length := by
          rw [List.length_drop]
          omega
        rw [Bytes.range, Bytes.range, Nat.succ_sub (by omega), Nat.succ_eq_add_one,
          List.take_succ_eq_append_getElem hlen, List.getElem_drop]
        simp only [Nat.add_sub_cancel' (Nat.le_of_lt_succ hlt)]
      rw [indexAt_eq_ok hstop, hconcat]
      change (if isAsciiWhitespace bytes[stop] then _ else _) = _
      split_ifs with hws
      · rw [ih (by omega) (by omega), List.rdropWhile_concat_pos _ _ _ hws]
      · rw [List.rdropWhile_concat_neg _ _ _ hws, ← hconcat, Bytes.length_range hstart hstop]
        exact congrArg Except.ok (by omega)
    · obtain rfl : start = stop + 1 := by omega
      rw [Bytes.range, Nat.sub_self]
      rfl

/-- Whitespace goes at both ends. -/
theorem trimAscii_eq (bytes : Bytes) : trimAscii bytes =
    .ok ((bytes.dropWhile isAsciiWhitespace).rdropWhile isAsciiWhitespace) := by
  have hsplit := List.takeWhile_append_dropWhile (p := isAsciiWhitespace) (l := bytes)
  have hlen := congrArg List.length hsplit
  rw [List.length_append] at hlen
  have hdrop : bytes.drop (bytes.takeWhile isAsciiWhitespace).length =
      bytes.dropWhile isAsciiWhitespace := by
    calc bytes.drop (bytes.takeWhile isAsciiWhitespace).length
        = (bytes.takeWhile isAsciiWhitespace ++ bytes.dropWhile isAsciiWhitespace).drop
            (bytes.takeWhile isAsciiWhitespace).length := by rw [hsplit]
      _ = bytes.dropWhile isAsciiWhitespace := List.drop_left
  have hpre := List.rdropWhile_prefix isAsciiWhitespace (bytes.dropWhile isAsciiWhitespace)
  have hle := hpre.length_le
  have hrange : Bytes.range bytes (bytes.takeWhile isAsciiWhitespace).length bytes.length =
      bytes.dropWhile isAsciiWhitespace := by
    rw [Bytes.range, hdrop, List.take_of_length_le (by omega)]
  rw [trimAscii, trimStart_eq (Nat.zero_le _), List.drop_zero, Nat.zero_add]
  change (trimEnd bytes _ bytes.length >>= _) = _
  rw [trimEnd_eq (by omega) le_rfl, hrange]
  change Bytes.index bytes _ _ = _
  rw [Bytes.index_eq_ok (Nat.le_add_right _ _) (by omega), Bytes.range, hdrop,
    Nat.add_sub_cancel_left, ← List.prefix_iff_eq_take.mp hpre]

/-- A token without whitespace at its ends is its own trimming. -/
theorem trimAscii_eq_self (hhead : ∀ b ∈ bytes.head?, isAsciiWhitespace b = false)
    (hlast : ∀ b ∈ bytes.getLast?, isAsciiWhitespace b = false) : trimAscii bytes = .ok bytes := by
  rw [trimAscii_eq, dropWhile_rdropWhile_eq_self hhead hlast]

end Trim

/-! ### The response -/

def crlfcrlf : Bytes := [13, 10, 13, 10]

/-- The head of a response: where it ends, and its text. -/
def responseHead (checks : Bool) (response : Slice) : Outcome AttestError (ℕ × Text) := do
  let idx ← Outcome.lift (okOr (position crlfcrlf response.1)
    (failed "launcher token response lacks HTTP headers"))
  let headerEnd ← usizeAdd checks idx 4
  let head ← Bytes.index response.1 0 headerEnd
  let headers ← Outcome.lift (okOr (Text.fromUtf8 head)
    (failed "launcher token response headers not UTF-8: "))
  .ok (headerEnd, headers)

def status (headers : Text) : Text := (Text.lines headers).headD []

/-- A header line that says how the body is transferred. -/
def isTransferChunked (line : Text) : Bool :=
  match Text.splitOnce line ':' with
  | some (name, value) => Text.eqIgnoreAsciiCase name "transfer-encoding".toList &&
    Text.contains (Text.toAsciiLowercase value) "chunked".toList
  | none => false

def isChunked (headers : Text) : Bool := (Text.lines headers).any isTransferChunked

/-- The body, decoded if it is sent in chunks. -/
def decodeBody (checks : Bool) (headers : Text) (rest : Slice) : Outcome AttestError Bytes :=
  if isChunked headers then decodeChunkedBody checks rest else .ok rest.1

/-- The token in the body behind the head. -/
def readToken (checks : Bool) (headers : Text) (rest : Slice) : Outcome AttestError Bytes :=
  if Text.contains (status headers) " 200 ".toList then do
    let body ← decodeBody checks headers rest
    let body ← trimAscii body
    Outcome.lift (ensure (body ≠ []) (failed "launcher returned an empty token"))
    .ok body
  else .error (.err (.generationFailed ("launcher token request failed: ".toList ++
    status headers ++ ": ".toList ++ Text.fromUtf8Lossy rest.1)))

def parseHttpTokenResponse (checks : Bool) (response : Slice) : Outcome AttestError Bytes := do
  let head ← responseHead checks response
  let rest ← response.from head.1
  readToken checks head.2 rest

/-- The response starts with a head, which ends at the first empty line. -/
def HasHead (response : Slice) (headerEnd : ℕ) (headers : Text) : Prop :=
  ∃ idx, position crlfcrlf response.1 = some idx ∧ idx + 4 = headerEnd ∧
    Text.fromUtf8 (Bytes.range response.1 0 headerEnd) = some headers

section Response

variable {checks : Bool} {response : Slice} {headerEnd : ℕ} {headers : Text}

theorem headEnd_le {idx : ℕ} (h : position crlfcrlf response.1 = some idx) :
    idx + 4 ≤ response.1.length :=
  position_lt (by decide : crlfcrlf ≠ []) h

theorem responseHead_eq_ok_iff :
    responseHead checks response = .ok (headerEnd, headers) ↔
      HasHead response headerEnd headers := by
  have hresponse := response.2
  simp only [responseHead, Except.bind_eq_ok_iff, Outcome.lift_eq_ok_iff, okOr_eq_ok_iff,
    Except.ok.injEq, Prod.mk.injEq]
  constructor
  · rintro ⟨idx, hidx, n, hn, head, hhead, text, htext, rfl, rfl⟩
    have hle := headEnd_le hidx
    obtain rfl := eq_of_usizeAdd (by omega) hn
    rw [Bytes.index_eq_ok (Nat.zero_le _) hle, Except.ok.injEq] at hhead
    exact ⟨idx, hidx, rfl, hhead ▸ htext⟩
  · rintro ⟨idx, hidx, rfl, htext⟩
    have hle := headEnd_le hidx
    exact ⟨idx, hidx, idx + 4, usizeAdd_eq_ok (by omega), _,
      Bytes.index_eq_ok (Nat.zero_le _) hle, headers, htext, rfl, rfl⟩

theorem responseHead_safe : Outcome.Safe (responseHead checks response) := by
  have hresponse := response.2
  refine Outcome.safe_lift.bind fun idx hidx => ?_
  have hle := headEnd_le (okOr_eq_ok_iff.mp (Outcome.lift_eq_ok_iff.mp hidx))
  rw [usizeAdd_eq_ok (by omega)]
  refine Outcome.safe_ok.bind fun n hn => ?_
  obtain rfl := Except.ok.inj hn
  rw [Bytes.index_eq_ok (Nat.zero_le _) hle]
  exact Outcome.safe_ok.bind fun _ _ => Outcome.safe_lift.bind fun _ _ => Outcome.safe_ok

theorem HasHead.le (h : HasHead response headerEnd headers) : headerEnd ≤ response.1.length := by
  obtain ⟨idx, hidx, rfl, -⟩ := h
  exact headEnd_le hidx

/-- With a head, the token is read from what follows it. -/
theorem parseHttpTokenResponse_eq (h : HasHead response headerEnd headers) :
    parseHttpTokenResponse checks response =
      readToken checks headers (response.drop headerEnd) := by
  rw [parseHttpTokenResponse, responseHead_eq_ok_iff.mpr h]
  change (response.from headerEnd >>= _) = _
  rw [Slice.from_eq_ok h.le]
  rfl

/-- The body of a response whose status is 200 and that is transferred in chunks. -/
def HasChunkedBody (response body : Slice) : Prop :=
  ∃ headerEnd headers, HasHead response headerEnd headers ∧
    Text.contains (status headers) " 200 ".toList = true ∧ isChunked headers = true ∧
    body = response.drop headerEnd

theorem readToken_safe_iff {rest : Slice} : Outcome.Safe (readToken checks headers rest) ↔
    (Text.contains (status headers) " 200 ".toList = true → isChunked headers = true →
      NoSizeAtBound rest) := by
  have htail : ∀ body : Bytes, Outcome.Safe (do
      let body ← trimAscii body
      Outcome.lift (ensure (body ≠ []) (failed "launcher returned an empty token"))
      .ok body) := by
    intro body
    rw [trimAscii_eq]
    exact Outcome.safe_ok.bind fun _ _ => Outcome.safe_lift.bind fun _ _ => Outcome.safe_ok
  rw [readToken]
  split_ifs with hstatus
  · rw [Outcome.safe_bind_iff, decodeBody]
    split_ifs with hchunked
    · rw [decodeChunkedBody_safe_iff]
      exact ⟨fun h _ _ => h.1, fun h => ⟨h hstatus hchunked, fun body _ => htail body⟩⟩
    · exact iff_of_true ⟨Outcome.safe_ok, fun body _ => htail body⟩ fun _ h => absurd h hchunked
  · exact iff_of_true Outcome.safe_err fun h => absurd h hstatus

theorem parseHttpTokenResponse_safe_iff : Outcome.Safe (parseHttpTokenResponse checks response) ↔
    ∀ body, HasChunkedBody response body → NoSizeAtBound body := by
  by_cases hhead : ∃ headerEnd headers, HasHead response headerEnd headers
  · obtain ⟨headerEnd, headers, hhead⟩ := hhead
    rw [parseHttpTokenResponse_eq hhead, readToken_safe_iff]
    constructor
    · rintro h body ⟨headerEnd', headers', hhead', hstatus, hchunked, rfl⟩
      have heq : responseHead checks response = .ok (headerEnd, headers) :=
        responseHead_eq_ok_iff.mpr hhead
      rw [responseHead_eq_ok_iff.mpr hhead', Except.ok.injEq, Prod.mk.injEq] at heq
      obtain ⟨rfl, rfl⟩ := heq
      exact h hstatus hchunked
    · exact fun h hstatus hchunked => h _ ⟨headerEnd, headers, hhead, hstatus, hchunked, rfl⟩
  · refine iff_of_true ?_ fun body hbody => ?_
    · refine responseHead_safe.bind fun head h => ?_
      exact absurd ⟨head.1, head.2, responseHead_eq_ok_iff.mp h⟩ hhead
    · obtain ⟨headerEnd, headers, h, -⟩ := hbody
      exact absurd ⟨headerEnd, headers, h⟩ hhead

end Response

/-- The parser and the chunk decoder return, with and without overflow checks, exactly when no chunk
header that the walk over the body reaches ends its chunk one or two bytes below `2 ^ 64`; every
turn of the loop moves forward. -/
theorem launcherParser_safe_iff (checks : Bool) (response body : Slice) :
    (Outcome.Safe (decodeChunkedBody checks body) ↔ NoSizeAtBound body) ∧
      (Outcome.Safe (parseHttpTokenResponse checks response) ↔
        ∀ body, HasChunkedBody response body → NoSizeAtBound body) ∧
      ∀ pos next data, chunkStep checks body pos = .ok (some (next, data)) →
        pos < next ∧ next ≤ body.1.length :=
  ⟨decodeChunkedBody_safe_iff, parseHttpTokenResponse_safe_iff,
    fun _ _ _ h => chunkStep_advances h⟩

/-- A chunk header with the size `2 ^ 64 - 19`, whose data would start at 18. -/
def boundBody : Slice := ⟨Text.asBytes "ffffffffffffffed".toList ++ crlf, by decide⟩

def boundHeaders : Text := "HTTP/1.1 200 OK\r\nTransfer-Encoding: chunked\r\n\r\n".toList

def boundResponse : Slice := ⟨Text.asBytes boundHeaders ++ boundBody.1, by decide⟩

theorem boundBody_not_noSizeAtBound : ¬ NoSizeAtBound boundBody := by
  intro h
  have hline : Bytes.range boundBody.1 0 (0 + 16) = Text.asBytes "ffffffffffffffed".toList := by
    decide
  have hat : ChunkAt boundBody 0 18 (2 ^ 64 - 19) :=
    ⟨16, "ffffffffffffffed".toList, by decide, by rw [hline, Text.fromUtf8_asBytes], by decide, rfl⟩
  exact h 0 .refl ⟨_, _, hat, by decide⟩

/-- The size makes the decoder panic, in both builds, and with it the parser. -/
theorem boundBody_panics :
    ¬ Outcome.Safe (decodeChunkedBody true boundBody) ∧
      ¬ Outcome.Safe (decodeChunkedBody false boundBody) ∧
      ¬ Outcome.Safe (parseHttpTokenResponse true boundResponse) ∧
      ¬ Outcome.Safe (parseHttpTokenResponse false boundResponse) := by
  have hbody : HasChunkedBody boundResponse boundBody := by
    have hhead : Bytes.range boundResponse.1 0 47 = Text.asBytes boundHeaders := by decide
    exact ⟨47, boundHeaders, ⟨43, by decide, rfl, by rw [hhead, Text.fromUtf8_asBytes]⟩, by decide,
      by decide, Subtype.ext (by decide)⟩
  have hdecode : ∀ checks, ¬ Outcome.Safe (decodeChunkedBody checks boundBody) := fun _ h =>
    boundBody_not_noSizeAtBound (decodeChunkedBody_safe_iff.mp h)
  have hparse : ∀ checks, ¬ Outcome.Safe (parseHttpTokenResponse checks boundResponse) := fun _ h =>
    boundBody_not_noSizeAtBound (parseHttpTokenResponse_safe_iff.mp h _ hbody)
  exact ⟨hdecode true, hdecode false, hparse true, hparse false⟩

end Launcher

end TrustedRelay
