import TrustedRelay.Attest.LauncherResponse

/-!
# Tokens sent in chunks

What a sender writes, and that the reader of the launcher's response gets the token back: a head,
and a body that is the token itself or the token cut into chunks. A chunk carries the proofs that it
is written correctly, so a list of chunks is a correct body.
-/

namespace TrustedRelay

namespace Launcher

/-! ### What is sent -/

/-- A chunk: its size in hex digits, an extension, and its data. -/
structure Chunk where
  sizeText : Text
  ext : Option Text
  data : Bytes
  size_eq : hexNumber sizeText 0 = some data.length
  ext_line : ∀ e ∈ ext, '\r' ∉ e ∧ '\n' ∉ e
  data_ne_nil : data ≠ []

namespace Chunk

/-- The extension behind its semicolon, if there is one. -/
def extText (c : Chunk) : Text := c.ext.elim [] (';' :: ·)

/-- The header line. -/
def line (c : Chunk) : Text := c.sizeText ++ c.extText

def bytes (c : Chunk) : Bytes := Text.asBytes c.line ++ crlf ++ c.data ++ crlf

end Chunk

/-- The line that ends a body. -/
def zeroLine : Bytes := Text.asBytes ['0'] ++ crlf

/-- The chunks of a body and the line that ends it. -/
def encodeChunks (chunks : List Chunk) : Bytes := chunks.flatMap Chunk.bytes ++ zeroLine

/-- The head of a response with status 200: it has no empty line before its end. -/
structure ResponseHead where
  text : Text
  status_prefix : "HTTP/1.1 200 ".toList <+: text
  ends : crlfcrlf <:+ Text.asBytes text
  once : ∀ pre post, Text.asBytes text = pre ++ crlfcrlf ++ post → post = []

namespace ResponseHead

/-- A line of the head is a `Transfer-Encoding` field with this value. -/
def HasTransferEncoding (head : ResponseHead) (value : Text) : Prop :=
  ∃ name, name ++ ':' :: value ∈ Text.lines head.text ∧ ':' ∉ name ∧
    Text.toAsciiLowercase name = "transfer-encoding".toList

/-- A `Transfer-Encoding` field names `chunked`. -/
def IsChunked (head : ResponseHead) : Prop :=
  ∃ value, head.HasTransferEncoding value ∧ "chunked".toList <:+: Text.toAsciiLowercase value

end ResponseHead

/-- A token has no whitespace at its ends. -/
structure IsToken (token : Bytes) : Prop where
  ne_nil : token ≠ []
  head : ∀ b ∈ token.head?, isAsciiWhitespace b = false
  last : ∀ b ∈ token.getLast?, isAsciiWhitespace b = false

/-! ### Header lines -/

section Lines

variable {checks : Bool} {body : Slice} {pos size : ℕ} {line : Text} {rest : Bytes}

theorem not_mem_asBytes_of_not_mem {c : Char} (hc : c.toNat < 0x80) (h : c ∉ line) :
    UInt8.ofNat c.toNat ∉ Text.asBytes line :=
  fun hmem => h (Text.mem_of_mem_asBytes hc hmem)

/-- A line that is a size is a header. -/
theorem chunkAt_of_line (hcr : '\r' ∉ line)
    (hsize : usizeFromHex (Text.trim (Text.firstPiece line ';')) = .ok size)
    (hbody : body.1.drop pos = Text.asBytes line ++ crlf ++ rest) :
    ChunkAt body pos (pos + (Text.asBytes line ++ crlf).length) size := by
  have hidx : position crlf (body.1.drop pos) = some (Text.asBytes line).length := by
    rw [hbody]
    exact position_append_of_not_mem (not_mem_asBytes_of_not_mem (by decide) hcr)
  have hrange : Bytes.range body.1 pos (pos + (Text.asBytes line).length) = Text.asBytes line := by
    rw [Bytes.range, hbody, Nat.add_sub_cancel_left, List.append_assoc, List.take_left]
  refine ⟨_, line, hidx, by rw [hrange, Text.fromUtf8_asBytes], hsize, ?_⟩
  rw [List.length_append, Nat.add_assoc]
  rfl

/-- Hex digits are read up to the extension. -/
theorem Chunk.reads_size (c : Chunk) (hlen : c.data.length < 2 ^ 64) :
    usizeFromHex (Text.trim (Text.firstPiece c.line ';')) = .ok c.data.length := by
  have hrange := fun x hx => hexDigit_range (hexDigit_of_hexNumber c.size_eq x hx)
  have hsemi : ';' ∉ c.sizeText := fun hmem => absurd (hrange _ hmem) (by decide)
  have hext : c.extText = [] ∨ c.extText.head? = some ';' := by
    rw [Chunk.extText]
    cases c.ext with
    | none => exact .inl rfl
    | some e => exact .inr rfl
  have hne : c.sizeText ≠ [] := by
    intro hnil
    have hsize := c.size_eq
    rw [hnil] at hsize
    exact c.data_ne_nil (List.length_eq_zero_iff.mp (Option.some.inj hsize).symm)
  have hspace : ∀ x ∈ c.sizeText, Text.isWhitespace x = false := by
    intro x hx
    have hx := hrange x hx
    exact Text.isWhitespace_of_visible (by omega) (by omega)
  rw [Chunk.line, Text.firstPiece_append hsemi hext, Text.trim_eq_self hspace]
  exact usizeFromHex_eq_ok hne c.size_eq hlen

/-- A header is one line. -/
theorem Chunk.not_mem_line (c : Chunk) : '\r' ∉ c.line ∧ '\n' ∉ c.line := by
  have hrange := fun x hx => hexDigit_range (hexDigit_of_hexNumber c.size_eq x hx)
  have hext : '\r' ∉ c.extText ∧ '\n' ∉ c.extText := by
    have hline := c.ext_line
    rw [Chunk.extText]
    cases h : c.ext with
    | none => simp
    | some e => simpa using hline e h
  simp only [Chunk.line, List.mem_append, not_or]
  exact ⟨⟨fun hmem => absurd (hrange _ hmem) (by decide), hext.1⟩,
    fun hmem => absurd (hrange _ hmem) (by decide), hext.2⟩

/-- A body that is cut off inside a line has no line end there. -/
theorem chunkStep_unterminated (hpos : pos ≤ body.1.length) (hlf : '\n' ∉ line)
    (hbody : body.1.drop pos <+: Text.asBytes line ++ [13]) : chunkStep checks body pos =
      .error (.err (failed "chunked launcher token response has unterminated chunk header")) := by
  have hnone : position crlf (body.1.drop pos) = none := by
    rw [position_eq_none_iff crlf_ne_nil]
    intro hin
    have hmem : (10 : UInt8) ∈ Text.asBytes line ++ [13] :=
      hbody.subset (hin.subset (by decide : (10 : UInt8) ∈ crlf))
    rcases List.mem_append.mp hmem with hline | hcr
    · exact not_mem_asBytes_of_not_mem (by decide : '\n'.toNat < 0x80) hlf hline
    · exact absurd hcr (by decide)
  rw [chunkStep, chunkHeader, Slice.from_eq_ok hpos]
  change (Outcome.lift (okOr (position crlf (body.1.drop pos)) _) >>= _) >>= _ = _
  rw [hnone]
  rfl

end Lines

/-! ### Bodies -/

section Bodies

variable {checks : Bool} {body : Slice} {pos : ℕ} {out rest : Bytes} {c : Chunk}
  {chunks : List Chunk}

theorem Chunk.length_bytes (c : Chunk) : c.bytes.length =
    (Text.asBytes c.line ++ crlf).length + c.data.length + 2 := by
  rw [Chunk.bytes, List.length_append, List.length_append]
  rfl

theorem Chunk.chunkAt (hbody : body.1.drop pos = Text.asBytes c.line ++ crlf ++ rest)
    (hlen : c.data.length < 2 ^ 64) :
    ChunkAt body pos (pos + (Text.asBytes c.line ++ crlf).length) c.data.length :=
  chunkAt_of_line c.not_mem_line.1 (c.reads_size hlen) hbody

/-- A chunk that is there is read. -/
theorem Chunk.nextChunk (hbody : body.1.drop pos = c.bytes ++ rest) :
    NextChunk body pos (pos + c.bytes.length) c.data := by
  have hlen := congrArg List.length hbody
  have hbytes := c.length_bytes
  have hpos : 0 < c.data.length := List.length_pos_iff.mpr c.data_ne_nil
  have hsize := body.2
  rw [List.length_drop, List.length_append] at hlen
  have hline : body.1.drop pos = Text.asBytes c.line ++ crlf ++ (c.data ++ crlf ++ rest) := by
    rw [hbody, Chunk.bytes]
    simp only [List.append_assoc]
  -- the parts of the body, by the bytes before them
  have hrange : ∀ a b t : Bytes, body.1.drop pos = a ++ b ++ t →
      Bytes.range body.1 (pos + a.length) (pos + a.length + b.length) = b := by
    intro a b t h
    rw [Bytes.range, ← List.drop_drop, h, List.append_assoc, List.drop_left,
      Nat.add_sub_cancel_left, List.take_left]
  have hdata := hrange (Text.asBytes c.line ++ crlf) c.data (crlf ++ rest)
    (by rw [hline]; simp only [List.append_assoc])
  have hend := hrange (Text.asBytes c.line ++ crlf ++ c.data) crlf rest
    (by rw [hline]; simp only [List.append_assoc])
  rw [List.length_append, ← Nat.add_assoc] at hend
  have hnext : pos + (Text.asBytes c.line ++ crlf).length + c.data.length + crlf.length =
      pos + c.bytes.length := by
    rw [hbytes]
    change _ + 2 = _
    omega
  exact ⟨_, _, Chunk.chunkAt hline (by omega), hpos.ne', by omega, hnext, hnext ▸ hend, hdata⟩

/-- The loop reads the chunks that are there, and ends at the size zero. -/
theorem chunkLoop_encodeChunks (hpos : pos ≤ body.1.length)
    (hbody : body.1.drop pos = encodeChunks chunks ++ rest) :
    chunkLoop checks body pos out = .ok (out ++ chunks.flatMap Chunk.data) := by
  induction chunks generalizing pos out with
  | nil =>
    have hat : ChunkAt body pos (pos + (Text.asBytes ['0'] ++ crlf).length) 0 :=
      chunkAt_of_line (by decide) (by decide) hbody
    rw [chunkLoop_eq, chunkStep, chunkHeader_eq_ok_iff.mpr ⟨hpos, hat⟩, List.flatMap_nil,
      List.append_nil]
    rfl
  | cons c chunks ih =>
    have hnext : body.1.drop pos = c.bytes ++ (encodeChunks chunks ++ rest) := by
      rw [hbody, encodeChunks, encodeChunks, List.flatMap_cons]
      simp only [List.append_assoc]
    have hstep := Chunk.nextChunk hnext
    have hdrop : body.1.drop (pos + c.bytes.length) = encodeChunks chunks ++ rest := by
      rw [← List.drop_drop, hnext, List.drop_left]
    rw [chunkLoop_of_next hpos hstep, ih hstep.advances.2 hdrop, List.flatMap_cons,
      List.append_assoc]

/-- A size beyond the end of the body is an error. -/
theorem chunkStep_truncated {dataStart size : ℕ} (hpos : pos ≤ body.1.length)
    (hat : ChunkAt body pos dataStart size) (hsize : size ≠ 0) (hlt : dataStart + size + 2 < 2 ^ 64)
    (hend : body.1.length < dataStart + size + 2) : chunkStep checks body pos =
      .error (.err (failed "chunked launcher token response chunk is truncated")) := by
  have hadd : usizeCheckedAdd dataStart size = some (dataStart + size) := if_pos (by omega)
  rw [chunkStep, chunkHeader_eq_ok_iff.mpr ⟨hpos, hat⟩]
  change (if size = 0 then _ else chunkData checks body dataStart size >>= _) = _
  rw [if_neg hsize, chunkData, hadd]
  change (usizeAdd checks (dataStart + size) 2 >>= _) >>= _ = _
  rw [usizeAdd_eq_ok hlt]
  change (Outcome.lift (ensure (dataStart + size + 2 ≤ _) _) >>= _) >>= _ = _
  rw [ensure, if_neg (by omega)]
  rfl

theorem prefix_of_prefix_concat {p l : Bytes} {b : UInt8} (h : p <+: l ++ [b])
    (hne : p ≠ l ++ [b]) :
    p <+: l :=
  (List.prefix_concat_iff.mp h).resolve_left hne

/-- A body that ends inside a chunk is an error. -/
theorem Chunk.chunkStep_isErr (hpos : pos ≤ body.1.length) (hcut : body.1.drop pos <+: c.bytes)
    (hne : body.1.drop pos ≠ c.bytes) (hlen : pos + c.bytes.length < 2 ^ 63) :
    ∃ e, chunkStep checks body pos = .error (.err e) := by
  have hbytes := c.length_bytes
  have hshort : (body.1.drop pos).length < c.bytes.length :=
    lt_of_le_of_ne hcut.length_le fun heq => hne (hcut.eq_of_length heq)
  rw [List.length_drop] at hshort
  by_cases hheader : Text.asBytes c.line ++ crlf <+: body.1.drop pos
  · obtain ⟨rest, hrest⟩ := hheader
    have hat := Chunk.chunkAt hrest.symm (by omega)
    have hsize : c.data.length ≠ 0 := fun h => c.data_ne_nil (List.length_eq_zero_iff.mp h)
    exact ⟨_, chunkStep_truncated hpos hat hsize (by omega) (by omega)⟩
  · -- the header itself is cut off
    have hline : Text.asBytes c.line ++ crlf <+: c.bytes := by
      rw [Chunk.bytes, List.append_assoc]
      exact List.prefix_append _ _
    have hinside := (List.prefix_or_prefix_of_prefix hcut hline).resolve_right hheader
    have hinside' : body.1.drop pos <+: (Text.asBytes c.line ++ [13]) ++ [10] := by
      rw [List.append_assoc]
      exact hinside
    refine ⟨_, chunkStep_unterminated hpos c.not_mem_line.2 (prefix_of_prefix_concat hinside' ?_)⟩
    intro heq
    apply hheader
    rw [heq, List.append_assoc]
    exact List.prefix_refl _

theorem chunkLoop_isErr_of_chunkStep {e : AttestError}
    (h : chunkStep checks body pos = .error (.err e)) :
    ∃ e, chunkLoop checks body pos out = .error (.err e) := by
  refine ⟨e, ?_⟩
  rw [chunkLoop_eq, h]
  rfl

/-- A body that ends before the line that ends it does is an error. -/
theorem chunkLoop_isErr (hpos : pos ≤ body.1.length)
    (hcut : body.1.drop pos <+: encodeChunks chunks) (hne : body.1.drop pos ≠ encodeChunks chunks)
    (hlen : pos + (encodeChunks chunks).length < 2 ^ 63) :
    ∃ e, chunkLoop checks body pos out = .error (.err e) := by
  induction chunks generalizing pos out with
  | nil =>
    have hzero : body.1.drop pos <+: Text.asBytes ['0'] ++ [13] :=
      prefix_of_prefix_concat hcut hne
    exact chunkLoop_isErr_of_chunkStep (chunkStep_unterminated hpos (by decide) hzero)
  | cons c chunks ih =>
    have hcons : encodeChunks (c :: chunks) = c.bytes ++ encodeChunks chunks := by
      rw [encodeChunks, encodeChunks, List.flatMap_cons, List.append_assoc]
    rw [hcons] at hcut hne hlen
    rw [List.length_append] at hlen
    by_cases hchunk : c.bytes <+: body.1.drop pos
    · obtain ⟨rest, hrest⟩ := hchunk
      have hstep := Chunk.nextChunk hrest.symm
      have hdrop : body.1.drop (pos + c.bytes.length) = rest := by
        rw [← List.drop_drop, ← hrest, List.drop_left]
      rw [chunkLoop_of_next hpos hstep]
      refine ih hstep.advances.2 ?_ ?_ (by omega)
      · rw [hdrop]
        rwa [← hrest, List.prefix_append_right_inj] at hcut
      · rw [hdrop]
        rintro rfl
        exact hne hrest.symm
    · have hinside : body.1.drop pos <+: c.bytes :=
        (List.prefix_or_prefix_of_prefix hcut (List.prefix_append _ _)).resolve_right hchunk
      obtain ⟨e, he⟩ := Chunk.chunkStep_isErr hpos hinside
        (fun heq => hchunk (heq ▸ List.prefix_refl _)) (by omega)
      exact chunkLoop_isErr_of_chunkStep he

end Bodies

/-! ### Responses -/

theorem isTransferChunked_eq_true_iff {line : Text} : isTransferChunked line = true ↔
    ∃ name value, line = name ++ ':' :: value ∧ ':' ∉ name ∧
      Text.toAsciiLowercase name = "transfer-encoding".toList ∧
      "chunked".toList <:+: Text.toAsciiLowercase value := by
  have hname : Text.toAsciiLowercase "transfer-encoding".toList = "transfer-encoding".toList := by
    decide
  rw [isTransferChunked]
  cases hsplit : Text.splitOnce line ':' with
  | none =>
    refine iff_of_false (by simp) ?_
    rintro ⟨name, value, rfl, hcolon, -⟩
    rw [Text.splitOnce_append hcolon] at hsplit
    cases hsplit
  | some field =>
    obtain ⟨rfl, hcolon⟩ := Text.splitOnce_eq_some_iff.mp hsplit
    simp only [Text.eqIgnoreAsciiCase, hname, Text.contains, Bool.and_eq_true, beq_iff_eq,
      decide_eq_true_eq]
    constructor
    · exact fun h => ⟨field.1, field.2, rfl, hcolon, h⟩
    · rintro ⟨name, value, heq, hname, h⟩
      rw [heq, Text.splitOnce_append hname, Option.some.injEq] at hsplit
      rw [← hsplit]
      exact h

section Responses

variable {checks : Bool} {response : Slice} {head : ResponseHead} {rest token : Bytes}

theorem ResponseHead.hasHead (hresponse : response.1 = Text.asBytes head.text ++ rest) :
    HasHead response (Text.asBytes head.text).length head.text := by
  obtain ⟨front, hfront⟩ := head.ends
  have hidx : position crlfcrlf response.1 = some front.length := by
    rw [hresponse, ← hfront]
    exact position_append (by decide) fun pre post h => head.once pre post (hfront ▸ h)
  refine ⟨front.length, hidx, ?_, ?_⟩
  · rw [← hfront, List.length_append]
    rfl
  · rw [hresponse, Bytes.range, List.drop_zero, Nat.sub_zero, List.take_left, Text.fromUtf8_asBytes]

theorem ResponseHead.status_ok (head : ResponseHead) :
    Text.contains (status head.text) " 200 ".toList = true := by
  obtain ⟨t, ht⟩ := head.status_prefix
  obtain ⟨line, lines, hlines, hline⟩ := Text.prefix_head_lines
    (by decide : "HTTP/1.1 200 ".toList ≠ []) (by decide) (by decide) (t := t)
  rw [status, ← ht, hlines, Text.contains, decide_eq_true_eq]
  exact (by decide : " 200 ".toList <:+: "HTTP/1.1 200 ".toList).trans hline.isInfix

theorem ResponseHead.isChunked_iff : isChunked head.text = true ↔ head.IsChunked := by
  simp only [isChunked, List.any_eq_true, isTransferChunked_eq_true_iff, IsChunked,
    HasTransferEncoding]
  constructor
  · rintro ⟨_, hline, name, value, rfl, hcolon, hname, hvalue⟩
    exact ⟨value, ⟨name, hline, hcolon, hname⟩, hvalue⟩
  · rintro ⟨value, ⟨name, hline, hcolon, hname⟩, hvalue⟩
    exact ⟨_, hline, name, value, rfl, hcolon, hname, hvalue⟩

/-- What is read behind a head, once the body is decoded. -/
theorem ResponseHead.parse_eq_ok (hresponse : response.1 = Text.asBytes head.text ++ rest)
    (htoken : IsToken token) (hbody : decodeBody checks head.text
      (response.drop (Text.asBytes head.text).length) = .ok token) :
    parseHttpTokenResponse checks response = .ok token := by
  rw [parseHttpTokenResponse_eq (ResponseHead.hasHead hresponse), readToken, if_pos head.status_ok,
    hbody]
  change (trimAscii token >>= _) = _
  rw [trimAscii_eq_self htoken.head htoken.last]
  change (Outcome.lift (ensure (token ≠ []) _) >>= _) = _
  rw [ensure, if_pos htoken.ne_nil]
  rfl

theorem ResponseHead.parse_plain (hplain : ¬head.IsChunked)
    (hresponse : response.1 = Text.asBytes head.text ++ token) (htoken : IsToken token) :
    parseHttpTokenResponse checks response = .ok token := by
  refine ResponseHead.parse_eq_ok hresponse htoken ?_
  rw [decodeBody, if_neg (mt ResponseHead.isChunked_iff.mp hplain), Slice.drop_left hresponse]

theorem ResponseHead.parse_chunked (hchunked : head.IsChunked) {chunks : List Chunk}
    (hsplit : chunks.flatMap Chunk.data = token) {trailing : Bytes}
    (hresponse : response.1 = Text.asBytes head.text ++ (encodeChunks chunks ++ trailing))
    (htoken : IsToken token) : parseHttpTokenResponse checks response = .ok token := by
  refine ResponseHead.parse_eq_ok hresponse htoken ?_
  have hbody : ((response.drop (Text.asBytes head.text).length).1.drop 0) =
      encodeChunks chunks ++ trailing := by
    rw [List.drop_zero, Slice.drop_left hresponse]
  rw [decodeBody, if_pos (ResponseHead.isChunked_iff.mpr hchunked), decodeChunkedBody,
    chunkLoop_encodeChunks (Nat.zero_le _) hbody, List.nil_append, hsplit]

end Responses

/-- A token sent in chunks, however it is cut, is read as the token sent plainly; a body cut off
before the line that ends it is complete is an error. -/
theorem parseHttpTokenResponse_spec (checks : Bool) (chunked plain : ResponseHead)
    (hchunked : chunked.IsChunked) (hplain : ¬plain.IsChunked)
    {token : Bytes} (htoken : IsToken token) (chunks : List Chunk)
    (hsplit : chunks.flatMap Chunk.data = token) (trailing : Bytes) (response response' : Slice)
    (hresponse : response.1 =
      Text.asBytes chunked.text ++ (encodeChunks chunks ++ trailing))
    (hresponse' : response'.1 = Text.asBytes plain.text ++ token) :
    parseHttpTokenResponse checks response = .ok token ∧
      parseHttpTokenResponse checks response' = .ok token ∧
      ∀ body : Slice, body.1 <+: encodeChunks chunks → body.1 ≠ encodeChunks chunks →
        ∃ e, decodeChunkedBody checks body = .error (.err e) := by
  refine ⟨ResponseHead.parse_chunked hchunked hsplit hresponse htoken,
    ResponseHead.parse_plain hplain hresponse' htoken, fun body hcut hne => ?_⟩
  have hlen := congrArg List.length hresponse
  have hresponseLen := response.2
  simp only [List.length_append] at hlen
  exact chunkLoop_isErr (Nat.zero_le _) hcut hne (by omega)

/-! ### A token in two chunks -/

def chunkedHead : ResponseHead where
  text := "HTTP/1.1 200 OK\r\nTransfer-Encoding: chunked\r\n\r\n".toList
  status_prefix := by decide
  ends := by decide
  once _ _ h := eq_nil_of_position
    (a := Text.asBytes "HTTP/1.1 200 OK\r\nTransfer-Encoding: chunked".toList) (by decide)
    (by decide) h

def plainHead : ResponseHead where
  text := "HTTP/1.1 200 OK\r\n\r\n".toList
  status_prefix := by decide
  ends := by decide
  once _ _ h := eq_nil_of_position (a := Text.asBytes "HTTP/1.1 200 OK".toList) (by decide)
    (by decide) h

theorem chunkedHead_isChunked : chunkedHead.IsChunked :=
  ⟨" chunked".toList, ⟨"Transfer-Encoding".toList, by decide, by decide, by decide⟩, by decide⟩

theorem plainHead_not_isChunked : ¬plainHead.IsChunked := by
  rintro ⟨value, ⟨name, hline, -⟩, -⟩
  have hcolon : ∀ line ∈ Text.lines plainHead.text, ':' ∉ line := by decide
  exact hcolon _ hline (by simp)

/-- `abc.` and `def.ghi`, the second one with an extension and its size written as `007`. -/
def sampleChunks : List Chunk :=
  [{ sizeText := ['4'], ext := none, data := Text.asBytes "abc.".toList, size_eq := by decide,
      ext_line := by simp, data_ne_nil := by decide },
    { sizeText := ['0', '0', '7'], ext := some "a=b".toList, data := Text.asBytes "def.ghi".toList,
      size_eq := by decide, ext_line := by decide, data_ne_nil := by decide }]

def sampleToken : Bytes := Text.asBytes "abc.def.ghi".toList

theorem sampleToken_isToken : IsToken sampleToken where
  ne_nil := by decide
  head b hb := by
    obtain rfl : (97 : UInt8) = b := Option.some.inj hb
    decide
  last b hb := by
    obtain rfl : (105 : UInt8) = b := Option.some.inj hb
    decide

def sampleChunked : Slice :=
  ⟨Text.asBytes chunkedHead.text ++ (encodeChunks sampleChunks ++ crlf), by decide⟩

def samplePlain : Slice := ⟨Text.asBytes plainHead.text ++ sampleToken, by decide⟩

theorem sampleToken_parsed :
    parseHttpTokenResponse true sampleChunked = .ok sampleToken ∧
      parseHttpTokenResponse true samplePlain = .ok sampleToken ∧
      ∀ body : Slice, body.1 <+: encodeChunks sampleChunks → body.1 ≠ encodeChunks sampleChunks →
        ∃ e, decodeChunkedBody true body = .error (.err e) :=
  parseHttpTokenResponse_spec true chunkedHead plainHead chunkedHead_isChunked
    plainHead_not_isChunked sampleToken_isToken sampleChunks (by decide) crlf sampleChunked
    samplePlain rfl rfl

end Launcher

end TrustedRelay
