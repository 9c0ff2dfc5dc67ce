import TrustedRelay.Attest.LauncherResponse
import TrustedRelay.Http.StatusLine
import TrustedRelay.Tunnel.Transport

/-!
# Two checks of a status

The reader of the launcher's response and the client of the gateway go on if they find ` 200 ` in
the status line. `success_iff` says when that means that the code is 200: the reason phrase must not
have ` 200 ` in it, unless what follows is refused anyway.
-/

namespace TrustedRelay

open Delimited

/-! ### The launcher's response -/

namespace Launcher

/-- Behind a head in UTF-8 there is a token: a body, decoded if it is sent in chunks, that is not
blank. -/
def HasToken (checks : Bool) (response : Slice) : Prop :=
  ∃ headerEnd headers body, HasHead response headerEnd headers ∧
    decodeBody checks headers (response.drop headerEnd) = .ok body ∧
    ∃ b ∈ body, isAsciiWhitespace b = false

section Token

variable {checks : Bool} {headers : Text} {response rest : Slice} {headerEnd : ℕ} {l : StatusLine}

/-- Trimming leaves something of a body that is not blank. -/
theorem trim_ne_nil_iff {body : Bytes} :
    (body.dropWhile isAsciiWhitespace).rdropWhile isAsciiWhitespace ≠ [] ↔
      ∃ b ∈ body, isAsciiWhitespace b = false := by
  have hblank : (body.dropWhile isAsciiWhitespace).rdropWhile isAsciiWhitespace = [] ↔
      ∀ b ∈ body, isAsciiWhitespace b = true := by
    rw [List.rdropWhile_eq_nil_iff, ← List.dropWhile_eq_nil_iff, List.dropWhile_idempotent,
      List.dropWhile_eq_nil_iff]
  rw [ne_eq, hblank]
  simp only [not_forall, Bool.not_eq_true, exists_prop]

theorem readToken_isOk_iff : (∃ token, readToken checks headers rest = .ok token) ↔
    Text.contains (status headers) " 200 ".toList = true ∧
      ∃ body, decodeBody checks headers rest = .ok body ∧
        ∃ b ∈ body, isAsciiWhitespace b = false := by
  rw [readToken]
  split_ifs with hstatus
  · simp only [trimAscii_eq, Except.bind_eq_ok_iff, Except.ok.injEq, Outcome.lift_eq_ok_iff,
      exists_unit_iff, ensure_eq_ok_iff, ← trim_ne_nil_iff]
    exact ⟨fun ⟨_, body, hbody, _, rfl, hne, _⟩ => ⟨hstatus, body, hbody, hne⟩,
      fun ⟨_, body, hbody, hne⟩ => ⟨_, body, hbody, _, rfl, hne, rfl⟩⟩
  · exact iff_of_false nofun fun h => hstatus h.1

/-- The status of a response is its status line. -/
theorem HasHead.status_bytes (h : HasHead response headerEnd headers)
    (hline : l.bytes ++ crlf <+: response.1) : Text.asBytes (status headers) = l.bytes := by
  obtain ⟨idx, hidx, rfl, htext⟩ := h
  obtain ⟨rest, hrest⟩ := hline
  have hpre := ((position_eq_some_iff (by decide)).mp hidx).1
  -- the empty line is not found inside the line
  have hidx : l.bytes.length ≤ idx := by
    by_contra hlt
    rw [← hrest, List.append_assoc, List.drop_append_of_le_length (Nat.le_of_not_le hlt)] at hpre
    cases hdrop : l.bytes.drop idx with
    | nil => exact absurd (List.drop_eq_nil_iff.mp hdrop) hlt
    | cons b front =>
      rw [hdrop, List.cons_append] at hpre
      obtain ⟨rfl, -⟩ := List.cons_prefix_cons.mp hpre
      exact (l.bytes_oneLine 13 (List.mem_of_mem_drop (hdrop ▸ List.mem_cons_self))).1 rfl
  obtain ⟨k, rfl⟩ := Nat.exists_eq_add_of_le hidx
  have hhead : Bytes.range response.1 0 (l.bytes.length + k + 4) =
      l.bytes ++ 13 :: 10 :: rest.take (k + 2) := by
    rw [Bytes.range, List.drop_zero, Nat.sub_zero, ← hrest, List.append_assoc, Nat.add_assoc,
      List.take_length_add_append]
    rfl
  have hbytes := Text.asBytes_of_fromUtf8 htext
  rw [hhead] at hbytes
  obtain ⟨line, t, rfl, hstatus, -⟩ := l.exists_text hbytes
  have hnl : '\n' ∉ line := by
    intro hmem
    have hbyte := Text.mem_asBytes_of_mem (by decide) hmem
    rw [hstatus] at hbyte
    exact (l.bytes_oneLine _ hbyte).2 rfl
  rw [status, Text.lines_append_crlf hnl, List.headD_cons, hstatus]

theorem parseHttpTokenResponse_isOk_iff (hline : l.bytes ++ crlf <+: response.1) :
    (∃ token, parseHttpTokenResponse checks response = .ok token) ↔
      (l.IsOk ∨ l.ReasonHas200) ∧ HasToken checks response := by
  constructor
  · rintro ⟨token, h⟩
    obtain ⟨⟨headerEnd, headers⟩, hhead, hrest⟩ := Except.bind_eq_ok_iff.mp h
    have hhead := responseHead_eq_ok_iff.mp hhead
    rw [parseHttpTokenResponse_eq hhead] at h
    obtain ⟨hstatus, body, hbody, htoken⟩ := readToken_isOk_iff.mp ⟨token, h⟩
    exact ⟨(l.contains_200_iff (hhead.status_bytes hline)).mp hstatus, headerEnd, headers, body,
      hhead, hbody, htoken⟩
  · rintro ⟨hstatus, headerEnd, headers, body, hhead, hbody, htoken⟩
    rw [parseHttpTokenResponse_eq hhead, readToken_isOk_iff]
    exact ⟨(l.contains_200_iff (hhead.status_bytes hline)).mpr hstatus, body, hbody, htoken⟩

end Token

end Launcher

/-! ### The gateway's reply -/

/-- The reply has a header block: lines in UTF-8, of which the last one is the first that ends the
block. -/
def HasHeaderBlock (reply : Bytes) : Prop :=
  ∃ lines blank rest, reply = Text.asBytes (unlines '\n' (lines ++ [blank])) ++ rest ∧
    (∀ l ∈ lines ++ [blank], '\n' ∉ l) ∧ (∀ l ∈ lines, endsReply l = false) ∧
    endsReply blank = true

theorem HasHeaderBlock.ne_nil {reply : Bytes} (h : HasHeaderBlock reply) : reply ≠ [] := by
  obtain ⟨lines, blank, rest, rfl, -⟩ := h
  intro hnil
  have hlines : unlines '\n' (lines ++ [blank]) = [] :=
    Text.asBytes_injective (List.append_eq_nil_iff.mp hnil).1
  simp at hlines

section Reply

variable {reads : Reads} {l : StatusLine}

/-- The loop ends well only with such a line. -/
theorem exists_of_overLines_replyLine {ls : List Text}
    (h : BufReader.overLines replyLine () ls = some (.ok (), [])) :
    ∃ lines blank, ls = lines ++ [blank] ∧ (∀ l ∈ lines, endsReply l = false) ∧
      endsReply blank = true := by
  induction ls with
  | nil => cases h
  | cons line ls ih =>
    rw [BufReader.overLines, replyLine_concat_newline] at h
    split_ifs at h with hends
    · obtain ⟨-, rfl⟩ := Prod.mk.inj (Option.some.inj h)
      exact ⟨[], line, rfl, by simp, hends⟩
    · obtain ⟨lines, blank, rfl, hlines, hblank⟩ := ih h
      exact ⟨line :: lines, blank, rfl,
        List.forall_mem_cons.mpr ⟨by simpa using hends, hlines⟩, hblank⟩

theorem mem_of_replyLine {line : Text} {out : Except Text Unit}
    (h : replyLine () line = .inr out) : '\n' ∈ line := by
  rw [replyLine] at h
  split_ifs at h with hends
  rcases hends with rfl | rfl
  · decide
  · decide

theorem readReplyHeaders_eq_ok {r : BufReader UInt8 8192}
    (h : (readReplyHeaders r).1 = .ok (.ok ())) : HasHeaderBlock r.pending := by
  rcases BufReader.overLines_of_readTextLines (fun _ _ _ => mem_of_replyLine) h with
    ⟨_, heof⟩ | ⟨ls, rest, hls, hpending, hover⟩
  · cases heof
  · obtain ⟨lines, blank, rfl, hlines, hblank⟩ := exists_of_overLines_replyLine hover
    exact ⟨lines, blank, rest, hpending, hls, hlines, hblank⟩

/-- A first line that has more than its carriage return does not end the reply. -/
theorem endsReply_status {status : Text} (h : Text.asBytes status = l.bytes) :
    endsReply (status ++ ['\r']) = false := by
  have hne : status ≠ [] := by
    rintro rfl
    exact List.append_ne_nil_of_right_ne_nil _ (List.cons_ne_nil _ _) h.symm
  simpa [endsReply] using hne

theorem awaitTunnel_isOk_iff (hline : l.bytes ++ Launcher.crlf <+: Chunk.join reads) :
    (∃ transport, awaitTunnel reads = .ok transport) ↔
      (l.IsOk ∨ l.ReasonHas200) ∧ HasHeaderBlock (Chunk.join reads) := by
  obtain ⟨rest, hrest⟩ := hline
  rw [List.append_assoc] at hrest
  constructor
  · rintro ⟨transport, h⟩
    obtain ⟨line, hline, hstatus, hheaders⟩ := awaitTunnel_eq_ok h
    have htext := okOr_eq_ok_iff.mp hline
    have hblock := readReplyHeaders_eq_ok hheaders
    rcases BufReader.readUntil_cases htext with ⟨s, rfl, hs, hsplit⟩ | ⟨-, hend⟩
    · rw [BufReader.pending_new, ← hrest] at hsplit
      obtain ⟨status, rfl, hbytes, hpending⟩ := l.exists_firstLine hs hsplit.symm
      obtain ⟨lines, blank, after, hafter, hnl, hlines, hblank⟩ := hblock
      rw [List.append_assoc] at hstatus
      refine ⟨(l.contains_200_break_iff (t := ['\n']) hbytes (by decide)).mp hstatus,
        (status ++ ['\r']) :: lines, blank, after, ?_, List.forall_mem_cons.mpr ⟨hs, hnl⟩,
        List.forall_mem_cons.mpr ⟨endsReply_status hbytes, hlines⟩, hblank⟩
      rw [List.cons_append, BufReader.asBytes_unlines_cons, ← hafter, ← hrest, hsplit]
      rfl
    · exact absurd hend hblock.ne_nil
  · rintro ⟨hstatus, lines, blank, after, hreads, hnl, hlines, hblank⟩
    cases lines with
    | nil =>
      rw [hreads, List.nil_append, BufReader.asBytes_unlines_cons] at hrest
      obtain ⟨status, rfl, hbytes, -⟩ :=
        l.exists_firstLine (hnl blank List.mem_cons_self) hrest.symm
      rw [endsReply_status hbytes] at hblank
      cases hblank
    | cons s lines =>
      rw [hreads, List.cons_append, BufReader.asBytes_unlines_cons] at hrest
      obtain ⟨status, rfl, hbytes, -⟩ := l.exists_firstLine (hnl s List.mem_cons_self) hrest.symm
      have hcontains := (l.contains_200_break_iff (t := []) hbytes (by decide)).mpr hstatus
      rw [List.forall_mem_cons] at hlines
      obtain ⟨r, -, -, hok⟩ := awaitTunnel_of_head
        ⟨_, lines, blank, hnl, hcontains, hlines.2, hblank⟩ hreads
      exact ⟨_, hok⟩

end Reply

/-! ### Both -/

/-- A response that begins with the status line is taken for a success only if its code is 200, by
either program, exactly if the code is 200, or the reason phrase does not have ` 200 ` in it, or
there is no token, or no complete header block, behind the line. -/
theorem success_iff (l : StatusLine) :
    (∀ (checks : Bool) (response : Slice), l.bytes ++ Launcher.crlf <+: response.1 →
      (((∃ token, Launcher.parseHttpTokenResponse checks response = .ok token) → l.IsOk) ↔
        (l.IsOk ∨ ¬ l.ReasonHas200 ∨ ¬ Launcher.HasToken checks response))) ∧
    (∀ (dial : Dial) (u : Url) (g a t : Text) (peer : Bytes → Reads), dial g = some peer →
      relayAuthority u = .ok a →
      l.bytes ++ Launcher.crlf <+: Chunk.join (peer (Text.asBytes (connectRequest a t))) →
      (((∃ transport, connectTransport dial u (some g) (some t) = .ok transport) → l.IsOk) ↔
        (l.IsOk ∨ ¬ l.ReasonHas200 ∨
          ¬ HasHeaderBlock (Chunk.join (peer (Text.asBytes (connectRequest a t))))))) := by
  have key : ∀ {accepts complete : Prop}, (accepts ↔ (l.IsOk ∨ l.ReasonHas200) ∧ complete) →
      ((accepts → l.IsOk) ↔ (l.IsOk ∨ ¬ l.ReasonHas200 ∨ ¬ complete)) := by
    intro accepts complete h
    rw [h]
    tauto
  refine ⟨fun checks response hline => key (Launcher.parseHttpTokenResponse_isOk_iff hline), ?_⟩
  intro dial u g a t peer hdial ha hline
  rw [connectTransport_gateway hdial ha]
  exact key (awaitTunnel_isOk_iff hline)

section Samples

/-- `HTTP/1.1 404 Not Found` -/
def notFoundLine : StatusLine where
  minor := '1'
  code := "404".toList
  reason := Text.asBytes "Not Found".toList
  minor_digit := by decide
  code_length := by decide
  code_digits := by simp
  reason_oneLine := by decide +kernel

/-- `HTTP/1.1 500 see 200 below` -/
def lyingLine : StatusLine where
  minor := '1'
  code := "500".toList
  reason := Text.asBytes "see 200 below".toList
  minor_digit := by decide
  code_length := by decide
  code_digits := by simp
  reason_oneLine := by decide +kernel

/-- The line alone, and behind the empty line a token. -/
def tokenResponse (l : StatusLine) : Bytes :=
  l.bytes ++ Launcher.crlfcrlf ++ Text.asBytes "token".toList

def notFoundResponse : Slice := ⟨tokenResponse notFoundLine, by decide⟩

def notFoundChunk : Chunk UInt8 8192 := ⟨tokenResponse notFoundLine, by decide, by decide⟩

def lyingResponse : Slice := ⟨tokenResponse lyingLine, by decide⟩

def lyingChunk : Chunk UInt8 8192 := ⟨tokenResponse lyingLine, by decide, by decide⟩

def lyingHead : Text := "HTTP/1.1 500 see 200 below\r\n\r\n".toList

/-- Neither program takes this line for a success. -/
theorem notFoundLine_refused :
    (¬ ∃ token, Launcher.parseHttpTokenResponse true notFoundResponse = .ok token) ∧
      ¬ ∃ transport, connectTransport (fun _ => some fun _ => [notFoundChunk]) sampleUrl
        (some "gateway:443".toList) (some "t".toList) = .ok transport := by
  have hline : notFoundLine.bytes ++ Launcher.crlf <+: tokenResponse notFoundLine := by decide
  have hreply : notFoundLine.bytes ++ Launcher.crlf <+: Chunk.join [notFoundChunk] := hline
  have hnot : ¬ notFoundLine.IsOk := by decide
  have hreason : ¬ notFoundLine.ReasonHas200 := by decide +kernel
  obtain ⟨hlauncher, hgateway⟩ := success_iff notFoundLine
  have hrefused := (hlauncher true notFoundResponse hline).mpr (.inr (.inl hreason))
  have hrefused' := (hgateway (fun _ => some fun _ => [notFoundChunk]) sampleUrl
    "gateway:443".toList "10.0.0.5:8443".toList "t".toList _ rfl (by decide) hreply).mpr
      (.inr (.inl hreason))
  exact ⟨fun h => hnot (hrefused h), fun h => hnot (hrefused' h)⟩

/-- The reason phrase makes a failure a success, to both. -/
theorem lyingLine_accepted :
    lyingLine.bytes ++ Launcher.crlf <+: lyingResponse.1 ∧
      lyingLine.bytes ++ Launcher.crlf <+: Chunk.join [lyingChunk] ∧
      (∃ token, Launcher.parseHttpTokenResponse true lyingResponse = .ok token) ∧
      (∃ token, Launcher.parseHttpTokenResponse false lyingResponse = .ok token) ∧
      (∃ transport, connectTransport (fun _ => some fun _ => [lyingChunk]) sampleUrl
        (some "gateway:443".toList) (some "t".toList) = .ok transport) ∧ ¬ lyingLine.IsOk := by
  have hline : lyingLine.bytes ++ Launcher.crlf <+: tokenResponse lyingLine := by decide
  have hreason : lyingLine.ReasonHas200 := by decide +kernel
  have htoken : ∀ checks, Launcher.HasToken checks lyingResponse := by
    intro checks
    have hhead : Bytes.range lyingResponse.1 0 30 = Text.asBytes lyingHead := by decide +kernel
    refine ⟨30, lyingHead, Text.asBytes "token".toList, ⟨26, by decide +kernel, rfl, ?_⟩, ?_,
      116, by decide, by decide⟩
    · rw [hhead, Text.fromUtf8_asBytes]
    · rw [Launcher.decodeBody, if_neg (by decide +kernel)]
      decide +kernel
  have hblock : HasHeaderBlock (Chunk.join [lyingChunk]) :=
    ⟨["HTTP/1.1 500 see 200 below\r".toList], ['\r'], Text.asBytes "token".toList,
      by decide +kernel, by decide +kernel, by decide +kernel, by decide⟩
  have hjoin : lyingLine.bytes ++ Launcher.crlf <+: Chunk.join [lyingChunk] := hline
  have hparse : ∀ checks, ∃ token,
      Launcher.parseHttpTokenResponse checks lyingResponse = .ok token := fun checks =>
    (Launcher.parseHttpTokenResponse_isOk_iff hline).mpr ⟨.inr hreason, htoken checks⟩
  refine ⟨hline, hjoin, hparse true, hparse false, ?_, by decide⟩
  have ha : relayAuthority sampleUrl = .ok "10.0.0.5:8443".toList := by decide
  rw [connectTransport_gateway rfl ha]
  exact (awaitTunnel_isOk_iff hjoin).mpr ⟨.inr hreason, hblock⟩

end Samples

end TrustedRelay
