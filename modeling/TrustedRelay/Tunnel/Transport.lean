import TrustedRelay.Tunnel.Gateway
import TrustedRelay.Url.Parse

/-!
# The local proxy's way to the relay

`connect_transport` connects the relay itself, or a gateway that it asks for a tunnel. It writes
one `CONNECT` request, reads the header block of the reply through a `BufReader`, and gives the
socket to TLS. A `Dial` is the network as it sees it: what the peer at an address sends back once
it has been sent some bytes, and in which reads that arrives.

Both ends drop their reader when the tunnel starts.

* `handOver_eq_rest_iff`: neither end passes on what its reader has read too far. The tunnel's
  bytes arrive complete exactly if a read ends where the header block ends.
* `handshake_iff`: the two ends agree about the token only as far as it survives a header line.
-/

namespace TrustedRelay

open Delimited Gateway

/-- The peer at an address, if it can be connected: what it sends, given what it is sent first. -/
abbrev Dial := Text → Option (Bytes → Reads)

def relayAuthority (url : Url) : Except Text Text := do
  let host ← okOr url.hostStr "relay endpoint missing host".toList
  let port ← okOr url.portOrKnownDefault "relay endpoint missing port".toList
  .ok (host ++ ":".toList ++ Text.decimal port)

/-- The request that asks the gateway for a tunnel. -/
def connectRequest (authority token : Text) : Text :=
  "CONNECT ".toList ++ authority ++ " HTTP/1.1\r\nHost: ".toList ++ authority ++
    "\r\nAuthorization: Bearer ".toList ++ token ++ "\r\n\r\n".toList

/-- One round of the loop over the reply's header lines. -/
def replyLine (_ : Unit) (line : Text) : Unit ⊕ Except Text Unit :=
  if line = "\r\n".toList ∨ line = "\n".toList then .inr (.ok ()) else .inl ()

def readReplyHeaders (r : BufReader UInt8 8192) :
    Except Text (Except Text Unit) × BufReader UInt8 8192 :=
  r.readTextLines (fun _ => .error "gateway closed before tunnel establishment".toList) replyLine ()

/-- Read the gateway's reply, and leave what is still on the socket. -/
def awaitTunnel (reads : Reads) : Except Text Bytes :=
  match (BufReader.new reads).readLine with
  | (.error e, _) => .error e
  | (.ok status, r) =>
    if ¬Text.contains status " 200 ".toList then
      .error ("gateway CONNECT failed: ".toList ++ Text.trim status)
    else
      match readReplyHeaders r with
      | (.error e, _) => .error e
      | (.ok (.error e), _) => .error e
      | (.ok (.ok ()), r) => .ok r.intoInner

/-- The transport is what TLS then reads. -/
def connectTransport (dial : Dial) (relayBase : Url) (gatewayAddr gatewayToken : Option Text) :
    Except Text Bytes :=
  match gatewayAddr with
  | some gatewayAddr => do
    let peer ← okOr (dial gatewayAddr) ("failed to connect gateway ".toList ++ gatewayAddr)
    let authority ← relayAuthority relayBase
    let token ← okOr gatewayToken "gateway token is required with gateway addr".toList
    awaitTunnel (peer (Text.asBytes (connectRequest authority token)))
  | none => do
    let addr ← relayAuthority relayBase
    let peer ← okOr (dial addr) ("failed to connect relay ".toList ++ addr)
    .ok (Chunk.join (peer []))

theorem connectTransport_gateway {dial : Dial} {u : Url} {g a t : Text} {peer : Bytes → Reads}
    (hdial : dial g = some peer) (ha : relayAuthority u = .ok a) :
    connectTransport dial u (some g) (some t) =
      awaitTunnel (peer (Text.asBytes (connectRequest a t))) := by
  simp only [connectTransport, hdial, ha]
  rfl

/-! ### The reply -/

/-- The proxy goes on only if the first line has ` 200 ` and the header block ends. -/
theorem awaitTunnel_eq_ok {reads : Reads} {transport : Bytes}
    (h : awaitTunnel reads = .ok transport) :
    ∃ line, (BufReader.new reads).readLine.1 = .ok line ∧
      Text.contains line " 200 ".toList = true ∧
      (readReplyHeaders (BufReader.new reads).readLine.2).1 = .ok (.ok ()) := by
  rw [awaitTunnel] at h
  split at h
  · cases h
  · next line r hline =>
    split_ifs at h with hcontains
    split at h
    · cases h
    · cases h
    · next r' hheaders =>
      rw [hline, hheaders]
      exact ⟨line, rfl, hcontains, rfl⟩

/-- A line, without its newline, that ends the reply's header block. -/
def endsReply (line : Text) : Bool := line = "\r".toList ∨ line = []

/-- A header block that the proxy takes for success. -/
structure ReplyHead where
  status : Text
  headers : List Text
  blank : Text
  newline_not_mem : ∀ l ∈ status :: (headers ++ [blank]), '\n' ∉ l
  contains_200 : Text.contains status " 200 ".toList = true
  endsReply_headers : ∀ l ∈ headers, endsReply l = false
  endsReply_blank : endsReply blank = true

def ReplyHead.bytes (head : ReplyHead) : Bytes :=
  Text.asBytes (unlines '\n' (head.status :: (head.headers ++ [head.blank])))

theorem replyLine_concat_newline (l : Text) :
    replyLine () (l ++ ['\n']) = if endsReply l then .inr (.ok ()) else .inl () := by
  have hcr : l ++ ['\n'] = "\r\n".toList ↔ l = "\r".toList := by
    have hlit : "\r\n".toList = "\r".toList ++ ['\n'] := rfl
    rw [hlit, List.append_left_inj]
  have hnl : l ++ ['\n'] = "\n".toList ↔ l = [] := by simp
  simp only [replyLine, hcr, hnl, endsReply, decide_eq_true_eq]

/-- The loop ends with the first line that ends a reply. -/
theorem overLines_replyLine {headers : List Text} {blank : Text}
    (hheaders : ∀ l ∈ headers, endsReply l = false) (hblank : endsReply blank = true) :
    BufReader.overLines replyLine () (headers ++ [blank]) = some (.ok (), []) := by
  induction headers with
  | nil => rw [List.nil_append, BufReader.overLines, replyLine_concat_newline, if_pos hblank]
  | cons l headers ih =>
    rw [List.cons_append, BufReader.overLines, replyLine_concat_newline,
      if_neg (by simp [hheaders l List.mem_cons_self])]
    exact ih fun m hm => hheaders m (List.mem_cons_of_mem _ hm)

/-- On a reply that begins with such a block the proxy goes on, and exactly what follows the block
is left to its reader. -/
theorem awaitTunnel_of_head (head : ReplyHead) {reads : Reads} {rest : Bytes}
    (hreads : Chunk.join reads = head.bytes ++ rest) :
    ∃ r : BufReader UInt8 8192, BufReader.Reached reads r ∧ r.pending = rest ∧
      awaitTunnel reads = .ok r.intoInner := by
  have hpending : (BufReader.new reads).pending =
      Text.asBytes head.status ++
        10 :: (Text.asBytes (unlines '\n' (head.headers ++ [head.blank])) ++ rest) := by
    rw [BufReader.pending_new, hreads, ReplyHead.bytes, BufReader.asBytes_unlines_cons]
  obtain ⟨hline, hrest⟩ :=
    BufReader.readLine_of_line (head.newline_not_mem _ List.mem_cons_self) hpending
  obtain ⟨hheaders, hafter⟩ := BufReader.readTextLines_of_overLines
    (fun _ => .error "gateway closed before tunnel establishment".toList)
    (fun l hl => head.newline_not_mem l (List.mem_cons_of_mem _ hl)) hrest
    (overLines_replyLine head.endsReply_headers head.endsReply_blank)
  change (readReplyHeaders _).1 = _ at hheaders
  have hreached : BufReader.Reached reads (readReplyHeaders (BufReader.new reads).readLine.2).2 :=
    (BufReader.Reached.new reads).readLine.readTextLines
  have hstatus : Text.contains (head.status ++ ['\n']) " 200 ".toList = true := by
    have hinf := of_decide_eq_true head.contains_200
    exact decide_eq_true (hinf.trans (List.prefix_append _ _).isInfix)
  refine ⟨_, hreached, hafter, ?_⟩
  rw [awaitTunnel, ← Prod.mk.eta (p := (BufReader.new reads).readLine), hline]
  dsimp only
  rw [if_neg (not_not.mpr hstatus), ← Prod.mk.eta (p := readReplyHeaders _), hheaders]

/-! ### The hand-over -/

/-- The bytes that a dropped reader leaves on the socket are all that follow the header block
exactly if a read ended with it. -/
theorem intoInner_eq_iff {reads : Reads} {r : BufReader UInt8 8192} {head rest : Bytes}
    (hreached : BufReader.Reached reads r) (hpending : r.pending = rest)
    (hreads : Chunk.join reads = head ++ rest) :
    r.intoInner = rest ↔ ∃ k, Chunk.join (reads.take k) = head := by
  subst hpending
  rw [BufReader.intoInner_eq_pending_iff, hreached.buffer_eq_nil_iff hreads]

/-- What the two ends pass on, for a stream that arrives in `reads` and ends with `rest`. The
gateway, if the stream begins with an authorised `CONNECT` block, opens the tunnel, and the relay
receives exactly what follows the block if and only if one of the reads ends with the block. The
proxy, if it is the reply to its request and begins with a success block, gives TLS exactly what
follows that block under the same condition. -/
theorem handOver_eq_rest_iff (reads : Reads) (rest : Bytes) :
    (∀ (connects : Text → Bool) (relayAddr token : Text) (head : ConnectHead relayAddr token),
      connects relayAddr = true → Chunk.join reads = head.bytes ++ rest →
        ∃ delivered, handleConnection connects relayAddr token reads = .tunnel delivered ∧
          (delivered = rest ↔ ∃ k, Chunk.join (reads.take k) = head.bytes)) ∧
    (∀ (dial : Dial) (u : Url) (g a t : Text) (peer : Bytes → Reads) (head : ReplyHead),
      dial g = some peer → relayAuthority u = .ok a →
      peer (Text.asBytes (connectRequest a t)) = reads → Chunk.join reads = head.bytes ++ rest →
        ∃ transport, connectTransport dial u (some g) (some t) = .ok transport ∧
          (transport = rest ↔ ∃ k, Chunk.join (reads.take k) = head.bytes)) := by
  constructor
  · intro connects relayAddr token head hup hreads
    obtain ⟨r, hreached, hpending, heq⟩ := handleConnection_of_head head hup hreads
    exact ⟨r.intoInner, heq, intoInner_eq_iff hreached hpending hreads⟩
  · intro dial u g a t peer head hdial ha hpeer hreads
    obtain ⟨r, hreached, hpending, heq⟩ := awaitTunnel_of_head head hreads
    refine ⟨r.intoInner, ?_, intoInner_eq_iff hreached hpending hreads⟩
    rw [connectTransport_gateway hdial ha, hpeer, heq]

section Samples

/-- `CONNECT 10.0.0.5:8443` with the token `t`. -/
def sampleHead : ConnectHead "10.0.0.5:8443".toList "t".toList where
  requestLine := "CONNECT 10.0.0.5:8443 HTTP/1.1\r".toList
  headers := ["Authorization: Bearer t\r".toList]
  blank := "\r".toList
  newline_not_mem := by decide
  method := by decide
  authority := by decide
  isHeader_headers := by decide
  isHeader_blank := by decide
  authorized := by decide

def establishedHead : ReplyHead where
  status := "HTTP/1.1 200 Connection Established\r".toList
  headers := []
  blank := "\r".toList
  newline_not_mem := by decide
  contains_200 := by decide
  endsReply_headers := by decide
  endsReply_blank := by decide

def hello : Bytes := Text.asBytes "hello".toList

def helloChunk : Chunk UInt8 8192 := ⟨hello, by decide, by decide⟩

def headChunk : Chunk UInt8 8192 := ⟨sampleHead.bytes, by decide, by decide⟩

/-- The client does not wait for the answer. -/
def earlyChunk : Chunk UInt8 8192 := ⟨sampleHead.bytes ++ hello, by decide, by decide⟩

def establishedChunk : Chunk UInt8 8192 := ⟨Text.asBytes established, by decide, by decide⟩

def sampleHost : Host := (Host.ofText .ipv4 "10.0.0.5".toList).get (by decide)

def sampleUrl : Url := ⟨"https".toList, [], none, some sampleHost, some 8443⟩

/-- Everything at a read boundary: the block, then the data. -/
theorem separateReads_hand_over :
    (∃ delivered, handleConnection (fun _ => true) "10.0.0.5:8443".toList "t".toList
        [headChunk, helloChunk] = .tunnel delivered ∧ delivered = hello) ∧
      ∃ transport, connectTransport (fun _ => some fun _ => [establishedChunk, helloChunk]) sampleUrl
        (some "gateway:443".toList) (some "t".toList) = .ok transport ∧ transport = hello := by
  obtain ⟨delivered, heq, hiff⟩ := (handOver_eq_rest_iff [headChunk, helloChunk] hello).1
    (fun _ => true) _ _ sampleHead rfl (by decide)
  obtain ⟨transport, heq', hiff'⟩ := (handOver_eq_rest_iff [establishedChunk, helloChunk] hello).2
    (fun _ => some fun _ => [establishedChunk, helloChunk]) sampleUrl "gateway:443".toList
    "10.0.0.5:8443".toList "t".toList _ establishedHead rfl (by decide) rfl (by decide)
  exact ⟨⟨delivered, heq, hiff.mpr ⟨1, by decide⟩⟩, transport, heq', hiff'.mpr ⟨1, by decide⟩⟩

/-- Data in the read that ends the block is lost. -/
theorem earlyData_is_lost :
    Chunk.join [earlyChunk] = sampleHead.bytes ++ hello ∧ hello ≠ [] ∧
      handleConnection (fun _ => true) "10.0.0.5:8443".toList "t".toList [earlyChunk] =
        .tunnel [] := by
  decide +kernel

end Samples

/-! ### The request at the gateway -/

/-- The header lines that a token makes of the request, before the blank line that ends it. -/
def tokenLines (t : Text) : List Text :=
  ("Authorization: Bearer ".toList ++ t ++ ['\r']).splitOn '\n'

private theorem unlines_request (connect version host auth a t : Text) :
    unlines '\n' ((connect ++ a ++ version) :: (host ++ a ++ ['\r']) ::
        ((auth ++ t ++ ['\r']).splitOn '\n' ++ [['\r']])) =
      connect ++ a ++ (version ++ '\n' :: host) ++ a ++ ('\r' :: '\n' :: auth) ++ t ++
        ['\r', '\n', '\r', '\n'] := by
  rw [unlines_cons, unlines_cons, unlines_append, unlines_splitOn]
  simp

/-- The request as lines. -/
theorem connectRequest_eq_unlines (a t : Text) :
    connectRequest a t = unlines '\n' (("CONNECT ".toList ++ a ++ " HTTP/1.1\r".toList) ::
      ("Host: ".toList ++ a ++ ['\r']) :: (tokenLines t ++ [['\r']])) := by
  rw [tokenLines, unlines_request]
  rfl

/-- An authority is one word. -/
theorem relayAuthority_word {u : Url} {a : Text} (h : relayAuthority u = .ok a) :
    a ≠ [] ∧ ∀ c ∈ a, Text.isWhitespace c = false := by
  simp only [relayAuthority, Except.bind_eq_ok_iff, okOr_eq_ok_iff, Except.ok.injEq] at h
  obtain ⟨host, hhost, port, -, rfl⟩ := h
  obtain ⟨hst, -, rfl⟩ := Option.map_eq_some_iff.mp hhost
  refine ⟨by simp, fun c hc => ?_⟩
  rw [List.append_assoc, List.mem_append, List.mem_append] at hc
  obtain hc | hc | hc := hc
  · obtain ⟨hlow, hhigh, -⟩ := Host.hostStr_range hc
    exact Text.isWhitespace_of_visible hlow hhigh
  · obtain rfl := List.mem_singleton.mp hc
    decide
  · have hk : HostKind.ipv4.isChar c = true := by
      simp [HostKind.isChar, Text.isDigit_of_mem_decimal hc]
    obtain ⟨hlow, hhigh, -⟩ := HostKind.isChar_range hk
    exact Text.isWhitespace_of_visible hlow hhigh

/-- The words of the request line. -/
theorem splitWhitespace_requestLine {a : Text} (ha : a ≠ [])
    (hword : ∀ c ∈ a, Text.isWhitespace c = false) :
    Text.splitWhitespace (trimCrLf ("CONNECT ".toList ++ a ++ " HTTP/1.1\r".toList)) =
      ["CONNECT".toList, a, "HTTP/1.1".toList] := by
  have htrim : trimCrLf ("CONNECT ".toList ++ a ++ " HTTP/1.1\r".toList) =
      "CONNECT".toList ++ ' ' :: (a ++ ' ' :: "HTTP/1.1".toList) := by
    rw [trimCrLf, Text.rdropWhile_append, if_neg (by decide)]
    simp [List.rdropWhile, isCrLf]
  rw [htrim, Text.splitWhitespace_append_cons (by decide) (by simp [Text.isWhitespace]) (by decide),
    Text.splitWhitespace_append_cons ha hword (by decide),
    Text.splitWhitespace_word (by decide) (by simp [Text.isWhitespace])]

/-- The token that the gateway takes the client to present, with its `Bearer`. -/
def presented (t : Text) : Option Text :=
  lastAuthorization (((tokenLines t).takeWhile isHeader).map trimCrLf)

theorem authorizationValue_host (a : Text) :
    isHeader ("Host: ".toList ++ a ++ ['\r']) = true ∧
      authorizationValue (trimCrLf ("Host: ".toList ++ a ++ ['\r'])) = none := by
  have htrim : trimCrLf ("Host: ".toList ++ a ++ ['\r']) =
      "Host".toList ++ ':' :: ' ' :: trimCrLf a := trimCrLf_line (by decide) a
  refine ⟨by rw [isHeader, htrim]; rfl, ?_⟩
  rw [htrim, authorizationValue, Text.splitOnce_append (by decide)]
  rfl

/-- The request's own blank line ends the block if the token does not. -/
theorem takeWhile_tokenLines (t : Text) : (tokenLines t ++ [['\r']]).takeWhile isHeader =
    (tokenLines t).takeWhile isHeader := by
  have hblank : isHeader ['\r'] = false := by decide
  rw [List.takeWhile_append]
  split_ifs with hall
  · rw [List.takeWhile_cons_of_neg (by simp [hblank]), List.append_nil,
      (List.takeWhile_prefix isHeader).eq_of_length hall]
  · rfl

theorem newline_not_mem_requestLines {u : Url} {a : Text} (ha : relayAuthority u = .ok a)
    (t : Text) : ∀ l ∈ ("CONNECT ".toList ++ a ++ " HTTP/1.1\r".toList) ::
      ("Host: ".toList ++ a ++ ['\r']) :: (tokenLines t ++ [['\r']]), '\n' ∉ l := by
  obtain ⟨-, hword⟩ := relayAuthority_word ha
  have hnl : ∀ c ∈ a, c ≠ '\n' := by
    rintro c hc rfl
    exact absurd (hword _ hc) (by decide)
  intro l hl
  rw [List.mem_cons, List.mem_cons, List.mem_append, List.mem_singleton] at hl
  obtain rfl | rfl | hl | rfl := hl
  · simpa using fun h => hnl _ h rfl
  · simpa using fun h => hnl _ h rfl
  · exact not_mem_of_mem_splitOn hl
  · decide

/-- The gateway opens the tunnel for the request exactly if the authority is its relay address and
its own token is the one presented. -/
theorem isTunnel_iff {connects : Text → Bool} {u : Url} {a a' t t' : Text} {reads : Reads}
    (ha : relayAuthority u = .ok a) (hup : connects a' = true)
    (hreads : Chunk.join reads = Text.asBytes (connectRequest a t)) :
    (handleConnection connects a' t' reads).isTunnel = true ↔
      a = a' ∧ presented t = some (bearer t') := by
  obtain ⟨hne, hword⟩ := relayAuthority_word ha
  have hwords := splitWhitespace_requestLine hne hword
  have hlines := newline_not_mem_requestLines ha t
  have hblank : isHeader ['\r'] = false := by decide
  obtain ⟨hhost, hvalue⟩ := authorizationValue_host a
  rw [connectRequest_eq_unlines, ← List.append_nil (Text.asBytes _)] at hreads
  obtain ⟨r, -, -, hanswer⟩ := handleConnection_of_lines connects a' t' hlines
    ⟨['\r'], by simp, hblank⟩ (by rw [hwords]; rfl) hreads
  rw [hanswer, List.takeWhile_cons_of_pos hhost, takeWhile_tokenLines, List.map_cons, lastAuthorization,
    List.filterMap_cons_none hvalue, hwords]
  change (answer connects a' a (presented t = some (bearer t')) r).isTunnel = true ↔ _
  rw [answer]
  split_ifs with h1 h2 <;> simp_all [Served.isTunnel, reject]

/-! ### Tokens and header lines -/

/-- The value of a header line is part of it. -/
theorem mem_of_mem_authorizationValue {line value : Text} {c : Char}
    (h : authorizationValue line = some value) (hc : c ∈ value) : c ∈ line := by
  rw [authorizationValue, Text.splitOnce] at h
  cases hdrop : line.dropWhile (· != ':') with
  | nil => simp [hdrop] at h
  | cons x rest =>
    simp only [hdrop, Option.ite_none_right_eq_some, Option.some.injEq] at h
    obtain ⟨-, rfl⟩ := h
    have hrest : c ∈ rest := (List.dropWhile_suffix _).mem ((List.rdropWhile_prefix _ _).mem hc)
    exact (List.dropWhile_suffix _).mem (hdrop ▸ List.mem_cons_of_mem x hrest)

/-- A presented token stands on one line. -/
theorem newline_not_mem_of_presented {t value : Text} (h : presented t = some value) :
    '\n' ∉ value := by
  intro hmem
  obtain ⟨line, hline, hvalue⟩ := List.mem_filterMap.mp (List.mem_of_getLast? h)
  obtain ⟨l, hl, rfl⟩ := List.mem_map.mp hline
  have hnl : '\n' ∈ l :=
    (List.rdropWhile_prefix isCrLf l).mem (mem_of_mem_authorizationValue hvalue hmem)
  exact not_mem_of_mem_splitOn ((List.takeWhile_prefix isHeader).mem hl) hnl

/-- A token on one line loses its trailing whitespace, and if it is blank also the space in front
of it. -/
theorem presented_of_not_mem {t : Text} (h : '\n' ∉ t) :
    presented t =
      some (if Text.trimEnd t = [] then "Bearer".toList else bearer (Text.trimEnd t)) := by
  have hlines : tokenLines t = ["Authorization: Bearer ".toList ++ t ++ ['\r']] := by
    rw [tokenLines, List.splitOn_eq_singleton]
    simpa using h
  have htrim : trimCrLf ("Authorization: Bearer ".toList ++ t ++ ['\r']) =
      "Authorization".toList ++ ':' :: (" Bearer ".toList ++ trimCrLf t) :=
    trimCrLf_line (by decide) t
  have hhead : isHeader ("Authorization: Bearer ".toList ++ t ++ ['\r']) = true := by
    rw [isHeader, htrim]
    rfl
  have hvalue : Text.trim (" Bearer ".toList ++ trimCrLf t) =
      if Text.trimEnd t = [] then "Bearer".toList else bearer (Text.trimEnd t) := by
    have hstart : (" Bearer ".toList ++ trimCrLf t).dropWhile Text.isWhitespace =
        "Bearer ".toList ++ trimCrLf t := by
      change (' ' :: 'B' :: ("earer ".toList ++ trimCrLf t)).dropWhile Text.isWhitespace = _
      rw [List.dropWhile_cons_of_pos (by decide), List.dropWhile_cons_of_neg (by decide)]
      rfl
    -- the line break is whitespace too, so trimming it first changes nothing
    have hend : (trimCrLf t).rdropWhile Text.isWhitespace = Text.trimEnd t :=
      Text.rdropWhile_rdropWhile (fun _ => isWhitespace_of_isCrLf) t
    rw [Text.trim, hstart, Text.rdropWhile_append, hend]
    rfl
  rw [presented, hlines, List.takeWhile_cons_of_pos hhead, List.takeWhile_nil, List.map_singleton,
    htrim, lastAuthorization,
    List.filterMap_cons_some (b := Text.trim (" Bearer ".toList ++ trimCrLf t)),
    List.filterMap_nil, List.getLast?_singleton, hvalue]
  rw [authorizationValue, Text.splitOnce_append (by decide)]
  rfl

/-- The gateway reads the client's token back unchanged. -/
def SurvivesHeader (t : Text) : Prop := t ≠ [] ∧ '\n' ∉ t ∧ Text.trimEnd t = t

/-- The client's token `t` is read as `t'`: without its trailing whitespace, or, if it breaks the
line, as the last `Authorization` header that it spells before a blank line. -/
def ReadAs (t t' : Text) : Prop :=
  if '\n' ∈ t then presented t = some (bearer t') else t' ≠ [] ∧ Text.trimEnd t = t'

instance (t : Text) : Decidable (SurvivesHeader t) :=
  inferInstanceAs (Decidable (t ≠ [] ∧ '\n' ∉ t ∧ Text.trimEnd t = t))

instance (t t' : Text) : Decidable (ReadAs t t') :=
  inferInstanceAs (Decidable
    (if '\n' ∈ t then presented t = some (bearer t') else t' ≠ [] ∧ Text.trimEnd t = t'))

theorem presented_eq_bearer_iff {t t' : Text} : presented t = some (bearer t') ↔ ReadAs t t' := by
  unfold ReadAs
  split_ifs with hnl
  · rfl
  · rw [presented_of_not_mem hnl, Option.some.injEq]
    split_ifs with hblank
    · -- `Bearer` alone is shorter than any `Bearer` with its space
      refine iff_of_false (fun h => ?_) fun h => h.1 (h.2.symm.trans hblank)
      have hlen := congrArg List.length h
      rw [length_bearer] at hlen
      change 6 = _ at hlen
      omega
    · rw [bearer_inj]
      exact ⟨fun h => ⟨h ▸ hblank, h⟩, fun h => h.2⟩

theorem readAs_self_iff {t : Text} : ReadAs t t ↔ SurvivesHeader t := by
  rw [SurvivesHeader]
  by_cases hnl : '\n' ∈ t
  · -- what the gateway compares with its token stands on one line
    refine iff_of_false (fun h => ?_) fun h => h.2.1 hnl
    refine newline_not_mem_of_presented (presented_eq_bearer_iff.mpr h) ?_
    exact List.mem_append_right _ hnl
  · simp [ReadAs, hnl]

/-! ### The handshake -/

/-- A first line without ` 200 ` is a refusal. -/
theorem awaitTunnel_ne_ok {reads : Reads} {status : Text}
    (hline : (BufReader.new reads).readLine.1 = .ok status)
    (h : Text.contains status " 200 ".toList = false) (transport : Bytes) :
    awaitTunnel reads ≠ .ok transport := by
  intro hok
  obtain ⟨line, hline', hcontains, -⟩ := awaitTunnel_eq_ok hok
  obtain rfl := Except.ok.inj (hline.symm.trans hline')
  rw [h] at hcontains
  cases hcontains

/-- The proxy takes the gateway's reply, in whatever reads it arrives, for what it is. -/
theorem awaitTunnel_reply_iff {connects : Text → Bool} {relayAddr token : Text}
    {reads reply : Reads} {tail : Bytes}
    (hreply : Chunk.join reply = (handleConnection connects relayAddr token reads).reply ++ tail)
    (htail : (handleConnection connects relayAddr token reads).isTunnel = false → tail = []) :
    (∃ transport, awaitTunnel reply = .ok transport) ↔
      (handleConnection connects relayAddr token reads).isTunnel = true := by
  obtain ⟨delivered, h⟩ | ⟨h, hempty⟩ | ⟨status, hstatus, body, h⟩ :=
    handleConnection_cases connects relayAddr token reads
  · have hhead : (Served.tunnel delivered).reply = establishedHead.bytes := by
      have hlit : Text.asBytes established = establishedHead.bytes := by decide +kernel
      exact hlit
    rw [h, hhead] at hreply
    obtain ⟨r, -, -, hok⟩ := awaitTunnel_of_head establishedHead hreply
    rw [h]
    exact iff_of_true ⟨_, hok⟩ rfl
  · -- without an answer the first line is empty
    rw [hempty, htail h] at hreply
    have hnew := BufReader.eq_of_pending_eq_nil (r := BufReader.new reply) hreply
    have hline : (BufReader.new reply).readLine.1 = .ok [] := by rw [hnew]; rfl
    rw [h]
    exact iff_of_false (fun ⟨_, hok⟩ => awaitTunnel_ne_ok hline (by decide) _ hok) (by decide)
  · have hno : (reject status body).isTunnel = false := rfl
    rw [h] at htail hreply ⊢
    obtain ⟨rest, hstart⟩ := reply_reject status body
    rw [htail hno, hstart, List.append_nil] at hreply
    have hline : ∀ s ∈ ["405 Method Not Allowed".toList, "403 Forbidden".toList],
        '\n' ∉ "HTTP/1.1 ".toList ++ s ++ ['\r'] ∧
          Text.contains ("HTTP/1.1 ".toList ++ s ++ ['\r'] ++ ['\n']) " 200 ".toList = false := by
      decide +kernel
    obtain ⟨hnl, hcontains⟩ := hline status hstatus
    obtain ⟨hread, -⟩ := BufReader.readLine_of_line (r := BufReader.new reply) hnl hreply
    rw [hno]
    exact iff_of_false (fun ⟨_, hok⟩ => awaitTunnel_ne_ok hread hcontains _ hok) (by decide)

/-- Client and gateway at one request, for every cut of the request and of the reply into reads.
The gateway opens the tunnel exactly for its own address and token if and only if, at its own
address, equal tokens survive the header line and different ones are not read as each other. The
client goes on exactly if the tunnel is open. -/
theorem handshake_iff (connects : Text → Bool) (u : Url) (a a' t t' : Text) (reads : Reads)
    (ha : relayAuthority u = .ok a)
    (hreads : Chunk.join reads = Text.asBytes (connectRequest a t)) :
    (connects a' = true →
      (((handleConnection connects a' t' reads).isTunnel = true ↔ a = a' ∧ t = t') ↔
        (a = a' → if t = t' then SurvivesHeader t else ¬ReadAs t t'))) ∧
    (∀ (dial : Dial) (g : Text) (peer : Bytes → Reads) (tail : Bytes), dial g = some peer →
      Chunk.join (peer (Text.asBytes (connectRequest a t))) =
        (handleConnection connects a' t' reads).reply ++ tail →
      ((handleConnection connects a' t' reads).isTunnel = false → tail = []) →
        ((∃ transport, connectTransport dial u (some g) (some t) = .ok transport) ↔
          (handleConnection connects a' t' reads).isTunnel = true)) := by
  constructor
  · intro hup
    rw [isTunnel_iff ha hup hreads, presented_eq_bearer_iff]
    by_cases haa : a = a'
    · by_cases htt : t = t'
      · subst htt
        simp [haa, readAs_self_iff]
      · simp [haa, htt]
    · simp [haa]
  · intro dial g peer tail hdial hreply htail
    rw [connectTransport_gateway hdial ha]
    exact awaitTunnel_reply_iff hreply htail

section Samples

def sampleRelay : Text := "10.0.0.5:8443".toList

def secret : Text := "secret".toList

/-- The token of a configuration file with a space at the end of the line. -/
def paddedSecret : Text := "secret ".toList

def secretRequest : Chunk UInt8 8192 :=
  ⟨Text.asBytes (connectRequest sampleRelay secret), by decide, by decide⟩

def paddedRequest : Chunk UInt8 8192 :=
  ⟨Text.asBytes (connectRequest sampleRelay paddedSecret), by decide, by decide⟩

/-- A token of visible characters opens the tunnel, and the client sees it. -/
theorem secret_agreed :
    ((handleConnection (fun _ => true) sampleRelay secret [secretRequest]).isTunnel = true ↔
      sampleRelay = sampleRelay ∧ secret = secret) ∧
    ((∃ transport, connectTransport (fun _ => some fun _ => [establishedChunk]) sampleUrl
        (some "gateway:443".toList) (some secret) = .ok transport) ↔
      (handleConnection (fun _ => true) sampleRelay secret [secretRequest]).isTunnel = true) := by
  have h := handshake_iff (fun _ => true) sampleUrl sampleRelay sampleRelay secret secret
    [secretRequest] (by decide) rfl
  exact ⟨(h.1 rfl).mpr (by decide +kernel),
    h.2 _ _ _ [] rfl (by decide +kernel) (fun _ => rfl)⟩

/-- With a trailing space the gateway refuses its own token and takes another one for it. -/
theorem paddedSecret_disagreed :
    relayAuthority sampleUrl = .ok sampleRelay ∧
      Chunk.join [paddedRequest] = Text.asBytes (connectRequest sampleRelay paddedSecret) ∧
      (handleConnection (fun _ => true) sampleRelay paddedSecret [paddedRequest]).isTunnel = false ∧
      (handleConnection (fun _ => true) sampleRelay secret [paddedRequest]).isTunnel = true ∧
      paddedSecret ≠ secret := by
  decide +kernel

end Samples

end TrustedRelay
