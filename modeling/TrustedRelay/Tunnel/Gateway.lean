import TrustedRelay.Rust.BufReader

/-!
# The CONNECT gateway

`handle_connection` reads one header block from a client, line by line through a `BufReader`,
answers it, and on success joins the client's socket to the relay's. The network is a parameter:
the reads in which the client's bytes arrive, and whether the relay can be connected.

A `ConnectHead` is a header block that the gateway has to accept, described by its lines.
`handleConnection_of_head` says that the gateway opens the tunnel on every stream that begins with
one, however the stream is cut, and which bytes it then still sees; `handleConnection_of_lines` is
the underlying reading of an arbitrary block.
-/

namespace TrustedRelay

open Delimited

/-- The reads of a socket behind a `BufReader` with the default buffer of eight kilobytes. -/
abbrev Reads := List (Chunk UInt8 8192)

namespace Gateway

/-- How a connection ends, as far as the gateway decides it. In a tunnel, what the client sends
from then on reaches the relay. -/
inductive Served
  | closed
  | failed (e : Text)
  | rejected (reply : Text)
  | tunnel (delivered : Bytes)
deriving DecidableEq

def Served.isTunnel : Served → Bool
  | .tunnel _ => true
  | _ => false

def established : Text := "HTTP/1.1 200 Connection Established\r\n\r\n".toList

/-- What the gateway itself writes to the client. -/
def Served.reply : Served → Bytes
  | .closed => []
  | .failed _ => []
  | .rejected reply => Text.asBytes reply
  | .tunnel _ => Text.asBytes established

def reject (status body : Text) : Served :=
  .rejected ("HTTP/1.1 ".toList ++ status ++ "\r\nContent-Length: ".toList ++
    Text.decimal (Text.len body) ++ "\r\nConnection: close\r\n\r\n".toList ++ body)

def isCrLf (c : Char) : Bool := c == '\r' || c == '\n'

/-- `trim_end_matches(['\r', '\n'])`. -/
def trimCrLf (s : Text) : Text := s.rdropWhile isCrLf

def bearer (token : Text) : Text := "Bearer ".toList ++ token

theorem bearer_inj {token token' : Text} : bearer token = bearer token' ↔ token = token' :=
  List.append_right_inj _

theorem length_bearer (token : Text) : (bearer token).length = 7 + token.length :=
  List.length_append

/-- The value of a header line, if it is an `Authorization` header. -/
def authorizationValue (line : Text) : Option Text :=
  match Text.splitOnce line ':' with
  | some (name, value) =>
    if Text.eqIgnoreAsciiCase name "authorization".toList then some (Text.trim value) else none
  | none => none

/-- One header line: every `Authorization` header overrides those before it. -/
def authorize (token : Text) (authorized : Bool) (line : Text) : Bool :=
  match authorizationValue line with
  | some value => value == bearer token
  | none => authorized

/-- One round of the header loop. -/
def headerLine (token : Text) (authorized : Bool) (line : Text) : Bool ⊕ Option Bool :=
  if trimCrLf line = [] then .inr (some authorized)
  else .inl (authorize token authorized (trimCrLf line))

/-- The header loop, up to the blank line; `none` if the client closes before it. -/
def readHeaders (token : Text) (r : BufReader UInt8 8192) :
    Except Text (Option Bool) × BufReader UInt8 8192 :=
  r.readTextLines (fun _ => none) (headerLine token) false

section

variable (connects : Text → Bool) (relayAddr token : Text)

/-- The answer to a complete header block. -/
def answer (authority : Text) (authorized : Bool) (r : BufReader UInt8 8192) : Served :=
  if ¬authorized then reject "403 Forbidden".toList "invalid tunnel token".toList
  else if authority ≠ relayAddr then
    reject "403 Forbidden".toList "relay target not allowed".toList
  else if ¬connects relayAddr then
    .failed ("failed to connect private relay ".toList ++ relayAddr)
  else .tunnel r.intoInner

def handleConnection (reads : Reads) : Served :=
  match (BufReader.new reads).readLine with
  | (.error e, _) => .failed e
  | (.ok line, r) =>
    let words := Text.splitWhitespace (trimCrLf line)
    let method := words.head?.getD []
    let authority := words.tail.head?.getD []
    if line = [] then .closed
    else if method ≠ "CONNECT".toList then
      reject "405 Method Not Allowed".toList "CONNECT required".toList
    else
      match readHeaders token r with
      | (.error e, _) => .failed e
      | (.ok none, _) => .closed
      | (.ok (some authorized), r) => answer connects relayAddr authority authorized r

end

/-! ### The header loop -/

/-- The last `Authorization` header among some lines. -/
def lastAuthorization (lines : List Text) : Option Text :=
  (lines.filterMap authorizationValue).getLast?

/-- The loop's flag says that the last `Authorization` header is the expected one. -/
theorem foldl_authorize (token : Text) (lines : List Text) :
    lines.foldl (authorize token) false =
      decide (lastAuthorization lines = some (bearer token)) := by
  induction lines using List.reverseRecOn with
  | nil => rfl
  | append_singleton lines line ih =>
    rw [List.foldl_append, List.foldl_cons, List.foldl_nil, authorize, lastAuthorization,
      List.filterMap_append]
    cases hv : authorizationValue line with
    | none => simpa [hv, lastAuthorization] using ih
    | some value => simp [hv, beq_eq_decide]

theorem isWhitespace_of_isCrLf {c : Char} (h : isCrLf c = true) : Text.isWhitespace c = true := by
  simp only [isCrLf, Bool.or_eq_true, beq_iff_eq] at h
  obtain rfl | rfl := h <;> decide

/-- A header line that does not end the block. -/
def isHeader (line : Text) : Bool := trimCrLf line ≠ []

theorem trimCrLf_concat_newline (l : Text) : trimCrLf (l ++ ['\n']) = trimCrLf l :=
  List.rdropWhile_concat_pos _ _ _ (by decide)

/-- A line whose fixed beginning does not end in a line break keeps that beginning. -/
theorem trimCrLf_line {start : Text} (h : trimCrLf start = start) (s : Text) :
    trimCrLf (start ++ s ++ ['\r']) = start ++ trimCrLf s := by
  rw [trimCrLf, List.rdropWhile_concat_pos _ _ _ (by decide), Text.rdropWhile_append]
  split_ifs with hnil
  · rw [trimCrLf, hnil, List.append_nil]
    exact h
  · rfl

/-- The loop takes the lines before the first blank one. -/
theorem overLines_headerLine (token : Text) {lines : List Text} (b : Bool)
    (h : ∃ l ∈ lines, isHeader l = false) :
    BufReader.overLines (headerLine token) b lines =
      some (some (((lines.takeWhile isHeader).map trimCrLf).foldl (authorize token) b),
        (lines.dropWhile isHeader).tail) := by
  induction lines generalizing b with
  | nil => simp at h
  | cons l lines ih =>
    rw [BufReader.overLines, headerLine, trimCrLf_concat_newline]
    by_cases hl : trimCrLf l = []
    · simp [hl, isHeader]
    · -- the blank line is further down, and this line only changes the flag
      have hhead : isHeader l = true := by simpa [isHeader] using hl
      obtain ⟨m, hm, hblank⟩ := h
      have hrest : ∃ m ∈ lines, isHeader m = false := by
        rcases List.mem_cons.mp hm with rfl | hm
        · rw [hhead] at hblank
          exact absurd hblank (by decide)
        · exact ⟨m, hm, hblank⟩
      rw [if_neg hl, List.takeWhile_cons_of_pos hhead, List.dropWhile_cons_of_pos hhead,
        List.map_cons, List.foldl_cons]
      exact ih _ hrest

/-! ### Reading a block -/

/-- A block of lines that starts with a `CONNECT` line and holds a blank line is answered by what
stands before the blank line, and what stands after it is still to be read. -/
theorem handleConnection_of_lines (connects : Text → Bool) (relayAddr token : Text) {reads : Reads}
    {requestLine : Text} {lines : List Text} {rest : Bytes}
    (hlines : ∀ l ∈ requestLine :: lines, '\n' ∉ l)
    (hblank : ∃ l ∈ lines, isHeader l = false)
    (hmethod : (Text.splitWhitespace (trimCrLf requestLine)).head? = some "CONNECT".toList)
    (hreads : Chunk.join reads = Text.asBytes (unlines '\n' (requestLine :: lines)) ++ rest) :
    ∃ r : BufReader UInt8 8192, BufReader.Reached reads r ∧
      r.pending = Text.asBytes (unlines '\n' (lines.dropWhile isHeader).tail) ++ rest ∧
      handleConnection connects relayAddr token reads =
        answer connects relayAddr
          ((Text.splitWhitespace (trimCrLf requestLine)).tail.head?.getD [])
          (lastAuthorization ((lines.takeWhile isHeader).map trimCrLf) = some (bearer token)) r := by
  have hpending : (BufReader.new reads).pending =
      Text.asBytes requestLine ++ 10 :: (Text.asBytes (unlines '\n' lines) ++ rest) := by
    rw [BufReader.pending_new, hreads, BufReader.asBytes_unlines_cons]
  obtain ⟨hline, hrest⟩ := BufReader.readLine_of_line (hlines _ List.mem_cons_self) hpending
  obtain ⟨hheaders, hafter⟩ := BufReader.readTextLines_of_overLines (fun _ => none)
    (fun l hl => hlines l (List.mem_cons_of_mem _ hl)) hrest
    (overLines_headerLine token false hblank)
  change (readHeaders token _).1 = _ at hheaders
  have hreached : BufReader.Reached reads (readHeaders token (BufReader.new reads).readLine.2).2 :=
    (BufReader.Reached.new reads).readLine.readTextLines
  have hne : requestLine ++ ['\n'] ≠ [] :=
    List.append_ne_nil_of_right_ne_nil requestLine (List.cons_ne_nil _ _)
  refine ⟨_, hreached, hafter, ?_⟩
  -- what is left is the code's own path through its checks
  rw [← foldl_authorize, handleConnection, ← Prod.mk.eta (p := (BufReader.new reads).readLine),
    hline]
  dsimp only
  rw [if_neg hne, trimCrLf_concat_newline, hmethod, Option.getD_some, if_neg (not_not.mpr rfl),
    ← Prod.mk.eta (p := readHeaders token _), hheaders]

section

variable {connects : Text → Bool} {relayAddr token : Text}

/-- A header block that asks for a tunnel to `relayAddr` with the given token. -/
structure ConnectHead (relayAddr token : Text) where
  requestLine : Text
  headers : List Text
  blank : Text
  newline_not_mem : ∀ l ∈ requestLine :: (headers ++ [blank]), '\n' ∉ l
  method : (Text.splitWhitespace (trimCrLf requestLine)).head? = some "CONNECT".toList
  authority : (Text.splitWhitespace (trimCrLf requestLine)).tail.head?.getD [] = relayAddr
  isHeader_headers : ∀ l ∈ headers, isHeader l = true
  isHeader_blank : isHeader blank = false
  authorized : lastAuthorization (headers.map trimCrLf) = some (bearer token)

/-- The bytes of the block, blank line included. -/
def ConnectHead.bytes (head : ConnectHead relayAddr token) : Bytes :=
  Text.asBytes (unlines '\n' (head.requestLine :: (head.headers ++ [head.blank])))

/-- On a stream that begins with such a block the gateway opens the tunnel, and exactly what
follows the block is left to its reader. -/
theorem handleConnection_of_head (head : ConnectHead relayAddr token) {reads : Reads} {rest : Bytes}
    (hup : connects relayAddr = true) (hreads : Chunk.join reads = head.bytes ++ rest) :
    ∃ r : BufReader UInt8 8192, BufReader.Reached reads r ∧ r.pending = rest ∧
      handleConnection connects relayAddr token reads = .tunnel r.intoInner := by
  have htake : (head.headers ++ [head.blank]).takeWhile isHeader = head.headers := by
    rw [List.takeWhile_append_of_pos head.isHeader_headers,
      List.takeWhile_cons_of_neg (by simp [head.isHeader_blank]), List.append_nil]
  have hdrop : (head.headers ++ [head.blank]).dropWhile isHeader = [head.blank] := by
    rw [List.dropWhile_append_of_pos head.isHeader_headers,
      List.dropWhile_cons_of_neg (by simp [head.isHeader_blank])]
  obtain ⟨r, hreached, hpending, hanswer⟩ := handleConnection_of_lines connects relayAddr token
    head.newline_not_mem ⟨head.blank, by simp, head.isHeader_blank⟩ head.method hreads
  refine ⟨r, hreached, ?_, ?_⟩
  · rw [hpending, hdrop]
    rfl
  · rw [hanswer, htake, head.authority, head.authorized, answer]
    simp [hup]

end

/-! ### Answers -/

/-- The gateway opens the tunnel, refuses with one of two status texts, or does not answer. -/
theorem handleConnection_cases (connects : Text → Bool) (relayAddr token : Text) (reads : Reads) :
    (∃ delivered, handleConnection connects relayAddr token reads = .tunnel delivered) ∨
      ((handleConnection connects relayAddr token reads).isTunnel = false ∧
        (handleConnection connects relayAddr token reads).reply = []) ∨
      ∃ status ∈ ["405 Method Not Allowed".toList, "403 Forbidden".toList], ∃ body,
        handleConnection connects relayAddr token reads = reject status body := by
  unfold handleConnection
  split
  · exact Or.inr (Or.inl ⟨rfl, rfl⟩)
  · dsimp only
    split_ifs
    · exact Or.inr (Or.inl ⟨rfl, rfl⟩)
    · exact Or.inr (Or.inr ⟨_, List.mem_cons_self, _, rfl⟩)
    · split
      · exact Or.inr (Or.inl ⟨rfl, rfl⟩)
      · exact Or.inr (Or.inl ⟨rfl, rfl⟩)
      · unfold answer
        split
        · exact Or.inr (Or.inr ⟨_, List.mem_cons_of_mem _ List.mem_cons_self, _, rfl⟩)
        split
        · exact Or.inr (Or.inr ⟨_, List.mem_cons_of_mem _ List.mem_cons_self, _, rfl⟩)
        split
        · exact Or.inr (Or.inl ⟨rfl, rfl⟩)
        · exact Or.inl ⟨_, rfl⟩

/-- A refusal starts with its status line. -/
theorem reply_reject (status body : Text) :
    ∃ rest, (reject status body).reply =
      Text.asBytes ("HTTP/1.1 ".toList ++ status ++ ['\r']) ++ 10 :: rest := by
  refine ⟨Text.asBytes ("Content-Length: ".toList ++ Text.decimal (Text.len body) ++
    "\r\nConnection: close\r\n\r\n".toList ++ body), ?_⟩
  have hlit : "\r\nContent-Length: ".toList = ['\r'] ++ (['\n'] ++ "Content-Length: ".toList) := rfl
  have hnl : Text.asBytes ['\n'] = [10] := rfl
  rw [reject, Served.reply, hlit, List.append_cons]
  simp only [List.append_assoc, Text.asBytes_append, hnl]

end Gateway

end TrustedRelay
