import TrustedRelay.Machine.Run
import TrustedRelay.Rust.Arrival
import TrustedRelay.Tunnel.Transport

/-!
# A tunnel from the local proxy to the relay

The three parties at once: the local proxy asks the gateway for a tunnel and waits for the answer,
the gateway reads the request, answers it and then copies both ways, and the relay is a TLS server,
which is silent until it has been sent something. Between them are four queues of bytes. A step is
one read or one write of one party, a read takes any chunk from the front of its queue, and a run is
any order of such steps.

Either reader drops what it has read beyond the header block. With a token of one line nothing is
dropped in a run: `run_transparent` says that at every moment the bytes that one end has sent are
those that the other end has received and those that are still in the queues, in this order, and
that the relay is only reached with a token that the gateway reads as its own. Whatever the token,
the client comes to a verdict (`run_verdict`), and each reader is where its function is on the
chunks it has read (`run_refines`).
-/

namespace TrustedRelay

open Delimited Gateway BufReader Machine

namespace Session

/-! ### The two readers -/

/-- How the gateway's reading of a header block ends. -/
inductive Head
  | closed
  | notConnect
  | complete (authority : Text) (authorized : Bool)
deriving DecidableEq

/-- One line at the gateway: the request line first, and then the headers. -/
def headLine (token : Text) : Option (Text × Bool) → Text → Option (Text × Bool) ⊕ Head
  | none, line =>
    let words := Text.splitWhitespace (trimCrLf line)
    if words.head?.getD [] ≠ "CONNECT".toList then .inr .notConnect
    else .inl (some (words.tail.head?.getD [], false))
  | some (authority, authorized), line =>
    (headerLine token authorized line).map (fun b => some (authority, b)) fun o : Option Bool =>
      o.elim .closed (.complete authority)

/-- The answer to a header block. -/
def headServed (connects : Text → Bool) (relayAddr : Text) :
    Except Text Head × BufReader UInt8 8192 → Served
  | (.error e, _) => .failed e
  | (.ok .closed, _) => .closed
  | (.ok .notConnect, _) => reject "405 Method Not Allowed".toList "CONNECT required".toList
  | (.ok (.complete authority authorized), r) => answer connects relayAddr authority authorized r

/-- In a tunnel, the reads that are still to come are passed on. -/
theorem headServed_of_isTunnel {connects : Text → Bool} {relayAddr : Text} {out : Except Text Head}
    {left : Bytes} (h : (headServed connects relayAddr (out, ⟨left, []⟩)).isTunnel = true)
    (back : Reads) :
    headServed connects relayAddr (out, ⟨left, back⟩) = .tunnel (Chunk.join back) := by
  rcases out with e | _ | _ | ⟨authority, authorized⟩
  · cases h
  · cases h
  · cases h
  · rw [headServed, answer] at h ⊢
    split_ifs at h ⊢ <;> first | rfl | cases h

/-- The gateway's two reads are one loop over lines. -/
theorem handleConnection_eq (connects : Text → Bool) (relayAddr token : Text) (reads : Reads) :
    handleConnection connects relayAddr token reads =
      headServed connects relayAddr
        (readTextLines (fun _ => Head.closed) (headLine token) none (BufReader.new reads)) := by
  have hheaders : ∀ (authority : Text) (r : BufReader UInt8 8192),
      readTextLines (fun _ => Head.closed) (headLine token) (some (authority, false)) r =
        ((readHeaders token r).1.map fun o : Option Bool => o.elim .closed (.complete authority),
          (readHeaders token r).2) := by
    intro authority r
    exact readTextLines_map (f := fun b : Bool => some (authority, b))
      (g := fun o : Option Bool => o.elim Head.closed (.complete authority)) (fun _ => rfl)
      (fun _ _ => rfl) false r
  rw [handleConnection, readLine, readTextLines_eq, lineRound]
  cases htext : Text.fromUtf8 ((BufReader.new reads).readUntil 10).1 with
  | none =>
    have hne : ((BufReader.new reads).readUntil 10).1 ≠ [] := by
      intro hnil
      rw [hnil] at htext
      cases htext
    rw [if_neg hne]
    rfl
  | some line =>
    have hnil : ((BufReader.new reads).readUntil 10).1 = [] ↔ line = [] := by
      rw [← Text.asBytes_of_fromUtf8 htext]
      constructor
      · exact fun h => Text.asBytes_injective h
      · rintro rfl
        rfl
    simp only [okOr, hnil]
    split_ifs with hline hmethod
    · rfl
    · simp only [headLine, if_pos hmethod]
      rfl
    · simp only [headLine, if_neg hmethod, Sum.map_inl, id_eq, hheaders]
      rcases hread : readHeaders token ((BufReader.new reads).readUntil 10).2 with
        ⟨_ | _ | _, r⟩ <;> rfl

/-- What `handle_connection` does on chunks, the last line of the block in the chunk `c`. -/
theorem handleConnection_of_arrived {connects : Text → Bool} {relayAddr token : Text}
    {front back : Reads} {c : Chunk UInt8 8192} {out : Except Text Head} {left : Bytes}
    (hfront : arrived (headLine token) none (Chunk.join front) = none)
    (h : arrived (headLine token) none (Chunk.join front ++ c.items) = some (out, left)) :
    handleConnection connects relayAddr token (front ++ c :: back) =
      headServed connects relayAddr (out, ⟨left, back⟩) := by
  rw [handleConnection_eq, readTextLines_of_arrived hfront h]

/-- One line at the local proxy: the status line first. -/
def replyHeadLine : Bool → Text → Bool ⊕ Except Text Unit
  | false, line =>
    if ¬Text.contains line " 200 ".toList then
      .inr (.error ("gateway CONNECT failed: ".toList ++ Text.trim line))
    else .inl true
  | true, line => (replyLine () line).map (fun _ => true) id

/-- What the local proxy makes of the end of the stream. -/
def replyEof : Bool → Except Text Unit
  | false => .error ("gateway CONNECT failed: ".toList ++ Text.trim [])
  | true => .error "gateway closed before tunnel establishment".toList

/-- The transport after the reply. -/
def replied : Except Text (Except Text Unit) × BufReader UInt8 8192 → Except Text Bytes
  | (.error e, _) => .error e
  | (.ok (.error e), _) => .error e
  | (.ok (.ok ()), r) => .ok r.intoInner

/-- The local proxy's two reads are one loop over lines. -/
theorem awaitTunnel_eq (reads : Reads) :
    awaitTunnel reads =
      replied (readTextLines replyEof replyHeadLine false (BufReader.new reads)) := by
  have hheaders : ∀ r : BufReader UInt8 8192,
      readTextLines replyEof replyHeadLine true r =
        ((readReplyHeaders r).1.map id, (readReplyHeaders r).2) := fun r =>
    readTextLines_map (f := fun _ : Unit => true) (g := @id (Except Text Unit)) (fun _ => rfl)
      (fun _ _ => rfl) () r
  rw [awaitTunnel, readLine, readTextLines_eq, lineRound]
  cases htext : Text.fromUtf8 ((BufReader.new reads).readUntil 10).1 with
  | none =>
    have hne : ((BufReader.new reads).readUntil 10).1 ≠ [] := by
      intro hnil
      rw [hnil] at htext
      cases htext
    rw [if_neg hne]
    rfl
  | some line =>
    have hnil : ((BufReader.new reads).readUntil 10).1 = [] ↔ line = [] := by
      rw [← Text.asBytes_of_fromUtf8 htext]
      constructor
      · exact fun h => Text.asBytes_injective h
      · rintro rfl
        rfl
    simp only [okOr, hnil]
    by_cases hline : line = []
    · subst hline
      rfl
    · rw [if_neg hline]
      by_cases hcontains : Text.contains line " 200 ".toList = true
      · simp only [replyHeadLine, if_neg (not_not.mpr hcontains), Sum.map_inl, id_eq, hheaders]
        rcases hread : readReplyHeaders ((BufReader.new reads).readUntil 10).2 with
          ⟨_ | _ | _, r⟩ <;> rfl
      · simp only [replyHeadLine, if_pos hcontains]
        rfl

theorem awaitTunnel_of_arrived {front back : Reads} {c : Chunk UInt8 8192}
    {out : Except Text (Except Text Unit)} {left : Bytes}
    (hfront : arrived replyHeadLine false (Chunk.join front) = none)
    (h : arrived replyHeadLine false (Chunk.join front ++ c.items) = some (out, left)) :
    awaitTunnel (front ++ c :: back) = replied (out, ⟨left, back⟩) := by
  rw [awaitTunnel_eq, readTextLines_of_arrived hfront h]

/-! ### What is sent to open a tunnel -/

/-- What the local proxy sends behind the first blank line of its request: nothing, if the token is
one line. -/
def requestRest (t : Text) : Bytes :=
  Text.asBytes (unlines '\n' ((tokenLines t ++ [['\r']]).dropWhile isHeader).tail)

theorem requestRest_of_not_mem {t : Text} (ht : '\n' ∉ t) : requestRest t = [] := by
  have htoken : tokenLines t = ["Authorization: Bearer ".toList ++ t ++ ['\r']] := by
    rw [tokenLines, List.splitOn_eq_singleton]
    simpa using ht
  have hhead : isHeader ("Authorization: Bearer ".toList ++ t ++ ['\r']) = true := by
    have htrim : trimCrLf ("Authorization: Bearer ".toList ++ t ++ ['\r']) =
        "Authorization: Bearer ".toList ++ trimCrLf t := trimCrLf_line (by decide) t
    rw [isHeader, htrim]
    rfl
  rw [requestRest, htoken, List.cons_append, List.nil_append, List.dropWhile_cons_of_pos hhead]
  rfl

/-- The header block that the local proxy sends is complete with its first blank line. -/
theorem arrived_request {u : Url} {a t : Text} (token : Text) (ha : relayAuthority u = .ok a) :
    arrived (headLine token) none (Text.asBytes (connectRequest a t)) =
      some (.ok (.complete a (presented t = some (bearer token))), requestRest t) := by
  obtain ⟨hne, hword⟩ := relayAuthority_word ha
  have hwords := splitWhitespace_requestLine hne hword
  obtain ⟨hhost, hvalue⟩ := authorizationValue_host a
  have hblank : ∃ l ∈ ("Host: ".toList ++ a ++ ['\r']) :: (tokenLines t ++ [['\r']]),
      isHeader l = false := ⟨['\r'], by simp, by decide⟩
  -- the lines up to the first that is no header go through the authorization check
  have hheaders := overLines_headerLine token false hblank
  rw [List.takeWhile_cons_of_pos hhost, List.dropWhile_cons_of_pos hhost, takeWhile_tokenLines,
    foldl_authorize, List.map_cons, lastAuthorization,
    List.filterMap_cons_none hvalue] at hheaders
  -- the request line fixes the authority, and from then on only the authorization changes
  have hover : BufReader.overLines (headLine token) none
      (("CONNECT ".toList ++ a ++ " HTTP/1.1\r".toList) ::
        ("Host: ".toList ++ a ++ ['\r']) :: (tokenLines t ++ [['\r']])) =
      some (.complete a (presented t = some (bearer token)),
        ((tokenLines t ++ [['\r']]).dropWhile isHeader).tail) := by
    have hfirst : headLine token none ("CONNECT ".toList ++ a ++ " HTTP/1.1\r".toList ++ ['\n']) =
        .inl (some (a, false)) := by
      rw [headLine, trimCrLf_concat_newline, hwords]
      rfl
    have hline : ∀ b l, headLine token (some (a, b)) l = (headerLine token b l).map
        (fun b => some (a, b)) (fun o => o.elim Head.closed (.complete a)) := fun _ _ => rfl
    have hmap := overLines_map (fun b => some (a, b)) _ hline false
      (("Host: ".toList ++ a ++ ['\r']) :: (tokenLines t ++ [['\r']]))
    rw [BufReader.overLines, hfirst]
    dsimp only
    rw [hmap, hheaders]
    rfl
  have h := arrived_of_overLines (newline_not_mem_requestLines ha t) hover []
  rwa [← connectRequest_eq_unlines, List.append_nil, List.append_nil] at h

/-- A success block is complete with its last byte. -/
theorem arrived_replyHead (head : ReplyHead) :
    arrived replyHeadLine false head.bytes = some (.ok (.ok ()), []) := by
  have hstatus : Text.contains (head.status ++ ['\n']) " 200 ".toList = true :=
    decide_eq_true ((of_decide_eq_true head.contains_200).trans (List.prefix_append _ _).isInfix)
  have hover : BufReader.overLines replyHeadLine false
      (head.status :: (head.headers ++ [head.blank])) = some (.ok (), []) := by
    rw [BufReader.overLines, replyHeadLine, if_neg (not_not.mpr hstatus)]
    dsimp only
    have hline : ∀ (u : Unit) l, replyHeadLine true l = (replyLine u l).map (fun _ => true) id :=
      fun _ _ => rfl
    rw [overLines_map (fun _ : Unit => true) id hline (),
      overLines_replyLine head.endsReply_headers head.endsReply_blank]
    rfl
  have h := arrived_of_overLines head.newline_not_mem hover []
  rwa [List.append_nil, List.append_nil] at h

/-- The first line of a refusal ends the wait for the tunnel. -/
theorem arrived_reject {status : Text}
    (h : status ∈ ["405 Method Not Allowed".toList, "403 Forbidden".toList]) (body : Text) :
    ∃ e rest, arrived replyHeadLine false (reject status body).reply =
      some (.ok (.error e), rest) := by
  have hline : ∀ s ∈ ["405 Method Not Allowed".toList, "403 Forbidden".toList],
      '\n' ∉ "HTTP/1.1 ".toList ++ s ++ ['\r'] ∧
        Text.contains ("HTTP/1.1 ".toList ++ s ++ ['\r'] ++ ['\n']) " 200 ".toList = false := by
    decide +kernel
  obtain ⟨hnl, hcontains⟩ := hline status h
  obtain ⟨rest, hreply⟩ := reply_reject status body
  have hover : BufReader.overLines replyHeadLine false ["HTTP/1.1 ".toList ++ status ++ ['\r']] =
      some (.error ("gateway CONNECT failed: ".toList ++
        Text.trim ("HTTP/1.1 ".toList ++ status ++ ['\r'] ++ ['\n'])), []) := by
    rw [BufReader.overLines, replyHeadLine, if_pos (ne_true_of_eq_false hcontains)]
  have harrived := arrived_of_overLines (List.forall_mem_singleton.mpr hnl) hover rest
  rw [asBytes_unlines_cons] at harrived
  exact ⟨_, _, by rw [hreply]; exact harrived⟩

/-! ### The three parties -/

/-- Where the local proxy is: it waits for the reply, of which it has read something, it has handed
its socket to TLS, or it has given up. -/
inductive ClientPhase
  | waiting (received : Bytes)
  | tunnel
  | failed (e : Text)
deriving DecidableEq

/-- Where the gateway is: it reads the request, it copies both ways, or it has closed. -/
inductive GatewayPhase
  | waiting (received : Bytes)
  | tunnel
  | ended
deriving DecidableEq

/-- The parties with the bytes between them, and what each end of the tunnel has sent through it and
received from it. -/
structure State where
  client : ClientPhase
  gateway : GatewayPhase
  toGateway : Bytes
  toClient : Bytes
  toRelay : Bytes
  fromRelay : Bytes
  clientSent : Bytes
  clientReceived : Bytes
  relaySent : Bytes
  relayReceived : Bytes
deriving DecidableEq

/-- One read or one write. The client also notices that the gateway has closed. -/
inductive Action
  | gatewayReads (c : Chunk UInt8 8192)
  | gatewayReadsRelay (c : Chunk UInt8 8192)
  | clientReads (c : Chunk UInt8 8192)
  | clientReadsEnd
  | relayReads (c : Chunk UInt8 8192)
  | clientWrites (b : Bytes)
  | relayWrites (b : Bytes)

/-- A gateway with its address and token, and a client that asks it for a relay. -/
structure Parties where
  connects : Text → Bool
  relayAddr : Text
  token : Text
  endpoint : Url
  authority : Text
  clientToken : Text
  relayAuthority_endpoint : relayAuthority endpoint = .ok authority

/-- What is left of a queue when a chunk is read from its front. -/
def takeFront (c : Chunk UInt8 8192) (queue : Bytes) : Option Bytes := queue.dropPrefix? c.items

theorem takeFront_eq_some_iff {c : Chunk UInt8 8192} {queue rest : Bytes} :
    takeFront c queue = some rest ↔ queue = c.items ++ rest := by
  simp [takeFront, List.dropPrefix?_eq_some_iff]

@[simp] theorem takeFront_nil (c : Chunk UInt8 8192) : takeFront c [] = none := by
  rw [Option.eq_none_iff_forall_ne_some]
  intro rest h
  exact c.nonempty (List.append_eq_nil_iff.mp (takeFront_eq_some_iff.mp h).symm).1

namespace Parties

variable (P : Parties)

def request : Bytes := Text.asBytes (connectRequest P.authority P.clientToken)

/-- The client has written its request. -/
def start : State where
  client := .waiting []
  gateway := .waiting []
  toGateway := P.request
  toClient := []
  toRelay := []
  fromRelay := []
  clientSent := []
  clientReceived := []
  relaySent := []
  relayReceived := []

/-- What the gateway makes of a complete header block, and of what it has read behind it. -/
def served (out : Except Text Head) (left : Bytes) : Served :=
  headServed P.connects P.relayAddr (out, ⟨left, []⟩)

/-- The gateway has read the queue up to `queue`. -/
def gatewayStep (s : State) (c : Chunk UInt8 8192) (queue : Bytes) : Option State :=
  match s.gateway with
  | .waiting received =>
    match arrived (headLine P.token) none (received ++ c.items) with
    | none => some { s with gateway := .waiting (received ++ c.items), toGateway := queue }
    | some (out, left) =>
      some { s with
        gateway := if (P.served out left).isTunnel then .tunnel else .ended
        toGateway := queue
        toClient := s.toClient ++ (P.served out left).reply }
  | .tunnel => some { s with toGateway := queue, toRelay := s.toRelay ++ c.items }
  | .ended => none

/-- The client's transport once its wait has ended. -/
def clientPhase (out : Except Text (Except Text Unit)) (left : Bytes) : ClientPhase :=
  match replied (out, ⟨left, []⟩) with
  | .ok _ => .tunnel
  | .error e => .failed e

def clientStep (s : State) (c : Chunk UInt8 8192) (queue : Bytes) : Option State :=
  match s.client with
  | .waiting received =>
    match arrived replyHeadLine false (received ++ c.items) with
    | none => some { s with client := .waiting (received ++ c.items), toClient := queue }
    | some (out, left) => some { s with client := clientPhase out left, toClient := queue }
  | .tunnel => some { s with toClient := queue, clientReceived := s.clientReceived ++ c.items }
  | .failed _ => none

/-- The gateway has closed and all it wrote is read. -/
def clientEndStep (s : State) : Option State :=
  match s.client with
  | .waiting received =>
    if s.gateway = .ended ∧ s.toClient = [] then
      match readTextLines replyEof replyHeadLine false (⟨received, []⟩ : BufReader UInt8 8192) with
      | (out, _) => some { s with client := clientPhase out [] }
    else none
  | _ => none

def step (s : State) : Action → Option State
  | .gatewayReads c => (takeFront c s.toGateway).bind (P.gatewayStep s c)
  | .gatewayReadsRelay c =>
    if s.gateway = .tunnel then
      (takeFront c s.fromRelay).map fun queue =>
        { s with fromRelay := queue, toClient := s.toClient ++ c.items }
    else none
  | .clientReads c => (takeFront c s.toClient).bind (clientStep s c)
  | .clientReadsEnd => clientEndStep s
  | .relayReads c =>
    (takeFront c s.toRelay).map fun queue =>
      { s with toRelay := queue, relayReceived := s.relayReceived ++ c.items }
  | .clientWrites b =>
    if s.client = .tunnel then
      some { s with toGateway := s.toGateway ++ b, clientSent := s.clientSent ++ b }
    else none
  -- a TLS server answers
  | .relayWrites b =>
    if s.relayReceived ≠ [] then
      some { s with fromRelay := s.fromRelay ++ b, relaySent := s.relaySent ++ b }
    else none

/-! ### The answer -/

/-- The client is let through: the relay can be reached, it is the one that the client asks for, and
the gateway reads the client's token as its own. -/
def Admits : Prop :=
  P.connects P.relayAddr = true ∧ P.authority = P.relayAddr ∧ ReadAs P.clientToken P.token

instance : Decidable P.Admits :=
  inferInstanceAs (Decidable
    (P.connects P.relayAddr = true ∧ P.authority = P.relayAddr ∧ ReadAs P.clientToken P.token))

/-- What the gateway reads off the request. -/
def head : Except Text Head :=
  .ok (.complete P.authority (presented P.clientToken = some (bearer P.token)))

theorem arrived_request_eq : arrived (headLine P.token) none P.request =
    some (P.head, requestRest P.clientToken) :=
  arrived_request P.token P.relayAuthority_endpoint

/-- The client can make nothing but a failure of these bytes and the end of the stream. -/
def Refusal (b : Bytes) : Prop :=
  b = [] ∨ ∃ e rest, arrived replyHeadLine false b = some (.ok (.error e), rest)

variable {P} in
theorem served_head_of_admits (h : P.Admits) (left : Bytes) :
    P.served P.head left = .tunnel [] := by
  obtain ⟨hup, hauthority, hread⟩ := h
  rw [served, head, headServed, presented_eq_bearer_iff.mpr hread, answer]
  simp [hup, hauthority, BufReader.intoInner]

variable {P} in
theorem served_head_of_not_admits (h : ¬P.Admits) (left : Bytes) :
    (P.served P.head left).isTunnel = false ∧ Refusal (P.served P.head left).reply := by
  have hreject : ∀ body, Refusal (reject "403 Forbidden".toList body).reply := fun body =>
    Or.inr (arrived_reject (List.mem_cons_of_mem _ List.mem_cons_self) body)
  rw [served, head, headServed, answer]
  by_cases htoken : presented P.clientToken = some (bearer P.token)
  · rw [if_neg (by simp [htoken])]
    by_cases hauthority : P.authority = P.relayAddr
    · have hup : ¬P.connects P.relayAddr = true := fun hup =>
        h ⟨hup, hauthority, presented_eq_bearer_iff.mp htoken⟩
      rw [if_neg (not_not.mpr hauthority), if_pos hup]
      exact ⟨rfl, Or.inl rfl⟩
    · rw [if_pos hauthority]
      exact ⟨rfl, hreject _⟩
  · rw [if_pos (by simp [htoken])]
    exact ⟨rfl, hreject _⟩

theorem clientPhase_of_refusal {received queue left : Bytes}
    {out : Except Text (Except Text Unit)} (h : Refusal (received ++ queue))
    (harrived : arrived replyHeadLine false received = some (out, left)) :
    ∃ e, clientPhase out left = .failed e := by
  rcases h with hnil | ⟨e, rest, hrest⟩
  · rw [(List.append_eq_nil_iff.mp hnil).1] at harrived
    cases harrived
  · rw [arrived_append harrived] at hrest
    obtain ⟨rfl, -⟩ := Prod.mk.inj (Option.some.inj hrest)
    exact ⟨e, rfl⟩

/-- At the end of a refusal the client gives up. -/
theorem clientPhase_end_of_refusal {received : Bytes} (h : Refusal received) :
    ∃ e, clientPhase (readTextLines replyEof replyHeadLine false
      (⟨received, []⟩ : BufReader UInt8 8192)).1 [] = .failed e := by
  rcases h with rfl | ⟨e, rest, hrest⟩
  · exact ⟨_, rfl⟩
  · rw [readTextLines_of_buffer hrest]
    exact ⟨e, rfl⟩

theorem clientPhase_established (left : Bytes) : clientPhase (.ok (.ok ())) left = .tunnel := rfl

theorem arrived_established :
    arrived replyHeadLine false (Text.asBytes established) = some (.ok (.ok ()), []) := by
  have hlit : Text.asBytes established = establishedHead.bytes := by decide +kernel
  rw [hlit]
  exact arrived_replyHead establishedHead

/-! ### The phases of a session -/

/-- Nothing is in the tunnel yet, and what the gateway has written is its success block. -/
structure Quiet (received : Bytes) (s : State) : Prop where
  toGateway : s.toGateway = []
  toRelay : s.toRelay = []
  fromRelay : s.fromRelay = []
  clientSent : s.clientSent = []
  clientReceived : s.clientReceived = []
  relaySent : s.relaySent = []
  relayReceived : s.relayReceived = []
  reply : received ++ s.toClient = Text.asBytes established

/-- Each end has what the other end has sent, less what is on the way. -/
structure Lossless (s : State) : Prop where
  up : s.clientSent = s.relayReceived ++ s.toRelay ++ s.toGateway
  down : s.relaySent = s.clientReceived ++ s.toClient ++ s.fromRelay

/-- What a reachable state looks like: the gateway reads the request, it has refused, it has opened
the tunnel and the client does not know yet, or both ends are in the tunnel. A token of several lines
can bring more than the request before the relay. -/
inductive Phase : State → Prop
  | asking (received queue : Bytes) (hrequest : received ++ queue = P.request)
      (hqueue : queue ≠ []) :
    Phase { P.start with gateway := .waiting received, toGateway := queue }
  | refused (client : ClientPhase) (toGateway queue : Bytes) (hno : ¬P.Admits)
      (hclient : client ≠ .tunnel)
      (hwaiting : ∀ received, client = .waiting received → Refusal (received ++ queue)) :
    Phase { P.start with client, gateway := .ended, toGateway, toClient := queue }
  | answered (s : State) (received : Bytes) (hadmits : P.Admits)
      (hclient : s.client = .waiting received) (hgateway : s.gateway = .tunnel)
      (hreply : Text.asBytes established <+: received ++ s.toClient)
      (hnone : arrived replyHeadLine false received = none)
      (hquiet : '\n' ∉ P.clientToken → Quiet received s) : Phase s
  | opened (s : State) (hadmits : P.Admits) (hclient : s.client = .tunnel)
      (hgateway : s.gateway = .tunnel) (hlossless : '\n' ∉ P.clientToken → Lossless s) : Phase s

variable {P} {s s' : State} {a : Action}

theorem phase_start : P.Phase P.start := by
  refine .asking [] P.request (List.nil_append _) ?_
  intro hnil
  have h := P.arrived_request_eq
  rw [hnil] at h
  cases h

/-- Before the client is in the tunnel, only the three reads of the handshake can happen. -/
theorem step_quiet (hclient : s.client ≠ .tunnel) (hto : s.toRelay = []) (hfrom : s.fromRelay = [])
    (hrelay : s.relayReceived = []) (h : P.step s a = some s') :
    (∃ c queue, s.toGateway = c.items ++ queue ∧ P.gatewayStep s c queue = some s') ∨
      (∃ c queue, s.toClient = c.items ++ queue ∧ clientStep s c queue = some s') ∨
      clientEndStep s = some s' := by
  cases a with
  | gatewayReads c =>
    obtain ⟨queue, hqueue, hstep⟩ := Option.bind_eq_some_iff.mp h
    exact Or.inl ⟨c, queue, takeFront_eq_some_iff.mp hqueue, hstep⟩
  | gatewayReadsRelay c => simp [step, hfrom] at h
  | clientReads c =>
    obtain ⟨queue, hqueue, hstep⟩ := Option.bind_eq_some_iff.mp h
    exact Or.inr (Or.inl ⟨c, queue, takeFront_eq_some_iff.mp hqueue, hstep⟩)
  | clientReadsEnd => exact Or.inr (Or.inr h)
  | relayReads c => simp [step, hto] at h
  | clientWrites b => simp [step, hclient] at h
  | relayWrites b => simp [step, hrelay] at h

theorem nil_ne_append (c : Chunk UInt8 8192) (queue : Bytes) : [] ≠ c.items ++ queue :=
  (List.append_ne_nil_of_left_ne_nil c.nonempty queue).symm

theorem step_asking {received queue : Bytes} (hrequest : received ++ queue = P.request)
    (h : P.step { P.start with gateway := .waiting received, toGateway := queue } a = some s') :
    P.Phase s' := by
  rcases step_quiet (by simp [start]) rfl rfl rfl h with
    ⟨c, rest, hqueue, hstep⟩ | ⟨c, rest, hqueue, -⟩ | hstep
  · obtain rfl : queue = c.items ++ rest := hqueue
    rw [← List.append_assoc] at hrequest
    have hall := P.arrived_request_eq
    rw [← hrequest] at hall
    rcases arrived_split hall with ⟨hnone, hrest⟩ | ⟨left, hsome, hleft⟩
    · simp only [gatewayStep, hnone, Option.some.injEq] at hstep
      subst hstep
      exact .asking _ _ hrequest hrest
    · simp only [gatewayStep, hsome, Option.some.injEq] at hstep
      subst hstep
      by_cases hadmits : P.Admits
      · rw [served_head_of_admits hadmits]
        refine .answered _ [] hadmits rfl rfl (List.prefix_refl _) (by decide) fun hline => ?_
        -- behind a token of one line there is nothing left to read
        rw [requestRest_of_not_mem hline] at hleft
        obtain ⟨-, hrest⟩ := List.append_eq_nil_iff.mp hleft.symm
        exact ⟨hrest, rfl, rfl, rfl, rfl, rfl, rfl, rfl⟩
      · obtain ⟨hno, hrefusal⟩ := served_head_of_not_admits hadmits left
        rw [hno]
        refine .refused _ _ _ hadmits (by simp [start]) ?_
        rintro _ ⟨⟩
        exact hrefusal
  · exact absurd hqueue (nil_ne_append c rest)
  · simp [clientEndStep, start] at hstep

theorem step_refused {client : ClientPhase} {toGateway queue : Bytes} (hno : ¬P.Admits)
    (hclient : client ≠ .tunnel)
    (hwaiting : ∀ received, client = .waiting received → Refusal (received ++ queue))
    (h : P.step { P.start with client, gateway := .ended, toGateway, toClient := queue } a =
      some s') : P.Phase s' := by
  rcases step_quiet hclient rfl rfl rfl h with
    ⟨c, rest, -, hstep⟩ | ⟨c, rest, hqueue, hstep⟩ | hstep
  · cases hstep
  · obtain rfl : queue = c.items ++ rest := hqueue
    cases client with
    | waiting received =>
      -- what has arrived and what is under way are together still the refusal
      have hrefusal := hwaiting received rfl
      rw [← List.append_assoc] at hrefusal
      cases harrived : arrived replyHeadLine false (received ++ c.items) with
      | none =>
        simp only [clientStep, harrived, Option.some.injEq] at hstep
        subst hstep
        refine .refused _ _ _ hno (by simp) ?_
        rintro _ ⟨⟩
        exact hrefusal
      | some p =>
        obtain ⟨out, left⟩ := p
        obtain ⟨e, he⟩ := clientPhase_of_refusal hrefusal harrived
        simp only [clientStep, harrived, he, Option.some.injEq] at hstep
        subst hstep
        exact .refused _ _ _ hno (by simp) (by simp)
    | tunnel => exact absurd rfl hclient
    | failed e => cases hstep
  · cases client with
    | waiting received =>
      simp only [clientEndStep] at hstep
      split_ifs at hstep with hend
      obtain rfl : queue = [] := hend.2
      have hrefusal := hwaiting received rfl
      rw [List.append_nil] at hrefusal
      obtain ⟨e, he⟩ := clientPhase_end_of_refusal hrefusal
      simp only [he, Option.some.injEq] at hstep
      subst hstep
      exact .refused _ _ _ hno (by simp) (by simp)
    | tunnel => exact absurd rfl hclient
    | failed e => cases hstep

/-- The client reads the success block, and behind it what a relay may have said already. -/
theorem step_answered {received : Bytes} (hadmits : P.Admits)
    (hclient : s.client = .waiting received) (hgateway : s.gateway = .tunnel)
    (hreply : Text.asBytes established <+: received ++ s.toClient)
    (hnone : arrived replyHeadLine false received = none)
    (hquiet : '\n' ∉ P.clientToken → Quiet received s) (h : P.step s a = some s') :
    P.Phase s' := by
  cases a with
  | gatewayReads c =>
    obtain ⟨queue, hqueue, hstep⟩ := Option.bind_eq_some_iff.mp h
    rw [takeFront_eq_some_iff] at hqueue
    simp only [gatewayStep, hgateway, Option.some.injEq] at hstep
    subst hstep
    exact .answered _ received hadmits hclient rfl hreply hnone fun hline =>
      absurd ((hquiet hline).toGateway.symm.trans hqueue) (nil_ne_append c queue)
  | gatewayReadsRelay c =>
    simp only [step, hgateway, if_true, Option.map_eq_some_iff] at h
    obtain ⟨queue, hqueue, rfl⟩ := h
    rw [takeFront_eq_some_iff] at hqueue
    refine .answered _ received hadmits hclient rfl ?_ hnone fun hline =>
      absurd ((hquiet hline).fromRelay.symm.trans hqueue) (nil_ne_append c queue)
    rw [← List.append_assoc]
    exact hreply.trans (List.prefix_append _ _)
  | clientReads c =>
    obtain ⟨queue, hqueue, hstep⟩ := Option.bind_eq_some_iff.mp h
    rw [takeFront_eq_some_iff] at hqueue
    rw [hqueue, ← List.append_assoc] at hreply
    obtain ⟨more, hmore⟩ := hreply
    have hall := arrived_append arrived_established more
    rw [hmore, List.nil_append] at hall
    rcases arrived_split hall with ⟨hnone', -⟩ | ⟨left, hsome, -⟩
    · simp only [clientStep, hclient, hnone', Option.some.injEq] at hstep
      subst hstep
      refine .answered _ _ hadmits rfl hgateway ⟨more, hmore⟩ hnone' fun hline => ?_
      have hreply := (hquiet hline).reply
      rw [hqueue, ← List.append_assoc] at hreply
      exact { hquiet hline with reply := hreply }
    · simp only [clientStep, hclient, hsome, clientPhase_established, Option.some.injEq] at hstep
      subst hstep
      refine .opened _ hadmits rfl hgateway fun hline => ?_
      -- the block is complete with its last byte, so the read has emptied the queue
      obtain ⟨hto, hrelay, hfrom, hsent, hreceived, hrelaySent, hrelayReceived, hreply⟩ :=
        hquiet hline
      rw [hqueue, ← List.append_assoc] at hreply
      have hexact := arrived_append hsome queue
      rw [hreply, arrived_established] at hexact
      obtain ⟨-, hnil⟩ := Prod.mk.inj (Option.some.inj hexact)
      obtain ⟨-, rfl⟩ := List.append_eq_nil_iff.mp hnil.symm
      exact ⟨by simp [hsent, hrelayReceived, hrelay, hto],
        by simp [hrelaySent, hreceived, hfrom]⟩
  | clientReadsEnd => simp [step, clientEndStep, hclient, hgateway] at h
  | relayReads c =>
    simp only [step, Option.map_eq_some_iff] at h
    obtain ⟨queue, hqueue, rfl⟩ := h
    rw [takeFront_eq_some_iff] at hqueue
    exact .answered _ received hadmits hclient hgateway hreply hnone fun hline =>
      absurd ((hquiet hline).toRelay.symm.trans hqueue) (nil_ne_append c queue)
  | clientWrites b => simp [step, hclient] at h
  | relayWrites b =>
    simp only [step] at h
    split_ifs at h with hrelay
    simp only [Option.some.injEq] at h
    subst h
    exact .answered _ received hadmits hclient hgateway hreply hnone fun hline =>
      absurd (hquiet hline).relayReceived hrelay

/-- In the tunnel a read takes from one queue and adds to the next, and a write adds to the
first. -/
theorem step_opened (hadmits : P.Admits) (hclient : s.client = .tunnel)
    (hgateway : s.gateway = .tunnel) (hlossless : '\n' ∉ P.clientToken → Lossless s)
    (h : P.step s a = some s') : P.Phase s' := by
  cases a with
  | gatewayReads c =>
    obtain ⟨queue, hqueue, hstep⟩ := Option.bind_eq_some_iff.mp h
    rw [takeFront_eq_some_iff] at hqueue
    simp only [gatewayStep, hgateway, Option.some.injEq] at hstep
    subst hstep
    refine .opened _ hadmits hclient rfl fun hline => ?_
    obtain ⟨hup, hdown⟩ := hlossless hline
    exact ⟨by simp [hup, hqueue], hdown⟩
  | gatewayReadsRelay c =>
    simp only [step, hgateway, if_true, Option.map_eq_some_iff] at h
    obtain ⟨queue, hqueue, rfl⟩ := h
    rw [takeFront_eq_some_iff] at hqueue
    refine .opened _ hadmits hclient rfl fun hline => ?_
    obtain ⟨hup, hdown⟩ := hlossless hline
    exact ⟨hup, by simp [hdown, hqueue]⟩
  | clientReads c =>
    obtain ⟨queue, hqueue, hstep⟩ := Option.bind_eq_some_iff.mp h
    rw [takeFront_eq_some_iff] at hqueue
    simp only [clientStep, hclient, Option.some.injEq] at hstep
    subst hstep
    refine .opened _ hadmits rfl hgateway fun hline => ?_
    obtain ⟨hup, hdown⟩ := hlossless hline
    exact ⟨hup, by simp [hdown, hqueue]⟩
  | clientReadsEnd => simp [step, clientEndStep, hclient] at h
  | relayReads c =>
    simp only [step, Option.map_eq_some_iff] at h
    obtain ⟨queue, hqueue, rfl⟩ := h
    rw [takeFront_eq_some_iff] at hqueue
    refine .opened _ hadmits hclient hgateway fun hline => ?_
    obtain ⟨hup, hdown⟩ := hlossless hline
    exact ⟨by simp [hup, hqueue], hdown⟩
  | clientWrites b =>
    simp only [step, hclient, if_true, Option.some.injEq] at h
    subst h
    refine .opened _ hadmits rfl hgateway fun hline => ?_
    obtain ⟨hup, hdown⟩ := hlossless hline
    exact ⟨by simp [hup], hdown⟩
  | relayWrites b =>
    simp only [step] at h
    split_ifs at h with hrelay
    simp only [Option.some.injEq] at h
    subst h
    refine .opened _ hadmits hclient hgateway fun hline => ?_
    obtain ⟨hup, hdown⟩ := hlossless hline
    exact ⟨hup, by simp [hdown]⟩

/-- Every step leads to one of the phases again. -/
theorem step_phase (hs : P.Phase s) (h : P.step s a = some s') : P.Phase s' := by
  cases hs with
  | asking received queue hrequest _ => exact step_asking hrequest h
  | refused client toGateway queue hno hclient hwaiting =>
    exact step_refused hno hclient hwaiting h
  | answered _ received hadmits hclient hgateway hreply hnone hquiet =>
    exact step_answered hadmits hclient hgateway hreply hnone hquiet h
  | opened _ hadmits hclient hgateway hlossless =>
    exact step_opened hadmits hclient hgateway hlossless h

theorem run_phase {actions : List Action} (h : run P.step P.start actions = some s) : P.Phase s :=
  run_invariant P.Phase (fun _ _ _ => step_phase) phase_start h

/-! ### What holds in every run -/

/-- In every reachable state of a session with a token of one line, whatever the order of reads and
writes and however the bytes are cut: what the client has sent is what the relay has received and what is on the way to it, in this order,
and the same the other way. The tunnel is open at the gateway before it is open at the client, and
bytes reach the relay only if the gateway admits the client. -/
theorem run_transparent (hline : '\n' ∉ P.clientToken) {actions : List Action}
    (h : run P.step P.start actions = some s) :
    s.clientSent =
        s.relayReceived ++ s.toRelay ++ (if s.client = .tunnel then s.toGateway else []) ∧
      s.relaySent =
        s.clientReceived ++ (if s.client = .tunnel then s.toClient else []) ++ s.fromRelay ∧
      (s.client = .tunnel → s.gateway = .tunnel) ∧
      (s.relayReceived ++ s.toRelay ≠ [] → P.Admits) := by
  cases run_phase h with
  | asking received queue _ _ => simp [start]
  | refused client _ queue _ hclient _ => simp [start, hclient]
  | answered _ received hadmits hclient hgateway _ _ hquiet =>
    obtain ⟨-, hrelay, hfrom, hsent, hreceived, hrelaySent, hrelayReceived, -⟩ := hquiet hline
    simp [hclient, hrelay, hfrom, hsent, hreceived, hrelaySent, hrelayReceived]
  | opened _ hadmits hclient hgateway hlossless =>
    obtain ⟨hup, hdown⟩ := hlossless hline
    rw [if_pos hclient, if_pos hclient]
    exact ⟨hup, hdown, fun _ => hgateway, fun _ => hadmits⟩

/-- The chunk of one byte. -/
def single (b : UInt8) : Chunk UInt8 8192 := ⟨[b], List.cons_ne_nil _ _, by simp⟩

theorem takeFront_single (b : UInt8) (rest : Bytes) :
    takeFront (single b) (b :: rest) = some rest := takeFront_eq_some_iff.mpr rfl

/-- A waiting client that is sent something has given its verdict after the next byte, or waits for
one byte less. -/
theorem exists_clientReads {received : Bytes} {b : UInt8} {rest : Bytes}
    (hclient : s.client = .waiting received) (hqueue : s.toClient = b :: rest) :
    ∃ s', P.step s (.clientReads (single b)) = some s' ∧
      ((∀ r, s'.client ≠ .waiting r) ∨
        s'.toGateway = s.toGateway ∧ s'.toClient.length < s.toClient.length) := by
  simp only [step, hqueue, takeFront_single, Option.bind_some, clientStep, hclient]
  cases arrived replyHeadLine false (received ++ (single b).items) with
  | none => exact ⟨_, rfl, Or.inr ⟨rfl, Nat.lt_succ_self _⟩⟩
  | some p =>
    refine ⟨_, rfl, Or.inl fun r => ?_⟩
    dsimp only [clientPhase]
    cases replied (p.1, ⟨p.2, []⟩) <;> simp

/-- As long as the client waits, some party can read, and there is then less to read. -/
theorem exists_step (hs : P.Phase s) {r : Bytes} (hwaiting : s.client = .waiting r) :
    ∃ a s', P.step s a = some s' ∧ ((∀ r, s'.client ≠ .waiting r) ∨
      s'.toGateway.length < s.toGateway.length ∨
      s'.toGateway = s.toGateway ∧ s'.toClient.length < s.toClient.length) := by
  cases hs with
  | asking received queue hrequest hqueue =>
    obtain ⟨b, rest, rfl⟩ := List.exists_cons_of_ne_nil hqueue
    refine ⟨.gatewayReads (single b), ?_⟩
    simp only [step, takeFront_single, Option.bind_some, gatewayStep]
    cases arrived (headLine P.token) none (received ++ (single b).items) with
    | none => exact ⟨_, rfl, Or.inr (Or.inl (Nat.lt_succ_self _))⟩
    | some p => exact ⟨_, rfl, Or.inr (Or.inl (Nat.lt_succ_self _))⟩
  | refused client toGateway queue hno hclient hrefusal =>
    cases queue with
    | nil =>
      obtain rfl : client = .waiting r := hwaiting
      have hend := hrefusal r rfl
      rw [List.append_nil] at hend
      obtain ⟨e, he⟩ := clientPhase_end_of_refusal hend
      refine ⟨.clientReadsEnd, { P.start with
        client := .failed e, gateway := .ended, toGateway, toClient := [] }, ?_,
        Or.inl fun r' => by simp⟩
      simp [step, clientEndStep, he]
    | cons b rest =>
      obtain ⟨s', hstep, hless⟩ := exists_clientReads (P := P) hwaiting rfl
      exact ⟨_, s', hstep, hless.imp_right Or.inr⟩
  | answered _ received hadmits hclient _ hreply hnone _ =>
    -- the client has not read the whole block
    have hqueue : s.toClient ≠ [] := by
      intro hnil
      rw [hnil, List.append_nil] at hreply
      obtain ⟨more, rfl⟩ := hreply
      rw [arrived_append arrived_established more] at hnone
      cases hnone
    obtain ⟨b, rest, hcons⟩ := List.exists_cons_of_ne_nil hqueue
    obtain ⟨s', hstep, hless⟩ := exists_clientReads (P := P) hwaiting hcons
    exact ⟨_, s', hstep, hless.imp_right Or.inr⟩
  | opened _ _ hclient _ _ =>
    rw [hclient] at hwaiting
    cases hwaiting

theorem exists_verdict {t : State} (ht : P.Phase t) :
    ∃ more t', run P.step t more = some t' ∧ ∀ r, t'.client ≠ .waiting r := by
  by_cases hwaiting : ∃ r, t.client = .waiting r
  · obtain ⟨r, hr⟩ := hwaiting
    obtain ⟨a, u, hstep, hless⟩ := exists_step ht hr
    rcases hless with hdone | hless
    · exact ⟨[a], u, by rw [run_cons, hstep]; rfl, hdone⟩
    · obtain ⟨more, t', hrun, hdone⟩ := exists_verdict (step_phase ht hstep)
      exact ⟨a :: more, t', by rw [run_cons, hstep]; exact hrun, hdone⟩
  · exact ⟨[], t, rfl, fun r hr => hwaiting ⟨r, hr⟩⟩
termination_by (t.toGateway.length, t.toClient.length)
decreasing_by
  rcases hless with hlt | ⟨heq, hlt⟩
  · exact Prod.Lex.left _ _ hlt
  · rw [heq]
    exact Prod.Lex.right _ hlt

/-- From every reachable state the client comes to a verdict, and it is the same in every run: the
tunnel opens if and only if the gateway admits the client. -/
theorem run_verdict {actions : List Action} (h : run P.step P.start actions = some s) :
    ((∀ r, s.client ≠ .waiting r) → (s.client = .tunnel ↔ P.Admits)) ∧
      ∃ more s', run P.step P.start (actions ++ more) = some s' ∧ ∀ r, s'.client ≠ .waiting r := by
  constructor
  · intro hdone
    cases run_phase h with
    | asking => exact absurd rfl (hdone [])
    | refused client _ queue hno hclient _ => exact iff_of_false hclient hno
    | answered _ received _ hclient => exact absurd hclient (hdone received)
    | opened _ hadmits hclient => exact iff_of_true hclient hadmits
  · obtain ⟨more, s', hrun, hdone⟩ := exists_verdict (run_phase h)
    refine ⟨more, s', ?_, hdone⟩
    rw [run_append, h]
    exact hrun

/-! ### The two functions in a run -/

/-- The chunks in which the gateway has read the client's bytes. -/
def gatewayChunks (actions : List Action) : Reads :=
  actions.filterMap fun a => match a with | .gatewayReads c => some c | _ => none

/-- The chunks in which the client has read the gateway's bytes. -/
def clientChunks (actions : List Action) : Reads :=
  actions.filterMap fun a => match a with | .clientReads c => some c | _ => none

/-- Only its reads from the client move the gateway. -/
theorem gateway_frame (ha : ∀ c, a ≠ .gatewayReads c) (h : P.step s a = some s') :
    s'.gateway = s.gateway ∧
      s'.relayReceived ++ s'.toRelay = s.relayReceived ++ s.toRelay := by
  cases a with
  | gatewayReads c => exact absurd rfl (ha c)
  | gatewayReadsRelay c =>
    simp only [step, Option.ite_none_right_eq_some, Option.map_eq_some_iff] at h
    obtain ⟨-, queue, -, rfl⟩ := h
    exact ⟨rfl, rfl⟩
  | clientReads c =>
    obtain ⟨queue, -, hstep⟩ := Option.bind_eq_some_iff.mp h
    unfold clientStep at hstep
    split at hstep
    · split at hstep <;> obtain rfl := Option.some.inj hstep <;> exact ⟨rfl, rfl⟩
    · obtain rfl := Option.some.inj hstep
      exact ⟨rfl, rfl⟩
    · cases hstep
  | clientReadsEnd =>
    simp only [step, clientEndStep] at h
    split at h
    · split_ifs at h
      obtain rfl := Option.some.inj h
      exact ⟨rfl, rfl⟩
    · cases h
  | relayReads c =>
    simp only [step, Option.map_eq_some_iff] at h
    obtain ⟨queue, hqueue, rfl⟩ := h
    rw [takeFront_eq_some_iff] at hqueue
    exact ⟨rfl, by simp [hqueue]⟩
  | clientWrites b =>
    simp only [step, Option.ite_none_right_eq_some, Option.some.injEq] at h
    obtain ⟨-, rfl⟩ := h
    exact ⟨rfl, rfl⟩
  | relayWrites b =>
    simp only [step, Option.ite_none_right_eq_some, Option.some.injEq] at h
    obtain ⟨-, rfl⟩ := h
    exact ⟨rfl, rfl⟩

/-- Only its reads move the client. -/
theorem client_frame (ha : ∀ c, a ≠ .clientReads c) (hend : a ≠ .clientReadsEnd)
    (h : P.step s a = some s') :
    s'.client = s.client ∧ s'.clientReceived = s.clientReceived := by
  cases a with
  | gatewayReads c =>
    obtain ⟨queue, -, hstep⟩ := Option.bind_eq_some_iff.mp h
    unfold gatewayStep at hstep
    split at hstep
    · split at hstep <;> obtain rfl := Option.some.inj hstep <;> exact ⟨rfl, rfl⟩
    · obtain rfl := Option.some.inj hstep
      exact ⟨rfl, rfl⟩
    · cases hstep
  | gatewayReadsRelay c =>
    simp only [step, Option.ite_none_right_eq_some, Option.map_eq_some_iff] at h
    obtain ⟨-, queue, -, rfl⟩ := h
    exact ⟨rfl, rfl⟩
  | clientReads c => exact absurd rfl (ha c)
  | clientReadsEnd => exact absurd rfl hend
  | relayReads c =>
    simp only [step, Option.map_eq_some_iff] at h
    obtain ⟨queue, -, rfl⟩ := h
    exact ⟨rfl, rfl⟩
  | clientWrites b =>
    simp only [step, Option.ite_none_right_eq_some, Option.some.injEq] at h
    obtain ⟨-, rfl⟩ := h
    exact ⟨rfl, rfl⟩
  | relayWrites b =>
    simp only [step, Option.ite_none_right_eq_some, Option.some.injEq] at h
    obtain ⟨-, rfl⟩ := h
    exact ⟨rfl, rfl⟩

variable (P) in
/-- The gateway's phase is what `handle_connection` makes of the chunks so far. -/
def GatewayRuns (reads : Reads) (s : State) : Prop :=
  match s.gateway with
  | .waiting received => Chunk.join reads = received ∧
      arrived (headLine P.token) none received = none ∧ s.relayReceived ++ s.toRelay = []
  | .tunnel => ∃ front c back out left, reads = front ++ c :: back ∧
      arrived (headLine P.token) none (Chunk.join front) = none ∧
      arrived (headLine P.token) none (Chunk.join front ++ c.items) = some (out, left) ∧
      (P.served out left).isTunnel = true ∧ s.relayReceived ++ s.toRelay = Chunk.join back
  | .ended => (handleConnection P.connects P.relayAddr P.token reads).isTunnel = false

/-- The client's phase is what `connect_transport` makes of the chunks so far. -/
def ClientRuns (reads : Reads) (s : State) : Prop :=
  match s.client with
  | .waiting received => Chunk.join reads = received ∧
      arrived replyHeadLine false received = none ∧ s.clientReceived = []
  | .tunnel => ∃ front c back out left, reads = front ++ c :: back ∧
      arrived replyHeadLine false (Chunk.join front) = none ∧
      arrived replyHeadLine false (Chunk.join front ++ c.items) = some (out, left) ∧
      clientPhase out left = .tunnel ∧ s.clientReceived = Chunk.join back
  | .failed e => awaitTunnel reads = .error e

theorem gatewayRuns_step {before : List Action} (h : P.step s a = some s')
    (hruns : P.GatewayRuns (gatewayChunks before) s) :
    P.GatewayRuns (gatewayChunks (before ++ [a])) s' := by
  -- only a read of the gateway changes its phase or its chunks
  by_cases ha : ∃ c, a = .gatewayReads c
  · obtain ⟨c, rfl⟩ := ha
    have hchunks : gatewayChunks (before ++ [.gatewayReads c]) = gatewayChunks before ++ [c] := by
      simp [gatewayChunks]
    obtain ⟨queue, -, hstep⟩ := Option.bind_eq_some_iff.mp h
    rw [hchunks]
    unfold GatewayRuns at hruns
    cases hphase : s.gateway with
    | waiting received =>
      rw [hphase] at hruns
      obtain ⟨rfl, hnone, hempty⟩ := hruns
      simp only [gatewayStep, hphase] at hstep
      cases harrived : arrived (headLine P.token) none
          (Chunk.join (gatewayChunks before) ++ c.items) with
      | none =>
        rw [harrived] at hstep
        obtain rfl := Option.some.inj hstep
        exact ⟨by simp, harrived, hempty⟩
      | some p =>
        obtain ⟨out, left⟩ := p
        rw [harrived] at hstep
        obtain rfl := Option.some.inj hstep
        by_cases hopen : (P.served out left).isTunnel = true
        · simp only [GatewayRuns, if_pos hopen]
          exact ⟨_, c, [], out, left, rfl, hnone, harrived, hopen, hempty⟩
        · simp only [GatewayRuns, if_neg hopen]
          rw [handleConnection_of_arrived hnone harrived]
          exact eq_false_of_ne_true hopen
    | tunnel =>
      rw [hphase] at hruns
      obtain ⟨front, c', back, out, left, heq, hnone, hsome, hopen, hrelay⟩ := hruns
      simp only [gatewayStep, hphase, Option.some.injEq] at hstep
      subst hstep
      refine ⟨front, c', back ++ [c], out, left, by simp [heq], hnone, hsome, hopen, ?_⟩
      rw [← List.append_assoc, hrelay]
      simp
    | ended => simp [gatewayStep, hphase] at hstep
  · have hne : ∀ c, a ≠ .gatewayReads c := fun c hc => ha ⟨c, hc⟩
    have hchunks : gatewayChunks (before ++ [a]) = gatewayChunks before := by
      cases a <;> simp_all [gatewayChunks]
    obtain ⟨hgateway, hrelay⟩ := gateway_frame hne h
    rw [hchunks, GatewayRuns, hgateway, hrelay]
    exact hruns

theorem replied_eq_error_of_clientPhase {out : Except Text (Except Text Unit)} {left : Bytes}
    {e : Text} (h : clientPhase out left = .failed e) (r : BufReader UInt8 8192) :
    replied (out, r) = .error e := by
  rcases out with e' | e' | _
  · exact congrArg Except.error (ClientPhase.failed.inj h)
  · exact congrArg Except.error (ClientPhase.failed.inj h)
  · cases h

theorem clientRuns_step {before : List Action} (hs : P.Phase s) (h : P.step s a = some s')
    (hruns : ClientRuns (clientChunks before) s) :
    ClientRuns (clientChunks (before ++ [a])) s' := by
  by_cases ha : ∃ c, a = .clientReads c
  · obtain ⟨c, rfl⟩ := ha
    have hchunks : clientChunks (before ++ [.clientReads c]) = clientChunks before ++ [c] := by
      simp [clientChunks]
    obtain ⟨queue, -, hstep⟩ := Option.bind_eq_some_iff.mp h
    rw [hchunks]
    unfold ClientRuns at hruns
    cases hphase : s.client with
    | waiting received =>
      rw [hphase] at hruns
      obtain ⟨rfl, hnone, hempty⟩ := hruns
      simp only [clientStep, hphase] at hstep
      cases harrived : arrived replyHeadLine false
          (Chunk.join (clientChunks before) ++ c.items) with
      | none =>
        rw [harrived] at hstep
        obtain rfl := Option.some.inj hstep
        exact ⟨by simp, harrived, hempty⟩
      | some p =>
        obtain ⟨out, left⟩ := p
        rw [harrived] at hstep
        obtain rfl := Option.some.inj hstep
        cases hclient : clientPhase out left with
        | waiting r =>
          -- a reader that has ended does not wait
          unfold clientPhase at hclient
          split at hclient <;> cases hclient
        | tunnel => exact ⟨_, c, [], out, left, rfl, hnone, harrived, hclient, hempty⟩
        | failed e =>
          change awaitTunnel (clientChunks before ++ [c]) = .error e
          rw [awaitTunnel_of_arrived hnone harrived]
          exact replied_eq_error_of_clientPhase hclient _
    | tunnel =>
      rw [hphase] at hruns
      obtain ⟨front, c', back, out, left, heq, hnone, hsome, hopen, hreceived⟩ := hruns
      simp only [clientStep, hphase, Option.some.injEq] at hstep
      subst hstep
      exact ⟨front, c', back ++ [c], out, left, by simp [heq], hnone, hsome, hopen,
        by simp [hreceived]⟩
    | failed e => simp [clientStep, hphase] at hstep
  have hne : ∀ c, a ≠ .clientReads c := fun c hc => ha ⟨c, hc⟩
  have hchunks : clientChunks (before ++ [a]) = clientChunks before := by
    cases a <;> simp_all [clientChunks]
  rw [hchunks]
  by_cases hend : a = .clientReadsEnd
  · subst hend
    simp only [step, clientEndStep] at h
    cases hphase : s.client with
    | waiting received =>
      simp only [ClientRuns, hphase] at hruns h
      obtain ⟨rfl, hnone, -⟩ := hruns
      split_ifs at h with hclosed
      obtain rfl := Option.some.inj h
      -- the gateway has closed, so what the client has read is a refusal
      have hrefusal : Refusal (Chunk.join (clientChunks before)) := by
        cases hs with
        | refused client _ queue _ _ hwaiting =>
          obtain rfl : queue = [] := hclosed.2
          have hall := hwaiting _ hphase
          rwa [List.append_nil] at hall
        | asking => cases hclosed.1
        | answered _ _ _ _ hgateway =>
          rw [hgateway] at hclosed
          cases hclosed.1
        | opened _ _ hclient _ _ =>
          rw [hphase] at hclient
          cases hclient
      obtain ⟨e, he⟩ := clientPhase_end_of_refusal hrefusal
      simp only [ClientRuns, he]
      rw [awaitTunnel_eq, readTextLines_of_not_arrived hnone]
      exact replied_eq_error_of_clientPhase he _
    | tunnel => simp [hphase] at h
    | failed e => simp [hphase] at h
  · obtain ⟨hclient, hreceived⟩ := client_frame hne hend h
    rw [ClientRuns, hclient, hreceived]
    exact hruns

/-- In every run the gateway is where `handle_connection` is on the chunks it has read, and has
passed on what that function passes on; and the client is where `connect_transport` is, and has
received in the tunnel what that function leaves on the socket. -/
theorem run_refines {actions : List Action} (h : run P.step P.start actions = some s) :
    (s.gateway = .tunnel →
      handleConnection P.connects P.relayAddr P.token (gatewayChunks actions) =
        .tunnel (s.relayReceived ++ s.toRelay)) ∧
    (s.gateway = .ended →
      (handleConnection P.connects P.relayAddr P.token (gatewayChunks actions)).isTunnel = false) ∧
    (s.client = .tunnel → awaitTunnel (clientChunks actions) = .ok s.clientReceived) ∧
    (∀ e, s.client = .failed e → awaitTunnel (clientChunks actions) = .error e) := by
  have hgateway : P.GatewayRuns (gatewayChunks actions) s :=
    have hstart : P.GatewayRuns (gatewayChunks []) P.start := And.intro rfl ⟨rfl, rfl⟩
    run_history (fun before t => P.GatewayRuns (gatewayChunks before) t) hstart
      (fun _ _ _ _ _ _ _ hruns hstep => gatewayRuns_step hstep hruns) h
  have hclient : ClientRuns (clientChunks actions) s :=
    have hstart : ClientRuns (clientChunks []) P.start := And.intro rfl ⟨rfl, rfl⟩
    run_history (fun before t => ClientRuns (clientChunks before) t) hstart
      (fun _ _ _ _ _ _ hrun hruns hstep => clientRuns_step (run_phase hrun) hstep hruns) h
  refine ⟨fun hphase => ?_, fun hphase => ?_, fun hphase => ?_, fun e hphase => ?_⟩
  · rw [GatewayRuns, hphase] at hgateway
    obtain ⟨front, c, back, out, left, heq, hnone, hsome, hopen, hrelay⟩ := hgateway
    rw [heq, handleConnection_of_arrived hnone hsome, hrelay]
    exact headServed_of_isTunnel hopen back
  · rw [GatewayRuns, hphase] at hgateway
    exact hgateway
  · rw [ClientRuns, hphase] at hclient
    obtain ⟨front, c, back, out, left, heq, hnone, hsome, hopen, hreceived⟩ := hclient
    rw [heq, awaitTunnel_of_arrived hnone hsome, hreceived]
    rcases out with e | e | _
    · cases hopen
    · cases hopen
    · rfl
  · rw [ClientRuns, hphase] at hclient
    exact hclient

end Parties

section Samples

/-- A client with the gateway's own token and relay. -/
def sampleParties : Parties where
  connects := fun _ => true
  relayAddr := sampleRelay
  token := secret
  endpoint := sampleUrl
  authority := sampleRelay
  clientToken := secret
  relayAuthority_endpoint := by decide

/-- The tunnel is opened, and a greeting goes there and back. -/
def sampleActions : List Action :=
  [.gatewayReads secretRequest, .clientReads establishedChunk, .clientWrites hello,
    .gatewayReads helloChunk, .relayReads helloChunk, .relayWrites hello,
    .gatewayReadsRelay helloChunk, .clientReads helloChunk]

def sampleEnd : State :=
  { sampleParties.start with
    client := .tunnel
    gateway := .tunnel
    toGateway := []
    clientSent := hello
    clientReceived := hello
    relaySent := hello
    relayReceived := hello }

theorem run_sampleActions :
    run sampleParties.step sampleParties.start sampleActions = some sampleEnd := by
  decide +kernel

theorem sample_transparent :
    (hello = hello ++ [] ++ (if sampleEnd.client = .tunnel then [] else []) ∧
      hello = hello ++ (if sampleEnd.client = .tunnel then [] else []) ++ []) ∧
      sampleEnd.gateway = .tunnel ∧ sampleParties.Admits := by
  obtain ⟨hup, hdown, hopen, hadmits⟩ := Parties.run_transparent (by decide) run_sampleActions
  exact ⟨⟨hup, hdown⟩, hopen rfl, hadmits (by decide)⟩

theorem sample_verdict :
    (sampleEnd.client = .tunnel ↔ sampleParties.Admits) ∧
      ∃ more s', run sampleParties.step sampleParties.start (sampleActions ++ more) = some s' ∧
        ∀ r, s'.client ≠ .waiting r :=
  (Parties.run_verdict run_sampleActions).imp_left fun h => h (by simp [sampleEnd])

theorem sample_refines :
    handleConnection (fun _ => true) sampleRelay secret [secretRequest, helloChunk] =
        .tunnel hello ∧
      awaitTunnel [establishedChunk, helloChunk] = .ok hello := by
  obtain ⟨hgateway, -, hclient, -⟩ := Parties.run_refines run_sampleActions
  exact ⟨hgateway rfl, hclient rfl⟩

end Samples

end Session

end TrustedRelay
