import TrustedRelay.Machine.Run
import TrustedRelay.Tls.Client

/-!
# The cache of the key distribution service

`fetch_cert_bytes_cached` keeps what the service has sent for six hours. Any number of calls may be
under way. A call reads the clock first; it looks the URL up under the lock, fetches without the
lock, and stores a success under the lock, with the time at which it began. A run is any
interleaving of these pieces, with any replies and any passing of time, so a call may be overtaken
between any two of them.

* `run_returned`: whatever the order, bytes are a success that the service has sent for this URL, to
  a call that began less than six hours before; a failure is the call's own and never cached.
* `verify_through_cache`: with a service that sends the same bytes whenever it succeeds, SEV-SNP
  verification through the cache accepts only what it accepts when it asks the service itself.
-/

namespace TrustedRelay

namespace KdsCache

open Machine

/-- `KDS_CACHE_TTL`, in seconds. -/
def kdsCacheTtl : ℕ := 6 * 60 * 60

structure CachedCert where
  fetchedAt : ℕ
  bytes : Bytes

/-- Where a call is between two uses of the lock. -/
inductive Phase
  | looking
  | fetching
  | fetched (bytes : Bytes)
  | returned (result : Except AttestError Bytes)

/-- A call of `fetch_cert_bytes_cached`, which began at `now`. -/
structure Call where
  url : Text
  now : ℕ
  phase : Phase

/-- The clock, the cache, and the calls by number. -/
structure State where
  now : ℕ
  cache : Text → Option CachedCert
  calls : ℕ → Option Call

inductive Action
  | call (i : ℕ) (url : Text)
  | lookup (i : ℕ)
  | reply (i : ℕ) (result : Except AttestError Bytes)
  | store (i : ℕ)
  | tick (d : ℕ)

def State.start : State := ⟨0, fun _ => none, fun _ => none⟩

def State.setCall (s : State) (i : ℕ) (c : Call) : State :=
  { s with calls := Function.update s.calls i (some c) }

@[simp] theorem State.setCall_cache (s : State) (i : ℕ) (c : Call) :
    (s.setCall i c).cache = s.cache := rfl

@[simp] theorem State.setCall_now (s : State) (i : ℕ) (c : Call) :
    (s.setCall i c).now = s.now := rfl

theorem State.setCall_calls (s : State) (i j : ℕ) (c : Call) :
    (s.setCall i c).calls j = if j = i then some c else s.calls j := by
  simp [State.setCall, Function.update_apply]

/-- The entry that a call can use. An entry from after the call began has age zero, as
`duration_since` saturates. -/
def freshEntry (s : State) (c : Call) : Option CachedCert :=
  (s.cache c.url).filter fun e => c.now - e.fetchedAt < kdsCacheTtl

/-- What becomes of a call when its fetch is over. -/
def afterReply : Except AttestError Bytes → Phase
  | .error e => .returned (.error e)
  | .ok bytes => .fetched bytes

def step (s : State) : Action → Option State
  | .call i url =>
    match s.calls i with
    | none => some (s.setCall i ⟨url, s.now, .looking⟩)
    | some _ => none
  | .lookup i =>
    match s.calls i with
    | some ⟨url, now, .looking⟩ =>
      match freshEntry s ⟨url, now, .looking⟩ with
      | some e => some (s.setCall i ⟨url, now, .returned (.ok e.bytes)⟩)
      | none => some (s.setCall i ⟨url, now, .fetching⟩)
    | _ => none
  | .reply i result =>
    match s.calls i with
    | some ⟨url, now, .fetching⟩ => some (s.setCall i ⟨url, now, afterReply result⟩)
    | _ => none
  | .store i =>
    match s.calls i with
    | some ⟨url, now, .fetched bytes⟩ =>
      some ({ s with cache := Function.update s.cache url (some ⟨now, bytes⟩) }.setCall i
        ⟨url, now, .returned (.ok bytes)⟩)
    | _ => none
  | .tick d => some { s with now := s.now + d }

/-! ### What a step can do -/

/-- One constructor for each way a step can go. Only `store` writes to the cache. -/
inductive Move (s : State) : Action → State → Prop
  | call (i url) (h : s.calls i = none) : Move s (.call i url) (s.setCall i ⟨url, s.now, .looking⟩)
  | hit (i url now e) (h : s.calls i = some ⟨url, now, .looking⟩) (he : s.cache url = some e)
      (hfresh : now - e.fetchedAt < kdsCacheTtl) :
    Move s (.lookup i) (s.setCall i ⟨url, now, .returned (.ok e.bytes)⟩)
  | miss (i url now) (h : s.calls i = some ⟨url, now, .looking⟩) :
    Move s (.lookup i) (s.setCall i ⟨url, now, .fetching⟩)
  | fail (i url now e) (h : s.calls i = some ⟨url, now, .fetching⟩) :
    Move s (.reply i (.error e)) (s.setCall i ⟨url, now, .returned (.error e)⟩)
  | succeed (i url now bytes) (h : s.calls i = some ⟨url, now, .fetching⟩) :
    Move s (.reply i (.ok bytes)) (s.setCall i ⟨url, now, .fetched bytes⟩)
  | store (i url now bytes) (h : s.calls i = some ⟨url, now, .fetched bytes⟩) :
    Move s (.store i) ({ s with cache := Function.update s.cache url (some ⟨now, bytes⟩) }.setCall i
      ⟨url, now, .returned (.ok bytes)⟩)
  | tick (d) : Move s (.tick d) { s with now := s.now + d }

theorem step_move {s s' : State} {a : Action} (h : step s a = some s') : Move s a s' := by
  cases a with
  | call i url =>
    simp only [step] at h
    split at h
    · next hi => exact Option.some.inj h ▸ .call i url hi
    · cases h
  | lookup i =>
    simp only [step] at h
    split at h
    · next url now hi =>
      split at h
      · next e he =>
        obtain ⟨hcache, hfresh⟩ := Option.filter_eq_some_iff.mp he
        exact Option.some.inj h ▸ .hit i url now e hi hcache (of_decide_eq_true hfresh)
      · exact Option.some.inj h ▸ .miss i url now hi
    · cases h
  | reply i result =>
    simp only [step] at h
    split at h
    · next url now hi =>
      rw [← Option.some.inj h]
      cases result with
      | error e => exact .fail i url now e hi
      | ok bytes => exact .succeed i url now bytes hi
    · cases h
  | store i =>
    simp only [step] at h
    split at h
    · next url now bytes hi => exact Option.some.inj h ▸ .store i url now bytes hi
    · cases h
  | tick d => exact Option.some.inj h ▸ .tick d

/-! ### Where bytes come from -/

/-- A call for `url` that began at `now` was sent the bytes by the service, and has returned. -/
def Sent (actions : List Action) (s : State) (url : Text) (now : ℕ) (bytes : Bytes) : Prop :=
  ∃ j, s.calls j = some ⟨url, now, .returned (.ok bytes)⟩ ∧ .reply j (.ok bytes) ∈ actions

/-- The history accounts for every success, every entry and every result. -/
structure Traced (actions : List Action) (s : State) : Prop where
  fetched : ∀ i url now bytes, s.calls i = some ⟨url, now, .fetched bytes⟩ →
    .reply i (.ok bytes) ∈ actions
  cached : ∀ url e, s.cache url = some e → Sent actions s url e.fetchedAt e.bytes
  returned : ∀ i url now bytes, s.calls i = some ⟨url, now, .returned (.ok bytes)⟩ →
    ∃ began, now - began < kdsCacheTtl ∧ Sent actions s url began bytes
  failed : ∀ i url now e, s.calls i = some ⟨url, now, .returned (.error e)⟩ →
    .reply i (.error e) ∈ actions

theorem traced_start : Traced [] State.start where
  fetched := by simp [State.start]
  cached := by simp [State.start]
  returned := by simp [State.start]
  failed := by simp [State.start]

/-- A call that has not returned moves: what was sent before remains so. -/
theorem Sent.setCall {actions : List Action} {s : State} {i : ℕ} {c : Call} {url : Text} {now : ℕ}
    {bytes : Bytes} (h : Sent actions s url now bytes)
    (hopen : ∀ url now bytes, s.calls i ≠ some ⟨url, now, .returned (.ok bytes)⟩) (a : Action) :
    Sent (actions ++ [a]) (s.setCall i c) url now bytes := by
  obtain ⟨j, hj, hmem⟩ := h
  have hne : j ≠ i := by
    rintro rfl
    exact hopen _ _ _ hj
  exact ⟨j, by rw [State.setCall_calls, if_neg hne, hj], List.mem_append_left _ hmem⟩

/-- A call that moves without writing: the others and the cache are as accounted for. -/
theorem Traced.setCall {actions : List Action} {s : State} {a : Action} {i : ℕ} {c : Call}
    (h : Traced actions s)
    (hopen : ∀ url now bytes, s.calls i ≠ some ⟨url, now, .returned (.ok bytes)⟩)
    (hfetched : ∀ bytes, c.phase = .fetched bytes → .reply i (.ok bytes) ∈ actions ++ [a])
    (hreturned : ∀ bytes, c.phase = .returned (.ok bytes) → ∃ began, c.now - began < kdsCacheTtl ∧
      Sent (actions ++ [a]) (s.setCall i c) c.url began bytes)
    (hfailed : ∀ e, c.phase = .returned (.error e) → .reply i (.error e) ∈ actions ++ [a]) :
    Traced (actions ++ [a]) (s.setCall i c) where
  fetched j url now bytes hj := by
    rw [State.setCall_calls] at hj
    split_ifs at hj with hij
    · obtain rfl := Option.some.inj hj
      exact hij ▸ hfetched bytes rfl
    · exact List.mem_append_left _ (h.fetched j url now bytes hj)
  cached url e he := (h.cached url e he).setCall hopen a
  returned j url now bytes hj := by
    rw [State.setCall_calls] at hj
    split_ifs at hj with hij
    · obtain rfl := Option.some.inj hj
      exact hreturned bytes rfl
    · obtain ⟨began, hage, hsent⟩ := h.returned j url now bytes hj
      exact ⟨began, hage, hsent.setCall hopen a⟩
  failed j url now e hj := by
    rw [State.setCall_calls] at hj
    split_ifs at hj with hij
    · obtain rfl := Option.some.inj hj
      exact hij ▸ hfailed e rfl
    · exact List.mem_append_left _ (h.failed j url now e hj)

theorem mem_concat {actions : List Action} {a : Action} : a ∈ actions ++ [a] :=
  List.mem_append_right _ (List.mem_singleton_self a)

theorem traced_step {actions : List Action} {s s' : State} {a : Action} (h : Traced actions s)
    (hstep : step s a = some s') : Traced (actions ++ [a]) s' := by
  cases step_move hstep with
  | call i url hi => exact h.setCall (by simp [hi]) nofun nofun nofun
  | hit i url now e hi he hfresh =>
    refine h.setCall (by simp [hi]) nofun (fun bytes hbytes => ?_) nofun
    obtain rfl := Except.ok.inj (Phase.returned.inj hbytes)
    exact ⟨e.fetchedAt, hfresh, (h.cached url e he).setCall (by simp [hi]) _⟩
  | miss i url now hi => exact h.setCall (by simp [hi]) nofun nofun nofun
  | fail i url now e hi =>
    refine h.setCall (by simp [hi]) nofun nofun fun e' he' => ?_
    obtain rfl := Except.error.inj (Phase.returned.inj he')
    exact mem_concat
  | succeed i url now bytes hi =>
    refine h.setCall (by simp [hi]) (fun bytes' hbytes => ?_) nofun nofun
    obtain rfl := Phase.fetched.inj hbytes
    exact mem_concat
  | store i url now bytes hi =>
    -- the entry is the success that was sent to the call that writes it
    have hsent : Sent (actions ++ [.store i]) (s.setCall i ⟨url, now, .returned (.ok bytes)⟩) url
        now bytes :=
      ⟨i, by rw [State.setCall_calls, if_pos rfl], List.mem_append_left _ (h.fetched i _ _ _ hi)⟩
    have hmoved : Traced (actions ++ [.store i])
        (s.setCall i ⟨url, now, .returned (.ok bytes)⟩) := by
      refine h.setCall (by simp [hi]) nofun (fun bytes' hbytes => ?_) nofun
      obtain rfl := Except.ok.inj (Phase.returned.inj hbytes)
      refine ⟨now, ?_, hsent⟩
      rw [Nat.sub_self]
      decide
    refine ⟨hmoved.fetched, fun url' e he => ?_, hmoved.returned, hmoved.failed⟩
    change Function.update s.cache url (some ⟨now, bytes⟩) url' = some e at he
    rw [Function.update_apply] at he
    split_ifs at he with hurl
    · obtain rfl := Option.some.inj he
      exact hurl ▸ hsent
    · exact hmoved.cached url' e he
  | tick d =>
    have hkeep : ∀ {url now bytes}, Sent actions s url now bytes →
        Sent (actions ++ [.tick d]) { s with now := s.now + d } url now bytes := by
      rintro url now bytes ⟨j, hj, hmem⟩
      exact ⟨j, hj, List.mem_append_left _ hmem⟩
    refine ⟨fun i url now bytes hi => List.mem_append_left _ (h.fetched i url now bytes hi),
      fun url e he => hkeep (h.cached url e he), fun i url now bytes hi => ?_,
      fun i url now e hi => List.mem_append_left _ (h.failed i url now e hi)⟩
    obtain ⟨began, hage, hsent⟩ := h.returned i url now bytes hi
    exact ⟨began, hage, hkeep hsent⟩

theorem run_traced {actions : List Action} {s : State}
    (hrun : run step State.start actions = some s) : Traced actions s :=
  run_history Traced traced_start (fun _ _ _ _ _ _ _ hI hat => traced_step hI hat) hrun

/-- In every run: the bytes that a call returns were sent by the service, for the same URL, to
a call that began less than six hours before this one (or after it); an error was sent to the call
itself. -/
theorem run_returned (actions : List Action) (s : State)
    (hrun : run step State.start actions = some s) (i : ℕ) (url : Text) (now : ℕ) :
    (∀ bytes, s.calls i = some ⟨url, now, .returned (.ok bytes)⟩ →
      ∃ j began, s.calls j = some ⟨url, began, .returned (.ok bytes)⟩ ∧
        .reply j (.ok bytes) ∈ actions ∧ now < began + kdsCacheTtl) ∧
    ∀ e, s.calls i = some ⟨url, now, .returned (.error e)⟩ → .reply i (.error e) ∈ actions := by
  have htraced := run_traced hrun
  refine ⟨fun bytes hi => ?_, htraced.failed i url now⟩
  obtain ⟨began, hage, j, hj, hmem⟩ := htraced.returned i url now bytes hi
  exact ⟨j, began, hj, hmem, by omega⟩

/-! ### Verification through the cache -/

section Verification

variable {L : CertLibraries} {kds kds' : SevSnp.Kds}

/-- The URLs that the verification of a report may fetch: two for each product. -/
def requestUrls (data : Bytes) : List Text :=
  let signedData := Bytes.range data 0 0x2A0
  SevSnp.candidateProductNames.flatMap fun productName =>
    [SevSnp.vcekUrl productName (Bytes.range signedData 0x1A0 0x1E0)
        (Bytes.le (Bytes.range signedData 0x180 0x188)),
      SevSnp.certChainUrl (SevSnp.endorser (SevSnp.selector signedData)) productName]

/-- More answers endorse more: an endorsement uses two successes only. -/
theorem endorsedBy_mono {signedData : Bytes} {signature : L.Signature} {signingKey : ℕ}
    {certs : Option Bytes} {chipId : Bytes} {reportedTcb : ℕ} {productName : Text}
    (hleaf : ∀ b, kds (SevSnp.vcekUrl productName chipId reportedTcb) = .ok b →
      kds' (SevSnp.vcekUrl productName chipId reportedTcb) = .ok b)
    (hchain : ∀ b, kds (SevSnp.certChainUrl (SevSnp.endorser signingKey) productName) = .ok b →
      kds' (SevSnp.certChainUrl (SevSnp.endorser signingKey) productName) = .ok b)
    (h : SevSnp.EndorsedBy L kds signedData signature signingKey certs chipId reportedTcb
      productName) :
    SevSnp.EndorsedBy L kds' signedData signature signingKey certs chipId reportedTcb
      productName := by
  obtain ⟨leafDer, chainPemBytes, cert, key, hisLeaf, hisChain, hrest⟩ := h
  refine ⟨leafDer, chainPemBytes, cert, key, ?_, hchain _ hisChain, hrest⟩
  rcases hisLeaf with ⟨hvcek, hembedded | ⟨hnone, hfetched⟩⟩ | hvlek
  · exact Or.inl ⟨hvcek, Or.inl hembedded⟩
  · exact Or.inl ⟨hvcek, Or.inr ⟨hnone, hleaf _ hfetched⟩⟩
  · exact Or.inr hvlek

theorem verify_mono {evidence : Evidence} {expected : Option Bytes} {r : ByteArr 64}
    (h : ∀ url ∈ requestUrls evidence.data, ∀ b, kds url = .ok b → kds' url = .ok b)
    (hverify : SevSnp.verify L kds evidence expected = .ok r) :
    SevSnp.verify L kds' evidence expected = .ok r := by
  obtain ⟨⟨htee, hlen, hreport⟩, hr⟩ := SevSnp.verify_eq_ok_iff.mp hverify
  obtain ⟨signature, hsignature, product, hproduct, hendorsed⟩ := hreport.endorsed
  have hendorsed' := endorsedBy_mono
    (h _ (List.mem_flatMap.mpr ⟨product, hproduct, List.mem_cons_self⟩))
    (h _ (List.mem_flatMap.mpr ⟨product, hproduct, List.mem_cons_of_mem _ List.mem_cons_self⟩))
    hendorsed
  exact SevSnp.verify_eq_ok_iff.mpr ⟨⟨htee, hlen,
    { hreport with endorsed := ⟨signature, hsignature, product, hproduct, hendorsed'⟩ }⟩, hr⟩

/-- What the service sends when it succeeds is what `kds` says. -/
def Serves (kds : SevSnp.Kds) (s : State) (a : Action) : Prop :=
  ∀ i c bytes, a = .reply i (.ok bytes) → s.calls i = some c → kds c.url = .ok bytes

/-- What a verification has seen: for each URL the result of its call. -/
def view (s : State) (callOf : Text → ℕ) : SevSnp.Kds := fun url =>
  match s.calls (callOf url) with
  | some ⟨url', _, .returned result⟩ =>
    if url' = url then result else .error (.verificationFailed "not fetched".toList)
  | _ => .error (.verificationFailed "not fetched".toList)

/-- Every success in the machine is one of the service. -/
structure Faithful (kds : SevSnp.Kds) (s : State) : Prop where
  fetched : ∀ i url now bytes, s.calls i = some ⟨url, now, .fetched bytes⟩ → kds url = .ok bytes
  cached : ∀ url e, s.cache url = some e → kds url = .ok e.bytes
  returned : ∀ i url now bytes, s.calls i = some ⟨url, now, .returned (.ok bytes)⟩ →
    kds url = .ok bytes

theorem Faithful.setCall {s : State} {i : ℕ} {c : Call} (h : Faithful kds s)
    (hfetched : ∀ bytes, c.phase = .fetched bytes → kds c.url = .ok bytes)
    (hreturned : ∀ bytes, c.phase = .returned (.ok bytes) → kds c.url = .ok bytes) :
    Faithful kds (s.setCall i c) where
  fetched j url now bytes hj := by
    rw [State.setCall_calls] at hj
    split_ifs at hj
    · obtain rfl := Option.some.inj hj
      exact hfetched bytes rfl
    · exact h.fetched j url now bytes hj
  cached := h.cached
  returned j url now bytes hj := by
    rw [State.setCall_calls] at hj
    split_ifs at hj
    · obtain rfl := Option.some.inj hj
      exact hreturned bytes rfl
    · exact h.returned j url now bytes hj

theorem faithful_step {s s' : State} {a : Action} (h : Faithful kds s) (hserves : Serves kds s a)
    (hstep : step s a = some s') : Faithful kds s' := by
  cases step_move hstep with
  | call i url hi => exact h.setCall nofun nofun
  | hit i url now e hi he hfresh =>
    refine h.setCall nofun fun bytes hbytes => ?_
    obtain rfl := Except.ok.inj (Phase.returned.inj hbytes)
    exact h.cached url e he
  | miss i url now hi => exact h.setCall nofun nofun
  | fail i url now e hi => exact h.setCall nofun nofun
  | succeed i url now bytes hi =>
    refine h.setCall (fun bytes' hbytes => ?_) nofun
    obtain rfl := Phase.fetched.inj hbytes
    exact hserves i ⟨url, now, .fetching⟩ bytes rfl hi
  | store i url now bytes hi =>
    have hbytes := h.fetched i url now bytes hi
    have hmoved : Faithful kds (s.setCall i ⟨url, now, .returned (.ok bytes)⟩) :=
      h.setCall nofun fun bytes' heq => by
        obtain rfl := Except.ok.inj (Phase.returned.inj heq)
        exact hbytes
    refine ⟨hmoved.fetched, fun url' e he => ?_, hmoved.returned⟩
    change Function.update s.cache url (some ⟨now, bytes⟩) url' = some e at he
    rw [Function.update_apply] at he
    split_ifs at he with hurl
    · obtain rfl := Option.some.inj he
      exact hurl ▸ hbytes
    · exact hmoved.cached url' e he
  | tick d => exact ⟨h.fetched, h.cached, h.returned⟩

theorem view_eq_ok {s : State} {callOf : Text → ℕ} {url : Text} {bytes : Bytes}
    (h : view s callOf url = .ok bytes) :
    ∃ now, s.calls (callOf url) = some ⟨url, now, .returned (.ok bytes)⟩ := by
  unfold view at h
  split at h
  · next url' now result hcall =>
    split_ifs at h with hurl
    subst hurl
    exact ⟨now, h ▸ hcall⟩
  · cases h

/-- In every run in which the service sends `kds` whenever it succeeds, SEV-SNP verification over
the results of its calls through the cache accepts only what verification over `kds` accepts, and
all of it if its calls have got whatever the service has of the certificates for the report. -/
theorem verify_through_cache (L : CertLibraries) (kds : SevSnp.Kds) (actions : List Action)
    (s : State) (hrun : run step State.start actions = some s)
    (hserves : Throughout step State.start actions (Serves kds)) (callOf : Text → ℕ)
    (evidence : Evidence) (expected : Option Bytes) (r : ByteArr 64) :
    (SevSnp.verify L (view s callOf) evidence expected = .ok r →
      SevSnp.verify L kds evidence expected = .ok r) ∧
    ((∀ url ∈ requestUrls evidence.data, (kds url).isOk → (view s callOf url).isOk) →
      SevSnp.verify L kds evidence expected = .ok r →
        SevSnp.verify L (view s callOf) evidence expected = .ok r) := by
  have hstart : Faithful kds State.start := ⟨by simp [State.start], by simp [State.start],
    by simp [State.start]⟩
  have hfaithful : Faithful kds s :=
    run_invariant_of_throughout (Faithful kds) (fun _ _ _ => faithful_step) hstart hserves hrun
  have hextends : ∀ url bytes, view s callOf url = .ok bytes → kds url = .ok bytes := by
    intro url bytes h
    obtain ⟨now, hcall⟩ := view_eq_ok h
    exact hfaithful.returned _ url now bytes hcall
  refine ⟨verify_mono fun url _ => hextends url, fun hall => verify_mono fun url hurl bytes h => ?_⟩
  have hgot := hall url hurl (by rw [h]; rfl)
  cases hview : view s callOf url with
  | error e =>
    rw [hview] at hgot
    cases hgot
  | ok bytes' => rw [← h, hextends url bytes' hview]

end Verification

section Samples

open AttestedTls

/-- One call for each URL, all of them answered. -/
def fetchAll (urls : List Text) (first : ℕ) : List Action :=
  urls.zipIdx.flatMap fun (url, i) =>
    [.call (first + i) url, .lookup (first + i), .reply (first + i) (.ok []), .store (first + i)]

/-- The calls of a second verification, five hours later: all of them are hits. -/
def lookupAll (urls : List Text) (first : ℕ) : List Action :=
  urls.zipIdx.flatMap fun (url, i) => [.call (first + i) url, .lookup (first + i)]

def twoVerifications : List Action :=
  fetchAll (requestUrls zeroReport) 0 ++ .tick 18000 :: lookupAll (requestUrls zeroReport) 6

/-- Fetches of one URL that end in the other order than they began: what the first one stores at
last has the older date. -/
def overtaken : List Action :=
  [.call 0 "url".toList, .lookup 0, .tick 20000, .call 1 "url".toList, .lookup 1,
    .reply 1 (.ok [1]), .store 1, .reply 0 (.ok [0]), .store 0, .call 2 "url".toList, .lookup 2]

theorem overtaken_returns :
    ∃ s, run step State.start overtaken = some s ∧ ∃ j began,
      s.calls j = some ⟨"url".toList, began, .returned (.ok [0])⟩ ∧
        .reply j (.ok [0]) ∈ overtaken ∧ 20000 < began + kdsCacheTtl := by
  have hrun : run step State.start overtaken = some _ := rfl
  exact ⟨_, hrun, (run_returned overtaken _ hrun 2 "url".toList 20000).1 [0] rfl⟩

theorem twoVerifications_serves :
    Throughout step State.start twoVerifications (Serves fun _ => .ok []) := by
  intro before a after t heq _ i c bytes ha _
  have hmem : Action.reply i (.ok bytes) ∈ twoVerifications := by
    rw [heq, ← ha]
    exact List.mem_append_right _ List.mem_cons_self
  simp only [twoVerifications, fetchAll, lookupAll, List.mem_append, List.mem_cons,
    List.mem_flatMap, Prod.exists, List.not_mem_nil, or_false, reduceCtorEq, false_or, and_false,
    exists_false, Action.reply.injEq, Except.ok.injEq] at hmem
  obtain ⟨_, _, -, -, rfl⟩ := hmem
  rfl

/-- The second verification does not ask the service, and accepts the report all the same. -/
theorem twoVerifications_accepted :
    ∃ s, run step State.start twoVerifications = some s ∧
      SevSnp.verify oneEndorsement (view s fun url => 6 + (requestUrls zeroReport).idxOf url)
        ⟨.sevSnp, zeroReport⟩ (some (List.replicate 48 0)) = .ok boundReportdata := by
  obtain ⟨s, hs⟩ : ∃ s, run step State.start twoVerifications = some s :=
    Option.isSome_iff_exists.mp (by decide +kernel)
  have hgot : (run step State.start twoVerifications).all (fun s =>
      (requestUrls zeroReport).all fun url =>
        (view s (fun url => 6 + (requestUrls zeroReport).idxOf url) url).isOk) = true := by
    decide +kernel
  rw [hs, Option.all_some, List.all_eq_true] at hgot
  exact ⟨s, hs, (verify_through_cache oneEndorsement (fun _ => .ok []) twoVerifications s hs
    twoVerifications_serves _ ⟨.sevSnp, zeroReport⟩ (some (List.replicate 48 0)) boundReportdata).2
    (fun url hurl _ => hgot url hurl) (by decide +kernel)⟩

end Samples

end KdsCache

end TrustedRelay
