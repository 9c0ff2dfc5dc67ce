import TrustedRelay.Attest.ConfidentialSpace
import TrustedRelay.Machine.Run

/-!
# The metadata cache

`fetch_json_cached` serves two kinds of documents, the well-known metadata and the key sets, from
one cache of JSON values by URL. Any number of calls may be under way. A call looks the URL up
under the lock; if there is no fresh entry it fetches without the lock, stores the parsed reply
under the lock, and only then decodes it. A run is any interleaving of these pieces, with any
replies and any passing of time.

A reply that is JSON of another shape is stored before the call fails, and the failure is then
served from the cache. An entry is dated by its write and not by its reply, so what has waited for
the lock is served for longer than its time. `failures_not_sticky` says that in the runs without
such replies a failed call has left the cache alone and has asked the server itself, and, for every
run, where a value comes from and how old it was.
-/

namespace TrustedRelay

namespace MetadataCache

open Machine

/-- `DEFAULT_JWKS_TTL`, in seconds. -/
def defaultJwksTtl : ℕ := 30 * 60

/-- A call of `fetch_json_cached`: `fromValue` decodes the document type that it is made for. -/
structure Request (V α : Type) where
  url : Text
  ttl : ℕ
  fromValue : V → Option α

structure CacheEntry (V : Type) where
  fetchedAt : ℕ
  body : V

/-- Where a call is between two uses of the lock. The time at which a parsed reply arrived is not
kept by the code. -/
inductive Phase (V α : Type)
  | looking
  | fetching
  | parsed (value : V) (arrived : ℕ)
  | returned (result : Except AttestError α)

structure Call (V α : Type) where
  request : Request V α
  phase : Phase V α

/-- The clock, `JSON_CACHE`, and the calls by number. -/
structure State (V α : Type) where
  now : ℕ
  cache : Text → Option (CacheEntry V)
  calls : ℕ → Option (Call V α)

inductive Action (V α : Type)
  | call (i : ℕ) (request : Request V α)
  | lookup (i : ℕ)
  | reply (i : ℕ) (text : Except AttestError Text)
  | store (i : ℕ)
  | tick (d : ℕ)

/-- The call that moves. -/
def Action.caller {V α : Type} : Action V α → Option ℕ
  | .call i _ => some i
  | .lookup i => some i
  | .reply i _ => some i
  | .store i => some i
  | .tick _ => none

section Cache

variable {V α : Type} (fromStr : Text → Option V)

def State.start : State V α := ⟨0, fun _ => none, fun _ => none⟩

def State.setCall (s : State V α) (i : ℕ) (c : Call V α) : State V α :=
  { s with calls := Function.update s.calls i (some c) }

@[simp] theorem State.setCall_cache (s : State V α) (i : ℕ) (c : Call V α) :
    (s.setCall i c).cache = s.cache := rfl

@[simp] theorem State.setCall_now (s : State V α) (i : ℕ) (c : Call V α) :
    (s.setCall i c).now = s.now := rfl

theorem State.setCall_calls (s : State V α) (i j : ℕ) (c : Call V α) :
    (s.setCall i c).calls j = if j = i then some c else s.calls j := by
  simp [State.setCall, Function.update_apply]

/-- The entry is there and not older than the call allows. -/
def Fresh (s : State V α) (r : Request V α) (e : CacheEntry V) : Prop :=
  s.cache r.url = some e ∧ s.now - e.fetchedAt < r.ttl

/-- The lookup, under the lock. -/
def freshBody (s : State V α) (r : Request V α) : Option V :=
  ((s.cache r.url).filter fun e => s.now - e.fetchedAt < r.ttl).map CacheEntry.body

/-- Decoding an entry of the cache. -/
def cachedResult (r : Request V α) (value : V) : Except AttestError α :=
  okOr (r.fromValue value)
    (.verificationFailed ("cached JSON from ".toList ++ r.url ++ " is invalid: ".toList))

/-- Decoding the reply that was just stored. -/
def fetchedResult (r : Request V α) (value : V) : Except AttestError α :=
  okOr (r.fromValue value)
    (.verificationFailed ("JSON response from ".toList ++ r.url ++ " has wrong shape: ".toList))

/-- What becomes of a call whose fetch is over at the time `now`. -/
def afterReply (r : Request V α) (now : ℕ) : Except AttestError Text → Phase V α
  | .error e => .returned (.error e)
  | .ok body =>
    match fromStr body with
    | none => .returned (.error (.verificationFailed
        ("JSON response from ".toList ++ r.url ++ " is invalid: ".toList)))
    | some value => .parsed value now

def step (s : State V α) : Action V α → Option (State V α)
  | .call i r =>
    match s.calls i with
    | none => some (s.setCall i ⟨r, .looking⟩)
    | some _ => none
  | .lookup i =>
    match s.calls i with
    | some ⟨r, .looking⟩ =>
      match freshBody s r with
      | some value => some (s.setCall i ⟨r, .returned (cachedResult r value)⟩)
      | none => some (s.setCall i ⟨r, .fetching⟩)
    | _ => none
  | .reply i text =>
    match s.calls i with
    | some ⟨r, .fetching⟩ => some (s.setCall i ⟨r, afterReply fromStr r s.now text⟩)
    | _ => none
  | .store i =>
    match s.calls i with
    | some ⟨r, .parsed value _⟩ =>
      some ({ s with cache := Function.update s.cache r.url (some ⟨s.now, value⟩) }.setCall i
        ⟨r, .returned (fetchedResult r value)⟩)
    | _ => none
  | .tick d => some { s with now := s.now + d }

/-! ### What a step can do -/

/-- One constructor for each way a step can go. Only `store` writes to the cache. -/
inductive Move (s : State V α) : Action V α → State V α → Prop
  | call (i r) (h : s.calls i = none) : Move s (.call i r) (s.setCall i ⟨r, .looking⟩)
  | hit (i r e) (h : s.calls i = some ⟨r, .looking⟩) (he : Fresh s r e) :
    Move s (.lookup i) (s.setCall i ⟨r, .returned (cachedResult r e.body)⟩)
  | miss (i r) (h : s.calls i = some ⟨r, .looking⟩) :
    Move s (.lookup i) (s.setCall i ⟨r, .fetching⟩)
  | fail (i r text e) (h : s.calls i = some ⟨r, .fetching⟩) :
    Move s (.reply i text) (s.setCall i ⟨r, .returned (.error e)⟩)
  | parse (i r body value) (h : s.calls i = some ⟨r, .fetching⟩) (hv : fromStr body = some value) :
    Move s (.reply i (.ok body)) (s.setCall i ⟨r, .parsed value s.now⟩)
  | store (i r value arrived) (h : s.calls i = some ⟨r, .parsed value arrived⟩) :
    Move s (.store i)
      ({ s with cache := Function.update s.cache r.url (some ⟨s.now, value⟩) }.setCall i
        ⟨r, .returned (fetchedResult r value)⟩)
  | tick (d) : Move s (.tick d) { s with now := s.now + d }

theorem freshBody_eq_some {s : State V α} {r : Request V α} {value : V}
    (h : freshBody s r = some value) : ∃ e, Fresh s r e ∧ e.body = value := by
  obtain ⟨e, he, rfl⟩ := Option.map_eq_some_iff.mp h
  obtain ⟨hcache, hfresh⟩ := Option.filter_eq_some_iff.mp he
  exact ⟨e, ⟨hcache, by simpa using hfresh⟩, rfl⟩

theorem step_move {s s' : State V α} {a : Action V α} (h : step fromStr s a = some s') :
    Move fromStr s a s' := by
  cases a with
  | call i r =>
    simp only [step] at h
    split at h
    · next hi => exact Option.some.inj h ▸ .call i r hi
    · exact absurd h (by simp)
  | lookup i =>
    simp only [step] at h
    split at h
    · next r hi =>
      split at h
      · next value hvalue =>
        obtain ⟨e, he, rfl⟩ := freshBody_eq_some hvalue
        exact Option.some.inj h ▸ .hit i r e hi he
      · exact Option.some.inj h ▸ .miss i r hi
    · exact absurd h (by simp)
  | reply i text =>
    simp only [step] at h
    split at h
    · next r hi =>
      rw [← Option.some.inj h]
      cases text with
      | error e => exact .fail i r _ e hi
      | ok body =>
        cases hv : fromStr body with
        | none =>
          simp only [afterReply, hv]
          exact .fail i r _ _ hi
        | some value =>
          simp only [afterReply, hv]
          exact .parse i r body value hi hv
    · exact absurd h (by simp)
  | store i =>
    simp only [step] at h
    split at h
    · next r value arrived hi => exact Option.some.inj h ▸ .store i r value arrived hi
    · exact absurd h (by simp)
  | tick d => exact Option.some.inj h ▸ .tick d

/-! ### Where values come from -/

/-- The call was answered, at the given time, with JSON of the value. -/
def Replied (actions : List (Action V α)) (i : ℕ) (r : Request V α) (value : V) (arrived : ℕ) :
    Prop :=
  ∃ before after body t, actions = before ++ .reply i (.ok body) :: after ∧
    run (step fromStr) State.start before = some t ∧ t.calls i = some ⟨r, .fetching⟩ ∧
    t.now = arrived ∧ fromStr body = some value

/-- The entry was stored, at the time that it shows, by a call for the URL that had been answered
with its body at the time `arrived`. -/
def Stored (actions : List (Action V α)) (url : Text) (e : CacheEntry V) (arrived : ℕ) : Prop :=
  ∃ before after i r t, actions = before ++ .store i :: after ∧
    run (step fromStr) State.start before = some t ∧ t.calls i = some ⟨r, .parsed e.body arrived⟩ ∧
    r.url = url ∧ t.now = e.fetchedAt ∧ Replied fromStr before i r e.body arrived

/-- The value is decoded from the call's own reply, or from an entry that was fresh when the call
looked it up and that was stored by a call for the same URL. The age of such a value counts from
the reply. -/
def Derived (actions : List (Action V α)) (i : ℕ) (r : Request V α) (value : α)
    (ageAllowed : ℕ → Prop) : Prop :=
  ∃ body, r.fromValue body = some value ∧ ((∃ arrived, Replied fromStr actions i r body arrived) ∨
    ∃ before after t e arrived, actions = before ++ .lookup i :: after ∧
      run (step fromStr) State.start before = some t ∧ t.calls i = some ⟨r, .looking⟩ ∧
      Fresh t r e ∧ e.body = body ∧ Stored fromStr before r.url e arrived ∧
      arrived ≤ e.fetchedAt ∧ e.fetchedAt ≤ t.now ∧ ageAllowed (t.now - arrived))

variable {fromStr}

theorem Replied.append {actions : List (Action V α)} {i : ℕ} {r : Request V α} {value : V}
    {arrived : ℕ} (h : Replied fromStr actions i r value arrived) (later : List (Action V α)) :
    Replied fromStr (actions ++ later) i r value arrived := by
  obtain ⟨before, after, body, t, rfl, ht⟩ := h
  exact ⟨before, after ++ later, body, t, by rw [List.append_assoc, List.cons_append], ht⟩

theorem Stored.append {actions : List (Action V α)} {url : Text} {e : CacheEntry V} {arrived : ℕ}
    (h : Stored fromStr actions url e arrived) (later : List (Action V α)) :
    Stored fromStr (actions ++ later) url e arrived := by
  obtain ⟨before, after, i, r, t, rfl, ht⟩ := h
  exact ⟨before, after ++ later, i, r, t, by rw [List.append_assoc, List.cons_append], ht⟩

theorem Derived.append {actions : List (Action V α)} {i : ℕ} {r : Request V α} {value : α}
    {ageAllowed : ℕ → Prop} (h : Derived fromStr actions i r value ageAllowed)
    (later : List (Action V α)) : Derived fromStr (actions ++ later) i r value ageAllowed := by
  obtain ⟨body, hbody, ⟨arrived, hreplied⟩ | ⟨before, after, t, e, arrived, rfl, ht⟩⟩ := h
  · exact ⟨body, hbody, Or.inl ⟨arrived, hreplied.append later⟩⟩
  · exact ⟨body, hbody, Or.inr ⟨before, after ++ later, t, e, arrived,
      by rw [List.append_assoc, List.cons_append], ht⟩⟩

/-- The history accounts for every parsed reply, every entry and every returned value. -/
structure Traced (fromStr : Text → Option V) (actions : List (Action V α)) (s : State V α) :
    Prop where
  parsed : ∀ i r value arrived, s.calls i = some ⟨r, .parsed value arrived⟩ →
    arrived ≤ s.now ∧ Replied fromStr actions i r value arrived
  cached : ∀ url e, s.cache url = some e →
    e.fetchedAt ≤ s.now ∧ ∃ arrived ≤ e.fetchedAt, Stored fromStr actions url e arrived
  returned : ∀ i r value, s.calls i = some ⟨r, .returned (.ok value)⟩ →
    Derived fromStr actions i r value fun _ => True

theorem traced_start : Traced fromStr [] (State.start : State V α) where
  parsed := by simp [State.start]
  cached := by simp [State.start]
  returned := by simp [State.start]

theorem Stored.of_cached {actions later : List (Action V α)} {s : State V α} {url : Text}
    {e : CacheEntry V} (h : e.fetchedAt ≤ s.now ∧
      ∃ arrived ≤ e.fetchedAt, Stored fromStr actions url e arrived) :
    e.fetchedAt ≤ s.now ∧
      ∃ arrived ≤ e.fetchedAt, Stored fromStr (actions ++ later) url e arrived := by
  obtain ⟨hnow, arrived, harrived, hstored⟩ := h
  exact ⟨hnow, arrived, harrived, hstored.append later⟩

/-- A call that moves without writing: the other calls and the cache are as accounted for. -/
theorem Traced.setCall {actions : List (Action V α)} {s : State V α} {a : Action V α} {i : ℕ}
    {r : Request V α} {phase : Phase V α} (h : Traced fromStr actions s)
    (hparsed : ∀ value arrived, phase = .parsed value arrived →
      arrived ≤ s.now ∧ Replied fromStr (actions ++ [a]) i r value arrived)
    (hreturned : ∀ value, phase = .returned (.ok value) →
      Derived fromStr (actions ++ [a]) i r value fun _ => True) :
    Traced fromStr (actions ++ [a]) (s.setCall i ⟨r, phase⟩) where
  parsed j r' value arrived hj := by
    rw [State.setCall_calls] at hj
    split_ifs at hj with hij
    · obtain ⟨rfl, hphase⟩ := Call.mk.inj (Option.some.inj hj)
      exact hij ▸ hparsed value arrived hphase
    · obtain ⟨harrived, hreplied⟩ := h.parsed j r' value arrived hj
      exact ⟨harrived, hreplied.append [a]⟩
  cached url e he := Stored.of_cached (h.cached url e he)
  returned j r' value hj := by
    rw [State.setCall_calls] at hj
    split_ifs at hj with hij
    · obtain ⟨rfl, hphase⟩ := Call.mk.inj (Option.some.inj hj)
      exact hij ▸ hreturned value hphase
    · exact (h.returned j r' value hj).append [a]

theorem cachedResult_eq_ok_iff {r : Request V α} {body : V} {value : α} :
    cachedResult r body = .ok value ↔ r.fromValue body = some value := okOr_eq_ok_iff

theorem fetchedResult_eq_ok_iff {r : Request V α} {body : V} {value : α} :
    fetchedResult r body = .ok value ↔ r.fromValue body = some value := okOr_eq_ok_iff

theorem traced_step {actions : List (Action V α)} {s s' : State V α} {a : Action V α}
    (hrun : run (step fromStr) State.start actions = some s) (h : Traced fromStr actions s)
    (hstep : step fromStr s a = some s') : Traced fromStr (actions ++ [a]) s' := by
  cases step_move fromStr hstep with
  | call i r hi => exact h.setCall nofun nofun
  | hit i r e hi he =>
    refine h.setCall nofun fun value hvalue => ?_
    obtain ⟨hnow, arrived, harrived, hstored⟩ := h.cached r.url e he.1
    exact ⟨e.body, cachedResult_eq_ok_iff.mp (Phase.returned.inj hvalue),
      Or.inr ⟨actions, [], s, e, arrived, rfl, hrun, hi, he, rfl, hstored, harrived, hnow, trivial⟩⟩
  | miss i r hi => exact h.setCall nofun nofun
  | fail i r text e hi => exact h.setCall nofun nofun
  | parse i r body value hi hv =>
    refine h.setCall (fun value' arrived hvalue => ?_) nofun
    obtain ⟨rfl, rfl⟩ := Phase.parsed.inj hvalue
    exact ⟨Nat.le_refl _, actions, [], body, s, rfl, hrun, hi, rfl, hv⟩
  | store i r value arrived hi =>
    -- the only move that writes the cache, and it writes the reply to its own call
    obtain ⟨harrived, hreplied⟩ := h.parsed i r value arrived hi
    have hwrite : Traced fromStr (actions ++ [.store i])
        (s.setCall i ⟨r, .returned (fetchedResult r value)⟩) := by
      refine h.setCall nofun fun value' hvalue => ?_
      exact ⟨value, fetchedResult_eq_ok_iff.mp (Phase.returned.inj hvalue),
        Or.inl ⟨arrived, hreplied.append _⟩⟩
    refine ⟨hwrite.parsed, fun url e he => ?_, hwrite.returned⟩
    change Function.update s.cache r.url (some ⟨s.now, value⟩) url = some e at he
    rw [Function.update_apply] at he
    split_ifs at he with hurl
    · obtain rfl := Option.some.inj he
      exact ⟨Nat.le_refl _, arrived, harrived, actions, [], i, r, s, rfl, hrun, hi, hurl.symm, rfl,
        hreplied⟩
    · exact hwrite.cached url e he
  | tick d =>
    refine ⟨fun i r value arrived hi => ?_, fun url e he => ?_,
      fun i r value hi => (h.returned i r value hi).append _⟩
    · obtain ⟨harrived, hreplied⟩ := h.parsed i r value arrived hi
      exact ⟨Nat.le_trans harrived (Nat.le_add_right _ _), hreplied.append _⟩
    · obtain ⟨hnow, hstored⟩ := Stored.of_cached (h.cached url e he)
      exact ⟨Nat.le_trans hnow (Nat.le_add_right _ _), hstored⟩

/-! ### The age of a value -/

/-- A reply that is stored has waited for at most `delay`, and an entry that is found would be fresh
even if it were older by that. The delay may depend on the URL and on the time of the write. -/
def StoredWithin (delay : Text → ℕ → ℕ) (s : State V α) (a : Action V α) : Prop :=
  (∀ i r value arrived, a = .store i → s.calls i = some ⟨r, .parsed value arrived⟩ →
      s.now - arrived ≤ delay r.url s.now) ∧
    ∀ i r e, a = .lookup i → s.calls i = some ⟨r, .looking⟩ → Fresh s r e →
      s.now - e.fetchedAt + delay r.url e.fetchedAt < r.ttl

/-- Where no reply waits for longer than the lookups allow for, the reply behind a value was younger
than the call allows. -/
theorem Derived.fresh {actions : List (Action V α)} {i : ℕ} {r : Request V α} {value : α}
    {delay : Text → ℕ → ℕ} (h : Derived fromStr actions i r value fun _ => True)
    (hdelay : Throughout (step fromStr) State.start actions (StoredWithin delay)) :
    Derived fromStr actions i r value (· < r.ttl) := by
  obtain ⟨body, hbody, hown | ⟨before, after, t, e, arrived, rfl, ht, hi, he, rfl, hstored, harrived,
    hnow, -⟩⟩ := h
  · exact ⟨body, hbody, Or.inl hown⟩
  · refine ⟨e.body, hbody, Or.inr ⟨before, after, t, e, arrived, rfl, ht, hi, he, rfl, hstored,
      harrived, hnow, ?_⟩⟩
    have hlookup := (hdelay before _ after t rfl ht).2 i r e rfl hi he
    obtain ⟨earlier, between, j, r', u, rfl, hu, hj, hurl, hwritten, -⟩ := hstored
    -- the write of the entry is a step of the run as well
    have hwrite := (hdelay earlier (.store j) (between ++ .lookup i :: after) u
      (by rw [List.append_assoc, List.cons_append]) hu).1 j r' e.body arrived rfl hj
    rw [hwritten, hurl] at hwrite
    omega

/-! ### Failures -/

/-- A reply that is stored, and an entry that is found, decodes to what its call asks for. -/
def ShapesMatch (s : State V α) (a : Action V α) : Prop :=
  (∀ i r value arrived, a = .store i → s.calls i = some ⟨r, .parsed value arrived⟩ →
      (r.fromValue value).isSome = true) ∧
    ∀ i r e, a = .lookup i → s.calls i = some ⟨r, .looking⟩ → Fresh s r e →
      (r.fromValue e.body).isSome = true

/-- A call that stored its reply returned a value, and a call that failed was answered. -/
structure Answered (actions : List (Action V α)) (s : State V α) : Prop where
  stored : ∀ i, .store i ∈ actions → ∃ r value, s.calls i = some ⟨r, .returned (.ok value)⟩
  failed : ∀ i r e, s.calls i = some ⟨r, .returned (.error e)⟩ → ∃ text, .reply i text ∈ actions

theorem answered_start : Answered [] (State.start : State V α) where
  stored := by simp
  failed := by simp [State.start]

/-- A call that has not returned moves; if it returns a failure, it was answered. -/
theorem Answered.setCall {actions : List (Action V α)} {s : State V α} {a : Action V α} {i : ℕ}
    {r : Request V α} {phase : Phase V α} (h : Answered actions s)
    (hopen : ∀ r' result, s.calls i ≠ some ⟨r', .returned result⟩)
    (hstore : ∀ j, a = .store j → j = i ∧ ∃ value, phase = .returned (.ok value))
    (hfailed : ∀ e, phase = .returned (.error e) → ∃ text, .reply i text ∈ actions ++ [a]) :
    Answered (actions ++ [a]) (s.setCall i ⟨r, phase⟩) where
  stored j hj := by
    rw [State.setCall_calls]
    rcases List.mem_append.mp hj with hold | hnew
    · obtain ⟨r', value, hr'⟩ := h.stored j hold
      have hne : j ≠ i := by
        rintro rfl
        exact hopen r' _ hr'
      exact ⟨r', value, by rw [if_neg hne, hr']⟩
    · obtain ⟨rfl, value, rfl⟩ := hstore j (List.mem_singleton.mp hnew).symm
      exact ⟨r, value, if_pos rfl⟩
  failed j r' e hj := by
    rw [State.setCall_calls] at hj
    split_ifs at hj with hij
    · rw [hij]
      exact hfailed e (Call.mk.inj (Option.some.inj hj)).2
    · obtain ⟨text, htext⟩ := h.failed j r' e hj
      exact ⟨text, List.mem_append_left _ htext⟩

theorem answered_step {actions : List (Action V α)} {s s' : State V α} {a : Action V α}
    (h : Answered actions s) (hshape : ShapesMatch s a) (hstep : step fromStr s a = some s') :
    Answered (actions ++ [a]) s' := by
  cases step_move fromStr hstep with
  | call i r hi => exact h.setCall (by simp [hi]) nofun nofun
  | hit i r e hi he =>
    obtain ⟨value, hvalue⟩ := Option.isSome_iff_exists.mp (hshape.2 i r e rfl hi he)
    have hok : cachedResult r e.body = .ok value := cachedResult_eq_ok_iff.mpr hvalue
    rw [hok]
    exact h.setCall (by simp [hi]) nofun nofun
  | miss i r hi => exact h.setCall (by simp [hi]) nofun nofun
  | fail i r text e hi =>
    refine h.setCall (by simp [hi]) nofun fun _ _ => ?_
    exact ⟨text, List.mem_append_right _ (List.mem_singleton_self _)⟩
  | parse i r body value hi hv => exact h.setCall (by simp [hi]) nofun nofun
  | store i r value arrived hi =>
    obtain ⟨v, hv⟩ := Option.isSome_iff_exists.mp (hshape.1 i r value arrived rfl hi)
    have hok : fetchedResult r value = .ok v := fetchedResult_eq_ok_iff.mpr hv
    rw [hok]
    have hmoved : Answered (actions ++ [.store i]) (s.setCall i ⟨r, .returned (.ok v)⟩) := by
      refine h.setCall (by simp [hi]) (fun j hj => ?_) nofun
      exact ⟨(Action.store.inj hj).symm, v, rfl⟩
    exact ⟨hmoved.stored, hmoved.failed⟩
  | tick d =>
    refine ⟨fun i hi => ?_, fun i r e hi => ?_⟩
    · rcases List.mem_append.mp hi with hold | hnew
      · exact h.stored i hold
      · exact absurd (List.mem_singleton.mp hnew) nofun
    · obtain ⟨text, htext⟩ := h.failed i r e hi
      exact ⟨text, List.mem_append_left _ htext⟩

/-- A step of a call that is not its write leaves the cache as it was. -/
theorem cache_of_step {s s' : State V α} {a : Action V α} {i : ℕ}
    (hstep : step fromStr s a = some s') (hcaller : a.caller = some i) (hstore : a ≠ .store i) :
    s'.cache = s.cache := by
  cases step_move fromStr hstep with
  | store j r value arrived hj =>
    obtain rfl := Option.some.inj hcaller
    exact absurd rfl hstore
  | _ => rfl

/-- In a run whose replies and entries all have the shape that is asked for, no step of a failed
call changed the cache, and the call asked the server itself. In every run, a returned value
derives from the call's own reply or from a fresh entry of the same URL; if no reply has waited for
the lock for longer than the lookups allow for, the reply behind the entry was itself younger than
the call allows. -/
theorem failures_not_sticky (fromStr : Text → Option V) (actions : List (Action V α))
    (s : State V α) (hrun : run (step fromStr) State.start actions = some s) :
    (Throughout (step fromStr) State.start actions ShapesMatch →
      ∀ i r e, s.calls i = some ⟨r, .returned (.error e)⟩ →
        (∀ before a after t t', actions = before ++ a :: after →
          run (step fromStr) State.start before = some t → step fromStr t a = some t' →
            a.caller = some i → t'.cache = t.cache) ∧
          ∃ text, .reply i text ∈ actions) ∧
      ∀ i r value, s.calls i = some ⟨r, .returned (.ok value)⟩ →
        (Derived fromStr actions i r value fun _ => True) ∧
          ∀ delay, Throughout (step fromStr) State.start actions (StoredWithin delay) →
            Derived fromStr actions i r value (· < r.ttl) := by
  refine ⟨fun hshapes i r e hi => ?_, fun i r value hi => ?_⟩
  · have hanswered : Answered actions s := run_history Answered answered_start
      (fun before a after t t' heq ht hI hat =>
        answered_step hI (hshapes before a after t heq ht) hat) hrun
    refine ⟨fun before a after t t' heq _ hat hcaller => ?_, hanswered.failed i r e hi⟩
    refine cache_of_step hat hcaller ?_
    rintro rfl
    -- a write would have ended in a value
    obtain ⟨r', value, hr'⟩ := hanswered.stored i
      (heq ▸ List.mem_append_right _ List.mem_cons_self)
    rw [hi] at hr'
    exact absurd (Call.mk.inj (Option.some.inj hr')).2 nofun
  · have hderived := (run_history (Traced fromStr) traced_start
      (fun _ _ _ _ _ _ ht hI hat => traced_step ht hI hat) hrun).returned i r value hi
    exact ⟨hderived, fun delay hdelay => hderived.fresh hdelay⟩

end Cache

/-! ### A document of the wrong shape -/

/-- JSON objects with text fields. -/
abbrev TextObject := List (Text × Text)

/-- The parser, on two documents. -/
def parseObject (text : Text) : Option TextObject :=
  if text = "\x7b\x7d".toList then some []
  else if text = "\x7b\"jwks_uri\":\"https://keys.example\"\x7d".toList then
    some [("jwks_uri".toList, "https://keys.example".toList)]
  else none

/-- The call that `fetch_well_known` makes. -/
def wellKnownRequest (issuer : Text) : Request TextObject Text where
  url := Text.trimEndMatches issuer '/' ++ GcpConfidentialSpaceVerifier.defaultWellKnownPath
  ttl := defaultJwksTtl
  fromValue document := document.lookup "jwks_uri".toList

/-- Two calls, one after the other, of which the first is answered. -/
def twoCalls (answer : Text) : List (Action TextObject Text) :=
  [.call 0 (wellKnownRequest defaultIssuer), .lookup 0, .reply 0 (.ok answer), .store 0, .tick 5,
    .call 1 (wellKnownRequest defaultIssuer), .lookup 1]

/-- The call ended in an error. -/
def Call.failed {V α : Type} (c : Call V α) : Bool :=
  match c.phase with
  | .returned (.error _) => true
  | _ => false

theorem Call.failed_iff {V α : Type} {c : Call V α} :
    c.failed = true ↔ ∃ e, c.phase = .returned (.error e) := by
  unfold Call.failed
  split
  · next e he => exact iff_of_true rfl ⟨e, he⟩
  · next hne => exact iff_of_false Bool.false_ne_true fun ⟨e, he⟩ => hne e he

/-- The empty object has no `jwks_uri`: the first call fails and fills the cache, and five seconds
later the second fails without asking the server. -/
theorem wrongShape_sticks :
    ∃ s, run (step parseObject) State.start (twoCalls "\x7b\x7d".toList) = some s ∧
      (s.calls 0).any Call.failed = true ∧
      (s.cache (wellKnownRequest defaultIssuer).url).isSome = true ∧
      (s.calls 1).any Call.failed = true ∧
      ∀ text, .reply 1 text ∉ twoCalls "\x7b\x7d".toList := by
  obtain ⟨s, hs⟩ : ∃ s, run (step parseObject) State.start (twoCalls "\x7b\x7d".toList) = some s :=
    Option.isSome_iff_exists.mp (by decide +kernel)
  have hfacts : (run (step parseObject) State.start (twoCalls "\x7b\x7d".toList)).any (fun s =>
      (s.calls 0).any Call.failed && (s.cache (wellKnownRequest defaultIssuer).url).isSome &&
        (s.calls 1).any Call.failed) = true := by decide +kernel
  rw [hs, Option.any_some, Bool.and_eq_true, Bool.and_eq_true] at hfacts
  refine ⟨s, hs, hfacts.1.1, hfacts.1.2, hfacts.2, fun text => ?_⟩
  simp [twoCalls]

/-- Two calls for a document of the right shape; the reply to the first waits for the lock for ten
hours. -/
def lateStore : List (Action TextObject Text) :=
  [.call 0 (wellKnownRequest defaultIssuer), .lookup 0,
    .reply 0 (.ok "\x7b\"jwks_uri\":\"https://keys.example\"\x7d".toList), .tick 36000, .store 0,
    .tick 5, .call 1 (wellKnownRequest defaultIssuer), .lookup 1]

/-- The second call is served a reply that is ten hours and five seconds old: the only one of the
run is among the first three steps. -/
theorem lateStore_serves_old :
    (run (step parseObject) State.start (lateStore.take 3)).map State.now = some 0 ∧
      (run (step parseObject) State.start lateStore).map State.now = some 36005 ∧
      ((run (step parseObject) State.start lateStore).bind (·.calls 1)).map Call.phase =
        some (.returned (.ok "https://keys.example".toList)) ∧
      ∀ i text, .reply i text ∉ lateStore.drop 3 := by
  refine ⟨rfl, rfl, rfl, fun i text => ?_⟩
  simp [lateStore]

/-- Two calls whose fetches both fail. -/
def unreachable : List (Action TextObject Text) :=
  [.call 0 (wellKnownRequest defaultIssuer), .lookup 0,
    .reply 0 (.error (.verificationFailed "failed to fetch".toList)),
    .call 1 (wellKnownRequest defaultIssuer), .lookup 1,
    .reply 1 (.error (.verificationFailed "failed to fetch".toList))]

theorem unreachable_shapesMatch :
    Throughout (step parseObject) State.start unreachable ShapesMatch := by
  have hnostore : ∀ i, Action.store i ∉ unreachable := by simp [unreachable]
  intro before a after t heq ht
  have hempty : t.cache = fun _ => none := by
    refine run_history (fun _ u => u.cache = fun _ => none) rfl ?_ ht
    intro before' b after' u u' heq' _ hI hb
    cases step_move parseObject hb with
    | store j r value arrived hj =>
      refine absurd ?_ (hnostore j)
      rw [heq, heq']
      exact List.mem_append_left _ (List.mem_append_right _ List.mem_cons_self)
    | _ => exact hI
  refine ⟨fun i r value arrived ha _ => ?_, fun i r e _ _ hfresh => ?_⟩
  · refine absurd ?_ (hnostore i)
    rw [heq, ha]
    exact List.mem_append_right _ List.mem_cons_self
  · rw [Fresh, hempty] at hfresh
    exact absurd hfresh.1 nofun

/-- The second call asks the server again. -/
theorem unreachable_asks_again :
    ∃ s, run (step parseObject) State.start unreachable = some s ∧
      (s.calls 1).any Call.failed = true ∧ ∃ text, .reply 1 text ∈ unreachable := by
  obtain ⟨s, hs⟩ : ∃ s, run (step parseObject) State.start unreachable = some s :=
    Option.isSome_iff_exists.mp (by decide +kernel)
  have hfailed : (run (step parseObject) State.start unreachable).any
      (fun s => (s.calls 1).any Call.failed) = true := by decide +kernel
  rw [hs, Option.any_some] at hfailed
  refine ⟨s, hs, hfailed, ?_⟩
  cases hcall : s.calls 1 with
  | none =>
    rw [hcall] at hfailed
    exact absurd hfailed (by decide)
  | some c =>
    rw [hcall, Option.any_some] at hfailed
    obtain ⟨e, he⟩ := Call.failed_iff.mp hfailed
    have hc : s.calls 1 = some ⟨c.request, .returned (.error e)⟩ := by rw [hcall, ← he]
    exact ((failures_not_sticky parseObject unreachable s hs).1 unreachable_shapesMatch 1 c.request e
      hc).2

end MetadataCache

end TrustedRelay
