import TrustedRelay.Machine.Effects
import TrustedRelay.Server.OneShot

/-!
# The handlers in one piece

The handlers of the relay move in pieces, and their moves interleave. What they return is as if each
had run without a break: every handler takes effect at one of its moves, when it uses the store or
is refused before, and returns what the handler in one piece returns in the state of the store at
that move. `handlers_linearise` says so for every run, with an order of the handlers in which one
that has returned comes before all that arrive later.
-/

namespace TrustedRelay

open Machine

/-- A handler, as an operation on the store. -/
inductive Call
  | inject (i : ℕ) (credential : ProviderCredential)
  | exchange (j : ℕ) (headers : HeaderMap) (body : Bytes)
deriving DecidableEq

namespace Call

/-- The plane and the number of the handler. -/
def id : Call → ℕ ⊕ ℕ
  | .inject i _ => .inl i
  | .exchange j _ _ => .inr j

/-- The action with which the handler starts. -/
def arrival : Call → Action
  | .inject i credential => .inject i credential
  | .exchange j headers body => .request j headers body

/-- What the handler does to the store. -/
def apply (store : ProviderCredentialStore) : Call → ProviderCredentialStore
  | .inject _ credential => (injectProviderCredential store credential).1
  | .exchange _ _ _ => store

end Call

section Linearise

variable (P : UrlParser) (C : HttpClient) (extractModelName : Bytes → Option Text) (S : AppState)

/-- The data plane in one piece, up to the request on the wire. -/
def exchangeOnce (store : ProviderCredentialStore) (headers : HeaderMap) (body : Bytes) :
    Except AppError WireRequest := do
  let url ← routeRequest P extractModelName S.config body
  sendRequest P C S headers body url store.get

/-- The handler that takes effect with an action: an injection when it is refused or writes, an
exchange when it is refused or reads. -/
def takesEffect (s : Server) : Action → Option Call
  | .validate i =>
    match s.injections i with
    | some (.received credential) =>
      match credential.validate with
      | .ok () => none
      | .error _ => some (.inject i credential)
    | _ => none
  | .setOnce i =>
    match s.injections i with
    | some (.validated credential) => some (.inject i credential)
    | _ => none
  | .route j =>
    match s.exchanges j with
    | some (.received headers body) =>
      match routeRequest P extractModelName S.config body with
      | .ok _ => none
      | .error _ => some (.exchange j headers body)
    | _ => none
  | .readStore j =>
    match s.exchanges j with
    | some (.routed headers body _) => some (.exchange j headers body)
    | _ => none
  | _ => none

/-! ### Handlers under way -/

/-- The call has arrived and has not taken effect. -/
def Pending (actions : List Action) (log : List Call) (call : Call) : Prop :=
  call.arrival ∈ actions ∧ call.id ∉ log.map Call.id

/-- The stage of an injection, by when the handler in one piece took effect. -/
def Injection.Explained (start : ProviderCredentialStore) (actions : List Action) (log : List Call)
    (i : ℕ) : Injection → Prop
  | .received c => Pending actions log (.inject i c)
  | .validated c => c.validate = .ok () ∧ Pending actions log (.inject i c)
  | .finished c status => ∃ store, TookEffect Call.apply start log (.inject i c) store ∧
      status = (injectProviderCredential store c).2
  | .answered c status => ∃ store, TookEffect Call.apply start log (.inject i c) store ∧
      status = (injectProviderCredential store c).2

/-- The stage of an exchange. -/
def Exchange.Explained (start : ProviderCredentialStore) (actions : List Action) (log : List Call)
    (j : ℕ) : Exchange → Prop
  | .received headers body => Pending actions log (.exchange j headers body)
  | .routed headers body url => routeRequest P extractModelName S.config body = .ok url ∧
      Pending actions log (.exchange j headers body)
  | .loaded headers body url credential => routeRequest P extractModelName S.config body = .ok url ∧
      TookEffect Call.apply start log (.exchange j headers body) credential
  | .sent req => ∃ headers body store,
      TookEffect Call.apply start log (.exchange j headers body) store ∧
      exchangeOnce P C extractModelName S store headers body = .ok req
  | .failed e => ∃ headers body store,
      TookEffect Call.apply start log (.exchange j headers body) store ∧
      exchangeOnce P C extractModelName S store headers body = .error e

/-- The log explains the state of the server after the actions. -/
structure Linearised (start : ProviderCredentialStore) (actions : List Action) (log : List Call)
    (s : Server) : Prop where
  store : s.store = log.foldl Call.apply start
  nodup : (log.map Call.id).Nodup
  arrived : ∀ call ∈ log, call.arrival ∈ actions
  injection : ∀ i x, s.injections i = some x → x.Explained start actions log i
  exchange : ∀ j x, s.exchanges j = some x →
    x.Explained P C extractModelName S start actions log j
  idleInjection : ∀ i, s.injections i = none → .inl i ∉ log.map Call.id
  idleExchange : ∀ j, s.exchanges j = none → .inr j ∉ log.map Call.id

variable {P C extractModelName S} {start : ProviderCredentialStore} {actions : List Action}
  {log : List Call} {s s' : Server}

theorem Pending.concat {call : Call} (h : Pending actions log call) (a : Action)
    {new : List Call} (hnew : call.id ∉ new.map Call.id) :
    Pending (actions ++ [a]) (log ++ new) call := by
  refine ⟨List.mem_append_left [a] h.1, ?_⟩
  rw [List.map_append, List.mem_append, not_or]
  exact ⟨h.2, hnew⟩

theorem Injection.Explained.concat {i : ℕ} {x : Injection} (h : x.Explained start actions log i)
    (a : Action) {new : List Call} (hnew : .inl i ∉ new.map Call.id) :
    x.Explained start (actions ++ [a]) (log ++ new) i := by
  cases x with
  | received c => exact Pending.concat h a hnew
  | validated c => exact ⟨h.1, h.2.concat a hnew⟩
  | finished c status | answered c status =>
    obtain ⟨store, htook, hstatus⟩ := h
    exact ⟨store, htook.append new, hstatus⟩

theorem Exchange.Explained.concat {j : ℕ} {x : Exchange}
    (h : x.Explained P C extractModelName S start actions log j) (a : Action) {new : List Call}
    (hnew : .inr j ∉ new.map Call.id) :
    x.Explained P C extractModelName S start (actions ++ [a]) (log ++ new) j := by
  cases x with
  | received headers body => exact Pending.concat h a hnew
  | routed headers body url => exact ⟨h.1, h.2.concat a hnew⟩
  | loaded headers body url credential => exact ⟨h.1, h.2.append new⟩
  | sent req =>
    obtain ⟨headers, body, store, htook, hreq⟩ := h
    exact ⟨headers, body, store, htook.append new, hreq⟩
  | failed e =>
    obtain ⟨headers, body, store, htook, he⟩ := h
    exact ⟨headers, body, store, htook.append new, he⟩

/-! ### Every move is explained -/

theorem Linearised.extend (h : Linearised P C extractModelName S start actions log s) (a : Action)
    {new : Option Call} (hnew : ∀ call, new = some call → Pending actions log call) :
    ((log ++ new.toList).map Call.id).Nodup ∧
      ∀ call ∈ log ++ new.toList, call.arrival ∈ actions ++ [a] := by
  have hold : ∀ call ∈ log, call.arrival ∈ actions ++ [a] :=
    fun call hcall => List.mem_append_left [a] (h.arrived call hcall)
  cases new with
  | none =>
    rw [Option.toList_none, List.append_nil]
    exact ⟨h.nodup, hold⟩
  | some call =>
    obtain ⟨harrival, hid⟩ := hnew call rfl
    rw [Option.toList_some, List.map_append, List.map_singleton]
    refine ⟨?_, fun call' hcall' => ?_⟩
    · rw [← List.concat_eq_append]
      exact h.nodup.concat hid
    · rcases List.mem_append.mp hcall' with hlog | hlast
      · exact hold call' hlog
      · rw [List.mem_singleton.mp hlast]
        exact List.mem_append_left [a] harrival

/-- An injection moves, and takes effect or not. -/
theorem Linearised.setInjection (h : Linearised P C extractModelName S start actions log s)
    {a : Action} {i : ℕ} {x : Injection} (store : ProviderCredentialStore) {new : Option Call}
    (hnew : ∀ call, new = some call → Pending actions log call ∧ call.id = .inl i)
    (hstore : store = new.toList.foldl Call.apply s.store)
    (hx : x.Explained start (actions ++ [a]) (log ++ new.toList) i) :
    Linearised P C extractModelName S start (actions ++ [a]) (log ++ new.toList)
      ({ s with store }.setInjection i x) := by
  obtain ⟨hnodup, harrived⟩ := h.extend a fun call hcall => (hnew call hcall).1
  have hother : ∀ id, id ≠ .inl i → id ∉ new.toList.map Call.id := by
    rintro id hid hmem
    obtain ⟨call, hcall, rfl⟩ := List.mem_map.mp hmem
    exact hid (hnew call (Option.mem_toList.mp hcall)).2
  refine ⟨?_, hnodup, harrived, fun i' x' hi' => ?_, fun j x' hj => ?_, fun i' hi' => ?_,
    fun j hj => ?_⟩
  · rw [List.foldl_append, ← h.store]
    exact hstore
  · rw [Server.setInjection_injections] at hi'
    split_ifs at hi' with heq
    · obtain rfl := Option.some.inj hi'
      exact heq ▸ hx
    · exact (h.injection i' x' hi').concat a (hother _ fun hid => heq (Sum.inl.inj hid))
  · exact (h.exchange j x' hj).concat a (hother _ nofun)
  · rw [Server.setInjection_injections] at hi'
    split_ifs at hi' with heq
    rw [List.map_append, List.mem_append, not_or]
    exact ⟨h.idleInjection i' hi', hother _ fun hid => heq (Sum.inl.inj hid)⟩
  · rw [List.map_append, List.mem_append, not_or]
    exact ⟨h.idleExchange j hj, hother _ nofun⟩

/-- An exchange moves, and leaves the store alone. -/
theorem Linearised.setExchange (h : Linearised P C extractModelName S start actions log s)
    {a : Action} {j : ℕ} {x : Exchange} {new : Option Call}
    (hnew : ∀ call, new = some call → Pending actions log call ∧
      ∃ headers body, call = .exchange j headers body)
    (hx : x.Explained P C extractModelName S start (actions ++ [a]) (log ++ new.toList) j) :
    Linearised P C extractModelName S start (actions ++ [a]) (log ++ new.toList)
      (s.setExchange j x) := by
  obtain ⟨hnodup, harrived⟩ := h.extend a fun call hcall => (hnew call hcall).1
  have hother : ∀ id, id ≠ .inr j → id ∉ new.toList.map Call.id := by
    rintro id hid hmem
    obtain ⟨call, hcall, rfl⟩ := List.mem_map.mp hmem
    obtain ⟨-, headers, body, rfl⟩ := hnew call (Option.mem_toList.mp hcall)
    exact hid rfl
  have hstore : new.toList.foldl Call.apply s.store = s.store := by
    cases new with
    | none => rfl
    | some call =>
      obtain ⟨-, headers, body, rfl⟩ := hnew call rfl
      rfl
  refine ⟨?_, hnodup, harrived, fun i x' hi => ?_, fun j' x' hj' => ?_, fun i hi => ?_,
    fun j' hj' => ?_⟩
  · rw [List.foldl_append, ← h.store, hstore]
    rfl
  · exact (h.injection i x' hi).concat a (hother _ nofun)
  · rw [Server.setExchange_exchanges] at hj'
    split_ifs at hj' with heq
    · obtain rfl := Option.some.inj hj'
      exact heq ▸ hx
    · exact (h.exchange j' x' hj').concat a (hother _ fun hid => heq (Sum.inr.inj hid))
  · rw [List.map_append, List.mem_append, not_or]
    exact ⟨h.idleInjection i hi, hother _ nofun⟩
  · rw [Server.setExchange_exchanges] at hj'
    split_ifs at hj' with heq
    rw [List.map_append, List.mem_append, not_or]
    exact ⟨h.idleExchange j' hj', hother _ fun hid => heq (Sum.inr.inj hid)⟩

/-- What takes effect now took effect in the present state of the store. -/
theorem Linearised.tookEffect (h : Linearised P C extractModelName S start actions log s)
    (call : Call) :
    TookEffect Call.apply start (log ++ [call]) call s.store := tookEffect_concat h.store.symm

/-- An injection moves, and nothing takes effect. -/
theorem Linearised.waitInjection (h : Linearised P C extractModelName S start actions log s)
    {a : Action} {i : ℕ} {x : Injection} (hnone : takesEffect P extractModelName S s a = none)
    (hx : x.Explained start (actions ++ [a]) log i) :
    Linearised P C extractModelName S start (actions ++ [a])
      (log ++ (takesEffect P extractModelName S s a).toList) (s.setInjection i x) := by
  refine h.setInjection s.store (fun call hcall => ?_) ?_ ?_
  · rw [hnone] at hcall
    cases hcall
  · rw [hnone]
    rfl
  · rwa [hnone, Option.toList_none, List.append_nil]

/-- An injection takes effect, and returns what the handler in one piece returns now. -/
theorem Linearised.takeInjection (h : Linearised P C extractModelName S start actions log s)
    {a : Action} {i : ℕ} {c : ProviderCredential}
    (hsome : takesEffect P extractModelName S s a = some (.inject i c))
    (hpending : Pending actions log (.inject i c)) :
    Linearised P C extractModelName S start (actions ++ [a])
      (log ++ (takesEffect P extractModelName S s a).toList)
      ({ s with store := (injectProviderCredential s.store c).1 }.setInjection i
        (.finished c (injectProviderCredential s.store c).2)) := by
  refine h.setInjection _ (fun call hcall => ?_) ?_ ?_
  · obtain rfl := Option.some.inj (hsome.symm.trans hcall)
    exact ⟨hpending, rfl⟩
  · rw [hsome]
    rfl
  · rw [hsome]
    exact ⟨s.store, h.tookEffect _, rfl⟩

/-- An exchange moves, and nothing takes effect. -/
theorem Linearised.waitExchange (h : Linearised P C extractModelName S start actions log s)
    {a : Action} {j : ℕ} {x : Exchange} (hnone : takesEffect P extractModelName S s a = none)
    (hx : x.Explained P C extractModelName S start (actions ++ [a]) log j) :
    Linearised P C extractModelName S start (actions ++ [a])
      (log ++ (takesEffect P extractModelName S s a).toList) (s.setExchange j x) := by
  refine h.setExchange (fun call hcall => ?_) ?_
  · rw [hnone] at hcall
    cases hcall
  · rwa [hnone, Option.toList_none, List.append_nil]

/-- A redirect is no move of a handler: nothing changes that the log explains. -/
theorem Linearised.resend (h : Linearised P C extractModelName S start actions log s)
    {a : Action} {j : ℕ} {hop : Hop} (hnone : takesEffect P extractModelName S s a = none) :
    Linearised P C extractModelName S start (actions ++ [a])
      (log ++ (takesEffect P extractModelName S s a).toList) (s.resend j hop) := by
  rw [hnone, Option.toList_none]
  have hnew : ∀ call, (none : Option Call) = some call → Pending actions log call := by
    intro call hcall
    cases hcall
  obtain ⟨hnodup, harrived⟩ := h.extend a hnew
  refine ⟨?_, hnodup, harrived, fun i x hi => (h.injection i x hi).concat a List.not_mem_nil,
    fun j' x hj => (h.exchange j' x hj).concat a List.not_mem_nil, ?_, ?_⟩
  · rw [List.append_nil]
    exact h.store
  · rw [List.append_nil]
    exact h.idleInjection
  · rw [List.append_nil]
    exact h.idleExchange

/-- An exchange takes effect, in the present state of the store. -/
theorem Linearised.takeExchange (h : Linearised P C extractModelName S start actions log s)
    {a : Action} {j : ℕ} {headers : HeaderMap} {body : Bytes} {x : Exchange}
    (hsome : takesEffect P extractModelName S s a = some (.exchange j headers body))
    (hpending : Pending actions log (.exchange j headers body))
    (hx : TookEffect Call.apply start (log ++ [.exchange j headers body])
      (.exchange j headers body) s.store → x.Explained P C extractModelName S start
        (actions ++ [a]) (log ++ [.exchange j headers body]) j) :
    Linearised P C extractModelName S start (actions ++ [a])
      (log ++ (takesEffect P extractModelName S s a).toList) (s.setExchange j x) := by
  refine h.setExchange (fun call hcall => ?_) ?_
  · obtain rfl := Option.some.inj (hsome.symm.trans hcall)
    exact ⟨hpending, headers, body, rfl⟩
  · rw [hsome]
    exact hx (h.tookEffect _)

theorem Pending.arrival (call : Call) (hid : call.id ∉ log.map Call.id) :
    Pending (actions ++ [call.arrival]) log call :=
  ⟨List.mem_append_right actions List.mem_cons_self, hid⟩

theorem Pending.later {call : Call} (h : Pending actions log call) (a : Action) :
    Pending (actions ++ [a]) log call :=
  ⟨List.mem_append_left [a] h.1, h.2⟩

/-- A loaded store refuses every valid injection, an empty one takes it. -/
theorem injectProviderCredential_of_valid {c : ProviderCredential} (hc : c.validate = .ok ())
    (store : ProviderCredentialStore) :
    injectProviderCredential store c =
      (some (store.getD c),
        if store = none then StatusCode.noContent else StatusCode.conflict) := by
  rw [injectProviderCredential, hc]
  cases store <;> rfl

theorem injectProviderCredential_of_invalid {c : ProviderCredential} {e : Text}
    (hc : c.validate = .error e) (store : ProviderCredentialStore) :
    injectProviderCredential store c = (store, StatusCode.badRequest) := by
  rw [injectProviderCredential, hc]

/-- A credential in the store stays there. -/
theorem apply_some (c : ProviderCredential) (call : Call) : call.apply (some c) = some c := by
  cases call with
  | exchange j headers body => rfl
  | inject i c' =>
    cases hc : c'.validate with
    | ok u => exact congrArg Prod.fst (injectProviderCredential_of_valid hc (some c))
    | error e => exact congrArg Prod.fst (injectProviderCredential_of_invalid hc (some c))

theorem foldl_apply_some (c : ProviderCredential) (log : List Call) :
    log.foldl Call.apply (some c) = some c := by
  induction log with
  | nil => rfl
  | cons call log ih => rw [List.foldl_cons, apply_some, ih]

theorem store_of_tookEffect {call : Call} {c : ProviderCredential}
    (h : TookEffect Call.apply start log call (some c)) : log.foldl Call.apply start = some c := by
  obtain ⟨later, hlater⟩ := h.later
  rw [hlater, apply_some, foldl_apply_some]

theorem linearised_step (h : Linearised P C extractModelName S start actions log s) {a : Action}
    (ha : step P C extractModelName S s a = some s') :
    Linearised P C extractModelName S start (actions ++ [a])
      (log ++ (takesEffect P extractModelName S s a).toList) s' := by
  cases a with
  | inject i c =>
    cases hi : s.injections i <;> simp only [step, hi, Option.some.injEq, reduceCtorEq] at ha
    rw [← ha]
    exact h.waitInjection rfl (Pending.arrival (.inject i c) (h.idleInjection i hi))
  | validate i =>
    simp only [step] at ha
    split at ha
    · next c hi =>
      have hpending : Pending actions log (.inject i c) := h.injection i _ hi
      cases hc : c.validate with
      | ok u =>
        rw [hc] at ha
        rw [← Option.some.inj ha]
        have hnone : takesEffect P extractModelName S s (.validate i) = none := by
          rw [takesEffect, hi]
          dsimp only
          rw [hc]
        exact h.waitInjection hnone ⟨hc, hpending.later _⟩
      | error e =>
        -- a refused injection takes effect here: in one piece it would leave the store alone too
        rw [hc] at ha
        rw [← Option.some.inj ha]
        have hsome : takesEffect P extractModelName S s (.validate i) = some (.inject i c) := by
          rw [takesEffect, hi]
          dsimp only
          rw [hc]
        have hmoved := h.takeInjection hsome hpending
        rw [injectProviderCredential_of_invalid hc] at hmoved
        exact hmoved
    · simp at ha
  | setOnce i =>
    simp only [step] at ha
    split at ha
    · next c hi =>
      obtain ⟨hc, hpending⟩ := h.injection i _ hi
      have hsome : takesEffect P extractModelName S s (.setOnce i) = some (.inject i c) := by
        rw [takesEffect, hi]
      have hmoved := h.takeInjection hsome hpending
      rw [injectProviderCredential_of_valid hc] at hmoved
      cases hs : s.store <;> rw [hs] at ha hmoved <;> rw [← Option.some.inj ha] <;> exact hmoved
    · simp at ha
  | answer i =>
    simp only [step] at ha
    split at ha
    · next c status hi =>
      rw [← Option.some.inj ha]
      obtain ⟨store, htook, hstatus⟩ := h.injection i _ hi
      exact h.waitInjection rfl ⟨store, htook, hstatus⟩
    · simp at ha
  | request j headers body =>
    cases hj : s.exchanges j <;> simp only [step, hj, Option.some.injEq, reduceCtorEq] at ha
    rw [← ha]
    exact h.waitExchange rfl (Pending.arrival (.exchange j headers body) (h.idleExchange j hj))
  | route j =>
    simp only [step] at ha
    split at ha
    · next headers body hj =>
      have hpending : Pending actions log (.exchange j headers body) := h.exchange j _ hj
      cases hroute : routeRequest P extractModelName S.config body with
      | ok url =>
        rw [hroute] at ha
        rw [← Option.some.inj ha]
        have hnone : takesEffect P extractModelName S s (.route j) = none := by
          rw [takesEffect, hj]
          dsimp only
          rw [hroute]
        exact h.waitExchange hnone ⟨hroute, hpending.later _⟩
      | error e =>
        -- an exchange that is refused before it reads the store is refused with any store
        rw [hroute] at ha
        rw [← Option.some.inj ha]
        have hsome : takesEffect P extractModelName S s (.route j) =
            some (.exchange j headers body) := by
          rw [takesEffect, hj]
          dsimp only
          rw [hroute]
        have honce : exchangeOnce P C extractModelName S s.store headers body = .error e := by
          rw [exchangeOnce, hroute]
          rfl
        exact h.takeExchange hsome hpending fun htook => ⟨headers, body, s.store, htook, honce⟩
    · simp at ha
  | readStore j =>
    simp only [step] at ha
    split at ha
    · next headers body url hj =>
      obtain ⟨hroute, hpending⟩ := h.exchange j _ hj
      rw [← Option.some.inj ha]
      have hsome : takesEffect P extractModelName S s (.readStore j) =
          some (.exchange j headers body) := by
        rw [takesEffect, hj]
      exact h.takeExchange hsome hpending fun htook => ⟨hroute, htook⟩
    · simp at ha
  | send j =>
    simp only [step] at ha
    split at ha
    · next headers body url credential hj =>
      -- the credential is the one that was read, whatever the store holds by now
      obtain ⟨hroute, htook⟩ := h.exchange j _ hj
      have honce : exchangeOnce P C extractModelName S credential headers body =
          sendRequest P C S headers body url credential := by
        rw [exchangeOnce, hroute]
        rfl
      cases hsend : sendRequest P C S headers body url credential with
      | ok req =>
        rw [hsend] at ha
        rw [← Option.some.inj ha]
        exact h.waitExchange rfl ⟨headers, body, credential, htook, honce.trans hsend⟩
      | error e =>
        rw [hsend] at ha
        rw [← Option.some.inj ha]
        exact h.waitExchange rfl ⟨headers, body, credential, htook, honce.trans hsend⟩
    · simp at ha
  | redirect j resp =>
    simp only [step] at ha
    split at ha
    · split_ifs at ha
      split at ha
      · rw [← Option.some.inj ha]
        exact h.resend rfl
      · simp at ha
    · simp at ha

variable (P C extractModelName S)

theorem linearised_start (start : ProviderCredentialStore) :
    Linearised P C extractModelName S start [] [] (Server.withStore start) where
  store := rfl
  nodup := List.nodup_nil
  arrived := nofun
  injection := nofun
  exchange := nofun
  idleInjection _ _ := List.not_mem_nil
  idleExchange _ _ := List.not_mem_nil

/-! ### The order of the handlers -/

/-- The handler is there. -/
def Server.HasArrived (s : Server) : ℕ ⊕ ℕ → Prop
  | .inl i => s.injections i ≠ none
  | .inr j => s.exchanges j ≠ none

/-- The handler has an outcome. -/
def Server.HasReturned (s : Server) : ℕ ⊕ ℕ → Prop
  | .inl i => ∃ c status, s.result i = some (c, status)
  | .inr j => (∃ req, s.exchanges j = some (.sent req)) ∨ ∃ e, s.exchanges j = some (.failed e)

/-- The log is an order of handlers that explains the run: executed one after the other in this
order, the handlers in one piece leave the same store, and return the same where they have
returned. The order respects the time, as every part of the run has a part of the log in which all
handlers are that have returned by then, and none that arrive later. -/
structure Linearises (start : ProviderCredentialStore) (actions : List Action) (log : List Call)
    (s : Server) : Prop where
  unique : (log.map Call.id).Nodup
  arrived : ∀ call ∈ log, call.arrival ∈ actions
  store : s.store = log.foldl Call.apply start
  answered : ∀ i c status, s.result i = some (c, status) → ∃ store,
    TookEffect Call.apply start log (.inject i c) store ∧
    status = (injectProviderCredential store c).2
  sent : ∀ j req, s.exchanges j = some (.sent req) → ∃ headers body store,
    TookEffect Call.apply start log (.exchange j headers body) store ∧
    exchangeOnce P C extractModelName S store headers body = .ok req
  failed : ∀ j e, s.exchanges j = some (.failed e) → ∃ headers body store,
    TookEffect Call.apply start log (.exchange j headers body) store ∧
    exchangeOnce P C extractModelName S store headers body = .error e
  realTime : ∀ before after t, actions = before ++ after →
    run (step P C extractModelName S) (Server.withStore start) before = some t →
    ∃ log', log' <+: log ∧ (∀ id, t.HasReturned id → id ∈ log'.map Call.id) ∧
      ∀ id, ¬ t.HasArrived id → id ∉ log'.map Call.id

variable {P C extractModelName S}

theorem Linearised.answered (h : Linearised P C extractModelName S start actions log s) {i : ℕ}
    {c : ProviderCredential} {status : StatusCode} (hi : s.result i = some (c, status)) :
    ∃ store, TookEffect Call.apply start log (.inject i c) store ∧
      status = (injectProviderCredential store c).2 := by
  obtain ⟨x, hx, hresult⟩ := Option.bind_eq_some_iff.mp hi
  have hexplained := h.injection i x hx
  cases x with
  | received c' | validated c' => cases hresult
  | finished c' status' | answered c' status' =>
    obtain ⟨rfl, rfl⟩ := Prod.mk.inj (Option.some.inj hresult)
    exact hexplained

/-- What has returned is in the log, and what has not arrived is not. -/
theorem Linearised.log_ids (h : Linearised P C extractModelName S start actions log s) :
    (∀ id, s.HasReturned id → id ∈ log.map Call.id) ∧
      ∀ id, ¬ s.HasArrived id → id ∉ log.map Call.id := by
  constructor
  · rintro (i | j) hreturned
    · obtain ⟨c, status, hi⟩ := hreturned
      obtain ⟨store, htook, -⟩ := h.answered hi
      exact List.mem_map_of_mem (f := Call.id) htook.mem
    · rcases hreturned with ⟨req, hj⟩ | ⟨e, hj⟩
      · obtain ⟨headers, body, store, htook, -⟩ := h.exchange j _ hj
        exact List.mem_map_of_mem (f := Call.id) htook.mem
      · obtain ⟨headers, body, store, htook, -⟩ := h.exchange j _ hj
        exact List.mem_map_of_mem (f := Call.id) htook.mem
  · rintro (i | j) hidle
    · exact h.idleInjection i (not_not.mp hidle)
    · exact h.idleExchange j (not_not.mp hidle)

theorem linearised_run
    (hrun : run (step P C extractModelName S) (Server.withStore start) actions =
      some s) :
    Linearised P C extractModelName S start actions (effects (step P C extractModelName S)
      (takesEffect P extractModelName S) (Server.withStore start) actions) s :=
  run_effects_invariant (Linearised P C extractModelName S start)
    (linearised_start P C extractModelName S start)
    (fun _ _ _ _ _ h ha => linearised_step h ha) hrun

/-- Every run of the two planes, from any store, is explained by an order of its handlers. -/
theorem handlers_linearise (P : UrlParser) (C : HttpClient)
    (extractModelName : Bytes → Option Text) (S : AppState) (start : ProviderCredentialStore)
    (actions : List Action) (s : Server)
    (hrun : run (step P C extractModelName S) (Server.withStore start) actions =
      some s) :
    ∃ log, Linearises P C extractModelName S start actions log s := by
  have h := linearised_run hrun
  refine ⟨_, h.nodup, h.arrived, h.store, fun i c status => h.answered, fun j req => h.exchange j _,
    fun j e => h.exchange j _, fun before after t heq ht => ?_⟩
  refine ⟨_, ?_, (linearised_run ht).log_ids⟩
  rw [heq]
  exact effects_prefix_append ht

end Linearise

/-- In the race, the key that is refused came second. -/
theorem race_linearises :
    ∃ s log store, race = some s ∧
      Linearises plainUrlParser plainClient (fun _ => none) openaiState none racingActions log s ∧
      TookEffect Call.apply none log (.inject 0 bearerKey) store ∧ store ≠ none := by
  obtain ⟨s, hs⟩ : ∃ s, race = some s := Option.isSome_iff_exists.mp (by decide +kernel)
  have hlost : (race.bind (·.result 0)) = some (bearerKey, StatusCode.conflict) := by
    decide +kernel
  rw [hs, Option.bind_some] at hlost
  obtain ⟨log, hlog⟩ := handlers_linearise plainUrlParser plainClient (fun _ => none) openaiState
    none racingActions s hs
  obtain ⟨store, htook, hstatus⟩ := hlog.answered 0 _ _ hlost
  refine ⟨s, log, store, hs, hlog, htook, ?_⟩
  rintro rfl
  revert hstatus
  decide

end TrustedRelay
