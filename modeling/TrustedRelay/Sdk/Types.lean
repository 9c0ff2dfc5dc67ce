import TrustedRelay.Core.ModelName

/-!
# The requests of the SDK

A chat request as the SDK writes it: its own fields in the order of the struct, then the extra
fields, which are put into the same object. The relay that receives the body reads it as JSON again
and routes by the member `model`. `ChatRequest.toJson_routed` says which name that is, for every
request: the one of the field, unless the extra fields have a member of that name too.
-/

namespace TrustedRelay

namespace Sdk

open Json SerdeJson

/-- A floating-point number, as far as JSON shows it: the shortest numeral of a finite one. -/
structure F64 where
  shortest : Option Text
  isNumber : ∀ t ∈ shortest, Json.isNumber t = true

/-- What is not finite is written as `null`. -/
def F64.toValue (x : F64) : Value := x.shortest.elim .null .number

structure Message where
  role : Text
  content : Text
deriving DecidableEq

def Message.toValue (m : Message) : Value :=
  .object [("role".toList, .string m.role), ("content".toList, .string m.content)]

/-- A chat completion request (OpenAI-compatible). -/
structure ChatRequest where
  model : Text
  messages : List Message
  stream : Option Bool
  temperature : Option F64
  maxTokens : Option UInt32
  extra : BTreeMap Value
  extra_numbers : ∀ e ∈ extra.toList, HasNumbers e.2

namespace ChatRequest

/-- A request with a single user message. -/
def simple (model content : Text) : ChatRequest where
  model := model
  messages := [⟨"user".toList, content⟩]
  stream := none
  temperature := none
  maxTokens := none
  extra := ∅
  extra_numbers := by simp

/-- A field that is skipped if there is nothing to write. -/
def optional (name : Text) (v : Option Value) : List (Text × Value) :=
  (v.map fun v => (name, v)).toList

/-- The fields of the struct itself. -/
def fields (r : ChatRequest) : List (Text × Value) :=
  [(modelName, .string r.model), ("messages".toList, .array (r.messages.map Message.toValue))] ++
    (optional "stream".toList (r.stream.map .bool) ++
      optional "temperature".toList (r.temperature.map F64.toValue) ++
      optional "max_tokens".toList (r.maxTokens.map fun n => .number (Text.decimal n.toNat)))

/-- The object that is written: the extra fields are not checked against the others. -/
def toValue (r : ChatRequest) : Value := .object (r.fields ++ r.extra.toList)

/-- The body of the request. -/
def toJson (r : ChatRequest) : Bytes := toVec r.toValue

/-! ### What the relay reads -/

theorem mem_numbersOfMembers {ms : List (Text × Value)} {t : Text}
    (h : t ∈ numbersOfMembers ms) : ∃ m ∈ ms, t ∈ numbers m.2 := by
  induction ms with
  | nil => cases h
  | cons m ms ih =>
    rw [numbersOfMembers, List.mem_append] at h
    rcases h with h | h
    · exact ⟨m, List.mem_cons_self, by rwa [numbersOfMember.eq_def] at h⟩
    · obtain ⟨m', hm', ht⟩ := ih h
      exact ⟨m', List.mem_cons_of_mem _ hm', ht⟩

theorem numbersOfElements_messages (ms : List Message) :
    numbersOfElements (ms.map Message.toValue) = [] := by
  induction ms with
  | nil => rfl
  | cons m ms ih => rw [List.map_cons, numbersOfElements, ih]; rfl

theorem hasNumbers_fields (r : ChatRequest) : ∀ m ∈ r.fields, HasNumbers m.2 := by
  intro m hm t ht
  simp only [fields, optional, List.mem_append, List.mem_cons, List.not_mem_nil, or_false,
    Option.mem_toList, Option.map_map, Option.map_eq_some_iff] at hm
  rcases hm with (rfl | rfl) | (⟨b, -, rfl⟩ | ⟨x, -, rfl⟩) | ⟨n, -, rfl⟩
  · cases ht
  · rw [numbers, numbersOfElements_messages] at ht
    cases ht
  · cases ht
  · simp only [Function.comp_apply, F64.toValue] at ht
    cases hx : x.shortest with
    | none =>
      rw [hx] at ht
      cases ht
    | some u =>
      rw [hx] at ht
      obtain rfl := List.mem_singleton.mp ht
      exact x.isNumber t hx
  · obtain rfl := List.mem_singleton.mp ht
    exact isNumber_decimal _

theorem hasNumbers_toValue (r : ChatRequest) : HasNumbers r.toValue := by
  intro t ht
  obtain ⟨m, hm, ht⟩ := mem_numbersOfMembers ht
  rcases List.mem_append.mp hm with hm | hm
  · exact hasNumbers_fields r m hm t ht
  · exact r.extra_numbers m hm t ht

/-- Of the struct's own fields only the first is the model. -/
theorem lookup_reverse_fields (r : ChatRequest) :
    r.fields.reverse.lookup modelName = some (.string r.model) := by
  have hother : ∀ m ∈ r.fields.tail, m.1 ≠ modelName := by
    intro m hm
    simp only [fields, optional, List.cons_append, List.nil_append, List.tail_cons,
      List.mem_append, List.mem_cons, Option.mem_toList, Option.map_map,
      Option.map_eq_some_iff] at hm
    rcases hm with rfl | (⟨b, -, rfl⟩ | ⟨x, -, rfl⟩) | ⟨n, -, rfl⟩
    · exact (by decide : "messages".toList ≠ modelName)
    · exact (by decide : "stream".toList ≠ modelName)
    · exact (by decide : "temperature".toList ≠ modelName)
    · exact (by decide : "max_tokens".toList ≠ modelName)
  refine lookup_eq_some_of_unique (List.mem_reverse.mpr List.mem_cons_self) fun y hy => ?_
  rcases List.mem_cons.mp (List.mem_reverse.mp hy) with heq | hmem
  · exact (Prod.mk.inj heq).2
  · exact absurd rfl (hother _ hmem)

theorem get_model_toValue (r : ChatRequest) :
    get modelName r.toValue = some ((r.extra[modelName]?).getD (.string r.model)) := by
  rw [toValue, SerdeJson.get, List.reverse_append, List.lookup_append, lookup_reverse_toList,
    lookup_reverse_fields]
  cases r.extra[modelName]? <;> rfl

theorem extractModelName_toJson {fits : Text → Bool} (r : ChatRequest)
    (hfits : ∀ t ∈ numbers r.toValue, fits t = true) :
    extractModelName fits r.toJson =
      if depth r.toValue < recursionLimit then
        ((r.extra[modelName]?).getD (.string r.model)).asString
      else none := by
  rw [extractModelName, toJson, fromSlice_toVec r.hasNumbers_toValue hfits]
  split_ifs
  · rw [Option.bind_some, get_model_toValue, Option.bind_some]
  · rfl

/-- The name by which a relay routes a request of the SDK, whatever strings it holds: the model of
the request; the extra field `model`, if there is one; and the empty name if that is not a string,
or if the extra fields are nested too deep for the relay to read the body at all. -/
theorem toJson_routed (fits : Text → Bool) (r : ChatRequest)
    (hfits : ∀ t ∈ numbers r.toValue, fits t = true) (c : RelayConfig) :
    (depth r.toValue < recursionLimit → r.extra[modelName]? = none →
      c.resolveUpstream (requestModel (extractModelName fits) r.toJson) =
        c.resolveUpstream r.model) ∧
    (∀ v, depth r.toValue < recursionLimit → r.extra[modelName]? = some v →
      c.resolveUpstream (requestModel (extractModelName fits) r.toJson) =
        c.resolveUpstream (v.asString.getD [])) ∧
    (recursionLimit ≤ depth r.toValue →
      c.resolveUpstream (requestModel (extractModelName fits) r.toJson) =
        c.resolveUpstream []) := by
  have hmodel := extractModelName_toJson r hfits
  refine ⟨fun hdepth hextra => ?_, fun v hdepth hextra => ?_, fun hdepth => ?_⟩
  · rw [requestModel, hmodel, if_pos hdepth, hextra]
    rfl
  · rw [requestModel, hmodel, if_pos hdepth, hextra]
    rfl
  · rw [requestModel, hmodel, if_neg (Nat.not_lt_of_le hdepth)]
    rfl

/-- A request whose extra fields name another model. -/
def renamed : ChatRequest :=
  { simple "gpt-4o".toList "Hi \"there\"\n".toList with
    temperature := some ⟨some "0.5".toList, by simp; decide⟩
    extra := Std.ExtTreeMap.ofList [(modelName, Value.string "claude".toList)]
    extra_numbers := by
      intro e he t ht
      rw [List.mem_singleton.mp he] at ht
      cases ht }

/-- Routed by the field, and by the extra field. -/
theorem simple_and_renamed_routed :
    gptRoutes.resolveUpstream (requestModel (extractModelName fun _ => true)
        (simple "gpt-4o".toList "Hi \"there\"\n".toList).toJson) =
      ("https://eu.example.com".toList, some "/v2".toList) ∧
    gptRoutes.resolveUpstream (requestModel (extractModelName fun _ => true) renamed.toJson) =
      (gptRoutes.defaultUpstream, none) := by
  obtain ⟨hfield, -, -⟩ := toJson_routed (fun _ => true)
    (simple "gpt-4o".toList "Hi \"there\"\n".toList) (fun _ _ => rfl) gptRoutes
  obtain ⟨-, hextra, -⟩ := toJson_routed (fun _ => true) renamed (fun _ _ => rfl) gptRoutes
  refine ⟨(hfield (by decide) rfl).trans (by decide), ?_⟩
  exact (hextra (Value.string "claude".toList) (by decide) rfl).trans (by decide)

end ChatRequest

end Sdk

end TrustedRelay
