import TrustedRelay.Url.Parse

/-!
# HTTP messages

Header values, header maps, status codes and bodies as the `http` and `axum` crates have them.
A header value carries the proof that its bytes may stand in a header, and a status code that it
has three digits, so neither can be malformed. A header map is the list of its entries; names are
in lower case, as the crate keeps them, and may repeat.
-/

namespace TrustedRelay

/-! ### Header values -/

/-- The bytes a header value may hold: no controls but the tab. -/
def isHeaderValueByte (b : UInt8) : Bool := (32 ≤ b && b != 127) || b == 9

structure HeaderValue where
  bytes : Bytes
  valid : bytes.all isHeaderValueByte = true
deriving DecidableEq

namespace HeaderValue

/-- `HeaderValue::from_bytes`. -/
def fromBytes (b : Bytes) : Option HeaderValue :=
  if h : b.all isHeaderValueByte = true then some ⟨b, h⟩ else none

/-- `HeaderValue::from_str`. -/
def fromStr (s : Text) : Option HeaderValue := fromBytes (Text.asBytes s)

/-- `HeaderValue::to_str`: only visible ASCII and the tab are a string. -/
def toStr (v : HeaderValue) : Option Text :=
  if v.bytes.all fun b => (32 ≤ b && b < 127) || b == 9 then
    some (v.bytes.map fun b => Char.ofNat b.toNat)
  else none

@[simp] theorem fromBytes_bytes (v : HeaderValue) : fromBytes v.bytes = some v :=
  dif_pos v.valid

end HeaderValue

/-- A header value written in the program text. -/
def headerText (s : String)
    (h : (Text.asBytes s.toList).all isHeaderValueByte = true := by decide) :
    HeaderValue :=
  ⟨Text.asBytes s.toList, h⟩

/-! ### Header maps -/

/-- `HeaderMap`: the entries, several of which may share a name. -/
abbrev HeaderMap := List (Text × HeaderValue)

namespace HeaderMap

/-- `get`: the first value of a name. -/
def get (m : HeaderMap) (name : Text) : Option HeaderValue :=
  (m.find? (·.1 == name)).map (·.2)

/-- `get_all`: every value of a name. -/
def getAll (m : HeaderMap) (name : Text) : List HeaderValue :=
  (m.filter (·.1 == name)).map (·.2)

/-- `insert`: the value replaces those that the name had. -/
def insert (m : HeaderMap) (name : Text) (value : HeaderValue) : HeaderMap :=
  m.filter (·.1 != name) ++ [(name, value)]

/-- The `headers` method of a request builder: names of `new` lose their old values. -/
def replaceHeaders (m new : HeaderMap) : HeaderMap :=
  m.filter (fun e => !new.any (·.1 == e.1)) ++ new

/-- `get` is the first of `get_all`. -/
theorem get_eq_head? (m : HeaderMap) (name : Text) : get m name = (getAll m name).head? := by
  rw [get, getAll, List.head?_map, List.head?_filter]

theorem get_eq_none {m : HeaderMap} {name : Text} (h : ∀ e ∈ m, e.1 ≠ name) :
    get m name = none := by
  rw [get, Option.map_eq_none_iff, List.find?_eq_none]
  exact fun e he heq => h e he (beq_iff_eq.mp heq)

@[simp] theorem getAll_nil (name : Text) : getAll [] name = [] := rfl

@[simp] theorem getAll_append (m m' : HeaderMap) (name : Text) :
    getAll (m ++ m') name = getAll m name ++ getAll m' name := by
  simp [getAll]

theorem getAll_insert_self (m : HeaderMap) (name : Text) (value : HeaderValue) :
    getAll (insert m name value) name = [value] := by
  simp [getAll, insert, List.filter_filter]

theorem getAll_insert_of_ne (m : HeaderMap) {name other : Text} (value : HeaderValue)
    (h : other ≠ name) : getAll (insert m name value) other = getAll m other := by
  have hne : ∀ e : Text × HeaderValue, (e.1 == other && e.1 != name) = (e.1 == other) := by
    intro e
    by_cases he : e.1 = other
    · simp [he, h]
    · simp [he]
  simp [getAll, insert, List.filter_filter, hne, h.symm]

/-- No name occurs twice. -/
def Single (m : HeaderMap) : Prop := (m.map Prod.fst).Nodup

theorem single_nil : Single [] := List.nodup_nil

theorem Single.insert {m : HeaderMap} (h : m.Single) (name : Text) (value : HeaderValue) :
    (m.insert name value).Single := by
  have hkeep : ((m.filter (·.1 != name)).map Prod.fst).Nodup :=
    List.Nodup.sublist (List.filter_sublist.map _) h
  rw [Single, HeaderMap.insert, List.map_append, List.nodup_append]
  refine ⟨hkeep, List.nodup_singleton _, ?_⟩
  intro a ha b hb
  obtain ⟨e, he, rfl⟩ := List.mem_map.mp ha
  rw [List.mem_singleton.mp hb]
  exact bne_iff_ne.mp (List.mem_filter.mp he).2

/-- A name that the new headers have keeps only their values. -/
theorem getAll_replaceHeaders {m new : HeaderMap} {name : Text} (h : getAll new name ≠ []) :
    getAll (replaceHeaders m new) name = getAll new name := by
  have hany : new.any (·.1 == name) = true := by
    by_contra hno
    refine h ?_
    simp only [List.any_eq_true, not_exists, not_and, beq_iff_eq] at hno
    simp only [getAll, List.map_eq_nil_iff, List.filter_eq_nil_iff, beq_iff_eq]
    exact hno
  have hold : getAll (m.filter fun e => !new.any (·.1 == e.1)) name = [] := by
    simp only [getAll, List.filter_filter, List.map_eq_nil_iff, List.filter_eq_nil_iff,
      Bool.and_eq_true, beq_iff_eq, not_and]
    rintro e - rfl
    simp only [hany, Bool.not_true, Bool.false_eq_true, not_false_eq_true]
  rw [replaceHeaders, getAll_append, hold, List.nil_append]

/-- New headers that have all the old names are all that is left. -/
theorem replaceHeaders_eq_right {m new : HeaderMap} (h : ∀ e ∈ m, new.any (·.1 == e.1) = true) :
    replaceHeaders m new = new := by
  have hold : m.filter (fun e => !new.any (·.1 == e.1)) = [] :=
    List.filter_eq_nil_iff.mpr fun e he => by
      simp only [h e he, Bool.not_true]
      exact Bool.noConfusion
  rw [replaceHeaders, hold, List.nil_append]

end HeaderMap

/-! ### Status codes and bodies -/

/-- `StatusCode`: three digits. -/
structure StatusCode where
  code : ℕ
  valid : 100 ≤ code ∧ code < 1000
deriving DecidableEq

namespace StatusCode

/-- `StatusCode::from_u16`. -/
def fromU16 (n : ℕ) : Option StatusCode :=
  if h : 100 ≤ n ∧ n < 1000 then some ⟨n, h⟩ else none

@[simp] theorem fromU16_code (s : StatusCode) : fromU16 s.code = some s := dif_pos s.valid

def ok : StatusCode := ⟨200, by decide⟩
def noContent : StatusCode := ⟨204, by decide⟩
def badRequest : StatusCode := ⟨400, by decide⟩
def conflict : StatusCode := ⟨409, by decide⟩
def payloadTooLarge : StatusCode := ⟨413, by decide⟩
def internalServerError : StatusCode := ⟨500, by decide⟩
def serviceUnavailable : StatusCode := ⟨503, by decide⟩

end StatusCode

/-- A body as it arrives: its chunks, and the error that cut it short, if any. -/
structure BodyStream where
  chunks : List Bytes
  failure : Option Text := none
deriving DecidableEq

/-- `bytes()`: the whole body, if it arrives. -/
def BodyStream.bytes (b : BodyStream) : Except Text Bytes :=
  match b.failure with
  | none => .ok b.chunks.flatten
  | some e => .error e

/-- A body that is there at once. -/
def BodyStream.full (b : Bytes) : BodyStream := { chunks := [b] }

theorem BodyStream.bytes_eq_ok_iff {b : BodyStream} {v : Bytes} :
    b.bytes = .ok v ↔ b.failure = none ∧ b.chunks.flatten = v := by
  cases h : b.failure <;> simp [BodyStream.bytes, h]

/-- The request handed to the HTTP client; the method is `POST`. -/
structure UpstreamRequest where
  url : Text
  headers : HeaderMap
  body : Bytes
deriving DecidableEq

/-- A response: of an upstream, or to the client. -/
structure Response where
  status : StatusCode
  headers : HeaderMap
  body : BodyStream
deriving DecidableEq

end TrustedRelay
