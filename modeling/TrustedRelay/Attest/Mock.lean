import TrustedRelay.Attest.Types

/-!
# The mock backend

The development backend: a quote in JSON, signed with Ed25519 under a fixed key. The evidence is
the length of the quote in four little-endian bytes, the quote, and the signature.
-/

namespace TrustedRelay

namespace Mock

open Outcome (lift)

structure MockQuote where
  measurement : Bytes
  userData : Bytes
deriving DecidableEq

/-- The libraries: the JSON decoder, and Ed25519 with the mock key. -/
structure MockLibraries where
  parseQuote : Bytes → Option MockQuote
  sign : Bytes → ByteArr 64
  verifySignature : Bytes → ByteArr 64 → Bool

variable (M : MockLibraries)

/-! ### Attester -/

/-- A byte string as a JSON array of numbers. -/
def jsonBytes (b : Bytes) : Text :=
  '[' :: ",".toList.intercalate (b.map fun x => Text.decimal x.toNat) ++ [']']

/-- `serde_json::to_vec`. -/
def MockQuote.toJson (quote : MockQuote) : Bytes :=
  Text.asBytes ("\x7b\"measurement\":".toList ++ jsonBytes quote.measurement ++
    ",\"user_data\":".toList ++ jsonBytes quote.userData ++ "\x7d".toList)

/-- What the backend relies on: the JSON decoder reads back what was written, and signatures made
with the mock key verify. -/
structure MockLibraries.Lawful (M : MockLibraries) : Prop where
  parseQuote_toJson : ∀ quote : MockQuote, M.parseQuote quote.toJson = some quote
  verifySignature_sign : ∀ payload, M.verifySignature payload (M.sign payload) = true

def signMockQuote (measurement : ByteArr 32) (userData : ByteArr 64) : Evidence :=
  let payload := MockQuote.toJson ⟨measurement.1, userData.1⟩
  ⟨.mock, Bytes.toLe 4 payload.length ++ payload ++ (M.sign payload).1⟩

/-- `MeasuredMockAttester`: it never fails. -/
def measuredMockAttester (measurement : ByteArr 32) : Attester := fun userData =>
  .ok (signMockQuote M measurement userData)

/-! ### Verifier -/

/-- The payload, the quote in it, and the signature. -/
def parseEvidence (evidence : Evidence) : Outcome AttestError (Bytes × MockQuote × ByteArr 64) := do
  lift (ensure (evidence.teeType = .mock) (.unsupportedTeeType evidence.teeType))
  let data := evidence.data
  lift (ensure (4 + 64 ≤ data.length) (.verificationFailed "evidence too short".toList))
  let lenBytes ← Bytes.array 4 data 0
  let payloadLen := Bytes.le lenBytes.1
  lift (ensure (data.length = 4 + payloadLen + 64) (.verificationFailed
    ("evidence length mismatch: expected ".toList ++ Text.decimal (4 + payloadLen + 64) ++
      ", got ".toList ++ Text.decimal data.length)))
  let payload ← Bytes.index data 4 (4 + payloadLen)
  let sigSlice ← Bytes.index data (4 + payloadLen) data.length
  let signature ← lift
    (Bytes.tryInto 64 sigSlice (.verificationFailed "bad signature length".toList))
  let quote ← lift (okOr (M.parseQuote payload) (.verificationFailed "bad quote JSON: ".toList))
  .ok (payload, quote, signature)

/-- `MockVerifier::verify`. -/
def verify : Verifier := fun evidence expectedMeasurement => do
  let (payload, quote, signature) ← parseEvidence M evidence
  lift (ensure (M.verifySignature payload signature = true)
    (.verificationFailed "signature invalid: ".toList))
  lift (checkMeasurement expectedMeasurement quote.measurement)
  lift (Bytes.tryInto 64 quote.userData (.verificationFailed "user_data not 64 bytes".toList))

variable {M}

/-- Evidence is accepted exactly when it parses, its signature is good, its measurement is the
expected one, and its user data is the REPORTDATA. -/
theorem verify_eq_ok_iff {evidence : Evidence} {expected : Option Bytes} {r : ByteArr 64} :
    verify M evidence expected = .ok r ↔ ∃ payload quote signature,
      parseEvidence M evidence = .ok (payload, quote, signature) ∧
      M.verifySignature payload signature = true ∧
      (∀ m, expected = some m → quote.measurement = m) ∧ quote.userData = r.1 := by
  rw [verify, Except.bind_eq_ok_iff]
  simp only [Prod.exists, Except.bind_eq_ok_iff, exists_unit_iff, Outcome.lift_eq_ok_iff,
    ensure_eq_ok_iff, checkMeasurement_eq_ok_iff, Bytes.tryInto_eq_ok_iff]

theorem teeType_of_parseEvidence {evidence : Evidence} {x : Bytes × MockQuote × ByteArr 64}
    (h : parseEvidence M evidence = .ok x) : evidence.teeType = .mock := by
  obtain ⟨htee, -⟩ := Except.unit_bind_eq_ok_iff.mp h
  exact ensure_eq_ok_iff.mp (Outcome.lift_eq_ok_iff.mp htee)

/-! ### Verified quotes -/

theorem length_intercalate_le (ls : List Text) (k : ℕ) (h : ∀ l ∈ ls, l.length ≤ k) :
    (",".toList.intercalate ls).length ≤ (k + 1) * ls.length := by
  induction ls with
  | nil => simp
  | cons l ls ih =>
    have hl := h l List.mem_cons_self
    have ih := ih fun l hl => h l (List.mem_cons_of_mem _ hl)
    cases ls with
    | nil => simp; omega
    | cons l' ls =>
      rw [List.intercalate_cons_cons, List.length_append, List.length_append, List.length_cons]
      have hone : ",".toList.length = 1 := rfl
      rw [Nat.mul_succ]
      omega

theorem length_jsonBytes_le (b : Bytes) : (jsonBytes b).length ≤ 2 + 4 * b.length := by
  have hdecimal : ∀ l ∈ b.map fun x => Text.decimal x.toNat, l.length ≤ 3 := by
    intro l hl
    obtain ⟨x, -, rfl⟩ := List.mem_map.mp hl
    have hx : x.toNat < 10 ^ 3 := Nat.lt_trans x.toNat_lt (by norm_num)
    exact Nat.toDigits_length 10 x.toNat 3 (by norm_num) hx
  have hlist := length_intercalate_le _ 3 hdecimal
  rw [List.length_map] at hlist
  rw [jsonBytes, List.length_append, List.length_cons, List.length_singleton]
  omega

/-- A quote is far below the four gigabytes that its length field can count. -/
theorem length_toJson_lt (m : ByteArr 32) (u : ByteArr 64) :
    (MockQuote.toJson ⟨m.1, u.1⟩).length < 256 ^ 4 := by
  have hmeas := length_jsonBytes_le m.1
  have hdata := length_jsonBytes_le u.1
  rw [m.2] at hmeas
  rw [u.2] at hdata
  refine Nat.lt_of_le_of_lt (Text.length_asBytes_le _) ?_
  simp only [List.length_append, String.length_toList]
  have h1 : "\x7b\"measurement\":".length = 15 := by decide
  have h2 : ",\"user_data\":".length = 13 := by decide
  have h3 : "\x7d".length = 1 := by decide
  omega

/-- The verifier takes a signed quote apart into what the attester put together. -/
theorem parseEvidence_signMockQuote (hM : M.Lawful) (m : ByteArr 32) (u : ByteArr 64) :
    parseEvidence M (signMockQuote M m u) =
      .ok (MockQuote.toJson ⟨m.1, u.1⟩, ⟨m.1, u.1⟩, M.sign (MockQuote.toJson ⟨m.1, u.1⟩)) := by
  have hlt := length_toJson_lt m u
  have hquote := hM.parseQuote_toJson ⟨m.1, u.1⟩
  simp only [signMockQuote]
  generalize MockQuote.toJson ⟨m.1, u.1⟩ = payload at *
  have hn : (Bytes.toLe 4 payload.length).length = 4 := Bytes.length_toLe 4 _
  have hlen : (Bytes.toLe 4 payload.length ++ payload ++ (M.sign payload).1).length =
      4 + payload.length + 64 := by
    rw [List.length_append, List.length_append, hn, (M.sign payload).2]
  -- the three parts of the evidence are where their lengths say
  have hhead : Bytes.range (Bytes.toLe 4 payload.length ++ payload ++ (M.sign payload).1) 0 (0 + 4) =
      Bytes.toLe 4 payload.length := by
    have h := Bytes.range_append [] (Bytes.toLe 4 payload.length) (payload ++ (M.sign payload).1)
    rwa [List.nil_append, ← List.append_assoc, List.length_nil, hn] at h
  have hbody : Bytes.range (Bytes.toLe 4 payload.length ++ payload ++ (M.sign payload).1) 4
      (4 + payload.length) = payload := by
    have h := Bytes.range_append (Bytes.toLe 4 payload.length) payload (M.sign payload).1
    rwa [hn] at h
  have htail : Bytes.range (Bytes.toLe 4 payload.length ++ payload ++ (M.sign payload).1)
      (4 + payload.length) (4 + payload.length + 64) = (M.sign payload).1 := by
    have h := Bytes.range_append (Bytes.toLe 4 payload.length ++ payload) (M.sign payload).1 []
    rwa [List.append_nil, List.length_append, hn, (M.sign payload).2] at h
  rw [parseEvidence]
  simp only [Except.bind_eq_ok_iff, exists_unit_iff, Outcome.lift_eq_ok_iff, ensure_eq_ok_iff,
    okOr_eq_ok_iff, Bytes.tryInto_eq_ok_iff, hlen]
  refine ⟨trivial, by omega, ⟨_, hn⟩, ?_, ?_⟩
  · rw [Bytes.array_eq_ok (by omega)]
    exact congrArg Except.ok (Subtype.ext hhead)
  · rw [Bytes.le_toLe hlt]
    refine ⟨rfl, payload, ?_, (M.sign payload).1, ?_, M.sign payload, rfl, _, hquote, rfl⟩
    · rw [Bytes.index_eq_ok (by omega) (by omega), hbody]
    · rw [Bytes.index_eq_ok (by omega) (by omega), htail]

/-- A signed quote is accepted for its own measurement, with its own user data. -/
theorem verify_signMockQuote (hM : M.Lawful) {m : ByteArr 32} {u r : ByteArr 64}
    {expected : Option Bytes} :
    verify M (signMockQuote M m u) expected = .ok r ↔
      (expected = none ∨ expected = some m.1) ∧ r = u := by
  have hmeas : (∀ e, expected = some e → m.1 = e) ↔ expected = none ∨ expected = some m.1 := by
    cases expected <;> simp [eq_comm]
  rw [verify_eq_ok_iff, parseEvidence_signMockQuote hM, ← hmeas]
  constructor
  · rintro ⟨payload, quote, signature, hparse, -, hexpected, hdata⟩
    simp only [Except.ok.injEq, Prod.mk.injEq] at hparse
    obtain ⟨-, rfl, -⟩ := hparse
    exact ⟨hexpected, Subtype.ext hdata.symm⟩
  · rintro ⟨hexpected, rfl⟩
    exact ⟨_, _, _, rfl, hM.verifySignature_sign _, hexpected, rfl⟩

end Mock

end TrustedRelay
