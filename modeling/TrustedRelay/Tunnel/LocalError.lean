import TrustedRelay.Core.Proxy
import TrustedRelay.Core.Redact
import TrustedRelay.Format.Json

/-!
# Errors of the local proxy

The local proxy answers a failed request with a JSON text that it writes by hand: the redacted
message goes between the quotes as it is, except that quotes in it are replaced.
`intoResponse_tells_iff` says for which messages the answer is JSON that carries the message.
-/

namespace TrustedRelay

namespace Text

/-- `str::replace` of a character. -/
def replaceChar (s : Text) (c : Char) (t : Text) : Text :=
  s.flatMap fun x => if x = c then t else [x]

section ReplaceChar

variable {P : Char → Prop} {s t : Text} {c : Char}

/-- The characters behind a replacement that adds only good ones. -/
theorem forall_mem_replaceChar_iff (ht : ∀ x ∈ t, P x) :
    (∀ x ∈ replaceChar s c t, P x) ↔ ∀ x ∈ s, x ≠ c → P x := by
  rw [replaceChar, List.forall_mem_flatMap]
  refine forall₂_congr fun x _ => ?_
  by_cases hx : x = c
  · rw [if_pos hx]
    exact iff_of_true ht fun hne => absurd hx hne
  · rw [if_neg hx, List.forall_mem_singleton]
    exact ⟨fun h _ => h, fun h => h hx⟩

theorem not_mem_replaceChar (ht : c ∉ t) : c ∉ replaceChar s c t := by
  have hne : ∀ x ∈ t, x ≠ c := fun x hx heq => ht (heq ▸ hx)
  exact fun h => (forall_mem_replaceChar_iff hne).mpr (fun _ _ hx => hx) c h rfl

end ReplaceChar

end Text

structure LocalProxyError where
  status : StatusCode
  message : Text
deriving DecidableEq

namespace LocalProxyError

def internal (message : Text) : LocalProxyError := ⟨StatusCode.internalServerError, message⟩

def badGateway (message : Text) : LocalProxyError := ⟨⟨502, by decide⟩, message⟩

/-- The body, with the message in its place. -/
def errorBody (message : Text) : Text :=
  "\x7b\"error\":\x7b\"message\":\"".toList ++ message ++
    "\",\"type\":\"local_proxy_error\"\x7d\x7d".toList

/-- The message as it is shown. -/
def shownMessage (e : LocalProxyError) : Text :=
  Text.replaceChar (LocalProxy.redactSensitive e.message) '"' "'".toList

/-- `IntoResponse`: a text, which is plain text to its header. -/
def intoResponse (e : LocalProxyError) : Response :=
  AppError.intoResponse.textResponse e.status (errorBody e.shownMessage)

end LocalProxyError

/-- The response is JSON, and its error message is the given text. -/
def TellsError (r : Response) (message : Text) : Prop :=
  ∃ bytes text v, r.body.bytes = .ok bytes ∧ Text.fromUtf8 bytes = some text ∧ Json.Parses text v ∧
    ((v.field "error".toList).bind (Json.Value.field "message".toList)).bind Json.Value.asString =
      some message

namespace LocalProxyError

open Json

section Body

variable {s : Text}

theorem errorBody_eq (s : Text) : errorBody s =
    nested "error".toList "message".toList s "type".toList "local_proxy_error".toList := by
  have hhead : "\x7b\"error\":\x7b\"message\":\"".toList = '{' :: '"' ::
      ("error".toList ++ '"' :: ':' :: '{' :: '"' :: ("message".toList ++ ['"', ':', '"'])) := by
    decide
  have htail : "\",\"type\":\"local_proxy_error\"\x7d\x7d".toList = '"' :: ',' :: '"' ::
      ("type".toList ++ '"' :: ':' :: '"' :: ("local_proxy_error".toList ++ ['"', '}', '}'])) := by
    decide
  unfold errorBody nested
  rw [hhead, htail]
  simp only [List.cons_append, List.append_assoc, List.nil_append]

/-- The fixed texts of the body stand for themselves. -/
theorem plain_names : (∀ c ∈ "error".toList, c ≠ '"' ∧ IsPlain c) ∧
    (∀ c ∈ "message".toList, c ≠ '"' ∧ IsPlain c) ∧ (∀ c ∈ "type".toList, c ≠ '"' ∧ IsPlain c) ∧
    ∀ c ∈ "local_proxy_error".toList, c ≠ '"' ∧ IsPlain c := by
  refine ⟨?_, ?_, ?_, ?_⟩ <;> exact List.all_iff_forall_prop.mp (by decide)

/-- The body is JSON that carries the message, which holds no quote, exactly if the message stands
for itself. -/
theorem parses_errorBody_iff (hs : '"' ∉ s) :
    (∃ v, Parses (errorBody s) v ∧
      ((v.field "error".toList).bind (Value.field "message".toList)).bind Value.asString = some s) ↔
        ∀ c ∈ s, IsPlain c := by
  obtain ⟨herror, hmessage, htype, hlocal⟩ := plain_names
  rw [errorBody_eq]
  constructor
  · rintro ⟨v, hparses, hv⟩
    exact plain_of_parses_nested (c := 't') herror hmessage hs (by decide) (by decide) hparses hv
  · intro hplain
    have hs' : ∀ c ∈ s, c ≠ '"' ∧ IsPlain c := fun c hc => ⟨fun h => hs (h ▸ hc), hplain c hc⟩
    refine ⟨_, parses_nested herror hmessage hs' htype hlocal, ?_⟩
    rw [field_object_cons, Option.bind_some, field_object_cons]
    rfl

theorem tellsError_iff (status : StatusCode) (body message : Text) :
    TellsError (AppError.intoResponse.textResponse status body) message ↔
      ∃ v, Parses body v ∧ ((v.field "error".toList).bind
        (Value.field "message".toList)).bind Value.asString = some message := by
  have hbytes : ∀ bytes, (AppError.intoResponse.textResponse status body).body.bytes = .ok bytes ↔
      bytes = Text.asBytes body := by
    intro bytes
    rw [BodyStream.bytes_eq_ok_iff]
    simp [AppError.intoResponse.textResponse, BodyStream.full, eq_comm]
  constructor
  · rintro ⟨bytes, text, v, hbody, htext, hparses, hv⟩
    rw [(hbytes bytes).mp hbody, Text.fromUtf8_asBytes] at htext
    obtain rfl := Option.some.inj htext
    exact ⟨v, hparses, hv⟩
  · rintro ⟨v, hparses, hv⟩
    exact ⟨_, body, v, (hbytes _).mpr rfl, Text.fromUtf8_asBytes body, hparses, hv⟩

end Body

/-! ### Which messages stand for themselves -/

section Shown

variable {w : Text} {c : Char}

theorem isPlain_of_isKeyChar (h : isKeyChar c = true) : IsPlain c := by
  by_cases hc : c.toNat < 0x80
  · exact Text.forall_ascii (P := fun c => isKeyChar c = true → IsPlain c) (by decide) hc h
  · refine ⟨?_, by omega⟩
    rintro rfl
    exact hc (by decide)

/-- A redacted word stands for itself if it had a marker, or did so before. -/
theorem plain_redactPart_iff (m : Markers) : (∀ c ∈ redactPart m w, IsPlain c) ↔
    (m.mark (Text.toAsciiLowercase w) = false → ∀ c ∈ w, IsPlain c) := by
  have hred : ∀ c ∈ redacted, IsPlain c := List.all_iff_forall_prop.mp (by decide)
  rw [redactPart]
  split_ifs with hmark
  · exact iff_of_true hred fun h => absurd (hmark.symm.trans h) (by decide)
  · rw [Bool.not_eq_true] at hmark
    rw [forall_mem_redactKey_iff hred fun c => isPlain_of_isKeyChar]
    exact ⟨fun h _ => h, fun h => h hmark⟩

theorem plain_shownMessage_iff (e : LocalProxyError) : (∀ c ∈ e.shownMessage, IsPlain c) ↔
    ∀ w ∈ Text.splitWhitespace e.message,
      LocalProxy.markers.mark (Text.toAsciiLowercase w) = false → ∀ c ∈ w, IsPlain c := by
  have hquote : ∀ c ∈ "'".toList, IsPlain c := by simp [IsPlain]
  rw [shownMessage, Text.forall_mem_replaceChar_iff hquote]
  have hplain : (∀ c ∈ LocalProxy.redactSensitive e.message, c ≠ '"' → IsPlain c) ↔
      ∀ c ∈ LocalProxy.redactSensitive e.message, IsPlain c := by
    refine forall₂_congr fun c _ => ⟨fun h => ?_, fun h _ => h⟩
    by_cases hc : c = '"'
    · rw [hc]
      decide
    · exact h hc
  rw [hplain, LocalProxy.redactSensitive, redactWords, Text.forall_mem_joinWords_iff (by decide),
    List.forall_mem_map]
  exact forall₂_congr fun w _ => plain_redactPart_iff LocalProxy.markers

end Shown

/-- The answer is JSON that carries the redacted message, with its quotes replaced, exactly if every
word of the message that is not redacted as a whole stands for itself. -/
theorem intoResponse_tells_iff (e : LocalProxyError) :
    TellsError e.intoResponse e.shownMessage ↔
      ∀ w ∈ Text.splitWhitespace e.message,
        LocalProxy.markers.mark (Text.toAsciiLowercase w) = false → ∀ c ∈ w, IsPlain c := by
  have hquote : '"' ∉ e.shownMessage := Text.not_mem_replaceChar (by decide)
  rw [intoResponse, tellsError_iff, parses_errorBody_iff hquote, plain_shownMessage_iff]

/-- A file name with a backslash in it. -/
def openFailed : LocalProxyError := badGateway "relay request failed: C:\\new: not found".toList

/-- The client reads a line break in the name. -/
theorem openFailed_not_told : ¬ TellsError openFailed.intoResponse openFailed.shownMessage := by
  have hquote : '"' ∉ openFailed.shownMessage := Text.not_mem_replaceChar (by decide)
  rw [intoResponse, tellsError_iff, parses_errorBody_iff hquote, plain_shownMessage_iff]
  intro h
  have hslash := h "C:\\new:".toList (by decide +kernel) (by decide +kernel) '\\' (by decide)
  exact absurd hslash.1 (by decide)

end LocalProxyError

end TrustedRelay
