import TrustedRelay.Attest.LauncherResponse
import TrustedRelay.Attest.ReportdataNonces
import TrustedRelay.Rust.SerdeJson

/-!
# The Confidential Space attester

`attest` asks the launcher for a token: it waits for the launcher's socket, writes one HTTP request
with a JSON body that names the audience and the nonces of the REPORTDATA, and takes the token from
the response.

The socket may appear late. `connectLauncherSocket_eq_ok_iff` says what the wait makes of that: the
first success within the minute counts, and nothing after it.
-/

namespace TrustedRelay

open SerdeJson Json

/-- Attester configuration. -/
structure GcpConfidentialSpaceAttester where
  audience : Text
  socketPath : Text
  tokenType : Text
deriving DecidableEq

namespace GcpConfidentialSpaceAttester

/-- The launcher's own path for its socket. -/
def defaultSocketPath : Text := "/run/container_launcher/teeserver.sock".toList

/-- The token type that is asked for. -/
def defaultTokenType : Text := "OIDC".toList

/-- The audience that a token is made for. -/
def defaultAudience : Text := "trusted-relay-attested-tls".toList

/-- An attester with the defaults for everything but the audience. -/
def new (audience : Text) : GcpConfidentialSpaceAttester where
  audience := audience
  socketPath := defaultSocketPath
  tokenType := defaultTokenType

/-- The configuration of a relay; `env` is the environment. -/
def fromEnv (env : Text → Option Text) : GcpConfidentialSpaceAttester where
  audience := (env "TRUSTED_RELAY_GCP_CS_AUDIENCE".toList).getD defaultAudience
  socketPath := (env "TRUSTED_RELAY_GCP_CS_SOCKET".toList).getD defaultSocketPath
  tokenType := defaultTokenType

end GcpConfidentialSpaceAttester

namespace Launcher

/-! ### The socket -/

/-- A socket that is tried again and again: the time since the start, in milliseconds, before each
attempt, and its result. After a failure the caller sleeps. -/
structure Socket (α : Type) where
  elapsed : ℕ → ℕ
  attempt : ℕ → Except Text α
  sleeps : ∀ n, elapsed n + 250 ≤ elapsed (n + 1)

/-- How long the socket is waited for, in milliseconds. -/
def socketWaitTimeout : ℕ := 60 * 1000

section Connect

variable {α : Type}

/-- The loop from the `n`-th attempt on. -/
def connectLoop (S : Socket α) (socketPath : Text) (n : ℕ) (lastError : Option Text) :
    Except AttestError α :=
  if S.elapsed n ≤ socketWaitTimeout then
    match S.attempt n with
    | .ok stream => .ok stream
    | .error e => connectLoop S socketPath (n + 1) (some e)
  else .error (.generationFailed ("connect Confidential Space launcher socket ".toList ++
    socketPath ++ " within 60s: ".toList ++ lastError.getD "socket did not appear".toList))
termination_by socketWaitTimeout + 1 - S.elapsed n
decreasing_by
  have hsleeps := S.sleeps n
  omega

/-- Connect to the socket, and keep trying while it is not there yet. -/
def connectLauncherSocket (S : Socket α) (socketPath : Text) : Except AttestError α :=
  connectLoop S socketPath 0 none

theorem Socket.elapsed_mono (S : Socket α) : Monotone S.elapsed :=
  monotone_nat_of_le_succ fun n => Nat.le_of_add_right_le (S.sleeps n)

theorem connectLoop_eq_ok_iff {S : Socket α} {socketPath : Text} {n : ℕ} {lastError : Option Text}
    {stream : α} : connectLoop S socketPath n lastError = .ok stream ↔
      ∃ k, n ≤ k ∧ S.elapsed k ≤ socketWaitTimeout ∧ S.attempt k = .ok stream ∧
        ∀ m, n ≤ m → m < k → ∃ e, S.attempt m = .error e := by
  induction n, lastError using connectLoop.induct S with
  | case1 n lastError hwithin stream' hok =>
    rw [connectLoop, if_pos hwithin, hok]
    dsimp only
    constructor
    · intro h
      obtain rfl := Except.ok.inj h
      exact ⟨n, le_rfl, hwithin, hok, fun m hm hlt => absurd hlt (Nat.not_lt.mpr hm)⟩
    · rintro ⟨k, hk, -, hk', hbefore⟩
      rcases Nat.eq_or_lt_of_le hk with rfl | hlt
      · exact congrArg Except.ok (Except.ok.inj (hok.symm.trans hk'))
      · obtain ⟨e, he⟩ := hbefore n le_rfl hlt
        rw [hok] at he
        cases he
  | case2 n lastError hwithin e herror ih =>
    rw [connectLoop, if_pos hwithin, herror]
    refine ih.trans ⟨?_, ?_⟩
    · rintro ⟨k, hk, hwithin', hk', hbefore⟩
      refine ⟨k, Nat.le_of_succ_le hk, hwithin', hk', fun m hm hlt => ?_⟩
      rcases Nat.eq_or_lt_of_le hm with rfl | hm
      · exact ⟨e, herror⟩
      · exact hbefore m hm hlt
    · rintro ⟨k, hk, hwithin', hk', hbefore⟩
      rcases Nat.eq_or_lt_of_le hk with rfl | hlt
      · rw [herror] at hk'
        cases hk'
      · exact ⟨k, hlt, hwithin', hk', fun m hm => hbefore m (Nat.le_of_succ_le hm)⟩
  | case3 n lastError hlate =>
    rw [connectLoop, if_neg hlate]
    refine iff_of_false nofun ?_
    rintro ⟨k, hk, hwithin, -, -⟩
    exact hlate ((S.elapsed_mono hk).trans hwithin)

/-- The socket is connected exactly by the first attempt that succeeds, if that one begins within a
minute; in that time there are at most 241 attempts. -/
theorem connectLauncherSocket_eq_ok_iff (S : Socket α) (socketPath : Text) (stream : α) :
    connectLauncherSocket S socketPath = .ok stream ↔ ∃ n < 241, S.elapsed n ≤ socketWaitTimeout ∧
      S.attempt n = .ok stream ∧ ∀ m < n, ∃ e, S.attempt m = .error e := by
  have helapsed : ∀ n, 250 * n ≤ S.elapsed n := by
    intro n
    induction n with
    | zero => exact Nat.zero_le _
    | succ n ih =>
      have hsleeps := S.sleeps n
      omega
  rw [connectLauncherSocket, connectLoop_eq_ok_iff]
  constructor
  · rintro ⟨n, -, hwithin, hn, hbefore⟩
    refine ⟨n, ?_, hwithin, hn, fun m => hbefore m (Nat.zero_le m)⟩
    have hn := helapsed n
    rw [socketWaitTimeout] at hwithin
    omega
  · rintro ⟨n, -, hwithin, hn, hbefore⟩
    exact ⟨n, Nat.zero_le n, hwithin, hn, fun m _ => hbefore m⟩

end Connect

/-! ### The request -/

/-- How writing to the socket, or reading from it, fails. -/
inductive IoFailure
  | writeHeaders (e : Text)
  | writeBody (e : Text)
  | read (e : Text)

/-- The launcher behind a connected socket: what it sends until it closes, once it has been sent a
request. -/
abbrev Stream := Bytes → Except IoFailure Slice

/-- A failed read or write as the attester reports it. -/
def IoFailure.toAttestError : IoFailure → AttestError
  | .writeHeaders e => .generationFailed ("write token request headers: ".toList ++ e)
  | .writeBody e => .generationFailed ("write token request body: ".toList ++ e)
  | .read e => .generationFailed ("read token response: ".toList ++ e)

/-- The body of a token request. -/
structure TokenRequest where
  audience : Text
  tokenType : Text
  nonces : List Text

/-- The fields in the order of the struct. -/
def TokenRequest.toValue (r : TokenRequest) : Value :=
  .object [("audience".toList, .string r.audience), ("token_type".toList, .string r.tokenType),
    ("nonces".toList, .array (r.nonces.map .string))]

/-- The request as it is written: headers, then the body. -/
def postToken (body : Bytes) : Bytes :=
  Text.asBytes ("POST /v1/token HTTP/1.1\r\nHost: localhost\r\n".toList ++
    "Content-Type: application/json\r\nContent-Length: ".toList ++ Text.decimal body.length ++
    "\r\nConnection: close\r\n\r\n".toList) ++ body

/-- Send the request and take the token out of the answer. -/
def requestTokenOverStream (checks : Bool) (stream : Stream) (body : Bytes) :
    Outcome AttestError Bytes := do
  let response ← Outcome.lift ((stream (postToken body)).mapError IoFailure.toAttestError)
  parseHttpTokenResponse checks response

end Launcher

open Launcher

/-- `attest`. -/
def GcpConfidentialSpaceAttester.attest (A : GcpConfidentialSpaceAttester) (checks : Bool)
    (S : Socket Launcher.Stream) (userData : ByteArr 64) : Outcome AttestError Evidence := do
  let request : TokenRequest := ⟨A.audience, A.tokenType, reportdataNonces userData⟩
  let stream ← Outcome.lift (connectLauncherSocket S A.socketPath)
  let token ← requestTokenOverStream checks stream (toVec request.toValue)
  .ok ⟨.gcpConfidentialSpace, token⟩

namespace Launcher

/-! ### What the launcher reads -/

/-- The nonces that a request body names. -/
def requestedNonces (v : Value) : List Text :=
  match get "nonces".toList v with
  | some (.array vs) => vs.filterMap Value.asString
  | _ => []

/-- A reader of the body finds the audience and the nonces that the attester has put into it. -/
theorem fromSlice_request (fits : Text → Bool) (r : TokenRequest) :
    fromSlice fits (toVec r.toValue) = some r.toValue ∧
      get "audience".toList r.toValue = some (.string r.audience) ∧
      requestedNonces r.toValue = r.nonces := by
  have hnumbers : ∀ nonces : List Text, numbersOfElements (nonces.map .string) = [] := by
    intro nonces
    induction nonces with
    | nil => rfl
    | cons nonce nonces ih => exact ih
  have hdepth : ∀ nonces : List Text, depthOfElements (nonces.map .string) = 0 := by
    intro nonces
    induction nonces with
    | nil => rfl
    | cons nonce nonces ih => rw [List.map_cons, depthOfElements, ih]; rfl
  have hnone : numbers r.toValue = [] := by
    simp [TokenRequest.toValue, numbers, numbersOfMembers, numbersOfMember, hnumbers]
  have hflat : depth r.toValue = 2 := by
    simp [TokenRequest.toValue, depth, depthOfMembers, depthOfMember, hdepth]
  refine ⟨?_, rfl, ?_⟩
  · have hread : fromSlice fits (toVec r.toValue) = _ :=
      fromSlice_toVec (by simp [HasNumbers, hnone]) (by simp [hnone])
    rwa [hflat, if_pos (by decide)] at hread
  · have hget : get "nonces".toList r.toValue = some (.array (r.nonces.map .string)) := rfl
    rw [requestedNonces, hget]
    dsimp only
    rw [List.filterMap_map]
    exact List.filterMap_some

/-- The nonces of a request, in a claim, stand for the REPORTDATA that they were made from. -/
theorem nonceReportdata_requested (r : ByteArr 64) :
    nonceReportdata (.many (reportdataNonces r)) = .ok r := by
  refine nonceReportdata_of_perm ?_
  rw [NonceClaim.nonces, List.filter_eq_self.mpr]
  rw [reportdataNonces_eq, List.forall_mem_cons, List.forall_mem_singleton]
  exact ⟨carriesPart_spki _, carriesPart_config _⟩

end Launcher

end TrustedRelay
