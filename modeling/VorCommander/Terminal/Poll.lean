import VorCommander.Terminal.Sessions
import VorCommander.Text.Length

/-!
The answer to a poll of a terminal session.

A session that has finished is removed once its answer has been written, and only then is
the size of the answer compared with the limit of the dispatcher. The output of a session
is bounded when the session is started, so that the answer is never too large.
-/

namespace VorCommander

open Steps Text Worker

/-! ### Polling -/

/-- `terminal_session_state_name`. -/
def TerminalSessionState.name : TerminalSessionState → String
  | .running => "running"
  | .completed => "completed"
  | .cancelled => "cancelled"
  | .timedOut => "timed_out"
  | .failed => "failed"

/-- The answer to `terminal.poll`. -/
def pollOutput (snapshot : TerminalSessionSnapshot) : List UInt8 :=
  (Value.object
    [("error_code", snapshot.errorCode.elim .null .string),
     ("exit_code", snapshot.exitCode.elim .null .posInt),
     ("output_base64", .string (Base64.encode snapshot.output)),
     ("session_id", .string snapshot.sessionId),
     ("state", .string snapshot.state.name)]).toBytes

/-- The bytes of an answer, beside the encoded output. -/
def pollOverhead : ℕ := 256

theorem length_pollOutput (snapshot : TerminalSessionSnapshot)
    (hsession : ∃ bytes : List UInt8, snapshot.sessionId = hexEncode bytes ∧ bytes.length = 16)
    (hexit : ∀ code ∈ snapshot.exitCode, code < 2 ^ 32)
    (herror : ∀ code ∈ snapshot.errorCode, PlainJson code.toList ∧ code.toList.length ≤ 64) :
    (pollOutput snapshot).length ≤
      4 * ((snapshot.output.length + 2) / 3) + pollOverhead := by
  obtain ⟨bytes, hid, hbytes⟩ := hsession
  have hstate : quotedLength snapshot.state.name ≤ 11 := by
    cases snapshot.state <;> decide
  have hexit : (snapshot.exitCode.elim Value.null Value.posInt).length ≤ 10 := by
    cases hcode : snapshot.exitCode with
    | none => decide
    | some code =>
        rw [Option.elim_some, Value.length_posInt]
        exact length_encodeNat_le (by omega) (by have := hexit code hcode; omega)
  have herror : (snapshot.errorCode.elim Value.null Value.string).length ≤ 66 := by
    cases hcode : snapshot.errorCode with
    | none => decide
    | some code =>
        obtain ⟨hplain, hlength⟩ := herror code hcode
        rw [Option.elim_some, Value.length_string, quotedLength_of_plain hplain]
        omega
  have hnames : quotedLength "error_code" = 12 ∧ quotedLength "exit_code" = 11 ∧
      quotedLength "output_base64" = 15 ∧ quotedLength "session_id" = 12 ∧
      quotedLength "state" = 7 := by decide
  rw [pollOutput, Value.length_toBytes, Value.length_object (List.cons_ne_nil _ _), pollOverhead]
  simp only [List.map_cons, List.map_nil, List.sum_cons, List.sum_nil, Value.length_string,
    quotedLength_encode, hid, quotedLength_hexEncode, hbytes, hnames]
  omega

theorem maxOutputBytes_of_remoteTerminalSpec {request : ActionRequest} {limit : ℕ}
    {spec : TerminalSpec} (h : remoteTerminalSpec request limit = .ok spec) :
    spec.maxOutputBytes ≤ jsonSafeOutputLimit limit ∧ jsonSafeOutputLimit limit ≠ 0 := by
  simp only [remoteTerminalSpec, bind_eq_ok, exists_unit, failIf_eq_ok, pure_eq_ok] at h
  obtain ⟨_, _, _, _, _, _, hlimit, _, _, _, _, _, _, _, _, rfl⟩ := h
  exact ⟨min_le_right .., hlimit⟩

/-- What a thread reports of a failed run. -/
theorem errorCode_sessionOutcome {reply : Option (Except TerminalError TerminalRunResult)}
    {failure : TerminalSessionFailure} (h : sessionOutcome reply = .error failure) :
    PlainJson failure.errorCode.toList ∧ failure.errorCode.toList.length ≤ 64 := by
  have hcode : failure.errorCode ∈ ["terminal_cancelled", "terminal_timeout",
      "terminal_output_limit_exceeded", "terminal_error", "terminal_worker_panicked"] := by
    rcases reply with _ | e | result
    · cases h
      decide
    · cases h
      cases e <;> simp [TerminalSessionFailure.fromError]
    · cases h
  have hplain : ∀ code ∈ ["terminal_cancelled", "terminal_timeout",
      "terminal_output_limit_exceeded", "terminal_error", "terminal_worker_panicked"],
      PlainJson code.toList ∧ code.toList.length ≤ 64 := by
    decide
  exact hplain _ hcode

/-- However a session ends whose output is within the bound of its specification, the answer
to the poll that removes it is within the limit under which the specification was made. -/
theorem length_pollOutput_finished {request : ActionRequest} {limit : ℕ} {spec : TerminalSpec}
    (hspec : remoteTerminalSpec request limit = .ok spec) {draws : SessionDraws}
    {sessionId : String} (hid : sessionId ∈ draws.candidates)
    {reply : Option (Except TerminalError TerminalRunResult)}
    (hreply : ∀ result, reply = some (.ok result) →
      result.exitCode < 2 ^ 32 ∧ result.output.length ≤ spec.maxOutputBytes) :
    (pollOutput (sessionSnapshot sessionId (.finished (sessionOutcome reply)))).length ≤ limit := by
  obtain ⟨hmax, hlimit⟩ := maxOutputBytes_of_remoteTerminalSpec hspec
  rw [jsonSafeOutputLimit] at hmax hlimit
  obtain ⟨bytes, -, rfl⟩ := List.mem_map.mp hid
  have hsession : ∃ drawn : List UInt8, hexEncode bytes.toList = hexEncode drawn ∧
      drawn.length = 16 := ⟨bytes.toList, rfl, by simp⟩
  cases houtcome : sessionOutcome reply with
  | error failure =>
      have hcode := errorCode_sessionOutcome houtcome
      have hlength := length_pollOutput
        (sessionSnapshot (hexEncode bytes.toList) (.finished (.error failure))) hsession
        (by simp [sessionSnapshot]) (by simpa [sessionSnapshot] using hcode)
      simp only [sessionSnapshot, List.length_nil, pollOverhead] at hlength ⊢
      omega
  | ok result =>
      obtain ⟨hexit, houtput⟩ := hreply result (by
        rcases reply with _ | e | found
        · cases houtcome
        · cases houtcome
        · cases houtcome
          rfl)
      have hlength := length_pollOutput
        (sessionSnapshot (hexEncode bytes.toList) (.finished (.ok result))) hsession
        (by simpa [sessionSnapshot] using hexit) (by simp [sessionSnapshot])
      simp only [sessionSnapshot, pollOverhead] at hlength ⊢
      omega

namespace PollSample

/-- A request for a command. -/
def request : ActionRequest where
  envelope :=
    { requestId := "request", organizationId := "local", actorId := "agent"
      deviceId := "device", action := "terminal.exec", target := "C:\\work"
      parameters := .ofList [("argv", Value.array [.string "C:\\git.exe", .string "status"])]
      requestedCapabilities := [], expiresAtUnixMs := 1000, nonce := List.replicate 16 7 }
  envelopeDigest := Vector.replicate 32 0

def draws : SessionDraws := Vector.replicate 16 (Vector.replicate 16 0)

end PollSample

open PollSample

theorem length_pollOutput_finished_status :
    (pollOutput (sessionSnapshot "00000000000000000000000000000000"
      (.finished (sessionOutcome (some (.ok ⟨0, [111, 107]⟩)))))).length ≤ 65536 := by
  have hbound : (remoteTerminalSpec request 65536).toOption.map TerminalSpec.maxOutputBytes =
      some 36864 := by decide
  obtain ⟨spec, hspec, hmax⟩ := Option.map_eq_some_iff.mp hbound
  have hid : "00000000000000000000000000000000" ∈ SessionDraws.candidates draws := by
    decide
  refine length_pollOutput_finished (toOption_eq_some.mp hspec) hid ?_
  rintro _ ⟨⟩
  rw [hmax]
  exact ⟨by decide, by decide⟩

end VorCommander
