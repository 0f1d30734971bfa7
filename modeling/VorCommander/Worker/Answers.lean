import VorCommander.Gateway.RemoteWrite
import VorCommander.Steps.Returns
import VorCommander.Text.Length
import VorCommander.Worker.SafeCommand

/-!
What the workers answer to an action that runs under policy.

A write answers with its receipt, a command with its session. The path of the target, the
directory of the command and the name of the rule are in the answer as they are, so that
its length is not bounded by anything but theirs.
-/

namespace VorCommander

open Crypto Steps Steps.Program Text

namespace Worker

/-! ### Writes -/

/-- The answer that a file has been written under policy. -/
def writtenJson (receipt : WriteReceipt) (policyRule : String) : Value :=
  jsonObject
    [("target", .string receipt.target), ("content_sha256", .string receipt.contentSha256),
     ("backup_created", .bool receipt.backupPath.isSome), ("journaled", .bool true),
     ("authority", .string "policy"), ("policy_rule", .string policyRule)]

/-- `execute_authorized` for `filesystem.write`. -/
def executeWrite (P : Primitives) (worker : FsWorker) (authorization : Authorization) :
    ExceptT DispatchError (Program Files) WorkerOutput := do
  let content ← check (writeContent authorization.request)
  let receipt ← ExceptT.adapt .fs (worker.write P authorization content)
  return ((writtenJson receipt authorization.decision.reasonCode).toBytes, "application/json")

/-- The bytes of the answer to a write. -/
def writtenLength (receipt : WriteReceipt) (policyRule : String) : ℕ :=
  100 + quotedLength receipt.target + quotedLength receipt.contentSha256 +
    quotedLength policyRule + if receipt.backupPath.isSome then 4 else 5

theorem length_bool (b : Bool) : (Value.bool b).length = if b then 4 else 5 := by
  cases b <;> rfl

theorem length_writtenJson (receipt : WriteReceipt) (policyRule : String) :
    (writtenJson receipt policyRule).length = writtenLength receipt policyRule := by
  have hsorted : writtenJson receipt policyRule = .object
      [("authority", .string "policy"), ("backup_created", .bool receipt.backupPath.isSome),
       ("content_sha256", .string receipt.contentSha256), ("journaled", .bool true),
       ("policy_rule", .string policyRule), ("target", .string receipt.target)] := rfl
  have hnames : quotedLength "authority" = 11 ∧ quotedLength "policy" = 8 ∧
      quotedLength "backup_created" = 16 ∧ quotedLength "content_sha256" = 16 ∧
      quotedLength "journaled" = 11 ∧ quotedLength "policy_rule" = 13 ∧
      quotedLength "target" = 8 := by decide
  rw [hsorted, Value.length_object (List.cons_ne_nil _ _), writtenLength]
  simp only [List.map_cons, List.map_nil, List.sum_cons, List.sum_nil, Value.length_string,
    length_bool, hnames, if_true]
  omega

theorem returns_executeWrite {A : History Files → Event Files → Prop} {h : History Files}
    (P : Primitives) (worker : FsWorker) (authorization : Authorization) :
    Returns A (fun _ output => ∃ receipt, output.1.length =
        writtenLength receipt authorization.decision.reasonCode)
      (executeWrite P worker authorization) h := by
  unfold executeWrite
  refine returns_bind_of_forall fun _ _ => returns_bind_of_forall fun _ receipt => ?_
  rw [returns_pure]
  exact ⟨receipt, by rw [Value.length_toBytes, length_writtenJson]⟩

/-! ### Commands -/

/-- The bytes of the answer to a command. -/
def startedLength (sessionId : String) (spec : TerminalSpec) : ℕ :=
  116 + quotedLength sessionId + quotedLength spec.cwd + (encodeNat spec.timeoutMs).length +
    (encodeNat spec.maxOutputBytes).length + (encodeNat spec.columns).length +
    (encodeNat spec.rows).length

theorem length_startedJson (sessionId : String) (spec : TerminalSpec) :
    (startedJson sessionId spec).length = startedLength sessionId spec := by
  have hsorted : startedJson sessionId spec = .object
      [("approval", .string "safe-list"), ("columns", .posInt spec.columns),
       ("cwd", .string spec.cwd), ("max_output_bytes", .posInt spec.maxOutputBytes),
       ("rows", .posInt spec.rows), ("session_id", .string sessionId),
       ("state", .string "running"), ("timeout_ms", .posInt spec.timeoutMs)] := rfl
  have hnames : quotedLength "approval" = 10 ∧ quotedLength "safe-list" = 11 ∧
      quotedLength "columns" = 9 ∧ quotedLength "cwd" = 5 ∧
      quotedLength "max_output_bytes" = 18 ∧ quotedLength "rows" = 6 ∧
      quotedLength "session_id" = 12 ∧ quotedLength "state" = 7 ∧
      quotedLength "running" = 9 ∧ quotedLength "timeout_ms" = 12 := by decide
  rw [hsorted, Value.length_object (List.cons_ne_nil _ _), startedLength]
  simp only [List.map_cons, List.map_nil, List.sum_cons, List.sum_nil, Value.length_string,
    Value.length_posInt, hnames]
  omega

section Commands

variable {A : History Machine → Event Machine → Prop} {h : History Machine}

/-- Hardening changes the arguments and the environment only. -/
theorem returns_hardenSpec (resolved : String) (spec : TerminalSpec) :
    Returns A (fun _ hardened => ∃ argv environment,
        hardened = { spec with argv, environment }) (hardenSpec resolved spec) h := by
  unfold hardenSpec
  split
  case h_1 =>
      rw [returns_pure]
      exact ⟨_, _, rfl⟩
  case h_2 =>
      split
      case isTrue =>
          refine returns_bind_of_forall fun _ _ => returns_bind_of_forall fun _ hardened => ?_
          rw [returns_pure]
          exact ⟨_, _, rfl⟩
      case isFalse =>
          rw [returns_pure]
          exact ⟨_, _, rfl⟩

theorem returns_executeSafeCommand (d : Dispatcher) (authorization : Authorization) :
    Returns A (fun _ output => ∃ sessionId spec,
        remoteTerminalSpec authorization.request d.maxOutputBytes = .ok spec ∧
        output.1.length = startedLength sessionId spec)
      (executeSafeCommand d authorization) h := by
  unfold executeSafeCommand
  rw [returns_check_bind]
  intro spec hspec
  refine returns_bind_of_forall fun _ _ => returns_bind_of_forall fun _ resolved =>
    returns_bind_of_forall fun _ environment => ?_
  rw [returns_bind]
  refine (returns_hardenSpec _ _).mono ?_
  rintro _ _ ⟨_, _, rfl⟩
  refine returns_bind_of_forall fun _ _ => returns_bind_of_forall fun _ sessionId => ?_
  rw [returns_pure]
  exact ⟨sessionId, spec, hspec, by rw [Value.length_toBytes, length_startedJson]; rfl⟩

end Commands

end Worker

end VorCommander
