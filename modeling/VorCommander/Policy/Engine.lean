import VorCommander.Policy.Terminal
import VorCommander.Protocol

/-!
The policy engine.

A loaded policy turns a request into one of three decisions: run it, ask for
a signed approval, or refuse. The decision depends on the action, on the most
specific filesystem rule over the target, and for writes and commands on the
parameters of the request. Evaluation reads the file system through a `Host`.
-/

namespace VorCommander

open Crypto Text WindowsPath

inductive ApprovalMode
  | strict
  | policy
  deriving DecidableEq

structure AutoWritePolicy where
  maxBytes : ℕ := 1024 * 1024
  maxFilesPerMinute : ℕ := 60
  maxBytesPerMinute : ℕ := 8 * 1024 * 1024

inductive RuleDecision
  | auto
  | approval
  | deny
  | elevatedApproval
  deriving DecidableEq

structure FilesystemRule where
  path : String
  read : RuleDecision
  write : RuleDecision

structure TerminalPolicy where
  default : RuleDecision
  inlineEval : RuleDecision := .elevatedApproval
  projectTests : RuleDecision
  destructive : RuleDecision
  elevated : RuleDecision
  safeExecutablePaths : List String
  safeCommands : List SafeCommandRule

structure ProcessPolicy where
  list : RuleDecision
  inspect : RuleDecision
  terminate : RuleDecision

structure BrowserPolicy where
  authenticatedSessionUse : RuleDecision
  secretExtraction : RuleDecision
  publish : RuleDecision
  purchase : RuleDecision

/-- A policy as it is written; `audit` and the members no decision reads are
left out. -/
structure PolicyConfig where
  version : ℕ
  policyId : String
  mode : ApprovalMode := .strict
  autoWrite : AutoWritePolicy := {}
  filesystem : List FilesystemRule
  terminal : TerminalPolicy
  process : ProcessPolicy
  browser : BrowserPolicy
  desktopEnabled : Bool
  publicListenerFallback : RuleDecision

/-- A policy that `PolicyEngine::from_yaml_str` accepted, with the hash of
its text. -/
structure PolicyEngine where
  config : PolicyConfig
  policyHash : String
  supported : config.version = 1
  named : isBlank config.policyId = false

/-- `PolicyEngine::from_yaml_str`; `parse` is the YAML reader. -/
def PolicyEngine.fromYamlStr (P : Primitives) (parse : String → Option PolicyConfig)
    (input : String) : Option PolicyEngine := do
  let input := String.ofList (input.toList.dropWhile (· = '\ufeff'))
  let config ← parse input
  if h : config.version = 1 ∧ isBlank config.policyId = false then
    return ⟨config, hexEncode (P.sha256 (utf8 input)).toList, h.1, h.2⟩
  else none

/-! ### Rules -/

namespace PolicyConfig

variable (config : PolicyConfig) (host : Host)

/-- The rules whose normalised root contains the normalised target, each with
that root. -/
def coveringRules (target : String) : List (String × FilesystemRule) :=
  (config.filesystem.filterMap fun rule =>
    (normalizeWindowsPath host rule.path).map fun root => (root, rule)).filter
      fun rooted => windowsPathWithin target rooted.1

/-- The last of the rules with the longest root, as `max_by_key` picks it. -/
def mostSpecific : List (String × FilesystemRule) → Option (String × FilesystemRule)
  | [] => none
  | rooted :: rest =>
      match mostSpecific rest with
      | none => some rooted
      | some best => if byteLength best.1 < byteLength rooted.1 then some rooted else some best

/-- `filesystem_decision`. -/
def filesystemDecision (target : String) (write : Bool) : RuleDecision :=
  match normalizeWindowsPath host target with
  | none => .deny
  | some target =>
      match mostSpecific (config.coveringRules host target) with
      | none => .deny
      | some (_, rule) => if write then rule.write else rule.read

/-- The value of a parameter read by `convert`. -/
def parameter {α : Type} (request : ActionRequest) (name : String) (convert : Value → Option α) :
    Option α :=
  request.envelope.parameters[name]?.bind convert

/-- `expected_target_sha256` is a digest or says that the target is absent. -/
def validPrecondition (request : ActionRequest) : Bool :=
  (parameter request "expected_target_sha256" Value.asStr).any fun value =>
    eqIgnoreAsciiCase value "absent" ||
      (byteLength value = 64 && (hexDecode value).any fun bytes => bytes.length = 32)

/-- `filesystem_write_decision`. -/
def filesystemWriteDecision (request : ActionRequest) : RuleDecision × String :=
  let base := config.filesystemDecision host request.envelope.target true
  if base ≠ .auto then (base, "filesystem_rule")
  else if config.mode = .strict then (.approval, "strict_mode")
  else if parameter request "approval_path" Value.asBool = some true then
    (.approval, "explicit_signed_path")
  else if (normalizeWindowsPath host request.envelope.target).all sensitiveWindowsPath then
    (.approval, "auto_write_sensitive_path")
  else
    match parameter request "content_bytes" Value.asU64 with
    | none => (.approval, "auto_write_size_required")
    | some size =>
        if config.autoWrite.maxBytes < size then (.approval, "auto_write_size_exceeded")
        else if !validPrecondition request then (.approval, "auto_write_precondition_missing")
        else (.auto, "auto_write_safe")

/-- `terminal_argv`. -/
def terminalArgv (request : ActionRequest) : Option (List String) := do
  let values ← parameter request "argv" Value.asArray
  if values.isEmpty then none else values.mapM Value.asStr

/-- `terminal_exec_decision`. -/
def terminalExecDecision (request : ActionRequest) : RuleDecision × String :=
  match terminalArgv request with
  | none | some [] => (.deny, "terminal_argv_required")
  | some (executable :: arguments) =>
      if Terminal.commandIsInlineEval (executable :: arguments) then
        (config.terminal.inlineEval, "terminal_inline_eval")
      else if config.mode ≠ .strict &&
          Terminal.safeCommandMatches host executable arguments config.terminal.safeCommands
            config.terminal.safeExecutablePaths then
        (.auto, "terminal_safe_list")
      else (config.terminal.default, "terminal_default")

/-- A command that matches the safe list, under a policy that uses it. -/
def SafeListed (request : ActionRequest) : Prop :=
  config.mode ≠ .strict ∧ ∃ executable arguments,
    terminalArgv request = some (executable :: arguments) ∧
      Terminal.commandIsInlineEval (executable :: arguments) = false ∧
      Terminal.safeCommandMatches host executable arguments config.terminal.safeCommands
        config.terminal.safeExecutablePaths = true

/-- The rule that decides a request, with its reason. -/
def ruleFor (request : ActionRequest) : RuleDecision × String :=
  match request.envelope.action with
  | "filesystem.read" | "filesystem.list" | "filesystem.search_files"
  | "filesystem.search_content" | "filesystem.info" =>
      (config.filesystemDecision host request.envelope.target false, "filesystem_rule")
  | "filesystem.write" => config.filesystemWriteDecision host request
  | "terminal.exec" => config.terminalExecDecision host request
  | "terminal.poll" => (.auto, "terminal_poll")
  | "terminal.cancel" => (.auto, "terminal_cancel")
  | "terminal.project_test" => (config.terminal.projectTests, "terminal_project_test")
  | "terminal.destructive" => (config.terminal.destructive, "terminal_destructive")
  | "terminal.elevated" => (config.terminal.elevated, "terminal_elevated")
  | "process.list" => (config.process.list, "process_list")
  | "process.inspect" => (config.process.inspect, "process_inspect")
  | "process.terminate" => (config.process.terminate, "process_terminate")
  | "git.status" | "git.diff" =>
      (config.filesystemDecision host request.envelope.target false, "git_read")
  | "browser.session.use" => (config.browser.authenticatedSessionUse, "browser_session")
  | "browser.secret.extract" => (config.browser.secretExtraction, "browser_secret")
  | "browser.publish" => (config.browser.publish, "browser_publish")
  | "browser.purchase" => (config.browser.purchase, "browser_purchase")
  | "network.public_listener" => (config.publicListenerFallback, "public_listener")
  | action =>
      if startsWith action "desktop." then
        if config.desktopEnabled then (.approval, "desktop_approval")
        else (.deny, "desktop_disabled")
      else (.deny, "unknown_action")

variable {config host}

/-- The reason that stands for the safe list is given for listed commands
only. -/
theorem safeListed_of_reason {request : ActionRequest}
    (haction : request.envelope.action = "terminal.exec")
    (hreason : (config.ruleFor host request).2 = "terminal_safe_list") :
    config.SafeListed host request := by
  simp only [ruleFor, haction, terminalExecDecision] at hreason
  split at hreason
  · simp at hreason
  · simp at hreason
  · split at hreason
    · simp at hreason
    · rename_i executable arguments hargv hinline
      split at hreason
      · rename_i hmatches
        simp only [Bool.and_eq_true, decide_eq_true_eq] at hmatches
        exact ⟨hmatches.1, executable, arguments, hargv, by simpa using hinline, hmatches.2⟩
      · simp at hreason

/-- A write is never decided by the safe list of commands. -/
theorem reason_of_write {request : ActionRequest}
    (haction : request.envelope.action = "filesystem.write") :
    (config.ruleFor host request).2 ≠ "terminal_safe_list" := by
  simp only [ruleFor, haction, filesystemWriteDecision]
  repeat' split
  all_goals simp

end PolicyConfig

/-! ### Decisions -/

/-- The kind of decision a rule stands for. -/
def RuleDecision.kind : RuleDecision → PolicyDecisionKind
  | .auto => .auto
  | .approval | .elevatedApproval => .approval
  | .deny => .deny

/-- Only a rule that says so allows without asking. -/
theorem RuleDecision.kind_eq_auto {rule : RuleDecision} : rule.kind = .auto ↔ rule = .auto := by
  cases rule <;> simp [RuleDecision.kind]

/-- The capability an approver needs under a rule. -/
def RuleDecision.requiredCapability : RuleDecision → Option String
  | .elevatedApproval => some "elevated"
  | _ => none

namespace PolicyEngine

variable (engine : PolicyEngine) (host : Host) (request : ActionRequest)

/-- `PolicyEngine::decision`. -/
def decision (rule : RuleDecision) (reason : String) : PolicyDecision :=
  { requestId := request.envelope.requestId
    kind := rule.kind
    policyId := engine.config.policyId
    reasonCode := reason
    requiredCapability := rule.requiredCapability
    envelopeDigest := request.envelopeDigest }

/-- `PolicyEngine::evaluate`. -/
def evaluate : PolicyDecision :=
  let (rule, reason) := engine.config.ruleFor host request
  engine.decision request rule reason

variable {engine host request}

@[simp] theorem evaluate_requestId :
    (engine.evaluate host request).requestId = request.envelope.requestId := rfl

@[simp] theorem evaluate_policyId :
    (engine.evaluate host request).policyId = engine.config.policyId := rfl

@[simp] theorem evaluate_envelopeDigest :
    (engine.evaluate host request).envelopeDigest = request.envelopeDigest := rfl

theorem evaluate_kind :
    (engine.evaluate host request).kind = (engine.config.ruleFor host request).1.kind := rfl

theorem evaluate_requiredCapability :
    (engine.evaluate host request).requiredCapability =
      (engine.config.ruleFor host request).1.requiredCapability := rfl

theorem evaluate_reasonCode :
    (engine.evaluate host request).reasonCode = (engine.config.ruleFor host request).2 := rfl

/-- Only a decision for approval names a capability, and then it is the one
for elevated approval. -/
theorem evaluate_requiredCapability_cases :
    (engine.evaluate host request).requiredCapability = none ∨
      (engine.evaluate host request).requiredCapability = some "elevated" ∧
        (engine.evaluate host request).kind = .approval := by
  rw [evaluate_requiredCapability, evaluate_kind]
  cases (engine.config.ruleFor host request).1 <;> simp [RuleDecision.requiredCapability,
    RuleDecision.kind]

end PolicyEngine

end VorCommander
