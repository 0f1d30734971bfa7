import VorCommander.Approval
import VorCommander.Audit.Ledger
import VorCommander.Fs.Types
import VorCommander.Steps.Pool

/-!
The operations a device performs for a request.

A dispatcher decides what to do from what it is told by its collaborators:
the policy, which looks at paths on the host; the approval verifier; the
ledger, each of whose calls is one transaction; and the workers. Each call of
a collaborator is one operation here. What lies between two operations is
local to the dispatcher, and another dispatcher, another process or a crash
can come in at every one of them.
-/

namespace VorCommander

open Crypto Steps Steps.Program Text

/-! ### What is passed around -/

structure Authorization where
  request : ActionRequest
  decision : PolicyDecision

namespace Authorization

variable (authorization : Authorization)

def isAuto : Prop := authorization.decision.kind = .auto
def requiresApproval : Prop := authorization.decision.kind = .approval
def isDenied : Prop := authorization.decision.kind = .deny

instance : Decidable authorization.isAuto := inferInstanceAs (Decidable (_ = _))
instance : Decidable authorization.requiresApproval := inferInstanceAs (Decidable (_ = _))
instance : Decidable authorization.isDenied := inferInstanceAs (Decidable (_ = _))

end Authorization

structure ExecutionAuthorization where
  authorization : Authorization
  approverId : String
  approvalExpiresAtUnixMs : ℕ

/-- The key under which the approval of a request is consumed. -/
def ActionRequest.key (request : ActionRequest) : ApprovalKey :=
  ⟨request.envelope.requestId, request.envelopeDigest⟩

/-- A dispatcher that `ReadOnlyDispatcher::open` accepted. -/
structure Dispatcher where
  deviceId : String
  policy : PolicyEngine
  approvalVerifier : ApprovalVerifier
  allowedRoots : List String
  journalDir : String
  gitExecutable : String
  maxOutputBytes : ℕ
  named : isBlank deviceId = false
  bounded : 0 < maxOutputBytes

/-! ### Errors -/

inductive CoreError
  | protocol (error : ProtocolError)
  | approval (error : ApprovalError)
  | approvalNotPrepared
  | approvalAlreadyConsumed
  | audit (error : AuditError)
  deriving DecidableEq

inductive WireError
  | invalidTimestamp
  | missingExpiry
  | invalidActionDigest
  | actionDigestMismatch
  | invalidApprovalField
  | invalidApprovalDigest
  | invalidApprovalSignature
  | invalidApprovalNonce
  | json
  | protocol (error : ProtocolError)
  deriving DecidableEq

inductive GitError
  | unsafePath
  | outsideAllowedRoots
  | notDirectory
  | reparsePoint (path : String)
  | authorizationMismatch
  | approvalRequired
  | denied
  | wrongAction
  | outputLimitExceeded
  | commandFailed (code : Option ℤ) (stderr : String)
  | repositoryAlias (subcommand : String)
  | io
  deriving DecidableEq

/-- The errors of the terminal worker that a status distinguishes, and the
others. -/
inductive TerminalError
  | cancelled
  | timeout (timeoutMs : ℕ)
  | outputLimitExceeded (limit : ℕ)
  | other (message : String)
  deriving DecidableEq

/-- The errors of the browser worker that a status distinguishes, and the
others. -/
inductive BrowserError
  | approvalMismatch
  | navigationOutOfScope
  | staleElement
  | sessionNotFound
  | browserDisabled
  | other (message : String)
  deriving DecidableEq

inductive DispatchError
  | invalidConfig
  | postEffectUncertain (error : CoreError)
  | wrongDevice
  | remoteActionNotAllowed
  | denied
  | approvalRequired
  | invalidApprovedAction
  | remoteApprovalPolicyRequired
  | missingWriteContent
  | invalidWriteContent
  | writeTooLarge (len : ℕ)
  | invalidTerminalParameters
  | invalidFilesystemParameters
  | outputTooLarge (len : ℕ)
  | clock
  | wire (error : WireError)
  | approval (error : ApprovalError)
  | audit (error : AuditError)
  | core (error : CoreError)
  | fs (error : FsError)
  | git (error : GitError)
  | process (message : String)
  | terminal (error : TerminalError)
  | browser (error : BrowserError)
  | json
  deriving DecidableEq

/-- The output of a worker and its content type. -/
abbrev WorkerOutput := List UInt8 × String

/-! ### Operations -/

inductive DeviceOp
  | append (event : AuditEvent)
  | hasOutcomeFor (key : ApprovalKey) (outcome : String)
  | countPolicyAutoWritesSince (actorId deviceId : String) (sinceUnixMs : ℕ)
  | sumPolicyAutoWriteBytesSince (actorId deviceId : String) (sinceUnixMs : ℕ)
  | claimApprovalConsumed (key : ApprovalKey) (consumedAtUnixMs : ℕ)
  | setExecutionRecoveryState (key : ApprovalKey) (state : ExecutionRecoveryState)
      (updatedAtUnixMs : ℕ)
  | selectEvents
  | insertConsumption (key : ApprovalKey) (consumedAtUnixMs : ℕ)
  | evaluate (policy : PolicyEngine) (request : ActionRequest)
  | verifyApproval (verifier : ApprovalVerifier) (request : ActionRequest)
      (decision : PolicyDecision) (approval : SignedApproval) (nowUnixMs : ℕ)
  | issueChallenge (request : ActionRequest) (decision : PolicyDecision)
      (nowUnixMs expiresAtUnixMs : ℕ)
  | prepareEdit (dispatcher : Dispatcher) (authorization : Authorization) (edits : List TextEdit)
  | executeAuthorized (dispatcher : Dispatcher) (authorization : Authorization)
  | executeApproved (dispatcher : Dispatcher) (execution : ExecutionAuthorization)

/-- What each operation replies. -/
def DeviceOp.Reply : DeviceOp → Type
  | .append _ => Except AuditError AuditRecord
  | .hasOutcomeFor _ _ => Except AuditError Bool
  | .countPolicyAutoWritesSince _ _ _ => Except AuditError ℕ
  | .sumPolicyAutoWriteBytesSince _ _ _ => Except AuditError ℕ
  | .claimApprovalConsumed _ _ => Except AuditError Bool
  | .setExecutionRecoveryState _ _ _ => Except AuditError Unit
  | .selectEvents => Except AuditError (List AuditEvent)
  | .insertConsumption _ _ => Except AuditError Unit
  | .evaluate _ _ => PolicyDecision
  | .verifyApproval _ _ _ _ _ => Except ApprovalError Unit
  | .issueChallenge _ _ _ _ => Except ApprovalError ApprovalChallenge
  | .prepareEdit _ _ _ => Except FsError PreparedEdit
  | .executeAuthorized _ _ => Except DispatchError WorkerOutput
  | .executeApproved _ _ => Except DispatchError WorkerOutput

/-- The interface of the device. -/
abbrev Device : Interface := ⟨DeviceOp, DeviceOp.Reply⟩

/-- A fallible program of the device. -/
abbrev DeviceM (ε α : Type) := ExceptT ε (Program Device) α

/-! ### Calls

One program for each operation, with the rule that reasons about it. -/

namespace Ledger

def append (event : AuditEvent) : DeviceM AuditError AuditRecord :=
  attempt (perform (I := Device) (.append event))

def hasOutcomeFor (key : ApprovalKey) (outcome : String) : DeviceM AuditError Bool :=
  attempt (perform (I := Device) (.hasOutcomeFor key outcome))

def countPolicyAutoWritesSince (actorId deviceId : String) (sinceUnixMs : ℕ) :
    DeviceM AuditError ℕ :=
  attempt (perform (I := Device) (.countPolicyAutoWritesSince actorId deviceId sinceUnixMs))

def sumPolicyAutoWriteBytesSince (actorId deviceId : String) (sinceUnixMs : ℕ) :
    DeviceM AuditError ℕ :=
  attempt (perform (I := Device) (.sumPolicyAutoWriteBytesSince actorId deviceId sinceUnixMs))

def claimApprovalConsumed (key : ApprovalKey) (consumedAtUnixMs : ℕ) : DeviceM AuditError Bool :=
  attempt (perform (I := Device) (.claimApprovalConsumed key consumedAtUnixMs))

def setExecutionRecoveryState (key : ApprovalKey) (state : ExecutionRecoveryState)
    (updatedAtUnixMs : ℕ) : DeviceM AuditError Unit :=
  attempt (perform (I := Device) (.setExecutionRecoveryState key state updatedAtUnixMs))

def selectEvents : DeviceM AuditError (List AuditEvent) :=
  attempt (perform (I := Device) .selectEvents)

def insertConsumption (key : ApprovalKey) (consumedAtUnixMs : ℕ) : DeviceM AuditError Unit :=
  attempt (perform (I := Device) (.insertConsumption key consumedAtUnixMs))

end Ledger

/-- `PolicyEngine::evaluate` as the host answers at the moment of the call. -/
def evaluatePolicy {ε : Type} (policy : PolicyEngine) (request : ActionRequest) :
    DeviceM ε PolicyDecision :=
  ExceptT.lift (perform (I := Device) (.evaluate policy request))

def verifyApproval (verifier : ApprovalVerifier) (request : ActionRequest)
    (decision : PolicyDecision) (approval : SignedApproval) (nowUnixMs : ℕ) :
    DeviceM ApprovalError Unit :=
  attempt (perform (I := Device) (.verifyApproval verifier request decision approval nowUnixMs))

def issueChallenge (request : ActionRequest) (decision : PolicyDecision)
    (nowUnixMs expiresAtUnixMs : ℕ) : DeviceM ApprovalError ApprovalChallenge :=
  attempt (perform (I := Device) (.issueChallenge request decision nowUnixMs expiresAtUnixMs))

namespace Dispatcher

variable (dispatcher : Dispatcher)

def prepareEdit (authorization : Authorization) (edits : List TextEdit) :
    DeviceM FsError PreparedEdit :=
  attempt (perform (I := Device) (.prepareEdit dispatcher authorization edits))

def executeAuthorized (authorization : Authorization) : DeviceM DispatchError WorkerOutput :=
  attempt (perform (I := Device) (.executeAuthorized dispatcher authorization))

def executeApproved (execution : ExecutionAuthorization) : DeviceM DispatchError WorkerOutput :=
  attempt (perform (I := Device) (.executeApproved dispatcher execution))

end Dispatcher

section Rules

variable {A : History Device → Event Device → Prop} {G : History Device → Device.Op → Prop}
  {h : History Device}

@[simp] theorem safe_append {event : AuditEvent}
    {Q : History Device → Except AuditError AuditRecord → Prop} :
    Safe A G Q (Ledger.append event).run h ↔
      G h (.append event) ∧ ∀ reply : Except AuditError AuditRecord,
        A h ⟨.append event, reply⟩ → Q (⟨.append event, reply⟩ :: h) reply :=
  safe_call (I := Device) (.append event) id

@[simp] theorem safe_hasOutcomeFor {key : ApprovalKey} {outcome : String}
    {Q : History Device → Except AuditError Bool → Prop} :
    Safe A G Q (Ledger.hasOutcomeFor key outcome).run h ↔
      G h (.hasOutcomeFor key outcome) ∧ ∀ reply : Except AuditError Bool,
        A h ⟨.hasOutcomeFor key outcome, reply⟩ →
          Q (⟨.hasOutcomeFor key outcome, reply⟩ :: h) reply :=
  safe_call (I := Device) (.hasOutcomeFor key outcome) id

@[simp] theorem safe_countPolicyAutoWritesSince {actorId deviceId : String} {since : ℕ}
    {Q : History Device → Except AuditError ℕ → Prop} :
    Safe A G Q (Ledger.countPolicyAutoWritesSince actorId deviceId since).run h ↔
      G h (.countPolicyAutoWritesSince actorId deviceId since) ∧ ∀ reply : Except AuditError ℕ,
        A h ⟨.countPolicyAutoWritesSince actorId deviceId since, reply⟩ →
          Q (⟨.countPolicyAutoWritesSince actorId deviceId since, reply⟩ :: h) reply :=
  safe_call (I := Device) (.countPolicyAutoWritesSince actorId deviceId since) id

@[simp] theorem safe_sumPolicyAutoWriteBytesSince {actorId deviceId : String} {since : ℕ}
    {Q : History Device → Except AuditError ℕ → Prop} :
    Safe A G Q (Ledger.sumPolicyAutoWriteBytesSince actorId deviceId since).run h ↔
      G h (.sumPolicyAutoWriteBytesSince actorId deviceId since) ∧ ∀ reply : Except AuditError ℕ,
        A h ⟨.sumPolicyAutoWriteBytesSince actorId deviceId since, reply⟩ →
          Q (⟨.sumPolicyAutoWriteBytesSince actorId deviceId since, reply⟩ :: h) reply :=
  safe_call (I := Device) (.sumPolicyAutoWriteBytesSince actorId deviceId since) id

@[simp] theorem safe_claimApprovalConsumed {key : ApprovalKey} {at' : ℕ}
    {Q : History Device → Except AuditError Bool → Prop} :
    Safe A G Q (Ledger.claimApprovalConsumed key at').run h ↔
      G h (.claimApprovalConsumed key at') ∧ ∀ reply : Except AuditError Bool,
        A h ⟨.claimApprovalConsumed key at', reply⟩ →
          Q (⟨.claimApprovalConsumed key at', reply⟩ :: h) reply :=
  safe_call (I := Device) (.claimApprovalConsumed key at') id

@[simp] theorem safe_setExecutionRecoveryState {key : ApprovalKey}
    {state : ExecutionRecoveryState} {at' : ℕ}
    {Q : History Device → Except AuditError Unit → Prop} :
    Safe A G Q (Ledger.setExecutionRecoveryState key state at').run h ↔
      G h (.setExecutionRecoveryState key state at') ∧ ∀ reply : Except AuditError Unit,
        A h ⟨.setExecutionRecoveryState key state at', reply⟩ →
          Q (⟨.setExecutionRecoveryState key state at', reply⟩ :: h) reply :=
  safe_call (I := Device) (.setExecutionRecoveryState key state at') id

@[simp] theorem safe_selectEvents
    {Q : History Device → Except AuditError (List AuditEvent) → Prop} :
    Safe A G Q Ledger.selectEvents.run h ↔
      G h .selectEvents ∧ ∀ reply : Except AuditError (List AuditEvent),
        A h ⟨.selectEvents, reply⟩ → Q (⟨.selectEvents, reply⟩ :: h) reply :=
  safe_call (I := Device) (.selectEvents) id

@[simp] theorem safe_insertConsumption {key : ApprovalKey} {at' : ℕ}
    {Q : History Device → Except AuditError Unit → Prop} :
    Safe A G Q (Ledger.insertConsumption key at').run h ↔
      G h (.insertConsumption key at') ∧ ∀ reply : Except AuditError Unit,
        A h ⟨.insertConsumption key at', reply⟩ →
          Q (⟨.insertConsumption key at', reply⟩ :: h) reply :=
  safe_call (I := Device) (.insertConsumption key at') id

@[simp] theorem safe_evaluatePolicy {ε : Type} {policy : PolicyEngine} {request : ActionRequest}
    {Q : History Device → Except ε PolicyDecision → Prop} :
    Safe A G Q (evaluatePolicy policy request).run h ↔
      G h (.evaluate policy request) ∧ ∀ decision : PolicyDecision,
        A h ⟨.evaluate policy request, decision⟩ →
          Q (⟨.evaluate policy request, decision⟩ :: h) (.ok decision) :=
  safe_call (I := Device) (.evaluate policy request) fun decision =>
    (Except.ok decision : Except ε PolicyDecision)

@[simp] theorem safe_verifyApproval {verifier : ApprovalVerifier} {request : ActionRequest}
    {decision : PolicyDecision} {approval : SignedApproval} {now : ℕ}
    {Q : History Device → Except ApprovalError Unit → Prop} :
    Safe A G Q (verifyApproval verifier request decision approval now).run h ↔
      G h (.verifyApproval verifier request decision approval now) ∧
        ∀ reply : Except ApprovalError Unit,
          A h ⟨.verifyApproval verifier request decision approval now, reply⟩ →
            Q (⟨.verifyApproval verifier request decision approval now, reply⟩ :: h) reply :=
  safe_call (I := Device) (.verifyApproval verifier request decision approval now) id

@[simp] theorem safe_issueChallenge {request : ActionRequest} {decision : PolicyDecision}
    {now expires : ℕ} {Q : History Device → Except ApprovalError ApprovalChallenge → Prop} :
    Safe A G Q (issueChallenge request decision now expires).run h ↔
      G h (.issueChallenge request decision now expires) ∧
        ∀ reply : Except ApprovalError ApprovalChallenge,
          A h ⟨.issueChallenge request decision now expires, reply⟩ →
            Q (⟨.issueChallenge request decision now expires, reply⟩ :: h) reply :=
  safe_call (I := Device) (.issueChallenge request decision now expires) id

variable {dispatcher : Dispatcher}

@[simp] theorem safe_prepareEdit {authorization : Authorization} {edits : List TextEdit}
    {Q : History Device → Except FsError PreparedEdit → Prop} :
    Safe A G Q (dispatcher.prepareEdit authorization edits).run h ↔
      G h (.prepareEdit dispatcher authorization edits) ∧ ∀ reply : Except FsError PreparedEdit,
        A h ⟨.prepareEdit dispatcher authorization edits, reply⟩ →
          Q (⟨.prepareEdit dispatcher authorization edits, reply⟩ :: h) reply :=
  safe_call (I := Device) (.prepareEdit dispatcher authorization edits) id

@[simp] theorem safe_executeAuthorized {authorization : Authorization}
    {Q : History Device → Except DispatchError WorkerOutput → Prop} :
    Safe A G Q (dispatcher.executeAuthorized authorization).run h ↔
      G h (.executeAuthorized dispatcher authorization) ∧
        ∀ reply : Except DispatchError WorkerOutput,
          A h ⟨.executeAuthorized dispatcher authorization, reply⟩ →
            Q (⟨.executeAuthorized dispatcher authorization, reply⟩ :: h) reply :=
  safe_call (I := Device) (.executeAuthorized dispatcher authorization) id

@[simp] theorem safe_executeApproved {execution : ExecutionAuthorization}
    {Q : History Device → Except DispatchError WorkerOutput → Prop} :
    Safe A G Q (dispatcher.executeApproved execution).run h ↔
      G h (.executeApproved dispatcher execution) ∧ ∀ reply : Except DispatchError WorkerOutput,
        A h ⟨.executeApproved dispatcher execution, reply⟩ →
          Q (⟨.executeApproved dispatcher execution, reply⟩ :: h) reply :=
  safe_call (I := Device) (.executeApproved dispatcher execution) id

end Rules

end VorCommander
