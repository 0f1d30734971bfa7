import VorCommander.Device.Working

/-!
One execution for each approval.

However many dispatchers share a ledger, whatever fails and whenever a
process ends, an approved action is handed to a worker at most once for each
request identifier and digest. The claim of the consumption decides: it is
made once for a key, and the call that made it runs its worker once.
-/

namespace VorCommander

open Crypto Steps Steps.Program Steps.World Text DeviceEvent

/-- The key of the approved action that an event executes. -/
def executedKey : Event Device → Option ApprovalKey
  | ⟨.executeApproved _ execution, _⟩ => some execution.authorization.request.key
  | _ => none

/-- The keys executed in a log, the newest first. -/
def executions (log : Log Device) : List ApprovalKey :=
  log.filterMap fun entry => executedKey entry.2

theorem executedKey_eq_some {e : Event Device} {key : ApprovalKey} (h : executedKey e = some key) :
    ∃ d execution reply, e = ⟨.executeApproved d execution, reply⟩ ∧
      execution.authorization.request.key = key := by
  obtain ⟨op, reply⟩ := e
  cases op with
  | executeApproved d execution => exact ⟨d, execution, reply, rfl, Option.some.inj h⟩
  | _ => cases h

theorem mem_executions {log : Log Device} {i : ℕ} {d : Dispatcher}
    {execution : ExecutionAuthorization} {reply : Except DispatchError WorkerOutput}
    (h : (i, ⟨.executeApproved d execution, reply⟩) ∈ log) :
    execution.authorization.request.key ∈ executions log :=
  List.mem_filterMap.mpr ⟨_, h, rfl⟩

section Runs

variable {L : Libraries} {init : Database → Prop} {mayStart : World (deviceSystem L) → Start → Prop}
  {w : World (deviceSystem L)}

/-- What the call that executes has done before: the policy asked for an
approval of this request, the verifier accepted one, and the consumption was
inserted; and it has not executed anything yet. -/
structure Executes (h : History Device) (d : Dispatcher) (execution : ExecutionAuthorization) :
    Prop where
  evaluated : evaluated d.policy execution.authorization.request
    execution.authorization.decision ∈ h
  accepted : ∃ approval now, verified d.approvalVerifier execution.authorization.request
    execution.authorization.decision approval now ∈ h
  claimed : ∃ now, claimed execution.authorization.request.key now ∈ h
  first : NotExecuted h

/-- Every execution of a run is preceded, in its own call, by verification
and claim. -/
theorem executes_of_log (hw : Reachable init mayStart w) {later earlier : Log Device} {i : ℕ}
    {d : Dispatcher} {execution : ExecutionAuthorization}
    {reply : Except DispatchError WorkerOutput}
    (hlog : w.log = later ++ (i, ⟨.executeApproved d execution, reply⟩) :: earlier) :
    Executes (earlier.of i) d execution := by
  obtain ⟨c, _, hguarantee⟩ := guaranteed hw hlog
  cases hentry : c.entry with
  | openLedger => simp [hentry, Start.Guarantee, DeviceOp.isBookkeeping] at hguarantee
  | dispatch d' job now =>
      simp only [hentry, Start.Guarantee, Guarantee] at hguarantee
      obtain ⟨rfl, hvetted, hfirst, approval, _, hconsumed⟩ := hguarantee
      exact ⟨hvetted.evaluated, ⟨approval, now, hconsumed.verified⟩,
        ⟨now, hconsumed.claimed⟩, hfirst⟩

/-- Two executions in one log are of different keys. -/
theorem executedKey_ne (hw : Reachable init mayStart w)
    {later middle earlier : Log Device} {i j : ℕ}
    {e e' : Event Device} {key key' : ApprovalKey}
    (hlog : w.log = later ++ (i, e) :: (middle ++ (j, e') :: earlier))
    (he : executedKey e = some key) (he' : executedKey e' = some key') : key ≠ key' := by
  obtain ⟨d, execution, reply, rfl, rfl⟩ := executedKey_eq_some he
  obtain ⟨d', execution', reply', rfl, rfl⟩ := executedKey_eq_some he'
  have hnew := executes_of_log hw hlog
  have hlog' : w.log = (later ++ (i, ⟨.executeApproved d execution, reply⟩) :: middle) ++
      (j, ⟨.executeApproved d' execution', reply'⟩) :: earlier := by simpa using hlog
  have hold := executes_of_log hw hlog'
  obtain ⟨now, hclaim⟩ := hnew.claimed
  obtain ⟨now', hclaim'⟩ := hold.claimed
  rw [Log.mem_of] at hclaim hclaim'
  intro heq
  -- the claim of the key was made by one call, which would have executed twice
  have hij : i = j := by
    refine (ledgerInvariant_reachable hw).claimedOnce i j _ now now'
      (hlog ▸ List.mem_append_right _ (List.mem_cons_of_mem _ hclaim)) ?_
    rw [heq, hlog]
    simp [hclaim']
  subst hij
  exact hnew.first ⟨_, reply'⟩ (by simp) d' execution' rfl

/-- In every run each pair of request identifier and digest is executed at
most once, and only by a call that has had the approval verified and has
claimed the pair. -/
theorem executeApproved_once (hw : Reachable init mayStart w) :
    (executions w.log).Nodup ∧
      ∀ (later earlier : Log Device) i d execution reply,
        w.log = later ++ (i, ⟨.executeApproved d execution, reply⟩) :: earlier →
        Executes (earlier.of i) d execution := by
  refine ⟨?_, fun later earlier i d execution reply hlog => executes_of_log hw hlog⟩
  rw [executions, List.Nodup, List.pairwise_filterMap, List.pairwise_iff_forall_sublist]
  rintro ⟨i, e⟩ ⟨j, e'⟩ hsub key he key' he'
  obtain ⟨_, _, hsplit, hmem, htail⟩ := List.cons_sublist_iff.mp hsub
  obtain ⟨later, middle, rfl⟩ := List.append_of_mem hmem
  obtain ⟨middle', earlier, rfl⟩ := List.append_of_mem (List.singleton_sublist.mp htail)
  have hlog : w.log = later ++ (i, e) :: ((middle ++ middle') ++ (j, e') :: earlier) := by
    simpa using hsplit
  exact executedKey_ne hw hlog he he'

end Runs

/-! ### A device that asks for every termination -/

namespace Sample

/-- A policy that denies every action. -/
def closedPolicy : PolicyConfig :=
  { version := 1
    policyId := "sample"
    filesystem := []
    terminal :=
      { default := .deny, projectTests := .deny, destructive := .deny, elevated := .deny
        safeExecutablePaths := [], safeCommands := [] }
    process := { list := .deny, inspect := .deny, terminate := .deny }
    browser :=
      { authenticatedSessionUse := .deny, secretExtraction := .deny, publish := .deny
        purchase := .deny }
    desktopEnabled := false
    publicListenerFallback := .deny }

/-- A policy that asks for an approval of every termination. -/
def terminationPolicy : PolicyEngine where
  config := { closedPolicy with process := { closedPolicy.process with terminate := .approval } }
  policyHash := "sample"
  supported := rfl
  named := by decide

def signingKey : Key := Vector.replicate 32 1

/-- The one approver, with the authority of an owner. -/
def approver : TrustedApprover :=
  { key := signingKey, authority := .owner, organizationId := none, revoked := false }

def verifier : ApprovalVerifier :=
  { approvers := (∅ : Std.ExtTreeMap String TrustedApprover).insert "approver" approver }

def dispatcher (policy : PolicyEngine) : Dispatcher where
  deviceId := "device"
  policy := policy
  approvalVerifier := verifier
  allowedRoots := ["C:\\work"]
  journalDir := "C:\\journal"
  gitExecutable := "C:\\git.exe"
  maxOutputBytes := 1024
  named := by decide
  bounded := by decide

/-- A device that knows SHA-256, and the text of one set of parameters. -/
def libraries (known : Parameters) : Libraries where
  toPrimitives := reference
  parseParameters text := if text = (Value.object known.toList).toBytes then some known else none
  encodeActionRequest _ := []

def surroundings : Surroundings where
  host := { canonicalize := some, longPathName := some }
  nonce := Vector.replicate 32 0
  prepareEdit _ _ _ := .error .io
  executeAuthorized _ _ := .ok ([], "text/plain")
  executeApproved _ _ := .ok ([], "text/plain")
  authorized_own _ _ _ := by simp
  approved_own _ _ _ := by simp

def envelope (action target : String) (parameters : Parameters) : ActionEnvelope :=
  { requestId := "request", organizationId := "local", actorId := "agent", deviceId := "device"
    action, target, parameters, requestedCapabilities := [], expiresAtUnixMs := 1000
    nonce := List.replicate 16 7 }

/-- An envelope as it is sealed. -/
def request (envelope : ActionEnvelope) : ActionRequest :=
  { envelope, envelopeDigest := envelope.digest reference }

theorem request_verify {envelope : ActionEnvelope} {now : ℕ}
    (hvalid : validateEnvelope envelope = .ok ()) (hnow : now < envelope.expiresAtUnixMs) :
    (request envelope).verify reference now = .ok () :=
  ActionRequest.verify_eq_ok_iff.mpr ⟨hvalid, rfl, hnow⟩

/-- A challenge over a request under a policy named `sample`, made by hand. -/
def challenge (request : ActionRequest) : ApprovalChallenge :=
  { requestId := request.envelope.requestId
    envelopeDigest := request.envelopeDigest
    policyId := "sample"
    requiredCapability := none
    expiresAtUnixMs := 1000
    approvalNonce := Vector.replicate 32 0 }

/-- The approver's signature over a challenge. -/
def signed (challenge : ApprovalChallenge) : SignedApproval :=
  { challenge
    approverId := "approver"
    signature :=
      reference.sign signingKey ((approvalMessage challenge "approver").toOption.getD []) }

theorem signed_accepted {challenge : ApprovalChallenge}
    (hmessage : (approvalMessage challenge "approver").toOption.isSome) :
    ∃ message, approvalMessage challenge "approver" = .ok message ∧
      reference.verify approver.key message (signed challenge).signature = true := by
  obtain ⟨message, hsome⟩ := Option.isSome_iff_exists.mp hmessage
  refine ⟨message, toOption_eq_some.mp hsome, ?_⟩
  rw [signed, hsome]
  exact reference_correct.verify_sign signingKey message

/-- The termination of a process. -/
def termination : ActionRequest := request (envelope "process.terminate" "4711" ∅)

theorem termination_verify : termination.verify reference 10 = .ok () :=
  request_verify (by decide) (by decide)

theorem termination_accepted :
    verifier.verify reference termination (terminationPolicy.evaluate surroundings.host termination)
      (signed (challenge termination)) 10 = .ok () :=
  ApprovalVerifier.verify_eq_ok_iff.mpr
    ⟨termination_verify, rfl, rfl, rfl, ⟨rfl, rfl, rfl, rfl, by decide, by decide⟩, approver,
      by simp [verifier, signed],
      ⟨rfl, ⟨.approve, rfl, by decide⟩, by simp [verifier], by simp [approver]⟩,
      signed_accepted (by decide)⟩

/-- The world in which a dispatcher on a fresh ledger has been called once. -/
def dispatched (known : Parameters) (policy : PolicyEngine) (job : Job) :
    World (deviceSystem (libraries known)) :=
  called (libraries known) surroundings (initial Database.empty) 0 (dispatcher policy) job 10

theorem dispatched_reachable (known : Parameters) (policy : PolicyEngine) (job : Job) :
    Reachable freshLedger anyEntry (dispatched known policy job) :=
  reachable_called surroundings (dispatcher policy) job 10 (reachable_initial rfl) rfl trivial

/-- The call that has the termination executed. -/
def terminationJob : Job := .dispatchApprovedAt termination (signed (challenge termination))

/-- A dispatcher on a fresh ledger executes the termination. -/
theorem termination_executed :
    ∃ execution reply, execution.authorization.request = termination ∧
      (0, ⟨.executeApproved (dispatcher terminationPolicy) execution, reply⟩) ∈
        (dispatched ∅ terminationPolicy terminationJob).log := by
  have hkind : (terminationPolicy.evaluate surroundings.host termination).kind = .approval := rfl
  obtain ⟨execution, reply, hrequest, hmem⟩ :=
    Dispatch.exec_dispatchApprovedAt (libraries ∅) surroundings
      (dispatcher terminationPolicy) .empty
      rfl rfl termination_verify hkind termination_accepted rfl rfl (by decide) []
  refine ⟨execution, reply, hrequest, ?_⟩
  rw [dispatched, called_log]
  exact List.mem_append_left _ (List.mem_map_of_mem hmem)

end Sample

/-- A run in which an approved action is executed. -/
theorem executeApproved_once_termination :
    let w := Sample.dispatched ∅ Sample.terminationPolicy Sample.terminationJob
    Sample.termination.key ∈ executions w.log ∧ (executions w.log).Nodup ∧
      ∀ (later earlier : Log Device) i d execution reply,
        w.log = later ++ (i, ⟨.executeApproved d execution, reply⟩) :: earlier →
        Executes (earlier.of i) d execution := by
  obtain ⟨execution, reply, hrequest, hmem⟩ := Sample.termination_executed
  have hkey := mem_executions hmem
  rw [hrequest] at hkey
  exact ⟨hkey, executeApproved_once
    (Sample.dispatched_reachable ∅ Sample.terminationPolicy Sample.terminationJob)⟩

end VorCommander
