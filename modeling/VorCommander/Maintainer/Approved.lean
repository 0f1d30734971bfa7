import VorCommander.Device.OneShot
import VorCommander.Maintainer.Authority
import VorCommander.Text.Delimited

/-!
The plan that is carried out.

Everything an update or a recovery does after its authorisation carries the plan that
was loaded. Whether that is the plan an owner has signed depends on two contents of its
file: the one that was hashed first and the one that was loaded after that. The file is
hashed once more, but not loaded again.
-/

namespace VorCommander

open Crypto Steps Steps.Program Text

namespace Maintainer

variable {L : Libraries} {C : MaintenanceCodec} {h : History Maintenance}
  {args : AuthorizedPlanArgs} {action : MaintenanceAction} {plan : UpdatePlan}

/-! ### The plan of an operation -/

/-- Operations that carry this plan or none. -/
def Carries (plan : UpdatePlan) (op : MaintainerOp) : Prop :=
  ∀ carried, op.carries = some carried → carried = plan

theorem carries_of_none {op : MaintainerOp} (hop : op.carries = none) : Carries plan op := by
  intro carried h
  rw [hop] at h
  cases h

theorem carries_of_some {op : MaintainerOp} (hop : op.carries = some plan) : Carries plan op := by
  intro carried h
  exact Option.some.inj (h.symm.trans hop)

theorem only_call {α : Type} {kind : MaintainerOp → Prop} (op : MaintainerOp) (hop : kind op)
    (f : op.Reply → α) :
    Only kind (.step op fun reply => .done (f reply) : Program Maintenance α) :=
  .bind (.perform (I := Maintenance) hop) fun reply => .done (f reply)

theorem only_sha256File (path : String) : Only (Carries plan) (sha256File L path).run :=
  .exceptT_bind (only_call (.read path) (carries_of_none rfl) (Except.mapError _))
    fun _ => .pure _

theorem only_consumeAuthorization {kind : MaintainerOp → Prop}
    (hdirectory : ∀ path, kind (.createDirAll path))
    (hmarker : ∀ path evidence, kind (.createMarker path evidence)) (update : ValidatedUpdate)
    (evidence : AuthorizationEvidence) :
    Only kind (consumeAuthorization update evidence).run := by
  refine .exceptT_bind (.check _) fun directory => ?_
  refine .exceptT_bind (only_call _ (hdirectory directory) (Except.mapError _)) fun _ => ?_
  exact only_call _ (hmarker _ evidence) (Except.mapError _)

theorem only_createResultParent {kind : MaintainerOp → Prop}
    (hdirectory : ∀ path, kind (.createDirAll path)) (path : String) :
    Only kind (createResultParent path).run :=
  .exceptT_bind (.check _) fun directory => only_call _ (hdirectory directory) (Except.mapError _)

theorem only_createLogParent (path : String) : Only (Carries plan) (createLogParent path).run :=
  .exceptT_bind (.check _) fun directory =>
    only_call (.createDirAll directory) (carries_of_none rfl) id

theorem only_spawnTarget (update : ValidatedUpdate) :
    Only (Carries update.plan) (spawnTarget update).run := by
  refine .exceptT_bind (only_createLogParent update.stdoutLog) fun _ => ?_
  refine .exceptT_bind (only_createLogParent update.stderrLog) fun _ => ?_
  refine .exceptT_bind (only_call (.openLog _) (carries_of_none rfl) id) fun _ => ?_
  refine .exceptT_bind (only_call (.openLog _) (carries_of_none rfl) id) fun _ => ?_
  exact only_call (.spawn update) (carries_of_some rfl) id

theorem only_report (update : ValidatedUpdate) (status : String) (newPid : Option ℕ)
    (text : String) : Only (Carries plan) (report L update status newPid text).run := by
  refine .exceptT_bind (.lift (.map (only_sha256File update.target) _)) fun _ => ?_
  exact only_call (.writeResult _ _) (carries_of_none rfl) (Except.mapError _)

theorem only_remainsAlive (pid millis : ℕ) :
    Only (Carries plan) (onHost (perform (I := Maintenance) (.remainsAlive pid millis))).run :=
  only_call (.remainsAlive pid millis) (carries_of_none rfl) (Except.mapError _)

theorem only_rollbackAndRestart (transaction : ValidatedUpdate) (failedPid : Option ℕ)
    (reason : String) :
    Only (Carries transaction.plan) (rollbackAndRestart L transaction failedPid reason).run := by
  refine .exceptT_bind (only_call (.rollback transaction) (carries_of_some rfl)
    (Except.mapError _)) fun _ => ?_
  refine .exceptT_bind (.lift (only_spawnTarget transaction)) fun launched => ?_
  cases launched with
  | ok oldNewPid =>
      refine .exceptT_bind (only_remainsAlive _ _) fun alive => ?_
      exact .exceptT_bind (only_report transaction _ _ _) fun _ => .throw _
  | error error => exact .exceptT_bind (only_report transaction _ _ _) fun _ => .throw _

theorem only_commitUpdate (update transaction : ValidatedUpdate) (newPid : ℕ) :
    Only (Carries transaction.plan) (commitUpdate L update transaction newPid).run := by
  refine .exceptT_bind (only_call (.commit transaction) (carries_of_some rfl)
    (Except.mapError _)) fun _ => ?_
  refine .exceptT_bind ((only_sha256File update.target).adapt _) fun _ => ?_
  exact only_call (.writeResult _ _) (carries_of_none rfl) (Except.mapError _)

theorem only_startUpdated (update transaction : ValidatedUpdate) :
    Only (Carries transaction.plan) (startUpdated L update transaction).run := by
  refine .exceptT_bind (.lift (only_spawnTarget transaction)) fun launched => ?_
  cases launched with
  | ok newPid =>
      refine .exceptT_bind (only_remainsAlive _ _) fun alive => ?_
      cases alive with
      | true => exact only_commitUpdate update transaction newPid
      | false =>
          refine .exceptT_bind (.lift (only_call (.kill newPid) (carries_of_none rfl) id))
            fun _ => ?_
          refine .exceptT_bind (.lift (only_call (.wait newPid) (carries_of_none rfl) id))
            fun _ => ?_
          exact only_rollbackAndRestart transaction (some newPid) _
  | error error => exact only_rollbackAndRestart transaction none _

/-- From the end of the old agent on, everything carries the plan of the update. -/
theorem only_replaceAgent (update : ValidatedUpdate) :
    Only (Carries update.plan) (replaceAgent L update).run := by
  refine .exceptT_bind (only_call (.begin update.plan) (carries_of_some rfl)
    (Except.mapError _)) fun paths => ?_
  refine .exceptT_bind (.lift (only_call (.swap ⟨paths, update.plan⟩) (carries_of_some rfl) id))
    fun swapped => ?_
  cases swapped with
  | ok _ => exact only_startUpdated update ⟨paths, update.plan⟩
  | error error => exact .exceptT_bind (only_report update _ _ _) fun _ => .throw _

/-! ### The plan of a run -/

/-- What carries a plan is done after the plan has been authorised. -/
def Carried (L : Libraries) (C : MaintenanceCodec) (args : AuthorizedPlanArgs)
    (action : MaintenanceAction) (h : History Maintenance) (op : MaintainerOp) : Prop :=
  ∀ plan, op.carries = some plan → Authorized L C args action plan h

theorem carried_of_prepares {op : MaintainerOp} (hop : op.prepares = true) :
    Carried L C args action h op := by
  intro plan hcarries
  rw [MaintainerOp.carries_of_prepares hop] at hcarries
  cases hcarries

/-- What carries one plan may follow its authorisation. -/
theorem safe_of_only {α : Type} {p : MaintainerM α} (hp : Only (Carries plan) p.run)
    (hauthorized : Authorized L C args action plan h) :
    Safe AnyReply (Carried L C args action) (WhenOk fun h' _ => Authorized L C args action plan h')
      p.run h := by
  have hkeeps := hp.keeps (fun e _ => Authorized.cons e) hauthorized
  refine (hkeeps.mono fun h' _ hauthorized _ _ => hauthorized).guarantee ?_
  rintro h' op ⟨hop, hauthorized⟩ carried hcarries
  rw [hop carried hcarries]
  exact hauthorized

/-- The plan that was loaded is authorised with the digest that was hashed. -/
theorem safe_authorize {β : Type} {f : ValidatedUpdate → AuthorizationEvidence → MaintainerM β}
    {Q : History Maintenance → β → Prop} (hnone : contentsOf args.planPath h = [])
    (hf : ∀ h' update evidence, Authorized L C args action update.plan h' →
      Safe AnyReply (Carried L C args action) (WhenOk Q) (f update evidence).run h') :
    Safe AnyReply (Carried L C args action) (WhenOk Q) (do
      let update ← loadVerified L C action args.planPath args.planSha256
      let evidence ← verifyAuthorization L C args action update
      f update evidence : MaintainerM β).run h := by
  refine whenOk_bind ((safe_loadVerified hnone).guarantee fun _ _ => carried_of_prepares) ?_
  rintro h₁ update ⟨hashed, loaded, hloaded⟩
  have hsigned : Safe AnyReply Prepares
      (WhenOk fun h' _ => ∃ request, SignedFor L C args action request h')
      (verifyAuthorization L C args action update).run h₁ := safe_verifyAuthorization update
  have hkeeps := hsigned.keeps (fun e _ => LoadedFrom.cons e) hloaded
  refine whenOk_bind (R := fun h' _ => Authorized L C args action update.plan h') ?_
    fun h₂ evidence hauthorized => hf h₂ update evidence hauthorized
  refine (hkeeps.guarantee fun _ _ hop => carried_of_prepares hop.1).mono ?_
  rintro h₂ r ⟨hsigned, hloaded⟩ evidence hok
  exact ⟨⟨hashed, loaded, hloaded⟩, hsigned evidence hok⟩

theorem safe_prepareUpdate :
    Safe AnyReply (Carried L C args .apply)
      (WhenOk fun h' update => Authorized L C args .apply update.plan h')
      (prepareUpdate L C args).run [] := by
  refine whenOk_bind (whenOk_call (.sleep applyGraceMs) Except.ok (carried_of_prepares rfl)) ?_
  rintro _ _ ⟨slept, rfl, -⟩
  refine safe_authorize rfl fun h₁ update evidence hauthorized => ?_
  refine whenOk_bind (safe_of_only (only_createResultParent (fun _ => carries_of_none rfl) _)
    hauthorized) ?_
  intro h₂ _ hauthorized
  refine whenOk_bind (safe_of_only (only_call (.openProcess _ update.target)
    (carries_of_none rfl) (Except.mapError _)) hauthorized) ?_
  intro h₃ currentProcess hauthorized
  refine whenOk_bind (safe_of_only (only_consumeAuthorization (fun _ => carries_of_none rfl)
    (fun _ _ => carries_of_none rfl) update evidence) hauthorized) ?_
  intro h₄ _ hauthorized
  refine whenOk_bind (safe_of_only (only_call (.terminate currentProcess _)
    (carries_of_none rfl) (Except.mapError _)) hauthorized) ?_
  intro h₅ _ hauthorized
  exact whenOk_pure hauthorized

theorem safe_applyUpdate :
    Safe AnyReply (Carried L C args .apply) (WhenOk fun _ _ => True)
      (applyUpdate L C args).run [] :=
  whenOk_bind safe_prepareUpdate fun _ update hauthorized =>
    (safe_of_only (only_replaceAgent update) hauthorized).mono fun _ _ _ _ _ => trivial

theorem safe_recoverUpdate :
    Safe AnyReply (Carried L C args .recover) (WhenOk fun _ _ => True)
      (recoverUpdate L C args).run [] := by
  refine safe_authorize rfl fun h₁ validated evidence hauthorized => ?_
  refine whenOk_bind (safe_of_only (only_consumeAuthorization (fun _ => carries_of_none rfl)
    (fun _ _ => carries_of_none rfl) validated evidence) hauthorized) ?_
  intro h₂ _ hauthorized
  refine whenOk_bind (safe_of_only (only_call (.recoverPrevious validated.plan)
    (carries_of_some rfl) (Except.mapError _)) hauthorized) ?_
  intro h₃ paths hauthorized
  refine whenOk_bind (safe_of_only ((only_spawnTarget ⟨paths, validated.plan⟩).adapt _)
    hauthorized) ?_
  intro h₄ pid hauthorized
  refine whenOk_bind (safe_of_only (only_remainsAlive _ _) hauthorized) ?_
  intro h₅ alive hauthorized
  refine whenOk_bind (safe_of_only (only_report _ _ _ _) hauthorized) ?_
  intro h₆ _ _
  exact (whenOk_check _).mono fun _ _ _ _ _ => trivial

/-! ### The approved plan -/

/-- What `main` does for each action. -/
def maintain (L : Libraries) (C : MaintenanceCodec) (args : AuthorizedPlanArgs) :
    MaintenanceAction → MaintainerM Unit
  | .apply => applyUpdate L C args
  | .recover => recoverUpdate L C args

/-- The plan is what some bytes say whose digest is the one in a request an owner has
signed. -/
def PlanApproved (L : Libraries) (C : MaintenanceCodec) (args : AuthorizedPlanArgs)
    (action : MaintenanceAction) (plan : UpdatePlan) (h : History Maintenance) : Prop :=
  ∃ request digest bytes, SignedFor L C args action request h ∧
    request.envelope.parameters["plan_sha256"]?.bind Value.asStr = some digest ∧
    eqIgnoreAsciiCase digest (sha256Hex L.toPrimitives bytes) = true ∧ C.plan bytes = .ok plan

/-- The first two contents of the plan file say the same, or other bytes with the digest of
the first say what the second says. -/
def ReadsAgree (L : Libraries) (C : MaintenanceCodec) (path : String) (h : History Maintenance) :
    Prop :=
  ∃ later hashed loaded, contentsOf path h = later ++ [loaded, hashed] ∧
    (C.plan loaded = C.plan hashed ∨
      ∃ bytes, bytes ≠ hashed ∧ L.sha256 bytes = L.sha256 hashed ∧ C.plan bytes = C.plan loaded)

theorem eq_of_sha256Hex {P : Primitives} {bytes bytes' : List UInt8} {digest : String}
    (h : eqIgnoreAsciiCase digest (sha256Hex P bytes) = true)
    (h' : eqIgnoreAsciiCase digest (sha256Hex P bytes') = true) :
    P.sha256 bytes = P.sha256 bytes' := by
  rw [eqIgnoreAsciiCase, decide_eq_true_eq, sha256Hex, asciiLower_hexEncode] at h h'
  have hhex := hexEncode_injective (String.toList_inj.mp (h.symm.trans h'))
  exact Vector.toList_inj.mp hhex

/-- For an authorised plan, only the digest of the bytes that were hashed matters. -/
theorem Authorized.planApproved_iff (hauthorized : Authorized L C args action plan h)
    {hashed loaded : List UInt8} (hloaded : LoadedFrom L C args plan hashed loaded h) :
    PlanApproved L C args action plan h ↔
      ∃ bytes, L.sha256 bytes = L.sha256 hashed ∧ C.plan bytes = .ok plan := by
  have hnormal : ∀ {digest}, eqIgnoreAsciiCase digest (toAsciiLowercase (trim args.planSha256)) →
      eqIgnoreAsciiCase digest (sha256Hex L.toPrimitives hashed) = true := by
    intro digest hdigest
    rw [hloaded.digest]
    exact hdigest
  constructor
  · rintro ⟨request, digest, bytes, hsigned, hparameter, hbytes, hplan⟩
    obtain ⟨digest', hparameter', hdigest'⟩ := hsigned.digest
    obtain rfl := Option.some.inj (hparameter.symm.trans hparameter')
    exact ⟨bytes, eq_of_sha256Hex hbytes (hnormal hdigest'), hplan⟩
  · rintro ⟨bytes, hsame, hplan⟩
    obtain ⟨request, hsigned⟩ := hauthorized.signed
    obtain ⟨digest, hparameter, hdigest⟩ := hsigned.digest
    have hhex : sha256Hex L.toPrimitives bytes = sha256Hex L.toPrimitives hashed :=
      congrArg (fun hash : Hash => hexEncode hash.toList) hsame
    exact ⟨request, digest, bytes, hsigned, hparameter, by rw [hhex]; exact hnormal hdigest, hplan⟩

/-- The contents that were read are determined by the history. -/
theorem LoadedFrom.readsAgree_iff {hashed loaded : List UInt8}
    (hloaded : LoadedFrom L C args plan hashed loaded h) :
    ReadsAgree L C args.planPath h ↔
      ∃ bytes, L.sha256 bytes = L.sha256 hashed ∧ C.plan bytes = .ok plan := by
  constructor
  · rintro ⟨later, hashed', loaded', hreads, hagree⟩
    obtain ⟨later', hreads'⟩ := hloaded.reads
    have htail : [loaded', hashed'] = [loaded, hashed] :=
      (List.append_inj' (hreads.symm.trans hreads') rfl).2
    obtain ⟨hsecond, htail⟩ := List.cons.inj htail
    have hfirst := (List.cons.inj htail).1
    rw [hsecond, hfirst] at hagree
    rcases hagree with hsame | ⟨bytes, -, hsha, hsame⟩
    · exact ⟨hashed, rfl, hsame.symm.trans hloaded.parses⟩
    · exact ⟨bytes, hsha, hsame.trans hloaded.parses⟩
  · rintro ⟨bytes, hsha, hplan⟩
    obtain ⟨later, hreads⟩ := hloaded.reads
    refine ⟨later, hashed, loaded, hreads, ?_⟩
    by_cases heq : bytes = hashed
    · subst heq
      exact .inl (hloaded.parses.trans hplan.symm)
    · exact .inr ⟨bytes, heq, hsha, hplan.trans hloaded.parses.symm⟩

/-- Every operation that carries a plan comes after its authorisation. -/
theorem safe_maintain (action : MaintenanceAction) :
    Safe AnyReply (Carried L C args action) (WhenOk fun _ _ => True)
      (maintain L C args action).run [] := by
  cases action with
  | apply => exact safe_applyUpdate
  | recover => exact safe_recoverUpdate

theorem respects_anyReply (h : History Maintenance) : Respects AnyReply h := by
  induction h with
  | nil => trivial
  | cons e h ih => exact ⟨trivial, ih⟩

/-- At every moment of a run, the plan that is carried out is approved exactly if the plan
file said the same when it was hashed and when it was loaded. -/
theorem carried_approved_iff (L : Libraries) (C : MaintenanceCodec) (args : AuthorizedPlanArgs)
    (action : MaintenanceAction) {q : Program Maintenance (Except MaintainerError Unit)}
    {e : Event Maintenance} {later earlier : History Maintenance} {plan : UpdatePlan}
    (path : Path (maintain L C args action).run (later ++ e :: earlier) q)
    (hcarries : e.op.carries = some plan) :
    PlanApproved L C args action plan earlier ↔ ReadsAgree L C args.planPath earlier := by
  have hauthorized : Authorized L C args action plan earlier :=
    path.guarantee (safe_maintain action) (respects_anyReply earlier) plan hcarries
  obtain ⟨hashed, loaded, hloaded⟩ := hauthorized.loaded
  rw [hauthorized.planApproved_iff hloaded, hloaded.readsAgree_iff]

/-! ### A plan that is rewritten -/

namespace Rewritten

def currentSha256 : String := String.ofList (List.replicate 64 'a')

def stagedSha256 : String := String.ofList (List.replicate 64 'b')

/-- A plan file, with the arguments of the agent as JSON. -/
def planText (arguments : String) : List UInt8 :=
  utf8 ("\x7b\"schema\":1,\"request_id\":\"update\",\"allowed_root\":\"C:\\\\v\"," ++
    "\"target_executable\":\"C:\\\\v\\\\a.exe\",\"staged_executable\":\"C:\\\\v\\\\b.exe\"," ++
    "\"expected_current_sha256\":\"" ++ currentSha256 ++ "\"," ++
    "\"expected_staged_sha256\":\"" ++ stagedSha256 ++ "\"," ++
    "\"journal_directory\":\"C:\\\\v\\\\j\",\"result_file\":\"C:\\\\v\\\\r\",\"current_pid\":7," ++
    "\"restart\":\x7b\"args\":" ++ arguments ++ ",\"working_directory\":\"C:\\\\v\"," ++
    "\"stdout_log\":\"C:\\\\v\\\\o\",\"stderr_log\":\"C:\\\\v\\\\e\",\"health_wait_ms\":1000\x7d\x7d")

/-- The plan in that file. -/
def planWith (arguments : List String) : UpdatePlan where
  schema := 1
  requestId := "update"
  allowedRoot := "C:\\v"
  targetExecutable := "C:\\v\\a.exe"
  stagedExecutable := "C:\\v\\b.exe"
  expectedCurrentSha256 := currentSha256
  expectedStagedSha256 := stagedSha256
  journalDirectory := "C:\\v\\j"
  resultFile := "C:\\v\\r"
  currentPid := 7
  restart :=
    { args := arguments, environment := ∅, workingDirectory := "C:\\v", stdoutLog := "C:\\v\\o"
      stderrLog := "C:\\v\\e", healthWaitMs := 1000 }

def paths : ResolvedPaths where
  root := "C:\\v"
  target := "C:\\v\\a.exe"
  staged := "C:\\v\\b.exe"
  workingDirectory := "C:\\v"
  backup := "C:\\v\\j\\update.previous.exe"
  temp := "C:\\v\\a.exe.update"
  journal := "C:\\v\\j\\update.json"
  resultFile := "C:\\v\\r"
  stdoutLog := "C:\\v\\o"
  stderrLog := "C:\\v\\e"

def planSha256 : String := "5435053f71ff66ee5826157e9768dc9cfa849243e9fae44bd8f162a12cfb7aa5"

/-- The plan without arguments is the one that is approved. -/
def approvedArgs : AuthorizedPlanArgs where
  planPath := "C:\\v\\plan.json"
  planSha256 := planSha256
  requestFile := "C:\\v\\request.b64"
  approvalFile := "C:\\v\\approval.b64"
  approversFile := "C:\\v\\approvers.json"

def parameters : Parameters := .ofList (α := String) (β := Value)
  [("plan_sha256", .string planSha256), ("expected_current_sha256", .string currentSha256),
   ("expected_staged_sha256", .string stagedSha256),
   ("staged_executable", .string "C:\\v\\b.exe"), ("allowed_root", .string "C:\\v"),
   ("current_pid", .posInt 7)]

def request : ActionRequest :=
  Sample.request (Sample.envelope "maintenance.apply" "C:\\v\\a.exe" parameters)

def approval : SignedApproval :=
  Sample.signed { Sample.challenge request with
    policyId := "maintenance-local", requiredCapability := some "owner" }

/-- The message of the request. -/
def requestProto : V1.ActionRequest where
  requestId := "request"
  organizationId := "local"
  actorId := "agent"
  deviceId := "device"
  action := "maintenance.apply"
  target := "C:\\v\\a.exe"
  parametersJson := (Value.object parameters.toList).toBytes
  requestedCapabilities := []
  expiresAt := some { seconds := 1, nanos := 0 }
  nonce := List.replicate 16 7
  envelopeDigest := request.envelopeDigest.toList

/-- The message of the approval. -/
def approvalProto : V1.ApprovalGrant where
  requestId := "request"
  approverId := "approver"
  envelopeDigest := request.envelopeDigest.toList
  expiresAt := some { seconds := 1, nanos := 0 }
  signature := approval.signature.toList
  policyId := "maintenance-local"
  requiredCapability := "owner"
  approvalNonce := List.replicate 32 0

/-- The one trusted approver. -/
def entry : TrustedApproverEntry where
  approverId := "approver"
  publicKeyBase64 := "AQEBAQEBAQEBAQEBAQEBAQEBAQEBAQEBAQEBAQEBAQE="
  authority := "owner"

/-- Readers of plans without arguments and with one, and of one request, one approval and
one list of approvers, which are files that hold their names. -/
def codec : MaintenanceCodec where
  plan content :=
    if content = planText "[]" then .ok (planWith [])
    else if content = planText "[\"--debug\"]" then .ok (planWith ["--debug"])
    else .error "expected value"
  request message := if message = utf8 "request" then .ok requestProto else .error "wire type"
  approval message := if message = utf8 "approval" then .ok approvalProto else .error "wire type"
  approvers content :=
    if content = utf8 "approvers" then .ok [entry] else .error "expected value"

abbrev libraries : Libraries := Sample.libraries parameters

theorem planSha256_eq : normalizeSha256 approvedArgs.planSha256 =
    .ok (sha256Hex libraries.toPrimitives (planText "[]")) := by decide +kernel

theorem request_valid : validateEnvelope request.envelope = .ok () := by decide

theorem parameters_received : Wire.receivedParameters libraries requestProto.parametersJson =
    .ok parameters := by
  have hne : requestProto.parametersJson.isEmpty = false := by
    have hbytes : (Value.object parameters.toList).toBytes ≠ [] := Value.toBytes_object_ne_nil _
    simpa [requestProto] using hbytes
  have hparse : libraries.parseParameters requestProto.parametersJson = some parameters := by
    simp only [libraries, Sample.libraries, requestProto, if_true]
  rw [Wire.receivedParameters, hne, if_neg Bool.false_ne_true, hparse, orFail_some]

theorem request_received : Wire.actionRequestFromProto libraries requestProto = .ok request := by
  have hdigest : toFixed 32 requestProto.envelopeDigest = some request.envelopeDigest :=
    toFixed_toList _
  have hexpiry : Wire.requiredExpiry requestProto.expiresAt = .ok 1000 := by decide
  have hseal : ActionRequest.sealEnvelope libraries.toPrimitives request.envelope = .ok request :=
    ActionRequest.sealEnvelope_eq_ok_iff.mpr ⟨request_valid, rfl⟩
  rw [Wire.actionRequestFromProto, hdigest, orFail_some, ok_bind, hexpiry, ok_bind,
    parameters_received, ok_bind]
  refine bind_eq_ok.mpr ⟨request, mapError_eq_ok.mpr hseal, ?_⟩
  rw [failIf_of_false (fun hne => hne rfl)]
  rfl

theorem approval_received : Wire.approvalGrantFromProto approvalProto = .ok approval := by
  have hdigest : toFixed 32 approvalProto.envelopeDigest = some request.envelopeDigest :=
    toFixed_toList _
  have hsignature : toFixed 64 approvalProto.signature = some approval.signature :=
    toFixed_toList _
  have hnonce : toFixed 32 approvalProto.approvalNonce = some (Vector.replicate 32 0) := by decide
  have hexpiry : Wire.requiredExpiry approvalProto.expiresAt = .ok 1000 := by decide
  rw [Wire.approvalGrantFromProto, failIf_of_false (by decide), ok_bind, hdigest, orFail_some,
    ok_bind, hsignature, orFail_some, ok_bind, hnonce, orFail_some, ok_bind, hexpiry]
  rfl

theorem approvers_received : verifierOf libraries codec (utf8 "approvers") =
    .ok { approvers := (∅ : Std.ExtTreeMap String TrustedApprover).insert "approver"
            Sample.approver } := by
  have hkey : Base64.decode entry.publicKeyBase64 = some Sample.signingKey.toList := by
    decide
  have hnew : (∅ : Std.ExtTreeMap String TrustedApprover).contains "approver" = false := by decide
  have hentry : addEntry libraries {} entry =
      .ok { approvers := (∅ : Std.ExtTreeMap String TrustedApprover).insert "approver"
              Sample.approver } := by
    rw [addEntry, hkey, orFail_some, ok_bind, toFixed_toList, orFail_some, ok_bind]
    rfl
  rw [verifierOf]
  simp only [codec, if_true]
  exact hentry

theorem request_checked (arguments : List String) :
    checkRequest .apply ⟨paths, planWith arguments⟩
      (toAsciiLowercase (trim approvedArgs.planSha256)) request =
      .ok () := by
  -- the arguments are not among what is compared
  have hsame : checkRequest .apply ⟨paths, planWith arguments⟩
      (toAsciiLowercase (trim approvedArgs.planSha256)) request =
        checkRequest .apply ⟨paths, planWith []⟩
      (toAsciiLowercase (trim approvedArgs.planSha256)) request := rfl
  rw [hsame]
  decide

theorem approval_verified :
    ({ approvers :=
      (∅ : Std.ExtTreeMap String TrustedApprover).insert "approver" Sample.approver } :
      ApprovalVerifier).verify libraries.toPrimitives request (maintenanceDecision request) approval
        10 = .ok () := by
  refine ApprovalVerifier.verify_eq_ok_iff.mpr
    ⟨Sample.request_verify request_valid (by decide), rfl, rfl, rfl,
      ⟨rfl, rfl, rfl, rfl, by decide, by decide⟩, Sample.approver, ?_,
      ⟨rfl, ⟨.owner, rfl, by decide⟩, by simp, by simp [Sample.approver]⟩,
      Sample.signed_accepted ?_⟩
  · exact Std.ExtTreeMap.getElem?_insert_self
  · decide

/-- The authorisation is passed with whatever arguments are loaded. -/
theorem reaches (arguments : List String) {loaded : List UInt8}
    (hloaded : codec.plan loaded = .ok (planWith arguments))
    (hshape : validatePlanShape (planWith arguments) = .ok ()) :
    Reaches (prepareUpdate libraries codec approvedArgs) [⟨.terminate 1 7, .ok ()⟩]
      (.done (.ok ⟨paths, planWith arguments⟩)) := by
  have hload : CanPass
    (loadVerified libraries codec .apply approvedArgs.planPath approvedArgs.planSha256)
      ⟨paths, planWith arguments⟩ := canPass_loadVerified planSha256_eq hloaded hshape
  have hrequest : codec.request (utf8 "request") = .ok requestProto := by
    simp only [codec, if_true]
  have happroval : codec.approval (utf8 "approval") = .ok approvalProto := by
    simp only [codec, if_true]
  have hrequestText : Base64.decode (trim "cmVxdWVzdA==") = some (utf8 "request") := by
    decide
  have happrovalText : Base64.decode (trim "YXBwcm92YWw=") = some (utf8 "approval") := by
    decide
  obtain ⟨evidence, hverify⟩ := canPass_verifyAuthorization [] planSha256_eq hrequestText hrequest
    request_received (request_checked arguments) happrovalText happroval approval_received
    approvers_received approval_verified
  have hresult : WindowsPath.parent paths.resultFile = some "C:\\v" := by decide
  have hjournal : WindowsPath.parent paths.journal = some "C:\\v\\j" := by decide
  exact reaches_prepareUpdate hload hverify hresult hjournal 1

theorem plan_approved : codec.plan (planText "[]") = .ok (planWith []) := by
  simp only [codec, if_true]

theorem plan_other : codec.plan (planText "[\"--debug\"]") = .ok (planWith ["--debug"]) := by
  have hne : planText "[\"--debug\"]" ≠ planText "[]" := by decide +kernel
  simp only [codec, hne, if_false, if_true]

theorem eq_of_plan {bytes : List UInt8} (h : codec.plan bytes = .ok (planWith ["--debug"])) :
    bytes = planText "[\"--debug\"]" := by
  simp only [codec] at h
  split_ifs at h with happroved hother
  · have harguments : [] = ["--debug"] :=
      congrArg (fun plan : UpdatePlan => plan.restart.args) (Except.ok.inj h)
    cases harguments
  · exact hother

theorem sha256_ne :
    libraries.sha256 (planText "[\"--debug\"]") ≠ libraries.sha256 (planText "[]") := by
  decide +kernel

/-- A run that carries the plan with the argument. -/
theorem carried : ∃ earlier q,
    Path (maintain libraries codec approvedArgs .apply).run
      (⟨.begin (planWith ["--debug"]), .ok paths⟩ :: earlier) q := by
  obtain ⟨h, path, -⟩ := reaches ["--debug"] plan_other (by decide)
  exact ⟨_, _, path.exceptT_bind (f := replaceAgent libraries)
    (path_op (.begin (planWith ["--debug"])) _ (.ok paths))⟩

end Rewritten

/-- A plan that is put in the place of the approved one while it is loaded is carried
out. -/
theorem rewritten_plan_carried : ∃ earlier q plan,
    Path (maintain Rewritten.libraries Rewritten.codec Rewritten.approvedArgs .apply).run
      (⟨.begin plan, .ok Rewritten.paths⟩ :: earlier) q ∧
    ¬ PlanApproved Rewritten.libraries Rewritten.codec Rewritten.approvedArgs .apply plan
      earlier := by
  obtain ⟨earlier, q, path⟩ := Rewritten.carried
  refine ⟨earlier, q, Rewritten.planWith ["--debug"], path, ?_⟩
  rintro ⟨request, digest, bytes, hsigned, hparameter, hbytes, hplan⟩
  obtain ⟨digest', hparameter', hdigest⟩ := hsigned.digest
  obtain rfl := Option.some.inj (hparameter.symm.trans hparameter')
  rw [← normalizeSha256_eq_ok Rewritten.planSha256_eq] at hdigest
  rw [Rewritten.eq_of_plan hplan] at hbytes
  exact Rewritten.sha256_ne (eq_of_sha256Hex hbytes hdigest)

open Rewritten in
/-- That run, at the moment at which the plan is carried out. -/
theorem carried_approved_iff_rewritten : ∃ earlier q,
    Path (maintain libraries codec approvedArgs .apply).run
      (⟨.begin (planWith ["--debug"]), .ok paths⟩ :: earlier) q ∧
    (PlanApproved libraries codec approvedArgs .apply (planWith ["--debug"]) earlier ↔
      ReadsAgree libraries codec approvedArgs.planPath earlier) := by
  obtain ⟨earlier, q, path⟩ := Rewritten.carried
  have path : Path (maintain libraries codec approvedArgs .apply).run
    ([] ++ ⟨.begin (planWith ["--debug"]), .ok paths⟩ :: earlier) q := path
  exact ⟨earlier, q, path, carried_approved_iff _ _ _ _ path rfl⟩

end Maintainer

end VorCommander
