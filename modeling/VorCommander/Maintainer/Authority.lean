import VorCommander.Maintainer.Program

/-!
What has been authorised.

Before an update does anything, its plan is hashed, loaded and hashed again, and a
request that an owner has signed is compared with it. The sections say what each part
has read and found when it succeeds; what has been read stays read, and what has been
found out about it stays true.
-/

namespace VorCommander

open Crypto Steps Steps.Program Text WindowsPath

namespace MaintainerOp

/-- Operations before the old agent is terminated. -/
def prepares : MaintainerOp → Bool
  | .sleep _ | .metadata _ | .read _ | .readToString _ | .clock | .resolve _ _ | .createDirAll _
  | .openProcess _ _ | .createMarker _ _ => true
  | _ => false

/-- The plan an operation carries out. -/
def carries : MaintainerOp → Option UpdatePlan
  | .begin plan | .recoverPrevious plan => some plan
  | .swap update | .commit update | .rollback update | .spawn update => some update.plan
  | _ => none

theorem carries_of_prepares {op : MaintainerOp} (h : op.prepares = true) : op.carries = none := by
  cases op <;> first | rfl | cases h

end MaintainerOp

namespace Maintainer

variable {L : Libraries} {C : MaintenanceCodec} {h : History Maintenance}

/-! ### Programs that succeed

Nothing is asked of a program that fails, so a rule need only follow what succeeds. -/

/-- The host may reply anything. -/
abbrev AnyReply (_ : History Maintenance) (_ : Event Maintenance) : Prop := True

/-- Nothing is done yet. -/
abbrev Prepares (_ : History Maintenance) (op : MaintainerOp) : Prop := op.prepares = true

/-- A postcondition that says nothing of errors. -/
def WhenOk {ε α : Type} (Q : History Maintenance → α → Prop) (h : History Maintenance)
    (r : Except ε α) : Prop :=
  ∀ a, r = .ok a → Q h a

section Rules

variable {α β ε ε' : Type} {G : History Maintenance → MaintainerOp → Prop}
  {Q R : History Maintenance → α → Prop}

theorem whenOk_error (e : ε) : WhenOk Q h (.error e : Except ε α) := by
  intro a hok
  cases hok

theorem whenOk_mapError {f : ε → ε'} {r : Except ε α} : WhenOk Q h (r.mapError f) ↔ WhenOk Q h r :=
  forall_congr' fun _ => by rw [mapError_eq_ok]

/-- The rule of a sequence. -/
theorem whenOk_bind {p : ExceptT ε (Program Maintenance) α}
    {f : α → ExceptT ε (Program Maintenance) β} {Q : History Maintenance → β → Prop}
    (hp : Safe AnyReply G (WhenOk R) p.run h)
    (hf : ∀ h' a, R h' a → Safe AnyReply G (WhenOk Q) (f a).run h') :
    Safe AnyReply G (WhenOk Q) (p >>= f).run h := by
  rw [safe_exceptT_bind]
  refine hp.mono fun h' r hr => ?_
  exact then_of_ok whenOk_error fun a hok => hf h' a (hr a hok)

theorem whenOk_check (r : Except ε α) :
    Safe AnyReply G (WhenOk fun h' a => h' = h ∧ r = .ok a) (check r).run h :=
  (safe_check r).mpr fun _ hok => ⟨rfl, hok⟩

theorem whenOk_pure {a : α} (hQ : Q h a) :
    Safe AnyReply G (WhenOk Q) (pure a : ExceptT ε (Program Maintenance) α).run h := by
  refine (safe_exceptT_pure a).mpr fun b hok => ?_
  obtain rfl := Except.ok.inj hok
  exact hQ

/-- The rule of one operation, of whose reply `f` makes an outcome. -/
theorem whenOk_call (op : MaintainerOp) (f : op.Reply → Except ε α) (hG : G h op) :
    Safe AnyReply G (WhenOk fun h' a => ∃ reply, h' = ⟨op, reply⟩ :: h ∧ f reply = .ok a)
      (.step op fun reply => .done (f reply) : Program Maintenance (Except ε α)) h :=
  (safe_call (I := Maintenance) op f).mpr ⟨hG, fun reply _ _ hok => ⟨reply, rfl, hok⟩⟩

theorem whenOk_maintaining {p : MaintenanceM α} :
    Safe AnyReply G (WhenOk Q) (maintaining p).run h ↔ Safe AnyReply G (WhenOk Q) p.run h := by
  simp only [maintaining, safe_exceptT_adapt, whenOk_mapError]

end Rules

/-! ### Plan files -/

theorem normalizeSha256_eq_ok {value digest : String} (h : normalizeSha256 value = .ok digest) :
    digest = toAsciiLowercase (trim value) := by
  simp only [normalizeSha256, bind_eq_ok, exists_unit, pure_eq_ok] at h
  exact h.2.symm

theorem safe_sha256File (path : String) :
    Safe AnyReply Prepares (WhenOk fun h' digest => ∃ content,
        h' = ⟨.read path, .ok content⟩ :: h ∧ digest = sha256Hex L.toPrimitives content)
      (sha256File L path).run h := by
  refine whenOk_bind (whenOk_call (.read path) (Except.mapError MaintenanceError.io) rfl) ?_
  rintro _ content ⟨reply, rfl, hcontent⟩
  obtain rfl : reply = .ok content := mapError_eq_ok.mp hcontent
  exact whenOk_pure ⟨content, rfl, rfl⟩

theorem safe_verifyFileSha256 (path expected : String) :
    Safe AnyReply Prepares (WhenOk fun h' _ => ∃ content, h' = ⟨.read path, .ok content⟩ :: h ∧
        sha256Hex L.toPrimitives content = toAsciiLowercase (trim expected))
      (verifyFileSha256 L path expected).run h := by
  refine whenOk_bind (whenOk_check _) ?_
  rintro _ digest ⟨rfl, hdigest⟩
  refine whenOk_bind (safe_sha256File path) ?_
  rintro _ actual ⟨content, rfl, rfl⟩
  refine (whenOk_check _).mono fun h' r hr u hok => ?_
  obtain ⟨rfl, hsame⟩ := hr u hok
  have hsame : sha256Hex L.toPrimitives content = digest := by simpa using hsame
  exact ⟨content, rfl, hsame.trans (normalizeSha256_eq_ok hdigest)⟩

theorem safe_loadPlan (path : String) :
    Safe AnyReply Prepares (WhenOk fun h' plan => ∃ content info,
        h' = ⟨.read path, .ok content⟩ :: ⟨.metadata path, info⟩ :: h ∧ C.plan content = .ok plan)
      (loadPlan C path).run h := by
  refine whenOk_bind (whenOk_call (.metadata path) (Except.mapError MaintenanceError.io) rfl) ?_
  rintro _ found ⟨info, rfl, -⟩
  refine whenOk_bind (whenOk_check _) ?_
  rintro _ _ ⟨rfl, -⟩
  refine whenOk_bind (whenOk_call (.read path) (Except.mapError MaintenanceError.io) rfl) ?_
  rintro _ content ⟨reply, rfl, hcontent⟩
  obtain rfl : reply = .ok content := mapError_eq_ok.mp hcontent
  refine (whenOk_check _).mono fun h' r hr plan hok => ?_
  obtain ⟨rfl, hplan⟩ := hr plan hok
  exact ⟨content, info, rfl, mapError_eq_ok.mp hplan⟩

theorem safe_validate (action : MaintenanceAction) (plan : UpdatePlan) :
    Safe AnyReply Prepares (WhenOk fun h' update => update.plan = plan ∧
        ∃ reply, h' = ⟨.resolve action plan, reply⟩ :: h) (validate action plan).run h := by
  refine whenOk_bind (whenOk_check _) ?_
  rintro _ _ ⟨rfl, -⟩
  refine whenOk_bind (whenOk_call (.resolve action plan) id rfl) ?_
  rintro _ paths ⟨reply, rfl, -⟩
  exact whenOk_pure ⟨rfl, reply, rfl⟩

/-! ### What has been read -/

/-- The contents a file had when it was read, the newest first. -/
def contentsOf (path : String) (h : History Maintenance) : List (List UInt8) :=
  h.filterMap fun
    | ⟨.read found, .ok content⟩ => if found = path then some content else none
    | _ => none

theorem contentsOf_cons (path : String) (e : Event Maintenance) (h : History Maintenance) :
    ∃ new, contentsOf path (e :: h) = new ++ contentsOf path h := by
  unfold contentsOf
  rw [List.filterMap_cons]
  split
  · exact ⟨[], rfl⟩
  · rename_i content _
    exact ⟨[content], rfl⟩

theorem contentsOf_read (path : String) (content : List UInt8) (h : History Maintenance) :
    contentsOf path (⟨.read path, .ok content⟩ :: h) = content :: contentsOf path h :=
  List.filterMap_cons_some (if_pos rfl)

/-- A plan was loaded, and the first two contents of its file were the one that was hashed
before and the one it was loaded from. -/
structure LoadedFrom (L : Libraries) (C : MaintenanceCodec) (args : AuthorizedPlanArgs)
    (plan : UpdatePlan) (hashed loaded : List UInt8) (h : History Maintenance) : Prop where
  reads : ∃ later, contentsOf args.planPath h = later ++ [loaded, hashed]
  digest : sha256Hex L.toPrimitives hashed = toAsciiLowercase (trim args.planSha256)
  parses : C.plan loaded = .ok plan

/-- A request was read from a file. -/
def RequestRead (L : Libraries) (C : MaintenanceCodec) (path : String) (request : ActionRequest)
    (h : History Maintenance) : Prop :=
  ∃ text bytes message, ⟨.readToString path, .ok text⟩ ∈ h ∧
    Base64.decode (trim text) = some bytes ∧ C.request bytes = .ok message ∧
    Wire.actionRequestFromProto L message = .ok request

/-- An approval was read from a file. -/
def ApprovalRead (C : MaintenanceCodec) (path : String) (approval : SignedApproval)
    (h : History Maintenance) : Prop :=
  ∃ text bytes message, ⟨.readToString path, .ok text⟩ ∈ h ∧
    Base64.decode (trim text) = some bytes ∧ C.approval bytes = .ok message ∧
    Wire.approvalGrantFromProto message = .ok approval

/-- The trusted approvers were read from a file. -/
def ApproversRead (L : Libraries) (C : MaintenanceCodec) (path : String)
    (verifier : ApprovalVerifier) (h : History Maintenance) : Prop :=
  ∃ content, ⟨.read path, .ok content⟩ ∈ h ∧ verifierOf L C content = .ok verifier

/-- A request to do `action` with the plan of a digest was read, and an owner has signed
it. -/
structure SignedFor (L : Libraries) (C : MaintenanceCodec) (args : AuthorizedPlanArgs)
    (action : MaintenanceAction) (request : ActionRequest) (h : History Maintenance) : Prop where
  read : RequestRead L C args.requestFile request h
  names : request.envelope.action = action.actionName
  digest : ∃ digest, request.envelope.parameters["plan_sha256"]?.bind Value.asStr = some digest ∧
    eqIgnoreAsciiCase digest (toAsciiLowercase (trim args.planSha256)) = true
  approved : ∃ approval verifier now, ApprovalRead C args.approvalFile approval h ∧
    ApproversRead L C args.approversFile verifier h ∧ ⟨.clock, .ok now⟩ ∈ h ∧
    verifier.verify L.toPrimitives request (maintenanceDecision request) approval now = .ok ()

/-- A plan was loaded, and a request about its digest is signed. -/
structure Authorized (L : Libraries) (C : MaintenanceCodec) (args : AuthorizedPlanArgs)
    (action : MaintenanceAction) (plan : UpdatePlan) (h : History Maintenance) : Prop where
  loaded : ∃ hashed loaded, LoadedFrom L C args plan hashed loaded h
  signed : ∃ request, SignedFor L C args action request h

variable {args : AuthorizedPlanArgs} {action : MaintenanceAction}

section Cons

variable {path : String} {request : ActionRequest} {approval : SignedApproval}
  {verifier : ApprovalVerifier} {plan : UpdatePlan} {hashed loaded : List UInt8}
  (e : Event Maintenance)

theorem LoadedFrom.cons (hloaded : LoadedFrom L C args plan hashed loaded h) :
    LoadedFrom L C args plan hashed loaded (e :: h) := by
  obtain ⟨⟨later, hreads⟩, hdigest, hparses⟩ := hloaded
  obtain ⟨new, hnew⟩ := contentsOf_cons args.planPath e h
  exact ⟨⟨new ++ later, by rw [hnew, hreads, List.append_assoc]⟩, hdigest, hparses⟩

theorem RequestRead.cons (hread : RequestRead L C path request h) :
    RequestRead L C path request (e :: h) := by
  obtain ⟨text, bytes, message, hmem, hmessage⟩ := hread
  exact ⟨text, bytes, message, .tail e hmem, hmessage⟩

theorem ApprovalRead.cons (hread : ApprovalRead C path approval h) :
    ApprovalRead C path approval (e :: h) := by
  obtain ⟨text, bytes, message, hmem, hmessage⟩ := hread
  exact ⟨text, bytes, message, .tail e hmem, hmessage⟩

theorem ApproversRead.cons (hread : ApproversRead L C path verifier h) :
    ApproversRead L C path verifier (e :: h) := by
  obtain ⟨content, hmem, hverifier⟩ := hread
  exact ⟨content, .tail e hmem, hverifier⟩

theorem SignedFor.cons (hsigned : SignedFor L C args action request h) :
    SignedFor L C args action request (e :: h) := by
  obtain ⟨hread, hnames, hdigest, approval, verifier, now, hgrant, happrovers, hnow, hverify⟩ :=
    hsigned
  exact ⟨hread.cons e, hnames, hdigest, approval, verifier, now, hgrant.cons e, happrovers.cons e,
    .tail e hnow, hverify⟩

/-- What has been authorised stays authorised. -/
theorem Authorized.cons (hauthorized : Authorized L C args action plan h) :
    Authorized L C args action plan (e :: h) := by
  obtain ⟨⟨hashed, loaded, hloaded⟩, ⟨request, hsigned⟩⟩ := hauthorized
  exact ⟨⟨hashed, loaded, hloaded.cons e⟩, ⟨request, hsigned.cons e⟩⟩

end Cons

/-! ### The checks -/

theorem safe_loadVerified (hnone : contentsOf args.planPath h = []) :
    Safe AnyReply Prepares
      (WhenOk fun h' update => ∃ hashed loaded, LoadedFrom L C args update.plan hashed loaded h')
      (loadVerified L C action args.planPath args.planSha256).run h := by
  rw [loadVerified, whenOk_maintaining]
  refine whenOk_bind (safe_verifyFileSha256 _ _) ?_
  rintro _ _ ⟨hashed, rfl, hdigest⟩
  refine whenOk_bind (safe_loadPlan _) ?_
  rintro _ plan ⟨loaded, info, rfl, hparses⟩
  refine (safe_validate action plan).mono fun h' r hr update hok => ?_
  obtain ⟨rfl, reply, rfl⟩ := hr update hok
  have hreads : contentsOf args.planPath (⟨.read args.planPath, .ok loaded⟩ ::
      ⟨.metadata args.planPath, info⟩ :: ⟨.read args.planPath, .ok hashed⟩ :: h) =
      [loaded, hashed] := by
    rw [contentsOf_read]
    refine congrArg (loaded :: ·) ?_
    exact (contentsOf_read _ _ _).trans (congrArg (hashed :: ·) hnone)
  exact ⟨hashed, loaded, LoadedFrom.cons _ ⟨⟨[], hreads⟩, hdigest, hparses⟩⟩

theorem safe_decodeBase64File (path : String) (maxBytes : ℕ) :
    Safe AnyReply Prepares (WhenOk fun h' bytes => ∃ text info,
        h' = ⟨.readToString path, .ok text⟩ :: ⟨.metadata path, info⟩ :: h ∧
        Base64.decode (trim text) = some bytes)
      (decodeBase64File path maxBytes).run h := by
  refine whenOk_bind (whenOk_call (.metadata path) (Except.mapError io) rfl) ?_
  rintro _ found ⟨info, rfl, -⟩
  refine whenOk_bind (whenOk_check _) ?_
  rintro _ _ ⟨rfl, -⟩
  refine whenOk_bind (whenOk_call (.readToString path) (Except.mapError io) rfl) ?_
  rintro _ text ⟨reply, rfl, htext⟩
  obtain rfl : reply = .ok text := mapError_eq_ok.mp htext
  refine (whenOk_check _).mono fun h' r hr bytes hok => ?_
  obtain ⟨rfl, hbytes⟩ := hr bytes hok
  exact ⟨text, info, rfl, orFail_eq_ok.mp hbytes⟩

theorem safe_loadApprovalVerifier (path : String) :
    Safe AnyReply Prepares (WhenOk fun h' verifier => ∃ content info,
        h' = ⟨.read path, .ok content⟩ :: ⟨.metadata path, info⟩ :: h ∧
        verifierOf L C content = .ok verifier)
      (loadApprovalVerifier L C path).run h := by
  refine whenOk_bind (whenOk_call (.metadata path) (Except.mapError io) rfl) ?_
  rintro _ found ⟨info, rfl, -⟩
  refine whenOk_bind (whenOk_check _) ?_
  rintro _ _ ⟨rfl, -⟩
  refine whenOk_bind (whenOk_call (.read path) (Except.mapError io) rfl) ?_
  rintro _ content ⟨reply, rfl, hcontent⟩
  obtain rfl : reply = .ok content := mapError_eq_ok.mp hcontent
  refine (whenOk_check _).mono fun h' r hr verifier hok => ?_
  obtain ⟨rfl, hverifier⟩ := hr verifier hok
  exact ⟨content, info, rfl, hverifier⟩

theorem expectStringParameter_eq_ok {request : ActionRequest} {name expected : String}
    (hname : endsWith name "_sha256" = true)
    (hok : expectStringParameter request name expected = .ok ()) :
    ∃ actual, request.envelope.parameters[name]?.bind Value.asStr = some actual ∧
      eqIgnoreAsciiCase actual expected = true := by
  simp only [expectStringParameter, hname, if_true, bind_eq_ok, orFail_eq_ok, failIf_eq_ok,
    Bool.not_eq_false] at hok
  exact hok

theorem checkRequest_eq_ok {update : ValidatedUpdate} {digest : String} {request : ActionRequest}
    (hok : checkRequest action update digest request = .ok ()) :
    request.envelope.action = action.actionName ∧
      ∃ actual, request.envelope.parameters["plan_sha256"]?.bind Value.asStr = some actual ∧
        eqIgnoreAsciiCase actual digest = true := by
  simp only [checkRequest, bind_eq_ok, exists_unit, failIf_eq_ok, not_not] at hok
  exact ⟨hok.1, expectStringParameter_eq_ok (by decide) hok.2.2.1⟩

/-- Whoever gets past the authorisation has the signature of an owner. -/
theorem safe_verifyAuthorization (update : ValidatedUpdate) :
    Safe AnyReply Prepares (WhenOk fun h' _ => ∃ request, SignedFor L C args action request h')
      (verifyAuthorization L C args action update).run h := by
  refine whenOk_bind (whenOk_maintaining.mpr (safe_verifyFileSha256 _ _)) ?_
  rintro _ _ ⟨rehashed, rfl, -⟩
  refine whenOk_bind (safe_decodeBase64File _ _) ?_
  rintro _ requestBytes ⟨requestText, requestInfo, rfl, hrequestBytes⟩
  refine whenOk_bind (whenOk_check _) ?_
  rintro _ requestProto ⟨rfl, hrequestProto⟩
  refine whenOk_bind (whenOk_check _) ?_
  rintro _ request ⟨rfl, hrequest⟩
  refine whenOk_bind (whenOk_check _) ?_
  rintro _ _ ⟨rfl, hchecked⟩
  refine whenOk_bind (safe_decodeBase64File _ _) ?_
  rintro _ approvalBytes ⟨approvalText, approvalInfo, rfl, happrovalBytes⟩
  refine whenOk_bind (whenOk_check _) ?_
  rintro _ approvalProto ⟨rfl, happrovalProto⟩
  refine whenOk_bind (whenOk_check _) ?_
  rintro _ approval ⟨rfl, happroval⟩
  refine whenOk_bind (safe_loadApprovalVerifier _) ?_
  rintro _ verifier ⟨content, approversInfo, rfl, hverifier⟩
  refine whenOk_bind (whenOk_call .clock (Except.mapError MaintainerError.host) rfl) ?_
  rintro _ now ⟨clock, rfl, hnow⟩
  obtain rfl : clock = .ok now := mapError_eq_ok.mp hnow
  refine whenOk_bind (whenOk_check _) ?_
  rintro _ _ ⟨rfl, hverify⟩
  refine whenOk_bind (whenOk_maintaining.mpr (safe_sha256File _)) ?_
  rintro _ approvalSha256 ⟨artifact, rfl, -⟩
  obtain ⟨hnames, hdigest⟩ := checkRequest_eq_ok hchecked
  refine whenOk_pure ⟨request, ⟨requestText, requestBytes, requestProto, by simp, hrequestBytes,
    mapError_eq_ok.mp hrequestProto, mapError_eq_ok.mp hrequest⟩, hnames, hdigest,
    approval, verifier, now, ⟨approvalText, approvalBytes, approvalProto, by simp, happrovalBytes,
      mapError_eq_ok.mp happrovalProto, mapError_eq_ok.mp happroval⟩,
    ⟨content, by simp, hverifier⟩, by simp, mapError_eq_ok.mp hverify⟩

/-! ### Runs that get through -/

theorem path_op {α : Type} (op : MaintainerOp) (next : op.Reply → Program Maintenance α)
    (reply : op.Reply) :
    Path (.step op next : Program Maintenance α) [⟨op, reply⟩] (next reply) :=
  .cons (I := Maintenance) reply .nil

/-- A run of `p` that only prepares, up to its last events. -/
def Reaches {ε α : Type} (p : ExceptT ε (Program Maintenance) α) (last : History Maintenance)
    (q : Program Maintenance (Except ε α)) : Prop :=
  ∃ h, Path p.run (last ++ h) q ∧ ∀ e ∈ h, e.op.prepares = true

/-- A run of `p` that only prepares, and succeeds. -/
abbrev CanPass {ε α : Type} (p : ExceptT ε (Program Maintenance) α) (a : α) : Prop :=
  Reaches p [] (.done (.ok a))

namespace Reaches

variable {α β ε ε' : Type} {a : α}

theorem bind {p : ExceptT ε (Program Maintenance) α} {f : α → ExceptT ε (Program Maintenance) β}
    {last : History Maintenance} {q : Program Maintenance (Except ε β)} (hp : CanPass p a)
    (hf : Reaches (f a) last q) : Reaches (p >>= f) last q := by
  obtain ⟨h, path, hprepares⟩ := hp
  obtain ⟨h', rest, hprepares'⟩ := hf
  refine ⟨h' ++ h, ?_, ?_⟩
  · rw [← List.append_assoc]
    exact path.exceptT_bind rest
  · intro e he
    rcases List.mem_append.mp he with he | he
    · exact hprepares' e he
    · exact hprepares e he

theorem pure : CanPass (pure a : ExceptT ε (Program Maintenance) α) a :=
  ⟨[], .nil, by simp⟩

theorem check {r : Except ε α} (hr : r = .ok a) : CanPass (check r) a :=
  ⟨[], .check hr, by simp⟩

theorem call (op : MaintainerOp) (f : op.Reply → Except ε α) (reply : op.Reply)
    (hop : op.prepares = true) (hreply : f reply = .ok a) :
    CanPass (ExceptT.mk (.step op fun reply => .done (f reply))) a := by
  refine ⟨[⟨op, reply⟩], ?_, by simpa using hop⟩
  rw [← hreply]
  exact .cons (I := Maintenance) reply .nil

theorem maintaining {p : MaintenanceM α} (hp : CanPass p a) : CanPass (maintaining p) a := by
  obtain ⟨h, path, hprepares⟩ := hp
  exact ⟨h, path.map _, hprepares⟩

end Reaches

variable {hashed loaded rehashed : List UInt8} {plan : UpdatePlan} {paths : ResolvedPaths}

theorem canPass_sha256File (path : String) (content : List UInt8) :
    CanPass (sha256File L path) (sha256Hex L.toPrimitives content) :=
  .bind (.call (.read path) (Except.mapError MaintenanceError.io) (.ok content) rfl rfl)
    .pure

theorem canPass_verifyFileSha256 {path expected : String} {content : List UInt8}
    (hexpected : normalizeSha256 expected = .ok (sha256Hex L.toPrimitives content)) :
    CanPass (verifyFileSha256 L path expected) () :=
  .bind (.check hexpected) (.bind (canPass_sha256File path content)
    (.check (failIf_of_false fun hne => hne rfl)))

/-- A plan is loaded from what its file says when it is loaded. -/
theorem canPass_loadVerified
    (hhashed : normalizeSha256 args.planSha256 = .ok (sha256Hex L.toPrimitives hashed))
    (hloaded : C.plan loaded = .ok plan) (hshape : validatePlanShape plan = .ok ()) :
    CanPass (loadVerified L C action args.planPath args.planSha256) ⟨paths, plan⟩ := by
  refine .maintaining (.bind (canPass_verifyFileSha256 hhashed) (.bind (a := plan) ?_ ?_))
  · refine .bind (.call (.metadata args.planPath) (Except.mapError MaintenanceError.io)
      (.ok (true, 1)) rfl rfl) ?_
    refine .bind (.check (failIf_of_false (by decide))) ?_
    refine .bind (.call (.read args.planPath) (Except.mapError MaintenanceError.io)
      (.ok loaded) rfl rfl) ?_
    exact .check (by rw [hloaded]; rfl)
  · refine .bind (.check hshape) ?_
    exact .bind (.call (.resolve action plan) id (.ok paths) rfl rfl) .pure

theorem canPass_decodeBase64File {path text : String} {maxBytes : ℕ} {bytes : List UInt8}
    (hmax : 0 < maxBytes) (hbytes : Base64.decode (trim text) = some bytes) :
    CanPass (decodeBase64File path maxBytes) bytes := by
  refine .bind (.call (.metadata path) (Except.mapError io) (.ok (true, 1)) rfl rfl) ?_
  have hfound : ¬ (true = false ∨ 1 = 0 ∨ maxBytes < 1) := by
    simp only [Bool.true_eq_false, false_or]
    omega
  refine .bind (.check (failIf_of_false hfound)) ?_
  refine .bind (.call (.readToString path) (Except.mapError io) (.ok text) rfl rfl) ?_
  exact .check (by rw [hbytes]; rfl)

theorem canPass_loadApprovalVerifier {path : String} {content : List UInt8}
    {verifier : ApprovalVerifier} (hverifier : verifierOf L C content = .ok verifier) :
    CanPass (loadApprovalVerifier L C path) verifier := by
  refine .bind (.call (.metadata path) (Except.mapError io) (.ok (true, 1)) rfl rfl) ?_
  refine .bind (.check (failIf_of_false (by decide))) ?_
  refine .bind (.call (.read path) (Except.mapError io) (.ok content) rfl rfl) ?_
  exact .check hverifier

/-- Whoever has the signature of an owner gets past the authorisation, whatever plan has been
loaded, as long as it agrees with the request where they are compared. -/
theorem canPass_verifyAuthorization {update : ValidatedUpdate} {requestText approvalText : String}
    {requestBytes approvalBytes approvers : List UInt8} (artifact : List UInt8)
    {requestProto : V1.ActionRequest}
    {approvalProto : V1.ApprovalGrant} {request : ActionRequest} {approval : SignedApproval}
    {verifier : ApprovalVerifier} {now : ℕ}
    (hrehashed : normalizeSha256 args.planSha256 = .ok (sha256Hex L.toPrimitives rehashed))
    (hrequestText : Base64.decode (trim requestText) = some requestBytes)
    (hrequestProto : C.request requestBytes = .ok requestProto)
    (hrequest : Wire.actionRequestFromProto L requestProto = .ok request)
    (hchecked : checkRequest action update (toAsciiLowercase (trim args.planSha256)) request =
      .ok ())
    (happrovalText : Base64.decode (trim approvalText) = some approvalBytes)
    (happrovalProto : C.approval approvalBytes = .ok approvalProto)
    (happroval : Wire.approvalGrantFromProto approvalProto = .ok approval)
    (hverifier : verifierOf L C approvers = .ok verifier)
    (hverify : verifier.verify L.toPrimitives request (maintenanceDecision request) approval now =
      .ok ()) :
    ∃ evidence, CanPass (verifyAuthorization L C args action update) evidence := by
  refine ⟨⟨request.envelope.requestId, approval.approverId, action.actionName,
    toAsciiLowercase (trim args.planSha256), sha256Hex L.toPrimitives artifact⟩, ?_⟩
  refine .bind (.maintaining (canPass_verifyFileSha256 hrehashed)) ?_
  refine .bind (canPass_decodeBase64File (by decide) hrequestText) ?_
  refine .bind (.check (by rw [hrequestProto]; rfl)) ?_
  refine .bind (.check (by rw [hrequest]; rfl)) ?_
  refine .bind (.check hchecked) ?_
  refine .bind (canPass_decodeBase64File (by decide) happrovalText) ?_
  refine .bind (.check (by rw [happrovalProto]; rfl)) ?_
  refine .bind (.check (by rw [happroval]; rfl)) ?_
  refine .bind (canPass_loadApprovalVerifier hverifier) ?_
  refine .bind (.call (.clock) (Except.mapError MaintainerError.host) (.ok now) rfl rfl)
    ?_
  refine .bind (.check (by rw [hverify]; rfl)) ?_
  exact .bind (.maintaining (canPass_sha256File _ artifact)) .pure

/-- Whoever gets past the authorisation may terminate the agent. -/
theorem reaches_prepareUpdate {update : ValidatedUpdate} {evidence : AuthorizationEvidence}
    {directory directory' : String}
    (hload : CanPass (loadVerified L C .apply args.planPath args.planSha256) update)
    (hverify : CanPass (verifyAuthorization L C args .apply update) evidence)
    (hresult : parent update.resultFile = some directory)
    (hjournal : parent update.journal = some directory') (handle : ℕ) :
    Reaches (prepareUpdate L C args) [⟨.terminate handle update.plan.currentPid, .ok ()⟩]
      (.done (.ok update)) := by
  refine .bind (.call (.sleep applyGraceMs) Except.ok () rfl rfl) ?_
  refine .bind hload (.bind hverify ?_)
  refine .bind (a := ()) ?_ (.bind (a := handle) ?_ (.bind (a := ()) ?_ ?_))
  · refine .bind (.check (by rw [hresult]; rfl)) ?_
    exact .call (.createDirAll directory) (Except.mapError MaintainerError.host) (.ok ())
      rfl rfl
  · exact .call (.openProcess _ _) (Except.mapError MaintainerError.host) (.ok handle)
      rfl rfl
  · refine .bind (.check (by rw [hjournal]; rfl)) ?_
    refine .bind
      (.call (.createDirAll directory') (Except.mapError MaintainerError.host) (.ok ()) rfl rfl) ?_
    exact .call (.createMarker _ evidence) (Except.mapError MaintainerError.host)
      (.ok ()) rfl rfl
  · exact ⟨[], path_op (.terminate handle _) _ (.ok ()), by simp⟩

end Maintainer

end VorCommander
