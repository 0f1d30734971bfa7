import VorCommander.Device.Dispatch

/-!
Browser sessions.

The worker of a device drives browsers for approved requests, one request at a
time. A session belongs to those who started it and has a generation, which a
click must name: it counts the navigations. What is asked of a driver, and of the
directories of a session, are the operations here, and may fail; a command that
fails may have been executed all the same. The two commands that change a page
carry the request they are executed for.
-/

namespace VorCommander

open Crypto Steps Steps.Program Text

structure BrowserWorkerConfig where
  geckodriverPath : String
  firefoxBinary : String
  labRoot : String
  allowedOrigin : String

structure BrowserSessionOwner where
  organizationId : String
  actorId : String
  deviceId : String
  workspaceId : Option String
  deriving DecidableEq

inductive BrowserCloseState
  | opened
  | closing
  | closed
  | closeUnconfirmed
  deriving DecidableEq

structure ManagedBrowserSession where
  owner : BrowserSessionOwner
  closeState : BrowserCloseState
  generation : ℕ
  root : String
  deriving DecidableEq

structure BrowserSessionWorker where
  config : Option BrowserWorkerConfig
  sessions : Std.ExtTreeMap String ManagedBrowserSession

/-! ### Commands -/

/-- What the worker asks for. `downloadTarget` says whether a download to a file
may begin, `awaitDownload` waits for it. -/
inductive BrowserOp
  | allocateRoot (labRoot sessionId : String)
  | launch (config : BrowserWorkerConfig) (sessionId root : String)
  | removeRoot (labRoot root : String)
  | navigate (execution : ExecutionAuthorization) (sessionId url : String)
  | findElement (sessionId selector : String)
  | click (execution : ExecutionAuthorization) (sessionId element : String)
  | snapshot (sessionId : String)
  | downloadTarget (sessionId fileName : String)
  | awaitDownload (sessionId operationId fileName : String)
  | delete (sessionId : String)

/-- What each operation replies when it succeeds. -/
@[reducible] def BrowserOp.Result : BrowserOp → Type
  | .allocateRoot _ _ => String
  | .findElement _ _ => Value
  | .snapshot _ => Value
  | .awaitDownload _ _ _ => Value
  | _ => Unit

/-- The interface of the browser worker. -/
abbrev Browser : Interface := ⟨BrowserOp, fun op => Except BrowserError op.Result⟩

/-- A fallible program of the worker. -/
abbrev BrowserM (α : Type) := ExceptT BrowserError (Program Browser) α

/-- One command. -/
def BrowserOp.call (op : BrowserOp) : BrowserM op.Result := attempt (perform (I := Browser) op)

/-! ### Addresses -/

/-- `str::split_once("://")`. -/
def splitScheme : List Char → Option (List Char × List Char)
  | ':' :: '/' :: '/' :: rest => some ([], rest)
  | c :: rest => (splitScheme rest).map fun parts => (c :: parts.1, parts.2)
  | [] => none

/-- `str::rsplit_once`. -/
def rsplitOnce (c : Char) (s : String) : Option (String × String) :=
  (splitOnce c (String.ofList s.toList.reverse)).map fun parts =>
    (String.ofList parts.2.toList.reverse, String.ofList parts.1.toList.reverse)

/-- `str::parse::<u16>`. -/
def parseU16 (s : String) : Option ℕ :=
  let digits :=
    match s.toList with
    | '+' :: rest => rest
    | cs => cs
  if digits ≠ [] ∧ digits.all Char.isDigit ∧ Nat.ofDigitChars 10 digits 0 < 2 ^ 16 then
    some (Nat.ofDigitChars 10 digits 0)
  else none

/-- `parse_http_origin`: the scheme, the host, the port and the path. -/
def parseHttpOrigin (input : String) : Option (String × String × ℕ × String) := do
  let (scheme, rest) ← splitScheme input.toList
  let scheme := String.ofList scheme
  if scheme ≠ "http" ∧ scheme ≠ "https" then none else
  let (authority, path) := (splitOnce '/' (String.ofList rest)).getD (String.ofList rest, "")
  if authority = "" ∨ '@' ∈ authority.toList then none else
  let (host, port) ←
    match rsplitOnce ':' authority with
    | some (host, port) => (parseU16 port).map fun port => (host, port)
    | none => some (authority, if scheme = "https" then 443 else 80)
  if host = "" then none else return (scheme, host, port, path)

/-- `same_origin_url`. -/
def sameOriginUrl (candidate allowedOrigin : String) : Bool :=
  match parseHttpOrigin candidate with
  | none => false
  | some (scheme, host, port, rest) =>
      if '@' ∈ rest.toList then false
      else
        match parseHttpOrigin allowedOrigin with
        | none => false
        | some (allowedScheme, allowedHost, allowedPort, _) =>
            scheme = allowedScheme && host = allowedHost && port = allowedPort

/-- `is_single_safe_component`. -/
def isSingleSafeComponent (value : String) : Bool :=
  value ≠ "" && byteLength value ≤ 80 && value.toList.all fun c => c.isAlphanum || c = '-'

/-! ### Requests -/

/-- `BrowserError::MissingParameter`. -/
def missingParameter (name : String) : BrowserError :=
  .other ("browser request is missing parameter: " ++ name)

namespace ExecutionAuthorization

variable (execution : ExecutionAuthorization)

/-- `required_str`. -/
def requiredStr (name : String) : Except BrowserError String :=
  orFail (execution.authorization.request.envelope.parameters[name]?.bind Value.asStr)
    (missingParameter name)

/-- `required_u64`. -/
def requiredU64 (name : String) : Except BrowserError ℕ :=
  orFail (execution.authorization.request.envelope.parameters[name]?.bind Value.asU64)
    (missingParameter name)

/-- `owner_from_execution`. -/
def browserOwner : BrowserSessionOwner :=
  let envelope := execution.authorization.request.envelope
  { organizationId := envelope.organizationId
    actorId := envelope.actorId
    deviceId := envelope.deviceId
    workspaceId := envelope.parameters["workspace_id"]?.bind Value.asStr }

end ExecutionAuthorization

/-- `opaque_session_id`. -/
def opaqueSessionId (envelopeDigest : Digest32) : String := "bs-" ++ hexEncode envelopeDigest.toList

/-! ### The bridge -/

/-- `WEB_ELEMENT_KEY`. -/
def webElementKey : String := "element-6066-11e4-a52e-4f735466cecf"

/-- The identifier of an element that was found. -/
def elementId : Value → Option String
  | .object members => (members.lookup webElementKey).bind Value.asStr
  | _ => none

/-- `BrowserError::SessionClosing`. -/
def sessionClosing : BrowserError :=
  .other "browser session is closing or close confirmation was lost"

namespace ManagedBrowserSession

variable (session : ManagedBrowserSession)

/-- `ensure_open`. -/
def ensureOpen : Except BrowserError Unit :=
  match session.closeState with
  | .opened => .ok ()
  | .closing | .closeUnconfirmed => .error sessionClosing
  | .closed => .error (.other "browser session is closed")

/-- A command to a session that is open. -/
def command (op : BrowserOp) : BrowserM op.Result := do
  check session.ensureOpen
  op.call

/-- `find_css`. -/
def findCss (sessionId selector : String) : BrowserM String := do
  let value ← session.command (.findElement sessionId selector)
  check (orFail (elementId value) (.other "WebDriver response is missing field: web element id"))

/-- `prepare_download`. -/
def prepareDownload (sessionId operationId fileName : String) : BrowserM Unit := do
  check session.ensureOpen
  check (failIf (isBlank operationId = true) (.other "download operation id is invalid"))
  (BrowserOp.downloadTarget sessionId fileName).call

end ManagedBrowserSession

/-! ### The operations of the worker -/

namespace BrowserSessionWorker

variable (worker : BrowserSessionWorker) (execution : ExecutionAuthorization)

/-- The worker with another session in the place of one. -/
def withSession (sessionId : String) (session : ManagedBrowserSession) : BrowserSessionWorker :=
  { worker with sessions := worker.sessions.insert sessionId session }

/-- `session_mut`. -/
def sessionMut : Except BrowserError (String × ManagedBrowserSession) := do
  let sessionId ← execution.requiredStr "session_id"
  let session ← orFail worker.sessions[sessionId]? .sessionNotFound
  failIf (session.owner ≠ execution.browserOwner) .sessionNotFound
  return (sessionId, session)

/-- The start of a driver, whose directory is removed if it fails. -/
def launchOrRemove (config : BrowserWorkerConfig) (sessionId root : String) : BrowserM Unit :=
  ExceptT.mk do
    match ← perform (I := Browser) (.launch config sessionId root) with
    | .ok () => return .ok ()
    | .error e =>
        let _ ← perform (I := Browser) (.removeRoot config.labRoot root)
        return .error e

/-- `start_session`. -/
def startSession : BrowserM (Value × BrowserSessionWorker) := do
  let config ← check (orFail worker.config .browserDisabled)
  let sessionId := opaqueSessionId execution.authorization.request.envelopeDigest
  check (failIf (worker.sessions.contains sessionId = true)
    (.other "browser session already exists"))
  check (failIf (isSingleSafeComponent sessionId = false)
    (.other "browser session id is not a safe storage component"))
  let root ← (BrowserOp.allocateRoot config.labRoot sessionId).call
  launchOrRemove config sessionId root
  return (jsonObject [("session_id", .string sessionId), ("generation", .posInt 0)],
    worker.withSession sessionId ⟨execution.browserOwner, .opened, 0, root⟩)

/-- `navigate`. -/
def navigate : BrowserM (Value × BrowserSessionWorker) := do
  let target ← check (execution.requiredStr "url")
  let config ← check (orFail worker.config .browserDisabled)
  check (failIf (sameOriginUrl target config.allowedOrigin = false) .navigationOutOfScope)
  let (sessionId, session) ← check (worker.sessionMut execution)
  session.command (.navigate execution sessionId target)
  let generation := (session.generation + 1) % 2 ^ 64
  return (jsonObject [("session_id", .string sessionId), ("generation", .posInt generation)],
    worker.withSession sessionId { session with generation })

/-- `observe`. -/
def observe : BrowserM (Value × BrowserSessionWorker) := do
  let (sessionId, session) ← check (worker.sessionMut execution)
  let snapshot ← session.command (.snapshot sessionId)
  return (jsonObject
    [("session_id", .string sessionId), ("generation", .posInt session.generation),
     ("nodes", snapshot)], worker)

/-- `click`. -/
def click : BrowserM (Value × BrowserSessionWorker) := do
  let selector ← check (execution.requiredStr "selector")
  let expectedGeneration ← check (execution.requiredU64 "generation")
  let (sessionId, session) ← check (worker.sessionMut execution)
  check (failIf (expectedGeneration ≠ session.generation) .staleElement)
  let element ← session.findCss sessionId selector
  session.command (.click execution sessionId element)
  return (jsonObject
    [("session_id", .string sessionId), ("generation", .posInt session.generation),
     ("clicked", .bool true)], worker)

/-- `download`. -/
def download : BrowserM (Value × BrowserSessionWorker) := do
  let selector ← check (execution.requiredStr "selector")
  let fileName ← check (execution.requiredStr "file_name")
  let operationId ← check (execution.requiredStr "operation_id")
  let expectedGeneration ← check (execution.requiredU64 "generation")
  let (sessionId, session) ← check (worker.sessionMut execution)
  check (failIf (expectedGeneration ≠ session.generation) .staleElement)
  session.prepareDownload sessionId operationId fileName
  let element ← session.findCss sessionId selector
  session.command (.click execution sessionId element)
  let receipt ← session.command (.awaitDownload sessionId operationId fileName)
  return (receipt, worker)

/-- What an operation leaves that changes nothing if it fails. -/
def keeping (p : BrowserM (Value × BrowserSessionWorker)) :
    Program Browser (Except BrowserError Value × BrowserSessionWorker) :=
  (fun r =>
    match r with
    | .ok (value, worker') => (.ok value, worker')
    | .error e => (.error e, worker)) <$> p.run

/-- `close` of the bridge of a session: what it says, and the state it leaves. -/
def closeBridge (sessionId : String) (session : ManagedBrowserSession) :
    Program Browser (Except BrowserError Unit × BrowserCloseState) :=
  match session.closeState with
  | .closed => return (.ok (), .closed)
  | .closing => return (.error sessionClosing, .closing)
  | .closeUnconfirmed => return (.error sessionClosing, .closeUnconfirmed)
  | .opened => do
      match ← perform (I := Browser) (.delete sessionId) with
      | .ok () => return (.ok (), .closed)
      | .error e => return (.error e, .closeUnconfirmed)

/-- `close`. A session that is closed is forgotten before its directory is
removed. -/
def close : Program Browser (Except BrowserError Value × BrowserSessionWorker) :=
  match worker.sessionMut execution with
  | .error e => return (.error e, worker)
  | .ok (sessionId, session) => do
      let (outcome, closeState) ← closeBridge sessionId session
      match outcome with
      | .error e => return (.error e, worker.withSession sessionId { session with closeState })
      | .ok () =>
          let forgotten := { worker with sessions := worker.sessions.erase sessionId }
          match worker.config with
          | none => return (.error .browserDisabled, forgotten)
          | some config =>
              let removed ← perform (I := Browser) (.removeRoot config.labRoot session.root)
              return (removed.map fun _ =>
                jsonObject [("session_id", .string sessionId), ("state", .string "closed")],
                  forgotten)

/-- `execute_approved`. -/
def executeApproved : Program Browser (Except BrowserError Value × BrowserSessionWorker) :=
  if execution.authorization.request.envelope.action ≠ "browser.session.use" then
    return (.error (.other "browser action is unsupported"), worker)
  else
    match execution.requiredStr "operation" with
    | .error e => return (.error e, worker)
    | .ok operation =>
        if operation = "start" then worker.keeping (worker.startSession execution)
        else if operation = "navigate" then worker.keeping (worker.navigate execution)
        else if operation = "observe" then worker.keeping (worker.observe execution)
        else if operation = "click" then worker.keeping (worker.click execution)
        else if operation = "download" then worker.keeping (worker.download execution)
        else if operation = "close" then worker.close execution
        else return (.error (.other "browser operation is invalid"), worker)

/-- Requests one after the other, whatever becomes of each. -/
def executeAll (worker : BrowserSessionWorker) :
    List ExecutionAuthorization → Program Browser BrowserSessionWorker
  | [] => return worker
  | execution :: executions => do
      let (_, worker) ← worker.executeApproved execution
      executeAll worker executions

end BrowserSessionWorker

end VorCommander
