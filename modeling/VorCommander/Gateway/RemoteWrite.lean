import VorCommander.Device.RoundTrip
import VorCommander.Gateway.Commit
import VorCommander.Worker.Write

/-!
Writes that a gateway sends to a device.

The gateway decodes the content that a caller gives it, bounds its size, reads the
precondition and seals a request that says all of it again. The device decodes the content,
bounds its size and reads the precondition with checks of its own. The two agree.
-/

namespace VorCommander

open Crypto Steps Text

/-! ### The device -/

def defaultMaxRemoteWriteBytes : ℕ := 1024 * 1024

/-- `remote_write_content`. -/
def remoteWriteContent (request : ActionRequest) : Except DispatchError (List UInt8) := do
  let encoded ← orFail (request.envelope.parameters["content_base64"]?.bind Value.asStr)
    .missingWriteContent
  let maxEncoded := defaultMaxRemoteWriteBytes * 4 / 3 + 8
  failIf (maxEncoded < byteLength encoded) (.writeTooLarge (byteLength encoded))
  let content ← orFail (Base64.decode encoded) .invalidWriteContent
  failIf (defaultMaxRemoteWriteBytes < content.length) (.writeTooLarge content.length)
  return content

/-- What `execute_authorized` checks before the worker writes a file. -/
def writeContent (request : ActionRequest) : Except DispatchError (List UInt8) := do
  let content ← remoteWriteContent request
  failIf (request.envelope.parameters["content_bytes"]?.bind Value.asU64 ≠ some content.length)
    .invalidFilesystemParameters
  return content

def maxMcpWriteBytes : ℕ := 1024 * 1024

structure RemoteWritePayload where
  target : String
  contentBase64 : String
  expectedTargetSha256 : String

def writeTooLarge : ErrorData := .invalidParams "write content exceeds the 1 MiB limit"

def writeNotBase64 : ErrorData := .invalidParams "content_base64 is not valid base64"

/-- The content of a payload. -/
def RemoteWritePayload.content (payload : RemoteWritePayload) : Except ErrorData (List UInt8) := do
  let maxEncoded := maxMcpWriteBytes * 4 / 3 + 8
  failIf (maxEncoded < byteLength payload.contentBase64) writeTooLarge
  let content ← orFail (Base64.decode payload.contentBase64) writeNotBase64
  failIf (maxMcpWriteBytes < content.length) writeTooLarge
  return content

/-- The precondition of a payload, as it is sent. -/
def RemoteWritePayload.expected (payload : RemoteWritePayload) : Except ErrorData String :=
  let expected := trim payload.expectedTargetSha256
  if eqIgnoreAsciiCase expected "absent" then .ok "absent"
  else if isDigestText expected then .ok (toAsciiLowercase expected)
  else .error (.invalidParams
    "expected_target_sha256 must be 'absent' or a 64-character SHA-256 hex digest")

section

variable {P : Primitives} {content : List UInt8} {expected : String} {approvalPath : Bool}
  {workspaceId : Option String}

/-- The precondition that a caller gives. -/
def RemoteWritePayload.precondition (payload : RemoteWritePayload) : TargetPrecondition :=
  if eqIgnoreAsciiCase (trim payload.expectedTargetSha256) "absent" then .absent
  else .sha256 (toAsciiLowercase (trim payload.expectedTargetSha256))

end

end VorCommander
