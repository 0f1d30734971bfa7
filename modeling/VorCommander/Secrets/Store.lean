import VorCommander.Fs.Files
import VorCommander.Fs.Paths
import VorCommander.Steps.Crash

/-!
The store of secrets.

Each secret is a file of its own, encrypted by the system for the account. A secret is
written to a temporary file that then takes the place of the old one. Names of files differ
in more than the case of their letters.
-/

namespace VorCommander

open Steps Steps.Program Text WindowsPath

/-! ### The host -/

/-- An error of the host: `notFound`, or a code. -/
inductive SystemError
  | notFound
  | other (code : ℕ)
  deriving DecidableEq

inductive SecretOp
  | createDirAll (path : String)
  | canonicalize (path : String)
  | isFile (path : String)
  | read (path : String)
  | createNew (path : String)
  | writeAll (path : String) (content : List UInt8)
  | syncAll (path : String)
  | moveFile (source target : String)
  | removeFile (path : String)
  | protect (plaintext entropy : List UInt8)
  | unprotect (ciphertext entropy : List UInt8)
  | random (count : ℕ)
  | generateKeyPair
  | serializeRequest (key : List UInt8) (deviceId : String)

/-- What the store takes from the system and from libraries: where a path leads, what is
encrypted by a text of bytes, and which requests for a certificate are for a key. -/
structure SecretHost where
  canonical : String → String
  opens : List UInt8 → List UInt8 → Option (List UInt8)
  opens_nil : ∀ entropy, opens [] entropy = none
  IsRequest : List UInt8 → List UInt8 → String → Prop

/-- Names of files are the same up to the case of their letters. -/
def fileKey (path : String) : String := toAsciiLowercase path

namespace SecretOp

@[reducible] def Reply : SecretOp → Type
  | .canonicalize _ => Except SystemError String
  | .isFile _ => Bool
  | .read _ | .protect _ _ | .unprotect _ _ => Except SystemError (List UInt8)
  | .generateKeyPair | .serializeRequest _ _ => Except SystemError (List UInt8)
  | .random _ => List UInt8
  | _ => Except SystemError Unit

/-- The files after an operation that has succeeded, if it can succeed. -/
def change (files : FileSystem) : SecretOp → Option FileSystem
  | .createNew path =>
      if files (fileKey path) = none then some (Function.update files (fileKey path) (some []))
      else none
  | .writeAll path content => (files (fileKey path)).map fun old =>
      Function.update files (fileKey path) (some (old ++ content))
  | .moveFile source target => (files (fileKey source)).map fun content =>
      Function.update (Function.update files (fileKey source) none) (fileKey target) (some content)
  | .removeFile path => (files (fileKey path)).map fun _ =>
      Function.update files (fileKey path) none
  | _ => some files

/-- What an operation says. The account may ask about what is in its store. -/
def answers (H : SecretHost) (files : FileSystem) : (op : SecretOp) → op.Reply → Prop
  | .canonicalize path, .ok resolved => resolved = H.canonical path
  | .isFile path, found => found = (files (fileKey path)).isSome
  | .read path, .ok content => files (fileKey path) = some content
  | .read path, .error e => e = .notFound → files (fileKey path) = none
  | .removeFile path, .error e => e = .notFound → files (fileKey path) = none
  | .protect plaintext entropy, .ok ciphertext => H.opens ciphertext entropy = some plaintext
  | .unprotect ciphertext entropy, .ok plaintext => H.opens ciphertext entropy = some plaintext
  | .serializeRequest key deviceId, .ok request => H.IsRequest request key deviceId
  | _, _ => True

/-- An operation that fails has changed nothing, or it has done what it was to do, or it has
written a part. -/
def Commits (H : SecretHost) (files : FileSystem) (op : SecretOp) (reply : op.Reply)
    (files' : FileSystem) : Prop :=
  op.answers H files reply ∧
    match op, reply with
    | .createNew path, .ok _ => (SecretOp.createNew path).change files = some files'
    | .writeAll path content, .ok _ => (SecretOp.writeAll path content).change files = some files'
    | .moveFile source target, .ok _ => (SecretOp.moveFile source target).change files = some files'
    | .removeFile path, .ok _ => (SecretOp.removeFile path).change files = some files'
    | .writeAll path _, .error _ =>
        files' = files ∨ ∃ content, files' = Function.update files (fileKey path) (some content)
    | op, _ => files' = files ∨ op.change files = some files'

end SecretOp

abbrev SecretFiles : Interface := ⟨SecretOp, SecretOp.Reply⟩

/-- The files of a directory are the same. -/
def SameIn (root : String) (files files' : FileSystem) : Prop :=
  ∀ name, files' (fileKey (join root name)) = files (fileKey (join root name))

/-- Before each operation other programs may have changed files elsewhere. -/
def SecretFiles.Commit (H : SecretHost) (root : String) (files : FileSystem) (e : Event SecretFiles)
    (files' : FileSystem) : Prop :=
  ∃ found, SameIn root files found ∧ e.op.Commits H found e.reply files'

/-! ### Messages -/

inductive SecretError
  | invalidName
  | invalidSecretSize
  | invalidBlob
  | dpapi (source : SystemError)
  | io (source : SystemError)
  deriving DecidableEq

inductive IdentityError
  | invalidDeviceId
  | keyAlreadyExists
  | rcgen (source : SystemError)
  | secret (source : SecretError)
  deriving DecidableEq

structure DeviceEnrollment where
  deviceId : String
  csrDer : List UInt8
  deriving DecidableEq

abbrev SecretM (α : Type) := ExceptT SecretError (Program SecretFiles) α

abbrev IdentityM (α : Type) := ExceptT IdentityError (Program SecretFiles) α

def fileMagic : List UInt8 := utf8 "VOR-SECRET-DPAPI-1\x00"

def appEntropy : List UInt8 := utf8 "vor-commander:dpapi:v1"

def maxSecretBytes : ℕ := 1024 * 1024

/-! ### The store -/

structure FileSecretStore where
  root : String

/-- `validate_name`. -/
def validateSecretName (name : String) : Except SecretError Unit :=
  failIf (name = "" ∨ 128 < byteLength name ∨
    ¬ name.toList.all fun c => c.isAlphanum || c = '-' || c = '_') .invalidName

/-- The file of a secret. -/
def secretPath (root name : String) : String := join root (name ++ ".dpapi")

/-- The file a secret is first written to. -/
def secretTempPath (root name : String) (suffix : List UInt8) : String :=
  join root ("." ++ name ++ "." ++ hexEncode suffix ++ ".tmp")

/-- `blob_from_slice`. -/
def blobFromSlice (bytes : List UInt8) : Except SecretError (List UInt8) :=
  if bytes.length < 2 ^ 32 then .ok bytes else .error .invalidSecretSize

def protect (plaintext entropy : List UInt8) : SecretM (List UInt8) := do
  let input ← check (blobFromSlice plaintext)
  let entropy ← check (blobFromSlice entropy)
  ExceptT.adapt .dpapi (attempt (perform (I := SecretFiles) (.protect input entropy)))

def unprotect (ciphertext entropy : List UInt8) : SecretM (List UInt8) := do
  let input ← check (blobFromSlice ciphertext)
  let entropy ← check (blobFromSlice entropy)
  ExceptT.adapt .dpapi (attempt (perform (I := SecretFiles) (.unprotect input entropy)))

namespace FileSecretStore

/-- `FileSecretStore::open`. -/
def «open» (root : String) : SecretM FileSecretStore := do
  ExceptT.adapt .io (attempt (perform (I := SecretFiles) (.createDirAll root)))
  let root ← ExceptT.adapt .io (attempt (perform (I := SecretFiles) (.canonicalize root)))
  return { root }

/-- `FileSecretStore::put`. -/
def put (store : FileSecretStore) (name : String) (secret : List UInt8) : SecretM Unit := do
  check (validateSecretName name)
  check (failIf (secret = [] ∨ maxSecretBytes < secret.length) .invalidSecretSize)
  let encrypted ← protect secret appEntropy
  let target := secretPath store.root name
  let suffix ← ExceptT.lift (perform (I := SecretFiles) (.random 8))
  let temp := secretTempPath store.root name suffix
  ExceptT.adapt .io (attempt (perform (I := SecretFiles) (.createNew temp)))
  ExceptT.adapt .io (attempt (perform (I := SecretFiles) (.writeAll temp fileMagic)))
  ExceptT.adapt .io (attempt (perform (I := SecretFiles) (.writeAll temp encrypted)))
  ExceptT.adapt .io (attempt (perform (I := SecretFiles) (.syncAll temp)))
  ExceptT.adapt .io (attempt (perform (I := SecretFiles) (.moveFile temp target)))

/-- `FileSecretStore::get`. -/
def get (store : FileSecretStore) (name : String) : SecretM (List UInt8) := do
  check (validateSecretName name)
  let path := secretPath store.root name
  let bytes ← ExceptT.adapt .io (attempt (perform (I := SecretFiles) (.read path)))
  check (failIf (¬ fileMagic <+: bytes ∨ bytes.length = fileMagic.length) .invalidBlob)
  let decrypted ← unprotect (bytes.drop fileMagic.length) appEntropy
  check (failIf (decrypted = [] ∨ maxSecretBytes < decrypted.length) .invalidBlob)
  return decrypted

/-- `FileSecretStore::delete`. -/
def delete (store : FileSecretStore) (name : String) : SecretM Bool := do
  check (validateSecretName name)
  let path := secretPath store.root name
  match ← ExceptT.lift (perform (I := SecretFiles) (.removeFile path)) with
  | .ok _ => return true
  | .error .notFound => return false
  | .error e => throw (.io e)

/-- `FileSecretStore::contains`. -/
def contains (store : FileSecretStore) (name : String) : SecretM Bool := do
  check (validateSecretName name)
  ExceptT.lift (perform (I := SecretFiles) (.isFile (secretPath store.root name)))

end FileSecretStore

/-! ### Device keys -/

/-- `validate_device_id`. -/
def validateDeviceId (value : String) : Except IdentityError Unit :=
  failIf (value = "" ∨ 128 < byteLength value ∨
    ¬ value.toList.all fun c => c.isAlphanum || c = '-' || c = '_' || c = '.') .invalidDeviceId

/-- `create_device_enrollment`. -/
def createDeviceEnrollment (store : FileSecretStore) (keyName deviceId : String) :
    IdentityM DeviceEnrollment := do
  check (validateDeviceId deviceId)
  let found ← ExceptT.adapt .secret (store.contains keyName)
  check (failIf (found = true) .keyAlreadyExists)
  let key ← ExceptT.adapt .rcgen (attempt (perform (I := SecretFiles) .generateKeyPair))
  let csrDer ← ExceptT.adapt .rcgen
    (attempt (perform (I := SecretFiles) (.serializeRequest key deviceId)))
  ExceptT.adapt .secret (store.put keyName key)
  return { deviceId, csrDer }

/-- `load_device_private_key`. -/
def loadDevicePrivateKey (store : FileSecretStore) (keyName : String) : IdentityM (List UInt8) :=
  ExceptT.adapt .secret (store.get keyName)

end VorCommander
