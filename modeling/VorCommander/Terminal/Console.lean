import VorCommander.Steps.Crash
import VorCommander.Terminal.CommandLine
import VorCommander.Terminal.Sessions
import VorCommander.Text.Utf16

/-!
The bounded terminal.

A process is started in a console of its own. The worker takes what the console has
published, up to a limit, and looks whether the process has ended. It terminates the
process when it is cancelled, when the time is over and when the output is too long.
Meanwhile the process may end at any moment, and the console may publish at any moment,
also after the process has ended. The console is closed when a run is over, which is left out.
-/

namespace VorCommander

open Steps Steps.Program Text

/-! ### The console -/

/-- A process that is to be terminated ends later. -/
inductive ChildProcess
  | absent
  | running
  | terminating
  | ended (code : ℕ)
  deriving DecidableEq

/-- A console with its process, a clock that counts nanoseconds, and the flag of the
caller. What was `taken` has been read of what was published, and `faulty` says that a call
of the system has failed. -/
structure Console where
  process : ChildProcess := .absent
  published : List UInt8 := []
  taken : List UInt8 := []
  clock : ℕ := 0
  cancelled : Bool := false
  faulty : Bool := false
  deriving DecidableEq

/-- What was published and not yet read. -/
def Console.pending (s : Console) : List UInt8 := s.published.drop s.taken.length

/-- The calls before a process is created. -/
inductive SetUp
  | createPipe
  | createPseudoConsole (columns rows : ℕ)
  | attributeList
  | attachPseudoconsole

inductive ConsoleOp
  | isCancelled
  | now
  | setUp (call : SetUp)
  | createProcess (command currentDirectory : List UInt16) (environment : Option (List UInt16))
  | peekNamedPipe
  | readFile (requested : ℕ)
  | getExitCodeProcess
  | terminateProcess (exitCode : ℕ)
  | sleep (nanoseconds : ℕ)

def stillActive : ℕ := 259

/-- `is_broken_pipe`. -/
def isBrokenPipe (error : ℕ) : Bool := error = 109 || error = 232 || error = 233

namespace ConsoleOp

/-- What the calls give. An error is the code that the system gives. -/
@[reducible] def Reply : ConsoleOp → Type
  | .isCancelled => Bool
  | .now => ℕ
  | .sleep _ => Unit
  | .peekNamedPipe | .getExitCodeProcess => Except ℕ ℕ
  | .readFile _ => Except ℕ (List UInt8)
  | _ => Except ℕ Unit

/-- What is said of a console is so. -/
def answers (s : Console) : (op : ConsoleOp) → op.Reply → Prop
  | .isCancelled, cancelled => cancelled = s.cancelled
  | .now, time => time = s.clock
  | .peekNamedPipe, .ok available =>
      available ≤ s.pending.length ∧ (available = 0 → s.pending = [])
  | .peekNamedPipe, .error e => isBrokenPipe e = true → s.pending = []
  | .readFile requested, .ok bytes =>
      bytes <+: s.pending ∧ bytes.length ≤ requested ∧ (bytes = [] → s.pending = [])
  | .readFile _, .error e => isBrokenPipe e = true → s.pending = []
  | .getExitCodeProcess, .ok code =>
      match s.process with
      | .ended exitCode => code = exitCode
      | .running | .terminating => code = stillActive
      | .absent => True
  | _, _ => True

/-- What a call does to a console. A pipe that the other side has closed is not a fault. Of
several processes of a console the first one is followed. -/
def effect (s : Console) : (op : ConsoleOp) → op.Reply → Console
  | .createProcess _ _ _, .ok _ =>
      { s with process := if s.process = .absent then .running else s.process }
  | .readFile _, .ok bytes => { s with taken := s.taken ++ bytes }
  | .terminateProcess _, .ok _ =>
      { s with process := if s.process = .running then .terminating else s.process }
  | .peekNamedPipe, .error e | .readFile _, .error e =>
      { s with faulty := s.faulty || !isBrokenPipe e }
  | .setUp _, .error _ | .createProcess _ _ _, .error _ | .getExitCodeProcess, .error _
  | .terminateProcess _, .error _ => { s with faulty := true }
  | _, _ => s

/-- How long a call takes at least. -/
def duration : ConsoleOp → ℕ
  | .sleep nanoseconds => nanoseconds
  | _ => 0

end ConsoleOp

abbrev Consoles : Interface := ⟨ConsoleOp, ConsoleOp.Reply⟩

/-- What happens to a console in between. -/
structure Console.Evolves (s s' : Console) : Prop where
  clock : s.clock ≤ s'.clock
  published : s.published <+: s'.published
  process : s'.process = s.process ∨
    (s.process = .running ∨ s.process = .terminating) ∧ ∃ code, s'.process = .ended code
  cancelled : s.cancelled = true → s'.cancelled = true
  taken : s'.taken = s.taken
  faulty : s'.faulty = s.faulty

def Consoles.Commit (s : Console) (e : Event Consoles) (s' : Console) : Prop :=
  ∃ found : Console, s.Evolves found ∧ s.clock + e.op.duration ≤ found.clock ∧
    e.op.answers found e.reply ∧ s' = e.op.effect found e.reply

abbrev ConsoleM (α : Type) := ExceptT TerminalError (Program Consoles) α

namespace Worker

/-! ### Starting a process -/

def interiorNul : TerminalError := .other "terminal command or path contains an interior NUL"

/-- The text that the system has for an error is left out. -/
def ioFailed (error : ℕ) : TerminalError := .other s!"terminal I/O failed: os error {error}"

def pseudoConsoleFailed (code : ℕ) : TerminalError :=
  .other ("Win32 CreatePseudoConsole failed with HRESULT 0x" ++ .ofList (Nat.toDigits 16 code))

/-- A call of the system that fails with an error of its own. -/
def call {α : Type} (fail : ℕ → TerminalError) (p : Program Consoles (Except ℕ α)) : ConsoleM α :=
  ExceptT.adapt fail (attempt p)

/-- `encode_wide`. -/
def encodeWide (value : String) : List UInt16 := value.toList.flatMap units

/-- `wide_os_nul`, as which both `wide_nul` and `path_wide_nul` go on. -/
def wideOsNul (value : String) : Except TerminalError (List UInt16) := do
  failIf (0 ∈ encodeWide value) interiorNul
  return encodeWide value ++ [0]

/-- `child_environment_block`. A name comes once, in the spelling that comes last. -/
def childEnvironmentBlock (overrides : Environment) :
    Except TerminalError (Option (List UInt16)) := do
  if overrides.isEmpty then return none
  let values ← overrides.toList.foldlM (fun values (entry : String × String) => do
    failIf (entry.1 = "" ∨ '=' ∈ entry.1.toList ∨ '\x00' ∈ entry.1.toList ∨
      '\x00' ∈ entry.2.toList) interiorNul
    return values.filter (fun existing => !eqIgnoreAsciiCase existing.1 entry.1) ++ [entry]) []
  let sorted := values.mergeSort fun left right =>
    decide (toAsciiLowercase left.1 ≤ toAsciiLowercase right.1)
  return some (sorted.flatMap (fun entry =>
    encodeWide entry.1 ++ encodeWide "=" ++ encodeWide entry.2 ++ [0]) ++ [0])

/-- `checked_coord`. -/
def checkedCoord (columns rows : ℕ) : Except TerminalError Unit :=
  failIf (columns = 0 ∨ rows = 0 ∨ 2 ^ 15 ≤ columns ∨ 2 ^ 15 ≤ rows)
    (.other "terminal dimensions are invalid")

namespace ConPtySession

/-- `ConPtySession::spawn`. -/
def spawn (commandLine currentDirectory : String) (environment : Environment)
    (columns rows : ℕ) : ConsoleM Unit := do
  check (failIf (isBlank commandLine) (.other "terminal command line cannot be empty"))
  check (checkedCoord columns rows)
  call ioFailed (perform (I := Consoles) (.setUp .createPipe))
  call ioFailed (perform (I := Consoles) (.setUp .createPipe))
  call pseudoConsoleFailed
    (perform (I := Consoles) (.setUp (.createPseudoConsole columns rows)))
  call ioFailed (perform (I := Consoles) (.setUp .attributeList))
  call ioFailed (perform (I := Consoles) (.setUp .attachPseudoconsole))
  let command ← check (wideOsNul commandLine)
  let currentDirectory ← check (wideOsNul currentDirectory)
  let environmentBlock ← check (childEnvironmentBlock environment)
  call ioFailed (perform (I := Consoles)
    (.createProcess command currentDirectory environmentBlock))

def readChunk : ℕ := 64 * 1024

/-- A pipe that the other side has closed has nothing more. -/
def orClosed {α : Type} (nothing : α) : Except ℕ α → Except ℕ α
  | .error e => if isBrokenPipe e then .ok nothing else .error e
  | .ok a => .ok a

/-- `ConPtySession::read_available`. -/
def readAvailable : ConsoleM (List UInt8) := do
  let available ← call ioFailed (orClosed 0 <$> perform (I := Consoles) .peekNamedPipe)
  if available = 0 then return []
  else
    call ioFailed (orClosed [] <$>
      perform (I := Consoles) (.readFile (min available readChunk)))

/-- `ConPtySession::exit_code`. -/
def exitCode : ConsoleM (Option ℕ) := do
  let code ← call ioFailed (perform (I := Consoles) .getExitCodeProcess)
  return if code = stillActive then none else some code

/-- `ConPtySession::terminate`. -/
def terminate (code : ℕ) : ConsoleM Unit := do
  let exited ← exitCode
  if exited.isSome then return ()
  else call ioFailed (perform (I := Consoles) (.terminateProcess code))

end ConPtySession

open ConPtySession

/-! ### Running it -/

/-- The process is terminated, and the run fails. -/
def stopWith {α : Type} (code : ℕ) (e : TerminalError) : ConsoleM α := do
  terminate code
  throw e

/-- `append_output`. -/
def appendOutput (output chunk : List UInt8) (limit : ℕ) : ConsoleM (List UInt8) :=
  if limit < output.length + chunk.length then stopWith 0xEA (.outputLimitExceeded limit)
  else return output ++ chunk

def milliseconds (n : ℕ) : ℕ := n * 1000000

def pause (nanoseconds : ℕ) : ConsoleM Unit :=
  ExceptT.lift (perform (I := Consoles) (.sleep nanoseconds))

/-- `drain_output`, with so many looks left after so many that have found nothing. -/
def drainOutput (limit : ℕ) : ℕ → ℕ → List UInt8 → ConsoleM (List UInt8)
  | 0, _, _ => throw (.other "terminal output did not drain within bounded iterations")
  | left + 1, emptyReads, output => do
      let chunk ← readAvailable
      if chunk = [] then
        if 5 ≤ emptyReads + 1 then return output
        else
          pause (milliseconds 5)
          drainOutput limit left (emptyReads + 1) output
      else
        let output ← appendOutput output chunk limit
        drainOutput limit left 0 output

/-- The loop of `BoundedTerminal::run`. -/
def pollProcess (spec : TerminalSpec) (started : ℕ) :
    ℕ → List UInt8 → ConsoleM (Option TerminalRunResult)
  | 0, _ => return none
  | fuel + 1, output => do
      let cancelled ← ExceptT.lift (perform (I := Consoles) .isCancelled)
      if cancelled then stopWith 0xC000013A .cancelled
      else
        let now ← ExceptT.lift (perform (I := Consoles) .now)
        if milliseconds spec.timeoutMs ≤ now - started then
          stopWith 0x5B4 (.timeout spec.timeoutMs)
        else
          let chunk ← readAvailable
          let output ← appendOutput output chunk spec.maxOutputBytes
          match ← exitCode with
          | some code =>
              let output ← drainOutput spec.maxOutputBytes 256 0 output
              return some { exitCode := code, output }
          | none =>
              pause (milliseconds 10)
              pollProcess spec started fuel output

/-- `BoundedTerminal::run`. Its loop has no bound but the clock: `fuel` bounds it here, and
the result is `none` if it does not suffice. -/
def BoundedTerminal.run (canonicalize : String → Except TerminalError String)
    (terminal : BoundedTerminal) (spec : TerminalSpec) (fuel : ℕ) :
    ConsoleM (Option TerminalRunResult) := do
  let prepared ← check (terminal.prepare canonicalize spec)
  let cancelled ← ExceptT.lift (perform (I := Consoles) .isCancelled)
  if cancelled then throw .cancelled
  else
    spawn prepared.1 prepared.2 spec.environment spec.columns spec.rows
    let started ← ExceptT.lift (perform (I := Consoles) .now)
    pollProcess spec started fuel []

end Worker

end VorCommander
