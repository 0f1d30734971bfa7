import VorCommander.Policy.WindowsPath

/-!
Classification of command lines.

Two questions are asked of an argument vector: does it hand program text to
an interpreter, and is it one of the commands that may run without a
signature. The second resolves the executable among the trusted paths, which
only the host can canonicalise.
-/

namespace VorCommander

open Text WindowsPath

structure SafeCommandRule where
  executable : String
  arguments : List String
  deriving DecidableEq

namespace Terminal

/-! ### Safe commands -/

/-- `contains_shell_control`. -/
def containsShellControl (argument : String) : Bool :=
  argument.toList.any fun c => [';', '|', '&', '>', '<', '\n', '\r'].contains c

/-- `forbidden_safe_argument`. -/
def forbiddenSafeArgument (argument : String) : Bool :=
  let normalized := toAsciiLowercase argument
  normalized = "-c" || startsWith normalized "-c=" || normalized = "/c" ||
    startsWith normalized "/c:" || normalized = "--exec" || startsWith normalized "--exec="

/-- `forbidden_safe_executable`. -/
def forbiddenSafeExecutable (path : String) : Bool :=
  ["bat", "cmd"].contains (toAsciiLowercase (extension path)) ||
    ["cmd", "powershell", "pwsh", "sh", "bash", "dash", "zsh", "fish", "wsl"].contains
      (toAsciiLowercase (fileStem path))

/-- `executable_name_matches`. -/
def executableNameMatches (path configured : String) : Bool :=
  eqIgnoreAsciiCase (fileStem path) (fileStem configured)

/-- `resolve_safe_executable_path`. -/
def resolveSafeExecutablePath (host : Host) (value : String) (allowedExecutables : List String) :
    Option String :=
  let trusted := (allowedExecutables.filter isAbsolute).filterMap host.canonicalize
  if isAbsolute value || value.toList.any isSeparator then
    (host.canonicalize value).filter fun resolved => trusted.any (eqIgnoreAsciiCase resolved)
  else trusted.find? fun path => executableNameMatches path value

/-- `safe_command_matches`, on the executable and the arguments. -/
def safeCommandMatches (host : Host) (executable : String) (arguments : List String)
    (rules : List SafeCommandRule) (allowedExecutables : List String) : Bool :=
  match resolveSafeExecutablePath host executable allowedExecutables with
  | none => false
  | some resolved =>
      !((executable :: arguments).any containsShellControl ||
          arguments.any forbiddenSafeArgument || forbiddenSafeExecutable resolved) &&
        rules.any fun rule =>
          !isBlank rule.executable &&
            rule.arguments.all (fun argument => !containsShellControl argument) &&
            executableNameMatches resolved rule.executable && arguments = rule.arguments

/-! ### Inline evaluation -/

/-- `cmd_is_inline_eval`, on the arguments. -/
def cmdIsInlineEval : List String → Bool
  | [] => false
  | argument :: rest =>
      let normalized := toAsciiLowercase argument
      if startsWith normalized "/c" || startsWith normalized "/k" || startsWith normalized "/r"
      then true
      else if !startsWith normalized "/" then false
      else cmdIsInlineEval rest

/-- PowerShell parameters that take the next argument as their value. -/
def valuedParameters : List String :=
  ["executionpolicy", "windowstyle", "version", "workingdirectory", "configurationname",
   "configurationfile", "inputformat", "outputformat", "encodedarguments", "psconsolefile",
   "settingsfile", "custompipename"]

/-- Aliases of such parameters. -/
def valuedAliases : List String := ["ep", "ex", "w", "v", "wd", "ea", "if", "of"]

/-- `s` has at least `n` bytes and is a prefix of `full`. -/
def abbreviates (s full : String) (n : ℕ) : Bool := n ≤ byteLength s && startsWith full s

/-- `powershell_is_inline_eval`, on the arguments. -/
def powershellIsInlineEval (windowsPowershell : Bool) : List String → Bool
  | [] => false
  | argument :: rest =>
      let normalized := toAsciiLowercase argument
      match stripPrefix normalized "--" <|> stripPrefix normalized "-" <|>
          stripPrefix normalized "/" with
      | none => windowsPowershell
      | some name =>
          let inlineValue := name.toList.contains ':'
          let name := (splitOnce ':' name).elim name (·.1)
          if name.isEmpty then powershellIsInlineEval windowsPowershell rest
          else if ["e", "ec", "cwa"].contains name || startsWith "command" name ||
              abbreviates name "encodedcommand" 2 || abbreviates name "commandwithargs" 8 then
            true
          else if name = "f" || abbreviates name "file" 2 then false
          else if !inlineValue && (valuedAliases.contains name ||
              valuedParameters.any fun full => abbreviates name full 3) then
            match rest with
            | [] => false
            | _ :: rest => powershellIsInlineEval windowsPowershell rest
          else powershellIsInlineEval windowsPowershell rest

/-- One trigger matches one lower-case argument. -/
def triggerMatches (powershell : Bool) (normalized trigger : String) : Bool :=
  normalized = trigger ||
    (startsWith trigger "--" &&
      (stripPrefix normalized trigger).any fun rest => startsWith rest "=") ||
    (byteLength trigger = 2 && startsWith trigger "-" && startsWith normalized trigger &&
      byteLength trigger < byteLength normalized) ||
    (powershell && trigger = "-command" && ["-c", "/c"].contains normalized)

/-- The scan of the arguments for a trigger; it ends at `--` and at the first
argument that is not an option. -/
def scanTriggers (triggers : List String) (powershell : Bool) : List String → Bool
  | [] => false
  | argument :: rest =>
      let normalized := toAsciiLowercase argument
      if normalized = "--" then false
      else if triggers.any (triggerMatches powershell normalized) then true
      else if !(startsWith normalized "-" || powershell && startsWith normalized "/") then false
      else scanTriggers triggers powershell rest

/-- The lower-case name of a program without its directory and without the
first of the four executable suffixes it ends with. -/
def programName (executable : String) : String :=
  let name := toAsciiLowercase (lastSegment isSeparator executable)
  match [".exe", ".cmd", ".bat", ".com"].find? (endsWith name) with
  | some suffix => String.ofList (name.toList.take (name.toList.length - suffix.toList.length))
  | none => name

/-- `command_is_inline_eval`. -/
def commandIsInlineEval : List String → Bool
  | [] => false
  | executable :: arguments =>
      let name := programName executable
      if ["python", "python3", "py"].contains name || startsWith name "python3." then
        scanTriggers ["-c"] false arguments
      else if name = "node" then
        scanTriggers ["-e", "--eval", "-p", "--print"] false arguments
      else if ["ruby", "perl"].contains name then scanTriggers ["-e"] false arguments
      else if name = "osascript" then scanTriggers ["-e"] false arguments
      else if ["powershell", "pwsh"].contains name then
        powershellIsInlineEval (name = "powershell") arguments ||
          scanTriggers ["-command", "-encodedcommand"] true arguments
      else if name = "cmd" then
        cmdIsInlineEval arguments || scanTriggers ["/c", "/k"] true arguments
      else if ["bash", "sh", "zsh", "fish", "dash", "ksh"].contains name then
        scanTriggers ["-c", "--command"] false arguments
      else if name = "wsl" then !arguments.isEmpty
      else false

end Terminal

end VorCommander
