import VorCommander.Text.Strings

/-!
Windows path texts as the policy and the workers compare them.

Containment and sensitivity are decided on the text alone. Normalisation
also asks the host, but only for the long form of a path with a component
that looks like an 8.3 short name; a `Host` answers that question, and it
resolves the executables of the terminal rules.
-/

namespace VorCommander

open Text

/-- What the device's file system says about paths: `fs::canonicalize` and
`GetLongPathNameW`, each `none` where the call fails. -/
structure Host where
  canonicalize : String → Option String
  longPathName : String → Option String

namespace WindowsPath

/-- `\` or `/`. -/
def isSeparator (c : Char) : Bool := c = '\\' || c = '/'

/-- `trim_end_matches(['\\', '/'])`. -/
def trimSeparators (path : List Char) : List Char :=
  (path.reverse.dropWhile isSeparator).reverse

/-- `windows_path_within`. The slice of the path as long as the root equals
the root up to ASCII case only if both have the same number of characters, so
characters are counted here where the program counts bytes. -/
def windowsPathWithin (path root : String) : Bool :=
  let path := trimSeparators path.toList
  let root := trimSeparators root.toList
  asciiLower path = asciiLower root ||
    (asciiLower (path.take root.length) = asciiLower root &&
      (path.drop root.length).head?.any isSeparator)

/-- The non-empty components of a path text between `\`. -/
def components (path : String) : List String :=
  (splitChars (· = '\\') path).filter fun part => !part.isEmpty

/-- `parts.join("\\")`. -/
def joinParts (parts : List String) : String :=
  String.ofList (List.intercalate ['\\'] (parts.map String.toList))

/-! ### Sensitive paths -/

/-- Component sequences that make a path sensitive wherever they occur. -/
def sensitiveSequences : List (List String) :=
  [[".github", "workflows"], [".config", "systemd", "user"], ["etc", "cron.d"],
   ["var", "spool", "cron", "crontabs"], ["windows", "system32", "tasks"]]

/-- Extensions of scripts and other executable files. -/
def sensitiveExtensions : List String :=
  ["ps1", "psm1", "psd1", "bat", "cmd", "vbs", "wsf", "hta", "exe", "dll", "msi", "lnk",
   "url", "reg", "scr", "sh", "bash", "zsh", "fish"]

/-- `sensitive_windows_path`. -/
def sensitiveWindowsPath (path : String) : Bool :=
  let normalized := toAsciiLowercase (replaceChar '/' '\\' path)
  let parts := components normalized
  let name := parts.getLast?.getD ""
  parts.any (fun part => part = ".git" || part = ".ssh" || part = "startup") ||
    parts.any (fun part => startsWith part ".env") ||
    sensitiveSequences.any (fun sequence => decide (sequence <:+: parts)) ||
    [".bashrc", ".profile", ".zshrc", ".bash_profile", ".zprofile"].contains name ||
    containsString normalized "\\start menu\\programs\\startup\\" ||
    endsWith normalized "\\start menu\\programs\\startup" ||
    ((containsString normalized "\\windowspowershell\\" ||
        containsString normalized "\\powershell\\") &&
      containsString name "profile" && endsWith name ".ps1") ||
    sensitiveExtensions.any fun extension => endsWith name ("." ++ extension)

/-! ### Normalisation -/

/-- `is_reserved_windows_name`. -/
def isReservedWindowsName (component : String) : Bool :=
  let stem := toAsciiLowercase ((splitOnce '.' component).elim component (·.1))
  let numbered (name : String) :=
    (stripPrefix stem name).any fun number =>
      ["1", "2", "3", "4", "5", "6", "7", "8", "9"].contains number
  ["con", "prn", "aux", "nul"].contains stem || numbered "com" || numbered "lpt"

/-- Some `~` is followed by a digit. -/
def hasTildeDigit : List Char → Bool
  | c :: d :: rest => (c = '~' && d.isDigit) || hasTildeDigit (d :: rest)
  | _ => false

/-- `has_short_name_alias`. -/
def hasShortNameAlias (component : String) : Bool := hasTildeDigit component.toList

/-- A component that no unambiguous path has. -/
def ambiguousPart (part : String) : Bool :=
  part = "." || part = ".." || endsWith part "." || endsWith part " " ||
    part.toList.contains ':' || part.toList.contains '\x00' || isReservedWindowsName part

/-- `split_windows_path`: the drive letter and the components of `X:\a\b`. -/
def splitWindowsPath (path : String) : Option (Char × List String) :=
  match path.toList with
  | drive :: ':' :: '\\' :: rest =>
      let parts := components (String.ofList rest)
      if drive.isAlpha && !parts.any ambiguousPart then some (drive.toUpper, parts) else none
  | _ => none

/-- `join_windows_path`. -/
def joinWindowsPath (drive : Char) (parts : List String) : String :=
  String.ofList (drive :: ':' :: '\\' :: asciiLower (joinParts parts).toList)

/-- The path of the first `existing` components in its long form, followed by
the other components as they are. -/
def expandPrefix (host : Host) (drive : Char) (parts : List String) (existing : ℕ) :
    Option String := do
  let long ← host.longPathName
    (String.ofList (drive :: ':' :: '\\' :: (joinParts (parts.take existing)).toList))
  let long := (long.toList.reverse.dropWhile (· = '\\')).reverse
  let expanded := long ++ (parts.drop existing).flatMap fun part => '\\' :: part.toList
  return String.ofList (if expanded.getLast? = some ':' then expanded ++ ['\\'] else expanded)

/-- `expand_short_names`: the longest existing prefix is expanded. -/
def expandShortNames (host : Host) (drive : Char) (parts : List String) : Option String :=
  (List.range (parts.length + 1)).reverse.findSome? (expandPrefix host drive parts)

/-- `normalize_windows_path`. -/
def normalizeWindowsPath (host : Host) (input : String) : Option String := do
  let (drive, parts) ← splitWindowsPath (replaceChar '/' '\\' input)
  if !parts.any hasShortNameAlias then
    return joinWindowsPath drive parts
  let expanded ← expandShortNames host drive parts
  let (drive, parts) ← splitWindowsPath expanded
  if parts.any hasShortNameAlias then none else return joinWindowsPath drive parts

/-! ### Executable names -/

/-- A path text without its drive or share prefix. -/
def dropPrefix (path : String) : List Char :=
  match path.toList with
  | a :: b :: rest =>
      if isSeparator a && isSeparator b then
        let afterServer := rest.dropWhile fun c => !isSeparator c
        (afterServer.drop 1).dropWhile fun c => !isSeparator c
      else if a.isAlpha && b = ':' then rest
      else a :: b :: rest
  | short => short

/-- `Path::is_absolute`: a drive or share prefix followed by a root. -/
def isAbsolute (path : String) : Bool :=
  match path.toList with
  | a :: ':' :: c :: _ => a.isAlpha && isSeparator c
  | a :: b :: c :: _ => isSeparator a && isSeparator b && !isSeparator c
  | _ => false

/-- `Path::file_name`. -/
def fileName (path : String) : Option String :=
  let names := ((dropPrefix path).splitOnP isSeparator).map String.ofList
  match (names.filter fun name => !name.isEmpty && name ≠ ".").getLast? with
  | some ".." => none
  | name => name

/-- A file name up to and after its last dot; a leading dot does not count. -/
def splitAtLastDot (name : String) : String × Option String :=
  let after := lastSegment (· = '.') name
  let before := name.toList.take (name.toList.length - after.toList.length - 1)
  if before.isEmpty then (name, none) else (String.ofList before, some after)

/-- `Path::file_stem`, the empty text where there is none. -/
def fileStem (path : String) : String := ((fileName path).map fun n => (splitAtLastDot n).1).getD ""

/-- `Path::extension`, the empty text where there is none. -/
def extension (path : String) : String :=
  ((fileName path).bind fun n => (splitAtLastDot n).2).getD ""

end WindowsPath

end VorCommander
