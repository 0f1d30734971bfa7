import VorCommander.Policy.Engine
import VorCommander.Text.Options

/-!
Program text on a command line.

The policy has a rule of its own for commands that hand program text to an interpreter.
To find them the arguments are scanned: the scan goes on while a word looks like an option,
and it ends with a finding if a word begins with one of the triggers. So it finds what
`Exposed` says, and what an interpreter is told in another way goes past it: an option for
program text that is not the first of its word, or one after an option that takes the next
word as its value.
-/

namespace VorCommander

open Text

/-- Some word is a hit, and the scan goes on over every word before it. -/
def Reaches (goesOn hit : String → Prop) (words : List String) : Prop :=
  ∃ before word after, words = before ++ word :: after ∧ (∀ w ∈ before, goesOn w) ∧ hit word

section Reaches

variable {goesOn hit : String → Prop} {word : String} {words : List String}

theorem not_reaches_nil : ¬ Reaches goesOn hit [] := by
  rintro ⟨before, word, after, heq, -⟩
  simp at heq

theorem reaches_cons :
    Reaches goesOn hit (word :: words) ↔ hit word ∨ goesOn word ∧ Reaches goesOn hit words := by
  constructor
  · rintro ⟨before, found, after, heq, hbefore, hhit⟩
    cases before with
    | nil =>
        obtain ⟨rfl, rfl⟩ := List.cons.inj heq
        exact .inl hhit
    | cons w before =>
        obtain ⟨rfl, rfl⟩ := List.cons.inj heq
        rw [List.forall_mem_cons] at hbefore
        exact .inr ⟨hbefore.1, before, found, after, rfl, hbefore.2, hhit⟩
  · rintro (hhit | ⟨hword, before, found, after, rfl, hbefore, hhit⟩)
    · exact ⟨[], word, words, rfl, by simp, hhit⟩
    · exact ⟨word :: before, found, after, rfl, by simpa using ⟨hword, hbefore⟩, hhit⟩

end Reaches

namespace Terminal

/-- The interpreters of the scan whose options have a common form, with the letters and the
names that it looks for. -/
def triggersOf (name : String) : Option (List Char × List String) :=
  if ["python", "python3", "py"].contains name || startsWith name "python3." then some (['c'], [])
  else if name = "node" then some (['e', 'p'], ["--eval", "--print"])
  else if ["ruby", "perl", "osascript"].contains name then some (['e'], [])
  else if ["bash", "sh", "zsh", "fish", "dash", "ksh"].contains name then
    some (['c'], ["--command"])
  else none

/-- The word begins with an option of a letter. -/
def SpelledShort (letters : List Char) (word : String) : Prop :=
  ∃ letter ∈ letters, startsWith (toAsciiLowercase word) (String.ofList ['-', letter]) = true

/-- The word is an option of a name, or assigns to it. -/
def SpelledLong (names : List String) (word : String) : Prop :=
  ∃ name ∈ names, toAsciiLowercase word = name ∨
    startsWith (toAsciiLowercase word) (name ++ "=") = true

/-- The word begins with a dash, and is not the mark before operands. -/
def LooksLikeOption (word : String) : Prop :=
  startsWith (toAsciiLowercase word) "-" = true ∧ toAsciiLowercase word ≠ "--"

/-- The scan of an interpreter finds program text: behind words that begin with a dash
there is one that begins with a trigger; for `cmd`, the words begin with a slash. -/
def Exposed (name : String) (arguments : List String) : Prop :=
  match triggersOf name with
  | some (letters, names) =>
      Reaches LooksLikeOption (fun word => SpelledShort letters word ∨ SpelledLong names word)
        arguments
  | none =>
      Reaches (fun word => startsWith (toAsciiLowercase word) "/" = true)
          (fun word => ∃ switch ∈ ["/c", "/k", "/r"],
            startsWith (toAsciiLowercase word) switch = true) arguments ∨
        Reaches (fun word => (startsWith (toAsciiLowercase word) "-" = true ∨
            startsWith (toAsciiLowercase word) "/" = true) ∧ toAsciiLowercase word ≠ "--")
          (fun word => toAsciiLowercase word ∈ ["/c", "/k"]) arguments

section Scan

variable {triggers arguments : List String} {powershell : Bool}

/-- One loop: it finds what is reached. -/
theorem scanTriggers_iff (hit : String → Prop)
    (hhit : ∀ word, hit word ↔
      triggers.any (triggerMatches powershell (toAsciiLowercase word)) = true)
    (hmark : ∀ word, hit word → toAsciiLowercase word ≠ "--") :
    scanTriggers triggers powershell arguments = true ↔
      Reaches (fun word => (startsWith (toAsciiLowercase word) "-" = true ∨
        powershell = true ∧ startsWith (toAsciiLowercase word) "/" = true) ∧
          toAsciiLowercase word ≠ "--") hit arguments := by
  induction arguments with
  | nil => simp [scanTriggers, not_reaches_nil]
  | cons word rest ih =>
      rw [reaches_cons, ← ih, scanTriggers]
      by_cases hmarker : toAsciiLowercase word = "--"
      · have hnot : ¬ hit word := fun h => hmark word h hmarker
        simp [hmarker, hnot]
      by_cases hfound : hit word
      · simp [hmarker, hfound, (hhit word).mp hfound]
      have hnone : triggers.any (triggerMatches powershell (toAsciiLowercase word)) = false := by
        rw [← Bool.not_eq_true, ← hhit]
        exact hfound
      by_cases hdash : startsWith (toAsciiLowercase word) "-" = true
      · simp [hmarker, hfound, hnone, hdash]
      · cases powershell <;> simp [hmarker, hfound, hnone, hdash]

/-- A trigger of one letter matches what begins with it. -/
theorem triggerMatches_short {normalized : String} {letter : Char} (hletter : letter ≠ '-')
    (hbyte : byteLength (String.ofList ['-', letter]) = 2) :
    triggerMatches false normalized (String.ofList ['-', letter]) = true ↔
      startsWith normalized (String.ofList ['-', letter]) = true := by
  have hname : startsWith (String.ofList ['-', letter]) "--" = false := by
    simp [startsWith, List.isPrefixOf, hletter.symm]
  have hdash : startsWith (String.ofList ['-', letter]) "-" = true := by simp [startsWith]
  simp only [triggerMatches, hname, hdash, hbyte, Bool.false_and, Bool.or_false, Bool.and_true,
    decide_true, Bool.true_and, Bool.or_eq_true, Bool.and_eq_true, decide_eq_true_eq]
  constructor
  · rintro (rfl | ⟨hstarts, -⟩)
    · simp [startsWith]
    · exact hstarts
  · intro hstarts
    obtain ⟨rest, hrest⟩ := List.isPrefixOf_iff_prefix.mp hstarts
    rw [String.toList_ofList] at hrest
    cases rest with
    | nil =>
        left
        rw [← String.toList_inj, String.toList_ofList, ← hrest, List.append_nil]
    | cons c rest =>
        -- the word is longer than the trigger
        right
        refine ⟨hstarts, ?_⟩
        have hle := length_le_byteLength normalized.toList
        rw [String.ofList_toList, ← hrest] at hle
        simp only [List.cons_append, List.nil_append, List.length_cons] at hle
        omega

/-- A trigger with a name matches the name, and what assigns to it. -/
theorem triggerMatches_long {normalized name : String} (hname : startsWith name "--" = true)
    (hlong : byteLength name ≠ 2) :
    triggerMatches false normalized name = true ↔
      normalized = name ∨ startsWith normalized (name ++ "=") = true := by
  have hassigns : (stripPrefix normalized name).any (fun rest => startsWith rest "=") = true ↔
      startsWith normalized (name ++ "=") = true := by
    simp only [stripPrefix, startsWith, List.isPrefixOf_iff_prefix, String.toList_append]
    split
    case isTrue hstarts =>
        obtain ⟨rest, hrest⟩ := hstarts
        simp [← hrest, List.prefix_append_right_inj]
    case isFalse hnot =>
        simp only [Option.any_none, Bool.false_eq_true, false_iff]
        intro hstarts
        exact hnot ((List.prefix_append _ _).trans hstarts)
  simp only [triggerMatches, hname, hlong, decide_false, Bool.false_and, Bool.or_false,
    Bool.true_and, Bool.or_eq_true, decide_eq_true_eq, hassigns]

end Scan

/-- The triggers of an interpreter, as the scan has them. -/
theorem spelled_iff {letters : List Char} {names : List String} {word : String}
    (hletters : ∀ letter ∈ letters, letter ≠ '-' ∧ byteLength (String.ofList ['-', letter]) = 2)
    (hnames : ∀ name ∈ names, startsWith name "--" = true ∧ byteLength name ≠ 2) :
    SpelledShort letters word ∨ SpelledLong names word ↔
      ∃ trigger ∈ letters.map (fun letter => String.ofList ['-', letter]) ++ names,
        triggerMatches false (toAsciiLowercase word) trigger = true := by
  simp only [List.mem_append, List.mem_map, or_and_right, exists_or, SpelledShort, SpelledLong]
  constructor
  · rintro (⟨letter, hmem, hstarts⟩ | ⟨name, hmem, hspelled⟩)
    · obtain ⟨hletter, hbyte⟩ := hletters letter hmem
      exact .inl ⟨_, ⟨letter, hmem, rfl⟩, (triggerMatches_short hletter hbyte).mpr hstarts⟩
    · obtain ⟨hname, hlong⟩ := hnames name hmem
      exact .inr ⟨name, hmem, (triggerMatches_long hname hlong).mpr hspelled⟩
  · rintro (⟨_, ⟨letter, hmem, rfl⟩, hmatches⟩ | ⟨name, hmem, hmatches⟩)
    · obtain ⟨hletter, hbyte⟩ := hletters letter hmem
      exact .inl ⟨letter, hmem, (triggerMatches_short hletter hbyte).mp hmatches⟩
    · obtain ⟨hname, hlong⟩ := hnames name hmem
      exact .inr ⟨name, hmem, (triggerMatches_long hname hlong).mp hmatches⟩

/-- No trigger matches the mark before operands. -/
theorem ne_marker_of_spelled {letters : List Char} {names : List String} {word : String}
    (hletters : ∀ letter ∈ letters, letter ≠ '-')
    (hnames : ∀ name ∈ names, 2 < name.toList.length)
    (h : SpelledShort letters word ∨ SpelledLong names word) :
    toAsciiLowercase word ≠ "--" := by
  intro hmarker
  rcases h with ⟨letter, hmem, hstarts⟩ | ⟨name, hmem, heq | hstarts⟩
  · have hne := hletters letter hmem
    rw [hmarker] at hstarts
    simp [startsWith, List.isPrefixOf, hne] at hstarts
  · have hlong := hnames name hmem
    rw [← heq, hmarker] at hlong
    exact absurd hlong (by decide)
  · have hlong := hnames name hmem
    rw [hmarker] at hstarts
    have hle := (List.isPrefixOf_iff_prefix.mp hstarts).length_le
    rw [String.toList_append, List.length_append] at hle
    have hmark : ("--" : String).toList.length = 2 := by simp
    omega

/-- The scan of the interpreters whose options have a common form. -/
theorem scanTriggers_spelled_iff {letters : List Char} {names triggers arguments : List String}
    (hletters : ∀ letter ∈ letters, letter ≠ '-' ∧ byteLength (String.ofList ['-', letter]) = 2)
    (hnames : ∀ name ∈ names, startsWith name "--" = true ∧ byteLength name ≠ 2 ∧
      2 < name.toList.length)
    (htriggers : ∀ trigger, trigger ∈ triggers ↔
      trigger ∈ letters.map (fun letter => String.ofList ['-', letter]) ++ names) :
    scanTriggers triggers false arguments = true ↔
      Reaches LooksLikeOption (fun word => SpelledShort letters word ∨ SpelledLong names word)
        arguments := by
  rw [scanTriggers_iff fun word => SpelledShort letters word ∨ SpelledLong names word]
  · simp only [Bool.false_eq_true, false_and, or_false]
    rfl
  · intro word
    rw [spelled_iff hletters fun name hmem => ⟨(hnames name hmem).1, (hnames name hmem).2.1⟩,
      List.any_eq_true]
    simp only [htriggers]
  · intro word
    exact ne_marker_of_spelled (fun letter hmem => (hletters letter hmem).1)
      fun name hmem => (hnames name hmem).2.2

/-- The loop over the switches of `cmd`. -/
theorem cmdIsInlineEval_iff {arguments : List String} :
    cmdIsInlineEval arguments = true ↔
      Reaches (fun word => startsWith (toAsciiLowercase word) "/" = true)
        (fun word => ∃ switch ∈ ["/c", "/k", "/r"],
          startsWith (toAsciiLowercase word) switch = true) arguments := by
  induction arguments with
  | nil => simp [cmdIsInlineEval, not_reaches_nil]
  | cons word rest ih =>
      rw [reaches_cons, ← ih, cmdIsInlineEval]
      simp only [List.mem_cons, List.not_mem_nil, or_false, exists_eq_or_imp, exists_eq_left]
      by_cases hfound : startsWith (toAsciiLowercase word) "/c" = true ∨
          startsWith (toAsciiLowercase word) "/k" = true ∨
            startsWith (toAsciiLowercase word) "/r" = true
      · simp [hfound, or_assoc]
      · cases hslash : startsWith (toAsciiLowercase word) "/" <;> simp [hfound, or_assoc]

/-- An interpreter that the scan knows, other than those of PowerShell and `wsl`. -/
def Interpreter (name : String) : Prop := (triggersOf name).isSome = true ∨ name = "cmd"

theorem letters_spelled : ∀ letter ∈ ['c', 'e', 'p'],
    letter ≠ '-' ∧ byteLength (String.ofList ['-', letter]) = 2 := by
  simp only [List.mem_cons, List.not_mem_nil, or_false, forall_eq_or_imp, forall_eq, byteLength,
    String.utf8ByteSize_ofList, String.utf8Len_cons, String.utf8Len_nil]
  decide

theorem names_spelled : ∀ name ∈ ["--eval", "--print", "--command"],
    startsWith name "--" = true ∧ byteLength name ≠ 2 ∧ 2 < name.toList.length := by
  have hspelled : ∀ name ∈ ["--eval", "--print", "--command"],
      startsWith name "--" = true ∧ 2 < name.toList.length := by simp [startsWith]
  intro name hname
  obtain ⟨hstarts, hlength⟩ := hspelled name hname
  have hbytes := length_le_byteLength name.toList
  rw [String.ofList_toList] at hbytes
  exact ⟨hstarts, by omega, hlength⟩

/-- The triggers of an interpreter are those of its letters and names. -/
theorem commandIsInlineEval_of_triggersOf {executable : String} {arguments : List String}
    {letters : List Char} {names : List String}
    (h : triggersOf (programName executable) = some (letters, names)) :
    ∃ triggers,
      commandIsInlineEval (executable :: arguments) = scanTriggers triggers false arguments ∧
      letters ⊆ ['c', 'e', 'p'] ∧ names ⊆ ["--eval", "--print", "--command"] ∧
      ∀ trigger, trigger ∈ triggers ↔
        trigger ∈ letters.map (fun letter => String.ofList ['-', letter]) ++ names := by
  generalize hprogram : programName executable = name at h
  simp only [commandIsInlineEval, hprogram]
  unfold triggersOf at h
  split_ifs at h with hpython hnode hscript hshell
  · obtain ⟨rfl, rfl⟩ := Prod.mk.inj (Option.some.inj h)
    exact ⟨["-c"], by rw [if_pos hpython], by simp, by simp, by simp⟩
  · obtain ⟨rfl, rfl⟩ := Prod.mk.inj (Option.some.inj h)
    refine ⟨["-e", "--eval", "-p", "--print"], by rw [if_neg hpython, if_pos hnode], by simp,
      by simp, fun trigger => ?_⟩
    simp only [List.map_cons, List.map_nil, List.cons_append, List.nil_append, List.mem_cons,
      List.not_mem_nil, or_false]
    exact or_congr_right or_left_comm
  · obtain ⟨rfl, rfl⟩ := Prod.mk.inj (Option.some.inj h)
    refine ⟨["-e"], ?_, by simp, by simp, by simp⟩
    simp only [List.contains_eq_mem, List.mem_cons, List.not_mem_nil, or_false,
      decide_eq_true_eq] at hscript
    rcases hscript with rfl | rfl | rfl <;> rfl
  · obtain ⟨rfl, rfl⟩ := Prod.mk.inj (Option.some.inj h)
    refine ⟨["-c", "--command"], ?_, by simp, by simp, by simp⟩
    simp only [List.contains_eq_mem, List.mem_cons, List.not_mem_nil, or_false,
      decide_eq_true_eq] at hshell
    rcases hshell with rfl | rfl | rfl | rfl | rfl | rfl <;> rfl

/-- Inline evaluation is found if and only if it is exposed. -/
theorem commandIsInlineEval_iff {executable : String} {arguments : List String}
    (hname : Interpreter (programName executable)) :
    commandIsInlineEval (executable :: arguments) = true ↔
      Exposed (programName executable) arguments := by
  cases htriggers : triggersOf (programName executable) with
  | some found =>
      obtain ⟨letters, names⟩ := found
      obtain ⟨triggers, hscan, hletters, hnames, hmem⟩ :=
        commandIsInlineEval_of_triggersOf htriggers
      rw [hscan, Exposed, htriggers]
      exact scanTriggers_spelled_iff (fun letter h => letters_spelled letter (hletters h))
        (fun name h => names_spelled name (hnames h)) hmem
  | none =>
      -- the only interpreter without letters and names of its own is `cmd`
      have hcmd : programName executable = "cmd" := by
        rcases hname with hsome | hcmd
        · simp [htriggers] at hsome
        · exact hcmd
      -- the options of `cmd` do not mark the end of the options
      have hmark : ∀ word : String, toAsciiLowercase word ∈ ["/c", "/k"] →
          toAsciiLowercase word ≠ "--" := by
        intro word hmem hmarker
        rw [hmarker] at hmem
        exact absurd hmem (by decide)
      have hhit : ∀ word : String, toAsciiLowercase word ∈ ["/c", "/k"] ↔
          ["/c", "/k"].any (triggerMatches true (toAsciiLowercase word)) = true := by
        intro word
        simp [triggerMatches, startsWith]
      have hscan : commandIsInlineEval (executable :: arguments) =
          (cmdIsInlineEval arguments || scanTriggers ["/c", "/k"] true arguments) := by
        simp only [commandIsInlineEval, hcmd]
        rfl
      rw [hscan, Exposed, htriggers, Bool.or_eq_true, cmdIsInlineEval_iff,
        scanTriggers_iff (fun word => toAsciiLowercase word ∈ ["/c", "/k"]) hhit hmark]
      simp only [true_and]

/-! ### Options that come first -/

theorem toLower_eq_dash {c : Char} (h : c.toLower = '-') : c = '-' := by
  have hnat := congrArg Char.toNat h
  rw [toNat_toLower] at hnat
  have hdash : ('-' : Char).toNat = 45 := rfl
  apply Char.toNat_inj.mp
  split_ifs at hnat with hupper
  · omega
  · exact hnat

/-- The words that an interpreter reads as options look like options. -/
theorem looksLikeOption_of_readWord {G : OptionGrammar} {word : String} {command : Bool}
    {values : ℕ} (h : G.readWord word = .options command values) : LooksLikeOption word := by
  obtain ⟨letter, letters, hword, hmarker⟩ := OptionGrammar.dash_of_readWord h
  refine ⟨?_, fun heq => hmarker ?_⟩
  · have hdash : Char.toLower '-' = '-' := by decide
    simp [startsWith, toAsciiLowercase, asciiLower, hword, hdash, List.isPrefixOf]
  · have hlower := congrArg String.toList heq
    rw [toAsciiLowercase, String.toList_ofList, hword] at hlower
    simp only [asciiLower, List.map_cons] at hlower
    obtain ⟨-, hsecond, hrest⟩ : Char.toLower '-' = '-' ∧ letter.toLower = '-' ∧
        letters.map Char.toLower = [] := by simpa using hlower
    rw [hword, toLower_eq_dash hsecond, List.map_eq_nil_iff.mp hrest]

/-- An option for program text that is the first of its word is exposed, if the words before
it hold options only and none of them is a value. -/
theorem exposed_of_first (G : OptionGrammar) {name : String} {letters : List Char}
    {names : List String} (htriggers : triggersOf name = some (letters, names))
    {before after : List String} {word : String} {letter : Char} {rest : List Char}
    (hlower : letter.toLower = letter) (hletter : letter ∈ letters)
    (hbefore : ∀ w ∈ before, ∃ command, G.readWord w = .options command 0)
    (hword : word.toList = '-' :: letter :: rest) :
    Exposed name (before ++ word :: after) := by
  rw [Exposed, htriggers]
  refine ⟨before, word, after, rfl, fun w hw => ?_, .inl ⟨letter, hletter, ?_⟩⟩
  · obtain ⟨command, hread⟩ := hbefore w hw
    exact looksLikeOption_of_readWord hread
  · have hdash : Char.toLower '-' = '-' := by decide
    simp [startsWith, toAsciiLowercase, asciiLower, hword, hdash, hlower, List.isPrefixOf]

end Terminal

namespace PolicyConfig

variable {config : PolicyConfig} {host : Host} {request : ActionRequest}

/-- The rule for inline evaluation is applied. -/
def AppliesInlineEval (config : PolicyConfig) (host : Host) (request : ActionRequest) :
    Prop :=
  config.terminalExecDecision host request = (config.terminal.inlineEval, "terminal_inline_eval")

theorem appliesInlineEval_iff {executable : String} {arguments : List String}
    (hargv : terminalArgv request = some (executable :: arguments)) :
    config.AppliesInlineEval host request ↔
      Terminal.commandIsInlineEval (executable :: arguments) = true := by
  unfold AppliesInlineEval
  simp only [terminalExecDecision, hargv]
  constructor
  · intro h
    by_contra hnot
    rw [if_neg hnot] at h
    split at h <;> simp at h
  · intro h
    rw [if_pos h]

/-- Whatever the interpreters are documented to take as program text: the rule is applied to
what they take if and only if that is exposed. -/
theorem appliesInlineEval_documented_iff (documented : String → List String → Bool)
    (config : PolicyConfig) (host : Host) (request : ActionRequest) (executable : String)
    (arguments : List String) (hargv : terminalArgv request = some (executable :: arguments))
    (hname : Terminal.Interpreter (Terminal.programName executable)) :
    (documented (Terminal.programName executable) arguments = true →
        config.AppliesInlineEval host request) ↔
      (documented (Terminal.programName executable) arguments = true →
        Terminal.Exposed (Terminal.programName executable) arguments) := by
  rw [appliesInlineEval_iff hargv, Terminal.commandIsInlineEval_iff hname]

end PolicyConfig

/-! ### What interpreters take -/

namespace Manual

/-- The options of `bash`. -/
def bash : OptionGrammar where
  short letter :=
    if "abefhkmnptuvxBCEHPTilrsD".toList.contains letter then some .flag
    else if "oO".toList.contains letter then some .detached
    else if letter = 'c' then some .command
    else none
  long name :=
    if ["debugger", "login", "noediting", "noprofile", "norc", "posix", "restricted",
      "verbose"].contains name then some .flag
    else if ["init-file", "rcfile"].contains name then some .detached
    else none

/-- The options of `python` that do not end the reading. -/
def python : OptionGrammar where
  short letter :=
    if "bBdEiIOPqRsSuvx".toList.contains letter then some .flag
    else if "WX".toList.contains letter then some .valued
    else if letter = 'c' then some .program
    else none
  long name := if name = "check-hash-based-pycs" then some .detached else none

/-- Options of `perl` that stand alone, and those for program text. -/
def perl : OptionGrammar where
  short letter :=
    if "acfnpsStTuUwWX".toList.contains letter then some .flag
    else if "eE".toList.contains letter then some .program
    else none
  long _ := none

/-- Options of `node`: modules to load first, and program text. -/
def node : OptionGrammar where
  short letter :=
    if letter = 'r' then some .valued else if "ep".toList.contains letter then some .program
    else none
  long name :=
    if ["import", "require"].contains name then some .valued
    else if ["eval", "print"].contains name then some .program
    else none

/-- The switches of `cmd`, of which several can be in one word. -/
def cmdTakesProgram : List String → Bool
  | [] => false
  | word :: rest =>
      startsWith word "/" &&
        ((splitChars (· = '/') (toAsciiLowercase word)).any (fun switch =>
            startsWith switch "c" || startsWith switch "k" || startsWith switch "r") ||
          cmdTakesProgram rest)

/-- Whether an interpreter takes program text from its arguments. -/
def takesProgram : String → List String → Bool
  | "bash", arguments => bash.takesProgram false 0 arguments
  | "python", arguments => python.takesProgram false 0 arguments
  | "perl", arguments => perl.takesProgram false 0 arguments
  | "node", arguments => node.takesProgram false 0 arguments
  | "cmd", arguments => cmdTakesProgram arguments
  | _, _ => false

/-- Commands whose program text is not found. -/
def missed : List (String × List String) :=
  [("bash", ["-lc", "printf hi"]), ("bash", ["-O", "extglob", "-c", "printf hi"]),
   ("python", ["-Ic", "print(1)"]), ("python", ["-W", "ignore", "-c", "print(1)"]),
   ("perl", ["-ne", "print"]), ("node", ["-r", "m", "-e", "f()"]), ("cmd", ["/v/c", "dir"])]

theorem missed_not_found : ∀ command ∈ missed,
    takesProgram (Terminal.programName command.1) command.2 = true ∧
      Terminal.commandIsInlineEval (command.1 :: command.2) = false := by
  decide +kernel

/-- A policy under which commands are approved, and inline evaluation with elevation. -/
def policy : PolicyConfig where
  version := 1
  policyId := "sample"
  filesystem := []
  terminal :=
    { default := .approval, projectTests := .deny, destructive := .deny, elevated := .deny
      safeExecutablePaths := [], safeCommands := [] }
  process := { list := .deny, inspect := .deny, terminate := .deny }
  browser :=
    { authenticatedSessionUse := .deny, secretExtraction := .deny, publish := .deny
      purchase := .deny }
  desktopEnabled := false
  publicListenerFallback := .deny

def emptyHost : Host := ⟨fun _ => none, fun _ => none⟩

/-- A request for a command. -/
def requestFor (argv : List String) : ActionRequest where
  envelope :=
    { requestId := "request", organizationId := "local", actorId := "agent", deviceId := "device"
      action := "terminal.exec", target := "C:\\work"
      parameters := (∅ : Parameters).insert "argv" (.array (argv.map .string))
      requestedCapabilities := [], expiresAtUnixMs := 1000, nonce := List.replicate 16 7 }
  envelopeDigest := Vector.replicate 32 0

theorem mapM_asStr (argv : List String) : (argv.map Value.string).mapM Value.asStr = some argv := by
  induction argv with
  | nil => rfl
  | cons word rest ih => simp [Value.asStr, ih]

theorem terminalArgv_requestFor {executable : String} {arguments : List String} :
    PolicyConfig.terminalArgv (requestFor (executable :: arguments)) =
      some (executable :: arguments) := by
  have hget : (requestFor (executable :: arguments)).envelope.parameters["argv"]? =
      some (.array ((executable :: arguments).map .string)) := Std.ExtTreeMap.getElem?_insert_self
  have hargv : PolicyConfig.parameter (requestFor (executable :: arguments)) "argv" Value.asArray =
      some ((executable :: arguments).map .string) := by
    rw [PolicyConfig.parameter, hget]
    rfl
  have hnonempty : ((executable :: arguments).map Value.string).isEmpty = false := rfl
  rw [PolicyConfig.terminalArgv, hargv, Option.bind_eq_bind, Option.bind_some, hnonempty,
    if_neg Bool.false_ne_true, mapM_asStr]

end Manual

open Manual in
/-- Whether the rule is applied to `python -c`. -/
theorem PolicyConfig.appliesInlineEval_documented_iff_python :
    (takesProgram "python" ["-c", "print(1)"] = true →
        policy.AppliesInlineEval emptyHost (requestFor ["python", "-c", "print(1)"])) ↔
      (takesProgram "python" ["-c", "print(1)"] = true →
        Terminal.Exposed "python" ["-c", "print(1)"]) := by
  have hprogram : Terminal.programName "python" = "python" := by decide +kernel
  have happlies := PolicyConfig.appliesInlineEval_documented_iff takesProgram policy emptyHost
    (requestFor ["python", "-c", "print(1)"]) "python" ["-c", "print(1)"] terminalArgv_requestFor
    (by rw [hprogram]; exact .inl rfl)
  rwa [hprogram] at happlies

open Manual in
/-- The rule is not applied to everything that the interpreters take. -/
theorem PolicyConfig.inline_eval_missed :
    ¬ ∀ (config : PolicyConfig) (host : Host) (request : ActionRequest) (executable : String)
      (arguments : List String),
      PolicyConfig.terminalArgv request = some (executable :: arguments) →
        takesProgram (Terminal.programName executable) arguments = true →
          config.AppliesInlineEval host request := by
  intro h
  obtain ⟨htakes, hnot⟩ := missed_not_found ("bash", ["-lc", "printf hi"]) (by simp [missed])
  have happlies := h policy emptyHost (requestFor ["bash", "-lc", "printf hi"]) "bash"
    ["-lc", "printf hi"] terminalArgv_requestFor htakes
  rw [PolicyConfig.appliesInlineEval_iff terminalArgv_requestFor, hnot] at happlies
  cases happlies

end VorCommander
