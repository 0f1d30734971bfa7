import VorCommander.Text.Arguments
import VorCommander.Worker.Terminal

/-!
The command line of a terminal process.

`BoundedTerminal::prepare` checks a specification and writes its arguments into one
command line, from which Windows and the C runtime of the process read them again. The
arguments are read as they were. The name of the program is quoted like an argument and
read by another rule.
-/

namespace VorCommander

open Steps Text WindowsPath

namespace Worker

/-! ### Arguments -/

theorem splitFromScan_quoteChars {text : List Char} (n : ℕ) (cs rest : List Char) :
    splitFromScan (some ⟨true, 0, text⟩) (quoteChars n cs ++ '"' :: rest) =
      splitFromScan (some ⟨false, 0, text ++ List.replicate n '\\' ++ cs⟩) rest := by
  induction cs generalizing n text with
  | nil =>
      rw [quoteChars, splitFromScan_replicate, splitFromScan_push (.inr rfl)]
      simp [Scan.push]
  | cons c cs ih =>
      rw [quoteChars]
      split
      case isTrue hc =>
          subst hc
          rw [ih, List.replicate_succ']
          simp
      case isFalse hc =>
          split
          case isTrue hquote =>
              subst hquote
              -- the last of an odd number of backslashes makes the quote a character
              have hodd : (0 + (n * 2 + 1)) % 2 ≠ 0 := by omega
              have hhalf : (0 + (n * 2 + 1)) / 2 = n := by omega
              have hpush : Scan.push ⟨true, 0 + (n * 2 + 1), text⟩ '"' =
                  ⟨true, 0, text ++ List.replicate n '\\' ++ ['"']⟩ := by
                rw [Scan.push, if_neg (by decide), if_pos rfl, if_neg hodd, hhalf]
              rw [List.append_assoc, List.cons_append, splitFromScan_replicate,
                splitFromScan_push (.inr rfl), hpush, ih]
              simp
          case isFalse hquote =>
              have hpush : Scan.push ⟨true, 0 + n, text⟩ c =
                  ⟨true, 0, text ++ List.replicate n '\\' ++ [c]⟩ := by
                rw [Scan.push, if_neg hc, if_neg hquote, Nat.zero_add]
                rfl
              rw [List.append_assoc, List.cons_append, splitFromScan_replicate,
                splitFromScan_push (.inr rfl), hpush, ih]
              simp

theorem toList_quoteWindowsArg_quoted {arg : String} (hne : arg ≠ "")
    (h : ∃ c ∈ arg.toList, isWhitespace c = true ∨ c = '"') :
    (quoteWindowsArg arg).toList = '"' :: quoteChars 0 arg.toList ++ ['"'] := by
  have hany : (!arg.toList.any fun c => isWhitespace c || c = '"') = false := by
    rw [Bool.not_eq_false', List.any_eq_true]
    obtain ⟨c, hc, h⟩ := h
    exact ⟨c, hc, by simpa using h⟩
  rw [quoteWindowsArg, if_neg hne, hany, if_neg Bool.false_ne_true, String.toList_ofList]

theorem quoteWindowsArg_plain {arg : String} (hne : arg ≠ "")
    (h : ∀ c ∈ arg.toList, isWhitespace c = false ∧ c ≠ '"') : quoteWindowsArg arg = arg := by
  have hany : (!arg.toList.any fun c => isWhitespace c || c = '"') = true := by
    rw [Bool.not_eq_true', List.any_eq_false]
    intro c hc
    simpa using h c hc
  rw [quoteWindowsArg, if_neg hne, hany, if_pos rfl]

/-- Blanks are white space. -/
theorem isArgumentBlank_of_not_isWhitespace {c : Char} (h : isWhitespace c = false) :
    isArgumentBlank c = false := by
  rw [isArgumentBlank, Bool.or_eq_false_iff, decide_eq_false_iff_not, decide_eq_false_iff_not]
  constructor
  · rintro rfl
    exact absurd h (by decide)
  · rintro rfl
    exact absurd h (by decide)

/-- An argument is plain, or it is quoted. -/
theorem plain_or_quoted (arg : String) :
    (∀ c ∈ arg.toList, isWhitespace c = false ∧ c ≠ '"') ∨
      ∃ c ∈ arg.toList, isWhitespace c = true ∨ c = '"' := by
  by_cases h : ∃ c ∈ arg.toList, isWhitespace c = true ∨ c = '"'
  · exact .inr h
  · refine .inl fun c hc => ?_
    have hnot := not_exists.mp h c
    simpa [hc, not_or] using hnot

/-- What is written for an argument is read back as the argument. -/
theorem reads_quoteWindowsArg (arg : String) :
    (∃ c cs, (quoteWindowsArg arg).toList = c :: cs ∧ isArgumentBlank c = false) ∧
      ∀ rest, ∃ s : Scan, s.quoted = false ∧ s.close = arg.toList ∧
        splitFromScan (some {}) ((quoteWindowsArg arg).toList ++ rest) =
          splitFromScan (some s) rest := by
  by_cases hempty : arg = ""
  · subst hempty
    refine ⟨⟨'"', ['"'], rfl, by decide⟩, fun rest => ⟨{}, rfl, rfl, ?_⟩⟩
    change splitFromScan (some {}) ('"' :: '"' :: rest) = _
    rw [splitFromScan_push (.inl (by decide)), splitFromScan_push (.inl (by decide))]
    rfl
  rcases plain_or_quoted arg with hplain | hquoted
  · have hcs : ∀ c ∈ arg.toList, isArgumentBlank c = false ∧ c ≠ '"' := by
      intro c hc
      exact ⟨isArgumentBlank_of_not_isWhitespace (hplain c hc).1, (hplain c hc).2⟩
    rw [quoteWindowsArg_plain hempty hplain]
    constructor
    · cases htext : arg.toList with
      | nil => exact absurd (String.toList_eq_nil_iff.mp htext) hempty
      | cons c cs =>
          rw [htext] at hcs
          exact ⟨c, cs, rfl, (hcs c List.mem_cons_self).1⟩
    · intro rest
      obtain ⟨s, hs, hclose, hsplit⟩ := splitFromScan_plain (s := {}) rfl hcs rest
      exact ⟨s, hs, by simpa [Scan.close] using hclose, hsplit⟩
  · rw [toList_quoteWindowsArg_quoted hempty hquoted]
    refine ⟨⟨'"', _, rfl, by decide⟩, fun rest => ⟨⟨false, 0, arg.toList⟩, rfl, ?_, ?_⟩⟩
    · simp [Scan.close]
    · rw [List.cons_append, List.cons_append, List.append_assoc, List.singleton_append,
        splitFromScan_push (.inl (by decide))]
      exact splitFromScan_quoteChars 0 arg.toList rest

theorem toList_commandLine {argv : List String} {commandLine : String}
    (h : argvToWindowsCommandLine argv = .ok commandLine) :
    commandLine.toList = [' '].intercalate (argv.map fun arg => (quoteWindowsArg arg).toList) := by
  simp only [argvToWindowsCommandLine, bind_eq_ok, exists_unit, failIf_eq_ok, pure_eq_ok] at h
  obtain ⟨_, _, rfl⟩ := h
  rw [String.toList_intercalate, List.map_map]
  rfl

/-- The C runtime reads the arguments that a command line was written from. -/
theorem splitArguments_commandLine {first : String} {rest : List String} (hfirst : first ≠ "")
    (hnul : ∀ arg ∈ first :: rest, '\x00' ∉ arg.toList) :
    ∃ commandLine, argvToWindowsCommandLine (first :: rest) = .ok commandLine ∧
      splitArguments commandLine.toList = (first :: rest).map String.toList := by
  have hok : argvToWindowsCommandLine (first :: rest) =
      .ok (String.intercalate " " ((first :: rest).map quoteWindowsArg)) := by
    have hnone : ¬ ((first :: rest).any fun arg => arg.toList.contains '\x00') = true := by
      rw [List.any_eq_true]
      rintro ⟨arg, harg, hcontains⟩
      exact hnul arg harg (List.contains_iff_mem.mp hcontains)
    simp only [argvToWindowsCommandLine, bind_eq_ok, exists_unit, failIf_eq_ok, pure_eq_ok]
    exact ⟨hfirst, hnone, trivial⟩
  refine ⟨_, hok, ?_⟩
  rw [toList_commandLine hok]
  exact splitArguments_intercalate fun arg _ => reads_quoteWindowsArg arg

/-- A path with a blank, an argument with a quote and backslashes, and an empty one. -/
theorem splitArguments_commandLine_tool :
    ∃ commandLine,
      argvToWindowsCommandLine ["C:\\Program Files\\tool.exe", "a\\\"b\\", ""] = .ok commandLine ∧
        splitArguments commandLine.toList =
          ["C:\\Program Files\\tool.exe", "a\\\"b\\", ""].map String.toList :=
  splitArguments_commandLine (by decide) (by decide)

/-! ### The name of the program -/

/-- Without a quote, what is written is the text with its last backslashes once more. -/
theorem quoteChars_eq {cs : List Char} (hquote : '"' ∉ cs) (n : ℕ) :
    ∃ t, quoteChars n cs = List.replicate n '\\' ++ cs ++ List.replicate t '\\' ∧
      (t = 0 ↔ (List.replicate n '\\' ++ cs).getLast? ≠ some '\\') := by
  induction cs generalizing n with
  | nil =>
      refine ⟨n, ?_, ?_⟩
      · rw [quoteChars, List.append_nil, ← List.replicate_add, Nat.mul_two]
      · cases n with
        | zero => simp
        | succ n => simp [List.replicate_succ']
  | cons c cs ih =>
      obtain ⟨hc, hcs⟩ := not_or.mp (mt List.mem_cons.mpr hquote)
      rw [quoteChars]
      by_cases hback : c = '\\'
      · subst hback
        obtain ⟨t, htext, hlast⟩ := ih hcs (n + 1)
        have hmove : List.replicate (n + 1) '\\' ++ cs = List.replicate n '\\' ++ '\\' :: cs := by
          rw [List.replicate_succ', List.append_assoc, List.singleton_append]
        rw [hmove] at htext hlast
        exact ⟨t, by rw [if_pos rfl, htext], hlast⟩
      · obtain ⟨t, htext, hlast⟩ := ih hcs 0
        rw [List.replicate_zero, List.nil_append] at htext hlast
        refine ⟨t, ?_, hlast.trans ?_⟩
        · rw [if_neg hback, if_neg (Ne.symm hc), htext, List.append_assoc, List.cons_append]
        · cases cs with
          | nil => simp [hback]
          | cons d cs => simp

theorem splitArguments_blank (text : List Char) :
    splitArguments (' ' :: text) = splitArguments text := rfl

/-- What follows the name of the program is read as the arguments. -/
theorem splitCommandLine_of_tail {name : List Char} {arguments : List String}
    {text tail : List Char} (htext : splitCommandLine text = (name, splitArguments tail))
    (htail : tail = [] ∧ arguments = [] ∨ ∃ rest, tail = ' ' :: rest ∧
      splitArguments rest = arguments.map String.toList) :
    splitCommandLine text = (name, arguments.map String.toList) := by
  rw [htext]
  rcases htail with ⟨rfl, rfl⟩ | ⟨rest, rfl, hrest⟩
  · rfl
  · rw [splitArguments_blank, hrest]

/-- A command line is what is written for the program, and the arguments after it. -/
theorem toList_commandLine_cons {program commandLine : String} {arguments : List String}
    (h : argvToWindowsCommandLine (program :: arguments) = .ok commandLine) :
    ∃ tail, commandLine.toList = (quoteWindowsArg program).toList ++ tail ∧
      (tail = [] ∧ arguments = [] ∨ ∃ rest, tail = ' ' :: rest ∧
        splitArguments rest = arguments.map String.toList) := by
  rw [toList_commandLine h]
  cases arguments with
  | nil =>
      refine ⟨[], ?_, .inl ⟨rfl, rfl⟩⟩
      rw [List.map_singleton, List.intercalate_singleton, List.append_nil]
  | cons argument arguments =>
      refine ⟨' ' :: [' '].intercalate ((argument :: arguments).map fun arg =>
        (quoteWindowsArg arg).toList), ?_, .inr ⟨_, rfl, ?_⟩⟩
      · rw [List.map_cons, List.map_cons, List.intercalate_cons_cons, List.append_assoc]
        rfl
      · exact splitArguments_intercalate fun arg _ => reads_quoteWindowsArg arg

/-- The program and the arguments are read from a command line as they were exactly if the
name of the program has no quote in it, and does not both have white space in it and end
with a backslash. -/
theorem splitCommandLine_iff {program commandLine : String} {arguments : List String}
    (h : argvToWindowsCommandLine (program :: arguments) = .ok commandLine) :
    splitCommandLine commandLine.toList = (program.toList, arguments.map String.toList) ↔
      '"' ∉ program.toList ∧ ¬ ((∃ c ∈ program.toList, isWhitespace c = true) ∧
        program.toList.getLast? = some '\\') := by
  have hne : program ≠ "" := by
    simp only [argvToWindowsCommandLine, bind_eq_ok, exists_unit, failIf_eq_ok] at h
    exact h.1
  obtain ⟨tail, htext, htail⟩ := toList_commandLine_cons h
  rw [htext]
  rcases plain_or_quoted program with hplain | hquoted
  · rw [quoteWindowsArg_plain hne hplain]
    refine iff_of_true (splitCommandLine_of_tail ?_ htail) ⟨?_, ?_⟩
    · refine splitCommandLine_plain (mt String.toList_eq_nil_iff.mp hne) ?_ ?_
      · exact fun c hc => ⟨isArgumentBlank_of_not_isWhitespace (hplain c hc).1, (hplain c hc).2⟩
      · rcases htail with ⟨rfl, -⟩ | ⟨rest, rfl, -⟩
        · simp
        · simp [isArgumentBlank]
    · exact fun hmem => (hplain _ hmem).2 rfl
    · rintro ⟨⟨c, hc, hspace⟩, _⟩
      rw [(hplain c hc).1] at hspace
      cases hspace
  · rw [toList_quoteWindowsArg_quoted hne hquoted, List.cons_append, List.cons_append,
      List.append_assoc, List.singleton_append]
    by_cases hmem : '"' ∈ program.toList
    · -- the name ends at a quote, and so has none
      refine iff_of_false (fun hsplit => ?_) fun hnot => hnot.1 hmem
      have hname : (quoteChars 0 program.toList ++ '"' :: tail).takeWhile (· ≠ '"') =
          program.toList := congrArg Prod.fst hsplit
      rw [← hname] at hmem
      simpa using List.mem_takeWhile_imp hmem
    · obtain ⟨t, hchars, hlast⟩ := quoteChars_eq hmem 0
      rw [List.replicate_zero, List.nil_append] at hchars hlast
      have hname : '"' ∉ program.toList ++ List.replicate t '\\' := by
        rw [List.mem_append, not_or]
        exact ⟨hmem, fun hback => absurd (List.eq_of_mem_replicate hback) (by decide)⟩
      have hspace : ∃ c ∈ program.toList, isWhitespace c = true := by
        obtain ⟨c, hc, hspace | rfl⟩ := hquoted
        · exact ⟨c, hc, hspace⟩
        · exact absurd hc hmem
      rw [hchars, splitCommandLine_of_tail (splitCommandLine_quoted hname tail) htail,
        Prod.mk.injEq, List.append_right_eq_self, List.replicate_eq_nil_iff, hlast]
      simp [hmem, hspace]

/-! ### Preparing a process -/

/-- The terminal worker: the canonical roots and the limits. -/
structure BoundedTerminal where
  allowedRoots : List String
  limits : TerminalLimits

/-- `BoundedTerminal::prepare`, where the host makes paths canonical. -/
def BoundedTerminal.prepare (canonicalize : String → Except TerminalError String)
    (terminal : BoundedTerminal) (spec : TerminalSpec) :
    Except TerminalError (String × String) := do
  checkSpec terminal.limits spec
  let cwd ← canonicalize spec.cwd
  failIf (terminal.allowedRoots.any (pathStartsWith cwd) = false)
    (.other "terminal cwd is outside configured roots")
  let processCwd ← processCwdPath cwd
  let commandLine ← argvToWindowsCommandLine spec.argv
  return (commandLine, processCwd)

theorem BoundedTerminal.prepare_eq_ok {canonicalize : String → Except TerminalError String}
    {terminal : BoundedTerminal} {spec : TerminalSpec} {commandLine cwd : String}
    (h : terminal.prepare canonicalize spec = .ok (commandLine, cwd)) :
    argvToWindowsCommandLine spec.argv = .ok commandLine := by
  simp only [prepare, bind_eq_ok, pure_eq_ok, Prod.mk.injEq] at h
  obtain ⟨_, _, _, _, _, _, _, _, _, hline, rfl, _⟩ := h
  exact hline

/-- The process that is started from a prepared specification is the one whose arguments
were judged exactly if the name of its program has no quote in it, and does not both have
white space in it and end with a backslash. -/
theorem prepared_process_iff {canonicalize : String → Except TerminalError String}
    {terminal : BoundedTerminal} {spec : TerminalSpec} {commandLine cwd : String}
    (h : terminal.prepare canonicalize spec = .ok (commandLine, cwd)) :
    ∃ program arguments, spec.argv = program :: arguments ∧
      (splitCommandLine commandLine.toList = (program.toList, arguments.map String.toList) ↔
        '"' ∉ program.toList ∧ ¬ ((∃ c ∈ program.toList, isWhitespace c = true) ∧
          program.toList.getLast? = some '\\')) := by
  have hline := BoundedTerminal.prepare_eq_ok h
  cases hargv : spec.argv with
  | nil =>
      simp [hargv, argvToWindowsCommandLine] at hline
  | cons program arguments =>
      rw [hargv] at hline
      exact ⟨program, arguments, rfl, splitCommandLine_iff hline⟩

namespace PrepareSample

def terminal : BoundedTerminal := ⟨["C:\\work"], .default⟩

/-- The specification of a request for a command. -/
def spec (argv : List String) : TerminalSpec :=
  { argv, environment := ∅, cwd := "C:\\work", timeoutMs := 1000, maxOutputBytes := 1024
    columns := 80, rows := 25 }

end PrepareSample

open PrepareSample

/-- A quote in the name of the program ends the name, and what comes after it is read as an
argument. -/
theorem program_name_cut :
    ¬ ∀ (canonicalize : String → Except TerminalError String) (terminal : BoundedTerminal)
      (spec : TerminalSpec) (commandLine cwd : String),
        terminal.prepare canonicalize spec = .ok (commandLine, cwd) →
          splitCommandLine commandLine.toList =
            ((spec.argv.headD "").toList, spec.argv.tail.map String.toList) := by
  intro h
  have hsplit := h .ok terminal (spec ["C:\\work\\a.exe\" /run"])
    "\"C:\\work\\a.exe\\\" /run\"" "C:\\work" (by decide)
  revert hsplit
  decide

/-- A program below a folder with a blank in its name. -/
theorem prepared_process_iff_blank :
    ∃ program arguments,
      ["C:\\Program Files\\tool.exe", "two words", ""] = program :: arguments ∧
        (splitCommandLine "\"C:\\Program Files\\tool.exe\" \"two words\" \"\"".toList =
            (program.toList, arguments.map String.toList) ↔
          '"' ∉ program.toList ∧ ¬ ((∃ c ∈ program.toList, isWhitespace c = true) ∧
            program.toList.getLast? = some '\\')) := by
  have hprepared : terminal.prepare .ok
      (spec ["C:\\Program Files\\tool.exe", "two words", ""]) =
        .ok ("\"C:\\Program Files\\tool.exe\" \"two words\" \"\"", "C:\\work") := by
    decide
  exact prepared_process_iff hprepared

end Worker

end VorCommander
