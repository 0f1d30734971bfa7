import Mathlib.Data.List.Basic

/-!
How a program reads the options of its command line.

A word that begins with a dash holds options, one letter each; a word that begins with two
holds one option with its name. An option can ask for a value, which is the next word, or
for program text. The first other word is an operand, and `--` says that operands follow.
-/

namespace VorCommander.Text

/-- What an option asks for. -/
inductive OptionKind
  /-- Nothing. -/
  | flag
  /-- A value: the rest of its word, or else the next word. -/
  | valued
  /-- A value that is the next word; its own word goes on. -/
  | detached
  /-- Program text: the rest of its word, or else the next word. -/
  | program
  /-- That the first operand be taken as program text. -/
  | command
  deriving DecidableEq

/-- The options of a program, by letter and by name. -/
structure OptionGrammar where
  short : Char → Option OptionKind
  long : String → Option OptionKind

/-- What one word has been read as: options that leave a number of words to be values, and
say whether they ask for a command; an option for program text, which may have been in the
word; an operand; the mark before operands; or something the program does not know. -/
inductive Reading
  | options (command : Bool) (values : ℕ)
  | program (inWord : Bool)
  | operand
  | marker
  | unknown
  deriving DecidableEq

namespace OptionGrammar

variable (G : OptionGrammar)

/-- The letters of a word. -/
def readLetters (command : Bool) (values : ℕ) : List Char → Reading
  | [] => .options command values
  | letter :: rest =>
      match G.short letter with
      | some .flag => readLetters command values rest
      | some .valued => .options command (if rest.isEmpty then values + 1 else values)
      | some .detached => readLetters command (values + 1) rest
      | some .program => .program (!rest.isEmpty)
      | some .command => readLetters true values rest
      | none => .unknown

/-- A name, with its value behind an equals sign if there is one. -/
def readName (name : String) (assigned : Bool) : Reading :=
  match G.long name with
  | some .flag => .options false 0
  | some .valued | some .detached => .options false (if assigned then 0 else 1)
  | some .program => .program assigned
  | some .command => .options true 0
  | none => .unknown

def readWord (word : String) : Reading :=
  match word.toList with
  | ['-', '-'] => .marker
  | '-' :: '-' :: name =>
      G.readName (String.ofList (name.takeWhile (· ≠ '='))) (name.contains '=')
  | '-' :: letter :: letters => G.readLetters false 0 (letter :: letters)
  | _ => .operand

/-- Whether program text is taken from the words; `command` says that a command has been
asked for, and `values` how many words are values of what was read before. -/
def takesProgram (command : Bool) (values : ℕ) : List String → Bool
  | [] => false
  | word :: rest =>
      match values with
      | values + 1 => takesProgram command values rest
      | 0 =>
          match G.readWord word with
          | .options asks values => takesProgram (command || asks) values rest
          | .program inWord => inWord || !rest.isEmpty
          | .operand => command
          | .marker => command && !rest.isEmpty
          | .unknown => false

variable {G}

/-- Only a word that begins with a dash holds options. -/
theorem dash_of_readWord {word : String} {command : Bool} {values : ℕ}
    (h : G.readWord word = .options command values) :
    ∃ letter letters, word.toList = '-' :: letter :: letters ∧ word.toList ≠ ['-', '-'] := by
  unfold readWord at h
  split at h
  · cases h
  · rename_i name hname hword
    refine ⟨'-', name, hword, fun hmarker => hname ?_⟩
    simpa [hword] using hmarker
  · rename_i letter letters hmarker hname hword
    refine ⟨letter, letters, hword, fun heq => ?_⟩
    obtain ⟨rfl, rfl⟩ : letter = '-' ∧ letters = [] := by simpa [hword] using heq
    exact hname rfl
  · cases h

end OptionGrammar

end VorCommander.Text
