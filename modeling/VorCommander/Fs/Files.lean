import Mathlib.Logic.Function.Basic
import VorCommander.Fs.Types
import VorCommander.Steps.Program

/-!
The file operations the workers perform.

The regular files of the host are a function from canonical path texts to
contents. A path as a request gives it is not canonical: where it leads is
whatever the host answers at the moment it is asked (`lookup`,
`canonicalize`, `rejectReparse`). Every other operation is on a canonical
path, and changes the files as `FileOp.change` says. An operation that fails
has had no effect, or its effect all the same, or has filled a file with
something else.
-/

namespace VorCommander

open Steps Steps.Program

/-- The contents of the regular files, by canonical path. -/
abbrev FileSystem := String → Option (List UInt8)

inductive FileOp
  | lookup (path : String)
  | canonicalize (path : String)
  | rejectReparse (path : String)
  | probe (path : String)
  | read (path : String)
  | createNew (path : String)
  | createTruncated (path : String)
  | write (path : String) (content : List UInt8)
  | sync (path : String)
  | copy (source target : String)
  | rename (source target : String)
  | remove (path : String)

namespace FileOp

/-- What each operation replies when it succeeds: `lookup` whether there is a
regular file, `probe` whether there is anything. -/
@[reducible] def Result : FileOp → Type
  | .lookup _ => Bool
  | .canonicalize _ => String
  | .probe _ => Bool
  | .read _ => List UInt8
  | _ => Unit

@[reducible] def Reply (op : FileOp) : Type := Except FsError op.Result

/-- The files after an operation that has succeeded, if it can succeed. -/
def change (files : FileSystem) : FileOp → Option FileSystem
  | .createNew path =>
      if files path = none then some (Function.update files path (some [])) else none
  | .createTruncated path => some (Function.update files path (some []))
  | .write path content => some (Function.update files path (some content))
  | .copy source target =>
      (files source).map fun content => Function.update files target (some content)
  | .rename source target =>
      (files source).map fun content =>
        Function.update (Function.update files source none) target (some content)
  | .remove path => (files path).map fun _ => Function.update files path none
  | _ => some files

/-- The file an operation may have filled with something else when it fails. -/
def fills : FileOp → Option String
  | .write path _ => some path
  | .copy _ target => some target
  | _ => none

/-- The files whose contents an operation may change. -/
def touches : FileOp → List String
  | .createNew path | .createTruncated path | .write path _ | .copy _ path | .remove path => [path]
  | .rename source target => [source, target]
  | _ => []

/-- The file an operation may take away. -/
def takes : FileOp → Option String
  | .rename source _ => some source
  | .remove path => some path
  | _ => none

/-- The answer of a question about a canonical path. -/
def answers (files : FileSystem) : (op : FileOp) → op.Result → Prop
  | .probe path, found => found = (files path).isSome
  | .read path, content => files path = some content
  | _, _ => True

/-- The effect of an operation with a given reply on the files. -/
def Commits (files : FileSystem) (op : FileOp) (reply : op.Reply) (files' : FileSystem) : Prop :=
  match reply with
  | .ok result => op.change files = some files' ∧ op.answers files result
  | .error _ =>
      files' = files ∨ op.change files = some files' ∨
        ∃ path content, op.fills = some path ∧ files' = Function.update files path (some content)

variable {files files' : FileSystem} {op : FileOp} {reply : op.Reply} {path : String}

/-- A successful operation leaves the files it does not touch. -/
theorem change_of_notMem (h : op.change files = some files') (hpath : path ∉ op.touches) :
    files' path = files path := by
  cases op <;>
    simp only [change, touches, List.mem_cons, List.not_mem_nil, or_false, not_or,
      not_false_eq_true, Option.some.injEq, Option.map_eq_some_iff,
      Option.ite_none_right_eq_some] at h hpath
  case createNew => rw [← h.2, Function.update_of_ne hpath]
  case createTruncated => rw [← h, Function.update_of_ne hpath]
  case write => rw [← h, Function.update_of_ne hpath]
  case copy =>
      obtain ⟨_, _, rfl⟩ := h
      exact Function.update_of_ne hpath ..
  case rename =>
      obtain ⟨_, _, rfl⟩ := h
      rw [Function.update_of_ne hpath.2, Function.update_of_ne hpath.1]
  case remove =>
      obtain ⟨_, _, rfl⟩ := h
      exact Function.update_of_ne hpath ..
  all_goals rw [h]

theorem mem_touches_of_fills (h : op.fills = some path) : path ∈ op.touches := by
  cases op <;> simp_all [fills, touches]

/-- An operation leaves the files it does not touch. -/
theorem Commits.untouched (h : op.Commits files reply files') (hpath : path ∉ op.touches) :
    files' path = files path := by
  cases reply with
  | ok result => exact change_of_notMem h.1 hpath
  | error e =>
      rcases h with rfl | hchange | ⟨filled, content, hfills, rfl⟩
      · rfl
      · exact change_of_notMem hchange hpath
      · have hne : path ≠ filled := by
          rintro rfl
          exact hpath (mem_touches_of_fills hfills)
        exact Function.update_of_ne hne ..

theorem change_isSome (h : op.change files = some files') (hpath : op.takes ≠ some path)
    (hsome : (files path).isSome) : (files' path).isSome := by
  cases op <;>
    simp only [change, takes, ne_eq, Option.some.injEq, Option.map_eq_some_iff, reduceCtorEq,
      Option.ite_none_right_eq_some, not_false_eq_true] at h hpath
  case createNew path' =>
      rw [← h.2]
      by_cases heq : path = path' <;> simp [heq, hsome]
  case createTruncated path' =>
      rw [← h]
      by_cases heq : path = path' <;> simp [heq, hsome]
  case write path' content =>
      rw [← h]
      by_cases heq : path = path' <;> simp [heq, hsome]
  case copy source target =>
      obtain ⟨_, _, rfl⟩ := h
      by_cases heq : path = target <;> simp [heq, hsome]
  case rename source target =>
      obtain ⟨_, _, rfl⟩ := h
      by_cases heq : path = target <;> simp [heq, Ne.symm hpath, hsome]
  case remove path' =>
      obtain ⟨_, _, rfl⟩ := h
      simp [Ne.symm hpath, hsome]
  all_goals rwa [← h]

/-- A file is there until an operation takes it away. -/
theorem Commits.isSome (h : op.Commits files reply files') (hpath : op.takes ≠ some path)
    (hsome : (files path).isSome) : (files' path).isSome := by
  cases reply with
  | ok result => exact change_isSome h.1 hpath hsome
  | error e =>
      rcases h with rfl | hchange | ⟨filled, content, _, rfl⟩
      · exact hsome
      · exact change_isSome hchange hpath hsome
      · by_cases heq : path = filled <;> simp [heq, hsome]

end FileOp

/-- The interface of the file operations. -/
abbrev Files : Interface := ⟨FileOp, FileOp.Reply⟩

end VorCommander
