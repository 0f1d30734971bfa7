import Mathlib.Data.List.Sort
import Mathlib.Data.String.Basic
import VorCommander.Fs.Paths
import VorCommander.Steps.Descent

/-!
Walking a directory.

The walk keeps a stack of directories. The entries of a directory are looked at in the
order of their names; links, sensitive paths and files with several names are passed over,
and every other entry is shown to a visitor, who may stop the walk. On a tree that can be
read, the visitor is shown every entry that can be reached, once, and nothing else.
-/

namespace VorCommander

open Steps Text WindowsPath

/-! ### The walk -/

namespace Fs

inductive FileType
  | file
  | directory
  | other
  deriving DecidableEq

/-- What is asked of the metadata of an entry. -/
structure Metadata where
  isLinkOrReparse : Bool
  fileType : FileType
  deriving DecidableEq

def Metadata.isDir (metadata : Metadata) : Bool := metadata.fileType = .directory

def Metadata.isFile (metadata : Metadata) : Bool := metadata.fileType = .file

/-- The directories of the host, which do not change. -/
structure DirectoryHost where
  readDir : String → Except FsError (List String)
  symlinkMetadata : String → Except FsError Metadata
  canonicalize : String → Except FsError String
  hasMultipleHardlinks : String → Except FsError Bool

/-- What the visitor is shown of an entry. -/
structure Entry where
  path : String
  metadata : Metadata
  deriving DecidableEq

section

variable (host : DirectoryHost) (worker : FsWorker) (depth : ℕ)

/-- The visitor's entry for a name in a directory, if there is one. -/
def examine (directory name : String) : Except FsError (Option Entry) := do
  let path := join directory name
  let metadata ← host.symlinkMetadata path
  if metadata.isLinkOrReparse then
    return none
  let resolved ← host.canonicalize path
  worker.ensureAllowed resolved
  if sensitivePath resolved then
    return none
  if metadata.isFile then
    let multiple ← host.hasMultipleHardlinks resolved
    if multiple then
      return none
  return some ⟨resolved, metadata⟩

/-- The entries of a directory, one after another: the new stack, or none if the visitor
stops the walk, and what the visitor has been shown. A visitor answers by what it has been
shown so far. -/
def walkEntries (visitor : List Entry → Except FsError Bool) (directory : String) (level : ℕ) :
    List String → List (String × ℕ) → List Entry →
      Except FsError (Option (List (String × ℕ))) × List Entry
  | [], pending, seen => (.ok (some pending), seen)
  | name :: names, pending, seen =>
      match examine host worker directory name with
      | .error e => (.error e, seen)
      | .ok none => walkEntries visitor directory level names pending seen
      | .ok (some entry) =>
          match visitor (seen ++ [entry]) with
          | .error e => (.error e, seen ++ [entry])
          | .ok false => (.ok none, seen ++ [entry])
          | .ok true =>
              walkEntries visitor directory level names
                (if entry.metadata.isDir then (entry.path, level + 1) :: pending else pending)
                (seen ++ [entry])

/-- The names in a directory, in order. -/
def sortedNames (directory : String) : Except FsError (List String) := do
  let names ← host.readDir directory
  return names.insertionSort (· ≤ ·)

/-- One directory of the stack. -/
def walkDirectory (visitor : List Entry → Except FsError Bool) (directory : String) (level : ℕ)
    (pending : List (String × ℕ)) (seen : List Entry) :
    Except FsError (Option (List (String × ℕ))) × List Entry :=
  match sortedNames host directory with
  | .error e => (.error e, seen)
  | .ok names => walkEntries host worker visitor directory level names pending seen

/-- The entries that a visitor can be shown for names in a directory. -/
def foundEntries (directory : String) (names : List String) : List Entry :=
  names.filterMap fun name => (examine host worker directory name).toOption.join

/-- The entries of a directory that a visitor can be shown. -/
def entries (directory : String) : List Entry :=
  foundEntries host worker directory ((sortedNames host directory).toOption.getD [])

/-- The directory to go on with after an entry. -/
def enter (entry : Entry) : Option String :=
  if entry.metadata.isDir then some entry.path else none

/-- The stack after the entries of a directory. -/
def stackAfter (level : ℕ) (found : List Entry) (pending : List (String × ℕ)) :
    List (String × ℕ) :=
  (found.filterMap enter).reverse.map (fun next => (next, level + 1)) ++ pending

theorem stackAfter_cons (level : ℕ) (entry : Entry) (found : List Entry)
    (pending : List (String × ℕ)) :
    stackAfter level (entry :: found) pending = stackAfter level found
      (if entry.metadata.isDir then (entry.path, level + 1) :: pending else pending) := by
  by_cases hdir : entry.metadata.isDir = true
  · have hsome : enter entry = some entry.path := if_pos hdir
    rw [stackAfter, stackAfter, if_pos hdir, List.filterMap_cons_some hsome]
    simp
  · have hnone : enter entry = none := if_neg hdir
    rw [stackAfter, stackAfter, if_neg hdir, List.filterMap_cons_none hnone]

/-! #### Why the walk ends -/

/-- The number of times that the stack is taken from for a directory on it. -/
def weight : ℕ → String → ℕ
  | 0, _ => 1
  | depth + 1, directory =>
      1 + (((entries host worker directory).filterMap enter).map (weight depth)).sum

def pendingWeight (pending : List (String × ℕ)) : ℕ :=
  (pending.map fun item => weight host worker (depth - item.2) item.1).sum

variable {host worker depth} {visitor : List Entry → Except FsError Bool} {directory : String}
  {level : ℕ}

theorem sortedNames_eq {names : List String} (h : host.readDir directory = .ok names) :
    sortedNames host directory = .ok (names.insertionSort (· ≤ ·)) := by
  rw [sortedNames, h]
  rfl

theorem foundEntries_none {name : String} {names : List String}
    (h : examine host worker directory name = .ok none) :
    foundEntries host worker directory (name :: names) =
      foundEntries host worker directory names :=
  List.filterMap_cons_none (by rw [h]; rfl)

theorem foundEntries_some {name : String} {names : List String} {entry : Entry}
    (h : examine host worker directory name = .ok (some entry)) :
    foundEntries host worker directory (name :: names) =
      entry :: foundEntries host worker directory names :=
  List.filterMap_cons_some (by rw [h]; rfl)

theorem entries_eq {names : List String} (h : sortedNames host directory = .ok names) :
    entries host worker directory = foundEntries host worker directory names := by
  rw [entries, h]
  rfl

/-- What the entries of a directory put on the stack. -/
theorem walkEntries_pending {names : List String} {pending pending' : List (String × ℕ)}
    {seen seen' : List Entry}
    (h : walkEntries host worker visitor directory level names pending seen =
      (.ok (some pending'), seen')) :
    pending' = stackAfter level (foundEntries host worker directory names) pending := by
  induction names generalizing pending seen with
  | nil =>
      cases h
      rfl
  | cons name names ih =>
      rw [walkEntries] at h
      split at h
      case h_1 => cases h
      case h_2 hexamine => rw [foundEntries_none hexamine, ih h]
      case h_3 entry hexamine =>
          split at h
          case h_1 => cases h
          case h_2 => cases h
          case h_3 => rw [foundEntries_some hexamine, stackAfter_cons, ih h]

/-- A directory is replaced on the stack by smaller ones. -/
theorem pendingWeight_walkDirectory {pending pending' : List (String × ℕ)}
    {seen seen' : List Entry} (hlevel : ¬ level ≥ depth)
    (h : walkDirectory host worker visitor directory level pending seen =
      (.ok (some pending'), seen')) :
    pendingWeight host worker depth pending' <
      pendingWeight host worker depth ((directory, level) :: pending) := by
  have hdepth : depth - level = depth - (level + 1) + 1 := by omega
  rw [walkDirectory] at h
  split at h
  case h_1 => cases h
  case h_2 names hnames =>
      rw [walkEntries_pending h, ← entries_eq hnames, pendingWeight, pendingWeight, stackAfter,
        List.map_append, List.sum_append, List.map_map, List.map_cons, List.sum_cons]
      change _ < weight host worker (depth - level) directory + _
      rw [hdepth, weight]
      have hreverse : (((entries host worker directory).filterMap enter).reverse.map
          ((fun item => weight host worker (depth - item.2) item.1) ∘
            fun next => (next, level + 1))).sum =
          (((entries host worker directory).filterMap enter).map
            (weight host worker (depth - (level + 1)))).sum := by
        rw [List.map_reverse, List.sum_reverse]
        rfl
      omega

theorem weight_pos (host : DirectoryHost) (worker : FsWorker) (depth : ℕ) (directory : String) :
    0 < weight host worker depth directory := by
  cases depth with
  | zero => exact Nat.one_pos
  | succ depth =>
      rw [weight]
      omega

end

/-- The loop of `FsWorker::walk_safe`. -/
def walkPending (host : DirectoryHost) (worker : FsWorker) (depth : ℕ)
    (visitor : List Entry → Except FsError Bool) (pending : List (String × ℕ))
    (seen : List Entry) : Except FsError Unit × List Entry :=
  match pending with
  | [] => (.ok (), seen)
  | (directory, level) :: pending =>
      if _hlevel : level ≥ depth then walkPending host worker depth visitor pending seen
      else
        match _hwalk : walkDirectory host worker visitor directory level pending seen with
        | (.error e, seen) => (.error e, seen)
        | (.ok none, seen) => (.ok (), seen)
        | (.ok (some pending), seen) => walkPending host worker depth visitor pending seen
termination_by pendingWeight host worker depth pending
decreasing_by
  · have hpos := weight_pos host worker (depth - level) directory
    simp only [pendingWeight, List.map_cons, List.sum_cons]
    omega
  · exact pendingWeight_walkDirectory _hlevel _hwalk

/-- `FsWorker::walk_safe`: the result, and what the visitor has been shown. -/
def walkSafe (host : DirectoryHost) (worker : FsWorker) (root : String) (depth : ℕ)
    (visitor : List Entry → Except FsError Bool) : Except FsError Unit × List Entry :=
  walkPending host worker depth visitor [(root, 0)] []

/-! ### What can be reached -/

/-- A directory is reached from the root by a number of steps, none of which goes through a
link or into a sensitive directory. -/
inductive Reaches (host : DirectoryHost) (root : String) : String → ℕ → Prop
  | refl : Reaches host root root 0
  | step {directory name : String} {level : ℕ} {names : List String} {metadata : Metadata} :
      Reaches host root directory level → host.readDir directory = .ok names → name ∈ names →
      host.symlinkMetadata (join directory name) = .ok metadata →
      metadata.isLinkOrReparse = false → metadata.isDir = true →
      sensitivePath (join directory name) = false →
      Reaches host root (join directory name) (level + 1)

/-- An entry of a directory that is neither a link, nor sensitive, nor a file with several
names. -/
structure Visible (host : DirectoryHost) (directory name : String) (entry : Entry) : Prop where
  path : entry.path = join directory name
  metadata : host.symlinkMetadata entry.path = .ok entry.metadata
  link : entry.metadata.isLinkOrReparse = false
  sensitive : sensitivePath entry.path = false
  hardlinks : ¬ (entry.metadata.isFile = true ∧ host.hasMultipleHardlinks entry.path = .ok true)

/-- The entries that can be reached within a depth. -/
def Reachable (host : DirectoryHost) (root : String) (depth : ℕ) (entry : Entry) : Prop :=
  ∃ directory level names name, Reaches host root directory level ∧ level < depth ∧
    host.readDir directory = .ok names ∧ name ∈ names ∧ Visible host directory name entry

/-- An entry of a canonical directory: it can be asked for its metadata, and if it is not a
link, then its path is canonical, and the number of its names is known if it is a file. -/
def ReadableEntry (host : DirectoryHost) (path : String) : Prop :=
  ∃ metadata, host.symlinkMetadata path = .ok metadata ∧
    (metadata.isLinkOrReparse = false → host.canonicalize path = .ok path ∧
      (metadata.isFile = true → ∃ multiple, host.hasMultipleHardlinks path = .ok multiple))

/-- The directories that are reached can be read, and are a tree. -/
def ReadableTree (host : DirectoryHost) (root : String) (depth : ℕ) : Prop :=
  ∀ directory level, Reaches host root directory level → level < depth →
    ∃ names, host.readDir directory = .ok names ∧ names.Nodup ∧
      ∀ name ∈ names, PlainName name ∧ ReadableEntry host (join directory name)

section

variable {host : DirectoryHost} {worker : FsWorker} {root directory name : String}
  {depth level : ℕ} {visitor : List Entry → Except FsError Bool}

theorem ensureAllowed_iff : worker.ensureAllowed directory = .ok () ↔
    ∃ allowed ∈ worker.allowedRoots, pathWithin directory allowed = true := by
  rw [FsWorker.ensureAllowed, failIf_eq_ok, Bool.not_eq_false, List.any_eq_true]

theorem ensureAllowed_join (hname : PlainName name)
    (h : worker.ensureAllowed directory = .ok ()) :
    worker.ensureAllowed (join directory name) = .ok () := by
  obtain ⟨allowed, hmem, hwithin⟩ := ensureAllowed_iff.mp h
  exact ensureAllowed_iff.mpr ⟨allowed, hmem, pathWithin_join hname hwithin⟩

/-- What is reached lies within the allowed roots. -/
theorem ensureAllowed_of_reaches (htree : ReadableTree host root depth)
    (hroot : worker.ensureAllowed root = .ok ()) (h : Reaches host root directory level)
    (hle : level ≤ depth) : worker.ensureAllowed directory = .ok () := by
  induction h with
  | refl => exact hroot
  | @step directory name level names metadata hdirectory hread hname _ _ _ _ ih =>
      obtain ⟨names', hread', -, hnames⟩ := htree directory level hdirectory (by omega)
      rw [hread] at hread'
      cases hread'
      exact ensureAllowed_join (hnames name hname).1 (ih (by omega))

/-- The one entry of a path. -/
theorem visible_iff {metadata : Metadata}
    (hmetadata : host.symlinkMetadata (join directory name) = .ok metadata) {entry : Entry} :
    Visible host directory name entry ↔ metadata.isLinkOrReparse = false ∧
      sensitivePath (join directory name) = false ∧
      ¬ (metadata.isFile = true ∧ host.hasMultipleHardlinks (join directory name) = .ok true) ∧
      entry = ⟨join directory name, metadata⟩ := by
  obtain ⟨path, metadata'⟩ := entry
  constructor
  · rintro ⟨hpath, hmetadata', hlink, hsensitive, hhardlinks⟩
    obtain rfl : path = join directory name := hpath
    obtain rfl : metadata = metadata' := Except.ok.inj (hmetadata.symm.trans hmetadata')
    exact ⟨hlink, hsensitive, hhardlinks, rfl⟩
  · rintro ⟨hlink, hsensitive, hhardlinks, heq⟩
    cases heq
    exact ⟨rfl, hmetadata, hlink, hsensitive, hhardlinks⟩

/-- What the walk makes of an entry. -/
theorem examine_eq (hallowed : worker.ensureAllowed (join directory name) = .ok ())
    (hentry : ReadableEntry host (join directory name)) :
    ∃ found, examine host worker directory name = .ok found ∧
      ∀ entry, found = some entry ↔ Visible host directory name entry := by
  obtain ⟨metadata, hmetadata, hrest⟩ := hentry
  simp only [visible_iff hmetadata]
  by_cases hlink : metadata.isLinkOrReparse = true
  · exact ⟨none, by simp [examine, hmetadata, hlink], by simp [hlink]⟩
  obtain ⟨hcanonical, hfile⟩ := hrest (Bool.eq_false_of_not_eq_true hlink)
  by_cases hsensitive : sensitivePath (join directory name) = true
  · exact ⟨none, by simp [examine, hmetadata, hlink, hcanonical, hallowed, hsensitive],
      by simp [hsensitive]⟩
  by_cases hisFile : metadata.isFile = true
  · obtain ⟨multiple, hmultiple⟩ := hfile hisFile
    refine ⟨if multiple then none else some ⟨join directory name, metadata⟩, ?_, ?_⟩
    · cases multiple <;>
        simp [examine, hmetadata, hlink, hcanonical, hallowed, hsensitive, hisFile, hmultiple]
    · cases multiple <;> simp [hlink, hsensitive, hisFile, hmultiple, eq_comm]
  · refine ⟨some ⟨join directory name, metadata⟩, ?_, ?_⟩
    · simp [examine, hmetadata, hlink, hcanonical, hallowed, hsensitive, hisFile]
    · simp [hlink, hsensitive, hisFile, eq_comm]

/-- The entries of a directory are the visible ones. -/
theorem mem_entries {names : List String} (hread : host.readDir directory = .ok names)
    (hexamine : ∀ name ∈ names, ∃ found, examine host worker directory name = .ok found ∧
      ∀ entry, found = some entry ↔ Visible host directory name entry) {entry : Entry} :
    entry ∈ entries host worker directory ↔ ∃ name ∈ names, Visible host directory name entry := by
  simp only [entries_eq (sortedNames_eq hread), foundEntries, List.mem_filterMap,
    List.mem_insertionSort]
  refine exists_congr fun name => and_congr_right fun hname => ?_
  obtain ⟨found, hfound, hvisible⟩ := hexamine name hname
  rw [hfound, ← hvisible]
  rfl

/-- What the walk finds in a directory that it reaches. -/
theorem readable_of_reaches (htree : ReadableTree host root depth)
    (hroot : worker.ensureAllowed root = .ok ()) (h : Reaches host root directory level)
    (hlt : level < depth) :
    ∃ names, host.readDir directory = .ok names ∧ names.Nodup ∧
      (∀ name ∈ names, PlainName name) ∧
      ∀ name ∈ names, ∃ found, examine host worker directory name = .ok found ∧
        ∀ entry, found = some entry ↔ Visible host directory name entry := by
  obtain ⟨names, hread, hnodup, hnames⟩ := htree directory level h hlt
  refine ⟨names, hread, hnodup, fun name hname => (hnames name hname).1, fun name hname => ?_⟩
  have hallowed := ensureAllowed_of_reaches htree hroot h (Nat.le_of_lt hlt)
  exact examine_eq (ensureAllowed_join (hnames name hname).1 hallowed) (hnames name hname).2

theorem mem_entries_of_reaches (htree : ReadableTree host root depth)
    (hroot : worker.ensureAllowed root = .ok ()) (h : Reaches host root directory level)
    (hlt : level < depth) {entry : Entry} :
    entry ∈ entries host worker directory ↔
      ∃ names name, host.readDir directory = .ok names ∧ name ∈ names ∧
        Visible host directory name entry := by
  obtain ⟨names, hread, -, -, hexamine⟩ := readable_of_reaches htree hroot h hlt
  rw [mem_entries hread hexamine]
  constructor
  · rintro ⟨name, hname, hvisible⟩
    exact ⟨names, name, hread, hname, hvisible⟩
  · rintro ⟨names', name, hread', hname, hvisible⟩
    rw [hread] at hread'
    cases hread'
    exact ⟨name, hname, hvisible⟩

/-- The walk goes down to the directories that are reached. -/
theorem descends_iff (htree : ReadableTree host root depth)
    (hroot : worker.ensureAllowed root = .ok ()) (hle : level ≤ depth) :
    Descends (entries host worker) enter root directory level ↔
      Reaches host root directory level := by
  constructor
  · intro h
    induction h with
    | refl => exact .refl
    | @step node next level item _ hitem henter ih =>
        have hnode := ih (by omega)
        obtain ⟨names, name, hread, hname, hvisible⟩ :=
          (mem_entries_of_reaches htree hroot hnode hle).mp hitem
        rw [enter] at henter
        split at henter
        case isTrue hdir =>
            cases henter
            have hmetadata := hvisible.metadata
            have hsensitive := hvisible.sensitive
            rw [hvisible.path] at hmetadata hsensitive ⊢
            exact .step hnode hread hname hmetadata hvisible.link hdir hsensitive
        case isFalse => cases henter
  · intro h
    induction h with
    | refl => exact .refl
    | @step directory name level names metadata hdirectory hread hname hmetadata hlink hdir
        hsensitive ih =>
        have hfile : ¬ metadata.isFile = true := by
          rw [Metadata.isDir, decide_eq_true_eq] at hdir
          rw [Metadata.isFile, hdir]
          decide
        have hmem : (⟨join directory name, metadata⟩ : Entry) ∈ entries host worker directory :=
          (mem_entries_of_reaches htree hroot hdirectory hle).mpr ⟨names, name, hread, hname,
            rfl, hmetadata, hlink, hsensitive, fun h => hfile h.1⟩
        exact (ih (by omega)).step hmem (if_pos hdir)

/-! ### What the visitor is shown -/

/-- The result of a directory, once its entries have been shown. -/
def afterEntries (level : ℕ) (found : List Entry) (pending : List (String × ℕ))
    (shown : Except FsError Bool × List Entry) :
    Except FsError (Option (List (String × ℕ))) × List Entry :=
  (shown.1.map fun go => if go then some (stackAfter level found pending) else none, shown.2)

/-- The entries of a directory are shown to the visitor, and its directories go onto the
stack. -/
theorem walkEntries_eq {names : List String}
    (hexamine : ∀ name ∈ names, ∃ found, examine host worker directory name = .ok found)
    (pending : List (String × ℕ)) (seen : List Entry) :
    walkEntries host worker visitor directory level names pending seen =
      afterEntries level (foundEntries host worker directory names) pending
        (showItems visitor seen (foundEntries host worker directory names)) := by
  induction names generalizing pending seen with
  | nil => rfl
  | cons name names ih =>
      have hrest : ∀ name ∈ names, ∃ found, examine host worker directory name = .ok found :=
        fun name hname => hexamine name (List.mem_cons_of_mem _ hname)
      obtain ⟨found, hfound⟩ := hexamine name List.mem_cons_self
      rw [walkEntries, hfound]
      cases found with
      | none =>
          rw [foundEntries_none hfound]
          exact ih hrest pending seen
      | some entry =>
          rw [foundEntries_some hfound]
          simp only
          rcases hanswer : visitor (seen ++ [entry]) with e | go
          · rw [showItems_cons_of_stop (by rw [hanswer]; simp), hanswer]
            rfl
          cases go with
          | false =>
              rw [showItems_cons_of_stop (by rw [hanswer]; simp), hanswer]
              rfl
          | true =>
              rw [showItems_cons_of_go hanswer, afterEntries, stackAfter_cons]
              exact ih hrest _ _

theorem walkDirectory_eq (htree : ReadableTree host root depth)
    (hroot : worker.ensureAllowed root = .ok ()) (h : Reaches host root directory level)
    (hlt : level < depth) (pending : List (String × ℕ)) (seen : List Entry) :
    walkDirectory host worker visitor directory level pending seen =
      afterEntries level (entries host worker directory) pending
        (showItems visitor seen (entries host worker directory)) := by
  obtain ⟨names, hread, -, -, hexamine⟩ := readable_of_reaches htree hroot h hlt
  rw [walkDirectory, sortedNames_eq hread, entries_eq (sortedNames_eq hread)]
  refine walkEntries_eq (fun name hname => ?_) pending seen
  obtain ⟨found, hfound, -⟩ := hexamine name ((List.mem_insertionSort _).mp hname)
  exact ⟨found, hfound⟩

/-- What is still to be shown for a stack. -/
def remaining (host : DirectoryHost) (worker : FsWorker) (depth : ℕ)
    (pending : List (String × ℕ)) : List Entry :=
  pending.flatMap fun item => descent (entries host worker) enter (depth - item.2) item.1

theorem remaining_deep (pending : List (String × ℕ)) (hlevel : level ≥ depth) :
    remaining host worker depth ((directory, level) :: pending) =
      remaining host worker depth pending := by
  rw [remaining, List.flatMap_cons, Nat.sub_eq_zero_of_le hlevel]
  rfl

/-- A directory is shown, and then those that it puts on the stack. -/
theorem remaining_cons (pending : List (String × ℕ)) (hlevel : ¬ level ≥ depth) :
    remaining host worker depth ((directory, level) :: pending) =
      entries host worker directory ++ remaining host worker depth
        (stackAfter level (entries host worker directory) pending) := by
  have hdepth : depth - level = depth - (level + 1) + 1 := by omega
  rw [remaining, remaining, List.flatMap_cons, hdepth, descent, stackAfter, List.flatMap_append,
    List.flatMap_map, List.append_assoc]

theorem afterEntries_eq_error {found : List Entry} {pending : List (String × ℕ)}
    {shown : Except FsError Bool × List Entry} {e : FsError} {seen : List Entry}
    (h : afterEntries level found pending shown = (.error e, seen)) : shown = (.error e, seen) := by
  obtain ⟨answer, shown⟩ := shown
  cases answer with
  | error e' =>
      cases h
      rfl
  | ok go => cases h

theorem afterEntries_eq_none {found : List Entry} {pending : List (String × ℕ)}
    {shown : Except FsError Bool × List Entry} {seen : List Entry}
    (h : afterEntries level found pending shown = (.ok none, seen)) :
    shown = (.ok false, seen) := by
  obtain ⟨answer, shown⟩ := shown
  rcases answer with e | _ | _
  · cases h
  · cases h
    rfl
  · cases h

theorem afterEntries_eq_some {found : List Entry} {pending pending' : List (String × ℕ)}
    {shown : Except FsError Bool × List Entry} {seen : List Entry}
    (h : afterEntries level found pending shown = (.ok (some pending'), seen)) :
    shown = (.ok true, seen) ∧ pending' = stackAfter level found pending := by
  obtain ⟨answer, shown⟩ := shown
  rcases answer with e | _ | _
  · cases h
  · cases h
  · cases h
    exact ⟨rfl, rfl⟩

/-- The walk shows what is remaining, until the visitor stops it. -/
theorem walkPending_eq (htree : ReadableTree host root depth)
    (hroot : worker.ensureAllowed root = .ok ()) {pending : List (String × ℕ)}
    (hpending : ∀ item ∈ pending, Reaches host root item.1 item.2) (seen : List Entry) :
    walkPending host worker depth visitor pending seen =
      ((showItems visitor seen (remaining host worker depth pending)).1.map fun _ => (),
        (showItems visitor seen (remaining host worker depth pending)).2) := by
  fun_induction walkPending host worker depth visitor pending seen with
  | case1 seen => rfl
  | case2 seen directory level pending hlevel ih =>
      rw [remaining_deep pending hlevel]
      exact ih fun item hitem => hpending item (List.mem_cons_of_mem _ hitem)
  | case3 seen directory level pending hlevel e seen' hwalk =>
      rw [walkDirectory_eq htree hroot (hpending _ List.mem_cons_self) (not_le.mp hlevel)] at hwalk
      have hshown := afterEntries_eq_error hwalk
      rw [remaining_cons pending hlevel, showItems_append_of_stop (by rw [hshown]; simp), hshown]
      rfl
  | case4 seen directory level pending hlevel seen' hwalk =>
      rw [walkDirectory_eq htree hroot (hpending _ List.mem_cons_self) (not_le.mp hlevel)] at hwalk
      have hshown := afterEntries_eq_none hwalk
      rw [remaining_cons pending hlevel, showItems_append_of_stop (by rw [hshown]; simp), hshown]
      rfl
  | case5 seen directory level pending hlevel pending' seen' hwalk ih =>
      have hdirectory := hpending _ List.mem_cons_self
      rw [walkDirectory_eq htree hroot hdirectory (not_le.mp hlevel)] at hwalk
      obtain ⟨hshown, rfl⟩ := afterEntries_eq_some hwalk
      have hgo : (showItems visitor seen (entries host worker directory)).1 = .ok true := by
        rw [hshown]
      have hseen : seen ++ entries host worker directory = seen' :=
        congrArg Prod.snd ((showItems_eq_of_go hgo).symm.trans hshown)
      rw [remaining_cons pending hlevel, showItems_append_of_go hgo, hseen]
      refine ih fun item hitem => ?_
      rw [stackAfter] at hitem
      rcases List.mem_append.mp hitem with hnew | hold
      · obtain ⟨next, hnext, rfl⟩ := List.mem_map.mp hnew
        obtain ⟨entry, hentry, henter⟩ := List.mem_filterMap.mp (List.mem_reverse.mp hnext)
        refine (descends_iff htree hroot (not_le.mp hlevel)).mp (Descends.step ?_ hentry henter)
        exact (descends_iff htree hroot (not_le.mp hlevel).le).mpr hdirectory
      · exact hpending item (List.mem_cons_of_mem _ hold)

/-! ### Nothing is shown twice -/

/-- An entry lies below a directory. -/
def Below (directory : String) (entry : Entry) : Prop :=
  entryPrefix directory <+: entry.path.toList

theorem below_own {entry : Entry} (h : Visible host directory name entry) :
    Below directory entry := by
  rw [Below, h.path, toList_join]
  exact List.prefix_append _ _

theorem below_join {entry : Entry} (hname : PlainName name) :
    Below (join directory name) entry ↔
      ∃ rest, entry.path.toList = entryPrefix directory ++ name.toList ++ '\\' :: rest := by
  rw [Below, entryPrefix_join hname]
  constructor
  · rintro ⟨rest, hrest⟩
    exact ⟨rest, by rw [← hrest]; simp⟩
  · rintro ⟨rest, hrest⟩
    exact ⟨rest, by rw [hrest]; simp⟩

theorem nodup_entries (htree : ReadableTree host root depth)
    (hroot : worker.ensureAllowed root = .ok ()) (h : Reaches host root directory level)
    (hlt : level < depth) : (entries host worker directory).Nodup := by
  obtain ⟨names, hread, hnodup, -, hexamine⟩ := readable_of_reaches htree hroot h hlt
  rw [entries_eq (sortedNames_eq hread), foundEntries, List.Nodup, List.pairwise_filterMap]
  refine List.Pairwise.imp_of_mem ?_ ((List.perm_insertionSort _ names).nodup_iff.mpr hnodup)
  intro name name' hname hname' hne entry hentry entry' hentry' heq
  obtain ⟨found, hfound, hvisible⟩ := hexamine name ((List.mem_insertionSort _).mp hname)
  obtain ⟨found', hfound', hvisible'⟩ := hexamine name' ((List.mem_insertionSort _).mp hname')
  rw [hfound] at hentry
  rw [hfound'] at hentry'
  subst heq
  have hpath := ((hvisible entry).mp hentry).path
  rw [((hvisible' entry).mp hentry').path] at hpath
  exact hne (join_injective hpath).symm

/-- The parts of the tree do not overlap. -/
theorem territories (htree : ReadableTree host root depth)
    (hroot : worker.ensureAllowed root = .ok ()) :
    Territories (entries host worker) enter root depth Below := by
  have hfound : ∀ {directory level entry},
      Descends (entries host worker) enter root directory level → level < depth →
        entry ∈ entries host worker directory →
          ∃ name, PlainName name ∧ Visible host directory name entry := by
    intro directory level entry hdescends hlt hmem
    have hreaches := (descends_iff htree hroot hlt.le).mp hdescends
    obtain ⟨names, hread, -, hplain, -⟩ := readable_of_reaches htree hroot hreaches hlt
    obtain ⟨names', name, hread', hname, hvisible⟩ :=
      (mem_entries_of_reaches htree hroot hreaches hlt).mp hmem
    rw [hread] at hread'
    cases hread'
    exact ⟨name, hplain name hname, hvisible⟩
  have hentered : ∀ {directory level via next},
      Descends (entries host worker) enter root directory level → level < depth →
        via ∈ entries host worker directory → enter via = some next →
          ∃ name, PlainName name ∧ Visible host directory name via ∧
            next = join directory name := by
    intro directory level via next hdescends hlt hvia henter
    obtain ⟨name, hplain, hvisible⟩ := hfound hdescends hlt hvia
    rw [enter] at henter
    split at henter
    case isTrue =>
        cases henter
        exact ⟨name, hplain, hvisible, hvisible.path⟩
    case isFalse => cases henter
  constructor
  · intro directory level hdescends hlt
    exact nodup_entries htree hroot ((descends_iff htree hroot hlt.le).mp hdescends) hlt
  · intro directory level entry hdescends hlt hmem
    obtain ⟨name, -, hvisible⟩ := hfound hdescends hlt hmem
    exact below_own hvisible
  · intro directory level via next entry hdescends hlt hvia henter hbelow
    obtain ⟨name, hplain, -, rfl⟩ := hentered hdescends hlt hvia henter
    obtain ⟨rest, hrest⟩ := (below_join hplain).mp hbelow
    exact ⟨name.toList ++ '\\' :: rest, by rw [hrest, List.append_assoc]⟩
  · intro directory level via next entry hdescends hlt hvia henter hmem hbelow
    obtain ⟨name, hplain, -, rfl⟩ := hentered hdescends hlt hvia henter
    obtain ⟨name', hplain', hvisible'⟩ := hfound hdescends hlt hmem
    obtain ⟨rest, hrest⟩ := (below_join hplain).mp hbelow
    rw [hvisible'.path, toList_join, List.append_assoc] at hrest
    have hseparator : '\\' ∈ name'.toList := by
      rw [List.append_cancel_left hrest]
      simp
    exact absurd (hplain'.2 _ hseparator) (by decide)
  · intro directory level via next via' next' entry hdescends hlt hvia henter hvia' henter' hbelow
      hbelow'
    obtain ⟨name, hplain, hvisible, rfl⟩ := hentered hdescends hlt hvia henter
    obtain ⟨name', hplain', hvisible', rfl⟩ := hentered hdescends hlt hvia' henter'
    obtain ⟨rest, hrest⟩ := (below_join hplain).mp hbelow
    obtain ⟨rest', hrest'⟩ := (below_join hplain').mp hbelow'
    rw [hrest, List.append_assoc, List.append_assoc] at hrest'
    obtain rfl := plainName_inj hplain hplain' (List.append_cancel_left hrest')
    have hmetadata := hvisible.metadata
    rw [hvisible.path] at hmetadata
    rw [((visible_iff hmetadata).mp hvisible).2.2.2, ((visible_iff hmetadata).mp hvisible').2.2.2]

theorem walkSafe_eq (htree : ReadableTree host root depth)
    (hroot : worker.ensureAllowed root = .ok ())
    (visitor : List Entry → Except FsError Bool) :
    walkSafe host worker root depth visitor =
      ((showItems visitor [] (descent (entries host worker) enter depth root)).1.map fun _ => (),
        (showItems visitor [] (descent (entries host worker) enter depth root)).2) := by
  have hpending : ∀ item ∈ [(root, 0)], Reaches host root item.1 item.2 := by
    intro item hitem
    rw [List.mem_singleton.mp hitem]
    exact .refl
  rw [walkSafe, walkPending_eq htree hroot hpending, remaining, List.flatMap_singleton]
  rfl

/-- The entries of the walk are those that can be reached. -/
theorem mem_descent_entries (htree : ReadableTree host root depth)
    (hroot : worker.ensureAllowed root = .ok ()) {entry : Entry} :
    entry ∈ descent (entries host worker) enter depth root ↔ Reachable host root depth entry := by
  rw [mem_descent_iff]
  constructor
  · rintro ⟨directory, level, hdescends, hlt, hmem⟩
    have hreaches := (descends_iff htree hroot hlt.le).mp hdescends
    obtain ⟨names, name, hread, hname, hvisible⟩ :=
      (mem_entries_of_reaches htree hroot hreaches hlt).mp hmem
    exact ⟨directory, level, names, name, hreaches, hlt, hread, hname, hvisible⟩
  · rintro ⟨directory, level, names, name, hreaches, hlt, hread, hname, hvisible⟩
    exact ⟨directory, level, (descends_iff htree hroot hlt.le).mpr hreaches, hlt,
      (mem_entries_of_reaches htree hroot hreaches hlt).mpr ⟨names, name, hread, hname, hvisible⟩⟩

theorem allowed_of_reachable (htree : ReadableTree host root depth)
    (hroot : worker.ensureAllowed root = .ok ()) {entry : Entry}
    (h : Reachable host root depth entry) :
    ∃ allowed ∈ worker.allowedRoots, pathWithin entry.path allowed = true := by
  obtain ⟨directory, level, names, name, hreaches, hlt, hread, hname, hvisible⟩ := h
  obtain ⟨names', hread', -, hplain, -⟩ := readable_of_reaches htree hroot hreaches hlt
  rw [hread] at hread'
  cases hread'
  rw [hvisible.path]
  exact ensureAllowed_iff.mp (ensureAllowed_join (hplain name hname)
    (ensureAllowed_of_reaches htree hroot hreaches hlt.le))

/-- On a tree that can be read, the walk has a list of entries to show: each entry that can
be reached within the depth, once, and nothing outside the allowed roots. A visitor that
never stops the walk is shown all of it, and any other the entries up to its answer. -/
theorem walkSafe_exact (htree : ReadableTree host root depth)
    (hroot : worker.ensureAllowed root = .ok ()) :
    ∃ all : List Entry, (all.map Entry.path).Nodup ∧
      (∀ entry, entry ∈ all ↔ Reachable host root depth entry) ∧
      (∀ entry ∈ all, ∃ allowed ∈ worker.allowedRoots, pathWithin entry.path allowed = true) ∧
      ∀ visitor : List Entry → Except FsError Bool,
        ((∀ seen, visitor seen = .ok true) →
          walkSafe host worker root depth visitor = (.ok (), all)) ∧
        ∃ shown outcome, walkSafe host worker root depth visitor = (outcome, shown) ∧
          shown <+: all ∧ (shown = all ∧ outcome = .ok () ∨
            visitor shown ≠ .ok true ∧ outcome = (visitor shown).map fun _ => ()) := by
  have hmem : ∀ entry, entry ∈ descent (entries host worker) enter depth root ↔
      Reachable host root depth entry := fun _ => mem_descent_entries htree hroot
  refine ⟨descent (entries host worker) enter depth root, ?_, hmem, ?_, fun visitor => ⟨?_, ?_⟩⟩
  · have hnodup := (nodup_descent (territories htree hroot) .refl (Nat.zero_add depth).le).1
    refine hnodup.map_on ?_
    intro entry hentry entry' hentry' hpath
    obtain ⟨_, _, _, _, _, _, _, _, hvisible⟩ := (hmem entry).mp hentry
    obtain ⟨_, _, _, _, _, _, _, _, hvisible'⟩ := (hmem entry').mp hentry'
    have hmetadata := hvisible.metadata
    rw [hpath, hvisible'.metadata] at hmetadata
    obtain ⟨path, metadata⟩ := entry
    obtain ⟨path', metadata'⟩ := entry'
    cases hmetadata
    cases hpath
    rfl
  · exact fun entry hentry => allowed_of_reachable htree hroot ((hmem entry).mp hentry)
  · intro hgo
    obtain ⟨shown, hshown, -, ⟨hanswer, rfl⟩ | ⟨-, hstop⟩⟩ :=
      showItems_prefix visitor [] (descent (entries host worker) enter depth root)
    · rw [walkSafe_eq htree hroot, hanswer, hshown]
      rfl
    · exact absurd (hgo _) hstop
  · obtain ⟨shown, hshown, hprefix, hanswer⟩ :=
      showItems_prefix visitor [] (descent (entries host worker) enter depth root)
    rw [List.nil_append] at hshown hanswer
    refine ⟨shown, _, by rw [walkSafe_eq htree hroot, hshown], hprefix, ?_⟩
    rcases hanswer with ⟨hgo, hall⟩ | ⟨hstop, hne⟩
    · rw [hgo]
      exact .inl ⟨hall, rfl⟩
    · rw [hstop]
      exact .inr ⟨hne, rfl⟩

end

namespace WalkSample

/-- A directory with a file in a directory of its own, and a link. -/
def host : DirectoryHost where
  readDir directory :=
    if directory = "C:\\work" then .ok ["sub", "link"]
    else if directory = "C:\\work\\sub" then .ok ["a.txt"] else .error .io
  symlinkMetadata path := .ok
    { isLinkOrReparse := path = "C:\\work\\link"
      fileType := if path = "C:\\work\\sub\\a.txt" then .file else .directory }
  canonicalize path := .ok path
  hasMultipleHardlinks _ := .ok false

def worker : FsWorker := ⟨["C:\\work"], "C:\\journal"⟩

theorem directories {directory : String} {level : ℕ}
    (h : Reaches host "C:\\work" directory level) (hlt : level < 2) :
    directory = "C:\\work" ∨ directory = "C:\\work\\sub" := by
  cases h with
  | refl => exact .inl rfl
  | @step parent name level names metadata hparent hread hname hmetadata hlink hdir hsensitive =>
      obtain rfl : level = 0 := by omega
      cases hparent
      cases hread
      rcases List.mem_pair.mp hname with rfl | rfl
      · exact .inr (by decide)
      · cases hmetadata
        revert hlink
        decide

theorem readableEntry {path : String} : ReadableEntry host path :=
  ⟨_, rfl, fun _ => ⟨rfl, fun _ => ⟨false, rfl⟩⟩⟩

theorem readableTree : ReadableTree host "C:\\work" 2 := by
  intro directory level h hlt
  rcases directories h hlt with rfl | rfl
  · refine ⟨["sub", "link"], by decide, by decide, fun name hname => ⟨?_, readableEntry⟩⟩
    rcases List.mem_pair.mp hname with rfl | rfl
    · decide
    · decide
  · refine ⟨["a.txt"], by decide, by decide, fun name hname => ⟨?_, readableEntry⟩⟩
    rw [List.mem_singleton.mp hname]
    decide

end WalkSample

open WalkSample

theorem walkSafe_exact_sub :
    ∃ all : List Entry, (all.map Entry.path).Nodup ∧
      (∀ entry, entry ∈ all ↔ Reachable host "C:\\work" 2 entry) ∧
      (∀ entry ∈ all, ∃ allowed ∈ worker.allowedRoots, pathWithin entry.path allowed = true) ∧
      ∀ visitor : List Entry → Except FsError Bool,
        ((∀ seen, visitor seen = .ok true) →
          walkSafe host worker "C:\\work" 2 visitor = (.ok (), all)) ∧
        ∃ shown outcome, walkSafe host worker "C:\\work" 2 visitor = (outcome, shown) ∧
          shown <+: all ∧ (shown = all ∧ outcome = .ok () ∨
            visitor shown ≠ .ok true ∧ outcome = (visitor shown).map fun _ => ()) :=
  walkSafe_exact readableTree (by decide)

end Fs

end VorCommander
