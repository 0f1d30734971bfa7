import VorCommander.Fs.Explore
import VorCommander.Policy.Governing
import VorCommander.Worker.Git

/-!
The tools that look around.

A request to list a directory, to search below one, or to ask Git about one is decided on
its target, and the tools do not ask the policy again. What the file tools show is not
sensitive and lies within the allowed roots; the decision on it is that on the target,
unless a rule covers it that does not cover the target. What Git prints is passed on.
-/

namespace VorCommander

open Steps Text WindowsPath

/-! ### Below a target -/

/-- A path below another is decided in the same way, if every rule that covers it covers the
other too. -/
theorem PolicyConfig.filesystemDecision_below {config : PolicyConfig} {host : Host}
    (hhost : SlashFree host) {target path : String} {write : Bool}
    (h : config.filesystemDecision host target write ≠ .deny) {drive : Char}
    {parts parts' : List String} (htarget : normalComponents host target = some (drive, parts))
    (hpath : normalComponents host path = some (drive, parts')) (hbelow : parts <+: parts')
    (hcovers : ∀ rule ∈ config.filesystem, ∀ root, rule.Covers host drive parts' root →
      root <+: parts) :
    config.filesystemDecision host path write = config.filesystemDecision host target write := by
  obtain ⟨drive', parts₀, rule, htarget', hgoverns, hdecision⟩ := governs_of_decision hhost h
  obtain ⟨rfl, rfl⟩ := Prod.mk.inj (Option.some.inj (htarget.symm.trans htarget'))
  rw [hdecision]
  refine filesystemDecision_of_governs hhost hpath ?_ write
  obtain ⟨before, after, root, hrules, hcovered, hbefore, hafter⟩ := hgoverns
  -- what covers the path covers the target, and so the longest root is the same
  have hother : ∀ other ∈ config.filesystem, ∀ root',
      other.Covers host drive parts' root' → other.Covers host drive parts root' :=
    fun other hmem root' hcover => ⟨hcover.1, hcovers other hmem root' hcover⟩
  refine ⟨before, after, root, hrules, ⟨hcovered.1, hcovered.2.trans hbelow⟩, ?_, ?_⟩
  · intro other hmem root' hcover
    refine hbefore other hmem root' (hother other ?_ root' hcover)
    rw [hrules]
    exact List.mem_append_left _ hmem
  · intro other hmem root' hcover
    refine hafter other hmem root' (hother other ?_ root' hcover)
    rw [hrules]
    exact List.mem_append_right _ (List.mem_cons_of_mem _ hmem)

/-! ### Answers -/

namespace Fs

def DirectoryEntry.toJson (entry : DirectoryEntry) : Value :=
  .object
    [("path", .string entry.path), ("name", .string entry.name),
     ("entry_type", .string entry.entryType), ("size", .posInt entry.size),
     ("mtime_unix_ms", entry.mtimeUnixMs.elim .null .posInt)]

def ContentMatch.toJson (found : ContentMatch) : Value :=
  .object
    [("file", .string found.file), ("encoding", .string found.encoding),
     ("line", .posInt found.line), ("column", .posInt found.column),
     ("line_text", .string found.lineText), ("truncated", .bool found.truncated)]

def ContentSearchResult.toJson (result : ContentSearchResult) : Value :=
  .object
    [("matches", .array (result.contentMatches.map ContentMatch.toJson)),
     ("skipped_binary_files", .posInt result.skippedBinaryFiles),
     ("skipped_size_limit_files", .posInt result.skippedSizeLimitFiles)]

end Fs

namespace Worker

/-- What a tool has found. -/
inductive Explored
  | entries (output : List Fs.DirectoryEntry)
  | files (output : List String)
  | contents (output : Fs.ContentSearchResult)
  | git (output : Git.GitOutput)

namespace Explored

def toJson : Explored → Value
  | .entries output => .array (output.map Fs.DirectoryEntry.toJson)
  | .files output => .array (output.map Value.string)
  | .contents output => output.toJson
  | .git output => output.toJson

/-- The files and directories whose names or contents the worker has put into the answer. -/
def paths : Explored → List String
  | .entries output => output.map (·.path)
  | .files output => output
  | .contents output => output.contentMatches.map (·.file)
  | .git _ => []

end Explored

/-! ### The dispatcher -/

/-- The workers behind the tools, and the host as they see it. -/
structure Tools where
  crate : Fs.SearchCrate
  codec : Windows1252
  host : Fs.ExplorationHost
  gitHost : Git.GitHost
  fs : FsWorker
  git : Git.GitWorker

/-- `required_usize`, `required_str` and `required_bool`. -/
def requiredParameter {α : Type} (authorization : Authorization) (name : String)
    (convert : Value → Option α) : Except DispatchError α :=
  orFail (PolicyConfig.parameter authorization.request name convert) .invalidFilesystemParameters

namespace Tools

variable (tools : Tools) (authorization : Authorization)

/-- The tool for an action. -/
def explore : Except DispatchError Explored :=
  match authorization.request.envelope.action with
  | "filesystem.list" => do
      let depth ← requiredParameter authorization "depth" Value.asU64
      let maxEntries ← requiredParameter authorization "max_entries" Value.asU64
      Explored.entries <$>
        (Fs.listDirectory tools.host tools.fs authorization depth maxEntries).mapError .fs
  | "filesystem.search_files" => do
      let pattern ← requiredParameter authorization "pattern" Value.asStr
      let maxResults ← requiredParameter authorization "max_results" Value.asU64
      Explored.files <$> (Fs.searchFiles tools.crate tools.host tools.fs authorization pattern
        maxResults).mapError .fs
  | "filesystem.search_content" => do
      let query ← requiredParameter authorization "query" Value.asStr
      let regex ← requiredParameter authorization "regex" Value.asBool
      let fileGlob ← requiredParameter authorization "file_glob" Value.asStr
      let maxMatches ← requiredParameter authorization "max_matches" Value.asU64
      let maxFileBytes ← requiredParameter authorization "max_file_bytes" Value.asU64
      Explored.contents <$> (Fs.searchContent tools.crate tools.codec tools.host tools.fs
        authorization query regex fileGlob maxMatches maxFileBytes).mapError .fs
  | "git.status" =>
      Explored.git <$> (Git.status tools.gitHost tools.git authorization).mapError .git
  | "git.diff" =>
      Explored.git <$> (Git.diff tools.gitHost tools.git authorization).mapError .git
  | _ => .error .remoteActionNotAllowed

/-- `execute_authorized` for these actions. -/
def executeAuthorized : Except DispatchError WorkerOutput :=
  (fun explored => (explored.toJson.toBytes, "application/json")) <$> tools.explore authorization

end Tools

/-! ### What is shown -/

/-- The arguments with which Git is asked for an action. -/
def gitArguments (action : String) : List String :=
  if action = "git.diff" then Git.diffArguments else Git.statusArguments

/-- The same request for another path. -/
def requestAt (request : ActionRequest) (path : String) : ActionRequest :=
  { request with envelope := { request.envelope with target := path } }

section

variable {tools : Tools} {authorization : Authorization} {explored : Explored}

theorem isAuto_of_ensureAutoAction {expected : String} {u : Unit}
    (h : authorization.ensureAutoAction expected = .ok u) : authorization.isAuto := by
  obtain ⟨_, _, h⟩ := bind_eq_ok.mp h
  split at h
  case h_1 hkind => exact hkind
  all_goals cases h

theorem isAuto_of_gitEnsureAutoAction {expected : String} {u : Unit}
    (h : Git.ensureAutoAction authorization expected = .ok u) : authorization.isAuto := by
  obtain ⟨_, _, h⟩ := bind_eq_ok.mp h
  split at h
  case h_1 hkind => exact hkind
  all_goals cases h

/-- The actions of the tools. -/
def exploreActions : List String :=
  ["filesystem.list", "filesystem.search_files", "filesystem.search_content", "git.status",
    "git.diff"]

/-- The actions of the tools are decided as reading. -/
theorem evaluate_kind_of_explores {engine : PolicyEngine} {host : Host} {request : ActionRequest}
    (h : request.envelope.action ∈ exploreActions) :
    (engine.evaluate host request).kind =
      (engine.config.filesystemDecision host request.envelope.target false).kind := by
  rw [PolicyEngine.evaluate_kind]
  simp only [exploreActions, List.mem_cons, List.not_mem_nil, or_false] at h
  rcases h with h | h | h | h | h <;> simp only [PolicyConfig.ruleFor, h]

/-- The tools answer to what is let through without asking. What the file tools answer with has
been shown by a walk, and what Git has printed is the answer of the tools for it. -/
structure Answered (tools : Tools) (authorization : Authorization) (explored : Explored) :
    Prop where
  action : authorization.request.envelope.action ∈ exploreActions
  auto : authorization.isAuto
  shown : ∀ path ∈ explored.paths, Fs.ShownPath tools.host.toDirectoryHost tools.fs path
  printed : ∀ output, explored = .git output →
    Git.Printed tools.gitHost tools.git authorization.request.envelope.target
      (gitArguments authorization.request.envelope.action) output

theorem answered_of_git {action : String} {output : Git.GitOutput}
    (haction : authorization.request.envelope.action = action) (hmem : action ∈ exploreActions)
    (h : Git.ask tools.gitHost tools.git action (gitArguments action) authorization = .ok output) :
    Answered tools authorization (.git output) := by
  subst haction
  obtain ⟨_, hauto, _⟩ := bind_eq_ok.mp h
  refine ⟨hmem, isAuto_of_gitEnsureAutoAction hauto, fun _ hpath => absurd hpath List.not_mem_nil,
    fun _ heq => ?_⟩
  cases heq
  exact Git.printed_of_ask h

theorem answered_of_explore (h : tools.explore authorization = .ok explored) :
    Answered tools authorization explored := by
  unfold Tools.explore at h
  split at h
  case h_1 haction =>
      simp only [bind_eq_ok, map_eq_ok, mapError_eq_ok] at h
      obtain ⟨_, _, _, _, output, hlist, rfl⟩ := h
      obtain ⟨_, hauto, _⟩ := bind_eq_ok.mp hlist
      refine ⟨by rw [haction]; decide, isAuto_of_ensureAutoAction hauto, ?_, ?_⟩
      · exact List.forall_mem_map.mpr (Fs.listDirectory_shown hlist)
      · intro _ hgit
        cases hgit
  case h_2 haction =>
      simp only [bind_eq_ok, map_eq_ok, mapError_eq_ok] at h
      obtain ⟨_, _, _, _, output, hsearch, rfl⟩ := h
      obtain ⟨_, hauto, _⟩ := bind_eq_ok.mp hsearch
      refine ⟨by rw [haction]; decide, isAuto_of_ensureAutoAction hauto,
        Fs.searchFiles_shown hsearch, ?_⟩
      intro _ hgit
      cases hgit
  case h_3 haction =>
      simp only [bind_eq_ok, map_eq_ok, mapError_eq_ok] at h
      obtain ⟨_, _, _, _, _, _, _, _, _, _, output, hsearch, rfl⟩ := h
      obtain ⟨_, hauto, _⟩ := bind_eq_ok.mp hsearch
      refine ⟨by rw [haction]; decide, isAuto_of_ensureAutoAction hauto, ?_, ?_⟩
      · exact List.forall_mem_map.mpr (Fs.searchContent_shown hsearch)
      · intro _ hgit
        cases hgit
  case h_4 haction =>
      obtain ⟨output, hasked, rfl⟩ := map_eq_ok.mp h
      exact answered_of_git haction (by decide) (mapError_eq_ok.mp hasked)
  case h_5 haction =>
      obtain ⟨output, hasked, rfl⟩ := map_eq_ok.mp h
      exact answered_of_git haction (by decide) (mapError_eq_ok.mp hasked)
  case h_6 => cases h

/-- What a tool answers is decided on the target of the request alone. Every file or directory
that a file tool names is not sensitive and within the allowed roots, and to read it is
allowed without asking as well, unless a rule covers it that does not cover the target. What
Git has printed for a directory within the allowed roots is passed on. -/
theorem explored_by_target (tools : Tools) (engine : PolicyEngine) {host : Host}
    (hhost : SlashFree host) (request : ActionRequest) (explored : Explored)
    (h : tools.explore ⟨request, engine.evaluate host request⟩ = .ok explored) :
    (engine.evaluate host request).kind = .auto ∧
    (∀ path ∈ explored.paths, sensitivePath path = false ∧
      (∃ allowed ∈ tools.fs.allowedRoots, pathWithin path allowed = true) ∧
      ∀ drive parts parts', normalComponents host request.envelope.target = some (drive, parts) →
        normalComponents host path = some (drive, parts') → parts <+: parts' →
        (∀ rule ∈ engine.config.filesystem, ∀ root, rule.Covers host drive parts' root →
          root <+: parts) →
        (engine.evaluate host (requestAt request path)).kind = .auto) ∧
    ∀ output, explored = .git output →
      Git.Printed tools.gitHost tools.git request.envelope.target
        (gitArguments request.envelope.action) output := by
  obtain ⟨haction, hauto, hshown, hprinted⟩ := answered_of_explore h
  refine ⟨hauto, fun path hpath => ?_, hprinted⟩
  obtain ⟨entry, hentry, rfl⟩ := hshown path hpath
  refine ⟨hentry.sensitive, hentry.allowed, ?_⟩
  intro drive parts parts' htarget hentryPath hbelow hcovers
  have hdecision : engine.config.filesystemDecision host request.envelope.target false = .auto := by
    rw [← RuleDecision.kind_eq_auto, ← evaluate_kind_of_explores haction]
    exact hauto
  have haction' : (requestAt request entry.path).envelope.action ∈ exploreActions := haction
  rw [evaluate_kind_of_explores haction', RuleDecision.kind_eq_auto]
  refine (PolicyConfig.filesystemDecision_below hhost ?_ htarget hentryPath hbelow hcovers).trans
    hdecision
  rw [hdecision]
  decide

end

/-! ### A folder below the target -/

namespace ExploreSample

/-- A directory with a file, and with a folder that has a rule of its own. -/
def tree : Fs.ExplorationHost where
  readDir directory :=
    if directory = "C:\\data" then .ok ["é", "a.txt"] else .error .io
  symlinkMetadata path :=
    .ok ⟨false, if path = "C:\\data\\a.txt" then .file else .directory⟩
  canonicalize := .ok
  hasMultipleHardlinks _ := .ok false
  rejectReparse _ := .ok ()
  isFile path := path = "C:\\data\\a.txt"
  isDir path := .ok (path ≠ "C:\\data\\a.txt")
  size _ := 0
  modified _ := none
  read _ := .ok []
  elapsed _ := 0

/-- The tools on it; Git is not there. -/
def tools : Tools where
  crate := ⟨⟨Unit, fun _ => some (), fun _ _ => true, id⟩, fun _ _ => []⟩
  codec := ⟨fun _ => "", fun _ => ([], true)⟩
  host := tree
  gitHost :=
    ⟨fun _ => .ok (), .ok, fun _ => true, .error .io, fun _ => none, fun _ _ _ => .error .io⟩
  fs := ⟨["C:\\data"], "C:\\journal"⟩
  git := ⟨"C:\\git.exe", ["C:\\data"]⟩

/-- A request to list the directory. -/
def listing : ActionRequest where
  envelope :=
    { requestId := "", organizationId := "", actorId := "", deviceId := ""
      action := "filesystem.list", target := "C:\\data"
      parameters :=
        ((∅ : Parameters).insert "depth" (.posInt 1)).insert "max_entries" (.posInt 10)
      requestedCapabilities := [], expiresAtUnixMs := 0, nonce := [] }
  envelopeDigest := Vector.replicate 32 0

/-- What the policy lets through. -/
def allowed : Authorization :=
  ⟨listing, SpellingSample.policy.evaluate SpellingSample.emptyHost listing⟩

/-- What it lists. -/
def listed : List Fs.DirectoryEntry :=
  [⟨"C:\\data\\a.txt", "a.txt", "file", 0, none⟩, ⟨"C:\\data\\é", "é", "directory", 0, none⟩]

/-- What the walk shows. -/
def shown : List Fs.Entry :=
  [⟨"C:\\data\\a.txt", false, .file⟩, ⟨"C:\\data\\é", false, .directory⟩]

theorem walkWith_listed :
    Fs.walkWith tree.toDirectoryHost tools.fs "C:\\data" 1 (Fs.listVisitor tree 10) [] =
      .ok listed := by
  have hdirectory : Fs.walkDirectory tree.toDirectoryHost tools.fs
      (fun seen => Prod.fst <$> Fs.visitFrom (Fs.listVisitor tree 10) 0 [] seen) "C:\\data" 0 []
      [] = (.ok (some [("C:\\data\\é", 1)]), shown) := rfl
  have hwalk : Fs.walkSafe tree.toDirectoryHost tools.fs "C:\\data" 1
      (fun seen => Prod.fst <$> Fs.visitFrom (Fs.listVisitor tree 10) 0 [] seen) =
        (.ok (), shown) := by
    rw [Fs.walkSafe, Fs.walkPending_of_walked one_pos hdirectory, Fs.walkPending_of_deep le_rfl,
      Fs.walkPending]
  simp only [Fs.walkWith, hwalk]
  rfl

theorem explore_listing : tools.explore allowed = .ok (.entries listed) := by
  have hauto : allowed.ensureAutoAction "filesystem.list" = .ok () := by decide
  have hroot : Fs.resolveTarget tree tools.fs allowed = .ok "C:\\data" := by decide
  have hdir : tree.isDir "C:\\data" = .ok true := by decide
  have hlist : Fs.listDirectory tree tools.fs allowed 1 10 = .ok listed := by
    simp only [Fs.listDirectory, hauto, hroot, hdir, ok_bind]
    exact walkWith_listed
  have hdepth : requiredParameter allowed "depth" Value.asU64 = .ok 1 := by decide
  have hmax : requiredParameter allowed "max_entries" Value.asU64 = .ok 10 := by decide
  change (do
    let depth ← requiredParameter allowed "depth" Value.asU64
    let maxEntries ← requiredParameter allowed "max_entries" Value.asU64
    Explored.entries <$> (Fs.listDirectory tree tools.fs allowed depth maxEntries).mapError
      DispatchError.fs) = _
  rw [hdepth, hmax, ok_bind, ok_bind, hlist]
  rfl

end ExploreSample

open ExploreSample SpellingSample in
/-- The policy may refuse to read what a listing shows. -/
theorem rule_below_target_not_asked :
    ¬ ∀ (tools : Tools) (engine : PolicyEngine) (host : Host) (request : ActionRequest)
      (explored : Explored), SlashFree host →
        tools.explore ⟨request, engine.evaluate host request⟩ = .ok explored →
          ∀ path ∈ explored.paths,
            (engine.evaluate host (requestAt request path)).kind = .auto := by
  intro h
  have hauto := h tools policy emptyHost listing _ emptyHost_slashFree explore_listing
    "C:\\data\\é" (by decide)
  exact absurd hauto (by decide)

open ExploreSample SpellingSample in
/-- A file beside the folder may be read as the directory may. -/
theorem explored_by_target_listing :
    (policy.evaluate emptyHost (requestAt listing "C:\\data\\a.txt")).kind = .auto := by
  obtain ⟨_, hpaths, _⟩ := explored_by_target tools policy emptyHost_slashFree listing _
    explore_listing
  obtain ⟨_, _, hread⟩ := hpaths "C:\\data\\a.txt" (by decide)
  refine hread 'C' ["data"] ["data", "a.txt"] (by decide) (by decide) (by decide) ?_
  intro rule hrule root hcovers
  rcases List.mem_pair.mp hrule with rfl | rfl
  · have hroot : normalComponents emptyHost "C:\\data" = some ('C', ["data"]) := by decide
    obtain rfl := (Prod.mk.inj (Option.some.inj (hroot.symm.trans hcovers.1))).2
    exact List.prefix_rfl
  · have hroot : normalComponents emptyHost "C:\\data\\é" = some ('C', ["data", "é"]) := by decide
    obtain rfl := (Prod.mk.inj (Option.some.inj (hroot.symm.trans hcovers.1))).2
    exact absurd hcovers.2 (by decide)

end Worker

end VorCommander
