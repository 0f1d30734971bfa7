import VorCommander.Fs.Edit
import VorCommander.Fs.Glob
import VorCommander.Fs.Walk

/-!
Exploring directories.

A listing and the two searches walk the directories below the target of a request with a
visitor that keeps what it has found. Whatever the host answers, what they return is about
entries that the walk has shown, and those are no links, are not sensitive, and lie within
the allowed roots.
-/

namespace VorCommander

open Steps Text WindowsPath

namespace Fs

/-- `MAX_LIST_DEPTH`. -/
def maxListDepth : ℕ := 16

/-- `MAX_LIST_ENTRIES`. -/
def maxListEntries : ℕ := 10000

/-- `MAX_SEARCH_RESULTS`. -/
def maxSearchResults : ℕ := 10000

/-- `MAX_CONTENT_MATCHES`. -/
def maxContentMatches : ℕ := 10000

/-- `MAX_SEARCH_FILE_BYTES`. -/
def maxSearchFileBytes : ℕ := 8 * 1024 * 1024

/-- `MAX_SEARCH_DURATION`, in nanoseconds. -/
def maxSearchDuration : ℕ := 5 * 10 ^ 9

/-- `MAX_LINE_TEXT_BYTES`. -/
def maxLineTextBytes : ℕ := 4 * 1024

/-! ### The host -/

/-- What the tools ask of the host besides the directories: `isDir` is that of the metadata of
a path, `size` and `modified` are those of the metadata of an entry, and `elapsed` is what the
clock says when the entry with that number is shown. -/
structure ExplorationHost extends DirectoryHost where
  rejectReparse : String → Except FsError Unit
  isFile : String → Bool
  isDir : String → Except FsError Bool
  size : Entry → ℕ
  modified : Entry → Option ℕ
  read : String → Except FsError (List UInt8)
  elapsed : ℕ → ℕ

/-- The part of the host that is asked about a target. -/
def ExplorationHost.targets (host : ExplorationHost) : ReadHost where
  rejectReparse := host.rejectReparse
  canonicalize := host.canonicalize
  isFile := host.isFile
  multipleHardlinks := host.hasMultipleHardlinks
  read := host.read

/-- A library of regular expressions that tells where a text has matches, in bytes. -/
structure SearchCrate extends RegexCrate where
  findIter : Compiled → String → List ℕ

/-! ### Visitors with a state -/

section

variable {σ : Type}

/-- The answer of a visitor to the last of the entries, and its state. -/
def visitFrom (visitor : ℕ → σ → Entry → Except FsError (Bool × σ)) :
    ℕ → σ → List Entry → Except FsError (Bool × σ)
  | _, s, [] => return (true, s)
  | i, s, [entry] => visitor i s entry
  | i, s, entry :: entries => do
      let visited ← visitor i s entry
      visitFrom visitor (i + 1) visited.2 entries

/-- `FsWorker::walk_safe` with a visitor that has a state, which is what it returns. -/
def walkWith (host : DirectoryHost) (worker : FsWorker) (root : String) (depth : ℕ)
    (visitor : ℕ → σ → Entry → Except FsError (Bool × σ)) (s : σ) : Except FsError σ := do
  let walked := walkSafe host worker root depth fun seen => Prod.fst <$> visitFrom visitor 0 s seen
  walked.1
  Prod.snd <$> visitFrom visitor 0 s walked.2

end

/-! ### Listing -/

structure DirectoryEntry where
  path : String
  name : String
  entryType : String
  size : ℕ
  mtimeUnixMs : Option ℕ
  deriving DecidableEq

/-- The names of the types of entries. -/
def FileType.text : FileType → String
  | .directory => "directory"
  | .file => "file"
  | .other => "other"

/-- What a listing says of an entry. -/
def directoryEntry (host : ExplorationHost) (entry : Entry) : DirectoryEntry where
  path := entry.path
  name := (fileName entry.path).getD ""
  entryType := entry.metadata.fileType.text
  size := host.size entry
  mtimeUnixMs := host.modified entry

/-- The visitor of a listing. -/
def listVisitor (host : ExplorationHost) (maxEntries : ℕ) (_ : ℕ) (output : List DirectoryEntry)
    (entry : Entry) : Except FsError (Bool × List DirectoryEntry) :=
  if output.length ≥ maxEntries then return (false, output)
  else
    let output := output ++ [directoryEntry host entry]
    return (output.length < maxEntries, output)

section

variable (host : ExplorationHost) (worker : FsWorker) (authorization : Authorization)

/-- `resolve_exploration_target`. -/
def resolveTarget : Except FsError String :=
  resolveReadTarget host.targets worker.allowedRoots authorization.request.envelope.target

/-- `FsWorker::list_directory`. -/
def listDirectory (depth maxEntries : ℕ) : Except FsError (List DirectoryEntry) := do
  authorization.ensureAutoAction "filesystem.list"
  failIf (maxListDepth < depth ∨ maxEntries = 0 ∨ maxListEntries < maxEntries) .invalidParameters
  let root ← resolveTarget host worker authorization
  let isDir ← host.isDir root
  failIf (isDir = false) .unsafePath
  walkWith host.toDirectoryHost worker root depth (listVisitor host maxEntries) []

end

/-! ### Searching by name -/

/-- `Path::strip_prefix` for canonical paths. -/
def stripPathPrefix (path root : String) : Option String :=
  let drive (path : String) := path.toList.take (path.toList.length - (dropPrefix path).length)
  if drive path = drive root then
    ((normalParts root).isPrefixOf? (normalParts path)).map joinParts
  else none

/-- The path of an entry as a pattern sees it. -/
def relativePath (root path : String) : String :=
  replaceChar '\\' '/' ((stripPathPrefix path root).getD path)

section

variable (crate : SearchCrate) (host : ExplorationHost)

/-- The visitor of a search by name. -/
def searchFilesVisitor (matcher : crate.Compiled) (root : String) (maxResults i : ℕ)
    (output : List String) (entry : Entry) : Except FsError (Bool × List String) := do
  failIf (maxSearchDuration < host.elapsed i) .searchTimeout
  let output :=
    if entry.metadata.isFile && crate.isMatch matcher (relativePath root entry.path) then
      output ++ [entry.path]
    else output
  return (output.length < maxResults, output)

/-- `FsWorker::search_files`. -/
def searchFiles (worker : FsWorker) (authorization : Authorization) (pattern : String)
    (maxResults : ℕ) : Except FsError (List String) := do
  authorization.ensureAutoAction "filesystem.search_files"
  failIf (maxResults = 0 ∨ maxSearchResults < maxResults) .invalidParameters
  let root ← resolveTarget host worker authorization
  let matcher ← globRegex crate.toRegexCrate pattern
  walkWith host.toDirectoryHost worker root maxListDepth
    (searchFilesVisitor crate host matcher root maxResults) []

end

/-! ### Searching by content -/

structure ContentMatch where
  file : String
  encoding : String
  line : ℕ
  column : ℕ
  lineText : String
  truncated : Bool
  deriving DecidableEq

structure ContentSearchResult where
  contentMatches : List ContentMatch
  skippedBinaryFiles : ℕ
  skippedSizeLimitFiles : ℕ
  deriving DecidableEq

/-- The names of the encodings. -/
def encodingName : TextEncoding → String
  | .utf8 => "utf-8"
  | .utf8Bom => "utf-8-bom"
  | .utf16 .little => "utf-16le"
  | .utf16 .big => "utf-16be"
  | .windows1252 => "windows-1252"

/-- The bytes before each but the first of the pieces that a pattern leaves of a text. -/
def offsets (patternBytes : ℕ) : ℕ → List (List Char) → List ℕ
  | before, piece :: next :: pieces =>
      let here := before + byteLength (String.ofList piece)
      here :: offsets patternBytes (here + patternBytes) (next :: pieces)
  | _, _ => []

/-- `str::match_indices`, without the matches. -/
def matchIndices (pattern text : String) : List ℕ :=
  offsets (byteLength pattern) 0 (split pattern.toList text.toList)

/-- The expression of a query, if it is one. -/
def compileQuery (crate : SearchCrate) (query : String) (regex : Bool) :
    Except FsError (Option crate.Compiled) :=
  if regex then some <$> orFail (crate.new query) .invalidPattern else return none

/-- Where a query is found in a line, as a text or by its expression. -/
def columnsIn (crate : SearchCrate) (query : String) (queryRegex : Option crate.Compiled)
    (line : String) : List ℕ :=
  match queryRegex with
  | some regex => crate.findIter regex line
  | none => matchIndices query line

/-- The matches in the lines of a file. -/
def matchesIn (columns : String → List ℕ) (file : String) (decoded : DecodedText) :
    List ContentMatch :=
  (textLines decoded.text).zipIdx.flatMap fun (line, index) =>
    (columns line).map fun column =>
      { file, encoding := encodingName decoded.encoding, line := index + 1, column := column + 1
        lineText := (truncateUtf8 line maxLineTextBytes).1
        truncated := (truncateUtf8 line maxLineTextBytes).2 }

/-- Matches are added until there are enough: whether the search goes on, and all of them. -/
def addMatches (maxMatches : ℕ) : List ContentMatch → List ContentMatch → Bool × List ContentMatch
  | output, [] => (true, output)
  | output, found :: rest =>
      if (output ++ [found]).length ≥ maxMatches then (false, output ++ [found])
      else addMatches maxMatches (output ++ [found]) rest

structure ContentSearchLimits where
  maxMatches : ℕ
  maxFileBytes : ℕ
  timeout : ℕ

section

variable (crate : SearchCrate) (codec : Windows1252) (host : ExplorationHost)

/-- The visitor of a search by content. -/
def searchContentVisitor (columns : String → List ℕ) (fileMatcher : crate.Compiled)
    (limits : ContentSearchLimits) (root : String) (i : ℕ) (found : ContentSearchResult)
    (entry : Entry) : Except FsError (Bool × ContentSearchResult) := do
  failIf (limits.timeout ≤ host.elapsed i) .searchTimeout
  if entry.metadata.isFile = false then return (true, found)
  else if crate.isMatch fileMatcher (relativePath root entry.path) = false then
    return (true, found)
  else if limits.maxFileBytes < host.size entry then
    return (true, { found with skippedSizeLimitFiles := found.skippedSizeLimitFiles + 1 })
  else
    let bytes ← host.read entry.path
    match decodeSearchText codec bytes with
    | none => return (true, { found with skippedBinaryFiles := found.skippedBinaryFiles + 1 })
    | some decoded =>
        let added := addMatches limits.maxMatches found.contentMatches
          (matchesIn columns entry.path decoded)
        return (added.1, { found with contentMatches := added.2 })

/-- `FsWorker::search_content`. -/
def searchContent (worker : FsWorker) (authorization : Authorization) (query : String)
    (regex : Bool) (fileGlob : String) (maxMatches maxFileBytes : ℕ) :
    Except FsError ContentSearchResult := do
  authorization.ensureAutoAction "filesystem.search_content"
  failIf (query = "" ∨ maxMatches = 0 ∨ maxContentMatches < maxMatches ∨ maxFileBytes = 0 ∨
    maxSearchFileBytes < maxFileBytes) .invalidParameters
  let root ← resolveTarget host worker authorization
  let fileMatcher ← globRegex crate.toRegexCrate fileGlob
  let queryRegex ← compileQuery crate query regex
  walkWith host.toDirectoryHost worker root maxListDepth
    (searchContentVisitor crate codec host (columnsIn crate query queryRegex) fileMatcher
      { maxMatches, maxFileBytes, timeout := maxSearchDuration } root)
    { contentMatches := [], skippedBinaryFiles := 0, skippedSizeLimitFiles := 0 }

end

/-! ### What is shown -/

/-- An entry that the walk shows: it is no link, its path is a canonical one within the allowed
roots, it is not sensitive, and if it is a file, then it has one name. -/
structure Shown (host : DirectoryHost) (worker : FsWorker) (entry : Entry) : Prop where
  found : ∃ directory name, host.symlinkMetadata (join directory name) = .ok entry.metadata ∧
    host.canonicalize (join directory name) = .ok entry.path
  link : entry.metadata.isLinkOrReparse = false
  allowed : ∃ allowed ∈ worker.allowedRoots, pathWithin entry.path allowed = true
  sensitive : sensitivePath entry.path = false
  hardlinks : entry.metadata.isFile = true → host.hasMultipleHardlinks entry.path = .ok false

section

variable {host : DirectoryHost} {worker : FsWorker} {directory name root : String}
  {visitor : List Entry → Except FsError Bool} {level depth : ℕ}

/-- The walk goes on with the stack that a directory leaves. -/
theorem walkPending_of_walked {pending pending' : List (String × ℕ)} {seen seen' : List Entry}
    (hlevel : level < depth)
    (h : walkDirectory host worker visitor directory level pending seen =
      (.ok (some pending'), seen')) :
    walkPending host worker depth visitor ((directory, level) :: pending) seen =
      walkPending host worker depth visitor pending' seen' := by
  rw [walkPending, dif_neg (not_le.mpr hlevel)]
  split
  all_goals
    rename_i hwalk
    rw [h] at hwalk
    cases hwalk
  rfl

theorem walkPending_of_deep {pending : List (String × ℕ)} {seen : List Entry}
    (hlevel : depth ≤ level) :
    walkPending host worker depth visitor ((directory, level) :: pending) seen =
      walkPending host worker depth visitor pending seen := by
  rw [walkPending, dif_pos hlevel]

theorem shown_of_examine {entry : Entry}
    (h : examine host worker directory name = .ok (some entry)) : Shown host worker entry := by
  simp only [examine, bind_eq_ok] at h
  obtain ⟨metadata, hmetadata, h⟩ := h
  split at h
  case isTrue => cases h
  case isFalse hlink =>
  obtain ⟨resolved, hcanonical, h⟩ := bind_eq_ok.mp h
  obtain ⟨_, hallowed, h⟩ := bind_eq_ok.mp h
  split at h
  case isTrue => cases h
  case isFalse hsensitive =>
  have hfound : entry = ⟨resolved, metadata⟩ ∧
      (metadata.isFile = true → host.hasMultipleHardlinks resolved = .ok false) := by
    split at h
    case isTrue hfile =>
        obtain ⟨multiple, hmultiple, h⟩ := bind_eq_ok.mp h
        cases multiple with
        | true => cases h
        | false =>
            cases h
            exact ⟨rfl, fun _ => hmultiple⟩
    case isFalse hfile =>
        cases h
        exact ⟨rfl, fun htrue => absurd htrue hfile⟩
  obtain ⟨rfl, hhardlinks⟩ := hfound
  exact ⟨⟨directory, name, hmetadata, hcanonical⟩, Bool.eq_false_of_not_eq_true hlink,
    ensureAllowed_iff.mp hallowed, Bool.eq_false_of_not_eq_true hsensitive, hhardlinks⟩

theorem walkEntries_shown {names : List String} {pending : List (String × ℕ)} {seen : List Entry}
    (hseen : ∀ entry ∈ seen, Shown host worker entry) :
    ∀ entry ∈ (walkEntries host worker visitor directory level names pending seen).2,
      Shown host worker entry := by
  induction names generalizing pending seen with
  | nil => exact hseen
  | cons name names ih =>
      rw [walkEntries]
      split
      case h_1 => exact hseen
      case h_2 => exact ih hseen
      case h_3 entry hexamine =>
          have hseen' : ∀ shown ∈ seen ++ [entry], Shown host worker shown := by
            intro shown hshown
            rcases List.mem_append.mp hshown with hold | hnew
            · exact hseen shown hold
            · rw [List.mem_singleton.mp hnew]
              exact shown_of_examine hexamine
          split
          case h_1 => exact hseen'
          case h_2 => exact hseen'
          case h_3 => exact ih hseen'

theorem walkDirectory_shown {pending : List (String × ℕ)} {seen seen' : List Entry}
    {outcome : Except FsError (Option (List (String × ℕ)))}
    (hseen : ∀ entry ∈ seen, Shown host worker entry)
    (h : walkDirectory host worker visitor directory level pending seen = (outcome, seen')) :
    ∀ entry ∈ seen', Shown host worker entry := by
  rw [walkDirectory] at h
  split at h
  · obtain rfl := congrArg Prod.snd h
    exact hseen
  · obtain rfl := congrArg Prod.snd h
    exact walkEntries_shown hseen

/-- Whatever the host answers, the walk shows nothing else. -/
theorem walkSafe_shown : ∀ entry ∈ (walkSafe host worker root depth visitor).2,
    Shown host worker entry := by
  have hpending : ∀ (pending : List (String × ℕ)) (seen : List Entry),
      (∀ entry ∈ seen, Shown host worker entry) →
        ∀ entry ∈ (walkPending host worker depth visitor pending seen).2,
          Shown host worker entry := by
    intro pending seen hseen
    fun_induction walkPending host worker depth visitor pending seen with
    | case1 seen => exact hseen
    | case2 seen directory level pending hlevel ih => exact ih hseen
    | case3 seen directory level pending hlevel e seen' hwalk =>
        exact walkDirectory_shown hseen hwalk
    | case4 seen directory level pending hlevel seen' hwalk =>
        exact walkDirectory_shown hseen hwalk
    | case5 seen directory level pending hlevel pending' seen' hwalk ih =>
        exact ih (walkDirectory_shown hseen hwalk)
  exact hpending _ _ fun _ hentry => absurd hentry List.not_mem_nil

/-! ### What is found -/

variable {σ : Type} {step : ℕ → σ → Entry → Except FsError (Bool × σ)}

/-- What a visitor keeps at each entry it keeps over all of them. -/
theorem visitFrom_keeps {K : σ → Prop} {entries : List Entry}
    (hstep : ∀ i s entry visited, K s → entry ∈ entries → step i s entry = .ok visited →
      K visited.2) {i : ℕ} {s : σ} {visited : Bool × σ} (hs : K s)
    (h : visitFrom step i s entries = .ok visited) : K visited.2 := by
  induction entries generalizing i s with
  | nil =>
      obtain rfl := pure_eq_ok.mp h
      exact hs
  | cons entry entries ih =>
      cases entries with
      | nil => exact hstep i s entry visited hs List.mem_cons_self h
      | cons next entries =>
          obtain ⟨first, hfirst, hrest⟩ := bind_eq_ok.mp h
          refine ih (fun i s entry visited hs hmem => ?_)
            (hstep i s entry first hs List.mem_cons_self hfirst) hrest
          exact hstep i s entry visited hs (List.mem_cons_of_mem _ hmem)

/-- A walk returns what its visitor makes of the entries that it is shown. -/
theorem walkWith_keeps {K : σ → Prop} {s result : σ}
    (hstep : ∀ i s entry visited, K s → Shown host worker entry → step i s entry = .ok visited →
      K visited.2) (hs : K s) (h : walkWith host worker root depth step s = .ok result) :
    K result := by
  obtain ⟨_, _, hresult⟩ := bind_eq_ok.mp h
  obtain ⟨visited, hvisited, rfl⟩ := map_eq_ok.mp hresult
  refine visitFrom_keeps (fun i s entry visited hs hmem => ?_) hs hvisited
  exact hstep i s entry visited hs (walkSafe_shown entry hmem)

/-- The path is that of an entry that has been shown. -/
def ShownPath (host : DirectoryHost) (worker : FsWorker) (path : String) : Prop :=
  ∃ entry, Shown host worker entry ∧ entry.path = path

end

section

variable {crate : SearchCrate} {codec : Windows1252} {host : ExplorationHost} {worker : FsWorker}
  {authorization : Authorization}

theorem mem_append_singleton {α : Type} {P : α → Prop} {items : List α} {item : α}
    (hitems : ∀ a ∈ items, P a) (hitem : P item) : ∀ a ∈ items ++ [item], P a := by
  intro a ha
  rcases List.mem_append.mp ha with hold | hnew
  · exact hitems a hold
  · rwa [List.mem_singleton.mp hnew]

/-- A listing is of entries that have been shown. -/
theorem listDirectory_shown {depth maxEntries : ℕ} {output : List DirectoryEntry}
    (h : listDirectory host worker authorization depth maxEntries = .ok output) :
    ∀ item ∈ output, ShownPath host.toDirectoryHost worker item.path := by
  simp only [listDirectory, bind_eq_ok] at h
  obtain ⟨_, _, _, _, root, _, _, _, _, _, hwalk⟩ := h
  refine walkWith_keeps (K := fun output => ∀ item ∈ output,
    ShownPath host.toDirectoryHost worker item.path) ?_ (by simp) hwalk
  intro i output entry visited houtput hshown hvisited
  rw [listVisitor] at hvisited
  split at hvisited
  · obtain rfl := pure_eq_ok.mp hvisited
    exact houtput
  · obtain rfl := pure_eq_ok.mp hvisited
    exact mem_append_singleton houtput ⟨entry, hshown, rfl⟩

/-- A search by name finds files that have been shown. -/
theorem searchFiles_shown {pattern : String} {maxResults : ℕ} {output : List String}
    (h : searchFiles crate host worker authorization pattern maxResults = .ok output) :
    ∀ path ∈ output, ShownPath host.toDirectoryHost worker path := by
  simp only [searchFiles, bind_eq_ok] at h
  obtain ⟨_, _, _, _, root, _, matcher, _, hwalk⟩ := h
  refine walkWith_keeps (K := fun output => ∀ path ∈ output,
    ShownPath host.toDirectoryHost worker path) ?_ (by simp) hwalk
  intro i output entry visited houtput hshown hvisited
  obtain ⟨_, _, hvisited⟩ := bind_eq_ok.mp hvisited
  obtain rfl := pure_eq_ok.mp hvisited
  simp only
  split
  · exact mem_append_singleton houtput ⟨entry, hshown, rfl⟩
  · exact houtput

theorem addMatches_subset (maxMatches : ℕ) (output found : List ContentMatch) :
    ∀ item ∈ (addMatches maxMatches output found).2, item ∈ output ∨ item ∈ found := by
  induction found generalizing output with
  | nil => exact fun item hitem => .inl hitem
  | cons first found ih =>
      intro item hitem
      have hor : item ∈ output ++ [first] ∨ item ∈ found := by
        rw [addMatches] at hitem
        split at hitem
        · exact .inl hitem
        · exact ih _ item hitem
      rcases hor with hold | hrest
      · rcases List.mem_append.mp hold with hold | hnew
        · exact .inl hold
        · exact .inr (List.mem_cons.mpr (.inl (List.mem_singleton.mp hnew)))
      · exact .inr (List.mem_cons_of_mem _ hrest)

theorem file_of_mem_matchesIn {columns : String → List ℕ} {file : String} {decoded : DecodedText} :
    ∀ item ∈ matchesIn columns file decoded, item.file = file := by
  intro item hitem
  obtain ⟨_, _, hitem⟩ := List.mem_flatMap.mp hitem
  obtain ⟨_, _, rfl⟩ := List.mem_map.mp hitem
  rfl

/-- A search by content finds lines of files that have been shown. -/
theorem searchContent_shown {query fileGlob : String} {regex : Bool} {maxMatches maxFileBytes : ℕ}
    {result : ContentSearchResult}
    (h : searchContent crate codec host worker authorization query regex fileGlob maxMatches
      maxFileBytes = .ok result) :
    ∀ item ∈ result.contentMatches, ShownPath host.toDirectoryHost worker item.file := by
  simp only [searchContent, bind_eq_ok] at h
  obtain ⟨_, _, _, _, root, _, matcher, _, queryRegex, _, hwalk⟩ := h
  refine walkWith_keeps (K := fun result : ContentSearchResult => ∀ item ∈ result.contentMatches,
    ShownPath host.toDirectoryHost worker item.file) ?_ (by simp) hwalk
  intro i found entry visited hfound hshown hvisited
  obtain ⟨_, _, hvisited⟩ := bind_eq_ok.mp hvisited
  split at hvisited
  case isTrue =>
      obtain rfl := pure_eq_ok.mp hvisited
      exact hfound
  case isFalse =>
  split at hvisited
  case isTrue =>
      obtain rfl := pure_eq_ok.mp hvisited
      exact hfound
  case isFalse =>
  split at hvisited
  case isTrue =>
      obtain rfl := pure_eq_ok.mp hvisited
      exact hfound
  case isFalse =>
  obtain ⟨bytes, _, hvisited⟩ := bind_eq_ok.mp hvisited
  split at hvisited
  case h_1 =>
      obtain rfl := pure_eq_ok.mp hvisited
      exact hfound
  case h_2 decoded hdecoded =>
      obtain rfl := pure_eq_ok.mp hvisited
      intro item hitem
      rcases addMatches_subset _ _ _ item hitem with hold | hnew
      · exact hfound item hold
      · exact ⟨entry, hshown, (file_of_mem_matchesIn item hnew).symm⟩

end

end Fs

end VorCommander
