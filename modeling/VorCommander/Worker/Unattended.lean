import VorCommander.Policy.Governing
import VorCommander.Worker.Write

/-!
Writes without an approval.

The policy and the worker both refuse to write sensitive files unasked. The
policy looks at the normal form of the target, with its drive, the worker at the
names of the path that the device has found for it. The two agree: the names
decide, and the drive is none that does.
-/

namespace VorCommander

open Text WindowsPath

namespace WindowsPath

/-! ### Names decide -/

/-- Names that make a path sensitive, in lower case. -/
def sensitiveNames (parts : List String) : Bool :=
  let name := parts.getLast?.getD ""
  parts.any (fun part => part = ".git" || part = ".ssh" || part = "startup") ||
    parts.any (fun part => startsWith part ".env") ||
    sensitiveSequences.any (fun sequence => decide (sequence <:+: parts)) ||
    [".bashrc", ".profile", ".zshrc", ".bash_profile", ".zprofile"].contains name ||
    sensitiveExtensions.any fun extension => endsWith name ("." ++ extension)

/-- A name between two backslashes, or after the last, is a component. -/
theorem mem_components_of_append {path : String} {before after : List Char} {name : String}
    (hpath : path.toList = before ++ '\\' :: (name.toList ++ after)) (hname : name.toList ≠ [])
    (hbackslash : '\\' ∉ name.toList) (hafter : after = [] ∨ ∃ rest, after = '\\' :: rest) :
    name ∈ components path := by
  have hplain : ∀ c ∈ name.toList, decide (c = '\\') = false := by
    intro c hc
    apply decide_eq_false
    rintro rfl
    exact hbackslash hc
  rw [components_eq, hpath, words_append_cons (by decide), List.map_append, List.mem_append]
  right
  rw [List.mem_map]
  refine ⟨name.toList, ?_, String.ofList_toList⟩
  rcases hafter with rfl | ⟨rest, rfl⟩
  · rw [List.append_nil, words_of_forall hname hplain]
    exact List.mem_singleton_self _
  · rw [words_append_cons (by decide), words_of_forall hname hplain]
    exact List.mem_append_left _ (List.mem_singleton_self _)

/-- A path in the folder for programs that are started with Windows has a name
that says so. -/
theorem startup_mem_components {path : String}
    (h : containsString path "\\start menu\\programs\\startup\\" = true ∨
      endsWith path "\\start menu\\programs\\startup" = true) : "startup" ∈ components path := by
  have hname : "startup".toList ≠ [] ∧ '\\' ∉ "startup".toList := by decide
  rcases h with h | h
  · obtain ⟨before, after, hpath⟩ := of_decide_eq_true h
    have hlast : path.toList = (before ++ "\\start menu\\programs".toList) ++
        '\\' :: ("startup".toList ++ '\\' :: after) := by
      rw [← hpath]
      simp
    exact mem_components_of_append hlast hname.1 hname.2 (Or.inr ⟨after, rfl⟩)
  · rw [endsWith, List.isSuffixOf_iff_suffix] at h
    obtain ⟨before, hpath⟩ := h
    have hlast : path.toList = (before ++ "\\start menu\\programs".toList) ++
        '\\' :: ("startup".toList ++ []) := by
      rw [← hpath]
      simp
    exact mem_components_of_append hlast hname.1 hname.2 (Or.inl rfl)

/-- The places that the check looks for besides are sensitive by their names. -/
theorem sensitiveWindowsPath_eq (path : String) :
    sensitiveWindowsPath path =
      sensitiveNames (components (toAsciiLowercase (replaceChar '/' '\\' path))) := by
  rw [sensitiveWindowsPath, sensitiveNames]
  generalize toAsciiLowercase (replaceChar '/' '\\' path) = normalized
  -- a folder of startup programs and a script are sensitive by another rule already
  have hstartup : "startup" ∈ components normalized → (components normalized).any
      (fun part => part = ".git" || part = ".ssh" || part = "startup") = true := fun hmem =>
    List.any_eq_true.mpr ⟨"startup", hmem, rfl⟩
  have hscript : ∀ name, endsWith name ".ps1" = true →
      sensitiveExtensions.any (fun extension => endsWith name ("." ++ extension)) = true :=
    fun name hname => List.any_eq_true.mpr ⟨"ps1", List.mem_cons_self, hname⟩
  apply Bool.eq_iff_iff.mpr
  simp only [Bool.or_eq_true, Bool.and_eq_true]
  constructor
  · rintro (((((((h | h) | h) | h) | h) | h) | ⟨_, h⟩) | h)
    · exact Or.inl (Or.inl (Or.inl (Or.inl h)))
    · exact Or.inl (Or.inl (Or.inl (Or.inr h)))
    · exact Or.inl (Or.inl (Or.inr h))
    · exact Or.inl (Or.inr h)
    · exact Or.inl (Or.inl (Or.inl (Or.inl (hstartup (startup_mem_components (Or.inl h))))))
    · exact Or.inl (Or.inl (Or.inl (Or.inl (hstartup (startup_mem_components (Or.inr h))))))
    · exact Or.inr (hscript _ h)
    · exact Or.inr h
  · rintro ((((h | h) | h) | h) | h)
    · exact Or.inl (Or.inl (Or.inl (Or.inl (Or.inl (Or.inl (Or.inl h))))))
    · exact Or.inl (Or.inl (Or.inl (Or.inl (Or.inl (Or.inl (Or.inr h))))))
    · exact Or.inl (Or.inl (Or.inl (Or.inl (Or.inl (Or.inr h)))))
    · exact Or.inl (Or.inl (Or.inl (Or.inl (Or.inr h))))
    · exact Or.inr h

/-- The drive does not make a path sensitive: no sensitive name has a colon. -/
theorem sensitiveNames_drive (letter : Char) (parts : List String) :
    sensitiveNames (String.ofList [letter, ':'] :: parts) = sensitiveNames parts := by
  have hchars : (String.ofList [letter, ':']).toList = [letter, ':'] := String.toList_ofList
  generalize String.ofList [letter, ':'] = drive at *
  have hne : ∀ name : String, ':' ∉ name.toList → drive ≠ name := by
    rintro name hname rfl
    rw [hchars] at hname
    exact hname (List.mem_cons_of_mem _ (List.mem_singleton_self _))
  have hhidden : startsWith drive ".env" = false := by
    apply Bool.eq_false_iff.mpr
    intro hprefix
    have hlength := (List.isPrefixOf_iff_prefix.mp hprefix).length_le
    rw [hchars] at hlength
    exact absurd hlength (by simp)
  have hextension : sensitiveExtensions.any (fun extension => endsWith drive ("." ++ extension)) =
      false := by
    have hcolonless : ∀ extension ∈ sensitiveExtensions,
        ("." ++ extension).toList ≠ [] ∧ ':' ∉ ("." ++ extension).toList := by decide
    rw [List.any_eq_false]
    intro extension hextension hsuffix
    obtain ⟨hnonempty, hcolon⟩ := hcolonless extension hextension
    rw [endsWith, List.isSuffixOf_iff_suffix, hchars] at hsuffix
    obtain ⟨front, hfront⟩ := hsuffix
    -- a drive ends with a colon, and no extension has one
    have hlast := congrArg List.getLast? hfront
    rw [List.getLast?_append_of_ne_nil _ hnonempty] at hlast
    exact hcolon (List.mem_of_getLast? hlast)
  have hsequence : ∀ first rest, ':' ∉ first.toList →
      decide (first :: rest <:+: drive :: parts) = decide (first :: rest <:+: parts) := by
    intro first rest hfirst
    apply decide_eq_decide.mpr
    rw [List.infix_cons_iff, List.cons_prefix_cons]
    exact or_iff_right fun hprefix => hne first hfirst hprefix.1.symm
  have hsequences : sensitiveSequences.any (fun sequence => decide (sequence <:+: drive :: parts)) =
      sensitiveSequences.any (fun sequence => decide (sequence <:+: parts)) := by
    simp only [sensitiveSequences, List.any_cons, List.any_nil]
    rw [hsequence ".github" _ (by decide), hsequence ".config" _ (by decide),
      hsequence "etc" _ (by decide), hsequence "var" _ (by decide),
      hsequence "windows" _ (by decide)]
  have hlast : ∀ check : String → Bool, check drive = false → check "" = false →
      check ((drive :: parts).getLast?.getD "") = check (parts.getLast?.getD "") := by
    intro check hchecked hempty
    cases parts with
    | nil => exact hchecked.trans hempty.symm
    | cons part parts => rw [List.getLast?_cons_cons]
  have hnames := hlast [".bashrc", ".profile", ".zshrc", ".bash_profile", ".zprofile"].contains
    (by simp [hne]) (by decide)
  have hextensions := hlast (fun name => sensitiveExtensions.any fun extension =>
    endsWith name ("." ++ extension)) hextension (by decide)
  simp only [sensitiveNames, List.any_cons, hhidden, hsequences, hnames, hextensions,
    hne ".git" (by decide), hne ".ssh" (by decide), hne "startup" (by decide), decide_false,
    Bool.or_false, Bool.false_or]

/-! ### Names of a path -/

theorem components_toAsciiLowercase (path : String) :
    components (toAsciiLowercase path) = lowered (components path) := by
  have hkeeps : ∀ c : Char, decide (c.toLower = '\\') = decide (c = '\\') := fun c =>
    decide_eq_decide.mpr (toLower_eq_iff (by decide))
  rw [components_eq, components_eq, toList_toAsciiLowercase, asciiLower, words_map hkeeps, lowered,
    List.map_map, List.map_map]
  apply List.map_congr_left
  intro word _
  rw [Function.comp_apply, Function.comp_apply, toAsciiLowercase, String.toList_ofList, asciiLower]

theorem normalParts_eq (path : String) :
    normalParts path = ((words isSeparator (dropPrefix path)).map String.ofList).filter fun name =>
      name ≠ "." && name ≠ ".." := by
  rw [normalParts, words, List.filter_map, List.filter_map, List.filter_filter]
  congr 1
  apply List.filter_congr
  intro word _
  have hempty : (String.ofList word).isEmpty = word.isEmpty := by
    cases word <;> simp
  rw [Function.comp_apply, Function.comp_apply, hempty, Bool.and_assoc, Bool.and_comm]

/-- The worker decides by the names of the path. -/
theorem sensitivePath_eq (path : String) :
    sensitivePath path = sensitiveNames (lowered (normalParts path)) := by
  have hnamed : ∀ part ∈ normalParts path,
      part.toList ≠ [] ∧ ∀ c ∈ part.toList, isSeparator c = false := by
    intro part hpart
    rw [normalParts_eq] at hpart
    obtain ⟨word, hword, rfl⟩ := List.mem_map.mp (List.mem_of_mem_filter hpart)
    obtain ⟨hnonempty, hchars⟩ := mem_words hword
    rw [String.toList_ofList]
    exact ⟨hnonempty, fun c hc => (hchars c hc).2⟩
  rw [sensitivePath, sensitiveWindowsPath_eq,
    replaceChar_of_slash_notMem (slash_notMem_joinParts hnamed), components_toAsciiLowercase,
    components_joinParts hnamed]

theorem dropPrefix_toAsciiLowercase (path : String) :
    dropPrefix (toAsciiLowercase path) = asciiLower (dropPrefix path) := by
  have hseparator : (fun c => !isSeparator c) ∘ Char.toLower = fun c => !isSeparator c := by
    funext c
    rw [Function.comp_apply, isSeparator_toLower]
  have hcolon : ∀ c : Char, decide (c.toLower = ':') = decide (c = ':') := fun c =>
    decide_eq_decide.mpr (toLower_eq_iff (by decide))
  have halpha : ∀ c : Char, c.toLower.isAlpha = c.isAlpha := fun c =>
    isAlpha_of_toLower_eq (toLower_toLower c)
  rw [dropPrefix, dropPrefix, toList_toAsciiLowercase]
  rcases path.toList with _ | ⟨a, _ | ⟨b, rest⟩⟩
  · rfl
  · rfl
  · simp only [asciiLower, List.map_cons, isSeparator_toLower, halpha, hcolon]
    split_ifs
    · rw [List.dropWhile_map, hseparator, ← List.map_drop, List.dropWhile_map, hseparator]
    · rfl
    · rfl

theorem normalParts_toAsciiLowercase (path : String) :
    normalParts (toAsciiLowercase path) = lowered (normalParts path) := by
  have hdots : (fun name => decide (name ≠ ".") && decide (name ≠ "..")) ∘ toAsciiLowercase =
      fun name => decide (name ≠ ".") && decide (name ≠ "..") := by
    funext name
    have hdot : toAsciiLowercase name = "." ↔ name = "." := toAsciiLowercase_eq_replicate rfl name 1
    have hdotdot : toAsciiLowercase name = ".." ↔ name = ".." :=
      toAsciiLowercase_eq_replicate rfl name 2
    simp only [Function.comp_apply, ne_eq, hdot, hdotdot]
  have hwords : ((words isSeparator (dropPrefix path)).map (List.map Char.toLower)).map
    String.ofList =
      ((words isSeparator (dropPrefix path)).map String.ofList).map toAsciiLowercase := by
    rw [List.map_map, List.map_map]
    apply List.map_congr_left
    intro word _
    rw [Function.comp_apply, Function.comp_apply, toAsciiLowercase,
      String.toList_ofList, asciiLower]
  rw [normalParts_eq, normalParts_eq, dropPrefix_toAsciiLowercase, asciiLower,
    words_map isSeparator_toLower, hwords, List.filter_map, hdots, lowered]

theorem normalParts_join {drive : Char} {parts : List String} (h : Canonical drive parts) :
    normalParts (toAsciiLowercase (joinWindowsPath drive parts)) = parts ∧
      normalParts (toAsciiLowercase ("\\\\?\\" ++ joinWindowsPath drive parts)) = parts := by
  have halpha : drive.isAlpha = true := (isAlpha_iff drive).mpr (Or.inl h.letter)
  have hseparator := isSeparator_of_isAlpha halpha
  have hkeeps : ∀ {path : String}, dropPrefix path = '\\' :: (joinParts parts).toList →
      normalParts (toAsciiLowercase path) = parts := by
    intro path hpath
    -- the components of the path are its words, and none of them is a dot or two
    have hwords : words isSeparator ('\\' :: (joinParts parts).toList) =
      parts.map String.toList := by
      rw [words_cons (by decide), joinParts, String.toList_ofList,
        words_intercalate (by decide) h.words_of]
    have hparts : (parts.map String.toList).map String.ofList = parts := by
      rw [List.map_map, List.map_id'']
      exact fun _ => String.ofList_toList
    rw [normalParts_toAsciiLowercase, normalParts_eq, hpath, hwords, hparts,
      List.filter_eq_self.mpr, h.lowered_eq]
    intro part hpart
    have hplain := (h.plain part hpart).1
    simp only [ambiguousPart, Bool.or_eq_false_iff, decide_eq_false_iff_not] at hplain
    simp [hplain]
  constructor
  · apply hkeeps
    rw [dropPrefix, h.toList_join]
    simp [hseparator, halpha]
  · apply hkeeps
    have hback : isSeparator '\\' = true := by decide
    have hquestion : isSeparator '?' = false := by decide
    have hcolon : isSeparator ':' = false := by decide
    rw [dropPrefix, String.toList_append, h.toList_join]
    simp [hback, hquestion, hcolon, hseparator]

/-- The policy decides by the same names. -/
theorem sensitiveWindowsPath_join {drive : Char} {parts : List String} (h : Canonical drive parts) :
    sensitiveWindowsPath (joinWindowsPath drive parts) = sensitiveNames parts := by
  have hcomponents : components (joinWindowsPath drive parts) =
      String.ofList [drive, ':'] :: parts := by
    have hdrive : drive ≠ '\\' := by
      rintro rfl
      exact absurd h.letter.2 (by decide)
    have htext : (joinWindowsPath drive parts).toList =
        [drive, ':'] ++ '\\' :: (joinParts parts).toList := h.toList_join
    have hparts := components_joinParts h.named
    rw [components_eq] at hparts
    rw [components_eq, htext, words_append_cons (by decide), List.map_append, hparts,
      words_of_forall (List.cons_ne_nil _ _) (by simp [hdrive])]
    rfl
  have hdrive : toAsciiLowercase (String.ofList [drive, ':']) =
    String.ofList [drive.toLower, ':'] := by
    rw [toAsciiLowercase, String.toList_ofList]
    rfl
  rw [sensitiveWindowsPath_eq, replaceChar_of_slash_notMem h.slash_notMem_join,
    components_toAsciiLowercase, hcomponents, lowered, List.map_cons, hdrive, sensitiveNames_drive,
    ← lowered, h.lowered_eq]

/-- A path as the device names it: in the spelling of the normal form or as a
verbatim path, with letters of either case. -/
def Names (canonical path : String) : Prop :=
  toAsciiLowercase canonical = toAsciiLowercase path ∨
    toAsciiLowercase canonical = toAsciiLowercase ("\\\\?\\" ++ path)

/-- The worker takes a path for sensitive exactly if the policy takes its normal
form for sensitive. -/
theorem sensitivePath_of_names {host : Host} (hhost : SlashFree host)
    {target path canonical : String}
    (h : normalizeWindowsPath host target = some path) (hnames : Names canonical path) :
    sensitivePath canonical = sensitiveWindowsPath path := by
  obtain ⟨drive, parts, hcanonical, rfl⟩ := canonical_of_normalize hhost h
  have hparts : normalParts (toAsciiLowercase canonical) = parts := by
    rcases hnames with hnames | hnames
    · rw [hnames, (normalParts_join hcanonical).1]
    · rw [hnames, (normalParts_join hcanonical).2]
  rw [sensitivePath_eq, ← normalParts_toAsciiLowercase, hparts,
    sensitiveWindowsPath_join hcanonical]

end WindowsPath

/-! ### Decisions -/

/-- What a write states about its target: that it is absent, or 64 hexadecimal
digits. -/
def StatesPrecondition (value : String) : Prop :=
  eqIgnoreAsciiCase value "absent" = true ∨
    (value.toList.length = 64 ∧ ∀ c ∈ value.toList, (hexValue c).isSome)

theorem hexValue_isSome_of_hexPairs {cs : List Char} {bytes : List UInt8}
    (h : hexPairs cs = some bytes) : ∀ c ∈ cs, (hexValue c).isSome := by
  induction cs using hexPairs.induct generalizing bytes with
  | case1 => simp
  | case2 c => cases h
  | case3 c d rest ih =>
      simp only [hexPairs, Option.bind_eq_bind, Option.bind_eq_some_iff] at h
      obtain ⟨high, hhigh, low, hlow, tail, htail, _⟩ := h
      rw [List.forall_mem_cons, List.forall_mem_cons, hhigh, hlow]
      exact ⟨rfl, rfl, ih htail⟩

namespace PolicyConfig

theorem statesPrecondition_of_valid {request : ActionRequest}
    (h : validPrecondition request = true) :
    ∃ value, parameter request "expected_target_sha256" Value.asStr = some value ∧
      StatesPrecondition value := by
  obtain ⟨value, hvalue, hvalid⟩ := (Option.any_eq_true _ _).mp h
  refine ⟨value, hvalue, ?_⟩
  simp only [Bool.or_eq_true, Bool.and_eq_true] at hvalid
  rcases hvalid with habsent | ⟨_, hdigits⟩
  · exact Or.inl habsent
  · obtain ⟨bytes, hbytes, hlength⟩ := (Option.any_eq_true _ _).mp hdigits
    refine Or.inr ⟨?_, hexValue_isSome_of_hexPairs hbytes⟩
    rw [length_of_hexPairs hbytes, of_decide_eq_true hlength]

/-- When a write needs no approval. -/
theorem filesystemWriteDecision_auto_iff {config : PolicyConfig} {host : Host}
    {request : ActionRequest} :
    (config.filesystemWriteDecision host request).1 = .auto ↔
      config.filesystemDecision host request.envelope.target true = .auto ∧
      config.mode ≠ .strict ∧ parameter request "approval_path" Value.asBool ≠ some true ∧
      (∃ path, normalizeWindowsPath host request.envelope.target = some path ∧
        sensitiveWindowsPath path = false) ∧
      (∃ size, parameter request "content_bytes" Value.asU64 = some size ∧
        size ≤ config.autoWrite.maxBytes) ∧
      validPrecondition request = true := by
  have hinsensitive : (normalizeWindowsPath host request.envelope.target).all sensitiveWindowsPath =
      false ↔ ∃ path, normalizeWindowsPath host request.envelope.target = some path ∧
        sensitiveWindowsPath path = false := by
    cases normalizeWindowsPath host request.envelope.target with
    | none => simp
    | some path => simp
  rw [← hinsensitive, filesystemWriteDecision]
  cases hbase : config.filesystemDecision host request.envelope.target true
  case auto =>
      cases hsize : parameter request "content_bytes" Value.asU64 with
      | none =>
          simp only [ne_eq, not_true, if_false]
          split_ifs <;> simp
      | some size =>
          simp only [ne_eq, not_true, if_false]
          split_ifs <;> simp_all
  all_goals simp

/-- A write under the policy is decided without an approval only within what the
policy allows, and the worker does not take its target for sensitive. -/
theorem write_auto {host : Host} (hhost : SlashFree host) (engine : PolicyEngine) :
    (∀ request : ActionRequest, request.envelope.action = "filesystem.write" →
      (engine.evaluate host request).kind = .auto →
        engine.config.mode ≠ .strict ∧
        (∃ drive parts rule, normalComponents host request.envelope.target = some (drive, parts) ∧
          engine.config.Governs host rule drive parts ∧ rule.write = .auto) ∧
        parameter request "approval_path" Value.asBool ≠ some true ∧
        (∃ size, parameter request "content_bytes" Value.asU64 = some size ∧
          size ≤ engine.config.autoWrite.maxBytes) ∧
        (∃ value, parameter request "expected_target_sha256" Value.asStr = some value ∧
          StatesPrecondition value) ∧
        ∀ path canonical, normalizeWindowsPath host request.envelope.target = some path →
          Names canonical path → sensitivePath canonical = false) ∧
    ∀ target path canonical, normalizeWindowsPath host target = some path → Names canonical path →
      sensitivePath canonical = sensitiveWindowsPath path := by
  refine ⟨?_, fun target path canonical => sensitivePath_of_names hhost⟩
  intro request haction hauto
  have hrule : (engine.config.filesystemWriteDecision host request).1 = .auto := by
    rw [PolicyEngine.evaluate_kind, RuleDecision.kind_eq_auto] at hauto
    simpa only [ruleFor, haction] using hauto
  obtain ⟨hbase, hmode, happroval, ⟨path, hpath, hsensitive⟩, hsize, hprecondition⟩ :=
    filesystemWriteDecision_auto_iff.mp hrule
  refine ⟨hmode, ?_, happroval, hsize, statesPrecondition_of_valid hprecondition, ?_⟩
  · have hallowed : engine.config.filesystemDecision host request.envelope.target true ≠ .deny := by
      rw [hbase]
      exact RuleDecision.noConfusion
    obtain ⟨drive, parts, rule, htarget, hgoverns, hdecision⟩ := governs_of_decision hhost hallowed
    exact ⟨drive, parts, rule, htarget, hgoverns, hdecision.symm.trans hbase⟩
  · intro path' canonical hpath' hnames
    obtain rfl := Option.some.inj (hpath.symm.trans hpath')
    rw [sensitivePath_of_names hhost hpath hnames, hsensitive]

namespace UnattendedSample

/-- Files may be written under one folder. -/
def policy : PolicyEngine :=
  { onlyUnder "C:\\work" with
    config := { (onlyUnder "C:\\work").config with mode := .policy } }

/-- The creation of a file of one byte there. -/
def creation : ActionRequest where
  envelope :=
    { (reading "c:/Work//a.txt").envelope with
      action := "filesystem.write"
      parameters := .ofList
        [("content_bytes", Value.posInt 1), ("expected_target_sha256", Value.string "Absent")] }
  envelopeDigest := Vector.replicate 32 0

theorem creation_auto : (policy.evaluate SpellingSample.emptyHost creation).kind = .auto := by
  decide

end UnattendedSample

open UnattendedSample SpellingSample in
/-- The worker does not take that file for sensitive. -/
theorem write_auto_creation : sensitivePath "\\\\?\\C:\\Work\\A.TXT" = false := by
  obtain ⟨_, _, _, _, _, hinsensitive⟩ :=
    (write_auto emptyHost_slashFree UnattendedSample.policy).1 creation rfl creation_auto
  exact hinsensitive "C:\\work\\a.txt" "\\\\?\\C:\\Work\\A.TXT" (by decide)
    (Or.inr (by decide))

end PolicyConfig

end VorCommander
