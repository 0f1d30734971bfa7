import VorCommander.Policy.Engine
import VorCommander.Text.Words

/-!
Spellings of one path.

The policy compares paths in a normal form, which lowers ASCII letters only.
Two spellings of a path are decided alike, whatever the policy, exactly if they
have one normal form. Windows also takes other letters of either case for the
same letter.
-/

namespace VorCommander

open Text WindowsPath

/-! ### Normal forms -/

namespace WindowsPath

/-- A text that ends in a separator does not stay as it is when those at its
end are taken away. -/
def Ended (text : List Char) : Prop := ∀ c, text.getLast? = some c → isSeparator c = false

/-- The members of a list, with a backslash between any two, end as the last
one does. -/
theorem ended_intercalate {parts : List (List Char)} (h : ∀ part ∈ parts, part ≠ [] ∧ Ended part) :
    Ended (List.intercalate ['\\'] parts) := by
  induction parts with
  | nil =>
      intro c hc
      cases hc
  | cons part parts ih =>
      obtain ⟨⟨_, hpart⟩, hrest⟩ := List.forall_mem_cons.mp h
      cases parts with
      | nil =>
          rw [List.intercalate_singleton]
          exact hpart
      | cons next parts =>
          have hne : List.intercalate ['\\'] (next :: parts) ≠ [] := by
            cases parts with
            | nil =>
                rw [List.intercalate_singleton]
                exact (hrest next List.mem_cons_self).1
            | cons _ _ =>
                rw [List.intercalate_cons_cons]
                simp
          intro c hc
          rw [List.intercalate_cons_cons, List.getLast?_append_of_ne_nil _ hne] at hc
          exact ih hrest c hc

/-- A normal form: the letter of a drive, and components of lower case that do
not end in a separator. -/
structure NormalForm (path : String) (drive : Char) (rest : List Char) : Prop where
  text : path.toList = drive :: ':' :: '\\' :: rest
  letter : 65 ≤ drive.toNat ∧ drive.toNat ≤ 90
  lower : asciiLower rest = rest
  ended : Ended rest

theorem isSeparator_toLower (c : Char) : isSeparator c.toLower = isSeparator c := by
  have hkeeps : ∀ d : Char, d.toNat < 65 ∨ (90 < d.toNat ∧ d.toNat < 97) →
    (c.toLower = d ↔ c = d) := by
    intro d hd
    rw [← Char.toNat_inj, ← Char.toNat_inj, toNat_toLower]
    split <;> omega
  rw [isSeparator, isSeparator]
  congr 1
  · exact decide_eq_decide.mpr (hkeeps '\\' (by decide))
  · exact decide_eq_decide.mpr (hkeeps '/' (by decide))

theorem ended_asciiLower {text : List Char} (h : Ended text) : Ended (asciiLower text) := by
  intro c hc
  rw [asciiLower, List.getLast?_map] at hc
  obtain ⟨d, hd, rfl⟩ := Option.map_eq_some_iff.mp hc
  rw [isSeparator_toLower]
  exact h d hd

theorem splitWindowsPath_eq_some {path : String} {drive : Char} {parts : List String}
    (h : splitWindowsPath path = some (drive, parts)) :
    ∃ letter rest, path.toList = letter :: ':' :: '\\' :: rest ∧ letter.isAlpha = true ∧
      drive = letter.toUpper ∧ parts = components (String.ofList rest) := by
  unfold splitWindowsPath at h
  split at h
  case h_1 letter rest htext =>
      simp only [Option.ite_none_right_eq_some, Option.some.injEq, Prod.mk.injEq,
        Bool.and_eq_true] at h
      obtain ⟨⟨halpha, _⟩, hdrive, hparts⟩ := h
      exact ⟨letter, rest, htext, halpha, hdrive.symm, hparts.symm⟩
  case h_2 => cases h

/-- A component is not empty, and its characters are those of the path but for
backslashes. -/
theorem mem_components {path part : String} (h : part ∈ components path) :
    part.toList ≠ [] ∧ ∀ c ∈ part.toList, c ∈ path.toList ∧ c ≠ '\\' := by
  obtain ⟨hsplit, hnonempty⟩ := List.mem_filter.mp h
  obtain ⟨chars, hchars, rfl⟩ := List.mem_map.mp hsplit
  rw [String.toList_ofList]
  constructor
  · rintro rfl
    simp at hnonempty
  · intro c hc
    obtain ⟨hmem, hsep⟩ := mem_splitOnP hchars c hc
    exact ⟨hmem, of_decide_eq_false hsep⟩

/-- The components of a path without slashes have none. -/
theorem slash_notMem_of_split {path : String} {drive : Char} {parts : List String}
    (h : splitWindowsPath path = some (drive, parts)) (hslash : '/' ∉ path.toList) :
    ∀ part ∈ parts, '/' ∉ part.toList := by
  obtain ⟨letter, rest, htext, _, _, rfl⟩ := splitWindowsPath_eq_some h
  intro part hpart hmem
  have hrest := ((mem_components hpart).2 '/' hmem).1
  rw [String.toList_ofList] at hrest
  refine hslash ?_
  rw [htext]
  exact List.mem_cons_of_mem _ (List.mem_cons_of_mem _ (List.mem_cons_of_mem _ hrest))

/-- What a path without slashes is normalised to is a normal form. -/
theorem normalForm_join {path : String} {drive : Char} {parts : List String}
    (h : splitWindowsPath path = some (drive, parts)) (hslash : '/' ∉ path.toList) :
    NormalForm (joinWindowsPath drive parts) drive (asciiLower (joinParts parts).toList) := by
  obtain ⟨letter, rest, htext, halpha, rfl, rfl⟩ := splitWindowsPath_eq_some h
  refine ⟨String.toList_ofList, ?_, asciiLower_asciiLower _, ended_asciiLower ?_⟩
  · rw [toNat_toUpper]
    rcases (isAlpha_iff letter).mp halpha with hupper | hlower
    · rw [if_neg (by omega)]
      exact hupper
    · rw [if_pos hlower]
      omega
  rw [joinParts, String.toList_ofList]
  refine ended_intercalate fun part hpart => ?_
  obtain ⟨component, hcomponent, rfl⟩ := List.mem_map.mp hpart
  obtain ⟨hnonempty, hchars⟩ := mem_components hcomponent
  refine ⟨hnonempty, fun c hc => ?_⟩
  obtain ⟨hmem, hbackslash⟩ := hchars c (List.mem_of_getLast? hc)
  rw [String.toList_ofList] at hmem
  have hslash' : c ≠ '/' := by
    rintro rfl
    refine hslash ?_
    rw [htext]
    exact List.mem_cons_of_mem _ (List.mem_cons_of_mem _ (List.mem_cons_of_mem _ hmem))
  simp [isSeparator, hslash', hbackslash]

/-! ### Containment -/

theorem trimSeparators_of_ended {text : List Char} (h : Ended text) :
    trimSeparators text = text := by
  rw [trimSeparators]
  cases hreverse : text.reverse with
  | nil => rw [List.dropWhile_nil, ← hreverse, List.reverse_reverse]
  | cons c front =>
      have hlast : text.getLast? = some c := by
        rw [List.getLast?_eq_head?_reverse, hreverse]
        rfl
      have hkeep : ¬ isSeparator c = true := by
        rw [h c hlast]
        exact Bool.false_ne_true
      rw [List.dropWhile_cons_of_neg hkeep, ← hreverse, List.reverse_reverse]

/-- A path contains itself. -/
theorem windowsPathWithin_self (path : String) : windowsPathWithin path path = true := by
  simp [windowsPathWithin]

/-- Two paths that contain each other are equal but for the case of letters
and separators at their ends. -/
theorem windowsPathWithin_antisymm {path root : String} (h : windowsPathWithin path root = true)
    (h' : windowsPathWithin root path = true) :
    asciiLower (trimSeparators path.toList) = asciiLower (trimSeparators root.toList) := by
  simp only [windowsPathWithin, Bool.or_eq_true, Bool.and_eq_true, decide_eq_true_eq] at h h'
  have hlonger : ∀ {a b : List Char}, asciiLower (a.take b.length) = asciiLower b →
      (a.drop b.length).head?.any isSeparator = true → b.length < a.length := by
    intro a b _ hdrop
    by_contra hle
    rw [List.drop_eq_nil_of_le (not_lt.mp hle)] at hdrop
    cases hdrop
  rcases h with h | ⟨htake, hdrop⟩
  · exact h
  · rcases h' with h' | ⟨htake', hdrop'⟩
    · exact h'.symm
    · have hlt := hlonger htake hdrop
      have hlt' := hlonger htake' hdrop'
      omega

namespace NormalForm

variable {path path' : String} {drive drive' : Char} {rest rest' : List Char}

/-- What is left of a normal form without separators at its end. -/
theorem trimmed (h : NormalForm path drive rest) :
    asciiLower (trimSeparators path.toList) =
      drive.toLower :: ':' :: if rest = [] then [] else '\\' :: rest := by
  rw [h.text]
  by_cases hrest : rest = []
  · subst hrest
    rfl
  · have hended : Ended (drive :: ':' :: '\\' :: rest) := by
      intro c hc
      obtain ⟨first, more, rfl⟩ := List.exists_cons_of_ne_nil hrest
      rw [List.getLast?_cons_cons, List.getLast?_cons_cons, List.getLast?_cons_cons] at hc
      exact h.ended c hc
    have hlower := h.lower
    rw [asciiLower] at hlower
    rw [trimSeparators_of_ended hended, if_neg hrest, asciiLower, List.map_cons, List.map_cons,
      List.map_cons, hlower]
    rfl

/-- Normal forms that contain each other are the same. -/
theorem unique (h : NormalForm path drive rest) (h' : NormalForm path' drive' rest')
    (hwithin : windowsPathWithin path path' = true)
    (hwithin' : windowsPathWithin path' path = true) :
    path = path' := by
  have hsame := windowsPathWithin_antisymm hwithin hwithin'
  rw [h.trimmed, h'.trimmed] at hsame
  obtain ⟨hletter, hsame⟩ := List.cons.inj hsame
  obtain ⟨_, htail⟩ := List.cons.inj hsame
  have hdrive : drive = drive' := by
    have hcode := congrArg Char.toNat hletter
    rw [toNat_toLower, toNat_toLower, if_pos h.letter, if_pos h'.letter] at hcode
    apply Char.toNat_inj.mp
    omega
  have hrest : rest = rest' := by
    split_ifs at htail with hempty hempty' hempty'
    · rw [hempty, hempty']
    · exact (List.cons.inj htail).2
  apply String.toList_injective
  rw [h.text, h'.text, hdrive, hrest]

end NormalForm

/-! ### Normalisation -/

/-- No file of Windows has a slash in its name. -/
def SlashFree (host : Host) : Prop :=
  ∀ path long, host.longPathName path = some long → '/' ∉ long.toList

theorem slash_notMem_replaceChar (input : String) : '/' ∉ (replaceChar '/' '\\' input).toList := by
  rw [replaceChar, String.toList_ofList, List.mem_map]
  rintro ⟨c, _, hc⟩
  split at hc
  · exact absurd hc (by decide)
  · exact absurd hc ‹_›

theorem slash_notMem_expandShortNames {host : Host} (hhost : SlashFree host) {drive : Char}
    {parts : List String} {expanded : String} (hparts : ∀ part ∈ parts, '/' ∉ part.toList)
    (h : expandShortNames host drive parts = some expanded) : '/' ∉ expanded.toList := by
  obtain ⟨existing, _, h⟩ := List.exists_of_findSome?_eq_some h
  simp only [expandPrefix, Option.bind_eq_bind, Option.bind_eq_some_iff, Option.pure_def,
    Option.some.injEq] at h
  obtain ⟨long, hlong, rfl⟩ := h
  have hfree : '/' ∉ (long.toList.reverse.dropWhile (· = '\\')).reverse ++
      (parts.drop existing).flatMap fun part => '\\' :: part.toList := by
    rw [List.mem_append, not_or]
    constructor
    · rw [List.mem_reverse]
      intro hmem
      have hback := List.mem_reverse.mp ((List.dropWhile_sublist _).mem hmem)
      exact hhost _ long hlong hback
    · rw [List.mem_flatMap]
      rintro ⟨part, hpart, hmem⟩
      rcases List.mem_cons.mp hmem with hback | hmem
      · exact absurd hback (by decide)
      · exact hparts part (List.mem_of_mem_drop hpart) hmem
  rw [String.toList_ofList]
  split
  · rw [List.mem_append, not_or]
    exact ⟨hfree, by decide⟩
  · exact hfree

/-- Normalisation ends in a normal form. -/
theorem normalForm_of_normalize {host : Host} (hhost : SlashFree host) {input path : String}
    (h : normalizeWindowsPath host input = some path) :
    ∃ drive rest, NormalForm path drive rest := by
  have hinput := slash_notMem_replaceChar input
  simp only [normalizeWindowsPath, Option.bind_eq_bind, Option.bind_eq_some_iff] at h
  obtain ⟨⟨drive, parts⟩, hsplit, h⟩ := h
  split at h
  · obtain rfl := Option.some.inj h
    exact ⟨_, _, normalForm_join hsplit hinput⟩
  · simp only [Option.bind_eq_some_iff] at h
    obtain ⟨expanded, hexpanded, ⟨drive', parts'⟩, hsplit', h⟩ := h
    have hparts := slash_notMem_of_split hsplit hinput
    split at h
    · cases h
    · obtain rfl := Option.some.inj h
      exact ⟨_, _, normalForm_join hsplit' (slash_notMem_expandShortNames hhost hparts hexpanded)⟩

end WindowsPath

/-! ### Decisions -/

/-- The actions on files and on git. -/
def pathActions : List String :=
  ["filesystem.read", "filesystem.list", "filesystem.search_files", "filesystem.search_content",
   "filesystem.info", "filesystem.write", "git.status", "git.diff"]

/-- Decisions that agree in all but the request that they are about. -/
def SameDecision (decision decision' : PolicyDecision) : Prop :=
  decision.kind = decision'.kind ∧ decision.reasonCode = decision'.reasonCode ∧
    decision.requiredCapability = decision'.requiredCapability

/-- Whatever the policy, two targets are decided alike for every action on
files and on git. -/
def DecidedAlike (host : Host) (target target' : String) : Prop :=
  ∀ (engine : PolicyEngine) (request request' : ActionRequest),
    request.envelope.action ∈ pathActions →
    request'.envelope.action = request.envelope.action →
    request'.envelope.parameters = request.envelope.parameters →
    request.envelope.target = target → request'.envelope.target = target' →
    SameDecision (engine.evaluate host request) (engine.evaluate host request')

section Decisions

variable {host : Host} (config : PolicyConfig) {target target' : String}

/-- A decision for a path is made on its normal form. -/
theorem filesystemDecision_congr
    (h : normalizeWindowsPath host target = normalizeWindowsPath host target')
    (write : Bool) :
    config.filesystemDecision host target write = config.filesystemDecision host target' write := by
  rw [PolicyConfig.filesystemDecision, PolicyConfig.filesystemDecision, h]

/-- The decision for a write reads the parameters besides. -/
theorem filesystemWriteDecision_congr {request request' : ActionRequest}
    (hparameters : request'.envelope.parameters = request.envelope.parameters)
    (h : normalizeWindowsPath host request.envelope.target =
      normalizeWindowsPath host request'.envelope.target) :
    config.filesystemWriteDecision host request = config.filesystemWriteDecision host request' := by
  have hdecides := filesystemDecision_congr config h true
  have hparameter : ∀ {α : Type} (name : String) (convert : Value → Option α),
      PolicyConfig.parameter request name convert =
        PolicyConfig.parameter request' name convert := by
    intro α name convert
    rw [PolicyConfig.parameter, PolicyConfig.parameter, hparameters]
  simp only [PolicyConfig.filesystemWriteDecision, PolicyConfig.validPrecondition, hparameter,
    hdecides, h]
  rfl

theorem ruleFor_congr {request request' : ActionRequest}
    (haction : request.envelope.action ∈ pathActions)
    (hsame : request'.envelope.action = request.envelope.action)
    (hparameters : request'.envelope.parameters = request.envelope.parameters)
    (h : normalizeWindowsPath host request.envelope.target =
      normalizeWindowsPath host request'.envelope.target) :
    config.ruleFor host request = config.ruleFor host request' := by
  have hread := filesystemDecision_congr config h false
  have hwrite := filesystemWriteDecision_congr config hparameters h
  simp only [pathActions, List.mem_cons, List.not_mem_nil, or_false] at haction
  rcases haction with h' | h' | h' | h' | h' | h' | h' | h'
  all_goals
    rw [h'] at hsame
    simp only [PolicyConfig.ruleFor, h', hsame, hread, hwrite]

/-- A policy of one rule, which lets everything pass under one path. -/
def onlyUnder (path : String) : PolicyEngine where
  config :=
    { version := 1
      policyId := "p"
      filesystem := [⟨path, .auto, .auto⟩]
      terminal := ⟨.deny, .deny, .deny, .deny, .deny, [], []⟩
      process := ⟨.deny, .deny, .deny⟩
      browser := ⟨.deny, .deny, .deny, .deny⟩
      desktopEnabled := false
      publicListenerFallback := .deny }
  policyHash := ""
  supported := rfl
  named := (by decide : isBlank "p" = false)

/-- A request to read a file. -/
def reading (target : String) : ActionRequest where
  envelope := ⟨"", "", "", "", "filesystem.read", target, ∅, [], 0, []⟩
  envelopeDigest := Vector.replicate 32 0

/-- What that policy says of reading a path. -/
theorem onlyUnder_kind {path : String} :
    ((onlyUnder path).evaluate host (reading target)).kind = .auto ↔
      ∃ text root, normalizeWindowsPath host target = some text ∧
        normalizeWindowsPath host path = some root ∧ windowsPathWithin text root = true := by
  rw [PolicyEngine.evaluate_kind]
  change (PolicyConfig.filesystemDecision (onlyUnder path).config host target false).kind =
    .auto ↔ _
  rw [PolicyConfig.filesystemDecision]
  cases htarget : normalizeWindowsPath host target with
  | none => simp [RuleDecision.kind]
  | some text =>
      cases hpath : normalizeWindowsPath host path with
      | none => simp [PolicyConfig.coveringRules, onlyUnder, hpath, PolicyConfig.mostSpecific,
          RuleDecision.kind]
      | some root =>
          cases hwithin : windowsPathWithin text root <;>
            simp [PolicyConfig.coveringRules, onlyUnder, hpath, hwithin, PolicyConfig.mostSpecific,
              RuleDecision.kind]

/-- Reading a path passes under the policy for that path, if it has a normal
form at all. -/
theorem onlyUnder_self {text : String} (h : normalizeWindowsPath host target = some text) :
    ((onlyUnder target).evaluate host (reading target)).kind = .auto :=
  onlyUnder_kind.mpr ⟨text, text, h, h, windowsPathWithin_self text⟩

/-- Two targets are decided alike under all policies exactly if they have one
normal form. -/
theorem decidedAlike_iff (hhost : SlashFree host) (target target' : String) :
    DecidedAlike host target target' ↔
      normalizeWindowsPath host target = normalizeWindowsPath host target' := by
  constructor
  · intro halike
    have hkind : ∀ path, ((onlyUnder path).evaluate host (reading target)).kind =
        ((onlyUnder path).evaluate host (reading target')).kind := fun path =>
      (halike (onlyUnder path) (reading target) (reading target') List.mem_cons_self rfl rfl rfl
        rfl).1
    cases htext : normalizeWindowsPath host target with
    | none =>
        cases htext' : normalizeWindowsPath host target' with
        | none => rfl
        | some text' =>
            have hpasses := (hkind target').trans (onlyUnder_self htext')
            obtain ⟨text, _, h, _⟩ := onlyUnder_kind.mp hpasses
            rw [htext] at h
            cases h
    | some text =>
        -- each of the two passes under the policy for the other
        obtain ⟨text', root, htext', hroot, hwithin'⟩ :=
          onlyUnder_kind.mp ((hkind target).symm.trans (onlyUnder_self htext))
        obtain rfl := Option.some.inj (htext.symm.trans hroot)
        obtain ⟨found, root', hfound, hroot', hwithin⟩ :=
          onlyUnder_kind.mp ((hkind target').trans (onlyUnder_self htext'))
        obtain rfl := Option.some.inj (htext.symm.trans hfound)
        obtain rfl := Option.some.inj (htext'.symm.trans hroot')
        obtain ⟨_, _, hform⟩ := normalForm_of_normalize hhost htext
        obtain ⟨_, _, hform'⟩ := normalForm_of_normalize hhost htext'
        rw [htext', hform.unique hform' hwithin hwithin']
  · rintro hsame engine request request' haction hactions hparameters rfl rfl
    have hrule := ruleFor_congr engine.config haction hactions hparameters hsame
    refine ⟨?_, ?_, ?_⟩
    · rw [PolicyEngine.evaluate_kind, PolicyEngine.evaluate_kind, hrule]
    · rw [PolicyEngine.evaluate_reasonCode, PolicyEngine.evaluate_reasonCode, hrule]
    · rw [PolicyEngine.evaluate_requiredCapability, PolicyEngine.evaluate_requiredCapability, hrule]

end Decisions

/-! ### Letters of either case -/

/-- The UTF-16 units of a text. -/
def utf16 (text : String) : List ℕ :=
  text.toList.flatMap fun c =>
    if c.toNat < 2 ^ 16 then [c.toNat]
    else [0xd800 + (c.toNat - 2 ^ 16) / 2 ^ 10, 0xdc00 + (c.toNat - 2 ^ 16) % 2 ^ 10]

/-- Two spellings that differ only in the case of letters, by a table of the
upper case of each unit. -/
def SameLetters (upper : ℕ → ℕ) (target target' : String) : Prop :=
  (utf16 target).map upper = (utf16 target').map upper

instance (upper : ℕ → ℕ) (target target' : String) : Decidable (SameLetters upper target target') :=
  inferInstanceAs (Decidable ((utf16 target).map upper = (utf16 target').map upper))

namespace SpellingSample

/-- Upper case of the letters of ASCII and of é. -/
def upper (unit : ℕ) : ℕ :=
  if 97 ≤ unit ∧ unit ≤ 122 ∨ unit = 0xe9 then unit - 32 else unit

/-- No path is there. -/
def emptyHost : Host := ⟨fun _ => none, fun _ => none⟩

theorem emptyHost_slashFree : SlashFree emptyHost := by
  intro path long h
  cases h

/-- A folder may be used, but for one below it. -/
def policy : PolicyEngine :=
  { onlyUnder "C:\\data" with
    config :=
      { (onlyUnder "C:\\data").config with
        filesystem := [⟨"C:\\data", .auto, .auto⟩, ⟨"C:\\data\\é", .deny, .deny⟩] } }

end SpellingSample

open SpellingSample in
/-- Letters of ASCII may be of either case. -/
theorem decidedAlike_iff_ascii : DecidedAlike emptyHost "c:/Data/x" "C:\\data\\X" :=
  (decidedAlike_iff emptyHost_slashFree _ _).mpr (by decide +kernel)

open SpellingSample in
/-- A rule that refuses a folder does not refuse it in another spelling. -/
theorem spelling_bypasses_rule :
    ¬ ∀ target target', SameLetters upper target target' →
      DecidedAlike emptyHost target target' := by
  intro h
  have halike := h "C:\\data\\é\\x" "C:\\data\\É\\x" (by decide) policy
    (reading "C:\\data\\é\\x") (reading "C:\\data\\É\\x") (by decide) rfl rfl rfl rfl
  exact absurd halike.1 (by decide +kernel)

end VorCommander
