import VorCommander.Policy.Components

/-!
The rule that governs a path.

A rule covers a path if the components of its root are the first components of
the path. The policy decides by the rule with the longest root that covers the
path, the last one of several, and refuses what no rule covers and what has no
normal form. Spelling makes no difference.
-/

namespace VorCommander

open Text WindowsPath

namespace WindowsPath

/-! ### Paths without a normal form -/

theorem normalize_eq_none_of_split {host : Host} {input : String}
    (h : splitWindowsPath (replaceChar '/' '\\' input) = none) :
    normalizeWindowsPath host input = none := by
  rw [normalizeWindowsPath_eq, h]
  rfl

theorem split_eq_none_of_ambiguous {path : String} {letter : Char} {rest : List Char}
    (htext : path.toList = letter :: ':' :: '\\' :: rest)
    (h : ∃ part ∈ components (String.ofList rest), ambiguousPart part = true) :
    splitWindowsPath path = none := by
  have hany : (components (String.ofList rest)).any ambiguousPart = true := List.any_eq_true.mpr h
  rw [splitWindowsPath_of_text htext, hany, Bool.not_true, Bool.and_false]
  rfl

theorem tilde_mem_of_hasTildeDigit {text : List Char} (h : hasTildeDigit text = true) :
    '~' ∈ text := by
  induction text with
  | nil => cases h
  | cons c text ih =>
      cases text with
      | nil => cases h
      | cons d text =>
          rw [hasTildeDigit, Bool.or_eq_true, Bool.and_eq_true, decide_eq_true_eq] at h
          rcases h with ⟨rfl, _⟩ | h
          · exact List.mem_cons_self
          · exact List.mem_cons_of_mem _ (ih h)

/-- The first so many components of a path, as they are shown to the host. -/
def prefixText (drive : Char) (parts : List String) (existing : ℕ) : String :=
  String.ofList (drive :: ':' :: '\\' :: (joinParts (parts.take existing)).toList)

/-- A component looks like a short name, and the host does not expand it: it
knows no beginning of the path that includes the component, or one looks like a
short name in its answer. -/
def Unexpanded (host : Host) (drive : Char) (parts : List String) : Prop :=
  (∃ i part, parts[i]? = some part ∧ hasShortNameAlias part = true ∧
      ∀ existing, i < existing → existing ≤ parts.length →
        host.longPathName (prefixText drive parts existing) = none) ∨
    (∃ part ∈ parts, hasShortNameAlias part = true) ∧
      ∃ expanded, expandShortNames host drive parts = some expanded ∧
        ∃ part ∈ components expanded, hasShortNameAlias part = true

/-- The components that the host is not asked about stay what they are. -/
theorem mem_components_of_expandPrefix {host : Host} {drive : Char} {parts : List String}
    (hparts : ∀ part ∈ parts, part.toList ≠ [] ∧ ∀ c ∈ part.toList, c ≠ '\\') {existing i : ℕ}
    {expanded part : String} (h : expandPrefix host drive parts existing = some expanded)
    (hpart : parts[i]? = some part) (hle : existing ≤ i) : part ∈ components expanded := by
  have hmem : part ∈ parts.drop existing := by
    refine List.mem_of_getElem? (i := i - existing) ?_
    rw [List.getElem?_drop, ← hpart]
    congr 1
    omega
  obtain ⟨before, after, hdrop⟩ := List.append_of_mem hmem
  have hpart : ∀ c ∈ part.toList, decide (c = '\\') = false := fun c hc =>
    decide_eq_false ((hparts part (List.mem_of_mem_drop hmem)).2 c hc)
  have hnonempty := (hparts part (List.mem_of_mem_drop hmem)).1
  simp only [expandPrefix, Option.bind_eq_bind, Option.bind_eq_some_iff, Option.pure_def,
    Option.some.injEq] at h
  obtain ⟨long, _, rfl⟩ := h
  -- a drive is closed with a separator, which adds no component
  have hclosed : ∀ text : List Char,
      words (· = '\\') (if text.getLast? = some ':' then text ++ ['\\'] else text) =
        words (· = '\\') text := by
    intro text
    split
    · rw [words_append_cons (by decide), words_nil, List.append_nil]
    · rfl
  rw [components_eq, String.toList_ofList, hclosed, hdrop, List.flatMap_append, List.flatMap_cons,
    ← List.append_assoc, List.cons_append, words_append_cons (by decide), List.map_append,
    List.mem_append]
  right
  rw [List.mem_map]
  -- the part ends where the next one begins, or with the text
  refine ⟨part.toList, ?_, String.ofList_toList⟩
  cases after with
  | nil =>
      rw [List.flatMap_nil, List.append_nil, words_of_forall hnonempty hpart]
      exact List.mem_singleton_self _
  | cons next after =>
      rw [List.flatMap_cons, List.cons_append, words_append_cons (by decide),
        words_of_forall hnonempty hpart]
      exact List.mem_append_left _ (List.mem_singleton_self _)

/-- A component of an expanded path that looks like a short name is found when
the path is split. -/
theorem mem_of_split {path part : String} {drive : Char} {parts : List String}
    (hsplit : splitWindowsPath path = some (drive, parts)) (hpart : part ∈ components path)
    (halias : hasShortNameAlias part = true) : part ∈ parts := by
  obtain ⟨letter, rest, htext, halpha, rfl, rfl⟩ := splitWindowsPath_eq_some hsplit
  have hdrive : path.toList = [letter, ':'] ++ '\\' :: rest := htext
  rw [components_eq, hdrive, words_append_cons (by decide), List.map_append,
    List.mem_append] at hpart
  rcases hpart with hpart | hpart
  · -- the drive has no tilde
    obtain ⟨word, hword, rfl⟩ := List.mem_map.mp hpart
    rw [hasShortNameAlias, String.toList_ofList] at halias
    obtain ⟨htilde, _⟩ := (mem_words hword).2 '~' (tilde_mem_of_hasTildeDigit halias)
    rcases List.mem_cons.mp htilde with rfl | htilde
    · cases halpha
    · exact absurd (List.mem_singleton.mp htilde) (by decide)
  · rwa [components_eq, String.toList_ofList]

/-- A path with such a component has no normal form. -/
theorem normalize_eq_none_of_unexpanded {host : Host} {input : String} {letter : Char}
    {rest : List Char}
    (htext : (replaceChar '/' '\\' input).toList = letter :: ':' :: '\\' :: rest)
    (h : Unexpanded host letter.toUpper (components (String.ofList rest))) :
    normalizeWindowsPath host input = none := by
  rw [normalizeWindowsPath_eq, splitWindowsPath_of_text htext]
  split
  case isFalse => rfl
  case isTrue =>
      rw [Option.bind_some, resolve]
      split
      case isFalse hplain =>
          refine absurd (List.any_eq_true.mpr ?_) hplain
          rcases h with ⟨i, part, hpart, halias, _⟩ | ⟨⟨part, hpart, halias⟩, _⟩
          · exact ⟨part, List.mem_of_getElem? hpart, halias⟩
          · exact ⟨part, hpart, halias⟩
      case isTrue =>
          cases hexpanded : expandShortNames host letter.toUpper
            (components (String.ofList rest)) with
          | none => rfl
          | some expanded =>
              have hshort : ∃ part ∈ components expanded, hasShortNameAlias part = true := by
                -- the prefix that was expanded ends before the part, so the part is kept as it is
                rcases h with ⟨i, part, hpart, halias, hnone⟩ | ⟨_, expanded', hexpanded', hshort⟩
                · obtain ⟨existing, hmem, hinit⟩ := List.exists_of_findSome?_eq_some hexpanded
                  rw [List.mem_reverse, List.mem_range, Nat.lt_succ_iff] at hmem
                  have hle : existing ≤ i := by
                    by_contra hlt
                    rw [not_le] at hlt
                    rw [expandPrefix, ← prefixText, hnone existing hlt hmem] at hinit
                    cases hinit
                  refine ⟨part, mem_components_of_expandPrefix ?_ hinit hpart hle, halias⟩
                  intro part hpart
                  obtain ⟨hnonempty, hchars⟩ := mem_components hpart
                  exact ⟨hnonempty, fun c hc => (hchars c hc).2⟩
                · rw [hexpanded] at hexpanded'
                  rwa [Option.some.inj hexpanded']
              obtain ⟨part, hpart, halias⟩ := hshort
              rw [Option.bind_some]
              cases hsplit : splitWindowsPath expanded with
              | none => rfl
              | some split =>
                  have hany : split.2.any hasShortNameAlias = true :=
                    List.any_eq_true.mpr ⟨part, mem_of_split hsplit hpart halias, halias⟩
                  rw [Option.bind_some, hany]
                  rfl

/-! ### Components of the normal form -/

/-- The drive and the components of what a path is normalised to. -/
def normalComponents (host : Host) (input : String) : Option (Char × List String) :=
  (normalizeWindowsPath host input).bind splitWindowsPath

theorem normalComponents_eq_some_iff {host : Host} (hhost : SlashFree host) {input : String}
    {drive : Char} {parts : List String} :
    normalComponents host input = some (drive, parts) ↔
      Canonical drive parts ∧ normalizeWindowsPath host input =
        some (joinWindowsPath drive parts) := by
  constructor
  · intro h
    obtain ⟨path, hpath, hsplit⟩ := Option.bind_eq_some_iff.mp h
    obtain ⟨drive', parts', hcanonical, rfl⟩ := canonical_of_normalize hhost hpath
    rw [hcanonical.split_join] at hsplit
    obtain ⟨rfl, rfl⟩ := Prod.mk.inj (Option.some.inj hsplit)
    exact ⟨hcanonical, hpath⟩
  · rintro ⟨hcanonical, hpath⟩
    rw [normalComponents, hpath, Option.bind_some, hcanonical.split_join]

end WindowsPath

/-! ### Rules -/

/-- What a rule says of reading or of writing. -/
def FilesystemRule.decision (rule : FilesystemRule) (write : Bool) : RuleDecision :=
  if write then rule.write else rule.read

/-- A rule covers a path: its root is `root`, and the path begins with it. -/
def FilesystemRule.Covers (host : Host) (rule : FilesystemRule) (drive : Char)
    (parts root : List String) : Prop :=
  normalComponents host rule.path = some (drive, root) ∧ root <+: parts

namespace PolicyConfig

/-- The rule of a policy with the longest root that covers a path: no rule
before it has a longer one, and each after it has a shorter one. -/
def Governs (config : PolicyConfig) (host : Host) (rule : FilesystemRule) (drive : Char)
    (parts : List String) : Prop :=
  ∃ before after root, config.filesystem = before ++ rule :: after ∧
    rule.Covers host drive parts root ∧
    (∀ other ∈ before, ∀ root', other.Covers host drive parts root' → root'.length ≤ root.length) ∧
    ∀ other ∈ after, ∀ root', other.Covers host drive parts root' → root'.length < root.length

theorem mostSpecific_eq_none_iff {rules : List (String × FilesystemRule)} :
    mostSpecific rules = none ↔ rules = [] := by
  cases rules with
  | nil => exact iff_of_true rfl rfl
  | cons rooted rules =>
      refine iff_of_false ?_ (List.cons_ne_nil _ _)
      rw [mostSpecific]
      split
      · exact Option.some_ne_none _
      · split <;> exact Option.some_ne_none _

/-- The last of the rules with the longest root: no root before it is longer, and
each after it is shorter. -/
def LastLongest (rules : List (String × FilesystemRule)) (best : String × FilesystemRule) : Prop :=
  ∃ before after, rules = before ++ best :: after ∧
    (∀ rooted ∈ before, byteLength rooted.1 ≤ byteLength best.1) ∧
      ∀ rooted ∈ after, byteLength rooted.1 < byteLength best.1

theorem lastLongest_of_mostSpecific {rules : List (String × FilesystemRule)}
    {best : String × FilesystemRule} (h : mostSpecific rules = some best) :
    LastLongest rules best := by
  induction rules generalizing best with
  | nil => cases h
  | cons rooted rules ih =>
      rw [mostSpecific] at h
      split at h
      case h_1 hnone =>
          obtain rfl := Option.some.inj h
          obtain rfl := mostSpecific_eq_none_iff.mp hnone
          exact ⟨[], [], rfl, by simp, by simp⟩
      case h_2 longest hlongest =>
          obtain ⟨before, after, rfl, hbefore, hafter⟩ := ih hlongest
          split at h
          case isTrue hlt =>
              obtain rfl := Option.some.inj h
              refine ⟨[], before ++ longest :: after, rfl, by simp, fun other hother => ?_⟩
              rcases List.mem_append.mp hother with hother | hother
              · exact (hbefore other hother).trans_lt hlt
              · rcases List.mem_cons.mp hother with rfl | hother
                · exact hlt
                · exact (hafter other hother).trans hlt
          case isFalse hle =>
              obtain rfl := Option.some.inj h
              exact ⟨rooted :: before, after, rfl,
                List.forall_mem_cons.mpr ⟨not_lt.mp hle, hbefore⟩, hafter⟩

theorem mostSpecific_eq_some_iff {rules : List (String × FilesystemRule)}
    {best : String × FilesystemRule} :
    mostSpecific rules = some best ↔ LastLongest rules best := by
  constructor
  · exact lastLongest_of_mostSpecific
  · rintro ⟨before, after, rfl, hbefore, hafter⟩
    induction before with
    | nil =>
        rw [List.nil_append, mostSpecific]
        split
        case h_1 => rfl
        case h_2 longest hlongest =>
            have hmem : longest ∈ after := by
              obtain ⟨first, last, rfl, _⟩ := lastLongest_of_mostSpecific hlongest
              exact List.mem_append_right first List.mem_cons_self
            rw [if_pos (hafter longest hmem)]
    | cons rooted before ih =>
        obtain ⟨hle, hbefore⟩ := List.forall_mem_cons.mp hbefore
        rw [List.cons_append, mostSpecific, ih hbefore]
        exact if_neg (not_lt.mpr hle)

/-- A rule with its root, if the root contains the target. -/
def rooted (host : Host) (target : String) (rule : FilesystemRule) :
    Option (String × FilesystemRule) :=
  ((normalizeWindowsPath host rule.path).map fun root => (root, rule)).filter
    fun rooted => windowsPathWithin target rooted.1

theorem coveringRules_eq (config : PolicyConfig) (host : Host) (target : String) :
    config.coveringRules host target = config.filesystem.filterMap (rooted host target) := by
  rw [coveringRules, List.filter_filterMap]
  rfl

section Governed

variable {config : PolicyConfig} {host : Host} {drive : Char} {parts : List String}

/-- The rules that cover a path are those with a root that contains it. -/
theorem rooted_eq_some_iff (hhost : SlashFree host) (hcanonical : Canonical drive parts)
    {rule : FilesystemRule} {found : String × FilesystemRule} :
    rooted host (joinWindowsPath drive parts) rule = some found ↔
      ∃ root, rule.Covers host drive parts root ∧ Canonical drive root ∧
        found = (joinWindowsPath drive root, rule) := by
  rw [rooted, Option.filter_eq_some_iff, Option.map_eq_some_iff]
  constructor
  · rintro ⟨⟨path, hpath, rfl⟩, hwithin⟩
    obtain ⟨drive', root, hroot, rfl⟩ := canonical_of_normalize hhost hpath
    obtain ⟨rfl, hinit⟩ := (hcanonical.within_join hroot).mp hwithin
    exact ⟨root, ⟨(normalComponents_eq_some_iff hhost).mpr ⟨hroot, hpath⟩, hinit⟩, hroot, rfl⟩
  · rintro ⟨root, ⟨hcomponents, hinit⟩, hroot, rfl⟩
    obtain ⟨_, hpath⟩ := (normalComponents_eq_some_iff hhost).mp hcomponents
    exact ⟨⟨_, hpath, rfl⟩, (hcanonical.within_join hroot).mpr ⟨rfl, hinit⟩⟩

/-- The policy decides by the rule that governs. -/
theorem mostSpecific_of_governs (hhost : SlashFree host) (hcanonical : Canonical drive parts)
    {rule : FilesystemRule} (h : config.Governs host rule drive parts) :
    ∃ root, mostSpecific (config.coveringRules host (joinWindowsPath drive parts)) =
      some (root, rule) := by
  obtain ⟨before, after, root, hrules, hcovers, hbefore, hafter⟩ := h
  obtain ⟨hroot, _⟩ := (normalComponents_eq_some_iff hhost).mp hcovers.1
  refine ⟨joinWindowsPath drive root, mostSpecific_eq_some_iff.mpr ?_⟩
  have hrooted := (rooted_eq_some_iff hhost hcanonical).mpr ⟨root, hcovers, hroot, rfl⟩
  rw [coveringRules_eq, hrules, List.filterMap_append, List.filterMap_cons_some hrooted]
  refine ⟨_, _, rfl, ?_, ?_⟩
  · intro rooted hmem
    obtain ⟨other, hother, hrooted⟩ := List.mem_filterMap.mp hmem
    obtain ⟨root', hcovers', hroot', rfl⟩ := (rooted_eq_some_iff hhost hcanonical).mp hrooted
    have hlength := hbefore other hother root' hcovers'
    exact not_lt.mp
      (mt (hroot.byteLength_lt_iff hroot' hcovers.2 hcovers'.2).mp (not_lt.mpr hlength))
  · intro rooted hmem
    obtain ⟨other, hother, hrooted⟩ := List.mem_filterMap.mp hmem
    obtain ⟨root', hcovers', hroot', rfl⟩ := (rooted_eq_some_iff hhost hcanonical).mp hrooted
    have hlength := hafter other hother root' hcovers'
    exact (hroot'.byteLength_lt_iff hroot hcovers'.2 hcovers.2).mpr hlength

/-- The rule the policy decides by governs. -/
theorem governs_of_mostSpecific (hhost : SlashFree host) (hcanonical : Canonical drive parts)
    {found : String × FilesystemRule}
    (h : mostSpecific (config.coveringRules host (joinWindowsPath drive parts)) = some found) :
    config.Governs host found.2 drive parts := by
  obtain ⟨before, after, hrules, hbefore, hafter⟩ := mostSpecific_eq_some_iff.mp h
  rw [coveringRules_eq] at hrules
  obtain ⟨rules, rest, hsplit, rfl, hrest⟩ := List.filterMap_eq_append_iff.mp hrules
  obtain ⟨skipped, rule, later, rfl, hskipped, hrule, rfl⟩ := List.filterMap_eq_cons_iff.mp hrest
  obtain ⟨root, hcovers, hroot, rfl⟩ := (rooted_eq_some_iff hhost hcanonical).mp hrule
  refine ⟨rules ++ skipped, later, root, by rw [hsplit, List.append_assoc], hcovers, ?_, ?_⟩
  · intro other hother root' hcovers'
    obtain ⟨hroot', _⟩ := (normalComponents_eq_some_iff hhost).mp hcovers'.1
    have hrooted := (rooted_eq_some_iff hhost hcanonical).mpr ⟨root', hcovers', hroot', rfl⟩
    rcases List.mem_append.mp hother with hother | hother
    · have hle := hbefore _ (List.mem_filterMap.mpr ⟨other, hother, hrooted⟩)
      exact not_lt.mp
        (mt (hroot.byteLength_lt_iff hroot' hcovers.2 hcovers'.2).mpr (not_lt.mpr hle))
    · rw [hskipped other hother] at hrooted
      cases hrooted
  · intro other hother root' hcovers'
    obtain ⟨hroot', _⟩ := (normalComponents_eq_some_iff hhost).mp hcovers'.1
    have hrooted := (rooted_eq_some_iff hhost hcanonical).mpr ⟨root', hcovers', hroot', rfl⟩
    have hlt := hafter _ (List.mem_filterMap.mpr ⟨other, hother, hrooted⟩)
    exact (hroot'.byteLength_lt_iff hroot hcovers'.2 hcovers.2).mp hlt

theorem filesystemDecision_of_governs (hhost : SlashFree host) {target : String}
    (htarget : normalComponents host target = some (drive, parts)) {rule : FilesystemRule}
    (h : config.Governs host rule drive parts) (write : Bool) :
    config.filesystemDecision host target write = rule.decision write := by
  obtain ⟨hcanonical, hpath⟩ := (normalComponents_eq_some_iff hhost).mp htarget
  obtain ⟨root, hmost⟩ := mostSpecific_of_governs hhost hcanonical h
  rw [filesystemDecision, hpath]
  simp only [hmost]
  rfl

theorem filesystemDecision_of_none {target : String}
    (h : normalizeWindowsPath host target = none) (write : Bool) :
    config.filesystemDecision host target write = .deny := by
  rw [filesystemDecision, h]

/-- Where rules cover a path, one of them governs it. -/
theorem exists_governs (hhost : SlashFree host) (hcanonical : Canonical drive parts)
    {rule : FilesystemRule} (hrule : rule ∈ config.filesystem) {root : List String}
    (hcovers : rule.Covers host drive parts root) :
    ∃ rule, config.Governs host rule drive parts := by
  obtain ⟨hroot, _⟩ := (normalComponents_eq_some_iff hhost).mp hcovers.1
  have hrooted := (rooted_eq_some_iff hhost hcanonical).mpr ⟨root, hcovers, hroot, rfl⟩
  cases hmost : mostSpecific (config.coveringRules host (joinWindowsPath drive parts)) with
  | none =>
      rw [mostSpecific_eq_none_iff, coveringRules_eq, List.filterMap_eq_nil_iff] at hmost
      rw [hmost rule hrule] at hrooted
      cases hrooted
  | some found => exact ⟨found.2, governs_of_mostSpecific hhost hcanonical hmost⟩

/-- A path that no rule covers is refused. -/
theorem filesystemDecision_uncovered (hhost : SlashFree host) {target : String}
    (h : ∀ drive parts, normalComponents host target = some (drive, parts) →
      ∀ rule ∈ config.filesystem, ∀ root, ¬ rule.Covers host drive parts root) (write : Bool) :
    config.filesystemDecision host target write = .deny := by
  cases hpath : normalizeWindowsPath host target with
  | none => exact filesystemDecision_of_none hpath write
  | some path =>
      obtain ⟨drive, parts, hcanonical, rfl⟩ := canonical_of_normalize hhost hpath
      have htarget := (normalComponents_eq_some_iff hhost).mpr ⟨hcanonical, hpath⟩
      rw [filesystemDecision, hpath]
      cases hmost : mostSpecific (config.coveringRules host (joinWindowsPath drive parts)) with
      | none => simp only [hmost]
      | some found =>
          obtain ⟨before, after, root, hrules, hcovers, _⟩ :=
            governs_of_mostSpecific hhost hcanonical hmost
          have hmem : found.2 ∈ config.filesystem := by
            rw [hrules]
            exact List.mem_append_right before List.mem_cons_self
          exact absurd hcovers (h drive parts htarget found.2 hmem root)

/-- What is not refused is governed by a rule that says so. -/
theorem governs_of_decision (hhost : SlashFree host) {target : String} {write : Bool}
    (h : config.filesystemDecision host target write ≠ .deny) :
    ∃ drive parts rule, normalComponents host target = some (drive, parts) ∧
      config.Governs host rule drive parts ∧
        config.filesystemDecision host target write = rule.decision write := by
  by_contra hnone
  refine h (filesystemDecision_uncovered hhost ?_ write)
  intro drive parts htarget rule hrule root hcovers
  obtain ⟨hcanonical, _⟩ := (normalComponents_eq_some_iff hhost).mp htarget
  obtain ⟨governing, hgoverns⟩ := exists_governs hhost hcanonical hrule hcovers
  exact hnone ⟨drive, parts, governing, htarget, hgoverns,
    filesystemDecision_of_governs hhost htarget hgoverns write⟩

end Governed

/-- The policy on files is the longest prefix of components that a rule has: the
rule that governs decides, and what no rule covers, an ambiguous component and a
short name that the host does not expand are refused. Spelling makes no
difference, and a normal form is its own normal form. -/
theorem filesystemDecision_governed (config : PolicyConfig) {host : Host} (hhost : SlashFree host)
    (hcase : CaseBlind host) (write : Bool) :
    (∀ target drive parts rule, normalComponents host target = some (drive, parts) →
      config.Governs host rule drive parts →
        config.filesystemDecision host target write = rule.decision write) ∧
    (∀ target drive parts, normalComponents host target = some (drive, parts) →
      (∃ rule ∈ config.filesystem, ∃ root, rule.Covers host drive parts root) →
        ∃ rule, config.Governs host rule drive parts) ∧
    (∀ target, (∀ drive parts, normalComponents host target = some (drive, parts) →
        ∀ rule ∈ config.filesystem, ∀ root, ¬ rule.Covers host drive parts root) →
      config.filesystemDecision host target write = .deny) ∧
    (∀ target letter rest,
      (replaceChar '/' '\\' target).toList = letter :: ':' :: '\\' :: rest →
      ((∃ part ∈ components (String.ofList rest), ambiguousPart part = true) ∨
        Unexpanded host letter.toUpper (components (String.ofList rest))) →
      config.filesystemDecision host target write = .deny) ∧
    (∀ target target', SameSpelling target target' →
      config.filesystemDecision host target write = config.filesystemDecision host target' write) ∧
    ∀ input path, normalizeWindowsPath host input = some path →
      normalizeWindowsPath host path = some path := by
  refine ⟨?_, ?_, ?_, ?_, ?_, ?_⟩
  · intro target drive parts rule htarget hgoverns
    exact filesystemDecision_of_governs hhost htarget hgoverns write
  · rintro target drive parts htarget ⟨rule, hrule, root, hcovers⟩
    obtain ⟨hcanonical, _⟩ := (normalComponents_eq_some_iff hhost).mp htarget
    exact exists_governs hhost hcanonical hrule hcovers
  · intro target huncovered
    exact filesystemDecision_uncovered hhost huncovered write
  · rintro target letter rest htext (hambiguous | hunexpanded)
    · have hsplit := split_eq_none_of_ambiguous htext hambiguous
      exact filesystemDecision_of_none (normalize_eq_none_of_split hsplit) write
    · exact filesystemDecision_of_none (normalize_eq_none_of_unexpanded htext hunexpanded) write
  · intro target target' hspelling
    exact filesystemDecision_congr config (normalize_of_sameSpelling hhost hcase hspelling) write
  · intro input path hpath
    exact normalize_normalize hhost hpath

namespace GoverningSample

/-- Only the folder for programs is there, which has a short name. -/
def programs : Host where
  canonicalize := fun _ => none
  longPathName path :=
    if toAsciiLowercase path = "c:\\" then some "C:\\"
    else if toAsciiLowercase path = "c:\\program files" ∨
      toAsciiLowercase path = "c:\\progra~1" then
      some "C:\\Program Files"
    else none

theorem programs_slashFree : SlashFree programs := by
  intro path long h
  simp only [programs] at h
  split_ifs at h <;> obtain rfl := Option.some.inj h <;> decide

theorem programs_caseBlind : CaseBlind programs := by
  intro path path' h
  simp only [programs, h]

/-- Everything may be read, and programs may be written too. -/
def policy : PolicyConfig :=
  { (onlyUnder "C:\\").config with
    filesystem := [⟨"C:\\Program Files", .auto, .auto⟩, ⟨"C:\\", .auto, .deny⟩] }

end GoverningSample

open GoverningSample in
/-- Programs may be written under the short name of their folder. -/
theorem filesystemDecision_governed_programs :
    policy.filesystemDecision programs "c:/PROGRA~1//x.txt" true = .auto := by
  refine (filesystemDecision_governed policy programs_slashFree programs_caseBlind true).1
    "c:/PROGRA~1//x.txt" 'C' ["program files", "x.txt"] ⟨"C:\\Program Files", .auto, .auto⟩
    (by decide) ⟨[], [⟨"C:\\", .auto, .deny⟩], ["program files"], rfl, ?_, by simp, ?_⟩
  · exact ⟨by decide, by decide⟩
  · intro other hother root hcovers
    obtain rfl := List.mem_singleton.mp hother
    have hroot : normalComponents programs "C:\\" = some ('C', []) := by decide
    obtain rfl : [] = root := (Prod.mk.inj (Option.some.inj (hroot.symm.trans hcovers.1))).2
    decide

/-! ### The paths of the rules -/

/-- A rule of the policy whose root is that of no other rule. -/
def Alone (config : PolicyConfig) (host : Host) (rule : FilesystemRule) : Prop :=
  ∃ before after, config.filesystem = before ++ rule :: after ∧
    ∀ other ∈ before ++ after, ∀ root, normalizeWindowsPath host rule.path = some root →
      normalizeWindowsPath host other.path ≠ some root

/-- A rule alone on its root governs it. -/
theorem governs_of_alone {config : PolicyConfig} {host : Host} (hhost : SlashFree host)
    {rule : FilesystemRule} (h : config.Alone host rule) {drive : Char} {root : List String}
    (hroot : normalComponents host rule.path = some (drive, root)) :
    config.Governs host rule drive root := by
  obtain ⟨before, after, hrules, halone⟩ := h
  obtain ⟨_, hpath⟩ := (normalComponents_eq_some_iff hhost).mp hroot
  have hshorter : ∀ other ∈ before ++ after, ∀ root', other.Covers host drive root root' →
      root'.length < root.length := by
    rintro other hother root' ⟨hroot', hinit⟩
    obtain ⟨_, hpath'⟩ := (normalComponents_eq_some_iff hhost).mp hroot'
    refine lt_of_le_of_ne hinit.length_le fun hlength => ?_
    rw [hinit.eq_of_length hlength] at hpath'
    exact halone other hother _ hpath hpath'
  exact ⟨before, after, root, hrules, ⟨hroot, List.prefix_refl root⟩,
    fun other hother root' hcovers =>
      (hshorter other (List.mem_append_left _ hother) root' hcovers).le,
    fun other hother => hshorter other (List.mem_append_right _ hother)⟩

/-- A rule alone on its root decides on its own path, if the path has a normal
form. A path without one is refused, whatever the rule says. -/
theorem filesystemDecision_own_path {host : Host} (hhost : SlashFree host) (engine : PolicyEngine)
    {rule : FilesystemRule} (h : engine.config.Alone host rule) (write : Bool) :
    engine.config.filesystemDecision host rule.path write =
      if (normalizeWindowsPath host rule.path).isSome then rule.decision write else .deny := by
  cases hpath : normalizeWindowsPath host rule.path with
  | none => exact filesystemDecision_of_none hpath write
  | some path =>
      obtain ⟨drive, root, hcanonical, rfl⟩ := canonical_of_normalize hhost hpath
      have hroot := (normalComponents_eq_some_iff hhost).mpr ⟨hcanonical, hpath⟩
      exact filesystemDecision_of_governs hhost hroot (governs_of_alone hhost h hroot) write

open SpellingSample in
/-- A folder below another is decided by its own rule. -/
theorem filesystemDecision_own_path_below :
    policy.config.filesystemDecision emptyHost "C:\\data\\é" false = .deny := by
  have halone : policy.config.Alone emptyHost ⟨"C:\\data\\é", .deny, .deny⟩ := by
    refine ⟨[⟨"C:\\data", .auto, .auto⟩], [], rfl, fun other hother root hroot => ?_⟩
    obtain rfl := List.mem_singleton.mp hother
    rw [← hroot]
    decide
  exact filesystemDecision_own_path emptyHost_slashFree policy halone false

open SpellingSample in
/-- A rule for a network path does not decide on it. -/
theorem network_path_refused :
    ¬ ∀ (engine : PolicyEngine) (rule : FilesystemRule) (write : Bool),
      engine.config.Alone emptyHost rule →
        engine.config.filesystemDecision emptyHost rule.path write = rule.decision write := by
  intro h
  have hauto := h (onlyUnder "\\\\server\\share") ⟨"\\\\server\\share", .auto, .auto⟩ false
    ⟨[], [], rfl, by simp⟩
  exact absurd hauto (by decide)

end PolicyConfig

end VorCommander
