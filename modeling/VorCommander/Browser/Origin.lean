import VorCommander.Browser.Sessions
import VorCommander.Text.Fields
import VorCommander.Text.Url

/-!
What an address is held to before a browser is sent there.

`same_origin_url` splits both addresses by hand and compares the parts as they
are written. The browser reads the address with the parser of the URL standard:
where that parser finds an origin in an address that is accepted, it is the one
that is allowed.
-/

namespace VorCommander

open Text

/-! ### The parts of an address -/

theorem rsplitOnce_eq_some_iff {c : Char} {s before after : String} :
    rsplitOnce c s = some (before, after) ↔
      s.toList = before.toList ++ c :: after.toList ∧ c ∉ after.toList := by
  rw [rsplitOnce, Option.map_eq_some_iff]
  constructor
  · rintro ⟨⟨after', before'⟩, hsplit, hparts⟩
    obtain ⟨rfl, rfl⟩ := Prod.mk.inj hparts
    obtain ⟨htext, hnot⟩ := splitOnce_eq_some_iff.mp hsplit
    rw [String.toList_ofList, List.reverse_eq_iff] at htext
    simpa [htext] using hnot
  · rintro ⟨htext, hnot⟩
    refine ⟨(String.ofList after.toList.reverse, String.ofList before.toList.reverse),
      splitOnce_eq_some_iff.mpr ?_, by simp⟩
    simpa [htext] using hnot

theorem rsplitOnce_eq_none_iff {c : Char} {s : String} : rsplitOnce c s = none ↔ c ∉ s.toList := by
  rw [rsplitOnce, Option.map_eq_none_iff, splitOnce_eq_none_iff]
  simp

theorem splitScheme_eq_some {cs scheme rest : List Char}
    (h : splitScheme cs = some (scheme, rest)) : cs = scheme ++ "://".toList ++ rest := by
  induction cs using splitScheme.induct generalizing scheme with
  | case1 rest' =>
      obtain ⟨rfl, rfl⟩ := Prod.mk.inj (Option.some.inj h)
      rfl
  | case2 c cs hnot ih =>
      rw [splitScheme, Option.map_eq_some_iff] at h
      · obtain ⟨⟨scheme', rest'⟩, hsplit, hparts⟩ := h
        obtain ⟨rfl, rfl⟩ := Prod.mk.inj hparts
        rw [ih hsplit]
        rfl
      · exact hnot
  | case3 => cases h

/-- What `parse::<u16>` accepts: digits, perhaps after a plus. -/
theorem parseU16_eq_some {text : List Char} {port : ℕ}
    (h : parseU16 (String.ofList text) = some port) :
    text ≠ [] ∧ (∀ c ∈ text, c = '+' ∨ c.isDigit = true) ∧
      ((∀ c ∈ text, c.isDigit = true) → Nat.ofDigitChars 10 text 0 = port) := by
  rw [parseU16, String.toList_ofList] at h
  split at h
  case h_1 rest =>
    obtain ⟨⟨-, hall, -⟩, -⟩ := Option.ite_none_right_eq_some.mp h
    rw [List.all_eq_true] at hall
    refine ⟨List.cons_ne_nil _ _, fun c hc => ?_, fun hplus => ?_⟩
    · rcases List.mem_cons.mp hc with rfl | hc
      · exact .inl rfl
      · exact .inr (hall c hc)
    · exact absurd (hplus '+' List.mem_cons_self) (by decide)
  case h_2 =>
    obtain ⟨⟨hne, hall, -⟩, hport⟩ := Option.ite_none_right_eq_some.mp h
    rw [List.all_eq_true] at hall
    exact ⟨hne, fun c hc => .inr (hall c hc), fun _ => Option.some.inj hport⟩

/-- What the splitter finds in an address: the parts that it is written with, and
the port that they name. -/
structure SplitsAs (input : List Char) (scheme host : String) (port : ℕ)
    (written : Option (List Char)) (path : List Char) : Prop where
  scheme_cases : scheme.toList = "http".toList ∨ scheme.toList = "https".toList
  input_eq : input = scheme.toList ++ "://".toList ++ host.toList ++ portText written ++ path
  slash_notMem : '/' ∉ host.toList ++ portText written
  path_cases : path = [] ∨ ∃ rest, path = '/' :: rest
  port_none : written = none → ':' ∉ host.toList ∧ port = defaultPort scheme.toList
  port_some : ∀ digits ∈ written, ':' ∉ digits ∧ parseU16 (String.ofList digits) = some port

/-- The authority ends at the first slash. -/
theorem authority_cases (rest : String) :
    ∃ path, rest.toList = ((splitOnce '/' rest).getD (rest, "")).1.toList ++ path ∧
      '/' ∉ ((splitOnce '/' rest).getD (rest, "")).1.toList ∧
      (path = [] ∨ ∃ rest, path = '/' :: rest) := by
  cases hsplit : splitOnce '/' rest with
  | none => exact ⟨[], by simp, splitOnce_eq_none_iff.mp hsplit, .inl rfl⟩
  | some parts =>
      obtain ⟨htext, hnot⟩ := splitOnce_eq_some_iff.mp hsplit
      exact ⟨'/' :: parts.2.toList, htext, hnot, .inr ⟨parts.2.toList, rfl⟩⟩

theorem splitsAs_of_parseHttpOrigin {input scheme host path : String} {port : ℕ}
    (h : parseHttpOrigin input = some (scheme, host, port, path)) :
    ∃ written rest, SplitsAs input.toList scheme host port written rest := by
  simp only [parseHttpOrigin, Option.bind_eq_bind, Option.bind_eq_some_iff] at h
  obtain ⟨⟨schemeText, rest⟩, hscheme, h⟩ := h
  obtain ⟨hknown, h⟩ := Option.ite_none_left_eq_some.mp h
  obtain ⟨-, h⟩ := Option.ite_none_left_eq_some.mp h
  dsimp only at hknown h
  obtain ⟨pathText, hrest, hslash, hpath⟩ := authority_cases (String.ofList rest)
  revert hrest hslash h
  generalize (splitOnce '/' (String.ofList rest)).getD (String.ofList rest, "") = parts
  intro h hrest hslash
  have hscheme_cases : schemeText = "http".toList ∨ schemeText = "https".toList := by
    rw [← not_or, not_not] at hknown
    simpa [String.ext_iff] using hknown
  have hinput := splitScheme_eq_some hscheme
  rw [String.toList_ofList] at hrest
  split at h
  case h_1 host' port' hsplit =>
    obtain ⟨hauthority, hcolon⟩ := rsplitOnce_eq_some_iff.mp hsplit
    obtain ⟨⟨host'', port''⟩, hport, h⟩ := Option.bind_eq_some_iff.mp h
    obtain ⟨n, hn, hpair⟩ := Option.map_eq_some_iff.mp hport
    obtain ⟨rfl, rfl⟩ := Prod.mk.inj hpair
    obtain ⟨-, h⟩ := Option.ite_none_left_eq_some.mp h
    simp only [Option.pure_def, Option.some.injEq, Prod.mk.injEq] at h
    obtain ⟨rfl, rfl, rfl, -⟩ := h
    refine ⟨some port'.toList, pathText, ?_, ?_, ?_, hpath, ?_, ?_⟩
    · simpa using hscheme_cases
    · simp [hinput, hrest, hauthority, portText]
    · simpa [hauthority, portText] using hslash
    · simp
    · simpa using ⟨hcolon, hn⟩
  case h_2 hsplit =>
    obtain ⟨⟨host', port'⟩, hpair, h⟩ := Option.bind_eq_some_iff.mp h
    obtain ⟨rfl, rfl⟩ := Prod.mk.inj (Option.some.inj hpair)
    obtain ⟨-, h⟩ := Option.ite_none_left_eq_some.mp h
    simp only [Option.pure_def, Option.some.injEq, Prod.mk.injEq] at h
    obtain ⟨rfl, rfl, rfl, -⟩ := h
    refine ⟨none, pathText, ?_, ?_, ?_, hpath, ?_, ?_⟩
    · simpa using hscheme_cases
    · simp [hinput, hrest, portText]
    · simpa [portText] using hslash
    · intro _
      refine ⟨rsplitOnce_eq_none_iff.mp hsplit, ?_⟩
      simp [defaultPort, String.ext_iff]
    · simp

theorem Text.WrittenOrigin.slash_notMem (origin : WrittenOrigin) :
    '/' ∉ origin.host ++ portText origin.port := by
  intro h
  rcases List.mem_append.mp h with hhost | hport
  · exact absurd (origin.written_host.shown hhost).2.1 (by decide)
  · cases hwritten : origin.port with
    | none => simp [hwritten, portText] at hport
    | some digits =>
        have hslash : '/' ∈ digits := by simpa [hwritten, portText] using hport
        exact absurd ((origin.port_digits digits hwritten).2 '/' hslash) (by decide)

/-- A host does not end with a number after a colon. -/
theorem Text.WrittenHost.ne_append_cons {host before digits : List Char} (h : WrittenHost host)
    (hne : digits ≠ []) (hdigits : ∀ c ∈ digits, c = '+' ∨ c.isDigit = true) :
    host ≠ before ++ ':' :: digits := by
  intro hhost
  cases h with
  | plain _ hplain =>
      obtain ⟨-, -, -, hcolon, -⟩ := isHostChar_iff.mp (hplain ':' (by simp [hhost]))
      exact hcolon rfl
  | @bracketed address _ =>
      have hlast := congrArg List.getLast? hhost
      rw [← List.cons_append, List.getLast?_concat, List.getLast?_append_cons,
        List.getLast?_cons_of_ne_nil hne] at hlast
      have hbracket := hdigits ']' (List.mem_of_getLast? hlast.symm)
      simp at hbracket

/-- An allowed origin splits into the parts it is written with. -/
theorem SplitsAs.of_text {origin : WrittenOrigin} {scheme host : String} {port : ℕ}
    {written : Option (List Char)} {path : List Char}
    (h : SplitsAs origin.text.toList scheme host port written path) :
    scheme.toList = origin.scheme ∧ host.toList = origin.host ∧ port = origin.portNumber := by
  have hcolon : ':' ∉ scheme.toList := by
    rcases h.scheme_cases with hscheme | hscheme <;> rw [hscheme] <;> decide
  have htext : origin.scheme ++ ':' :: ("//".toList ++ (origin.host ++ portText origin.port)) =
      scheme.toList ++ ':' :: ("//".toList ++ (host.toList ++ portText written ++ path)) := by
    have hinput := h.input_eq
    rw [WrittenOrigin.text, String.toList_ofList] at hinput
    simpa using hinput
  obtain ⟨hscheme, hrest⟩ :=
    append_cons_inj origin.colon_notMem_scheme hcolon htext
  have hauthority := List.append_cancel_left hrest
  have hpath : path = [] := by
    rcases h.path_cases with hpath | ⟨rest, rfl⟩
    · exact hpath
    · refine absurd ?_ origin.slash_notMem
      rw [hauthority]
      simp
  rw [hpath, List.append_nil] at hauthority
  refine ⟨hscheme.symm, ?_⟩
  cases written with
  | none =>
      obtain ⟨hnone, hdefault⟩ := h.port_none rfl
      rw [portText_none, List.append_nil] at hauthority
      cases hport : origin.port with
      | none =>
          rw [hport, portText_none, List.append_nil] at hauthority
          rw [hdefault, WrittenOrigin.portNumber, hport, hscheme]
          exact ⟨hauthority.symm, rfl⟩
      | some digits =>
          refine absurd ?_ hnone
          rw [← hauthority, hport]
          simp
  | some digits =>
      obtain ⟨hlast, hparse⟩ := h.port_some digits rfl
      obtain ⟨hne, hchars, hvalue⟩ := parseU16_eq_some hparse
      cases hport : origin.port with
      | none =>
          rw [hport, portText_none, List.append_nil] at hauthority
          exact absurd hauthority (origin.written_host.ne_append_cons hne hchars)
      | some digits' =>
          obtain ⟨-, hdigits'⟩ := origin.port_digits digits' hport
          have hlast' : ':' ∉ digits' := fun hc => absurd (hdigits' _ hc) (by decide)
          rw [hport] at hauthority
          obtain ⟨hhost, hdigits⟩ := append_cons_inj_right hlast' hlast hauthority
          rw [WrittenOrigin.portNumber, hport, ← hvalue (by rwa [← hdigits])]
          exact ⟨hhost.symm, by rw [hdigits]; rfl⟩

/-- A port that the URL standard reads is the one that was split off. -/
theorem SplitsAs.portState {input path : List Char} {scheme host : String} {port number : ℕ}
    {written : Option (List Char)} (h : SplitsAs input scheme host port written path)
    (hnumber : portState (defaultPort scheme.toList) (written.getD []) = some number) :
    number = port := by
  cases written with
  | none =>
      obtain ⟨-, hport⟩ := h.port_none rfl
      rw [hport]
      exact (Option.some.inj hnumber).symm
  | some digits =>
      obtain ⟨-, hparse⟩ := h.port_some digits rfl
      obtain ⟨hne, -, hvalue⟩ := parseU16_eq_some hparse
      rw [Option.getD_some, Text.portState, if_neg hne] at hnumber
      obtain ⟨⟨hdigits, -⟩, hnumber⟩ := Option.ite_none_right_eq_some.mp hnumber
      rw [← hvalue (List.all_eq_true.mp hdigits)]
      exact (Option.some.inj hnumber).symm

theorem isHostChar_of_portChar {c : Char} (h : c = '+' ∨ c.isDigit = true) :
    isHostChar c = true := by
  rcases h with rfl | h
  · decide
  · have hdigits : ∀ n < 58, 48 ≤ n → isHostChar (Char.ofNat n) = true := by decide
    obtain ⟨hge, hle⟩ := (isDigit_iff c).mp h
    rw [← Char.ofNat_toNat c]
    exact hdigits c.toNat (by omega) hge

/-- An address is accepted if it and the allowed one split into the same parts. -/
theorem sameOriginUrl_cases {candidate allowed : String}
    (h : sameOriginUrl candidate allowed = true) :
    ∃ scheme host port path, parseHttpOrigin candidate = some (scheme, host, port, path) ∧
      ∃ path', parseHttpOrigin allowed = some (scheme, host, port, path') := by
  rw [sameOriginUrl] at h
  split at h
  case h_1 => cases h
  case h_2 scheme host port path hcandidate =>
    split at h
    · cases h
    · split at h
      case h_1 => cases h
      case h_2 scheme' host' port' path' hallowed =>
        simp only [Bool.and_eq_true, decide_eq_true_eq] at h
        obtain ⟨⟨rfl, rfl⟩, rfl⟩ := h
        exact ⟨scheme, host, port, path, hcandidate, path', hallowed⟩

/-! ### Containment -/

/-- An accepted address that the URL standard reads leads to the allowed scheme,
host and port. -/
theorem sameOriginUrl_contained {Host : Type} (U : UrlStandard Host) {candidate : String}
    {allowed : WrittenOrigin} {url : UrlOrigin Host}
    (hsame : sameOriginUrl candidate allowed.text = true) (hurl : U.parse candidate = some url) :
    url.scheme = allowed.scheme ∧ U.parseHost allowed.host = some url.host ∧
      url.port = allowed.portNumber := by
  obtain ⟨scheme, host, port, path, hcandidate, path', hallowed⟩ := sameOriginUrl_cases hsame
  obtain ⟨written, rest, hsplits⟩ := splitsAs_of_parseHttpOrigin hcandidate
  obtain ⟨written', rest', hsplits'⟩ := splitsAs_of_parseHttpOrigin hallowed
  obtain ⟨hscheme, hhost, hport⟩ := hsplits'.of_text
  have hwritten : ∀ digits ∈ written, ∀ c ∈ digits, isHostChar c = true := by
    intro digits hdigits c hc
    obtain ⟨-, hparse⟩ := hsplits.port_some digits hdigits
    obtain ⟨-, hchars, -⟩ := parseU16_eq_some hparse
    exact isHostChar_of_portChar (hchars c hc)
  have hinput := hsplits.input_eq
  rw [hhost] at hinput
  rw [UrlStandard.parse_append U hsplits.scheme_cases allowed.written_host hwritten
    hsplits.path_cases hinput] at hurl
  simp only [Option.bind_eq_bind, Option.bind_eq_some_iff, Option.pure_def,
    Option.some.injEq] at hurl
  obtain ⟨number, hnumber, host', hhost', rfl⟩ := hurl
  refine ⟨hscheme, hhost', ?_⟩
  rw [← hport]
  exact hsplits.portState hnumber

/-- The addresses of a site that is reached under its name. -/
def Sample.standard : UrlStandard (List Char) where
  parseHost := some
  parseOther _ _ := none

def Sample.site : WrittenOrigin where
  scheme := "https".toList
  host := "site.example".toList
  port := some "8443".toList
  colon_notMem_scheme := by decide
  written_host := .plain (by decide) (List.all_eq_true.mp (by decide))
  port_digits := by simp

theorem sameOriginUrl_contained_site :
    sameOriginUrl "https://site.example:08443/a?b" Sample.site.text = true ∧
      some "site.example".toList = Sample.standard.parseHost Sample.site.host ∧
        8443 = Sample.site.portNumber := by
  have hsame : sameOriginUrl "https://site.example:08443/a?b" Sample.site.text = true := by
    decide +kernel
  have hurl : Sample.standard.parse "https://site.example:08443/a?b" =
      some ⟨"https".toList, "site.example".toList, 8443⟩ := by rfl
  obtain ⟨-, hhost, hport⟩ := sameOriginUrl_contained Sample.standard hsame hurl
  exact ⟨hsame, hhost.symm, hport⟩

end VorCommander
