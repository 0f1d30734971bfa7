import Mathlib.Data.List.DropRight
import VorCommander.Text.Strings

/-!
The origin of an address, as the URL standard reads it.

The parser is that of the standard without a base address, state by state, for
the schemes `http` and `https`. The host parser is a parameter, and so is what
becomes of the other schemes; the path, the query and the fragment cannot fail
and say nothing of the origin.
-/

namespace VorCommander.Text

/-! ### The states of the parser -/

/-- A C0 control or space. -/
def isC0OrSpace (c : Char) : Bool := c.toNat ≤ 0x20

/-- An ASCII tab or newline. -/
def isTabOrNewline (c : Char) : Bool := c = '\t' || c = '\n' || c = '\r'

/-- What is left of an address before it is read: without the controls and
spaces at its ends, and without any tab or line break. -/
def cleaned (input : List Char) : List Char :=
  ((input.dropWhile isC0OrSpace).rdropWhile isC0OrSpace).filter fun c => !isTabOrNewline c

/-- A character of a scheme after the first. -/
def isSchemeChar (c : Char) : Bool := c.isAlphanum || c = '+' || c = '-' || c = '.'

/-- The scheme state: the scheme in lower case, and what follows its colon. -/
def schemeState (buffer : List Char) : List Char → Option (List Char × List Char)
  | [] => none
  | c :: rest =>
      if isSchemeChar c then schemeState (buffer ++ [c.toLower]) rest
      else if c = ':' then some (buffer, rest)
      else none

/-- The scheme start state. -/
def schemeStartState : List Char → Option (List Char × List Char)
  | [] => none
  | c :: rest => if c.isAlpha then schemeState [c.toLower] rest else none

/-- A slash before the authority. Both states of the standard that skip slashes
skip any number of them. -/
def isSlash (c : Char) : Bool := c = '/' || c = '\\'

/-- What ends the authority. -/
def endsAuthority (c : Char) : Bool := c = '/' || c = '?' || c = '#' || c = '\\'

/-- The authority after its last `@`, which ends the user information. Nothing
may be left only where there is no user information. -/
def afterUserinfo (authority : List Char) : Option (List Char) :=
  if '@' ∈ authority then
    let host := (authority.reverse.takeWhile (· ≠ '@')).reverse
    if host = [] then none else some host
  else some authority

/-- The host state: the host, and what follows the colon that ends it. A colon
inside brackets belongs to the host. -/
def hostState (buffer : List Char) (insideBrackets : Bool) :
    List Char → List Char × Option (List Char)
  | [] => (buffer, none)
  | c :: rest =>
      if c = ':' ∧ insideBrackets = false then (buffer, some rest)
      else
        hostState (buffer ++ [c])
          (if c = '[' then true else if c = ']' then false else insideBrackets) rest

/-- The port state. Without digits the port is the default one. -/
def portState (default : ℕ) (digits : List Char) : Option ℕ :=
  if digits = [] then some default
  else if digits.all Char.isDigit ∧ Nat.ofDigitChars 10 digits 0 < 2 ^ 16 then
    some (Nat.ofDigitChars 10 digits 0)
  else none

/-- The default port of `http` and of `https`. -/
def defaultPort (scheme : List Char) : ℕ := if scheme = "https".toList then 443 else 80

/-! ### The parser -/

/-- The origin of an address, with the port that applies. -/
structure UrlOrigin (Host : Type) where
  scheme : List Char
  host : Host
  port : ℕ

/-- What the parser leaves to the rest of the standard: the host parser, and the
addresses of other schemes. -/
structure UrlStandard (Host : Type) where
  parseHost : List Char → Option Host
  parseOther : List Char → List Char → Option (UrlOrigin Host)

namespace UrlStandard

variable {Host : Type} (U : UrlStandard Host)

/-- The origin of what follows the scheme. -/
def parseAuthority (scheme rest : List Char) : Option (UrlOrigin Host) := do
  let authority ← afterUserinfo ((rest.dropWhile isSlash).takeWhile fun c => !endsAuthority c)
  let (host, port) := hostState [] false authority
  if host = [] then none else
  let port ← portState (defaultPort scheme) (port.getD [])
  let host ← U.parseHost host
  return { scheme, host, port }

/-- The origin of an address. -/
def parse (input : String) : Option (UrlOrigin Host) := do
  let (scheme, rest) ← schemeStartState (cleaned input.toList)
  if scheme = "http".toList ∨ scheme = "https".toList then U.parseAuthority scheme rest
  else U.parseOther scheme rest

end UrlStandard

/-! ### Origins as they are written -/

/-- A character of a host without brackets. -/
def isHostChar (c : Char) : Bool :=
  !isC0OrSpace c && !endsAuthority c && c ≠ '@' && c ≠ ':' && c ≠ '[' && c ≠ ']'

/-- A host as it is written, where the standard allows one: with brackets around
it, or without any. -/
inductive WrittenHost : List Char → Prop
  | plain {host : List Char} (hne : host ≠ []) (h : ∀ c ∈ host, isHostChar c = true) :
      WrittenHost host
  | bracketed {address : List Char} (h : ∀ c ∈ address, c = ':' ∨ isHostChar c = true) :
      WrittenHost ('[' :: (address ++ [']']))

/-- A port as it is written, after a colon, or not at all. -/
def portText (port : Option (List Char)) : List Char := port.elim [] (':' :: ·)

@[simp] theorem portText_none : portText none = [] := rfl

@[simp] theorem portText_some (digits : List Char) : portText (some digits) = ':' :: digits := rfl

/-- An origin written `scheme://host` or `scheme://host:port`. -/
structure WrittenOrigin where
  scheme : List Char
  host : List Char
  port : Option (List Char)
  colon_notMem_scheme : ':' ∉ scheme
  written_host : WrittenHost host
  port_digits : ∀ digits ∈ port, digits ≠ [] ∧ ∀ c ∈ digits, c.isDigit = true

namespace WrittenOrigin

variable (origin : WrittenOrigin)

def text : String :=
  String.ofList (origin.scheme ++ "://".toList ++ origin.host ++ portText origin.port)

/-- The port that applies. -/
def portNumber : ℕ :=
  origin.port.elim (defaultPort origin.scheme) (Nat.ofDigitChars 10 · 0)

end WrittenOrigin

/-! ### Reading an address that begins with an origin -/

theorem rdropWhile_append {α : Type*} {p : α → Bool} {l l' : List α}
    (h : ∀ a ∈ l, p a = false) : (l ++ l').rdropWhile p = l ++ l'.rdropWhile p := by
  induction l' using List.reverseRecOn with
  | nil =>
      rw [List.append_nil, List.rdropWhile_nil, List.append_nil, List.rdropWhile_eq_self_iff]
      intro hl
      rw [h _ (List.getLast_mem hl)]
      exact Bool.false_ne_true
  | append_singleton l' a ih =>
      rw [← List.append_assoc, List.rdropWhile_concat, List.rdropWhile_concat, ih]
      split <;> simp

theorem isTabOrNewline_of_not {c : Char} (h : isC0OrSpace c = false) :
    isTabOrNewline c = false := by
  have hne : ∀ d : Char, isC0OrSpace d = true → c ≠ d := by
    rintro d hd rfl
    rw [h] at hd
    cases hd
  simp [isTabOrNewline, hne '\t' (by decide), hne '\n' (by decide), hne '\r' (by decide)]

/-- Nothing is taken from the beginning of an address that has no control, space
or line break in it. -/
theorem cleaned_append {shown rest : List Char} (hne : shown ≠ [])
    (hshown : ∀ c ∈ shown, isC0OrSpace c = false) :
    cleaned (shown ++ rest) =
      shown ++ (rest.rdropWhile isC0OrSpace).filter fun c => !isTabOrNewline c := by
  have hstart : (shown ++ rest).dropWhile isC0OrSpace = shown ++ rest := by
    obtain ⟨c, shown, rfl⟩ := List.exists_cons_of_ne_nil hne
    rw [List.cons_append, List.dropWhile_cons, hshown c List.mem_cons_self]
    rfl
  have hkept : shown.filter (fun c => !isTabOrNewline c) = shown := by
    rw [List.filter_eq_self]
    intro c hc
    rw [isTabOrNewline_of_not (hshown c hc)]
    rfl
  rw [cleaned, hstart, rdropWhile_append hshown, List.filter_append, hkept]

/-- The slash that begins the path is kept. -/
theorem cleaned_append_slash {shown : List Char} (path : List Char) (hne : shown ≠ [])
    (hshown : ∀ c ∈ shown, isC0OrSpace c = false) :
    ∃ path', cleaned (shown ++ '/' :: path) = shown ++ '/' :: path' := by
  refine ⟨(path.rdropWhile isC0OrSpace).filter fun c => !isTabOrNewline c, ?_⟩
  have hslash : ∀ c ∈ ['/'], isC0OrSpace c = false := by simp [isC0OrSpace]
  rw [cleaned_append hne hshown, ← List.singleton_append, rdropWhile_append hslash]
  rfl

theorem schemeState_append {cs : List Char} (h : ∀ c ∈ cs, isSchemeChar c = true)
    (buffer rest : List Char) :
    schemeState buffer (cs ++ ':' :: rest) = some (buffer ++ asciiLower cs, rest) := by
  induction cs generalizing buffer with
  | nil => simp [schemeState, asciiLower, show isSchemeChar ':' = false by decide]
  | cons c cs ih =>
      rw [List.cons_append, schemeState, if_pos (h c List.mem_cons_self),
        ih fun d hd => h d (List.mem_cons_of_mem c hd)]
      simp [asciiLower]

theorem schemeStartState_append {scheme : List Char}
    (h : scheme = "http".toList ∨ scheme = "https".toList) (rest : List Char) :
    schemeStartState (scheme ++ ':' :: rest) = some (scheme, rest) := by
  rcases h with rfl | rfl
  · have hletters : "ttp".toList.all isSchemeChar = true := by decide
    exact schemeState_append (List.all_eq_true.mp hletters) ['h'] rest
  · have hletters : "ttps".toList.all isSchemeChar = true := by decide
    exact schemeState_append (List.all_eq_true.mp hletters) ['h'] rest

/-- The host state reads on over what has no bracket, and a colon only inside
brackets. -/
theorem hostState_append {cs : List Char} {insideBrackets : Bool}
    (h : ∀ c ∈ cs, c ≠ '[' ∧ c ≠ ']' ∧ (c = ':' → insideBrackets = true))
    (buffer rest : List Char) :
    hostState buffer insideBrackets (cs ++ rest) =
      hostState (buffer ++ cs) insideBrackets rest := by
  induction cs generalizing buffer with
  | nil => simp
  | cons c cs ih =>
      obtain ⟨hopen, hclose, hcolon⟩ := h c List.mem_cons_self
      have hgoes : ¬ (c = ':' ∧ insideBrackets = false) := by
        rintro ⟨hc, hout⟩
        rw [hcolon hc] at hout
        cases hout
      rw [List.cons_append, hostState, if_neg hgoes, if_neg hopen, if_neg hclose,
        ih fun d hd => h d (List.mem_cons_of_mem c hd)]
      simp

theorem isHostChar_iff {c : Char} : isHostChar c = true ↔
    isC0OrSpace c = false ∧ endsAuthority c = false ∧ c ≠ '@' ∧ c ≠ ':' ∧ c ≠ '[' ∧ c ≠ ']' := by
  simp [isHostChar, and_assoc]

namespace WrittenHost

variable {host : List Char}

theorem ne_nil (h : WrittenHost host) : host ≠ [] := by
  cases h with
  | plain hne _ => exact hne
  | bracketed _ => exact List.cons_ne_nil _ _

/-- A host is read to its end. -/
theorem hostState_append (h : WrittenHost host) (rest : List Char) :
    hostState [] false (host ++ rest) = hostState host false rest := by
  cases h with
  | plain _ h =>
      refine Text.hostState_append (fun c hc => ?_) [] rest
      obtain ⟨-, -, -, hcolon, hopen, hclose⟩ := isHostChar_iff.mp (h c hc)
      exact ⟨hopen, hclose, fun hc => absurd hc hcolon⟩
  | @bracketed address h =>
      have hinside : ∀ c ∈ address, c ≠ '[' ∧ c ≠ ']' ∧ (c = ':' → true = true) := by
        intro c hc
        rcases h c hc with rfl | hc
        · decide
        · obtain ⟨-, -, -, -, hopen, hclose⟩ := isHostChar_iff.mp hc
          exact ⟨hopen, hclose, fun _ => rfl⟩
      have hopened : hostState [] false ('[' :: (address ++ [']'] ++ rest)) =
          hostState ['['] true (address ++ (']' :: rest)) := by
        rw [hostState, List.append_assoc]
        rfl
      rw [List.cons_append, hopened, Text.hostState_append hinside, hostState]
      simp

/-- No character of a host ends the authority or is left out of an address. -/
theorem shown (h : WrittenHost host) {c : Char} (hc : c ∈ host) :
    isC0OrSpace c = false ∧ endsAuthority c = false ∧ c ≠ '@' := by
  cases h with
  | plain _ h =>
      obtain ⟨hshown, hends, hat, -⟩ := isHostChar_iff.mp (h c hc)
      exact ⟨hshown, hends, hat⟩
  | bracketed h =>
      rw [List.mem_cons, List.mem_append, List.mem_singleton] at hc
      rcases hc with rfl | hc | rfl
      · decide
      · rcases h c hc with rfl | hc
        · decide
        · obtain ⟨hshown, hends, hat, -⟩ := isHostChar_iff.mp hc
          exact ⟨hshown, hends, hat⟩
      · decide

end WrittenHost

theorem afterUserinfo_of_notMem {authority : List Char} (h : '@' ∉ authority) :
    afterUserinfo authority = some authority := by
  rw [afterUserinfo, if_neg h]

/-- What the host state leaves of a host and its port. -/
theorem hostState_portText {host : List Char} (h : WrittenHost host) (port : Option (List Char)) :
    hostState [] false (host ++ portText port) = (host, port) := by
  rw [h.hostState_append]
  cases port <;> rfl

section Parse

variable {Host : Type} (U : UrlStandard Host) {scheme host : List Char}
  {port : Option (List Char)}

/-- What an address names that begins with a scheme, a host and a port, and goes
on with a path or with nothing. -/
theorem UrlStandard.parseAuthority_append (hhost : WrittenHost host)
    (hport : ∀ digits ∈ port, ∀ c ∈ digits, isHostChar c = true) {tail : List Char}
    (htail : tail = [] ∨ ∃ path, tail = '/' :: path) :
    U.parseAuthority scheme ("//".toList ++ (host ++ portText port) ++ tail) = do
      let port ← portState (defaultPort scheme) (port.getD [])
      let host ← U.parseHost host
      return { scheme, host, port } := by
  have hshown : ∀ c ∈ host ++ portText port, endsAuthority c = false ∧ c ≠ '@' := by
    intro c hc
    rcases List.mem_append.mp hc with hc | hc
    · exact (hhost.shown hc).2
    · cases port with
      | none => cases hc
      | some digits =>
          rcases List.mem_cons.mp hc with rfl | hc
          · decide
          · obtain ⟨-, hends, hat, -⟩ := isHostChar_iff.mp (hport digits rfl c hc)
            exact ⟨hends, hat⟩
  have hslashes : ("//".toList ++ (host ++ portText port) ++ tail).dropWhile isSlash =
      host ++ portText port ++ tail := by
    obtain ⟨c, cs, hcs⟩ := List.exists_cons_of_ne_nil hhost.ne_nil
    have hc : isSlash c = false := by
      have hends := (hshown c (by simp [hcs])).1
      simp only [endsAuthority, Bool.or_eq_false_iff] at hends
      simp [isSlash, hends]
    rw [hcs]
    simp [show isSlash '/' = true by decide, hc]
  have hauthority : (host ++ portText port ++ tail).takeWhile (fun c => !endsAuthority c) =
      host ++ portText port := by
    rw [List.takeWhile_append_of_pos fun c hc => by rw [(hshown c hc).1]; rfl]
    rcases htail with rfl | ⟨path, rfl⟩
    · simp
    · simp [show endsAuthority '/' = true by decide]
  rw [parseAuthority, hslashes, hauthority,
    afterUserinfo_of_notMem fun hat => (hshown '@' hat).2 rfl]
  simp [hostState_portText hhost, hhost.ne_nil]

theorem UrlStandard.parse_append (hscheme : scheme = "http".toList ∨ scheme = "https".toList)
    (hhost : WrittenHost host) (hport : ∀ digits ∈ port, ∀ c ∈ digits, isHostChar c = true)
    {path : List Char} (hpath : path = [] ∨ ∃ rest, path = '/' :: rest) {input : String}
    (hinput : input.toList = scheme ++ "://".toList ++ host ++ portText port ++ path) :
    U.parse input = do
      let port ← portState (defaultPort scheme) (port.getD [])
      let host ← U.parseHost host
      return { scheme, host, port } := by
  have hshown : ∀ c ∈ scheme ++ "://".toList ++ host ++ portText port, isC0OrSpace c = false := by
    intro c hc
    simp only [List.mem_append] at hc
    rcases hc with ((hc | hc) | hc) | hc
    · have hletters : ∀ c ∈ "http".toList ++ "https".toList, isC0OrSpace c = false := by
        simp [isC0OrSpace]
      rcases hscheme with rfl | rfl
      · exact hletters c (List.mem_append_left _ hc)
      · exact hletters c (List.mem_append_right _ hc)
    · have hseparator : ∀ c ∈ "://".toList, isC0OrSpace c = false := by simp [isC0OrSpace]
      exact hseparator c hc
    · exact (hhost.shown hc).1
    · cases port with
      | none => cases hc
      | some digits =>
          rcases List.mem_cons.mp hc with rfl | hc
          · decide
          · exact (isHostChar_iff.mp (hport digits rfl c hc)).1
  have hne : scheme ++ "://".toList ++ host ++ portText port ≠ [] := by simp
  obtain ⟨tail, htail, hcleaned⟩ : ∃ tail, (tail = [] ∨ ∃ path, tail = '/' :: path) ∧
      cleaned input.toList = scheme ++ "://".toList ++ host ++ portText port ++ tail := by
    rw [hinput]
    rcases hpath with rfl | ⟨rest, rfl⟩
    · exact ⟨[], .inl rfl, cleaned_append hne hshown⟩
    · obtain ⟨path, hpath⟩ := cleaned_append_slash rest hne hshown
      exact ⟨'/' :: path, .inr ⟨path, rfl⟩, hpath⟩
  have hsplit : scheme ++ "://".toList ++ host ++ portText port ++ tail =
      scheme ++ ':' :: ("//".toList ++ (host ++ portText port) ++ tail) := by
    simp
  rw [parse, hcleaned, hsplit, schemeStartState_append hscheme,
    Option.bind_eq_bind, Option.bind_some]
  exact (if_pos hscheme).trans (parseAuthority_append U hhost hport htail)

end Parse

end VorCommander.Text
