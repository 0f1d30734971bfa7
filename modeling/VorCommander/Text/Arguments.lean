import VorCommander.Text.Strings

/-!
Command lines of Windows, as the C runtime reads them.

Blanks between quotes belong to an argument. Backslashes are what they are unless a
quote follows them: each pair then stands for one, and a single one that is left over
makes the quote a character. The name of the program is read by a simpler rule, in
which backslashes mean nothing.
-/

namespace VorCommander.Text

/-- What separates arguments. -/
def isArgumentBlank (c : Char) : Bool := c = ' ' || c = '\t'

/-- An argument that is being read, with the backslashes that may belong to a quote. -/
structure Scan where
  quoted : Bool := false
  backslashes : ℕ := 0
  text : List Char := []

namespace Scan

/-- The argument, if nothing follows. -/
def close (s : Scan) : List Char := s.text ++ List.replicate s.backslashes '\\'

/-- One more character. -/
def push (s : Scan) (c : Char) : Scan :=
  if c = '\\' then { s with backslashes := s.backslashes + 1 }
  else if c = '"' then
    if s.backslashes % 2 = 0 then
      { quoted := !s.quoted
        text := s.text ++ List.replicate (s.backslashes / 2) '\\' }
    else
      { quoted := s.quoted
        text := s.text ++ List.replicate (s.backslashes / 2) '\\' ++ ['"'] }
  else { quoted := s.quoted, text := s.close ++ [c] }

end Scan

/-- The arguments of a text, from between two of them or within one. -/
def splitFromScan : Option Scan → List Char → List (List Char)
  | none, [] => []
  | some s, [] => [s.close]
  | none, c :: rest =>
      if isArgumentBlank c then splitFromScan none rest
      else splitFromScan (some (Scan.push {} c)) rest
  | some s, c :: rest =>
      if isArgumentBlank c && !s.quoted then s.close :: splitFromScan none rest
      else splitFromScan (some (s.push c)) rest

/-- The arguments of a text. -/
def splitArguments (text : List Char) : List (List Char) := splitFromScan none text

/-- The name of the program and the arguments of a command line. -/
def splitCommandLine : List Char → List Char × List (List Char)
  | '"' :: rest =>
      (rest.takeWhile (· ≠ '"'), splitArguments ((rest.dropWhile (· ≠ '"')).drop 1))
  | text =>
      (text.takeWhile fun c => !isArgumentBlank c,
        splitArguments (text.dropWhile fun c => !isArgumentBlank c))

/-! ### Reading on -/

section

variable {s : Scan} {c : Char} {cs rest : List Char}

/-- A character that does not end the argument. -/
theorem splitFromScan_push (h : isArgumentBlank c = false ∨ s.quoted = true) :
    splitFromScan (some s) (c :: rest) = splitFromScan (some (s.push c)) rest := by
  rw [splitFromScan, if_neg]
  rcases h with h | h <;> simp [h]

/-- An argument begins where no blank is. -/
theorem splitFromScan_none (h : isArgumentBlank c = false) :
    splitFromScan none (c :: rest) = splitFromScan (some {}) (c :: rest) := by
  rw [splitFromScan_push (.inl h), splitFromScan, if_neg (by simp [h])]

theorem splitFromScan_blank (hc : isArgumentBlank c = true) (h : s.quoted = false) :
    splitFromScan (some s) (c :: rest) = s.close :: splitFromScan none rest := by
  rw [splitFromScan, if_pos (by simp [hc, h])]

theorem splitFromScan_replicate (n : ℕ) :
    splitFromScan (some s) (List.replicate n '\\' ++ rest) =
      splitFromScan (some { s with backslashes := s.backslashes + n }) rest := by
  induction n generalizing s with
  | zero => rfl
  | succ n ih =>
      rw [List.replicate_succ, List.cons_append, splitFromScan_push (.inl (by decide)), ih]
      simp only [Scan.push, if_true]
      rw [Nat.add_assoc, Nat.add_comm 1]

/-- Text without blanks and quotes is taken as it is. -/
theorem splitFromScan_plain (hs : s.quoted = false)
    (hcs : ∀ c ∈ cs, isArgumentBlank c = false ∧ c ≠ '"') (rest : List Char) :
    ∃ s' : Scan, s'.quoted = false ∧ s'.close = s.close ++ cs ∧
      splitFromScan (some s) (cs ++ rest) = splitFromScan (some s') rest := by
  induction cs generalizing s with
  | nil => exact ⟨s, hs, (List.append_nil _).symm, rfl⟩
  | cons c cs ih =>
      obtain ⟨hblank, hquote⟩ := hcs c List.mem_cons_self
      have hpush : (s.push c).quoted = false ∧ (s.push c).close = s.close ++ [c] := by
        rw [Scan.push]
        split
        case isTrue hc =>
            subst hc
            refine ⟨hs, ?_⟩
            rw [Scan.close, Scan.close, List.replicate_succ', List.append_assoc]
        case isFalse => exact ⟨hs, by simp [Scan.close]⟩
      obtain ⟨s', hs', hclose, hsplit⟩ :=
        ih hpush.1 fun c hc => hcs c (List.mem_cons_of_mem _ hc)
      refine ⟨s', hs', ?_, ?_⟩
      · rw [hclose, hpush.2, List.append_assoc, List.singleton_append]
      · rw [List.cons_append, splitFromScan_push (.inl hblank), hsplit]

end

/-- Arguments with one blank after each but the last, where each is read back from
what is written for it. -/
theorem splitArguments_intercalate {α : Type} {write read : α → List Char} {args : List α}
    (h : ∀ arg ∈ args, (∃ c cs, write arg = c :: cs ∧ isArgumentBlank c = false) ∧
      ∀ rest, ∃ s : Scan, s.quoted = false ∧ s.close = read arg ∧
        splitFromScan (some {}) (write arg ++ rest) = splitFromScan (some s) rest) :
    splitArguments ([' '].intercalate (args.map write)) = args.map read := by
  induction args with
  | nil => rfl
  | cons arg args ih =>
      obtain ⟨⟨c, cs, hwrite, hblank⟩, hread⟩ := h arg List.mem_cons_self
      have hrest := ih fun arg harg => h arg (List.mem_cons_of_mem _ harg)
      have hbegin : ∀ rest, splitArguments (write arg ++ rest) =
          splitFromScan (some {}) (write arg ++ rest) := by
        intro rest
        rw [hwrite, List.cons_append, splitArguments, splitFromScan_none hblank]
      cases args with
      | nil =>
          obtain ⟨s, hquoted, hclose, hsplit⟩ := hread []
          rw [List.append_nil] at hsplit
          have hwhole := hbegin []
          rw [List.append_nil] at hwhole
          rw [List.map_singleton, List.map_singleton, List.intercalate_singleton, hwhole, hsplit,
            splitFromScan, hclose]
      | cons next args =>
          obtain ⟨s, hquoted, hclose, hsplit⟩ :=
            hread (' ' :: [' '].intercalate ((next :: args).map write))
          rw [List.map_cons, List.map_cons, List.map_cons, List.intercalate_cons_cons,
            List.append_assoc, List.singleton_append, hbegin, ← List.map_cons, hsplit,
            splitFromScan_blank (by decide) hquoted, hclose]
          exact congrArg (read arg :: ·) hrest

/-! ### The name of the program -/

theorem takeWhile_append_head {p : Char → Bool} {cs tail : List Char} (hcs : ∀ c ∈ cs, p c = true)
    (htail : ∀ c ∈ tail.head?, p c = false) :
    (cs ++ tail).takeWhile p = cs ∧ (cs ++ tail).dropWhile p = tail := by
  rw [List.takeWhile_append_of_pos hcs, List.dropWhile_append_of_pos hcs]
  cases tail with
  | nil => exact ⟨List.append_nil cs, rfl⟩
  | cons c tail =>
      have hc : p c = false := htail c rfl
      simp [hc]

/-- A quoted name ends at the next quote. -/
theorem splitCommandLine_quoted {cs : List Char} (hquote : '"' ∉ cs) (tail : List Char) :
    splitCommandLine ('"' :: (cs ++ '"' :: tail)) = (cs, splitArguments tail) := by
  have hcs : ∀ c ∈ cs, decide (c ≠ '"') = true := by
    intro c hc
    exact decide_eq_true fun heq => hquote (heq ▸ hc)
  have hnext : ∀ c ∈ ('"' :: tail).head?, decide (c ≠ '"') = false := by simp
  obtain ⟨htake, hdrop⟩ := takeWhile_append_head hcs hnext
  rw [splitCommandLine, htake, hdrop]
  rfl

/-- A name without quotes ends at the first blank. -/
theorem splitCommandLine_plain {cs tail : List Char} (hne : cs ≠ [])
    (hcs : ∀ c ∈ cs, isArgumentBlank c = false ∧ c ≠ '"')
    (htail : ∀ c ∈ tail.head?, isArgumentBlank c = true) :
    splitCommandLine (cs ++ tail) = (cs, splitArguments tail) := by
  obtain ⟨c, cs, rfl⟩ := List.exists_cons_of_ne_nil hne
  obtain ⟨htake, hdrop⟩ := takeWhile_append_head (p := fun c => !isArgumentBlank c)
    (fun c hc => by simp [(hcs c hc).1]) fun c hc => by simp [htail c hc]
  rw [List.cons_append] at htake hdrop ⊢
  rw [splitCommandLine, htake, hdrop]
  exact fun rest heq => (hcs c List.mem_cons_self).2 (List.cons.inj heq).1

end VorCommander.Text
