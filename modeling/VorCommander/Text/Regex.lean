import Mathlib.Computability.Language
import Mathlib.Tactic.Common

/-!
Regular expressions, as far as translated path patterns use them: sequences of single
characters, of repeated characters and of optional groups. An expression is a text, and
what it matches is a language.
-/

namespace VorCommander.Text

open Computability

/-- What one character of a text is compared with. -/
inductive RegexChar
  | literal (c : Char)
  | any
  | slash
  | notSlash

namespace RegexChar

/-- The dot accepts no line feed. -/
def accepts : RegexChar → Char → Bool
  | literal d, c => c = d
  | any, c => c ≠ '\n'
  | slash, c => c = '/'
  | notSlash, c => c ≠ '/'

def text (escape : String → String) : RegexChar → String
  | literal c => escape (String.singleton c)
  | any => "."
  | slash => "/"
  | notSlash => "[^/]"

/-- The texts of one accepted character. -/
def language (a : RegexChar) : Language Char := {w | ∃ c, a.accepts c = true ∧ w = [c]}

end RegexChar

/-- An expression, by what it begins with. -/
inductive Regex
  | nil
  | one (a : RegexChar) (rest : Regex)
  | many (a : RegexChar) (rest : Regex)
  | maybe (group rest : Regex)

namespace Regex

def text (escape : String → String) : Regex → String
  | nil => ""
  | one a rest => a.text escape ++ rest.text escape
  | many a rest => a.text escape ++ "*" ++ rest.text escape
  | maybe group rest => "(?:" ++ group.text escape ++ ")?" ++ rest.text escape

def language : Regex → Language Char
  | nil => 1
  | one a rest => a.language * rest.language
  | many a rest => a.language∗ * rest.language
  | maybe group rest => (1 + group.language) * rest.language

variable {a : RegexChar} {group rest : Regex} {w : List Char}

theorem mem_nil : w ∈ nil.language ↔ w = [] := Language.mem_one w

theorem mem_one : w ∈ (one a rest).language ↔
    ∃ c v, a.accepts c = true ∧ v ∈ rest.language ∧ w = c :: v := by
  rw [language, Language.mem_mul]
  constructor
  · rintro ⟨_, ⟨c, hc, rfl⟩, v, hv, rfl⟩
    exact ⟨c, v, hc, hv, rfl⟩
  · rintro ⟨c, v, hc, hv, rfl⟩
    exact ⟨[c], ⟨c, hc, rfl⟩, v, hv, rfl⟩

/-- The repetitions of a character are the texts of accepted characters. -/
theorem mem_kstar_language : w ∈ a.language∗ ↔ ∀ c ∈ w, a.accepts c = true := by
  rw [Language.mem_kstar]
  constructor
  · rintro ⟨parts, rfl, hparts⟩ c hc
    obtain ⟨part, hpart, hmem⟩ := List.mem_flatten.mp hc
    obtain ⟨d, hd, rfl⟩ := hparts part hpart
    rwa [List.mem_singleton.mp hmem]
  · intro h
    refine ⟨w.map fun c => [c], ?_, ?_⟩
    · rw [← List.flatMap_def, List.flatMap_singleton']
    · intro part hpart
      obtain ⟨c, hc, rfl⟩ := List.mem_map.mp hpart
      exact ⟨c, h c hc, rfl⟩

theorem mem_many : w ∈ (many a rest).language ↔
    ∃ u v, (∀ c ∈ u, a.accepts c = true) ∧ v ∈ rest.language ∧ w = u ++ v := by
  rw [language, Language.mem_mul]
  constructor
  · rintro ⟨u, hu, v, hv, rfl⟩
    exact ⟨u, v, mem_kstar_language.mp hu, hv, rfl⟩
  · rintro ⟨u, v, hu, hv, rfl⟩
    exact ⟨u, mem_kstar_language.mpr hu, v, hv, rfl⟩

theorem mem_maybe : w ∈ (maybe group rest).language ↔
    ∃ u v, (u = [] ∨ u ∈ group.language) ∧ v ∈ rest.language ∧ w = u ++ v := by
  rw [language, Language.mem_mul]
  constructor
  · rintro ⟨u, hu, v, hv, rfl⟩
    exact ⟨u, v, hu, hv, rfl⟩
  · rintro ⟨u, v, hu, hv, rfl⟩
    exact ⟨u, hu, v, hv, rfl⟩

end Regex

/-- A library of regular expressions. -/
structure RegexCrate where
  Compiled : Type
  new : String → Option Compiled
  isMatch : Compiled → String → Bool
  escape : String → String

/-- The library does what it documents: an expression that it compiles between anchors
matches the texts of its language, where an escaped character stands for itself. -/
def RegexCrate.Documented (crate : RegexCrate) : Prop :=
  ∀ (e : Regex) (compiled : crate.Compiled),
    crate.new ("^" ++ e.text crate.escape ++ "$") = some compiled →
      ∀ text, crate.isMatch compiled text = true ↔ text.toList ∈ e.language

end VorCommander.Text
