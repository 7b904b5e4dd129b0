import Mathlib.Data.List.Infix
import Mathlib.Tactic.Common

/-!
# LIKE patterns

The patterns of SQL's `LIKE` over any alphabet: a wildcard for one character,
one for any number, and an escape that makes the next character stand for
itself.  A pattern that ends in the escape is refused.  An escaped text between
two wildcards is a pattern for the texts that contain it.
-/

set_option autoImplicit false

namespace LikePatterns

universe u

/-- The characters with a meaning, all different. -/
structure Alphabet (α : Type u) where
  many : α
  one : α
  escape : α
  apart : many ≠ one ∧ many ≠ escape ∧ one ≠ escape

inductive Token (α : Type u) where
  | literal (char : α)
  | one
  | many

variable {α : Type u} [DecidableEq α] (alphabet : Alphabet α)

namespace Alphabet

def special (char : α) : Bool :=
  char = alphabet.many || char = alphabet.one || char = alphabet.escape

/-- The tokens behind an escape or not.  `none`: the pattern ends in the escape character. -/
def parse (pending : Bool) : List α → Option (List (Token α))
  | [] => if pending then none else some []
  | char :: rest =>
      if pending then (parse false rest).map (.literal char :: ·)
      else if char = alphabet.escape then parse true rest
      else if char = alphabet.many then (parse false rest).map (.many :: ·)
      else if char = alphabet.one then (parse false rest).map (.one :: ·)
      else (parse false rest).map (.literal char :: ·)

def escaped (text : List α) : List α :=
  text.flatMap fun char => if alphabet.special char then [alphabet.escape, char] else [char]

end Alphabet

def fits : List (Token α) → List α → Bool
  | [], text => text.isEmpty
  | .literal char :: rest, text =>
      match text with
      | [] => false
      | first :: more => char = first && fits rest more
  | .one :: rest, text =>
      match text with
      | [] => false
      | _ :: more => fits rest more
  | .many :: rest, text => text.tails.any (fits rest)

theorem parse_escaped (text rest : List α) :
    alphabet.parse false (alphabet.escaped text ++ rest) =
      (alphabet.parse false rest).map (text.map Token.literal ++ ·) := by
  induction text with
  | nil => simp [Alphabet.escaped]
  | cons char text ih =>
      rw [Alphabet.escaped, List.flatMap_cons, List.append_assoc, ← Alphabet.escaped]
      cases meaning : alphabet.special char with
      | true =>
          have literal : alphabet.parse false
              (alphabet.escape :: char :: (alphabet.escaped text ++ rest)) =
                (alphabet.parse false (alphabet.escaped text ++ rest)).map
                  (.literal char :: ·) := by
            simp [Alphabet.parse]
          rw [if_pos rfl, List.cons_append, List.cons_append, List.nil_append, literal, ih,
            Option.map_map]
          rfl
      | false =>
          simp only [Alphabet.special, Bool.or_eq_false_iff, decide_eq_false_iff_not] at meaning
          obtain ⟨⟨notMany, notOne⟩, notEscape⟩ := meaning
          have literal : alphabet.parse false (char :: (alphabet.escaped text ++ rest)) =
              (alphabet.parse false (alphabet.escaped text ++ rest)).map (.literal char :: ·) := by
            simp [Alphabet.parse, notMany, notOne, notEscape]
          rw [if_neg Bool.false_ne_true, List.cons_append, List.nil_append, literal, ih,
            Option.map_map]
          rfl

/-- Literals describe the texts they begin. -/
theorem fits_literals (literals : List α) (rest : List (Token α)) (text : List α) :
    fits (literals.map Token.literal ++ rest) text = true ↔
      ∃ more, text = literals ++ more ∧ fits rest more = true := by
  induction literals generalizing text with
  | nil => simp
  | cons char literals ih =>
      rw [List.map_cons, List.cons_append]
      cases text with
      | nil => simp [fits]
      | cons first more =>
          simp only [fits, Bool.and_eq_true, decide_eq_true_eq, ih, List.cons_append,
            List.cons.injEq]
          constructor
          · rintro ⟨rfl, behind, rfl, fitting⟩
            exact ⟨behind, ⟨rfl, rfl⟩, fitting⟩
          · rintro ⟨behind, ⟨rfl, rfl⟩, fitting⟩
            exact ⟨rfl, behind, rfl, fitting⟩

theorem fits_many (rest : List (Token α)) (text : List α) :
    fits (.many :: rest) text = true ↔
      ∃ before more, text = before ++ more ∧ fits rest more = true := by
  simp only [fits, List.any_eq_true, List.mem_tails, List.IsSuffix]
  constructor
  · rintro ⟨more, ⟨before, rfl⟩, fitting⟩
    exact ⟨before, more, rfl, fitting⟩
  · rintro ⟨before, more, rfl, fitting⟩
    exact ⟨more, ⟨before, rfl⟩, fitting⟩

/-- An escaped text between two wildcards describes the texts that contain it. -/
theorem fits_contains (query : List α) :
    ∃ tokens, alphabet.parse false (alphabet.many :: alphabet.escaped query ++ [alphabet.many]) =
        some tokens ∧ ∀ text, fits tokens text = decide (query <:+: text) := by
  obtain ⟨-, manyEscape, -⟩ := alphabet.apart
  have last : alphabet.parse false [alphabet.many] = some [.many] := by
    simp [Alphabet.parse, manyEscape]
  refine ⟨.many :: (query.map Token.literal ++ [.many]), ?_, fun text => ?_⟩
  · rw [List.cons_append, Alphabet.parse, if_neg Bool.false_ne_true, if_neg manyEscape, if_pos rfl,
      parse_escaped, last]
    rfl
  · refine Bool.eq_iff_iff.mpr ?_
    rw [fits_many, decide_eq_true_eq]
    constructor
    · rintro ⟨before, behind, rfl, fitting⟩
      obtain ⟨more, rfl, -⟩ := (fits_literals _ _ _).mp fitting
      exact ⟨before, more, List.append_assoc _ _ _⟩
    · rintro ⟨before, more, rfl⟩
      refine ⟨before, query ++ more, List.append_assoc _ _ _, (fits_literals _ _ _).mpr ?_⟩
      exact ⟨more, rfl, (fits_many _ _).mpr ⟨more, [], (List.append_nil _).symm, rfl⟩⟩

/-- A change of letters that leaves the characters with a meaning alone. -/
structure Fold where
  apply : α → α
  keeps : ∀ char, alphabet.special char = true → apply char = char
  avoids : ∀ char, alphabet.special (apply char) = true → alphabet.special char = true

theorem escaped_map (fold : Fold alphabet) (text : List α) :
    (alphabet.escaped text).map fold.apply = alphabet.escaped (text.map fold.apply) := by
  have escape : alphabet.special alphabet.escape = true := by simp [Alphabet.special]
  rw [Alphabet.escaped, Alphabet.escaped, List.map_flatMap, List.flatMap_map]
  refine congrArg (List.flatMap · text) (funext fun char => ?_)
  cases meaning : alphabet.special char with
  | true => simp [fold.keeps char meaning, meaning, fold.keeps _ escape]
  | false =>
      cases after : alphabet.special (fold.apply char) with
      | true => exact absurd ((fold.avoids char after).symm.trans meaning) Bool.noConfusion
      | false => simp

end LikePatterns
