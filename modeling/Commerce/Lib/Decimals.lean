import Mathlib.Algebra.Ring.Nat
import Mathlib.Data.List.Induction
import Mathlib.Tactic.Common

/-!
# Decimal spellings

Numbers that travel as decimal strings are told apart by them.
-/

set_option autoImplicit false

namespace Decimals

theorem toString_inj (first second : Nat) (same : toString first = toString second) :
    first = second := by
  have digits : Nat.toDigits 10 first = Nat.toDigits 10 second := by
    have spelled := congrArg String.toList same
    simpa [Nat.toString_eq_ofList_toDigits] using spelled
  have values := congrArg (Nat.ofDigitChars 10 · 0) digits
  simpa [Nat.ofDigitChars_ten_toDigits] using values

theorem isDigit_toString (number : Nat) (digit : Char)
    (member : digit ∈ (toString number).toList) : digit.isDigit = true := by
  have listed : digit ∈ Nat.toDigits 10 number := by
    simpa [Nat.toString_eq_ofList_toDigits] using member
  exact Nat.isDigit_of_mem_toDigits (by decide) (by decide) listed

/-- A number is read off the front of a text that goes on with something other than a digit. -/
theorem toString_append_inj (first second : Nat) (stop : Char) (rest tail : List Char)
    (notDigit : stop.isDigit = false)
    (same : (toString first).toList ++ stop :: rest = (toString second).toList ++ stop :: tail) :
    first = second := by
  have front (number : Nat) (rest : List Char) :
      ((toString number).toList ++ stop :: rest).takeWhile Char.isDigit =
        (toString number).toList := by
    rw [List.takeWhile_append_of_pos (isDigit_toString number), List.takeWhile_cons, notDigit]
    exact List.append_nil _
  have spelled := congrArg (List.takeWhile Char.isDigit) same
  rw [front, front] at spelled
  exact toString_inj first second (String.toList_inj.mp spelled)

/-! ## Canonical spellings -/

/-- Digits without a leading zero, and at least one of them. -/
structure Canonical (text : List Char) : Prop where
  digits : ∀ digit ∈ text, digit.isDigit = true
  leading : ∃ first rest, text = first :: rest ∧ first ≠ '0'

def value (text : List Char) : Nat := Nat.ofDigitChars 10 text 0

theorem value_append_one (text : List Char) (digit : Char) :
    value (text ++ [digit]) = 10 * value text + (digit.toNat - 48) := by
  simp [value, Nat.ofDigitChars_append, Nat.ofDigitChars_cons]

@[simp] theorem value_toString (number : Nat) : value (toString number).toList = number := by
  simp [value, Nat.ofDigitChars_ten_toDigits]

theorem isDigit_iff (digit : Char) :
    digit.isDigit = true ↔ 48 ≤ digit.toNat ∧ digit.toNat < 58 := by
  simp only [Char.isDigit, Bool.and_eq_true, decide_eq_true_eq, UInt32.le_iff_toNat_le]
  change 48 ≤ digit.toNat ∧ digit.toNat ≤ 57 ↔ _
  omega

theorem digitChar_of_isDigit (digit : Char) (decimal : digit.isDigit = true) :
    (digit.toNat - 48).digitChar = digit := by
  obtain ⟨least, greatest⟩ := (isDigit_iff digit).mp decimal
  apply Char.toNat_inj.mp
  rw [Nat.toNat_digitChar_of_lt_ten (by omega)]
  omega

theorem canonical_front (text : List Char) (digit : Char) (nonempty : text ≠ [])
    (canonical : Canonical (text ++ [digit])) : Canonical text where
  digits := by
    intro other member
    exact canonical.digits other (List.mem_append_left _ member)
  leading := by
    obtain ⟨first, rest, spelled, nonzero⟩ := canonical.leading
    cases text with
    | nil => exact absurd rfl nonempty
    | cons head tail =>
        obtain ⟨same, -⟩ := List.cons.inj spelled
        subst same
        exact ⟨head, tail, rfl, nonzero⟩

theorem canonical_single (digit : Char) (canonical : Canonical [digit]) :
    0 < digit.toNat - 48 ∧ digit.toNat - 48 < 10 := by
  obtain ⟨first, rest, spelled, nonzero⟩ := canonical.leading
  obtain ⟨rfl, -⟩ := List.cons.inj spelled
  obtain ⟨least, greatest⟩ := (isDigit_iff digit).mp (canonical.digits digit (by simp))
  constructor
  · by_contra small
    apply nonzero
    apply Char.toNat_inj.mp
    change digit.toNat = 48
    omega
  · omega

theorem value_pos (text : List Char) (canonical : Canonical text) : 0 < value text := by
  induction text using List.reverseRecOn with
  | nil =>
      obtain ⟨first, rest, spelled, -⟩ := canonical.leading
      cases spelled
  | append_singleton text digit ih =>
      rw [value_append_one]
      by_cases alone : text = []
      · subst alone
        have positive := (canonical_single digit canonical).1
        omega
      · have positive := ih (canonical_front text digit alone canonical)
        omega

/-- A canonical text is the spelling of its value. -/
theorem toDigits_value (text : List Char) (canonical : Canonical text) :
    Nat.toDigits 10 (value text) = text := by
  induction text using List.reverseRecOn with
  | nil =>
      obtain ⟨first, rest, spelled, -⟩ := canonical.leading
      cases spelled
  | append_singleton text digit ih =>
      have decimal : digit.isDigit = true := canonical.digits digit (by simp)
      obtain ⟨least, greatest⟩ := (isDigit_iff digit).mp decimal
      have last : Nat.toDigits 10 (digit.toNat - 48) = [digit] := by
        rw [Nat.toDigits_of_lt_base (by omega), digitChar_of_isDigit digit decimal]
      rw [value_append_one]
      by_cases alone : text = []
      · subst alone
        simpa [value] using last
      · have front := canonical_front text digit alone canonical
        rw [← Nat.toDigits_append_toDigits (by decide) (value_pos text front) (by omega), ih front,
          last]

theorem toString_value (text : String) (canonical : Canonical text.toList) :
    toString (value text.toList) = text := by
  apply String.toList_inj.mp
  rw [Nat.toString_eq_ofList_toDigits, toDigits_value text.toList canonical]
  simp

theorem canonical_toDigits (number : Nat) (positive : 0 < number) :
    Canonical (Nat.toDigits 10 number) := by
  constructor
  · intro digit member
    exact Nat.isDigit_of_mem_toDigits (by decide) (by decide) member
  · induction number using Nat.strongRecOn with
    | ind number ih =>
        rw [Nat.toDigits_eq_if (by decide)]
        split
        · refine ⟨number.digitChar, [], rfl, ?_⟩
          intro zero
          have value := Nat.digitChar_eq_zero.mp zero
          omega
        · obtain ⟨first, rest, spelled, nonzero⟩ := ih (number / 10) (by omega) (by omega)
          exact ⟨first, rest ++ [(number % 10).digitChar], by simp [spelled], nonzero⟩

theorem canonical_toString (number : Nat) (positive : 0 < number) :
    Canonical (toString number).toList := by
  simpa [Nat.toString_eq_ofList_toDigits] using canonical_toDigits number positive

theorem length_toString (number count : Nat) (positive : 0 < count) :
    (toString number).toList.length ≤ count ↔ number < 10 ^ count := by
  rw [Nat.toString_eq_ofList_toDigits, String.toList_ofList]
  exact Nat.length_toDigits_le_iff (by decide) positive

end Decimals
