import Mathlib.Tactic.Common

/-!
# Computations that can throw

The success cases of a chain of throwing computations, peeled off one at a time.
-/

set_option autoImplicit false

namespace Results

universe u

variable {ε α β : Type u}

theorem bind_eq_ok (first : Except ε α) (next : α → Except ε β) (result : β) :
    (first >>= next) = .ok result ↔ ∃ value, first = .ok value ∧ next value = .ok result := by
  cases first with
  | error _ => simp [bind, Except.bind]
  | ok value => simp [bind, Except.bind]

theorem mapError_eq_ok {first : Except ε α} {rename : ε → β} {value : α} :
    first.mapError rename = .ok value ↔ first = .ok value := by
  cases first <;> simp [Except.mapError]

end Results
