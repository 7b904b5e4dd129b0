import Mathlib.Tactic.Common

/-!
# The reservation fence

Every participant command locks the order's header first, and the header alone
decides what the command may do.
-/

set_option autoImplicit false

namespace Commerce.Inventory

inductive ReservationOrderStatus where
  | held
  | committed
  | released
  | fenced
  | restocked
  deriving DecidableEq, Repr, Inhabited

inductive ReservationFenceOp where
  | tryReserve
  | commit
  | release
  | restock
  deriving DecidableEq, Repr, Inhabited

inductive ReservationFenceDecision where
  | apply (next : ReservationOrderStatus)
  | idempotent
  | conflict
  deriving DecidableEq, Repr

/-- What a command may do given the order's header (`none`: no header yet).  A release
without a header writes `fenced`, and a Try arriving after that is refused. -/
def decideReservationFence (op : ReservationFenceOp) (current : Option ReservationOrderStatus) :
    ReservationFenceDecision :=
  match op with
  | .tryReserve =>
      match current with
      | none => .apply .held
      | some .held => .idempotent
      | some _ => .conflict
  | .commit =>
      match current with
      | some .held => .apply .committed
      | some .committed => .idempotent
      | _ => .conflict
  | .release =>
      match current with
      | none => .apply .fenced
      | some .held => .apply .released
      | some .released | some .fenced => .idempotent
      | some _ => .conflict
  | .restock =>
      match current with
      | some .committed => .apply .restocked
      | some .restocked => .idempotent
      | _ => .conflict

end Commerce.Inventory
