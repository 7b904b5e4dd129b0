import Mathlib.Tactic.Common

/-!
# Order statuses and the transition table

Every status change of an order goes through `assertTransition`; the table is
the only place that knows which changes exist.
-/

set_option autoImplicit false

namespace Commerce.Orders

/-- The values of the `order_status` enum, in declaration order. -/
inductive OrderStatus where
  | draft
  | reserving
  | pending
  | confirming
  | paid
  | failed
  | expired
  | cancelled
  | rejected
  deriving DecidableEq, Repr, Inhabited

namespace OrderStatus

def label : OrderStatus → String
  | draft => "DRAFT"
  | reserving => "RESERVING"
  | pending => "PENDING"
  | confirming => "CONFIRMING"
  | paid => "PAID"
  | failed => "FAILED"
  | expired => "EXPIRED"
  | cancelled => "CANCELLED"
  | rejected => "REJECTED"

end OrderStatus

/-- What a saga write answers. `already`: the order is in the target status and nothing was
written. `stale`: it is somewhere else. -/
inductive SagaWriteResult where
  | applied
  | already
  | stale
  deriving DecidableEq, Repr, Inhabited

structure Transition where
  source : OrderStatus
  target : OrderStatus
  wired : Bool
  deriving DecidableEq, Repr

/-- The edges of the source's `TRANSITIONS`, each with its `wired` flag. -/
def transitions : List Transition :=
  [ ⟨.draft, .cancelled, true⟩,
    ⟨.pending, .expired, true⟩,
    ⟨.pending, .cancelled, true⟩,
    ⟨.draft, .reserving, true⟩,
    ⟨.reserving, .pending, true⟩,
    ⟨.reserving, .rejected, true⟩,
    ⟨.pending, .confirming, true⟩,
    ⟨.confirming, .paid, true⟩,
    ⟨.confirming, .failed, true⟩ ]

def terminalStatuses : List OrderStatus :=
  [.paid, .failed, .expired, .cancelled, .rejected]

def canTransition (source target : OrderStatus) : Bool :=
  transitions.any fun t => t.source == source && t.target == target && t.wired

def isTerminal (status : OrderStatus) : Bool :=
  terminalStatuses.contains status

def transitionErrorMessage (source target : OrderStatus) : String :=
  "Illegal order transition: " ++ source.label ++ " -> " ++ target.label

def assertTransition (source target : OrderStatus) : Except String Unit :=
  if canTransition source target then .ok ()
  else .error (transitionErrorMessage source target)

@[simp] theorem assertTransition_bind {α : Type} (source target : OrderStatus)
    (next : Unit → Except String α) (result : α) :
    (assertTransition source target >>= next) = .ok result ↔
      canTransition source target = true ∧ next () = .ok result := by
  unfold assertTransition
  split <;> rename_i wired <;> simp [wired, bind, Except.bind]

theorem canTransition_of_terminal (source target : OrderStatus)
    (terminal : isTerminal source = true) : canTransition source target = false := by
  cases source <;> cases target <;> first | rfl | cases terminal

theorem canTransition_irrefl (status : OrderStatus) : canTransition status status = false := by
  cases status <;> rfl

end Commerce.Orders
