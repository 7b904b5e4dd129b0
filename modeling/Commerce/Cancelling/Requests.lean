import Commerce.Checkout.Charge
import Commerce.Composition.Cancellations
import Commerce.Trying.Row

/-!
# Cancel requests

Any number of requests cancel one order.  Each reads the row, sends the saga its cancel and
answers by what the engine says and by the row as it reads then.  All cancels of an order
carry one update id, so the run has one cancel update and later requests join it.
-/

set_option autoImplicit false

namespace Commerce.Cancelling

open Commerce.Orders (Call Db Order OrderView SagaWriteResult toView)
open Commerce.Saga (CancelBy OrderChangeCommand ReserveOutcome)

/-! ## The use case -/

inductive Caller where
  | cancelOwn (userId : Nat)
  | cancelAsAdmin
  deriving DecidableEq, Repr

def Caller.requester : Caller → CancelBy
  | .cancelOwn _ => .buyer
  | .cancelAsAdmin => .admin

def Caller.read (db : Db) (orderId : Nat) : Caller → Except String (Option Order)
  | .cancelOwn userId => Checkout.findForUser db orderId userId
  | .cancelAsAdmin => Orders.findById db orderId

inductive EngineAnswer where
  /-- The run's update has finished. -/
  | finished
  /-- The update of a late-authorization run that read the order as `CANCELLED` has finished. -/
  | finishedLate
  /-- `CheckoutCancelRejectedError` -/
  | rejected
  /-- `CheckoutSagaClosedError` -/
  | closed
  /-- `CheckoutEngineUnavailableError` -/
  | unavailable
  | fault (message : String)
  deriving DecidableEq, Repr

inductive Answer where
  | view (view : OrderView)
  | notFound (message : String)
  | conflict (message : String)
  | unavailable (message : String)
  | failed (message : String)
  deriving DecidableEq, Repr

/-- Where a request stands; an answer keeps what the engine said, if it was asked. -/
inductive Stage where
  | sent
  | rereading (engine : EngineAnswer)
  | answered (engine : Option EngineAnswer) (answer : Answer)
  deriving DecidableEq, Repr

def answerOf (order : Order) : Answer :=
  match toView order with
  | .ok view => .view view
  | .error message => .failed message

/-- `cancel` up to its call of the engine, on the order it was given. -/
def cancel (orderId : Nat) : Except String (Option Order) → Stage
  | .error message => .answered none (.failed message)
  | .ok none => .answered none (.notFound ("Order not found: " ++ toString orderId))
  | .ok (some order) =>
      if order.status = .cancelled then .answered none (answerOf order)
      else if order.status ≠ .pending then
        .answered none (.conflict ("Order cannot be cancelled in status " ++ order.status.label))
      else .sent

/-- `cancel` from the engine's answer to its next read. -/
def afterEngine : EngineAnswer → Stage
  | .rejected =>
      .answered (some .rejected)
        (.conflict "Order cannot be cancelled while its payment is being taken")
  | .fault message => .answered (some (.fault message)) (.failed message)
  | engine => .rereading engine

def otherwise (orderId : Nat) (order : Order) : EngineAnswer → Answer
  | .closed => .conflict ("Order cannot be cancelled in status " ++ order.status.label)
  | .unavailable =>
      .unavailable ("Checkout for order " ++ toString orderId ++ " unavailable: cancel unconfirmed")
  | _ => answerOf order

def reread (orderId : Nat) (engine : EngineAnswer) : Except String (Option Order) → Answer
  | .error message => .failed message
  | .ok none => .failed ("Order " ++ toString orderId ++ " vanished during its cancel")
  | .ok (some order) =>
      if order.status ≠ .cancelled then otherwise orderId order engine else answerOf order

/-! ## The order, its saga and the requests -/

inductive Update where
  | absent
  | accepted
  | completed
  deriving DecidableEq, Repr

structure World where
  checkout : Composition.World
  db : Db
  dispatched : List (Nat × ReserveOutcome)
  tried : List (Nat × SagaWriteResult)
  changed : List (OrderChangeCommand × SagaWriteResult)
  update : Update
  /-- The cancels on their way to the engine, with the request each is of; one whose
  request has given up may still arrive. -/
  sent : List (Nat × CancelBy)
  /-- The requests the validator refused. -/
  refused : List Nat
  requests : Nat → Option Stage

def World.order (world : World) : Trying.World :=
  ⟨world.db, some world.checkout.run, world.dispatched, world.tried, world.changed⟩

inductive Event where
  /-- The saga and its participants; the cancels arrive on their own. -/
  | checkout (event : Composition.Event)
  /-- A transaction of the order service. -/
  | order (event : Trying.Event)
  | request (slot : Nat) (caller : Caller)
  | arrive (position : Nat)
  /-- The handler of the cancel update finds the saga `COMPENSATED`. -/
  | complete
  | answer (slot : Nat) (engine : EngineAnswer)
  | reread (slot : Nat)

def cancels : Saga.Event → Bool
  | .cancel _ => true
  | _ => false

def allows (world : World) : Composition.Event → Bool
  | .saga event _ => !cancels event && world.order.confirms world.checkout.run event
  | _ => true

/-- The events of `Trying` that are transactions on the order's tables. -/
def writesRow : Trying.Event → Bool
  | .dispatchTry | .writeTry .. | .changeOrder .. | .elsewhere _ => true
  | .reserve .. | .handBack .. | .saga _ => false

def engineAnswers (orderId : Nat) (world : World) (slot : Nat) : EngineAnswer → Bool
  | .finished => world.update == .completed
  -- such a run starts over a closed one, and accepts a cancel only of an order it read as cancelled
  | .finishedLate =>
      world.checkout.run.body == .closed && world.db.statusOf orderId == some .cancelled
  | .rejected => world.refused.contains slot
  | .closed => world.checkout.run.body == .closed
  | .unavailable | .fault _ => true

/-- A request starts; its cancel is sent when it finds the order `PENDING`. -/
def World.request (world : World) (slot : Nat) (caller : Caller) (stage : Stage) : World :=
  { world with
    sent := if stage = .sent then world.sent ++ [(slot, caller.requester)] else world.sent
    requests := Function.update world.requests slot (some stage) }

def World.stage (world : World) (slot : Nat) (stage : Stage) : World :=
  { world with requests := Function.update world.requests slot (some stage) }

def step (minLeadMs : Int) (maxRetries orderId : Nat) (world : World) : Event → Option World
  | .checkout event =>
      if allows world event then
        (Composition.step minLeadMs maxRetries orderId world.checkout event).map fun checkout =>
          { world with checkout }
      else none
  | .order event =>
      if writesRow event then
        (Trying.step orderId world.order event).map fun order =>
          { world with
            db := order.db
            dispatched := order.dispatched
            tried := order.tried
            changed := order.changed }
      else none
  | .request slot caller =>
      if world.requests slot = none then
        some (world.request slot caller (cancel orderId (caller.read world.db orderId)))
      else none
  | .arrive position =>
      match world.sent[position]? with
      | none => none
      | some (slot, requester) =>
          if world.update = .absent then
            match Composition.step minLeadMs maxRetries orderId world.checkout
                (.saga (.cancel requester) 0) with
            | some checkout => some { world with checkout, update := .accepted }
            | none => some { world with refused := world.refused ++ [slot] }
          else some world
  | .complete =>
      if world.update = .accepted ∧ world.checkout.run.saga.step = .compensated then
        some { world with update := .completed }
      else none
  | .answer slot engine =>
      if world.requests slot = some .sent ∧ engineAnswers orderId world slot engine then
        some (world.stage slot (afterEngine engine))
      else none
  | .reread slot =>
      match world.requests slot with
      | some (.rereading engine) =>
          some (world.stage slot
            (.answered (some engine) (reread orderId engine (Orders.findById world.db orderId))))
      | _ => none

def placed (db : Db) (input : Saga.CheckoutSagaInput) (firstSeq : Nat) (nowMs : Int) : World where
  checkout := Composition.placed input firstSeq nowMs
  db := db
  dispatched := []
  tried := []
  changed := []
  update := .absent
  sent := []
  refused := []
  requests := fun _ => none

/-! ## What a request reads -/

theorem toDomainOrder_status (row : Orders.OrderRow) (items : List Orders.OrderItemRow)
    (order : Order) (made : Orders.toDomainOrder row items = .ok order) :
    order.status = row.status := by
  obtain ⟨rows, -, same⟩ := (Results.bind_eq_ok _ _ _).mp made
  cases same
  rfl

theorem findById_status (db : Db) (orderId : Nat) (order : Order)
    (read : Orders.findById db orderId = .ok (some order)) :
    db.statusOf orderId = some order.status := by
  unfold Orders.findById at read
  split at read
  · cases read
  · rename_i row found
    cases made : Orders.toDomainOrder row (db.itemRowsOf orderId) with
    | error message =>
        rw [made] at read
        cases read
    | ok domain =>
        rw [made] at read
        cases read
        rw [toDomainOrder_status row _ _ made]
        simp [Db.statusOf, found]

theorem findForUser_status (db : Db) (orderId userId : Nat) (order : Order)
    (read : Checkout.findForUser db orderId userId = .ok (some order)) :
    db.statusOf orderId = some order.status := by
  unfold Checkout.findForUser at read
  split at read
  · cases read
  · rename_i row found
    split at read
    · cases read
    · cases made : Orders.toDomainOrder row (db.itemRowsOf orderId) with
      | error message =>
          rw [made] at read
          cases read
      | ok domain =>
          rw [made] at read
          cases read
          rw [toDomainOrder_status row _ _ made]
          simp [Db.statusOf, found]

theorem read_status (db : Db) (orderId : Nat) (caller : Caller) (order : Order)
    (read : caller.read db orderId = .ok (some order)) :
    db.statusOf orderId = some order.status := by
  cases caller with
  | cancelOwn userId => exact findForUser_status db orderId userId order read
  | cancelAsAdmin => exact findById_status db orderId order read

theorem answerOf_view (order : Order) (view : OrderView) (answered : answerOf order = .view view) :
    view.status = order.status := by
  unfold answerOf at answered
  split at answered
  · rename_i made success
    cases answered
    simp only [toView, Results.bind_eq_ok] at success
    obtain ⟨_, -, _, -, same⟩ := success
    cases same
    rfl
  · cases answered

/-- A cancel is sent for a `PENDING` order, and a view answered at once is of a `CANCELLED` one. -/
theorem cancel_spec (db : Db) (orderId : Nat) (caller : Caller) :
    (cancel orderId (caller.read db orderId) = .sent ∧ db.statusOf orderId = some .pending) ∨
    ∃ answer, cancel orderId (caller.read db orderId) = .answered none answer ∧
      ∀ view, answer = .view view → view.status = .cancelled ∧
        db.statusOf orderId = some .cancelled := by
  cases read : caller.read db orderId with
  | error message => exact .inr ⟨_, rfl, by simp⟩
  | ok found =>
      cases found with
      | none => exact .inr ⟨_, rfl, by simp⟩
      | some order =>
          have status := read_status db orderId caller order read
          simp only [cancel]
          split
          · rename_i cancelled
            refine .inr ⟨_, rfl, ?_⟩
            intro view answered
            exact ⟨(answerOf_view order view answered).trans cancelled, by rw [status, cancelled]⟩
          · split
            · exact .inr ⟨_, rfl, by simp⟩
            · rename_i pending
              rw [not_not] at pending
              exact .inl ⟨rfl, by rw [status, pending]⟩

/-- A view after a reread is of the order as it reads, and `CANCELLED` unless an update finished. -/
theorem reread_view (db : Db) (orderId : Nat) (engine : EngineAnswer) (view : OrderView)
    (answered : reread orderId engine (Orders.findById db orderId) = .view view) :
    db.statusOf orderId = some view.status ∧
      (engine = .closed ∨ engine = .unavailable → view.status = .cancelled) := by
  cases read : Orders.findById db orderId with
  | error message =>
      rw [read] at answered
      cases answered
  | ok found =>
      rw [read] at answered
      cases found with
      | none => cases answered
      | some order =>
          have status := findById_status db orderId order read
          simp only [reread] at answered
          split at answered
          · cases engine with
            | closed | unavailable => cases answered
            | finished | finishedLate | rejected | fault =>
                rw [status, answerOf_view order view answered]
                exact ⟨rfl, by simp⟩
          · rename_i cancelled
            rw [not_not] at cancelled
            have same := answerOf_view order view answered
            rw [status, same]
            exact ⟨rfl, fun _ => cancelled⟩

end Commerce.Cancelling
