import Mathlib.Data.List.Chain
import Commerce.Lib.Runs
import Commerce.Lib.Results
import Commerce.Orders.Repository

/-!
# The history of an order row

Whatever calls reach the repository, in any order and however often, each one
either leaves the tables alone or moves one row along one edge of the
transition table and appends the event of the status it enters.
-/

set_option autoImplicit false

namespace Commerce.Orders

open Commerce.Saga (ReserveOutcome)
open Runs
open Results

/-- One execution of a repository call.  A retry, a duplicate and a delayed attempt are
further calls with the same arguments. -/
inductive Call where
  | createReserving (draft : Order) (now paymentDeadlineAt : Int) (idempotencyKey : Option String)
      (orderId : Nat) (itemIds : List Nat)
  | applyTryResult (orderId : Nat) (outcome : ReserveOutcome) (reason : String) (outboxId : Nat)
      (now : Int)
  | applyOrderChange (orderId : Nat) (source : List OrderStatus) (target : OrderStatus)
      (reason : Option String) (paymentRef : Option Nat) (outboxId : Nat) (now : Int)
  deriving DecidableEq, Repr

/-- The order the call is about; for `createReserving` the id minted for it. -/
def Call.orderId : Call → Nat
  | .createReserving _ _ _ _ orderId _ => orderId
  | .applyTryResult orderId .. => orderId
  | .applyOrderChange orderId .. => orderId

inductive Answer where
  | created (result : ReservingCreateResult)
  | written (result : SagaWriteResult)
  deriving DecidableEq, Repr

/-- The transaction of a call.  Checkout creates the order with `reserve`, so that is the
order `createReserving` receives. -/
def transaction (db : Db) : Call → Except String (Answer × Db)
  | .createReserving draft now paymentDeadlineAt idempotencyKey orderId itemIds => do
      let order ← draft.reserve now paymentDeadlineAt
      let (result, next) ← createReserving db order idempotencyKey orderId itemIds
      .ok (.created result, next)
  | .applyTryResult orderId outcome reason outboxId now => do
      let (result, next) ← applyTryResult db orderId outcome reason outboxId now
      .ok (.written result, next)
  | .applyOrderChange orderId source target reason paymentRef outboxId now => do
      let (result, next) ←
        applyOrderChange db orderId source target reason paymentRef outboxId now
      .ok (.written result, next)

/-- A call that throws rolls its transaction back. -/
def perform (db : Db) (call : Call) : Db :=
  match transaction db call with
  | .ok (_, next) => next
  | .error _ => db

def step (db : Db) (call : Call) : Option Db := some (perform db call)

def Db.statusOf (db : Db) (orderId : Nat) : Option OrderStatus :=
  (db.findOrder orderId).map (·.status)

def Db.eventsOf (db : Db) (orderId : Nat) : List String :=
  (db.outbox.filter fun row => row.record.aggregateId == orderId).map (·.record.eventType)

/-- The event of entering a status; none for `CONFIRMING` and `REJECTED`. -/
def enteredEvent : OrderStatus → Option String
  | .pending => some "order.placed"
  | .paid => some "order.paid"
  | .failed => some "order.failed"
  | .expired => some "order.expired"
  | .cancelled => some "order.cancelled"
  | _ => none

/-- Everything one call can do to the tables, seen from the order it is about. -/
inductive Writes (db : Db) (orderId : Nat) (next : Db) : Prop
  | nothing (same : next = db)
  | created (absent : db.statusOf orderId = none)
      (present : next.statusOf orderId = some .reserving)
      (others : ∀ other, other ≠ orderId → next.statusOf other = db.statusOf other)
      (outbox : next.outbox = db.outbox)
  | moved (source target : OrderStatus) (before : db.statusOf orderId = some source)
      (edge : canTransition source target = true)
      (after : next.statusOf orderId = some target)
      (others : ∀ other, other ≠ orderId → next.statusOf other = db.statusOf other)
      (events : ∃ rows, next.outbox = db.outbox ++ rows ∧
        rows.map (·.record.eventType) = (enteredEvent target).toList ∧
        ∀ row ∈ rows, row.record.aggregateId = orderId)

/-! ## The rows a statement touches -/

theorem findOrder_updateOrder (db : Db) (orderId other : Nat) (set : OrderRow → OrderRow)
    (keepsId : ∀ row, (set row).id = row.id) :
    (db.updateOrder orderId set).findOrder other =
      (db.findOrder other).map fun row => if row.id = orderId then set row else row := by
  simp only [Db.findOrder, Db.updateOrder, List.find?_map]
  congr 2
  funext row
  simp only [Function.comp_apply]
  split <;> simp [keepsId]

theorem findOrder_id (db : Db) (orderId : Nat) (row : OrderRow)
    (found : db.findOrder orderId = some row) : row.id = orderId := by
  simpa using List.find?_some found

theorem statusOf_updateOrder_other (db : Db) (orderId other : Nat) (set : OrderRow → OrderRow)
    (keepsId : ∀ row, (set row).id = row.id) (different : other ≠ orderId) :
    (db.updateOrder orderId set).statusOf other = db.statusOf other := by
  simp only [Db.statusOf, findOrder_updateOrder db orderId other set keepsId, Option.map_map]
  cases found : db.findOrder other with
  | none => rfl
  | some row =>
      have named := findOrder_id db other row found
      simp [named, different]

theorem statusOf_updateOrder_self (db : Db) (orderId : Nat) (set : OrderRow → OrderRow)
    (row : OrderRow) (keepsId : ∀ row, (set row).id = row.id)
    (found : db.findOrder orderId = some row) :
    (db.updateOrder orderId set).statusOf orderId = some (set row).status := by
  have named := findOrder_id db orderId row found
  simp [Db.statusOf, findOrder_updateOrder db orderId orderId set keepsId, found, named]

theorem append_ok (db next : Db) (record : OutboxRecord) (id : Nat)
    (success : db.append record id = .ok next) :
    next = { db with outbox := db.outbox ++ [⟨id, record⟩] } := by
  unfold Db.append at success
  split at success
  · cases success
  · split at success
    · cases success
    · exact (Except.ok.inj success).symm

theorem statusOf_of_orders (db next : Db) (same : next.orders = db.orders) (orderId : Nat) :
    next.statusOf orderId = db.statusOf orderId := by
  simp [Db.statusOf, Db.findOrder, same]

theorem lockOrder_ok (db : Db) (orderId : Nat) (order : Order) (key : Option String)
    (locked : db.lockOrder orderId = .ok (some (order, key))) :
    ∃ row, db.findOrder orderId = some row ∧ order.id = some orderId ∧
      order.status = row.status ∧ order.userId = row.userId ∧ key = row.idempotencyKey := by
  unfold Db.lockOrder at locked
  cases found : db.findOrder orderId with
  | none => simp [found] at locked
  | some row =>
      simp only [found, bind_eq_ok, toDomainOrder] at locked
      obtain ⟨_, ⟨_, -, made⟩, same⟩ := locked
      cases made
      cases same
      exact ⟨row, rfl, congrArg some (findOrder_id db orderId row found), rfl, rfl, rfl⟩

/-! ## One lemma for each call -/

theorem insertOrder_writes (db next : Db) (order : Order) (key : Option String) (orderId : Nat)
    (itemIds : List Nat) (reserving : order.status = .reserving)
    (success : db.insertOrder order key orderId itemIds = .ok next) :
    Writes db orderId next := by
  unfold Db.insertOrder at success
  simp only at success
  split_ifs at success with taken keyTaken itemTaken
  cases success
  have absent : db.findOrder orderId = none := by
    simpa [Db.findOrder] using taken
  refine .created (by simp [Db.statusOf, absent]) ?_ ?_ rfl
  · simp only [Db.findOrder] at absent
    simp [Db.statusOf, Db.findOrder, List.find?_append, absent, reserving]
  · intro other different
    simp [Db.statusOf, Db.findOrder, List.find?_append, Ne.symm different]

theorem createReserving_writes (db next : Db) (draft order : Order) (now deadline : Int)
    (key : Option String) (orderId : Nat) (itemIds : List Nat) (result : ReservingCreateResult)
    (reserved : draft.reserve now deadline = .ok order)
    (success : createReserving db order key orderId itemIds = .ok (result, next)) :
    Writes db orderId next := by
  have reserving : order.status = .reserving := by
    obtain ⟨-, rfl⟩ := Order.moveTo_ok draft order _ _ reserved
    rfl
  unfold createReserving at success
  split at success
  · simp only [bind_eq_ok] at success
    obtain ⟨_, -, same⟩ := success
    cases same
    exact .nothing rfl
  · split at success
    · cases success
    · simp only [bind_eq_ok] at success
      obtain ⟨inserted, insertion, same⟩ := success
      cases same
      exact insertOrder_writes db _ order key orderId itemIds reserving insertion

theorem writes_update (db next : Db) (orderId : Nat) (row : OrderRow) (target : OrderStatus)
    (set : OrderRow → OrderRow) (rows : List OutboxRow)
    (found : db.findOrder orderId = some row)
    (orders : next.orders = (db.updateOrder orderId set).orders)
    (outbox : next.outbox = db.outbox ++ rows) (keepsId : ∀ row, (set row).id = row.id)
    (entered : (set row).status = target) (edge : canTransition row.status target = true)
    (events : rows.map (·.record.eventType) = (enteredEvent target).toList)
    (aggregate : ∀ row ∈ rows, row.record.aggregateId = orderId) :
    Writes db orderId next := by
  refine .moved row.status target (by simp [Db.statusOf, found]) edge ?_ ?_
    ⟨rows, outbox, events, aggregate⟩
  · rw [statusOf_of_orders _ next orders, statusOf_updateOrder_self db orderId set row keepsId
      found,
      entered]
  · intro other different
    rw [statusOf_of_orders _ next orders]
    exact statusOf_updateOrder_other db orderId other set keepsId different

theorem placeHeld_ok (db next : Db) (orderId : Nat) (order : Order) (key : Option String)
    (outboxId : Nat) (success : placeHeld db orderId order key outboxId = .ok next) :
    canTransition order.status .pending = true ∧
      next.orders = (db.updateOrder orderId fun row => { row with status := .pending }).orders ∧
      ∃ event, ({ order with status := .pending } : Order).toPlacedEvent = .ok event ∧
        next.outbox = db.outbox ++ [⟨outboxId, toPlacedOutboxRecord event⟩] := by
  simp only [placeHeld, bind_eq_ok] at success
  obtain ⟨placed, confirmed, event, made, appended, written, final⟩ := success
  obtain ⟨edge, rfl⟩ := Order.moveTo_ok order placed _ _ confirmed
  cases append_ok _ appended _ _ written
  cases key with
  | none =>
      cases final
      exact ⟨edge, rfl, event, made, rfl⟩
  | some key =>
      simp only [bind_eq_ok] at final
      obtain ⟨view, -, same⟩ := final
      cases same
      exact ⟨edge, rfl, event, made, rfl⟩

theorem placeHeld_writes (db next : Db) (orderId : Nat) (order : Order) (key : Option String)
    (outboxId : Nat) (row : OrderRow) (found : db.findOrder orderId = some row)
    (named : order.id = some orderId) (status : order.status = row.status)
    (success : placeHeld db orderId order key outboxId = .ok next) :
    Writes db orderId next := by
  obtain ⟨edge, orders, event, made, outbox⟩ :=
    placeHeld_ok db next orderId order key outboxId success
  have aggregate : event.orderId = orderId := by
    simp only [Order.toPlacedEvent, named] at made
    split at made
    · rename_i orderId' _ same _
      cases made
      exact (Option.some.inj same).symm
    · cases made
  exact writes_update db next orderId row .pending _ _ found orders outbox (fun _ => rfl)
    rfl (status ▸ edge) rfl (by simp [toPlacedOutboxRecord, aggregate])

theorem applyTryResult_writes (db next : Db) (orderId : Nat) (outcome : ReserveOutcome)
    (reason : String) (outboxId : Nat) (now : Int) (result : SagaWriteResult)
    (success : applyTryResult db orderId outcome reason outboxId now = .ok (result, next)) :
    Writes db orderId next := by
  simp only [applyTryResult, bind_eq_ok] at success
  obtain ⟨locked, lock, success⟩ := success
  cases locked with
  | none =>
      cases success
      exact .nothing rfl
  | some pair =>
      obtain ⟨order, key⟩ := pair
      obtain ⟨row, found, named, status, -, -⟩ := lockOrder_ok db orderId order key lock
      by_cases held : outcome = .held
      · simp only [held, ↓reduceIte, ne_eq, not_true_eq_false] at success
        by_cases already : order.status = .pending
        · rw [if_pos already] at success
          cases success
          exact .nothing rfl
        rw [if_neg already] at success
        by_cases stale : order.status ≠ .reserving
        · rw [if_pos stale] at success
          cases success
          exact .nothing rfl
        rw [if_neg stale] at success
        obtain ⟨placed, written, same⟩ := (bind_eq_ok _ _ _).mp success
        cases same
        exact placeHeld_writes db _ orderId order key outboxId row found named status written
      · simp only [held, ↓reduceIte, ne_eq, not_false_eq_true] at success
        by_cases already : order.status = .rejected
        · rw [if_pos already] at success
          cases success
          exact .nothing rfl
        rw [if_neg already] at success
        by_cases stale : order.status ≠ .reserving
        · rw [if_pos stale] at success
          cases success
          exact .nothing rfl
        rw [if_neg stale] at success
        obtain ⟨rejected, moved, same⟩ := (bind_eq_ok _ _ _).mp success
        cases same
        obtain ⟨edge, rfl⟩ := Order.moveTo_ok order rejected _ _ moved
        exact writes_update db _ orderId row .rejected _ [] found rfl
          (by simp [Db.updateOrder]) (fun _ => rfl) rfl (status ▸ edge) rfl (by simp)

/-- A saga change moves the order to the target it was asked for, which is never
`RESERVING`, `PENDING` or `REJECTED`. -/
theorem moveForSaga_ok (order changed : Order) (target : OrderStatus) (now : Int)
    (reason : Option String) (paymentRef : Option Nat)
    (moved : moveForSaga order target now reason paymentRef = .ok changed) :
    canTransition order.status target = true ∧ changed.status = target ∧
      changed.id = order.id := by
  unfold moveForSaga at moved
  split at moved <;>
    first
    | (obtain ⟨edge, rfl⟩ := Order.moveTo_ok order changed _ _ moved; exact ⟨edge, rfl, rfl⟩)
    | cases moved

theorem applyOrderChange_writes (db next : Db) (orderId : Nat) (source : List OrderStatus)
    (target : OrderStatus) (reason : Option String) (paymentRef : Option Nat) (outboxId : Nat)
    (now : Int) (result : SagaWriteResult)
    (success : applyOrderChange db orderId source target reason paymentRef outboxId now =
      .ok (result, next)) :
    Writes db orderId next := by
  simp only [applyOrderChange, bind_eq_ok] at success
  obtain ⟨locked, lock, success⟩ := success
  cases locked with
  | none =>
      cases success
      exact .nothing rfl
  | some pair =>
      obtain ⟨order, key⟩ := pair
      obtain ⟨row, found, named, status, -, -⟩ := lockOrder_ok db orderId order key lock
      simp only at success
      by_cases already : order.status = target
      · rw [if_pos already] at success
        cases success
        exact .nothing rfl
      rw [if_neg already] at success
      by_cases stale : (!source.contains order.status) = true
      · rw [if_pos stale] at success
        cases success
        exact .nothing rfl
      rw [if_neg stale] at success
      obtain ⟨changed, moved, success⟩ := (bind_eq_ok _ _ _).mp success
      obtain ⟨edge, entered, sameId⟩ := moveForSaga_ok order changed target now _ _ moved
      by_cases confirming : target = .confirming
      · rw [if_pos confirming] at success
        cases success
        exact writes_update db _ orderId row target _ [] found rfl
          (by simp [writeStatusChange, Db.updateOrder]) (fun _ => rfl) entered (status ▸ edge)
          (by simp [confirming, enteredEvent]) (by simp)
      · rw [if_neg confirming] at success
        simp only [bind_eq_ok] at success
        obtain ⟨event, made, appended, written, same⟩ := success
        cases same
        cases append_ok _ _ _ _ written
        obtain ⟨aggregate, settled⟩ := Order.toFinalizedEvent_ok changed event made
        have about : event.aggregateId = orderId := by
          rw [sameId, named] at aggregate
          exact (Option.some.inj aggregate).symm
        refine writes_update db _ orderId row target _ _ found rfl rfl (fun _ => rfl) entered
          (status ▸ edge) ?_ (by simp [toFinalizedOutboxRecord, about])
        rw [entered] at settled
        simp only [List.mem_cons, Prod.mk.injEq, List.not_mem_nil, or_false] at settled
        obtain ⟨rfl, name⟩ | ⟨rfl, name⟩ | ⟨rfl, name⟩ | ⟨rfl, name⟩ := settled <;>
          simp [toFinalizedOutboxRecord, enteredEvent, name]

theorem perform_writes (db : Db) (call : Call) : Writes db call.orderId (perform db call) := by
  unfold perform
  split
  · rename_i answer next success
    cases call with
    | createReserving draft now deadline key orderId itemIds =>
        simp only [transaction, bind_eq_ok] at success
        obtain ⟨order, reserved, ⟨result, created⟩, success, same⟩ := success
        cases same
        exact createReserving_writes db _ draft order now deadline key orderId itemIds result
          reserved success
    | applyTryResult orderId outcome reason outboxId now =>
        simp only [transaction, bind_eq_ok] at success
        obtain ⟨⟨result, written⟩, success, same⟩ := success
        cases same
        exact applyTryResult_writes db _ orderId outcome reason outboxId now result success
    | applyOrderChange orderId source target reason paymentRef outboxId now =>
        simp only [transaction, bind_eq_ok] at success
        obtain ⟨⟨result, written⟩, success, same⟩ := success
        cases same
        exact applyOrderChange_writes db _ orderId source target reason paymentRef outboxId now
          result success
  · exact .nothing rfl

/-- A call moves the status of one order along an edge, or not at all. -/
theorem perform_statusOf (db : Db) (call : Call) (orderId : Nat) :
    (perform db call).statusOf orderId = db.statusOf orderId ∧
      (perform db call).eventsOf orderId = db.eventsOf orderId ∨
    ∃ target, (perform db call).statusOf orderId = some target ∧
      canTransition ((db.statusOf orderId).getD .draft) target = true ∧
      (perform db call).eventsOf orderId =
        db.eventsOf orderId ++ (enteredEvent target).toList := by
  cases perform_writes db call with
  | nothing same => exact .inl (by rw [same]; exact ⟨rfl, rfl⟩)
  | created absent present others outbox =>
      have silent : (perform db call).eventsOf orderId = db.eventsOf orderId := by
        simp [Db.eventsOf, outbox]
      by_cases about : orderId = call.orderId
      · subst about
        exact .inr ⟨.reserving, present, by simp [absent, canTransition, transitions],
          by simp [silent, enteredEvent]⟩
      · exact .inl ⟨others orderId about, silent⟩
  | moved source target before edge after others events =>
      obtain ⟨rows, outbox, types, aggregate⟩ := events
      by_cases about : orderId = call.orderId
      · subst about
        have all : (rows.filter fun row => row.record.aggregateId == call.orderId) = rows :=
          List.filter_eq_self.mpr fun row member => by simp [aggregate row member]
        exact .inr ⟨target, after, by simpa [before] using edge,
          by simp [Db.eventsOf, outbox, List.filter_append, all, types]⟩
      · have none : (rows.filter fun row => row.record.aggregateId == orderId) = [] :=
          List.filter_eq_nil_iff.mpr fun row member => by
            simp [aggregate row member, Ne.symm about]
        exact .inl ⟨others orderId about, by simp [Db.eventsOf, outbox, List.filter_append, none]⟩

/-! ## What no call changes -/

def Keeps (db next : Db) (added : List OrderRow) : Prop :=
  ∃ set : OrderRow → OrderRow, next.orders = db.orders.map set ++ added ∧
    ∀ row, (set row).id = row.id ∧ (set row).totalAmount = row.totalAmount ∧
      (set row).currency = row.currency

theorem keeps_of_same (db next : Db) (same : next.orders = db.orders) : Keeps db next [] :=
  ⟨id, by simp [same], fun _ => ⟨rfl, rfl, rfl⟩⟩

theorem keeps_of_update (db next : Db) (orderId : Nat) (set : OrderRow → OrderRow)
    (orders : next.orders = (db.updateOrder orderId set).orders)
    (keeps : ∀ row, (set row).id = row.id ∧ (set row).totalAmount = row.totalAmount ∧
      (set row).currency = row.currency) : Keeps db next [] := by
  refine ⟨fun row => if row.id = orderId then set row else row,
    by simp [orders, Db.updateOrder], fun row => ?_⟩
  dsimp only
  split
  · exact keeps row
  · exact ⟨rfl, rfl, rfl⟩

theorem applyTryResult_keeps (db next : Db) (orderId : Nat) (outcome : ReserveOutcome)
    (reason : String) (outboxId : Nat) (now : Int) (result : SagaWriteResult)
    (success : applyTryResult db orderId outcome reason outboxId now = .ok (result, next)) :
    Keeps db next [] := by
  simp only [applyTryResult, bind_eq_ok] at success
  obtain ⟨locked, lock, success⟩ := success
  cases locked with
  | none =>
      cases success
      exact keeps_of_same db db rfl
  | some pair =>
      obtain ⟨order, key⟩ := pair
      simp only at success
      by_cases already : order.status = (if outcome = .held then OrderStatus.pending else .rejected)
      · rw [if_pos already] at success
        cases success
        exact keeps_of_same db db rfl
      rw [if_neg already] at success
      by_cases stale : order.status ≠ .reserving
      · rw [if_pos stale] at success
        cases success
        exact keeps_of_same db db rfl
      rw [if_neg stale] at success
      by_cases held : outcome ≠ .held
      · rw [if_pos held] at success
        obtain ⟨rejected, -, same⟩ := (bind_eq_ok _ _ _).mp success
        cases same
        exact keeps_of_update db _ orderId _ rfl fun _ => ⟨rfl, rfl, rfl⟩
      rw [if_neg held] at success
      obtain ⟨placed, written, same⟩ := (bind_eq_ok _ _ _).mp success
      cases same
      obtain ⟨-, orders, -⟩ := placeHeld_ok db next orderId order key outboxId written
      exact keeps_of_update db next orderId _ orders fun _ => ⟨rfl, rfl, rfl⟩

theorem applyOrderChange_keeps (db next : Db) (orderId : Nat) (source : List OrderStatus)
    (target : OrderStatus) (reason : Option String) (paymentRef : Option Nat) (outboxId : Nat)
    (now : Int) (result : SagaWriteResult)
    (success : applyOrderChange db orderId source target reason paymentRef outboxId now =
      .ok (result, next)) :
    Keeps db next [] := by
  simp only [applyOrderChange, bind_eq_ok] at success
  obtain ⟨locked, lock, success⟩ := success
  cases locked with
  | none =>
      cases success
      exact keeps_of_same db db rfl
  | some pair =>
      obtain ⟨order, key⟩ := pair
      simp only at success
      by_cases already : order.status = target
      · rw [if_pos already] at success
        cases success
        exact keeps_of_same db db rfl
      rw [if_neg already] at success
      by_cases stale : (!source.contains order.status) = true
      · rw [if_pos stale] at success
        cases success
        exact keeps_of_same db db rfl
      rw [if_neg stale] at success
      obtain ⟨changed, -, success⟩ := (bind_eq_ok _ _ _).mp success
      by_cases confirming : target = .confirming
      · rw [if_pos confirming] at success
        cases success
        exact keeps_of_update db _ orderId _ rfl fun _ => ⟨rfl, rfl, rfl⟩
      · rw [if_neg confirming] at success
        simp only [bind_eq_ok] at success
        obtain ⟨event, -, appended, written, same⟩ := success
        cases same
        cases append_ok _ _ _ _ written
        exact keeps_of_update db _ orderId _ rfl fun _ => ⟨rfl, rfl, rfl⟩

theorem createReserving_keeps (db next : Db) (order : Order) (key : Option String) (orderId : Nat)
    (itemIds : List Nat) (result : ReservingCreateResult)
    (success : createReserving db order key orderId itemIds = .ok (result, next)) :
    ∃ added, Keeps db next added ∧ ∀ row ∈ added, row.currency = order.currency := by
  unfold createReserving at success
  split at success
  · simp only [bind_eq_ok] at success
    obtain ⟨_, -, same⟩ := success
    cases same
    exact ⟨[], keeps_of_same db db rfl, by simp⟩
  split at success
  · cases success
  simp only [bind_eq_ok] at success
  obtain ⟨inserted, insertion, same⟩ := success
  cases same
  unfold Db.insertOrder at insertion
  simp only at insertion
  split_ifs at insertion
  cases insertion
  exact ⟨_, ⟨id, by rw [List.map_id], fun _ => ⟨rfl, rfl, rfl⟩⟩,
    fun row listed => by rw [List.mem_singleton.mp listed]⟩

/-- No call changes the id or the charge of a row; an added row has the draft's currency. -/
theorem perform_keeps (db : Db) (call : Call) : ∃ added, Keeps db (perform db call) added ∧
    ∀ row ∈ added, ∃ draft now deadline key orderId itemIds,
      call = .createReserving draft now deadline key orderId itemIds ∧
        row.currency = draft.currency := by
  unfold perform
  split
  · rename_i answer next success
    cases call with
    | createReserving draft now deadline key orderId itemIds =>
        simp only [transaction, bind_eq_ok] at success
        obtain ⟨order, reserved, ⟨result, created⟩, success, same⟩ := success
        cases same
        obtain ⟨-, rfl⟩ := Order.moveTo_ok draft order _ _ reserved
        obtain ⟨added, kept, named⟩ :=
          createReserving_keeps db _ _ key orderId itemIds result success
        exact ⟨added, kept, fun row listed => ⟨_, _, _, _, _, _, rfl, named row listed⟩⟩
    | applyTryResult orderId outcome reason outboxId now =>
        simp only [transaction, bind_eq_ok] at success
        obtain ⟨⟨result, written⟩, success, same⟩ := success
        cases same
        exact ⟨[], applyTryResult_keeps db _ orderId outcome reason outboxId now result success,
          by simp⟩
    | applyOrderChange orderId source target reason paymentRef outboxId now =>
        simp only [transaction, bind_eq_ok] at success
        obtain ⟨⟨result, written⟩, success, same⟩ := success
        cases same
        exact ⟨[], applyOrderChange_keeps db _ orderId source target reason paymentRef outboxId now
          result success, by simp⟩
  · exact ⟨[], keeps_of_same db db rfl, by simp⟩

theorem Keeps.findOrder (db next : Db) (added : List OrderRow) (orderId : Nat) (row : OrderRow)
    (keeps : Keeps db next added) (found : db.findOrder orderId = some row) :
    ∃ later, next.findOrder orderId = some later ∧ later.totalAmount = row.totalAmount ∧
      later.currency = row.currency := by
  obtain ⟨set, orders, kept⟩ := keeps
  have moved : (db.orders.map set).find? (fun other => other.id == orderId) = some (set row) := by
    have same : (fun other : OrderRow => other.id == orderId) ∘ set = fun other =>
        other.id == orderId := by
      funext other
      simp [(kept other).1]
    rw [List.find?_map, same]
    exact congrArg (Option.map set) found
  refine ⟨set row, ?_, (kept row).2⟩
  rw [Db.findOrder, orders, List.find?_append, moved]
  rfl

/-! ## Whole histories -/

def entered (orderId : Nat) (db : Db) (calls : List Call) : List OrderStatus :=
  (changes step (fun db => db.statusOf orderId) db calls).reduceOption

theorem entered_cons (orderId : Nat) (db : Db) (call : Call) (rest : List Call) :
    entered orderId db (call :: rest) =
      if (perform db call).statusOf orderId = db.statusOf orderId then
        entered orderId (perform db call) rest
      else ((perform db call).statusOf orderId).toList ++
        entered orderId (perform db call) rest := by
  simp only [entered, changes, step]
  split
  · rfl
  · cases (perform db call).statusOf orderId <;> rfl

theorem history_of_calls (orderId : Nat) (db final : Db) (calls : List Call)
    (ran : run step db calls = some final) :
    List.IsChain (fun source target => canTransition source target = true)
        ((db.statusOf orderId).getD .draft :: entered orderId db calls) ∧
      final.eventsOf orderId =
        db.eventsOf orderId ++ (entered orderId db calls).filterMap enteredEvent ∧
      final.statusOf orderId =
        ((entered orderId db calls).getLast?).or (db.statusOf orderId) := by
  induction calls generalizing db with
  | nil =>
      cases Option.some.inj ran
      have nothing : entered orderId final [] = [] := rfl
      simp [nothing]
  | cons call rest ih =>
      obtain ⟨next, stepped, remaining⟩ := run_cons_eq_some step db final call rest ran
      cases Option.some.inj stepped
      obtain ⟨chain, events, status⟩ := ih (perform db call) remaining
      rw [entered_cons]
      obtain ⟨still, silent⟩ | ⟨target, now, edge, written⟩ := perform_statusOf db call orderId
      · rw [if_pos still]
        rw [still] at chain status
        exact ⟨chain, silent ▸ events, status⟩
      · have moved : (perform db call).statusOf orderId ≠ db.statusOf orderId := by
          intro same
          rw [← same, now] at edge
          simp [canTransition_irrefl] at edge
        rw [if_neg moved, now]
        rw [now] at chain status
        refine ⟨List.isChain_cons_cons.mpr ⟨edge, chain⟩, ?_, ?_⟩
        · rw [events, written]
          cases event : enteredEvent target <;> simp [event]
        · rw [status]
          cases last : entered orderId (perform db call) rest with
          | nil => simp
          | cons head tail => simp [List.getLast?_cons]

theorem terminal_kept (orderId : Nat) (status : OrderStatus) (terminal : isTerminal status = true)
    (db : Db) (call : Call) (next : Db) (before : db.statusOf orderId = some status)
    (stepped : step db call = some next) : next.statusOf orderId = some status := by
  cases Option.some.inj stepped
  obtain ⟨still, -⟩ | ⟨target, -, edge, -⟩ := perform_statusOf db call orderId
  · exact still.trans before
  · rw [before, Option.getD_some, canTransition_of_terminal status target terminal] at edge
    cases edge

/-- A call that leaves the status of its order where it was writes nothing at all. -/
theorem perform_unmoved (db : Db) (call : Call)
    (unmoved : (perform db call).statusOf call.orderId = db.statusOf call.orderId) :
    perform db call = db := by
  cases perform_writes db call with
  | nothing same => exact same
  | created absent present others outbox =>
      rw [unmoved, absent] at present
      cases present
  | moved source target before edge after others events =>
      rw [unmoved, before] at after
      cases Option.some.inj after
      rw [canTransition_irrefl] at edge
      cases edge

/-- The history of an order row from before it exists: the statuses it enters are a path of
the transition table from `DRAFT`, its outbox holds exactly the events of those entries, a
terminal status stays for good, and a call that does not move its row writes nothing. -/
theorem order_row_history (orderId : Nat) (db final : Db) (calls : List Call)
    (absent : db.statusOf orderId = none) (unheard : db.eventsOf orderId = [])
    (ran : run step db calls = some final) :
    List.IsChain (fun source target => canTransition source target = true)
        (.draft :: entered orderId db calls) ∧
      final.statusOf orderId = (entered orderId db calls).getLast? ∧
      final.eventsOf orderId = (entered orderId db calls).filterMap enteredEvent ∧
      (∀ first second middle status, calls = first ++ second → run step db first = some middle →
        middle.statusOf orderId = some status → isTerminal status = true →
          final.statusOf orderId = some status) ∧
      ∀ first call second middle, calls = first ++ call :: second →
        run step db first = some middle →
        (perform middle call).statusOf call.orderId = middle.statusOf call.orderId →
          perform middle call = middle := by
  obtain ⟨chain, events, status⟩ := history_of_calls orderId db final calls ran
  rw [absent] at chain status
  rw [unheard, List.nil_append] at events
  refine ⟨chain, by simpa using status, events, ?_, ?_⟩
  · rintro first second middle settled rfl reached here terminal
    rw [run_append, reached] at ran
    exact run_preserves step _ (terminal_kept orderId settled terminal) second middle final
      here ran
  · rintro first call second middle - - unmoved
    exact perform_unmoved middle call unmoved

def teaOrder : Order where
  id := none
  userId := 9
  status := .draft
  currency := "USD"
  items := [⟨3, "Tea", 250, 2⟩]
  totalAmountMinor := 500
  placedAt := none
  finalizedAt := none
  finalizeReason := none
  paymentRef := none
  paymentDeadlineAt := none

/-- Placed, held, confirmed and paid, with a second attempt of the Try's write, a refusal of
the Try and a late expiry in between. -/
def teaCalls : List Call :=
  [ .createReserving teaOrder 0 900 (some "k1") 1 [2],
    .applyTryResult 1 .held "" 10 5,
    .applyTryResult 1 .held "" 11 6,
    .applyTryResult 1 .outOfStock "saga:try_failed" 12 7,
    .applyOrderChange 1 [.pending] .confirming none none 13 8,
    .applyOrderChange 1 [.pending] .expired (some "saga:expired") none 14 9,
    .applyOrderChange 1 [.confirming] .paid (some "saga:captured") (some 77) 15 10 ]

theorem order_row_history_tea :
    entered 1 ⟨[], [], [], []⟩ teaCalls = [.reserving, .pending, .confirming, .paid] ∧
    ∃ final, run step ⟨[], [], [], []⟩ teaCalls = some final ∧
      final.eventsOf 1 = ["order.placed", "order.paid"] := by
  have ran : run step ⟨[], [], [], []⟩ teaCalls =
      some (teaCalls.foldl perform ⟨[], [], [], []⟩) := rfl
  have path : entered 1 ⟨[], [], [], []⟩ teaCalls = [.reserving, .pending, .confirming, .paid] := by
    decide
  obtain ⟨-, -, events, -, -⟩ := order_row_history 1 ⟨[], [], [], []⟩ _ teaCalls rfl rfl ran
  refine ⟨path, _, ran, ?_⟩
  rw [events, path]
  rfl

end Commerce.Orders
