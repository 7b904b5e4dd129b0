import Mathlib.Data.List.Sort
import Commerce.Orders.Entity
import Commerce.Saga.Transitions

/-!
# The order repository

The tables are lists of rows and a call is one transaction: it either commits
its writes or throws and leaves the tables as they were.  The row lock of
`lockOrder` makes the transactions on one order serial.  Ids come from the id
service before the transaction opens and are arguments of the call.
-/

set_option autoImplicit false

namespace Commerce.Orders

open Commerce.Saga (ReserveOutcome)

/-- Checkout beyond this many in-flight orders per user is refused. -/
def maxPendingOrdersPerUser : Nat := 3

structure OrderRow where
  id : Nat
  userId : Nat
  status : OrderStatus
  currency : String
  totalAmount : Int
  idempotencyKey : Option String
  placedAt : Option Int
  finalizedAt : Option Int
  finalizeReason : Option String
  paymentRef : Option Nat
  paymentDeadlineAt : Option Int
  deriving DecidableEq, Repr

structure OrderItemRow where
  id : Nat
  orderId : Nat
  skuId : Nat
  productName : String
  unitPrice : Int
  quantity : Int
  deriving DecidableEq, Repr

/-- The payload of an outbox row is the snapshot its event carries. -/
inductive OutboxPayload where
  | placed (event : OrderPlacedEvent)
  | finalized (event : OrderFinalizedEvent)
  deriving DecidableEq, Repr

structure OutboxRecord where
  aggregateType : String
  aggregateId : Nat
  eventType : String
  payload : OutboxPayload
  deriving DecidableEq, Repr

structure OutboxRow where
  id : Nat
  record : OutboxRecord
  deriving DecidableEq, Repr

structure OrderItemView where
  skuId : Nat
  productName : String
  unitPriceMinor : Int
  quantity : Int
  lineTotalMinor : Int
  deriving DecidableEq, Repr

structure OrderView where
  id : Option Nat
  status : OrderStatus
  currency : String
  totalAmountMinor : Int
  placedAt : Option Int
  finalizeReason : Option String
  items : List OrderItemView
  deriving DecidableEq, Repr

structure IdempotencyRow where
  id : Nat
  scope : String
  key : String
  requestHash : String
  completed : Bool
  responseStatus : Option Nat
  responseBody : Option OrderView
  orderId : Option Nat
  expiresAt : Int
  createdAt : Int
  deriving DecidableEq, Repr

structure Db where
  orders : List OrderRow
  items : List OrderItemRow
  outbox : List OutboxRow
  idempotencyKeys : List IdempotencyRow
  deriving DecidableEq, Repr

/-! ## Mappers -/

def toPlacedOutboxRecord (event : OrderPlacedEvent) : OutboxRecord where
  aggregateType := "Order"
  aggregateId := event.orderId
  eventType := "order.placed"
  payload := .placed event

def toFinalizedOutboxRecord (event : OrderFinalizedEvent) : OutboxRecord where
  aggregateType := "Order"
  aggregateId := event.aggregateId
  eventType := event.eventName
  payload := .finalized event

def toItemView (currency : String) (item : OrderItem) : Except String OrderItemView := do
  let lineTotal ← item.lineTotal currency
  .ok ⟨item.skuId, item.productName, item.unitPriceMinor, item.quantity, lineTotal.amountMinor⟩

def toView (order : Order) : Except String OrderView := do
  let total ← Money.of order.totalAmountMinor order.currency
  let items ← order.items.mapM (toItemView order.currency)
  .ok ⟨order.id, order.status, order.currency, total.amountMinor, order.placedAt,
    order.finalizeReason, items⟩

def toDomainItem (item : OrderItemRow) : Except String OrderItem :=
  OrderItem.of item.skuId item.productName item.unitPrice item.quantity

def toDomainOrder (row : OrderRow) (itemRows : List OrderItemRow) : Except String Order := do
  let items ← itemRows.mapM toDomainItem
  .ok
    { id := some row.id
      userId := row.userId
      status := row.status
      currency := row.currency
      items := items
      totalAmountMinor := row.totalAmount
      placedAt := row.placedAt
      finalizedAt := row.finalizedAt
      finalizeReason := row.finalizeReason
      paymentRef := row.paymentRef
      paymentDeadlineAt := row.paymentDeadlineAt }

/-! ## Statements -/

namespace Db

def findOrder (db : Db) (orderId : Nat) : Option OrderRow :=
  db.orders.find? fun row => row.id == orderId

/-- The items of one order share their `created_at`, so the id alone orders them. -/
def itemRowsOf (db : Db) (orderId : Nat) : List OrderItemRow :=
  (db.items.filter fun item => item.orderId == orderId).insertionSort fun a b => a.id ≤ b.id

def lockOrder (db : Db) (orderId : Nat) : Except String (Option (Order × Option String)) :=
  match db.findOrder orderId with
  | none => .ok none
  | some row => do
      let order ← toDomainOrder row (db.itemRowsOf orderId)
      .ok (some (order, row.idempotencyKey))

def updateOrder (db : Db) (orderId : Nat) (set : OrderRow → OrderRow) : Db :=
  { db with orders := db.orders.map fun row => if row.id = orderId then set row else row }

def orderEventRoutes : List String :=
  ["order.placed", "order.paid", "order.failed", "order.expired", "order.cancelled"]

def append (db : Db) (record : OutboxRecord) (id : Nat) : Except String Db :=
  if !orderEventRoutes.contains record.eventType then .error "unrouted event"
  else if db.outbox.any fun row => row.id == id then .error "duplicate outbox id"
  else .ok { db with outbox := db.outbox ++ [⟨id, record⟩] }

def markCompleted (db : Db) (scope key : String) (responseStatus : Nat) (responseBody : OrderView)
    (orderId : Nat) : Db :=
  { db with
    idempotencyKeys := db.idempotencyKeys.map fun row =>
      if row.scope = scope ∧ row.key = key then
        { row with
          completed := true
          responseStatus := some responseStatus
          responseBody := some responseBody
          orderId := some orderId }
      else row }

end Db

def userIdempotencyScope (userId : Nat) : String := "user:" ++ toString userId

/-! ## The three writes -/

structure ReservingCreateResult where
  created : Bool
  order : Order
  deriving DecidableEq, Repr

def inFlightStatuses : List OrderStatus := [.reserving, .pending, .confirming]

/-- Zips the minted ids with the order's lines; the id service returns one id per line. -/
def itemRows (orderId : Nat) : List Nat → List OrderItem → List OrderItemRow
  | id :: ids, item :: items =>
      ⟨id, orderId, item.skuId, item.productName, item.unitPriceMinor, item.quantity⟩ ::
        itemRows orderId ids items
  | _, _ => []

/-- An order already under the key: only asked for a non-empty key. -/
def Db.existingUnder (db : Db) (userId : Nat) (idempotencyKey : Option String) : Option OrderRow :=
  match idempotencyKey with
  | none => none
  | some key =>
      if key.isEmpty then none
      else db.orders.find? fun row => row.idempotencyKey == some key && row.userId == userId

def Db.inFlight (db : Db) (userId : Nat) : Nat :=
  (db.orders.filter fun row => row.userId == userId && inFlightStatuses.contains row.status).length

def Db.insertOrder (db : Db) (order : Order) (idempotencyKey : Option String) (orderId : Nat)
    (itemIds : List Nat) : Except String Db :=
  let rows := itemRows orderId itemIds order.items
  if db.orders.any fun row => row.id == orderId then .error "duplicate order id"
  else if idempotencyKey.isSome && db.orders.any fun row =>
      row.userId == order.userId && row.idempotencyKey == idempotencyKey then
    .error "uq_orders_user_idempotency_key"
  else if rows.any fun row => db.items.any fun item => item.id == row.id then
    .error "duplicate order item id"
  else
    .ok { db with
      orders := db.orders ++
        [{ id := orderId
           userId := order.userId
           status := order.status
           currency := order.currency
           totalAmount := order.totalAmountMinor
           idempotencyKey := idempotencyKey
           placedAt := order.placedAt
           finalizedAt := none
           finalizeReason := none
           paymentRef := none
           paymentDeadlineAt := order.paymentDeadlineAt }]
      items := db.items ++ rows }

def createReserving (db : Db) (order : Order) (idempotencyKey : Option String) (orderId : Nat)
    (itemIds : List Nat) : Except String (ReservingCreateResult × Db) :=
  match db.existingUnder order.userId idempotencyKey with
  | some existing => do
      let order ← toDomainOrder existing (db.itemRowsOf existing.id)
      .ok (⟨false, order⟩, db)
  | none =>
      if db.inFlight order.userId ≥ maxPendingOrdersPerUser then
        .error ("User " ++ toString order.userId ++ " already has " ++
          toString (db.inFlight order.userId) ++ " pending orders (max " ++
          toString maxPendingOrdersPerUser ++ ")")
      else do
        let inserted ← db.insertOrder order idempotencyKey orderId itemIds
        .ok (⟨true, { order with id := some orderId }⟩, inserted)

def placeHeld (db : Db) (orderId : Nat) (order : Order) (idempotencyKey : Option String)
    (outboxId : Nat) : Except String Db := do
  let placed ← order.confirmPlaced
  let updated := db.updateOrder orderId fun row => { row with status := placed.status }
  let event ← placed.toPlacedEvent
  let appended ← updated.append (toPlacedOutboxRecord event) outboxId
  match idempotencyKey with
  | none => .ok appended
  | some key => do
      let view ← toView placed
      .ok (appended.markCompleted (userIdempotencyScope placed.userId) key 201 view orderId)

def applyTryResult (db : Db) (orderId : Nat) (outcome : ReserveOutcome) (reason : String)
    (outboxId : Nat) (now : Int) : Except String (SagaWriteResult × Db) := do
  let target : OrderStatus := if outcome = .held then .pending else .rejected
  match ← db.lockOrder orderId with
  | none => .ok (.stale, db)
  | some (order, idempotencyKey) =>
      if order.status = target then .ok (.already, db)
      else if order.status ≠ .reserving then .ok (.stale, db)
      else if outcome ≠ .held then do
        let rejected ← order.reject reason now
        -- clearing the key lets a retry under it place a fresh order
        .ok (.applied, db.updateOrder orderId fun row =>
          { row with
            status := rejected.status
            finalizedAt := rejected.finalizedAt
            finalizeReason := rejected.finalizeReason
            idempotencyKey := none })
      else do
        let placed ← placeHeld db orderId order idempotencyKey outboxId
        .ok (.applied, placed)

def moveForSaga (order : Order) (target : OrderStatus) (now : Int) (reason : Option String)
    (paymentRef : Option Nat) : Except String Order :=
  match target with
  | .confirming => order.beginConfirming
  | .paid => order.finalize .paid now reason paymentRef
  | .failed => order.finalize .failed now reason paymentRef
  | .expired => order.finalize .expired now reason paymentRef
  | .cancelled => order.finalize .cancelled now reason paymentRef
  | target => .error ("A saga order change cannot target " ++ target.label)

def writeStatusChange (db : Db) (orderId : Nat) (order : Order) : Db :=
  db.updateOrder orderId fun row =>
    { row with
      status := order.status
      finalizedAt := order.finalizedAt
      finalizeReason := order.finalizeReason
      paymentRef := order.paymentRef }

def applyOrderChange (db : Db) (orderId : Nat) (source : List OrderStatus) (target : OrderStatus)
    (reason : Option String) (paymentRef : Option Nat) (outboxId : Nat) (now : Int) :
    Except String (SagaWriteResult × Db) := do
  match ← db.lockOrder orderId with
  | none => .ok (.stale, db)
  | some (order, _) =>
      if order.status = target then .ok (.already, db)
      else if !source.contains order.status then .ok (.stale, db)
      else do
        let changed ← moveForSaga order target now reason paymentRef
        let written := writeStatusChange db orderId changed
        if target = .confirming then .ok (.applied, written)
        else do
          let event ← changed.toFinalizedEvent
          let appended ← written.append (toFinalizedOutboxRecord event) outboxId
          .ok (.applied, appended)

/-! ## Reads and the sweep of the retention job -/

def findById (db : Db) (orderId : Nat) : Except String (Option Order) :=
  match db.findOrder orderId with
  | none => .ok none
  | some row => (toDomainOrder row (db.itemRowsOf orderId)).map some

def findReservingOlderThan (db : Db) (cutoff : Int) (limit : Nat) : Except String (List Order) :=
  let older := db.orders.filter fun row =>
    row.status == .reserving && row.placedAt.any (decide <| · < cutoff)
  let sorted := older.insertionSort fun a b =>
    a.placedAt.getD 0 < b.placedAt.getD 0 ∨ (a.placedAt.getD 0 = b.placedAt.getD 0 ∧ a.id ≤ b.id)
  (sorted.take limit).mapM fun row => toDomainOrder row (db.itemRowsOf row.id)

/-- Deletes the rejected orders of one batch; which ones a batch holds is up to the database. -/
def deleteRejectedBefore (db : Db) (cutoff : Int) (batch : List Nat) : Db :=
  let doomed (row : OrderRow) : Bool :=
    row.status == .rejected && row.finalizedAt.any (decide <| · < cutoff) && batch.contains row.id
  { db with
    orders := db.orders.filter fun row => !doomed row
    items := db.items.filter fun item =>
      !db.orders.any fun row => row.id == item.orderId && doomed row }

end Commerce.Orders
