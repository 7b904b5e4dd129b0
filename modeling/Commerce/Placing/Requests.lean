import Commerce.Orders.History
import Commerce.Orders.IdempotencyKeys
import Commerce.Saga.Workflow

/-!
# Checkout requests

A request behind the guard goes through the idempotency interceptor and the
checkout use case.  It stops at every `await`; between two of them its code is
a function of what it remembers and the answer it gets.
-/

set_option autoImplicit false

namespace Commerce.Placing

open Commerce.Orders (Db IdempotencyRow Money Order OrderItem OrderItemView OrderStatus OrderView
  ReservingCreateResult maxPendingOrdersPerUser maxQuantityPerOrderLine userIdempotencyScope)
open Commerce.Saga (CheckoutSagaInput CheckoutSagaMode ReserveOutcome)

/-- How long a `COMPLETED` response stays replayable. -/
def idempotencyTtlMs : Int := 24 * 60 * 60 * 1000

/-- How long an `IN_PROGRESS` row is trusted before its owner counts as crashed. -/
def inProgressLeaseMs : Int := 30 * 1000

structure Settings where
  sha256Hex : String → String
  paymentDeadlineMs : Int
  tryTimeoutMs : Int
  reservingOrphanMs : Int
  idempotencyGraceMs : Int

/-- A request the guards let through: an authenticated user, a key, and its body in canonical
form. -/
structure Request where
  userId : Nat
  key : String
  method : String
  path : String
  body : String
  deriving DecidableEq, Repr

def Request.scope (request : Request) : String := userIdempotencyScope request.userId

def computeRequestHash (settings : Settings) (request : Request) : String :=
  settings.sha256Hex
    (request.method ++ "|" ++ request.path ++ "|" ++ request.scope ++ "|" ++ request.body)

inductive Thrown where
  | conflict (message : String)
  | unprocessable (message : String)
  | badRequest (message : String)
  /-- `CheckoutUnavailableError`: 503, to be retried under the same key. -/
  | unavailable (orderId : Nat) (reason : String)
  | other (message : String)
  deriving DecidableEq, Repr

inductive Response where
  | success (status : Nat) (body : Option OrderView)
  | failure (thrown : Thrown)
  deriving DecidableEq, Repr

/-! ## The cart -/

structure OrderCartLine where
  skuId : Nat
  quantity : Int
  deriving DecidableEq, Repr

structure OrderSkuView where
  skuId : Nat
  productName : String
  unitPriceMinor : Option Int
  currency : String
  isActive : Bool
  deriving DecidableEq, Repr

/-- A map built from the views holds the last one of each sku. -/
def viewBySku (views : List OrderSkuView) (skuId : Nat) : Option OrderSkuView :=
  views.reverse.find? fun view => view.skuId == skuId

def snapshotLine (views : List OrderSkuView) (currency : String) (line : OrderCartLine) :
    Except Thrown OrderItem :=
  match viewBySku views line.skuId with
  | none => .error (.badRequest ("SKU no longer exists in catalog: " ++ toString line.skuId))
  | some skuView =>
      if !skuView.isActive then
        .error (.badRequest ("SKU is not available for order: " ++ toString line.skuId))
      else
        match skuView.unitPriceMinor with
        | none =>
            .error (.badRequest ("SKU is not purchasable (no price): " ++ toString line.skuId))
        | some unitPriceMinor =>
            if line.quantity > maxQuantityPerOrderLine then
              .error (.badRequest ("Order line quantity must not exceed " ++
                toString maxQuantityPerOrderLine ++ " per SKU: " ++ toString line.skuId))
            else if skuView.currency ≠ currency then
              .error (.badRequest "Cart mixes currencies; cannot create a single-currency order")
            else
              (OrderItem.of line.skuId skuView.productName unitPriceMinor line.quantity).mapError
                .other

/-- The order's currency is the first surviving line's, in cart order. -/
def snapshotCart (lines : List OrderCartLine) (views : List OrderSkuView) :
    Except Thrown (String × List OrderItem) :=
  if lines.length = 0 then .error (.badRequest "Cart is empty")
  else
    match (lines.filterMap fun line => viewBySku views line.skuId).head? with
    | none => .error (.badRequest "Cart items no longer exist in catalog")
    | some first =>
        if first.currency.isEmpty then
          .error (.badRequest "Cart items no longer exist in catalog")
        else do
          let items ← lines.mapM (snapshotLine views first.currency)
          .ok (first.currency, items)

def draftOf (settings : Settings) (userId : Nat) (nowMs : Int) (lines : List OrderCartLine)
    (views : List OrderSkuView) : Except Thrown Order := do
  let (currency, items) ← snapshotCart lines views
  let draft ← (Order.create userId currency items).mapError .other
  (draft.reserve nowMs (nowMs + settings.paymentDeadlineMs)).mapError .other

/-! ## Starting the saga -/

/-- Every saga input comes from the saved order. -/
def toCheckoutSagaStart (settings : Settings) (order : Order) (mode : CheckoutSagaMode)
    (tryStartedAt : Option Int) : Except String (Nat × CheckoutSagaInput) :=
  match order.id, order.placedAt, order.paymentDeadlineAt with
  | some orderId, some placedAt, some _ =>
      .ok (orderId,
        { mode := mode
          placedAt := placedAt
          tryStartedAt := tryStartedAt
          totalMinor := order.totalAmountMinor
          currency := order.currency
          tryTimeoutMs := settings.tryTimeoutMs })
  | _, _, _ =>
      .error ("Order " ++ (order.id.map toString).getD "(unsaved)" ++
        " was not placed through the checkout saga")

def outcomeLabel : ReserveOutcome → String
  | .held => "HELD"
  | .outOfStock => "OUT_OF_STOCK"
  | .contended => "CONTENDED"
  | .conflict => "CONFLICT"
  | .timeout => "TIMEOUT"
  | .error => "ERROR"
  | .abandoned => "ABANDONED"

def refused : List ReserveOutcome := [.outOfStock, .contended, .conflict]

/-! ## The awaits -/

/-- What a request waits for, with what its code remembers until then.  Past the claim the
handler runs, and the claim's id is what its cleanup drops. -/
inductive Awaiting where
  | lookup
  | insert
  | lookupAgain
  | expire (cutoff : Int)
  | reclaim
  | snapshot (claimId : Nat)
  | create (claimId : Nat) (draft : Order)
  | reserve (claimId : Nat) (order : Order) (created : Bool) (orderId : Nat)
      (start : CheckoutSagaInput)
  | outcome (claimId : Nat) (order : Order) (created : Bool) (orderId run : Nat)
  | readAfterClose (claimId orderId : Nat)
  | complete (claimId : Nat) (view : OrderView)
  | cleanup (claimId : Nat) (thrown : Thrown)
  deriving DecidableEq, Repr

inductive Reply where
  | record (found : Option IdempotencyRow)
  | deleted
  | cart (lines : List OrderCartLine) (views : List OrderSkuView)
  | reserving (result : ReservingCreateResult)
  | tooManyPending
  | attached (run : Nat)
  | closed
  | tried (outcome : ReserveOutcome)
  | order (found : Option Order)
  | completed
  deriving DecidableEq, Repr

inductive Phase where
  | asked (awaiting : Awaiting)
  | answered (awaiting : Awaiting) (reply : Reply)
  | finished (response : Response)
  deriving DecidableEq, Repr

structure Process where
  request : Request
  expiresAt : Int
  phase : Phase
  deriving DecidableEq, Repr

/-! ## Between the awaits -/

def judge (settings : Settings) (request : Request) (nowMs : Int) (existing : IdempotencyRow) :
    Phase :=
  if existing.requestHash ≠ computeRequestHash settings request then
    .finished (.failure
      (.unprocessable "Idempotency-Key was reused with a different request"))
  else if existing.completed then
    .finished (.success (existing.responseStatus.getD 200) existing.responseBody)
  else if existing.createdAt > nowMs - inProgressLeaseMs then
    .finished (.failure
      (.conflict "A request with this Idempotency-Key is already in progress"))
  else .asked (.expire (nowMs - inProgressLeaseMs))

/-- The handler threw: its own claim is dropped, then the error surfaces. -/
def throwing (claimId : Nat) (thrown : Thrown) : Phase := .asked (.cleanup claimId thrown)

def replay (claimId : Nat) (order : Order) : Phase :=
  match Orders.toView order with
  | .error message => throwing claimId (.other message)
  | .ok view => .asked (.complete claimId view)

def afterSnapshot (settings : Settings) (claimId userId : Nat) (nowMs : Int)
    (lines : List OrderCartLine) (views : List OrderSkuView) : Phase :=
  match draftOf settings userId nowMs lines views with
  | .error thrown => throwing claimId thrown
  | .ok draft => .asked (.create claimId draft)

def afterCreate (settings : Settings) (claimId : Nat) (nowMs : Int)
    (result : ReservingCreateResult) : Phase :=
  if result.order.status = .rejected then
    throwing claimId (.unavailable (result.order.id.getD 0) "order already rejected")
  else if result.order.status ≠ .reserving then replay claimId result.order
  else
    -- a reused order keeps its placedAt budget
    match toCheckoutSagaStart settings result.order .checkout
        (if result.created then some nowMs else none) with
    | .error message => throwing claimId (.other message)
    | .ok (orderId, start) =>
        .asked (.reserve claimId result.order result.created orderId start)

def heldView (order : Order) : Except String OrderView := do
  let placed ← order.confirmPlaced
  Orders.toView placed

def afterOutcome (claimId : Nat) (order : Order) (created : Bool) (orderId : Nat)
    (outcome : ReserveOutcome) : Phase :=
  if outcome ≠ .held then
    if refused.contains outcome then throwing claimId (.conflict "Insufficient stock")
    else throwing claimId (.unavailable orderId ("try " ++ outcomeLabel outcome))
  else
    match heldView order with
    | .error message => throwing claimId (.other message)
    | .ok view =>
        -- the saga's own transaction froze the key only if it still held this request's row
        if created then .finished (.success 201 (some view)) else .asked (.complete claimId view)

def afterClose (claimId orderId : Nat) : Option Order → Phase
  | none =>
      throwing claimId (.other ("Order " ++ toString orderId ++
        " vanished while its checkout saga was closing"))
  | some order =>
      if order.status = .reserving ∨ order.status = .rejected then
        throwing claimId
          (.unavailable orderId ("saga closed with the order " ++ order.status.label))
      else replay claimId order

def proceed (settings : Settings) (request : Request) (nowMs : Int) :
    Awaiting → Reply → Option Phase
  | .lookup, .record none => some (.asked .insert)
  | .lookup, .record (some existing) => some (judge settings request nowMs existing)
  | .insert, .record (some inserted) => some (.asked (.snapshot inserted.id))
  | .insert, .record none => some (.asked .lookupAgain)
  | .lookupAgain, .record none =>
      some (.finished (.failure
        (.conflict "Idempotent request is being processed; please retry")))
  | .lookupAgain, .record (some existing) => some (judge settings request nowMs existing)
  | .expire _, .deleted => some (.asked .reclaim)
  | .reclaim, .record none =>
      some (.finished (.failure
        (.conflict "A request with this Idempotency-Key is already in progress")))
  | .reclaim, .record (some reclaimed) => some (.asked (.snapshot reclaimed.id))
  | .snapshot claimId, .cart lines views =>
      some (afterSnapshot settings claimId request.userId nowMs lines views)
  | .create claimId _, .tooManyPending =>
      some (throwing claimId (.conflict ("Too many pending orders (max " ++
        toString maxPendingOrdersPerUser ++
        "); pay, cancel, or wait for one to expire before checking out again")))
  | .create claimId _, .reserving result => some (afterCreate settings claimId nowMs result)
  | .reserve claimId order created orderId _, .attached run =>
      some (.asked (.outcome claimId order created orderId run))
  | .reserve claimId _ _ orderId _, .closed => some (.asked (.readAfterClose claimId orderId))
  | .outcome claimId order created orderId _, .tried outcome =>
      some (afterOutcome claimId order created orderId outcome)
  | .readAfterClose claimId orderId, .order found => some (afterClose claimId orderId found)
  | .complete _ view, .completed => some (.finished (.success 201 (some view)))
  | .cleanup _ thrown, .deleted => some (.finished (.failure thrown))
  | _, _ => none

/-- What an awaited call throws; only the engine's calls tell an unavailable engine apart. -/
structure Failure where
  message : String
  engineUnavailable : Bool
  deriving DecidableEq, Repr

def fail (failure : Failure) : Awaiting → Phase
  | .snapshot claimId | .create claimId _ | .readAfterClose claimId _ | .complete claimId _ =>
      throwing claimId (.other failure.message)
  | .reserve claimId _ _ orderId _ | .outcome claimId _ _ orderId _ =>
      throwing claimId (if failure.engineUnavailable then .unavailable orderId "engine unavailable"
        else .other failure.message)
  -- a failed cleanup must not mask the original error
  | .cleanup _ thrown => .finished (.failure thrown)
  | _ => .finished (.failure (.other failure.message))

/-! ## What the code between two awaits can do

It throws into the cleanup, goes on with what it was given, or replays an order. -/

theorem judge_cases (settings : Settings) (request : Request) (nowMs : Int)
    (existing : IdempotencyRow) :
    (∃ thrown, judge settings request nowMs existing = .finished (.failure thrown)) ∨
    (existing.completed = true ∧ judge settings request nowMs existing =
      .finished (.success (existing.responseStatus.getD 200) existing.responseBody)) ∨
    judge settings request nowMs existing = .asked (.expire (nowMs - inProgressLeaseMs)) := by
  unfold judge
  split_ifs with other completed leased
  · exact .inl ⟨_, rfl⟩
  · exact .inr (.inl ⟨completed, rfl⟩)
  · exact .inl ⟨_, rfl⟩
  · exact .inr (.inr rfl)

theorem replay_cases (claimId : Nat) (order : Order) :
    (∃ thrown, replay claimId order = throwing claimId thrown) ∨
    ∃ view, Orders.toView order = .ok view ∧
      replay claimId order = .asked (.complete claimId view) := by
  unfold replay
  cases Orders.toView order with
  | error message => exact .inl ⟨_, rfl⟩
  | ok view => exact .inr ⟨view, rfl, rfl⟩

theorem toCheckoutSagaStart_ok {settings : Settings} {order : Order} {mode : CheckoutSagaMode}
    {tryStartedAt : Option Int} {orderId : Nat} {start : CheckoutSagaInput}
    (made : toCheckoutSagaStart settings order mode tryStartedAt = .ok (orderId, start)) :
    order.id = some orderId := by
  unfold toCheckoutSagaStart at made
  split at made
  · rename_i named _ _
    cases made
    exact named
  · cases made

theorem afterCreate_cases (settings : Settings) (claimId : Nat) (nowMs : Int)
    (result : ReservingCreateResult) :
    (∃ thrown, afterCreate settings claimId nowMs result = throwing claimId thrown) ∨
    (result.order.status ≠ .reserving ∧ result.order.status ≠ .rejected ∧
      ∃ view, Orders.toView result.order = .ok view ∧
        afterCreate settings claimId nowMs result = .asked (.complete claimId view)) ∨
    ∃ orderId start, result.order.id = some orderId ∧
      afterCreate settings claimId nowMs result =
        .asked (.reserve claimId result.order result.created orderId start) := by
  unfold afterCreate
  by_cases rejected : result.order.status = .rejected
  · rw [if_pos rejected]
    exact .inl ⟨_, rfl⟩
  rw [if_neg rejected]
  by_cases placed : result.order.status ≠ .reserving
  · rw [if_pos placed]
    rcases replay_cases claimId result.order with threw | ⟨view, made, same⟩
    · exact .inl threw
    · exact .inr (.inl ⟨placed, rejected, view, made, same⟩)
  rw [if_neg placed]
  split
  · exact .inl ⟨_, rfl⟩
  · rename_i orderId start made
    exact .inr (.inr ⟨orderId, start, toCheckoutSagaStart_ok made, rfl⟩)

theorem heldView_ok {order : Order} {view : OrderView} (made : heldView order = .ok view) :
    ∃ placed, placed.id = order.id ∧ Orders.toView placed = .ok view := by
  obtain ⟨placed, confirmed, viewed⟩ := (Results.bind_eq_ok _ _ _).mp made
  have named : placed.id = order.id := by
    obtain ⟨-, same⟩ := Order.moveTo_ok order placed _ _ confirmed
    rw [same]
  exact ⟨placed, named, viewed⟩

theorem afterOutcome_cases (claimId : Nat) (order : Order) (created : Bool) (orderId : Nat)
    (outcome : ReserveOutcome) :
    (∃ thrown, afterOutcome claimId order created orderId outcome = throwing claimId thrown) ∨
    (outcome = .held ∧ ∃ view, heldView order = .ok view ∧
      (afterOutcome claimId order created orderId outcome =
          .finished (.success 201 (some view)) ∨
        afterOutcome claimId order created orderId outcome = .asked (.complete claimId view))) := by
  unfold afterOutcome
  by_cases unheld : outcome ≠ .held
  · rw [if_pos unheld]
    split_ifs
    · exact .inl ⟨_, rfl⟩
    · exact .inl ⟨_, rfl⟩
  rw [if_neg unheld]
  cases heldView order with
  | error message => exact .inl ⟨_, rfl⟩
  | ok view =>
      refine .inr ⟨not_not.mp unheld, view, rfl, ?_⟩
      cases created with
      | true => exact .inl rfl
      | false => exact .inr rfl

theorem afterClose_cases (claimId orderId : Nat) (found : Option Order) :
    (∃ thrown, afterClose claimId orderId found = throwing claimId thrown) ∨
    ∃ order, found = some order ∧ order.status ≠ .reserving ∧ order.status ≠ .rejected ∧
      ∃ view, Orders.toView order = .ok view ∧
        afterClose claimId orderId found = .asked (.complete claimId view) := by
  cases found with
  | none => exact .inl ⟨_, rfl⟩
  | some order =>
      unfold afterClose
      by_cases hidden : order.status = .reserving ∨ order.status = .rejected
      · simp only [if_pos hidden]
        exact .inl ⟨_, rfl⟩
      simp only [if_neg hidden]
      obtain ⟨unreserving, unrejected⟩ := not_or.mp hidden
      rcases replay_cases claimId order with threw | ⟨view, made, same⟩
      · exact .inl threw
      · exact .inr ⟨order, rfl, unreserving, unrejected, view, made, same⟩

end Commerce.Placing
