import Commerce.Orders.Status

/-!
# The order entity

An in-memory order: every change returns a new value and goes through
`moveTo`, which asserts the transition.  A thrown `DomainError` is `.error`
with its message.
-/

set_option autoImplicit false

namespace Commerce.Orders

def maxSafeInteger : Int := 9007199254740991

def assertInteger (value : Int) (label : String) : Except String Unit :=
  if -maxSafeInteger ≤ value ∧ value ≤ maxSafeInteger then .ok ()
  else .error (label ++ " must be a safe integer")

def assertPositive (value : Int) (label : String) : Except String Unit :=
  if value > 0 then .ok () else .error (label ++ " must be positive")

/-- White space and line ends, as `String.prototype.trim` removes them. -/
def isSpace (c : Char) : Bool :=
  [0x09, 0x0a, 0x0b, 0x0c, 0x0d, 0x20, 0xa0, 0x1680, 0x2028, 0x2029, 0x202f, 0x205f, 0x3000,
    0xfeff].contains c.toNat || (0x2000 ≤ c.toNat && c.toNat ≤ 0x200a)

def trim (value : String) : List Char :=
  ((value.toList.dropWhile isSpace).reverse.dropWhile isSpace).reverse

def assertNonEmpty (value : String) (label : String) : Except String Unit :=
  if (trim value).length = 0 then .error (label ++ " must not be empty") else .ok ()

theorem upper_letters : ∀ n < 26,
    (Char.ofNat (97 + n)).toUpper.toUpper = (Char.ofNat (97 + n)).toUpper := by
  decide

theorem upper_again (chars : List Char) :
    (chars.map Char.toUpper).map Char.toUpper = chars.map Char.toUpper := by
  rw [List.map_map]
  refine List.map_congr_left fun char _ => ?_
  change char.toUpper.toUpper = char.toUpper
  by_cases lower : 'a'.val ≤ char.val ∧ char.val ≤ 'z'.val
  · have range : 97 ≤ char.toNat ∧ char.toNat ≤ 122 := lower
    have again := upper_letters (char.toNat - 97) (by omega)
    rwa [Nat.add_sub_cancel' range.1, Char.ofNat_toNat] at again
  · rw [show char.toUpper = char from dif_neg lower]
    exact dif_neg lower

structure Money where
  amountMinor : Int
  currency : String
  deriving DecidableEq, Repr

namespace Money

/-- Upper-cases the letters from A to Z and counts code points; the requests admit only
currencies of three such letters, for which this is what the source does. -/
def normalizeCurrency (currency : String) : Except String String := do
  assertNonEmpty currency "Money.currency"
  let code := (trim currency).map Char.toUpper
  if code.length ≠ 3 then .error "Money.currency must be a 3-letter ISO-4217 code"
  else .ok (String.ofList code)

def of (amountMinor : Int) (currency : String) : Except String Money := do
  assertInteger amountMinor "Money.amountMinor"
  let code ← normalizeCurrency currency
  .ok ⟨amountMinor, code⟩

def zero (currency : String) : Except String Money := of 0 currency

def add (money other : Money) : Except String Money :=
  if money.currency ≠ other.currency then
    .error ("Money currency mismatch: " ++ money.currency ++ " vs " ++ other.currency)
  else of (money.amountMinor + other.amountMinor) money.currency

def multiply (money : Money) (quantity : Int) : Except String Money := do
  assertInteger quantity "Money.multiply factor"
  of (money.amountMinor * quantity) money.currency

end Money

structure OrderItem where
  skuId : Nat
  productName : String
  unitPriceMinor : Int
  quantity : Int
  deriving DecidableEq, Repr

namespace OrderItem

/-- A sku id is a minted number here, so its own emptiness check cannot fail. -/
def of (skuId : Nat) (productName : String) (unitPriceMinor quantity : Int) :
    Except String OrderItem := do
  assertNonEmpty productName "OrderItem.productName"
  assertInteger unitPriceMinor "OrderItem.unitPriceMinor"
  if unitPriceMinor < 0 then .error "OrderItem.unitPriceMinor must not be negative"
  else do
    assertInteger quantity "OrderItem.quantity"
    assertPositive quantity "OrderItem.quantity"
    .ok ⟨skuId, productName, unitPriceMinor, quantity⟩

def lineTotal (item : OrderItem) (currency : String) : Except String Money := do
  (← Money.of item.unitPriceMinor currency).multiply item.quantity

end OrderItem

structure Order where
  id : Option Nat
  userId : Nat
  status : OrderStatus
  currency : String
  items : List OrderItem
  totalAmountMinor : Int
  placedAt : Option Int
  finalizedAt : Option Int
  finalizeReason : Option String
  paymentRef : Option Nat
  paymentDeadlineAt : Option Int
  deriving DecidableEq, Repr

def maxQuantityPerOrderLine : Int := 10

/-- The total is computed once, from the snapshot lines; a user id is a minted number here. -/
def Order.create (userId : Nat) (currency : String) (items : List OrderItem) :
    Except String Order :=
  if items.length = 0 then .error "Order must have at least one item"
  else
    match items.find? fun item => item.quantity > maxQuantityPerOrderLine with
    | some oversized =>
        .error ("Order line quantity must not exceed " ++ toString maxQuantityPerOrderLine ++
          " per SKU: " ++ toString oversized.skuId)
    | none => do
        let zero ← Money.zero currency
        let total ← items.foldlM (fun sum item => do
          let lineTotal ← item.lineTotal zero.currency
          sum.add lineTotal) zero
        .ok
          { id := none
            userId := userId
            status := .draft
            currency := zero.currency
            items := items
            totalAmountMinor := total.amountMinor
            placedAt := none
            finalizedAt := none
            finalizeReason := none
            paymentRef := none
            paymentDeadlineAt := none }

structure OrderPlacedEvent where
  orderId : Nat
  userId : Nat
  totalAmountMinor : Int
  currency : String
  placedAt : Int
  deriving DecidableEq, Repr

inductive OrderFinalizedEvent where
  | paid (aggregateId userId : Nat) (totalAmountMinor : Int) (currency : String)
      (paymentRef : Option Nat) (occurredAt : Int)
  | failed (aggregateId userId : Nat) (reason : Option String) (occurredAt : Int)
  | expired (aggregateId userId : Nat) (reason : Option String) (occurredAt : Int)
  | cancelled (aggregateId userId : Nat) (reason : Option String) (occurredAt : Int)
  deriving DecidableEq, Repr

def OrderFinalizedEvent.eventName : OrderFinalizedEvent → String
  | .paid .. => "order.paid"
  | .failed .. => "order.failed"
  | .expired .. => "order.expired"
  | .cancelled .. => "order.cancelled"

def OrderFinalizedEvent.aggregateId : OrderFinalizedEvent → Nat
  | .paid id .. => id
  | .failed id .. => id
  | .expired id .. => id
  | .cancelled id .. => id

namespace Order

/-- The one way a status changes: assert the edge, then apply the other changes. -/
def moveTo (order : Order) (status : OrderStatus) (changes : Order → Order) :
    Except String Order := do
  assertTransition order.status status
  .ok { changes order with status := status }

def reserve (order : Order) (now paymentDeadlineAt : Int) : Except String Order :=
  order.moveTo .reserving fun next =>
    { next with placedAt := some now, paymentDeadlineAt := some paymentDeadlineAt }

def confirmPlaced (order : Order) : Except String Order := order.moveTo .pending fun next => next

def reject (order : Order) (reason : String) (now : Int) : Except String Order :=
  order.moveTo .rejected fun next =>
    { next with finalizedAt := some now, finalizeReason := some reason }

def beginConfirming (order : Order) : Except String Order :=
  order.moveTo .confirming fun next => next

/-- `outcome` is `paid`, `failed`, `expired` or `cancelled` in the source's type. -/
def finalize (order : Order) (outcome : OrderStatus) (now : Int) (reason : Option String)
    (paymentRef : Option Nat) : Except String Order :=
  order.moveTo outcome fun next =>
    { next with finalizedAt := some now, finalizeReason := reason, paymentRef := paymentRef }

def toPlacedEvent (order : Order) : Except String OrderPlacedEvent :=
  match order.id, order.placedAt with
  | some orderId, some placedAt =>
      .ok ⟨orderId, order.userId, order.totalAmountMinor, order.currency, placedAt⟩
  | _, _ => .error "Only a placed order can produce an OrderPlacedEvent"

def toFinalizedEvent (order : Order) : Except String OrderFinalizedEvent :=
  match order.id, order.finalizedAt with
  | some orderId, some occurredAt =>
      match order.status with
      | .paid =>
          .ok (.paid orderId order.userId order.totalAmountMinor order.currency
            order.paymentRef occurredAt)
      | .failed => .ok (.failed orderId order.userId order.finalizeReason occurredAt)
      | .expired => .ok (.expired orderId order.userId order.finalizeReason occurredAt)
      | .cancelled => .ok (.cancelled orderId order.userId order.finalizeReason occurredAt)
      | status => .error ("Order in status " ++ status.label ++ " has no finalization event")
  | _, _ => .error "Only a finalized order can produce a finalization event"

theorem moveTo_ok (order next : Order) (status : OrderStatus) (changes : Order → Order)
    (moved : order.moveTo status changes = .ok next) :
    canTransition order.status status = true ∧ next = { changes order with status := status } := by
  obtain ⟨wired, same⟩ := (assertTransition_bind order.status status _ next).mp moved
  exact ⟨wired, (Except.ok.inj same).symm⟩

/-- A finalization event names the order it is about and the status it settled in. -/
theorem toFinalizedEvent_ok (order : Order) (event : OrderFinalizedEvent)
    (made : order.toFinalizedEvent = .ok event) :
    order.id = some event.aggregateId ∧
      (order.status, event.eventName) ∈ [(.paid, "order.paid"), (.failed, "order.failed"),
        (.expired, "order.expired"), (.cancelled, "order.cancelled")] := by
  unfold toFinalizedEvent at made
  split at made
  · rename_i orderId occurredAt known _
    split at made <;> rename_i settled <;> cases made <;>
      simp [known, settled, OrderFinalizedEvent.aggregateId, OrderFinalizedEvent.eventName]
  · cases made

end Order

end Commerce.Orders
