import Commerce.Payments.Gateway

/-!
# The payment tables of one order

`payment_orders` holds the order's header, `payments` its attempts, and the
outbox what the order announced.  A repository method is a function on the
tables; a transaction is a function that fails as a whole.
-/

set_option autoImplicit false

namespace Commerce.Payments

structure PaymentRow extends Payment where
  id : Nat
  createdAt : Nat
  deriving DecidableEq, Repr

structure AuthorizedRecord where
  id : Nat
  paymentId : Nat
  amountMinor : Int
  currency : String
  authorizedAt : Int
  deriving DecidableEq, Repr

structure Db where
  header : Option PaymentOrderHeader
  payments : List PaymentRow
  outbox : List AuthorizedRecord
  /-- The provider's ids of the events logged. -/
  webhookEvents : List Nat
  /-- The database's clock: each insert stamps a later `created_at`. -/
  clock : Nat
  deriving DecidableEq, Repr

namespace Db

def empty : Db := ⟨none, [], [], [], 0⟩

/-! ## The headers -/

/-- `ON CONFLICT DO NOTHING`: whether the row went in, and the tables after. -/
def insertHeader (db : Db) (header : PaymentOrderHeader) : Bool × Db :=
  match db.header with
  | none => (true, { db with header := some header })
  | some _ => (false, db)

def insertOpen (db : Db) (amountMinor : Int) (currency : String) : Bool × Db :=
  db.insertHeader ⟨.opened, some amountMinor, some currency, none⟩

def insertFenced (db : Db) : Bool × Db := db.insertHeader ⟨.fenced, none, none, none⟩

/-- The check constraint: only a fenced header goes without a charge. -/
def chargeWhenNotFenced (header : PaymentOrderHeader) : Bool :=
  header.status == .fenced || (header.amountMinor.isSome && header.currency.isSome)

def updateHeader (db : Db) (change : PaymentOrderHeader → PaymentOrderHeader) :
    Except Fault Db :=
  match db.header with
  | none => .ok db
  | some header =>
      if chargeWhenNotFenced (change header) then .ok { db with header := some (change header) }
      else .error .database

/-! ## The attempts -/

def newer (row other : PaymentRow) : Bool :=
  other.createdAt < row.createdAt || (other.createdAt == row.createdAt && other.id < row.id)

def newest : List PaymentRow → Option PaymentRow
  | [] => none
  | row :: rest =>
      match newest rest with
      | none => some row
      | some other => if newer other row then some other else some row

def findByOrderId (db : Db) : Option PaymentRow := newest db.payments

def findByProviderSessionId (db : Db) (providerSessionId : Nat) : Option PaymentRow :=
  newest (db.payments.filter fun row => row.providerSessionId == providerSessionId)

def findActiveByOrderIdForUpdate (db : Db) : Option PaymentRow :=
  db.payments.find? fun row => !row.status.retired

def PaymentRow.patch (row : PaymentRow) (status : PaymentStatus) (providerIntentId : Option Nat) :
    PaymentRow :=
  { row with
    status := status
    providerIntentId := providerIntentId.or row.providerIntentId }

def picks (id : Nat) (expectedStatus : Option PaymentStatus) (row : PaymentRow) : Bool :=
  row.id == id && expectedStatus.all (row.status == ·)

def updateStatus (db : Db) (id : Nat) (status : PaymentStatus) (providerIntentId : Option Nat)
    (expectedStatus : Option PaymentStatus) : Bool × Db :=
  (db.payments.any (picks id expectedStatus),
    { db with
      payments := db.payments.map fun row =>
        if picks id expectedStatus row then PaymentRow.patch row status providerIntentId else row })

inductive CreateError where
  | duplicateActive
  | duplicateKey
  deriving DecidableEq, Repr

/-- Inserts the attempt under its primary key and the active-payment index. -/
def create (db : Db) (payment : Payment) (id : Nat) : Except CreateError (PaymentRow × Db) :=
  if db.payments.any (·.id == id) then .error .duplicateKey
  else if db.payments.any fun row => !row.status.retired then .error .duplicateActive
  else
    let row : PaymentRow := { payment with id := id, createdAt := db.clock }
    .ok (row, { db with payments := row :: db.payments, clock := db.clock + 1 })

/-! ## The events and the outbox -/

/-- `insertIfNew`: whether the event is new, and the tables after. -/
def insertEvent (db : Db) (providerEventId : Nat) : Bool × Db :=
  if db.webhookEvents.contains providerEventId then (false, db)
  else (true, { db with webhookEvents := providerEventId :: db.webhookEvents })

def append (db : Db) (record : AuthorizedRecord) : Db :=
  { db with outbox := db.outbox ++ [record] }

end Db

end Commerce.Payments
