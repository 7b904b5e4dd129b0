import Mathlib.Data.List.Sort
import Commerce.Inventory.Fence
import Commerce.Lib.Tables

/-!
# Stock levels, reservations and their headers

The three tables of the inventory service and every transaction that writes
them.  A transaction is atomic: an error anywhere in it rolls all of it back.
The header row serialises the commands of one order and the stock row locks
serialise the levels, so committed transactions act one after the other; what
the optimistic strategy reads before its conditional update takes no lock, so
those reads are arguments.
-/

set_option autoImplicit false

namespace Commerce.Inventory

open Tables

def int4Max : Int := 2147483647

def maxStockOnHand : Int := 1000000000

inductive ReservationStatus where
  | held
  | released
  | committed
  | restocked
  deriving DecidableEq, Repr, Inhabited

structure StockLevel where
  variantId : Nat
  quantityOnHand : Int
  quantityReserved : Int
  version : Int
  deriving DecidableEq, Repr

structure Reservation where
  id : Nat
  orderId : Nat
  variantId : Nat
  quantity : Int
  status : ReservationStatus
  expiresAt : Int
  deriving DecidableEq, Repr

structure ReservationOrder where
  orderId : Nat
  status : ReservationOrderStatus
  holdUntil : Option Int
  deriving DecidableEq, Repr

structure Stock where
  levels : List StockLevel
  reservations : List Reservation
  headers : List ReservationOrder
  deriving DecidableEq, Repr

inductive StockError where
  | insufficientStock (variantId : Nat) (requested available : Int)
  | reservationConflict (variantId : Nat)
  | deadline
  | checkViolation (constraint : String)
  | outOfRange
  | duplicateKey
  | ceiling
  deriving DecidableEq, Repr

structure ReservationLine where
  variantId : Nat
  quantity : Int
  deriving DecidableEq, Repr

/-! ## Constraints of the tables -/

def fitsInt4 (value : Int) : Bool := -int4Max - 1 ≤ value && value ≤ int4Max

/-- The row as the database would accept it: every column in range, every check met. -/
def checkLevel (level : StockLevel) : Except StockError StockLevel :=
  if !(fitsInt4 level.quantityOnHand && fitsInt4 level.quantityReserved &&
      fitsInt4 level.version) then .error .outOfRange
  else if level.quantityReserved > level.quantityOnHand then
    .error (.checkViolation "ck_stock_no_oversell")
  else if level.quantityOnHand < 0 then .error (.checkViolation "ck_stock_on_hand_nonneg")
  else if level.quantityReserved < 0 then .error (.checkViolation "ck_stock_reserved_nonneg")
  else .ok level

namespace Stock

def findLevel (stock : Stock) (variantId : Nat) : Option StockLevel :=
  stock.levels.find? fun level => level.variantId == variantId

/-- An `UPDATE stock_levels ... WHERE variant_id = ?` with its version bump.  It touches the
one row of the variant, or none. -/
def updateLevel (stock : Stock) (variantId : Nat) (set : StockLevel → StockLevel) :
    Except StockError Stock :=
  match stock.findLevel variantId with
  | none => .ok stock
  | some level => do
      let next ← checkLevel { set level with version := level.version + 1 }
      .ok { stock with
        levels := update (·.variantId) variantId (fun _ => next) stock.levels }

def findHeader (stock : Stock) (orderId : Nat) : Option ReservationOrder :=
  stock.headers.find? fun header => header.orderId == orderId

def isHeld (stock : Stock) (orderId variantId : Nat) : Bool :=
  stock.reservations.any fun row => row.orderId == orderId && row.variantId == variantId

def insertHeaderRow (stock : Stock) (row : ReservationOrder) : Bool × Stock :=
  match stock.findHeader row.orderId with
  | some _ => (false, stock)
  | none => (true, { stock with headers := stock.headers ++ [row] })

def insertHeader (stock : Stock) (orderId : Nat) (holdUntil : Int) : Bool × Stock :=
  stock.insertHeaderRow ⟨orderId, .held, some holdUntil⟩

def insertFencedHeader (stock : Stock) (orderId : Nat) : Bool × Stock :=
  stock.insertHeaderRow ⟨orderId, .fenced, none⟩

def setHeaderStatus (stock : Stock) (orderId : Nat) (status : ReservationOrderStatus) : Stock :=
  { stock with
    headers := update (·.orderId) orderId (fun row => { row with status := status })
      stock.headers }

/-- `ON CONFLICT (order_id, variant_id) DO NOTHING`: any other conflict is an error. -/
def insertHold (stock : Stock) (id orderId variantId : Nat) (quantity expiresAt : Int) :
    Except StockError Stock :=
  if stock.isHeld orderId variantId then .ok stock
  else if stock.reservations.any fun row => row.id == id then .error .duplicateKey
  else if !fitsInt4 quantity then .error .outOfRange
  else
    .ok { stock with
      reservations := stock.reservations ++ [⟨id, orderId, variantId, quantity, .held, expiresAt⟩] }

end Stock

/-! ## The two reservation strategies -/

/-- `localeCompare` on ids, which are decimal digit strings. -/
def idLe (a b : Nat) : Bool :=
  !List.lex (Nat.toDigits 10 b) (Nat.toDigits 10 a) fun c d => decide (c.toNat < d.toNat)

def sortLines (lines : List ReservationLine) : List ReservationLine :=
  lines.insertionSort fun a b => idLe a.variantId b.variantId

def raiseReserved (quantity : Int) (level : StockLevel) : StockLevel :=
  { level with quantityReserved := level.quantityReserved + quantity }

def reserveLine (stock : Stock) (orderId : Nat) (line : ReservationLine) (id : Nat)
    (expiresAt : Int) : Except StockError Stock :=
  match stock.findLevel line.variantId with
  | none => .error (.insufficientStock line.variantId line.quantity 0)
  | some level =>
      if stock.isHeld orderId line.variantId then .ok stock
      else
        let available := level.quantityOnHand - level.quantityReserved
        if available < line.quantity then
          .error (.insufficientStock line.variantId line.quantity available)
        else do
          let raised ← stock.updateLevel line.variantId (raiseReserved line.quantity)
          raised.insertHold id orderId line.variantId line.quantity expiresAt

def reservePessimistic (stock : Stock) (orderId : Nat) (expiresAt : Int) :
    List ReservationLine → List Nat → Except StockError Stock
  | [], _ => .ok stock
  | _ :: _, [] => .error .outOfRange
  | line :: lines, id :: ids => do
      let next ← reserveLine stock orderId line id expiresAt
      reservePessimistic next orderId expiresAt lines ids

/-- What the unlocked read of a level returned: some version of its row, or no row. -/
structure LevelRead where
  onHand : Int
  reserved : Int
  version : Int
  deriving DecidableEq, Repr

/-- The condition of the compare-and-swap, evaluated on the row as it is. -/
def casHolds (stock : Stock) (orderId variantId : Nat) (quantity : Int) (read : LevelRead) : Bool :=
  match stock.findLevel variantId with
  | none => false
  | some level =>
      level.version == read.version &&
        decide (level.quantityOnHand - level.quantityReserved ≥ quantity) &&
        !stock.isHeld orderId variantId

/-- The retry loop of `casReserve`, one unlocked read per attempt.  `none` when a hold already
exists.  When the reads are used up the transaction's deadline has passed. -/
def casReserve (maxRetries : Nat) (stock : Stock) (orderId variantId : Nat) (quantity : Int)
    (attempt : Nat) : List (Option LevelRead) → Except StockError (Option Stock)
  | [] => .error .deadline
  | read :: reads =>
      if stock.isHeld orderId variantId then .ok none
      else
        match read with
        | none => .error (.insufficientStock variantId quantity 0)
        | some row =>
            let available := row.onHand - row.reserved
            if available < quantity then .error (.insufficientStock variantId quantity available)
            else if attempt > maxRetries then .error (.reservationConflict variantId)
            else if casHolds stock orderId variantId quantity row then do
              let raised ← stock.updateLevel variantId (raiseReserved quantity)
              .ok (some raised)
            else casReserve maxRetries stock orderId variantId quantity (attempt + 1) reads

def reserveOptimistic (maxRetries : Nat) (stock : Stock) (orderId : Nat) (expiresAt : Int) :
    List ReservationLine → List Nat → List (List (Option LevelRead)) → Except StockError Stock
  | [], _, _ => .ok stock
  | line :: lines, id :: ids, reads :: rest => do
      match ← casReserve maxRetries stock orderId line.variantId line.quantity 0 reads with
      | none => reserveOptimistic maxRetries stock orderId expiresAt lines ids rest
      | some raised => do
          let next ← raised.insertHold id orderId line.variantId line.quantity expiresAt
          reserveOptimistic maxRetries next orderId expiresAt lines ids rest
  | _ :: _, _, _ => .error .outOfRange

/-! ## Resolving the lines of an order -/

inductive LineTransition where
  | commit
  | release
  | restock
  deriving DecidableEq, Repr, Inhabited

def LineTransition.source : LineTransition → ReservationStatus
  | .commit => .held
  | .release => .held
  | .restock => .committed

def LineTransition.target : LineTransition → ReservationStatus
  | .commit => .committed
  | .release => .released
  | .restock => .restocked

/-- `STOCK_DELTA` of the transition's target.  A restock is clamped, so a level near the
column's limit cannot make it fail. -/
def stockDelta (transition : LineTransition) (quantity : Int) (level : StockLevel) : StockLevel :=
  match transition with
  | .commit =>
      { level with
        quantityOnHand := level.quantityOnHand - quantity
        quantityReserved := level.quantityReserved - quantity }
  | .release => { level with quantityReserved := level.quantityReserved - quantity }
  | .restock => { level with quantityOnHand := min (level.quantityOnHand + quantity) int4Max }

def Reservation.key (row : Reservation) : Nat × Nat := (row.orderId, row.variantId)

def flip (transition : LineTransition) (row : Reservation) : Reservation :=
  if row.status = transition.source then { row with status := transition.target } else row

/-- One pending line: flip it if it is still in the source status, then move its stock. -/
def moveLine (orderId : Nat) (transition : LineTransition) (stock : Stock) (line : Reservation) :
    Except StockError Stock :=
  if stock.reservations.any fun row =>
      row.key == (orderId, line.variantId) && row.status == transition.source then
    { stock with
      reservations := update (·.key) (orderId, line.variantId) (flip transition)
        stock.reservations }.updateLevel line.variantId (stockDelta transition line.quantity)
  else .ok stock

def moveLines (stock : Stock) (orderId : Nat) (transition : LineTransition) :
    Except StockError Stock :=
  ((stock.reservations.filter fun row =>
      row.orderId == orderId && row.status == transition.source).insertionSort
    fun a b => idLe a.variantId b.variantId).foldlM (moveLine orderId transition) stock

/-! ## The participant -/

inductive LockStrategy where
  | pessimistic
  | optimistic
  deriving DecidableEq, Repr, Inhabited

inductive TryReserveOutcome where
  | reserved
  | outOfStock
  | contended
  | conflict
  deriving DecidableEq, Repr, Inhabited

inductive ParticipantCommandOutcome where
  | applied
  | idempotent
  | conflict
  deriving DecidableEq, Repr, Inhabited

/-- What a Try brings along: the minted reservation ids, and for the optimistic strategy the
reads of each line. -/
structure TryInput where
  orderId : Nat
  lines : List ReservationLine
  holdUntil : Int
  reservationIds : List Nat
  reads : List (List (Option LevelRead))
  deriving DecidableEq, Repr

def reserveLines (strategy : LockStrategy) (maxRetries : Nat) (opened : Stock)
    (input : TryInput) : Except StockError Stock :=
  match strategy with
  | .optimistic =>
      reserveOptimistic maxRetries opened input.orderId input.holdUntil (sortLines input.lines)
        input.reservationIds input.reads
  | .pessimistic =>
      reservePessimistic opened input.orderId input.holdUntil (sortLines input.lines)
        input.reservationIds

def tryTransaction (strategy : LockStrategy) (maxRetries : Nat) (stock : Stock)
    (input : TryInput) : Except StockError (TryReserveOutcome × Stock) :=
  match stock.insertHeader input.orderId input.holdUntil with
  | (true, opened) => do
      let next ← reserveLines strategy maxRetries opened input
      .ok (.reserved, next)
  | (false, _) =>
      match decideReservationFence .tryReserve
          ((stock.findHeader input.orderId).map (·.status)) with
      | .conflict => .ok (.conflict, stock)
      | _ => .ok (.reserved, stock)

/-- A refusal rolls the transaction back and is answered; any other error is thrown. -/
def tryReserve (strategy : LockStrategy) (maxRetries : Nat) (stock : Stock) (input : TryInput) :
    Except StockError TryReserveOutcome × Stock :=
  match tryTransaction strategy maxRetries stock input with
  | .ok (outcome, next) => (.ok outcome, next)
  | .error (.insufficientStock ..) => (.ok .outOfStock, stock)
  | .error (.reservationConflict ..) => (.ok .contended, stock)
  | .error error => (.error error, stock)

def LineTransition.op : LineTransition → ReservationFenceOp
  | .commit => .commit
  | .release => .release
  | .restock => .restock

/-- The transaction of a command.  A release that finds no header fences the order; a Try that
won the race for the header has committed before it, so the first read already shows it. -/
def commandTransaction (stock : Stock) (command : LineTransition) (orderId : Nat) :
    Except StockError (ParticipantCommandOutcome × Stock) :=
  match stock.findHeader orderId with
  | none =>
      if command = .release then .ok (.applied, (stock.insertFencedHeader orderId).2)
      else
        match decideReservationFence command.op none with
        | .idempotent => .ok (.idempotent, stock)
        | _ => .ok (.conflict, stock)
  | some header =>
      match decideReservationFence command.op (some header.status) with
      | .apply next => do
          let moved ← moveLines stock orderId command
          .ok (.applied, moved.setHeaderStatus orderId next)
      | .idempotent => .ok (.idempotent, stock)
      | .conflict => .ok (.conflict, stock)

def sweepTransaction (stock : Stock) (orderId : Nat) (now : Int) :
    Except StockError (Bool × Stock) :=
  match stock.findHeader orderId with
  | none => .ok (false, stock)
  | some header =>
      if header.status = .held ∧ (∃ lapsesAt ∈ header.holdUntil, lapsesAt < now) then do
        let moved ← moveLines stock orderId .release
        .ok (true, moved.setHeaderStatus orderId .released)
      else .ok (false, stock)

/-! ## The operator's writes -/

def setOnHand (stock : Stock) (variantId : Nat) (quantity : Int) : Except StockError Stock :=
  match stock.findLevel variantId with
  | some _ => stock.updateLevel variantId fun level => { level with quantityOnHand := quantity }
  | none => do
      let level ← checkLevel ⟨variantId, quantity, 0, 0⟩
      .ok { stock with levels := stock.levels ++ [level] }

/-- `none` where the level does not exist; above the ceiling the statement matches no row. -/
def adjust (stock : Stock) (variantId : Nat) (delta : Int) : Except StockError (Option Stock) :=
  match stock.findLevel variantId with
  | none => .ok none
  | some level =>
      if !fitsInt4 (level.quantityOnHand + delta) then .error .outOfRange
      else if level.quantityOnHand + delta ≤ maxStockOnHand then do
        let next ← stock.updateLevel variantId fun level =>
          { level with quantityOnHand := level.quantityOnHand + delta }
        .ok (some next)
      else .error .ceiling

end Commerce.Inventory
