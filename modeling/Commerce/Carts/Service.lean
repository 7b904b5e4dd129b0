import Mathlib.Logic.Function.Basic
import Mathlib.Tactic.Common

/-!
# Carts

The cart service over its two tables.  Every statement is a step of its own,
so that any number of requests run between the reads and the writes of one.
A user has one cart by a unique index, and a cart one line per SKU by another.
-/

set_option autoImplicit false

namespace Commerce.Carts

def maxLineQuantity : Nat := 10

def maxCartLines : Nat := 100

/-- `MAX_RESERVATION_LINES` of the inventory service: the most lines one Try may have. -/
def maxReservationLines : Nat := 100

/-! ## Tables -/

structure CartRow where
  id : Nat
  userId : Nat
  deriving DecidableEq, Repr

structure CartItemRow where
  id : Nat
  cartId : Nat
  skuId : Nat
  quantity : Nat
  deriving DecidableEq, Repr

structure Db where
  carts : List CartRow
  items : List CartItemRow
  deriving DecidableEq, Repr

def findCartId (db : Db) (userId : Nat) : Option Nat :=
  (db.carts.find? fun cart => cart.userId == userId).map (·.id)

/-- `none` when the new id is taken; a user who has a cart gets no second one. -/
def insertCart (db : Db) (id userId : Nat) : Option (Option Nat × Db) :=
  if db.carts.any (·.userId == userId) then some (none, db)
  else if db.carts.any (·.id == id) then none
  else some (some id, { db with carts := db.carts ++ [⟨id, userId⟩] })

structure CartItem where
  skuId : Nat
  quantity : Nat
  deriving DecidableEq, Repr

def Db.lines (db : Db) (cartId : Nat) : List CartItemRow :=
  db.items.filter fun row => row.cartId == cartId

def findItems (db : Db) (cartId : Nat) : List CartItem :=
  (db.lines cartId).map fun row => ⟨row.skuId, row.quantity⟩

def CartItemRow.isLine (row : CartItemRow) (cartId skuId : Nat) : Bool :=
  row.cartId == cartId && row.skuId == skuId

/-- Adds to the line of the SKU up to the ceiling, or inserts the line. -/
def addItem (db : Db) (id cartId skuId quantity : Nat) : Option Db :=
  if db.items.any (·.isLine cartId skuId) then
    some { db with
      items := db.items.map fun row =>
        if row.isLine cartId skuId then
          { row with quantity := min (row.quantity + quantity) maxLineQuantity }
        else row }
  else if db.items.any (·.id == id) then none
  else some { db with items := db.items ++ [⟨id, cartId, skuId, quantity⟩] }

def setItemQuantity (db : Db) (cartId skuId quantity : Nat) : Bool × Db :=
  (db.items.any (·.isLine cartId skuId),
    { db with
      items := db.items.map fun row =>
        if row.isLine cartId skuId then { row with quantity := quantity } else row })

def removeItem (db : Db) (cartId skuId : Nat) : Db :=
  { db with items := db.items.filter fun row => !row.isLine cartId skuId }

def clear (db : Db) (cartId : Nat) : Db :=
  { db with items := db.items.filter fun row => row.cartId != cartId }

/-! ## Requests -/

/-- A quantity within the limits of the request's DTO. -/
structure LineQuantity where
  value : Nat
  positive : 1 ≤ value
  bounded : value ≤ maxLineQuantity
  deriving DecidableEq, Repr

inductive Request where
  | addItem (skuId : Nat) (quantity : LineQuantity)
  | setItemQuantity (skuId : Nat) (quantity : LineQuantity)
  | removeItem (skuId : Nat)
  | clear
  deriving DecidableEq, Repr

inductive CartError where
  | skuNotFound (skuId : Nat)
  | cartFull
  | itemNotFound (skuId : Nat)
  | cartNotEnsured
  | unavailable
  deriving DecidableEq, Repr

inductive Phase where
  | checkingSku
  | findingCart
  | creatingCart
  | refindingCart
  | reading (cartId : Nat)
  /-- The upsert of an add, with the lines it has counted. -/
  | adding (cartId : Nat) (lines : List CartItem)
  | changing (cartId : Nat)
  | viewing (cartId : Option Nat)
  | answered (items : List CartItem)
  | refused (error : CartError)
  deriving DecidableEq, Repr

structure Process where
  userId : Nat
  request : Request
  phase : Phase
  deriving DecidableEq, Repr

/-- An add looks its SKU up first; the others never create a cart. -/
def Request.first : Request → Phase
  | .addItem .. => .checkingSku
  | _ => .findingCart

def Request.found : Request → Option Nat → Phase
  | .addItem .., some cartId => .reading cartId
  | .addItem .., none => .creatingCart
  | _, some cartId => .changing cartId
  | .setItemQuantity skuId _, none => .refused (.itemNotFound skuId)
  | _, none => .viewing none

def countLines (skuId cartId : Nat) (lines : List CartItem) : Phase :=
  if maxCartLines ≤ lines.length ∧ !lines.any (·.skuId == skuId) then .refused .cartFull
  else .adding cartId lines

/-- What the surroundings put into one statement: whether the SKU is on sale, and a minted id. -/
structure Choice where
  onSale : Bool
  id : Nat
  deriving DecidableEq, Repr

/-- One statement of a request: the tables after it, and how the request goes on. -/
def statement (db : Db) (process : Process) (choice : Choice) : Option (Db × Phase) :=
  match process.phase, process.request with
  | .checkingSku, .addItem skuId _ =>
      some (db, if choice.onSale then .findingCart else .refused (.skuNotFound skuId))
  | .findingCart, request => some (db, request.found (findCartId db process.userId))
  | .creatingCart, _ =>
      match insertCart db choice.id process.userId with
      | none => some (db, .refused .unavailable)
      | some (some cartId, next) => some (next, .reading cartId)
      | some (none, next) => some (next, .refindingCart)
  | .refindingCart, _ =>
      match findCartId db process.userId with
      | some cartId => some (db, .reading cartId)
      | none => some (db, .refused .cartNotEnsured)
  | .reading cartId, .addItem skuId _ => some (db, countLines skuId cartId (findItems db cartId))
  | .adding cartId _, .addItem skuId quantity =>
      match addItem db choice.id cartId skuId quantity.value with
      | none => some (db, .refused .unavailable)
      | some next => some (next, .viewing (some cartId))
  | .changing cartId, .setItemQuantity skuId quantity =>
      let (updated, next) := setItemQuantity db cartId skuId quantity.value
      some (next, if updated then .viewing (some cartId) else .refused (.itemNotFound skuId))
  | .changing cartId, .removeItem skuId =>
      some (removeItem db cartId skuId, .viewing (some cartId))
  | .changing cartId, .clear => some (clear db cartId, .viewing (some cartId))
  | .viewing cartId, _ => some (db, .answered ((cartId.map (findItems db)).getD []))
  | _, _ => none

/-! ## Any number of requests -/

structure World where
  db : Db
  requests : Nat → Option Process

def start : World := ⟨⟨[], []⟩, fun _ => none⟩

inductive Event where
  | arrive (slot userId : Nat) (request : Request)
  | turn (slot : Nat) (choice : Choice)
  /-- A statement fails, or the process of the request dies. -/
  | fail (slot : Nat)
  deriving DecidableEq, Repr

def World.setPhase (world : World) (slot : Nat) (process : Process) (db : Db) (phase : Phase) :
    World :=
  ⟨db, Function.update world.requests slot (some { process with phase := phase })⟩

def step (world : World) : Event → Option World
  | .arrive slot userId request =>
      if world.requests slot = none then
        some (world.setPhase slot ⟨userId, request, request.first⟩ world.db request.first)
      else none
  | .turn slot choice => do
      let process ← world.requests slot
      let (db, phase) ← statement world.db process choice
      pure (world.setPhase slot process db phase)
  | .fail slot => do
      let process ← world.requests slot
      pure (world.setPhase slot process world.db (.refused .unavailable))

end Commerce.Carts
