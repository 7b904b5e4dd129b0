import Mathlib.Logic.Function.Basic
import Commerce.Placing.Requests

/-!
# Checkouts in any order

Every request, every saga run, the reaper and the sweeps of the order service,
one statement at a time.  A request's process may die, and any call it awaits
may throw before or after it took effect.  A saga's Try result is written by
an attempt that may run again, and long after the engine gave up on it.
-/

set_option autoImplicit false

namespace Commerce.Placing

open Commerce.Orders (Db IdempotencyRow Order OrderStatus OrderView SagaWriteResult
  createReserving applyTryResult findById maxPendingOrdersPerUser)
open Commerce.Saga (CheckoutSagaInput PaymentAuthorization ReserveOutcome compensationReasonForTry
  finalizeReasonOf)

structure Answer where
  userId : Nat
  key : String
  status : Nat
  body : Option OrderView
  deriving DecidableEq, Repr

structure Creation where
  userId : Nat
  key : String
  orderId : Nat
  deriving DecidableEq, Repr

/-- An execution of `applyTryResult` that a run asked for. -/
structure TryWrite where
  run : Nat
  seq : Nat
  outcome : ReserveOutcome
  deriving DecidableEq, Repr

structure World where
  db : Db
  requests : Nat → Option Process
  /-- The runs the engine started, each with its order. -/
  runs : Nat → Option (Nat × Saga.Run)
  /-- The run the engine knows under the order's workflow id, open or closed. -/
  current : Nat → Option Nat
  dispatched : List TryWrite
  written : List (TryWrite × SagaWriteResult)
  /-- The orders the reaper read and has yet to hand back. -/
  reaping : List Order
  /-- Every id the id service has handed out. -/
  minted : List Nat
  created : List Creation
  answers : List Answer

def start : World where
  db := ⟨[], [], [], []⟩
  requests := fun _ => none
  runs := fun _ => none
  current := fun _ => none
  dispatched := []
  written := []
  reaping := []
  minted := []
  created := []
  answers := []

/-- What a served call takes from outside: minted ids, the server's clock, what the cart and
the catalog hold, and the name of a run it may start. -/
structure Given where
  ids : List Nat
  nowMs : Int
  lines : List OrderCartLine
  views : List OrderSkuView
  run : Nat

inductive Event where
  | arrive (slot : Nat) (request : Request) (nowMs : Int)
  | serve (slot : Nat) (given : Given)
  | proceed (slot : Nat) (nowMs : Int)
  | fail (slot : Nat) (failure : Failure)
  | die (slot : Nat)
  /-- Anything the engine may deliver to a run. -/
  | saga (run : Nat) (event : Saga.Event)
  | dispatchTry (run : Nat)
  | writeTry (position outboxId : Nat) (now : Int)
  /-- An order change of some saga. -/
  | changeOrder (orderId : Nat) (change : Saga.OrderChangeCommand) (outboxId : Nat) (now : Int)
  | notifyAuthorized (orderId : Nat) (authorization : PaymentAuthorization) (run : Nat)
      (nowMs : Int)
  | reap (nowMs : Int) (limit : Nat)
  | handBack (position run : Nat) (nowMs : Int)
  /-- The engine's retention drops a closed run. -/
  | forget (orderId : Nat)
  | sweepKeys (nowMs : Int) (batch : List Nat)
  | sweepRejected (cutoff : Int) (batch : List Nat)

namespace World

def setPhase (world : World) (slot : Nat) (process : Process) (phase : Phase) : World :=
  { world with requests := Function.update world.requests slot (some { process with phase }) }

def setRun (world : World) (run orderId : Nat) (state : Saga.Run) : World :=
  { world with runs := Function.update world.runs run (some (orderId, state)) }

def startRun (world : World) (run orderId : Nat) (input : CheckoutSagaInput) (nowMs : Int) :
    World :=
  { world.setRun run orderId (Saga.checkoutSaga input 0 nowMs) with
    current := Function.update world.current orderId (some run) }

def mint (world : World) (ids : List Nat) : Option World :=
  if ids.Nodup ∧ ∀ id ∈ ids, id ∉ world.minted then
    some { world with minted := world.minted ++ ids }
  else none

/-- `executeUpdateWithStart` of the reserve update. -/
def reserve (world : World) (orderId : Nat) (input : CheckoutSagaInput) (given : Given) :
    Option (World × Reply) :=
  match world.current orderId with
  | none =>
      if world.runs given.run = none then
        some (world.startRun given.run orderId input given.nowMs, .attached given.run)
      else none
  | some run =>
      match world.runs run with
      | none => none
      | some (owner, state) =>
          match Saga.deliver state (.reserve given.nowMs) with
          | none => some (world, .closed)
          | some next => some (world.setRun run owner next, .attached run)

/-- The transaction of `createReserving`, after the ids are minted. -/
def create (world : World) (request : Request) (draft : Order) (orderId : Nat)
    (itemIds : List Nat) : Option (World × Reply) :=
  match createReserving world.db draft (some request.key) orderId itemIds with
  | .ok (result, db) =>
      some ({ world with
          db
          created := world.created ++
            if result.created then [⟨request.userId, request.key, orderId⟩] else [] },
        .reserving result)
  | .error _ =>
      if (world.db.existingUnder draft.userId (some request.key)).isNone &&
          world.db.inFlight draft.userId ≥ maxPendingOrdersPerUser then
        some (world, .tooManyPending)
      else none

/-- The awaited call takes effect; a call that throws instead is a `fail`. -/
def call (settings : Settings) (world : World) (process : Process) (given : Given) :
    Awaiting → Option (World × Reply)
  | .lookup | .lookupAgain =>
      some (world, .record
        (world.db.findByScopeAndKey process.request.scope process.request.key))
  | .insert | .reclaim =>
      match given.ids with
      | [id] => do
          let world ← world.mint [id]
          let (found, db) := world.db.tryInsertInProgress id process.request.scope
            process.request.key (computeRequestHash settings process.request) process.expiresAt
            given.nowMs
          some ({ world with db }, .record found)
      | _ => none
  | .expire cutoff =>
      some ({ world with
          db := world.db.deleteExpiredInProgress process.request.scope process.request.key cutoff },
        .deleted)
  | .snapshot _ => some (world, .cart given.lines given.views)
  | .create _ draft =>
      match given.ids with
      | orderId :: itemIds => do
          let world ← world.mint (orderId :: itemIds)
          if itemIds.length = draft.items.length then
            world.create process.request draft orderId itemIds
          else none
      | [] => none
  | .reserve _ _ _ orderId input => world.reserve orderId input given
  | .outcome _ _ _ _ run =>
      match world.runs run with
      | some (_, state) =>
          match state.tryRun with
          | .done outcome => some (world, .tried outcome)
          | _ => none
      | none => none
  | .readAfterClose _ orderId =>
      match findById world.db orderId with
      | .ok found => some (world, .order found)
      | .error _ => none
  | .complete _ view =>
      some ({ world with
          db := world.db.markCompleted process.request.scope process.request.key 201 view
            (view.id.getD 0) },
        .completed)
  | .cleanup claimId _ => some ({ world with db := world.db.deleteInProgress claimId }, .deleted)

def record (world : World) (request : Request) : Phase → World
  | .finished (.success status body) =>
      { world with
        answers := world.answers ++ [⟨request.userId, request.key, status, body⟩] }
  | _ => world

/-- The engine delivers the result of a Try's write only after an attempt at that write. -/
def Confirmed (world : World) (run : Nat) (state : Saga.Run) : Saga.Event → Prop
  | .tryWritten seq result =>
      match state.tryRun with
      | .applying _ outcome => (⟨run, seq, outcome⟩, result) ∈ world.written
      | _ => False
  | _ => True

instance (world : World) (run : Nat) (state : Saga.Run) (event : Saga.Event) :
    Decidable (world.Confirmed run state event) := by
  unfold Confirmed
  split
  · split <;> infer_instance
  · infer_instance

def tryReason (outcome : ReserveOutcome) : String :=
  if outcome = .held then "" else finalizeReasonOf (compensationReasonForTry outcome)

/-- `signalWithStart`: signals the open run, or opens one that knows nothing of the Try. -/
def notifyAuthorized (settings : Settings) (world : World) (orderId : Nat)
    (authorization : PaymentAuthorization) (run : Nat) (nowMs : Int) : Option World :=
  match findById world.db orderId with
  | .ok (some order) =>
      match toCheckoutSagaStart settings order .lateAuthorization none with
      | .error _ => none
      | .ok (_, input) =>
          let signalled : Option World := do
            let (index, owner, state) ← (world.current orderId).bind fun index =>
              (world.runs index).map fun pair => (index, pair)
            let next ← Saga.deliver state (.paymentAuthorized authorization)
            some (world.setRun index owner next)
          match signalled with
          | some next => some next
          | none =>
              if world.runs run = none then
                (Saga.deliver (Saga.checkoutSaga input 0 nowMs)
                  (.paymentAuthorized authorization)).map fun next =>
                    (world.startRun run orderId input nowMs).setRun run orderId next
              else none
  | _ => none

end World

def step (settings : Settings) (world : World) : Event → Option World
  | .arrive slot request nowMs =>
      if world.requests slot = none then
        some { world with
          requests := Function.update world.requests slot
            (some
              { request := request
                expiresAt := nowMs + idempotencyTtlMs
                phase := .asked .lookup }) }
      else none
  | .serve slot given =>
      match world.requests slot with
      | some process =>
          match process.phase with
          | .asked awaiting =>
              (world.call settings process given awaiting).map fun (next, reply) =>
                next.setPhase slot process (.answered awaiting reply)
          | _ => none
      | none => none
  | .proceed slot nowMs =>
      match world.requests slot with
      | some process =>
          match process.phase with
          | .answered awaiting reply =>
              (proceed settings process.request nowMs awaiting reply).map fun phase =>
                (world.setPhase slot process phase).record process.request phase
          | _ => none
      | none => none
  | .fail slot failure =>
      match world.requests slot with
      | some process =>
          match process.phase with
          | .asked awaiting | .answered awaiting _ =>
              some (world.setPhase slot process (fail failure awaiting))
          | .finished _ => none
      | none => none
  | .die slot => some { world with requests := Function.update world.requests slot none }
  | .saga run event =>
      match world.runs run with
      | some (orderId, state) =>
          if world.Confirmed run state event then
            (Saga.deliver state event).map (world.setRun run orderId)
          else none
      | none => none
  | .dispatchTry run =>
      match world.runs run with
      | some (_, state) =>
          match state.tryRun with
          | .applying seq outcome =>
              some { world with dispatched := world.dispatched ++ [⟨run, seq, outcome⟩] }
          | _ => none
      | none => none
  | .writeTry position outboxId now =>
      match world.dispatched[position]? with
      | some write =>
          match world.runs write.run with
          | some (orderId, _) =>
              match applyTryResult world.db orderId write.outcome (World.tryReason write.outcome)
                  outboxId now with
              | .ok (result, db) =>
                  some { world with db, written := world.written ++ [(write, result)] }
              | .error _ => none
          | none => none
      | none => none
  | .changeOrder orderId change outboxId now =>
      some { world with
        db := Orders.perform world.db
          (.applyOrderChange orderId change.source change.target change.reason change.paymentRef
            outboxId now) }
  | .notifyAuthorized orderId authorization run nowMs =>
      world.notifyAuthorized settings orderId authorization run nowMs
  | .reap nowMs limit =>
      match Orders.findReservingOlderThan world.db (nowMs - settings.reservingOrphanMs) limit with
      | .ok orders => some { world with reaping := world.reaping ++ orders }
      | .error _ => none
  | .handBack position run nowMs =>
      match world.reaping[position]? with
      | some order =>
          match toCheckoutSagaStart settings order .checkout none with
          | .ok (orderId, input) =>
              -- a run under the id is left alone, open or closed
              if world.current orderId = none ∧ world.runs run = none then
                some (world.startRun run orderId input nowMs)
              else none
          | .error _ => none
      | none => none
  | .forget orderId =>
      match (world.current orderId).bind world.runs with
      | some (_, state) =>
          if state.body = .closed then
            some { world with current := Function.update world.current orderId none }
          else none
      | none => none
  | .sweepKeys nowMs batch =>
      some { world with
        db := world.db.deleteExpired (nowMs - settings.idempotencyGraceMs) batch }
  | .sweepRejected cutoff batch =>
      some { world with db := Orders.deleteRejectedBefore world.db cutoff batch }

end Commerce.Placing
