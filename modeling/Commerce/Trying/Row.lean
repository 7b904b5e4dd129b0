import Commerce.Orders.History
import Commerce.Placing.Interleaving
import Commerce.Saga.CheckoutRun
import Commerce.Saga.Outstanding
import Commerce.Saga.Verifications

/-!
# The order row and its checkout run

The Try's result is written twice: by `applyTryResult` into the order row, and by
`onTryResult` into the saga's state once the engine has recorded the write.  A worker that
dies in between has the Try executed again, and the second execution may end differently.
-/

set_option autoImplicit false

namespace Commerce.Trying

open Commerce.Orders (Call Db OrderStatus SagaWriteResult append_ok applyOrderChange applyTryResult
  lockOrder_ok moveForSaga_ok placeHeld_ok statusOf_of_orders statusOf_updateOrder_self)
open Commerce.Placing.World (tryReason)
open Commerce.Saga
open Results

/-- One order, its checkout run once somebody started it, the executions of `applyTryResult`
the run asked for, and what the executions of the saga's writes answered. -/
structure World where
  db : Db
  run : Option Saga.Run
  dispatched : List (Nat × ReserveOutcome)
  tried : List (Nat × SagaWriteResult)
  changed : List (OrderChangeCommand × SagaWriteResult)
  deriving DecidableEq, Repr

inductive Event where
  /-- The reserve update of a request; starts the run if it is the first. -/
  | reserve (input : CheckoutSagaInput) (nowMs : Int)
  /-- The reaper hands the order back; a run that is there is left alone. -/
  | handBack (input : CheckoutSagaInput) (nowMs : Int)
  | saga (event : Saga.Event)
  | dispatchTry
  | writeTry (position outboxId : Nat) (now : Int)
  | changeOrder (change : OrderChangeCommand) (outboxId : Nat) (now : Int)
  /-- A transaction about another order. -/
  | elsewhere (call : Call)
  deriving DecidableEq, Repr

namespace World

def start (world : World) (input : CheckoutSagaInput) (nowMs : Int) : Option World :=
  if input.mode = .checkout then some { world with run := some (checkoutSaga input 0 nowMs) }
  else none

/-- The engine delivers the answer of one of the two writes only after an execution of it. -/
def Confirmed (world : World) (run : Saga.Run) : Saga.Event → Prop
  | .tryWritten seq result => (seq, result) ∈ world.tried
  | .answered seq (.written result) =>
      match takeTask seq run.pending with
      | some (⟨_, .applyOrderChange change, _, _⟩, _) => (change, result) ∈ world.changed
      | _ => True
  | _ => True

def confirms (world : World) (run : Saga.Run) : Saga.Event → Bool
  | .tryWritten seq result => decide ((seq, result) ∈ world.tried)
  | .answered seq (.written result) =>
      match takeTask seq run.pending with
      | some (⟨_, .applyOrderChange change, _, _⟩, _) => decide ((change, result) ∈ world.changed)
      | _ => true
  | _ => true

theorem confirms_iff (world : World) (run : Saga.Run) (event : Saga.Event) :
    world.confirms run event = true ↔ world.Confirmed run event := by
  unfold confirms Confirmed
  split
  · exact decide_eq_true_iff
  · split
    · exact decide_eq_true_iff
    · simp
  · simp

instance (world : World) (run : Saga.Run) (event : Saga.Event) :
    Decidable (world.Confirmed run event) :=
  decidable_of_iff _ (confirms_iff world run event)

end World

def step (orderId : Nat) (world : World) : Event → Option World
  | .reserve input nowMs =>
      match world.run with
      | none => world.start input nowMs
      | some run => (deliver run (.reserve nowMs)).map fun next => { world with run := some next }
  | .handBack input nowMs =>
      match world.run with
      | none => world.start input nowMs
      | some _ => some world
  | .saga event =>
      match world.run with
      | none => none
      | some run =>
          if world.Confirmed run event then
            (deliver run event).map fun next => { world with run := some next }
          else none
  | .dispatchTry =>
      match world.run.map Saga.Run.tryRun with
      | some (.applying seq outcome) =>
          some { world with dispatched := world.dispatched ++ [(seq, outcome)] }
      | _ => none
  | .writeTry position outboxId now =>
      match world.dispatched[position]? with
      | none => none
      | some (seq, outcome) =>
          match applyTryResult world.db orderId outcome (tryReason outcome) outboxId now with
          | .ok (result, db) => some { world with db, tried := world.tried ++ [(seq, result)] }
          | .error _ => none
  | .changeOrder change outboxId now =>
      match world.run with
      | none => none
      | some run =>
          if .issued (.changeOrder change) ∈ run.log then
            match applyOrderChange world.db orderId change.source change.target change.reason
                change.paymentRef outboxId now with
            | .ok (result, db) =>
                some { world with db, changed := world.changed ++ [(change, result)] }
            | .error _ => none
          else none
  | .elsewhere call =>
      if call.orderId = orderId then none
      else some { world with db := Orders.perform world.db call }

def created (db : Db) : World := ⟨db, none, [], [], []⟩

/-! ## What the two writes do to the row -/

/-- The status `applyTryResult` takes the order to. -/
def tryTarget (outcome : ReserveOutcome) : OrderStatus :=
  if outcome = .held then .pending else .rejected

theorem lockOrder_none (db : Db) (orderId : Nat) (lock : db.lockOrder orderId = .ok none) :
    db.findOrder orderId = none := by
  unfold Db.lockOrder at lock
  cases found : db.findOrder orderId with
  | none => rfl
  | some row =>
      simp only [found, bind_eq_ok] at lock
      obtain ⟨_, -, same⟩ := lock
      cases same

theorem applyTryResult_status (db next : Db) (orderId : Nat) (outcome : ReserveOutcome)
    (reason : String) (outboxId : Nat) (now : Int) (result : SagaWriteResult)
    (status : OrderStatus) (row : db.statusOf orderId = some status)
    (success : applyTryResult db orderId outcome reason outboxId now = .ok (result, next)) :
    (status ≠ .reserving ∧ next = db) ∨
      (status = .reserving ∧ next.statusOf orderId = some (tryTarget outcome)) := by
  simp only [applyTryResult, bind_eq_ok] at success
  obtain ⟨locked, lock, success⟩ := success
  cases locked with
  | none => simp [Db.statusOf, lockOrder_none db orderId lock] at row
  | some pair =>
      obtain ⟨order, key⟩ := pair
      obtain ⟨found, here, -, same, -, -⟩ := lockOrder_ok db orderId order key lock
      have carried : order.status = status := by
        rw [same]
        simpa [Db.statusOf, here] using row
      simp only at success
      by_cases already : order.status = (if outcome = .held then OrderStatus.pending else .rejected)
      · rw [if_pos already] at success
        cases success
        refine .inl ⟨?_, rfl⟩
        rw [← carried, already]
        split <;> decide
      rw [if_neg already] at success
      by_cases stale : order.status ≠ .reserving
      · rw [if_pos stale] at success
        cases success
        exact .inl ⟨carried ▸ stale, rfl⟩
      rw [if_neg stale] at success
      refine .inr ⟨carried ▸ not_not.mp stale, ?_⟩
      by_cases held : outcome ≠ .held
      · rw [if_pos held] at success
        obtain ⟨rejected, moved, final⟩ := (bind_eq_ok _ _ _).mp success
        cases final
        obtain ⟨-, rfl⟩ := Orders.Order.moveTo_ok order rejected _ _ moved
        refine (statusOf_updateOrder_self db orderId _ found ?_ here).trans ?_
        · exact fun _ => rfl
        · rw [tryTarget, if_neg held]
      · rw [if_neg held] at success
        obtain ⟨placed, written, final⟩ := (bind_eq_ok _ _ _).mp success
        cases final
        obtain ⟨-, orders, -⟩ := placeHeld_ok db next orderId order key outboxId written
        rw [statusOf_of_orders _ next orders, tryTarget, if_pos (not_not.mp held)]
        refine statusOf_updateOrder_self db orderId _ found ?_ here
        exact fun _ => rfl

theorem moveForSaga_target (order changed : Orders.Order) (target : OrderStatus) (now : Int)
    (reason : Option String) (paymentRef : Option Nat)
    (moved : Orders.moveForSaga order target now reason paymentRef = .ok changed) :
    target ≠ .pending ∧ target ≠ .reserving := by
  cases target <;> simp [Orders.moveForSaga] at moved ⊢

theorem applyOrderChange_status (db next : Db) (orderId : Nat) (source : List OrderStatus)
    (target : OrderStatus) (reason : Option String) (paymentRef : Option Nat) (outboxId : Nat)
    (now : Int) (result : SagaWriteResult) (status : OrderStatus)
    (row : db.statusOf orderId = some status)
    (success : applyOrderChange db orderId source target reason paymentRef outboxId now =
      .ok (result, next)) :
    (next = db ∧ (status = target ∨ status ∉ source)) ∨
      (target ≠ .pending ∧ target ≠ .reserving ∧ next.statusOf orderId = some target) := by
  simp only [applyOrderChange, bind_eq_ok] at success
  obtain ⟨locked, lock, success⟩ := success
  cases locked with
  | none => simp [Db.statusOf, lockOrder_none db orderId lock] at row
  | some pair =>
      obtain ⟨order, key⟩ := pair
      obtain ⟨found, here, -, same, -, -⟩ := lockOrder_ok db orderId order key lock
      have carried : order.status = status := by
        rw [same]
        simpa [Db.statusOf, here] using row
      simp only at success
      by_cases already : order.status = target
      · rw [if_pos already] at success
        cases success
        exact .inl ⟨rfl, .inl (carried ▸ already)⟩
      rw [if_neg already] at success
      by_cases stale : (!source.contains order.status) = true
      · rw [if_pos stale] at success
        cases success
        refine .inl ⟨rfl, .inr ?_⟩
        simpa [carried] using stale
      rw [if_neg stale] at success
      obtain ⟨changed, moved, success⟩ := (bind_eq_ok _ _ _).mp success
      obtain ⟨-, entered, -⟩ := moveForSaga_ok order changed target now _ _ moved
      obtain ⟨unpending, unreserving⟩ := moveForSaga_target order changed target now _ _ moved
      refine .inr ⟨unpending, unreserving, ?_⟩
      have written : (Orders.writeStatusChange db orderId changed).statusOf orderId =
          some target := by
        rw [← entered]
        refine statusOf_updateOrder_self db orderId _ found ?_ here
        exact fun _ => rfl
      by_cases confirming : target = .confirming
      · rw [if_pos confirming] at success
        cases success
        exact written
      · rw [if_neg confirming] at success
        simp only [bind_eq_ok] at success
        obtain ⟨event, -, appended, added, final⟩ := success
        cases final
        cases append_ok _ _ _ _ added
        rw [← written]
        exact statusOf_of_orders _ _ rfl orderId

/-! ## The two decisions -/

/-- The order row is where this outcome would take it, or nowhere yet. -/
def Settles (world : World) (orderId : Nat) (outcome : ReserveOutcome) : Prop :=
  world.db.statusOf orderId = some .reserving ∨
    world.db.statusOf orderId = some (tryTarget outcome)

instance (world : World) (orderId : Nat) (outcome : ReserveOutcome) :
    Decidable (Settles world orderId outcome) :=
  inferInstanceAs (Decidable (_ ∨ _))

/-- A Try that ends on an order in `PENDING` ends held.  A write finds the order in `RESERVING`
and takes it where the current one would, and the current one finds it there or where it would
take it.  Nobody cancels or terminates the run before the order has left `PENDING`. -/
def Agrees (orderId : Nat) (world : World) : Event → Prop
  | .saga event =>
      match world.run with
      | none => True
      | some run =>
          (∀ outcome ∈ triedAs run event,
              world.db.statusOf orderId = some .pending → outcome = .held) ∧
            (event = .fault → world.db.statusOf orderId ≠ some .reserving ∧
              world.db.statusOf orderId ≠ some .pending)
  | .writeTry position _ _ =>
      match world.run.map Saga.Run.tryRun, world.dispatched[position]? with
      | some (.applying seq current), some (named, outcome) =>
          (world.db.statusOf orderId = some .reserving → tryTarget current = tryTarget outcome) ∧
            (named = seq → Settles world orderId outcome)
      | _, _ => True
  | _ => True

instance (orderId : Nat) (world : World) (event : Event) :
    Decidable (Agrees orderId world event) := by
  unfold Agrees
  split
  · split <;> infer_instance
  · split <;> infer_instance
  · infer_instance

def Finishing (run : Saga.Run) : Prop :=
  ∃ target reason, .changeOrder (changeOrder .pending target reason) ∈ owed run.pending ∧
    target ∈ [OrderStatus.confirming, .expired, .cancelled]

/-- The saga will take the order out of `PENDING`: its Try is about to be held, or it waits for
the authorization and the deadline, or it owes the order the change. -/
def WillFinish (run : Saga.Run) : Prop :=
  (run.tryRun.going = true ∧
    ∀ seq outcome, run.tryRun = .applying seq outcome → outcome = .held) ∨
  (run.saga.step = .awaitingAuth ∧ run.body = .awaitingAuth) ∨
  Finishing run

/-! ## What the run and the row have to do with each other -/

/-- No number is given twice, so a write under the number the run applies is of what it applies. -/
structure Numbered (world : World) (run : Saga.Run) : Prop where
  applying : ∀ seq outcome, run.tryRun = .applying seq outcome → seq < run.nextSeq
  dispatched : ∀ seq outcome, (seq, outcome) ∈ world.dispatched → seq < run.nextSeq ∧
    ∀ current, run.tryRun = .applying seq current → outcome = current
  tried : ∀ seq result, (seq, result) ∈ world.tried → seq < run.nextSeq

structure Tracks (world : World) (run : Saga.Run) (status : OrderStatus) : Prop where
  checkout : CheckoutRun run
  numbered : Numbered world run
  unissued : run.saga.step.early = true → ∀ change, .issued (.changeOrder change) ∉ run.log
  targets : ∀ change, .issued (.changeOrder change) ∈ run.log → change.target ≠ .pending
  asked : ∀ change result, (change, result) ∈ world.changed →
    .issued (.changeOrder change) ∈ run.log
  planned : ∀ seq outcome, run.tryRun = .applying seq outcome →
    status = .pending → outcome = .held
  recorded : ∀ seq outcome result, run.tryRun = .applying seq outcome →
    (seq, result) ∈ world.tried → status = tryTarget outcome
  written : world.tried ≠ [] → status ≠ .reserving
  left : run.saga.step ≠ .reserving → status ≠ .reserving
  awaiting : run.saga.step = .awaitingAuth → status = .pending
  moved : ∀ change result, (change, result) ∈ world.changed → .pending ∈ change.source →
    status ≠ .pending
  finishing : status = .pending → run.saga.step ≠ .reserving → run.saga.step ≠ .awaitingAuth →
    Finishing run

theorem tryTarget_pending (outcome : ReserveOutcome) :
    tryTarget outcome = .pending ↔ outcome = .held := by
  unfold tryTarget
  split <;> simp [*]

theorem tried_awaiting (state : CheckoutSagaState) (outcome : ReserveOutcome)
    (reserving : state.step = .reserving)
    (awaiting : (onTryResult state outcome).state.step = .awaitingAuth) : outcome = .held := by
  rcases onTryResult_cases state outcome with ⟨elsewhere, -⟩ | ⟨-, held, -⟩ | ⟨-, -, fired⟩
  · exact absurd reserving elsewhere
  · exact held
  · simp [fired, compensate] at awaiting

theorem tryTarget_ne_reserving (outcome : ReserveOutcome) : tryTarget outcome ≠ .reserving := by
  unfold tryTarget
  split <;> decide

section Delivering

variable {world : World} {run next : Saga.Run} {status : OrderStatus} {event : Saga.Event}

theorem early_back (inv : CheckoutRun run) (moves : Moves run next event)
    (early : next.saga.step.early = true) : run.saga.step.early = true := by
  cases moves with
  | tried seq written outcome _ applying =>
      rw [inv.reserving_of_applying applying]
      rfl
  | planned _ _ saga =>
      rw [saga] at early
      exact early
  | onward moved =>
      unfold CheckoutStep.early at early
      split at early
      · rename_i reserving
        rw [moved.reserving.mp reserving]
        rfl
      · rename_i awaiting
        rw [moved.awaiting awaiting]
        rfl
      · cases early

/-- A change reported done was answered, so it was executed. -/
theorem reported_change (confirmed : world.Confirmed run event)
    (delivered : deliver run event = some next) (change : OrderChangeCommand)
    (reports : .changeOrder change ∈ reported run event) :
    ∃ result, (change, result) ∈ world.changed := by
  cases event with
  | answered seq result =>
      simp only [reported] at reports
      split at reports
      · rename_i task rest taken
        obtain ⟨named, activity, later, compensations⟩ := task
        have carries : activity = .applyOrderChange change := by
          cases activity <;> simp [Activity.owes] at reports
          rw [reports]
        subst carries
        simp only [deliver, taken, resume] at delivered
        split at delivered
        · cases delivered
        · cases result with
          | written answer =>
              refine ⟨answer, ?_⟩
              simpa [World.Confirmed, taken] using confirmed
          | _ => simp [settle] at delivered
      · simp at reports
  | _ => simp [reported] at reports

theorem owed_after {done : List SagaCommand} {entries : List Entry} {transition : Transition}
    (applied : Applied run next done entries transition) (command : SagaCommand)
    (stands : command ∈ owed run.pending ∨ command ∈ transition.commands)
    (unreported : command ∉ done) : command ∈ owed next.pending := by
  have member : command ∈ owed run.pending ++ transition.commands := List.mem_append.mpr stands
  have after := applied.owed.mem_iff.mp member
  exact (List.mem_append.mp after).resolve_left unreported

/-- A saga that leaves `AWAITING_AUTH` owes the order a change out of `PENDING`. -/
theorem finishing_left (tracks : Tracks world run status)
    (delivered : deliver run event = some next) (awaiting : run.saga.step = .awaitingAuth)
    (left : next.saga.step ≠ .awaitingAuth) : Finishing next := by
  obtain ⟨entries, transition, fires, applied⟩ := deliver_reports run next event delivered
  rw [applied.saga] at left
  have nothing := tracks.checkout.pivot.forward (by simp [awaiting]) (by simp [awaiting])
  obtain ⟨target, reason, issued, onto⟩ :=
    fires_out_of_awaiting fires tracks.checkout.mode awaiting nothing left
  refine ⟨target, reason, owed_after applied _ (.inr issued) ?_, onto⟩
  intro reports
  generalize reported run event = done at fires reports
  cases fires <;> simp at reports
  exact left awaiting

theorem finishing_stays (tracks : Tracks world run status) (confirmed : world.Confirmed run event)
    (delivered : deliver run event = some next) (row : status = .pending)
    (finishing : Finishing run) : Finishing next := by
  obtain ⟨entries, transition, fires, applied⟩ := deliver_reports run next event delivered
  obtain ⟨target, reason, owes, onto⟩ := finishing
  refine ⟨target, reason, owed_after applied _ (.inl owes) ?_, onto⟩
  intro reports
  obtain ⟨result, changed⟩ := reported_change confirmed delivered _ reports
  exact tracks.moved _ result changed (by simp [changeOrder]) row

theorem nextSeq_deliver (delivered : deliver run event = some next) :
    run.nextSeq ≤ next.nextSeq :=
  deliver_keeps (fun _ seq => run.nextSeq ≤ seq) (fun _ _ _ _ _ upto => Nat.le_succ_of_le upto) run
    next event (fun _ upto => upto) delivered

theorem numbered_deliver (numbered : Numbered world run) (moves : Moves run next event)
    (later : run.nextSeq ≤ next.nextSeq) : Numbered { world with run := some next } next := by
  obtain ⟨applying, dispatched, tried⟩ := numbered
  have old : ∀ seq result, (seq, result) ∈ world.tried → seq < next.nextSeq :=
    fun seq result member => Nat.lt_of_lt_of_le (tried seq result member) later
  refine ⟨?_, fun seq outcome member => ?_, old⟩
  · intro seq outcome now
    cases moves with
    | tried _ _ _ _ _ _ tryRun => cases tryRun.symm.trans now
    | planned _ _ _ _ fresh => exact (fresh seq outcome now).2.2
    | onward _ tryRun => exact Nat.lt_of_lt_of_le (applying seq outcome (tryRun ▸ now)) later
  · obtain ⟨before, same⟩ := dispatched seq outcome member
    refine ⟨Nat.lt_of_lt_of_le before later, fun current now => ?_⟩
    cases moves with
    | tried _ _ _ _ _ _ tryRun => cases tryRun.symm.trans now
    | planned _ _ _ _ fresh =>
        exact absurd before (Nat.not_lt.mpr (fresh seq current now).2.1)
    | onward _ tryRun => exact same current (tryRun ▸ now)

theorem tracks_deliver (tracks : Tracks world run status) (unfaulted : event ≠ .fault)
    (confirmed : world.Confirmed run event)
    (agrees : ∀ outcome ∈ triedAs run event, status = .pending → outcome = .held)
    (delivered : deliver run event = some next) :
    Tracks { world with run := some next } next status := by
  have moves := deliver_moves run next event tracks.checkout unfaulted delivered
  obtain ⟨entries, transition, fires, applied⟩ := deliver_reports run next event delivered
  have log := issued_after fires applied
  have finishing : status = .pending → run.saga.step ≠ .reserving →
      next.saga.step ≠ .awaitingAuth → Finishing next := by
    intro row left past
    by_cases awaiting : run.saga.step = .awaitingAuth
    · exact finishing_left tracks delivered awaiting past
    · exact finishing_stays tracks confirmed delivered row (tracks.finishing row left awaiting)
  have unissued : next.saga.step.early = true → ∀ change,
      .issued (.changeOrder change) ∉ next.log := by
    intro early change member
    rcases (log (.changeOrder change)).mp member with old | new
    · exact tracks.unissued (early_back tracks.checkout moves early) change old
    · rw [applied.saga, (fires_changes fires change new).1] at early
      cases early
  have targets : ∀ change, .issued (.changeOrder change) ∈ next.log → change.target ≠ .pending := by
    intro change member
    rcases (log (.changeOrder change)).mp member with old | new
    · exact tracks.targets change old
    · exact (fires_changes fires change new).2.1
  have asked : ∀ change result, (change, result) ∈ world.changed →
      .issued (.changeOrder change) ∈ next.log := by
    intro change result member
    exact (log _).mpr (.inl (tracks.asked change result member))
  have checkout := checkoutRun_deliver run next event tracks.checkout unfaulted delivered
  have numbered : Numbered { world with run := some next } next :=
    numbered_deliver tracks.numbered moves (nextSeq_deliver delivered)
  cases moves with
  | tried seq written outcome ends applying saga tryRun body =>
      subst ends
      have wrote : status ≠ .reserving := tracks.written (List.ne_nil_of_mem confirmed)
      have carried : status = tryTarget outcome :=
        tracks.recorded seq outcome written applying confirmed
      have reserving := tracks.checkout.reserving_of_applying applying
      refine ⟨checkout, numbered, unissued, targets, asked, ?_, ?_, tracks.written, fun _ => wrote,
        ?_, tracks.moved, ?_⟩
      · rw [tryRun]
        exact fun _ _ other => TryRun.noConfusion other
      · rw [tryRun]
        exact fun _ _ _ other => TryRun.noConfusion other
      · intro awaiting
        rw [carried, tryTarget_pending]
        exact tried_awaiting run.saga outcome reserving (saga ▸ awaiting)
      · intro row _ past
        rw [carried, tryTarget_pending] at row
        rw [saga, row, onTryResult, if_neg (not_not.mpr reserving), if_pos rfl] at past
        exact absurd rfl past
  | planned going still saga body tried =>
      have reserving := tracks.checkout.going.mp going
      refine ⟨checkout, numbered, unissued, targets, asked, ?_, ?_, tracks.written, ?_, ?_,
        tracks.moved, ?_⟩
      · intro seq outcome applying
        exact agrees outcome (tried seq outcome applying).1
      · intro seq outcome result applying member
        have before := tracks.numbered.tried seq result member
        exact absurd before (Nat.not_lt.mpr (tried seq outcome applying).2.1)
      · rw [saga]
        exact tracks.left
      · rw [saga]
        exact tracks.awaiting
      · intro _ left
        rw [saga] at left
        exact absurd reserving left
  | onward moved tryRun body =>
      refine ⟨checkout, numbered, unissued, targets, asked, ?_, ?_, tracks.written, ?_, ?_,
        tracks.moved, ?_⟩
      · rw [tryRun]
        exact tracks.planned
      · rw [tryRun]
        exact tracks.recorded
      · intro left
        exact tracks.left fun reserving => left (moved.reserving.mpr reserving)
      · intro awaiting
        exact tracks.awaiting (moved.awaiting awaiting)
      · intro row left past
        exact finishing row (fun reserving => left (moved.reserving.mpr reserving)) past

/-- The saga leaves `RESERVING` with the status the order row has. -/
theorem leaves_agree (tracks : Tracks world run status) (unfaulted : event ≠ .fault)
    (confirmed : world.Confirmed run event) (delivered : deliver run event = some next)
    (reserving : run.saga.step = .reserving) (left : next.saga.step ≠ .reserving) :
    next.saga.orderStatus = some status ∧
      (status = .pending ↔ next.saga.tryOutcome = some .held) := by
  cases deliver_moves run next event tracks.checkout unfaulted delivered with
  | tried seq written outcome ends applying saga =>
      subst ends
      have wrote : status ≠ .reserving := tracks.written (List.ne_nil_of_mem confirmed)
      have carried : status = tryTarget outcome :=
        tracks.recorded seq outcome written applying confirmed
      rw [saga, carried, tryTarget_pending]
      rcases onTryResult_cases run.saga outcome with
        ⟨elsewhere, -⟩ | ⟨-, held, fired⟩ | ⟨-, refused, fired⟩
      · exact absurd reserving elsewhere
      · rw [fired, held]
        exact ⟨rfl, by simp⟩
      · rw [fired, tryTarget, if_neg refused]
        exact ⟨rfl, by simp [compensate]⟩
  | planned _ _ saga =>
      rw [saga] at left
      exact absurd reserving left
  | onward moved => exact absurd (moved.reserving.mpr reserving) left

end Delivering

/-! ## Writes to the row -/

section Writing

variable {world : World} {run : Saga.Run} {status : OrderStatus}

theorem tracks_wrote (tracks : Tracks world run status) (after : World) (outcome : ReserveOutcome)
    (numbered : Numbered after run) (reserving : status = .reserving)
    (changed : after.changed = world.changed)
    (current : ∀ seq planned, run.tryRun = .applying seq planned →
      tryTarget planned = tryTarget outcome) : Tracks after run (tryTarget outcome) := by
  have step : run.saga.step = .reserving := by
    by_contra left
    exact tracks.left left reserving
  constructor
  · exact tracks.checkout
  · exact numbered
  · exact tracks.unissued
  · exact tracks.targets
  · rw [changed]
    exact tracks.asked
  · intro seq planned applying held
    rw [← current seq planned applying] at held
    exact (tryTarget_pending planned).mp held
  · exact fun seq planned _ applying _ => (current seq planned applying).symm
  · exact fun _ => tryTarget_ne_reserving outcome
  · exact fun _ => tryTarget_ne_reserving outcome
  · intro awaiting
    rw [step] at awaiting
    cases awaiting
  · intro change result member
    rw [changed] at member
    exact absurd (tracks.asked change result member) (tracks.unissued (by rw [step]; rfl) change)
  · intro _ left
    exact absurd step left

theorem tracks_rewrote (tracks : Tracks world run status) (after : World) (seq : Nat)
    (result : SagaWriteResult) (numbered : Numbered after run) (past : status ≠ .reserving)
    (tried : after.tried = world.tried ++ [(seq, result)]) (changed : after.changed = world.changed)
    (settled : ∀ current, run.tryRun = .applying seq current → status = tryTarget current) :
    Tracks after run status := by
  obtain ⟨checkout, -, unissued, targets, asked, planned, recorded, written, left, awaiting, moved,
    finishing⟩ := tracks
  refine ⟨checkout, numbered, unissued, targets, ?_, planned, ?_, fun _ => past, left, awaiting, ?_,
    finishing⟩
  · rw [changed]
    exact asked
  · intro named outcome answer applying member
    rw [tried] at member
    rcases List.mem_append.mp member with old | new
    · exact recorded named outcome answer applying old
    · cases List.mem_singleton.mp new
      exact settled outcome applying
  · rw [changed]
    exact moved

/-- An order change is issued once the saga is past `AWAITING_AUTH`, and ends off `PENDING`. -/
theorem tracks_changed (tracks : Tracks world run status) (after : World)
    (change : OrderChangeCommand) (result : SagaWriteResult) (entered : OrderStatus)
    (numbered : Numbered after run) (issued : .issued (.changeOrder change) ∈ run.log)
    (changed : after.changed = world.changed ++ [(change, result)])
    (row : (entered = status ∧ (status = change.target ∨ status ∉ change.source)) ∨
      (entered = change.target ∧ change.target ≠ .reserving)) :
    Tracks after run entered := by
  have late : run.saga.step.early = false := by
    cases early : run.saga.step.early with
    | false => rfl
    | true => exact absurd issued (tracks.unissued early change)
  have left : run.saga.step ≠ .reserving := by
    intro reserving
    rw [reserving] at late
    cases late
  have stays : entered ≠ .reserving := by
    rcases row with ⟨same, -⟩ | ⟨same, other⟩
    · rw [same]
      exact tracks.left left
    · rw [same]
      exact other
  have target := tracks.targets change issued
  have back : entered = .pending → entered = status ∧ .pending ∉ change.source := by
    intro pending
    rcases row with ⟨same, atTarget | elsewhere⟩ | ⟨same, -⟩
    · exact absurd (atTarget.symm.trans (same.symm.trans pending)) target
    · refine ⟨same, ?_⟩
      rw [← pending, same]
      exact elsewhere
    · exact absurd (same.symm.trans pending) target
  constructor
  · exact tracks.checkout
  · exact numbered
  · exact tracks.unissued
  · exact tracks.targets
  · intro other answer member
    rw [changed] at member
    rcases List.mem_append.mp member with old | new
    · exact tracks.asked other answer old
    · cases List.mem_singleton.mp new
      exact issued
  · intro seq planned applying
    exact absurd (tracks.checkout.reserving_of_applying applying) left
  · intro seq planned answer applying
    exact absurd (tracks.checkout.reserving_of_applying applying) left
  · exact fun _ => stays
  · exact fun _ => stays
  · intro awaiting
    rw [awaiting] at late
    cases late
  · intro other answer member ofPending pending
    obtain ⟨same, kept⟩ := back pending
    rw [changed] at member
    rcases List.mem_append.mp member with old | new
    · exact tracks.moved other answer old ofPending (same.symm.trans pending)
    · cases List.mem_singleton.mp new
      exact kept ofPending
  · intro pending past further
    exact tracks.finishing ((back pending).1.symm.trans pending) past further

end Writing

theorem statusOf_elsewhere (db : Db) (call : Call) (orderId : Nat)
    (other : call.orderId ≠ orderId) :
    (Orders.perform db call).statusOf orderId = db.statusOf orderId := by
  cases Orders.perform_writes db call with
  | nothing same => rw [same]
  | created _ _ others => exact others orderId (Ne.symm other)
  | moved _ _ _ _ _ others => exact others orderId (Ne.symm other)

end Commerce.Trying
