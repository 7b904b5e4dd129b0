import Commerce.Lib.Runs
import Commerce.Saga.Transitions

/-!
# The checkout workflow

One run of `CheckoutSaga`: the saga's state, the activities it waits for, and
the events the workflow engine may deliver next.  Activities carry the
continuation of the `execute` call that awaits them, so an answer resumes
exactly the code that scheduled it.  Answers may arrive in any order.
-/

set_option autoImplicit false

namespace Commerce.Saga

open Commerce.Orders (OrderStatus SagaWriteResult)

structure CheckoutSagaInput where
  mode : CheckoutSagaMode
  placedAt : Int
  tryStartedAt : Option Int
  totalMinor : Int
  currency : String
  tryTimeoutMs : Int
  deriving DecidableEq, Repr

inductive Activity where
  | applyOrderChange (change : OrderChangeCommand)
  | verifyAuthorization (authorization : PaymentAuthorization)
  | commitStock
  | capturePayment
  | compensation (command : CompensationCommand)
  | loadLateAuthorizationContext
  deriving DecidableEq, Repr

inductive ActivityResult where
  | written (result : SagaWriteResult)
  | verdict (verdict : AuthorizationVerdict)
  | committed (outcome : CommitOutcome)
  | captured (outcome : SettledCaptureOutcome)
  | compensated
  | context (status : Option OrderStatus)
  deriving DecidableEq, Repr

/-- An activity in flight: what is left of the command list of the `execute`
call awaiting it, and the compensations that call has set aside. -/
structure Task where
  seq : Nat
  activity : Activity
  rest : List SagaCommand
  compensations : List CompensationCommand
  deriving DecidableEq, Repr

/-- How a Try attempt ends for the workflow: an answer, a timeout, another failure. -/
inductive TryAnswer where
  | answered (outcome : ParticipantTryOutcome)
  | timedOut
  | failed
  deriving DecidableEq, Repr

/-- The promise `tryRun`, shared by the reserve update and the body. -/
inductive TryRun where
  | idle
  | attempting (seq : Nat)
  | applying (seq : Nat) (outcome : ReserveOutcome)
  | done (outcome : ReserveOutcome)
  deriving DecidableEq, Repr

inductive Body where
  | loadingContext
  | trying
  | awaitingAuth
  | settling
  | closed
  deriving DecidableEq, Repr, Inhabited

/-- What the run has done so far, as an observer of the engine would record it. -/
inductive Entry where
  | carries (status : OrderStatus)
  | issued (command : SagaCommand)
  | committed (outcome : CommitOutcome)
  | captured (outcome : SettledCaptureOutcome)
  | cancelAccepted
  deriving DecidableEq, Repr

structure Run where
  input : CheckoutSagaInput
  saga : CheckoutSagaState
  tryRun : TryRun
  body : Body
  pending : List Task
  cancelHandlers : Nat
  nextSeq : Nat
  log : List Entry
  deriving DecidableEq, Repr

/-! ## Executing commands -/

def schedule (run : Run) (activity : Activity) (rest : List SagaCommand)
    (compensations : List CompensationCommand) : Run :=
  { run with
    pending := run.pending ++ [⟨run.nextSeq, activity, rest, compensations⟩]
    nextSeq := run.nextSeq + 1 }

def compensateAll (run : Run) : List CompensationCommand → Run
  | [] => run
  | command :: rest => compensateAll (schedule run (.compensation command) [] []) rest

/-- Runs a command list up to its first awaited activity.  Verifications are started
and not awaited, compensations are set aside until everything before them is done. -/
def execute (run : Run) : List SagaCommand → List CompensationCommand → Run
  | [], compensations => compensateAll run compensations
  | .changeOrder change :: rest, compensations =>
      schedule run (.applyOrderChange change) rest compensations
  | .verifyAuthorization authorization :: rest, compensations =>
      execute (schedule run (.verifyAuthorization authorization) [] []) rest compensations
  | .commitStock :: rest, compensations => schedule run .commitStock rest compensations
  | .capturePayment :: rest, compensations => schedule run .capturePayment rest compensations
  | .compensation command :: rest, compensations => execute run rest (compensations ++ [command])

def record (run : Run) (entry : Entry) : Run := { run with log := run.log ++ [entry] }

/-- The log entries of one transition: the order status it starts to carry, then its commands. -/
def entriesOf (state : CheckoutSagaState) (transition : Transition) : List Entry :=
  (if transition.state.orderStatus = state.orderStatus then []
    else transition.state.orderStatus.toList.map .carries) ++
    transition.commands.map .issued

def apply (run : Run) (transition : Transition) : Run :=
  execute
    { run with
      saga := transition.state
      log := run.log ++ entriesOf run.saga transition }
    transition.commands []

/-! ## The Try -/

def attemptTry (run : Run) (nowMs : Int) : Run :=
  match planTry (run.input.tryStartedAt.getD run.input.placedAt) run.input.tryTimeoutMs nowMs with
  | .abandon =>
      { run with tryRun := .applying run.nextSeq .abandoned, nextSeq := run.nextSeq + 1 }
  | .attempt _ => { run with tryRun := .attempting run.nextSeq, nextSeq := run.nextSeq + 1 }

/-- The Try runs once, whether the body or the reserve update asks first. -/
def runTry (run : Run) (nowMs : Int) : Run :=
  if run.tryRun = .idle then attemptTry run nowMs else run

def TryAnswer.outcome : TryAnswer → ReserveOutcome
  | .answered outcome => toReserveOutcome outcome
  | .timedOut => .timeout
  | .failed => .error

/-- A worker died before the engine recorded the result of a local activity: the Try is
planned and executed again.  When only the Try's own result was recorded, it is its
`applyTryResult` that runs again. -/
def crash (run : Run) (tryRecorded : Bool) (nowMs : Int) : Run :=
  match run.tryRun with
  | .idle => run
  | .attempting _ => attemptTry run nowMs
  | .applying _ outcome =>
      if tryRecorded then
        { run with tryRun := .applying run.nextSeq outcome, nextSeq := run.nextSeq + 1 }
      else attemptTry run nowMs
  | .done _ => run

/-! ## Events -/

inductive Event where
  | reserve (nowMs : Int)
  | tryAnswered (seq : Nat) (answer : TryAnswer)
  | tryWritten (seq : Nat) (written : SagaWriteResult)
  | crash (tryRecorded : Bool) (nowMs : Int)
  | paymentAuthorized (authorization : PaymentAuthorization)
  | cancel (requester : CancelBy)
  | answered (seq : Nat) (result : ActivityResult)
  | settledInTime
  | deadline
  | returned
  | fault
  deriving DecidableEq, Repr

def takeTask (seq : Nat) : List Task → Option (Task × List Task)
  | [] => none
  | task :: rest =>
      if task.seq = seq then some (task, rest)
      else (takeTask seq rest).map fun found => (found.1, task :: found.2)

/-- What the run does with an activity's answer; `none` when the answer is of another kind. -/
def settle (run : Run) : Activity → ActivityResult → Option Run
  -- a stale answer is logged and otherwise ignored
  | .applyOrderChange _, .written _ => some run
  | .verifyAuthorization authorization, .verdict verdict =>
      some (apply run (onAuthorizationVerified run.saga authorization verdict).transition)
  | .commitStock, .committed outcome =>
      some (apply (record run (.committed outcome)) (onCommitResult run.saga outcome))
  | .capturePayment, .captured outcome =>
      some (apply (record run (.captured outcome)) (onCaptureResult run.saga outcome))
  | .compensation command, .compensated =>
      some (apply run (onCompensationDone run.saga command.id))
  | .loadLateAuthorizationContext, .context status =>
      some (apply { run with body := .settling } (onLateAuthorizationContext run.saga status))
  | _, _ => none

/-- The code after the `await` that scheduled the task: its answer, then the rest of the
command list that awaited it (empty for the activities awaited on their own). -/
def resume (run : Run) (task : Task) (result : ActivityResult) : Option Run :=
  (settle run task.activity result).map fun settled =>
    execute settled task.rest task.compensations

def settledSteps : List CheckoutStep := [.completed, .compensated]

/-- The condition the body waits for last: settled, nothing in flight, every handler finished. -/
def canReturn (run : Run) : Bool :=
  run.body == .settling && settledSteps.contains run.saga.step && run.pending.isEmpty &&
    (match run.tryRun with | .idle => true | .done _ => true | _ => false) &&
    (run.cancelHandlers == 0 || run.saga.step == .compensated)

/-- One event the engine delivers to an open run; `none` where it cannot happen. -/
def deliver (run : Run) : Event → Option Run
  | .reserve nowMs => if run.body = .closed then none else some (runTry run nowMs)
  | .tryAnswered seq answer =>
      if run.body = .closed then none
      else if run.tryRun = .attempting seq then
        some { run with
          tryRun := .applying run.nextSeq answer.outcome, nextSeq := run.nextSeq + 1 }
      else none
  | .tryWritten seq _ =>
      match run.tryRun with
      | .applying current outcome =>
          if run.body = .closed ∨ current ≠ seq then none
          else
            some (apply { run with
              tryRun := .done outcome
              body := if run.body = .trying then .awaitingAuth else run.body }
              (onTryResult run.saga outcome))
      | _ => none
  | .crash tryRecorded nowMs =>
      if run.body = .closed then none else some (crash run tryRecorded nowMs)
  | .paymentAuthorized authorization =>
      if run.body = .closed then none
      else
        some (apply run (onAuthorized run.saga authorization run.input.totalMinor
          run.input.currency).transition)
  | .cancel requester =>
      -- the validator runs first; a refused update leaves no trace in the run
      if run.body = .closed ∨ !canCancel run.saga then none
      else
        some (apply (record { run with cancelHandlers := run.cancelHandlers + 1 } .cancelAccepted)
          (onCancelRequested run.saga requester))
  | .answered seq result =>
      if run.body = .closed then none
      else
        match takeTask seq run.pending with
        | some (task, rest) => resume { run with pending := rest } task result
        | none => none
  | .settledInTime =>
      if run.body = .awaitingAuth ∧ run.saga.step ≠ .awaitingAuth then
        some { run with body := .settling }
      else none
  | .deadline =>
      if run.body = .awaitingAuth then
        some (apply { run with body := .settling } (onDeadline run.saga))
      else none
  | .returned => if canReturn run then some { run with body := .closed } else none
  | .fault => if run.body = .closed then none else some { run with body := .closed }

/-- The run as its first workflow task leaves it: a checkout run starts its Try, a
late-authorization run loads the order. -/
def checkoutSaga (input : CheckoutSagaInput) (firstSeq : Nat) (nowMs : Int) : Run :=
  let run : Run :=
    { input := input
      saga := initialCheckoutSagaState input.mode
      tryRun := .idle
      body := if input.mode = .checkout then .trying else .loadingContext
      pending := []
      cancelHandlers := 0
      nextSeq := firstSeq
      log := [] }
  match input.mode with
  | .checkout => runTry run nowMs
  | .lateAuthorization => schedule run .loadLateAuthorizationContext [] []

end Commerce.Saga
