import Mathlib.Data.List.Nodup
import Commerce.Saga.Bookkeeping
import Commerce.Saga.Pending

/-!
# What a workflow run has outstanding

Every command a run issued has been reported done by an activity's answer, or the run
still owes it.  The compensations it owes are those its saga has pending, so the saga
reaches `COMPENSATED` only when their answers have all arrived, and the run returns with
nothing owed.
-/

set_option autoImplicit false

namespace Commerce.Saga

open Runs

def issuedIn (log : List Entry) : List SagaCommand :=
  log.filterMap fun entry =>
    match entry with
    | .issued command => some command
    | _ => none

@[simp] theorem issuedIn_nil : issuedIn [] = [] := rfl

@[simp] theorem issuedIn_append (first second : List Entry) :
    issuedIn (first ++ second) = issuedIn first ++ issuedIn second := by
  simp [issuedIn]

@[simp] theorem issuedIn_map (commands : List SagaCommand) :
    issuedIn (commands.map .issued) = commands := by
  induction commands with
  | nil => rfl
  | cons command rest ih => exact congrArg (command :: ·) ih

@[simp] theorem issuedIn_entriesOf (state : CheckoutSagaState) (transition : Transition) :
    issuedIn (entriesOf state transition) = transition.commands := by
  unfold entriesOf
  rw [issuedIn_append, issuedIn_map]
  split
  · rfl
  · cases transition.state.orderStatus <;> rfl

def acknowledged : Run → List Event → List SagaCommand
  | _, [] => []
  | current, event :: rest =>
      match deliver current event with
      | none => []
      | some next => reported current event ++ acknowledged next rest

section Fired

variable {state : CheckoutSagaState} {done : List SagaCommand} {entries : List Entry}
  {transition : Transition}

theorem issuedIn_fires (fires : Fires state done entries transition) : issuedIn entries = [] := by
  cases fires <;> rfl

/-- What an event fires is nothing, the acknowledgement of the compensation it reports done,
or a call of another transition. -/
theorem fires_books (fires : Fires state done entries transition) :
    (transition = noop state ∧ compensationsIn done = []) ∨
    (∃ command, done = [.compensation command] ∧
      transition = transitionOf state (.compensationDone command.id)) ∨
    (∃ event, (∀ pending, remaining pending event = pending) ∧
      transition = transitionOf state event ∧ compensationsIn done = []) := by
  cases fires with
  | quiet => exact .inl ⟨rfl, rfl⟩
  | orderChanged change => exact .inl ⟨rfl, rfl⟩
  | tried outcome => exact .inr (.inr ⟨.tryResult outcome, fun _ => rfl, rfl, rfl⟩)
  | authorized authorization totalMinor currency =>
      exact .inr (.inr ⟨.authorized authorization totalMinor currency, fun _ => rfl, rfl, rfl⟩)
  | verified authorization verdict =>
      exact .inr (.inr ⟨.authorizationVerified authorization verdict, fun _ => rfl, rfl, rfl⟩)
  | committed outcome => exact .inr (.inr ⟨.commitResult outcome, fun _ => rfl, rfl, rfl⟩)
  | captured outcome => exact .inr (.inr ⟨.captureResult outcome, fun _ => rfl, rfl, rfl⟩)
  | compensated command => exact .inr (.inl ⟨command, rfl, rfl⟩)
  | contextRead status =>
      exact .inr (.inr ⟨.lateAuthorizationContext status, fun _ => rfl, rfl, rfl⟩)
  | deadline => exact .inr (.inr ⟨.deadline, fun _ => rfl, rfl, rfl⟩)
  | cancelled requester => exact .inr (.inr ⟨.cancelRequested requester, fun _ => rfl, rfl, rfl⟩)

theorem fires_follows (fires : Fires state done entries transition) :
    ∃ events, run sagaStep state events = some transition.state := by
  rcases fires_books fires with ⟨rfl, -⟩ | ⟨command, -, rfl⟩ | ⟨event, -, rfl, -⟩
  · exact ⟨[], rfl⟩
  · exact ⟨[.compensationDone command.id], rfl⟩
  · exact ⟨[event], rfl⟩

end Fired

/-! ## Pending in the saga, owed by the run -/

/-- Acknowledging a compensation takes it, and no other, off the pending ones. -/
theorem acknowledge_perm (pending : List CompensationCommand) (command : CompensationCommand)
    (distinct : (pending.map (·.id)).Nodup) (member : command ∈ pending) :
    pending.Perm (command :: pending.filter fun other => other.id ≠ command.id) := by
  have same : pending.erase command = pending.filter fun other => other.id ≠ command.id := by
    rw [(List.Nodup.of_map _ distinct).erase_eq_filter]
    apply List.filter_congr
    intro other here
    have alike : other = command ↔ other.id = command.id :=
      ⟨congrArg _, fun ids => List.inj_on_of_nodup_map distinct here member ids⟩
    rw [Bool.eq_iff_iff]
    simp [alike]
  rw [← same]
  exact List.perm_cons_erase member

/-- The books of a run: its saga's numbers are in order, and the compensations it owes are
those its saga has pending. -/
structure Outstanding (run : Run) : Prop where
  numbered : Numbered run.saga
  settling : Settling run.saga
  pending : (compensationsIn (owed run.pending)).Perm run.saga.pending

theorem compensationsIn_perm {first second : List SagaCommand} (perm : first.Perm second) :
    (compensationsIn first).Perm (compensationsIn second) :=
  perm.filterMap _

theorem outstanding_compensated (run next : Run) (command : CompensationCommand)
    (entries : List Entry) (inv : Outstanding run)
    (applied : Applied run next [.compensation command] entries
      (transitionOf run.saga (.compensationDone command.id))) :
    (compensationsIn (owed next.pending)).Perm next.saga.pending := by
  obtain ⟨specs, booked⟩ := books run.saga (.compensationDone command.id)
  have quiet : (transitionOf run.saga (.compensationDone command.id)).commands = [] := by
    rcases onCompensationDone_cases run.saga command.id with fired |
      ⟨-, pending, step, fired, -⟩ <;>
      simp [transitionOf, fired, noop]
  have owes := compensationsIn_perm applied.owed
  have listed := booked.pending
  have issued := booked.issued
  rw [quiet, compensationsIn_nil] at issued
  rw [quiet, List.append_nil] at owes
  rw [← issued, List.append_nil] at listed
  have reported := inv.pending.symm.trans owes
  have member : command ∈ run.saga.pending := reported.symm.subset List.mem_cons_self
  have kept := (acknowledge_perm run.saga.pending command inv.numbered.distinct member).symm.trans
    reported
  rw [applied.saga, listed]
  exact ((List.perm_cons command).mp kept).symm

theorem outstanding_deliver (run : Run) (event : Event) (next : Run) (inv : Outstanding run)
    (delivered : deliver run event = some next) : Outstanding next := by
  obtain ⟨entries, transition, fires, applied⟩ := deliver_reports run next event delivered
  obtain ⟨events, follows⟩ := fires_follows fires
  rw [← applied.saga] at follows
  constructor
  · exact run_preserves sagaStep Numbered numbered_step events _ _ inv.numbered follows
  · exact run_preserves sagaStep Settling settling_step events _ _ inv.settling follows
  · have owes := compensationsIn_perm applied.owed
    rcases fires_books fires with ⟨rfl, plain⟩ | ⟨command, done, rfl⟩ | ⟨moved, keeps, rfl, plain⟩
    · rw [noop, List.append_nil, compensationsIn_append, plain] at owes
      rw [applied.saga]
      exact owes.symm.trans inv.pending
    · rw [done] at applied
      exact outstanding_compensated run next command entries inv applied
    · obtain ⟨specs, booked⟩ := books run.saga moved
      rw [compensationsIn_append, compensationsIn_append, plain, booked.issued] at owes
      rw [applied.saga, booked.pending, keeps]
      exact owes.symm.trans (inv.pending.append_right _)

theorem owed_initial (input : CheckoutSagaInput) (firstSeq : Nat) (nowMs : Int) :
    owed (checkoutSaga input firstSeq nowMs).pending = [] := by
  cases mode : input.mode <;>
    simp [checkoutSaga, mode, runTry, schedule, Task.owes, Activity.owes]

theorem saga_initial (input : CheckoutSagaInput) (firstSeq : Nat) (nowMs : Int) :
    (checkoutSaga input firstSeq nowMs).saga = initialCheckoutSagaState input.mode := by
  cases mode : input.mode <;> simp [checkoutSaga, mode, runTry, schedule]

theorem log_initial (input : CheckoutSagaInput) (firstSeq : Nat) (nowMs : Int) :
    (checkoutSaga input firstSeq nowMs).log = [] := by
  cases mode : input.mode <;> simp [checkoutSaga, mode, runTry, schedule]

theorem outstanding_initial (input : CheckoutSagaInput) (firstSeq : Nat) (nowMs : Int) :
    Outstanding (checkoutSaga input firstSeq nowMs) := by
  constructor
  · rw [saga_initial]
    exact numbered_initial input.mode
  · rw [saga_initial]
    exact settling_initial input.mode
  · rw [owed_initial, saga_initial]
    exact List.Perm.refl _

/-! ## Runs -/

/-- Every command issued along a run has been reported done or is owed. -/
theorem conserved (events : List Event) (start final : Run)
    (ran : run deliver start events = some final) :
    (owed start.pending ++ issuedIn final.log).Perm
      (issuedIn start.log ++ (acknowledged start events ++ owed final.pending)) := by
  induction events generalizing start with
  | nil =>
      cases Option.some.inj ran
      exact List.perm_append_comm
  | cons event rest ih =>
      obtain ⟨next, delivered, remains⟩ := run_cons_eq_some deliver start final event rest ran
      obtain ⟨entries, transition, fires, applied⟩ := deliver_reports start next event delivered
      have issued : issuedIn next.log = issuedIn start.log ++ transition.commands := by
        rw [applied.log]
        simp [issuedIn_fires fires]
      have later := ih next remains
      have here := applied.owed
      rw [issued] at later
      simp only [acknowledged, delivered]
      rw [List.perm_iff_count] at later here ⊢
      intro command
      have after := later command
      have now := here command
      simp only [List.count_append] at after now ⊢
      omega

theorem canReturn_idle (run : Run) (ready : canReturn run = true) :
    run.pending = [] ∧ (run.saga.step = .completed ∨ run.saga.step = .compensated) := by
  unfold canReturn at ready
  simp only [Bool.and_eq_true, List.isEmpty_iff] at ready
  refine ⟨ready.1.1.2, ?_⟩
  simpa [settledSteps] using ready.1.1.1.2

/-- What a run of the workflow keeps in its books: its saga is one that events lead to, what
it owes of compensations is what its saga has pending, what it issued was reported done or is
owed, and it returns with nothing pending, nothing in flight and everything reported done. -/
structure RunBookkeeping (start : Run) (events : List Event) (final : Run) : Prop where
  follows : ∃ sagaEvents,
    run sagaStep (initialCheckoutSagaState start.input.mode) sagaEvents = some final.saga
  pending : (compensationsIn (owed final.pending)).Perm final.saga.pending
  conserved : (issuedIn final.log).Perm (acknowledged start events ++ owed final.pending)
  returns : ∀ before after reached returned, events = before ++ .returned :: after →
    run deliver start before = some reached → deliver reached .returned = some returned →
    reached.saga.pending = [] ∧ reached.pending = [] ∧
      (issuedIn reached.log).Perm (acknowledged start before)

theorem follows_deliver (mode : CheckoutSagaMode) (current : Run) (event : Event) (next : Run)
    (follows : ∃ events, run sagaStep (initialCheckoutSagaState mode) events = some current.saga)
    (delivered : deliver current event = some next) :
    ∃ events, run sagaStep (initialCheckoutSagaState mode) events = some next.saga := by
  obtain ⟨past, reached⟩ := follows
  obtain ⟨entries, transition, fires, applied⟩ := deliver_reports current next event delivered
  obtain ⟨moved, moves⟩ := fires_follows fires
  refine ⟨past ++ moved, ?_⟩
  rw [run_append, reached, applied.saga]
  exact moves

theorem runBookkeeping (input : CheckoutSagaInput) (firstSeq : Nat) (nowMs : Int)
    (events : List Event) (final : Run)
    (ran : run deliver (checkoutSaga input firstSeq nowMs) events = some final) :
    RunBookkeeping (checkoutSaga input firstSeq nowMs) events final := by
  have books : ∀ past reached, run deliver (checkoutSaga input firstSeq nowMs) past = some reached →
      Outstanding reached ∧ (issuedIn reached.log).Perm
        (acknowledged (checkoutSaga input firstSeq nowMs) past ++ owed reached.pending) := by
    intro past reached led
    refine ⟨run_preserves deliver Outstanding outstanding_deliver past _ reached
      (outstanding_initial input firstSeq nowMs) led, ?_⟩
    simpa [owed_initial, log_initial] using conserved past _ reached led
  obtain ⟨outstanding, settled⟩ := books events final ran
  constructor
  · rw [checkoutSaga_input]
    refine run_preserves deliver (fun current => ∃ sagaEvents,
      run sagaStep (initialCheckoutSagaState input.mode) sagaEvents = some current.saga)
      (follows_deliver input.mode) events _ final ⟨[], ?_⟩ ran
    rw [saga_initial]
    rfl
  · exact outstanding.pending
  · exact settled
  · intro before after reached returned parts led returning
    obtain ⟨inv, account⟩ := books before reached led
    have ready : canReturn reached = true := by
      by_contra refused
      simp [deliver, refused] at returning
    obtain ⟨idle, step⟩ := canReturn_idle reached ready
    rw [idle, owed_nil, List.append_nil] at account
    refine ⟨inv.settling.forward ?_, idle, account⟩
    rcases step with completed | compensated
    · simp [completed]
    · simp [compensated]

/-- The books of the saga's commands: under any events the saga's numbers, acknowledgements
and voids are in order, and a run of the workflow returns with nothing outstanding. -/
theorem saga_bookkeeping :
    (∀ mode events final, run sagaStep (initialCheckoutSagaState mode) events = some final →
      Bookkeeping mode events final) ∧
    (∀ input firstSeq nowMs events final,
      run deliver (checkoutSaga input firstSeq nowMs) events = some final →
        RunBookkeeping (checkoutSaga input firstSeq nowMs) events final) :=
  ⟨bookkeeping, runBookkeeping⟩

/-- A checkout cancelled while its payment was on the way: the late authorization adds a
third compensation to the two of the cancel. -/
def lateVoidEvents : List Event :=
  [.tryAnswered 0 (.answered .reserved), .tryWritten 1 .applied, .cancel .buyer,
    .paymentAuthorized ⟨7, 500, "USD", 0⟩, .paymentAuthorized ⟨7, 500, "USD", 0⟩,
    .answered 2 (.written .applied), .settledInTime, .answered 5 .compensated,
    .answered 3 .compensated, .answered 4 .compensated, .returned]

theorem saga_bookkeeping_cancelled :
    ∃ final,
      run deliver (checkoutSaga ⟨.checkout, 0, none, 500, "USD", 1000⟩ 0 0) lateVoidEvents =
        some final ∧
      final.body = .closed ∧ final.saga.step = .compensated ∧ final.saga.nextCommandId = 4 ∧
      RunBookkeeping (checkoutSaga ⟨.checkout, 0, none, 500, "USD", 1000⟩ 0 0) lateVoidEvents
        final ∧
      Bookkeeping .lateAuthorization
        [.authorized ⟨7, 500, "USD", 0⟩ 500 "USD", .lateAuthorizationContext none,
          .authorized ⟨7, 500, "USD", 0⟩ 500 "USD"]
        ⟨.lateAuthorization, .compensating, some .rejected, none, none, [], [7],
          [⟨.cancelPayment, 1, .lateAuthorization⟩], 2⟩ := by
  refine ⟨_, rfl, rfl, rfl, rfl, ?_, ?_⟩
  · exact saga_bookkeeping.2 ⟨.checkout, 0, none, 500, "USD", 1000⟩ 0 0 lateVoidEvents _ rfl
  · exact saga_bookkeeping.1 .lateAuthorization _ _ rfl

end Commerce.Saga
