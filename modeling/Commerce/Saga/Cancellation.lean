import Commerce.Saga.Aftermath
import Commerce.Saga.Verifications

/-!
# What an accepted cancel commits the run to

A cancel is accepted while the saga waits for an authorization, or when it was cancelled
before.  From then on the run carries `CANCELLED`, owes the order that one change and,
behind it, the release of the stock and of the payment.
-/

set_option autoImplicit false

namespace Commerce.Saga

open Commerce.Orders (OrderStatus)

/-! ## One transition -/

/-- What a transition of a checkout run has to do with a cancel. -/
inductive Cancelling (state : CheckoutSagaState) (transition : Transition) : Prop
  | same (mode : transition.state.mode = state.mode)
      (status : transition.state.orderStatus = state.orderStatus)
      (changes : ∀ change, .changeOrder change ∉ transition.commands)
      (undoing : state.step.undoing = true → transition.state.step.undoing = true)
  | other (mode : transition.state.mode = state.mode) (forward : state.step.undoing = false)
      (status : transition.state.orderStatus ≠ some .cancelled)
      (led : ∀ change, .changeOrder change ∉ transition.commands.tail)
      (targets : ∀ change, .changeOrder change ∈ transition.commands → change.target ≠ .cancelled)
  | cancelled (awaiting : state.step = .awaitingAuth) (requester : CancelBy)
      (fired : transition =
        compensate { state with orderStatus := some .cancelled }
          [.changeOrder (changeOrder .pending .cancelled (some requester.reason))]
          [(.releaseStock, .cancelled), (.cancelPayment, .cancelled)])

section Fired

variable {state : CheckoutSagaState} {done : List SagaCommand} {entries : List Entry}
  {transition : Transition}

theorem fires_cancelling (fires : Fires state done entries transition)
    (mode : state.mode = .checkout) : Cancelling state transition := by
  have still : Cancelling state (noop state) := .same rfl rfl (by simp [noop]) id
  cases fires with
  | quiet => exact still
  | orderChanged change => exact still
  | tried outcome =>
      rcases onTryResult_cases state outcome with
        ⟨-, fired⟩ | ⟨reserving, -, fired⟩ | ⟨reserving, -, fired⟩
      · rw [fired]
        exact still
      · rw [fired]
        exact .other rfl (by rw [reserving]; rfl) (by simp) (by simp) (by simp)
      · rw [fired]
        refine .other rfl (by rw [reserving]; rfl) (by simp [compensate]) ?_ ?_ <;>
          simp [compensate, issueFrom]
  | authorized authorization totalMinor currency =>
      rcases onAuthorized_cases state authorization totalMinor currency with
        ⟨verifying, voided, commands, fired, quiet⟩ | ⟨-, -, fired⟩
      · rw [fired]
        refine .same rfl rfl ?_ id
        rcases quiet with rfl | ⟨-, rfl⟩ <;> simp
      · rw [fired]
        exact .same rfl rfl (by simp [compensate, issueFrom]) fun _ => rfl
  | verified authorization verdict =>
      rcases onAuthorizationVerified_cases state authorization verdict with
        ⟨verifying, fired, -⟩ | ⟨awaiting, -, fired⟩
      · rw [fired]
        exact .same rfl rfl (by simp) id
      · rw [fired]
        exact .other rfl (by rw [awaiting]; rfl) (by simp) (by simp) (by simp [changeOrder])
  | committed outcome =>
      rcases onCommitResult_cases state outcome with
        ⟨-, fired⟩ | ⟨committing, -, fired⟩ | ⟨committing, -, fired⟩
      · rw [fired]
        exact still
      · rw [fired]
        refine .other rfl (by rw [committing]; rfl) (by simp [compensate]) ?_ ?_ <;>
          simp [compensate, issueFrom, changeOrder]
      · rw [fired]
        exact .same rfl rfl (by simp) (by simp [committing, CheckoutStep.undoing])
  | captured outcome =>
      rcases onCaptureResult_cases state outcome with
        ⟨-, fired⟩ | ⟨capturing, -, fired⟩ | ⟨capturing, -, fired⟩
      · rw [fired]
        exact still
      · rw [fired]
        refine .other rfl (by rw [capturing]; rfl) (by simp [compensate]) ?_ ?_ <;>
          simp [compensate, issueFrom, changeOrder]
      · rw [fired]
        exact .other rfl (by rw [capturing]; rfl) (by simp) (by simp) (by simp [changeOrder])
  | compensated command =>
      rcases onCompensationDone_cases state command.id with fired | ⟨-, pending, step, fired, moved⟩
      · rw [fired]
        exact still
      · rw [fired]
        refine .same rfl rfl (by simp) ?_
        rcases moved with ⟨rfl, -⟩ | rfl
        · exact fun _ => rfl
        · exact id
  | contextRead status =>
      rw [onLateAuthorizationContext_checkout state status mode]
      exact still
  | deadline =>
      rcases onDeadline_cases state with ⟨-, fired⟩ | ⟨awaiting, fired⟩
      · rw [fired]
        exact still
      · rw [fired]
        refine .other rfl (by rw [awaiting]; rfl) (by simp [compensate]) ?_ ?_ <;>
          simp [compensate, issueFrom, changeOrder]
  | cancelled requester accepted =>
      rcases onCancelRequested_cases state requester with ⟨-, fired⟩ | ⟨awaiting, fired⟩
      · rw [fired]
        exact still
      · exact .cancelled awaiting requester fired

end Fired

/-! ## The changes a run issues -/

structure Changes (state : CheckoutSagaState) (log : List Entry) : Prop where
  mode : state.mode = .checkout
  unissued : state.step.early = true → ∀ change, .issued (.changeOrder change) ∉ log
  targets : ∀ change, .issued (.changeOrder change) ∈ log →
    change.target ≠ .pending ∧ change.target ≠ .reserving
  cancels : ∀ change, .issued (.changeOrder change) ∈ log → change.target = .cancelled →
    state.orderStatus = some .cancelled
  undoing : state.orderStatus = some .cancelled → state.step.undoing = true
  issued : state.orderStatus = some .cancelled →
    ∃ reason, .issued (.changeOrder (changeOrder .pending .cancelled reason)) ∈ log
  single : state.orderStatus = some .cancelled → ∀ change, .issued (.changeOrder change) ∈ log →
    change.source = [.pending] ∧ change.target = .cancelled

theorem changes_initial (input : CheckoutSagaInput) (mode : input.mode = .checkout) (firstSeq : Nat)
    (nowMs : Int) :
    Changes (checkoutSaga input firstSeq nowMs).saga (checkoutSaga input firstSeq nowMs).log := by
  rw [saga_initial, log_initial, mode]
  constructor <;> simp [initialCheckoutSagaState]

theorem changes_deliver (run next : Run) (event : Event) (inv : Changes run.saga run.log)
    (delivered : deliver run event = some next) : Changes next.saga next.log := by
  obtain ⟨entries, transition, fires, applied⟩ := deliver_reports run next event delivered
  have log := issued_after fires applied
  have targets : ∀ change, .issued (.changeOrder change) ∈ next.log →
      change.target ≠ .pending ∧ change.target ≠ .reserving := by
    intro change issued
    rcases (log _).mp issued with old | new
    · exact inv.targets change old
    · obtain ⟨-, unpending, unreserving, -⟩ := fires_changes fires change new
      exact ⟨unpending, unreserving⟩
  have unissued : transition.state.step.early = true →
      ∀ change, .issued (.changeOrder change) ∉ next.log := by
    intro early change issued
    rcases (log _).mp issued with old | new
    · refine inv.unissued ?_ change old
      obtain ⟨reserving, awaiting⟩ := fires_back fires
      cases step : transition.state.step <;> rw [step] at early <;> try cases early
      · rw [reserving step]
        rfl
      · rcases awaiting step with same | same <;> rw [same] <;> rfl
    · rw [(fires_changes fires change new).1] at early
      cases early
  rw [applied.saga]
  cases fires_cancelling fires inv.mode with
  | same mode status changes undoing =>
      have older : ∀ change, .issued (.changeOrder change) ∈ next.log →
          .issued (.changeOrder change) ∈ run.log := by
        intro change issued
        exact ((log _).mp issued).resolve_right (changes change)
      constructor
      · exact mode.trans inv.mode
      · exact unissued
      · exact targets
      · rw [status]
        exact fun change issued => inv.cancels change (older change issued)
      · rw [status]
        exact fun cancelled => undoing (inv.undoing cancelled)
      · rw [status]
        intro cancelled
        obtain ⟨reason, issued⟩ := inv.issued cancelled
        exact ⟨reason, (log _).mpr (.inl issued)⟩
      · rw [status]
        exact fun cancelled change issued => inv.single cancelled change (older change issued)
  | other mode forward status led others =>
      have uncancelled : run.saga.orderStatus ≠ some .cancelled := by
        intro cancelled
        rw [inv.undoing cancelled] at forward
        cases forward
      constructor
      · exact mode.trans inv.mode
      · exact unissued
      · exact targets
      · intro change issued cancels
        rcases (log _).mp issued with old | new
        · exact absurd (inv.cancels change old cancels) uncancelled
        · exact absurd cancels (others change new)
      · exact fun cancelled => absurd cancelled status
      · exact fun cancelled => absurd cancelled status
      · exact fun cancelled => absurd cancelled status
  | cancelled awaiting requester fired =>
      have early : run.saga.step.early = true := by rw [awaiting]; rfl
      have one : ∀ change, .issued (.changeOrder change) ∈ next.log →
          change = changeOrder .pending .cancelled (some requester.reason) := by
        intro change issued
        rcases (log _).mp issued with old | new
        · exact absurd old (inv.unissued early change)
        · simpa [fired, compensate, issueFrom] using new
      constructor
      · simp [fired, compensate, inv.mode]
      · exact unissued
      · exact targets
      · simp [fired, compensate]
      · simp [fired, compensate, CheckoutStep.undoing]
      · exact fun _ => ⟨some requester.reason, (log _).mpr (.inr (by simp [fired, compensate]))⟩
      · intro _ change issued
        rw [one change issued]
        exact ⟨rfl, rfl⟩

/-! ## The change comes before the compensations -/

/-- Behind a change to `CANCELLED` a task holds the compensations, and no task holds a
change behind its own activity. -/
structure Task.Backed (task : Task) : Prop where
  rest : ∀ change, .changeOrder change ∉ task.rest
  behind : ∀ change, task.activity = .applyOrderChange change → change.target = .cancelled →
    compensationsIn task.owes ≠ []

theorem backed_plain (seq : Nat) (activity : Activity) (rest : List SagaCommand)
    (compensations : List CompensationCommand) (plain : ∀ change, .changeOrder change ∉ rest)
    (other : ∀ change, activity ≠ .applyOrderChange change) :
    Task.Backed ⟨seq, activity, rest, compensations⟩ where
  rest := plain
  behind := fun change same => absurd same (other change)

theorem compensateAll_backed (run : Run) (commands : List CompensationCommand)
    (backed : ∀ task ∈ run.pending, task.Backed) :
    ∀ task ∈ (compensateAll run commands).pending, task.Backed := by
  induction commands generalizing run with
  | nil => exact backed
  | cons command rest ih =>
      apply ih
      intro task member
      rcases List.mem_append.mp member with old | new
      · exact backed task old
      · cases List.mem_singleton.mp new
        exact backed_plain _ _ _ _ (by simp) (by simp)

theorem execute_backed (run : Run) (commands : List SagaCommand)
    (compensations : List CompensationCommand) (plain : ∀ change, .changeOrder change ∉ commands)
    (backed : ∀ task ∈ run.pending, task.Backed) :
    ∀ task ∈ (execute run commands compensations).pending, task.Backed := by
  induction commands generalizing run compensations with
  | nil => exact compensateAll_backed run compensations backed
  | cons command rest ih =>
      have behind : ∀ change, .changeOrder change ∉ rest :=
        fun change member => plain change (List.mem_cons_of_mem _ member)
      have scheduled : ∀ activity, (∀ change, activity ≠ .applyOrderChange change) →
          ∀ task ∈ (schedule run activity rest compensations).pending, task.Backed := by
        intro activity other task member
        rcases List.mem_append.mp member with old | new
        · exact backed task old
        · cases List.mem_singleton.mp new
          exact backed_plain _ _ _ _ behind other
      cases command with
      | changeOrder change => exact absurd List.mem_cons_self (plain change)
      | commitStock => exact scheduled .commitStock (by simp)
      | capturePayment => exact scheduled .capturePayment (by simp)
      | compensation command => exact ih run _ behind backed
      | verifyAuthorization authorization =>
          refine ih _ _ behind ?_
          intro task member
          rcases List.mem_append.mp member with old | new
          · exact backed task old
          · cases List.mem_singleton.mp new
            exact backed_plain _ _ _ _ (by simp) (by simp)

theorem apply_backed (run : Run) (transition : Transition)
    (led : ∀ change, .changeOrder change ∉ transition.commands.tail)
    (behind : ∀ change rest, transition.commands = .changeOrder change :: rest →
      change.target = .cancelled → compensationsIn rest ≠ [])
    (backed : ∀ task ∈ run.pending, task.Backed) :
    ∀ task ∈ (apply run transition).pending, task.Backed := by
  obtain ⟨state, commands⟩ := transition
  cases commands with
  | nil => exact execute_backed _ [] [] (by simp) backed
  | cons command rest =>
      by_cases changes : ∃ change, command = .changeOrder change
      · obtain ⟨change, rfl⟩ := changes
        intro task member
        rcases List.mem_append.mp member with old | new
        · exact backed task old
        · cases List.mem_singleton.mp new
          constructor
          · exact led
          · intro other same target
            cases same
            have held := behind change rest rfl target
            simpa [Task.owes, Activity.owes, compensationsIn] using held
      · refine execute_backed _ (command :: rest) [] ?_ backed
        intro change member
        rcases List.mem_cons.mp member with rfl | later
        · exact changes ⟨change, rfl⟩
        · exact led change later

theorem pending_initial (input : CheckoutSagaInput) (mode : input.mode = .checkout) (firstSeq : Nat)
    (nowMs : Int) : (checkoutSaga input firstSeq nowMs).pending = [] := by
  simp only [checkoutSaga, mode, runTry, if_true, attemptTry]
  split <;> rfl

theorem backed_deliver (run next : Run) (event : Event) (mode : run.saga.mode = .checkout)
    (backed : ∀ task ∈ run.pending, task.Backed) (delivered : deliver run event = some next) :
    ∀ task ∈ next.pending, task.Backed := by
  cases deliver_shape run next event delivered with
  | intro moved entries transition rest compensations fires saga pending clock resumes shape =>
      have waiting : ∀ task ∈ moved.pending, task.Backed := by
        rw [pending]
        exact fun task member => backed task ((leftWaiting_sublist run event).subset member)
      have applied : ∀ task ∈ (apply moved transition).pending, task.Backed := by
        refine apply_backed moved transition ?_ ?_ waiting
        · intro change member
          cases fires_cancelling fires mode with
          | same _ _ changes _ => exact changes change (List.mem_of_mem_tail member)
          | other _ _ _ led _ => exact led change member
          | cancelled _ requester fired => simp [fired, compensate, issueFrom] at member
        · intro change rest commands target
          cases fires_cancelling fires mode with
          | same _ _ changes _ => exact absurd (by simp [commands]) (changes change)
          | other _ _ _ _ targets => exact absurd target (targets change (by simp [commands]))
          | cancelled _ requester fired =>
              simp [fired, compensate, issueFrom] at commands
              simp [← commands.2, compensationsIn]
      rw [shape]
      refine execute_backed _ rest compensations ?_ applied
      rcases resumes with ⟨rfl, -⟩ | ⟨task, answered, rfl, -⟩
      · simp
      · exact (backed task (answeredTask_mem run event task answered)).rest

/-- A change to `CANCELLED` that the run owes has compensations behind it. -/
theorem compensations_behind (run : Run) (backed : ∀ task ∈ run.pending, task.Backed)
    (change : OrderChangeCommand) (target : change.target = .cancelled)
    (owes : .changeOrder change ∈ owed run.pending) : compensationsIn (owed run.pending) ≠ [] := by
  obtain ⟨task, present, holds⟩ := List.mem_flatMap.mp owes
  have activity : task.activity = .applyOrderChange change := by
    rcases List.mem_append.mp holds with first | later
    · cases activity : task.activity <;> simp [activity, Activity.owes] at first
      rw [first]
    · rcases List.mem_append.mp later with behind | compensation
      · exact absurd behind ((backed task present).rest change)
      · simp at compensation
  obtain ⟨command, member⟩ := List.exists_mem_of_ne_nil _
    ((backed task present).behind change activity target)
  refine List.ne_nil_of_mem ((mem_compensationsIn _ command).mpr ?_)
  exact List.mem_flatMap.mpr ⟨task, present, (mem_compensationsIn _ command).mp member⟩

/-! ## The compensations -/

structure Busy (state : CheckoutSagaState) : Prop where
  mode : state.mode = .checkout
  pending : state.step = .compensating → state.pending ≠ []

theorem busy_compensate (state : CheckoutSagaState) (first : List SagaCommand)
    (compensation : CompensationType × CompensationReason)
    (more : List (CompensationType × CompensationReason)) (mode : state.mode = .checkout) :
    Busy (compensate state first (compensation :: more)).state := by
  constructor
  · exact mode
  · simp [compensate, issueFrom]

theorem busy_step (state : CheckoutSagaState) (event : SagaEvent) (next : CheckoutSagaState)
    (busy : Busy state) (stepped : sagaStep state event = some next) : Busy next := by
  cases Option.some.inj stepped
  have elsewhere : ∀ moved : CheckoutSagaState, moved.mode = state.mode →
      moved.step ≠ .compensating → Busy moved :=
    fun moved mode step => ⟨mode.trans busy.mode, fun same => absurd same step⟩
  cases event with
  | tryResult outcome =>
      rcases onTryResult_cases state outcome with ⟨-, fired⟩ | ⟨-, -, fired⟩ | ⟨-, -, fired⟩ <;>
        rw [transitionOf, fired]
      · exact busy
      · exact elsewhere _ rfl (by simp)
      · exact busy_compensate _ _ _ _ busy.mode
  | authorized authorization totalMinor currency =>
      rcases onAuthorized_cases state authorization totalMinor currency with
        ⟨verifying, voided, commands, fired, -⟩ | ⟨-, -, fired⟩ <;> rw [transitionOf, fired]
      · exact ⟨busy.mode, busy.pending⟩
      · exact busy_compensate _ _ _ _ busy.mode
  | authorizationVerified authorization verdict =>
      rcases onAuthorizationVerified_cases state authorization verdict with
        ⟨verifying, fired, -⟩ | ⟨-, -, fired⟩ <;> rw [transitionOf, fired]
      · exact ⟨busy.mode, busy.pending⟩
      · exact elsewhere _ rfl (by simp)
  | commitResult outcome =>
      rcases onCommitResult_cases state outcome with ⟨-, fired⟩ | ⟨-, -, fired⟩ | ⟨-, -, fired⟩ <;>
        rw [transitionOf, fired]
      · exact busy
      · exact busy_compensate _ _ _ _ busy.mode
      · exact elsewhere _ rfl (by simp)
  | captureResult outcome =>
      rcases onCaptureResult_cases state outcome with ⟨-, fired⟩ | ⟨-, -, fired⟩ | ⟨-, -, fired⟩ <;>
        rw [transitionOf, fired]
      · exact busy
      · exact busy_compensate _ _ _ _ busy.mode
      · exact elsewhere _ rfl (by simp)
  | deadline =>
      rcases onDeadline_cases state with ⟨-, fired⟩ | ⟨-, fired⟩ <;> rw [transitionOf, fired]
      · exact busy
      · exact busy_compensate _ _ _ _ busy.mode
  | cancelRequested requester =>
      rcases onCancelRequested_cases state requester with ⟨-, fired⟩ | ⟨-, fired⟩ <;>
        rw [transitionOf, fired]
      · exact busy
      · exact busy_compensate _ _ _ _ busy.mode
  | compensationDone id =>
      simp only [transitionOf, onCompensationDone]
      split
      · exact busy
      · refine ⟨busy.mode, ?_⟩
        intro step left
        have none : (state.pending.filter fun command => command.id ≠ id).length = 0 :=
          congrArg List.length left
        simp only [none, if_true] at step
        cases step
  | lateAuthorizationContext status =>
      rw [transitionOf, onLateAuthorizationContext_checkout state status busy.mode]
      exact busy

theorem busy_deliver (run next : Run) (event : Event) (busy : Busy run.saga)
    (delivered : deliver run event = some next) : Busy next.saga := by
  obtain ⟨entries, transition, fires, applied⟩ := deliver_reports run next event delivered
  obtain ⟨moved, moves⟩ := fires_follows fires
  rw [applied.saga]
  exact Runs.run_preserves sagaStep Busy busy_step moved _ _ busy moves

/-- A pending compensation stays pending until an answer reports it done. -/
theorem pending_after (run next : Run) (event : Event) (inv : Outstanding run)
    (delivered : deliver run event = some next) (command : CompensationCommand)
    (pending : command ∈ run.saga.pending) :
    command ∈ next.saga.pending ∨ .compensation command ∈ reported run event := by
  obtain ⟨entries, transition, fires, applied⟩ := deliver_reports run next event delivered
  rw [applied.saga]
  rcases fires_books fires with ⟨rfl, -⟩ | ⟨other, done, rfl⟩ | ⟨moved, keeps, rfl, -⟩
  · exact .inl pending
  · obtain ⟨specs, booked⟩ := books run.saga (.compensationDone other.id)
    rw [booked.pending]
    by_cases same : command.id = other.id
    · -- the numbers of pending compensations are distinct, and the one reported is pending
      have owes : .compensation other ∈ owed run.pending :=
        reported_owed run event _ (by rw [done]; simp)
      have there : other ∈ run.saga.pending :=
        inv.pending.mem_iff.mp ((mem_compensationsIn _ other).mpr owes)
      rw [List.inj_on_of_nodup_map inv.numbered.distinct pending there same, done]
      exact .inr (by simp)
    · exact .inl (List.mem_append_left _ (List.mem_filter.mpr ⟨pending, by simpa using same⟩))
  · obtain ⟨specs, booked⟩ := books run.saga moved
    rw [booked.pending, keeps]
    exact .inl (List.mem_append_left _ pending)

/-- Nothing but a cancel leads a checkout to `CANCELLED`. -/
theorem uncancelled_step (state : CheckoutSagaState) (event : SagaEvent)
    (mode : state.mode = .checkout) (other : ∀ requester, event ≠ .cancelRequested requester)
    (cancelled : (transitionOf state event).state.orderStatus = some .cancelled) :
    state.orderStatus = some .cancelled := by
  cases event with
  | tryResult outcome =>
      rcases onTryResult_cases state outcome with ⟨-, fired⟩ | ⟨-, -, fired⟩ | ⟨-, -, fired⟩ <;>
        simp [transitionOf, fired, noop, compensate] at cancelled
      exact cancelled
  | authorized authorization totalMinor currency =>
      rcases onAuthorized_cases state authorization totalMinor currency with
        ⟨verifying, voided, commands, fired, -⟩ | ⟨-, -, fired⟩ <;>
        simpa [transitionOf, fired, compensate] using cancelled
  | authorizationVerified authorization verdict =>
      rcases onAuthorizationVerified_cases state authorization verdict with
        ⟨verifying, fired, -⟩ | ⟨-, -, fired⟩ <;>
        simp [transitionOf, fired] at cancelled
      exact cancelled
  | commitResult outcome =>
      rcases onCommitResult_cases state outcome with ⟨-, fired⟩ | ⟨-, -, fired⟩ | ⟨-, -, fired⟩ <;>
        simp [transitionOf, fired, noop, compensate] at cancelled
      · exact cancelled
      · exact cancelled
  | captureResult outcome =>
      rcases onCaptureResult_cases state outcome with ⟨-, fired⟩ | ⟨-, -, fired⟩ | ⟨-, -, fired⟩ <;>
        simp [transitionOf, fired, noop, compensate] at cancelled
      exact cancelled
  | deadline =>
      rcases onDeadline_cases state with ⟨-, fired⟩ | ⟨-, fired⟩ <;>
        simp [transitionOf, fired, noop, compensate] at cancelled
      exact cancelled
  | cancelRequested requester => exact absurd rfl (other requester)
  | compensationDone id =>
      rcases onCompensationDone_cases state id with fired | ⟨-, pending, step, fired, -⟩ <;>
        simpa [transitionOf, fired, noop] using cancelled
  | lateAuthorizationContext status =>
      simpa [transitionOf, onLateAuthorizationContext_checkout state status mode, noop] using
        cancelled

theorem uncancelled_settle (run settled : Run) (activity : Activity) (result : ActivityResult)
    (mode : run.saga.mode = .checkout) (success : settle run activity result = some settled)
    (cancelled : settled.saga.orderStatus = some .cancelled) :
    run.saga.orderStatus = some .cancelled := by
  have led : ∀ event, (∀ requester, event ≠ .cancelRequested requester) →
      settled.saga = (transitionOf run.saga event).state → run.saga.orderStatus =
          some .cancelled := by
    intro event other saga
    rw [saga] at cancelled
    exact uncancelled_step run.saga event mode other cancelled
  unfold settle at success
  split at success <;> simp only [Option.some.injEq, reduceCtorEq] at success
  case h_1 change result =>
    subst success
    exact cancelled
  case h_2 authorization verdict =>
    subst success
    exact led (.authorizationVerified authorization verdict) (by simp) (apply_saga _ _)
  case h_3 outcome =>
    subst success
    exact led (.commitResult outcome) (by simp) (apply_saga _ _)
  case h_4 outcome =>
    subst success
    exact led (.captureResult outcome) (by simp) (apply_saga _ _)
  case h_5 command =>
    subst success
    exact led (.compensationDone command.id) (by simp) (apply_saga _ _)
  case h_6 status =>
    subst success
    exact led (.lateAuthorizationContext status) (by simp) (apply_saga _ _)

theorem uncancelled_deliver (run next : Run) (event : Event) (mode : run.saga.mode = .checkout)
    (other : ∀ requester, event ≠ .cancel requester) (delivered : deliver run event = some next)
    (cancelled : next.saga.orderStatus = some .cancelled) :
    run.saga.orderStatus = some .cancelled := by
  have led : ∀ moved, (∀ requester, moved ≠ .cancelRequested requester) →
      next.saga = (transitionOf run.saga moved).state → run.saga.orderStatus = some .cancelled := by
    intro moved foreign saga
    rw [saga] at cancelled
    exact uncancelled_step run.saga moved mode foreign cancelled
  have still : next.saga = run.saga → run.saga.orderStatus = some .cancelled := by
    intro saga
    rw [saga] at cancelled
    exact cancelled
  cases event with
  | reserve nowMs =>
      simp only [deliver] at delivered
      split at delivered
      · cases delivered
      · cases Option.some.inj delivered
        apply still
        unfold runTry
        split <;> simp
  | tryAnswered seq answer =>
      simp only [deliver] at delivered
      split at delivered
      · cases delivered
      · split at delivered
        · cases Option.some.inj delivered
          exact still rfl
        · cases delivered
  | tryWritten seq written =>
      simp only [deliver] at delivered
      split at delivered
      · split at delivered
        · cases delivered
        · rename_i outcome _ _
          cases Option.some.inj delivered
          exact led (.tryResult _) (by simp) (apply_saga _ _)
      · cases delivered
  | crash tryRecorded nowMs =>
      simp only [deliver] at delivered
      split at delivered
      · cases delivered
      · cases Option.some.inj delivered
        apply still
        unfold crash
        split
        · rfl
        · exact attemptTry_saga run nowMs
        · split
          · rfl
          · exact attemptTry_saga run nowMs
        · rfl
  | paymentAuthorized authorization =>
      simp only [deliver] at delivered
      split at delivered
      · cases delivered
      · cases Option.some.inj delivered
        exact led (.authorized authorization run.input.totalMinor run.input.currency) (by simp)
          (apply_saga _ _)
  | cancel requester => exact absurd rfl (other requester)
  | answered seq result =>
      simp only [deliver] at delivered
      split at delivered
      · cases delivered
      · split at delivered
        · rename_i task rest taken
          obtain ⟨settled, success, rfl⟩ := Option.map_eq_some_iff.mp delivered
          rw [execute_saga] at cancelled
          exact uncancelled_settle { run with pending := rest } settled task.activity result mode
            success cancelled
        · cases delivered
  | settledInTime =>
      simp only [deliver] at delivered
      split at delivered
      · cases Option.some.inj delivered
        exact still rfl
      · cases delivered
  | deadline =>
      simp only [deliver] at delivered
      split at delivered
      · cases Option.some.inj delivered
        exact led .deadline (by simp) (apply_saga _ _)
      · cases delivered
  | returned =>
      simp only [deliver] at delivered
      split at delivered
      · cases Option.some.inj delivered
        exact still rfl
      · cases delivered
  | fault =>
      simp only [deliver] at delivered
      split at delivered
      · cases delivered
      · cases Option.some.inj delivered
        exact still rfl

/-- An accepted cancel has the saga carry `CANCELLED`. -/
theorem cancelled_of_accepted (run next : Run) (requester : CancelBy)
    (delivered : deliver run (.cancel requester) = some next) :
    next.saga.orderStatus = some .cancelled ∧
      (run.saga.step = .awaitingAuth ∨ run.saga.orderStatus = some .cancelled) := by
  simp only [deliver] at delivered
  split at delivered
  · cases delivered
  rename_i accepted
  cases Option.some.inj delivered
  have canCancel : run.saga.step = .awaitingAuth ∨ run.saga.orderStatus = some .cancelled := by
    simp only [not_or, Bool.not_eq_true, Bool.not_eq_false'] at accepted
    simpa [Saga.canCancel] using accepted.2
  refine ⟨?_, canCancel⟩
  rw [apply_saga]
  rcases onCancelRequested_cases run.saga requester with ⟨elsewhere, fired⟩ | ⟨-, fired⟩
  · rw [fired]
    exact canCancel.resolve_left elsewhere
  · rw [fired]
    rfl

theorem cancelled_stays (run next : Run) (event : Event) (inv : Changes run.saga run.log)
    (delivered : deliver run event = some next)
    (cancelled : run.saga.orderStatus = some .cancelled) :
    next.saga.orderStatus = some .cancelled := by
  obtain ⟨entries, transition, fires, applied⟩ := deliver_reports run next event delivered
  rw [applied.saga]
  cases fires_cancelling fires inv.mode with
  | same _ status _ _ => exact status.trans cancelled
  | other _ forward _ _ _ =>
      rw [inv.undoing cancelled] at forward
      cases forward
  | cancelled _ requester fired =>
      rw [fired]
      rfl

/-- A saga that carries `CANCELLED` did before, or has just issued both compensations. -/
theorem cancelled_after (run next : Run) (event : Event) (mode : run.saga.mode = .checkout)
    (delivered : deliver run event = some next)
    (cancelled : next.saga.orderStatus = some .cancelled) :
    run.saga.orderStatus = some .cancelled ∨
      (∃ command ∈ next.saga.pending, command.type = .releaseStock ∧ command.reason = .cancelled) ∧
      ∃ command ∈ next.saga.pending, command.type = .cancelPayment ∧ command.reason =
          .cancelled := by
  obtain ⟨entries, transition, fires, applied⟩ := deliver_reports run next event delivered
  rw [applied.saga] at cancelled ⊢
  cases fires_cancelling fires mode with
  | same _ status _ _ => exact .inl (status.symm.trans cancelled)
  | other _ _ status _ _ => exact absurd cancelled status
  | cancelled _ requester fired =>
      right
      rw [fired]
      constructor
      · exact ⟨⟨.releaseStock, run.saga.nextCommandId, .cancelled⟩, by simp [compensate, issueFrom],
          rfl, rfl⟩
      · exact ⟨⟨.cancelPayment, run.saga.nextCommandId + 1, .cancelled⟩,
          by simp [compensate, issueFrom], rfl, rfl⟩

end Commerce.Saga
