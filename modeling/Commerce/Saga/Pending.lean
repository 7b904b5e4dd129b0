import Commerce.Saga.Workflow

/-!
# What one event does to a run

Every event fires at most one transition of the saga, on the saga's current
state.  `deliver_fires` states this once, together with what the event does to
the log and to the commands the run still owes; the laws of the run are
derived from it.
-/

set_option autoImplicit false

namespace Commerce.Saga

open Commerce.Orders (OrderStatus)

/-! ## Executing commands leaves the saga and its log alone -/

@[simp] theorem compensateAll_saga (run : Run) (commands : List CompensationCommand) :
    (compensateAll run commands).saga = run.saga := by
  induction commands generalizing run with
  | nil => rfl
  | cons command rest ih => exact ih (schedule run (.compensation command) [] [])

@[simp] theorem compensateAll_log (run : Run) (commands : List CompensationCommand) :
    (compensateAll run commands).log = run.log := by
  induction commands generalizing run with
  | nil => rfl
  | cons command rest ih => exact ih (schedule run (.compensation command) [] [])

@[simp] theorem execute_saga (run : Run) (commands : List SagaCommand)
    (compensations : List CompensationCommand) :
    (execute run commands compensations).saga = run.saga := by
  induction commands generalizing run compensations with
  | nil => exact compensateAll_saga run compensations
  | cons command rest ih => cases command <;> simp [execute, schedule, ih]

@[simp] theorem execute_log (run : Run) (commands : List SagaCommand)
    (compensations : List CompensationCommand) :
    (execute run commands compensations).log = run.log := by
  induction commands generalizing run compensations with
  | nil => exact compensateAll_log run compensations
  | cons command rest ih => cases command <;> simp [execute, schedule, ih]

@[simp] theorem apply_saga (run : Run) (transition : Transition) :
    (apply run transition).saga = transition.state := by
  simp [apply]

@[simp] theorem apply_log (run : Run) (transition : Transition) :
    (apply run transition).log = run.log ++ entriesOf run.saga transition := by
  simp [apply]

@[simp] theorem attemptTry_saga (run : Run) (nowMs : Int) :
    (attemptTry run nowMs).saga = run.saga := by
  unfold attemptTry
  split <;> rfl

@[simp] theorem attemptTry_log (run : Run) (nowMs : Int) :
    (attemptTry run nowMs).log = run.log := by
  unfold attemptTry
  split <;> rfl

@[simp] theorem attemptTry_pending (run : Run) (nowMs : Int) :
    (attemptTry run nowMs).pending = run.pending := by
  unfold attemptTry
  split <;> rfl

/-! ## The commands a run owes -/

def Activity.owes : Activity → List SagaCommand
  | .applyOrderChange change => [.changeOrder change]
  | .verifyAuthorization authorization => [.verifyAuthorization authorization]
  | .commitStock => [.commitStock]
  | .capturePayment => [.capturePayment]
  | .compensation command => [.compensation command]
  | .loadLateAuthorizationContext => []

/-- The commands a task still stands for: its own, the rest of its list, what it set aside. -/
def Task.owes (task : Task) : List SagaCommand :=
  task.activity.owes ++ (task.rest ++ task.compensations.map .compensation)

def owed (tasks : List Task) : List SagaCommand := tasks.flatMap Task.owes

@[simp] theorem owed_nil : owed [] = [] := rfl

@[simp] theorem owed_append (first second : List Task) :
    owed (first ++ second) = owed first ++ owed second := by
  simp [owed]

@[simp] theorem owed_cons (task : Task) (rest : List Task) :
    owed (task :: rest) = task.owes ++ owed rest := by
  simp [owed]

theorem owed_schedule (run : Run) (activity : Activity) (rest : List SagaCommand)
    (compensations : List CompensationCommand) :
    owed (schedule run activity rest compensations).pending =
      owed run.pending ++ (activity.owes ++ (rest ++ compensations.map .compensation)) := by
  simp [schedule, Task.owes]

theorem owed_compensateAll (run : Run) (commands : List CompensationCommand) :
    owed (compensateAll run commands).pending = owed run.pending ++ commands.map .compensation := by
  induction commands generalizing run with
  | nil => simp [compensateAll]
  | cons command rest ih => simp [compensateAll, ih, owed_schedule, Activity.owes]

theorem owed_execute (run : Run) (commands : List SagaCommand)
    (compensations : List CompensationCommand) :
    (owed (execute run commands compensations).pending).Perm
      (owed run.pending ++ (commands ++ compensations.map .compensation)) := by
  induction commands generalizing run compensations with
  | nil => simp [execute, owed_compensateAll]
  | cons command rest ih =>
      cases command with
      | changeOrder change => simp [execute, owed_schedule, Activity.owes]
      | commitStock => simp [execute, owed_schedule, Activity.owes]
      | capturePayment => simp [execute, owed_schedule, Activity.owes]
      | verifyAuthorization authorization =>
          have started := ih (schedule run (.verifyAuthorization authorization) [] []) compensations
          simpa [execute, owed_schedule, Activity.owes] using started
      | compensation command =>
          refine (ih run (compensations ++ [command])).trans ?_
          simp only [List.map_append, List.map_cons, List.map_nil]
          refine List.Perm.append_left _ ?_
          rw [← List.append_assoc]
          exact List.perm_append_singleton _ _

theorem owed_apply (run : Run) (transition : Transition) :
    (owed (apply run transition).pending).Perm (owed run.pending ++ transition.commands) := by
  have executed := owed_execute
    { run with saga := transition.state, log := run.log ++ entriesOf run.saga transition }
    transition.commands []
  simpa [apply] using executed

theorem takeTask_perm (seq : Nat) (tasks rest : List Task) (task : Task)
    (found : takeTask seq tasks = some (task, rest)) : tasks.Perm (task :: rest) := by
  induction tasks generalizing rest with
  | nil => cases found
  | cons head tail ih =>
      simp only [takeTask] at found
      split at found
      · cases Option.some.inj found
        exact List.Perm.refl _
      · obtain ⟨⟨inner, remaining⟩, taken, same⟩ := Option.map_eq_some_iff.mp found
        cases same
        exact ((ih remaining taken).cons head).trans (List.Perm.swap _ _ _)

theorem takeTask_owed (seq : Nat) (tasks rest : List Task) (task : Task)
    (found : takeTask seq tasks = some (task, rest)) :
    (owed tasks).Perm (task.owes ++ owed rest) := by
  have flattened := (takeTask_perm seq tasks rest task found).flatMap_right Task.owes
  simpa [owed] using flattened

/-! ## What one event fires -/

/-- The transitions an event may fire on a saga state, with the commands the event
reports done and the entries it logs before the transition's own. -/
inductive Fires (state : CheckoutSagaState) :
    List SagaCommand → List Entry → Transition → Prop
  | quiet : Fires state [] [] (noop state)
  | orderChanged (change : OrderChangeCommand) :
      Fires state [.changeOrder change] [] (noop state)
  | tried (outcome : ReserveOutcome) : Fires state [] [] (onTryResult state outcome)
  | authorized (authorization : PaymentAuthorization) (totalMinor : Int) (currency : String) :
      Fires state [] [] (onAuthorized state authorization totalMinor currency).transition
  | verified (authorization : PaymentAuthorization) (verdict : AuthorizationVerdict) :
      Fires state [.verifyAuthorization authorization] []
        (onAuthorizationVerified state authorization verdict).transition
  | committed (outcome : CommitOutcome) :
      Fires state [.commitStock] [.committed outcome] (onCommitResult state outcome)
  | captured (outcome : SettledCaptureOutcome) :
      Fires state [.capturePayment] [.captured outcome] (onCaptureResult state outcome)
  | compensated (command : CompensationCommand) :
      Fires state [.compensation command] [] (onCompensationDone state command.id)
  | contextRead (status : Option OrderStatus) :
      Fires state [] [] (onLateAuthorizationContext state status)
  | deadline : Fires state [] [] (onDeadline state)
  | cancelled (requester : CancelBy) (accepted : canCancel state = true) :
      Fires state [] [.cancelAccepted] (onCancelRequested state requester)

/-- The transition has been applied: the run carries its state, has logged it, and owes
its commands in place of the ones reported done. -/
structure Applied (before after : Run) (done : List SagaCommand) (entries : List Entry)
    (transition : Transition) : Prop where
  saga : after.saga = transition.state
  log : after.log = before.log ++ (entries ++ entriesOf before.saga transition)
  owed : (owed before.pending ++ transition.commands).Perm (done ++ owed after.pending)

@[simp] theorem entriesOf_noop (state : CheckoutSagaState) : entriesOf state (noop state) = [] := by
  simp [entriesOf, noop]

@[simp] theorem issued_mem_entriesOf (state : CheckoutSagaState) (transition : Transition)
    (command : SagaCommand) :
    .issued command ∈ entriesOf state transition ↔ command ∈ transition.commands := by
  unfold entriesOf
  split <;> simp

@[simp] theorem carries_mem_entriesOf (state : CheckoutSagaState) (transition : Transition)
    (status : OrderStatus) :
    .carries status ∈ entriesOf state transition ↔
      transition.state.orderStatus = some status ∧ state.orderStatus ≠ some status := by
  unfold entriesOf
  split <;> rename_i same <;> simp [same, eq_comm]
  intro carried before
  exact same (carried.trans before.symm)

@[simp] theorem committed_mem_entriesOf (state : CheckoutSagaState) (transition : Transition)
    (outcome : CommitOutcome) : .committed outcome ∉ entriesOf state transition := by
  unfold entriesOf
  split <;> simp

@[simp] theorem captured_mem_entriesOf (state : CheckoutSagaState) (transition : Transition)
    (outcome : SettledCaptureOutcome) : .captured outcome ∉ entriesOf state transition := by
  unfold entriesOf
  split <;> simp

theorem applied_quiet (before after : Run) (saga : after.saga = before.saga)
    (log : after.log = before.log) (pending : after.pending = before.pending) :
    Applied before after [] [] (noop before.saga) where
  saga := saga
  log := by simp [log]
  owed := by simp [noop, pending]

theorem applied_apply (run after : Run) (entries : List Entry) (transition : Transition)
    (saga : after.saga = run.saga) (log : after.log = run.log ++ entries)
    (pending : after.pending = run.pending) :
    Applied run (apply after transition) [] entries transition where
  saga := by simp
  log := by simp [log, saga]
  owed := by
    rw [← pending]
    exact (owed_apply after transition).symm

theorem settle_fires (run settled : Run) (activity : Activity) (result : ActivityResult)
    (success : settle run activity result = some settled) :
    ∃ entries transition, Fires run.saga activity.owes entries transition ∧
      Applied run settled [] entries transition := by
  unfold settle at success
  split at success <;> simp only [Option.some.injEq, reduceCtorEq] at success
  case h_1 change result =>
    subst success
    exact ⟨_, _, .orderChanged change, applied_quiet run run rfl rfl rfl⟩
  case h_2 authorization verdict =>
    subst success
    exact ⟨_, _, .verified authorization verdict, applied_apply run run _ _ rfl (by simp) rfl⟩
  case h_3 outcome =>
    subst success
    exact ⟨_, _, .committed outcome, applied_apply run _ _ _ rfl rfl rfl⟩
  case h_4 outcome =>
    subst success
    exact ⟨_, _, .captured outcome, applied_apply run _ _ _ rfl rfl rfl⟩
  case h_5 command =>
    subst success
    exact ⟨_, _, .compensated command, applied_apply run run _ _ rfl (by simp) rfl⟩
  case h_6 status =>
    subst success
    exact ⟨_, _, .contextRead status, applied_apply run _ _ _ rfl (by simp) rfl⟩

theorem resume_fires (run next : Run) (task : Task) (rest : List Task) (seq : Nat)
    (result : ActivityResult) (taken : takeTask seq run.pending = some (task, rest))
    (resumed : resume { run with pending := rest } task result = some next) :
    ∃ entries transition, Fires run.saga task.activity.owes entries transition ∧
      Applied run next task.activity.owes entries transition := by
  obtain ⟨settled, success, rfl⟩ := Option.map_eq_some_iff.mp resumed
  obtain ⟨entries, transition, fires, applied⟩ := settle_fires _ settled _ result success
  refine ⟨entries, transition, fires, ?_, ?_, ?_⟩
  · simpa using applied.saga
  · simpa using applied.log
  · have before := (takeTask_owed seq run.pending rest task taken).append_right transition.commands
    have after := owed_execute settled task.rest task.compensations
    have middle := applied.owed
    simp only [Task.owes, List.append_assoc, List.nil_append] at before middle after ⊢
    refine before.trans (List.Perm.append_left _ ?_)
    refine List.Perm.trans ?_ after.symm
    rw [← List.append_assoc]
    exact (List.Perm.append_left _ middle).trans List.perm_append_comm

def reported (run : Run) : Event → List SagaCommand
  | .answered seq _ =>
      match takeTask seq run.pending with
      | some (task, _) => task.activity.owes
      | none => []
  | _ => []

theorem deliver_reports (run next : Run) (event : Event)
    (delivered : deliver run event = some next) :
    ∃ entries transition, Fires run.saga (reported run event) entries transition ∧
      Applied run next (reported run event) entries transition := by
  cases event with
  | reserve nowMs =>
      simp only [deliver] at delivered
      split at delivered
      · cases delivered
      · cases Option.some.inj delivered
        refine ⟨_, _, .quiet, applied_quiet run _ ?_ ?_ ?_⟩ <;>
          (unfold runTry; split <;> simp)
  | tryAnswered seq answer =>
      simp only [deliver] at delivered
      split at delivered
      · cases delivered
      · split at delivered
        · cases Option.some.inj delivered
          exact ⟨_, _, .quiet, applied_quiet run _ rfl rfl rfl⟩
        · cases delivered
  | tryWritten seq written =>
      simp only [deliver] at delivered
      split at delivered
      · split at delivered
        · cases delivered
        · cases Option.some.inj delivered
          exact ⟨_, _, .tried _, applied_apply run _ _ _ rfl (by simp) rfl⟩
      · cases delivered
  | crash tryRecorded nowMs =>
      simp only [deliver] at delivered
      split at delivered
      · cases delivered
      · cases Option.some.inj delivered
        refine ⟨_, _, .quiet, applied_quiet run _ ?_ ?_ ?_⟩ <;>
          (unfold crash; split <;> first | rfl | simp | (split <;> simp))
  | paymentAuthorized authorization =>
      simp only [deliver] at delivered
      split at delivered
      · cases delivered
      · cases Option.some.inj delivered
        exact ⟨_, _, .authorized authorization _ _, applied_apply run _ _ _ rfl (by simp) rfl⟩
  | cancel requester =>
      simp only [deliver] at delivered
      split at delivered
      · cases delivered
      · rename_i accepted
        cases Option.some.inj delivered
        have granted : canCancel run.saga = true := by
          by_contra refused
          exact accepted (Or.inr (by simp [refused]))
        exact ⟨_, _, .cancelled requester granted, applied_apply run _ _ _ rfl rfl rfl⟩
  | answered seq result =>
      simp only [deliver] at delivered
      split at delivered
      · cases delivered
      · split at delivered
        · rename_i task rest taken
          have reports : reported run (.answered seq result) = task.activity.owes := by
            simp [reported, taken]
          rw [reports]
          exact resume_fires run next task rest seq result taken delivered
        · cases delivered
  | settledInTime =>
      simp only [deliver] at delivered
      split at delivered
      · cases Option.some.inj delivered
        exact ⟨_, _, .quiet, applied_quiet run _ rfl rfl rfl⟩
      · cases delivered
  | deadline =>
      simp only [deliver] at delivered
      split at delivered
      · cases Option.some.inj delivered
        exact ⟨_, _, .deadline, applied_apply run _ _ _ rfl (by simp) rfl⟩
      · cases delivered
  | returned =>
      simp only [deliver] at delivered
      split at delivered
      · cases Option.some.inj delivered
        exact ⟨_, _, .quiet, applied_quiet run _ rfl rfl rfl⟩
      · cases delivered
  | fault =>
      simp only [deliver] at delivered
      split at delivered
      · cases delivered
      · cases Option.some.inj delivered
        exact ⟨_, _, .quiet, applied_quiet run _ rfl rfl rfl⟩

theorem deliver_fires (run next : Run) (event : Event) (delivered : deliver run event = some next) :
    ∃ done entries transition,
      Fires run.saga done entries transition ∧ Applied run next done entries transition := by
  obtain ⟨entries, transition, fires, applied⟩ := deliver_reports run next event delivered
  exact ⟨reported run event, entries, transition, fires, applied⟩

/-! ## The input of a run stays -/

@[simp] theorem compensateAll_input (run : Run) (commands : List CompensationCommand) :
    (compensateAll run commands).input = run.input := by
  induction commands generalizing run with
  | nil => rfl
  | cons command rest ih => exact ih (schedule run (.compensation command) [] [])

@[simp] theorem execute_input (run : Run) (commands : List SagaCommand)
    (compensations : List CompensationCommand) :
    (execute run commands compensations).input = run.input := by
  induction commands generalizing run compensations with
  | nil => exact compensateAll_input run compensations
  | cons command rest ih => cases command <;> simp [execute, schedule, ih]

@[simp] theorem apply_input (run : Run) (transition : Transition) :
    (apply run transition).input = run.input := by
  simp [apply]

@[simp] theorem attemptTry_input (run : Run) (nowMs : Int) :
    (attemptTry run nowMs).input = run.input := by
  unfold attemptTry
  split <;> rfl

@[simp] theorem crash_input (run : Run) (tryRecorded : Bool) (nowMs : Int) :
    (crash run tryRecorded nowMs).input = run.input := by
  unfold crash
  split <;> first | rfl | simp | (split <;> simp)

@[simp] theorem runTry_input (run : Run) (nowMs : Int) : (runTry run nowMs).input = run.input := by
  unfold runTry
  split <;> simp

theorem checkoutSaga_input (input : CheckoutSagaInput) (firstSeq : Nat) (nowMs : Int) :
    (checkoutSaga input firstSeq nowMs).input = input := by
  cases mode : input.mode <;> simp [checkoutSaga, mode, schedule]

theorem settle_input (run settled : Run) (activity : Activity) (result : ActivityResult)
    (success : settle run activity result = some settled) : settled.input = run.input := by
  unfold settle at success
  split at success <;> simp only [Option.some.injEq, reduceCtorEq] at success <;> subst success <;>
    simp [record]

theorem deliver_input (run next : Run) (event : Event) (delivered : deliver run event = some next) :
    next.input = run.input := by
  cases event with
  | answered seq result =>
      simp only [deliver] at delivered
      split at delivered
      · cases delivered
      · split at delivered
        · obtain ⟨settled, success, rfl⟩ := Option.map_eq_some_iff.mp delivered
          have same := settle_input _ settled _ result success
          exact (execute_input settled _ _).trans same
        · cases delivered
  | tryAnswered seq answer =>
      simp only [deliver] at delivered
      split at delivered
      · cases delivered
      · split at delivered <;> cases delivered
        rfl
  | tryWritten seq written =>
      simp only [deliver] at delivered
      split at delivered
      · split at delivered <;> cases delivered
        simp
      · cases delivered
  | reserve | crash | paymentAuthorized | cancel | settledInTime | deadline | returned | fault =>
      simp only [deliver] at delivered
      split at delivered <;> cases delivered
      simp [record]

/-! ## The Try is done once its result was written -/

@[simp] theorem compensateAll_tryRun (run : Run) (commands : List CompensationCommand) :
    (compensateAll run commands).tryRun = run.tryRun := by
  induction commands generalizing run with
  | nil => rfl
  | cons command rest ih => exact ih (schedule run (.compensation command) [] [])

@[simp] theorem execute_tryRun (run : Run) (commands : List SagaCommand)
    (compensations : List CompensationCommand) :
    (execute run commands compensations).tryRun = run.tryRun := by
  induction commands generalizing run compensations with
  | nil => exact compensateAll_tryRun run compensations
  | cons command rest ih => cases command <;> simp [execute, schedule, ih]

@[simp] theorem apply_tryRun (run : Run) (transition : Transition) :
    (apply run transition).tryRun = run.tryRun := by
  simp [apply]

theorem settle_tryRun (run settled : Run) (activity : Activity) (result : ActivityResult)
    (success : settle run activity result = some settled) : settled.tryRun = run.tryRun := by
  unfold settle at success
  split at success <;> simp only [Option.some.injEq, reduceCtorEq] at success <;> subst success <;>
    simp [record]

theorem attemptTry_undone (run : Run) (nowMs : Int) (outcome : ReserveOutcome) :
    (attemptTry run nowMs).tryRun ≠ .done outcome := by
  unfold attemptTry
  split <;> exact TryRun.noConfusion

theorem checkoutSaga_undone (input : CheckoutSagaInput) (firstSeq : Nat) (nowMs : Int)
    (outcome : ReserveOutcome) : (checkoutSaga input firstSeq nowMs).tryRun ≠ .done outcome := by
  cases mode : input.mode with
  | checkout =>
      simp only [checkoutSaga, mode, runTry, if_pos]
      exact attemptTry_undone _ nowMs outcome
  | lateAuthorization => simp [checkoutSaga, mode, schedule]

theorem runTry_done (run : Run) (nowMs : Int) (outcome : ReserveOutcome)
    (done : (runTry run nowMs).tryRun = .done outcome) : run.tryRun = .done outcome := by
  unfold runTry at done
  split at done
  · exact absurd done (attemptTry_undone run nowMs outcome)
  · exact done

theorem crash_done (run : Run) (tryRecorded : Bool) (nowMs : Int) (outcome : ReserveOutcome)
    (done : (crash run tryRecorded nowMs).tryRun = .done outcome) : run.tryRun = .done outcome := by
  unfold crash at done
  split at done
  · exact done
  · exact absurd done (attemptTry_undone run nowMs outcome)
  · split at done
    · cases done
    · exact absurd done (attemptTry_undone run nowMs outcome)
  · exact done

theorem deliver_done (run next : Run) (event : Event) (outcome : ReserveOutcome)
    (delivered : deliver run event = some next) (done : next.tryRun = .done outcome) :
    run.tryRun = .done outcome ∨ ∃ seq written,
      event = .tryWritten seq written ∧ run.tryRun = .applying seq outcome := by
  cases event with
  | answered seq result =>
      simp only [deliver] at delivered
      split at delivered
      · cases delivered
      · split at delivered
        · obtain ⟨settled, success, rfl⟩ := Option.map_eq_some_iff.mp delivered
          have same := settle_tryRun _ settled _ result success
          exact .inl (same.symm.trans ((execute_tryRun settled _ _).symm.trans done))
        · cases delivered
  | tryAnswered seq answer =>
      simp only [deliver] at delivered
      split at delivered
      · cases delivered
      · split at delivered <;> cases delivered
        cases done
  | tryWritten seq written =>
      simp only [deliver] at delivered
      split at delivered
      · rename_i current applied trying
        split at delivered
        · cases delivered
        · rename_i running
          cases delivered
          simp only [apply_tryRun, TryRun.done.injEq] at done
          have current := not_not.mp (not_or.mp running).2
          exact .inr ⟨seq, written, rfl, by rw [trying, current, done]⟩
      · cases delivered
  | reserve nowMs =>
      simp only [deliver] at delivered
      split at delivered <;> cases delivered
      exact .inl (runTry_done run nowMs outcome done)
  | crash tryRecorded nowMs =>
      simp only [deliver] at delivered
      split at delivered <;> cases delivered
      exact .inl (crash_done run tryRecorded nowMs outcome done)
  | paymentAuthorized | cancel | settledInTime | deadline | returned | fault =>
      simp only [deliver] at delivered
      split at delivered <;> cases delivered
      exact .inl (by simpa [record] using done)

end Commerce.Saga
