import Commerce.Saga.Pending

/-!
# Runs started for a late authorization

A late-authorization run shares its workflow id, its handlers and its
transitions with a checkout run.  The transitions respect its mode: whatever
reaches the run, the only command it issues is a payment cancel, and none when
the order is paid.  The reserve handler does not look at the mode.
-/

set_option autoImplicit false

namespace Commerce.Saga

open Commerce.Orders (OrderStatus)
open Runs (run)

def SagaCommand.IsCancelPayment : SagaCommand → Prop
  | .compensation command => command.type = .cancelPayment
  | _ => False

def Activity.Voids : Activity → Prop
  | .compensation command => command.type = .cancelPayment
  | .loadLateAuthorizationContext => True
  | _ => False

/-- The run has asked for no Try and no order write, and has issued payment cancels only; none
when it found the order paid. -/
structure OnlyVoids (run : Run) : Prop where
  untried : run.tryRun = .idle
  activities : ∀ task ∈ run.pending, task.activity.Voids
  commands : ∀ command, .issued command ∈ run.log → command.IsCancelPayment
  paid : run.saga.orderStatus = some .paid → ∀ command, .issued command ∉ run.log

def Event.IsReserve : Event → Prop
  | .reserve _ => True
  | _ => False

/-! ## The state of a late run -/

/-- A late run compensates from its start on, and completes exactly when it reads a paid order;
until it has read the order it has issued nothing. -/
structure Late (state : CheckoutSagaState) (log : List Entry) (owes : List SagaCommand) : Prop where
  mode : state.mode = .lateAuthorization
  step : state.step = .compensating ∨ state.step = .compensated ∨ state.step = .completed
  completed : state.step = .completed ↔ state.orderStatus = some .paid
  issued : ∀ command, .issued command ∈ log → command.IsCancelPayment
  owed : ∀ command ∈ owes, command.IsCancelPayment
  silent : state.orderStatus = none ∨ state.orderStatus = some .paid →
    state.pending = [] ∧ ∀ command, .issued command ∉ log

section Transitions

variable {state : CheckoutSagaState} {log entries : List Entry} {owes rest done : List SagaCommand}
  {transition : Transition} (late : Late state log owes)

include late

theorem Late.not_awaiting : state.step ≠ .awaitingAuth := by
  rcases late.step with step | step | step <;> rw [step] <;> decide

theorem Late.not_of {step : CheckoutStep} (elsewhere : step ≠ .compensating)
    (open' : step ≠ .compensated) (unfinished : step ≠ .completed) : state.step ≠ step := by
  intro same
  rcases late.step with now | now | now
  · exact elsewhere (same.symm.trans now)
  · exact open' (same.symm.trans now)
  · exact unfinished (same.symm.trans now)

theorem Late.quiet (same : transition.state = state ∨ ∃ verifying voided,
      transition.state = { state with verifying := verifying, voided := voided })
    (nothing : transition.commands = [])
    (entered : ∀ command, .issued command ∉ entries)
    (moves : (owes ++ transition.commands).Perm (done ++ rest)) :
    Late transition.state (log ++ (entries ++ entriesOf state transition)) rest := by
  have unissued : ∀ command, .issued command ∉ entries ++ entriesOf state transition := by
    intro command member
    rcases List.mem_append.mp member with before | now
    · exact entered command before
    · rw [issued_mem_entriesOf, nothing] at now
      cases now
  have kept : ∀ command, .issued command ∈ log ++ (entries ++ entriesOf state transition) →
      .issued command ∈ log := by
    intro command member
    exact (List.mem_append.mp member).resolve_right (unissued command)
  have owed : ∀ command ∈ rest, command.IsCancelPayment := by
    intro command member
    refine late.owed command ?_
    have there := moves.mem_iff.mpr (List.mem_append_right done member)
    rwa [nothing, List.append_nil] at there
  have facts : transition.state.mode = state.mode ∧ transition.state.step = state.step ∧
      transition.state.orderStatus = state.orderStatus ∧
      transition.state.pending = state.pending := by
    rcases same with same | ⟨verifying, voided, same⟩ <;> rw [same] <;> exact ⟨rfl, rfl, rfl, rfl⟩
  obtain ⟨mode, step, status, pending⟩ := facts
  exact ⟨mode.trans late.mode, step ▸ late.step, by rw [step, status]; exact late.completed,
    fun command member => late.issued command (kept command member), owed,
    fun unread => ⟨pending.trans (late.silent (status ▸ unread)).1,
      fun command member => (late.silent (status ▸ unread)).2 command (kept command member)⟩⟩

/-- The one compensation a late run issues. -/
theorem Late.voids (known : CheckoutSagaState) (mode : known.mode = .lateAuthorization)
    (read : known.orderStatus ≠ none) (unpaid : known.orderStatus ≠ some .paid)
    (same : transition = compensate known [] [(.cancelPayment, .lateAuthorization)])
    (moves : (owes ++ transition.commands).Perm (done ++ rest)) :
    Late transition.state (log ++ entriesOf state transition) rest := by
  subst same
  have commands : ∀ command ∈ (compensate known []
      [(.cancelPayment, .lateAuthorization)]).commands, command.IsCancelPayment := by
    intro command member
    simp only [compensate, issueFrom, List.map_cons, List.map_nil, List.nil_append,
      List.mem_singleton] at member
    subst member
    rfl
  refine ⟨mode, .inl rfl, ?_, ?_, ?_, ?_⟩
  · exact ⟨(fun step => nomatch step), fun paid => absurd paid unpaid⟩
  · intro command member
    rcases List.mem_append.mp member with before | now
    · exact late.issued command before
    · exact commands command ((issued_mem_entriesOf _ _ _).mp now)
  · intro command member
    rcases List.mem_append.mp (moves.mem_iff.mpr (List.mem_append_right done member)) with
      before | now
    · exact late.owed command before
    · exact commands command now
  · intro silent
    exact absurd silent (not_or.mpr ⟨read, unpaid⟩)

theorem late_fires (fires : Fires state done entries transition)
    (moves : (owes ++ transition.commands).Perm (done ++ rest)) :
    Late transition.state (log ++ (entries ++ entriesOf state transition)) rest := by
  have idle : ∀ {entries : List Entry} {done : List SagaCommand},
      (∀ command, .issued command ∉ entries) →
      (owes ++ (noop state).commands).Perm (done ++ rest) →
      Late (noop state).state (log ++ (entries ++ entriesOf state (noop state))) rest :=
    fun entered moves => late.quiet (.inl rfl) rfl entered moves
  cases fires with
  | quiet => exact idle (fun _ => List.not_mem_nil) moves
  | orderChanged change => exact idle (fun _ => List.not_mem_nil) moves
  | tried outcome =>
      rcases onTryResult_cases state outcome with ⟨-, same⟩ | ⟨step, -⟩ | ⟨step, -⟩
      · rw [same] at moves ⊢
        exact idle (fun _ => List.not_mem_nil) moves
      · exact absurd step (late.not_of (by decide) (by decide) (by decide))
      · exact absurd step (late.not_of (by decide) (by decide) (by decide))
  | authorized authorization totalMinor currency =>
      rcases onAuthorized_cases state authorization totalMinor currency with
        ⟨verifying, voided, commands, same, none' | ⟨awaiting, -⟩⟩ | ⟨compensating, read, same⟩
      · rw [same] at moves ⊢
        exact late.quiet (.inr ⟨verifying, voided, rfl⟩) none' (fun _ => List.not_mem_nil) moves
      · exact absurd awaiting late.not_awaiting
      · have unpaid : state.orderStatus ≠ some .paid := by
          intro paid
          have completed := late.completed.mpr paid
          rw [completed] at compensating
          exact absurd compensating (by decide)
        exact late.voids { state with voided := state.voided ++ [authorization.paymentId] }
          late.mode (read late.mode) unpaid same moves
  | verified authorization verdict =>
      rcases onAuthorizationVerified_cases state authorization verdict with
        ⟨verifying, same, -⟩ | ⟨awaiting, -⟩
      · rw [same] at moves ⊢
        exact late.quiet (.inr ⟨verifying, state.voided, rfl⟩) rfl (fun _ => List.not_mem_nil) moves
      · exact absurd awaiting late.not_awaiting
  | committed outcome =>
      rcases onCommitResult_cases state outcome with ⟨-, same⟩ | ⟨step, -⟩ | ⟨step, -⟩
      · rw [same] at moves ⊢
        exact idle (by simp) moves
      · exact absurd step (late.not_of (by decide) (by decide) (by decide))
      · exact absurd step (late.not_of (by decide) (by decide) (by decide))
  | captured outcome =>
      rcases onCaptureResult_cases state outcome with ⟨-, same⟩ | ⟨step, -⟩ | ⟨step, -⟩
      · rw [same] at moves ⊢
        exact idle (by simp) moves
      · exact absurd step (late.not_of (by decide) (by decide) (by decide))
      · exact absurd step (late.not_of (by decide) (by decide) (by decide))
  | compensated command =>
      rcases onCompensationDone_cases state command.id with same | ⟨waiting, pending, step, same,
        moved⟩
      · rw [same] at moves ⊢
        exact idle (fun _ => List.not_mem_nil) moves
      · -- A compensation was pending, so the run had read an unpaid order.
        have read : ¬ (state.orderStatus = none ∨ state.orderStatus = some .paid) :=
          fun silent => waiting (late.silent silent).1
        have open' : step = .compensating ∨ step = .compensated := by
          rcases moved with ⟨rfl, -⟩ | rfl
          · exact .inr rfl
          · rcases late.step with now | now | now
            · exact .inl now
            · exact .inr now
            · exact absurd (late.completed.mp now) (not_or.mp read).2
        rw [same] at moves ⊢
        refine ⟨late.mode, ?_, ?_, ?_, ?_, fun silent => absurd silent read⟩
        · exact open'.elim .inl fun now => .inr (.inl now)
        · refine ⟨fun completed => ?_, fun paid => absurd paid (not_or.mp read).2⟩
          dsimp only at completed
          rw [completed] at open'
          exact absurd open' (by decide)
        · intro issued member
          rcases List.mem_append.mp member with before | now
          · exact late.issued issued before
          · simp at now
        · intro owed member
          refine late.owed owed ?_
          simpa using moves.mem_iff.mpr (List.mem_append_right _ member)
  | contextRead status =>
      rcases onLateAuthorizationContext_cases state status with same | ⟨-, unread, -, same⟩ |
        ⟨-, -, unpaid, same⟩
      · rw [same] at moves ⊢
        exact idle (fun _ => List.not_mem_nil) moves
      · obtain ⟨none', unissued⟩ := late.silent (.inl unread)
        rw [same] at moves ⊢
        have entered : ∀ command, .issued command ∉ log ++ ([] ++ entriesOf state
            ⟨{ state with step := .completed, orderStatus := some .paid }, []⟩) := by
          intro command member
          rcases List.mem_append.mp member with before | now
          · exact unissued command before
          · simp at now
        refine ⟨late.mode, .inr (.inr rfl), ⟨fun _ => rfl, fun _ => rfl⟩,
          fun command member => absurd member (entered command), ?_, fun _ => ⟨none', entered⟩⟩
        intro command member
        refine late.owed command ?_
        simpa using moves.mem_iff.mpr (List.mem_append_right _ member)
      · refine late.voids { state with orderStatus := some (status.getD .rejected) }
          late.mode (Option.some_ne_none _) (fun paid => ?_) same moves
        cases status with
        | none => cases paid
        | some found => exact unpaid (congrArg some (Option.some.inj paid))
  | deadline =>
      rcases onDeadline_cases state with ⟨-, same⟩ | ⟨awaiting, -⟩
      · rw [same] at moves ⊢
        exact idle (fun _ => List.not_mem_nil) moves
      · exact absurd awaiting late.not_awaiting
  | cancelled requester accepted =>
      rcases onCancelRequested_cases state requester with ⟨-, same⟩ | ⟨awaiting, -⟩
      · rw [same] at moves ⊢
        exact idle (by simp) moves
      · exact absurd awaiting late.not_awaiting

end Transitions

/-! ## Runs -/

def LateRun (run : Run) : Prop := Late run.saga run.log (owed run.pending)

theorem lateRun_deliver (run : Run) (event : Event) (next : Run) (late : LateRun run)
    (delivered : deliver run event = some next) : LateRun next := by
  obtain ⟨done, entries, transition, fires, applied⟩ := deliver_fires run next event delivered
  have moved := late_fires late fires applied.owed
  unfold LateRun
  rw [applied.saga, applied.log]
  exact moved

theorem lateRun_initial (input : CheckoutSagaInput) (mode : input.mode = .lateAuthorization)
    (firstSeq : Nat) (nowMs : Int) : LateRun (checkoutSaga input firstSeq nowMs) := by
  refine ⟨?_, ?_, ?_, ?_, ?_, ?_⟩ <;>
    simp [checkoutSaga, mode, initialCheckoutSagaState, schedule, Task.owes, Activity.owes]

theorem LateRun.activities {run : Run} (late : LateRun run) :
    ∀ task ∈ run.pending, task.activity.Voids := by
  intro task member
  have owes : ∀ command ∈ task.activity.owes, command.IsCancelPayment := by
    intro command here
    refine late.owed command (List.mem_flatMap.mpr ⟨task, member, ?_⟩)
    exact List.mem_append_left _ here
  cases activity : task.activity with
  | compensation command =>
      rw [activity] at owes
      exact owes (.compensation command) (List.mem_singleton_self _)
  | loadLateAuthorizationContext => trivial
  | applyOrderChange change =>
      rw [activity] at owes
      exact owes (.changeOrder change) (List.mem_singleton_self _)
  | verifyAuthorization authorization =>
      rw [activity] at owes
      exact owes (.verifyAuthorization authorization) (List.mem_singleton_self _)
  | commitStock =>
      rw [activity] at owes
      exact owes .commitStock (List.mem_singleton_self _)
  | capturePayment =>
      rw [activity] at owes
      exact owes .capturePayment (List.mem_singleton_self _)

theorem attemptTry_busy (run : Run) (nowMs : Int) : (attemptTry run nowMs).tryRun ≠ .idle := by
  unfold attemptTry
  split <;> exact TryRun.noConfusion

theorem runTry_busy (run : Run) (nowMs : Int) : (runTry run nowMs).tryRun ≠ .idle := by
  unfold runTry
  split
  · exact attemptTry_busy run nowMs
  · assumption

/-- The Try of a run starts with a reserve, and only with one. -/
theorem deliver_idle (run next : Run) (event : Event) (idle : run.tryRun = .idle)
    (delivered : deliver run event = some next) : next.tryRun = .idle ↔ ¬ event.IsReserve := by
  cases event with
  | reserve nowMs =>
      simp only [deliver] at delivered
      split at delivered <;> cases delivered
      exact ⟨fun same => absurd same (runTry_busy run nowMs), fun other => absurd trivial other⟩
  | tryAnswered seq answer =>
      simp [deliver, idle] at delivered
  | tryWritten seq written =>
      simp [deliver, idle] at delivered
  | crash tryRecorded nowMs =>
      simp only [deliver] at delivered
      split at delivered <;> cases delivered
      simp [crash, idle, Event.IsReserve]
  | answered seq result =>
      simp only [deliver] at delivered
      split at delivered
      · cases delivered
      · split at delivered
        · rename_i task rest taken
          obtain ⟨settled, success, rfl⟩ := Option.map_eq_some_iff.mp delivered
          have same := (execute_tryRun settled task.rest task.compensations).trans
            (settle_tryRun _ settled _ result success)
          exact ⟨fun _ => id, fun _ => same.trans idle⟩
        · cases delivered
  | paymentAuthorized | cancel | settledInTime | deadline | returned | fault =>
      simp only [deliver] at delivered
      split at delivered <;> cases delivered
      simp [record, idle, Event.IsReserve]

theorem run_idle (events : List Event) (start final : Run) (idle : start.tryRun = .idle)
    (ran : run deliver start events = some final)
    (unreserved : ∀ event ∈ events, ¬ event.IsReserve) : final.tryRun = .idle := by
  induction events generalizing start with
  | nil =>
      cases Option.some.inj ran
      exact idle
  | cons event rest ih =>
      obtain ⟨next, delivered, remaining⟩ := Runs.run_cons_eq_some deliver start final event rest
        ran
      have still := (deliver_idle start next event idle delivered).mpr (unreserved event (.head _))
      exact ih next still remaining fun other member => unreserved other (.tail _ member)

/-- A late-authorization run does nothing but void in every state it reaches, exactly when no
reserve is delivered to it. -/
theorem late_run_voids (input : CheckoutSagaInput) (mode : input.mode = .lateAuthorization)
    (firstSeq : Nat) (nowMs : Int) (events : List Event) (final : Run)
    (ran : run deliver (checkoutSaga input firstSeq nowMs) events = some final) :
    (∀ before after reached, events = before ++ after →
      run deliver (checkoutSaga input firstSeq nowMs) before = some reached → OnlyVoids reached) ↔
    ∀ event ∈ events, ¬ event.IsReserve := by
  have idle : (checkoutSaga input firstSeq nowMs).tryRun = .idle := by
    simp [checkoutSaga, mode, schedule]
  constructor
  · intro voids event member reserve
    obtain ⟨before, after, rfl⟩ := List.append_of_mem member
    rw [List.append_cons, Runs.run_append] at ran
    obtain ⟨reached, upTo, -⟩ := Option.bind_eq_some_iff.mp ran
    have prefixRan := upTo
    rw [Runs.run_append] at upTo
    obtain ⟨waiting, here, stepped⟩ := Option.bind_eq_some_iff.mp upTo
    obtain ⟨next, delivered, ended⟩ := Runs.run_cons_eq_some deliver waiting reached event
      [] stepped
    cases Option.some.inj ended
    have still := (voids before (event :: after) waiting rfl here).untried
    have started := (voids (before ++ [event]) after reached (by simp) prefixRan).untried
    exact (deliver_idle waiting reached event still delivered).mp started reserve
  · rintro unreserved before after reached rfl here
    have late : LateRun reached :=
      Runs.run_preserves deliver LateRun lateRun_deliver before _ reached
        (lateRun_initial input mode firstSeq nowMs) here
    refine ⟨?_, late.activities, late.issued, fun paid => (late.silent (.inr paid)).2⟩
    exact run_idle before _ reached idle here fun event member =>
      unreserved event (List.mem_append_left after member)

def lateInput : CheckoutSagaInput := ⟨.lateAuthorization, 0, none, 500, "USD", 1000⟩

def voidingEvents : List Event :=
  [.paymentAuthorized ⟨7, 500, "USD", 0⟩, .answered 0 (.context (some .expired)),
    .answered 1 .compensated, .paymentAuthorized ⟨8, 500, "USD", 0⟩, .answered 2 .compensated]

theorem late_run_voids_expired :
    ∃ final, run deliver (checkoutSaga lateInput 0 0) voidingEvents = some final ∧
      ((∀ before after reached, voidingEvents = before ++ after →
          run deliver (checkoutSaga lateInput 0 0) before = some reached → OnlyVoids reached) ↔
        ∀ event ∈ voidingEvents, ¬ event.IsReserve) :=
  ⟨_, rfl, late_run_voids lateInput rfl 0 0 voidingEvents _ rfl⟩

/-- A checkout's reserve attaches to a late run inside the Try's budget: the stock is tried, the
result written, and the update answers with a hold. -/
theorem reserved_late_run_holds :
    ∃ final, run deliver (checkoutSaga lateInput 0 0)
        [.reserve 5, .tryAnswered 1 (.answered .reserved), .tryWritten 2 .applied] = some final ∧
      lateInput.mode = .lateAuthorization ∧ final.tryRun = .done .held ∧ ¬ OnlyVoids final := by
  refine ⟨_, rfl, rfl, rfl, fun voids => ?_⟩
  cases voids.untried

end Commerce.Saga
