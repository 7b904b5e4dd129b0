import Commerce.Saga.PivotLaw

/-!
# A run in checkout mode

The Try of such a run is in progress exactly as long as its saga is `RESERVING`, and its
body waits for the authorization as long as its saga does.
-/

set_option autoImplicit false

namespace Commerce.Saga

open Commerce.Orders (OrderStatus SagaWriteResult)

def TryRun.going : TryRun → Bool
  | .attempting _ | .applying _ _ => true
  | .idle | .done _ => false

theorem TryRun.begun_of_going (tryRun : TryRun) (going : tryRun.going = true) :
    tryRun ≠ .idle := by
  intro idle
  rw [idle] at going
  cases going

/-! ## Steps that do not lead back -/

/-- The saga is `RESERVING` after as before, and `AWAITING_AUTH` only if it was. -/
structure Onward (before after : CheckoutSagaState) : Prop where
  mode : after.mode = before.mode
  reserving : after.step = .reserving ↔ before.step = .reserving
  awaiting : after.step = .awaitingAuth → before.step = .awaitingAuth

theorem onward_of_same (before after : CheckoutSagaState) (mode : after.mode = before.mode)
    (step : after.step = before.step) : Onward before after where
  mode := mode
  reserving := by rw [step]
  awaiting := by
    intro awaiting
    rw [← step]
    exact awaiting

theorem onward_of_late (before after : CheckoutSagaState) (mode : after.mode = before.mode)
    (past : before.step ≠ .reserving) (late : after.step.early = false) : Onward before after where
  mode := mode
  reserving := by
    constructor
    · intro reserving
      rw [reserving] at late
      cases late
    · intro reserving
      exact absurd reserving past
  awaiting := by
    intro awaiting
    rw [awaiting] at late
    cases late

section Transitions

variable (state : CheckoutSagaState)

theorem onAuthorized_onward (authorization : PaymentAuthorization) (totalMinor : Int)
    (currency : String) :
    Onward state (onAuthorized state authorization totalMinor currency).transition.state := by
  rcases onAuthorized_cases state authorization totalMinor currency with
    ⟨verifying, voided, commands, fired, -⟩ | ⟨compensating, -, fired⟩
  · rw [fired]
    exact onward_of_same state _ rfl rfl
  · have past : state.step ≠ .reserving := by
      intro reserving
      simp [reserving] at compensating
    rw [fired]
    exact onward_of_late state _ rfl past rfl

theorem onAuthorizationVerified_onward (authorization : PaymentAuthorization)
    (verdict : AuthorizationVerdict) :
    Onward state (onAuthorizationVerified state authorization verdict).transition.state := by
  rcases onAuthorizationVerified_cases state authorization verdict with
    ⟨verifying, fired, -⟩ | ⟨awaiting, -, fired⟩
  · rw [fired]
    exact onward_of_same state _ rfl rfl
  · rw [fired]
    exact onward_of_late state _ rfl (by simp [awaiting]) rfl

theorem onCommitResult_onward (outcome : CommitOutcome) :
    Onward state (onCommitResult state outcome).state := by
  rcases onCommitResult_cases state outcome with
    ⟨-, fired⟩ | ⟨committing, -, fired⟩ | ⟨committing, -, fired⟩
  · rw [fired]
    exact onward_of_same state _ rfl rfl
  · rw [fired]
    exact onward_of_late state _ rfl (by simp [committing]) rfl
  · rw [fired]
    exact onward_of_late state _ rfl (by simp [committing]) rfl

theorem onCaptureResult_onward (outcome : SettledCaptureOutcome) :
    Onward state (onCaptureResult state outcome).state := by
  rcases onCaptureResult_cases state outcome with
    ⟨-, fired⟩ | ⟨capturing, -, fired⟩ | ⟨capturing, -, fired⟩
  · rw [fired]
    exact onward_of_same state _ rfl rfl
  · rw [fired]
    exact onward_of_late state _ rfl (by simp [capturing]) rfl
  · rw [fired]
    exact onward_of_late state _ rfl (by simp [capturing]) rfl

theorem onDeadline_onward : Onward state (onDeadline state).state := by
  rcases onDeadline_cases state with ⟨-, fired⟩ | ⟨awaiting, fired⟩
  · rw [fired]
    exact onward_of_same state _ rfl rfl
  · rw [fired]
    exact onward_of_late state _ rfl (by simp [awaiting]) rfl

theorem onCancelRequested_onward (requester : CancelBy) :
    Onward state (onCancelRequested state requester).state := by
  rcases onCancelRequested_cases state requester with ⟨-, fired⟩ | ⟨awaiting, fired⟩
  · rw [fired]
    exact onward_of_same state _ rfl rfl
  · rw [fired]
    exact onward_of_late state _ rfl (by simp [awaiting]) rfl

/-- A compensation that finishes was issued, and the confirm path issues none. -/
theorem onCompensationDone_onward (id : Nat)
    (forward : state.step ≠ .compensating → state.step ≠ .compensated → state.pending = []) :
    Onward state (onCompensationDone state id).state := by
  rcases onCompensationDone_cases state id with fired | ⟨waiting, pending, step, fired, moved⟩
  · rw [fired]
    exact onward_of_same state _ rfl rfl
  · have past : state.step ≠ .reserving := by
      intro reserving
      exact waiting (forward (by simp [reserving]) (by simp [reserving]))
    rw [fired]
    rcases moved with ⟨done, -⟩ | same
    · exact onward_of_late state _ rfl past (by simp [done, CheckoutStep.early])
    · exact onward_of_same state _ rfl same

theorem onLateAuthorizationContext_checkout (status : Option OrderStatus)
    (mode : state.mode = .checkout) :
    onLateAuthorizationContext state status = noop state := by
  unfold onLateAuthorizationContext
  apply if_pos
  left
  simp [mode]

end Transitions

/-! ## What executing commands leaves alone -/

@[simp] theorem compensateAll_body (run : Run) (commands : List CompensationCommand) :
    (compensateAll run commands).body = run.body := by
  induction commands generalizing run with
  | nil => rfl
  | cons command rest ih => exact ih (schedule run (.compensation command) [] [])

@[simp] theorem execute_body (run : Run) (commands : List SagaCommand)
    (compensations : List CompensationCommand) :
    (execute run commands compensations).body = run.body := by
  induction commands generalizing run compensations with
  | nil => exact compensateAll_body run compensations
  | cons command rest ih => cases command <;> simp [execute, schedule, ih]

@[simp] theorem apply_body (run : Run) (transition : Transition) :
    (apply run transition).body = run.body := by
  simp [apply]

def NoContext (run : Run) : Prop :=
  ∀ task ∈ run.pending, task.activity ≠ .loadLateAuthorizationContext

theorem noContext_schedule (run : Run) (activity : Activity) (rest : List SagaCommand)
    (compensations : List CompensationCommand) (quiet : NoContext run)
    (other : activity ≠ .loadLateAuthorizationContext) :
    NoContext (schedule run activity rest compensations) := by
  intro task member
  rcases List.mem_append.mp member with before | added
  · exact quiet task before
  · rw [List.mem_singleton.mp added]
    exact other

theorem noContext_compensateAll (run : Run) (commands : List CompensationCommand)
    (quiet : NoContext run) : NoContext (compensateAll run commands) := by
  induction commands generalizing run with
  | nil => exact quiet
  | cons command rest ih =>
      exact ih _ (noContext_schedule run (.compensation command) [] [] quiet (by simp))

theorem noContext_execute (run : Run) (commands : List SagaCommand)
    (compensations : List CompensationCommand) (quiet : NoContext run) :
    NoContext (execute run commands compensations) := by
  induction commands generalizing run compensations with
  | nil => exact noContext_compensateAll run compensations quiet
  | cons command rest ih =>
      cases command with
      | changeOrder change => exact noContext_schedule run _ rest _ quiet (by simp)
      | commitStock => exact noContext_schedule run _ rest _ quiet (by simp)
      | capturePayment => exact noContext_schedule run _ rest _ quiet (by simp)
      | verifyAuthorization authorization =>
          exact ih _ _ (noContext_schedule run _ [] [] quiet (by simp))
      | compensation command => exact ih run _ quiet

theorem noContext_apply (run : Run) (transition : Transition) (quiet : NoContext run) :
    NoContext (apply run transition) :=
  noContext_execute _ transition.commands [] quiet

theorem noContext_of_same {run next : Run} (quiet : NoContext run)
    (same : next.pending = run.pending) : NoContext next := by
  unfold NoContext
  rw [same]
  exact quiet

/-! ## The invariant -/

structure CheckoutRun (run : Run) : Prop where
  pivot : RunPivot run
  mode : run.saga.mode = .checkout
  noContext : NoContext run
  going : run.tryRun.going = true ↔ run.saga.step = .reserving
  begun : run.tryRun ≠ .idle
  trying : run.saga.step = .reserving → run.body = .trying
  awaiting : run.saga.step = .awaitingAuth → run.body = .awaitingAuth
  closed : run.body = .closed → run.pending = [] ∧ settledSteps.contains run.saga.step = true

theorem CheckoutRun.reserving_of_applying {run : Run} (inv : CheckoutRun run) {seq : Nat}
    {outcome : ReserveOutcome} (applying : run.tryRun = .applying seq outcome) :
    run.saga.step = .reserving := by
  apply inv.going.mp
  rw [applying]
  rfl

theorem attemptTry_going (run : Run) (nowMs : Int) :
    (attemptTry run nowMs).tryRun.going = true := by
  unfold attemptTry
  split <;> rfl

@[simp] theorem attemptTry_body (run : Run) (nowMs : Int) :
    (attemptTry run nowMs).body = run.body := by
  unfold attemptTry
  split <;> rfl

theorem checkoutRun_initial (input : CheckoutSagaInput) (mode : input.mode = .checkout)
    (firstSeq : Nat) (nowMs : Int) : CheckoutRun (checkoutSaga input firstSeq nowMs) := by
  have pivot := runPivot_initial input firstSeq nowMs
  have begun : ∀ run : Run, run.tryRun = .idle → runTry run nowMs = attemptTry run nowMs := by
    intro run idle
    unfold runTry
    exact if_pos idle
  simp only [checkoutSaga, mode] at pivot ⊢
  rw [begun _ rfl] at pivot ⊢
  constructor
  · exact pivot
  · simp [initialCheckoutSagaState]
  · simp [NoContext]
  · simp [attemptTry_going, initialCheckoutSagaState]
  · exact TryRun.begun_of_going _ (attemptTry_going _ nowMs)
  · simp
  · simp [initialCheckoutSagaState]
  · simp

/-- The outcome with which an event ends an execution of the Try. -/
def triedAs (run : Run) : Event → Option ReserveOutcome
  | .tryAnswered _ answer => some answer.outcome
  | .crash tryRecorded nowMs =>
      match (crash run tryRecorded nowMs).tryRun with
      | .applying _ outcome => some outcome
      | _ => none
  | _ => none

/-- What a delivered event does to a checkout run: the Try's write ends it, planning and
answering keep it in progress, and everything else moves the saga onward. -/
inductive Moves (run next : Run) (event : Event) : Prop
  | tried (seq : Nat) (written : SagaWriteResult) (outcome : ReserveOutcome)
      (ends : event = .tryWritten seq written) (applying : run.tryRun = .applying seq outcome)
      (saga : next.saga = (onTryResult run.saga outcome).state)
      (tryRun : next.tryRun = .done outcome)
      (body : next.body = if run.body = .trying then .awaitingAuth else run.body)
  | planned (going : run.tryRun.going = true) (still : next.tryRun.going = true)
      (saga : next.saga = run.saga) (body : next.body = run.body)
      (tried : ∀ seq outcome, next.tryRun = .applying seq outcome →
        triedAs run event = some outcome ∧ run.nextSeq ≤ seq ∧ seq < next.nextSeq)
  | onward (moved : Onward run.saga next.saga) (tryRun : next.tryRun = run.tryRun)
      (body : next.body = run.body ∨
        run.body ≠ .trying ∧ next.saga.step ≠ .awaitingAuth)

/-- A plan that abandons the Try applies it under the next number. -/
theorem attemptTry_applying (run : Run) (nowMs : Int) (seq : Nat) (outcome : ReserveOutcome)
    (applying : (attemptTry run nowMs).tryRun = .applying seq outcome) :
    run.nextSeq ≤ seq ∧ seq < (attemptTry run nowMs).nextSeq := by
  unfold attemptTry at applying ⊢
  split at applying
  · cases applying
    exact ⟨Nat.le_refl _, Nat.lt_succ_self _⟩
  · cases applying

theorem crash_moves (run : Run) (tryRecorded : Bool) (nowMs : Int) (begun : run.tryRun ≠ .idle) :
    Moves run (crash run tryRecorded nowMs) (.crash tryRecorded nowMs) := by
  have ends : ∀ seq outcome, (crash run tryRecorded nowMs).tryRun = .applying seq outcome →
      triedAs run (.crash tryRecorded nowMs) = some outcome := by
    intro seq outcome applying
    simp [triedAs, applying]
  have replans : crash run tryRecorded nowMs = attemptTry run nowMs → run.tryRun.going = true →
      Moves run (crash run tryRecorded nowMs) (.crash tryRecorded nowMs) := by
    intro replanned going
    rw [replanned] at ends ⊢
    refine .planned going (attemptTry_going run nowMs) (by simp) (by simp) ?_
    exact fun seq outcome applying =>
      ⟨ends seq outcome applying, attemptTry_applying run nowMs seq outcome applying⟩
  cases current : run.tryRun with
  | idle => exact absurd current begun
  | attempting seq => exact replans (by simp [crash, current]) (by simp [current, TryRun.going])
  | applying seq outcome =>
      cases tryRecorded with
      | true =>
          have repeated : crash run true nowMs =
              { run with
                tryRun := .applying run.nextSeq outcome, nextSeq := run.nextSeq + 1 } := by
            simp [crash, current]
          rw [repeated] at ends ⊢
          refine .planned (by simp [current, TryRun.going]) rfl rfl rfl ?_
          intro seq outcome applying
          refine ⟨ends seq outcome applying, ?_⟩
          cases applying
          exact ⟨Nat.le_refl _, Nat.lt_succ_self _⟩
      | false => exact replans (by simp [crash, current]) (by simp [current, TryRun.going])
  | done outcome =>
      have same : crash run tryRecorded nowMs = run := by simp [crash, current]
      rw [same]
      exact .onward (onward_of_same _ _ rfl rfl) rfl (.inl rfl)

theorem settle_moves (run settled : Run) (activity : Activity) (result : ActivityResult)
    (forward : run.saga.step ≠ .compensating → run.saga.step ≠ .compensated →
      run.saga.pending = [])
    (other : activity ≠ .loadLateAuthorizationContext)
    (success : settle run activity result = some settled) :
    Onward run.saga settled.saga ∧ settled.body = run.body := by
  unfold settle at success
  split at success
  case h_1 change written =>
    cases Option.some.inj success
    exact ⟨onward_of_same _ _ rfl rfl, rfl⟩
  case h_2 authorization verdict =>
    cases Option.some.inj success
    simp only [apply_saga, apply_body, and_true]
    exact onAuthorizationVerified_onward run.saga authorization verdict
  case h_3 outcome =>
    cases Option.some.inj success
    simp only [apply_saga, apply_body, record, and_true]
    exact onCommitResult_onward run.saga outcome
  case h_4 outcome =>
    cases Option.some.inj success
    simp only [apply_saga, apply_body, record, and_true]
    exact onCaptureResult_onward run.saga outcome
  case h_5 command =>
    cases Option.some.inj success
    simp only [apply_saga, apply_body, and_true]
    exact onCompensationDone_onward run.saga command.id forward
  case h_6 status => exact absurd rfl other
  case h_7 => cases success

theorem takeTask_mem (seq : Nat) (tasks rest : List Task) (task : Task)
    (taken : takeTask seq tasks = some (task, rest)) :
    task ∈ tasks ∧ ∀ other ∈ rest, other ∈ tasks := by
  have same := takeTask_perm seq tasks rest task taken
  constructor
  · exact same.mem_iff.mpr List.mem_cons_self
  · intro other member
    exact same.mem_iff.mpr (List.mem_cons_of_mem task member)

theorem canReturn_settled (run : Run) (ready : canReturn run = true) :
    run.body = .settling ∧ settledSteps.contains run.saga.step = true ∧ run.pending = [] := by
  simp only [canReturn, Bool.and_eq_true, beq_iff_eq, List.isEmpty_iff] at ready
  obtain ⟨⟨⟨⟨settling, settled⟩, nothing⟩, -⟩, -⟩ := ready
  exact ⟨settling, settled, nothing⟩

theorem deliver_moves (run next : Run) (event : Event) (inv : CheckoutRun run)
    (unfaulted : event ≠ .fault) (delivered : deliver run event = some next) :
    Moves run next event := by
  cases event with
  | reserve nowMs =>
      simp only [deliver] at delivered
      split at delivered
      · cases delivered
      · cases Option.some.inj delivered
        have begun : runTry run nowMs = run := if_neg inv.begun
        rw [begun]
        exact .onward (onward_of_same _ _ rfl rfl) rfl (.inl rfl)
  | tryAnswered seq answer =>
      simp only [deliver] at delivered
      split at delivered
      · cases delivered
      · split at delivered
        · rename_i attempting
          cases Option.some.inj delivered
          refine .planned (by simp [attempting, TryRun.going]) rfl rfl rfl ?_
          intro applied outcome applying
          cases applying
          exact ⟨rfl, Nat.le_refl _, Nat.lt_succ_self _⟩
        · cases delivered
  | tryWritten seq written =>
      simp only [deliver] at delivered
      split at delivered
      · rename_i current outcome applying
        split at delivered
        · cases delivered
        · rename_i named
          cases Option.some.inj delivered
          have same : current = seq := by
            by_contra other
            exact named (.inr other)
          subst same
          exact .tried current written outcome rfl applying (by simp) (by simp) (by simp)
      · cases delivered
  | crash tryRecorded nowMs =>
      simp only [deliver] at delivered
      split at delivered
      · cases delivered
      · cases Option.some.inj delivered
        exact crash_moves run tryRecorded nowMs inv.begun
  | paymentAuthorized authorization =>
      simp only [deliver] at delivered
      split at delivered
      · cases delivered
      · cases Option.some.inj delivered
        refine .onward ?_ (by simp) (by simp)
        rw [apply_saga]
        exact onAuthorized_onward run.saga authorization _ _
  | cancel requester =>
      simp only [deliver] at delivered
      split at delivered
      · cases delivered
      · cases Option.some.inj delivered
        refine .onward ?_ (by simp [record]) (by simp [record])
        rw [apply_saga]
        exact onCancelRequested_onward run.saga requester
  | answered seq result =>
      simp only [deliver] at delivered
      split at delivered
      · cases delivered
      · split at delivered
        · rename_i task rest taken
          obtain ⟨settled, success, rfl⟩ := Option.map_eq_some_iff.mp delivered
          obtain ⟨member, -⟩ := takeTask_mem seq run.pending rest task taken
          obtain ⟨moved, body⟩ := settle_moves { run with pending := rest } settled task.activity
            result inv.pivot.forward (inv.noContext task member) success
          have tryRun := settle_tryRun { run with pending := rest } settled _ result success
          exact .onward (by simpa using moved) (by simpa using tryRun) (.inl (by simpa using body))
        · cases delivered
  | settledInTime =>
      simp only [deliver] at delivered
      split at delivered
      · rename_i moved
        cases Option.some.inj delivered
        exact .onward (onward_of_same _ _ rfl rfl) rfl (.inr ⟨by simp [moved.1], moved.2⟩)
      · cases delivered
  | deadline =>
      simp only [deliver] at delivered
      split at delivered
      · rename_i waiting
        cases Option.some.inj delivered
        refine .onward ?_ (by simp) (.inr ⟨by simp [waiting], ?_⟩)
        · rw [apply_saga]
          exact onDeadline_onward run.saga
        · rw [apply_saga]
          rcases onDeadline_cases run.saga with ⟨elsewhere, fired⟩ | ⟨-, fired⟩
          · rw [fired]
            exact elsewhere
          · simp [fired, compensate]
      · cases delivered
  | returned =>
      simp only [deliver] at delivered
      split at delivered
      · rename_i ready
        cases Option.some.inj delivered
        obtain ⟨settling, settled, -⟩ := canReturn_settled run ready
        refine .onward (onward_of_same _ _ rfl rfl) rfl (.inr ⟨by simp [settling], ?_⟩)
        intro awaiting
        have elsewhere : settledSteps.contains run.saga.step = false := by
          rw [show run.saga.step = .awaitingAuth from awaiting]
          rfl
        rw [elsewhere] at settled
        cases settled
      · cases delivered
  | fault => exact absurd rfl unfaulted

theorem noContext_settle (run settled : Run) (activity : Activity) (result : ActivityResult)
    (quiet : NoContext run) (success : settle run activity result = some settled) :
    NoContext settled := by
  unfold settle at success
  split at success <;> cases success
  · exact quiet
  all_goals exact noContext_apply _ _ quiet

theorem noContext_deliver (run next : Run) (event : Event) (quiet : NoContext run)
    (delivered : deliver run event = some next) : NoContext next := by
  cases event with
  | answered seq result =>
      simp only [deliver] at delivered
      split at delivered
      · cases delivered
      · split at delivered
        · rename_i task rest taken
          obtain ⟨settled, success, rfl⟩ := Option.map_eq_some_iff.mp delivered
          obtain ⟨-, later⟩ := takeTask_mem seq run.pending rest task taken
          have others : NoContext { run with pending := rest } := by
            intro other member
            exact quiet other (later other member)
          exact noContext_execute settled _ _ (noContext_settle _ settled _ result others success)
        · cases delivered
  | reserve nowMs =>
      simp only [deliver] at delivered
      split at delivered <;> cases delivered
      apply noContext_of_same quiet
      unfold runTry
      split <;> simp
  | crash tryRecorded nowMs =>
      simp only [deliver] at delivered
      split at delivered <;> cases delivered
      apply noContext_of_same quiet
      unfold crash
      split <;> first | rfl | simp | (split <;> simp)
  | tryWritten seq written =>
      simp only [deliver] at delivered
      split at delivered
      · split at delivered <;> cases delivered
        exact noContext_apply _ _ quiet
      · cases delivered
  | tryAnswered seq answer =>
      simp only [deliver] at delivered
      split at delivered
      · cases delivered
      · split at delivered <;> cases delivered
        exact quiet
  | paymentAuthorized | cancel | deadline =>
      simp only [deliver] at delivered
      split at delivered <;> cases delivered
      exact noContext_apply _ _ quiet
  | settledInTime | returned | fault =>
      simp only [deliver] at delivered
      split at delivered <;> cases delivered
      exact quiet

@[simp] theorem crash_body (run : Run) (tryRecorded : Bool) (nowMs : Int) :
    (crash run tryRecorded nowMs).body = run.body := by
  unfold crash
  split <;> first | rfl | simp | (split <;> simp)

@[simp] theorem runTry_body (run : Run) (nowMs : Int) : (runTry run nowMs).body = run.body := by
  unfold runTry
  split <;> simp

theorem settle_closed (run settled : Run) (activity : Activity) (result : ActivityResult)
    (success : settle run activity result = some settled) (closed : settled.body = .closed) :
    run.body = .closed := by
  unfold settle at success
  split at success <;> cases success
  case h_1 => exact closed
  case h_6 status =>
    rw [apply_body] at closed
    cases closed
  all_goals
    rw [apply_body] at closed
    exact closed

/-- Only `returned` closes a run that nobody faults. -/
theorem deliver_closed (run next : Run) (event : Event) (unfaulted : event ≠ .fault)
    (delivered : deliver run event = some next) (closed : next.body = .closed) :
    next.pending = [] ∧ settledSteps.contains next.saga.step = true := by
  cases event with
  | returned =>
      simp only [deliver] at delivered
      split at delivered <;> cases delivered
      rename_i ready
      obtain ⟨-, settled, nothing⟩ := canReturn_settled run ready
      exact ⟨nothing, settled⟩
  | answered seq result =>
      simp only [deliver] at delivered
      split at delivered
      · cases delivered
      · rename_i opened
        split at delivered
        · rename_i task rest taken
          obtain ⟨settled, success, rfl⟩ := Option.map_eq_some_iff.mp delivered
          rw [execute_body] at closed
          exact absurd (settle_closed _ settled _ result success closed) opened
        · cases delivered
  | reserve nowMs =>
      simp only [deliver] at delivered
      split at delivered <;> cases delivered
      rename_i opened
      rw [runTry_body] at closed
      exact absurd closed opened
  | crash tryRecorded nowMs =>
      simp only [deliver] at delivered
      split at delivered <;> cases delivered
      rename_i opened
      rw [crash_body] at closed
      exact absurd closed opened
  | tryWritten seq written =>
      simp only [deliver] at delivered
      split at delivered
      · split at delivered <;> cases delivered
        rename_i opened
        rw [apply_body] at closed
        dsimp only at closed
        split at closed
        · cases closed
        · exact absurd (.inl closed) opened
      · cases delivered
  | tryAnswered seq answer =>
      simp only [deliver] at delivered
      split at delivered
      · cases delivered
      · rename_i opened
        split at delivered <;> cases delivered
        exact absurd closed opened
  | paymentAuthorized authorization =>
      simp only [deliver] at delivered
      split at delivered <;> cases delivered
      rename_i opened
      rw [apply_body] at closed
      exact absurd closed opened
  | cancel requester =>
      simp only [deliver] at delivered
      split at delivered <;> cases delivered
      rename_i opened
      rw [apply_body] at closed
      exact absurd (.inl closed) opened
  | deadline =>
      simp only [deliver] at delivered
      split at delivered <;> cases delivered
      rw [apply_body] at closed
      cases closed
  | settledInTime =>
      simp only [deliver] at delivered
      split at delivered <;> cases delivered
      cases closed
  | fault => exact absurd rfl unfaulted

theorem checkoutRun_deliver (run next : Run) (event : Event) (inv : CheckoutRun run)
    (unfaulted : event ≠ .fault) (delivered : deliver run event = some next) :
    CheckoutRun next := by
  have pivot := runPivot_deliver run event next inv.pivot delivered
  have noContext := noContext_deliver run next event inv.noContext delivered
  have closed := deliver_closed run next event unfaulted delivered
  cases deliver_moves run next event inv unfaulted delivered with
  | tried seq written outcome _ applying saga tryRun body =>
      have reserving := inv.reserving_of_applying applying
      have trying := inv.trying reserving
      rcases onTryResult_cases run.saga outcome with
        ⟨elsewhere, -⟩ | ⟨-, -, fired⟩ | ⟨-, -, fired⟩
      · exact absurd reserving elsewhere
      · rw [fired] at saga
        constructor <;> simp_all [inv.mode, TryRun.going]
      · rw [fired] at saga
        constructor <;> simp_all [inv.mode, TryRun.going, compensate]
  | planned going still saga body _ =>
      constructor
      · exact pivot
      · rw [saga]
        exact inv.mode
      · exact noContext
      · rw [still, saga]
        simpa using inv.going.mp going
      · exact TryRun.begun_of_going _ still
      · rw [saga, body]
        exact inv.trying
      · rw [saga, body]
        exact inv.awaiting
      · exact closed
  | onward moved tryRun body =>
      constructor
      · exact pivot
      · rw [moved.mode]
        exact inv.mode
      · exact noContext
      · rw [tryRun, moved.reserving]
        exact inv.going
      · rw [tryRun]
        exact inv.begun
      · intro reserving
        have trying := inv.trying (moved.reserving.mp reserving)
        rcases body with same | ⟨left, -⟩
        · exact same.trans trying
        · exact absurd trying left
      · intro awaiting
        rcases body with same | ⟨-, elsewhere⟩
        · exact same.trans (inv.awaiting (moved.awaiting awaiting))
        · exact absurd awaiting elsewhere
      · exact closed

/-! ## The order changes a saga issues -/

section Changes

variable {state : CheckoutSagaState} {done : List SagaCommand} {entries : List Entry}
  {transition : Transition}

theorem fires_entries (fires : Fires state done entries transition) (command : SagaCommand) :
    .issued command ∉ entries := by
  cases fires <;> simp

theorem issued_after {run next : Run} (fires : Fires run.saga done entries transition)
    (applied : Applied run next done entries transition) (command : SagaCommand) :
    .issued command ∈ next.log ↔ .issued command ∈ run.log ∨ command ∈ transition.commands := by
  have silent := fires_entries fires command
  rw [applied.log]
  simp [silent]

/-- An order change is issued past the Try, and never moves the order into it or out of it. -/
theorem fires_changes (fires : Fires state done entries transition) (change : OrderChangeCommand)
    (issued : .changeOrder change ∈ transition.commands) :
    transition.state.step.early = false ∧ change.target ≠ .pending ∧
      change.target ≠ .reserving ∧ .reserving ∉ change.source := by
  cases fires with
  | quiet | orderChanged => simp [noop] at issued
  | tried outcome =>
      rcases onTryResult_cases state outcome with ⟨-, fired⟩ | ⟨-, -, fired⟩ | ⟨-, -, fired⟩ <;>
        rw [fired] at issued <;> simp [noop, compensate, issueFrom] at issued
  | authorized authorization totalMinor currency =>
      rcases onAuthorized_cases state authorization totalMinor currency with
        ⟨verifying, voided, commands, fired, rfl | ⟨-, rfl⟩⟩ | ⟨-, -, fired⟩ <;>
        rw [fired] at issued <;> simp [compensate, issueFrom] at issued
  | verified authorization verdict =>
      rcases onAuthorizationVerified_cases state authorization verdict with
        ⟨verifying, fired, -⟩ | ⟨-, -, fired⟩ <;> rw [fired] at issued ⊢
      · simp at issued
      · simp only [List.mem_cons, SagaCommand.changeOrder.injEq, reduceCtorEq, List.not_mem_nil,
          or_false] at issued
        simp [issued, changeOrder, CheckoutStep.early]
  | committed outcome =>
      rcases onCommitResult_cases state outcome with ⟨-, fired⟩ | ⟨-, -, fired⟩ | ⟨-, -, fired⟩ <;>
        rw [fired] at issued ⊢ <;> simp [noop, compensate, issueFrom] at issued
      simp [issued, changeOrder, compensate, CheckoutStep.early]
  | captured outcome =>
      rcases onCaptureResult_cases state outcome with ⟨-, fired⟩ | ⟨-, -, fired⟩ | ⟨-, -, fired⟩ <;>
        rw [fired] at issued ⊢ <;> simp [noop, compensate, issueFrom] at issued
      all_goals simp [issued, changeOrder, compensate, CheckoutStep.early]
  | compensated command =>
      rcases onCompensationDone_cases state command.id with fired | ⟨-, pending, step, fired, -⟩ <;>
        rw [fired] at issued <;> simp [noop] at issued
  | contextRead status =>
      rcases onLateAuthorizationContext_cases state status with
        fired | ⟨-, -, -, fired⟩ | ⟨-, -, -, fired⟩ <;>
        rw [fired] at issued <;> simp [noop, compensate, issueFrom] at issued
  | deadline =>
      rcases onDeadline_cases state with ⟨-, fired⟩ | ⟨-, fired⟩ <;>
        rw [fired] at issued ⊢ <;> simp [noop, compensate, issueFrom] at issued
      simp [issued, changeOrder, compensate, CheckoutStep.early]
  | cancelled requester =>
      rcases onCancelRequested_cases state requester with ⟨-, fired⟩ | ⟨-, fired⟩ <;>
        rw [fired] at issued ⊢ <;> simp [noop, compensate, issueFrom] at issued
      simp [issued, changeOrder, compensate, CheckoutStep.early]

/-- Whatever takes the saga out of `AWAITING_AUTH` has the order moved out of `PENDING`. -/
theorem fires_out_of_awaiting (fires : Fires state done entries transition)
    (mode : state.mode = .checkout) (awaiting : state.step = .awaitingAuth)
    (nothing : state.pending = [])
    (left : transition.state.step ≠ .awaitingAuth) :
    ∃ target reason, .changeOrder (changeOrder .pending target reason) ∈ transition.commands ∧
      target ∈ [.confirming, .expired, .cancelled] := by
  cases fires with
  | quiet | orderChanged => exact absurd awaiting left
  | tried outcome =>
      rcases onTryResult_cases state outcome with
        ⟨-, fired⟩ | ⟨reserving, -⟩ | ⟨reserving, -⟩
      · rw [fired] at left
        exact absurd awaiting left
      · simp [awaiting] at reserving
      · simp [awaiting] at reserving
  | authorized authorization totalMinor currency =>
      rcases onAuthorized_cases state authorization totalMinor currency with
        ⟨verifying, voided, commands, fired, -⟩ | ⟨compensating, -⟩
      · rw [fired] at left
        exact absurd awaiting left
      · simp [awaiting] at compensating
  | verified authorization verdict =>
      rcases onAuthorizationVerified_cases state authorization verdict with
        ⟨verifying, fired, -⟩ | ⟨-, -, fired⟩
      · rw [fired] at left
        exact absurd awaiting left
      · rw [fired]
        exact ⟨.confirming, none, by simp, by simp⟩
  | committed outcome =>
      have fired : onCommitResult state outcome = noop state := if_pos (by simp [awaiting])
      rw [fired] at left
      exact absurd awaiting left
  | captured outcome =>
      have fired : onCaptureResult state outcome = noop state := if_pos (by simp [awaiting])
      rw [fired] at left
      exact absurd awaiting left
  | compensated command =>
      have fired : onCompensationDone state command.id = noop state := if_pos (by simp [nothing])
      rw [fired] at left
      exact absurd awaiting left
  | contextRead status =>
      rw [onLateAuthorizationContext_checkout state status mode] at left
      exact absurd awaiting left
  | deadline =>
      have fired : onDeadline state = _ := if_neg (by simp [awaiting])
      rw [fired]
      exact ⟨.expired, _, List.mem_append_left _ (List.mem_singleton_self _), by simp⟩
  | cancelled requester =>
      have fired : onCancelRequested state requester = _ := if_neg (by simp [awaiting])
      rw [fired]
      exact ⟨.cancelled, _, List.mem_append_left _ (List.mem_singleton_self _), by simp⟩

end Changes

end Commerce.Saga
