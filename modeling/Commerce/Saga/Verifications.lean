import Mathlib.Data.List.Nodup
import Commerce.Saga.CheckoutRun

/-!
# The verifications a run has in flight

A payment is in `verifying` exactly as long as the saga waits for an answer about it.
What a run has pending is therefore what decides whether a signal for the payment is
still being looked into.
-/

set_option autoImplicit false

namespace Commerce.Saga

/-! ## What one event leaves of the run -/

def answeredTask (run : Run) : Event → Option Task
  | .answered seq _ => (takeTask seq run.pending).map (·.1)
  | _ => none

def leftWaiting (run : Run) : Event → List Task
  | .answered seq _ =>
      match takeTask seq run.pending with
      | some (_, rest) => rest
      | none => run.pending
  | _ => run.pending

inductive Shaped (run next : Run) (event : Event) : Prop
  | intro (moved : Run) (entries : List Entry) (transition : Transition) (rest : List SagaCommand)
      (compensations : List CompensationCommand)
      (fires : Fires run.saga (reported run event) entries transition)
      (saga : moved.saga = run.saga) (pending : moved.pending = leftWaiting run event)
      (clock : run.nextSeq ≤ moved.nextSeq)
      (resumes : rest = [] ∧ compensations = [] ∨ ∃ task, answeredTask run event = some task ∧
        rest = task.rest ∧ compensations = task.compensations)
      (shape : next = execute (apply moved transition) rest compensations)

@[simp] theorem apply_noop (run : Run) : apply run (noop run.saga) = run := by
  simp [apply, noop, execute, compensateAll, entriesOf]

theorem settle_shape (run settled : Run) (activity : Activity) (result : ActivityResult)
    (success : settle run activity result = some settled) :
    ∃ moved entries transition, Fires run.saga activity.owes entries transition ∧
      moved.saga = run.saga ∧ moved.pending = run.pending ∧ moved.nextSeq = run.nextSeq ∧
      settled = apply moved transition := by
  unfold settle at success
  split at success <;> cases success
  · exact ⟨run, _, _, .orderChanged _, rfl, rfl, rfl, (apply_noop run).symm⟩
  · exact ⟨run, _, _, .verified _ _, rfl, rfl, rfl, rfl⟩
  · exact ⟨record run (.committed _), _, _, .committed _, rfl, rfl, rfl, rfl⟩
  · exact ⟨record run (.captured _), _, _, .captured _, rfl, rfl, rfl, rfl⟩
  · exact ⟨run, _, _, .compensated _, rfl, rfl, rfl, rfl⟩
  · exact ⟨{ run with body := .settling }, _, _, .contextRead _, rfl, rfl, rfl, rfl⟩

theorem shaped_quiet (run next : Run) (event : Event) (unreported : reported run event = [])
    (saga : next.saga = run.saga) (pending : next.pending = leftWaiting run event)
    (clock : run.nextSeq ≤ next.nextSeq) : Shaped run next event := by
  refine .intro next [] (noop run.saga) [] [] ?_ saga pending clock (.inl ⟨rfl, rfl⟩) ?_
  · rw [unreported]
    exact .quiet
  · rw [← saga, apply_noop]
    rfl

theorem shaped_applied (run moved : Run) (event : Event) (entries : List Entry)
    (transition : Transition) (fires : Fires run.saga (reported run event) entries transition)
    (saga : moved.saga = run.saga) (pending : moved.pending = leftWaiting run event)
    (clock : run.nextSeq ≤ moved.nextSeq) : Shaped run (apply moved transition) event :=
  .intro moved entries transition [] [] fires saga pending clock (.inl ⟨rfl, rfl⟩) rfl

@[simp] theorem attemptTry_nextSeq (run : Run) (nowMs : Int) :
    (attemptTry run nowMs).nextSeq = run.nextSeq + 1 := by
  unfold attemptTry
  split <;> rfl

theorem deliver_shape (run next : Run) (event : Event) (delivered : deliver run event = some next) :
    Shaped run next event := by
  cases event with
  | answered seq result =>
      simp only [deliver] at delivered
      split at delivered
      · cases delivered
      · split at delivered
        · rename_i task rest taken
          obtain ⟨settled, success, rfl⟩ := Option.map_eq_some_iff.mp delivered
          obtain ⟨moved, entries, transition, fires, saga, pending, clock, rfl⟩ :=
            settle_shape _ settled task.activity result success
          refine .intro moved entries transition task.rest task.compensations ?_ saga ?_
            (Nat.le_of_eq clock.symm) (.inr ⟨task, ?_, rfl, rfl⟩) rfl
          · simpa [reported, taken] using fires
          · simp [leftWaiting, taken, pending]
          · simp [answeredTask, taken]
        · cases delivered
  | reserve nowMs =>
      simp only [deliver] at delivered
      split at delivered <;> cases delivered
      refine shaped_quiet run _ _ rfl ?_ ?_ ?_ <;> (unfold runTry; split <;> simp [leftWaiting])
  | crash tryRecorded nowMs =>
      simp only [deliver] at delivered
      split at delivered <;> cases delivered
      refine shaped_quiet run _ _ rfl ?_ ?_ ?_ <;>
        (unfold crash; split <;> first | (simp [leftWaiting]; done) |
        (split <;> simp [leftWaiting]))
  | tryAnswered seq answer =>
      simp only [deliver] at delivered
      split at delivered
      · cases delivered
      · split at delivered <;> cases delivered
        exact shaped_quiet run _ _ rfl rfl rfl (Nat.le_succ _)
  | tryWritten seq written =>
      simp only [deliver] at delivered
      split at delivered
      · split at delivered <;> cases delivered
        exact shaped_applied run _ _ _ _ (.tried _) rfl rfl (Nat.le_refl _)
      · cases delivered
  | paymentAuthorized authorization =>
      simp only [deliver] at delivered
      split at delivered <;> cases delivered
      exact shaped_applied run _ _ _ _ (.authorized authorization _ _) rfl rfl (Nat.le_refl _)
  | cancel requester =>
      simp only [deliver] at delivered
      split at delivered
      · cases delivered
      · rename_i accepted
        cases Option.some.inj delivered
        have granted : canCancel run.saga = true := by
          by_contra refused
          exact accepted (Or.inr (by simp [refused]))
        exact shaped_applied run _ _ _ _ (.cancelled requester granted) rfl rfl (Nat.le_refl _)
  | deadline =>
      simp only [deliver] at delivered
      split at delivered <;> cases delivered
      exact shaped_applied run _ _ _ _ .deadline rfl rfl (Nat.le_refl _)
  | settledInTime =>
      simp only [deliver] at delivered
      split at delivered <;> cases delivered
      exact shaped_quiet run _ _ rfl rfl rfl (Nat.le_refl _)
  | returned =>
      simp only [deliver] at delivered
      split at delivered <;> cases delivered
      exact shaped_quiet run _ _ rfl rfl rfl (Nat.le_refl _)
  | fault =>
      simp only [deliver] at delivered
      split at delivered <;> cases delivered
      exact shaped_quiet run _ _ rfl rfl rfl (Nat.le_refl _)

/-! ## What stays pending -/

section Keeps

variable (holds : List Task → Nat → Prop)

def Schedulable : Prop :=
  ∀ tasks seq activity rest compensations, holds tasks seq →
    holds (tasks ++ [⟨seq, activity, rest, compensations⟩]) (seq + 1)

variable (schedulable : Schedulable holds)

include schedulable

theorem compensateAll_keeps (run : Run) (commands : List CompensationCommand)
    (before : holds run.pending run.nextSeq) :
    holds (compensateAll run commands).pending (compensateAll run commands).nextSeq := by
  induction commands generalizing run with
  | nil => exact before
  | cons command rest ih => exact ih _ (schedulable _ _ _ _ _ before)

theorem execute_keeps (run : Run) (commands : List SagaCommand)
    (compensations : List CompensationCommand) (before : holds run.pending run.nextSeq) :
    holds (execute run commands compensations).pending
        (execute run commands compensations).nextSeq := by
  induction commands generalizing run compensations with
  | nil => exact compensateAll_keeps holds schedulable run compensations before
  | cons command rest ih =>
      cases command with
      | changeOrder change => exact schedulable _ _ _ _ _ before
      | commitStock => exact schedulable _ _ _ _ _ before
      | capturePayment => exact schedulable _ _ _ _ _ before
      | verifyAuthorization authorization => exact ih _ _ (schedulable _ _ _ _ _ before)
      | compensation command => exact ih run _ before

theorem deliver_keeps (run next : Run) (event : Event)
    (passing : ∀ seq, run.nextSeq ≤ seq → holds (leftWaiting run event) seq)
    (delivered : deliver run event = some next) : holds next.pending next.nextSeq := by
  cases deliver_shape run next event delivered with
  | intro moved entries transition rest compensations fires saga pending clock resumes shape =>
      have before : holds moved.pending moved.nextSeq := by
        rw [pending]
        exact passing moved.nextSeq clock
      rw [shape]
      exact execute_keeps holds schedulable _ rest compensations
        (execute_keeps holds schedulable _ transition.commands [] before)

end Keeps

def Scheduled (before : List Task) (clock : Nat) (tasks : List Task) (seq : Nat) : Prop :=
  clock ≤ seq ∧ (∀ task ∈ before, task ∈ tasks) ∧
    ∀ task ∈ tasks, task ∈ before ∨ clock ≤ task.seq

theorem scheduled_keeps (before : List Task) (clock : Nat) :
    Schedulable (Scheduled before clock) := by
  intro tasks seq activity rest compensations holds
  obtain ⟨later, kept, added⟩ := holds
  refine ⟨by omega, fun task member => List.mem_append_left _ (kept task member), ?_⟩
  intro task member
  rcases List.mem_append.mp member with old | new
  · exact added task old
  · cases List.mem_singleton.mp new
    exact .inr later

theorem scheduled_deliver (run next : Run) (event : Event)
    (delivered : deliver run event = some next) :
    Scheduled (leftWaiting run event) run.nextSeq next.pending next.nextSeq := by
  refine deliver_keeps (Scheduled (leftWaiting run event) run.nextSeq)
    (scheduled_keeps _ run.nextSeq) run next event ?_ delivered
  intro seq later
  exact ⟨later, fun _ member => member, fun _ member => .inl member⟩

/-- Pending tasks carry the numbers they were scheduled under, in their order. -/
def InOrder (tasks : List Task) (seq : Nat) : Prop :=
  (∀ task ∈ tasks, task.seq < seq) ∧ tasks.Pairwise fun first second => first.seq < second.seq

theorem inOrder_keeps : Schedulable InOrder := by
  intro tasks seq activity rest compensations holds
  obtain ⟨numbered, ordered⟩ := holds
  constructor
  · intro task member
    rcases List.mem_append.mp member with old | new
    · have := numbered task old
      omega
    · cases List.mem_singleton.mp new
      exact Nat.lt_succ_self seq
  · refine List.pairwise_append.mpr ⟨ordered, List.pairwise_singleton _ _, ?_⟩
    intro task old added new
    cases List.mem_singleton.mp new
    exact numbered task old

theorem takeTask_seq (seq : Nat) (tasks rest : List Task) (task : Task)
    (taken : takeTask seq tasks = some (task, rest)) : task.seq = seq := by
  induction tasks generalizing rest with
  | nil => cases taken
  | cons head tail ih =>
      simp only [takeTask] at taken
      split at taken
      · rename_i same
        cases Option.some.inj taken
        exact same
      · obtain ⟨found, here, same⟩ := Option.map_eq_some_iff.mp taken
        obtain ⟨rfl, -⟩ := Prod.mk.inj same
        exact ih found.2 here

theorem takeTask_sublist (seq : Nat) (tasks rest : List Task) (task : Task)
    (taken : takeTask seq tasks = some (task, rest)) : rest.Sublist tasks := by
  induction tasks generalizing rest with
  | nil => cases taken
  | cons head tail ih =>
      simp only [takeTask] at taken
      split at taken
      · cases Option.some.inj taken
        exact List.sublist_cons_self _ _
      · obtain ⟨found, here, same⟩ := Option.map_eq_some_iff.mp taken
        obtain ⟨rfl, rfl⟩ := Prod.mk.inj same
        exact (ih found.2 here).cons_cons head

theorem leftWaiting_sublist (run : Run) (event : Event) :
    (leftWaiting run event).Sublist run.pending := by
  cases event with
  | answered seq result =>
      cases taken : takeTask seq run.pending with
      | none => simp [leftWaiting, taken]
      | some found =>
          simp only [leftWaiting, taken]
          exact takeTask_sublist seq run.pending found.2 found.1 taken
  | _ => exact List.Sublist.refl _

theorem inOrder_deliver (run next : Run) (event : Event) (before : InOrder run.pending run.nextSeq)
    (delivered : deliver run event = some next) : InOrder next.pending next.nextSeq := by
  refine deliver_keeps InOrder inOrder_keeps run next event ?_ delivered
  intro seq later
  have shorter := leftWaiting_sublist run event
  refine ⟨fun task member => ?_, before.2.sublist shorter⟩
  have := before.1 task (shorter.subset member)
  omega

theorem inOrder_initial (input : CheckoutSagaInput) (firstSeq : Nat) (nowMs : Int) :
    InOrder (checkoutSaga input firstSeq nowMs).pending
        (checkoutSaga input firstSeq nowMs).nextSeq := by
  have started : ∀ run : Run, run.pending = [] → InOrder (runTry run nowMs).pending
      (runTry run nowMs).nextSeq := by
    intro run empty
    unfold runTry
    split <;> simp [InOrder, empty]
  cases mode : input.mode with
  | checkout =>
      simp only [checkoutSaga, mode]
      exact started _ rfl
  | lateAuthorization => simp [checkoutSaga, mode, schedule, InOrder]

theorem answeredTask_mem (run : Run) (event : Event) (task : Task)
    (answered : answeredTask run event = some task) : task ∈ run.pending := by
  cases event with
  | answered seq result =>
      obtain ⟨found, taken, rfl⟩ := Option.map_eq_some_iff.mp answered
      exact (takeTask_mem seq run.pending found.2 found.1 taken).1
  | _ => cases answered

theorem reported_owed (run : Run) (event : Event) (command : SagaCommand)
    (reports : command ∈ reported run event) : command ∈ owed run.pending := by
  cases event with
  | answered seq result =>
      simp only [reported] at reports
      split at reports
      · rename_i task rest taken
        refine List.mem_flatMap.mpr ⟨task, (takeTask_mem seq run.pending rest task taken).1, ?_⟩
        exact List.mem_append_left _ reports
      · cases reports
  | _ => cases reports

theorem InOrder.eq_of_seq {tasks : List Task} {seq : Nat} (order : InOrder tasks seq)
    {first second : Task} (here : first ∈ tasks) (there : second ∈ tasks)
    (same : first.seq = second.seq) : first = second := by
  have distinct : (tasks.map (·.seq)).Nodup :=
    List.pairwise_map.mpr (order.2.imp fun less => Nat.ne_of_lt less)
  exact List.inj_on_of_nodup_map distinct here there same

/-! ## Where the saga still waits for an authorization -/

def Task.verifies (task : Task) (paymentId : Nat) : Bool :=
  match task.activity with
  | .verifyAuthorization authorization => authorization.paymentId == paymentId
  | _ => false

section Fired

variable {state : CheckoutSagaState} {done : List SagaCommand} {entries : List Entry}
  {transition : Transition}

/-- Nothing leads back to the Try, and only its result to the wait for an authorization. -/
theorem fires_back (fires : Fires state done entries transition) :
    (transition.state.step = .reserving → state.step = .reserving) ∧
      (transition.state.step = .awaitingAuth →
        state.step = .awaitingAuth ∨ state.step = .reserving) := by
  have still : transition.state.step = state.step →
      (transition.state.step = .reserving → state.step = .reserving) ∧
      (transition.state.step = .awaitingAuth →
        state.step = .awaitingAuth ∨ state.step = .reserving) := by
    intro same
    rw [same]
    exact ⟨id, .inl⟩
  cases fires with
  | quiet => exact still rfl
  | orderChanged change => exact still rfl
  | tried outcome =>
      rcases onTryResult_cases state outcome with ⟨-, fired⟩ | ⟨reserving, -, -⟩ | ⟨reserving, -, -⟩
      · exact still (by rw [fired]; rfl)
      · exact ⟨fun _ => reserving, fun _ => .inr reserving⟩
      · exact ⟨fun _ => reserving, fun _ => .inr reserving⟩
  | authorized authorization totalMinor currency =>
      rcases onAuthorized_cases state authorization totalMinor currency with
        ⟨verifying, voided, commands, fired, -⟩ | ⟨-, -, fired⟩
      · exact still (by rw [fired])
      · simp [fired, compensate]
  | verified authorization verdict =>
      rcases onAuthorizationVerified_cases state authorization verdict with
        ⟨verifying, fired, -⟩ | ⟨-, -, fired⟩
      · exact still (by rw [fired])
      · simp [fired]
  | committed outcome =>
      rcases onCommitResult_cases state outcome with ⟨-, fired⟩ | ⟨-, -, fired⟩ | ⟨-, -, fired⟩
      · exact still (by rw [fired]; rfl)
      · simp [fired, compensate]
      · simp [fired]
  | captured outcome =>
      rcases onCaptureResult_cases state outcome with ⟨-, fired⟩ | ⟨-, -, fired⟩ | ⟨-, -, fired⟩
      · exact still (by rw [fired]; rfl)
      · simp [fired, compensate]
      · simp [fired]
  | compensated command =>
      rcases onCompensationDone_cases state command.id with fired | ⟨-, pending, step, fired, moved⟩
      · exact still (by rw [fired]; rfl)
      · rcases moved with ⟨done, -⟩ | same
        · simp [fired, done]
        · exact still (by rw [fired, same])
  | contextRead status =>
      rcases onLateAuthorizationContext_cases state status with
        fired | ⟨-, -, -, fired⟩ | ⟨-, -, -, fired⟩
      · exact still (by rw [fired]; rfl)
      · simp [fired]
      · simp [fired, compensate]
  | deadline =>
      rcases onDeadline_cases state with ⟨-, fired⟩ | ⟨-, fired⟩
      · exact still (by rw [fired]; rfl)
      · simp [fired, compensate]
  | cancelled requester accepted =>
      rcases onCancelRequested_cases state requester with ⟨-, fired⟩ | ⟨-, fired⟩
      · exact still (by rw [fired]; rfl)
      · simp [fired, compensate]

end Fired

theorem deliver_back (run next : Run) (event : Event) (delivered : deliver run event = some next) :
    (next.saga.step = .reserving → run.saga.step = .reserving) ∧
      (next.saga.step = .awaitingAuth →
        run.saga.step = .awaitingAuth ∨ run.saga.step = .reserving) := by
  obtain ⟨entries, transition, fires, applied⟩ := deliver_reports run next event delivered
  rw [applied.saga]
  exact fires_back fires

/-! ## The payments being verified -/

section Verifying

variable (state : CheckoutSagaState)

@[simp] theorem onTryResult_verifying (outcome : ReserveOutcome) :
    (onTryResult state outcome).state.verifying = state.verifying := by
  rcases onTryResult_cases state outcome with ⟨-, fired⟩ | ⟨-, -, fired⟩ | ⟨-, -, fired⟩ <;>
    simp [fired, noop, compensate]

@[simp] theorem onCommitResult_verifying (outcome : CommitOutcome) :
    (onCommitResult state outcome).state.verifying = state.verifying := by
  rcases onCommitResult_cases state outcome with ⟨-, fired⟩ | ⟨-, -, fired⟩ | ⟨-, -, fired⟩ <;>
    simp [fired, noop, compensate]

@[simp] theorem onCaptureResult_verifying (outcome : SettledCaptureOutcome) :
    (onCaptureResult state outcome).state.verifying = state.verifying := by
  rcases onCaptureResult_cases state outcome with ⟨-, fired⟩ | ⟨-, -, fired⟩ | ⟨-, -, fired⟩ <;>
    simp [fired, noop, compensate]

@[simp] theorem onDeadline_verifying : (onDeadline state).state.verifying = state.verifying := by
  rcases onDeadline_cases state with ⟨-, fired⟩ | ⟨-, fired⟩ <;> simp [fired, noop, compensate]

@[simp] theorem onCancelRequested_verifying (requester : CancelBy) :
    (onCancelRequested state requester).state.verifying = state.verifying := by
  rcases onCancelRequested_cases state requester with ⟨-, fired⟩ | ⟨-, fired⟩ <;>
    simp [fired, noop, compensate]

@[simp] theorem onCompensationDone_verifying (id : Nat) :
    (onCompensationDone state id).state.verifying = state.verifying := by
  rcases onCompensationDone_cases state id with fired | ⟨-, pending, step, fired, -⟩ <;>
    simp [fired, noop]

@[simp] theorem onLateAuthorizationContext_verifying (status : Option Orders.OrderStatus) :
    (onLateAuthorizationContext state status).state.verifying = state.verifying := by
  rcases onLateAuthorizationContext_cases state status with
    fired | ⟨-, -, -, fired⟩ | ⟨-, -, -, fired⟩ <;> simp [fired, noop, compensate]

end Verifying

theorem waits_on (run next : Run) (event : Event) (delivered : deliver run event = some next)
    (task : Task) (waiting : task ∈ run.pending) :
    task ∈ next.pending ∨ answeredTask run event = some task := by
  have kept := (scheduled_deliver run next event delivered).2.1
  cases event with
  | answered seq result =>
      cases taken : takeTask seq run.pending with
      | none =>
          simp only [leftWaiting, taken] at kept
          exact .inl (kept task waiting)
      | some found =>
          obtain ⟨answered, rest⟩ := found
          simp only [leftWaiting, taken] at kept
          have same := takeTask_perm seq run.pending rest answered taken
          rcases List.mem_cons.mp (same.mem_iff.mp waiting) with rfl | other
          · exact .inr (by simp [answeredTask, taken])
          · exact .inl (kept task other)
  | _ => exact .inl (kept task waiting)

/-- How the payments being verified change as long as the saga may still confirm. -/
inductive Verifying (run next : Run) (event : Event) : Prop
  | same (verifying : next.saga.verifying = run.saga.verifying)
      (unanswered : run.saga.step = .awaitingAuth → ∀ task, answeredTask run event = some task →
        ∀ paymentId, task.verifies paymentId = false)
  | begun (authorization : PaymentAuthorization) (signal : event = .paymentAuthorized authorization)
      (awaiting : run.saga.step = .awaitingAuth)
      (verifying : next.saga.verifying = run.saga.verifying ++ [authorization.paymentId])
      (waiting : ∃ task ∈ next.pending, task.verifies authorization.paymentId = true)
  | refused (seq : Nat) (verdict : AuthorizationVerdict) (task : Task)
      (authorization : PaymentAuthorization) (answers : event = .answered seq (.verdict verdict))
      (answered : answeredTask run event = some task) (number : task.seq = seq)
      (activity : task.activity = .verifyAuthorization authorization)
      (unverified : verdict ≠ .verified)
      (verifying : next.saga.verifying =
        run.saga.verifying.filter fun id => id ≠ authorization.paymentId)

theorem verifying_unanswered (run next : Run) (event : Event)
    (verifying : next.saga.verifying = run.saga.verifying) (other : answeredTask run event = none) :
    Verifying run next event := by
  refine .same verifying ?_
  intro _ task answered
  rw [other] at answered
  cases answered

theorem apply_onAuthorized (run : Run) (authorization : PaymentAuthorization)
    (early : run.saga.step = .reserving ∨ run.saga.step = .awaitingAuth) (totalMinor : Int)
    (currency : String) :
    Verifying run (apply run (onAuthorized run.saga authorization totalMinor currency).transition)
      (.paymentAuthorized authorization) := by
  have undone : ¬(run.saga.step = .compensating ∨ run.saga.step = .compensated) := by
    rcases early with step | step <;> simp [step]
  unfold onAuthorized
  simp only [ignored, if_neg undone]
  split
  · exact verifying_unanswered run _ _ (by simp) rfl
  rename_i awaiting
  split
  · exact verifying_unanswered run _ _ (by simp) rfl
  split
  · exact verifying_unanswered run _ _ (by simp) rfl
  · refine .begun authorization rfl (not_not.mp awaiting) (by simp)
      ⟨⟨run.nextSeq, .verifyAuthorization authorization, [], []⟩, ?_, ?_⟩
    · simp [apply, execute, compensateAll, schedule]
    · simp [Task.verifies]

theorem settle_verifying (run settled next : Run) (task : Task) (result : ActivityResult)
    (seq : Nat)
    (rest : List Task) (taken : takeTask seq run.pending = some (task, rest))
    (early : settled.saga.step = .reserving ∨ settled.saga.step = .awaitingAuth)
    (success : settle { run with pending := rest } task.activity result = some settled)
    (saga : next.saga = settled.saga) : Verifying run next (.answered seq result) := by
  have answered : ∀ result, answeredTask run (.answered seq result) = some task := by
    simp [answeredTask, taken]
  unfold settle at success
  split at success <;> cases success
  case h_2 authorization verdict activity =>
    by_cases awaiting : run.saga.step = .awaitingAuth
    · have unverified : verdict ≠ .verified := by
        rintro rfl
        simp [onAuthorizationVerified, awaiting] at early
      refine .refused seq verdict task authorization rfl (answered _)
        (takeTask_seq seq run.pending rest task taken) activity unverified ?_
      rw [saga]
      simp [onAuthorizationVerified, awaiting, unverified, ignored]
    · refine .same ?_ fun step => absurd step awaiting
      rw [saga]
      simp [onAuthorizationVerified, awaiting, ignored]
  all_goals
    rename_i activity
    refine .same (by simp [saga, record]) ?_
    intro _ other same paymentId
    cases (answered _).symm.trans same
    simp [Task.verifies, activity]

theorem deliver_verifying (run next : Run) (event : Event)
    (early : next.saga.step = .reserving ∨ next.saga.step = .awaitingAuth)
    (delivered : deliver run event = some next) : Verifying run next event := by
  have before : run.saga.step = .reserving ∨ run.saga.step = .awaitingAuth := by
    obtain ⟨reserving, awaiting⟩ := deliver_back run next event delivered
    rcases early with step | step
    · exact .inl (reserving step)
    · exact (awaiting step).symm
  cases event with
  | answered seq result =>
      simp only [deliver] at delivered
      split at delivered
      · cases delivered
      · split at delivered
        · rename_i task rest taken
          obtain ⟨settled, success, rfl⟩ := Option.map_eq_some_iff.mp delivered
          exact settle_verifying run settled _ task result seq rest taken
            (by simpa using early) success
            (execute_saga settled task.rest task.compensations)
        · cases delivered
  | paymentAuthorized authorization =>
      simp only [deliver] at delivered
      split at delivered <;> cases delivered
      exact apply_onAuthorized run authorization before _ _
  | tryWritten seq written =>
      simp only [deliver] at delivered
      split at delivered
      · split at delivered <;> cases delivered
        exact verifying_unanswered run _ _ (by simp) rfl
      · cases delivered
  | reserve nowMs =>
      simp only [deliver] at delivered
      split at delivered <;> cases delivered
      refine verifying_unanswered run _ _ ?_ rfl
      unfold runTry
      split <;> simp
  | crash tryRecorded nowMs =>
      simp only [deliver] at delivered
      split at delivered <;> cases delivered
      refine verifying_unanswered run _ _ ?_ rfl
      unfold crash
      split <;> first | rfl | simp | (split <;> simp)
  | tryAnswered seq answer =>
      simp only [deliver] at delivered
      split at delivered
      · cases delivered
      · split at delivered <;> cases delivered
        exact verifying_unanswered run _ _ rfl rfl
  | cancel requester =>
      simp only [deliver] at delivered
      split at delivered <;> cases delivered
      exact verifying_unanswered run _ _ (by simp [record]) rfl
  | deadline =>
      simp only [deliver] at delivered
      split at delivered <;> cases delivered
      exact verifying_unanswered run _ _ (by simp) rfl
  | settledInTime =>
      simp only [deliver] at delivered
      split at delivered <;> cases delivered
      exact verifying_unanswered run _ _ rfl rfl
  | returned =>
      simp only [deliver] at delivered
      split at delivered <;> cases delivered
      exact verifying_unanswered run _ _ rfl rfl
  | fault =>
      simp only [deliver] at delivered
      split at delivered <;> cases delivered
      exact verifying_unanswered run _ _ rfl rfl

structure Verifications (run : Run) : Prop where
  order : InOrder run.pending run.nextSeq
  idle : run.saga.step = .reserving → run.saga.verifying = []
  waiting : run.saga.step = .awaitingAuth → ∀ paymentId ∈ run.saga.verifying,
    ∃ task ∈ run.pending, task.verifies paymentId = true

theorem verifications_initial (input : CheckoutSagaInput) (firstSeq : Nat) (nowMs : Int) :
    Verifications (checkoutSaga input firstSeq nowMs) := by
  have saga : (checkoutSaga input firstSeq nowMs).saga = initialCheckoutSagaState input.mode := by
    cases mode : input.mode <;> simp [checkoutSaga, mode, runTry, schedule]
  constructor
  · exact inOrder_initial input firstSeq nowMs
  · rw [saga]
    exact fun _ => rfl
  · rw [saga]
    intro _ paymentId member
    cases member

theorem verifications_deliver (run next : Run) (event : Event) (inv : Verifications run)
    (delivered : deliver run event = some next) : Verifications next := by
  obtain ⟨reserving, awaiting⟩ := deliver_back run next event delivered
  constructor
  · exact inOrder_deliver run next event inv.order delivered
  · intro step
    have before := inv.idle (reserving step)
    cases deliver_verifying run next event (.inl step) delivered with
    | same verifying _ => rw [verifying, before]
    | begun authorization _ started _ _ =>
        rw [reserving step] at started
        cases started
    | refused seq verdict task authorization _ _ _ _ _ verifying =>
        rw [verifying, before]
        rfl
  · intro step paymentId member
    have older : paymentId ∈ run.saga.verifying → run.saga.step = .awaitingAuth ∧
        ∃ task ∈ run.pending, task.verifies paymentId = true := by
      intro present
      rcases awaiting step with before | before
      · exact ⟨before, inv.waiting before paymentId present⟩
      · rw [inv.idle before] at present
        cases present
    cases deliver_verifying run next event (.inr step) delivered with
    | same verifying unanswered =>
        rw [verifying] at member
        obtain ⟨before, task, present, verifies⟩ := older member
        rcases waits_on run next event delivered task present with still | answered
        · exact ⟨task, still, verifies⟩
        · rw [unanswered before task answered paymentId] at verifies
          cases verifies
    | begun authorization signal _ verifying waiting =>
        rw [verifying] at member
        rcases List.mem_append.mp member with old | new
        · obtain ⟨-, task, present, verifies⟩ := older old
          subst signal
          rcases waits_on run next _ delivered task present with still | answered
          · exact ⟨task, still, verifies⟩
          · cases answered
        · cases List.mem_singleton.mp new
          exact waiting
    | refused seq verdict task authorization _ answered _ activity _ verifying =>
        rw [verifying] at member
        obtain ⟨old, different⟩ := List.mem_filter.mp member
        obtain ⟨-, other, present, verifies⟩ := older old
        rcases waits_on run next event delivered other present with still | same
        · exact ⟨other, still, verifies⟩
        · cases answered.symm.trans same
          simp [Task.verifies, activity] at verifies
          simp [verifies] at different

/-- A signal for the order's charge leaves a verification of its payment waiting. -/
theorem signal_waits (run next : Run) (authorization : PaymentAuthorization)
    (inv : Verifications run) (awaiting : run.saga.step = .awaitingAuth)
    (amount : authorization.amountMinor = run.input.totalMinor)
    (currency : authorization.currency = run.input.currency)
    (delivered : deliver run (.paymentAuthorized authorization) = some next) :
    ∃ task ∈ next.pending, task.verifies authorization.paymentId = true := by
  by_cases verifying : authorization.paymentId ∈ run.saga.verifying
  · obtain ⟨task, present, verifies⟩ := inv.waiting awaiting _ verifying
    rcases waits_on run next _ delivered task present with still | answered
    · exact ⟨task, still, verifies⟩
    · cases answered
  · simp only [deliver] at delivered
    split at delivered <;> cases delivered
    refine ⟨⟨run.nextSeq, .verifyAuthorization authorization, [], []⟩, ?_, by simp [Task.verifies]⟩
    simp [onAuthorized, awaiting, amount, currency, verifying, apply, execute, compensateAll,
      schedule]

end Commerce.Saga
