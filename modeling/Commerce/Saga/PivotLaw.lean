import Commerce.Saga.Pending

/-!
# The pivot and compensation law

The confirm path is linear: the stock commit, then the capture.  Handlers race
it, but every command of the path is issued from one step of the saga only,
and a step is left for good.  The invariant ties the step to what is still owed
and to what the log can contain.
-/

set_option autoImplicit false

namespace Commerce.Saga

open Commerce.Orders (OrderStatus)
open Runs

/-- What may follow a given log. -/
def Allowed (before : List Entry) : Entry → Prop
  | .issued .commitStock => .issued .commitStock ∉ before
  | .issued .capturePayment =>
      .issued .capturePayment ∉ before ∧
        ∃ outcome, outcome ≠ .conflict ∧ .committed outcome ∈ before
  | .issued (.compensation command) =>
      (command.type = .releaseStock → .issued .commitStock ∉ before) ∧
      (command.type = .restock →
        (∃ outcome, outcome ≠ .conflict ∧ .committed outcome ∈ before) ∧
          .captured .notCapturable ∈ before) ∧
      .captured .captured ∉ before ∧ .captured .idempotent ∉ before ∧
      .carries .paid ∉ before
  | .cancelAccepted => .carries .confirming ∉ before
  | _ => True

def CheckoutStep.early : CheckoutStep → Bool
  | .reserving | .awaitingAuth => true
  | _ => false

structure Pivot (state : CheckoutSagaState) (log : List Entry) (tasks : List SagaCommand) :
    Prop where
  law : EachAllowed Allowed log
  commitUnissued : state.step.early → .issued .commitStock ∉ log
  captureUnissued :
    state.step.early ∨ state.step = .committingStock → .issued .capturePayment ∉ log
  commitOwed : tasks.count .commitStock ≤ if state.step = .committingStock then 1 else 0
  captureOwed : tasks.count .capturePayment ≤ if state.step = .capturing then 1 else 0
  committed : state.step = .capturing → ∃ outcome, outcome ≠ .conflict ∧ .committed outcome ∈ log
  captured : state.step ≠ .completed → .captured .captured ∉ log ∧ .captured .idempotent ∉ log
  paid : .carries .paid ∈ log → state.step = .completed
  confirming : .carries .confirming ∈ log →
    state.step.early = false ∧ state.orderStatus ≠ some .cancelled ∧ state.orderStatus ≠ none
  forward : state.step ≠ .compensating → state.step ≠ .compensated → state.pending = []
  late : state.mode = .lateAuthorization →
    state.step.early = false ∧ state.step ≠ .committingStock ∧ state.step ≠ .capturing
  unread : state.orderStatus = none →
    state.mode = .lateAuthorization ∧ state.step = .compensating ∧ state.pending = []

/-- Leaving step, order status, mode and pending compensations alone keeps the invariant,
as long as only verifications are issued. -/
theorem pivot_still (state next : CheckoutSagaState) (log entries : List Entry)
    (tasks rest : List SagaCommand) (inv : Pivot state log tasks)
    (step : next.step = state.step) (status : next.orderStatus = state.orderStatus)
    (mode : next.mode = state.mode) (pending : next.pending = state.pending)
    (verifications : ∀ entry ∈ entries, ∃ authorization,
      entry = .issued (.verifyAuthorization authorization))
    (commits : rest.count .commitStock ≤ tasks.count .commitStock)
    (captures : rest.count .capturePayment ≤ tasks.count .capturePayment) :
    Pivot next (log ++ entries) rest := by
  have older : ∀ entry, (∀ authorization, entry ≠ .issued (.verifyAuthorization authorization)) →
      entry ∈ log ++ entries → entry ∈ log := by
    intro entry other member
    rcases List.mem_append.mp member with old | new
    · exact old
    · obtain ⟨authorization, rfl⟩ := verifications entry new
      exact absurd rfl (other authorization)
  have allowed : ∀ history, AllowedFrom Allowed history entries := by
    clear older
    induction entries with
    | nil => exact fun _ => trivial
    | cons entry others ih =>
        obtain ⟨authorization, rfl⟩ := verifications entry List.mem_cons_self
        exact fun history => ⟨trivial, ih (fun e m => verifications e (List.mem_cons_of_mem _ m)) _⟩
  constructor
  · exact eachAllowed_append Allowed log entries inv.law (allowed log)
  · exact fun early issued => inv.commitUnissued (step ▸ early) (older _ (by simp) issued)
  · exact fun early issued => inv.captureUnissued (step ▸ early) (older _ (by simp) issued)
  · exact step ▸ Nat.le_trans commits inv.commitOwed
  · exact step ▸ Nat.le_trans captures inv.captureOwed
  · intro capturing
    obtain ⟨outcome, fine, member⟩ := inv.committed (step ▸ capturing)
    exact ⟨outcome, fine, List.mem_append_left _ member⟩
  · intro unfinished
    obtain ⟨captured, idempotent⟩ := inv.captured (step ▸ unfinished)
    exact ⟨fun m => captured (older _ (by simp) m), fun m => idempotent (older _ (by simp) m)⟩
  · exact fun member => step ▸ inv.paid (older _ (by simp) member)
  · exact fun member => step ▸ status ▸ inv.confirming (older _ (by simp) member)
  · rw [step, pending]
    exact inv.forward
  · rw [step, mode]
    exact inv.late
  · rw [step, status, mode, pending]
    exact inv.unread

theorem allowedFrom_entriesOf (state : CheckoutSagaState) (transition : Transition)
    (log : List Entry)
    (plain : AllowedFrom Allowed log (transition.commands.map .issued))
    (carrying : ∀ status, transition.state.orderStatus = some status →
      state.orderStatus ≠ some status →
      AllowedFrom Allowed (log ++ [.carries status]) (transition.commands.map .issued)) :
    AllowedFrom Allowed log (entriesOf state transition) := by
  unfold entriesOf
  split
  · exact plain
  · rename_i moved
    cases carried : transition.state.orderStatus with
    | none => exact plain
    | some status => exact ⟨trivial, carrying status carried (carried ▸ Ne.symm moved)⟩

/-! ## One lemma for each transition -/

section Transitions

variable (state : CheckoutSagaState) (log : List Entry) (tasks rest : List SagaCommand)

theorem pivot_quiet (done : List SagaCommand) (inv : Pivot state log tasks)
    (owes : (tasks ++ (noop state).commands).Perm (done ++ rest)) :
    Pivot (noop state).state (log ++ entriesOf state (noop state)) rest := by
  have kept : ∀ command, rest.count command ≤ tasks.count command := by
    intro command
    have counted := owes.count_eq command
    simp only [noop, List.append_nil, List.count_append] at counted
    omega
  have still := pivot_still state state log [] tasks rest inv rfl rfl rfl rfl (by simp)
    (kept _) (kept _)
  rw [entriesOf_noop]
  exact still

theorem pivot_tried (outcome : ReserveOutcome) (inv : Pivot state log tasks)
    (owes : (tasks ++ (onTryResult state outcome).commands).Perm rest) :
    Pivot (onTryResult state outcome).state
      (log ++ entriesOf state (onTryResult state outcome)) rest := by
  have commits := owes.count_eq .commitStock
  have captures := owes.count_eq .capturePayment
  obtain ⟨-, fired⟩ | ⟨reserving, -, fired⟩ | ⟨reserving, -, fired⟩ :=
    onTryResult_cases state outcome
  · rw [fired] at owes ⊢
    exact pivot_quiet state log tasks rest [] inv owes
  · rw [fired] at commits captures ⊢
    refine ⟨eachAllowed_append _ _ _ inv.law (allowedFrom_entriesOf _ _ _ ?_ ?_),
      ?_, ?_, ?_, ?_, ?_, ?_, ?_, ?_, ?_, ?_, ?_⟩ <;>
      cases inv <;> simp_all [CheckoutStep.early, AllowedFrom]
  · rw [fired] at commits captures ⊢
    refine ⟨eachAllowed_append _ _ _ inv.law (allowedFrom_entriesOf _ _ _ ?_ ?_),
      ?_, ?_, ?_, ?_, ?_, ?_, ?_, ?_, ?_, ?_, ?_⟩ <;>
      cases inv <;> simp_all [CheckoutStep.early, AllowedFrom, Allowed, compensate, issueFrom]

theorem pivot_authorized (authorization : PaymentAuthorization) (totalMinor : Int)
    (currency : String) (transition : Transition) (inv : Pivot state log tasks)
    (fires : (onAuthorized state authorization totalMinor currency).transition = transition)
    (owes : (tasks ++ transition.commands).Perm rest) :
    Pivot transition.state (log ++ entriesOf state transition) rest := by
  subst fires
  have commits := owes.count_eq .commitStock
  have captures := owes.count_eq .capturePayment
  obtain ⟨verifying, voided, commands, fired, quiet⟩ | ⟨compensating, read, fired⟩ :=
    onAuthorized_cases state authorization totalMinor currency
  · rw [fired] at commits captures ⊢
    refine pivot_still state _ log _ tasks rest inv rfl rfl rfl rfl ?_ ?_ ?_ <;>
      obtain rfl | ⟨-, rfl⟩ := quiet <;> simp_all [entriesOf]
  · rw [fired] at commits captures ⊢
    have known : state.orderStatus ≠ none := fun unread => read (inv.unread unread).1 unread
    obtain step | step := compensating <;>
    refine ⟨eachAllowed_append _ _ _ inv.law (allowedFrom_entriesOf _ _ _ ?_ ?_),
      ?_, ?_, ?_, ?_, ?_, ?_, ?_, ?_, ?_, ?_, ?_⟩ <;>
      cases inv <;> simp_all [CheckoutStep.early, AllowedFrom, Allowed, compensate, issueFrom]

theorem pivot_verified (authorization : PaymentAuthorization) (verdict : AuthorizationVerdict)
    (transition : Transition) (inv : Pivot state log tasks)
    (fires : (onAuthorizationVerified state authorization verdict).transition = transition)
    (owes : (tasks ++ transition.commands).Perm (.verifyAuthorization authorization :: rest)) :
    Pivot transition.state (log ++ entriesOf state transition) rest := by
  subst fires
  have commits := owes.count_eq .commitStock
  have captures := owes.count_eq .capturePayment
  obtain ⟨verifying, fired, -⟩ | ⟨awaiting, -, fired⟩ :=
    onAuthorizationVerified_cases state authorization verdict
  · rw [fired] at commits captures ⊢
    refine pivot_still state _ log _ tasks rest inv rfl rfl rfl rfl ?_ ?_ ?_ <;>
      simp_all [entriesOf]
  · rw [fired] at commits captures ⊢
    refine ⟨eachAllowed_append _ _ _ inv.law (allowedFrom_entriesOf _ _ _ ?_ ?_),
      ?_, ?_, ?_, ?_, ?_, ?_, ?_, ?_, ?_, ?_, ?_⟩ <;>
      cases inv <;> simp_all [CheckoutStep.early, AllowedFrom, Allowed]

theorem pivot_committed (outcome : CommitOutcome) (inv : Pivot state log tasks)
    (owes : (tasks ++ (onCommitResult state outcome).commands).Perm (.commitStock :: rest)) :
    Pivot (onCommitResult state outcome).state
      (log ++ (.committed outcome :: entriesOf state (onCommitResult state outcome))) rest := by
  have commits := owes.count_eq .commitStock
  have captures := owes.count_eq .capturePayment
  obtain ⟨elsewhere, fired⟩ | ⟨committing, refused, fired⟩ | ⟨committing, fine, fired⟩ :=
    onCommitResult_cases state outcome
  · -- the commit is still owed, so the saga is committing
    rw [fired] at commits
    have none := inv.commitOwed
    simp [noop, elsewhere] at commits none
    omega
  · rw [fired] at commits captures ⊢
    refine ⟨eachAllowed_append _ _ _ inv.law (⟨trivial, allowedFrom_entriesOf _ _ _ ?_ ?_⟩),
      ?_, ?_, ?_, ?_, ?_, ?_, ?_, ?_, ?_, ?_, ?_⟩ <;>
      cases inv <;> simp_all [CheckoutStep.early, AllowedFrom, Allowed, compensate, issueFrom]
  · rw [fired] at commits captures ⊢
    refine ⟨eachAllowed_append _ _ _ inv.law (⟨trivial, allowedFrom_entriesOf _ _ _ ?_ ?_⟩),
      ?_, ?_, ?_, ?_, ?_, ?_, ?_, ?_, ?_, ?_, ?_⟩ <;>
      cases inv <;> simp_all [CheckoutStep.early, AllowedFrom, Allowed]
    all_goals exact ⟨outcome, fine, .inr rfl⟩

theorem pivot_captured (outcome : SettledCaptureOutcome) (inv : Pivot state log tasks)
    (owes : (tasks ++ (onCaptureResult state outcome).commands).Perm (.capturePayment :: rest)) :
    Pivot (onCaptureResult state outcome).state
      (log ++ (.captured outcome :: entriesOf state (onCaptureResult state outcome))) rest := by
  have commits := owes.count_eq .commitStock
  have captures := owes.count_eq .capturePayment
  obtain ⟨elsewhere, fired⟩ | ⟨capturing, refused, fired⟩ | ⟨capturing, fine, fired⟩ :=
    onCaptureResult_cases state outcome
  · -- the capture is still owed, so the saga is capturing
    rw [fired] at captures
    have none := inv.captureOwed
    simp [noop, elsewhere] at captures none
    omega
  · rw [fired] at commits captures ⊢
    refine ⟨eachAllowed_append _ _ _ inv.law (⟨trivial, allowedFrom_entriesOf _ _ _ ?_ ?_⟩),
      ?_, ?_, ?_, ?_, ?_, ?_, ?_, ?_, ?_, ?_, ?_⟩ <;>
      cases inv <;> simp_all [CheckoutStep.early, AllowedFrom, Allowed, compensate, issueFrom]
  · rw [fired] at commits captures ⊢
    refine ⟨eachAllowed_append _ _ _ inv.law (⟨trivial, allowedFrom_entriesOf _ _ _ ?_ ?_⟩),
      ?_, ?_, ?_, ?_, ?_, ?_, ?_, ?_, ?_, ?_, ?_⟩ <;>
      cases inv <;> simp_all [CheckoutStep.early, AllowedFrom, Allowed]

theorem pivot_compensated (command : CompensationCommand) (inv : Pivot state log tasks)
    (owes : (tasks ++ (onCompensationDone state command.id).commands).Perm
      (.compensation command :: rest)) :
    Pivot (onCompensationDone state command.id).state
      (log ++ entriesOf state (onCompensationDone state command.id)) rest := by
  have commits := owes.count_eq .commitStock
  have captures := owes.count_eq .capturePayment
  obtain fired | ⟨waiting, pending, step, fired, moved⟩ :=
    onCompensationDone_cases state command.id
  · rw [fired] at owes ⊢
    exact pivot_quiet state log tasks rest [.compensation command] inv owes
  · rw [fired] at commits captures ⊢
    have compensating : state.step = .compensating ∨ state.step = .compensated := by
      by_contra neither
      obtain ⟨notYet, notDone⟩ := not_or.mp neither
      exact waiting (inv.forward notYet notDone)
    obtain step' | step' := compensating <;> obtain ⟨rfl, rfl⟩ | rfl := moved <;>
    refine ⟨eachAllowed_append _ _ _ inv.law (allowedFrom_entriesOf _ _ _ ?_ ?_),
      ?_, ?_, ?_, ?_, ?_, ?_, ?_, ?_, ?_, ?_, ?_⟩ <;>
      cases inv <;> simp_all [CheckoutStep.early, AllowedFrom]

theorem pivot_context (status : Option OrderStatus) (inv : Pivot state log tasks)
    (owes : (tasks ++ (onLateAuthorizationContext state status).commands).Perm rest) :
    Pivot (onLateAuthorizationContext state status).state
      (log ++ entriesOf state (onLateAuthorizationContext state status)) rest := by
  have commits := owes.count_eq .commitStock
  have captures := owes.count_eq .capturePayment
  obtain fired | ⟨late, unread, -, fired⟩ | ⟨late, unread, unpaid, fired⟩ :=
    onLateAuthorizationContext_cases state status
  · rw [fired] at owes ⊢
    exact pivot_quiet state log tasks rest [] inv owes
  · rw [fired] at commits captures ⊢
    refine ⟨eachAllowed_append _ _ _ inv.law (allowedFrom_entriesOf _ _ _ ?_ ?_),
      ?_, ?_, ?_, ?_, ?_, ?_, ?_, ?_, ?_, ?_, ?_⟩ <;>
      cases inv <;> simp_all [CheckoutStep.early, AllowedFrom]
  · rw [fired] at commits captures ⊢
    have recorded : status.getD .rejected ≠ .paid := by
      cases status with
      | none => simp
      | some known => exact fun same => unpaid (congrArg some same)
    have recorded' := recorded.symm
    refine ⟨eachAllowed_append _ _ _ inv.law (allowedFrom_entriesOf _ _ _ ?_ ?_),
      ?_, ?_, ?_, ?_, ?_, ?_, ?_, ?_, ?_, ?_, ?_⟩ <;>
      cases inv <;> simp_all [CheckoutStep.early, AllowedFrom, Allowed, compensate, issueFrom]

theorem pivot_deadline (inv : Pivot state log tasks)
    (owes : (tasks ++ (onDeadline state).commands).Perm rest) :
    Pivot (onDeadline state).state (log ++ entriesOf state (onDeadline state)) rest := by
  have commits := owes.count_eq .commitStock
  have captures := owes.count_eq .capturePayment
  obtain ⟨-, fired⟩ | ⟨awaiting, fired⟩ := onDeadline_cases state
  · rw [fired] at owes ⊢
    exact pivot_quiet state log tasks rest [] inv owes
  · rw [fired] at commits captures ⊢
    refine ⟨eachAllowed_append _ _ _ inv.law (allowedFrom_entriesOf _ _ _ ?_ ?_),
      ?_, ?_, ?_, ?_, ?_, ?_, ?_, ?_, ?_, ?_, ?_⟩ <;>
      cases inv <;> simp_all [CheckoutStep.early, AllowedFrom, Allowed, compensate, issueFrom]

theorem pivot_accepted (unconfirmed : .carries .confirming ∉ log) (inv : Pivot state log tasks) :
    Pivot state (log ++ [.cancelAccepted]) tasks := by
  have law := eachAllowed_snoc Allowed log .cancelAccepted inv.law unconfirmed
  constructor <;> cases inv <;> simp_all

theorem pivot_cancelled (requester : CancelBy) (inv : Pivot state log tasks)
    (accepted : canCancel state = true)
    (owes : (tasks ++ (onCancelRequested state requester).commands).Perm rest) :
    Pivot (onCancelRequested state requester).state
      (log ++ (.cancelAccepted :: entriesOf state (onCancelRequested state requester))) rest := by
  have unconfirmed : .carries .confirming ∉ log := by
    intro confirming
    obtain ⟨notEarly, notCancelled, -⟩ := inv.confirming confirming
    simp only [canCancel, Bool.or_eq_true, beq_iff_eq] at accepted
    obtain awaiting | cancelled := accepted
    · simp [awaiting, CheckoutStep.early] at notEarly
    · exact notCancelled cancelled
  rw [List.append_cons]
  have logged := pivot_accepted state log tasks unconfirmed inv
  have commits := owes.count_eq .commitStock
  have captures := owes.count_eq .capturePayment
  obtain ⟨-, fired⟩ | ⟨awaiting, fired⟩ := onCancelRequested_cases state requester
  · rw [fired] at owes ⊢
    exact pivot_quiet state _ tasks rest [] logged owes
  · rw [fired] at commits captures ⊢
    refine ⟨eachAllowed_append _ _ _ logged.law (allowedFrom_entriesOf _ _ _ ?_ ?_),
      ?_, ?_, ?_, ?_, ?_, ?_, ?_, ?_, ?_, ?_, ?_⟩ <;>
      cases inv <;> simp_all [CheckoutStep.early, AllowedFrom, Allowed, compensate, issueFrom]

end Transitions

theorem pivot_fires (state : CheckoutSagaState) (log entries : List Entry)
    (tasks rest done : List SagaCommand) (transition : Transition) (inv : Pivot state log tasks)
    (fires : Fires state done entries transition)
    (owes : (tasks ++ transition.commands).Perm (done ++ rest)) :
    Pivot transition.state (log ++ (entries ++ entriesOf state transition)) rest := by
  cases fires with
  | quiet => exact pivot_quiet state log tasks rest [] inv owes
  | orderChanged change => exact pivot_quiet state log tasks rest _ inv owes
  | tried outcome => exact pivot_tried state log tasks rest outcome inv owes
  | authorized authorization totalMinor currency =>
      exact pivot_authorized state log tasks rest authorization totalMinor currency _ inv rfl owes
  | verified authorization verdict =>
      exact pivot_verified state log tasks rest authorization verdict _ inv rfl owes
  | committed outcome => exact pivot_committed state log tasks rest outcome inv owes
  | captured outcome => exact pivot_captured state log tasks rest outcome inv owes
  | compensated command => exact pivot_compensated state log tasks rest command inv owes
  | contextRead status => exact pivot_context state log tasks rest status inv owes
  | deadline => exact pivot_deadline state log tasks rest inv owes
  | cancelled requester accepted =>
      exact pivot_cancelled state log tasks rest requester inv accepted owes

/-! ## Runs -/

def RunPivot (run : Run) : Prop := Pivot run.saga run.log (owed run.pending)

theorem runPivot_initial (input : CheckoutSagaInput) (firstSeq : Nat) (nowMs : Int) :
    RunPivot (checkoutSaga input firstSeq nowMs) := by
  cases mode : input.mode <;>
    refine ⟨?_, ?_, ?_, ?_, ?_, ?_, ?_, ?_, ?_, ?_, ?_, ?_⟩ <;>
    simp [checkoutSaga, mode, runTry, initialCheckoutSagaState, schedule, CheckoutStep.early,
      Task.owes, Activity.owes, eachAllowed_nil]

theorem runPivot_deliver (run : Run) (event : Event) (next : Run) (inv : RunPivot run)
    (delivered : deliver run event = some next) : RunPivot next := by
  obtain ⟨done, entries, transition, fires, applied⟩ := deliver_fires run next event delivered
  have moved := pivot_fires run.saga run.log entries (owed run.pending) (owed next.pending)
    done transition inv fires applied.owed
  unfold RunPivot
  rw [applied.saga, applied.log]
  exact moved

/-- The law of the checkout saga's pivot and compensations, on the log of one run. -/
structure PivotLaw (log : List Entry) : Prop where
  commitOnce : log.count (.issued .commitStock) ≤ 1
  captureOnce : log.count (.issued .capturePayment) ≤ 1
  captureAfterCommit : ∀ before after, log = before ++ .issued .capturePayment :: after →
    ∃ outcome, outcome ≠ .conflict ∧ .committed outcome ∈ before
  noReleaseAfterCommit : ∀ before command after,
    log = before ++ .issued (.compensation command) :: after →
      command.type = .releaseStock → .issued .commitStock ∉ before
  restockAfterFailedCapture : ∀ before command after,
    log = before ++ .issued (.compensation command) :: after → command.type = .restock →
      (∃ outcome, outcome ≠ .conflict ∧ .committed outcome ∈ before) ∧
        .captured .notCapturable ∈ before
  paidUncompensated : ∀ before command after,
    log = before ++ .issued (.compensation command) :: after →
      (∀ outcome, .captured outcome ∈ before → outcome = .notCapturable) ∧
        .carries .paid ∉ before
  cancelBeforeConfirming : ∀ before after, log = before ++ .cancelAccepted :: after →
    .carries .confirming ∉ before

theorem pivotLaw_of_allowed (log : List Entry) (law : EachAllowed Allowed log) : PivotLaw log where
  commitOnce := count_le_one_of_eachAllowed Allowed log _ law fun _ allowed => allowed
  captureOnce := count_le_one_of_eachAllowed Allowed log _ law fun _ allowed => allowed.1
  captureAfterCommit before after split := (law before _ after split).2
  noReleaseAfterCommit before command after split := (law before _ after split).1
  restockAfterFailedCapture before command after split := (law before _ after split).2.1
  paidUncompensated before command after split := by
    obtain ⟨-, -, captured, idempotent, unpaid⟩ := law before _ after split
    refine ⟨fun outcome member => ?_, unpaid⟩
    cases outcome with
    | captured => exact absurd member captured
    | idempotent => exact absurd member idempotent
    | notCapturable => rfl
  cancelBeforeConfirming before after split := law before _ after split

/-- Every run of the workflow, under any events the engine can deliver in any order, logs
a history that obeys the law. -/
theorem saga_pivot_law (input : CheckoutSagaInput) (firstSeq : Nat) (nowMs : Int)
    (events : List Event) (final : Run)
    (success : run deliver (checkoutSaga input firstSeq nowMs) events = some final) :
    PivotLaw final.log :=
  pivotLaw_of_allowed final.log
    (run_preserves deliver RunPivot runPivot_deliver events _ final
      (runPivot_initial input firstSeq nowMs) success).law

def paidEvents : List Event :=
  [.reserve 0, .tryAnswered 0 (.answered .reserved), .tryWritten 1 .applied,
    .paymentAuthorized ⟨7, 500, "USD", 0⟩, .answered 2 (.verdict .verified),
    .answered 3 (.written .applied), .answered 4 (.committed .applied),
    .answered 5 (.captured .captured), .answered 6 (.written .applied),
    .settledInTime, .returned]

theorem saga_pivot_law_paid :
    ∃ final,
      run deliver (checkoutSaga ⟨.checkout, 0, none, 500, "USD", 1000⟩ 0 0) paidEvents =
        some final ∧
      final.saga.step = .completed ∧ final.body = .closed ∧ PivotLaw final.log := by
  refine ⟨_, rfl, rfl, rfl, ?_⟩
  exact saga_pivot_law ⟨.checkout, 0, none, 500, "USD", 1000⟩ 0 0 paidEvents _ rfl

end Commerce.Saga
