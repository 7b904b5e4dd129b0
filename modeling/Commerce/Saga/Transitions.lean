import Commerce.Orders.Status

/-!
# Pure transitions of the checkout saga

The signal and update handlers call these to change the saga's state at once;
the workflow executes the commands they return.
-/

set_option autoImplicit false

namespace Commerce.Saga

open Commerce.Orders (OrderStatus)

inductive CheckoutStep where
  | reserving
  | awaitingAuth
  | committingStock
  | capturing
  | completed
  | compensating
  | compensated
  deriving DecidableEq, Repr, Inhabited

inductive CheckoutSagaMode where
  | checkout
  | lateAuthorization
  deriving DecidableEq, Repr, Inhabited

inductive ReserveOutcome where
  | held
  | outOfStock
  | contended
  | conflict
  | timeout
  | error
  | abandoned
  deriving DecidableEq, Repr, Inhabited

inductive ParticipantTryOutcome where
  | reserved
  | outOfStock
  | contended
  | conflict
  deriving DecidableEq, Repr, Inhabited

inductive CommitOutcome where
  | applied
  | idempotent
  | conflict
  deriving DecidableEq, Repr, Inhabited

/-- A capture conflict never gets here: the activity throws it as retryable instead. -/
inductive SettledCaptureOutcome where
  | captured
  | idempotent
  | notCapturable
  deriving DecidableEq, Repr, Inhabited

inductive AuthorizationVerdict where
  | verified
  | notAuthorized
  | paymentMismatch
  deriving DecidableEq, Repr, Inhabited

inductive AuthorizationIgnoredReason where
  | amountMismatch
  | notAuthorized
  | paymentMismatch
  deriving DecidableEq, Repr, Inhabited

inductive CancelBy where
  | buyer
  | admin
  deriving DecidableEq, Repr, Inhabited

inductive CompensationReason where
  | tryFailed
  | tryTimeout
  | abandoned
  | expired
  | cancelled
  | commitConflict
  | captureFailed
  | lateAuthorization
  deriving DecidableEq, Repr, Inhabited

def CompensationReason.toLowerCase : CompensationReason → String
  | tryFailed => "try_failed"
  | tryTimeout => "try_timeout"
  | abandoned => "abandoned"
  | expired => "expired"
  | cancelled => "cancelled"
  | commitConflict => "commit_conflict"
  | captureFailed => "capture_failed"
  | lateAuthorization => "late_authorization"

/-- Payment ids are decimal strings of minted 64-bit ids, read here as numbers. -/
structure PaymentAuthorization where
  paymentId : Nat
  amountMinor : Int
  currency : String
  authorizedAt : Int
  deriving DecidableEq, Repr

structure OrderChangeCommand where
  source : List OrderStatus
  target : OrderStatus
  reason : Option String
  paymentRef : Option Nat
  deriving DecidableEq, Repr

inductive CompensationType where
  | releaseStock
  | restock
  | cancelPayment
  deriving DecidableEq, Repr, Inhabited

structure CompensationCommand where
  type : CompensationType
  /-- Unique within a run, so the body can report back which one finished. -/
  id : Nat
  reason : CompensationReason
  deriving DecidableEq, Repr

inductive SagaCommand where
  | changeOrder (change : OrderChangeCommand)
  | verifyAuthorization (authorization : PaymentAuthorization)
  | commitStock
  | capturePayment
  | compensation (command : CompensationCommand)
  deriving DecidableEq, Repr

structure CheckoutSagaState where
  mode : CheckoutSagaMode
  step : CheckoutStep
  /-- What the saga last wrote to the order; `none` in a late run until it has read it. -/
  orderStatus : Option OrderStatus
  tryOutcome : Option ReserveOutcome
  authorization : Option PaymentAuthorization
  verifying : List Nat
  voided : List Nat
  pending : List CompensationCommand
  nextCommandId : Nat
  deriving DecidableEq, Repr

structure Transition where
  state : CheckoutSagaState
  commands : List SagaCommand
  deriving DecidableEq, Repr

/-- The source's `AuthorizationTransition`: a transition and why it was ignored, if it was. -/
structure AuthorizationTransition where
  transition : Transition
  ignored : Option AuthorizationIgnoredReason
  deriving DecidableEq, Repr

def initialCheckoutSagaState (mode : CheckoutSagaMode) : CheckoutSagaState where
  mode := mode
  step := if mode = .checkout then .reserving else .compensating
  orderStatus := if mode = .checkout then some .reserving else none
  tryOutcome := none
  authorization := none
  verifying := []
  voided := []
  pending := []
  nextCommandId := 1

inductive TryPlan where
  | abandon
  | attempt (timeoutMs : Int)
  deriving DecidableEq, Repr

/-- The budget runs from `startedAt`, not from when the workflow got around to the Try. -/
def planTry (startedAt tryTimeoutMs nowMs : Int) : TryPlan :=
  let remaining := startedAt + tryTimeoutMs - nowMs
  if remaining > 0 then .attempt remaining else .abandon

def toReserveOutcome : ParticipantTryOutcome → ReserveOutcome
  | .reserved => .held
  | .outOfStock => .outOfStock
  | .contended => .contended
  | .conflict => .conflict

/-- Called for every outcome but `held`, which the source's type excludes. -/
def compensationReasonForTry : ReserveOutcome → CompensationReason
  | .timeout => .tryTimeout
  | .error => .tryTimeout
  | .abandoned => .abandoned
  | _ => .tryFailed

def finalizeReasonOf (reason : CompensationReason) : String :=
  "saga:" ++ reason.toLowerCase

/-! ## The transitions -/

def noop (state : CheckoutSagaState) : Transition := ⟨state, []⟩

def ignored (state : CheckoutSagaState) (reason : Option AuthorizationIgnoredReason) :
    AuthorizationTransition :=
  ⟨⟨state, []⟩, reason⟩

def changeOrder (source target : OrderStatus) (reason : Option String) : OrderChangeCommand where
  source := [source]
  target := target
  reason := reason
  paymentRef := none

def issueFrom (firstId : Nat) :
    List (CompensationType × CompensationReason) → List CompensationCommand
  | [] => []
  | (type, reason) :: rest => ⟨type, firstId, reason⟩ :: issueFrom (firstId + 1) rest

def compensate (state : CheckoutSagaState) (first : List SagaCommand)
    (compensations : List (CompensationType × CompensationReason)) : Transition :=
  let issued := issueFrom state.nextCommandId compensations
  { state := { state with
      step := .compensating
      pending := state.pending ++ issued
      nextCommandId := state.nextCommandId + compensations.length }
    commands := first ++ issued.map .compensation }

def onTryResult (state : CheckoutSagaState) (outcome : ReserveOutcome) : Transition :=
  if state.step ≠ .reserving then noop state
  else if outcome = .held then
    { state := { state with
        step := .awaitingAuth
        orderStatus := some .pending
        tryOutcome := some outcome }
      commands := [] }
  else
    compensate { state with orderStatus := some .rejected, tryOutcome := some outcome } []
      [(.releaseStock, compensationReasonForTry outcome)]

def onAuthorized (state : CheckoutSagaState) (authorization : PaymentAuthorization)
    (totalMinor : Int) (currency : String) : AuthorizationTransition :=
  let paymentId := authorization.paymentId
  if state.step = .compensating ∨ state.step = .compensated then
    if paymentId ∈ state.voided then ignored state none
    else
      let seen := { state with voided := state.voided ++ [paymentId] }
      -- a late-authorization run voids only once it knows the order was not paid
      if state.mode = .lateAuthorization ∧ state.orderStatus = none then ignored seen none
      else ⟨compensate seen [] [(.cancelPayment, .lateAuthorization)], none⟩
  else if state.step ≠ .awaitingAuth then ignored state none
  else if authorization.amountMinor ≠ totalMinor ∨ authorization.currency ≠ currency then
    ignored state (some .amountMismatch)
  else if paymentId ∈ state.verifying then ignored state none
  else
    { transition :=
        { state := { state with verifying := state.verifying ++ [paymentId] }
          commands := [.verifyAuthorization authorization] }
      ignored := none }

def AuthorizationVerdict.refusal : AuthorizationVerdict → Option AuthorizationIgnoredReason
  | .verified => none
  | .notAuthorized => some .notAuthorized
  | .paymentMismatch => some .paymentMismatch

def onAuthorizationVerified (state : CheckoutSagaState) (authorization : PaymentAuthorization)
    (verdict : AuthorizationVerdict) : AuthorizationTransition :=
  let settled := { state with
    verifying := state.verifying.filter fun id => id ≠ authorization.paymentId }
  -- cancel or the deadline won while the check ran: the state is returned as it was
  if state.step ≠ .awaitingAuth then ignored state none
  else if verdict ≠ .verified then ignored settled verdict.refusal
  else
    { transition :=
        { state := { settled with
            step := .committingStock
            orderStatus := some .confirming
            authorization := some authorization }
          commands := [.changeOrder (changeOrder .pending .confirming none), .commitStock] }
      ignored := none }

def onCommitResult (state : CheckoutSagaState) (outcome : CommitOutcome) : Transition :=
  if state.step ≠ .committingStock then noop state
  else if outcome = .conflict then
    compensate { state with orderStatus := some .failed }
      [.changeOrder (changeOrder .confirming .failed (some (finalizeReasonOf .commitConflict)))]
      [(.cancelPayment, .commitConflict)]
  else { state := { state with step := .capturing }, commands := [.capturePayment] }

def onCaptureResult (state : CheckoutSagaState) (outcome : SettledCaptureOutcome) : Transition :=
  if state.step ≠ .capturing then noop state
  else if outcome = .notCapturable then
    compensate { state with orderStatus := some .failed }
      [.changeOrder (changeOrder .confirming .failed (some (finalizeReasonOf .captureFailed)))]
      [(.restock, .captureFailed), (.cancelPayment, .captureFailed)]
  else
    { state := { state with step := .completed, orderStatus := some .paid }
      commands :=
        [.changeOrder { changeOrder .confirming .paid (some "saga:captured") with
          paymentRef := state.authorization.map (·.paymentId) }] }

def onDeadline (state : CheckoutSagaState) : Transition :=
  if state.step ≠ .awaitingAuth then noop state
  else
    compensate { state with orderStatus := some .expired }
      [.changeOrder (changeOrder .pending .expired (some (finalizeReasonOf .expired)))]
      [(.releaseStock, .expired), (.cancelPayment, .expired)]

def canCancel (state : CheckoutSagaState) : Bool :=
  state.step == .awaitingAuth || state.orderStatus == some .cancelled

def CancelBy.reason : CancelBy → String
  | .buyer => "user:cancel"
  | .admin => "admin:cancel"

def onCancelRequested (state : CheckoutSagaState) (requester : CancelBy) : Transition :=
  if state.step ≠ .awaitingAuth then noop state
  else
    compensate { state with orderStatus := some .cancelled }
      [.changeOrder (changeOrder .pending .cancelled (some requester.reason))]
      [(.releaseStock, .cancelled), (.cancelPayment, .cancelled)]

def onCompensationDone (state : CheckoutSagaState) (id : Nat) : Transition :=
  if !state.pending.any (fun command => command.id == id) then noop state
  else
    let pending := state.pending.filter fun command => command.id ≠ id
    { state := { state with
        pending := pending
        step := if pending.length = 0 then .compensated else state.step }
      commands := [] }

/-- Decides a late-authorization run once it has read the order; the order is never changed. -/
def onLateAuthorizationContext (state : CheckoutSagaState) (orderStatus : Option OrderStatus) :
    Transition :=
  if state.mode ≠ .lateAuthorization ∨ state.orderStatus ≠ none then noop state
  else
    -- a missing order is recorded as rejected: `none` would read as "not loaded yet"
    let known := { state with orderStatus := some (orderStatus.getD .rejected) }
    if orderStatus = some .paid then { state := { known with step := .completed }, commands := [] }
    else compensate known [] [(.cancelPayment, .lateAuthorization)]

/-! ## What each transition can do

A transition either leaves the state (`noop`) or takes one of the branches below. -/

theorem onTryResult_cases (state : CheckoutSagaState) (outcome : ReserveOutcome) :
    (state.step ≠ .reserving ∧ onTryResult state outcome = noop state) ∨
    (state.step = .reserving ∧ outcome = .held ∧ onTryResult state outcome =
      ⟨{ state with
          step := .awaitingAuth, orderStatus := some .pending, tryOutcome := some outcome }, []⟩) ∨
    (state.step = .reserving ∧ outcome ≠ .held ∧ onTryResult state outcome =
      compensate { state with orderStatus := some .rejected, tryOutcome := some outcome } []
        [(.releaseStock, compensationReasonForTry outcome)]) := by
  unfold onTryResult
  grind

theorem onAuthorized_cases (state : CheckoutSagaState) (authorization : PaymentAuthorization)
    (totalMinor : Int) (currency : String) :
    (∃ verifying voided commands,
      (onAuthorized state authorization totalMinor currency).transition =
        ⟨{ state with verifying := verifying, voided := voided }, commands⟩ ∧
      (commands = [] ∨ (state.step = .awaitingAuth ∧
        commands = [.verifyAuthorization authorization]))) ∨
    ((state.step = .compensating ∨ state.step = .compensated) ∧
      (state.mode = .lateAuthorization → state.orderStatus ≠ none) ∧
      (onAuthorized state authorization totalMinor currency).transition =
        compensate { state with voided := state.voided ++ [authorization.paymentId] } []
          [(.cancelPayment, .lateAuthorization)]) := by
  unfold onAuthorized
  simp only [ignored]
  split_ifs with compensating seen unread notAwaiting mismatch running
  · exact .inl ⟨state.verifying, state.voided, [], rfl, .inl rfl⟩
  · exact .inl ⟨state.verifying, _, [], rfl, .inl rfl⟩
  · refine .inr ⟨compensating, fun late => ?_, rfl⟩
    exact fun none => unread ⟨late, none⟩
  · exact .inl ⟨state.verifying, state.voided, [], rfl, .inl rfl⟩
  · exact .inl ⟨state.verifying, state.voided, [], rfl, .inl rfl⟩
  · exact .inl ⟨state.verifying, state.voided, [], rfl, .inl rfl⟩
  · exact .inl ⟨_, state.voided, _, rfl, .inr ⟨not_not.mp notAwaiting, rfl⟩⟩

theorem onAuthorizationVerified_cases (state : CheckoutSagaState)
    (authorization : PaymentAuthorization) (verdict : AuthorizationVerdict) :
    (∃ verifying, (onAuthorizationVerified state authorization verdict).transition =
      ⟨{ state with verifying := verifying }, []⟩ ∧
      (state.step = .awaitingAuth → verdict ≠ .verified)) ∨
    (state.step = .awaitingAuth ∧ verdict = .verified ∧
      (onAuthorizationVerified state authorization verdict).transition =
        ⟨{ state with
            step := .committingStock
            orderStatus := some .confirming
            verifying := state.verifying.filter fun id => id ≠ authorization.paymentId
            authorization := some authorization },
          [.changeOrder (changeOrder .pending .confirming none), .commitStock]⟩) := by
  unfold onAuthorizationVerified
  simp only [ignored]
  split_ifs with elsewhere refused
  · exact .inl ⟨state.verifying, rfl, fun awaiting => absurd awaiting elsewhere⟩
  · exact .inl ⟨_, rfl, fun _ => refused⟩
  · exact .inr ⟨not_not.mp elsewhere, not_not.mp refused, rfl⟩

theorem onCommitResult_cases (state : CheckoutSagaState) (outcome : CommitOutcome) :
    (state.step ≠ .committingStock ∧ onCommitResult state outcome = noop state) ∨
    (state.step = .committingStock ∧ outcome = .conflict ∧ onCommitResult state outcome =
      compensate { state with orderStatus := some .failed }
        [.changeOrder (changeOrder .confirming .failed (some (finalizeReasonOf .commitConflict)))]
        [(.cancelPayment, .commitConflict)]) ∨
    (state.step = .committingStock ∧ outcome ≠ .conflict ∧ onCommitResult state outcome =
      ⟨{ state with step := .capturing }, [.capturePayment]⟩) := by
  unfold onCommitResult
  grind

theorem onCaptureResult_cases (state : CheckoutSagaState) (outcome : SettledCaptureOutcome) :
    (state.step ≠ .capturing ∧ onCaptureResult state outcome = noop state) ∨
    (state.step = .capturing ∧ outcome = .notCapturable ∧ onCaptureResult state outcome =
      compensate { state with orderStatus := some .failed }
        [.changeOrder (changeOrder .confirming .failed (some (finalizeReasonOf .captureFailed)))]
        [(.restock, .captureFailed), (.cancelPayment, .captureFailed)]) ∨
    (state.step = .capturing ∧ outcome ≠ .notCapturable ∧ onCaptureResult state outcome =
      ⟨{ state with step := .completed, orderStatus := some .paid },
        [.changeOrder { changeOrder .confirming .paid (some "saga:captured") with
          paymentRef := state.authorization.map (·.paymentId) }]⟩) := by
  unfold onCaptureResult
  grind

theorem onDeadline_cases (state : CheckoutSagaState) :
    (state.step ≠ .awaitingAuth ∧ onDeadline state = noop state) ∨
    (state.step = .awaitingAuth ∧ onDeadline state =
      compensate { state with orderStatus := some .expired }
        [.changeOrder (changeOrder .pending .expired (some (finalizeReasonOf .expired)))]
        [(.releaseStock, .expired), (.cancelPayment, .expired)]) := by
  unfold onDeadline
  grind

theorem onCancelRequested_cases (state : CheckoutSagaState) (requester : CancelBy) :
    (state.step ≠ .awaitingAuth ∧ onCancelRequested state requester = noop state) ∨
    (state.step = .awaitingAuth ∧ onCancelRequested state requester =
      compensate { state with orderStatus := some .cancelled }
        [.changeOrder (changeOrder .pending .cancelled (some requester.reason))]
        [(.releaseStock, .cancelled), (.cancelPayment, .cancelled)]) := by
  unfold onCancelRequested
  grind

theorem onCompensationDone_cases (state : CheckoutSagaState) (id : Nat) :
    onCompensationDone state id = noop state ∨
    (state.pending ≠ [] ∧ ∃ pending step, onCompensationDone state id =
      ⟨{ state with pending := pending, step := step }, []⟩ ∧
      (step = .compensated ∧ pending = [] ∨ step = state.step)) := by
  unfold onCompensationDone
  split_ifs with unknown
  · exact .inl rfl
  · refine .inr ⟨?_, _, _, rfl, ?_⟩
    · rintro empty
      simp [empty] at unknown
    · split_ifs with finished
      · exact .inl ⟨rfl, List.length_eq_zero_iff.mp finished⟩
      · exact .inr rfl

theorem onLateAuthorizationContext_cases (state : CheckoutSagaState)
    (status : Option OrderStatus) :
    onLateAuthorizationContext state status = noop state ∨
    (state.mode = .lateAuthorization ∧ state.orderStatus = none ∧ status = some .paid ∧
      onLateAuthorizationContext state status =
        ⟨{ state with step := .completed, orderStatus := some .paid }, []⟩) ∨
    (state.mode = .lateAuthorization ∧ state.orderStatus = none ∧ status ≠ some .paid ∧
      onLateAuthorizationContext state status =
        compensate { state with orderStatus := some (status.getD .rejected) } []
          [(.cancelPayment, .lateAuthorization)]) := by
  unfold onLateAuthorizationContext
  by_cases known : state.mode ≠ .lateAuthorization ∨ state.orderStatus ≠ none
  · exact .inl (if_pos known)
  · obtain ⟨late, unread⟩ := not_or.mp known
    rw [if_neg known]
    by_cases isPaid : status = some .paid
    · subst isPaid
      exact .inr (.inl ⟨not_not.mp late, not_not.mp unread, rfl, rfl⟩)
    · exact .inr (.inr ⟨not_not.mp late, not_not.mp unread, isPaid, if_neg isPaid⟩)

end Commerce.Saga
