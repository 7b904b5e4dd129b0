import Mathlib.Data.List.Range
import Commerce.Lib.Runs
import Commerce.Saga.Transitions

/-!
# The saga's books of its compensations

The transitions of the saga under any sequence of events: every compensation is numbered
from `nextCommandId` when it is issued and stays in `pending` until `onCompensationDone`
is called with its number.  The laws hold for any arguments the events may carry, in any
order, so they do not rest on how the workflow delivers them.
-/

set_option autoImplicit false

namespace Commerce.Saga

open Commerce.Orders (OrderStatus)
open Runs

inductive SagaEvent where
  | tryResult (outcome : ReserveOutcome)
  | authorized (authorization : PaymentAuthorization) (totalMinor : Int) (currency : String)
  | authorizationVerified (authorization : PaymentAuthorization) (verdict : AuthorizationVerdict)
  | commitResult (outcome : CommitOutcome)
  | captureResult (outcome : SettledCaptureOutcome)
  | deadline
  | cancelRequested (requester : CancelBy)
  | compensationDone (id : Nat)
  | lateAuthorizationContext (status : Option OrderStatus)
  deriving DecidableEq, Repr

def transitionOf (state : CheckoutSagaState) : SagaEvent → Transition
  | .tryResult outcome => onTryResult state outcome
  | .authorized authorization totalMinor currency =>
      (onAuthorized state authorization totalMinor currency).transition
  | .authorizationVerified authorization verdict =>
      (onAuthorizationVerified state authorization verdict).transition
  | .commitResult outcome => onCommitResult state outcome
  | .captureResult outcome => onCaptureResult state outcome
  | .deadline => onDeadline state
  | .cancelRequested requester => onCancelRequested state requester
  | .compensationDone id => onCompensationDone state id
  | .lateAuthorizationContext status => onLateAuthorizationContext state status

def sagaStep (state : CheckoutSagaState) (event : SagaEvent) : Option CheckoutSagaState :=
  some (transitionOf state event).state

def compensationsIn (commands : List SagaCommand) : List CompensationCommand :=
  commands.filterMap fun command =>
    match command with
    | .compensation compensation => some compensation
    | _ => none

@[simp] theorem compensationsIn_nil : compensationsIn [] = [] := rfl

@[simp] theorem compensationsIn_append (first second : List SagaCommand) :
    compensationsIn (first ++ second) = compensationsIn first ++ compensationsIn second := by
  simp [compensationsIn]

@[simp] theorem compensationsIn_map (commands : List CompensationCommand) :
    compensationsIn (commands.map .compensation) = commands := by
  induction commands with
  | nil => rfl
  | cons command rest ih => exact congrArg (command :: ·) ih

@[simp] theorem mem_compensationsIn (commands : List SagaCommand) (command : CompensationCommand) :
    command ∈ compensationsIn commands ↔ .compensation command ∈ commands := by
  unfold compensationsIn
  rw [List.mem_filterMap]
  constructor
  · rintro ⟨issued, member, same⟩
    cases issued <;> cases same
    exact member
  · intro member
    exact ⟨.compensation command, member, rfl⟩

/-! ## Numbering -/

theorem issueFrom_ids (firstId : Nat) (specs : List (CompensationType × CompensationReason)) :
    (issueFrom firstId specs).map (·.id) = List.range' firstId specs.length := by
  induction specs generalizing firstId with
  | nil => rfl
  | cons spec rest ih =>
      rw [issueFrom, List.map_cons, ih]
      rfl

theorem issueFrom_id_ge (firstId : Nat) (specs : List (CompensationType × CompensationReason))
    (command : CompensationCommand) (issued : command ∈ issueFrom firstId specs) :
    firstId ≤ command.id ∧ command.id < firstId + specs.length := by
  have listed : command.id ∈ (issueFrom firstId specs).map (·.id) := List.mem_map_of_mem issued
  rw [issueFrom_ids] at listed
  simpa using listed

def remaining (pending : List CompensationCommand) : SagaEvent → List CompensationCommand
  | .compensationDone id => pending.filter fun command => command.id ≠ id
  | _ => pending

/-- Issuing some compensations and acknowledging at most one is all an event does to the books. -/
structure Booked (state : CheckoutSagaState) (event : SagaEvent)
    (specs : List (CompensationType × CompensationReason)) : Prop where
  issued : compensationsIn (transitionOf state event).commands = issueFrom state.nextCommandId specs
  pending : (transitionOf state event).state.pending =
    remaining state.pending event ++ issueFrom state.nextCommandId specs
  next : (transitionOf state event).state.nextCommandId = state.nextCommandId + specs.length

theorem booked_quiet (state next : CheckoutSagaState) (event : SagaEvent)
    (commands : List SagaCommand) (fired : transitionOf state event = ⟨next, commands⟩)
    (plain : compensationsIn commands = []) (pending : next.pending = remaining state.pending event)
    (nextId : next.nextCommandId = state.nextCommandId) : Booked state event [] where
  issued := by rw [fired]; exact plain
  pending := by rw [fired, issueFrom, List.append_nil]; exact pending
  next := by rw [fired]; exact nextId

theorem booked_compensate (state known : CheckoutSagaState) (event : SagaEvent)
    (first : List SagaCommand) (specs : List (CompensationType × CompensationReason))
    (fired : transitionOf state event = compensate known first specs)
    (plain : compensationsIn first = []) (pending : known.pending = remaining state.pending event)
    (nextId : known.nextCommandId = state.nextCommandId) : Booked state event specs where
  issued := by
    rw [fired, compensate, compensationsIn_append, plain, compensationsIn_map, nextId]
    rfl
  pending := by rw [fired, ← pending, ← nextId]; rfl
  next := by rw [fired, ← nextId]; rfl

/-- Every event books something, one case per transition. -/
theorem books (state : CheckoutSagaState) (event : SagaEvent) :
    ∃ specs, Booked state event specs := by
  cases event with
  | tryResult outcome =>
      rcases onTryResult_cases state outcome with ⟨-, fired⟩ | ⟨-, -, fired⟩ | ⟨-, -, fired⟩
      · exact ⟨_, booked_quiet state _ _ _ fired rfl rfl rfl⟩
      · exact ⟨_, booked_quiet state _ _ _ fired rfl rfl rfl⟩
      · exact ⟨_, booked_compensate state _ _ _ _ fired rfl rfl rfl⟩
  | authorized authorization totalMinor currency =>
      rcases onAuthorized_cases state authorization totalMinor currency with
        ⟨verifying, voided, commands, fired, quiet⟩ | ⟨-, -, fired⟩
      · refine ⟨_, booked_quiet state _ _ commands fired ?_ rfl rfl⟩
        rcases quiet with rfl | ⟨-, rfl⟩ <;> rfl
      · exact ⟨_, booked_compensate state _ _ _ _ fired rfl rfl rfl⟩
  | authorizationVerified authorization verdict =>
      rcases onAuthorizationVerified_cases state authorization verdict with
        ⟨verifying, fired, -⟩ | ⟨-, -, fired⟩
      · exact ⟨_, booked_quiet state _ _ _ fired rfl rfl rfl⟩
      · exact ⟨_, booked_quiet state _ _ _ fired rfl rfl rfl⟩
  | commitResult outcome =>
      rcases onCommitResult_cases state outcome with ⟨-, fired⟩ | ⟨-, -, fired⟩ | ⟨-, -, fired⟩
      · exact ⟨_, booked_quiet state _ _ _ fired rfl rfl rfl⟩
      · exact ⟨_, booked_compensate state _ _ _ _ fired rfl rfl rfl⟩
      · exact ⟨_, booked_quiet state _ _ _ fired rfl rfl rfl⟩
  | captureResult outcome =>
      rcases onCaptureResult_cases state outcome with ⟨-, fired⟩ | ⟨-, -, fired⟩ | ⟨-, -, fired⟩
      · exact ⟨_, booked_quiet state _ _ _ fired rfl rfl rfl⟩
      · exact ⟨_, booked_compensate state _ _ _ _ fired rfl rfl rfl⟩
      · exact ⟨_, booked_quiet state _ _ _ fired rfl rfl rfl⟩
  | deadline =>
      rcases onDeadline_cases state with ⟨-, fired⟩ | ⟨-, fired⟩
      · exact ⟨_, booked_quiet state _ _ _ fired rfl rfl rfl⟩
      · exact ⟨_, booked_compensate state _ _ _ _ fired rfl rfl rfl⟩
  | cancelRequested requester =>
      rcases onCancelRequested_cases state requester with ⟨-, fired⟩ | ⟨-, fired⟩
      · exact ⟨_, booked_quiet state _ _ _ fired rfl rfl rfl⟩
      · exact ⟨_, booked_compensate state _ _ _ _ fired rfl rfl rfl⟩
  | compensationDone id =>
      by_cases known : state.pending.any (fun command => command.id == id) = true
      · exact ⟨_, booked_quiet state _ _ [] (if_neg (by simpa using known)) rfl rfl rfl⟩
      · have fired : transitionOf state (.compensationDone id) = noop state :=
          if_pos (by simpa using known)
        refine ⟨_, booked_quiet state _ _ _ fired rfl ?_ rfl⟩
        refine (List.filter_eq_self.mpr ?_).symm
        intro command member
        simp only [decide_eq_true_eq]
        intro same
        exact known (List.any_eq_true.mpr ⟨command, member, by simp [same]⟩)
  | lateAuthorizationContext status =>
      rcases onLateAuthorizationContext_cases state status with
        fired | ⟨-, -, -, fired⟩ | ⟨-, -, -, fired⟩
      · exact ⟨_, booked_quiet state _ _ _ fired rfl rfl rfl⟩
      · exact ⟨_, booked_quiet state _ _ _ fired rfl rfl rfl⟩
      · exact ⟨_, booked_compensate state _ _ _ _ fired rfl rfl rfl⟩

theorem mem_remaining (pending : List CompensationCommand) (event : SagaEvent)
    (command : CompensationCommand) :
    command ∈ remaining pending event ↔
      command ∈ pending ∧ event ≠ .compensationDone command.id := by
  cases event with
  | compensationDone id =>
      simp only [remaining, List.mem_filter, decide_eq_true_eq, ne_eq,
        SagaEvent.compensationDone.injEq]
      exact and_congr_right fun _ => ⟨fun other same => other same.symm,
        fun other same => other same.symm⟩
  | _ => simp [remaining]

structure Numbered (state : CheckoutSagaState) : Prop where
  distinct : (state.pending.map (·.id)).Nodup
  below : ∀ command ∈ state.pending, command.id < state.nextCommandId

theorem numbered_step (state : CheckoutSagaState) (event : SagaEvent) (next : CheckoutSagaState)
    (numbered : Numbered state) (stepped : sagaStep state event = some next) : Numbered next := by
  cases Option.some.inj stepped
  obtain ⟨specs, booked⟩ := books state event
  have old : ∀ command ∈ remaining state.pending event, command.id < state.nextCommandId := by
    intro command kept
    exact numbered.below command ((mem_remaining _ _ _).mp kept).1
  constructor
  · rw [booked.pending, List.map_append, issueFrom_ids, List.nodup_append]
    refine ⟨?_, List.nodup_range', ?_⟩
    · have sublist : (remaining state.pending event).Sublist state.pending := by
        cases event <;> first | exact List.Sublist.refl _ | exact List.filter_sublist
      exact numbered.distinct.sublist (sublist.map _)
    · intro id kept other issued same
      obtain ⟨command, member, rfl⟩ := List.mem_map.mp kept
      have early := old command member
      have late := (List.mem_range'_1.mp issued).1
      omega
  · intro command member
    rw [booked.pending] at member
    rw [booked.next]
    rcases List.mem_append.mp member with kept | issued
    · have early := old command kept
      omega
    · exact (issueFrom_id_ge _ specs command issued).2

/-- A number already given out is pending from then on exactly as long as it was and nobody
has acknowledged it. -/
theorem pending_iff (events : List SagaEvent) (state final : CheckoutSagaState)
    (command : CompensationCommand) (given : command.id < state.nextCommandId)
    (ran : run sagaStep state events = some final) :
    command ∈ final.pending ↔
      command ∈ state.pending ∧ .compensationDone command.id ∉ events := by
  induction events generalizing state with
  | nil =>
      cases Option.some.inj ran
      simp
  | cons event rest ih =>
      obtain ⟨next, stepped, remains⟩ := run_cons_eq_some sagaStep state final event rest ran
      cases Option.some.inj stepped
      obtain ⟨specs, booked⟩ := books state event
      have later : command.id < (transitionOf state event).state.nextCommandId := by
        rw [booked.next]
        omega
      have fresh : command ∉ issueFrom state.nextCommandId specs := by
        intro issued
        have least := (issueFrom_id_ge _ specs command issued).1
        omega
      rw [ih _ later remains, booked.pending, List.mem_append, mem_remaining, List.mem_cons,
        not_or, ne_comm]
      tauto

/-! ## Steps -/

/-- Nothing is pending before the saga compensates or after it has compensated, and a late
run compensates without a pending command until it has read the order. -/
structure Settling (state : CheckoutSagaState) : Prop where
  forward : state.step ≠ .compensating → state.pending = []
  unread : state.orderStatus = none →
    state.mode = .lateAuthorization ∧ state.step = .compensating ∧ state.pending = []

theorem settling_compensate (known : CheckoutSagaState) (first : List SagaCommand)
    (specs : List (CompensationType × CompensationReason)) (read : known.orderStatus ≠ none) :
    Settling (compensate known first specs).state where
  forward := fun elsewhere => absurd rfl elsewhere
  unread := fun unread => absurd unread read

/-- A state that leaves the pending commands alone keeps the law where it is read and not
past its compensations, or has not moved. -/
theorem settling_moved (state next : CheckoutSagaState) (settling : Settling state)
    (pending : next.pending = state.pending) (elsewhere : state.step ≠ .compensating)
    (read : next.orderStatus ≠ none) : Settling next where
  forward := fun _ => pending.trans (settling.forward elsewhere)
  unread := fun unread => absurd unread read

theorem settling_still (state next : CheckoutSagaState) (settling : Settling state)
    (step : next.step = state.step) (status : next.orderStatus = state.orderStatus)
    (mode : next.mode = state.mode) (pending : next.pending = state.pending) : Settling next := by
  constructor
  · rw [step, pending]
    exact settling.forward
  · rw [step, status, mode, pending]
    exact settling.unread

theorem settling_step (state : CheckoutSagaState) (event : SagaEvent) (next : CheckoutSagaState)
    (settling : Settling state) (stepped : sagaStep state event = some next) : Settling next := by
  cases Option.some.inj stepped
  have still : ∀ fired : Transition, fired = noop state → Settling fired.state := by
    intro fired same
    rw [same]
    exact settling
  cases event with
  | tryResult outcome =>
      rcases onTryResult_cases state outcome with
        ⟨-, fired⟩ | ⟨reserving, -, fired⟩ | ⟨-, -, fired⟩
      · exact still _ fired
      · rw [show transitionOf state (.tryResult outcome) = _ from fired]
        exact settling_moved state _ settling rfl (by simp [reserving]) (by simp)
      · rw [show transitionOf state (.tryResult outcome) = _ from fired]
        exact settling_compensate _ _ _ (by simp)
  | authorized authorization totalMinor currency =>
      rcases onAuthorized_cases state authorization totalMinor currency with
        ⟨verifying, voided, commands, fired, -⟩ | ⟨compensating, read, fired⟩
      · rw [show transitionOf state (.authorized authorization totalMinor currency) = _ from fired]
        exact settling_still state _ settling rfl rfl rfl rfl
      · rw [show transitionOf state (.authorized authorization totalMinor currency) = _ from fired]
        apply settling_compensate
        intro unread
        exact read (settling.unread unread).1 unread
  | authorizationVerified authorization verdict =>
      rcases onAuthorizationVerified_cases state authorization verdict with
        ⟨verifying, fired, -⟩ | ⟨awaiting, -, fired⟩
      · rw [show transitionOf state (.authorizationVerified authorization verdict) = _ from fired]
        exact settling_still state _ settling rfl rfl rfl rfl
      · rw [show transitionOf state (.authorizationVerified authorization verdict) = _ from fired]
        exact settling_moved state _ settling rfl (by simp [awaiting]) (by simp)
  | commitResult outcome =>
      rcases onCommitResult_cases state outcome with
        ⟨-, fired⟩ | ⟨-, -, fired⟩ | ⟨committing, -, fired⟩
      · exact still _ fired
      · rw [show transitionOf state (.commitResult outcome) = _ from fired]
        exact settling_compensate _ _ _ (by simp)
      · rw [show transitionOf state (.commitResult outcome) = _ from fired]
        refine settling_moved state _ settling rfl (by simp [committing]) ?_
        intro unread
        have compensating := (settling.unread unread).2.1
        simp [committing] at compensating
  | captureResult outcome =>
      rcases onCaptureResult_cases state outcome with
        ⟨-, fired⟩ | ⟨-, -, fired⟩ | ⟨capturing, -, fired⟩
      · exact still _ fired
      · rw [show transitionOf state (.captureResult outcome) = _ from fired]
        exact settling_compensate _ _ _ (by simp)
      · rw [show transitionOf state (.captureResult outcome) = _ from fired]
        exact settling_moved state _ settling rfl (by simp [capturing]) (by simp)
  | deadline =>
      rcases onDeadline_cases state with ⟨-, fired⟩ | ⟨-, fired⟩
      · exact still _ fired
      · rw [show transitionOf state .deadline = _ from fired]
        exact settling_compensate _ _ _ (by simp)
  | cancelRequested requester =>
      rcases onCancelRequested_cases state requester with ⟨-, fired⟩ | ⟨-, fired⟩
      · exact still _ fired
      · rw [show transitionOf state (.cancelRequested requester) = _ from fired]
        exact settling_compensate _ _ _ (by simp)
  | compensationDone id =>
      rcases onCompensationDone_cases state id with fired | ⟨waiting, pending, step, fired, moved⟩
      · exact still _ fired
      · have compensating : state.step = .compensating := by
          by_contra elsewhere
          exact waiting (settling.forward elsewhere)
        have read : state.orderStatus ≠ none := by
          intro unread
          exact waiting (settling.unread unread).2.2
        rw [show transitionOf state (.compensationDone id) = _ from fired]
        refine ⟨?_, fun unread => absurd unread read⟩
        intro elsewhere
        rcases moved with ⟨-, empty⟩ | same
        · exact empty
        · exact absurd (same.trans compensating) elsewhere
  | lateAuthorizationContext status =>
      rcases onLateAuthorizationContext_cases state status with
        fired | ⟨-, unread, -, fired⟩ | ⟨-, -, -, fired⟩
      · exact still _ fired
      · rw [show transitionOf state (.lateAuthorizationContext status) = _ from fired]
        exact ⟨fun _ => (settling.unread unread).2.2, fun none => by cases none⟩
      · rw [show transitionOf state (.lateAuthorizationContext status) = _ from fired]
        exact settling_compensate _ _ _ (by simp)

theorem settling_initial (mode : CheckoutSagaMode) : Settling (initialCheckoutSagaState mode) := by
  cases mode <;> constructor <;> simp [initialCheckoutSagaState]

theorem numbered_initial (mode : CheckoutSagaMode) : Numbered (initialCheckoutSagaState mode) := by
  constructor <;> simp [initialCheckoutSagaState]

/-! ## Voids of late authorizations -/

def CompensationCommand.isLateVoid (command : CompensationCommand) : Bool :=
  command.type == .cancelPayment && command.reason == .lateAuthorization

/-- The payments an event has voided as authorized too late: the one it announces, or those
announced to a late run before it read the order. -/
def voidedBy (state : CheckoutSagaState) (event : SagaEvent) : List Nat :=
  if (compensationsIn (transitionOf state event).commands).any (·.isLateVoid) then
    match event with
    | .authorized authorization _ _ => [authorization.paymentId]
    | .lateAuthorizationContext _ => state.voided
    | _ => []
  else []

def voids : CheckoutSagaState → List SagaEvent → List Nat
  | _, [] => []
  | state, event :: rest => voidedBy state event ++ voids (transitionOf state event).state rest

structure Voided (state : CheckoutSagaState) (past : List Nat) : Prop where
  once : past.Nodup
  seen : ∀ paymentId ∈ past, paymentId ∈ state.voided
  listed : state.voided.Nodup
  unread : state.orderStatus = none → past = []

/-- An event that voids nothing keeps the law where it forgets no payment and no order. -/
theorem voided_quiet (state next : CheckoutSagaState) (past : List Nat)
    (voided : Voided state past) (kept : next.voided = state.voided)
    (read : next.orderStatus = none → state.orderStatus = none) : Voided next past where
  once := voided.once
  seen := by
    rw [kept]
    exact voided.seen
  listed := by
    rw [kept]
    exact voided.listed
  unread := fun unread => voided.unread (read unread)

theorem transition_voided (state : CheckoutSagaState) (event : SagaEvent)
    (other : ∀ authorization totalMinor currency,
      event ≠ .authorized authorization totalMinor currency) :
    (transitionOf state event).state.voided = state.voided ∧
      ((transitionOf state event).state.orderStatus = none → state.orderStatus = none) := by
  cases event with
  | tryResult outcome =>
      rcases onTryResult_cases state outcome with ⟨-, fired⟩ | ⟨-, -, fired⟩ | ⟨-, -, fired⟩ <;>
        simp [transitionOf, fired, noop, compensate]
  | authorized authorization totalMinor currency => exact absurd rfl (other _ _ _)
  | authorizationVerified authorization verdict =>
      rcases onAuthorizationVerified_cases state authorization verdict with
        ⟨verifying, fired, -⟩ | ⟨-, -, fired⟩ <;> simp [transitionOf, fired]
  | commitResult outcome =>
      rcases onCommitResult_cases state outcome with ⟨-, fired⟩ | ⟨-, -, fired⟩ | ⟨-, -, fired⟩ <;>
        simp [transitionOf, fired, noop, compensate]
  | captureResult outcome =>
      rcases onCaptureResult_cases state outcome with ⟨-, fired⟩ | ⟨-, -, fired⟩ | ⟨-, -, fired⟩ <;>
        simp [transitionOf, fired, noop, compensate]
  | deadline =>
      rcases onDeadline_cases state with ⟨-, fired⟩ | ⟨-, fired⟩ <;>
        simp [transitionOf, fired, noop, compensate]
  | cancelRequested requester =>
      rcases onCancelRequested_cases state requester with ⟨-, fired⟩ | ⟨-, fired⟩ <;>
        simp [transitionOf, fired, noop, compensate]
  | compensationDone id =>
      rcases onCompensationDone_cases state id with fired | ⟨-, pending, step, fired, -⟩ <;>
        simp [transitionOf, fired, noop]
  | lateAuthorizationContext status =>
      rcases onLateAuthorizationContext_cases state status with
        fired | ⟨-, -, -, fired⟩ | ⟨-, -, -, fired⟩ <;>
        simp [transitionOf, fired, noop, compensate]

/-- An announced authorization voids nothing, is noted for later, or is voided at once; the
last two only the first time. -/
theorem onAuthorized_voids (state : CheckoutSagaState) (authorization : PaymentAuthorization)
    (totalMinor : Int) (currency : String) :
    (∃ verifying commands, compensationsIn commands = [] ∧
      (onAuthorized state authorization totalMinor currency).transition =
        ⟨{ state with verifying := verifying }, commands⟩) ∨
    (authorization.paymentId ∉ state.voided ∧ state.orderStatus = none ∧
      (onAuthorized state authorization totalMinor currency).transition =
        ⟨{ state with voided := state.voided ++ [authorization.paymentId] }, []⟩) ∨
    (authorization.paymentId ∉ state.voided ∧
      ¬(state.mode = .lateAuthorization ∧ state.orderStatus = none) ∧
      (onAuthorized state authorization totalMinor currency).transition =
        compensate { state with voided := state.voided ++ [authorization.paymentId] } []
          [(.cancelPayment, .lateAuthorization)]) := by
  unfold onAuthorized
  simp only [ignored]
  split_ifs with compensating seen unread elsewhere mismatch running
  · exact .inl ⟨state.verifying, [], rfl, rfl⟩
  · exact .inr (.inl ⟨seen, unread.2, rfl⟩)
  · exact .inr (.inr ⟨seen, unread, rfl⟩)
  · exact .inl ⟨state.verifying, [], rfl, rfl⟩
  · exact .inl ⟨state.verifying, [], rfl, rfl⟩
  · exact .inl ⟨state.verifying, [], rfl, rfl⟩
  · exact .inl ⟨_, _, rfl, rfl⟩

theorem nodup_snoc (past : List Nat) (added : Nat) (once : past.Nodup) (fresh : added ∉ past) :
    (past ++ [added]).Nodup := by
  rw [List.nodup_append]
  refine ⟨once, by simp, ?_⟩
  intro old member new here same
  rw [List.mem_singleton.mp here] at same
  exact fresh (same ▸ member)

theorem voidedBy_nothing (state : CheckoutSagaState) (event : SagaEvent)
    (plain : compensationsIn (transitionOf state event).commands = []) :
    voidedBy state event = [] := by
  unfold voidedBy
  rw [plain]
  rfl

theorem voided_authorized (state : CheckoutSagaState) (past : List Nat)
    (authorization : PaymentAuthorization) (totalMinor : Int) (currency : String)
    (settling : Settling state) (voided : Voided state past) :
    Voided (transitionOf state (.authorized authorization totalMinor currency)).state
      (past ++ voidedBy state (.authorized authorization totalMinor currency)) := by
  rcases onAuthorized_voids state authorization totalMinor currency with
    ⟨verifying, commands, plain, fired⟩ | ⟨fresh, unread, fired⟩ | ⟨fresh, read, fired⟩
  · have nothing := voidedBy_nothing state (.authorized authorization totalMinor currency) (by
      rw [show transitionOf state (.authorized authorization totalMinor currency) = _ from fired]
      exact plain)
    rw [nothing, List.append_nil,
      show transitionOf state (.authorized authorization totalMinor currency) = _ from fired]
    exact voided_quiet state _ past voided rfl id
  · -- noted only: the run has yet to read the order
    have nothing := voidedBy_nothing state (.authorized authorization totalMinor currency) (by
      rw [show transitionOf state (.authorized authorization totalMinor currency) = _ from fired]
      rfl)
    rw [nothing, List.append_nil, voided.unread unread,
      show transitionOf state (.authorized authorization totalMinor currency) = _ from fired]
    exact ⟨List.nodup_nil, by simp, nodup_snoc _ _ voided.listed fresh, fun _ => rfl⟩
  · have this : voidedBy state (.authorized authorization totalMinor currency) =
        [authorization.paymentId] := by
      unfold voidedBy
      rw [show transitionOf state (.authorized authorization totalMinor currency) = _ from fired]
      rfl
    have new : authorization.paymentId ∉ past := fun old => fresh (voided.seen _ old)
    rw [this, show transitionOf state (.authorized authorization totalMinor currency) =
      _ from fired]
    refine ⟨nodup_snoc past _ voided.once new, ?_, nodup_snoc _ _ voided.listed fresh, ?_⟩
    · intro paymentId member
      rcases List.mem_append.mp member with old | here
      · exact List.mem_append_left _ (voided.seen paymentId old)
      · exact List.mem_append_right _ here
    · intro unread
      exact absurd ⟨(settling.unread unread).1, unread⟩ read

theorem voided_context (state : CheckoutSagaState) (past : List Nat) (status : Option OrderStatus)
    (voided : Voided state past) :
    Voided (transitionOf state (.lateAuthorizationContext status)).state
      (past ++ voidedBy state (.lateAuthorizationContext status)) := by
  rcases onLateAuthorizationContext_cases state status with
    fired | ⟨-, unread, -, fired⟩ | ⟨-, unread, -, fired⟩
  · have nothing := voidedBy_nothing state (.lateAuthorizationContext status) (by
      rw [show transitionOf state (.lateAuthorizationContext status) = _ from fired]
      rfl)
    rw [nothing, List.append_nil,
      show transitionOf state (.lateAuthorizationContext status) = _ from fired]
    exact voided
  · have nothing := voidedBy_nothing state (.lateAuthorizationContext status) (by
      rw [show transitionOf state (.lateAuthorizationContext status) = _ from fired]
      rfl)
    rw [nothing, List.append_nil,
      show transitionOf state (.lateAuthorizationContext status) = _ from fired]
    exact voided_quiet state _ past voided rfl (fun _ => unread)
  · have this : voidedBy state (.lateAuthorizationContext status) = state.voided := by
      unfold voidedBy
      rw [show transitionOf state (.lateAuthorizationContext status) = _ from fired]
      rfl
    rw [this, voided.unread unread, List.nil_append,
      show transitionOf state (.lateAuthorizationContext status) = _ from fired]
    exact ⟨voided.listed, fun _ member => member, voided.listed, fun known => by cases known⟩

theorem voided_other (state : CheckoutSagaState) (past : List Nat) (event : SagaEvent)
    (unannounced : ∀ authorization totalMinor currency,
      event ≠ .authorized authorization totalMinor currency)
    (unread : ∀ status, event ≠ .lateAuthorizationContext status) (voided : Voided state past) :
    Voided (transitionOf state event).state (past ++ voidedBy state event) := by
  have nothing : voidedBy state event = [] := by
    unfold voidedBy
    split
    · cases event with
      | authorized authorization totalMinor currency => exact absurd rfl (unannounced _ _ _)
      | lateAuthorizationContext status => exact absurd rfl (unread status)
      | _ => rfl
    · rfl
  obtain ⟨kept, read⟩ := transition_voided state event unannounced
  rw [nothing, List.append_nil]
  exact voided_quiet state _ past voided kept read

theorem voided_step (state : CheckoutSagaState) (past : List Nat) (event : SagaEvent)
    (settling : Settling state) (voided : Voided state past) :
    Voided (transitionOf state event).state (past ++ voidedBy state event) := by
  cases event with
  | authorized authorization totalMinor currency =>
      exact voided_authorized state past authorization totalMinor currency settling voided
  | lateAuthorizationContext status => exact voided_context state past status voided
  | tryResult | authorizationVerified | commitResult | captureResult | deadline |
    cancelRequested | compensationDone =>
      apply voided_other <;> simp [voided]

theorem voids_once (events : List SagaEvent) (state : CheckoutSagaState) (past : List Nat)
    (settling : Settling state) (voided : Voided state past) :
    (past ++ voids state events).Nodup := by
  induction events generalizing state past with
  | nil =>
      rw [voids, List.append_nil]
      exact voided.once
  | cons event rest ih =>
      rw [voids, ← List.append_assoc]
      apply ih
      · exact settling_step state event _ settling rfl
      · exact voided_step state past event settling voided

theorem voided_initial (mode : CheckoutSagaMode) : Voided (initialCheckoutSagaState mode) [] := by
  cases mode <;> constructor <;> simp [initialCheckoutSagaState]

/-! ## The books -/

structure Bookkeeping (mode : CheckoutSagaMode) (events : List SagaEvent)
    (final : CheckoutSagaState) : Prop where
  distinct : (final.pending.map (·.id)).Nodup
  below : ∀ command ∈ final.pending, command.id < final.nextCommandId
  untilAcknowledged : ∀ before event after now command, events = before ++ event :: after →
    run sagaStep (initialCheckoutSagaState mode) before = some now →
    command ∈ compensationsIn (transitionOf now event).commands →
      (command ∈ final.pending ↔ .compensationDone command.id ∉ after)
  compensated : final.step = .compensated → final.pending = []
  voidedOnce : (voids (initialCheckoutSagaState mode) events).Nodup

/-- An issued compensation is pending from the event that issued it until its own is done. -/
theorem issued_until_acknowledged (events before after : List SagaEvent) (event : SagaEvent)
    (state now final : CheckoutSagaState) (command : CompensationCommand)
    (ran : run sagaStep state events = some final) (parts : events = before ++ event :: after)
    (reached : run sagaStep state before = some now)
    (issued : command ∈ compensationsIn (transitionOf now event).commands) :
    command ∈ final.pending ↔ .compensationDone command.id ∉ after := by
  rw [parts, run_append, reached] at ran
  obtain ⟨next, stepped, remains⟩ := run_cons_eq_some sagaStep now final event after ran
  cases Option.some.inj stepped
  obtain ⟨specs, booked⟩ := books now event
  rw [booked.issued] at issued
  have given : command.id < (transitionOf now event).state.nextCommandId := by
    rw [booked.next]
    exact (issueFrom_id_ge _ specs command issued).2
  have listed : command ∈ (transitionOf now event).state.pending := by
    rw [booked.pending]
    exact List.mem_append_right _ issued
  rw [pending_iff after _ final command given remains]
  exact and_iff_right listed

theorem bookkeeping (mode : CheckoutSagaMode) (events : List SagaEvent)
    (final : CheckoutSagaState)
    (ran : run sagaStep (initialCheckoutSagaState mode) events = some final) :
    Bookkeeping mode events final := by
  have numbered := run_preserves sagaStep Numbered numbered_step events _ final
    (numbered_initial mode) ran
  have settling := run_preserves sagaStep Settling settling_step events _ final
    (settling_initial mode) ran
  constructor
  · exact numbered.distinct
  · exact numbered.below
  · intro before event after now command parts reached issued
    exact issued_until_acknowledged events before after event _ now final command ran parts
      reached issued
  · intro step
    apply settling.forward
    simp [step]
  · exact voids_once events _ [] (settling_initial mode) (voided_initial mode)

end Commerce.Saga
