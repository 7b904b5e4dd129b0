import Commerce.Inventory.OrderEffect

/-!
# Exactness of the stock participant, order by order

However the steps of one order are repeated and reordered, the levels carry its
quantity exactly as its header says.  A repeated command has no effect, and a
released order holds nothing ever again: its Try is refused even when it
arrives after the release.
-/

set_option autoImplicit false

namespace Commerce.Inventory

open Tables
open Results
open Runs

/-! ## Where a command leaves the header -/

/-- Where the header stands once the command has been applied, and ever after. -/
def AppliedStatus (command : LineTransition) (status : Option ReservationOrderStatus) : Prop :=
  match command with
  | .commit => status = some .committed ∨ status = some .restocked
  | .release => status = some .released ∨ status = some .fenced
  | .restock => status = some .restocked

theorem appliedStatus_closed (command : LineTransition)
    (status next : Option ReservationOrderStatus) (here : AppliedStatus command status)
    (edge : HeaderEdge status next) : AppliedStatus command next := by
  cases command with
  | commit =>
      rcases here with rfl | rfl
      · cases next with
        | none => cases edge
        | some next => cases next <;> first | exact .inl rfl | exact .inr rfl | cases edge
      · exact .inr edge.symm
  | release =>
      rcases here with rfl | rfl
      · exact .inl edge.symm
      · exact .inr edge.symm
  | restock =>
      cases here
      exact edge.symm

theorem resolved_status (stock moved : Stock) (orderId : Nat) (transition : LineTransition)
    (header : ReservationOrder) (inv : Ledger stock)
    (found : stock.findHeader orderId = some header)
    (success : moveLines stock orderId transition = .ok moved) :
    (moved.setHeaderStatus orderId transition.target.header).statusOf orderId =
      some transition.target.header := by
  have own := moveLines_own stock moved orderId transition inv.toBalanced success
  rw [statusOf_setHeaderStatus, statusOf_of_headers stock moved own.headers]
  simp [Stock.statusOf, found]

theorem command_applied (stock next : Stock) (command : LineTransition) (orderId : Nat)
    (inv : Ledger stock)
    (success : commandTransaction stock command orderId = .ok (.applied, next)) :
    AppliedStatus command (next.statusOf orderId) := by
  unfold commandTransaction at success
  split at success
  · rename_i absent
    split_ifs at success with releasing
    · cases success
      have inserted : stock.insertHeaderRow ⟨orderId, .fenced, none⟩ =
          (true, (stock.insertFencedHeader orderId).2) := by
        simp [Stock.insertFencedHeader, Stock.insertHeaderRow, absent]
      have present := (statusOf_insertHeaderRow stock _ _ orderId inserted).2
      rw [releasing]
      exact .inr (present.trans (if_pos rfl))
    · split at success <;> cases success
  · rename_i header found
    split at success
    · rename_i status applies
      obtain ⟨moved, resolved, same⟩ := (bind_eq_ok _ _ _).mp success
      cases same
      obtain ⟨-, rfl⟩ := fence_apply command header.status status applies
      have stands := resolved_status stock moved orderId command header inv found resolved
      cases command with
      | commit => exact .inl stands
      | release => exact .inl stands
      | restock => exact stands
    · cases success
    · cases success

/-- A release that is answered leaves the order released or fenced, applied or not. -/
theorem release_answered (stock next : Stock) (orderId : Nat)
    (outcome : ParticipantCommandOutcome) (answered : outcome ≠ .conflict) (inv : Ledger stock)
    (success : commandTransaction stock .release orderId = .ok (outcome, next)) :
    AppliedStatus .release (next.statusOf orderId) := by
  cases outcome with
  | applied => exact command_applied stock next .release orderId inv success
  | conflict => exact absurd rfl answered
  | idempotent =>
      unfold commandTransaction at success
      split at success
      · cases success
      · rename_i header found
        have current : stock.statusOf orderId = some header.status := by
          simp [Stock.statusOf, found]
        cases status : header.status <;> rw [status] at success current
        · obtain ⟨moved, -, same⟩ := (bind_eq_ok _ _ _).mp success
          cases same
        · cases success
        · cases success
          exact .inl current
        · cases success
          exact .inr current
        · cases success

theorem sweep_released (stock next : Stock) (orderId : Nat) (now : Int) (inv : Ledger stock)
    (success : sweepTransaction stock orderId now = .ok (true, next)) :
    AppliedStatus .release (next.statusOf orderId) := by
  unfold sweepTransaction at success
  split at success
  · cases success
  · rename_i header found
    split_ifs at success with lapsed
    · obtain ⟨moved, resolved, same⟩ := (bind_eq_ok _ _ _).mp success
      cases same
      exact .inl (resolved_status stock moved orderId .release header inv found resolved)
    · cases success

/-! ## Repeats -/

/-- The answer to a repeat of an applied command: only a commit whose order was restocked in
the meantime is refused. -/
def repeatOutcome (command : LineTransition) (status : Option ReservationOrderStatus) :
    ParticipantCommandOutcome :=
  if command = .commit ∧ status = some .restocked then .conflict else .idempotent

theorem command_repeated (stock : Stock) (command : LineTransition) (orderId : Nat)
    (stands : AppliedStatus command (stock.statusOf orderId)) :
    commandTransaction stock command orderId =
      .ok (repeatOutcome command (stock.statusOf orderId), stock) := by
  cases found : stock.findHeader orderId with
  | none =>
      have absent : stock.statusOf orderId = none := by simp [Stock.statusOf, found]
      rw [absent] at stands
      cases command <;> simp [AppliedStatus] at stands
  | some header =>
      have current : stock.statusOf orderId = some header.status := by simp [Stock.statusOf, found]
      rw [current] at stands ⊢
      cases command with
      | commit =>
          rcases stands with stands | stands <;>
            simp [commandTransaction, found, Option.some.inj stands, decideReservationFence,
              LineTransition.op, repeatOutcome]
      | release =>
          rcases stands with stands | stands <;>
            simp [commandTransaction, found, Option.some.inj stands, decideReservationFence,
              LineTransition.op, repeatOutcome]
      | restock =>
          simp [commandTransaction, found, Option.some.inj stands, decideReservationFence,
            LineTransition.op, repeatOutcome]

theorem tryReserve_again (strategy : LockStrategy) (maxRetries : Nat) (stock : Stock)
    (input : TryInput) (status : ReservationOrderStatus)
    (current : stock.statusOf input.orderId = some status) :
    tryReserve strategy maxRetries stock input =
      (.ok (if status = .held then .reserved else .conflict), stock) := by
  obtain ⟨header, found, same⟩ := Option.map_eq_some_iff.mp current
  have refused : stock.insertHeader input.orderId input.holdUntil = (false, stock) := by
    simp [Stock.insertHeader, Stock.insertHeaderRow, found]
  have answer : tryTransaction strategy maxRetries stock input =
      .ok (if status = .held then .reserved else .conflict, stock) := by
    unfold tryTransaction
    rw [refused]
    cases status <;> simp [found, same, decideReservationFence]
  simp only [tryReserve, answer]

theorem tryReserve_reserved (strategy : LockStrategy) (maxRetries : Nat) (stock : Stock)
    (input : TryInput) (reserved : (tryReserve strategy maxRetries stock input).1 = .ok .reserved) :
    (tryReserve strategy maxRetries stock input).2.statusOf input.orderId = some .held := by
  cases current : stock.statusOf input.orderId with
  | some status =>
      rw [tryReserve_again strategy maxRetries stock input status current] at reserved ⊢
      cases status with
      | held => exact current
      | _ => cases reserved
  | none =>
      have absent : stock.findHeader input.orderId = none := Option.map_eq_none_iff.mp current
      have inserted : stock.insertHeaderRow ⟨input.orderId, .held, some input.holdUntil⟩ =
          (true, (stock.insertHeader input.orderId input.holdUntil).2) := by
        simp [Stock.insertHeader, Stock.insertHeaderRow, absent]
      have present := (statusOf_insertHeaderRow stock _ _ input.orderId inserted).2
      unfold tryReserve at reserved ⊢
      cases success : tryTransaction strategy maxRetries stock input with
      | error error => cases error <;> simp [success] at reserved
      | ok answer =>
          unfold tryTransaction at success
          rw [show stock.insertHeader input.orderId input.holdUntil =
            (true, (stock.insertHeader input.orderId input.holdUntil).2) from inserted] at success
          obtain ⟨next, lines, same⟩ := (bind_eq_ok _ _ _).mp success
          cases same
          have own : OwnStep (stock.insertHeader input.orderId input.holdUntil).2 next
              input.orderId fun _ => 0 := by
            cases strategy with
            | pessimistic => exact reservePessimistic_own _ next _ _ _ _ lines
            | optimistic => exact reserveOptimistic_own maxRetries _ next _ _ _ _ _ lines
          exact (statusOf_of_headers _ next own.headers _).trans (present.trans (if_pos rfl))

theorem headerEdge_kept (status next : Option ReservationOrderStatus) (present : status ≠ none)
    (edge : HeaderEdge status next) : next ≠ none := by
  rintro rfl
  cases status with
  | none => exact present rfl
  | some status => cases status <;> cases edge

/-! ## What the clamp keeps -/

theorem clampedBy_nonneg (stock : Stock) (operation : Operation) (variantId : Nat) :
    0 ≤ clampedBy stock operation variantId := by
  unfold clampedBy
  split
  · split
    · unfold LineTransition.clamped
      split
      · refine tally_nonneg _ _ fun row _ => ?_
        unfold clampedAmount
        split <;> omega
      · exact le_refl 0
    · exact le_refl 0
  · exact le_refl 0

/-- The clamp is met by a restock alone, which leaves its order restocked. -/
theorem clampedBy_restocked (maxRetries : Nat) (stock : Stock) (operation : Operation)
    (orderId variantId : Nat) (inv : Ledger stock) (about : operation.about = some orderId)
    (kept : clampedBy stock operation variantId ≠ 0) :
    (perform maxRetries stock operation).statusOf orderId = some .restocked := by
  cases operation with
  | command command other =>
      cases about
      simp only [clampedBy] at kept
      split at kept
      · rename_i next success
        cases command with
        | restock =>
            have stands := command_applied stock next .restock orderId inv success
            simp only [perform, success]
            exact stands
        | commit => exact absurd rfl kept
        | release => exact absurd rfl kept
      · exact absurd rfl kept
  | _ => exact absurd rfl kept

theorem ownClamped_of_run (maxRetries orderId variantId : Nat) (executions : List Execution)
    (stock final : Stock) (inv : Ledger stock)
    (ran : run (step maxRetries) stock executions = some final) :
    0 ≤ ownClamped maxRetries orderId variantId stock executions ∧
      (ownClamped maxRetries orderId variantId stock executions ≠ 0 →
        final.statusOf orderId = some .restocked) := by
  induction executions generalizing stock with
  | nil => exact ⟨le_refl 0, fun kept => absurd rfl kept⟩
  | cons execution rest ih =>
      obtain ⟨next, stepped, remaining⟩ := run_cons_eq_some _ stock final execution rest ran
      cases step_after maxRetries stock next execution stepped
      have inv' := after_ledger maxRetries stock execution inv
      obtain ⟨laterNonneg, laterRestocked⟩ := ih _ inv' remaining
      rw [ownClamped]
      split
      · rename_i own
        have nonneg := clampedBy_nonneg stock execution.operation variantId
        refine ⟨by omega, fun kept => ?_⟩
        by_cases here : clampedBy stock execution.operation variantId = 0
        · exact laterRestocked (by omega)
        · have done : after maxRetries stock execution =
              perform maxRetries stock execution.operation := by simp [after, own.2]
          refine status_within maxRetries orderId (AppliedStatus .restock)
            (appliedStatus_closed .restock) rest _ final inv' ?_ remaining
          rw [done]
          exact clampedBy_restocked maxRetries stock execution.operation orderId variantId inv
            own.1 here
      · exact ⟨by omega, fun kept => laterRestocked (by omega)⟩

/-! ## The exactness of an order -/

structure ExactEffect (maxRetries orderId : Nat) (executions : List Execution) (stock : Stock)
    (variantId : Nat) : Prop where
  onHand : ownEffect (·.onHand variantId) maxRetries orderId emptyStock executions =
    -(if stock.statusOf orderId = some .committed then stock.quantityOf orderId variantId else 0) -
      ownClamped maxRetries orderId variantId emptyStock executions
  reserved : ownEffect (·.reserved variantId) maxRetries orderId emptyStock executions =
    if stock.statusOf orderId = some .held then stock.quantityOf orderId variantId else 0
  clamp : 0 ≤ ownClamped maxRetries orderId variantId emptyStock executions
  clampMet : ownClamped maxRetries orderId variantId emptyStock executions ≠ 0 →
    stock.statusOf orderId = some .restocked

theorem exactEffect_of_run (maxRetries orderId variantId : Nat) (executions : List Execution)
    (stock : Stock) (ran : run (step maxRetries) emptyStock executions = some stock) :
    ExactEffect maxRetries orderId executions stock variantId := by
  have inv : Ledger stock := run_preserves (step maxRetries) Ledger (step_ledger maxRetries)
    executions emptyStock stock emptyStock_ledger ran
  obtain ⟨reserved, onHand⟩ :=
    ownEffect_of_run maxRetries orderId variantId executions emptyStock stock emptyStock_ledger ran
  obtain ⟨clamp, clampMet⟩ :=
    ownClamped_of_run maxRetries orderId variantId executions emptyStock stock emptyStock_ledger ran
  have unheld : emptyStock.quantityIn .held orderId variantId = 0 := rfl
  have unsold : emptyStock.quantityIn .committed orderId variantId = 0 := rfl
  refine ⟨?_, ?_, clamp, clampMet⟩
  · rw [onHand, unsold, quantityIn_of_ledger stock orderId variantId .committed inv, Int.zero_sub]
    rfl
  · rw [reserved, unheld, quantityIn_of_ledger stock orderId variantId .held inv, Int.sub_zero]
    rfl

def Released (stock next : Stock) (orderId : Nat) : Prop :=
  (∃ outcome, outcome ≠ .conflict ∧
    commandTransaction stock .release orderId = .ok (outcome, next)) ∨
  ∃ now, sweepTransaction stock orderId now = .ok (true, next)

/-- After a release no Try of the order holds stock, whenever it arrives. -/
theorem try_after_release (maxRetries orderId : Nat) (stock next later : Stock)
    (more : List Execution) (inv : Ledger stock) (released : Released stock next orderId)
    (ran : run (step maxRetries) next more = some later) (strategy : LockStrategy)
    (input : TryInput) (about : input.orderId = orderId) :
    tryReserve strategy maxRetries later input = (.ok .conflict, later) ∧
      ∀ variantId, later.quantityIn .held orderId variantId = 0 := by
  have nextInv : Ledger next := by
    rcases released with ⟨outcome, -, success⟩ | ⟨now, success⟩
    · exact command_ledger stock next .release orderId outcome inv success
    · exact sweep_ledger stock next orderId now true inv success
  have stands : AppliedStatus .release (next.statusOf orderId) := by
    rcases released with ⟨outcome, answered, success⟩ | ⟨now, success⟩
    · exact release_answered stock next orderId outcome answered inv success
    · exact sweep_released stock next orderId now inv success
  have laterInv : Ledger later := run_preserves (step maxRetries) Ledger (step_ledger maxRetries)
    more next later nextInv ran
  have remains := status_within maxRetries orderId (AppliedStatus .release)
    (appliedStatus_closed .release) more next later nextInv stands ran
  refine ⟨?_, fun variantId => ?_⟩
  · rcases remains with remains | remains <;>
      exact tryReserve_again strategy maxRetries later input _ (about ▸ remains)
  · rw [quantityIn_of_ledger later orderId variantId .held laterInv]
    rcases remains with remains | remains <;> rw [remains] <;> exact if_neg (by decide)

/-- After any steps, the order's own have moved the levels as its header says, a repeat of an
applied command has no effect, and a Try after a release holds nothing. -/
theorem order_effect_exact (maxRetries orderId : Nat) (executions : List Execution)
    (stock : Stock) (ran : run (step maxRetries) emptyStock executions = some stock) :
    (∀ variantId, ExactEffect maxRetries orderId executions stock variantId) ∧
    (∀ command next more later,
      commandTransaction stock command orderId = .ok (.applied, next) →
      run (step maxRetries) next more = some later →
      commandTransaction later command orderId =
        .ok (repeatOutcome command (later.statusOf orderId), later)) ∧
    (∀ strategy input more later, input.orderId = orderId →
      (tryReserve strategy maxRetries stock input).1 = .ok .reserved →
      run (step maxRetries) (tryReserve strategy maxRetries stock input).2 more = some later →
      ∀ strategy' input', input'.orderId = orderId →
        tryReserve strategy' maxRetries later input' =
          (.ok (if later.statusOf orderId = some .held then .reserved else .conflict), later)) ∧
    ∀ next more later, Released stock next orderId →
      run (step maxRetries) next more = some later →
      ∀ strategy input, input.orderId = orderId →
        tryReserve strategy maxRetries later input = (.ok .conflict, later) ∧
          ∀ variantId, later.quantityIn .held orderId variantId = 0 := by
  have inv : Ledger stock := run_preserves (step maxRetries) Ledger (step_ledger maxRetries)
    executions emptyStock stock emptyStock_ledger ran
  refine ⟨fun variantId => exactEffect_of_run maxRetries orderId variantId executions stock ran,
    ?_, ?_, ?_⟩
  · intro command next more later success onward
    have nextInv := command_ledger stock next command orderId .applied inv success
    have stands := command_applied stock next command orderId inv success
    exact command_repeated later command orderId
      (status_within maxRetries orderId (AppliedStatus command) (appliedStatus_closed command)
        more next later nextInv stands onward)
  · intro strategy input more later about reserved onward strategy' input' about'
    have held := tryReserve_reserved strategy maxRetries stock input reserved
    rw [about] at held
    have nextInv := (tryReserve_ledger strategy maxRetries stock input inv).1
    have kept := status_within maxRetries orderId (fun status => status ≠ none)
      headerEdge_kept more _ later nextInv (by rw [held]; simp) onward
    obtain ⟨status, current⟩ := Option.ne_none_iff_exists'.mp kept
    rw [tryReserve_again strategy' maxRetries later input' status (about' ▸ current), current]
    simp
  · intro next more later released onward strategy input about
    exact try_after_release maxRetries orderId stock next later more inv released onward strategy
      input about

/-- A level near the column's limit, a commit repeated, a restock that meets the clamp, and a Try
that arrives after the release of another order. -/
def exactExecutions : List Execution :=
  [ ⟨.setOnHand 5 2147483647, false⟩,
    ⟨.tryReserve .pessimistic ⟨1, [⟨5, 4⟩], 100, [20], []⟩, false⟩,
    ⟨.command .commit 1, false⟩, ⟨.command .commit 1, false⟩,
    ⟨.setOnHand 5 2147483646, false⟩, ⟨.command .restock 1, false⟩,
    ⟨.command .release 2, false⟩,
    ⟨.tryReserve .optimistic ⟨2, [⟨5, 1⟩], 100, [21], [[some ⟨2147483646, 0, 9⟩]]⟩, false⟩ ]

theorem order_effect_exact_clamped :
    ∃ stock, run (step 3) emptyStock exactExecutions = some stock ∧
      stock.statusOf 1 = some .restocked ∧
      ownEffect (·.onHand 5) 3 1 emptyStock exactExecutions = -3 ∧
      ownClamped 3 1 5 emptyStock exactExecutions = 3 ∧
      tryReserve .pessimistic 3 stock ⟨2, [⟨5, 1⟩], 100, [22], []⟩ = (.ok .conflict, stock) := by
  have exact := order_effect_exact 3 1 exactExecutions _ rfl
  have clamped : ownClamped 3 1 5 emptyStock exactExecutions = 3 := by decide +kernel
  have onHand := (exact.1 5).onHand
  refine ⟨_, rfl, by decide +kernel, ?_, clamped, ?_⟩
  · rw [onHand, clamped]
    decide +kernel
  · exact ((order_effect_exact 3 2 exactExecutions _ rfl).2.2.2 _ [] _
      (.inl ⟨.idempotent, by decide, rfl⟩) rfl .pessimistic _ rfl).1

/-- A commit that was applied is refused when it is repeated after the restock. -/
theorem repeated_commit_refused :
    ¬ ∀ (executions more : List Execution) (stock next later : Stock) (command : LineTransition)
      (orderId : Nat), run (step 3) emptyStock executions = some stock →
      commandTransaction stock command orderId = .ok (.applied, next) →
      run (step 3) next more = some later →
      commandTransaction later command orderId = .ok (.idempotent, later) := by
  intro claim
  have repeated := claim
    [⟨.setOnHand 5 10, false⟩, ⟨.tryReserve .pessimistic ⟨1, [⟨5, 4⟩], 100, [20], []⟩, false⟩]
    [⟨.command .restock 1, false⟩] _ _ _ .commit 1 rfl rfl rfl
  revert repeated
  decide +kernel

end Commerce.Inventory
