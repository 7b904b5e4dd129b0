import Commerce.Composition.Authorizations
import Commerce.Saga.Cancellation

/-!
# What a cancel undoes at the participants

From the moment the saga carries `CANCELLED`, the release of the stock and the cancel of
the payment are each pending or carried out, and what was carried out stays undone.
-/

set_option autoImplicit false

namespace Commerce.Composition

open Commerce.Payments (AllReleased)
open Commerce.Saga
open Programs (System)

/-- The order's stock is not held, and its payment cannot be captured: no session is opened
any more, and every hold an attempt had is gone. -/
structure Undone (orderId : Nat) (world : World) : Prop where
  released : Inventory.AppliedStatus .release (world.stock.statusOf orderId)
  shut : world.payment.shared.db.shut
  voided : AllReleased world.payment.shared
  untaken : ¬ world.payment.shared.db.taken

def Waits (run : Saga.Run) (type : CompensationType) : Prop :=
  ∃ command ∈ run.saga.pending, command.type = type ∧ command.reason = .cancelled

def Unsettled (run : Saga.Run) : Prop :=
  ∃ command ∈ run.saga.pending, command.reason = .cancelled

instance (run : Saga.Run) : Decidable (Unsettled run) :=
  inferInstanceAs (Decidable (∃ command ∈ run.saga.pending, _))

structure Cancellation (orderId : Nat) (world : World) : Prop where
  books : Books orderId world
  outstanding : Outstanding world.run
  changes : Changes world.run.saga world.run.log
  backed : ∀ task ∈ world.run.pending, task.Backed
  busy : Busy world.run.saga
  release : world.run.saga.orderStatus = some .cancelled →
    Waits world.run .releaseStock ∨ world.carriedOut .release = true
  void : world.run.saga.orderStatus = some .cancelled → Waits world.run .cancelPayment ∨
    world.payment.shared.db.shut ∧ AllReleased world.payment.shared

theorem cancellation_placed (orderId : Nat) (input : CheckoutSagaInput)
    (mode : input.mode = .checkout) (firstSeq : Nat) (nowMs : Int) :
    Cancellation orderId (placed input firstSeq nowMs) := by
  have carries : (placed input firstSeq nowMs).run.saga.orderStatus ≠ some .cancelled := by
    simp [placed, saga_initial, mode, initialCheckoutSagaState]
  constructor
  · exact books_placed orderId input firstSeq nowMs
  · exact outstanding_initial input firstSeq nowMs
  · exact changes_initial input mode firstSeq nowMs
  · have idle : (placed input firstSeq nowMs).run.pending = [] :=
      pending_initial input mode firstSeq nowMs
    simp [idle]
  · constructor <;> simp [placed, saga_initial, mode, initialCheckoutSagaState]
  · exact fun cancelled => absurd cancelled carries
  · exact fun cancelled => absurd cancelled carries

/-! ## Answers of the participants -/

theorem carriedOut_iff (world : World) (command : Inventory.LineTransition) :
    world.carriedOut command = true ↔
      (command, .applied) ∈ world.resolved ∨ (command, .idempotent) ∈ world.resolved := by
  simp [World.carriedOut]

/-- A compensation is reported done only after an execution of it. -/
theorem reported_compensation (world : World) (slot : Nat) (event : Saga.Event) (next : Saga.Run)
    (confirmed : world.confirms slot event = true)
    (delivered : deliver world.run event = some next) (command : CompensationCommand)
    (reports : .compensation command ∈ reported world.run event) :
    ∃ seq, world.answers slot seq (.compensation command) .compensated = true := by
  cases event with
  | answered seq result =>
      simp only [reported] at reports
      split at reports
      · rename_i task rest taken
        obtain ⟨named, activity, later, compensations⟩ := task
        have carries : activity = .compensation command := by
          cases activity <;> simp [Activity.owes] at reports
          rw [reports]
        subst carries
        simp only [deliver, taken, resume] at delivered
        split at delivered
        · cases delivered
        · cases result with
          | compensated =>
              refine ⟨seq, ?_⟩
              simpa [World.confirms, taken] using confirmed
          | _ => simp [settle] at delivered
      · simp at reports
  | _ => simp [reported] at reports

/-- A cancel that was answered, and not with a captured conflict, left every attempt released. -/
theorem voided_of_cancelled (orderId : Nat) (world : World) (books : Books orderId world)
    (slot : Nat)
    (cancelled : world.cancelled slot = true) :
    world.payment.shared.db.shut ∧ AllReleased world.payment.shared := by
  unfold World.cancelled at cancelled
  split at cancelled
  · rename_i outcome answered
    obtain ⟨since, ended⟩ := world.payment.result_some slot _ _ answered
    obtain ⟨past, -, reached, meets⟩ := System.Ready.returned _ _ _ _ _ _
      (books.payment.sound.ready slot _ ended)
    have kept : outcome ≠ .capturedConflict := by simpa using cancelled
    simp only [Payments.Returns, Payments.CancelMeets, if_neg kept] at meets
    obtain ⟨concluded, released⟩ := meets
    have shut := Payments.Db.concluded.shut past.db concluded
    exact ⟨reached.shut shut, reached.allReleased past _ shut released⟩
  · cases cancelled

/-! ## One step -/

section Steps

variable (minLeadMs : Int) (maxRetries orderId : Nat) (world next : World)

theorem resolved_grows (event : Event)
    (stepped : step minLeadMs maxRetries orderId world event = some next)
    (answer : Inventory.LineTransition × Inventory.ParticipantCommandOutcome)
    (member : answer ∈ world.resolved) : answer ∈ next.resolved := by
  cases event with
  | saga event slot =>
      obtain ⟨-, run, -, rfl⟩ := step_saga minLeadMs maxRetries orderId world next event slot
        stepped
      exact member
  | payment happening =>
      simp only [step] at stepped
      split at stepped
      · obtain ⟨payment, -, rfl⟩ := Option.map_eq_some_iff.mp stepped
        exact member
      · cases stepped
  | verifyAuthorization seq =>
      simp only [step] at stepped
      split at stepped
      · cases Option.some.inj stepped
        exact member
      · cases stepped
  | resolve command =>
      simp only [step] at stepped
      split at stepped
      · split at stepped
        · cases Option.some.inj stepped
          exact List.mem_append_left _ member
        · cases stepped
      · cases stepped
  | inventory operation =>
      simp only [step] at stepped
      split at stepped
      · split at stepped
        · cases stepped
        · cases Option.some.inj stepped
          exact member
      · cases Option.some.inj stepped
        exact member

theorem run_kept (event : Event) (foreign : ∀ delivered slot, event ≠ .saga delivered slot)
    (stepped : step minLeadMs maxRetries orderId world event = some next) :
    next.run = world.run := by
  cases event with
  | saga event slot => exact absurd rfl (foreign event slot)
  | payment happening =>
      simp only [step] at stepped
      split at stepped
      · obtain ⟨payment, -, rfl⟩ := Option.map_eq_some_iff.mp stepped
        rfl
      · cases stepped
  | verifyAuthorization seq =>
      simp only [step] at stepped
      split at stepped
      · cases Option.some.inj stepped
        rfl
      · cases stepped
  | resolve command =>
      simp only [step] at stepped
      split at stepped
      · split at stepped
        · cases Option.some.inj stepped
          rfl
        · cases stepped
      · cases stepped
  | inventory operation =>
      simp only [step] at stepped
      split at stepped
      · split at stepped
        · cases stepped
        · cases Option.some.inj stepped
          rfl
      · cases Option.some.inj stepped
        rfl

theorem carriedOut_grows (event : Event)
    (stepped : step minLeadMs maxRetries orderId world event = some next)
    (command : Inventory.LineTransition) (carried : world.carriedOut command = true) :
    next.carriedOut command = true := by
  have grows := resolved_grows minLeadMs maxRetries orderId world next event stepped
  rw [carriedOut_iff] at carried ⊢
  exact carried.imp (grows _) (grows _)

/-- A compensation the saga waited for is waited for, or an execution of it was answered. -/
theorem waits_saga (inv : Cancellation orderId world) (event : Saga.Event) (slot : Nat)
    (confirmed : world.confirms slot event = true)
    (delivered : deliver world.run event = some next.run) (type : CompensationType)
    (waits : Waits world.run type) :
    Waits next.run type ∨ ∃ command seq, command.type = type ∧
      world.answers slot seq (.compensation command) .compensated = true := by
  obtain ⟨command, pending, typed, reason⟩ := waits
  rcases pending_after world.run next.run event inv.outstanding delivered command pending with
    still | reports
  · exact .inl ⟨command, still, typed, reason⟩
  · obtain ⟨seq, answered⟩ :=
      reported_compensation world slot event next.run confirmed delivered command reports
    exact .inr ⟨command, seq, typed, answered⟩

theorem release_saga (inv : Cancellation orderId world) (event : Saga.Event) (slot : Nat)
    (confirmed : world.confirms slot event = true)
    (delivered : deliver world.run event = some next.run)
    (cancelled : next.run.saga.orderStatus = some .cancelled) :
    Waits next.run .releaseStock ∨ world.carriedOut .release = true := by
  rcases cancelled_after world.run next.run event inv.changes.mode delivered cancelled with
    before | ⟨issued, -⟩
  · rcases inv.release before with waits | carried
    · refine (waits_saga orderId world next inv event slot confirmed delivered _ waits).imp id ?_
      rintro ⟨command, seq, typed, answered⟩
      simpa [World.answers, typed] using answered
    · exact .inr carried
  · exact .inl issued

theorem void_saga (inv : Cancellation orderId world) (event : Saga.Event) (slot : Nat)
    (confirmed : world.confirms slot event = true)
    (delivered : deliver world.run event = some next.run)
    (cancelled : next.run.saga.orderStatus = some .cancelled) :
    Waits next.run .cancelPayment ∨
      world.payment.shared.db.shut ∧ AllReleased world.payment.shared := by
  rcases cancelled_after world.run next.run event inv.changes.mode delivered cancelled with
    before | ⟨-, issued⟩
  · rcases inv.void before with waits | voided
    · refine (waits_saga orderId world next inv event slot confirmed delivered _ waits).imp id ?_
      rintro ⟨command, seq, typed, answered⟩
      simp only [World.answers, typed] at answered
      exact voided_of_cancelled orderId world inv.books slot answered
    · exact .inr voided
  · exact .inl issued

theorem cancellation_step (event : Event) (inv : Cancellation orderId world)
    (stepped : step minLeadMs maxRetries orderId world event = some next) :
    Cancellation orderId next := by
  have books := books_step minLeadMs maxRetries orderId world event next inv.books stepped
  have carries := carriedOut_grows minLeadMs maxRetries orderId world next event stepped .release
  have still : next.run = world.run →
      (world.payment.shared.db.shut ∧ AllReleased world.payment.shared →
        next.payment.shared.db.shut ∧ AllReleased next.payment.shared) →
      Cancellation orderId next := by
    intro run voided
    refine ⟨books, ?_, ?_, ?_, ?_, ?_, ?_⟩ <;> rw [run]
    · exact inv.outstanding
    · exact inv.changes
    · exact inv.backed
    · exact inv.busy
    · exact fun cancelled => (inv.release cancelled).imp id carries
    · exact fun cancelled => (inv.void cancelled).imp id voided
  cases stepped_of_step minLeadMs maxRetries orderId world next event stepped with
  | saga delivered slot confirmed run payment verdicts =>
      constructor
      · exact books
      · exact outstanding_deliver world.run delivered next.run inv.outstanding run
      · exact changes_deliver world.run next.run delivered inv.changes run
      · exact backed_deliver world.run next.run delivered inv.changes.mode inv.backed run
      · exact busy_deliver world.run next.run delivered inv.busy run
      · exact fun cancelled =>
          (release_saga orderId world next inv delivered slot confirmed run cancelled).imp id
            carries
      · rw [payment]
        exact void_saga orderId world next inv delivered slot confirmed run
  | payment happening issued moved run verdicts =>
      have evolved := (moved_of_step minLeadMs world.payment next.payment happening
        inv.books.payment.sound moved).evolved
      refine still run ?_
      rintro ⟨shut, voided⟩
      exact ⟨evolved.shut shut, evolved.allReleased _ _ shut voided⟩
  | verified seq authorization verifies run payment verdicts =>
      exact still run (by rw [payment]; exact id)
  | stock run payment verdicts =>
      exact still run (by rw [payment]; exact id)

end Steps

/-! ## What was undone stays undone -/

theorem stock_edge (minLeadMs : Int) (maxRetries orderId : Nat) (world next : World) (event : Event)
    (ledger : Inventory.Ledger world.stock)
    (stepped : step minLeadMs maxRetries orderId world event = some next) :
    next.stock = world.stock ∨
      Inventory.HeaderEdge (world.stock.statusOf orderId) (next.stock.statusOf orderId) := by
  cases event with
  | saga event slot =>
      obtain ⟨-, run, -, rfl⟩ := step_saga minLeadMs maxRetries orderId world next event slot
        stepped
      exact .inl rfl
  | payment happening =>
      simp only [step] at stepped
      split at stepped
      · obtain ⟨payment, -, rfl⟩ := Option.map_eq_some_iff.mp stepped
        exact .inl rfl
      · cases stepped
  | verifyAuthorization seq =>
      simp only [step] at stepped
      split at stepped
      · cases Option.some.inj stepped
        exact .inl rfl
      · cases stepped
  | resolve command =>
      simp only [step] at stepped
      split at stepped
      · split at stepped
        · rename_i outcome stock success
          cases Option.some.inj stepped
          exact .inr (Inventory.command_step world.stock stock command orderId outcome ledger
            success).header.edge
        · cases stepped
      · cases stepped
  | inventory operation =>
      right
      have performed : next.stock = Inventory.perform maxRetries world.stock operation := by
        simp only [step] at stepped
        split at stepped
        · split at stepped
          · cases stepped
          · cases Option.some.inj stepped
            rfl
        · cases Option.some.inj stepped
          rfl
      rw [performed]
      exact Inventory.after_header maxRetries world.stock ⟨operation, false⟩ orderId ledger

theorem undone_step (minLeadMs : Int) (maxRetries orderId : Nat) (world next : World)
    (event : Event)
    (inv : Cancellation orderId world) (undone : Undone orderId world)
    (stepped : step minLeadMs maxRetries orderId world event = some next) :
    Undone orderId next := by
  have after := cancellation_step minLeadMs maxRetries orderId world next event inv stepped
  have payment : next.payment.shared.db.shut ∧ AllReleased next.payment.shared := by
    cases stepped_of_step minLeadMs maxRetries orderId world next event stepped with
    | payment happening issued moved run verdicts =>
        have evolved := (moved_of_step minLeadMs world.payment next.payment happening
          inv.books.payment.sound moved).evolved
        exact ⟨evolved.shut undone.shut, evolved.allReleased _ _ undone.shut undone.voided⟩
    | saga _ _ _ _ payment _ | verified _ _ _ _ payment _ | stock _ payment _ =>
        rw [payment]
        exact ⟨undone.shut, undone.voided⟩
  constructor
  · rcases stock_edge minLeadMs maxRetries orderId world next event inv.books.stock.ledger
      stepped with
      same | edge
    · rw [same]
      exact undone.released
    · exact Inventory.appliedStatus_closed .release _ _ undone.released edge
  · exact payment.1
  · exact payment.2
  · exact fun taken => after.books.payment.sound.holds.not_released _ taken payment.2

theorem undone_of_settled (orderId : Nat) (world : World) (inv : Cancellation orderId world)
    (cancelled : world.run.saga.orderStatus = some .cancelled) (settled : ¬ Unsettled world.run) :
    Undone orderId world := by
  have idle : ∀ type, ¬ Waits world.run type := by
    rintro type ⟨command, pending, -, reason⟩
    exact settled ⟨command, pending, reason⟩
  obtain ⟨shut, voided⟩ := (inv.void cancelled).resolve_left (idle .cancelPayment)
  constructor
  · rcases (carriedOut_iff world .release).mp ((inv.release cancelled).resolve_left
      (idle .releaseStock)) with applied | idempotent
    · exact (inv.books.stock.released _ applied).2
    · exact (inv.books.stock.released _ idempotent).2
  · exact shut
  · exact voided
  · exact fun taken => inv.books.payment.sound.holds.not_released _ taken voided

/-- From an accepted cancel on, the run owes a compensation until the saga is `COMPENSATED`. -/
theorem undoing_of_cancelled (orderId : Nat) (world : World) (inv : Cancellation orderId world)
    (cancelled : world.run.saga.orderStatus = some .cancelled) :
    world.run.saga.step = .compensating ∧ compensationsIn (owed world.run.pending) ≠ [] ∨
      world.run.saga.step = .compensated := by
  have undoing := inv.changes.undoing cancelled
  unfold CheckoutStep.undoing at undoing
  split at undoing
  · rename_i compensating
    refine .inl ⟨compensating, ?_⟩
    intro none
    have same := inv.outstanding.pending
    rw [none, List.nil_perm] at same
    exact inv.busy.pending compensating same
  · rename_i compensated
    exact .inr compensated
  · cases undoing

theorem settled_of_compensated (orderId : Nat) (world : World) (inv : Cancellation orderId world)
    (compensated : world.run.saga.step = .compensated) : world.run.saga.pending = [] :=
  inv.outstanding.settling.forward (by simp [compensated])

end Commerce.Composition
