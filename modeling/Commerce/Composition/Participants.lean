import Commerce.Inventory.Exactness
import Commerce.Payments.Outcomes
import Commerce.Saga.Aftermath

/-!
# One order's saga and its participants

The saga's run, the inventory's tables and the payment participant of one order.
An activity's command starts at its participant only once the saga has issued it, may
start any number of times after that, and the run hears only of answers that an
execution gave.
-/

set_option autoImplicit false

namespace Commerce.Composition

open Commerce.Inventory (LineTransition Operation ParticipantCommandOutcome Stock
  commandTransaction)
open Commerce.Payments (CaptureOutcome Happening PaymentOrderStatus Request)
open Commerce.Saga

/-! ## Verifying an authorization -/

structure PaymentParticipantStatus where
  header : Option PaymentOrderStatus
  authorizedPaymentId : Option Nat
  hasAuthorizedAttempt : Bool
  hasSucceededAttempt : Bool
  deriving DecidableEq, Repr

/-- One statement reads the header and the attempts of the order. -/
def findParticipantStatus (db : Payments.Db) : PaymentParticipantStatus where
  header := db.header.map (·.status)
  authorizedPaymentId :=
    (db.payments.find? fun row => row.status == .authorized || row.status == .succeeded).map (·.id)
  hasAuthorizedAttempt := db.payments.any fun row => row.status == .authorized
  hasSucceededAttempt := db.payments.any fun row => row.status == .succeeded

def verifyAuthorization (db : Payments.Db) (paymentId : Nat) : AuthorizationVerdict :=
  let status := findParticipantStatus db
  if status.header ≠ some .authorized then .notAuthorized
  else if status.authorizedPaymentId = some paymentId then .verified
  else .paymentMismatch

theorem shut_of_verified (db : Payments.Db) (paymentId : Nat)
    (verified : verifyAuthorization db paymentId = .verified) : db.shut := by
  simp only [verifyAuthorization] at verified
  split at verified
  · cases verified
  · rename_i authorized
    rw [not_not] at authorized
    obtain ⟨header, known, status⟩ := Option.map_eq_some_iff.mp authorized
    exact ⟨header, known, by simp [status]⟩

/-! ## The composition -/

structure World where
  run : Saga.Run
  payment : Payments.World
  stock : Stock
  /-- What the executions of each `verifyAuthorization` found. -/
  verdicts : List (Nat × AuthorizationVerdict)
  /-- What inventory answered the executions of the saga's stock commands. -/
  resolved : List (LineTransition × ParticipantCommandOutcome)

inductive Event where
  /-- The engine delivers an event; a payment command's answer comes from the request in `slot`. -/
  | saga (event : Saga.Event) (slot : Nat)
  | payment (happening : Happening)
  /-- One execution of the activity with this number. -/
  | verifyAuthorization (seq : Nat)
  | resolve (command : LineTransition)
  /-- A Try, the sweep, an operator's write, or anything of another order. -/
  | inventory (operation : Operation)

def compensates (log : List Entry) (type : CompensationType) : Bool :=
  log.any fun entry =>
    match entry with
    | .issued (.compensation command) => command.type == type
    | _ => false

theorem compensates_iff (log : List Entry) (type : CompensationType) :
    compensates log type = true ↔
      ∃ command, command.type = type ∧ .issued (.compensation command) ∈ log := by
  unfold compensates
  rw [List.any_eq_true]
  constructor
  · rintro ⟨entry, member, same⟩
    split at same
    · rename_i command
      exact ⟨command, eq_of_beq same, member⟩
    · cases same
  · rintro ⟨command, type, member⟩
    exact ⟨_, member, by simp [type]⟩

theorem compensates_append (log more : List Entry) (type : CompensationType)
    (issued : compensates log type = true) : compensates (log ++ more) type = true := by
  unfold compensates at issued ⊢
  rw [List.any_append, issued, Bool.true_or]

/-- The stock commands an execution of which may start. -/
def resolves (log : List Entry) : LineTransition → Bool
  | .commit => decide (.issued .commitStock ∈ log)
  | .release => compensates log .releaseStock
  | .restock => compensates log .restock

/-- The payment commands come from the saga, and sessions are opened for the order's charge. -/
def requests (input : CheckoutSagaInput) (log : List Entry) : Request → Bool
  | .capture => decide (.issued .capturePayment ∈ log)
  | .cancel => compensates log .cancelPayment
  | .openSession amountMinor currency _ =>
      amountMinor == input.totalMinor && currency == input.currency
  | .webhook _ | .reconcile => true

def starts (run : Saga.Run) : Happening → Bool
  | .start _ request => requests run.input run.log request
  | _ => true

def verifies (run : Saga.Run) (seq : Nat) : Option PaymentAuthorization :=
  match takeTask seq run.pending with
  | none => none
  | some (task, _) =>
      match task.activity with
      | .verifyAuthorization authorization => some authorization
      | _ => none

def CommitOutcome.answer : CommitOutcome → ParticipantCommandOutcome
  | .applied => .applied
  | .idempotent => .idempotent
  | .conflict => .conflict

def SettledCaptureOutcome.answer : SettledCaptureOutcome → CaptureOutcome
  | .captured => .captured
  | .idempotent => .idempotent
  | .notCapturable => .notCapturable

namespace World

/-- Inventory carried the command out, now or before; a conflict is thrown and retried. -/
def carriedOut (world : World) (command : LineTransition) : Bool :=
  decide ((command, .applied) ∈ world.resolved) || decide ((command, .idempotent) ∈ world.resolved)

/-- The payment's attempts were released; a captured conflict is thrown and retried. -/
def cancelled (world : World) (slot : Nat) : Bool :=
  match world.payment.result slot with
  | some (.cancel, some (.cancelled outcome)) => outcome != .capturedConflict
  | _ => false

def answers (world : World) (slot seq : Nat) : Activity → ActivityResult → Bool
  | .verifyAuthorization _, .verdict verdict => decide ((seq, verdict) ∈ world.verdicts)
  | .commitStock, .committed outcome =>
      decide ((.commit, CommitOutcome.answer outcome) ∈ world.resolved)
  | .capturePayment, .captured outcome =>
      world.payment.result slot ==
        some (.capture, some (.captured (SettledCaptureOutcome.answer outcome)))
  | .compensation command, .compensated =>
      match command.type with
      | .releaseStock => world.carriedOut .release
      | .restock => world.carriedOut .restock
      | .cancelPayment => world.cancelled slot
  | _, _ => true

def confirms (world : World) (slot : Nat) : Saga.Event → Bool
  | .answered seq result =>
      match takeTask seq world.run.pending with
      | some (task, _) => world.answers slot seq task.activity result
      | none => true
  | _ => true

end World

def step (minLeadMs : Int) (maxRetries orderId : Nat) (world : World) : Event → Option World
  | .saga event slot =>
      if world.confirms slot event then
        (deliver world.run event).map fun run => { world with run }
      else none
  | .payment happening =>
      if starts world.run happening then
        ((Payments.system minLeadMs).step world.payment happening).map fun payment =>
          { world with payment }
      else none
  | .verifyAuthorization seq =>
      match verifies world.run seq with
      | some authorization =>
          some { world with
            verdicts := world.verdicts ++
              [(seq, verifyAuthorization world.payment.shared.db authorization.paymentId)] }
      | none => none
  | .resolve command =>
      if resolves world.run.log command then
        match commandTransaction world.stock command orderId with
        | .ok (outcome, stock) =>
            some { world with stock, resolved := world.resolved ++ [(command, outcome)] }
        | .error _ => none
      else none
  | .inventory operation =>
      match operation with
      -- the order's own commands are the saga's
      | .command _ id =>
          if id = orderId then none
          else some { world with stock := Inventory.perform maxRetries world.stock operation }
      | _ => some { world with stock := Inventory.perform maxRetries world.stock operation }

def placed (input : CheckoutSagaInput) (firstSeq : Nat) (nowMs : Int) : World where
  run := checkoutSaga input firstSeq nowMs
  payment := Programs.System.idle Payments.start
  stock := Inventory.emptyStock
  verdicts := []
  resolved := []

/-! ## The order's stock -/

def Uncommitted (stock : Stock) (orderId : Nat) : Prop :=
  stock.statusOf orderId ≠ some .committed ∧ stock.statusOf orderId ≠ some .restocked

theorem uncommitted_of_released (stock : Stock) (orderId : Nat)
    (released : Inventory.AppliedStatus .release (stock.statusOf orderId)) :
    Uncommitted stock orderId := by
  rcases released with status | status <;> simp [Uncommitted, status]

theorem uncommitted_of_same {stock next : Stock} {orderId : Nat}
    (before : Uncommitted stock orderId)
    (same : next.statusOf orderId = stock.statusOf orderId) : Uncommitted next orderId := by
  unfold Uncommitted
  rw [same]
  exact before

/-- The fence decides a command's answer, and where it leaves the header. -/
theorem command_status (stock next : Stock) (command : LineTransition) (orderId : Nat)
    (outcome : ParticipantCommandOutcome) (inv : Inventory.Ledger stock)
    (success : commandTransaction stock command orderId = .ok (outcome, next)) :
    match Inventory.decideReservationFence command.op (stock.statusOf orderId) with
    | .apply _ => outcome = .applied ∧ Inventory.AppliedStatus command (next.statusOf orderId)
    | .idempotent => outcome = .idempotent ∧ next = stock
    | .conflict => outcome = .conflict ∧ next = stock := by
  have applied : outcome = .applied → Inventory.AppliedStatus command (next.statusOf orderId) := by
    rintro rfl
    exact Inventory.command_applied stock next command orderId inv success
  unfold commandTransaction at success
  cases found : stock.findHeader orderId with
  | none =>
      have absent : stock.statusOf orderId = none := by simp [Inventory.Stock.statusOf, found]
      rw [absent]
      cases command <;>
        simp_all [LineTransition.op, Inventory.decideReservationFence]
  | some header =>
      have current : stock.statusOf orderId = some header.status := by
        simp [Inventory.Stock.statusOf, found]
      rw [current]
      simp only [found] at success
      cases decided : Inventory.decideReservationFence command.op (some header.status) with
      | apply status =>
          simp only [decided] at success
          obtain ⟨moved, -, same⟩ := (Results.bind_eq_ok _ _ _).mp success
          cases same
          exact ⟨rfl, applied rfl⟩
      | idempotent =>
          simp only [decided] at success
          cases success
          exact ⟨rfl, rfl⟩
      | conflict =>
          simp only [decided] at success
          cases success
          exact ⟨rfl, rfl⟩

section Resolving

variable (stock next : Stock) (orderId : Nat) (outcome : ParticipantCommandOutcome)
  (inv : Inventory.Ledger stock)

include inv

theorem commit_answered (fine : outcome ≠ .conflict)
    (success : commandTransaction stock .commit orderId = .ok (outcome, next)) :
    Inventory.AppliedStatus .commit (next.statusOf orderId) := by
  have decided := command_status stock next .commit orderId outcome inv success
  split at decided
  · exact decided.2
  · rename_i idempotent
    rw [decided.2]
    cases current : stock.statusOf orderId with
    | none =>
        rw [current] at idempotent
        cases idempotent
    | some status =>
        rw [current] at idempotent
        cases status <;> first | exact .inl rfl | cases idempotent
  · exact absurd decided.1 fine

/-- Uncommitted stock is released whenever it is asked for. -/
theorem release_answered (before : Uncommitted stock orderId)
    (success : commandTransaction stock .release orderId = .ok (outcome, next)) :
    outcome ≠ .conflict ∧ Inventory.AppliedStatus .release (next.statusOf orderId) := by
  have fine : outcome ≠ .conflict := by
    have decided := command_status stock next .release orderId outcome inv success
    split at decided
    · simp [decided.1]
    · simp [decided.1]
    · rename_i conflict
      obtain ⟨uncommitted, unrestocked⟩ := before
      cases current : stock.statusOf orderId with
      | none =>
          rw [current] at conflict
          cases conflict
      | some status =>
          rw [current] at conflict uncommitted unrestocked
          cases status <;> first | exact absurd rfl uncommitted | exact absurd rfl unrestocked |
            cases conflict
  exact ⟨fine, Inventory.release_answered stock next orderId outcome fine inv success⟩

theorem restock_answered (before : Inventory.AppliedStatus .commit (stock.statusOf orderId))
    (success : commandTransaction stock .restock orderId = .ok (outcome, next)) :
    outcome ≠ .conflict := by
  have decided := command_status stock next .restock orderId outcome inv success
  rcases before with status | status <;> rw [status] at decided <;>
    simp [LineTransition.op, Inventory.decideReservationFence] at decided <;> simp [decided.1]

/-- Uncommitted stock has nothing to restock. -/
theorem restock_uncommitted (before : Uncommitted stock orderId)
    (success : commandTransaction stock .restock orderId = .ok (outcome, next)) :
    next = stock := by
  have decided := command_status stock next .restock orderId outcome inv success
  obtain ⟨uncommitted, unrestocked⟩ := before
  split at decided
  · rename_i applies
    cases current : stock.statusOf orderId with
    | none =>
        rw [current] at applies
        cases applies
    | some status =>
        rw [current] at applies uncommitted
        cases status <;> first | exact absurd rfl uncommitted | cases applies
  · exact decided.2
  · exact decided.2

end Resolving

theorem uncommitted_perform (maxRetries : Nat) (stock : Stock) (operation : Operation)
    (orderId : Nat) (inv : Inventory.Ledger stock) (before : Uncommitted stock orderId)
    (foreign : ∀ command, operation ≠ .command command orderId) :
    Uncommitted (Inventory.perform maxRetries stock operation) orderId := by
  by_cases about : operation.about = some orderId
  · cases operation with
    | tryReserve strategy input =>
        cases Option.some.inj about
        cases current : stock.statusOf input.orderId with
        | some status =>
            have same := Inventory.tryReserve_again strategy maxRetries stock input status current
            simp only [Inventory.perform, same]
            exact before
        | none =>
            have edge := (Inventory.perform_step maxRetries stock _ input.orderId inv
              about).header.edge
            rw [current] at edge
            constructor
            · intro committed
              rw [committed] at edge
              cases edge
            · intro restocked
              rw [restocked] at edge
              cases edge
    | command command other => exact absurd (congrArg _ (Option.some.inj about)) (foreign command)
    | sweep other now =>
        cases Option.some.inj about
        simp only [Inventory.perform]
        split
        · rename_i released next success
          cases released with
          | true =>
              exact uncommitted_of_released next orderId
                (Inventory.sweep_released stock next orderId now inv success)
          | false =>
              unfold Inventory.sweepTransaction at success
              split at success
              · cases success
                exact before
              · split at success
                · obtain ⟨moved, -, same⟩ := (Results.bind_eq_ok _ _ _).mp success
                  cases same
                · cases success
                  exact before
        · exact before
    | setOnHand variantId quantity => cases about
    | adjust variantId delta => cases about
  · exact uncommitted_of_same before
      (Inventory.perform_other maxRetries stock operation orderId inv about).1

theorem committed_perform (maxRetries : Nat) (stock : Stock) (operation : Operation) (orderId : Nat)
    (inv : Inventory.Ledger stock)
    (before : Inventory.AppliedStatus .commit (stock.statusOf orderId)) :
    Inventory.AppliedStatus .commit
      ((Inventory.perform maxRetries stock operation).statusOf orderId) :=
  Inventory.appliedStatus_closed .commit _ _ before
    (Inventory.after_header maxRetries stock ⟨operation, false⟩ orderId inv)

end Commerce.Composition
