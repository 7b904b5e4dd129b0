import Commerce.Composition.PaymentBooks

/-!
# What the saga's commands are answered

The activities throw three answers as retryable errors: a refused release or restock,
a capture of an order nothing was authorized for, and a cancel that finds the money
captured.  No run of the composition gives one of them.
-/

set_option autoImplicit false

namespace Commerce.Composition

open Commerce.Inventory (LineTransition)
open Commerce.Saga
open Programs (System)
open Runs

structure Books (orderId : Nat) (world : World) : Prop where
  pivot : RunPivot world.run
  aftermath : RunAftermath world.run
  stock : StockBooks orderId world
  payment : PaymentBooks world

theorem books_placed (orderId : Nat) (input : CheckoutSagaInput) (firstSeq : Nat) (nowMs : Int) :
    Books orderId (placed input firstSeq nowMs) := by
  have log : (placed input firstSeq nowMs).run.log = [] := log_initial input firstSeq nowMs
  have uncaptured : ∀ ref, ¬ Payments.start.stripe.Captured ref := by
    rintro ref ⟨intentId, ⟨session, known, -⟩, -⟩
    cases known
  have unbarred : ¬ Payments.start.db.barred := by
    rintro ⟨header, known, -⟩
    cases known
  have untaken : ¬ Payments.start.db.taken := by
    rintro ⟨header, known, -⟩
    cases known
  constructor
  · exact runPivot_initial input firstSeq nowMs
  · exact runAftermath_initial input firstSeq nowMs
  · constructor
    · exact Inventory.emptyStock_ledger
    · intro _
      constructor <;> simp [placed, Inventory.emptyStock, Inventory.Stock.statusOf,
        Inventory.Stock.findHeader]
    · simp [placed]
    · simp [log]
    · simp [placed]
    · simp [placed]
  · constructor
    · exact Payments.sound_start
    · simp [placed]
    · simp [log]
    · simp [placed, System.idle]
    · exact fun _ => uncaptured
    · exact fun _ barred => absurd barred unbarred
    · exact fun _ _ concluded => concluded.elim unbarred untaken
    · intro header amountMinor known
      cases known
    · simp [placed, System.idle]
    · simp [log]

section Steps

variable (minLeadMs : Int) (maxRetries orderId : Nat) (world next : World)

theorem books_saga (books : Books orderId world) (event : Saga.Event) (slot : Nat)
    (stepped : step minLeadMs maxRetries orderId world (.saga event slot) = some next) :
    Books orderId next := by
  simp only [step] at stepped
  split at stepped
  · rename_i confirmed
    obtain ⟨run, delivered, rfl⟩ := Option.map_eq_some_iff.mp stepped
    constructor
    · exact runPivot_deliver world.run event run books.pivot delivered
    · exact runAftermath_deliver world.run event run books.pivot books.aftermath delivered
    · exact stockBooks_saga orderId world books.stock slot event run confirmed delivered
    · exact paymentBooks_saga world books.pivot books.aftermath books.payment slot event run
        confirmed delivered
  · cases stepped

theorem books_payment (books : Books orderId world) (happening : Payments.Happening)
    (stepped : step minLeadMs maxRetries orderId world (.payment happening) = some next) :
    Books orderId next := by
  simp only [step] at stepped
  split at stepped
  · rename_i issued
    obtain ⟨payment, moved, rfl⟩ := Option.map_eq_some_iff.mp stepped
    constructor
    · exact books.pivot
    · exact books.aftermath
    · obtain ⟨ledger, uncommitted, committed, reported, released, restocked⟩ := books.stock
      exact ⟨ledger, uncommitted, committed, reported, released, restocked⟩
    · exact paymentBooks_payment minLeadMs world books.aftermath books.payment happening payment
        issued moved
  · cases stepped

theorem books_verify (books : Books orderId world) (seq : Nat)
    (stepped : step minLeadMs maxRetries orderId world (.verifyAuthorization seq) = some next) :
    Books orderId next := by
  simp only [step] at stepped
  split at stepped
  · rename_i authorization _
    cases Option.some.inj stepped
    constructor
    · exact books.pivot
    · exact books.aftermath
    · obtain ⟨ledger, uncommitted, committed, reported, released, restocked⟩ := books.stock
      exact ⟨ledger, uncommitted, committed, reported, released, restocked⟩
    · exact paymentBooks_verify world books.payment seq authorization.paymentId
  · cases stepped

theorem books_stock (books : Books orderId world) (stock : Inventory.Stock)
    (resolved : List (LineTransition × Inventory.ParticipantCommandOutcome))
    (kept : StockBooks orderId { world with stock, resolved }) :
    Books orderId { world with stock, resolved } := by
  constructor
  · exact books.pivot
  · exact books.aftermath
  · exact kept
  · obtain ⟨sound, verified, shut, started, untouched, unbarred, unconcluded, charged, refused,
      spent⟩ := books.payment
    exact ⟨sound, verified, shut, started, untouched, unbarred, unconcluded, charged, refused,
      spent⟩

theorem books_resolve (books : Books orderId world) (command : LineTransition)
    (stepped : step minLeadMs maxRetries orderId world (.resolve command) = some next) :
    Books orderId next := by
  simp only [step] at stepped
  split at stepped
  · rename_i issued
    split at stepped
    · rename_i outcome stock success
      cases Option.some.inj stepped
      exact books_stock orderId world books stock _ (stockBooks_resolve orderId world books.pivot
        books.aftermath books.stock command outcome stock issued success)
    · cases stepped
  · cases stepped

theorem books_inventory (books : Books orderId world) (operation : Inventory.Operation)
    (stepped : step minLeadMs maxRetries orderId world (.inventory operation) = some next) :
    Books orderId next := by
  have foreign : (∀ command, operation ≠ .command command orderId) ∧
      next = { world with stock := Inventory.perform maxRetries world.stock operation } := by
    simp only [step] at stepped
    split at stepped
    · rename_i command id
      split at stepped
      · cases stepped
      · rename_i other
        refine ⟨?_, (Option.some.inj stepped).symm⟩
        rintro _ ⟨⟩
        exact other rfl
    · rename_i uncommanded
      refine ⟨?_, (Option.some.inj stepped).symm⟩
      exact fun command same => uncommanded command orderId same
  obtain ⟨foreign, rfl⟩ := foreign
  exact books_stock orderId world books _ world.resolved
    (stockBooks_perform orderId world maxRetries books.stock operation foreign)

end Steps

theorem books_step (minLeadMs : Int) (maxRetries orderId : Nat) (world : World) (event : Event)
    (next : World) (books : Books orderId world)
    (stepped : step minLeadMs maxRetries orderId world event = some next) : Books orderId next := by
  cases event with
  | saga event slot =>
      exact books_saga minLeadMs maxRetries orderId world next books event slot
        stepped
  | payment happening =>
      exact books_payment minLeadMs maxRetries orderId world next books happening stepped
  | verifyAuthorization seq =>
      exact books_verify minLeadMs maxRetries orderId world next books seq stepped
  | resolve command =>
      exact books_resolve minLeadMs maxRetries orderId world next books command
        stepped
  | inventory operation =>
      exact books_inventory minLeadMs maxRetries orderId world next books operation stepped

theorem books_of_run (minLeadMs : Int) (maxRetries orderId : Nat) (input : CheckoutSagaInput)
    (firstSeq : Nat) (nowMs : Int) (events : List Event) (world : World)
    (success : run (step minLeadMs maxRetries orderId) (placed input firstSeq nowMs) events =
      some world) : Books orderId world :=
  run_preserves (step minLeadMs maxRetries orderId) (Books orderId)
    (books_step minLeadMs maxRetries orderId) events _ world
    (books_placed orderId input firstSeq nowMs) success

/-! ## The answers -/

/-- No command of the saga was given an answer its activity throws. -/
structure NeverThrown (world : World) : Prop where
  release : ∀ outcome, (.release, outcome) ∈ world.resolved → outcome ≠ .conflict
  restock : ∀ outcome, (.restock, outcome) ∈ world.resolved → outcome ≠ .conflict
  capture : ∀ slot outcome, world.payment.result slot = some (.capture, some (.captured outcome)) →
    outcome ≠ .conflict
  cancel : ∀ slot outcome, world.payment.result slot = some (.cancel, some (.cancelled outcome)) →
    outcome ≠ .capturedConflict

/-- A header was captured only with a hold that Stripe captured. -/
theorem captured_of_taken (shared : Payments.Shared) (inv : Payments.Inv shared)
    (taken : shared.db.taken) : ∃ ref, shared.stripe.Captured ref := by
  obtain ⟨header, known, status⟩ := taken
  obtain ⟨row, listed, succeeded⟩ :=
    (Payments.recordsAgree_of_inv shared inv).captured header known status
  have backed := inv.backed row listed
  rw [Payments.Backed, succeeded] at backed
  exact ⟨row.providerSessionId, backed.1⟩

theorem untaken_of_cancel (orderId : Nat) (world : World) (books : Books orderId world)
    (issued : compensates world.run.log .cancelPayment = true) :
    ¬ world.payment.shared.db.taken := by
  intro taken
  have inv := books.payment.sound.holds
  obtain ⟨command, -, member⟩ := (compensates_iff world.run.log .cancelPayment).mp issued
  by_cases captures : .issued .capturePayment ∈ world.run.log
  · have refused := books.aftermath.uncaptured (books.aftermath.undoing command member) captures
    exact inv.not_released _ taken (books.payment.spent refused).2
  · obtain ⟨ref, captured⟩ := captured_of_taken world.payment.shared inv taken
    exact books.payment.untouched captures ref captured

theorem neverThrown_of_books (orderId : Nat) (world : World) (books : Books orderId world) :
    NeverThrown world := by
  constructor
  · exact fun outcome member => (books.stock.released outcome member).1
  · exact books.stock.restocked
  · rintro slot outcome answered rfl
    obtain ⟨since, ended⟩ := world.payment.result_some slot _ _ answered
    obtain ⟨past, began, -, meets⟩ := System.Ready.returned _ _ _ _ _ _
      (books.payment.sound.ready slot _ ended)
    have shut := (books.payment.started slot _ ended).2 rfl
    exact meets (began.shut shut)
  · rintro slot outcome answered rfl
    obtain ⟨since, ended⟩ := world.payment.result_some slot _ _ answered
    obtain ⟨past, -, reached, taken⟩ := System.Ready.returned _ _ _ _ _ _
      (books.payment.sound.ready slot _ ended)
    exact untaken_of_cancel orderId world books (books.payment.started slot _ ended).1
      (reached.taken taken)

theorem commands_never_thrown (minLeadMs : Int) (maxRetries orderId : Nat)
    (input : CheckoutSagaInput) (firstSeq : Nat) (nowMs : Int) (events : List Event) (world : World)
    (success : run (step minLeadMs maxRetries orderId) (placed input firstSeq nowMs) events =
      some world) : NeverThrown world :=
  neverThrown_of_books orderId world
    (books_of_run minLeadMs maxRetries orderId input firstSeq nowMs events world success)

def heldEvents : List Event :=
  [.inventory (.setOnHand 21 5),
    .inventory (.tryReserve .pessimistic ⟨1, [⟨21, 2⟩], 9000, [31], []⟩),
    .saga (.tryAnswered 0 (.answered .reserved)) 0, .saga (.tryWritten 1 .applied) 0]

def openedEvents : List Event :=
  .payment (.start 0 (.openSession 500 "USD" 100)) ::
    List.replicate 6 (.payment (.step 0 { id := 7 }))

def recordedEvents : List Event :=
  .payment (.move (.checkout 0 ⟨.requiresCapture, 500, "usd"⟩)) ::
    .payment (.start 1 (.webhook ⟨1, .completed, some 0⟩)) ::
    List.replicate 9 (.payment (.step 1 { id := 9 }))

/-- Held, authorized and committed; the card's hold lapses before its capture. -/
def refusedEvents : List Event :=
  heldEvents ++ openedEvents ++ recordedEvents ++
  [.saga (.paymentAuthorized ⟨7, 500, "USD", 0⟩) 0, .verifyAuthorization 2,
    .saga (.answered 2 (.verdict .verified)) 0, .saga (.answered 3 (.written .applied)) 0,
    .resolve .commit, .saga (.answered 4 (.committed .applied)) 0,
    .payment (.move (.settle 0 .canceled)), .payment (.start 2 .capture)] ++
  List.replicate 4 (.payment (.step 2 {})) ++
  [.saga (.answered 5 (.captured .notCapturable)) 2, .saga (.answered 6 (.written .applied)) 0,
    .resolve .restock, .payment (.start 3 .cancel), .payment (.step 3 {}),
    .saga (.answered 7 .compensated) 0, .saga (.answered 8 .compensated) 3]

theorem commands_never_thrown_refused : ∃ world,
    run (step 10 3 1) (placed ⟨.checkout, 0, none, 500, "USD", 1000⟩ 0 0) refusedEvents =
      some world ∧
    world.run.saga.step = .compensated ∧ world.resolved =
      [(.commit, .applied), (.restock, .applied)] ∧
    world.payment.result 3 = some (.cancel, some (.cancelled .idempotent)) ∧ NeverThrown world := by
  have view : (run (step 10 3 1) (placed ⟨.checkout, 0, none, 500, "USD", 1000⟩ 0 0)
      refusedEvents).map (fun world =>
        (world.run.saga.step, world.resolved, world.payment.result 3)) =
      some (.compensated, [(.commit, .applied), (.restock, .applied)],
        some (.cancel, some (.cancelled .idempotent))) := by decide +kernel
  obtain ⟨world, reached, same⟩ := Option.map_eq_some_iff.mp view
  obtain ⟨compensated, rest⟩ := Prod.mk.inj same
  obtain ⟨resolved, cancelled⟩ := Prod.mk.inj rest
  exact ⟨world, reached, compensated, resolved, cancelled,
    commands_never_thrown 10 3 1 _ 0 0 refusedEvents world reached⟩

end Commerce.Composition
