import Commerce.Composition.Commands
import Commerce.Saga.Verifications

/-!
# Authorizations the saga is told of

`payment.authorized` leaves the payment service once.  A verification that the signal
starts, or that is in flight when it comes, keeps the payment from being forgotten as
long as it read the header after it was `AUTHORIZED`.
-/

set_option autoImplicit false

namespace Commerce.Composition

open Commerce.Payments (Evolves Inv)
open Commerce.Saga
open Runs

/-! ## What the payment's header reads -/

theorem head_of_verified (shared : Payments.Shared) (inv : Inv shared) (paymentId : Nat)
    (verified : verifyAuthorization shared.db paymentId = .verified) :
    ∃ header row rest, shared.db.header = some header ∧ header.status = .authorized ∧
      shared.db.payments = row :: rest ∧ row.status = .authorized ∧ row.id = paymentId := by
  simp only [verifyAuthorization] at verified
  split at verified
  · cases verified
  rename_i authorized
  rw [not_not] at authorized
  obtain ⟨header, known, status⟩ := Option.map_eq_some_iff.mp authorized
  have agrees := inv.header.status header known
  rw [status] at agrees
  obtain ⟨row, rest, shape, held⟩ := agrees
  split at verified
  · rename_i current
    simp only [findParticipantStatus, shape, List.find?_cons, held] at current
    exact ⟨header, row, rest, known, status, shape, held, Option.some.inj current⟩
  · cases verified

theorem verified_of_head (db : Payments.Db) (header : Payments.PaymentOrderHeader)
    (row : Payments.PaymentRow) (rest : List Payments.PaymentRow) (known : db.header = some header)
    (authorized : header.status = .authorized) (shape : db.payments = row :: rest)
    (held : row.status = .authorized) : verifyAuthorization db row.id = .verified := by
  simp [verifyAuthorization, findParticipantStatus, known, authorized, shape, held]

/-- A header that reads `AUTHORIZED` for a payment does so until the order is concluded. -/
theorem verified_lasts (earlier later : Payments.Shared) (inv : Inv earlier) (still : Inv later)
    (evolved : Evolves earlier later) (open' : ¬ later.db.concluded) (paymentId : Nat)
    (verified : verifyAuthorization earlier.db paymentId = .verified) :
    verifyAuthorization later.db paymentId = .verified := by
  obtain ⟨header, row, rest, known, authorized, shape, held, rfl⟩ :=
    head_of_verified earlier inv paymentId verified
  have shut : earlier.db.shut := ⟨header, known, by simp [authorized]⟩
  obtain ⟨found, present, left⟩ := evolved.shut shut
  have status : found.status = .authorized := by
    cases reached : found.status with
    | opened => exact absurd reached left
    | authorized => rfl
    | captured => exact absurd (.inr ⟨found, present, reached⟩) open'
    | cancelled => exact absurd (.inl ⟨found, present, .inl reached⟩) open'
    | fenced => exact absurd (.inl ⟨found, present, .inr reached⟩) open'
  have agrees := still.header.status found present
  rw [status] at agrees
  obtain ⟨row', rest', shape', held'⟩ := agrees
  have frozen := evolved.frozen _ _ shut
  rw [shape, shape'] at frozen
  cases frozen with
  | cons became _ =>
      rw [← became.id]
      exact verified_of_head later.db found row' rest' present status shape' held'

/-! ## The signals -/

/-- The header reads `AUTHORIZED` for the payment, and the signal is what the payment
service announced of it. -/
structure Genuine (db : Payments.Db) (authorization : PaymentAuthorization) : Prop where
  reads : verifyAuthorization db authorization.paymentId = .verified
  announced : ∃ record ∈ db.outbox, record.paymentId = authorization.paymentId ∧
    record.amountMinor = authorization.amountMinor ∧ record.currency = authorization.currency

/-- The Try's result is in, and every answer of a verification of the payment that is
still to come was read from the header as it is now. -/
structure Receptive (world : World) (paymentId : Nat) : Prop where
  tried : world.run.saga.step ≠ .reserving
  fresh : ∀ task ∈ world.run.pending, task.verifies paymentId = true →
    ∀ verdict, (task.seq, verdict) ∈ world.verdicts → verdict = .verified

def Awaited (world : World) (paymentId : Nat) : Prop :=
  world.run.saga.step = .awaitingAuth →
    ∃ task ∈ world.run.pending, task.verifies paymentId = true

structure Attentive (orderId : Nat) (world : World) : Prop where
  books : Books orderId world
  verifications : Verifications world.run
  dated : ∀ seq verdict, (seq, verdict) ∈ world.verdicts → seq < world.run.nextSeq

/-- The payment has been signalled, and everything in flight about it confirms it. -/
structure Heard (world : World) (paymentId : Nat) : Prop where
  tried : world.run.saga.step ≠ .reserving
  reads : world.run.saga.step = .awaitingAuth →
    verifyAuthorization world.payment.shared.db paymentId = .verified
  awaited : Awaited world paymentId
  fresh : world.run.saga.step = .awaitingAuth → ∀ task ∈ world.run.pending,
    task.verifies paymentId = true →
      ∀ verdict, (task.seq, verdict) ∈ world.verdicts → verdict = .verified

/-! ## What the signals rely on -/

theorem verifies_pending (run : Saga.Run) (seq : Nat) (authorization : PaymentAuthorization)
    (verifies : Composition.verifies run seq = some authorization) :
    ∃ task ∈ run.pending, task.seq = seq ∧ task.activity = .verifyAuthorization authorization := by
  simp only [Composition.verifies] at verifies
  split at verifies
  · cases verifies
  rename_i task rest taken
  split at verifies
  · rename_i verified activity
    cases Option.some.inj verifies
    exact ⟨task, (takeTask_mem seq run.pending rest task taken).1,
      takeTask_seq seq run.pending rest task taken, activity⟩
  · cases verifies

theorem attentive_placed (orderId : Nat) (input : CheckoutSagaInput) (firstSeq : Nat)
    (nowMs : Int) :
    Attentive orderId (placed input firstSeq nowMs) := by
  constructor
  · exact books_placed orderId input firstSeq nowMs
  · exact verifications_initial input firstSeq nowMs
  · intro seq verdict member
    cases member

theorem step_saga (minLeadMs : Int) (maxRetries orderId : Nat) (world next : World)
    (event : Saga.Event) (slot : Nat)
    (stepped : step minLeadMs maxRetries orderId world (.saga event slot) = some next) :
    world.confirms slot event = true ∧
      ∃ run, deliver world.run event = some run ∧ next = { world with run } := by
  simp only [step] at stepped
  split at stepped
  · rename_i confirmed
    obtain ⟨run, delivered, rfl⟩ := Option.map_eq_some_iff.mp stepped
    exact ⟨confirmed, run, delivered, rfl⟩
  · cases stepped

inductive Stepped (minLeadMs : Int) (world next : World) : Prop
  | saga (delivered : Saga.Event) (slot : Nat) (confirmed : world.confirms slot delivered = true)
      (run : deliver world.run delivered = some next.run)
      (payment : next.payment = world.payment) (verdicts : next.verdicts = world.verdicts)
  | payment (happening : Payments.Happening) (issued : starts world.run happening = true)
      (moved : (Payments.system minLeadMs).step world.payment happening = some next.payment)
      (run : next.run = world.run) (verdicts : next.verdicts = world.verdicts)
  | verified (seq : Nat) (authorization : PaymentAuthorization)
      (verifies : verifies world.run seq = some authorization) (run : next.run = world.run)
      (payment : next.payment = world.payment)
      (verdicts : next.verdicts = world.verdicts ++
        [(seq, verifyAuthorization world.payment.shared.db authorization.paymentId)])
  | stock (run : next.run = world.run) (payment : next.payment = world.payment)
      (verdicts : next.verdicts = world.verdicts)

theorem stepped_of_step (minLeadMs : Int) (maxRetries orderId : Nat) (world next : World)
    (event : Event) (stepped : step minLeadMs maxRetries orderId world event = some next) :
    Stepped minLeadMs world next := by
  cases event with
  | saga event slot =>
      obtain ⟨confirmed, run, delivered, rfl⟩ :=
        step_saga minLeadMs maxRetries orderId world next event slot stepped
      exact .saga event slot confirmed delivered rfl rfl
  | payment happening =>
      simp only [step] at stepped
      split at stepped
      · rename_i issued
        obtain ⟨payment, moved, rfl⟩ := Option.map_eq_some_iff.mp stepped
        exact .payment happening issued moved rfl rfl
      · cases stepped
  | verifyAuthorization seq =>
      simp only [step] at stepped
      split at stepped
      · rename_i authorization verifies
        cases Option.some.inj stepped
        exact .verified seq authorization verifies rfl rfl rfl
      · cases stepped
  | resolve command =>
      simp only [step] at stepped
      split at stepped
      · split at stepped
        · cases Option.some.inj stepped
          exact .stock rfl rfl rfl
        · cases stepped
      · cases stepped
  | inventory operation =>
      simp only [step] at stepped
      split at stepped
      · split at stepped
        · cases stepped
        · cases Option.some.inj stepped
          exact .stock rfl rfl rfl
      · cases Option.some.inj stepped
        exact .stock rfl rfl rfl

theorem step_input (minLeadMs : Int) (maxRetries orderId : Nat) (world next : World) (event : Event)
    (stepped : step minLeadMs maxRetries orderId world event = some next) :
    next.run.input = world.run.input := by
  cases stepped_of_step minLeadMs maxRetries orderId world next event stepped with
  | saga delivered slot confirmed run payment verdicts =>
      exact deliver_input world.run next.run delivered run
  | payment happening issued moved run verdicts => rw [run]
  | verified seq authorization verifies run payment verdicts => rw [run]
  | stock run payment verdicts => rw [run]

theorem run_input (minLeadMs : Int) (maxRetries orderId : Nat) (input : CheckoutSagaInput)
    (firstSeq : Nat) (nowMs : Int) (events : List Event) (world : World)
    (success : run (step minLeadMs maxRetries orderId) (placed input firstSeq nowMs) events =
      some world) : world.run.input = input :=
  run_preserves (step minLeadMs maxRetries orderId) (fun now => now.run.input = input)
    (fun state event next same stepped =>
      (step_input minLeadMs maxRetries orderId state next event stepped).trans same)
    events _ world (checkoutSaga_input input firstSeq nowMs) success

section Steps

variable (minLeadMs : Int) (maxRetries orderId : Nat) (world next : World) (event : Event)

theorem attentive_step (inv : Attentive orderId world)
    (stepped : step minLeadMs maxRetries orderId world event = some next) :
    Attentive orderId next := by
  have books := books_step minLeadMs maxRetries orderId world event next inv.books stepped
  cases stepped_of_step minLeadMs maxRetries orderId world next event stepped with
  | saga delivered slot confirmed run payment verdicts =>
      refine ⟨books, verifications_deliver world.run next.run delivered inv.verifications run, ?_⟩
      rw [verdicts]
      intro seq verdict member
      exact Nat.lt_of_lt_of_le (inv.dated seq verdict member)
        (scheduled_deliver world.run next.run delivered run).1
  | payment happening issued moved run verdicts =>
      refine ⟨books, ?_, ?_⟩
      · rw [run]
        exact inv.verifications
      · rw [run, verdicts]
        exact inv.dated
  | verified number authorization verifies run payment verdicts =>
      refine ⟨books, ?_, ?_⟩
      · rw [run]
        exact inv.verifications
      · rw [run, verdicts]
        intro seq verdict member
        rcases List.mem_append.mp member with old | new
        · exact inv.dated seq verdict old
        · cases List.mem_singleton.mp new
          obtain ⟨task, present, rfl, -⟩ := verifies_pending world.run number authorization verifies
          exact inv.verifications.order.1 task present
  | stock run payment verdicts =>
      refine ⟨books, ?_, ?_⟩
      · rw [run]
        exact inv.verifications
      · rw [run, verdicts]
        exact inv.dated

theorem fresh_deliver (inv : Attentive orderId world) (paymentId : Nat) (delivered : Saga.Event)
    (run : deliver world.run delivered = some next.run) (verdicts : next.verdicts = world.verdicts)
    (fresh : ∀ task ∈ world.run.pending, task.verifies paymentId = true →
      ∀ verdict, (task.seq, verdict) ∈ world.verdicts → verdict = .verified) :
    ∀ task ∈ next.run.pending, task.verifies paymentId = true →
      ∀ verdict, (task.seq, verdict) ∈ next.verdicts → verdict = .verified := by
  intro task present verifies verdict member
  rw [verdicts] at member
  rcases (scheduled_deliver world.run next.run delivered run).2.2 task present with old | new
  · exact fresh task ((leftWaiting_sublist world.run delivered).subset old) verifies verdict member
  · have := inv.dated task.seq verdict member
    omega

/-- While the saga waits for an authorization nothing concludes the payment. -/
theorem unconcluded_awaiting (inv : Attentive orderId world)
    (awaiting : world.run.saga.step = .awaitingAuth) :
    ¬ world.payment.shared.db.concluded := by
  have books := inv.books
  refine books.payment.unconcluded (books.pivot.captureUnissued (.inl (by rw [awaiting]; rfl))) ?_
  by_contra issued
  obtain ⟨command, -, member⟩ :=
    (compensates_iff world.run.log .cancelPayment).mp (by simpa using issued)
  exact books.aftermath.unissued _ _ (by rw [awaiting]; rfl) command member

theorem heard_saga (inv : Attentive orderId world) (paymentId : Nat) (heard : Heard world paymentId)
    (delivered : Saga.Event) (slot : Nat) (confirmed : world.confirms slot delivered = true)
    (run : deliver world.run delivered = some next.run) (payment : next.payment = world.payment)
    (verdicts : next.verdicts = world.verdicts) : Heard next paymentId := by
  obtain ⟨reserving, awaiting⟩ := deliver_back world.run next.run delivered run
  have before : next.run.saga.step = .awaitingAuth → world.run.saga.step = .awaitingAuth :=
    fun step => (awaiting step).resolve_right heard.tried
  constructor
  · exact fun step => heard.tried (reserving step)
  · intro step
    rw [payment]
    exact heard.reads (before step)
  · intro step
    obtain ⟨task, present, verifies⟩ := heard.awaited (before step)
    rcases waits_on world.run next.run delivered run task present with still | answered
    · exact ⟨task, still, verifies⟩
    cases deliver_verifying world.run next.run delivered (.inr step) run with
    | same _ unanswered =>
        rw [unanswered (before step) task answered paymentId] at verifies
        cases verifies
    | begun authorization signal _ _ _ =>
        subst signal
        cases answered
    | refused seq verdict other authorization answers same number activity unverified _ =>
        cases same.symm.trans answered
        subst answers
        have found : (seq, verdict) ∈ world.verdicts := by
          obtain ⟨pair, taken, rfl⟩ := Option.map_eq_some_iff.mp answered
          simpa [World.confirms, taken, activity, World.answers] using confirmed
        rw [← number] at found
        exact absurd (heard.fresh (before step) task present verifies verdict found) unverified
  · intro step
    exact fresh_deliver orderId world next inv paymentId delivered run verdicts
      (heard.fresh (before step))

theorem heard_step (inv : Attentive orderId world) (paymentId : Nat) (heard : Heard world paymentId)
    (stepped : step minLeadMs maxRetries orderId world event = some next) :
    Heard next paymentId := by
  have attentive := attentive_step minLeadMs maxRetries orderId world next event inv stepped
  cases stepped_of_step minLeadMs maxRetries orderId world next event stepped with
  | saga delivered slot confirmed run payment verdicts =>
      exact heard_saga orderId world next inv paymentId heard delivered slot confirmed run payment
        verdicts
  | payment happening issued moved run verdicts =>
      constructor
      · rw [run]
        exact heard.tried
      · intro step
        have evolved := (moved_of_step minLeadMs world.payment next.payment happening
          inv.books.payment.sound moved).evolved
        have unconcluded := unconcluded_awaiting orderId next attentive step
        rw [run] at step
        exact verified_lasts _ _ inv.books.payment.sound.holds attentive.books.payment.sound.holds
          evolved unconcluded paymentId (heard.reads step)
      · unfold Awaited
        rw [run]
        exact heard.awaited
      · rw [run, verdicts]
        exact heard.fresh
  | verified seq authorization verifies run payment verdicts =>
      constructor
      · rw [run]
        exact heard.tried
      · rw [run, payment]
        exact heard.reads
      · unfold Awaited
        rw [run]
        exact heard.awaited
      · rw [run, verdicts]
        intro step task present checks verdict member
        rcases List.mem_append.mp member with old | new
        · exact heard.fresh step task present checks verdict old
        · obtain ⟨number, read⟩ := Prod.mk.inj (List.mem_singleton.mp new)
          obtain ⟨other, here, same, activity⟩ :=
            verifies_pending world.run seq authorization verifies
          cases inv.verifications.order.eq_of_seq present here (number.trans same.symm)
          simp only [Task.verifies, activity, beq_iff_eq] at checks
          rw [read, checks]
          exact heard.reads step
  | stock run payment verdicts =>
      constructor
      · rw [run]
        exact heard.tried
      · rw [run, payment]
        exact heard.reads
      · unfold Awaited
        rw [run]
        exact heard.awaited
      · rw [run, verdicts]
        exact heard.fresh

theorem announced_charge (inv : Attentive orderId world) (authorization : PaymentAuthorization)
    (genuine : Genuine world.payment.shared.db authorization) :
    authorization.amountMinor = world.run.input.totalMinor ∧
      authorization.currency = Payments.toUpperCase world.run.input.currency := by
  have holds := inv.books.payment.sound.holds
  obtain ⟨header, row, rest, known, -⟩ := head_of_verified _ holds _ genuine.reads
  obtain ⟨record, listed, -, amount, currency⟩ := genuine.announced
  have announced := holds.announced header known
  cases stamp : header.authorizedAt with
  | none =>
      simp only [stamp] at announced
      rw [announced] at listed
      cases listed
  | some authorizedAt =>
      simp only [stamp] at announced
      obtain ⟨written, outbox, -, charge, named⟩ := announced
      rw [outbox] at listed
      cases List.mem_singleton.mp listed
      obtain ⟨total, code⟩ := inv.books.payment.charged header _ known charge
      rw [named] at code
      exact ⟨amount.symm.trans total, currency.symm.trans (Option.some.inj code)⟩

end Steps

theorem heard_signal (minLeadMs : Int) (maxRetries orderId : Nat) (world next : World)
    (inv : Attentive orderId world)
    (upper : Payments.toUpperCase world.run.input.currency = world.run.input.currency)
    (authorization : PaymentAuthorization) (slot : Nat)
    (genuine : Genuine world.payment.shared.db authorization)
    (receptive : Receptive world authorization.paymentId)
    (stepped : step minLeadMs maxRetries orderId world
      (.saga (.paymentAuthorized authorization) slot) = some next) :
    Heard next authorization.paymentId := by
  obtain ⟨-, run, delivered, rfl⟩ := step_saga minLeadMs maxRetries orderId world next _ slot
    stepped
  obtain ⟨reserving, awaiting⟩ := deliver_back world.run run _ delivered
  constructor
  · exact fun step => receptive.tried (reserving step)
  · exact fun _ => genuine.reads
  · intro step
    obtain ⟨amount, currency⟩ := announced_charge orderId world inv authorization genuine
    rw [upper] at currency
    exact signal_waits world.run run authorization inv.verifications
      ((awaiting step).resolve_right receptive.tried) amount currency delivered
  · exact fun _ => fresh_deliver orderId world { world with run } inv _ _ delivered rfl
      receptive.fresh

/-- A signal of the payment service that finds the saga receptive is never forgotten. -/
theorem authorization_heard (minLeadMs : Int) (maxRetries orderId : Nat) (input : CheckoutSagaInput)
    (upper : Payments.toUpperCase input.currency = input.currency) (firstSeq : Nat) (nowMs : Int)
    (before after : List Event) (world final : World) (authorization : PaymentAuthorization)
    (slot : Nat)
    (reached : run (step minLeadMs maxRetries orderId) (placed input firstSeq nowMs) before =
      some world)
    (genuine : Genuine world.payment.shared.db authorization)
    (receptive : Receptive world authorization.paymentId)
    (success : run (step minLeadMs maxRetries orderId) world
      (.saga (.paymentAuthorized authorization) slot :: after) = some final) :
    Awaited final authorization.paymentId := by
  have inv := run_preserves (step minLeadMs maxRetries orderId) (Attentive orderId)
    (fun state event next holds stepped =>
      attentive_step minLeadMs maxRetries orderId state next event holds stepped)
    before _ world (attentive_placed orderId input firstSeq nowMs) reached
  obtain ⟨next, signalled, remains⟩ := run_cons_eq_some _ world final _ after success
  have same := run_input minLeadMs maxRetries orderId input firstSeq nowMs before world reached
  have heard := heard_signal minLeadMs maxRetries orderId world next inv (by rw [same]; exact upper)
    authorization slot genuine receptive signalled
  have held := run_preserves (step minLeadMs maxRetries orderId)
    (fun now => Attentive orderId now ∧ Heard now authorization.paymentId)
    (fun state event later holds stepped =>
      ⟨attentive_step minLeadMs maxRetries orderId state later event holds.1 stepped,
        heard_step minLeadMs maxRetries orderId state later event holds.1 _ holds.2 stepped⟩)
    after next final
    ⟨attentive_step minLeadMs maxRetries orderId world next _ inv signalled, heard⟩ remains
  exact held.2.awaited

theorem authorization_heard_held : ∃ world final,
    run (step 10 3 1) (placed ⟨.checkout, 0, none, 500, "USD", 1000⟩ 0 0)
      (heldEvents ++ openedEvents ++ recordedEvents) = some world ∧
    run (step 10 3 1) world
      [.saga (.paymentAuthorized ⟨7, 500, "USD", 0⟩) 0, .verifyAuthorization 2] = some final ∧
    final.run.saga.step = .awaitingAuth ∧ Awaited final 7 := by
  have view : (run (step 10 3 1) (placed ⟨.checkout, 0, none, 500, "USD", 1000⟩ 0 0)
      (heldEvents ++ openedEvents ++ recordedEvents)).bind (fun world =>
        (run (step 10 3 1) world
          [.saga (.paymentAuthorized ⟨7, 500, "USD", 0⟩) 0, .verifyAuthorization 2]).map
          fun final => decide (verifyAuthorization world.payment.shared.db 7 = .verified ∧
            world.payment.shared.db.outbox = [⟨9, 7, 500, "USD", 0⟩] ∧
            world.run.saga.step = .awaitingAuth ∧ world.run.pending = [] ∧
            final.run.saga.step = .awaitingAuth)) = some true := by
    decide +kernel
  obtain ⟨world, reached, later⟩ := Option.bind_eq_some_iff.mp view
  obtain ⟨final, ran, same⟩ := Option.map_eq_some_iff.mp later
  obtain ⟨reads, outbox, awaiting, idle, still⟩ := of_decide_eq_true same
  have genuine : Genuine world.payment.shared.db ⟨7, 500, "USD", 0⟩ := by
    refine ⟨reads, ?_⟩
    rw [outbox]
    exact ⟨_, List.mem_singleton_self _, rfl, rfl, rfl⟩
  have receptive : Receptive world 7 := by
    constructor
    · simp [awaiting]
    · simp [idle]
  exact ⟨world, final, reached, ran, still,
    authorization_heard 10 3 1 _ (by decide) 0 0 _ _ world final _ 0 reached genuine receptive ran⟩

/-- A session is open and the saga is told too early: the verification reads `OPEN`, and
the hold is recorded while that answer is on its way. -/
def earlyEvents : List Event :=
  heldEvents ++ openedEvents ++
  [.saga (.paymentAuthorized ⟨7, 500, "USD", 0⟩) 0, .verifyAuthorization 2] ++ recordedEvents

def droppedEvents : List Event :=
  [.saga (.paymentAuthorized ⟨7, 500, "USD", 0⟩) 0, .saga (.answered 2 (.verdict .notAuthorized)) 0]

/-- A verification that read the header too early answers after the signal: the saga waits,
with nothing in flight, for an authorization that was announced once. -/
theorem authorization_dropped : ∃ world final,
    run (step 10 3 1) (placed ⟨.checkout, 0, none, 500, "USD", 1000⟩ 0 0) earlyEvents = some world ∧
    Genuine world.payment.shared.db ⟨7, 500, "USD", 0⟩ ∧
    run (step 10 3 1) world droppedEvents = some final ∧
    final.run.tryRun = .done .held ∧ final.run.saga.step = .awaitingAuth ∧
    final.run.saga.verifying = [] ∧ final.run.pending = [] ∧
    verifyAuthorization final.payment.shared.db 7 = .verified ∧ ¬ Awaited final 7 := by
  have view : (run (step 10 3 1) (placed ⟨.checkout, 0, none, 500, "USD", 1000⟩ 0 0)
      earlyEvents).bind (fun world => (run (step 10 3 1) world droppedEvents).map fun final =>
        decide (verifyAuthorization world.payment.shared.db 7 = .verified ∧
          world.payment.shared.db.outbox = [⟨9, 7, 500, "USD", 0⟩] ∧
          final.run.tryRun = .done .held ∧ final.run.saga.step = .awaitingAuth ∧
          final.run.saga.verifying = [] ∧ final.run.pending = [] ∧
          verifyAuthorization final.payment.shared.db 7 = .verified)) = some true := by
    decide +kernel
  obtain ⟨world, reached, later⟩ := Option.bind_eq_some_iff.mp view
  obtain ⟨final, ran, same⟩ := Option.map_eq_some_iff.mp later
  obtain ⟨reads, outbox, tried, awaiting, verifying, pending, verified⟩ := of_decide_eq_true same
  refine ⟨world, final, reached, ⟨reads, ?_⟩, ran, tried, awaiting, verifying, pending, verified,
    ?_⟩
  · rw [outbox]
    exact ⟨_, List.mem_singleton_self _, rfl, rfl, rfl⟩
  · intro awaited
    obtain ⟨task, present, -⟩ := awaited awaiting
    rw [pending] at present
    cases present

end Commerce.Composition
