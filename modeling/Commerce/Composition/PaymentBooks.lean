import Commerce.Composition.StockBooks

/-!
# The payment of a composed order

What one step of the participant can do, by the request whose program takes it, and
what follows from the order in which the saga issues its commands: a capture starts
under a header that was `AUTHORIZED`, and a cancel only once no capture can succeed.
-/

set_option autoImplicit false

namespace Commerce.Composition

open Commerce.Payments (AllReleased Evolves Happening Request Returns)
open Commerce.Saga
open Programs (System)

/-! ## One step of the participant -/

structure Moved (world next : Payments.World) (happening : Happening) : Prop where
  sound : Payments.Sound next
  evolved : Evolves world.shared next.shared
  /-- A program keeps its request and the state it started in. -/
  threads : ∀ slot thread, next.threads slot = some thread →
    (∃ before, world.threads slot = some before ∧ before.request = thread.request ∧
      before.since = thread.since) ∨
    (happening = .start slot thread.request ∧ thread.since = world.shared)
  captures : (∀ slot thread, world.threads slot = some thread → thread.request ≠ .capture) →
    ∀ ref, next.shared.stripe.Captured ref → world.shared.stripe.Captured ref
  bars : (∀ slot thread, world.threads slot = some thread → thread.request ≠ .cancel) →
    next.shared.db.barred → world.shared.db.barred ∨ AllReleased next.shared
  concludes : (∀ slot thread, world.threads slot = some thread →
    thread.request.concludes = false) → next.shared.db.concluded → world.shared.db.concluded
  /-- A header comes in with the charge of an open that runs. -/
  opens : ∀ header amountMinor, world.shared.db.header = none →
    next.shared.db.header = some header → header.amountMinor = some amountMinor →
      ∃ slot thread currency expiresAt, world.threads slot = some thread ∧
        thread.request = .openSession amountMinor currency expiresAt ∧
          header.currency = some (Payments.toUpperCase currency)
  /-- A request answered in this step is answered of the state it leaves. -/
  answered : ∀ slot request since reply,
    next.threads slot = some ⟨request, since, .done reply⟩ →
      world.threads slot = some ⟨request, since, .done reply⟩ ∨
        Returns request since reply next.shared

theorem moved_start (minLeadMs : Int) (world next : Payments.World) (slot : Nat) (request : Request)
    (sound : Payments.Sound world)
    (stepped : (Payments.system minLeadMs).step world (.start slot request) = some next) :
    Moved world next (.start slot request) := by
  obtain ⟨nextSound, evolved⟩ := (Payments.verified minLeadMs).step_sound world _ next sound stepped
  obtain ⟨free, admitted, rfl⟩ := System.step_start _ world next slot request stepped
  have programmed :=
    (Payments.verified minLeadMs).program slot world.shared request sound.holds admitted
  constructor
  · exact nextSound
  · exact evolved
  · intro other thread present
    by_cases same : other = slot
    · subst same
      cases (Function.update_self other _ world.threads).symm.trans present
      exact .inr ⟨rfl, rfl⟩
    · exact .inl ⟨thread, (Function.update_of_ne same ..).symm.trans present, rfl, rfl⟩
  · exact fun _ _ captured => captured
  · exact fun _ barred => .inl barred
  · exact fun _ concluded => concluded
  · intro header amountMinor absent known
    cases absent.symm.trans known
  · intro other asked since reply present
    by_cases same : other = slot
    · subst same
      have started := Option.some.inj ((Function.update_self other _ world.threads).symm.trans
        present)
      obtain ⟨rfl, rfl, ended⟩ := Programs.Thread.mk.inj started
      rw [ended] at programmed
      exact .inr programmed
    · exact .inl ((Function.update_of_ne same ..).symm.trans present)

theorem moved_step (minLeadMs : Int) (world next : Payments.World) (slot : Nat)
    (choice : Payments.Choice) (sound : Payments.Sound world)
    (stepped : (Payments.system minLeadMs).step world (.step slot choice) = some next) :
    Moved world next (.step slot choice) := by
  obtain ⟨nextSound, evolved⟩ := (Payments.verified minLeadMs).step_sound world _ next sound stepped
  obtain ⟨request, since, effect, after, busy, rfl⟩ :=
    System.step_step _ world next slot choice stepped
  have ready := sound.ready slot _ busy
  obtain ⟨-, guaranteed, -⟩ := (Payments.verified minLeadMs).acted since world.shared slot request
    since effect after choice sound.holds ready
  constructor
  · exact nextSound
  · exact evolved
  · intro other thread present
    by_cases same : other = slot
    · subst same
      cases (Function.update_self other _ world.threads).symm.trans present
      exact .inl ⟨_, busy, rfl, rfl⟩
    · exact .inl ⟨thread, (Function.update_of_ne same ..).symm.trans present, rfl, rfl⟩
  · exact fun none => guaranteed.captures (none slot _ busy)
  · exact fun none => guaranteed.bars (none slot _ busy)
  · exact fun none => guaranteed.concludes (none slot _ busy)
  · intro header amountMinor absent known amount
    obtain ⟨currency, expiresAt, opens, named⟩ :=
      guaranteed.opens header amountMinor absent known amount
    exact ⟨slot, _, currency, expiresAt, busy, opens, named⟩
  · intro other asked began reply present
    by_cases same : other = slot
    · subst same
      have acted := Option.some.inj ((Function.update_self other _ world.threads).symm.trans
        present)
      obtain ⟨rfl, rfl, ended⟩ := Programs.Thread.mk.inj acted
      exact .inr (System.Ready.acted_returned since world.shared other request since effect after
        choice reply sound.holds ready ended)
    · exact .inl ((Function.update_of_ne same ..).symm.trans present)

theorem moved_move (minLeadMs : Int) (world next : Payments.World) (change : Payments.StripeMove)
    (sound : Payments.Sound world)
    (stepped : (Payments.system minLeadMs).step world (.move change) = some next) :
    Moved world next (.move change) := by
  obtain ⟨nextSound, evolved⟩ := (Payments.verified minLeadMs).step_sound world _ next sound stepped
  obtain ⟨shared, moved, rfl⟩ := System.step_move _ world next change stepped
  obtain ⟨stripe, changed, rfl⟩ := Option.map_eq_some_iff.mp moved
  have quiet := Payments.Stripe.move_spec world.shared.stripe stripe change sound.holds.sane changed
  constructor
  · exact nextSound
  · exact evolved
  · exact fun slot thread present => .inl ⟨thread, present, rfl, rfl⟩
  · exact fun _ ref => quiet.captures ref
  · exact fun _ barred => .inl barred
  · exact fun _ concluded => concluded
  · intro header amountMinor absent known
    cases absent.symm.trans known
  · exact fun _ _ _ _ present => .inl present

theorem moved_of_step (minLeadMs : Int) (world next : Payments.World) (happening : Happening)
    (sound : Payments.Sound world)
    (stepped : (Payments.system minLeadMs).step world happening = some next) :
    Moved world next happening := by
  cases happening with
  | start slot request => exact moved_start minLeadMs world next slot request sound stepped
  | step slot choice => exact moved_step minLeadMs world next slot choice sound stepped
  | move change => exact moved_move minLeadMs world next change sound stepped

/-! ## The books -/

structure PaymentBooks (world : World) : Prop where
  sound : Payments.Sound world.payment
  verified : ∀ seq, (seq, .verified) ∈ world.verdicts → world.payment.shared.db.shut
  shut : .issued .commitStock ∈ world.run.log → world.payment.shared.db.shut
  started : ∀ slot thread, world.payment.threads slot = some thread →
    requests world.run.input world.run.log thread.request = true ∧
      (thread.request = .capture → thread.since.db.shut)
  untouched : .issued .capturePayment ∉ world.run.log →
    ∀ ref, ¬ world.payment.shared.stripe.Captured ref
  unbarred : compensates world.run.log .cancelPayment = false →
    world.payment.shared.db.barred → AllReleased world.payment.shared
  unconcluded : .issued .capturePayment ∉ world.run.log →
    compensates world.run.log .cancelPayment = false → ¬ world.payment.shared.db.concluded
  charged : ∀ header amountMinor, world.payment.shared.db.header = some header →
    header.amountMinor = some amountMinor → amountMinor = world.run.input.totalMinor ∧
      header.currency = some (Payments.toUpperCase world.run.input.currency)
  /-- Before any cancel, a capture that was refused found every attempt released. -/
  refused : compensates world.run.log .cancelPayment = false → ∀ slot since,
    world.payment.threads slot = some ⟨.capture, since, .done (.captured .notCapturable)⟩ →
      AllReleased world.payment.shared
  spent : .captured .notCapturable ∈ world.run.log →
    world.payment.shared.db.shut ∧ AllReleased world.payment.shared

theorem requests_append (input : CheckoutSagaInput) (log more : List Entry) (request : Request)
    (issued : requests input log request = true) : requests input (log ++ more) request = true := by
  cases request with
  | capture => exact decide_eq_true (List.mem_append_left _ (of_decide_eq_true issued))
  | cancel => exact compensates_append log more .cancelPayment issued
  | openSession amountMinor currency expiresAt => exact issued
  | webhook event => rfl
  | reconcile => rfl

theorem compensates_unissued (log more : List Entry) (type : CompensationType)
    (unissued : compensates (log ++ more) type = false) : compensates log type = false := by
  cases issued : compensates log type with
  | false => rfl
  | true => exact absurd (compensates_append log more type issued) (by simp [unissued])

theorem PaymentBooks.shut_of_path (world : World) (aftermath : RunAftermath world.run)
    (books : PaymentBooks world) (path : world.run.saga.step = .capturing ∨
      .issued .capturePayment ∈ world.run.log) : world.payment.shared.db.shut :=
  books.shut (aftermath.confirming (.inr path))

theorem paymentBooks_saga (world : World) (pivot : RunPivot world.run)
    (aftermath : RunAftermath world.run) (books : PaymentBooks world) (slot : Nat)
    (event : Saga.Event) (next : Saga.Run) (confirmed : world.confirms slot event = true)
    (delivered : deliver world.run event = some next) :
    PaymentBooks { world with run := next } := by
  obtain ⟨more, log⟩ := deliver_log world.run next event delivered
  constructor
  · exact books.sound
  · exact books.verified
  · intro issued
    rcases confirmed_evidence world slot event next _ rfl confirmed delivered issued with
      old | ⟨task, -, seq, result, answered, ⟨authorization, verifies⟩, rfl⟩
    · exact books.shut old
    · rw [verifies] at answered
      exact books.verified _ (of_decide_eq_true answered)
  · intro other thread present
    obtain ⟨requested, shut⟩ := books.started other thread present
    refine ⟨?_, shut⟩
    rw [log, deliver_input world.run next event delivered]
    exact requests_append world.run.input world.run.log more thread.request requested
  · intro unissued
    apply books.untouched
    intro issued
    apply unissued
    rw [log]
    exact List.mem_append_left _ issued
  · intro unissued
    rw [log] at unissued
    exact books.unbarred (compensates_unissued world.run.log more _ unissued)
  · intro uncaptured unissued
    rw [log] at uncaptured unissued
    exact books.unconcluded (fun issued => uncaptured (List.mem_append_left _ issued))
      (compensates_unissued world.run.log more _ unissued)
  · rw [deliver_input world.run next event delivered]
    exact books.charged
  · intro unissued
    rw [log] at unissued
    exact books.refused (compensates_unissued world.run.log more _ unissued)
  · intro logged
    rcases confirmed_evidence world slot event next _ rfl confirmed delivered logged with
      old | ⟨task, listed, seq, result, answered, captures, rfl⟩
    · exact books.spent old
    · -- while the saga is capturing it has compensated nothing
      have capturing := capturing_of_pending world.run pivot task listed captures
      have uncompensated : compensates world.run.log .cancelPayment = false := by
        by_contra issued
        obtain ⟨command, -, member⟩ :=
          (compensates_iff world.run.log .cancelPayment).mp (by simpa using issued)
        have undoing := aftermath.undoing command member
        rw [capturing] at undoing
        cases undoing
      rw [captures] at answered
      obtain ⟨since, ended⟩ := world.payment.result_some slot _ _ (eq_of_beq answered)
      exact ⟨books.shut_of_path world aftermath (.inl capturing),
        books.refused uncompensated slot since ended⟩

theorem paymentBooks_verify (world : World) (books : PaymentBooks world) (seq paymentId : Nat) :
    PaymentBooks { world with
      verdicts := world.verdicts ++
        [(seq, verifyAuthorization world.payment.shared.db paymentId)] } := by
  obtain ⟨sound, verified, shut, started, untouched, unbarred, unconcluded, charged, refused,
    spent⟩ :=
    books
  refine ⟨sound, ?_, shut, started, untouched, unbarred, unconcluded, charged, refused, spent⟩
  intro other member
  rcases List.mem_append.mp member with old | new
  · exact verified other old
  · obtain ⟨-, found⟩ := Prod.mk.inj (List.mem_singleton.mp new)
    exact shut_of_verified world.payment.shared.db paymentId found.symm

theorem paymentBooks_payment (minLeadMs : Int) (world : World) (aftermath : RunAftermath world.run)
    (books : PaymentBooks world) (happening : Happening) (payment : Payments.World)
    (issued : starts world.run happening = true)
    (stepped : (Payments.system minLeadMs).step world.payment happening = some payment) :
    PaymentBooks { world with payment } := by
  have moved := moved_of_step minLeadMs world.payment payment happening books.sound stepped
  have evolved := moved.evolved
  have idle : ∀ request, requests world.run.input world.run.log request = false →
      ∀ slot thread, world.payment.threads slot = some thread → thread.request ≠ request := by
    rintro request unissued slot thread present rfl
    rw [(books.started slot thread present).1] at unissued
    cases unissued
  have bars : compensates world.run.log .cancelPayment = false → payment.shared.db.barred →
      AllReleased payment.shared := by
    intro unissued barred
    rcases moved.bars (idle .cancel unissued) barred with before | released
    · exact evolved.allReleased _ _ (Payments.Db.barred.shut _ before)
        (books.unbarred unissued before)
    · exact released
  constructor
  · exact moved.sound
  · exact fun paymentId member => evolved.shut (books.verified paymentId member)
  · exact fun member => evolved.shut (books.shut member)
  · intro slot thread present
    rcases moved.threads slot thread present with ⟨before, here, request, since⟩ | ⟨start, since⟩
    · rw [← request, ← since]
      exact books.started slot before here
    · subst start
      refine ⟨issued, ?_⟩
      intro captures
      rw [since]
      rw [starts, captures] at issued
      exact books.shut_of_path world aftermath (.inr (of_decide_eq_true issued))
  · intro unissued ref captured
    exact books.untouched unissued ref
      (moved.captures (idle .capture (decide_eq_false unissued)) ref captured)
  · exact bars
  · intro uncaptured unissued concluded
    refine books.unconcluded uncaptured unissued (moved.concludes ?_ concluded)
    intro slot thread present
    have notCapture := idle .capture (decide_eq_false uncaptured) slot thread present
    have notCancel := idle .cancel unissued slot thread present
    cases asked : thread.request with
    | capture => exact absurd asked notCapture
    | cancel => exact absurd asked notCancel
    | openSession amountMinor currency expiresAt => rfl
    | webhook event => rfl
    | reconcile => rfl
  · intro header amountMinor known amount
    cases before : world.payment.shared.db.header with
    | some header' =>
        obtain ⟨found, present, sameAmount, sameCurrency⟩ := evolved.charge header' before
        cases known.symm.trans present
        rw [sameCurrency]
        exact books.charged header' amountMinor before (sameAmount.symm.trans amount)
    | none =>
        obtain ⟨slot, thread, currency, expiresAt, present, opens, named⟩ :=
          moved.opens header amountMinor before known amount
        have asked := (books.started slot thread present).1
        rw [opens] at asked
        simp only [requests, Bool.and_eq_true, beq_iff_eq] at asked
        rw [named, asked.2]
        exact ⟨asked.1, rfl⟩
  · intro unissued slot since ended
    rcases moved.answered slot .capture since _ ended with before | meets
    · have shut := (books.started slot _ before).2 rfl
      obtain ⟨past, began, reached, -⟩ := System.Ready.returned _ _ _ _ _ _
        (books.sound.ready slot _ before)
      exact evolved.allReleased _ _ (reached.shut (began.shut shut))
        (books.refused unissued slot since before)
    · exact meets.elim id (bars unissued)
  · intro logged
    obtain ⟨shut, released⟩ := books.spent logged
    exact ⟨evolved.shut shut, evolved.allReleased _ _ shut released⟩

end Commerce.Composition
