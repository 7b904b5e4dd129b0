import Commerce.Payments.Participant

/-!
# What every run of the payment participant leaves

The laws of the participant over whole runs: any number of requests at once,
in any order, with any action of any of them failing or never being answered.
-/

set_option autoImplicit false

namespace Commerce.Payments

open Programs (Event System)

/-- The participant's state in a run: which tables and which Stripe, and what is still running. -/
abbrev World := Programs.World Shared Choice Fault Reply Nat Request

abbrev Happening := Event Nat Request Choice StripeMove

def Reaches (minLeadMs : Int) (events : List Happening) (world : World) : Prop :=
  Runs.run (system minLeadMs).step (System.idle start) events = some world

abbrev Sound (world : World) : Prop := System.Sound Inv Evolves Rely Guarantee Returns world

theorem sound_start : Sound (System.idle start) := System.sound_idle start inv_start

theorem sound_of_reaches (minLeadMs : Int) (events : List Happening) (world : World)
    (success : Reaches minLeadMs events world) : Sound world :=
  ((verified minLeadMs).run_sound events _ world sound_start success).1

/-! ## The header and its attempts -/

structure RecordsAgree (db : Db) : Prop where
  announcedOnce : db.outbox.length ≤ 1
  stamped : (∃ header, db.header = some header ∧ header.authorizedAt.isSome) ↔ db.outbox ≠ []
  charged : ∀ header record, db.header = some header → record ∈ db.outbox →
    header.authorizedAt = some record.authorizedAt ∧
      header.amountMinor = some record.amountMinor ∧ header.currency = some record.currency
  oneActive : (db.payments.filter fun row => !row.status.retired).length ≤ 1
  authorized : ∀ header, db.header = some header → header.status = .authorized →
    ∃ row intentId, db.findByOrderId = some row ∧ row.status = .authorized ∧
      row.providerIntentId = some intentId
  captured : ∀ header, db.header = some header → header.status = .captured →
    ∃ row ∈ db.payments, row.status = .succeeded

theorem oneActive_of_rows (db : Db) (rows : Rows db) :
    (db.payments.filter fun row => !row.status.retired).length ≤ 1 := by
  cases shape : db.payments with
  | nil => simp
  | cons newest older =>
      have others : older.filter (fun row => !row.status.retired) = [] := by
        rw [List.filter_eq_nil_iff]
        intro row listed
        have retired := rows.retired row (by simpa [shape] using listed)
        simp [retired]
      rw [List.filter_cons, others]
      split <;> simp

theorem recordsAgree_of_inv (shared : Shared) (inv : Inv shared) : RecordsAgree shared.db := by
  have outbox : shared.db.header = none ∧ shared.db.outbox = [] ∨
      ∃ header, shared.db.header = some header := by
    cases known : shared.db.header with
    | none => exact .inl ⟨rfl, (inv.header.absent known).2⟩
    | some header => exact .inr ⟨header, rfl⟩
  refine ⟨?_, ?_, ?_, oneActive_of_rows shared.db inv.rows, ?_, ?_⟩
  · rcases outbox with ⟨-, empty⟩ | ⟨header, known⟩
    · simp [empty]
    · have announced := inv.announced header known
      split at announced
      · simp [announced]
      · obtain ⟨record, written, -⟩ := announced
        simp [written]
  · rcases outbox with ⟨absent, empty⟩ | ⟨header, known⟩
    · simp [absent, empty]
    · have announced := inv.announced header known
      split at announced
      · rename_i unstamped
        simp [known, unstamped, announced]
      · rename_i authorizedAt stamped
        obtain ⟨record, written, -⟩ := announced
        simp [known, stamped, written]
  · intro header record known listed
    rcases outbox with ⟨absent, -⟩ | ⟨found, present⟩
    · cases absent.symm.trans known
    · cases present.symm.trans known
      have announced := inv.announced header known
      split at announced
      · simp [announced] at listed
      · rename_i authorizedAt stamped
        obtain ⟨only, written, stamp, amount, currency⟩ := announced
        rw [written, List.mem_singleton] at listed
        subst listed
        exact ⟨stamped.trans (congrArg some stamp.symm), amount, currency⟩
  · intro header known status
    have agrees := inv.header.status header known
    rw [status] at agrees
    obtain ⟨row, rest, shape, authorized⟩ := agrees
    have listed : row ∈ shared.db.payments := by simp [shape]
    have backed := inv.backed row listed
    rw [Backed, authorized] at backed
    obtain ⟨intentId, linked, -⟩ := backed
    exact ⟨row, intentId, by rw [Db.findByOrderId_eq_head shared.db inv.rows, shape]; rfl,
      authorized,
      linked⟩
  · intro header known status
    have agrees := inv.header.status header known
    rw [status] at agrees
    obtain ⟨row, rest, shape, succeeded⟩ := agrees
    exact ⟨row, by simp [shape], succeeded⟩

theorem authorization_announced_once (minLeadMs : Int) (events : List Happening) (world : World)
    (success : Reaches minLeadMs events world) : RecordsAgree world.shared.db :=
  recordsAgree_of_inv world.shared (sound_of_reaches minLeadMs events world success).holds

def paidEvents : List Happening :=
  .start 0 (.openSession 500 "usd" 100) :: List.replicate 6 (.step 0 { id := 7 }) ++
    .move (.checkout 0 ⟨.requiresCapture, 500, "usd"⟩) ::
    .start 1 (.webhook ⟨1, .completed, some 0⟩) :: List.replicate 9 (.step 1 { id := 9 })

theorem authorization_announced_once_paid : ∃ world, Reaches 10 paidEvents world ∧
    world.shared.db.outbox = [⟨9, 7, 500, "USD", 0⟩] ∧ RecordsAgree world.shared.db := by
  have view : (Runs.run (system 10).step (System.idle start) paidEvents).map
      (·.shared.db.outbox) = some [⟨9, 7, 500, "USD", 0⟩] := by decide +kernel
  obtain ⟨world, reached, written⟩ := Option.map_eq_some_iff.mp view
  exact ⟨world, reached, written, authorization_announced_once 10 paidEvents world reached⟩

/-! ## Cancelling is final -/

theorem listed_of_intent (shared : Shared) (inv : Inv shared) (ref intentId : Nat)
    (completed : shared.stripe.IntentOf ref intentId) :
    ∃ row ∈ shared.db.payments, row.providerSessionId = ref := by
  obtain ⟨session, known, complete, -⟩ := completed
  exact inv.handed ref ⟨session, known, (inv.sane.complete ref session known complete).1⟩

/-- With every attempt released, no intent of any session holds money. -/
theorem gone_of_released (shared : Shared) (inv : Inv shared) (released : AllReleased shared)
    (ref intentId : Nat) (completed : shared.stripe.IntentOf ref intentId) :
    shared.stripe.IntentGone intentId := by
  obtain ⟨row, listed, same⟩ := listed_of_intent shared inv ref intentId completed
  rcases released row listed with ⟨session, known, expired⟩ | ⟨other, own, gone⟩
  · obtain ⟨found, present, complete, -⟩ := completed
    rw [same] at known
    cases known.symm.trans present
    simp [expired] at complete
  · rw [same] at own
    rwa [Stripe.intentOf_unique _ _ _ _ completed own]

/-- What stays true of an order once a cancel of it was answered in this world. -/
structure StaysCancelled (cancelled final : World) : Prop where
  attempts : AllReleased final.shared
  intents : ∀ ref intentId, final.shared.stripe.IntentOf ref intentId →
    final.shared.stripe.IntentGone intentId
  closed : ∀ slot amountMinor currency expiresAt since reply, cancelled.threads slot = none →
    final.threads slot = some ⟨.openSession amountMinor currency expiresAt, since, .done reply⟩ →
      reply = .session .closed

theorem cancellation_final (minLeadMs : Int) (events more : List Happening)
    (cancelled final : World) (slot : Nat) (since : Shared) (outcome : CancelOutcome)
    (success : Reaches minLeadMs events cancelled)
    (returned : cancelled.threads slot = some ⟨.cancel, since, .done (.cancelled outcome)⟩)
    (kept : outcome ≠ .capturedConflict)
    (later : Runs.run (system minLeadMs).step cancelled more = some final) :
    StaysCancelled cancelled final := by
  have sound := sound_of_reaches minLeadMs events cancelled success
  obtain ⟨finalSound, evolved⟩ := (verified minLeadMs).run_sound more cancelled final sound later
  obtain ⟨past, -, reached, meets⟩ := System.Ready.returned _ _ _ _ _ _
    (sound.ready slot _ returned)
  simp only [Returns, CancelMeets, if_neg kept] at meets
  obtain ⟨concluded, released⟩ := meets
  have shut := Db.concluded.shut past.db concluded
  have released := evolved.allReleased _ _ (reached.shut shut)
    (reached.allReleased past cancelled.shared shut released)
  refine ⟨released, gone_of_released final.shared finalSound.holds released, ?_⟩
  intro other amountMinor currency expiresAt began reply free answered
  have started := (verified minLeadMs).run_started more cancelled final other _ sound free later
    answered
  obtain ⟨now, -, -, replied⟩ := System.Ready.returned _ _ _ _ _ _
    (finalSound.ready other _ answered)
  cases reply with
  | session result => exact congrArg Reply.session (replied (started.shut (reached.shut shut)))
  | captured | cancelled | event | reconciled => exact replied.elim

/-- Opened, cancelled, and opened again. -/
theorem cancellation_final_reopened : ∃ cancelled final,
    Reaches 10 (.start 0 (.openSession 500 "usd" 100) :: List.replicate 6 (.step 0 { id := 7 }) ++
      .start 1 .cancel :: List.replicate 3 (.step 1 {})) cancelled ∧
    Runs.run (system 10).step cancelled
      (.start 2 (.openSession 500 "usd" 100) :: List.replicate 2 (.step 2 {})) = some final ∧
    StaysCancelled cancelled final := by
  have view : (Runs.run (system 10).step (System.idle start)
      (.start 0 (.openSession 500 "usd" 100) :: List.replicate 6 (.step 0 { id := 7 }) ++
        .start 1 .cancel :: List.replicate 3 (.step 1 {}))).map
      (fun world => (world.result 1, (Runs.run (system 10).step world
        (.start 2 (.openSession 500 "usd" 100) :: List.replicate 2 (.step 2 {}))).isSome)) =
      some (some (.cancel, some (.cancelled .cancelled)), true) := by decide +kernel
  obtain ⟨cancelled, reached, same⟩ := Option.map_eq_some_iff.mp view
  obtain ⟨answered, continues⟩ := Prod.mk.inj same
  obtain ⟨since, returned⟩ := cancelled.result_some 1 _ _ answered
  obtain ⟨final, later⟩ := Option.isSome_iff_exists.mp continues
  exact ⟨cancelled, final, reached, later, cancellation_final 10 _ _ cancelled final 1 since
    .cancelled reached returned (by decide) later⟩

/-! ## Captures agree with Stripe -/

/-- Every capture and every cancel was answered, itself or, where it crashed, by a retry. -/
def Quiesced (minLeadMs : Int) (events : List Happening) (world : World) : Prop :=
  ∀ slot thread, world.threads slot = some thread →
    thread.request = .capture ∨ thread.request = .cancel →
      (system minLeadMs).Answered (System.idle start) events world slot thread.request

/-- Whatever only one kind of command brings about, that command was answered afterwards. -/
theorem answered_after (minLeadMs : Int) (events : List Happening) (world : World)
    (Changed : Shared → Prop) (command : Request)
    (success : Reaches minLeadMs events world) (quiesced : Quiesced minLeadMs events world)
    (kind : command = .capture ∨ command = .cancel)
    (moves : ∀ now change later, Inv now → (system minLeadMs).move now change = some later →
      Changed later → Changed now)
    (others : ∀ slot request now later, request ≠ command → Inv now → Inv later →
      Guarantee slot request now later → Changed later → Changed now)
    (unchanged : ¬ Changed start) (changed : Changed world.shared) :
    ∃ next past since reply, Inv next ∧ Changed next ∧ Evolves next past ∧
      Evolves past world.shared ∧ Returns command since reply past := by
  obtain ⟨before, slot, choice, after, now, next, thread, rfl, upTo, -, stepped, gained, rest,
    present,
    asked, ready⟩ := (verified minLeadMs).run_changed Changed
      (· = command) moves others events _ world
      sound_start unchanged success changed
  obtain ⟨nowSound, -⟩ := (verified minLeadMs).run_sound before _ now sound_start upTo
  obtain ⟨nextSound, -⟩ := (verified minLeadMs).step_sound now _ next nowSound stepped
  obtain ⟨found, still, sameRequest⟩ := System.run_thread after next world slot thread present rest
  have answered := quiesced slot found still (by rwa [sameRequest, asked])
  rw [sameRequest] at answered
  obtain ⟨past, since, reply, began, reached, meets⟩ :=
    (verified minLeadMs).run_answered before after
    _ now next world slot choice thread sound_start upTo stepped rest present ready answered
  rw [asked] at meets
  exact ⟨next.shared, past, since, reply, nextSound.holds, gained, began, reached, meets⟩

theorem not_allReleased (next later : Shared) (inv : Inv next) (evolved : Evolves next later)
    (ref : Nat) (captured : next.stripe.Captured ref) : ¬ AllReleased later := by
  intro released
  have ⟨intentId, completed, _⟩ := captured
  obtain ⟨row, listed, same⟩ := listed_of_intent next inv ref intentId completed
  obtain ⟨found, present, became⟩ := evolved.row next later row listed
  have free := released found present
  rw [became.session, same] at free
  exact free.not_captured _ _ (evolved.stripe.captured _ _ _ captured)

theorem shut_of_captured (shared : Shared) (inv : Inv shared) (ref : Nat)
    (captured : shared.stripe.Captured ref) : shared.db.shut := by
  have ⟨intentId, completed, _⟩ := captured
  obtain ⟨row, listed, same⟩ := listed_of_intent shared inv ref intentId completed
  rcases inv.captured row listed (same ▸ captured) with authorized | succeeded
  · cases known : shared.db.header with
    | none => simp [(inv.header.absent known).1] at listed
    | some header =>
        refine ⟨header, known, fun opened => ?_⟩
        have agrees := inv.header.status header known
        rw [opened] at agrees
        simpa [authorized] using agrees row listed
  · exact Db.taken.shut _ (inv.taken_of_succeeded shared row listed succeeded)

/-- A cancel that barred the order of a captured hold found it captured. -/
theorem taken_of_barred (minLeadMs : Int) (events : List Happening) (world : World)
    (success : Reaches minLeadMs events world) (quiesced : Quiesced minLeadMs events world)
    (ref : Nat) (captured : world.shared.stripe.Captured ref) (barred : world.shared.db.barred) :
    world.shared.db.taken := by
  have inv := (sound_of_reaches minLeadMs events world success).holds
  have kept := not_allReleased world.shared world.shared inv (Evolves.refl _) ref captured
  obtain ⟨next, past, since, reply, -, ⟨isBarred, -⟩, began, reached, meets⟩ :=
    answered_after minLeadMs events world
      (fun shared => shared.db.barred ∧ ¬ AllReleased shared) .cancel success quiesced (.inr rfl)
      (fun now change later holds moved ⟨later', held⟩ => by
        obtain ⟨-, evolved, -⟩ := (verified minLeadMs).move now change later holds moved
        obtain ⟨stripe, -, rfl⟩ := Option.map_eq_some_iff.mp moved
        exact ⟨later', fun released => held
          (evolved.allReleased now _ (Db.barred.shut _ later') released)⟩)
      (fun slot request now later other _ _ kept ⟨later', held⟩ => by
        rcases kept.bars other later' with before | released
        · exact ⟨before, fun released => held
            (kept.evolves.allReleased now later (Db.barred.shut _ before) released)⟩
        · exact absurd released held)
      (by
        rintro ⟨⟨header, known, -⟩, -⟩
        cases known) ⟨barred, kept⟩
  have shut := Db.barred.shut next.db isBarred
  cases reply with
  | cancelled outcome =>
      by_cases conflict : outcome = .capturedConflict
      · simp only [Returns, CancelMeets, if_pos conflict] at meets
        exact reached.taken meets
      · simp only [Returns, CancelMeets, if_neg conflict] at meets
        exact absurd (reached.allReleased past _ (began.shut shut) meets.2) kept
  | session | captured | event | reconciled => exact meets.elim

theorem taken_of_captured (minLeadMs : Int) (events : List Happening) (world : World)
    (success : Reaches minLeadMs events world) (quiesced : Quiesced minLeadMs events world)
    (ref : Nat) (captured : world.shared.stripe.Captured ref) : world.shared.db.taken := by
  obtain ⟨next, past, since, reply, inv, taken, began, reached, meets⟩ :=
    answered_after minLeadMs events world (fun shared => shared.stripe.Captured ref) .capture
      success quiesced (.inl rfl)
      (fun now change later holds moved later' => by
        obtain ⟨stripe, changed, rfl⟩ := Option.map_eq_some_iff.mp moved
        exact (Stripe.move_spec now.stripe stripe change holds.sane changed).captures ref later')
      (fun slot request now later other _ _ kept => kept.captures other ref)
      (by
        rintro ⟨intentId, ⟨session, known, -⟩, -⟩
        cases known) captured
  cases reply with
  | captured outcome =>
      cases outcome with
      | captured => exact reached.taken meets
      | idempotent => exact reached.taken meets
      | conflict => exact absurd (began.shut (shut_of_captured next inv ref taken)) meets
      | notCapturable =>
          rcases meets with released | barred
          · exact absurd released (not_allReleased next past inv began ref taken)
          · rcases reached.concluded (.inl barred) with still | isTaken
            · exact taken_of_barred minLeadMs events world success quiesced ref captured still
            · exact isTaken
  | session | cancelled | event | reconciled => exact meets.elim

/-- What the tables say of the money Stripe took. -/
structure AgreesWithStripe (shared : Shared) : Prop where
  header : shared.db.taken ↔ ∃ ref, shared.stripe.Captured ref
  attempt : ∀ row ∈ shared.db.payments,
    shared.db.taken ∧ row.status = .succeeded ↔ shared.stripe.Captured row.providerSessionId

theorem agreesWithStripe_of (shared : Shared) (inv : Inv shared)
    (taken : ∀ ref, shared.stripe.Captured ref → shared.db.taken) : AgreesWithStripe shared := by
  have backed : ∀ row ∈ shared.db.payments, row.status = .succeeded →
      shared.stripe.Captured row.providerSessionId := by
    intro row listed succeeded
    have backed := inv.backed row listed
    rw [Backed, succeeded] at backed
    exact backed.1
  constructor
  · constructor
    · intro taken
      obtain ⟨header, known, status⟩ := taken
      obtain ⟨row, listed, succeeded⟩ :=
        (recordsAgree_of_inv shared inv).captured header known status
      exact ⟨_, backed row listed succeeded⟩
    · intro anyCaptured
      obtain ⟨ref, captured⟩ := anyCaptured
      exact taken ref captured
  · intro row listed
    refine ⟨fun both => backed row listed both.2, fun captured => ?_⟩
    have isTaken := taken _ captured
    refine ⟨isTaken, ?_⟩
    rcases inv.captured row listed captured with authorized | succeeded
    · -- An active attempt is the newest one, and under this header that one succeeded.
      obtain ⟨rest, shape⟩ := Db.head_of_active shared.db inv.rows row listed
        (by rw [authorized]; rfl)
      obtain ⟨header, known, status⟩ := isTaken
      have agrees := inv.header.status header known
      rw [status, shape] at agrees
      obtain ⟨head, tail, same, succeeded⟩ := agrees
      cases same
      exact succeeded
    · exact succeeded

theorem records_agree_with_stripe (minLeadMs : Int) (events : List Happening) (world : World)
    (success : Reaches minLeadMs events world) :
    (Quiesced minLeadMs events world → AgreesWithStripe world.shared) ∧
      ∀ row ∈ world.shared.db.payments, world.shared.stripe.Captured row.providerSessionId →
        row.status ≠ .failed ∧ row.status ≠ .voided ∧ row.status ≠ .expired := by
  have inv := (sound_of_reaches minLeadMs events world success).holds
  refine ⟨fun quiesced => agreesWithStripe_of world.shared inv fun ref captured =>
    taken_of_captured minLeadMs events world success quiesced ref captured, ?_⟩
  intro row listed captured
  rcases inv.captured row listed captured with authorized | succeeded
  · simp [authorized]
  · simp [succeeded]

/-- Paid, and captured at Stripe by a handler that never learns of it. -/
def lostCapture : List Happening :=
  paidEvents ++ .start 2 .capture :: List.replicate 2 (.step 2 {}) ++
    [.step 2 { delivery := .lost }]

def retriedCapture : List Happening := .start 3 .capture :: List.replicate 4 (.step 3 {})

theorem records_agree_with_stripe_retried : ∃ world,
    Reaches 10 (lostCapture ++ retriedCapture) world ∧
    world.result 2 = some (.capture, none) ∧ AgreesWithStripe world.shared := by
  have view : (Runs.run (system 10).step (System.idle start) (lostCapture ++ retriedCapture)).map
      (fun world => (List.range 4).map world.result) =
      some [some (.openSession 500 "usd" 100, some (.session (.opened 7 0))),
        some (.webhook ⟨1, .completed, some 0⟩, some (.event .processed)), some (.capture, none),
        some (.capture, some (.captured .captured))] := by decide +kernel
  have stops : (Runs.run (system 10).step (System.idle start) lostCapture).map
      (·.result 3) = some none := by decide +kernel
  obtain ⟨world, reached, same⟩ := Option.map_eq_some_iff.mp view
  obtain ⟨stopped, upTo, unused⟩ := Option.map_eq_some_iff.mp stops
  simp only [List.range, List.range.loop, List.map_cons, List.map_nil, List.cons.injEq] at same
  obtain ⟨opened, webhook, failed, retried, -⟩ := same
  obtain ⟨since, answered⟩ := world.result_some 3 _ _ retried
  have quiesced : Quiesced 10 (lostCapture ++ retriedCapture) world := by
    intro slot thread present command
    have cases4 : slot = 0 ∨ slot = 1 ∨ slot = 2 ∨ slot = 3 ∨ 4 ≤ slot := by omega
    rcases cases4 with rfl | rfl | rfl | rfl | beyond
    · rw [world.result_request 0 _ _ thread present opened] at command
      simp at command
    · rw [world.result_request 1 _ _ thread present webhook] at command
      simp at command
    · rw [world.result_request 2 _ _ thread present failed]
      refine .inr ⟨lostCapture, retriedCapture, stopped, 3, since, _, rfl, upTo, ?_, ?_, answered⟩
      · simp [retriedCapture]
      · simpa [Programs.World.result] using unused
    · rw [world.result_request 3 _ _ thread present retried]
      exact .inl ⟨since, _, answered⟩
    · have unstarted : world.threads slot = none := by
        refine System.run_free _ _ world slot rfl (fun request => ?_) reached
        have apart : slot ≠ 0 ∧ slot ≠ 1 ∧ slot ≠ 2 ∧ slot ≠ 3 := by omega
        simp [lostCapture, retriedCapture, paidEvents, apart]
      cases unstarted.symm.trans present
  exact ⟨world, reached, failed, (records_agree_with_stripe 10 _ world reached).1 quiesced⟩

end Commerce.Payments
