import Commerce.Lib.Results
import Commerce.Payments.Writes

/-!
# The transactions

What each transaction leaves when it commits, from what its program learnt
before: the tables keep the invariant, the change stays within the program's
guarantee, and the answer says what the next action counts on.
-/

set_option autoImplicit false

namespace Commerce.Payments

/-! ## Closing an order -/

/-- A cancel's answer: nothing of the order is left to capture, or it was captured. -/
def CancelMeets (outcome : CancelOutcome) (now : Shared) : Prop :=
  if outcome = .capturedConflict then now.db.taken else now.db.concluded ∧ AllReleased now

def ReleasedKnown (stripe : Stripe) (ref : Nat) : Released → Prop
  | .expired => stripe.Expired ref
  | .voided _ => stripe.HoldGone ref
  | .captured => stripe.Captured ref

theorem releasable_some (db : Db) (rows : Rows db) (attempt : PaymentRow)
    (found : db.releasable = some attempt) :
    (∃ rest, db.payments = attempt :: rest) ∧
      (attempt.status = .pending ∨ attempt.status = .authorized) := by
  obtain ⟨active, fits⟩ := Option.filter_eq_some_iff.mp found
  obtain ⟨-, rest, shape⟩ := Db.findActive_some db rows attempt active
  exact ⟨⟨rest, shape⟩, by simpa using fits⟩

theorem released_of_idle (shared : Shared) (inv : Inv shared) (untaken : ¬ shared.db.taken)
    (idle : shared.db.releasable = none) : AllReleased shared := by
  intro row listed
  cases retired : row.status.retired with
  | true => exact inv.released_of_retired shared row listed retired
  | false =>
      have backed := inv.backed row listed
      unfold Backed at backed
      cases status : row.status <;> rw [status] at retired backed
      case voided => exact .inr backed
      case succeeded => exact absurd (inv.taken_of_succeeded shared row listed status) untaken
      case expired => cases retired
      case failed => cases retired
      all_goals
        obtain ⟨rest, shape⟩ := Db.head_of_active shared.db inv.rows row listed
          (by rw [status]; rfl)
        simp [Db.releasable, Db.findActiveByOrderIdForUpdate, shape, status, PaymentStatus.retired]
          at idle

def FlipMeets (outcome : CancelOutcome) (attempt : Option PaymentRow) (now : Shared) : Prop :=
  if outcome = .capturedConflict then attempt = none ∧ now.db.taken
  else now.db.concluded ∧
    match attempt with
    | none => AllReleased now
    | some attempt => (∃ rest, now.db.payments = attempt :: rest) ∧
        (attempt.status = .pending ∨ attempt.status = .authorized)

theorem flipMeets_of (shared : Shared) (outcome : CancelOutcome) (inv : Inv shared)
    (barred : shared.db.barred) (kept : outcome ≠ .capturedConflict) :
    FlipMeets outcome shared.db.releasable shared := by
  unfold FlipMeets
  rw [if_neg kept]
  refine ⟨.inl barred, ?_⟩
  cases idle : shared.db.releasable with
  | some attempt => exact releasable_some shared.db inv.rows attempt idle
  | none =>
      refine released_of_idle shared inv ?_ idle
      rintro ⟨header, known, taken⟩
      obtain ⟨found, present, status⟩ := barred
      cases known.symm.trans present
      simp [taken] at status

theorem flip_spec (slot : Nat) (request : Request) (shared : Shared) (after : Db)
    (outcome : CancelOutcome) (attempt : Option PaymentRow) (inv : Inv shared)
    (allowed : request = .cancel ∨ shared.db.concluded)
    (flipped : shared.db.flip = .ok ((outcome, attempt), after)) :
    Inv { shared with db := after } ∧ Guarantee slot request shared { shared with db := after } ∧
      FlipMeets outcome attempt { shared with db := after } := by
  cases known : shared.db.header with
  | none =>
      obtain ⟨noRows, noRecords⟩ := inv.header.absent known
      have isCancel : request = .cancel := by
        rcases allowed with cancel | ⟨header, present, -⟩ | ⟨header, present, -⟩
        · exact cancel
        · cases known.symm.trans present
        · cases known.symm.trans present
      have written : shared.db.flip = .ok ((.fenced, none),
          { shared.db with header := some ⟨.fenced, none, none, none⟩ }) := by
        simp [Db.flip, known, Db.insertFenced, Db.insertHeader, decideCancel, Db.releasable,
          Db.findActiveByOrderIdForUpdate, noRows]
      rw [written] at flipped
      cases flipped
      refine ⟨⟨⟨inv.rows.ids, inv.rows.sessions, inv.rows.stamps, inv.rows.clock, inv.rows.retired,
        inv.rows.upper⟩, ⟨fun absent => (nomatch absent), ?_, ?_, ?_, ?_⟩, ?_, inv.sane, inv.backed,
        inv.handed, inv.captured⟩, ?_, ?_⟩
      · rintro found ⟨⟩
        exact noRows
      · rintro found ⟨⟩
        rfl
      · rintro found code ⟨⟩ ⟨⟩
      · rintro found row ⟨⟩ listed
        exact absurd listed (by simp [noRows])
      · rintro found ⟨⟩
        exact noRecords
      · refine guarantee_tables slot request shared _ (evolves_same_rows shared _ rfl
          ⟨fun header present => ?_, ?_, ?_, ?_⟩) (fun row listed => ⟨row, listed, rfl⟩)
          (fun other => absurd isCancel other) ?_ (by simp [isCancel, Request.concludes])
        · cases known.symm.trans present
        · rintro ⟨header, present, -⟩
          cases known.symm.trans present
        · rintro (⟨header, present, -⟩ | ⟨header, present, -⟩) <;> cases known.symm.trans present
        · rintro ⟨header, present, -⟩
          cases known.symm.trans present
        · rintro header amountMinor - ⟨⟩ charge
          cases charge
      · refine ⟨.inl ⟨_, rfl, .inr rfl⟩, fun row listed => ?_⟩
        exact absurd listed (by simp [noRows])
  | some header =>
      simp only [Db.flip, known, Option.isNone_some, Bool.false_eq_true, if_false] at flipped
      cases reached : header.status <;> simp only [reached, decideCancel] at flipped
      case captured =>
        cases flipped
        exact ⟨inv, Guarantee.refl slot request shared, rfl, header, known, reached⟩
      case cancelled =>
        cases flipped
        exact ⟨inv, Guarantee.refl slot request shared,
          flipMeets_of shared .idempotent inv ⟨header, known, .inl reached⟩ (by decide)⟩
      case fenced =>
        cases flipped
        exact ⟨inv, Guarantee.refl slot request shared,
          flipMeets_of shared .idempotent inv ⟨header, known, .inr reached⟩ (by decide)⟩
      all_goals
        obtain ⟨answered, charge, rfl⟩ := moveHeader_ok _ after _ _ _ header known flipped
        cases answered
        have isCancel : request = .cancel := by
          rcases allowed with cancel | ⟨found, present, status⟩ | ⟨found, present, status⟩
          · exact cancel
          all_goals
            cases known.symm.trans present
            simp [reached] at status
        have unsettled : StatusAgrees .cancelled shared.db.payments := by
          intro row listed succeeded
          obtain ⟨found, present, status⟩ := inv.taken_of_succeeded shared row listed succeeded
          cases known.symm.trans present
          simp [reached] at status
        have inv' := inv_header shared header .cancelled inv known charge unsettled
        refine ⟨inv', guarantee_tables slot request shared _ (evolves_same_rows shared _ rfl
          (HeaderMoves.forward _ _ header _ known rfl rfl rfl (by simp) (fun _ => .inl rfl)
            (by simp [reached]))) (fun row listed => ⟨row, listed, rfl⟩)
          (fun other => absurd isCancel other) (Db.openedBy_known request _ _ header known)
          (by simp [isCancel, Request.concludes]), ?_⟩
        exact flipMeets_of _ .cancelled inv' ⟨_, rfl, .inl rfl⟩ (by decide)

theorem recordReleased_spec (slot : Nat) (request : Request) (shared : Shared) (after : Db)
    (attempt : PaymentRow) (released : Released) (conflict : Bool) (inv : Inv shared)
    (concluded : shared.db.concluded)
    (known : ReleasedKnown shared.stripe attempt.providerSessionId released)
    (recorded : shared.db.recordReleased attempt released = .ok (conflict, after)) :
    Inv { shared with db := after } ∧ Guarantee slot request shared { shared with db := after } ∧
      (conflict = true → after.taken) ∧ (conflict = false → released ≠ .captured) := by
  unfold Db.recordReleased at recorded
  split at recorded
  · cases recorded
  rename_i payment found
  obtain ⟨listed, session⟩ := Db.findByProviderSessionId_some shared.db _ payment found
  rw [← session] at known
  have ofId : ∀ row ∈ shared.db.payments, row.id = payment.id → row = payment :=
    fun row present same => Db.eq_of_id shared.db inv.rows row payment present listed same
  cases released with
  | expired =>
      cases recorded
      obtain ⟨kept, guaranteed⟩ := expire_spec slot request shared payment.id inv
        fun row present same => (ofId row present same) ▸ known
      exact ⟨kept, guaranteed, by simp, by simp⟩
  | voided intentId =>
      dsimp only at recorded
      split at recorded
      · rename_i unsettled
        cases recorded
        obtain ⟨kept, guaranteed⟩ := void_spec slot request shared payment.id intentId
          payment.status
          inv (unsettled.imp id fun authorized => ⟨authorized, concluded⟩)
          fun row present same => (ofId row present same) ▸ known
        exact ⟨kept, guaranteed, by simp, by simp⟩
      · cases recorded
        exact ⟨inv, Guarantee.refl slot request shared, by simp, by simp⟩
  | captured =>
      obtain ⟨header, present, -⟩ := Db.concluded.shut shared.db concluded
      dsimp only at recorded
      rcases inv.captured payment listed known with authorized | succeeded
      · obtain ⟨rest, shape⟩ := Db.head_of_active shared.db inv.rows payment listed
          (by rw [authorized]; rfl)
        have written : (shared.db.updateStatus payment.id .succeeded none (some payment.status)).2 =
            { shared.db with
              payments := Db.PaymentRow.patch payment .succeeded none :: rest } := by
          rcases Db.updateStatus_cases shared.db inv.rows payment.id .succeeded none
            (some payment.status) (fun row _ picked => by
              rw [(picks_of_status _ _ row picked).2, authorized]; rfl) with nothing | picked
          · have unpicked := nothing.2 payment listed
            simp [Db.picks] at unpicked
          · obtain ⟨row, rest', shape', picked, written⟩ := picked
            rw [shape] at shape'
            cases shape'
            rw [written]
        rw [if_pos (.inr authorized), written] at recorded
        obtain ⟨rfl, charge, rfl⟩ := moveHeader_ok { shared.db with
          payments := Db.PaymentRow.patch payment .succeeded none :: rest } after _ _ _ header
            present
          recorded
        obtain ⟨kept, guaranteed⟩ := take_spec slot request shared header payment rest inv present
          shape authorized known charge fun _ => concluded
        exact ⟨kept, guaranteed, fun _ => ⟨_, rfl, rfl⟩, by simp⟩
      · obtain ⟨found', present', taken⟩ := inv.taken_of_succeeded shared payment listed succeeded
        cases present.symm.trans present'
        rw [if_neg (by simp [succeeded])] at recorded
        obtain ⟨rfl, charge, rfl⟩ := moveHeader_ok _ after _ _ _ header present recorded
        have agrees := inv.header.status header present
        rw [taken] at agrees
        exact ⟨inv_header shared header .captured inv present charge agrees,
          guarantee_tables slot request shared _ (evolves_same_rows shared _ rfl
            (HeaderMoves.forward _ _ header _ present rfl rfl rfl (by simp)
              (fun _ => .inr (.inr rfl)) fun _ => rfl)) (fun row listed => ⟨row, listed, rfl⟩)
            (by
              rintro - ⟨again, sameHeader, barred⟩
              cases sameHeader
              simp at barred) (Db.openedBy_known request _ _ header present) fun _ _ => concluded,
          fun _ => ⟨_, rfl, rfl⟩, by simp⟩

/-! ## Settling a capture -/

/-- A capture's answer: the money is taken, the hold is gone, or nothing was ever authorized. -/
def CaptureMeets (outcome : CaptureOutcome) (now : Shared) : Prop :=
  match outcome with
  | .captured | .idempotent => now.db.taken
  | .notCapturable => AllReleased now ∨ now.db.barred
  | .conflict => ¬ now.db.shut

/-- The attempt a capture reads: the newest one, authorized under a header that left `OPEN`. -/
structure Capturable (past : Shared) (read : PaymentRow) (intentId : Nat) : Prop where
  shut : past.db.shut
  newest : ∃ rest, past.db.payments = read :: rest
  authorized : read.status = .authorized
  intent : past.stripe.IntentOf read.providerSessionId intentId

theorem Capturable.now (past now : Shared) (read : PaymentRow) (intentId : Nat)
    (capturable : Capturable past read intentId) (evolved : Evolves past now) :
    ∃ row rest, now.db.payments = row :: rest ∧ RowEvolves read row ∧ now.db.shut ∧
      now.stripe.IntentOf row.providerSessionId intentId := by
  obtain ⟨shut, ⟨rest, shape⟩, -, completed⟩ := capturable
  have frozen := evolved.frozen past now shut
  rw [shape] at frozen
  cases same : now.db.payments with
  | nil =>
      rw [same] at frozen
      cases frozen
  | cons row others =>
      rw [same] at frozen
      cases frozen with
      | cons became _ =>
          exact ⟨row, others, rfl, became, evolved.shut shut,
            became.session ▸ evolved.stripe.intentOf _ _ _ _ completed⟩

theorem updateStatus_head (db : Db) (rows : Rows db) (row : PaymentRow) (rest : List PaymentRow)
    (status : PaymentStatus) (shape : db.payments = row :: rest)
    (authorized : row.status = .authorized) :
    (db.updateStatus row.id status none none).2 =
      { db with payments := Db.PaymentRow.patch row status none :: rest } := by
  have listed : row ∈ db.payments := by simp [shape]
  have picksRow : ∀ other, Db.picks row.id none other = true → other.id = row.id := by
    intro other picked
    simpa [Db.picks] using picked
  rcases Db.updateStatus_cases db rows row.id status none none (fun other present picked => by
      rw [Db.eq_of_id db rows other row present listed (picksRow other picked), authorized]
      rfl) with nothing | picked
  · have unpicked := nothing.2 row listed
    simp [Db.picks] at unpicked
  · obtain ⟨found, rest', shape', -, written⟩ := picked
    rw [shape] at shape'
    cases shape'
    rw [written]

theorem settle_spec (slot : Nat) (request : Request) (past shared : Shared) (after : Db)
    (read : PaymentRow) (intentId : Nat) (result : CaptureIntentResult) (outcome : CaptureOutcome)
    (settles : request.concludes = false → shared.db.concluded) (inv : Inv shared)
    (capturable : Capturable past read intentId) (evolved : Evolves past shared)
    (answered : match result with
      | .captured => shared.stripe.IntentCaptured intentId
      | .notCapturable => shared.stripe.IntentGone intentId)
    (settled : shared.db.settle read result = .ok (outcome, after)) :
    Inv { shared with db := after } ∧ Guarantee slot request shared { shared with db := after } ∧
      CaptureMeets outcome { shared with db := after } := by
  obtain ⟨row, rest, shape, became, -, completed⟩ :=
    capturable.now past shared read intentId evolved
  have listed : row ∈ shared.db.payments := by simp [shape]
  unfold Db.settle at settled
  split at settled
  · rename_i header payment known found
    obtain ⟨present, session⟩ := Db.findByProviderSessionId_some shared.db _ payment found
    cases Db.eq_of_session shared.db inv.rows row payment listed present
      (became.session.trans session.symm)
    cases result with
    | notCapturable =>
        have gone : shared.stripe.HoldGone row.providerSessionId := ⟨intentId, completed, answered⟩
        dsimp only at settled
        split at settled
        · rename_i authorized
          have failed : row.toPayment.markFailed = .ok (row.toPayment.withStatus .failed) := by
            simp only [Payment.markFailed, authorized]
            rfl
          rw [failed, ← became.id] at settled
          change (shared.db.updateStatus row.id .failed none none).2.moveHeader .cancelled _ = _
            at settled
          rw [updateStatus_head shared.db inv.rows row rest .failed shape authorized] at settled
          obtain ⟨rfl, charge, rfl⟩ := moveHeader_ok { shared.db with
            payments := Db.PaymentRow.patch row .failed none :: rest } after _ _ _ header known
              settled
          obtain ⟨kept, guaranteed, released⟩ := fail_spec slot request shared header row _ rest inv
            known shape gone (.inr ⟨authorized, rfl⟩) charge settles
          exact ⟨kept, guaranteed, .inl released⟩
        · obtain ⟨rfl, charge, rfl⟩ := moveHeader_ok _ after _ _ _ header known settled
          obtain ⟨kept, guaranteed, released⟩ :=
            fail_spec slot request shared header row row rest inv
            known shape gone (.inl rfl) charge settles
          have same : ({ shared.db with
              header := some { header with status := .cancelled }, payments := row :: rest } : Db) =
              { shared.db with header := some { header with status := .cancelled } } := by
            rw [← shape]
          rw [same] at kept guaranteed released
          exact ⟨kept, guaranteed, .inl released⟩
    | captured =>
        have captured : shared.stripe.Captured row.providerSessionId :=
          ⟨intentId, completed, answered⟩
        dsimp only at settled
        split at settled
        · rename_i succeeded
          cases settled
          exact ⟨inv, Guarantee.refl slot request shared,
            inv.taken_of_succeeded shared row listed succeeded⟩
        · rename_i unsettled
          have authorized : row.status = .authorized :=
            (inv.captured row listed captured).resolve_right unsettled
          have taken : row.toPayment.markCaptured = .ok (row.toPayment.withStatus .succeeded) := by
            simp [Payment.markCaptured, authorized]
          rw [taken, ← became.id] at settled
          change (shared.db.updateStatus row.id .succeeded none none).2.moveHeader .captured _ = _
            at settled
          rw [updateStatus_head shared.db inv.rows row rest .succeeded shape authorized] at settled
          obtain ⟨rfl, charge, rfl⟩ := moveHeader_ok { shared.db with
            payments := Db.PaymentRow.patch row .succeeded none :: rest } after _ _ _ header known
            settled
          obtain ⟨kept, guaranteed⟩ := take_spec slot request shared header row rest inv known shape
            authorized captured charge settles
          exact ⟨kept, guaranteed, _, rfl, rfl⟩
  · cases settled

/-! ## Opening -/

/-- The first transaction of an open: a header is there afterwards, and only an open one goes on. -/
theorem claimHeader_spec (slot : Nat) (request : Request) (shared : Shared) (after : Db)
    (amountMinor expiresAt : Int) (asked currency : String) (claimed : Option (Option PaymentRow))
    (inv : Inv shared) (opens : request = .openSession amountMinor asked expiresAt)
    (named : currency = toUpperCase asked)
    (answered : shared.db.claimHeader amountMinor currency = .ok (claimed, after)) :
    Inv { shared with db := after } ∧ Guarantee slot request shared { shared with db := after } ∧
      (shared.db.shut → claimed = none) ∧
      ∀ active, claimed = some (some active) → active ∈ after.payments := by
  have upper : toUpperCase currency = currency := by rw [named, toUpperCase_idempotent]
  cases known : shared.db.header with
  | some header =>
      have kept : (shared.db.insertOpen amountMinor currency).2 = shared.db := by
        simp [Db.insertOpen, Db.insertHeader, known]
      simp only [Db.claimHeader, kept, known] at answered
      have same : after = shared.db := by
        split at answered
        · cases answered
          rfl
        · split at answered <;> cases answered <;> rfl
      subst same
      refine ⟨inv, Guarantee.refl slot request shared, ?_, ?_⟩
      · rintro ⟨found, present, left⟩
        cases known.symm.trans present
        have closed : decideOpenSession (some header.status) = .closed := by
          cases status : header.status <;> first | rfl | exact absurd status left
        rw [if_pos closed] at answered
        cases answered
        rfl
      · rintro active rfl
        split at answered
        · cases answered
        · split at answered
          · cases answered
          · have found : shared.db.findActiveByOrderIdForUpdate = some active := by
              simpa using answered
            exact List.mem_of_find?_eq_some found
  | none =>
      obtain ⟨noRows, noRecords⟩ := inv.header.absent known
      have opened : shared.db.claimHeader amountMinor currency = .ok (some none,
          { shared.db with header := some ⟨.opened, some amountMinor, some currency, none⟩ }) := by
        simp [Db.claimHeader, Db.insertOpen, Db.insertHeader, known, decideOpenSession, upper,
          Db.findActiveByOrderIdForUpdate, noRows]
      rw [opened] at answered
      cases answered
      refine ⟨⟨⟨inv.rows.ids, inv.rows.sessions, inv.rows.stamps, inv.rows.clock, inv.rows.retired,
        inv.rows.upper⟩, ⟨fun absent => (nomatch absent), ?_, ?_, ?_, ?_⟩, ?_, inv.sane, inv.backed,
        inv.handed, inv.captured⟩, ?_, ?_, ?_⟩
      · rintro found ⟨⟩ row listed
        exact absurd listed (by simp [noRows])
      · rintro found ⟨⟩
        rfl
      · rintro found code ⟨⟩ ⟨⟩
        exact upper
      · rintro found row ⟨⟩ listed
        exact absurd listed (by simp [noRows])
      · rintro found ⟨⟩
        exact noRecords
      · refine guarantee_tables slot request shared _ (evolves_same_rows shared _ rfl
          ⟨fun header present => ?_, ?_, ?_, ?_⟩) (fun row listed => ⟨row, listed, rfl⟩) ?_ ?_ ?_
        · cases known.symm.trans present
        · rintro ⟨header, present, -⟩
          cases known.symm.trans present
        · rintro (⟨header, present, -⟩ | ⟨header, present, -⟩) <;> cases known.symm.trans present
        · rintro ⟨header, present, -⟩
          cases known.symm.trans present
        · rintro - ⟨header, present, barred⟩
          cases present
          simp at barred
        · rintro header amount - ⟨⟩ ⟨⟩
          exact ⟨asked, expiresAt, opens, congrArg some named⟩
        · rintro - (⟨header, present, barred⟩ | ⟨header, present, taken⟩)
          · cases present
            simp at barred
          · cases present
            cases taken
      · rintro ⟨header, present, -⟩
        cases known.symm.trans present
      · intro active isNone
        cases isNone

theorem create_upper (session : Nat) (amountMinor : Int) (currency : String) (payment : Payment)
    (created : Payment.create session amountMinor currency = .ok payment) :
    payment.providerSessionId = session ∧ payment.status = .pending ∧
      toUpperCase payment.currency = payment.currency := by
  obtain ⟨-, -, rest⟩ := (Results.bind_eq_ok _ _ _).mp created
  obtain ⟨money, valid, rest⟩ := (Results.bind_eq_ok _ _ _).mp rest
  cases rest
  exact ⟨rfl, rfl, Money.of_upper amountMinor currency money valid⟩

theorem insertAttempt_spec (slot : Nat) (request : Request) (shared : Shared) (before after : Db)
    (amountMinor : Int) (currency : String) (session paymentId : Nat) (found : CheckoutSession)
    (inserted : Option PaymentRow) (inv : Inv shared)
    (opened : shared.db.header.map (·.status) = some .opened)
    (known : shared.stripe.sessions session = some found) (own : found.idempotencyKey = slot)
    (unlisted : Unlisted shared session)
    (answered : before.insertAttempt amountMinor currency session paymentId shared.db =
      .ok (inserted, after)) :
    (inserted = none ∧ after = before) ∨ Inv { shared with db := after } ∧
      Guarantee slot request shared { shared with db := after } ∧
      ∀ row, inserted = some row → row ∈ after.payments ∧ row.providerSessionId = session := by
  unfold Db.insertAttempt at answered
  split at answered
  · cases answered
  rename_i payment made
  obtain ⟨sameSession, pending, upper⟩ := create_upper session amountMinor currency payment made
  split at answered
  · rename_i row written created
    cases answered
    obtain ⟨header, present, status⟩ := Option.map_eq_some_iff.mp opened
    have shaped := Db.rows_create shared.db after inv.rows payment paymentId row created
      (fun other listed => sameSession ▸ unlisted other listed) upper
    obtain ⟨others, isRow, rfl⟩ := Db.create_ok shared.db after payment paymentId row created
    have rowStatus : row.status = .pending := by rw [isRow]; exact pending
    have rowSession : row.providerSessionId = session := by rw [isRow]; exact sameSession
    refine .inr ⟨⟨shaped, ⟨?_, ?_, inv.header.charge, inv.header.upper, ?_⟩, inv.announced,
      inv.sane,
      ?_, ?_, ?_⟩, ⟨⟨Stripe.Evolves.refl _, ⟨[row], _, rfl, rowsEvolve_refl _, ?_⟩, ?_, id, id, id⟩,
      ?_,
      fun _ _ taken => taken, fun _ barred => .inl barred, Db.openedBy_same request _ _ rfl,
      fun _ concluded => concluded⟩, ?_⟩
    · intro absent
      cases present.symm.trans absent
    · intro other same
      cases present.symm.trans same
      have agrees := inv.header.status header present
      rw [status] at agrees ⊢
      intro listed isListed
      rcases List.mem_cons.mp isListed with rfl | behind
      · exact .inl rowStatus
      · exact agrees listed behind
    · intro other listed same isListed recorded
      rcases List.mem_cons.mp isListed with rfl | behind
      · rw [rowStatus] at recorded
        simp at recorded
      · exact inv.header.held other listed same behind recorded
    · intro listed isListed
      rcases List.mem_cons.mp isListed with rfl | behind
      · rw [Backed, rowStatus, rowSession]
        simp [known]
      · exact inv.backed listed behind
    · intro ref out
      obtain ⟨listed, isListed, same⟩ := inv.handed ref out
      exact ⟨listed, List.mem_cons_of_mem _ isListed, same⟩
    · intro listed isListed captured
      rcases List.mem_cons.mp isListed with rfl | behind
      · obtain ⟨intentId, ⟨mine, knownMine, complete, -⟩, -⟩ := captured
        rw [rowSession] at knownMine
        obtain ⟨returned, -⟩ := inv.sane.complete session mine knownMine complete
        obtain ⟨listed, isListed, same⟩ := inv.handed session ⟨mine, knownMine, returned⟩
        exact absurd same (unlisted listed isListed)
      · exact inv.captured listed behind captured
    · rintro ⟨other, same, left⟩
      cases present.symm.trans same
      exact absurd status left
    · intro other same
      exact ⟨other, same, rfl, rfl⟩
    · intro ref other knownOther foreign notListed listed isListed
      rcases List.mem_cons.mp isListed with rfl | behind
      · rw [rowSession]
        rintro rfl
        cases known.symm.trans knownOther
        exact foreign own
      · exact notListed listed behind
    · rintro _ ⟨⟩
      exact ⟨List.mem_cons_self, rowSession⟩
  · cases answered
    exact .inl ⟨rfl, rfl⟩
  · cases answered

/-- The second transaction of an open. -/
theorem insertIfStillOpen_spec (slot : Nat) (request : Request) (shared : Shared) (after : Db)
    (amountMinor : Int) (currency : String) (session paymentId : Nat) (found : CheckoutSession)
    (retiring inserted : Option PaymentRow) (inv : Inv shared)
    (known : shared.stripe.sessions session = some found) (own : found.idempotencyKey = slot)
    (unlisted : Unlisted shared session)
    (expired : ∀ retired, retiring = some retired → ∀ row ∈ shared.db.payments,
      row.id = retired.id → shared.stripe.Expired row.providerSessionId)
    (answered : shared.db.insertIfStillOpen amountMinor currency session paymentId retiring =
      .ok (inserted, after)) :
    Inv { shared with db := after } ∧ Guarantee slot request shared { shared with db := after } ∧
      ∀ row, inserted = some row → row ∈ after.payments ∧ row.providerSessionId = session := by
  have unchanged : Inv shared ∧ Guarantee slot request shared shared ∧
      ∀ row, (none : Option PaymentRow) = some row →
        row ∈ shared.db.payments ∧ row.providerSessionId = session :=
    ⟨inv, Guarantee.refl slot request shared, fun _ isNone => nomatch isNone⟩
  unfold Db.insertIfStillOpen at answered
  split at answered
  · cases answered
    exact unchanged
  rename_i opened
  rw [not_not] at opened
  split at answered
  · rcases insertAttempt_spec slot request shared shared.db after amountMinor currency session
      paymentId found inserted inv opened known own unlisted answered with ⟨rfl, rfl⟩ | written
    · exact unchanged
    · exact written
  · rename_i active isActive
    split at answered
    · cases answered
      exact unchanged
    rename_i same
    rw [not_not] at same
    obtain ⟨retired, rfl, sameId⟩ := Option.map_eq_some_iff.mp same
    split at answered
    · cases answered
      exact unchanged
    · rename_i retiredDb updated
      have written : retiredDb = (shared.db.updateStatus active.id .expired none
          (some .pending)).2 := by
        rw [updated]
      obtain ⟨kept, guaranteed⟩ := expire_spec slot request shared active.id inv
        fun row listed isId => expired retired rfl row listed (isId.trans sameId.symm)
      rw [← written] at kept guaranteed
      have stillOpen : retiredDb.header.map (·.status) = some .opened := by
        rw [written]
        exact opened
      have stillUnlisted : Unlisted { shared with db := retiredDb } session := by
        intro row listed
        obtain ⟨-, rest, shape⟩ := Db.findActive_some shared.db inv.rows active isActive
        rw [written] at listed
        obtain ⟨old, present, rfl⟩ := List.mem_map.mp listed
        split
        · exact unlisted old present
        · exact unlisted old present
      rcases insertAttempt_spec slot request { shared with db := retiredDb } shared.db after
        amountMinor
        currency session paymentId found inserted kept stillOpen known own stillUnlisted answered
        with ⟨rfl, rfl⟩ | ⟨keptAfter, guaranteedAfter, inserted⟩
      · exact unchanged
      · exact ⟨keptAfter, Guarantee.trans slot request _ _ _ guaranteed guaranteedAfter, inserted⟩

/-! ## Events -/

theorem inv_event (shared : Shared) (events : List Nat) (inv : Inv shared) :
    Inv { shared with db := { shared.db with webhookEvents := events } } :=
  ⟨⟨inv.rows.ids, inv.rows.sessions, inv.rows.stamps, inv.rows.clock, inv.rows.retired,
    inv.rows.upper⟩, ⟨inv.header.absent, inv.header.status, inv.header.charge, inv.header.upper,
    inv.header.held⟩, inv.announced, inv.sane, inv.backed, inv.handed, inv.captured⟩

theorem logged_spec (slot : Nat) (request : Request) (shared : Shared) (after : Db)
    (event : ValidEvent) (apply : Db → Except Fault (WebhookOutcome × Db))
    (outcome : WebhookOutcome)
    (inv : Inv shared)
    (spec : ∀ db outcome after, Inv { shared with db } → db.header = shared.db.header →
      db.payments = shared.db.payments → apply db = .ok (outcome, after) →
      Inv { shared with db := after } ∧
        Guarantee slot request { shared with db } { shared with db := after })
    (answered : shared.db.logged event apply = .ok (outcome, after)) :
    Inv { shared with db := after } ∧ Guarantee slot request shared
        { shared with db := after } := by
  unfold Db.logged at answered
  split at answered
  · cases answered
    exact ⟨inv, Guarantee.refl slot request shared⟩
  · rename_i inserted logged
    have shape : inserted = { shared.db with
        webhookEvents := event.providerEventId :: shared.db.webhookEvents } := by
      unfold Db.insertEvent at logged
      split at logged
      · cases logged
      · exact (Prod.mk.inj logged).2.symm
    subst shape
    obtain ⟨kept, guaranteed⟩ := spec _ outcome after
      (inv_event shared (event.providerEventId :: shared.db.webhookEvents) inv) rfl rfl answered
    have began : Guarantee slot request shared { shared with
        db := { shared.db with
          webhookEvents := event.providerEventId :: shared.db.webhookEvents } } :=
      ⟨evolves_same_rows shared _ rfl (HeaderMoves.same _ _ rfl), fun _ _ _ _ unlisted => unlisted,
        fun _ _ taken => taken, fun _ barred => .inl barred, Db.openedBy_same request _ _ rfl,
        fun _ concluded => concluded⟩
    exact ⟨kept, Guarantee.trans slot request shared _ _ began guaranteed⟩

end Commerce.Payments
