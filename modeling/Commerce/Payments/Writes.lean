import Commerce.Payments.Invariant

/-!
# The writes of the transactions

One lemma for each way a transaction changes the order's tables: the attempt
that moves, the header that moves with it, and what Stripe has to have said
before.  Each write keeps the invariant and stays within every guarantee it
can stay within.
-/

set_option autoImplicit false

namespace Commerce.Payments

/-! ## The shape of a change -/

structure HeaderMoves (earlier later : Db) : Prop where
  charge : ∀ header, earlier.header = some header → ∃ found, later.header = some found ∧
    found.amountMinor = header.amountMinor ∧ found.currency = header.currency
  shut : earlier.shut → later.shut
  concluded : earlier.concluded → later.concluded
  taken : earlier.taken → later.taken

theorem HeaderMoves.same (earlier later : Db) (same : later.header = earlier.header) :
    HeaderMoves earlier later := by
  refine ⟨fun header known => ⟨header, same.trans known, rfl, rfl⟩, ?_, ?_, ?_⟩
  · rintro ⟨header, known, status⟩
    exact ⟨header, same.trans known, status⟩
  · rintro (⟨header, known, status⟩ | ⟨header, known, status⟩)
    · exact .inl ⟨header, same.trans known, status⟩
    · exact .inr ⟨header, same.trans known, status⟩
  · rintro ⟨header, known, status⟩
    exact ⟨header, same.trans known, status⟩

/-- A header that moves forward: out of `OPEN`, then to an end, which it keeps if it captured. -/
theorem HeaderMoves.forward (earlier later : Db) (header changed : PaymentOrderHeader)
    (known : earlier.header = some header) (moved : later.header = some changed)
    (amount : changed.amountMinor = header.amountMinor)
    (currency : changed.currency = header.currency) (left : changed.status ≠ .opened)
    (ended : header.status = .cancelled ∨ header.status = .fenced ∨ header.status = .captured →
      changed.status = .cancelled ∨ changed.status = .fenced ∨ changed.status = .captured)
    (kept : header.status = .captured → changed.status = .captured) :
    HeaderMoves earlier later := by
  have concluded : earlier.concluded → later.concluded := by
    rintro (⟨found, present, status⟩ | ⟨found, present, status⟩) <;>
      cases known.symm.trans present
    · rcases ended (by tauto) with status | status | status
      · exact .inl ⟨changed, moved, .inl status⟩
      · exact .inl ⟨changed, moved, .inr status⟩
      · exact .inr ⟨changed, moved, status⟩
    · exact .inr ⟨changed, moved, kept status⟩
  refine ⟨fun found present => ?_, fun _ => ⟨changed, moved, left⟩, concluded, ?_⟩
  · cases known.symm.trans present
    exact ⟨changed, moved, amount, currency⟩
  · rintro ⟨found, present, status⟩
    cases known.symm.trans present
    exact ⟨changed, moved, kept status⟩

theorem evolves_same_rows (shared : Shared) (db : Db) (rows : db.payments = shared.db.payments)
    (header : HeaderMoves shared.db db) : Evolves shared { shared with db } :=
  ⟨Stripe.Evolves.refl _, ⟨[], _, by simp [rows], rowsEvolve_refl _, fun _ => rfl⟩, header.charge,
    header.shut, header.concluded, header.taken⟩

theorem evolves_patch (shared : Shared) (db : Db) (row : PaymentRow) (rest : List PaymentRow)
    (status : PaymentStatus) (intentId : Option Nat) (shape : shared.db.payments = row :: rest)
    (rows : db.payments = Db.PaymentRow.patch row status intentId :: rest)
    (leads : row.status.leadsTo status = true) (header : HeaderMoves shared.db db) :
    Evolves shared { shared with db } := by
  refine ⟨Stripe.Evolves.refl _, ⟨[], db.payments, rfl, ?_, fun _ => rfl⟩, header.charge,
    header.shut,
    header.concluded, header.taken⟩
  rw [shape, rows]
  exact .cons ⟨rfl, rfl, rfl, rfl, leads⟩ (rowsEvolve_refl rest)

theorem guarantee_tables (slot : Nat) (request : Request) (shared : Shared) (db : Db)
    (evolved : Evolves shared { shared with db })
    (sessions : ∀ row ∈ db.payments, ∃ old ∈ shared.db.payments,
      old.providerSessionId = row.providerSessionId)
    (bars : request ≠ .cancel → db.barred → shared.db.barred ∨ AllReleased { shared with db })
    (opens : Db.OpenedBy request shared.db db)
    (concludes : request.concludes = false → db.concluded → shared.db.concluded) :
    Guarantee slot request shared { shared with db } := by
  refine ⟨evolved, fun ref session _ _ unlisted row listed => ?_, fun _ _ taken => taken, bars,
    opens,
    concludes⟩
  obtain ⟨old, present, same⟩ := sessions row listed
  rw [← same]
  exact unlisted old present

theorem patch_sessions (rows rest : List PaymentRow) (row : PaymentRow) (status : PaymentStatus)
    (intentId : Option Nat) (shape : rows = row :: rest) (found : PaymentRow)
    (listed : found ∈ Db.PaymentRow.patch row status intentId :: rest) :
    ∃ old ∈ rows, old.providerSessionId = found.providerSessionId := by
  rcases List.mem_cons.mp listed with rfl | behind
  · exact ⟨row, by simp [shape], rfl⟩
  · exact ⟨found, by simp [shape, behind], rfl⟩

/-- The newest attempt moves; what is left to show is about it and the header. -/
theorem inv_patch (shared : Shared) (db : Db) (row : PaymentRow) (rest : List PaymentRow)
    (status : PaymentStatus) (intentId : Option Nat) (inv : Inv shared)
    (shape : shared.db.payments = row :: rest)
    (rows : db.payments = Db.PaymentRow.patch row status intentId :: rest)
    (clock : db.clock = shared.db.clock) (header : HeaderAgrees db) (announced : Announced db)
    (backed : Backed shared.stripe (Db.PaymentRow.patch row status intentId))
    (captured : shared.stripe.Captured row.providerSessionId →
      status = .authorized ∨ status = .succeeded) : Inv { shared with db } := by
  have shaped := Db.rows_patch shared.db inv.rows row rest status intentId shape
  refine ⟨⟨?_, ?_, ?_, ?_, ?_, ?_⟩, header, announced, inv.sane, fun found listed => ?_,
    fun ref out => ?_, fun found listed taken => ?_⟩
  · simpa [rows] using shaped.ids
  · simpa [rows] using shaped.sessions
  · simpa [rows] using shaped.stamps
  · intro found listed
    rw [clock]
    exact shaped.clock found (by simpa [rows] using listed)
  · intro found listed
    exact shaped.retired found (by simpa [rows] using listed)
  · intro found listed
    exact shaped.upper found (by simpa [rows] using listed)
  · rcases List.mem_cons.mp (rows ▸ listed) with rfl | behind
    · exact backed
    · exact inv.backed found (by simp [shape, behind])
  · obtain ⟨old, present, same⟩ := inv.handed ref out
    rw [shape] at present
    rcases List.mem_cons.mp present with rfl | behind
    · exact ⟨Db.PaymentRow.patch old status intentId, by simp [rows], same⟩
    · exact ⟨old, by simp [rows, behind], same⟩
  · rcases List.mem_cons.mp (rows ▸ listed) with rfl | behind
    · exact captured taken
    · exact inv.captured found (by simp [shape, behind]) taken

theorem inv_header (shared : Shared) (header : PaymentOrderHeader) (status : PaymentOrderStatus)
    (inv : Inv shared) (known : shared.db.header = some header)
    (charge : Db.chargeWhenNotFenced { header with status := status } = true)
    (agrees : StatusAgrees status shared.db.payments) :
    Inv { shared with db :=
      { shared.db with header := some { header with status := status } } } := by
  refine ⟨⟨inv.rows.ids, inv.rows.sessions, inv.rows.stamps, inv.rows.clock, inv.rows.retired,
    inv.rows.upper⟩, ⟨(fun absent => by cases absent), ?_, ?_, ?_, ?_⟩, ?_, inv.sane, inv.backed,
    inv.handed, inv.captured⟩
  · rintro found ⟨⟩
    exact agrees
  · rintro found ⟨⟩
    exact charge
  · rintro found code ⟨⟩ currency
    exact inv.header.upper header code known currency
  · rintro found row ⟨⟩ listed recorded
    exact inv.header.held header row known listed recorded
  · rintro found ⟨⟩
    exact inv.announced header known

theorem inv_release (shared : Shared) (row : PaymentRow) (rest : List PaymentRow)
    (status : PaymentStatus) (intentId : Option Nat) (inv : Inv shared)
    (shape : shared.db.payments = row :: rest)
    (unsettled : row.status = .pending ∨ row.status = .authorized ∧ shared.db.concluded)
    (target : status = .expired ∧ shared.stripe.Expired row.providerSessionId ∧
        row.status = .pending ∨
      status = .voided ∧ shared.stripe.HoldGone row.providerSessionId) :
    Inv { shared with
      db := { shared.db with payments := Db.PaymentRow.patch row status intentId :: rest } } := by
  have released : shared.stripe.Released row.providerSessionId :=
    target.imp (fun expired => expired.2.1) fun voided => voided.2
  refine inv_patch shared _ row rest status intentId inv shape rfl rfl ⟨fun absent => ?_,
    fun header known => ?_, inv.header.charge, inv.header.upper,
    fun header found known listed recorded => ?_⟩ inv.announced ?_
    fun captured => absurd captured (released.not_captured _ _)
  · have empty := (inv.header.absent absent).1
    rw [shape] at empty
    cases empty
  · have agrees := inv.header.status header known
    rw [shape] at agrees
    unfold StatusAgrees at agrees ⊢
    cases reached : header.status <;> rw [reached] at agrees
    case opened =>
      intro found listed
      rcases List.mem_cons.mp listed with rfl | behind
      · rcases target with ⟨rfl, -⟩ | ⟨rfl, -⟩
        · exact .inr (.inl rfl)
        · exact .inr (.inr rfl)
      · exact agrees found (List.mem_cons_of_mem _ behind)
    case cancelled =>
      intro found listed
      rcases List.mem_cons.mp listed with rfl | behind
      · rcases target with ⟨rfl, -⟩ | ⟨rfl, -⟩ <;> exact PaymentStatus.noConfusion
      · exact agrees found (List.mem_cons_of_mem _ behind)
    case fenced => cases agrees
    case authorized =>
      obtain ⟨head, tail, same, authorized⟩ := agrees
      cases same
      rcases unsettled with pending | ⟨-, concluded⟩
      · rw [authorized] at pending
        cases pending
      · rcases concluded with ⟨found, present, status⟩ | ⟨found, present, status⟩ <;>
          cases known.symm.trans present <;> simp [reached] at status
    case captured =>
      obtain ⟨head, tail, same, succeeded⟩ := agrees
      cases same
      rw [succeeded] at unsettled
      simp at unsettled
  · rcases List.mem_cons.mp listed with rfl | behind
    · rcases target with ⟨rfl, -⟩ | ⟨rfl, -⟩ <;> rcases recorded with status | status <;>
        cases status
    · exact inv.header.held header found known (by simp [shape, behind]) recorded
  · rcases target with ⟨rfl, expired, -⟩ | ⟨rfl, gone⟩
    · exact expired
    · exact gone

/-! ## Recording a hold -/

/-- What a hold read at Stripe says for good about its session. -/
def HoldKnown (stripe : Stripe) (ref : Nat) (hold : HeldCharge) : Prop :=
  stripe.IntentOf ref hold.intentId ∧ ∃ amount currency, hold.amountMinor = some amount ∧
    hold.currency = some currency ∧ stripe.IntentCharge hold.intentId amount (toUpperCase currency)

theorem HoldKnown.lasts (earlier later : Stripe) (ref : Nat) (hold : HeldCharge)
    (evolved : Stripe.Evolves earlier later) (held : HoldKnown earlier ref hold) :
    HoldKnown later ref hold := by
  obtain ⟨completed, amount, currency, sameAmount, sameCurrency, charge⟩ := held
  exact ⟨evolved.intentOf _ _ _ _ completed, amount, currency, sameAmount, sameCurrency,
    evolved.intentCharge _ _ _ _ _ charge⟩

theorem picks_pending (id : Nat) (row : PaymentRow)
    (picked : Db.picks id (some .pending) row = true) :
    row.id = id ∧ row.status = .pending ∧ row.status.retired = false := by
  have both : row.id = id ∧ row.status = .pending := by simpa [Db.picks] using picked
  exact ⟨both.1, both.2, by rw [both.2]; rfl⟩

theorem updateStatus_pending (db : Db) (rows : Rows db) (row : PaymentRow)
    (status : PaymentStatus) (intentId : Option Nat) (listed : row ∈ db.payments)
    (pending : row.status = .pending) :
    ∃ rest, db.payments = row :: rest ∧ db.updateStatus row.id status intentId (some .pending) =
      (true, { db with payments := Db.PaymentRow.patch row status intentId :: rest }) := by
  rcases Db.updateStatus_cases db rows row.id status intentId (some .pending)
    (fun other _ picked => (picks_pending row.id other picked).2.2) with nothing | picked
  · have unpicked := nothing.2 row listed
    simp [Db.picks, pending] at unpicked
  · obtain ⟨found, rest, shape, picked, written⟩ := picked
    cases Db.eq_of_id db rows found row (by simp [shape]) listed
      (picks_pending row.id found picked).1
    exact ⟨rest, shape, written⟩

theorem updateHeader_ok (db after : Db) (change : PaymentOrderHeader → PaymentOrderHeader)
    (header : PaymentOrderHeader) (known : db.header = some header)
    (updated : db.updateHeader change = .ok after) :
    Db.chargeWhenNotFenced (change header) = true ∧
      after = { db with header := some (change header) } := by
  simp only [Db.updateHeader, known] at updated
  by_cases allowed : Db.chargeWhenNotFenced (change header) = true
  · rw [if_pos allowed] at updated
    exact ⟨allowed, (Except.ok.inj updated).symm⟩
  · rw [if_neg allowed] at updated
    cases updated

def Db.recorded (db : Db) (header : PaymentOrderHeader) (row : PaymentRow) (rest : List PaymentRow)
    (prepared : PreparedAuthorization) (outboxId : Nat) (status : PaymentOrderStatus) : Db :=
  { db with
    header := some { header with status := status, authorizedAt := some prepared.authorizedAt }
    payments := Db.PaymentRow.patch row .authorized (some prepared.hold.intentId) :: rest
    outbox := db.outbox ++
      [⟨outboxId, row.id, row.amountMinor, row.currency, prepared.authorizedAt⟩] }

theorem recordAuthorization_ok (db after : Db) (rows : Rows db) (header : PaymentOrderHeader)
    (row : PaymentRow) (prepared : PreparedAuthorization) (outboxId : Nat)
    (outcome answered : AuthorizationOutcome) (known : db.header = some header)
    (listed : row ∈ db.payments) (pending : row.status = .pending)
    (same : row.id = prepared.paymentId)
    (applied : db.recordAuthorization row prepared outboxId outcome = .ok (answered, after)) :
    ∃ rest, db.payments = row :: rest ∧
      after = db.recorded header row rest prepared outboxId
        (if outcome = .recorded then .authorized else header.status) ∧
      Db.chargeWhenNotFenced { header with
        status := if outcome = .recorded then .authorized else header.status
        authorizedAt := some prepared.authorizedAt } = true := by
  have authorized : row.toPayment.markAuthorized prepared.hold.intentId =
      .ok (row.toPayment.withStatus .authorized (some prepared.hold.intentId)) := by
    simp only [Payment.markAuthorized, pending]
    rfl
  obtain ⟨rest, shape, written⟩ := updateStatus_pending db rows row .authorized
    (some prepared.hold.intentId) listed pending
  simp only [Db.recordAuthorization, authorized] at applied
  rw [← same] at applied
  have written' : db.updateStatus row.id
      (row.toPayment.withStatus .authorized (some prepared.hold.intentId)).status
      (row.toPayment.withStatus .authorized (some prepared.hold.intentId)).providerIntentId
      (some .pending) = (true, { db with
        payments := Db.PaymentRow.patch row .authorized (some prepared.hold.intentId) :: rest }) :=
    written
  rw [written'] at applied
  dsimp only at applied
  split at applied
  · cases applied
  rename_i stamped charged
  obtain ⟨allowed, rfl⟩ := updateHeader_ok { db with
    payments := Db.PaymentRow.patch row .authorized (some prepared.hold.intentId) :: rest }
    stamped _ header known charged
  cases applied
  exact ⟨rest, shape, rfl, allowed⟩

def Records (db after : Db) (prepared : PreparedAuthorization) : Prop :=
  ∃ header row rest outboxId status,
    db.header = some header ∧ db.payments = row :: rest ∧
    row.providerSessionId = prepared.providerSessionId ∧ row.status = .pending ∧
    header.authorizedAt = none ∧ header.status.holds = false ∧
    header.amountMinor = some row.amountMinor ∧
    header.currency.map toUpperCase = some (toUpperCase row.currency) ∧
    prepared.hold.amountMinor = some row.amountMinor ∧
    prepared.hold.currency.map toUpperCase = some (toUpperCase row.currency) ∧
    (header.status = .cancelled ∧ status = .cancelled ∨
      header.status ≠ .cancelled ∧ status = .authorized) ∧
    after = db.recorded header row rest prepared outboxId status ∧
    Db.chargeWhenNotFenced { header with
      status := status, authorizedAt := some prepared.authorizedAt } = true

theorem records_of_decision (db after : Db) (rows : Rows db) (header : PaymentOrderHeader)
    (row : PaymentRow) (prepared : PreparedAuthorization) (outboxId : Nat)
    (decision : AuthorizationDecision) (late outcome : AuthorizationOutcome)
    (known : db.header = some header) (listed : row ∈ db.payments)
    (session : row.providerSessionId = prepared.providerSessionId)
    (same : row.id = prepared.paymentId)
    (decided : decideAuthorization row.toPayment header prepared.hold = decision)
    (kind : decision = .record ∧ late = .recorded ∨ decision = .recordLate ∧ late = .recordedLate)
    (written : db.recordAuthorization row prepared outboxId late = .ok (outcome, after)) :
    Records db after prepared := by
  have records : decision = .record ∨ decision = .recordLate := kind.imp And.left And.left
  obtain ⟨pending, unstamped, free, amount, currency, isLate, held, heldCode⟩ :=
    decideAuthorization_record row.toPayment header prepared.hold decision decided records
  obtain ⟨rest, shape, rfl, allowed⟩ := recordAuthorization_ok db after rows header row prepared
    outboxId late outcome known listed pending same written
  refine ⟨header, row, rest, outboxId, _, known, shape, session, pending, unstamped, free, amount,
    currency, held, heldCode, ?_, rfl, allowed⟩
  rcases kind with ⟨rfl, rfl⟩ | ⟨rfl, rfl⟩
  · exact .inr ⟨fun cancelled => by simpa using isLate.mpr cancelled, rfl⟩
  · exact .inl ⟨isLate.mp rfl, isLate.mp rfl⟩

/-- What an authorization applied to the locked rows leaves. -/
theorem apply_cases (db after : Db) (rows : Rows db) (prepared : PreparedAuthorization)
    (outcome : AuthorizationOutcome) (applied : db.apply prepared = .ok (outcome, after)) :
    after = db ∨ Records db after prepared := by
  unfold Db.apply at applied
  split at applied
  · rename_i header row known found
    obtain ⟨listed, session⟩ := Db.findByProviderSessionId_some db _ row found
    split at applied
    · cases applied
    rename_i same
    rw [not_not] at same
    split at applied
    · cases applied
      exact .inl rfl
    · cases applied
      exact .inl rfl
    · split at applied <;> cases applied
      exact .inl rfl
    · exact .inr (records_of_decision db after rows header row prepared _ _ _ outcome known listed
        session same ‹_› (.inl ⟨rfl, rfl⟩) applied)
    · exact .inr (records_of_decision db after rows header row prepared _ _ _ outcome known listed
        session same ‹_› (.inr ⟨rfl, rfl⟩) applied)
    · cases applied
    · cases applied
  · cases applied

theorem inv_record (shared : Shared) (header : PaymentOrderHeader) (row : PaymentRow)
    (rest : List PaymentRow) (prepared : PreparedAuthorization) (outboxId : Nat)
    (status : PaymentOrderStatus) (inv : Inv shared) (known : shared.db.header = some header)
    (shape : shared.db.payments = row :: rest)
    (session : row.providerSessionId = prepared.providerSessionId)
    (unstamped : header.authorizedAt = none)
    (amount : header.amountMinor = some row.amountMinor)
    (currency : header.currency.map toUpperCase = some (toUpperCase row.currency))
    (heldAmount : prepared.hold.amountMinor = some row.amountMinor)
    (heldCurrency : prepared.hold.currency.map toUpperCase = some (toUpperCase row.currency))
    (moves : header.status = .cancelled ∧ status = .cancelled ∨
      header.status ≠ .cancelled ∧ status = .authorized)
    (charge : Db.chargeWhenNotFenced { header with
      status := status, authorizedAt := some prepared.authorizedAt } = true)
    (held : HoldKnown shared.stripe prepared.providerSessionId prepared.hold) :
    Inv { shared with db := shared.db.recorded header row rest prepared outboxId status } := by
  have listed : row ∈ shared.db.payments := by simp [shape]
  have upper := inv.rows.upper row listed
  obtain ⟨code, headerCode, sameCode⟩ := Option.map_eq_some_iff.mp currency
  have headerCurrency : header.currency = some row.currency := by
    rw [headerCode, ← inv.header.upper header code known headerCode, sameCode, upper]
  have silent : shared.db.outbox = [] := by
    have announced := inv.announced header known
    rwa [unstamped] at announced
  obtain ⟨completed, heldMinor, heldCode, sameMinor, sameHeld, charged⟩ := held
  have backed : Backed shared.stripe
      (Db.PaymentRow.patch row .authorized (some prepared.hold.intentId)) := by
    refine ⟨prepared.hold.intentId, rfl, session ▸ completed, ?_⟩
    rw [sameMinor] at heldAmount
    rw [sameHeld, Option.map_some, upper] at heldCurrency
    cases heldAmount
    rw [Option.some.inj heldCurrency] at charged
    exact charged
  refine inv_patch shared _ row rest .authorized (some prepared.hold.intentId) inv shape rfl rfl
    ⟨(fun absent => by cases absent), ?_, ?_, ?_, ?_⟩ ?_ backed fun _ => .inl rfl
  · rintro found ⟨⟩
    rcases moves with ⟨cancelled, rfl⟩ | ⟨-, rfl⟩
    · have agrees := inv.header.status header known
      rw [cancelled, shape] at agrees
      intro other present
      rcases List.mem_cons.mp present with rfl | behind
      · exact PaymentStatus.noConfusion
      · exact agrees other (List.mem_cons_of_mem _ behind)
    · exact ⟨_, rest, rfl, rfl⟩
  · rintro found ⟨⟩
    exact charge
  · rintro found other ⟨⟩ code'
    exact inv.header.upper header other known code'
  · rintro found other ⟨⟩ present recorded
    rcases List.mem_cons.mp present with rfl | behind
    · exact ⟨amount, headerCurrency⟩
    · exact inv.header.held header other known (by simp [shape, behind]) recorded
  · rintro found ⟨⟩
    exact ⟨⟨outboxId, row.id, row.amountMinor, row.currency, prepared.authorizedAt⟩,
      by simp [Db.recorded, silent], rfl, amount, headerCurrency⟩

/-- A header that holds nothing and has attempts is open or cancelled. -/
theorem status_of_pending (shared : Shared) (inv : Inv shared) (header : PaymentOrderHeader)
    (row : PaymentRow) (known : shared.db.header = some header) (listed : row ∈ shared.db.payments)
    (free : header.status.holds = false) :
    header.status = .opened ∨ header.status = .cancelled := by
  have agrees := inv.header.status header known
  cases reached : header.status <;> rw [reached] at free agrees
  case opened => exact .inl rfl
  case cancelled => exact .inr rfl
  case authorized => cases free
  case captured => cases free
  case fenced =>
    rw [StatusAgrees] at agrees
    simp [agrees] at listed

/-- Applying a hold keeps the invariant, whoever applies it. -/
theorem apply_spec (slot : Nat) (request : Request) (shared : Shared) (after : Db)
    (prepared : PreparedAuthorization) (outcome : AuthorizationOutcome) (inv : Inv shared)
    (held : HoldKnown shared.stripe prepared.providerSessionId prepared.hold)
    (applied : shared.db.apply prepared = .ok (outcome, after)) :
    Inv { shared with db := after } ∧ Guarantee slot request shared
        { shared with db := after } := by
  rcases apply_cases shared.db after inv.rows prepared outcome applied with rfl | records
  · exact ⟨inv, Guarantee.refl slot request shared⟩
  obtain ⟨header, row, rest, outboxId, status, known, shape, session, pending, unstamped, free,
    amount, currency, heldAmount, heldCurrency, moves, rfl, charge⟩ := records
  have began := status_of_pending shared inv header row known (by simp [shape]) free
  refine ⟨inv_record shared header row rest prepared outboxId status inv known shape session
    unstamped amount currency heldAmount heldCurrency moves charge held, ?_⟩
  refine guarantee_tables slot request shared _ (evolves_patch shared _ row rest .authorized _ shape
    rfl (by rw [pending]; rfl) (HeaderMoves.forward _ _ header _ known rfl rfl rfl ?_ ?_ ?_))
    (patch_sessions _ rest row _ _ shape) ?_ (Db.openedBy_known request _ _ header known) ?_
  · rcases moves with ⟨-, rfl⟩ | ⟨-, rfl⟩ <;> simp
  · rcases moves with ⟨cancelled, rfl⟩ | ⟨fresh, rfl⟩
    · exact fun _ => .inl rfl
    · rcases began with opened | cancelled
      · simp [opened]
      · exact absurd cancelled fresh
  · rcases began with opened | cancelled
    · simp [opened]
    · simp [cancelled]
  · rintro - ⟨found, present, barred⟩
    cases present
    rcases moves with ⟨cancelled, rfl⟩ | ⟨-, rfl⟩
    · exact .inl ⟨header, known, .inl cancelled⟩
    · simp at barred
  · rintro - (⟨found, present, barred⟩ | ⟨found, present, taken⟩)
    · cases present
      rcases moves with ⟨cancelled, rfl⟩ | ⟨-, rfl⟩
      · exact .inl ⟨header, known, .inl cancelled⟩
      · simp at barred
    · cases present
      rcases moves with ⟨-, rfl⟩ | ⟨-, rfl⟩ <;> cases taken

/-! ## Releasing an attempt -/

theorem expire_spec (slot : Nat) (request : Request) (shared : Shared) (id : Nat)
    (inv : Inv shared) (session : ∀ row ∈ shared.db.payments, row.id = id →
      shared.stripe.Expired row.providerSessionId) :
    Inv { shared with db := (shared.db.updateStatus id .expired none (some .pending)).2 } ∧
      Guarantee slot request shared
        { shared with db := (shared.db.updateStatus id .expired none (some .pending)).2 } := by
  rcases Db.updateStatus_cases shared.db inv.rows id .expired none (some .pending)
    (fun other _ picked => (picks_pending id other picked).2.2) with nothing | picked
  · rw [nothing.1]
    exact ⟨inv, Guarantee.refl slot request shared⟩
  obtain ⟨row, rest, shape, picked, written⟩ := picked
  obtain ⟨same, pending, -⟩ := picks_pending id row picked
  rw [written]
  have expired := session row (by simp [shape]) same
  exact ⟨inv_release shared row rest .expired none inv shape (.inl pending)
      (.inl ⟨rfl, expired, pending⟩),
    guarantee_tables slot request shared _ (evolves_patch shared _ row rest .expired none shape rfl
      (by rw [pending]; rfl) (HeaderMoves.same _ _ rfl)) (patch_sessions _ rest row _ _ shape)
      (fun _ barred => .inl barred) (Db.openedBy_same request _ _ rfl) fun _ concluded => concluded⟩

theorem picks_of_status (id : Nat) (status : PaymentStatus) (row : PaymentRow)
    (picked : Db.picks id (some status) row = true) : row.id = id ∧ row.status = status := by
  simpa [Db.picks] using picked

theorem void_spec (slot : Nat) (request : Request) (shared : Shared) (id : Nat)
    (intentId : Option Nat) (expected : PaymentStatus) (inv : Inv shared)
    (unsettled : expected = .pending ∨ expected = .authorized ∧ shared.db.concluded)
    (session : ∀ row ∈ shared.db.payments, row.id = id →
      shared.stripe.HoldGone row.providerSessionId) :
    Inv { shared with db := (shared.db.updateStatus id .voided intentId (some expected)).2 } ∧
      Guarantee slot request shared
        { shared with db := (shared.db.updateStatus id .voided intentId (some expected)).2 } := by
  have active : ∀ row ∈ shared.db.payments, Db.picks id (some expected) row = true →
      row.status.retired = false := by
    intro row _ picked
    rw [(picks_of_status id expected row picked).2]
    rcases unsettled with rfl | ⟨rfl, -⟩ <;> rfl
  rcases Db.updateStatus_cases shared.db inv.rows id .voided intentId (some expected) active
    with nothing | picked
  · rw [nothing.1]
    exact ⟨inv, Guarantee.refl slot request shared⟩
  obtain ⟨row, rest, shape, picked, written⟩ := picked
  obtain ⟨same, status⟩ := picks_of_status id expected row picked
  rw [written]
  have gone := session row (by simp [shape]) same
  have leads : row.status.leadsTo .voided = true := by
    rw [status]
    rcases unsettled with rfl | ⟨rfl, -⟩ <;> rfl
  exact ⟨inv_release shared row rest .voided intentId inv shape (status ▸ unsettled)
      (.inr ⟨rfl, gone⟩),
    guarantee_tables slot request shared _ (evolves_patch shared _ row rest .voided intentId shape
      rfl leads (HeaderMoves.same _ _ rfl)) (patch_sessions _ rest row _ _ shape)
      (fun _ barred => .inl barred) (Db.openedBy_same request _ _ rfl) fun _ concluded => concluded⟩

/-! ## Moving the header -/

theorem moveHeader_ok {α : Type} (db after : Db) (status : PaymentOrderStatus) (answer answered : α)
    (header : PaymentOrderHeader) (known : db.header = some header)
    (moved : db.moveHeader status answer = .ok (answered, after)) :
    answered = answer ∧ Db.chargeWhenNotFenced { header with status := status } = true ∧
      after = { db with header := some { header with status := status } } := by
  unfold Db.moveHeader at moved
  split at moved
  · cases moved
  rename_i changed updated
  obtain ⟨allowed, rfl⟩ := updateHeader_ok db changed _ header known updated
  cases moved
  exact ⟨rfl, allowed, rfl⟩

theorem take_spec (slot : Nat) (request : Request) (shared : Shared) (header : PaymentOrderHeader)
    (row : PaymentRow) (rest : List PaymentRow) (inv : Inv shared)
    (known : shared.db.header = some header) (shape : shared.db.payments = row :: rest)
    (authorized : row.status = .authorized)
    (captured : shared.stripe.Captured row.providerSessionId)
    (charge : Db.chargeWhenNotFenced { header with status := .captured } = true)
    (settles : request.concludes = false → shared.db.concluded) :
    let db : Db := { shared.db with
      header := some { header with status := .captured }
      payments := Db.PaymentRow.patch row .succeeded none :: rest }
    Inv { shared with db } ∧ Guarantee slot request shared { shared with db } := by
  have listed : row ∈ shared.db.payments := by simp [shape]
  have charges := inv.header.held header row known listed (.inl authorized)
  have backed := inv.backed row listed
  rw [Backed, authorized] at backed
  obtain ⟨intentId, -, completed, held⟩ := backed
  intro db
  refine ⟨inv_patch shared db row rest .succeeded none inv shape rfl rfl
    ⟨(fun absent => by cases absent), ?_, ?_, ?_, ?_⟩ ?_ ⟨captured, intentId, completed, held⟩
    fun _ => .inr rfl, ?_⟩
  · rintro found ⟨⟩
    exact ⟨_, rest, rfl, rfl⟩
  · rintro found ⟨⟩
    exact charge
  · rintro found code ⟨⟩ currency
    exact inv.header.upper header code known currency
  · rintro found other ⟨⟩ present recorded
    rcases List.mem_cons.mp present with rfl | behind
    · exact charges
    · exact inv.header.held header other known (by simp [shape, behind]) recorded
  · rintro found ⟨⟩
    exact inv.announced header known
  · refine guarantee_tables slot request shared db (evolves_patch shared db row rest .succeeded none
      shape rfl (by rw [authorized]; rfl) (HeaderMoves.forward _ _ header _ known rfl rfl rfl
        (by simp) (fun _ => .inr (.inr rfl)) fun _ => rfl)) (patch_sessions _ rest row _ _ shape) ?_
      (Db.openedBy_known request _ _ header known) fun quiet _ => settles quiet
    rintro - ⟨found, present, barred⟩
    cases present
    simp at barred

/-- Rows that are all retired but the newest are released if the newest is. -/
theorem allReleased_of_head (shared : Shared) (inv : Inv shared) (row : PaymentRow)
    (rest : List PaymentRow) (shape : shared.db.payments = row :: rest)
    (released : shared.stripe.Released row.providerSessionId) : AllReleased shared := by
  intro found listed
  rw [shape] at listed
  rcases List.mem_cons.mp listed with rfl | behind
  · exact released
  · exact inv.released_of_retired shared found (by simp [shape, behind])
      (inv.rows.retired found (by simpa [shape] using behind))

/-- A hold gone before its capture cancels the header; the attempt fails if it still held it. -/
theorem fail_spec (slot : Nat) (request : Request) (shared : Shared) (header : PaymentOrderHeader)
    (row changed : PaymentRow) (rest : List PaymentRow) (inv : Inv shared)
    (known : shared.db.header = some header) (shape : shared.db.payments = row :: rest)
    (gone : shared.stripe.HoldGone row.providerSessionId)
    (change : changed = row ∨ row.status = .authorized ∧
      changed = Db.PaymentRow.patch row .failed none)
    (charge : Db.chargeWhenNotFenced { header with status := .cancelled } = true)
    (settles : request.concludes = false → shared.db.concluded) :
    let db : Db := { shared.db with
      header := some { header with status := .cancelled }
      payments := changed :: rest }
    Inv { shared with db } ∧ Guarantee slot request shared { shared with db } ∧
      AllReleased { shared with db } := by
  have listed : row ∈ shared.db.payments := by simp [shape]
  have untaken : ¬ shared.stripe.Captured row.providerSessionId :=
    Stripe.Released.not_captured _ _ (.inr gone)
  have unsettled : row.status ≠ .succeeded := by
    intro succeeded
    have backed := inv.backed row listed
    rw [Backed, succeeded] at backed
    exact untaken backed.1
  have fresh : header.status ≠ .captured := by
    intro captured
    have agrees := inv.header.status header known
    rw [captured] at agrees
    obtain ⟨head, tail, same, succeeded⟩ := agrees
    rw [shape] at same
    cases same
    exact unsettled succeeded
  have sessions : changed.providerSessionId = row.providerSessionId := by
    rcases change with rfl | ⟨-, rfl⟩ <;> rfl
  have moves : HeaderMoves shared.db { shared.db with
      header := some { header with status := .cancelled }, payments := changed :: rest } :=
    HeaderMoves.forward _ _ header _ known rfl rfl rfl (by simp) (fun _ => .inl rfl)
      fun captured => absurd captured fresh
  have old : ∀ found ∈ rest, found.status ≠ .succeeded := by
    intro found behind succeeded
    have retired := inv.rows.retired found (by simpa [shape] using behind)
    rw [succeeded] at retired
    cases retired
  intro db
  have inv' : Inv { shared with db } := by
    rcases change with rfl | ⟨authorized, rfl⟩
    · have same : db = { shared.db with header := some { header with status := .cancelled } } := by
        simp only [db, ← shape]
      rw [same]
      refine inv_header shared header .cancelled inv known charge fun found present => ?_
      rw [shape] at present
      rcases List.mem_cons.mp present with rfl | behind
      · exact unsettled
      · exact old found behind
    · refine inv_patch shared db row rest .failed none inv shape rfl rfl
        ⟨(fun absent => by cases absent), ?_, ?_, ?_, ?_⟩ ?_ gone fun taken => absurd taken untaken
      · rintro found ⟨⟩ other present
        rcases List.mem_cons.mp present with rfl | behind
        · exact PaymentStatus.noConfusion
        · exact old other behind
      · rintro found ⟨⟩
        exact charge
      · rintro found code ⟨⟩ currency
        exact inv.header.upper header code known currency
      · rintro found other ⟨⟩ present recorded
        rcases List.mem_cons.mp present with rfl | behind
        · rcases recorded with status | status <;> cases status
        · exact inv.header.held header other known (by simp [shape, behind]) recorded
      · rintro found ⟨⟩
        exact inv.announced header known
  have released : AllReleased { shared with db } :=
    allReleased_of_head _ inv' changed rest rfl (.inr (sessions ▸ gone))
  refine ⟨inv', guarantee_tables slot request shared db ?_ ?_ (fun _ _ => .inr released)
    (Db.openedBy_known request _ _ header known) fun quiet _ => settles quiet, released⟩
  · refine ⟨Stripe.Evolves.refl _, ⟨[], db.payments, rfl, ?_, fun _ => rfl⟩, moves.charge,
      moves.shut,
      moves.concluded, moves.taken⟩
    rw [shape]
    rcases change with rfl | ⟨authorized, rfl⟩
    · exact rowsEvolve_refl _
    · exact .cons ⟨rfl, rfl, rfl, rfl, by rw [authorized]; rfl⟩ (rowsEvolve_refl rest)
  · intro found present
    rcases List.mem_cons.mp present with rfl | behind
    · exact ⟨row, listed, sessions.symm⟩
    · exact ⟨found, by simp [shape, behind], rfl⟩

end Commerce.Payments
