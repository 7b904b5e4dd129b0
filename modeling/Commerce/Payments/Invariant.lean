import Commerce.Payments.Rows
import Commerce.Payments.UseCases

/-!
# What holds between the actions

The invariant ties the header, the attempts, the outbox and Stripe together.
`Evolves` is what no action undoes: a header that left `OPEN` freezes the list
of attempts, a settled attempt stays settled, and Stripe's own facts last.
-/

set_option autoImplicit false

namespace Commerce.Payments

open Stripe (Quiet)

/-! ## The invariant -/

/-- What Stripe is known to hold for an attempt, by its status. -/
def Backed (stripe : Stripe) (row : PaymentRow) : Prop :=
  match row.status with
  | .pending => stripe.sessions row.providerSessionId ≠ none
  | .expired => stripe.Expired row.providerSessionId
  | .voided | .failed => stripe.HoldGone row.providerSessionId
  | .succeeded => stripe.Captured row.providerSessionId ∧
      ∃ intentId, stripe.IntentOf row.providerSessionId intentId ∧
        stripe.IntentCharge intentId row.amountMinor row.currency
  | .authorized => ∃ intentId, row.providerIntentId = some intentId ∧
      stripe.IntentOf row.providerSessionId intentId ∧
        stripe.IntentCharge intentId row.amountMinor row.currency

def StatusAgrees (status : PaymentOrderStatus) (rows : List PaymentRow) : Prop :=
  match status with
  | .opened => ∀ row ∈ rows, row.status = .pending ∨ row.status = .expired ∨ row.status = .voided
  | .authorized => ∃ row rest, rows = row :: rest ∧ row.status = .authorized
  | .captured => ∃ row rest, rows = row :: rest ∧ row.status = .succeeded
  | .cancelled => ∀ row ∈ rows, row.status ≠ .succeeded
  | .fenced => rows = []

structure HeaderAgrees (db : Db) : Prop where
  absent : db.header = none → db.payments = [] ∧ db.outbox = []
  status : ∀ header, db.header = some header → StatusAgrees header.status db.payments
  charge : ∀ header, db.header = some header → Db.chargeWhenNotFenced header = true
  upper : ∀ header code, db.header = some header → header.currency = some code →
    toUpperCase code = code
  /-- A recorded hold was recorded for the header's charge. -/
  held : ∀ header row, db.header = some header → row ∈ db.payments →
    row.status = .authorized ∨ row.status = .succeeded →
      header.amountMinor = some row.amountMinor ∧ header.currency = some row.currency

/-- `payment.authorized` is written once, with the stamp, for the header's charge. -/
def Announced (db : Db) : Prop :=
  ∀ header, db.header = some header →
    match header.authorizedAt with
    | none => db.outbox = []
    | some authorizedAt => ∃ record, db.outbox = [record] ∧ record.authorizedAt = authorizedAt ∧
        header.amountMinor = some record.amountMinor ∧ header.currency = some record.currency

structure Inv (shared : Shared) : Prop where
  rows : Rows shared.db
  header : HeaderAgrees shared.db
  announced : Announced shared.db
  sane : shared.stripe.Sane
  backed : ∀ row ∈ shared.db.payments, Backed shared.stripe row
  /-- Only the URLs of attempts leave. -/
  handed : ∀ ref, shared.stripe.HandedOut ref →
    ∃ row ∈ shared.db.payments, row.providerSessionId = ref
  captured : ∀ row ∈ shared.db.payments, shared.stripe.Captured row.providerSessionId →
    row.status = .authorized ∨ row.status = .succeeded

/-! ## What lasts -/

def PaymentStatus.leadsTo : PaymentStatus → PaymentStatus → Bool
  | .pending, _ => true
  | .authorized, status => status != .pending && status != .expired
  | status, other => status == other

structure RowEvolves (row later : PaymentRow) : Prop where
  id : later.id = row.id
  session : later.providerSessionId = row.providerSessionId
  amount : later.amountMinor = row.amountMinor
  currency : later.currency = row.currency
  status : row.status.leadsTo later.status = true

/-- The header left `OPEN`: no attempt is inserted any more. -/
def Db.shut (db : Db) : Prop := ∃ header, db.header = some header ∧ header.status ≠ .opened

/-- The order was cancelled or never opened. -/
def Db.barred (db : Db) : Prop :=
  ∃ header, db.header = some header ∧ (header.status = .cancelled ∨ header.status = .fenced)

def Db.taken (db : Db) : Prop := ∃ header, db.header = some header ∧ header.status = .captured

/-- Neither open nor waiting for its capture. -/
def Db.concluded (db : Db) : Prop := db.barred ∨ db.taken

structure Evolves (earlier later : Shared) : Prop where
  stripe : Stripe.Evolves earlier.stripe later.stripe
  rows : ∃ added kept, later.db.payments = added ++ kept ∧
    List.Forall₂ RowEvolves earlier.db.payments kept ∧ (earlier.db.shut → added = [])
  charge : ∀ header, earlier.db.header = some header → ∃ found, later.db.header = some found ∧
    found.amountMinor = header.amountMinor ∧ found.currency = header.currency
  shut : earlier.db.shut → later.db.shut
  concluded : earlier.db.concluded → later.db.concluded
  taken : earlier.db.taken → later.db.taken

/-- No money is held or taken through any attempt, and none ever will be. -/
def AllReleased (shared : Shared) : Prop :=
  ∀ row ∈ shared.db.payments, shared.stripe.Released row.providerSessionId

def Unlisted (shared : Shared) (ref : Nat) : Prop :=
  ∀ row ∈ shared.db.payments, row.providerSessionId ≠ ref

/-- Nobody else lists a session this slot asked for. -/
structure Rely (slot : Nat) (earlier later : Shared) : Prop where
  evolves : Evolves earlier later
  own : ∀ ref session, earlier.stripe.sessions ref = some session →
    session.idempotencyKey = slot → Unlisted earlier ref → Unlisted later ref

def Request.concludes : Request → Bool
  | .cancel | .capture => true
  | _ => false

def Db.OpenedBy (request : Request) (earlier later : Db) : Prop :=
  ∀ header amountMinor, earlier.header = none → later.header = some header →
    header.amountMinor = some amountMinor → ∃ currency expiresAt,
      request = .openSession amountMinor currency expiresAt ∧
        header.currency = some (toUpperCase currency)

structure Guarantee (slot : Nat) (request : Request) (earlier later : Shared) : Prop where
  evolves : Evolves earlier later
  foreign : ∀ ref session, earlier.stripe.sessions ref = some session →
    session.idempotencyKey ≠ slot → Unlisted earlier ref → Unlisted later ref
  /-- Only a capture captures. -/
  captures : request ≠ .capture → ∀ ref, later.stripe.Captured ref → earlier.stripe.Captured ref
  /-- Only a cancel bars an order that still has something to release. -/
  bars : request ≠ .cancel → later.db.barred → earlier.db.barred ∨ AllReleased later
  opens : Db.OpenedBy request earlier.db later.db
  /-- Only a cancel or a capture concludes an order. -/
  concludes : request.concludes = false → later.db.concluded → earlier.db.concluded

theorem PaymentStatus.leadsTo_refl (status : PaymentStatus) : status.leadsTo status = true := by
  cases status <;> rfl

theorem PaymentStatus.leadsTo_trans (first second third : PaymentStatus)
    (one : first.leadsTo second = true) (two : second.leadsTo third = true) :
    first.leadsTo third = true := by
  cases first <;> cases second <;> cases third <;> first | rfl | exact one | exact two

theorem RowEvolves.refl (row : PaymentRow) : RowEvolves row row :=
  ⟨rfl, rfl, rfl, rfl, row.status.leadsTo_refl⟩

theorem RowEvolves.trans (first second third : PaymentRow) (one : RowEvolves first second)
    (two : RowEvolves second third) : RowEvolves first third :=
  ⟨two.id.trans one.id, two.session.trans one.session, two.amount.trans one.amount,
    two.currency.trans one.currency,
    PaymentStatus.leadsTo_trans first.status second.status third.status one.status two.status⟩

theorem rowsEvolve_refl (rows : List PaymentRow) : List.Forall₂ RowEvolves rows rows :=
  List.forall₂_same.mpr fun row _ => RowEvolves.refl row

theorem rowsEvolve_trans (first second third : List PaymentRow)
    (one : List.Forall₂ RowEvolves first second) (two : List.Forall₂ RowEvolves second third) :
    List.Forall₂ RowEvolves first third := by
  induction one generalizing third with
  | nil =>
      cases two
      exact .nil
  | cons here _ ih =>
      cases two with
      | cons next rest => exact .cons (RowEvolves.trans _ _ _ here next) (ih _ rest)

theorem rowsEvolve_mem (rows later : List PaymentRow) (row : PaymentRow)
    (moved : List.Forall₂ RowEvolves rows later) (listed : row ∈ rows) :
    ∃ found ∈ later, RowEvolves row found := by
  induction moved with
  | nil => cases listed
  | cons here _ ih =>
      rcases List.mem_cons.mp listed with rfl | behind
      · exact ⟨_, List.mem_cons_self, here⟩
      · obtain ⟨found, present, became⟩ := ih behind
        exact ⟨found, List.mem_cons_of_mem _ present, became⟩

theorem rowsEvolve_mem_back (rows later : List PaymentRow) (found : PaymentRow)
    (moved : List.Forall₂ RowEvolves rows later) (listed : found ∈ later) :
    ∃ row ∈ rows, RowEvolves row found := by
  induction moved with
  | nil => cases listed
  | cons here _ ih =>
      rcases List.mem_cons.mp listed with rfl | behind
      · exact ⟨_, List.mem_cons_self, here⟩
      · obtain ⟨row, present, became⟩ := ih behind
        exact ⟨row, List.mem_cons_of_mem _ present, became⟩

theorem Evolves.refl (shared : Shared) : Evolves shared shared :=
  ⟨Stripe.Evolves.refl _, ⟨[], _, rfl, rowsEvolve_refl _, fun _ => rfl⟩,
    fun header known => ⟨header, known, rfl, rfl⟩, id, id, id⟩

theorem Evolves.trans (past now later : Shared) (first : Evolves past now)
    (second : Evolves now later) : Evolves past later := by
  refine ⟨Stripe.Evolves.trans _ _ _ first.stripe second.stripe, ?_, fun header known => ?_,
    second.shut ∘ first.shut, second.concluded ∘ first.concluded, second.taken ∘ first.taken⟩
  · obtain ⟨added, kept, shape, moved, frozen⟩ := first.rows
    obtain ⟨added', kept', shape', moved', frozen'⟩ := second.rows
    rw [shape] at moved'
    have bottomMoved := List.forall₂_drop added.length moved'
    rw [List.drop_left] at bottomMoved
    refine ⟨added' ++ kept'.take added.length, kept'.drop added.length,
      by rw [shape', List.append_assoc, List.take_append_drop],
      rowsEvolve_trans _ _ _ moved bottomMoved, fun closed => ?_⟩
    rw [frozen' (first.shut closed), frozen closed]
    rfl
  · obtain ⟨middle, knownNow, amount, currency⟩ := first.charge header known
    obtain ⟨found, knownLater, amount', currency'⟩ := second.charge middle knownNow
    exact ⟨found, knownLater, amount'.trans amount, currency'.trans currency⟩

theorem Rely.refl (slot : Nat) (shared : Shared) : Rely slot shared shared :=
  ⟨Evolves.refl shared, fun _ _ _ _ unlisted => unlisted⟩

theorem Rely.trans (slot : Nat) (past now later : Shared) (first : Rely slot past now)
    (second : Rely slot now later) : Rely slot past later := by
  refine ⟨Evolves.trans past now later first.evolves second.evolves, fun ref session known own
    unlisted => ?_⟩
  obtain ⟨found, knownNow, sameKey, -⟩ := first.evolves.stripe.session ref session known
  exact second.own ref found knownNow (sameKey.trans own) (first.own ref session known own unlisted)

theorem Db.openedBy_known (request : Request) (earlier later : Db) (header : PaymentOrderHeader)
    (known : earlier.header = some header) : Db.OpenedBy request earlier later := by
  intro _ _ absent
  cases absent.symm.trans known

theorem Db.openedBy_same (request : Request) (earlier later : Db)
    (same : later.header = earlier.header) : Db.OpenedBy request earlier later := by
  intro header _ absent present
  cases absent.symm.trans (same.symm.trans present)

theorem Guarantee.refl (slot : Nat) (request : Request) (shared : Shared) :
    Guarantee slot request shared shared :=
  ⟨Evolves.refl shared, fun _ _ _ _ unlisted => unlisted, fun _ _ taken => taken,
    fun _ barred => .inl barred, Db.openedBy_same request _ _ rfl, fun _ concluded => concluded⟩

theorem Guarantee.rely (slot other : Nat) (request : Request) (earlier later : Shared)
    (different : slot ≠ other) (guaranteed : Guarantee slot request earlier later) :
    Rely other earlier later :=
  ⟨guaranteed.evolves, fun ref session known own unlisted =>
    guaranteed.foreign ref session known (fun same => different (same.symm.trans own)) unlisted⟩

/-! ## Facts that last -/

theorem Backed.lasts (earlier later : Stripe) (row : PaymentRow)
    (evolved : Stripe.Evolves earlier later) (backed : Backed earlier row) : Backed later row := by
  unfold Backed at backed ⊢
  cases status : row.status <;> rw [status] at backed
  case pending =>
    obtain ⟨session, known⟩ := Option.ne_none_iff_exists'.mp backed
    obtain ⟨found, present, -, -⟩ := evolved.session _ session known
    simp [present]
  case expired => exact evolved.expired _ _ _ backed
  case voided => exact evolved.holdGone _ _ _ backed
  case failed => exact evolved.holdGone _ _ _ backed
  case succeeded =>
    obtain ⟨captured, intentId, completed, charge⟩ := backed
    exact ⟨evolved.captured _ _ _ captured, intentId, evolved.intentOf _ _ _ _ completed,
      evolved.intentCharge _ _ _ _ _ charge⟩
  case authorized =>
    obtain ⟨intentId, linked, completed, charge⟩ := backed
    exact ⟨intentId, linked, evolved.intentOf _ _ _ _ completed,
      evolved.intentCharge _ _ _ _ _ charge⟩

/-- Once the header left `OPEN`, the attempts only change their status. -/
theorem Evolves.frozen (earlier later : Shared) (evolved : Evolves earlier later)
    (shut : earlier.db.shut) :
    List.Forall₂ RowEvolves earlier.db.payments later.db.payments := by
  obtain ⟨added, kept, shape, moved, frozen⟩ := evolved.rows
  rw [shape, frozen shut]
  exact moved

theorem Evolves.row (earlier later : Shared) (evolved : Evolves earlier later) (row : PaymentRow)
    (listed : row ∈ earlier.db.payments) : ∃ found ∈ later.db.payments, RowEvolves row found := by
  obtain ⟨added, kept, shape, moved, -⟩ := evolved.rows
  obtain ⟨found, present, became⟩ := rowsEvolve_mem _ _ row moved listed
  exact ⟨found, by simp [shape, present], became⟩

theorem Evolves.allReleased (earlier later : Shared) (evolved : Evolves earlier later)
    (shut : earlier.db.shut) (released : AllReleased earlier) : AllReleased later := by
  intro found listed
  obtain ⟨row, present, became⟩ := rowsEvolve_mem_back _ _ found
    (evolved.frozen earlier later shut) listed
  rw [became.session]
  exact evolved.stripe.released _ _ _ (released row present)

theorem Db.barred.shut (db : Db) (barred : db.barred) : db.shut := by
  obtain ⟨header, known, status⟩ := barred
  exact ⟨header, known, by rcases status with status | status <;> simp [status]⟩

theorem Db.taken.shut (db : Db) (taken : db.taken) : db.shut := by
  obtain ⟨header, known, status⟩ := taken
  exact ⟨header, known, by simp [status]⟩

theorem Db.concluded.shut (db : Db) (concluded : db.concluded) : db.shut :=
  concluded.elim (Db.barred.shut db) (Db.taken.shut db)

theorem Guarantee.trans (slot : Nat) (request : Request) (past now later : Shared)
    (first : Guarantee slot request past now) (second : Guarantee slot request now later) :
    Guarantee slot request past later := by
  refine ⟨Evolves.trans past now later first.evolves second.evolves,
    fun ref session known foreign unlisted => ?_,
    fun other ref taken => first.captures other ref (second.captures other ref taken),
    fun other barred => ?_, fun header amountMinor absent present charge => ?_,
    fun quiet concluded => first.concludes quiet (second.concludes quiet concluded)⟩
  · obtain ⟨found, knownNow, sameKey, -⟩ := first.evolves.stripe.session ref session known
    exact second.foreign ref found knownNow (fun same => foreign (sameKey.symm.trans same))
      (first.foreign ref session known foreign unlisted)
  · rcases second.bars other barred with barredNow | released
    · exact (first.bars other barredNow).imp id
        (second.evolves.allReleased now later (Db.barred.shut _ barredNow))
    · exact .inr released
  · cases middle : now.db.header with
    | none => exact second.opens header amountMinor middle present charge
    | some opened =>
        obtain ⟨found, same, amount, currency⟩ := second.evolves.charge opened middle
        cases same.symm.trans present
        obtain ⟨code, expiresAt, asked, named⟩ :=
          first.opens opened amountMinor absent middle (amount.symm.trans charge)
        exact ⟨code, expiresAt, asked, currency.trans named⟩

/-- A retired attempt is released. -/
theorem Inv.released_of_retired (shared : Shared) (inv : Inv shared) (row : PaymentRow)
    (listed : row ∈ shared.db.payments) (retired : row.status.retired = true) :
    shared.stripe.Released row.providerSessionId := by
  have backed := inv.backed row listed
  unfold Backed at backed
  cases status : row.status <;> rw [status] at retired backed
  case expired => exact .inl backed
  case failed => exact .inr backed
  all_goals cases retired

theorem Inv.taken_of_succeeded (shared : Shared) (inv : Inv shared) (row : PaymentRow)
    (listed : row ∈ shared.db.payments) (succeeded : row.status = .succeeded) :
    shared.db.taken := by
  obtain ⟨rest, shape⟩ := Db.head_of_active shared.db inv.rows row listed (by rw [succeeded]; rfl)
  cases known : shared.db.header with
  | none =>
      have empty := (inv.header.absent known).1
      rw [shape] at empty
      cases empty
  | some header =>
      refine ⟨header, known, ?_⟩
      have agrees := inv.header.status header known
      unfold StatusAgrees at agrees
      cases reached : header.status <;> rw [reached] at agrees
      case opened => simpa [succeeded] using agrees row listed
      case cancelled => exact absurd succeeded (agrees row listed)
      case fenced =>
        rw [shape] at agrees
        cases agrees
      case authorized =>
        obtain ⟨head, tail, same, authorized⟩ := agrees
        rw [shape] at same
        cases same
        simp [succeeded] at authorized

theorem Inv.not_released (shared : Shared) (inv : Inv shared) (taken : shared.db.taken) :
    ¬ AllReleased shared := by
  intro released
  obtain ⟨header, known, status⟩ := taken
  have agrees := inv.header.status header known
  rw [status] at agrees
  obtain ⟨row, rest, shape, succeeded⟩ := agrees
  have listed : row ∈ shared.db.payments := by simp [shape]
  have backed := inv.backed row listed
  rw [Backed, succeeded] at backed
  exact (released row listed).not_captured _ _ backed.1

/-! ## Steps that leave the tables alone -/

/-- Stripe changes without capturing or handing out anything. -/
theorem inv_quiet (shared : Shared) (stripe : Stripe) (inv : Inv shared)
    (quiet : Quiet shared.stripe stripe) : Inv { shared with stripe } :=
  ⟨inv.rows, inv.header, inv.announced, quiet.sane,
    fun row listed => (inv.backed row listed).lasts _ _ _ quiet.evolves,
    fun ref out => inv.handed ref (quiet.hands ref out),
    fun row listed captured => inv.captured row listed (quiet.captures _ captured)⟩

theorem evolves_stripe (shared : Shared) (stripe : Stripe)
    (evolved : Stripe.Evolves shared.stripe stripe) : Evolves shared { shared with stripe } :=
  ⟨evolved, ⟨[], _, rfl, rowsEvolve_refl _, fun _ => rfl⟩,
    fun header known => ⟨header, known, rfl, rfl⟩, id, id, id⟩

theorem guarantee_quiet (slot : Nat) (request : Request) (shared : Shared) (stripe : Stripe)
    (quiet : Quiet shared.stripe stripe) : Guarantee slot request shared { shared with stripe } :=
  ⟨evolves_stripe shared stripe quiet.evolves, fun _ _ _ _ unlisted => unlisted,
    fun _ => quiet.captures, fun _ barred => .inl barred, Db.openedBy_same request _ _ rfl,
    fun _ concluded => concluded⟩

theorem inv_capture (past shared : Shared) (row : PaymentRow) (intentId : Nat) (inv : Inv shared)
    (evolved : Evolves past shared) (listed : row ∈ past.db.payments)
    (authorized : row.status = .authorized)
    (completed : past.stripe.IntentOf row.providerSessionId intentId) :
    Inv { shared with stripe := (shared.stripe.captureIntent intentId).2 } := by
  obtain ⟨sane, stripeEvolved, sessions, -, -⟩ := Stripe.captureIntent_spec intentId _ inv.sane
  refine ⟨inv.rows, inv.header, inv.announced, sane,
    fun other present => (inv.backed other present).lasts _ _ _ stripeEvolved,
    fun ref out => inv.handed ref ?_, fun other present captured => ?_⟩
  · obtain ⟨session, known, returned⟩ := out
    exact ⟨session, by rw [← sessions]; exact known, returned⟩
  · rcases Stripe.captureIntent_captures intentId shared.stripe _ captured with before | own
    · exact inv.captured other present before
    obtain ⟨found, presentFound, became⟩ := evolved.row _ _ row listed
    obtain ⟨ownIntent, held⟩ := own
    have foundIntent := evolved.stripe.intentOf _ _ _ _ completed
    have sameSession : other.providerSessionId = row.providerSessionId := by
      obtain ⟨one, knownOne, -, linkedOne⟩ := ownIntent
      obtain ⟨two, knownTwo, -, linkedTwo⟩ := foundIntent
      exact inv.sane.distinct _ _ one two intentId knownOne knownTwo linkedOne linkedTwo
    cases Db.eq_of_session shared.db inv.rows other found present presentFound
      (sameSession.trans became.session.symm)
    have status := became.status
    have backed := inv.backed other present
    rw [authorized] at status
    unfold Backed at backed
    cases reached : other.status <;> rw [reached] at status backed
    case authorized => exact .inl rfl
    case succeeded => exact .inr rfl
    case pending => cases status
    case expired => cases status
    all_goals
      obtain ⟨gone, completedGone, ended⟩ := backed
      rw [Stripe.intentOf_unique _ _ _ _ ownIntent completedGone] at held
      exact absurd ended held

end Commerce.Payments
