import Commerce.Payments.Backlog

/-!
# A payment's turn

Whatever Stripe answers, and wherever the examination of a payment fails, the
payment's row ends with a stamp of its turn, and no other attempt is touched.
-/

set_option autoImplicit false

namespace Commerce.Payments.Backlog

open Programs (Program Safe safe_bind safe_mono safe_orElse)

/-! ## The tables with one attempt at work -/

/-- What the tables' keys promise, and Stripe of its handles. -/
structure Stored (db : Db) : Prop where
  keyed : (db.payments.map fun row => row.id).Nodup
  /-- Session handles are generated unique per creation. -/
  handles : (db.payments.map fun row => row.providerSessionId).Nodup
  /-- The active-payment index. -/
  oneActive : ∀ one ∈ db.payments, ∀ other ∈ db.payments, one.orderId = other.orderId →
    one.status.retired = false → other.status.retired = false → one = other

/-- The tables are as they were but for one payment, which reads `row` now, and its order's
header. -/
structure Focus (base : Db) (payment : Row) (db : Db) (row : Row) : Prop where
  payments : db.payments =
    Tables.update (fun row : Row => row.id) payment.id (fun _ => row) base.payments
  headers : ∀ orderId, orderId ≠ payment.orderId → db.headers orderId = base.headers orderId
  id : row.id = payment.id
  orderId : row.orderId = payment.orderId
  session : row.providerSessionId = payment.providerSessionId

def Stamped (base : Db) (payment : Row) (start : Int) (db : Db) : Prop :=
  ∃ row, Focus base payment db row ∧ start ≤ row.updatedAt

/-- What holds all through a payment's turn: its row is as it was or stamped. -/
structure Held (base : Db) (payment : Row) (start : Int) (world : World) : Prop where
  clock : start ≤ world.clock
  row : ∃ row, Focus base payment world.db row ∧ (row = payment ∨ start ≤ row.updatedAt)

section Turn

variable {base : Db} {payment : Row} {start : Int}

theorem focus_self (stored : Stored base) (listed : payment ∈ base.payments) :
    Focus base payment base payment := by
  refine ⟨?_, fun _ _ => rfl, rfl, rfl, rfl⟩
  have same : ∀ row ∈ base.payments, (if row.id = payment.id then payment else row) = id row := by
    intro row member
    split
    · rename_i sameId
      exact Tables.eq_of_key (fun row : Row => row.id) base.payments payment row stored.keyed listed
        member sameId.symm
    · rfl
  rw [Tables.update, List.map_congr_left same, List.map_id]

theorem Focus.mem {db : Db} {row : Row} (focus : Focus base payment db row)
    (listed : payment ∈ base.payments) : row ∈ db.payments := by
  rw [focus.payments]
  exact (Tables.mem_update ..).mpr ⟨payment, listed, if_pos rfl⟩

theorem Focus.mem_iff {db : Db} {row : Row} (focus : Focus base payment db row) (other : Row)
    (apart : other.id ≠ payment.id) : other ∈ db.payments ↔ other ∈ base.payments := by
  rw [focus.payments, Tables.mem_update]
  constructor
  · rintro ⟨before, member, same⟩
    split at same
    · subst same
      exact absurd focus.id apart
    · exact same ▸ member
  · intro member
    exact ⟨other, member, if_neg apart⟩

theorem Focus.find {db : Db} {row : Row} (focus : Focus base payment db row)
    (stored : Stored base) (listed : payment ∈ base.payments) :
    db.findByProviderSessionId payment.providerSessionId = some row := by
  have only : ∀ other ∈ db.payments, other.providerSessionId = payment.providerSessionId →
      other = row := by
    intro other member same
    by_cases sameId : other.id = payment.id
    · rw [focus.payments] at member
      obtain ⟨before, -, reads⟩ := (Tables.mem_update ..).mp member
      split at reads
      · exact reads.symm
      · subst reads
        contradiction
    · have old := (focus.mem_iff other sameId).mp member
      have itself := Tables.eq_of_key (fun row : Row => row.providerSessionId) base.payments other
        payment stored.handles old listed same
      exact absurd (congrArg (fun row : Row => row.id) itself) sameId
  have picked : (row.providerSessionId == payment.providerSessionId) = true := by
    simpa using focus.session
  cases found : db.findByProviderSessionId payment.providerSessionId with
  | some other =>
      have listedOther := List.mem_of_mem_head? (Option.mem_def.mpr found)
      obtain ⟨member, same⟩ := Pages.mem_page _ _ _ _ _ listedOther
      rw [only other member (by simpa using same)]
  | none =>
      have empty := List.head?_eq_none_iff.mp found
      have short := Pages.mem_page_of_short Db.newerFirst
        (fun row => row.providerSessionId == payment.providerSessionId) 1 db.payments row
        (by rw [empty]; exact Nat.zero_lt_one) (focus.mem listed) picked
      rw [empty] at short
      cases short

theorem Focus.update {db : Db} {row : Row} (focus : Focus base payment db row) (now : Int)
    (picks : Row → Bool) (change : Row → Row)
    (own : ∀ other, picks other = true → other.id = payment.id)
    (keeps : (change row).id = row.id ∧ (change row).orderId = row.orderId ∧
      (change row).providerSessionId = row.providerSessionId) :
    Focus base payment (db.update now picks change)
      (if picks row = true then { change row with updatedAt := now } else row) := by
  obtain ⟨keepsId, keepsOrder, keepsSession⟩ := keeps
  refine ⟨?_, focus.headers, ?_, ?_, ?_⟩
  · simp only [Db.update, focus.payments, Tables.update, List.map_map]
    refine List.map_congr_left fun other _ => ?_
    simp only [Function.comp_apply]
    by_cases same : other.id = payment.id
    · rw [if_pos same, if_pos same]
    · have missed : ¬ picks other = true := fun hit => same (own other hit)
      rw [if_neg same, if_neg same, if_neg missed]
  · split
    · exact keepsId.trans focus.id
    · exact focus.id
  · split
    · exact keepsOrder.trans focus.orderId
    · exact focus.orderId
  · split
    · exact keepsSession.trans focus.session
    · exact focus.session

theorem Focus.header {db after : Db} {row : Row} (focus : Focus base payment db row)
    (change : PaymentOrderHeader → PaymentOrderHeader)
    (updated : db.updateHeader payment.orderId change = .ok after) :
    Focus base payment after row := by
  unfold Db.updateHeader at updated
  split at updated
  · cases updated
    exact focus
  · split at updated
    · cases updated
      refine ⟨focus.payments, fun orderId other => ?_, focus.id, focus.orderId, focus.session⟩
      exact (Function.update_of_ne other ..).trans (focus.headers orderId other)
    · cases updated

theorem Focus.moveHeader {α : Type} {db after : Db} {row : Row}
    (focus : Focus base payment db row) (status : PaymentOrderStatus) (answer answered : α)
    (moved : db.moveHeader payment.orderId status answer = .ok (answered, after)) :
    Focus base payment after row := by
  unfold Db.moveHeader at moved
  split at moved
  · cases moved
  · rename_i updated
    cases moved
    exact focus.header _ updated

theorem Held.later {world : World} (held : Held base payment start world) (choice : Choice) :
    Held base payment start (world.later choice) := by
  obtain ⟨clock, row⟩ := held
  refine ⟨?_, row⟩
  show start ≤ world.clock + choice.elapsed
  omega

theorem Stamped.held {world : World} {db : Db} (stamped : Stamped base payment start db)
    (clock : start ≤ world.clock) : Held base payment start { world with db } := by
  obtain ⟨row, focus, late⟩ := stamped
  exact ⟨clock, row, focus, .inr late⟩

theorem Held.update {world : World} (held : Held base payment start world) (picks : Row → Bool)
    (change : Row → Row) (own : ∀ other, picks other = true → other.id = payment.id)
    (keeps : ∀ row, (change row).id = row.id ∧ (change row).orderId = row.orderId ∧
      (change row).providerSessionId = row.providerSessionId) :
    Held base payment start { world with db := world.db.update world.clock picks change } := by
  obtain ⟨clock, row, focus, state⟩ := held
  refine ⟨clock, _, focus.update world.clock picks change own (keeps row), ?_⟩
  split
  · exact .inr clock
  · exact state

theorem Held.stamps {world : World} (held : Held base payment start world) (picks : Row → Bool)
    (change : Row → Row) (own : ∀ other, picks other = true → other.id = payment.id)
    (keeps : ∀ row, (change row).id = row.id ∧ (change row).orderId = row.orderId ∧
      (change row).providerSessionId = row.providerSessionId)
    (hits : picks payment = true) :
    Stamped base payment start (world.db.update world.clock picks change) := by
  obtain ⟨clock, row, focus, state⟩ := held
  refine ⟨_, focus.update world.clock picks change own (keeps row), ?_⟩
  split
  · exact clock
  · rename_i missed
    rcases state with rfl | late
    · exact absurd hits missed
    · exact late

theorem Held.stamps_updateStatus {world : World} (held : Held base payment start world)
    (status expectedStatus : PaymentStatus) (providerIntentId : Option Nat)
    (expected : payment.status = expectedStatus) :
    Stamped base payment start
      (world.db.updateStatus world.clock payment.id status providerIntentId
        (some expectedStatus)) := by
  refine held.stamps _ _ (fun other picked => ?_) (fun _ => ⟨rfl, rfl, rfl⟩) ?_
  · simp only [Bool.and_eq_true, beq_iff_eq] at picked
    exact picked.1
  · simp [expected]

theorem Held.stamps_bump {world : World} (held : Held base payment start world)
    (expectedStatus : PaymentStatus) (expected : payment.status = expectedStatus) :
    Stamped base payment start
      (world.db.bumpUpdatedAt world.clock payment.id expectedStatus) := by
  refine held.stamps _ _ (fun other picked => ?_) (fun _ => ⟨rfl, rfl, rfl⟩) ?_
  · simp only [Bool.and_eq_true, beq_iff_eq] at picked
    exact picked.1
  · simp [expected]

theorem Held.incrementKeyGen {world : World} (held : Held base payment start world)
    (expectedGen : Nat) :
    Held base payment start
      { world with db := world.db.incrementKeyGen world.clock payment.id expectedGen } := by
  refine held.update _ _ (fun other picked => ?_) fun _ => ⟨rfl, rfl, rfl⟩
  simp only [Bool.and_eq_true, beq_iff_eq] at picked
  exact picked.1

end Turn

/-! ## The actions of a turn -/

section Actions

variable (base : Db) (payment : Row) (start : Int)

/-- The program keeps `Held` while nothing else writes, and ends in its postcondition. -/
def Solo {α : Type} (past : World) (program : Handler α) (returns : α → World → Prop)
    (throws : Fault → World → Prop) : Prop :=
  Safe (Held base payment start) (fun past now => now = past) (fun _ _ => True) past program
    returns throws

def Unsure {α : Type} (past : World) (program : Handler α) (returns : α → World → Prop) : Prop :=
  Solo base payment start past program returns fun _ _ => True

variable {base payment start}

theorem unsure_bind {α β : Type} (first : Handler α) (rest : α → Handler β) (past : World)
    (returns : β → World → Prop)
    (safe : Unsure base payment start past first fun result now =>
      Unsure base payment start now (rest result) returns) :
    Unsure base payment start past (first >>= rest) returns :=
  safe_bind first rest past returns _ safe

theorem unsure_mono {α : Type} (program : Handler α) (past : World)
    (returns returns' : α → World → Prop) (safe : Unsure base payment start past program returns)
    (weaker : ∀ result now, returns result now → returns' result now) :
    Unsure base payment start past program returns' :=
  safe_mono program past returns returns' _ _ safe weaker fun _ _ => id

theorem unsure_query {α : Type} (read : Db → α) (past : World) (returns : α → World → Prop)
    (next : ∀ now, Held base payment start now → now.db = past.db → returns (read now.db) now) :
    Unsure base payment start past (query read) returns := by
  rintro now choice held rfl
  have later := held.later choice
  exact ⟨later, trivial, next _ later rfl⟩

theorem unsure_call {α : Type} (answer : Choice → Except GatewayFailure α) (past : World)
    (returns : Except GatewayFailure α → World → Prop)
    (next : ∀ now answer, now.db = past.db → returns answer now) :
    Unsure base payment start past (call answer) returns := by
  rintro now choice held rfl
  exact ⟨held.later choice, trivial, next _ _ rfl⟩

theorem unsure_now (past : World) (returns : Int → World → Prop)
    (next : ∀ now time, now.db = past.db → returns time now) :
    Unsure base payment start past now returns := by
  rintro world choice held rfl
  exact ⟨held.later choice, trivial, next _ _ rfl⟩

theorem unsure_mintOne (past : World) (returns : Nat → World → Prop)
    (next : ∀ now id, now.db = past.db → returns id now) :
    Unsure base payment start past mintOne returns := by
  rintro now choice held rfl
  have later := held.later choice
  cases minted : choice.minted with
  | none =>
      simp only [minted]
      exact ⟨later, trivial, trivial⟩
  | some id =>
      simp only [minted]
      exact ⟨later, trivial, next _ _ rfl⟩

theorem solo_transaction {α : Type} (body : Int → Db → Except Fault (α × Db)) (past : World)
    (returns : α → World → Prop) (throws : Fault → World → Prop)
    (commits : ∀ now : World, Held base payment start now → now.db = past.db →
      ∀ result db, body now.clock now.db = .ok (result, db) →
        Held base payment start { now with db } ∧ returns result { now with db })
    (fails : ∀ (now : World) fault, body now.clock now.db = .error fault → throws fault now) :
    Solo base payment start past (transaction body) returns throws := by
  rintro now choice held rfl
  have later := held.later choice
  cases ran : body (now.reads choice) now.db with
  | error fault =>
      simp only [ran]
      exact ⟨later, trivial, fails (now.later choice) fault ran⟩
  | ok answer =>
      obtain ⟨result, db⟩ := answer
      simp only [ran]
      obtain ⟨kept, reached⟩ := commits (now.later choice) later rfl result db ran
      exact ⟨kept, trivial, reached⟩

theorem unsure_transaction {α : Type} (body : Int → Db → Except Fault (α × Db)) (past : World)
    (returns : α → World → Prop)
    (commits : ∀ now : World, Held base payment start now → now.db = past.db →
      ∀ result db, body now.clock now.db = .ok (result, db) →
        Held base payment start { now with db } ∧ returns result { now with db }) :
    Unsure base payment start past (transaction body) returns :=
  solo_transaction body past returns _ commits fun _ _ _ => trivial

/-! ### Calls to Stripe -/

theorem unsure_raised {α : Type} (answer : Except GatewayFailure α) (past : World)
    (returns : α → World → Prop) (next : ∀ result, returns result past) :
    Unsure base payment start past (raised answer) returns := by
  cases answer with
  | ok result => exact next result
  | error failure => exact trivial

theorem unsure_retrieveAuthorization (session : Nat) (past : World)
    (returns : SessionAuthorization → World → Prop)
    (next : ∀ now authorization, now.db = past.db → returns authorization now) :
    Unsure base payment start past (retrieveAuthorization session) returns := by
  refine unsure_bind _ _ _ _ (unsure_call _ _ _ fun now answer same => ?_)
  exact unsure_raised answer now returns fun result => next now result same

theorem unsure_voidIntent (attempt : Row) (intentId : Option Nat) (past : World)
    (returns : VoidIntentOutcome → World → Prop) (own : attempt.id = payment.id)
    (next : ∀ now outcome, now.db = past.db → returns outcome now) :
    Unsure base payment start past (voidIntent attempt intentId) returns := by
  refine unsure_bind _ _ _ _ (unsure_call _ _ _ fun now answer same => ?_)
  cases answer with
  | ok outcome => exact next now outcome same
  | error failure =>
      dsimp only
      split
      · refine unsure_bind _ _ _ _ (unsure_transaction _ _ _ fun after held _ result db moved => ?_)
        cases moved
        rw [own]
        exact ⟨held.incrementKeyGen _, trivial⟩
      · exact trivial

/-! ### Recording an authorization -/

theorem Held.find {world : World} (held : Held base payment start world) (stored : Stored base)
    (listed : payment ∈ base.payments) :
    ∃ row, world.db.findByProviderSessionId payment.providerSessionId = some row ∧
      Focus base payment world.db row ∧ (row = payment ∨ start ≤ row.updatedAt) := by
  obtain ⟨-, row, focus, state⟩ := held
  exact ⟨row, focus.find stored listed, focus, state⟩

def Prepared.About (payment : Row) (prepared : Prepared) : Prop :=
  prepared.paymentId = payment.id ∧ prepared.providerSessionId = payment.providerSessionId ∧
    prepared.orderId = payment.orderId

theorem unsure_prepare (stored : Stored base) (listed : payment ∈ base.payments)
    (hold : HeldCharge) (authorizedAt : Int) (past : World) :
    Unsure base payment start past (prepare payment hold authorizedAt) fun prepared _ =>
      prepared.About payment := by
  refine unsure_bind _ _ _ _ (unsure_query _ _ _ fun first _ _ => ?_)
  refine unsure_bind _ _ _ _ (unsure_query _ _ _ fun second held _ => ?_)
  obtain ⟨row, found, focus, -⟩ := held.find stored listed
  rw [found]
  cases first.db.headers payment.orderId with
  | none => exact trivial
  | some header =>
      dsimp only
      rw [if_neg (fun apart => apart focus.id)]
      cases decideAuthorization row.toPayment header hold with
      | stray =>
          refine unsure_bind _ _ _ _ (unsure_bind _ _ _ _
            (unsure_voidIntent row _ _ _ focus.id fun now outcome _ => ?_))
          exact ⟨focus.id, focus.session, focus.orderId⟩
      | record | recordLate =>
          refine unsure_bind _ _ _ _ (unsure_mintOne _ _ fun now id _ => ?_)
          exact ⟨focus.id, focus.session, focus.orderId⟩
      | alreadyRecorded | amountMismatch => exact ⟨focus.id, focus.session, focus.orderId⟩

theorem recordAuthorization_stamps {world : World} (held : Held base payment start world)
    (stored : Stored base) (listed : payment ∈ base.payments) (row : Row) (prepared : Prepared)
    (about : prepared.About payment) (header : PaymentOrderHeader)
    (found : world.db.findByProviderSessionId payment.providerSessionId = some row)
    (decision : AuthorizationDecision)
    (decided : decideAuthorization row.toPayment header prepared.hold = decision)
    (records : decision = .record ∨ decision = .recordLate) (outboxId : Nat)
    (outcome answered : AuthorizationOutcome) (after : Db)
    (written : world.db.recordAuthorization world.clock row prepared outboxId outcome =
      .ok (answered, after)) :
    Stamped base payment start after := by
  obtain ⟨clock, current, focus, state⟩ := held
  cases (focus.find stored listed).symm.trans found
  obtain ⟨ownId, -, ownOrder⟩ := about
  have pending := (decideAuthorization_record _ _ _ decision decided records).1
  unfold Db.recordAuthorization at written
  split at written
  · cases written
  rename_i authorized marked
  dsimp only at written
  split at written
  · cases written
  rename_i stamped moved
  cases written
  rw [ownOrder] at moved
  rw [ownId] at moved
  have updated := focus.update world.clock
    (fun other => other.id == payment.id && (some PaymentStatus.pending).all (other.status == ·))
    (fun other => { other with
      status := authorized.status
      providerIntentId := authorized.providerIntentId.or other.providerIntentId })
    (fun other picked => by
      simp only [Bool.and_eq_true, beq_iff_eq] at picked
      exact picked.1)
    ⟨rfl, rfl, rfl⟩
  rw [if_pos (by simp [focus.id, pending])] at updated
  obtain ⟨rows, headers, id, orderId, session⟩ := updated.header _ moved
  exact ⟨_, ⟨rows, headers, id, orderId, session⟩, clock⟩

theorem apply_held {world : World} (held : Held base payment start world) (stored : Stored base)
    (listed : payment ∈ base.payments) (prepared : Prepared) (about : prepared.About payment)
    (outcome : AuthorizationOutcome) (after : Db)
    (applied : Db.apply prepared world.clock world.db = .ok (outcome, after)) :
    Held base payment start { world with db := after } ∧
      (outcome = .recorded ∨ outcome = .recordedLate → Stamped base payment start after) := by
  obtain ⟨row, found, focus, state⟩ := held.find stored listed
  have stamps := recordAuthorization_stamps held stored listed row prepared about
  unfold Db.apply at applied
  rw [about.2.1, found] at applied
  cases known : world.db.headers prepared.orderId with
  | none =>
      rw [known] at applied
      cases applied
  | some header =>
      rw [known] at applied
      dsimp only at applied
      split at applied
      · cases applied
      split at applied
      · cases applied
        exact ⟨held, by simp⟩
      · cases applied
        exact ⟨held, by simp⟩
      · split at applied
        · cases applied
          exact ⟨held, by simp⟩
        · cases applied
      · rename_i decided _
        have stamped := stamps header found _ decided (.inl rfl) _ _ _ _ applied
        exact ⟨stamped.held held.clock, fun _ => stamped⟩
      · rename_i decided _
        have stamped := stamps header found _ decided (.inr rfl) _ _ _ _ applied
        exact ⟨stamped.held held.clock, fun _ => stamped⟩
      · cases applied
      · cases applied

theorem unsure_record (stored : Stored base) (listed : payment ∈ base.payments)
    (hold : HeldCharge) (authorizedAt : Int) (past : World) :
    Unsure base payment start past (record payment hold authorizedAt) fun outcome now =>
      outcome = .recorded ∨ outcome = .recordedLate → Stamped base payment start now.db := by
  refine unsure_bind _ _ _ _ (unsure_mono _ _ _ _ (unsure_prepare stored listed hold authorizedAt
    past) fun prepared now about => ?_)
  exact unsure_transaction _ _ _ fun world held _ outcome after applied =>
    apply_held held stored listed prepared about outcome after applied

/-! ### Cancelling -/

theorem Stamped.updateStatus {world : World} {row : Row}
    (focus : Focus base payment world.db row) (late : start ≤ row.updatedAt)
    (clock : start ≤ world.clock) (status : PaymentStatus) (providerIntentId : Option Nat)
    (expectedStatus : Option PaymentStatus) :
    Stamped base payment start
      (world.db.updateStatus world.clock payment.id status providerIntentId expectedStatus) := by
  refine ⟨_, focus.update world.clock _ _ (fun other picked => ?_) ⟨rfl, rfl, rfl⟩, ?_⟩
  · simp only [Bool.and_eq_true, beq_iff_eq] at picked
    exact picked.1
  · split
    · exact clock
    · exact late

/-- Whatever a void or a capture settles, it stamps the payment. -/
theorem settle_stamps {world : World} (held : Held base payment start world) {row : Row}
    (focus : Focus base payment world.db row) (state : row = payment ∨ start ≤ row.updatedAt)
    (status : PaymentStatus) (providerIntentId : Option Nat) :
    Stamped base payment start
      (world.db.updateStatus world.clock row.id status providerIntentId (some row.status)) := by
  rw [focus.id]
  rcases state with rfl | late
  · exact held.stamps_updateStatus status row.status providerIntentId rfl
  · exact Stamped.updateStatus focus late held.clock status providerIntentId _

theorem recordReleased_stamps {world : World} (held : Held base payment start world)
    (stored : Stored base) (listed : payment ∈ base.payments)
    (authorized : payment.status = .authorized) (released : Released)
    (acted : released ≠ .expired) (conflict : Bool) (after : Db)
    (recorded : Db.recordReleased payment released world.clock world.db = .ok (conflict, after)) :
    Stamped base payment start after := by
  obtain ⟨row, found, focus, state⟩ := held.find stored listed
  have untouched : ¬ (row.status = .pending ∨ row.status = .authorized) →
      start ≤ row.updatedAt := by
    intro settled
    rcases state with rfl | late
    · exact absurd (.inr authorized) settled
    · exact late
  unfold Db.recordReleased at recorded
  rw [found] at recorded
  cases released with
  | expired => exact absurd rfl acted
  | voided intentId =>
      dsimp only at recorded
      split at recorded
      · cases recorded
        exact settle_stamps held focus state .voided intentId
      · rename_i settled
        cases recorded
        exact ⟨row, focus, untouched settled⟩
  | captured =>
      dsimp only at recorded
      split at recorded
      · obtain ⟨now, reads, late⟩ := settle_stamps held focus state .succeeded none
        exact ⟨now, reads.moveHeader _ _ _ recorded, late⟩
      · rename_i settled
        exact ⟨row, focus.moveHeader _ _ _ recorded, untouched settled⟩

theorem findActive_self (stored : Stored base) (listed : payment ∈ base.payments)
    (active : payment.status.retired = false) :
    base.findActiveByOrderIdForUpdate payment.orderId = some payment := by
  cases found : base.findActiveByOrderIdForUpdate payment.orderId with
  | none =>
      have absent := List.find?_eq_none.mp found payment listed
      simp [active] at absent
  | some other =>
      have picked := List.find?_some found
      simp only [Bool.and_eq_true, beq_iff_eq, Bool.not_eq_true'] at picked
      rw [stored.oneActive other (List.mem_of_find?_eq_some found) payment listed picked.1 picked.2
        active]

/-- A hold is only reconciled under a header that a cancel leaves as it is. -/
theorem flip_reconcilable (stored : Stored base) (listed : payment ∈ base.payments)
    (reconcilable : base.reconcilable payment = true) (authorized : payment.status = .authorized) :
    ∃ outcome, Db.flip payment.orderId base = .ok ((outcome, some payment), base) := by
  have active : payment.status.retired = false := by rw [authorized]; rfl
  have releasable : base.releasable payment.orderId = some payment := by
    rw [Db.releasable, findActive_self stored listed active]
    simp [authorized]
  unfold Db.reconcilable at reconcilable
  split at reconcilable
  · cases reconcilable
  rename_i header known
  have given : (base.headers payment.orderId).isNone = false := by rw [known]; rfl
  have rescans : decideCancel (some header.status) = .rescan := by
    simp only [authorized, Bool.or_eq_true, Bool.and_eq_true, beq_iff_eq, reduceCtorEq, true_and,
      false_or] at reconcilable
    rcases reconcilable with cancelled | fenced
    · rw [cancelled]
      rfl
    · rw [fenced]
      rfl
  refine ⟨.idempotent, ?_⟩
  simp [Db.flip, known, rescans, releasable]

theorem unsure_release (authorized : payment.status = .authorized) (past : World) :
    Unsure base payment start past (release payment) fun released _ => released ≠ .expired := by
  rw [release, if_pos authorized]
  refine unsure_bind _ _ _ _ (unsure_voidIntent payment _ _ _ rfl fun now outcome _ => ?_)
  show (if outcome = .alreadyCaptured then Released.captured else .voided
    payment.providerIntentId) ≠
    .expired
  split <;> simp

theorem unsure_cancelPayment (stored : Stored base) (listed : payment ∈ base.payments)
    (reconcilable : base.reconcilable payment = true) (authorized : payment.status = .authorized)
    (past : World) (began : past.db = base) :
    Unsure base payment start past (cancelPayment payment.orderId) fun _ now =>
      Stamped base payment start now.db := by
  obtain ⟨outcome, flipped⟩ := flip_reconcilable stored listed reconcilable authorized
  refine unsure_bind _ _ _ _ (unsure_transaction _ _ _ fun now held same result db ran => ?_)
  rw [same, began, flipped] at ran
  cases ran
  have restored : ({ now with db := base } : World) = now := by rw [← began, ← same]
  rw [restored]
  refine ⟨held, ?_⟩
  refine unsure_bind _ _ _ _ (unsure_mono _ _ _ _ (unsure_release authorized now)
    fun released later acted => ?_)
  refine unsure_bind _ _ _ _ (unsure_transaction _ _ _ fun world heldLater _ conflict after done =>
    ?_)
  have stamped := recordReleased_stamps heldLater stored listed authorized released acted conflict
    after done
  exact ⟨stamped.held heldLater.clock, stamped⟩

/-! ### A turn -/

theorem solo_bumpUpdatedAt (expectedStatus : PaymentStatus)
    (expected : payment.status = expectedStatus) (past : World) (throws : Fault → World → Prop) :
    Solo base payment start past (bumpUpdatedAt payment.id expectedStatus)
      (fun _ now => Stamped base payment start now.db) throws := by
  refine solo_transaction _ _ _ _ (fun now held _ result db moved => ?_) fun now fault failed => ?_
  · cases moved
    have stamped := held.stamps_bump expectedStatus expected
    exact ⟨stamped.held held.clock, stamped⟩
  · cases failed

theorem unsure_updateStatus (status expectedStatus : PaymentStatus)
    (providerIntentId : Option Nat) (expected : payment.status = expectedStatus) (past : World) :
    Unsure base payment start past
      (Backlog.updateStatus payment.id status providerIntentId expectedStatus)
      fun _ now => Stamped base payment start now.db := by
  refine unsure_transaction _ _ _ fun now held _ result db moved => ?_
  cases moved
  have stamped := held.stamps_updateStatus status expectedStatus providerIntentId expected
  exact ⟨stamped.held held.clock, stamped⟩

theorem reconcilable_status (reconcilable : base.reconcilable payment = true) :
    payment.status = .pending ∨ payment.status = .authorized := by
  unfold Db.reconcilable at reconcilable
  split at reconcilable
  · cases reconcilable
  · simp only [Bool.or_eq_true, Bool.and_eq_true, beq_iff_eq] at reconcilable
    exact reconcilable.imp id And.left

/-- A payment that reconciles without an error is stamped. -/
theorem unsure_reconcile (stored : Stored base) (listed : payment ∈ base.payments)
    (reconcilable : base.reconcilable payment = true) (past : World) (began : past.db = base) :
    Unsure base payment start past (reconcile payment) fun _ now =>
      Stamped base payment start now.db := by
  unfold reconcile
  rcases reconcilable_status reconcilable with pending | authorized
  · rw [if_neg (by rw [pending]; decide)]
    refine unsure_bind _ _ _ _ (unsure_retrieveAuthorization _ _ _ fun now authorization _ => ?_)
    cases heldCharge authorization with
    | some hold =>
        refine unsure_bind _ _ _ _ (unsure_now _ _ fun later authorizedAt _ => ?_)
        refine unsure_bind _ _ _ _ (unsure_mono _ _ _ _ (unsure_record stored listed hold
          authorizedAt later) fun outcome final records => ?_)
        split
        · rename_i recorded
          exact records recorded
        · exact unsure_bind _ _ _ _ (solo_bumpUpdatedAt .pending pending final _)
    | none =>
        dsimp only
        split
        · exact unsure_bind _ _ _ _ (unsure_updateStatus .expired .pending none pending now)
        · split
          · exact unsure_bind _ _ _ _ (unsure_updateStatus .voided .pending _ pending now)
          · exact unsure_bind _ _ _ _ (solo_bumpUpdatedAt .pending pending now _)
  · rw [if_pos authorized]
    exact unsure_bind _ _ _ _ (unsure_mono _ _ _ _
      (unsure_cancelPayment stored listed reconcilable authorized past began) fun _ _ => id)

/-- A turn never fails, and it leaves the payment stamped, whatever Stripe answered. -/
theorem solo_examine (stored : Stored base) (listed : payment ∈ base.payments)
    (reconcilable : base.reconcilable payment = true) (past : World) (began : past.db = base) :
    Solo base payment start past (examine payment)
      (fun _ now => Stamped base payment start now.db) fun _ _ => False := by
  refine safe_orElse _ _ _ _ _ (safe_mono _ _ _ _ _ _
    (unsure_reconcile stored listed reconcilable past began) (fun _ _ => id) fun fault now _ => ?_)
  refine safe_bind _ _ _ _ _ (safe_orElse _ _ _ _ _ ?_)
  exact solo_bumpUpdatedAt payment.status rfl now _

end Actions

end Commerce.Payments.Backlog
