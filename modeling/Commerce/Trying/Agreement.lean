import Commerce.Trying.Row

/-!
# Whether saga and order row agree after the Try

They do as long as no execution of the Try that ends on a `PENDING` row ends other than
`HELD`, and a write that finds the row `RESERVING` is the one the run waits for.  A Try whose
write committed but was never recorded is planned again, and a plan made after the budget
has passed abandons it: the row is `PENDING`, and its saga has rejected it.
-/

set_option autoImplicit false

namespace Commerce.Trying

open Commerce.Orders (Db OrderStatus SagaWriteResult)
open Commerce.Saga
open Runs

/-- The order row and the run of one order, whoever writes next. -/
inductive Standing (orderId : Nat) (world : World) : Prop
  | unstarted (nobody : world.run = none) (row : world.db.statusOf orderId = some .reserving)
      (undispatched : world.dispatched = []) (untried : world.tried = [])
      (unchanged : world.changed = [])
  | tracked (current : Saga.Run) (status : OrderStatus) (runs : world.run = some current)
      (row : world.db.statusOf orderId = some status) (tracks : Tracks world current status)
  /-- The run was cancelled or terminated once the order was past `PENDING`. -/
  | gone (current : Saga.Run) (status : OrderStatus) (runs : world.run = some current)
      (closed : current.body = .closed) (row : world.db.statusOf orderId = some status)
      (past : status ≠ .reserving ∧ status ≠ .pending)

theorem deliver_of_closed (current : Saga.Run) (event : Saga.Event)
    (closed : current.body = .closed) :
    deliver current event = none := by
  cases event with
  | tryWritten seq written =>
      simp only [deliver, closed, true_or, if_true]
      split <;> rfl
  | returned => simp [deliver, canReturn, closed]
  | _ => simp [deliver, closed]

theorem numbered_start (world : World) (input : CheckoutSagaInput) (nowMs : Int)
    (mode : input.mode = .checkout) (undispatched : world.dispatched = [])
    (untried : world.tried = []) : Numbered world (checkoutSaga input 0 nowMs) := by
  refine ⟨fun seq outcome applying => ?_, by simp [undispatched], by simp [untried]⟩
  simp only [checkoutSaga, mode, runTry, if_true] at applying ⊢
  exact (attemptTry_applying _ nowMs seq outcome applying).2

theorem tracks_start (world : World) (input : CheckoutSagaInput) (nowMs : Int)
    (mode : input.mode = .checkout) (undispatched : world.dispatched = [])
    (untried : world.tried = []) (unchanged : world.changed = []) :
    Tracks world (checkoutSaga input 0 nowMs) .reserving := by
  have log := log_initial input 0 nowMs
  have step : (checkoutSaga input 0 nowMs).saga.step = .reserving := by
    rw [saga_initial, mode]
    rfl
  constructor
  · exact checkoutRun_initial input mode 0 nowMs
  · exact numbered_start world input nowMs mode undispatched untried
  · simp [log]
  · simp [log]
  · simp [unchanged]
  · exact fun _ _ _ pending => OrderStatus.noConfusion pending
  · simp [untried]
  · exact fun tried => absurd untried tried
  · exact fun left => absurd step left
  · intro awaiting
    rw [step] at awaiting
    cases awaiting
  · simp [unchanged]
  · exact fun _ left => absurd step left

theorem standing_start (orderId : Nat) (world next : World) (input : CheckoutSagaInput)
    (nowMs : Int)
    (row : world.db.statusOf orderId = some .reserving) (undispatched : world.dispatched = [])
    (untried : world.tried = []) (unchanged : world.changed = [])
    (started : world.start input nowMs = some next) :
    Standing orderId next := by
  unfold World.start at started
  split at started
  · rename_i mode
    cases Option.some.inj started
    exact .tracked _ .reserving rfl row
      (tracks_start _ input nowMs mode undispatched untried unchanged)
  · cases started

theorem standing_deliver (orderId : Nat) (world : World) (current next : Saga.Run)
    (event : Saga.Event) (standing : Standing orderId world) (runs : world.run = some current)
    (confirmed : world.Confirmed current event)
    (agrees : Agrees orderId world (.saga event))
    (delivered : deliver current event = some next) :
    Standing orderId { world with run := some next } := by
  simp only [Agrees, runs] at agrees
  cases standing with
  | unstarted nobody => rw [nobody] at runs; cases runs
  | gone other status same closed =>
      cases same.symm.trans runs
      rw [deliver_of_closed _ event closed] at delivered
      cases delivered
  | tracked other status same row tracks =>
      cases same.symm.trans runs
      by_cases fault : event = .fault
      · obtain ⟨settled, left⟩ := agrees.2 fault
        subst fault
        simp only [deliver] at delivered
        split at delivered
        · cases delivered
        · cases Option.some.inj delivered
          exact .gone _ status rfl rfl row ⟨fun same => settled (same ▸ row), fun same =>
            left (same ▸ row)⟩
      · refine .tracked next status rfl row (tracks_deliver tracks fault confirmed ?_ delivered)
        exact fun outcome ended pending => agrees.1 outcome ended (pending ▸ row)

theorem tracks_of_same (world after : World) (current : Saga.Run) (status : OrderStatus)
    (tracks : Tracks world current status) (numbered : Numbered after current)
    (tried : after.tried = world.tried) (changed : after.changed = world.changed) :
    Tracks after current status := by
  obtain ⟨checkout, -, unissued, targets, asked, planned, recorded, written, left, awaiting, moved,
    finishing⟩ := tracks
  rw [← changed] at asked moved
  rw [← tried] at recorded written
  exact ⟨checkout, numbered, unissued, targets, asked, planned, recorded, written, left, awaiting,
    moved, finishing⟩

theorem numbered_of_same (world after : World) (current : Saga.Run)
    (numbered : Numbered world current) (dispatched : after.dispatched = world.dispatched)
    (tried : after.tried = world.tried) : Numbered after current :=
  ⟨numbered.applying, dispatched ▸ numbered.dispatched, tried ▸ numbered.tried⟩

theorem numbered_dispatch (world : World) (current : Saga.Run) (seq : Nat)
    (outcome : ReserveOutcome) (numbered : Numbered world current)
    (applying : current.tryRun = .applying seq outcome) :
    Numbered { world with dispatched := world.dispatched ++ [(seq, outcome)] } current := by
  refine ⟨numbered.applying, fun named written member => ?_, numbered.tried⟩
  rcases List.mem_append.mp member with old | new
  · exact numbered.dispatched named written old
  · cases List.mem_singleton.mp new
    refine ⟨numbered.applying seq outcome applying, fun planned now => ?_⟩
    cases applying.symm.trans now
    rfl

theorem numbered_tried (world : World) (db : Db) (current : Saga.Run) (seq : Nat)
    (result : SagaWriteResult) (numbered : Numbered world current) (early : seq < current.nextSeq) :
    Numbered { world with db, tried := world.tried ++ [(seq, result)] } current := by
  refine ⟨numbered.applying, numbered.dispatched, fun named answer member => ?_⟩
  rcases List.mem_append.mp member with old | new
  · exact numbered.tried named answer old
  · cases List.mem_singleton.mp new
    exact early

theorem standing_dispatch (orderId : Nat) (world : World) (seq : Nat) (outcome : ReserveOutcome)
    (standing : Standing orderId world)
    (trying : world.run.map Saga.Run.tryRun = some (.applying seq outcome)) :
    Standing orderId { world with dispatched := world.dispatched ++ [(seq, outcome)] } := by
  cases standing with
  | unstarted nobody =>
      rw [nobody] at trying
      cases trying
  | tracked current status runs row tracks =>
      rw [runs] at trying
      have numbered := numbered_dispatch world current seq outcome tracks.numbered
        (Option.some.inj trying)
      exact .tracked current status runs row (tracks_of_same world _ current status tracks numbered
        rfl rfl)
  | gone current status runs closed row past => exact .gone current status runs closed row past

theorem standing_elsewhere (orderId : Nat) (world : World) (db : Db)
    (standing : Standing orderId world) (row : db.statusOf orderId = world.db.statusOf orderId) :
    Standing orderId { world with db } := by
  cases standing with
  | unstarted nobody reserving undispatched untried unchanged =>
      exact .unstarted nobody (row.trans reserving) undispatched untried unchanged
  | tracked current status runs carried tracks =>
      have numbered := numbered_of_same world { world with db } current tracks.numbered rfl rfl
      exact .tracked current status runs (row.trans carried)
        (tracks_of_same world _ current status tracks numbered rfl rfl)
  | gone current status runs closed carried past =>
      exact .gone current status runs closed (row.trans carried) past

theorem standing_writeTry (orderId : Nat) (world : World) (db : Db) (position outboxId seq : Nat)
    (outcome : ReserveOutcome) (now : Int) (result : SagaWriteResult)
    (standing : Standing orderId world)
    (agrees : Agrees orderId world (.writeTry position outboxId now))
    (found : world.dispatched[position]? = some (seq, outcome))
    (success : Orders.applyTryResult world.db orderId outcome (Placing.World.tryReason outcome)
      outboxId now = .ok (result, db)) :
    Standing orderId { world with db, tried := world.tried ++ [(seq, result)] } := by
  cases standing with
  | unstarted _ _ undispatched => simp [undispatched] at found
  | tracked current status runs row tracks =>
      obtain ⟨early, same⟩ := tracks.numbered.dispatched seq outcome (List.mem_of_getElem? found)
      have numbered := numbered_tried world db current seq result tracks.numbered early
      rcases applyTryResult_status world.db db orderId outcome _ outboxId now result status row
        success
        with ⟨past, rfl⟩ | ⟨reserving, entered⟩
      · refine .tracked current status runs row
          (tracks_rewrote tracks _ seq result numbered past rfl rfl ?_)
        intro planned applying
        simp only [Agrees, runs, found, Option.map_some, applying] at agrees
        rw [← same planned applying]
        rcases agrees.2 trivial with still | carried
        · exact absurd (Option.some.inj (row.symm.trans still)) past
        · exact Option.some.inj (row.symm.trans carried)
      · refine .tracked current _ runs entered
          (tracks_wrote tracks _ outcome numbered reserving rfl ?_)
        intro other planned applying
        simp only [Agrees, runs, found, Option.map_some, applying] at agrees
        exact agrees.1 (reserving ▸ row)
  | gone current status runs closed row past =>
      rcases applyTryResult_status world.db db orderId outcome _ outboxId now result status row
        success
        with ⟨-, rfl⟩ | ⟨reserving, -⟩
      · exact .gone current status runs closed row past
      · exact absurd reserving past.1

theorem standing_changeOrder (orderId : Nat) (world : World) (db : Db) (current : Saga.Run)
    (change : OrderChangeCommand) (outboxId : Nat) (now : Int) (result : SagaWriteResult)
    (standing : Standing orderId world) (runs : world.run = some current)
    (issued : .issued (.changeOrder change) ∈ current.log)
    (success : Orders.applyOrderChange world.db orderId change.source change.target change.reason
      change.paymentRef outboxId now = .ok (result, db)) :
    Standing orderId { world with db, changed := world.changed ++ [(change, result)] } := by
  cases standing with
  | unstarted nobody => cases nobody.symm.trans runs
  | tracked other status same row tracks =>
      cases same.symm.trans runs
      have numbered := numbered_of_same world
        { world with db, changed := world.changed ++ [(change, result)] } current tracks.numbered
        rfl rfl
      rcases applyOrderChange_status world.db db orderId _ _ _ _ outboxId now result status row
        success
        with ⟨rfl, where'⟩ | ⟨-, unreserving, entered⟩
      · exact .tracked current status runs row
          (tracks_changed tracks _ change result status numbered issued rfl (.inl ⟨rfl, where'⟩))
      · exact .tracked current _ runs entered
          (tracks_changed tracks _ change result _ numbered issued rfl (.inr ⟨rfl, unreserving⟩))
  | gone other status same closed row past =>
      rcases applyOrderChange_status world.db db orderId _ _ _ _ outboxId now result status row
        success
        with ⟨rfl, -⟩ | ⟨unpending, unreserving, entered⟩
      · exact .gone other status same closed row past
      · exact .gone other _ same closed entered ⟨unreserving, unpending⟩

theorem standing_step (orderId : Nat) (world : World) (event : Event) (next : World)
    (standing : Standing orderId world) (agrees : Agrees orderId world event)
    (stepped : step orderId world event = some next) : Standing orderId next := by
  cases event with
  | reserve input nowMs =>
      cases runs : world.run with
      | none =>
          simp only [step, runs] at stepped
          cases standing with
          | unstarted _ row undispatched untried unchanged =>
              exact standing_start orderId world next input nowMs row undispatched untried unchanged
                stepped
          | tracked _ _ same => cases same.symm.trans runs
          | gone _ _ same => cases same.symm.trans runs
      | some current =>
          simp only [step, runs] at stepped
          obtain ⟨moved, delivered, rfl⟩ := Option.map_eq_some_iff.mp stepped
          refine standing_deliver orderId world current moved
            (.reserve nowMs) standing runs trivial ?_
            delivered
          simp [Agrees, runs, triedAs]
  | handBack input nowMs =>
      cases runs : world.run with
      | none =>
          simp only [step, runs] at stepped
          cases standing with
          | unstarted _ row undispatched untried unchanged =>
              exact standing_start orderId world next input nowMs row undispatched untried unchanged
                stepped
          | tracked _ _ same => cases same.symm.trans runs
          | gone _ _ same => cases same.symm.trans runs
      | some current =>
          simp only [step, runs] at stepped
          cases Option.some.inj stepped
          exact standing
  | saga event =>
      cases runs : world.run with
      | none =>
          simp only [step, runs] at stepped
          cases stepped
      | some current =>
          simp only [step, runs] at stepped
          split at stepped
          · rename_i confirmed
            obtain ⟨moved, delivered, rfl⟩ := Option.map_eq_some_iff.mp stepped
            exact standing_deliver orderId world current moved event standing runs confirmed agrees
              delivered
          · cases stepped
  | dispatchTry =>
      simp only [step] at stepped
      split at stepped
      · rename_i seq outcome trying
        cases Option.some.inj stepped
        exact standing_dispatch orderId world seq outcome standing trying
      · cases stepped
  | writeTry position outboxId now =>
      simp only [step] at stepped
      split at stepped
      · cases stepped
      · rename_i seq outcome found
        split at stepped
        · rename_i result db success
          cases Option.some.inj stepped
          exact standing_writeTry orderId world db position outboxId seq outcome now result standing
            agrees found success
        · cases stepped
  | changeOrder change outboxId now =>
      simp only [step] at stepped
      split at stepped
      · cases stepped
      · rename_i current runs
        split at stepped
        · rename_i issued
          split at stepped
          · rename_i result db success
            cases Option.some.inj stepped
            exact standing_changeOrder orderId world db current change outboxId now result standing
              runs issued success
          · cases stepped
        · cases stepped
  | elsewhere call =>
      simp only [step] at stepped
      split at stepped
      · cases stepped
      · rename_i other
        cases Option.some.inj stepped
        exact standing_elsewhere orderId world _ standing
          (statusOf_elsewhere world.db call orderId other)

theorem standing_created (orderId : Nat) (db : Db)
    (reserving : db.statusOf orderId = some .reserving) :
    Standing orderId (created db) :=
  .unstarted rfl reserving rfl rfl rfl

/-! ## Runs -/

/-- What the claim of the crash tests comes to: the saga leaves `RESERVING` with the status
of the order row, and a row in `PENDING` has a saga that will take it out. -/
structure TryAgreement (orderId : Nat) (db : Db) (events : List Event) : Prop where
  leaving : ∀ before event after world next current moved, events = before ++ event :: after →
    run (step orderId) (created db) before = some world →
    step orderId world event = some next → world.run = some current → next.run = some moved →
    current.saga.step = .reserving → moved.saga.step ≠ .reserving →
      next.db.statusOf orderId = moved.saga.orderStatus ∧
        (next.db.statusOf orderId = some .pending ↔ moved.saga.tryOutcome = some .held)
  pending : ∀ before after world, events = before ++ after →
    run (step orderId) (created db) before = some world →
    world.db.statusOf orderId = some .pending →
      ∃ current, world.run = some current ∧ WillFinish current

theorem standing_pending (orderId : Nat) (world : World) (standing : Standing orderId world)
    (pending : world.db.statusOf orderId = some .pending) :
    ∃ current, world.run = some current ∧ WillFinish current := by
  cases standing with
  | unstarted _ row => cases row.symm.trans pending
  | gone _ status _ _ row past => exact absurd (Option.some.inj (row.symm.trans pending)) past.2
  | tracked current status runs row tracks =>
      have held := Option.some.inj (row.symm.trans pending)
      refine ⟨current, runs, ?_⟩
      by_cases reserving : current.saga.step = .reserving
      · refine .inl ⟨tracks.checkout.going.mpr reserving, ?_⟩
        intro seq outcome applying
        exact tracks.planned seq outcome applying held
      · by_cases awaiting : current.saga.step = .awaitingAuth
        · exact .inr (.inl ⟨awaiting, tracks.checkout.awaiting awaiting⟩)
        · exact .inr (.inr (tracks.finishing held reserving awaiting))

theorem leaving_deliver (orderId : Nat) (world : World) (event : Saga.Event)
    (current moved : Saga.Run) (standing : Standing orderId world) (runs : world.run = some current)
    (confirmed : world.Confirmed current event) (delivered : deliver current event = some moved)
    (reserving : current.saga.step = .reserving) (left : moved.saga.step ≠ .reserving) :
    world.db.statusOf orderId = moved.saga.orderStatus ∧
      (world.db.statusOf orderId = some .pending ↔ moved.saga.tryOutcome = some .held) := by
  cases standing with
  | unstarted nobody => cases nobody.symm.trans runs
  | gone other status same closed =>
      cases same.symm.trans runs
      rw [deliver_of_closed _ event closed] at delivered
      cases delivered
  | tracked other status same row tracks =>
      cases same.symm.trans runs
      have unfaulted : event ≠ .fault := by
        rintro rfl
        simp only [deliver] at delivered
        split at delivered
        · cases delivered
        · cases Option.some.inj delivered
          exact left reserving
      obtain ⟨carries, held⟩ := leaves_agree tracks unfaulted confirmed delivered reserving left
      rw [row]
      exact ⟨carries.symm, by simpa using held⟩

theorem standing_leaving (orderId : Nat) (world next : World) (event : Event)
    (current moved : Saga.Run) (standing : Standing orderId world)
    (stepped : step orderId world event = some next)
    (runs : world.run = some current) (after : next.run = some moved)
    (reserving : current.saga.step = .reserving) (left : moved.saga.step ≠ .reserving) :
    next.db.statusOf orderId = moved.saga.orderStatus ∧
      (next.db.statusOf orderId = some .pending ↔ moved.saga.tryOutcome = some .held) := by
  have others : next.run = world.run → False := by
    intro same
    cases runs.symm.trans (same.symm.trans after)
    exact left reserving
  cases event with
  | saga event =>
      simp only [step, runs] at stepped
      split at stepped
      · rename_i confirmed
        obtain ⟨delivered, success, rfl⟩ := Option.map_eq_some_iff.mp stepped
        cases Option.some.inj after
        exact leaving_deliver orderId world event current _ standing runs confirmed success
          reserving
          left
      · cases stepped
  | reserve input nowMs =>
      simp only [step, runs] at stepped
      obtain ⟨delivered, success, rfl⟩ := Option.map_eq_some_iff.mp stepped
      cases Option.some.inj after
      exact leaving_deliver orderId world (.reserve nowMs) current _ standing runs trivial success
        reserving left
  | handBack input nowMs =>
      simp only [step, runs] at stepped
      cases Option.some.inj stepped
      exact absurd rfl others
  | dispatchTry =>
      simp only [step] at stepped
      split at stepped <;> cases stepped
      exact absurd rfl others
  | writeTry position outboxId now =>
      simp only [step] at stepped
      split at stepped
      · cases stepped
      · split at stepped <;> cases stepped
        exact absurd rfl others
  | changeOrder change outboxId now =>
      simp only [step, runs] at stepped
      split at stepped
      · split at stepped <;> cases stepped
        exact absurd runs.symm others
      · cases stepped
  | elsewhere call =>
      simp only [step] at stepped
      split at stepped <;> cases stepped
      exact absurd rfl others

theorem try_row_agreement (orderId : Nat) (db : Db) (events : List Event)
    (reserving : db.statusOf orderId = some .reserving)
    (agrees : Along (step orderId) (Agrees orderId) (created db) events) :
    TryAgreement orderId db events := by
  have stands : ∀ before after world, events = before ++ after →
      run (step orderId) (created db) before = some world →
      Standing orderId world ∧ Along (step orderId) (Agrees orderId) world after := by
    intro before after world parts ran
    rw [parts] at agrees
    obtain ⟨early, late⟩ := along_append (step orderId) _ (created db) world before after ran agrees
    exact ⟨run_preserves_along (step orderId) _ _ (standing_step orderId) before _ world
      (standing_created orderId db reserving) early ran, late⟩
  constructor
  · intro before event after world next current moved parts ran stepped runs follows start left
    obtain ⟨standing, met, -⟩ := stands before (event :: after) world parts ran
    exact standing_leaving orderId world next event current moved standing stepped runs follows
      start left
  · intro before after world parts ran pending
    exact standing_pending orderId world (stands before after world parts ran).1 pending

def oneReserving : Db where
  orders := [⟨1, 7, .reserving, "USD", 500, none, some 0, none, none, none, some 9000⟩]
  items := [⟨11, 1, 21, "Cup", 500, 1⟩]
  outbox := []
  idempotencyKeys := []

def oneSecondBudget : CheckoutSagaInput := ⟨.checkout, 0, none, 500, "USD", 1000⟩

/-- The worker dies after the write of a held Try and comes back within the budget. -/
def crashedInBudget : List Event :=
  [.reserve oneSecondBudget 0, .saga (.tryAnswered 0 (.answered .reserved)), .dispatchTry,
    .writeTry 0 101 10, .saga (.crash false 500), .saga (.tryAnswered 2 (.answered .reserved)),
    .dispatchTry, .writeTry 1 102 510, .saga (.tryWritten 3 .already)]

theorem try_row_agreement_crashed : TryAgreement 1 oneReserving crashedInBudget :=
  try_row_agreement 1 oneReserving crashedInBudget (by decide +kernel) (by decide +kernel)

/-- It dies at the same place and comes back once the budget has passed. -/
def crashedPastBudget : List Event :=
  [.reserve oneSecondBudget 0, .saga (.tryAnswered 0 (.answered .reserved)), .dispatchTry,
    .writeTry 0 101 10, .saga (.crash false 2000), .dispatchTry, .writeTry 1 102 2010,
    .saga (.tryWritten 2 .stale), .saga .settledInTime, .saga (.answered 3 .compensated),
    .saga .returned]

/-- The saga rejects the order, releases its stock and ends, and the row stays `PENDING`. -/
theorem try_row_splits :
    (∃ final current, run (step 1) (created oneReserving) crashedPastBudget = some final ∧
      final.db.statusOf 1 = some .pending ∧ final.run = some current ∧ current.body = .closed ∧
      current.saga.step = .compensated ∧ current.saga.orderStatus = some .rejected) ∧
    ¬ ∀ orderId db events, db.statusOf orderId = some .reserving →
        TryAgreement orderId db events := by
  constructor
  · exact ⟨_, _, rfl, rfl, rfl, rfl, rfl, rfl⟩
  · intro always
    have agreement := always 1 oneReserving crashedPastBudget rfl
    obtain ⟨current, runs, finishes⟩ := agreement.pending crashedPastBudget [] _ rfl rfl rfl
    cases Option.some.inj runs
    rcases finishes with ⟨going, -⟩ | ⟨awaiting, -⟩ | ⟨target, reason, owes, -⟩
    · cases going
    · cases awaiting
    · cases owes

end Commerce.Trying
