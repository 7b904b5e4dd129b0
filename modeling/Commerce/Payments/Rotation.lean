import Commerce.Lib.Runs
import Commerce.Payments.Turns

/-!
# The rotation of the backlog

A tick reads the stalest payments and takes them in turn.  What it examined is
stamped behind all it did not, so a payment that a tick missed has moved up by
a whole batch when the next one comes.
-/

set_option autoImplicit false

namespace Commerce.Payments.Backlog

open Programs (Program Safe safe_bind safe_established safe_mono)

/-! ## The batch -/

def Alone {α : Type} (past : World) (program : Handler α) (returns : α → World → Prop) : Prop :=
  Safe (fun _ => True) (fun past now => now = past) (fun _ _ => True) past program returns
    fun _ _ => False

theorem Alone.run {α : Type} {past : World} {program : Handler α} {returns : α → World → Prop}
    (alone : Alone past program returns) (choices : Nat → Choice) :
    ∃ result, returns result (program.run past choices).2 := by
  unfold Alone at alone
  obtain ⟨-, ⟨result, -, reached⟩ | ⟨_, -, impossible⟩⟩ :=
    Programs.run_of_safe (by intro now; rfl) program past choices _ _ trivial alone
  · exact ⟨result, reached⟩
  · exact impossible.elim

/-- The payments of `done` had their turn: they are stamped, and the rest is as it was. -/
structure Swept (base : Db) (done : List Row) (start : Int) (world : World) : Prop where
  clock : start ≤ world.clock
  stored : Stored world.db
  behind : ∀ row ∈ done, ∃ after ∈ world.db.payments, after.id = row.id ∧ start ≤ after.updatedAt
  others : ∀ row : Row, row.id ∉ done.map (fun examined => examined.id) →
    (row ∈ world.db.payments ↔ row ∈ base.payments)
  headers : ∀ orderId, orderId ∉ done.map (fun examined => examined.orderId) →
    world.db.headers orderId = base.headers orderId

theorem reconcilable_active (db : Db) (row : Row) (reconcilable : db.reconcilable row = true) :
    row.status.retired = false := by
  rcases reconcilable_status reconcilable with pending | authorized
  · rw [pending]
    rfl
  · rw [authorized]
    rfl

theorem Focus.stored {base db : Db} {payment row : Row} (focus : Focus base payment db row)
    (stored : Stored base) (listed : payment ∈ base.payments)
    (active : payment.status.retired = false) : Stored db := by
  have itself : ∀ other ∈ base.payments, other.id = payment.id → other = payment :=
    fun other member same =>
      Tables.eq_of_key (fun row : Row => row.id) base.payments other payment stored.keyed member
        listed same
  have ids : db.payments.map (fun row => row.id) = base.payments.map fun row => row.id := by
    rw [focus.payments, Tables.update, List.map_map]
    refine List.map_congr_left fun other _ => ?_
    rw [Function.comp_apply]
    split
    · rename_i same
      exact focus.id.trans same.symm
    · rfl
  have sessions : db.payments.map (fun row => row.providerSessionId) =
      base.payments.map fun row => row.providerSessionId := by
    rw [focus.payments, Tables.update, List.map_map]
    refine List.map_congr_left fun other member => ?_
    rw [Function.comp_apply]
    split
    · rename_i same
      rw [itself other member same]
      exact focus.session
    · rfl
  have cases : ∀ other ∈ db.payments,
      other = row ∨ (other ∈ base.payments ∧ other.id ≠ payment.id) := by
    intro other member
    rw [focus.payments] at member
    obtain ⟨before, old, same⟩ := (Tables.mem_update ..).mp member
    split at same
    · exact .inl same.symm
    · subst same
      exact .inr ⟨old, ‹_›⟩
  have alone : ∀ other ∈ base.payments, other.id ≠ payment.id → other.orderId = row.orderId →
      other.status.retired = true := by
    intro other member apart sameOrder
    by_contra unretired
    have same := stored.oneActive other member payment listed (sameOrder.trans focus.orderId)
      (by simpa using unretired) active
    exact apart (congrArg (fun row : Row => row.id) same)
  refine ⟨ids ▸ stored.keyed, sessions ▸ stored.handles, ?_⟩
  intro one memOne other memOther sameOrder activeOne activeOther
  rcases cases one memOne with rfl | ⟨oldOne, apartOne⟩ <;>
    rcases cases other memOther with rfl | ⟨oldOther, apartOther⟩
  · rfl
  · rw [alone other oldOther apartOther sameOrder.symm] at activeOther
    cases activeOther
  · rw [alone one oldOne apartOne sameOrder] at activeOne
    cases activeOne
  · exact stored.oneActive one oldOne other oldOther sameOrder activeOne activeOther

theorem Swept.turn {base : Db} {done : List Row} {start : Int} {past now : World} {payment : Row}
    (swept : Swept base done start past) (listed : payment ∈ past.db.payments)
    (active : payment.status.retired = false)
    (fresh : ∀ row ∈ done, row.id ≠ payment.id) (clock : start ≤ now.clock)
    (stamped : Stamped past.db payment start now.db) :
    Swept base (done ++ [payment]) start now := by
  obtain ⟨row, focus, late⟩ := stamped
  refine ⟨clock, focus.stored swept.stored listed active, ?_, ?_, ?_⟩
  · intro examined member
    rcases List.mem_append.mp member with early | last
    · obtain ⟨after, stored, sameId, stampedAt⟩ := swept.behind examined early
      have apart : after.id ≠ payment.id := fun same =>
        fresh examined early (sameId.symm.trans same)
      exact ⟨after, (focus.mem_iff after apart).mpr stored, sameId, stampedAt⟩
    · rw [List.mem_singleton.mp last]
      exact ⟨row, focus.mem listed, focus.id, late⟩
  · intro other absent
    simp only [List.map_append, List.map_cons, List.map_nil, List.mem_append, List.mem_singleton,
      not_or] at absent
    exact (focus.mem_iff other absent.2).trans (swept.others other absent.1)
  · intro orderId absent
    simp only [List.map_append, List.map_cons, List.map_nil, List.mem_append, List.mem_singleton,
      not_or] at absent
    exact (focus.headers orderId absent.2).trans (swept.headers orderId absent.1)

theorem Swept.reconcilable {base : Db} {done : List Row} {start : Int} {world : World} (row : Row)
    (swept : Swept base done start world)
    (absent : row.orderId ∉ done.map fun examined => examined.orderId) :
    world.db.reconcilable row = base.reconcilable row := by
  simp only [Db.reconcilable, swept.headers row.orderId absent]

/-- The batch of a tick: of one order each, and all still waiting for their turn. -/
structure Batch (base : Db) (batch : List Row) : Prop where
  ids : (batch.map fun row => row.id).Nodup
  orders : (batch.map fun row => row.orderId).Nodup
  waiting : ∀ row ∈ batch, row ∈ base.payments ∧ base.reconcilable row = true

theorem alone_sweep (base : Db) (start : Int) (batch done : List Row)
    (whole : Batch base (done ++ batch)) (summary : ReconcileTccSummary) (past : World)
    (swept : Swept base done start past) :
    Alone past (sweep summary batch) fun _ now => Swept base (done ++ batch) start now := by
  induction batch generalizing done summary past with
  | nil =>
      rw [List.append_nil]
      exact swept
  | cons payment rest ih =>
      have regroup : done ++ payment :: rest = (done ++ [payment]) ++ rest := by simp
      obtain ⟨old, wanted⟩ := whole.waiting payment (List.mem_append_right _ List.mem_cons_self)
      have freshId : ∀ row ∈ done, row.id ≠ payment.id := by
        intro row early same
        have split := List.nodup_append.mp (List.map_append ▸ whole.ids)
        exact split.2.2 _ (List.mem_map_of_mem early) _ (List.mem_map_of_mem List.mem_cons_self)
          same
      have freshOrder : payment.orderId ∉ done.map fun examined => examined.orderId := by
        intro early
        have split := List.nodup_append.mp (List.map_append ▸ whole.orders)
        exact split.2.2 _ early _ (List.mem_map_of_mem List.mem_cons_self) rfl
      have absent : payment.id ∉ done.map fun examined => examined.id := by
        intro early
        obtain ⟨row, member, same⟩ := List.mem_map.mp early
        exact freshId row member same
      have listed : payment ∈ past.db.payments := (swept.others payment absent).mpr old
      have reconcilable : past.db.reconcilable payment = true :=
        (swept.reconcilable payment freshOrder).trans wanted
      have held : Held past.db payment start past :=
        ⟨swept.clock, payment, focus_self swept.stored listed, .inl rfl⟩
      refine safe_bind _ _ _ _ _ (safe_mono _ _ _ _ _ _ (safe_established
        (fun past now holds same => same ▸ holds) _ _ _ _ held
        (solo_examine swept.stored listed reconcilable past rfl)) ?_ fun _ _ impossible =>
          impossible.1)
      rintro outcome now ⟨stamped, heldNow⟩
      rw [regroup]
      exact ih (done ++ [payment]) (regroup ▸ whole) _ now
        (swept.turn listed (reconcilable_active _ _ reconcilable) freshId heldNow.clock stamped)

/-! ## A tick -/

/-- The choices of a tick's actions; the first `elapsed` is the time since the tick before. -/
abbrev Tick := Nat → Choice

def Tick.reading (tick : Tick) (world : World) : Int := world.reads (tick 0)

def backlog (input : ReconcileTccInput) (world : World) (tick : Tick) : List Row :=
  world.db.payments.filter (world.db.stale (input.updatedBefore (tick.reading world)))

def examined (input : ReconcileTccInput) (world : World) (tick : Tick) : List Row :=
  world.db.findStaleTcc (input.updatedBefore (tick.reading world)) input.batchSize

def runTick (input : ReconcileTccInput) (world : World) (tick : Tick) : World :=
  ((execute input).run world tick).2

theorem run_execute (input : ReconcileTccInput) (world : World) (tick : Tick) :
    (execute input).run world tick =
      (sweep { scanned := (examined input world tick).length } (examined input world tick)).run
        ((world.later (tick 0)).later (tick 1)) fun turn => tick (turn + 2) := rfl

theorem upTo_apart (db : Db) (stored : Stored db) :
    ∀ one ∈ db.payments, ∀ other ∈ db.payments, Db.upTo one other → Db.upTo other one →
      one = other := by
  intro one memOne other memOther forth back
  refine Tables.eq_of_key (fun row : Row => row.id) db.payments one other stored.keyed memOne
    memOther ?_
  simp only [Db.upTo] at forth back
  omega

theorem mem_backlog (input : ReconcileTccInput) (world : World) (tick : Tick) (row : Row) :
    row ∈ backlog input world tick ↔ row ∈ world.db.payments ∧
      row.updatedAt < input.updatedBefore (tick.reading world) ∧
      world.db.reconcilable row = true := by
  simp [backlog, Db.stale]

theorem examined_backlog (input : ReconcileTccInput) (world : World) (tick : Tick) (row : Row)
    (listed : row ∈ examined input world tick) : row ∈ backlog input world tick :=
  List.mem_filter.mpr (Pages.mem_page _ _ _ _ _ listed)

theorem batch_examined (input : ReconcileTccInput) (world : World) (tick : Tick)
    (stored : Stored world.db) : Batch world.db (examined input world tick) := by
  have waiting : ∀ row ∈ examined input world tick,
      row ∈ world.db.payments ∧ world.db.reconcilable row = true := by
    intro row listed
    obtain ⟨member, -, reconcilable⟩ :=
      (mem_backlog input world tick row).mp (examined_backlog input world tick row listed)
    exact ⟨member, reconcilable⟩
  have once : (examined input world tick).Nodup :=
    Pages.nodup_page _ _ _ _ (List.Nodup.of_map _ stored.keyed)
  refine ⟨once.map_on fun one memOne other memOther same => ?_,
    once.map_on fun one memOne other memOther same => ?_, waiting⟩
  · exact Tables.eq_of_key (fun row : Row => row.id) world.db.payments one other stored.keyed
      (waiting one memOne).1 (waiting other memOther).1 same
  · exact stored.oneActive one (waiting one memOne).1 other (waiting other memOther).1 same
      (reconcilable_active _ _ (waiting one memOne).2)
      (reconcilable_active _ _ (waiting other memOther).2)

/-- A tick gives every payment it examines its turn, and no other payment. -/
theorem swept_runTick (input : ReconcileTccInput) (world : World) (tick : Tick)
    (stored : Stored world.db) :
    Swept world.db (examined input world tick) (tick.reading world) (runTick input world tick) := by
  have began : Swept world.db [] (tick.reading world) ((world.later (tick 0)).later (tick 1)) := by
    refine ⟨?_, stored, by simp, fun _ _ => Iff.rfl, fun _ _ => rfl⟩
    show world.reads (tick 0) ≤ world.reads (tick 0) + (tick 1).elapsed
    omega
  have safe := alone_sweep world.db (tick.reading world) (examined input world tick) []
    (batch_examined input world tick stored) { scanned := (examined input world tick).length } _
    began
  rw [runTick, run_execute]
  obtain ⟨_, swept⟩ := safe.run fun turn => tick (turn + 2)
  exact swept

/-! ## From tick to tick -/

section Ticks

variable (input : ReconcileTccInput)

/-- A tick on its own: nothing else writes to the tables. -/
def step (world : World) (tick : Tick) : Option World := some (runTick input world tick)

/-- When a tick begins the clock is past every stamp. -/
def Advanced (world : World) (tick : Tick) : Prop :=
  ∀ row ∈ world.db.payments, row.updatedAt < tick.reading world

instance (world : World) (tick : Tick) : Decidable (Advanced world tick) :=
  inferInstanceAs (Decidable (∀ row ∈ world.db.payments, _))

/-- What a tick examined has a later stamp than everything it did not. -/
theorem examined_behind (world : World) (tick : Tick) (stored : Stored world.db)
    (advanced : Advanced world tick) (row : Row) (listed : row ∈ examined input world tick) :
    ∃ after ∈ (runTick input world tick).db.payments, after.id = row.id ∧
      ∀ other ∈ (runTick input world tick).db.payments,
        other.id ∉ (examined input world tick).map (fun examined => examined.id) →
          other.updatedAt < after.updatedAt := by
  have swept := swept_runTick input world tick stored
  obtain ⟨after, member, sameId, late⟩ := swept.behind row listed
  refine ⟨after, member, sameId, fun other memOther absent => ?_⟩
  have early := advanced other ((swept.others other absent).mp memOther)
  omega

theorem examined_of_order (world : World) (tick : Tick) (stored : Stored world.db) (row : Row)
    (listed : row ∈ world.db.payments) (active : row.status.retired = false)
    (shared : row.orderId ∈ (examined input world tick).map fun examined => examined.orderId) :
    row ∈ examined input world tick := by
  obtain ⟨other, member, sameOrder⟩ := List.mem_map.mp shared
  obtain ⟨old, -, reconcilable⟩ :=
    (mem_backlog input world tick other).mp (examined_backlog input world tick other member)
  have same := stored.oneActive other old row listed sameOrder
    (reconcilable_active _ _ reconcilable) active
  exact same ▸ member

theorem examined_of_id (world : World) (tick : Tick) (stored : Stored world.db) (row : Row)
    (listed : row ∈ world.db.payments)
    (shared : row.id ∈ (examined input world tick).map fun examined => examined.id) :
    row ∈ examined input world tick := by
  obtain ⟨other, member, sameId⟩ := List.mem_map.mp shared
  have old := ((mem_backlog input world tick other).mp
    (examined_backlog input world tick other member)).1
  have same := Tables.eq_of_key (fun row : Row => row.id) world.db.payments other row stored.keyed
    old listed sameId
  exact same ▸ member

theorem backlog_next (world : World) (tick next : Tick) (stored : Stored world.db) (row : Row)
    (waiting : row ∈ backlog input world tick) (missed : row ∉ examined input world tick) :
    row ∈ backlog input (runTick input world tick) next := by
  obtain ⟨listed, stale, reconcilable⟩ := (mem_backlog input world tick row).mp waiting
  have swept := swept_runTick input world tick stored
  have active := reconcilable_active _ _ reconcilable
  have apart := mt (examined_of_id input world tick stored row listed) missed
  have apartOrder := mt (examined_of_order input world tick stored row listed active) missed
  refine (mem_backlog ..).mpr ⟨(swept.others row apart).mpr listed, ?_,
    (swept.reconcilable row apartOrder).trans reconcilable⟩
  have clock := swept.clock
  simp only [ReconcileTccInput.updatedBefore, Tick.reading, World.reads] at stale clock ⊢
  omega

def waitingAhead (world : World) (tick : Tick) (row : Row) : List Row :=
  Pages.ahead Db.upTo (world.db.stale (input.updatedBefore (tick.reading world))) world.db.payments
    row

theorem waitingAhead_next (world : World) (tick next : Tick) (stored : Stored world.db)
    (advanced : Advanced world tick) (row : Row) (waiting : row ∈ backlog input world tick)
    (other : Row) (early : other ∈ waitingAhead input (runTick input world tick) next row) :
    other ∈ waitingAhead input world tick row ∧ other ∉ examined input world tick := by
  obtain ⟨listed, stale, -⟩ := (mem_backlog input world tick row).mp waiting
  have swept := swept_runTick input world tick stored
  obtain ⟨member, chosen⟩ := List.mem_filter.mp early
  simp only [Db.stale, Bool.and_eq_true, decide_eq_true_eq, Bool.not_eq_true',
    decide_eq_false_iff_not] at chosen
  obtain ⟨⟨-, reconcilable⟩, first⟩ := chosen
  have older : other.updatedAt ≤ row.updatedAt := by
    simp only [Db.upTo] at first
    omega
  have apart : other.id ∉ (examined input world tick).map fun examined => examined.id := by
    intro shared
    obtain ⟨turned, memTurned, sameTurned⟩ := List.mem_map.mp shared
    obtain ⟨after, memAfter, sameId, late⟩ := swept.behind turned memTurned
    have itself := Tables.eq_of_key (fun row : Row => row.id) _ after other swept.stored.keyed
      memAfter member (sameId.trans sameTurned)
    have before := advanced row listed
    rw [itself] at late
    omega
  have old := (swept.others other apart).mp member
  have missed : other ∉ examined input world tick := fun turned =>
    apart (List.mem_map_of_mem turned)
  have active := reconcilable_active _ _ reconcilable
  have apartOrder := mt (examined_of_order input world tick stored other old active) missed
  rw [swept.reconcilable other apartOrder] at reconcilable
  refine ⟨List.mem_filter.mpr ⟨old, ?_⟩, missed⟩
  simp only [Db.stale, Bool.and_eq_true, decide_eq_true_eq, Bool.not_eq_true',
    decide_eq_false_iff_not]
  exact ⟨⟨by omega, reconcilable⟩, first⟩

/-- A payment that a tick misses moves up by a whole batch. -/
theorem waitingAhead_missed (world : World) (tick next : Tick) (stored : Stored world.db)
    (advanced : Advanced world tick) (row : Row) (waiting : row ∈ backlog input world tick)
    (missed : row ∉ examined input world tick) :
    (waitingAhead input (runTick input world tick) next row).length + input.batchSize ≤
      (waitingAhead input world tick row).length := by
  obtain ⟨listed, chosen⟩ := List.mem_filter.mp waiting
  have swept := swept_runTick input world tick stored
  exact Pages.length_ahead_of_missed Db.upTo _ _ input.batchSize world.db.payments _ row
    (List.Nodup.of_map _ stored.keyed) (List.Nodup.of_map _ swept.stored.keyed)
    (upTo_apart world.db stored) listed chosen missed
    fun other early => waitingAhead_next input world tick next stored advanced row waiting other
      early

/-- So many ticks reach a payment as it takes batches to hold what comes before it. -/
theorem examined_within (turns : Nat) (ticks : List Tick) (world : World) (first : Tick)
    (rest : List Tick) (opens : ticks = first :: rest) (stored : Stored world.db)
    (advanced : Runs.Along (step input) Advanced world ticks) (row : Row)
    (waiting : row ∈ backlog input world first)
    (near : (waitingAhead input world first row).length < input.batchSize * turns)
    (enough : turns ≤ ticks.length) :
    ∃ earlier tick later here, ticks = earlier ++ tick :: later ∧ earlier.length < turns ∧
      Runs.run (step input) world earlier = some here ∧ row ∈ examined input here tick := by
  induction turns generalizing ticks world first rest with
  | zero => exact absurd near (by simp)
  | succ turns ih =>
      subst opens
      obtain ⟨listed, chosen⟩ := List.mem_filter.mp waiting
      obtain ⟨here, later⟩ := advanced
      by_cases turned : row ∈ examined input world first
      · exact ⟨[], first, rest, world, rfl, Nat.succ_pos _, rfl, turned⟩
      · have full : input.batchSize ≤ (waitingAhead input world first row).length := by
          by_contra short
          exact turned ((Pages.mem_page_iff Db.upTo _ input.batchSize world.db.payments row
            (List.Nodup.of_map _ stored.keyed) (upTo_apart world.db stored) listed chosen).mpr
            (by unfold waitingAhead at short; omega))
        rw [Nat.mul_succ] at near
        cases rest with
        | nil =>
            have last : turns = 0 := by simpa using enough
            subst last
            omega
        | cons next others =>
            have moved := waitingAhead_missed input world first next stored here row waiting turned
            obtain ⟨earlier, tick, following, reached, parts, soon, ran, found⟩ :=
              ih (next :: others)
              (runTick input world first) next others rfl
              (swept_runTick input world first stored).stored
              (later _ rfl)
              (backlog_next input world first next stored row waiting turned) (by omega)
              (by simpa using enough)
            refine ⟨first :: earlier, tick, following, reached, by rw [parts]; rfl, ?_, ran, found⟩
            rw [List.length_cons]
            omega

/-- Every tick sends what it examines behind all the rest, and all payments stale at the first tick
are examined within as many ticks as they fill batches. -/
theorem backlog_rotates (positive : 1 ≤ input.batchSize) (world : World) (stored : Stored world.db)
    (ticks : List Tick) (advanced : Runs.Along (step input) Advanced world ticks) :
    (∀ earlier tick later here, ticks = earlier ++ tick :: later →
      Runs.run (step input) world earlier = some here →
        ∀ row ∈ examined input here tick,
          ∃ after ∈ (runTick input here tick).db.payments, after.id = row.id ∧
            ∀ other ∈ (runTick input here tick).db.payments,
              other.id ∉ (examined input here tick).map (fun examined => examined.id) →
                other.updatedAt < after.updatedAt) ∧
    ∀ first rest, ticks = first :: rest →
      let turns := ((backlog input world first).length + input.batchSize - 1) / input.batchSize
      turns ≤ ticks.length →
        ∀ row ∈ backlog input world first,
          ∃ earlier tick later here, ticks = earlier ++ tick :: later ∧ earlier.length < turns ∧
            Runs.run (step input) world earlier = some here ∧ row ∈ examined input here tick := by
  constructor
  · intro earlier tick later here parts ran row listed
    subst parts
    have storedHere : Stored here.db := by
      refine Runs.run_preserves (step input) (fun now => Stored now.db) ?_ earlier world here stored
        ran
      rintro now event next kept stepped
      cases stepped
      exact (swept_runTick input now event kept).stored
    have advancedHere := (Runs.along_append (step input) Advanced world here earlier (tick :: later)
      ran advanced).2.1
    exact examined_behind input here tick storedHere advancedHere row listed
  · intro first rest opens turns enough row waiting
    obtain ⟨listed, chosen⟩ := List.mem_filter.mp waiting
    have ahead := Pages.length_ahead_lt Db.upTo
      (world.db.stale (input.updatedBefore (first.reading world))) world.db.payments row listed
      chosen
    refine examined_within input turns ticks world first rest opens stored advanced row waiting ?_
      enough
    have covers : (backlog input world first).length ≤ input.batchSize *
        (((backlog input world first).length + input.batchSize - 1) / input.batchSize) := by
      have filled := Nat.lt_mul_div_succ ((backlog input world first).length + input.batchSize - 1)
        positive
      rw [Nat.mul_succ] at filled
      omega
    exact Nat.lt_of_lt_of_le ahead covers

end Ticks

/-! ### A backlog of three -/

def threeStale : World where
  db :=
    { headers := fun orderId =>
        if orderId = 12 then some ⟨.cancelled, some 900, some "USD", some 1⟩
        else some ⟨.opened, some 900, some "USD", none⟩
      payments :=
        [ ⟨⟨⟨21, none, 900, "USD", .pending⟩, 1, 0⟩, 11, 0, 1⟩,
          ⟨⟨⟨22, some 42, 900, "USD", .authorized⟩, 2, 0⟩, 12, 0, 2⟩,
          ⟨⟨⟨23, none, 900, "USD", .pending⟩, 3, 0⟩, 13, 0, 3⟩ ]
      outbox := [] }
  clock := 10

def failingVoids : Tick := fun turn =>
  { elapsed := if turn = 0 then 300000000 else 1
    authorization := fun session =>
      if session = 21 then
        .ok ⟨some .complete, some 41, some .requiresCapture, some 900, some "USD"⟩
      else .ok ⟨some .opened, none, none, none, none⟩
    voiding := fun _ _ => .error ⟨true⟩
    minted := some 51 }

theorem threeStale_stored : Stored threeStale.db where
  keyed := by decide
  handles := by decide
  oneActive := by decide +kernel

theorem backlog_rotates_three :
    ∃ earlier tick later here, [failingVoids, failingVoids] = earlier ++ tick :: later ∧
      earlier.length < 2 ∧ Runs.run (step ⟨120, 2⟩) threeStale earlier = some here ∧
      ⟨⟨⟨23, none, 900, "USD", .pending⟩, 3, 0⟩, 13, 0, 3⟩ ∈ examined ⟨120, 2⟩ here tick :=
  (backlog_rotates ⟨120, 2⟩ (by decide) threeStale threeStale_stored [failingVoids, failingVoids]
    (by decide +kernel)).2 _ _ rfl (by decide +kernel) _ (by decide +kernel)

end Commerce.Payments.Backlog
