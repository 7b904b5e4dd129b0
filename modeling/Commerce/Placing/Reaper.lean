import Commerce.Lib.Pages
import Commerce.Lib.Runs
import Commerce.Placing.Requests

/-!
# The reaper of orphaned checkouts

A tick reads the oldest orders that are still `RESERVING` and asks the saga
engine to start a run for each.  An order it asks for keeps its place at the
head as long as it stays `RESERVING`.
-/

set_option autoImplicit false

namespace Commerce.Placing.Reaper

open Commerce.Orders (Db Order OrderItem OrderItemRow OrderRow OrderStatus createReserving
  findReservingOlderThan itemRows toDomainItem toDomainOrder)
open Commerce.Saga (CheckoutSagaInput)

/-! ## One tick -/

def reapBatchSize : Nat := 50

inductive EngineAnswer where
  | started
  /-- `CheckoutEngineUnavailableError`. -/
  | unavailable
  /-- `CheckoutSagaClosedError`. -/
  | closed
  | fault (message : String)
  deriving DecidableEq, Repr

structure ReapSummary where
  found : Nat
  handedBack : Nat
  deriving DecidableEq, Repr

structure Reaping where
  handedBack : Nat
  /-- The orders passed to `ensureStarted`. -/
  asked : List Nat
  deriving DecidableEq, Repr

def handBack (settings : Settings) (ensureStarted : Nat → CheckoutSagaInput → EngineAnswer) :
    Reaping → List Order → Except String Unit × Reaping
  | reaping, [] => (.ok (), reaping)
  | reaping, order :: rest =>
      match toCheckoutSagaStart settings order .checkout none with
      | .error message => (.error message, reaping)
      | .ok (orderId, input) =>
          let reaping := { reaping with asked := reaping.asked ++ [orderId] }
          match ensureStarted orderId input with
          | .started =>
              handBack settings ensureStarted
                { reaping with handedBack := reaping.handedBack + 1 } rest
          | .unavailable => (.ok (), reaping)
          | .closed => handBack settings ensureStarted reaping rest
          | .fault message => (.error message, reaping)

/-- What the tick answers, and the orders it passed to `ensureStarted`. -/
def execute (settings : Settings) (ensureStarted : Nat → CheckoutSagaInput → EngineAnswer)
    (nowMs : Int) (db : Db) : Except String ReapSummary × List Nat :=
  match findReservingOlderThan db (nowMs - settings.reservingOrphanMs) reapBatchSize with
  | .error message => (.error message, [])
  | .ok orphans =>
      let (answer, reaping) := handBack settings ensureStarted ⟨0, []⟩ orphans
      (answer.map fun _ => ⟨orphans.length, reaping.handedBack⟩, reaping.asked)

/-! ## The engine and the orders -/

inductive RunState where
  | opened
  | closed
  deriving DecidableEq, Repr

/-- The engine is reachable: no run under the id is opened, an open one is used, and a closed one is
refused. -/
def ensureStarted (runs : Nat → Option RunState) (orderId : Nat) : EngineAnswer :=
  match runs orderId with
  | none | some .opened => .started
  | some .closed => .closed

structure World where
  db : Db
  runs : Nat → Option RunState
  /-- The orders ever passed to `ensureStarted`. -/
  asked : List Nat

def World.reap (world : World) (asked : List Nat) : World where
  db := world.db
  runs orderId :=
    if orderId ∈ asked ∧ world.runs orderId = none then some .opened else world.runs orderId
  asked := world.asked ++ asked

inductive Event where
  | tick (nowMs : Int)
  /-- A run moves its order off `RESERVING`. -/
  | leave (orderId : Nat) (target : OrderStatus)
  /-- A run ends and leaves its order as it is. -/
  | close (orderId : Nat)
  deriving DecidableEq, Repr

def step (settings : Settings) (world : World) : Event → Option World
  | .tick nowMs =>
      some (world.reap (execute settings (fun orderId _ => ensureStarted world.runs orderId) nowMs
        world.db).2)
  | .leave orderId target =>
      if target = .reserving ∨ world.runs orderId ≠ some .opened then none
      else
        some { world with
          db := world.db.updateOrder orderId fun row => { row with status := target } }
  | .close orderId =>
      if world.runs orderId ≠ some .opened then none
      else some { world with runs := Function.update world.runs orderId (some .closed) }

/-! ## Orders a saga can be started for -/

/-- Every `RESERVING` order was placed with a deadline, and every line reads back. -/
structure Startable (db : Db) : Prop where
  placed : ∀ row ∈ db.orders, row.status = .reserving →
    row.placedAt.isSome = true ∧ row.paymentDeadlineAt.isSome = true
  lines : ∀ item ∈ db.items, ∃ line, toDomainItem item = .ok line

theorem mapM_ok {α β : Type} (f : α → Except String β) (rows : List α)
    (each : ∀ row ∈ rows, ∃ value, f row = .ok value) : ∃ values, rows.mapM f = .ok values := by
  induction rows with
  | nil => exact ⟨[], rfl⟩
  | cons row rest ih =>
      obtain ⟨value, made⟩ := each row List.mem_cons_self
      obtain ⟨values, rest⟩ := ih fun other later => each other (List.mem_cons_of_mem _ later)
      exact ⟨value :: values, by rw [List.mapM_cons, made, rest]; rfl⟩

theorem Startable.order {db : Db} (startable : Startable db) (row : OrderRow) :
    ∃ items, toDomainOrder row (db.itemRowsOf row.id) =
      .ok ⟨some row.id, row.userId, row.status, row.currency, items, row.totalAmount, row.placedAt,
        row.finalizedAt, row.finalizeReason, row.paymentRef, row.paymentDeadlineAt⟩ := by
  have each : ∀ item ∈ db.itemRowsOf row.id, ∃ line, toDomainItem item = .ok line := by
    intro item member
    have stored := (List.mem_insertionSort _).mp member
    exact startable.lines item (List.mem_of_mem_filter stored)
  obtain ⟨items, made⟩ := mapM_ok toDomainItem (db.itemRowsOf row.id) each
  exact ⟨items, by rw [toDomainOrder, made]; rfl⟩

theorem toDomainItem_itemRows (orderId : Nat) (ids : List Nat) (items : List OrderItem)
    (valid : ∀ item ∈ items,
      OrderItem.of item.skuId item.productName item.unitPriceMinor item.quantity = .ok item) :
    ∀ row ∈ itemRows orderId ids items, ∃ line, toDomainItem row = .ok line := by
  induction ids generalizing items with
  | nil => intro row listed; rw [itemRows] at listed; cases listed; simp
  | cons id rest ih =>
      cases items with
      | nil => intro row listed; rw [itemRows] at listed; cases listed; simp
      | cons item others =>
          intro row listed
          rw [itemRows] at listed
          rcases List.mem_cons.mp listed with rfl | later
          · exact ⟨item, valid item List.mem_cons_self⟩
          · exact ih others (fun other member => valid other (List.mem_cons_of_mem _ member)) row
              later

/-- A checkout writes only such orders. -/
theorem createReserving_startable (db after : Db) (order : Order) (key : Option String)
    (orderId : Nat) (itemIds : List Nat) (result : Orders.ReservingCreateResult)
    (startable : Startable db)
    (reserved : order.placedAt.isSome = true ∧ order.paymentDeadlineAt.isSome = true)
    (valid : ∀ item ∈ order.items,
      OrderItem.of item.skuId item.productName item.unitPriceMinor item.quantity = .ok item)
    (created : createReserving db order key orderId itemIds = .ok (result, after)) :
    Startable after := by
  unfold createReserving at created
  split at created
  · obtain ⟨_, _, same⟩ := (Results.bind_eq_ok _ _ _).mp created
    cases same
    exact startable
  · split at created
    · cases created
    · obtain ⟨inserted, insert, same⟩ := (Results.bind_eq_ok _ _ _).mp created
      cases same
      unfold Db.insertOrder at insert
      dsimp only at insert
      split_ifs at insert
      cases insert
      constructor
      · intro row listed reserving
        rcases List.mem_append.mp listed with known | fresh
        · exact startable.placed row known reserving
        · obtain rfl := List.mem_singleton.mp fresh
          exact reserved
      · intro item listed
        rcases List.mem_append.mp listed with known | fresh
        · exact startable.lines item known
        · exact toDomainItem_itemRows orderId itemIds order.items valid item fresh

/-! ## What a tick asks for -/

def upTo (one other : OrderRow) : Prop :=
  one.placedAt.getD 0 < other.placedAt.getD 0 ∨
    (one.placedAt.getD 0 = other.placedAt.getD 0 ∧ one.id ≤ other.id)

instance : DecidableRel upTo := fun _ _ => inferInstanceAs (Decidable (_ ∨ _ ∧ _))

instance : Std.Total upTo where
  total one other := by
    simp only [upTo]
    omega

instance : IsTrans OrderRow upTo where
  trans one other third := by
    simp only [upTo]
    omega

theorem upTo_apart (db : Db) (keyed : (db.orders.map (·.id)).Nodup) :
    ∀ one ∈ db.orders, ∀ other ∈ db.orders, upTo one other → upTo other one → one = other := by
  intro one memOne other memOther forth back
  refine List.inj_on_of_nodup_map keyed memOne memOther ?_
  simp only [upTo] at forth back
  omega

def reserving (row : OrderRow) : Bool := row.status == .reserving

def orphaned (settings : Settings) (nowMs : Int) (row : OrderRow) : Bool :=
  reserving row && row.placedAt.any (decide <| · < nowMs - settings.reservingOrphanMs)

def reservingAhead (db : Db) (row : OrderRow) : List OrderRow :=
  Pages.ahead upTo reserving db.orders row

theorem findReservingOlderThan_eq (settings : Settings) (nowMs : Int) (db : Db) :
    findReservingOlderThan db (nowMs - settings.reservingOrphanMs) reapBatchSize =
      (Pages.page upTo (orphaned settings nowMs) reapBatchSize db.orders).mapM fun row =>
        toDomainOrder row (db.itemRowsOf row.id) := rfl

theorem handBack_asked (settings : Settings) (engine : Nat → CheckoutSagaInput → EngineAnswer)
    (reachable : ∀ orderId input, engine orderId input = .started ∨ engine orderId input = .closed)
    (db : Db) (startable : Startable db) (batch : List OrderRow)
    (stored : ∀ row ∈ batch, row ∈ db.orders ∧ row.status = .reserving) :
    ∃ orders, (batch.mapM fun row => toDomainOrder row (db.itemRowsOf row.id)) = .ok orders ∧
      ∀ reaping, (handBack settings engine reaping orders).2.asked =
        reaping.asked ++ batch.map (·.id) := by
  induction batch with
  | nil => exact ⟨[], rfl, fun reaping => (List.append_nil _).symm⟩
  | cons row rest ih =>
      obtain ⟨orders, read, asked⟩ := ih fun other later =>
        stored other (List.mem_cons_of_mem _ later)
      obtain ⟨listed, isReserving⟩ := stored row List.mem_cons_self
      obtain ⟨placed, due⟩ := startable.placed row listed isReserving
      obtain ⟨placedAt, hasPlaced⟩ := Option.isSome_iff_exists.mp placed
      obtain ⟨dueAt, hasDue⟩ := Option.isSome_iff_exists.mp due
      obtain ⟨items, made⟩ := startable.order row
      refine ⟨_, by rw [List.mapM_cons, made, read]; rfl, fun reaping => ?_⟩
      rw [handBack, hasPlaced, hasDue]
      simp only [toCheckoutSagaStart]
      rcases reachable row.id
          { mode := .checkout
            placedAt
            tryStartedAt := none
            totalMinor := row.totalAmount
            currency := row.currency
            tryTimeoutMs := settings.tryTimeoutMs } with started | closed
      · rw [started]
        dsimp only
        rw [asked, List.map_cons, List.append_assoc, List.singleton_append]
      · rw [closed]
        dsimp only
        rw [asked, List.map_cons, List.append_assoc, List.singleton_append]

theorem ensureStarted_reachable (runs : Nat → Option RunState) (orderId : Nat) :
    ensureStarted runs orderId = .started ∨ ensureStarted runs orderId = .closed := by
  rw [ensureStarted]
  cases runs orderId with
  | none => exact .inl rfl
  | some state => cases state <;> simp

theorem execute_asked (settings : Settings) (runs : Nat → Option RunState) (nowMs : Int) (db : Db)
    (startable : Startable db) :
    (execute settings (fun orderId _ => ensureStarted runs orderId) nowMs db).2 =
      (Pages.page upTo (orphaned settings nowMs) reapBatchSize db.orders).map (·.id) := by
  have stored : ∀ row ∈ Pages.page upTo (orphaned settings nowMs) reapBatchSize db.orders,
      row ∈ db.orders ∧ row.status = .reserving := by
    intro row listed
    obtain ⟨member, chosen⟩ := Pages.mem_page upTo _ _ _ row listed
    exact ⟨member, by simpa [reserving] using (Bool.and_eq_true_iff.mp chosen).1⟩
  obtain ⟨orders, read, asked⟩ := handBack_asked settings
    (fun orderId _ => ensureStarted runs orderId)
    (fun orderId _ => ensureStarted_reachable runs orderId) db startable _ stored
  rw [execute, findReservingOlderThan_eq, read]
  exact (asked ⟨0, []⟩).trans (List.nil_append _)

theorem ahead_orphaned (settings : Settings) (nowMs : Int) (db : Db) (startable : Startable db)
    (row : OrderRow) (old : orphaned settings nowMs row = true) :
    Pages.ahead upTo (orphaned settings nowMs) db.orders row = reservingAhead db row := by
  refine List.filter_congr fun other listed => ?_
  obtain ⟨-, rowOld⟩ := Bool.and_eq_true_iff.mp old
  obtain ⟨placedAt, placed, early⟩ := (Option.any_eq_true _ _).mp rowOld
  cases isReserving : reserving other with
  | false => rw [orphaned, isReserving]; rfl
  | true =>
      have status : other.status = .reserving := by simpa [reserving] using isReserving
      obtain ⟨otherPlaced, hasPlaced⟩ :=
        Option.isSome_iff_exists.mp (startable.placed other listed status).1
      rw [Bool.true_and, orphaned, isReserving, hasPlaced, Bool.true_and, Option.any_some]
      by_cases behind : upTo row other
      · simp [behind]
      · have before : otherPlaced < nowMs - settings.reservingOrphanMs := by
          have rowEarly : placedAt < nowMs - settings.reservingOrphanMs := by simpa using early
          simp only [upTo, placed, hasPlaced, Option.getD_some] at behind
          omega
        simp [behind, before]

/-- A tick asks for an order past the cutoff exactly when fewer than a batch are before it. -/
theorem mem_asked_iff (settings : Settings) (runs : Nat → Option RunState) (nowMs : Int) (db : Db)
    (keyed : (db.orders.map (·.id)).Nodup) (startable : Startable db) (row : OrderRow)
    (listed : row ∈ db.orders) :
    row.id ∈ (execute settings (fun orderId _ => ensureStarted runs orderId) nowMs db).2 ↔
      orphaned settings nowMs row = true ∧ (reservingAhead db row).length < reapBatchSize := by
  have distinct : db.orders.Nodup := List.Nodup.of_map _ keyed
  rw [execute_asked settings runs nowMs db startable, List.mem_map]
  constructor
  · rintro ⟨other, onPage, sameId⟩
    obtain ⟨otherListed, old⟩ := Pages.mem_page upTo _ _ _ other onPage
    obtain rfl := List.inj_on_of_nodup_map keyed otherListed listed sameId
    have place := (Pages.mem_page_iff upTo _ _ _ other distinct (upTo_apart db keyed) listed old).mp
      onPage
    rw [ahead_orphaned settings nowMs db startable other old] at place
    exact ⟨old, place⟩
  · rintro ⟨old, place⟩
    rw [← ahead_orphaned settings nowMs db startable row old] at place
    exact ⟨row, (Pages.mem_page_iff upTo _ _ _ row distinct (upTo_apart db keyed) listed old).mpr
      place, rfl⟩

/-! ## Runs of ticks -/

/-- What a run leaves of the orders it started from: those still `RESERVING` are as they were. -/
structure Kept (world now : World) : Prop where
  keyed : (now.db.orders.map (·.id)).Nodup
  startable : Startable now.db
  reserving : ∀ row ∈ now.db.orders, row.status = .reserving → row ∈ world.db.orders
  asked : ∀ orderId ∈ world.asked, orderId ∈ now.asked

theorem kept_step {settings : Settings} {world now next : World} (kept : Kept world now)
    (event : Event) (stepped : step settings now event = some next) : Kept world next := by
  obtain ⟨keyed, startable, reserving, asked⟩ := kept
  cases event with
  | tick nowMs =>
      cases Option.some.inj stepped
      exact ⟨keyed, startable, reserving,
        fun orderId member => List.mem_append_left _ (asked orderId member)⟩
  | leave orderId target =>
      rw [step] at stepped
      split at stepped
      · cases stepped
      next allowed =>
      cases Option.some.inj stepped
      have settled : target ≠ .reserving := fun same => allowed (.inl same)
      have untouched : ∀ row ∈ (now.db.updateOrder orderId fun row =>
        { row with status := target }).orders,
          row.status = .reserving → row ∈ now.db.orders := by
        intro row listed isReserving
        obtain ⟨old, member, rfl⟩ := List.mem_map.mp listed
        split at isReserving
        · exact absurd isReserving settled
        · next other =>
            rw [if_neg other]
            exact member
      refine ⟨?_, ⟨fun row listed isReserving => ?_, startable.lines⟩, fun row listed isReserving =>
        ?_,
        asked⟩
      · have same : (now.db.updateOrder orderId fun row => { row with status := target }).orders.map
            (·.id) = now.db.orders.map (·.id) := by
          simp only [Db.updateOrder, List.map_map]
          refine List.map_congr_left fun row _ => ?_
          simp only [Function.comp_apply]
          split <;> rfl
        rw [same]
        exact keyed
      · exact startable.placed row (untouched row listed isReserving) isReserving
      · exact reserving row (untouched row listed isReserving) isReserving
  | close orderId =>
      rw [step] at stepped
      split at stepped
      · cases stepped
      · cases Option.some.inj stepped
        exact ⟨keyed, startable, reserving, asked⟩

theorem kept_run {settings : Settings} {world now final : World} (kept : Kept world now)
    (events : List Event) (ran : Runs.run (step settings) now events = some final) :
    Kept world final :=
  Runs.run_preserves (step settings) (Kept world)
    (fun _ event _ before stepped => kept_step before event stepped) events now final kept ran

/-- In every run an order is handed back exactly when some tick finds it with fewer than a batch of
`RESERVING` orders before it. -/
theorem asked_iff (settings : Settings) (world final : World) (events : List Event)
    (keyed : (world.db.orders.map (·.id)).Nodup) (startable : Startable world.db) (row : OrderRow)
    (listed : row ∈ world.db.orders) (unasked : row.id ∉ world.asked)
    (ran : Runs.run (step settings) world events = some final) :
    row.id ∈ final.asked ↔ ∃ before nowMs after middle, events = before ++ .tick nowMs :: after ∧
      Runs.run (step settings) world before = some middle ∧ row ∈ middle.db.orders ∧
      orphaned settings nowMs row = true ∧
      (reservingAhead middle.db row).length < reapBatchSize := by
  have start : Kept world world := ⟨keyed, startable, fun _ member _ => member, fun _ member =>
    member⟩
  constructor
  · intro asked
    obtain ⟨before, event, after, middle, next, split, reached, still, stepped, gained, -⟩ :=
      Runs.run_first_change (step settings) (fun now => row.id ∈ now.asked) events world final
        unasked
        ran asked
    have kept := kept_run start before reached
    cases event with
    | tick nowMs =>
        cases Option.some.inj stepped
        have here := (List.mem_append.mp gained).resolve_left still
        rw [execute_asked settings middle.runs nowMs middle.db kept.startable] at here
        obtain ⟨other, onPage, sameId⟩ := List.mem_map.mp here
        obtain ⟨otherListed, old⟩ := Pages.mem_page upTo _ _ _ other onPage
        have isReserving : other.status = .reserving := by
          simpa [reserving] using (Bool.and_eq_true_iff.mp old).1
        obtain rfl := List.inj_on_of_nodup_map keyed (kept.reserving other otherListed isReserving)
          listed sameId
        have both := (mem_asked_iff settings middle.runs nowMs middle.db kept.keyed kept.startable
          other otherListed).mp (execute_asked settings middle.runs nowMs middle.db kept.startable ▸
            List.mem_map_of_mem onPage)
        exact ⟨before, nowMs, after, middle, split, reached, otherListed, both⟩
    | leave orderId target =>
        rw [step] at stepped
        split at stepped
        · cases stepped
        · cases Option.some.inj stepped
          exact absurd gained still
    | close orderId =>
        rw [step] at stepped
        split at stepped
        · cases stepped
        · cases Option.some.inj stepped
          exact absurd gained still
  · rintro ⟨before, nowMs, after, middle, rfl, reached, member, old, place⟩
    have kept := kept_run start before reached
    rw [Runs.run_append, reached, Option.bind_some] at ran
    obtain ⟨next, stepped, rest⟩ := Runs.run_cons_eq_some (step settings) middle final _ after ran
    have keptNext := kept_step kept _ stepped
    have again : Kept next final := kept_run
      ⟨keptNext.keyed, keptNext.startable, fun _ member _ => member, fun _ member => member⟩ after
      rest
    cases Option.some.inj stepped
    have here := (mem_asked_iff settings middle.runs nowMs middle.db kept.keyed kept.startable row
      member).mpr ⟨old, place⟩
    exact again.asked row.id (List.mem_append_right _ here)

/-! ## Orders that stay -/

def isTick : Event → Bool
  | .tick _ => true
  | _ => false

def Stays (events : List Event) : Prop := ∀ orderId target, Event.leave orderId target ∉ events

theorem stays_db (settings : Settings) (world final : World) (events : List Event)
    (stays : Stays events) (ran : Runs.run (step settings) world events = some final) :
    final.db = world.db := by
  induction events generalizing world with
  | nil =>
      cases Option.some.inj ran
      rfl
  | cons event rest ih =>
      obtain ⟨next, stepped, remaining⟩ := Runs.run_cons_eq_some (step settings) world final event
        rest ran
      rw [ih next (fun orderId target member =>
        stays orderId target (List.mem_cons_of_mem _ member))
        remaining]
      cases event with
      | tick nowMs =>
          cases Option.some.inj stepped
          rfl
      | leave orderId target => exact absurd List.mem_cons_self (stays orderId target)
      | close orderId =>
          rw [step] at stepped
          split at stepped
          · cases stepped
          · cases Option.some.inj stepped
            rfl

theorem stays_asked_iff (settings : Settings) (world final : World) (events : List Event)
    (startMs : Int) (keyed : (world.db.orders.map (·.id)).Nodup) (startable : Startable world.db)
    (row : OrderRow) (listed : row ∈ world.db.orders) (unasked : row.id ∉ world.asked)
    (old : orphaned settings startMs row = true) (stays : Stays events)
    (later : ∀ nowMs, Event.tick nowMs ∈ events → startMs ≤ nowMs)
    (ticks : 0 < events.countP isTick)
    (ran : Runs.run (step settings) world events = some final) :
    row.id ∈ final.asked ↔ (reservingAhead world.db row).length < reapBatchSize := by
  rw [asked_iff settings world final events keyed startable row listed unasked ran]
  constructor
  · rintro ⟨before, nowMs, after, middle, rfl, reached, -, -, place⟩
    have same := stays_db settings world middle before
      (fun orderId target member => stays orderId target (List.mem_append_left _ member)) reached
    rw [same] at place
    exact place
  · intro place
    obtain ⟨event, member, isATick⟩ := List.countP_pos_iff.mp ticks
    cases event with
    | leave orderId target => cases isATick
    | close orderId => cases isATick
    | tick nowMs =>
        obtain ⟨before, after, rfl⟩ := List.append_of_mem member
        rw [Runs.run_append] at ran
        obtain ⟨middle, reached, -⟩ := Option.bind_eq_some_iff.mp ran
        have same := stays_db settings world middle before
          (fun orderId target member => stays orderId target (List.mem_append_left _ member))
          reached
        refine ⟨before, nowMs, after, middle, rfl, reached, same ▸ listed, ?_, same ▸ place⟩
        obtain ⟨isReserving, early⟩ := Bool.and_eq_true_iff.mp old
        obtain ⟨placedAt, placed, early⟩ := (Option.any_eq_true _ _).mp early
        have start := later nowMs member
        have still : placedAt < nowMs - settings.reservingOrphanMs := by
          have := of_decide_eq_true early
          omega
        rw [orphaned, isReserving, placed, Bool.true_and, Option.any_some]
        exact decide_eq_true still

def Orphan (settings : Settings) (world : World) (startMs : Int) (row : OrderRow) : Prop :=
  row ∈ world.db.orders ∧ orphaned settings startMs row = true ∧ world.runs row.id = none

def ticksFor (settings : Settings) (world : World) (startMs : Int) : Nat :=
  (world.db.orders.countP (orphaned settings startMs) + reapBatchSize - 1) / reapBatchSize

/-- In every run an order is handed back exactly when some tick finds it with fewer than a batch of
`RESERVING` orders before it.  Where none of them leaves, the ticks of the backlog's length hand
back every orphan exactly when each has fewer before it at the start. -/
theorem hands_back_exact (settings : Settings) (world : World)
    (keyed : (world.db.orders.map (·.id)).Nodup) (startable : Startable world.db)
    (fresh : world.asked = []) (events : List Event) (final : World)
    (ran : Runs.run (step settings) world events = some final) :
    (∀ row ∈ world.db.orders, row.id ∈ final.asked ↔
      ∃ before nowMs after middle, events = before ++ .tick nowMs :: after ∧
        Runs.run (step settings) world before = some middle ∧ row ∈ middle.db.orders ∧
        orphaned settings nowMs row = true ∧
        (reservingAhead middle.db row).length < reapBatchSize) ∧
    ∀ startMs, Stays events → (∀ nowMs, Event.tick nowMs ∈ events → startMs ≤ nowMs) →
      ticksFor settings world startMs ≤ events.countP isTick →
      ((∀ row, Orphan settings world startMs row → row.id ∈ final.asked) ↔
        ∀ row, Orphan settings world startMs row →
          (reservingAhead world.db row).length < reapBatchSize) := by
  have unasked : ∀ orderId, orderId ∉ world.asked := by
    intro orderId member
    rw [fresh] at member
    cases member
  constructor
  · intro row listed
    exact asked_iff settings world final events keyed startable row listed (unasked row.id) ran
  · intro startMs stays later enough
    refine forall_congr' fun row => imp_congr_right fun orphan => ?_
    obtain ⟨listed, old, -⟩ := orphan
    have present : 0 < world.db.orders.countP (orphaned settings startMs) :=
      List.countP_pos_iff.mpr ⟨row, listed, old⟩
    have ticks : 0 < events.countP isTick := by
      rw [ticksFor, reapBatchSize] at enough
      omega
    exact stays_asked_iff settings world final events startMs keyed startable row listed
      (unasked row.id) old stays later ticks ran

/-! ### Fifty closed runs -/

def reservingRow (orderId : Nat) : OrderRow where
  id := orderId
  userId := 300000 + orderId
  status := .reserving
  currency := "USD"
  totalAmount := 1000
  idempotencyKey := none
  placedAt := some orderId
  finalizedAt := none
  finalizeReason := none
  paymentRef := none
  paymentDeadlineAt := some 3600000

def hourlyOrphans : Settings where
  sha256Hex text := text
  paymentDeadlineMs := 3600000
  tryTimeoutMs := 5000
  reservingOrphanMs := 60000
  idempotencyGraceMs := 1000

/-- The runs of the oldest orders ended without moving them; the youngest order never got one. -/
def stuckBehind (closed : Nat) : World where
  db :=
    { orders := (List.range (closed + 1)).map fun place => reservingRow (1000 + place)
      items := []
      outbox := []
      idempotencyKeys := [] }
  runs orderId := if orderId < 1000 + closed then some .closed else none
  asked := []

theorem startable_stuckBehind (closed : Nat) : Startable (stuckBehind closed).db := by
  constructor
  · intro row listed _
    obtain ⟨place, -, rfl⟩ := List.mem_map.mp listed
    exact ⟨rfl, rfl⟩
  · intro item listed
    cases listed

/-- The orphan behind fifty closed runs was to be reached by two ticks, and is not by any number. -/
theorem closed_runs_hide_orphan :
    Orphan hourlyOrphans (stuckBehind 50) 100000 (reservingRow 1050) ∧
      ticksFor hourlyOrphans (stuckBehind 50) 100000 = 2 ∧
      ∀ (nows : List Int) (final : World),
        Runs.run (step hourlyOrphans) (stuckBehind 50) (nows.map .tick) = some final →
        (reservingRow 1050).id ∉ final.asked := by
  have listed : reservingRow 1050 ∈ (stuckBehind 50).db.orders := by decide +kernel
  refine ⟨⟨listed, by decide +kernel, rfl⟩, by decide +kernel, fun nows final ran asked => ?_⟩
  obtain ⟨before, nowMs, after, middle, ticks, reached, -, -, place⟩ :=
    (asked_iff hourlyOrphans (stuckBehind 50) final _ (by decide +kernel) (startable_stuckBehind 50)
      _ listed (List.not_mem_nil) ran).mp asked
  have stays : Stays before := by
    intro orderId target member
    have onlyTicks : Event.leave orderId target ∈ nows.map Event.tick :=
      ticks ▸ List.mem_append_left _ member
    obtain ⟨now, -, same⟩ := List.mem_map.mp onlyTicks
    cases same
  rw [stays_db hourlyOrphans (stuckBehind 50) middle before stays reached] at place
  revert place
  decide +kernel

theorem hands_back_exact_behind_49 :
    ∃ final, Runs.run (step hourlyOrphans) (stuckBehind 49) [.tick 100000] = some final ∧
      ∀ row, Orphan hourlyOrphans (stuckBehind 49) 100000 row → row.id ∈ final.asked := by
  have few : ∀ row ∈ (stuckBehind 49).db.orders, (stuckBehind 49).runs row.id = none →
      (reservingAhead (stuckBehind 49).db row).length < reapBatchSize := by
    decide +kernel
  refine ⟨_, rfl, ((hands_back_exact hourlyOrphans (stuckBehind 49) (by decide +kernel)
    (startable_stuckBehind 49) rfl [.tick 100000] _ rfl).2 100000 ?_ ?_ (by decide +kernel)).mpr
    fun row orphan => few row orphan.1 orphan.2.2⟩
  · intro orderId target member
    cases List.mem_singleton.mp member
  · intro nowMs member
    cases List.mem_singleton.mp member
    exact le_refl _

end Commerce.Placing.Reaper
