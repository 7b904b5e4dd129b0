import Commerce.Carts.Service
import Commerce.Lib.Runs
import Mathlib.Data.List.Nodup

/-!
# The limits of a cart

One cart per user, one line per SKU and the quantity of a line hold at every
statement, since an index or the statement itself enforces them.  The number
of lines is checked by a statement of its own: a cart stays within the limit
exactly when the check of an add would still pass at its upsert.
-/

set_option autoImplicit false

namespace Commerce.Carts

open Runs

/-! ## What one statement writes -/

def Db.hasRoom (db : Db) (cartId skuId : Nat) : Bool :=
  countLines skuId cartId (findItems db cartId) != .refused .cartFull

def requantify (onLine : CartItemRow → Bool) (quantity : CartItemRow → Nat)
    (rows : List CartItemRow) : List CartItemRow :=
  rows.map fun row => if onLine row then { row with quantity := quantity row } else row

inductive Written (db : Db) (process : Process) (choice : Choice) : Db → Prop where
  | unchanged : Written db process choice db
  | created (userId : Nat) (first : ∀ cart ∈ db.carts, cart.userId ≠ userId) :
      Written db process choice { db with carts := db.carts ++ [⟨choice.id, userId⟩] }
  | requantified (onLine : CartItemRow → Bool) (quantity : CartItemRow → Nat)
      (bounded : ∀ row ∈ db.items, 1 ≤ row.quantity →
        1 ≤ quantity row ∧ quantity row ≤ maxLineQuantity) :
      Written db process choice { db with items := requantify onLine quantity db.items }
  | removed (stays : CartItemRow → Bool) :
      Written db process choice { db with items := db.items.filter stays }
  | inserted (cartId skuId : Nat) (lines : List CartItem) (quantity : LineQuantity)
      (adding : process.phase = .adding cartId lines)
      (requested : process.request = .addItem skuId quantity)
      (unlisted : db.items.any (·.isLine cartId skuId) = false)
      (fresh : db.items.any (·.id == choice.id) = false) :
      Written db process choice
        { db with items := db.items ++ [⟨choice.id, cartId, skuId, quantity.value⟩] }

theorem insertCart_written (db next : Db) (process : Process) (choice : Choice) (userId : Nat)
    (created : Option Nat) (success : insertCart db choice.id userId = some (created, next)) :
    Written db process choice next := by
  simp only [insertCart] at success
  split at success
  · cases success
    exact .unchanged
  · rename_i first
    split at success <;> cases success
    exact .created userId (by simpa using first)

theorem addItem_written (db next : Db) (process : Process) (choice : Choice)
    (cartId skuId : Nat) (lines : List CartItem) (quantity : LineQuantity)
    (adding : process.phase = .adding cartId lines)
    (requested : process.request = .addItem skuId quantity)
    (success : addItem db choice.id cartId skuId quantity.value = some next) :
    Written db process choice next := by
  simp only [addItem] at success
  split at success
  · cases success
    refine .requantified (·.isLine cartId skuId)
      (fun row => min (row.quantity + quantity.value) maxLineQuantity) fun row _ positive => ?_
    have limit : maxLineQuantity = 10 := rfl
    omega
  · rename_i unlisted
    split at success <;> cases success
    rename_i fresh
    exact .inserted cartId skuId lines quantity adding requested (by simpa using unlisted)
      (by simpa using fresh)

theorem setItemQuantity_written (db : Db) (process : Process) (choice : Choice)
    (cartId skuId : Nat) (quantity : LineQuantity) :
    Written db process choice (setItemQuantity db cartId skuId quantity.value).2 :=
  .requantified (·.isLine cartId skuId) (fun _ => quantity.value) fun _ _ _ =>
    ⟨quantity.positive, quantity.bounded⟩

theorem statement_written (db next : Db) (process : Process) (choice : Choice) (phase : Phase)
    (success : statement db process choice = some (next, phase)) :
    Written db process choice next := by
  obtain ⟨userId, request, now⟩ := process
  cases now with
  | checkingSku | reading =>
      cases request <;> cases success
      exact .unchanged
  | findingCart | viewing =>
      cases success
      exact .unchanged
  | creatingCart =>
      simp only [statement] at success
      split at success <;> cases success
      · exact .unchanged
      · rename_i inserted
        exact insertCart_written db _ _ choice userId _ inserted
      · rename_i inserted
        exact insertCart_written db _ _ choice userId _ inserted
  | refindingCart =>
      simp only [statement] at success
      split at success <;> cases success <;> exact .unchanged
  | adding cartId lines =>
      cases request with
      | addItem skuId quantity =>
          simp only [statement] at success
          split at success <;> cases success
          · exact .unchanged
          · rename_i upserted
            exact addItem_written db _ _ choice cartId skuId lines quantity rfl rfl upserted
      | setItemQuantity | removeItem | clear => cases success
  | changing cartId =>
      cases request with
      | addItem => cases success
      | setItemQuantity skuId quantity =>
          cases success
          exact setItemQuantity_written db _ choice cartId skuId quantity
      | removeItem skuId =>
          cases success
          exact .removed _
      | clear =>
          cases success
          exact .removed _
  | answered | refused => cases success

/-- A step runs one statement on the tables, or leaves them alone. -/
theorem step_cases (world next : World) (event : Event) (stepped : step world event = some next) :
    next.db = world.db ∨
      ∃ slot choice process phase, event = .turn slot choice ∧
        world.requests slot = some process ∧
        statement world.db process choice = some (next.db, phase) := by
  cases event with
  | arrive slot userId request =>
      simp only [step] at stepped
      split at stepped <;> cases stepped
      exact .inl rfl
  | turn slot choice =>
      obtain ⟨process, here, rest⟩ := Option.bind_eq_some_iff.mp stepped
      obtain ⟨⟨db, phase⟩, ran, same⟩ := Option.bind_eq_some_iff.mp rest
      cases same
      exact .inr ⟨slot, choice, process, phase, rfl, here, ran⟩
  | fail slot =>
      obtain ⟨process, here, same⟩ := Option.bind_eq_some_iff.mp stepped
      cases same
      exact .inl rfl

/-! ## The limits a statement enforces -/

def CartItemRow.key (row : CartItemRow) : Nat × Nat := (row.cartId, row.skuId)

/-- The limits that an index or a single statement enforces. -/
structure Enforced (db : Db) : Prop where
  oneCart : (db.carts.map (·.userId)).Nodup
  oneLine : (db.items.map CartItemRow.key).Nodup
  quantities : ∀ row ∈ db.items, 1 ≤ row.quantity ∧ row.quantity ≤ maxLineQuantity

theorem requantify_keys (onLine : CartItemRow → Bool) (quantity : CartItemRow → Nat)
    (rows : List CartItemRow) :
    (requantify onLine quantity rows).map CartItemRow.key = rows.map CartItemRow.key := by
  simp only [requantify, List.map_map]
  refine List.map_congr_left fun row _ => ?_
  simp only [Function.comp_apply]
  split <;> rfl

theorem isLine_iff (row : CartItemRow) (cartId skuId : Nat) :
    row.isLine cartId skuId = true ↔ row.key = (cartId, skuId) := by
  simp [CartItemRow.isLine, CartItemRow.key]

theorem Enforced.written {db next : Db} {process : Process} {choice : Choice}
    (enforced : Enforced db) (written : Written db process choice next) : Enforced next := by
  cases written with
  | unchanged => exact enforced
  | created userId first =>
      refine { enforced with oneCart := ?_ }
      rw [List.map_append]
      refine List.Nodup.append enforced.oneCart (List.nodup_singleton userId) ?_
      rw [List.map_singleton, List.disjoint_singleton]
      intro member
      obtain ⟨cart, listed, same⟩ := List.mem_map.mp member
      exact first cart listed same
  | requantified onLine quantity bounded =>
      refine { enforced with oneLine := ?_, quantities := ?_ }
      · rw [requantify_keys]
        exact enforced.oneLine
      · intro row member
        obtain ⟨old, listed, rfl⟩ := List.mem_map.mp member
        have kept := enforced.quantities old listed
        split
        · exact bounded old listed kept.1
        · exact kept
  | removed stays =>
      refine { enforced with oneLine := ?_, quantities := ?_ }
      · exact enforced.oneLine.sublist (List.Sublist.map _ List.filter_sublist)
      · exact fun row member => enforced.quantities row (List.mem_of_mem_filter member)
  | inserted cartId skuId lines quantity adding requested unlisted fresh =>
      refine { enforced with oneLine := ?_, quantities := ?_ }
      · rw [List.map_append]
        refine List.Nodup.append enforced.oneLine (List.nodup_singleton _) ?_
        rw [List.map_singleton, List.disjoint_singleton]
        intro member
        obtain ⟨row, listed, same⟩ := List.mem_map.mp member
        have line := (isLine_iff row cartId skuId).mpr same
        rw [List.any_eq_true.mpr ⟨row, listed, line⟩] at unlisted
        cases unlisted
      · intro row member
        rcases List.mem_append.mp member with old | new
        · exact enforced.quantities row old
        · cases List.mem_singleton.mp new
          exact ⟨quantity.positive, quantity.bounded⟩

theorem enforced_step (world : World) (event : Event) (next : World)
    (enforced : Enforced world.db) (stepped : step world event = some next) :
    Enforced next.db := by
  rcases step_cases world next event stepped with same | ⟨_, choice, process, phase, _, _, ran⟩
  · exact same ▸ enforced
  · exact enforced.written (statement_written world.db next.db process choice phase ran)

/-! ## The number of lines -/

def Fits (db : Db) : Prop :=
  ∀ cartId, (db.lines cartId).length ≤ maxCartLines ∧
    (db.lines cartId).length ≤ maxReservationLines

/-- When an add runs its upsert, the check it made passes on the lines the cart has by then,
or the id minted for a new line is taken. -/
def stillRoom (world : World) : Event → Bool
  | .turn slot choice =>
      match world.requests slot with
      | some ⟨_, .addItem skuId _, .adding cartId _⟩ =>
          world.db.hasRoom cartId skuId || world.db.items.any (·.id == choice.id)
      | _ => true
  | _ => true

def StillRoom (world : World) (event : Event) : Prop := stillRoom world event = true

instance (world : World) (event : Event) : Decidable (StillRoom world event) :=
  inferInstanceAs (Decidable (stillRoom world event = true))

theorem findItems_length (db : Db) (cartId : Nat) :
    (findItems db cartId).length = (db.lines cartId).length := by
  simp [findItems]

theorem findItems_any (db : Db) (cartId skuId : Nat) :
    (findItems db cartId).any (·.skuId == skuId) = db.items.any (·.isLine cartId skuId) := by
  simp only [findItems, Db.lines, List.any_map, List.any_filter, CartItemRow.isLine,
    Function.comp_def]

theorem hasRoom_of_absent (db : Db) (cartId skuId : Nat)
    (unlisted : db.items.any (·.isLine cartId skuId) = false) :
    db.hasRoom cartId skuId = true ↔ (db.lines cartId).length < maxCartLines := by
  have count : (findItems db cartId).any (·.skuId == skuId) = false :=
    (findItems_any db cartId skuId).trans unlisted
  simp only [Db.hasRoom, countLines, findItems_length, count]
  split
  · rename_i full
    simp only [bne_self_eq_false, Bool.false_eq_true, false_iff]
    exact Nat.not_lt.mpr full.1
  · rename_i room
    simp only [Bool.not_false, and_true, Nat.not_le] at room
    simpa using room

theorem hasRoom_of_listed (db : Db) (cartId skuId : Nat)
    (listed : db.items.any (·.isLine cartId skuId) = true) : db.hasRoom cartId skuId = true := by
  have count : (findItems db cartId).any (·.skuId == skuId) = true :=
    (findItems_any db cartId skuId).trans listed
  simp [Db.hasRoom, countLines, count]

theorem requantify_lines_length (db : Db) (onLine : CartItemRow → Bool)
    (quantity : CartItemRow → Nat) (cartId : Nat) :
    (({ db with items := requantify onLine quantity db.items } : Db).lines cartId).length =
      (db.lines cartId).length := by
  have sameCart : ∀ row : CartItemRow,
      ((if onLine row then { row with quantity := quantity row } else row).cartId == cartId) =
        (row.cartId == cartId) := by
    intro row
    split <;> rfl
  simp only [Db.lines, requantify, List.filter_map, List.length_map, Function.comp_def, sameCart]

theorem removed_lines_length (db : Db) (stays : CartItemRow → Bool) (cartId : Nat) :
    (({ db with items := db.items.filter stays } : Db).lines cartId).length ≤
      (db.lines cartId).length :=
  List.Sublist.length_le (List.filter_sublist.filter _)

theorem inserted_lines_length (db : Db) (id cartId skuId quantity other : Nat) :
    (({ db with items := db.items ++ [⟨id, cartId, skuId, quantity⟩] } : Db).lines other).length =
      (db.lines other).length + if cartId = other then 1 else 0 := by
  simp only [Db.lines, List.filter_append, List.length_append, List.filter_singleton]
  by_cases same : cartId = other
  · simp [same]
  · simp [same, beq_eq_false_iff_ne.mpr same]

theorem Fits.of_le {db next : Db} (fits : Fits db)
    (fewer : ∀ cartId, (next.lines cartId).length ≤ (db.lines cartId).length) : Fits next := by
  intro cartId
  have before := fits cartId
  have now := fewer cartId
  omega

/-- A statement that has room for the line it inserts keeps every cart within the limits. -/
theorem fits_written {db next : Db} {process : Process} {choice : Choice} (fits : Fits db)
    (written : Written db process choice next)
    (room : ∀ cartId lines skuId quantity, process.phase = .adding cartId lines →
      process.request = .addItem skuId quantity → db.items.any (·.id == choice.id) = false →
      db.hasRoom cartId skuId = true) : Fits next := by
  cases written with
  | unchanged => exact fits
  | created userId first => exact fits
  | requantified onLine quantity bounded =>
      exact fits.of_le fun cartId => Nat.le_of_eq
        (requantify_lines_length db onLine quantity cartId)
  | removed stays => exact fits.of_le (removed_lines_length db stays)
  | inserted cartId skuId lines quantity adding requested unlisted fresh =>
      have below := (hasRoom_of_absent db cartId skuId unlisted).mp
        (room cartId lines skuId quantity adding requested fresh)
      intro other
      have before := fits other
      have limits : maxReservationLines = maxCartLines := rfl
      rw [inserted_lines_length, limits]
      split
      · rename_i same
        rw [same] at below
        omega
      · omega

/-- What an event that leaves no room does: the upsert inserts one line too many. -/
theorem overfull_of_not_stillRoom (world next : World) (event : Event)
    (stepped : step world event = some next) (stale : ¬ StillRoom world event) :
    ∃ cartId, maxCartLines < (next.db.lines cartId).length := by
  unfold StillRoom stillRoom at stale
  split at stale
  · rename_i slot choice
    split at stale
    · rename_i userId skuId quantity cartId lines here
      simp only [Bool.or_eq_true, not_or, Bool.not_eq_true] at stale
      obtain ⟨full, fresh⟩ := stale
      have unlisted : world.db.items.any (·.isLine cartId skuId) = false := by
        by_contra listed
        rw [hasRoom_of_listed world.db cartId skuId (by simpa using listed)] at full
        cases full
      have count : ¬ (world.db.lines cartId).length < maxCartLines := by
        rw [← hasRoom_of_absent world.db cartId skuId unlisted, full]
        exact Bool.false_ne_true
      simp only [step, here, statement, addItem, unlisted, fresh, Option.bind_eq_bind,
        Option.bind_some] at stepped
      cases stepped
      refine ⟨cartId, ?_⟩
      have grown := inserted_lines_length world.db choice.id cartId skuId quantity.value cartId
      simp only [World.setPhase, if_pos] at grown ⊢
      omega
    · exact absurd rfl stale
  · exact absurd rfl stale

theorem fits_step_iff (world : World) (event : Event) (next : World) (fits : Fits world.db)
    (stepped : step world event = some next) : Fits next.db ↔ StillRoom world event := by
  constructor
  · intro kept
    by_contra stale
    obtain ⟨cartId, overfull⟩ := overfull_of_not_stillRoom world next event stepped stale
    have within := (kept cartId).1
    omega
  · intro room
    rcases step_cases world next event stepped with same |
      ⟨slot, choice, process, phase, rfl, here, ran⟩
    · exact same ▸ fits
    · refine fits_written fits (statement_written world.db next.db process choice phase ran) ?_
      intro cartId lines skuId quantity adding requested fresh
      obtain ⟨userId, request, now⟩ := process
      cases adding
      cases requested
      simpa [StillRoom, stillRoom, here, fresh] using room

/-! ## A count nothing has changed since -/

/-- An add that reaches its upsert passed the check on the lines it counted. -/
def Checked (world : World) : Prop :=
  ∀ slot process cartId lines skuId quantity, world.requests slot = some process →
    process.phase = .adding cartId lines → process.request = .addItem skuId quantity →
    countLines skuId cartId lines ≠ .refused .cartFull

theorem checked_setPhase (world : World) (slot : Nat) (process : Process) (db : Db) (phase : Phase)
    (checked : Checked world)
    (passes : ∀ cartId lines skuId quantity, phase = .adding cartId lines →
      process.request = .addItem skuId quantity →
      countLines skuId cartId lines ≠ .refused .cartFull) :
    Checked (world.setPhase slot process db phase) := by
  intro other found cartId lines skuId quantity here adding requested
  by_cases same : other = slot
  · subst same
    simp only [World.setPhase, Function.update_self, Option.some.injEq] at here
    subst here
    exact passes cartId lines skuId quantity adding requested
  · simp only [World.setPhase, Function.update_of_ne same] at here
    exact checked other found cartId lines skuId quantity here adding requested

theorem countLines_adding (skuId cartId found : Nat) (items lines : List CartItem)
    (adding : countLines skuId cartId items = .adding found lines) : items = lines := by
  simp only [countLines] at adding
  split at adding <;> cases adding
  rfl

theorem statement_checks (db next : Db) (process : Process) (choice : Choice)
    (cartId : Nat) (lines : List CartItem) (skuId : Nat) (quantity : LineQuantity)
    (requested : process.request = .addItem skuId quantity)
    (success : statement db process choice = some (next, .adding cartId lines)) :
    countLines skuId cartId lines ≠ .refused .cartFull := by
  obtain ⟨userId, request, now⟩ := process
  cases requested
  cases now with
  | checkingSku =>
      simp only [statement] at success
      split at success <;> cases success
  | findingCart =>
      simp only [statement] at success
      cases found : findCartId db userId <;> simp [found, Request.found] at success
  | creatingCart | refindingCart | adding =>
      simp only [statement] at success
      split at success <;> cases success
  | reading counted =>
      simp only [statement, Option.some.injEq, Prod.mk.injEq] at success
      have items := countLines_adding skuId counted cartId _ lines success.2
      intro full
      rw [← items] at full
      have passed := success.2
      simp only [countLines] at full passed
      split at full
      · rename_i crowded
        rw [if_pos crowded] at passed
        cases passed
      · cases full
  | changing | viewing | answered | refused => cases success

theorem checked_step (world : World) (event : Event) (next : World) (checked : Checked world)
    (stepped : step world event = some next) : Checked next := by
  cases event with
  | arrive slot userId request =>
      simp only [step] at stepped
      split at stepped <;> cases stepped
      refine checked_setPhase world slot _ world.db request.first checked ?_
      intro cartId lines skuId quantity adding requested
      cases request <;> cases adding
  | turn slot choice =>
      obtain ⟨process, here, rest⟩ := Option.bind_eq_some_iff.mp stepped
      obtain ⟨⟨db, phase⟩, ran, same⟩ := Option.bind_eq_some_iff.mp rest
      cases same
      refine checked_setPhase world slot process db phase checked ?_
      rintro cartId lines skuId quantity rfl requested
      exact statement_checks world.db db process choice cartId lines skuId quantity requested ran
  | fail slot =>
      obtain ⟨process, here, same⟩ := Option.bind_eq_some_iff.mp stepped
      cases same
      exact checked_setPhase world slot process world.db _ checked fun _ _ _ _ adding =>
        nomatch adding

/-- An add whose cart still has the lines it counted has room for its line. -/
theorem stillRoom_of_unchanged (events : List Event) (world : World)
    (ran : run step start events = some world) (slot : Nat) (choice : Choice)
    (current : ∀ process cartId lines, world.requests slot = some process →
      process.phase = .adding cartId lines → findItems world.db cartId = lines) :
    StillRoom world (.turn slot choice) := by
  have checked : Checked world :=
    Runs.run_preserves step Checked checked_step events start world
      (fun _ _ _ _ _ _ here => nomatch here) ran
  simp only [StillRoom, stillRoom]
  split
  · rename_i userId skuId quantity cartId lines here
    have same := current _ cartId lines here rfl
    have passed := checked slot _ cartId lines skuId quantity here rfl rfl
    rw [← same] at passed
    simp [Db.hasRoom, passed]
  · rfl

/-! ## The limits of every run -/

theorem enforced_start : Enforced start.db :=
  ⟨List.nodup_nil, List.nodup_nil, fun _ member => nomatch member⟩

theorem fits_start : Fits start.db := fun _ => ⟨Nat.zero_le _, Nat.zero_le _⟩

/-- After any interleaving of requests a user has at most one cart, a cart one line per SKU and
no line more than the limit.  A run keeps every cart within its line limit exactly when no add
runs its upsert after other adds have used up the room it counted. -/
theorem cart_limits (events : List Event) (world : World)
    (ran : run step start events = some world) :
    Enforced world.db ∧
      ((∀ before after reached, events = before ++ after → run step start before = some reached →
          Fits reached.db) ↔ Along step StillRoom start events) := by
  refine ⟨?_, ?_⟩
  · exact Runs.run_preserves step (fun world => Enforced world.db) enforced_step events start world
      enforced_start ran
  · exact Runs.always_iff_along step StillRoom (fun world => Fits world.db) fits_step_iff events
      start world fits_start ran

def choiceOf (id : Nat) : Choice := ⟨true, id⟩

def oneOf (skuId : Nat) : Request := .addItem skuId ⟨1, by decide, by decide⟩

def firstAdd : List Event :=
  .arrive 0 1 (oneOf 500) :: List.replicate 4 (.turn 0 (choiceOf 1000)) ++ [.turn 0 (choiceOf 2000)]

theorem cart_limits_first :
    ∃ world, run step start firstAdd = some world ∧ Enforced world.db ∧
      ((∀ before after reached, firstAdd = before ++ after →
          run step start before = some reached → Fits reached.db) ↔
        Along step StillRoom start firstAdd) :=
  ⟨_, rfl, cart_limits firstAdd _ rfl⟩

def addInTurn (count : Nat) : List Event :=
  (List.range count).flatMap fun index =>
    .arrive (index + 1) 1 (oneOf (501 + index)) ::
      List.replicate 4 (.turn (index + 1) (choiceOf (2001 + index)))

/-- With 99 lines in the cart, two adds of new SKUs count before either of them inserts. -/
def racingAdds : List Event :=
  firstAdd ++ addInTurn 98 ++ [.arrive 200 1 (oneOf 700), .arrive 201 1 (oneOf 701)] ++
    List.replicate 3 (.turn 200 (choiceOf 3000)) ++ List.replicate 3 (.turn 201 (choiceOf 3001)) ++
    [.turn 200 (choiceOf 3000), .turn 201 (choiceOf 3001)]

theorem racingAdds_lines :
    (run step start racingAdds).map (fun world => (world.db.lines 1000).length) =
      some (maxCartLines + 1) := by
  decide +kernel

/-- The cart ends with more lines than it may hold, and than one Try may have. -/
theorem racing_adds_overfill :
    ∃ world, run step start racingAdds = some world ∧
      maxCartLines < (world.db.lines 1000).length ∧
      maxReservationLines < (world.db.lines 1000).length ∧ ¬ Fits world.db := by
  obtain ⟨world, ran, lines⟩ := Option.map_eq_some_iff.mp racingAdds_lines
  have limits : maxReservationLines = maxCartLines := rfl
  have overfull : maxCartLines < (world.db.lines 1000).length := by omega
  refine ⟨world, ran, overfull, by omega, fun fits => ?_⟩
  exact absurd (fits 1000).1 (Nat.not_le.mpr overfull)

end Commerce.Carts
