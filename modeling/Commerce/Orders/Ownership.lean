import Commerce.Orders.History
import Commerce.Orders.IdempotencyKeys

/-!
# The order a key names

A row keeps its key until it is rejected, and no status leads back in flight
or out of rejection.  So once an order is past its Try it stays the one order
under its user's key.
-/

set_option autoImplicit false

namespace Commerce.Orders

open Commerce.Saga (ReserveOutcome)
open Results

/-- Past its Try and not refused: what the buyer sees. -/
def Visible (status : OrderStatus) : Prop := status ≠ .reserving ∧ status ≠ .rejected

instance (status : OrderStatus) : Decidable (Visible status) :=
  inferInstanceAs (Decidable (_ ∧ _))

structure RowMoves (row later : OrderRow) : Prop where
  id : later.id = row.id
  user : later.userId = row.userId
  edge : later.status = row.status ∨
    canTransition row.status later.status = true ∧ later.status ≠ .reserving
  key : later.idempotencyKey = row.idempotencyKey ∨
    later.status = .rejected ∧ later.idempotencyKey = none

theorem RowMoves.refl (row : OrderRow) : RowMoves row row := ⟨rfl, rfl, .inl rfl, .inl rfl⟩

theorem canTransition_visible (source target : OrderStatus) (visible : Visible source)
    (edge : canTransition source target = true) (unreserving : target ≠ .reserving) :
    Visible target := by
  refine ⟨unreserving, ?_⟩
  rintro rfl
  revert edge visible
  cases source <;> decide

theorem canTransition_inFlight (source target : OrderStatus)
    (edge : canTransition source target = true) (unreserving : target ≠ .reserving)
    (inFlight : inFlightStatuses.contains target = true) :
    inFlightStatuses.contains source = true := by
  revert edge unreserving inFlight
  cases source <;> cases target <;> decide

theorem RowMoves.visible {row later : OrderRow} (moves : RowMoves row later)
    (visible : Visible row.status) :
    Visible later.status ∧ later.idempotencyKey = row.idempotencyKey := by
  have now : Visible later.status := by
    rcases moves.edge with same | ⟨edge, unreserving⟩
    · rw [same]
      exact visible
    · exact canTransition_visible row.status later.status visible edge unreserving
  refine ⟨now, ?_⟩
  rcases moves.key with same | ⟨rejected, -⟩
  · exact same
  · exact absurd rejected now.2

theorem RowMoves.rejected {row later : OrderRow} (moves : RowMoves row later)
    (rejected : row.status = .rejected) : later.status = .rejected := by
  rcases moves.edge with same | ⟨edge, -⟩
  · exact same.trans rejected
  · rw [rejected, canTransition_of_terminal _ _ rfl] at edge
    cases edge

theorem RowMoves.inFlight {row later : OrderRow} (moves : RowMoves row later)
    (inFlight : inFlightStatuses.contains later.status = true) :
    inFlightStatuses.contains row.status = true := by
  rcases moves.edge with same | ⟨edge, unreserving⟩
  · rw [← same]
    exact inFlight
  · exact canTransition_inFlight row.status later.status edge unreserving inFlight

/-! ## Statements on the order table -/

/-- The primary key, the unique index on user and key, and the cap on orders in flight. -/
structure Keyed (db : Db) : Prop where
  ids : (db.orders.map (·.id)).Nodup
  keys : ∀ first ∈ db.orders, ∀ second ∈ db.orders, first.userId = second.userId →
    first.idempotencyKey = second.idempotencyKey → first.idempotencyKey ≠ none →
      first.id = second.id
  capped : ∀ userId, db.inFlight userId ≤ maxPendingOrdersPerUser

/-- The rows stay, moved each by itself, except that rejected ones may go; some are added. -/
structure Evolves (db next : Db) (added : List OrderRow) : Prop where
  kept : ∀ row ∈ db.orders, row.status ≠ .rejected → ∃ later ∈ next.orders, RowMoves row later
  origin : ∀ later ∈ next.orders, later ∈ added ∨ ∃ row ∈ db.orders, RowMoves row later

theorem Evolves.of_same {db next : Db} (same : next.orders = db.orders) : Evolves db next [] where
  kept := by
    intro row member _
    exact ⟨row, same ▸ member, .refl row⟩
  origin := by
    intro later member
    exact .inr ⟨later, same ▸ member, .refl later⟩

theorem keyed_of_same {db next : Db} (keyed : Keyed db) (same : next.orders = db.orders) :
    Keyed next := by
  obtain ⟨ids, keys, capped⟩ := keyed
  refine ⟨by rw [same]; exact ids, by rw [same]; exact keys, fun userId => ?_⟩
  have bound := capped userId
  rwa [Db.inFlight, ← same] at bound

theorem keyed_of_map {db next : Db} (set : OrderRow → OrderRow) (keyed : Keyed db)
    (orders : next.orders = db.orders.map set)
    (moves : ∀ row ∈ db.orders, RowMoves row (set row)) : Keyed next where
  ids := by
    have same : (db.orders.map set).map (·.id) = db.orders.map (·.id) := by
      rw [List.map_map]
      exact List.map_congr_left fun row member => (moves row member).id
    rw [orders, same]
    exact keyed.ids
  keys := by
    rw [orders]
    intro first memFirst second memSecond user key unset
    obtain ⟨one, memOne, rfl⟩ := List.mem_map.mp memFirst
    obtain ⟨other, memOther, rfl⟩ := List.mem_map.mp memSecond
    have keptOne : (set one).idempotencyKey = one.idempotencyKey :=
      (moves one memOne).key.resolve_right fun cleared => unset cleared.2
    have keptOther : (set other).idempotencyKey = other.idempotencyKey :=
      (moves other memOther).key.resolve_right fun cleared => unset (key.trans cleared.2)
    rw [(moves one memOne).id, (moves other memOther).id]
    refine keyed.keys one memOne other memOther ?_ ?_ (keptOne ▸ unset)
    · rw [← (moves one memOne).user, ← (moves other memOther).user]
      exact user
    · rw [← keptOne, ← keptOther]
      exact key
  capped := by
    intro userId
    refine Nat.le_trans ?_ (keyed.capped userId)
    rw [Db.inFlight, Db.inFlight, orders, ← List.countP_eq_length_filter,
      ← List.countP_eq_length_filter, List.countP_map]
    refine List.countP_mono_left fun row member counted => ?_
    simp only [Function.comp_apply, Bool.and_eq_true, beq_iff_eq] at counted ⊢
    obtain ⟨user, inFlight⟩ := counted
    exact ⟨(moves row member).user ▸ user, (moves row member).inFlight inFlight⟩

theorem Evolves.of_map {db next : Db} (set : OrderRow → OrderRow)
    (orders : next.orders = db.orders.map set)
    (moves : ∀ row ∈ db.orders, RowMoves row (set row)) : Evolves db next [] where
  kept := by
    intro row member _
    exact ⟨set row, orders ▸ List.mem_map_of_mem member, moves row member⟩
  origin := by
    rw [orders]
    intro later member
    obtain ⟨row, before, rfl⟩ := List.mem_map.mp member
    exact .inr ⟨row, before, moves row before⟩

structure Moved (db next : Db) : Prop where
  keyed : Keyed next
  evolves : Evolves db next []

theorem moved_of_same {db next : Db} (keyed : Keyed db) (same : next.orders = db.orders) :
    Moved db next :=
  ⟨keyed_of_same keyed same, .of_same same⟩

theorem Moved.congr {db next other : Db} (moved : Moved db next)
    (same : other.orders = next.orders) : Moved db other where
  keyed := keyed_of_same moved.keyed same
  evolves :=
    { kept := by rw [same]; exact moved.evolves.kept
      origin := by rw [same]; exact moved.evolves.origin }

theorem moved_of_update {db next : Db} {orderId : Nat} {row : OrderRow}
    (set : OrderRow → OrderRow) (keyed : Keyed db) (found : db.findOrder orderId = some row)
    (orders : next.orders = (db.updateOrder orderId set).orders)
    (moves : RowMoves row (set row)) : Moved db next := by
  have each : ∀ other ∈ db.orders,
      RowMoves other (if other.id = orderId then set other else other) := by
    intro other member
    by_cases named : other.id = orderId
    · have same : other = row := by
        refine List.inj_on_of_nodup_map keyed.ids member (List.mem_of_find?_eq_some found) ?_
        rw [named, findOrder_id db orderId row found]
      rw [if_pos named, same]
      exact moves
    · rw [if_neg named]
      exact .refl other
  exact ⟨keyed_of_map _ keyed orders each, .of_map _ orders each⟩

/-! ## The saga's writes -/

theorem applyOrderChange_moved {db next : Db} {orderId : Nat} {source : List OrderStatus}
    {target : OrderStatus} {reason : Option String} {paymentRef : Option Nat} {outboxId : Nat}
    {now : Int} {result : SagaWriteResult} (keyed : Keyed db)
    (success : applyOrderChange db orderId source target reason paymentRef outboxId now =
      .ok (result, next)) :
    Moved db next ∧ next.idempotencyKeys = db.idempotencyKeys := by
  simp only [applyOrderChange, bind_eq_ok] at success
  obtain ⟨locked, lock, success⟩ := success
  cases locked with
  | none =>
      cases success
      exact ⟨moved_of_same keyed rfl, rfl⟩
  | some pair =>
      obtain ⟨order, key⟩ := pair
      obtain ⟨row, found, -, status, -, -⟩ := lockOrder_ok db orderId order key lock
      simp only at success
      by_cases already : order.status = target
      · rw [if_pos already] at success
        cases success
        exact ⟨moved_of_same keyed rfl, rfl⟩
      rw [if_neg already] at success
      by_cases stale : (!source.contains order.status) = true
      · rw [if_pos stale] at success
        cases success
        exact ⟨moved_of_same keyed rfl, rfl⟩
      rw [if_neg stale] at success
      obtain ⟨changed, moved, success⟩ := (bind_eq_ok _ _ _).mp success
      obtain ⟨edge, entered, -⟩ := moveForSaga_ok order changed target now _ _ moved
      have unreserving : changed.status ≠ .reserving := by
        rw [entered]
        rintro rfl
        cases moved
      have moves : RowMoves row { row with
          status := changed.status
          finalizedAt := changed.finalizedAt
          finalizeReason := changed.finalizeReason
          paymentRef := changed.paymentRef } :=
        ⟨rfl, rfl, .inr ⟨status ▸ entered ▸ edge, unreserving⟩, .inl rfl⟩
      by_cases confirming : target = .confirming
      · rw [if_pos confirming] at success
        cases success
        exact ⟨moved_of_update _ keyed found rfl moves, rfl⟩
      · rw [if_neg confirming] at success
        simp only [bind_eq_ok] at success
        obtain ⟨event, -, appended, written, same⟩ := success
        cases same
        cases append_ok _ _ _ _ written
        exact ⟨moved_of_update _ keyed found rfl moves, rfl⟩

/-! ## The order under a key -/

def Past (db : Db) (orderId : Nat) : Prop :=
  ∃ row ∈ db.orders, row.id = orderId ∧ Visible row.status

def Placed (db : Db) (userId : Nat) (key : String) (orderId : Nat) : Prop :=
  ∃ row ∈ db.orders, row.id = orderId ∧ row.userId = userId ∧ row.idempotencyKey = some key ∧
    Visible row.status

/-- The order is the user's, and holds the key unless it is rejected; it may be gone. -/
def Owned (db : Db) (userId : Nat) (key : String) (orderId : Nat) : Prop :=
  ∀ row ∈ db.orders, row.id = orderId →
    row.userId = userId ∧ (row.status = .rejected ∨ row.idempotencyKey = some key)

def Names (db : Db) (userId : Nat) (key : String) (view : OrderView) : Prop :=
  ∃ orderId, view.id = some orderId ∧ Placed db userId key orderId

/-- Every stored answer is one of the order its key names. -/
def Answered (db : Db) : Prop :=
  ∀ row ∈ db.idempotencyKeys, row.completed = true →
    ∀ userId, row.scope = userIdempotencyScope userId →
      ∃ view, row.responseBody = some view ∧ Names db userId row.key view

theorem placed_of_past {db : Db} {userId orderId : Nat} {key : String}
    (owned : Owned db userId key orderId) (past : Past db orderId) :
    Placed db userId key orderId := by
  obtain ⟨row, member, named, visible⟩ := past
  obtain ⟨user, held⟩ := owned row member named
  exact ⟨row, member, named, user, held.resolve_left visible.2, visible⟩

theorem placed_unique {db : Db} {userId first second : Nat} {key : String} (keyed : Keyed db)
    (one : Placed db userId key first) (other : Placed db userId key second) : first = second := by
  obtain ⟨row, member, rfl, user, held, -⟩ := one
  obtain ⟨row', member', rfl, user', held', -⟩ := other
  exact keyed.keys row member row' member' (user.trans user'.symm) (held.trans held'.symm)
    (by rw [held]; exact Option.some_ne_none key)

namespace Evolves

variable {db next : Db} {added : List OrderRow}

theorem past (evolves : Evolves db next added) (orderId : Nat) (past : Past db orderId) :
    Past next orderId := by
  obtain ⟨row, member, named, visible⟩ := past
  obtain ⟨later, now, moves⟩ := evolves.kept row member visible.2
  exact ⟨later, now, moves.id.trans named, (moves.visible visible).1⟩

theorem placed (evolves : Evolves db next added) {userId orderId : Nat} {key : String}
    (placed : Placed db userId key orderId) : Placed next userId key orderId := by
  obtain ⟨row, member, named, user, held, visible⟩ := placed
  obtain ⟨later, now, moves⟩ := evolves.kept row member visible.2
  obtain ⟨still, same⟩ := moves.visible visible
  exact ⟨later, now, moves.id.trans named, moves.user.trans user, same.trans held, still⟩

theorem names (evolves : Evolves db next added) {userId : Nat} {key : String} {view : OrderView}
    (names : Names db userId key view) : Names next userId key view := by
  obtain ⟨orderId, named, placed⟩ := names
  exact ⟨orderId, named, evolves.placed placed⟩

theorem owned (evolves : Evolves db next added) {userId orderId : Nat} {key : String}
    (elsewhere : ∀ row ∈ added, row.id ≠ orderId) (owned : Owned db userId key orderId) :
    Owned next userId key orderId := by
  intro later member named
  rcases evolves.origin later member with new | ⟨row, before, moves⟩
  · exact absurd named (elsewhere later new)
  · obtain ⟨user, held⟩ := owned row before (moves.id.symm.trans named)
    refine ⟨moves.user.trans user, ?_⟩
    rcases held with rejected | held
    · exact .inl (moves.rejected rejected)
    · rcases moves.key with same | ⟨rejected, -⟩
      · exact .inr (same.trans held)
      · exact .inl rejected

/-- Stored answers stay right when the rows move and no new answer is stored. -/
theorem answered (evolves : Evolves db next added) (answered : Answered db)
    (keys : ∀ row ∈ next.idempotencyKeys, row ∈ db.idempotencyKeys ∨ row.completed = false) :
    Answered next := by
  intro row member completed userId scope
  rcases keys row member with old | open'
  · obtain ⟨view, body, named⟩ := answered row old completed userId scope
    exact ⟨view, body, evolves.names named⟩
  · rw [completed] at open'
    cases open'

end Evolves

/-- Completing a key with a view of the order it names keeps every stored answer right. -/
theorem answered_markCompleted {db : Db} {userId : Nat} {key : String} {view : OrderView}
    (status orderId : Nat) (answered : Answered db) (names : Names db userId key view) :
    Answered (db.markCompleted (userIdempotencyScope userId) key status view orderId) := by
  intro row member completed other scope
  obtain ⟨before, old, made⟩ := List.mem_map.mp member
  by_cases named : before.scope = userIdempotencyScope userId ∧ before.key = key
  · rw [if_pos named] at made
    cases made
    have same : userId = other := userIdempotencyScope_inj userId other (named.1.symm.trans scope)
    subst same
    exact ⟨view, rfl, named.2.symm ▸ names⟩
  · rw [if_neg named] at made
    subst made
    exact answered before old completed other scope

theorem toView_id (order : Order) (view : OrderView) (made : toView order = .ok view) :
    view.id = order.id := by
  simp only [toView, bind_eq_ok] at made
  obtain ⟨_, -, _, -, same⟩ := made
  cases same
  rfl

theorem findById_ok {db : Db} {orderId : Nat} {order : Order}
    (read : findById db orderId = .ok (some order)) :
    ∃ row ∈ db.orders, row.id = orderId ∧ order.id = some orderId ∧ order.status = row.status := by
  unfold findById at read
  split at read
  · cases read
  · rename_i row found
    have named := findOrder_id db orderId row found
    cases made : toDomainOrder row (db.itemRowsOf orderId) with
    | error message =>
        rw [made] at read
        cases read
    | ok domain =>
        rw [made] at read
        cases read
        obtain ⟨items, -, same⟩ := (bind_eq_ok _ _ _).mp made
        cases same
        exact ⟨row, List.mem_of_find?_eq_some found, named, congrArg some named, rfl⟩

/-! ## The Try's result -/

theorem mem_updateOrder {db : Db} {orderId : Nat} {row : OrderRow} (set : OrderRow → OrderRow)
    (found : db.findOrder orderId = some row) : set row ∈ (db.updateOrder orderId set).orders := by
  have moved : (if row.id = orderId then set row else row) = set row :=
    if_pos (findOrder_id db orderId row found)
  exact List.mem_map.mpr ⟨row, List.mem_of_find?_eq_some found, moved⟩

/-- A held Try leaves its order placed under its key, with the key's answer a view of it. -/
theorem placeHeld_moved {db next : Db} {orderId : Nat} {order : Order} {key : Option String}
    {outboxId : Nat} {row : OrderRow} (keyed : Keyed db)
    (found : db.findOrder orderId = some row) (named : order.id = some orderId)
    (status : order.status = row.status) (user : order.userId = row.userId)
    (held : key = row.idempotencyKey)
    (success : placeHeld db orderId order key outboxId = .ok next) :
    Moved db next ∧ (Answered db → Answered next) ∧ Past next orderId := by
  simp only [placeHeld, bind_eq_ok] at success
  obtain ⟨placed, confirmed, event, -, appended, written, final⟩ := success
  obtain ⟨edge, rfl⟩ := Order.moveTo_ok order placed _ _ confirmed
  have shape := append_ok _ appended _ _ written
  have orders : appended.orders =
      (db.updateOrder orderId fun row => { row with status := .pending }).orders := by rw [shape]
  have keys : appended.idempotencyKeys = db.idempotencyKeys := by rw [shape]; rfl
  have visible : Visible .pending := by decide
  have moved : Moved db appended := moved_of_update _ keyed found orders
    ⟨rfl, rfl, .inr ⟨status ▸ edge, visible.1⟩, .inl rfl⟩
  have kept (answered : Answered db) : Answered appended :=
    moved.evolves.answered answered fun _ member => .inl (keys ▸ member)
  have now : { row with status := .pending } ∈ appended.orders :=
    orders ▸ mem_updateOrder (fun row => { row with status := .pending }) found
  have rowId := findOrder_id db orderId row found
  cases key with
  | none =>
      cases final
      exact ⟨moved, kept, _, now, rowId, visible⟩
  | some key =>
      obtain ⟨view, made, same⟩ := (bind_eq_ok _ _ _).mp final
      cases same
      have names : Names appended order.userId key view :=
        ⟨orderId, (toView_id _ _ made).trans named, _, now, rowId, user.symm, held.symm, visible⟩
      exact ⟨moved.congr rfl, fun answered =>
        answered_markCompleted 201 orderId (kept answered) names,
        _, now, rowId, visible⟩

theorem applyTryResult_moved {db next : Db} {orderId : Nat} {outcome : ReserveOutcome}
    {reason : String} {outboxId : Nat} {now : Int} {result : SagaWriteResult} (keyed : Keyed db)
    (success : applyTryResult db orderId outcome reason outboxId now = .ok (result, next)) :
    Moved db next ∧ (Answered db → Answered next) ∧
      (outcome = .held → (∃ row, db.findOrder orderId = some row ∧ row.status ≠ .rejected) →
        Past next orderId) := by
  simp only [applyTryResult, bind_eq_ok] at success
  obtain ⟨locked, lock, success⟩ := success
  cases locked with
  | none =>
      cases success
      refine ⟨moved_of_same keyed rfl, id, ?_⟩
      rintro - ⟨row, found, -⟩
      simp [Db.lockOrder, found, bind_eq_ok] at lock
  | some pair =>
      obtain ⟨order, key⟩ := pair
      obtain ⟨row, found, named, status, user, held⟩ := lockOrder_ok db orderId order key lock
      have unmoved : order.status ≠ .reserving → (∃ row, db.findOrder orderId = some row ∧
          row.status ≠ .rejected) → Past db orderId := by
        rintro elsewhere ⟨row', found', unrejected⟩
        obtain rfl := Option.some.inj (found.symm.trans found')
        exact ⟨row, List.mem_of_find?_eq_some found, findOrder_id db orderId row found,
          status ▸ elsewhere, unrejected⟩
      simp only at success
      by_cases already : order.status = (if outcome = .held then OrderStatus.pending else .rejected)
      · rw [if_pos already] at success
        cases success
        refine ⟨moved_of_same keyed rfl, id, fun isHeld => unmoved ?_⟩
        rw [already, if_pos isHeld]
        decide
      rw [if_neg already] at success
      by_cases stale : order.status ≠ .reserving
      · rw [if_pos stale] at success
        cases success
        exact ⟨moved_of_same keyed rfl, id, fun _ => unmoved stale⟩
      rw [if_neg stale] at success
      by_cases refused : outcome ≠ .held
      · rw [if_pos refused] at success
        obtain ⟨rejected, moved, same⟩ := (bind_eq_ok _ _ _).mp success
        cases same
        obtain ⟨edge, rfl⟩ := Order.moveTo_ok order rejected _ _ moved
        have moved := moved_of_update
          (fun row =>
            { row with
              status := .rejected
              finalizedAt := some now
              finalizeReason := some reason
              idempotencyKey := none }) keyed found rfl
          ⟨rfl, rfl, .inr ⟨status ▸ edge, OrderStatus.noConfusion⟩, .inr ⟨rfl, rfl⟩⟩
        exact ⟨moved, fun answered => moved.evolves.answered answered fun _ member => .inl member,
          fun isHeld => absurd isHeld refused⟩
      rw [if_neg refused] at success
      obtain ⟨placed, written, same⟩ := (bind_eq_ok _ _ _).mp success
      cases same
      obtain ⟨moved, kept, past⟩ :=
        placeHeld_moved keyed found named status user held written
      exact ⟨moved, kept, fun _ _ => past⟩

/-! ## The checkout's write and the sweep -/

structure Adds (db next : Db) (order : Order) (key : String) (orderId : Nat) (row : OrderRow) :
    Prop where
  orders : next.orders = db.orders ++ [row]
  absent : ∀ other ∈ db.orders, other.id ≠ orderId
  unused : ∀ other ∈ db.orders, other.userId = order.userId → other.idempotencyKey ≠ some key
  free : db.inFlight order.userId < maxPendingOrdersPerUser
  id : row.id = orderId
  user : row.userId = order.userId
  named : row.idempotencyKey = some key
  status : row.status = order.status

theorem createReserving_cases {db next : Db} {order : Order} {key : String} {orderId : Nat}
    {itemIds : List Nat} {result : ReservingCreateResult}
    (success : createReserving db order (some key) orderId itemIds = .ok (result, next)) :
    (next = db ∧ result.created = false ∧ ∃ row ∈ db.orders, row.userId = order.userId ∧
      row.idempotencyKey = some key ∧ result.order.id = some row.id ∧
      result.order.status = row.status) ∨
    (result.created = true ∧ result.order = { order with id := some orderId } ∧
      next.idempotencyKeys = db.idempotencyKeys ∧ ∃ row, Adds db next order key orderId row) := by
  unfold createReserving at success
  split at success
  · rename_i existing found
    obtain ⟨placed, made, same⟩ := (bind_eq_ok _ _ _).mp success
    cases same
    simp only [toDomainOrder, bind_eq_ok] at made
    obtain ⟨_, -, made⟩ := made
    cases made
    unfold Db.existingUnder at found
    simp only at found
    split at found
    · cases found
    have matched := List.find?_some found
    simp only [Bool.and_eq_true, beq_iff_eq] at matched
    exact .inl ⟨rfl, rfl, existing, List.mem_of_find?_eq_some found, matched.2, matched.1, rfl, rfl⟩
  · split at success
    · cases success
    rename_i below
    obtain ⟨inserted, insertion, same⟩ := (bind_eq_ok _ _ _).mp success
    cases same
    unfold Db.insertOrder at insertion
    simp only at insertion
    split_ifs at insertion with taken keyTaken itemTaken
    cases insertion
    refine .inr ⟨rfl, rfl, rfl, _, ⟨rfl, ?_, ?_, Nat.lt_of_not_le below, rfl, rfl, rfl, rfl⟩⟩
    · intro other member named
      exact taken (List.any_eq_true.mpr ⟨other, member, by simp [named]⟩)
    · intro other member user named
      exact keyTaken (by simpa using ⟨other, member, user, named⟩)

namespace Adds

variable {db next : Db} {order : Order} {key : String} {orderId : Nat} {row : OrderRow}

theorem evolves (adds : Adds db next order key orderId row) : Evolves db next [row] where
  kept := by
    intro other member _
    exact ⟨other, adds.orders ▸ List.mem_append_left _ member, .refl other⟩
  origin := by
    rw [adds.orders]
    intro later member
    rcases List.mem_append.mp member with old | new
    · exact .inr ⟨later, old, .refl later⟩
    · exact .inl new

theorem keyed (adds : Adds db next order key orderId row) (keyed : Keyed db) : Keyed next where
  ids := by
    rw [adds.orders, List.map_append, List.map_singleton]
    refine List.nodup_append.mpr ⟨keyed.ids, List.nodup_singleton _, ?_⟩
    intro id member other same
    obtain ⟨before, old, rfl⟩ := List.mem_map.mp member
    rw [List.mem_singleton.mp same, adds.id]
    exact adds.absent before old
  keys := by
    rw [adds.orders]
    intro first memFirst second memSecond user same unset
    rcases List.mem_append.mp memFirst with one | one <;>
      rcases List.mem_append.mp memSecond with other | other
    · exact keyed.keys first one second other user same unset
    · rw [List.mem_singleton.mp other] at user same
      exact absurd (same.trans adds.named) (adds.unused first one (user.trans adds.user))
    · rw [List.mem_singleton.mp one] at user same
      exact absurd (same.symm.trans adds.named)
        (adds.unused second other (user.symm.trans adds.user))
    · rw [List.mem_singleton.mp one, List.mem_singleton.mp other]
  capped := by
    intro userId
    have count : next.inFlight userId = db.inFlight userId +
        if row.userId = userId ∧ inFlightStatuses.contains row.status = true then 1 else 0 := by
      rw [Db.inFlight, adds.orders, List.filter_append, List.length_append]
      congr 1
      simp only [List.filter_singleton, Bool.cond_eq_ite, Bool.and_eq_true, beq_iff_eq]
      split_ifs <;> rfl
    have bound := keyed.capped userId
    have free := adds.free
    rw [count]
    split_ifs with counted
    · rw [← counted.1, adds.user]
      omega
    · exact bound

end Adds

theorem deleteRejectedBefore_moved {db : Db} (cutoff : Int) (batch : List Nat)
    (keyed : Keyed db) : Moved db (deleteRejectedBefore db cutoff batch) where
  keyed :=
    { ids := keyed.ids.sublist (List.filter_sublist.map _)
      keys := fun first memFirst second memSecond =>
        keyed.keys first (List.mem_of_mem_filter memFirst) second (List.mem_of_mem_filter memSecond)
      capped := fun userId =>
        Nat.le_trans (List.filter_sublist.filter _).length_le (keyed.capped userId) }
  evolves :=
    { kept := by
        intro row member unrejected
        refine ⟨row, List.mem_filter.mpr ⟨member, ?_⟩, .refl row⟩
        simp [unrejected]
      origin := fun later member => .inr ⟨later, List.mem_of_mem_filter member, .refl later⟩ }

end Commerce.Orders
