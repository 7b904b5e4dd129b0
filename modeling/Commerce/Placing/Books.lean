import Commerce.Orders.Ownership
import Commerce.Placing.Interleaving
import Commerce.Saga.Pending

/-!
# The books

What the order table keeps by itself, whatever the requests, the sagas and the
sweeps do and in whatever order: one unrejected order for each user and key,
every key with its writer, and the cap on orders in flight.
-/

set_option autoImplicit false

namespace Commerce.Placing

open Commerce.Orders
open Results
open Runs

/-! ## The books: orders, the ids handed out, who wrote what under which key -/

def Awaiting.Drafted (userId : Nat) : Awaiting → Prop
  | .create _ draft => draft.userId = userId
  | _ => True

def Phase.Drafted (userId : Nat) : Phase → Prop
  | .asked awaiting | .answered awaiting _ => awaiting.Drafted userId
  | .finished _ => True

structure Books (world : World) : Prop where
  keyed : Keyed world.db
  known : ∀ row ∈ world.db.orders, row.id ∈ world.minted
  owned : ∀ creation ∈ world.created, creation.orderId ∈ world.minted ∧
    Owned world.db creation.userId creation.key creation.orderId
  listed : ∀ row ∈ world.db.orders, ∀ key, row.idempotencyKey = some key →
    ⟨row.userId, key, row.id⟩ ∈ world.created
  drafted : ∀ slot process, world.requests slot = some process →
    process.phase.Drafted process.request.userId

/-- What one step may do to the order table. -/
inductive TableStep (before after : World) : Prop
  | moved (moved : Moved before.db after.db) (created : after.created = before.created)
      (minted : ∀ id ∈ before.minted, id ∈ after.minted)
  | added (userId orderId : Nat) (key : String) (order : Order) (row : OrderRow)
      (adds : Adds before.db after.db order key orderId row) (user : order.userId = userId)
      (created : after.created = before.created ++ [⟨userId, key, orderId⟩])
      (fresh : orderId ∉ before.minted) (now : orderId ∈ after.minted)
      (minted : ∀ id ∈ before.minted, id ∈ after.minted)

theorem TableStep.of_db {before after : World} (keyed : Keyed before.db)
    (orders : after.db.orders = before.db.orders) (created : after.created = before.created)
    (minted : ∀ id ∈ before.minted, id ∈ after.minted) : TableStep before after :=
  .moved (moved_of_same keyed orders) created minted

theorem TableStep.books {before after : World} (table : TableStep before after)
    (books : Books before)
    (drafted : ∀ slot process, after.requests slot = some process →
      process.phase.Drafted process.request.userId) :
    Books after := by
  cases table with
  | moved moved created minted =>
      refine ⟨moved.keyed, ?_, ?_, ?_, drafted⟩
      · intro later member
        rcases moved.evolves.origin later member with new | ⟨row, old, moves⟩
        · cases new
        · exact moves.id ▸ minted row.id (books.known row old)
      · intro creation member
        obtain ⟨known, owned⟩ := books.owned creation (created ▸ member)
        exact ⟨minted _ known, moved.evolves.owned (fun _ none => nomatch none) owned⟩
      · intro later member key held
        rcases moved.evolves.origin later member with new | ⟨row, old, moves⟩
        · cases new
        · rcases moves.key with same | ⟨-, cleared⟩
          · have listed := books.listed row old key (same ▸ held)
            rw [created, moves.user, moves.id]
            exact listed
          · rw [cleared] at held
            cases held
  | added userId orderId key order row adds user created fresh now minted =>
      refine ⟨adds.keyed books.keyed, ?_, ?_, ?_, drafted⟩
      · rw [adds.orders]
        intro later member
        rcases List.mem_append.mp member with old | new
        · exact minted _ (books.known later old)
        · rw [List.mem_singleton.mp new, adds.id]
          exact now
      · rw [created]
        intro creation member
        rcases List.mem_append.mp member with old | new
        · obtain ⟨known, owned⟩ := books.owned creation old
          refine ⟨minted _ known, adds.evolves.owned ?_ owned⟩
          intro added itself same
          rw [List.mem_singleton.mp itself, adds.id] at same
          exact fresh (same ▸ known)
        · rw [List.mem_singleton.mp new]
          refine ⟨now, ?_⟩
          rw [Owned, adds.orders]
          intro later member same
          rcases List.mem_append.mp member with old | itself
          · exact absurd same (adds.absent later old)
          · rw [List.mem_singleton.mp itself]
            exact ⟨adds.user.trans user, .inr adds.named⟩
      · rw [adds.orders, created]
        intro later member other held
        rcases List.mem_append.mp member with old | itself
        · exact List.mem_append_left _ (books.listed later old other held)
        · rw [List.mem_singleton.mp itself] at held ⊢
          obtain rfl := Option.some.inj (adds.named.symm.trans held)
          rw [adds.user, adds.id, user]
          exact List.mem_append_right _ (List.mem_singleton_self _)

theorem TableStep.evolves {before after : World} (table : TableStep before after) :
    ∃ added, Evolves before.db after.db added := by
  cases table with
  | moved moved => exact ⟨[], moved.evolves⟩
  | added userId orderId key order row adds => exact ⟨[row], adds.evolves⟩

theorem TableStep.created {before after : World} (table : TableStep before after)
    (creation : Creation) (member : creation ∈ before.created) : creation ∈ after.created := by
  cases table with
  | moved moved created => exact created ▸ member
  | added userId orderId key order row adds user created =>
      exact created ▸ List.mem_append_left _ member

/-! ## What each event does to the books -/

theorem mint_some {world next : World} {ids : List Nat} (minted : world.mint ids = some next) :
    (∀ id ∈ ids, id ∉ world.minted) ∧ next = { world with minted := world.minted ++ ids } := by
  unfold World.mint at minted
  split at minted
  · rename_i fresh
    cases minted
    exact ⟨fresh.2, rfl⟩
  · cases minted

structure OffTable (before after : World) : Prop where
  db : after.db = before.db
  created : after.created = before.created
  minted : after.minted = before.minted
  requests : after.requests = before.requests
  answers : after.answers = before.answers

theorem OffTable.table {before after : World} (off : OffTable before after) (books : Books before) :
    TableStep before after :=
  .of_db books.keyed (congrArg Db.orders off.db) off.created fun _ member => off.minted ▸ member

theorem offTable_reserve {world next : World} {orderId : Nat} {input : Saga.CheckoutSagaInput}
    {given : Given} {reply : Reply}
    (served : world.reserve orderId input given = some (next, reply)) : OffTable world next := by
  unfold World.reserve at served
  split at served
  · split at served <;> cases served
    exact ⟨rfl, rfl, rfl, rfl, rfl⟩
  · split at served
    · cases served
    · split at served <;> cases served <;> exact ⟨rfl, rfl, rfl, rfl, rfl⟩

theorem offTable_notifyAuthorized {settings : Settings} {world next : World} {orderId run : Nat}
    {authorization : Saga.PaymentAuthorization} {nowMs : Int}
    (stepped : world.notifyAuthorized settings orderId authorization run nowMs = some next) :
    OffTable world next := by
  unfold World.notifyAuthorized at stepped
  split at stepped
  · split at stepped
    · cases stepped
    · dsimp only at stepped
      split at stepped
      · rename_i signalled
        cases stepped
        simp only [Option.bind_eq_bind, Option.bind_eq_some_iff] at signalled
        obtain ⟨_, -, next, -, same⟩ := signalled
        cases same
        exact ⟨rfl, rfl, rfl, rfl, rfl⟩
      · split at stepped
        · obtain ⟨_, -, rfl⟩ := Option.map_eq_some_iff.mp stepped
          exact ⟨rfl, rfl, rfl, rfl, rfl⟩
        · cases stepped
  · cases stepped

/-- The order table along a served call, whose own effect leaves requests and answers alone. -/
theorem call_table {settings : Settings} {world next : World} {process : Process} {given : Given}
    {awaiting : Awaiting} {reply : Reply} (books : Books world)
    (drafted : awaiting.Drafted process.request.userId)
    (served : world.call settings process given awaiting = some (next, reply)) :
    TableStep world next ∧ next.requests = world.requests ∧ next.answers = world.answers := by
  have still : TableStep world world := .of_db books.keyed rfl rfl fun _ member => member
  have keysOnly (db : Db) (orders : db.orders = world.db.orders) :
      TableStep world { world with db } := .of_db books.keyed orders rfl fun _ member => member
  cases awaiting with
  | lookup | lookupAgain | snapshot | expire | complete | cleanup =>
      cases served
      first
      | exact ⟨still, rfl, rfl⟩
      | exact ⟨keysOnly _ rfl, rfl, rfl⟩
  | insert | reclaim =>
      simp only [World.call] at served
      split at served
      · rename_i id _
        obtain ⟨minted, mint, same⟩ := Option.bind_eq_some_iff.mp served
        obtain ⟨-, rfl⟩ := mint_some mint
        cases same
        refine ⟨.of_db books.keyed ?_ rfl fun _ member => List.mem_append_left _ member, rfl, rfl⟩
        exact Db.tryInsertInProgress_orders world.db id _ _ _ _ _
      · cases served
  | create claimId draft =>
      simp only [World.call] at served
      split at served
      · rename_i orderId itemIds _
        obtain ⟨minted, mint, served⟩ := Option.bind_eq_some_iff.mp served
        obtain ⟨fresh, rfl⟩ := mint_some mint
        split at served
        · unfold World.create at served
          split at served
          · rename_i result db success
            cases served
            have kept (id : Nat) (member : id ∈ world.minted) :
                id ∈ world.minted ++ orderId :: itemIds := List.mem_append_left _ member
            rcases createReserving_cases success with ⟨rfl, refound, -⟩ | ⟨new, -, -, row, adds⟩
            · refine ⟨.of_db books.keyed rfl ?_ kept, rfl, rfl⟩
              simp [refound]
            · refine ⟨.added process.request.userId orderId process.request.key draft row adds
                drafted ?_ (fresh orderId List.mem_cons_self) ?_ kept, rfl, rfl⟩
              · simp [new]
              · exact List.mem_append_right _ List.mem_cons_self
          · split at served <;> cases served
            exact ⟨.of_db books.keyed rfl rfl fun _ member => List.mem_append_left _ member, rfl,
              rfl⟩
        · cases served
      · cases served
  | reserve claimId order created orderId input =>
      have off := offTable_reserve served
      exact ⟨off.table books, off.requests, off.answers⟩
  | outcome claimId order created orderId run =>
      simp only [World.call] at served
      split at served
      · split at served <;> cases served
        exact ⟨still, rfl, rfl⟩
      · cases served
  | readAfterClose claimId orderId =>
      simp only [World.call] at served
      split at served <;> cases served
      exact ⟨still, rfl, rfl⟩

theorem draftOf_user {settings : Settings} {userId : Nat} {nowMs : Int}
    {lines : List OrderCartLine} {views : List OrderSkuView} {draft : Order}
    (made : draftOf settings userId nowMs lines views = .ok draft) : draft.userId = userId := by
  simp only [draftOf, bind_eq_ok] at made
  obtain ⟨⟨currency, items⟩, -, created, creation, reserved⟩ := made
  have owner : created.userId = userId := by
    cases success : Order.create userId currency items with
    | error message =>
        rw [success] at creation
        cases creation
    | ok order =>
        rw [success] at creation
        cases creation
        unfold Order.create at success
        split at success
        · cases success
        · split at success
          · cases success
          · simp only [bind_eq_ok] at success
            obtain ⟨_, -, _, -, same⟩ := success
            cases same
            rfl
  cases moved : created.reserve nowMs (nowMs + settings.paymentDeadlineMs) with
  | error message =>
      rw [moved] at reserved
      cases reserved
  | ok order =>
      rw [moved] at reserved
      cases reserved
      obtain ⟨-, rfl⟩ := Order.moveTo_ok created _ _ _ moved
      exact owner

theorem drafted_proceed {settings : Settings} {request : Request} {nowMs : Int}
    {awaiting : Awaiting} {reply : Reply} {phase : Phase}
    (went : proceed settings request nowMs awaiting reply = some phase) :
    phase.Drafted request.userId := by
  unfold proceed at went
  split at went <;> cases went
  all_goals first | trivial | skip
  · rename_i existing
    rcases judge_cases settings request nowMs existing with ⟨_, same⟩ | ⟨-, same⟩ | same <;>
      rw [same] <;> trivial
  · rename_i existing
    rcases judge_cases settings request nowMs existing with ⟨_, same⟩ | ⟨-, same⟩ | same <;>
      rw [same] <;> trivial
  · unfold afterSnapshot
    split
    · trivial
    · rename_i draft made
      exact draftOf_user made
  · rename_i claimId draft result
    rcases afterCreate_cases settings claimId nowMs result with
      ⟨_, same⟩ | ⟨-, -, _, -, same⟩ | ⟨_, _, -, same⟩ <;> rw [same] <;> trivial
  · rename_i claimId order created orderId run outcome
    rcases afterOutcome_cases claimId order created orderId outcome with
      ⟨_, same⟩ | ⟨-, _, -, same | same⟩ <;> rw [same] <;> trivial
  · rename_i claimId orderId found
    rcases afterClose_cases claimId orderId found with ⟨_, same⟩ | ⟨_, -, -, -, _, -, same⟩ <;>
      rw [same] <;> trivial

theorem drafted_fail (userId : Nat) (failure : Failure) (awaiting : Awaiting) :
    (fail failure awaiting).Drafted userId := by
  unfold fail
  split <;> trivial

@[simp] theorem record_db (world : World) (request : Request) (phase : Phase) :
    (world.record request phase).db = world.db := by
  unfold World.record
  split <;> rfl

@[simp] theorem record_created (world : World) (request : Request) (phase : Phase) :
    (world.record request phase).created = world.created := by
  unfold World.record
  split <;> rfl

@[simp] theorem record_minted (world : World) (request : Request) (phase : Phase) :
    (world.record request phase).minted = world.minted := by
  unfold World.record
  split <;> rfl

@[simp] theorem record_requests (world : World) (request : Request) (phase : Phase) :
    (world.record request phase).requests = world.requests := by
  unfold World.record
  split <;> rfl

theorem requests_update {requests : Nat → Option Process} {slot : Nat} {process : Process}
    (Holds : Process → Prop)
    (others : ∀ other process, requests other = some process → Holds process)
    (here : Holds process) :
    ∀ other later, Function.update requests slot (some process) other = some later →
      Holds later := by
  intro other later found
  by_cases itself : other = slot
  · subst itself
    rw [Function.update_self] at found
    cases found
    exact here
  · rw [Function.update_of_ne itself] at found
    exact others other later found

theorem requests_drop {requests : Nat → Option Process} {slot : Nat} (Holds : Process → Prop)
    (others : ∀ other process, requests other = some process → Holds process) :
    ∀ other later, Function.update requests slot none other = some later → Holds later := by
  intro other later found
  by_cases itself : other = slot
  · subst itself
    rw [Function.update_self] at found
    cases found
  · rw [Function.update_of_ne itself] at found
    exact others other later found

theorem Books.of_same {before after : World} (books : Books before) (db : after.db = before.db)
    (created : after.created = before.created) (minted : after.minted = before.minted)
    (drafted : ∀ slot process, after.requests slot = some process →
      process.phase.Drafted process.request.userId) : Books after :=
  (TableStep.of_db books.keyed (congrArg Db.orders db) created
    fun _ member => minted ▸ member).books books drafted

theorem books_setPhase {world : World} {slot : Nat} {process : Process} {phase : Phase}
    (books : Books world) (drafted : phase.Drafted process.request.userId) :
    Books (world.setPhase slot process phase) :=
  books.of_same rfl rfl rfl
    (requests_update (fun process => process.phase.Drafted process.request.userId)
      books.drafted drafted)

theorem perform_moved {db : Db} (keyed : Keyed db) (orderId : Nat)
    (change : Saga.OrderChangeCommand) (outboxId : Nat) (now : Int) :
    Moved db (perform db (.applyOrderChange orderId change.source change.target change.reason
      change.paymentRef outboxId now)) ∧
      (perform db (.applyOrderChange orderId change.source change.target change.reason
        change.paymentRef outboxId now)).idempotencyKeys = db.idempotencyKeys := by
  unfold perform
  split
  · rename_i answer next success
    simp only [transaction, bind_eq_ok] at success
    obtain ⟨⟨result, written⟩, success, same⟩ := success
    cases same
    exact applyOrderChange_moved keyed success
  · exact ⟨moved_of_same keyed rfl, rfl⟩

/-- Steps in which no request moves. -/
def Background : Event → Prop
  | .arrive .. | .serve .. | .proceed .. | .fail .. | .die .. => False
  | _ => True

/-- What the saga runs, the reaper and the sweeps do to the order table. -/
theorem background_table {settings : Settings} {world next : World} {event : Event}
    (books : Books world) (background : Background event)
    (stepped : step settings world event = some next) :
    TableStep world next ∧ next.requests = world.requests ∧ next.answers = world.answers := by
  have still (same : next.db = world.db) (created : next.created = world.created)
      (minted : next.minted = world.minted) : TableStep world next :=
    .of_db books.keyed (congrArg Db.orders same) created fun _ member => minted ▸ member
  cases event with
  | arrive | serve | proceed | fail | die => exact background.elim
  | saga run event =>
      simp only [step] at stepped
      split at stepped
      · split at stepped
        · obtain ⟨_, -, rfl⟩ := Option.map_eq_some_iff.mp stepped
          exact ⟨still rfl rfl rfl, rfl, rfl⟩
        · cases stepped
      · cases stepped
  | dispatchTry run =>
      simp only [step] at stepped
      split at stepped
      · split at stepped <;> cases stepped
        exact ⟨still rfl rfl rfl, rfl, rfl⟩
      · cases stepped
  | writeTry position outboxId now =>
      simp only [step] at stepped
      split at stepped
      · split at stepped
        · split at stepped <;> cases stepped
          rename_i success
          obtain ⟨moved, -⟩ := applyTryResult_moved books.keyed success
          exact ⟨.moved moved rfl fun _ member => member, rfl, rfl⟩
        · cases stepped
      · cases stepped
  | changeOrder orderId change outboxId now =>
      cases stepped
      obtain ⟨moved, -⟩ := perform_moved books.keyed orderId change outboxId now
      exact ⟨.moved moved rfl fun _ member => member, rfl, rfl⟩
  | notifyAuthorized orderId authorization run nowMs =>
      have off := offTable_notifyAuthorized stepped
      exact ⟨off.table books, off.requests, off.answers⟩
  | reap nowMs limit =>
      simp only [step] at stepped
      split at stepped <;> cases stepped
      exact ⟨still rfl rfl rfl, rfl, rfl⟩
  | handBack position run nowMs =>
      simp only [step] at stepped
      split at stepped
      · split at stepped
        · split at stepped <;> cases stepped
          exact ⟨still rfl rfl rfl, rfl, rfl⟩
        · cases stepped
      · cases stepped
  | forget orderId =>
      simp only [step] at stepped
      split at stepped
      · split at stepped <;> cases stepped
        exact ⟨still rfl rfl rfl, rfl, rfl⟩
      · cases stepped
  | sweepKeys nowMs batch =>
      cases stepped
      exact ⟨.of_db books.keyed rfl rfl fun _ member => member, rfl, rfl⟩
  | sweepRejected cutoff batch =>
      cases stepped
      exact ⟨.moved (deleteRejectedBefore_moved cutoff batch books.keyed) rfl fun _ member =>
        member,
        rfl, rfl⟩

theorem books_step {settings : Settings} (world : World) (event : Event) (next : World)
    (books : Books world) (stepped : step settings world event = some next) : Books next := by
  by_cases background : Background event
  · obtain ⟨table, requests, -⟩ := background_table books background stepped
    exact table.books books (requests ▸ books.drafted)
  cases event with
  | arrive slot request nowMs =>
      simp only [step] at stepped
      split at stepped <;> cases stepped
      exact books.of_same rfl rfl rfl (requests_update
        (fun process => process.phase.Drafted process.request.userId)
        books.drafted trivial)
  | serve slot given =>
      simp only [step] at stepped
      split at stepped
      · rename_i process known
        split at stepped
        · rename_i awaiting waiting
          obtain ⟨⟨served, reply⟩, called, rfl⟩ := Option.map_eq_some_iff.mp stepped
          have drafted := books.drafted slot process known
          rw [waiting] at drafted
          obtain ⟨table, requests, -⟩ := call_table books drafted called
          exact books_setPhase (table.books books (requests ▸ books.drafted)) drafted
        · cases stepped
      · cases stepped
  | proceed slot nowMs =>
      simp only [step] at stepped
      split at stepped
      · rename_i process known
        split at stepped
        · obtain ⟨phase, went, rfl⟩ := Option.map_eq_some_iff.mp stepped
          have moved : Books (world.setPhase slot process phase) :=
            books_setPhase books (drafted_proceed went)
          exact moved.of_same (record_db _ _ _) (record_created _ _ _) (record_minted _ _ _)
            (by rw [record_requests]; exact moved.drafted)
        · cases stepped
      · cases stepped
  | fail slot failure =>
      simp only [step] at stepped
      split at stepped
      · split at stepped
        · exact Option.some.inj stepped ▸ books_setPhase books (drafted_fail _ failure _)
        · exact Option.some.inj stepped ▸ books_setPhase books (drafted_fail _ failure _)
        · cases stepped
      · cases stepped
  | die slot =>
      cases stepped
      exact books.of_same rfl rfl rfl (requests_drop
        (fun process => process.phase.Drafted process.request.userId) books.drafted)
  | _ => exact absurd trivial background

end Commerce.Placing
