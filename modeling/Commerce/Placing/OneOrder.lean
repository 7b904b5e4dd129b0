import Commerce.Placing.Books
import Commerce.Saga.Pending

/-!
# One order under a key

At most one unrejected order for a user and key, and never more orders in
flight than the cap: the books say so of every run.  That all success answers
under a key name one order also needs that no Try is held after its order was
rejected: the saga answers `HELD` although the order is not placed.
-/

set_option autoImplicit false

namespace Commerce.Placing

open Commerce.Orders
open Runs

/-! ## What a waiting request may rely on -/

def Request.Wrote (world : World) (request : Request) (orderId : Nat) : Prop :=
  ⟨request.userId, request.key, orderId⟩ ∈ world.created

def Awaiting.Sound (world : World) (request : Request) : Awaiting → Prop
  | .reserve _ reused _ orderId _ => reused.id = some orderId ∧ request.Wrote world orderId
  | .outcome _ reused _ orderId run =>
      reused.id = some orderId ∧ request.Wrote world orderId ∧
        ∃ state, world.runs run = some (orderId, state)
  | .readAfterClose _ orderId => request.Wrote world orderId
  | .complete _ view => Names world.db request.userId request.key view
  | _ => True

def Reply.Sound (world : World) (request : Request) : Awaiting → Reply → Prop
  | _, .record (some row) => row.completed = true →
      ∃ view, row.responseBody = some view ∧ Names world.db request.userId request.key view
  | _, .reserving result => ∃ orderId, result.order.id = some orderId ∧
      request.Wrote world orderId ∧
        (Visible result.order.status → Placed world.db request.userId request.key orderId)
  | .reserve _ _ _ orderId _, .attached run => ∃ state, world.runs run = some (orderId, state)
  | .outcome _ _ _ orderId _, .tried outcome =>
      outcome = .held → Placed world.db request.userId request.key orderId
  | .readAfterClose _ orderId, .order (some found) => found.id = some orderId ∧
      (Visible found.status → Placed world.db request.userId request.key orderId)
  | _, _ => True

def Phase.Sound (world : World) (request : Request) : Phase → Prop
  | .asked awaiting => awaiting.Sound world request
  | .answered awaiting reply => awaiting.Sound world request ∧ reply.Sound world request awaiting
  | .finished (.success _ body) =>
      ∃ view, body = some view ∧ Names world.db request.userId request.key view
  | .finished (.failure _) => True

/-- The engine's runs: a run whose Try was held has an order past its Try. -/
structure Engine (world : World) : Prop where
  current : ∀ orderId run, world.current orderId = some run →
    ∃ state, world.runs run = some (orderId, state)
  tried : ∀ run orderId state, world.runs run = some (orderId, state) →
    state.tryRun = .done .held → Past world.db orderId
  written : ∀ write result, (write, result) ∈ world.written →
    ∃ orderId state, world.runs write.run = some (orderId, state) ∧
      (write.outcome = .held → Past world.db orderId)

structure Told (world : World) : Prop where
  engine : Engine world
  answered : Answered world.db
  answers : ∀ answer ∈ world.answers, ∃ view, answer.body = some view ∧
    Names world.db answer.userId answer.key view
  sound : ∀ slot process, world.requests slot = some process →
    process.phase.Sound world process.request

/-- What every step keeps, for those who wait. -/
structure Extends (before after : World) : Prop where
  created : ∀ creation ∈ before.created, creation ∈ after.created
  evolves : ∃ added, Evolves before.db after.db added
  runs : ∀ run orderId state, before.runs run = some (orderId, state) →
    ∃ later, after.runs run = some (orderId, later)

namespace Extends

variable {before after : World} (extends' : Extends before after)
include extends'

theorem past (orderId : Nat) (past : Past before.db orderId) : Past after.db orderId := by
  obtain ⟨added, evolves⟩ := extends'.evolves
  exact evolves.past orderId past

theorem placed {userId orderId : Nat} {key : String}
    (placed : Placed before.db userId key orderId) :
    Placed after.db userId key orderId := by
  obtain ⟨added, evolves⟩ := extends'.evolves
  exact evolves.placed placed

theorem names {userId : Nat} {key : String} {view : OrderView}
    (names : Names before.db userId key view) : Names after.db userId key view := by
  obtain ⟨added, evolves⟩ := extends'.evolves
  exact evolves.names names

theorem run {run orderId : Nat} (known : ∃ state, before.runs run = some (orderId, state)) :
    ∃ state, after.runs run = some (orderId, state) := by
  obtain ⟨state, known⟩ := known
  exact extends'.runs run orderId state known

theorem awaiting {request : Request} (awaiting : Awaiting) (sound : awaiting.Sound before request) :
    awaiting.Sound after request := by
  cases awaiting with
  | reserve claimId order created orderId start => exact ⟨sound.1, extends'.created _ sound.2⟩
  | outcome claimId order created orderId run =>
      exact ⟨sound.1, extends'.created _ sound.2.1, extends'.run sound.2.2⟩
  | readAfterClose claimId orderId => exact extends'.created _ sound
  | complete claimId view => exact extends'.names sound
  | _ => trivial

theorem reply {request : Request} (awaiting : Awaiting) (reply : Reply)
    (sound : reply.Sound before request awaiting) : reply.Sound after request awaiting := by
  cases reply with
  | record found =>
      cases found with
      | none => cases awaiting <;> trivial
      | some row =>
          have later (completed : row.completed = true) : ∃ view, row.responseBody = some view ∧
              Names after.db request.userId request.key view := by
            have told : row.completed = true → ∃ view, row.responseBody = some view ∧
                Names before.db request.userId request.key view := by
              cases awaiting <;> exact sound
            obtain ⟨view, body, names⟩ := told completed
            exact ⟨view, body, extends'.names names⟩
          cases awaiting <;> exact later
  | reserving result =>
      have later : ∃ orderId, result.order.id = some orderId ∧ request.Wrote after orderId ∧
          (Visible result.order.status → Placed after.db request.userId request.key orderId) := by
        have told : ∃ orderId, result.order.id = some orderId ∧ request.Wrote before orderId ∧
            (Visible result.order.status →
              Placed before.db request.userId request.key orderId) := by
          cases awaiting <;> exact sound
        obtain ⟨orderId, named, wrote, placed⟩ := told
        exact ⟨orderId, named, extends'.created _ wrote, fun visible =>
          extends'.placed (placed visible)⟩
      cases awaiting <;> exact later
  | attached run =>
      cases awaiting with
      | reserve claimId order created orderId start => exact extends'.run sound
      | _ => trivial
  | tried outcome =>
      cases awaiting with
      | outcome claimId order created orderId run =>
          exact fun held => extends'.placed (sound held)
      | _ => trivial
  | order found =>
      cases found with
      | none => cases awaiting <;> trivial
      | some order =>
          cases awaiting with
          | readAfterClose claimId orderId =>
              exact ⟨sound.1, fun visible => extends'.placed (sound.2 visible)⟩
          | _ => trivial
  | _ => cases awaiting <;> trivial

theorem phase {request : Request} (phase : Phase) (sound : phase.Sound before request) :
    phase.Sound after request := by
  cases phase with
  | asked awaiting => exact extends'.awaiting awaiting sound
  | answered awaiting reply =>
      exact ⟨extends'.awaiting awaiting sound.1, extends'.reply awaiting reply sound.2⟩
  | finished response =>
      cases response with
      | failure thrown => trivial
      | success status body =>
          obtain ⟨view, answered, names⟩ := sound
          exact ⟨view, answered, extends'.names names⟩

end Extends

/-! ## Requests -/

theorem sound_judge {world : World} {settings : Settings} {request : Request} {nowMs : Int}
    {existing : IdempotencyRow} (told : existing.completed = true →
      ∃ view, existing.responseBody = some view ∧ Names world.db request.userId request.key view) :
    (judge settings request nowMs existing).Sound world request := by
  rcases judge_cases settings request nowMs existing with ⟨_, same⟩ | ⟨completed, same⟩ | same <;>
    rw [same]
  · trivial
  · exact told completed
  · trivial

/-- What a request does between two awaits rests on what it knew and what it was answered. -/
theorem sound_proceed {world : World} {settings : Settings} {request : Request} {nowMs : Int}
    {awaiting : Awaiting} {reply : Reply} {phase : Phase}
    (waiting : awaiting.Sound world request) (told : reply.Sound world request awaiting)
    (went : proceed settings request nowMs awaiting reply = some phase) :
    phase.Sound world request := by
  unfold proceed at went
  split at went <;> cases went
  all_goals first | trivial | exact sound_judge told | skip
  · unfold afterSnapshot
    split <;> trivial
  · rename_i claimId draft result
    obtain ⟨orderId, named, wrote, placed⟩ := told
    rcases afterCreate_cases settings claimId nowMs result with
      ⟨_, same⟩ | ⟨unreserving, unrejected, view, made, same⟩ | ⟨id, start, started, same⟩ <;>
      rw [same]
    · trivial
    · exact ⟨orderId, (toView_id _ view made).trans named, placed ⟨unreserving, unrejected⟩⟩
    · obtain rfl := Option.some.inj (named.symm.trans started)
      exact ⟨named, wrote⟩
  · exact ⟨waiting.1, waiting.2, told⟩
  · exact waiting.2
  · rename_i claimId order created orderId run outcome
    rcases afterOutcome_cases claimId order created orderId outcome with
      ⟨_, same⟩ | ⟨held, view, made, finished⟩
    · rw [same]
      trivial
    · obtain ⟨placed, named, viewed⟩ := heldView_ok made
      have names : Names world.db request.userId request.key view :=
        ⟨orderId, (toView_id _ view viewed).trans (named.trans waiting.1), told held⟩
      rcases finished with same | same <;> rw [same]
      · exact ⟨view, rfl, names⟩
      · exact names
  · rename_i claimId orderId found
    rcases afterClose_cases claimId orderId found with
      ⟨_, same⟩ | ⟨order, rfl, unreserving, unrejected, view, made, same⟩ <;> rw [same]
    · trivial
    · exact ⟨orderId, (toView_id _ view made).trans told.1, told.2 ⟨unreserving, unrejected⟩⟩
  · rename_i claimId view
    exact ⟨view, rfl, waiting⟩

theorem sound_fail (world : World) (request : Request) (failure : Failure) (awaiting : Awaiting) :
    (fail failure awaiting).Sound world request := by
  unfold fail
  split <;> trivial

/-! ## The engine -/

theorem extends_of_table {before after : World} (table : TableStep before after)
    (runs : ∀ run orderId state, before.runs run = some (orderId, state) →
      ∃ later, after.runs run = some (orderId, later)) : Extends before after :=
  ⟨table.created, table.evolves, runs⟩

theorem Engine.frame {before after : World} (engine : Engine before)
    (extends' : Extends before after)
    (runs : after.runs = before.runs) (current : after.current = before.current)
    (written : after.written = before.written) : Engine after where
  current := by
    rw [current, runs]
    exact engine.current
  tried := by
    rw [runs]
    exact fun run orderId state known done =>
      extends'.past orderId (engine.tried run orderId state known done)
  written := by
    rw [written, runs]
    intro write result member
    obtain ⟨orderId, state, known, past⟩ := engine.written write result member
    exact ⟨orderId, state, known, fun held => extends'.past orderId (past held)⟩

theorem runs_setRun {world : World} {run orderId : Nat} {state : Saga.Run} (next : Saga.Run)
    (known : world.runs run = some (orderId, state)) :
    ∀ other owner before, world.runs other = some (owner, before) →
      ∃ later, (world.setRun run orderId next).runs other = some (owner, later) := by
  intro other owner before found
  by_cases itself : other = run
  · subst itself
    obtain ⟨rfl, -⟩ := Prod.mk.inj (Option.some.inj (known.symm.trans found))
    exact ⟨next, Function.update_self ..⟩
  · exact ⟨before, (Function.update_of_ne itself _ _).trans found⟩

theorem runs_startRun {world : World} {run : Nat} (orderId : Nat)
    (input : Saga.CheckoutSagaInput) (nowMs : Int) (unused : world.runs run = none) :
    ∀ other owner before, world.runs other = some (owner, before) →
      ∃ later, (world.startRun run orderId input nowMs).runs other = some (owner, later) := by
  intro other owner before found
  have different : other ≠ run := by
    rintro rfl
    rw [unused] at found
    cases found
  exact ⟨before, (Function.update_of_ne different _ _).trans found⟩

theorem Engine.setRun {world : World} (engine : Engine world) {run orderId : Nat}
    {state next : Saga.Run} (known : world.runs run = some (orderId, state))
    (tried : next.tryRun = .done .held → Past world.db orderId) :
    Engine (world.setRun run orderId next) where
  current := by
    intro owner other now
    obtain ⟨before, found⟩ := engine.current owner other now
    exact runs_setRun _ known other owner before found
  tried := by
    intro other owner later found done
    by_cases itself : other = run
    · subst itself
      rw [World.setRun] at found
      simp only [Function.update_self, Option.some.injEq, Prod.mk.injEq] at found
      obtain ⟨rfl, rfl⟩ := found
      exact tried done
    · rw [World.setRun] at found
      simp only [Function.update_of_ne itself] at found
      exact engine.tried other owner later found done
  written := by
    intro write result member
    obtain ⟨owner, before, found, past⟩ := engine.written write result member
    obtain ⟨later, now⟩ := runs_setRun next known write.run owner before found
    exact ⟨owner, later, now, past⟩

theorem Engine.startRun {world : World} (engine : Engine world) {run orderId : Nat}
    {input : Saga.CheckoutSagaInput} {nowMs : Int} (unused : world.runs run = none) :
    Engine (world.startRun run orderId input nowMs) where
  current := by
    intro owner other now
    by_cases itself : owner = orderId
    · subst itself
      rw [World.startRun] at now
      simp only [Function.update_self, Option.some.injEq] at now
      subst now
      exact ⟨_, Function.update_self ..⟩
    · rw [World.startRun] at now
      simp only [Function.update_of_ne itself] at now
      obtain ⟨before, found⟩ := engine.current owner other now
      exact runs_startRun _ _ _ unused other owner before found
  tried := by
    intro other owner later found done
    by_cases itself : other = run
    · subst itself
      simp only [World.startRun, World.setRun, Function.update_self, Option.some.injEq,
        Prod.mk.injEq] at found
      obtain ⟨rfl, rfl⟩ := found
      exact absurd done (Saga.checkoutSaga_undone input 0 nowMs .held)
    · simp only [World.startRun, World.setRun, Function.update_of_ne itself] at found
      exact engine.tried other owner later found done
  written := by
    intro write result member
    obtain ⟨owner, before, found, past⟩ := engine.written write result member
    obtain ⟨later, now⟩ := runs_startRun orderId input nowMs unused write.run owner before found
    exact ⟨owner, later, now, past⟩

/-- A held Try is delivered after its write, so its order is past its Try. -/
theorem Engine.delivered {world : World} (engine : Engine world) {run orderId : Nat}
    {state next : Saga.Run} {event : Saga.Event} (known : world.runs run = some (orderId, state))
    (confirmed : world.Confirmed run state event)
    (delivered : Saga.deliver state event = some next) (done : next.tryRun = .done .held) :
    Past world.db orderId := by
  rcases Saga.deliver_done state next event .held delivered done with
    already | ⟨seq, result, rfl, applying⟩
  · exact engine.tried run orderId state known already
  · simp only [World.Confirmed, applying] at confirmed
    obtain ⟨owner, later, found, past⟩ := engine.written _ result confirmed
    obtain ⟨rfl, -⟩ := Prod.mk.inj (Option.some.inj (found.symm.trans known))
    exact past rfl

/-! ## A served call -/

theorem engine_reserve {world next : World} {orderId : Nat} {input : Saga.CheckoutSagaInput}
    {given : Given} {reply : Reply} (engine : Engine world)
    (served : world.reserve orderId input given = some (next, reply)) :
    Engine next ∧ (∀ run owner state, world.runs run = some (owner, state) →
      ∃ later, next.runs run = some (owner, later)) ∧
      (reply = .closed ∨ ∃ run state, reply = .attached run ∧
        next.runs run = some (orderId, state)) := by
  unfold World.reserve at served
  split at served
  · split at served <;> cases served
    rename_i unused
    exact ⟨engine.startRun unused, runs_startRun _ _ _ unused,
      .inr ⟨given.run, _, rfl, Function.update_self ..⟩⟩
  · rename_i run now
    obtain ⟨state, known⟩ := engine.current orderId run now
    rw [known] at served
    dsimp only at served
    split at served
    · cases served
      exact ⟨engine, fun other owner before found => ⟨before, found⟩, .inl rfl⟩
    · rename_i later delivered
      cases served
      have confirmed : world.Confirmed run state (.reserve given.nowMs) := trivial
      exact ⟨engine.setRun known (engine.delivered known confirmed delivered), runs_setRun _ known,
        .inr ⟨run, later, rfl, Function.update_self ..⟩⟩

theorem answered_found {db : Db} {request : Request} {row : IdempotencyRow}
    (answered : Answered db)
    (found : db.findByScopeAndKey request.scope request.key = some row)
    (completed : row.completed = true) :
    ∃ view, row.responseBody = some view ∧ Names db request.userId request.key view := by
  obtain ⟨member, scope, key⟩ := Db.mem_findByScopeAndKey db _ _ row found
  obtain ⟨view, body, names⟩ := answered row member completed request.userId scope
  exact ⟨view, body, key ▸ names⟩

theorem wrote_of_row {world : World} (books : Books world) {request : Request} {row : OrderRow}
    (member : row ∈ world.db.orders) (user : row.userId = request.userId)
    (key : row.idempotencyKey = some request.key) :
    request.Wrote world row.id ∧
      (Visible row.status → Placed world.db request.userId request.key row.id) := by
  refine ⟨?_, fun visible => ⟨row, member, rfl, user, key, visible⟩⟩
  have listed := books.listed row member request.key key
  rw [user] at listed
  exact listed

theorem call_told {settings : Settings} {world next : World} {process : Process} {given : Given}
    {awaiting : Awaiting} {reply : Reply} (books : Books world) (told : Told world)
    (drafted : awaiting.Drafted process.request.userId)
    (sound : awaiting.Sound world process.request)
    (served : world.call settings process given awaiting = some (next, reply)) :
    Extends world next ∧ Engine next ∧ Answered next.db ∧
      reply.Sound next process.request awaiting := by
  obtain ⟨table, -, -⟩ := call_table books drafted served
  have extends' (runs : next.runs = world.runs) : Extends world next :=
    extends_of_table table fun run orderId state known => ⟨state, runs ▸ known⟩
  obtain ⟨added, evolves⟩ := table.evolves
  cases awaiting with
  | lookup | lookupAgain =>
      cases served
      refine ⟨extends' rfl, told.engine, told.answered, ?_⟩
      cases found : world.db.findByScopeAndKey process.request.scope process.request.key with
      | none => trivial
      | some row => exact answered_found told.answered found
  | insert | reclaim =>
      simp only [World.call] at served
      split at served
      · rename_i id _
        obtain ⟨minted, mint, same⟩ := Option.bind_eq_some_iff.mp served
        obtain ⟨-, rfl⟩ := mint_some mint
        cases same
        refine ⟨extends' rfl, told.engine.frame (extends' rfl) rfl rfl rfl,
          evolves.answered told.answered fun row member =>
            Db.mem_tryInsertInProgress world.db id _ _ _ _ _ row member, ?_⟩
        cases inserted : (world.db.tryInsertInProgress id process.request.scope process.request.key
            (computeRequestHash settings process.request) process.expiresAt given.nowMs).1 with
        | none => trivial
        | some row =>
            intro completed
            have fresh := Db.tryInsertInProgress_claim world.db id _ _ _ _ _ row inserted
            rw [completed] at fresh
            cases fresh
      · cases served
  | expire cutoff =>
      cases served
      exact ⟨extends' rfl, told.engine.frame (extends' rfl) rfl rfl rfl,
        evolves.answered told.answered fun row member => .inl (Db.mem_dropKeys _ _ row member),
        trivial⟩
  | snapshot claimId =>
      cases served
      exact ⟨extends' rfl, told.engine, told.answered, trivial⟩
  | create claimId draft =>
      simp only [World.call] at served
      split at served
      · rename_i orderId itemIds _
        obtain ⟨minted, mint, served⟩ := Option.bind_eq_some_iff.mp served
        obtain ⟨-, rfl⟩ := mint_some mint
        split at served
        · unfold World.create at served
          split at served
          · rename_i result db success
            cases served
            rcases createReserving_cases success with
              ⟨rfl, refound, row, member, user, key, named, status⟩ | ⟨new, same, keys, row, adds⟩
            · refine ⟨extends' rfl, told.engine.frame (extends' rfl) rfl rfl rfl, told.answered, ?_⟩
              obtain ⟨wrote, placed⟩ := wrote_of_row books member (user.trans drafted) key
              exact ⟨row.id, named, (extends' rfl).created _ wrote, fun visible =>
                placed (status ▸ visible)⟩
            · refine ⟨extends' rfl, told.engine.frame (extends' rfl) rfl rfl rfl,
                evolves.answered told.answered fun row member => .inl (keys ▸ member), orderId,
                by rw [same], ?_, fun visible => ?_⟩
              · simp [Request.Wrote, new]
              · refine ⟨row, ?_, adds.id, adds.user.trans drafted, adds.named, ?_⟩
                · simp [adds.orders]
                · rw [same] at visible
                  exact adds.status ▸ visible
          · split at served <;> cases served
            exact ⟨extends' rfl, told.engine.frame (extends' rfl) rfl rfl rfl, told.answered,
              trivial⟩
        · cases served
      · cases served
  | reserve claimId order created orderId input =>
      obtain ⟨engine, runs, attached⟩ := engine_reserve told.engine served
      have off := offTable_reserve served
      refine ⟨extends_of_table table runs, engine, off.db ▸ told.answered, ?_⟩
      rcases attached with rfl | ⟨run, state, rfl, known⟩
      · trivial
      · exact ⟨state, known⟩
  | outcome claimId order created orderId run =>
      simp only [World.call] at served
      split at served
      · rename_i owner state found
        split at served <;> cases served
        rename_i outcome done
        refine ⟨extends' rfl, told.engine, told.answered, ?_⟩
        rintro rfl
        obtain ⟨-, wrote, state', known⟩ := sound
        obtain ⟨rfl, -⟩ := Prod.mk.inj (Option.some.inj (known.symm.trans found))
        exact placed_of_past (books.owned _ wrote).2 (told.engine.tried run _ state found done)
      · cases served
  | readAfterClose claimId orderId =>
      simp only [World.call] at served
      split at served <;> cases served
      rename_i found read
      refine ⟨extends' rfl, told.engine, told.answered, ?_⟩
      cases found with
      | none => trivial
      | some order =>
          obtain ⟨row, member, rfl, named, status⟩ := findById_ok read
          exact ⟨named, fun visible => placed_of_past (books.owned _ sound).2
            ⟨row, member, rfl, status ▸ visible⟩⟩
  | complete claimId view =>
      cases served
      exact ⟨extends' rfl, told.engine.frame (extends' rfl) rfl rfl rfl,
        answered_markCompleted 201 _ told.answered sound, trivial⟩
  | cleanup claimId thrown =>
      cases served
      exact ⟨extends' rfl, told.engine.frame (extends' rfl) rfl rfl rfl,
        evolves.answered told.answered fun row member => .inl (Db.mem_dropKeys _ _ row member),
        trivial⟩

/-! ## Steps in which no request moves -/

/-- A signal never ends a Try, in the open run or in one it opens. -/
theorem engine_notifyAuthorized {settings : Settings} {world next : World} {orderId run : Nat}
    {authorization : Saga.PaymentAuthorization} {nowMs : Int} (engine : Engine world)
    (stepped : world.notifyAuthorized settings orderId authorization run nowMs = some next) :
    Engine next ∧ ∀ other owner state, world.runs other = some (owner, state) →
      ∃ later, next.runs other = some (owner, later) := by
  unfold World.notifyAuthorized at stepped
  split at stepped
  · split at stepped
    · cases stepped
    · rename_i input _
      dsimp only at stepped
      split at stepped
      · rename_i signalled
        cases stepped
        simp only [Option.bind_eq_bind, Option.bind_eq_some_iff, Option.map_eq_some_iff,
          Prod.exists] at signalled
        obtain ⟨index, owner, state, ⟨_, -, _, _, known, same⟩, later, delivered, moved⟩ :=
          signalled
        cases same
        cases moved
        have confirmed : world.Confirmed index state (.paymentAuthorized authorization) := trivial
        exact ⟨engine.setRun known (engine.delivered known confirmed delivered),
          runs_setRun _ known⟩
      · split at stepped
        · rename_i unused
          obtain ⟨later, delivered, rfl⟩ := Option.map_eq_some_iff.mp stepped
          have opened : Engine (world.startRun run orderId input nowMs) := engine.startRun unused
          have known : (world.startRun run orderId input nowMs).runs run =
              some (orderId, Saga.checkoutSaga input 0 nowMs) := Function.update_self ..
          have confirmed : (world.startRun run orderId input nowMs).Confirmed run
              (Saga.checkoutSaga input 0 nowMs) (.paymentAuthorized authorization) := trivial
          refine ⟨opened.setRun known (opened.delivered known confirmed delivered), ?_⟩
          intro other owner state found
          obtain ⟨started, now⟩ := runs_startRun orderId input nowMs unused other owner state found
          exact runs_setRun _ known other owner started now
        · cases stepped
  · cases stepped

/-- No Try is held after its order was rejected, or is gone. -/
def HeldInTime (world : World) : Event → Prop
  | .writeTry position _ _ =>
      match world.dispatched[position]? with
      | some write =>
          write.outcome = .held →
            match world.runs write.run with
            | some (orderId, _) => (world.db.findOrder orderId).any fun row =>
              row.status != .rejected
            | none => True
      | none => True
  | _ => True

instance (world : World) (event : Event) : Decidable (HeldInTime world event) := by
  unfold HeldInTime
  split
  · split
    · split <;> infer_instance
    · infer_instance
  · infer_instance

theorem background_told {settings : Settings} {world next : World} {event : Event}
    (books : Books world) (told : Told world) (inTime : HeldInTime world event)
    (background : Background event) (stepped : step settings world event = some next) :
    Extends world next ∧ Engine next ∧ Answered next.db := by
  obtain ⟨table, -, -⟩ := background_table books background stepped
  have extends' (runs : next.runs = world.runs) : Extends world next :=
    extends_of_table table fun run orderId state known => ⟨state, runs ▸ known⟩
  obtain ⟨added, evolves⟩ := table.evolves
  cases event with
  | arrive | serve | proceed | fail | die => exact background.elim
  | saga run event =>
      simp only [step] at stepped
      split at stepped
      · rename_i orderId state known
        split at stepped
        · rename_i confirmed
          obtain ⟨later, delivered, rfl⟩ := Option.map_eq_some_iff.mp stepped
          exact ⟨extends_of_table table (runs_setRun _ known),
            told.engine.setRun known (told.engine.delivered known confirmed delivered),
            told.answered⟩
        · cases stepped
      · cases stepped
  | dispatchTry run =>
      simp only [step] at stepped
      split at stepped
      · split at stepped <;> cases stepped
        exact ⟨extends' rfl, told.engine.frame (extends' rfl) rfl rfl rfl, told.answered⟩
      · cases stepped
  | writeTry position outboxId now =>
      simp only [step] at stepped
      split at stepped
      · rename_i write dispatched
        split at stepped
        · rename_i orderId state known
          split at stepped <;> cases stepped
          rename_i result db success
          obtain ⟨moved, answered, past⟩ := applyTryResult_moved books.keyed success
          have framed : Engine { world with db } :=
            told.engine.frame (extends_of_table (.moved moved rfl fun _ member => member)
              fun run owner state found => ⟨state, found⟩) rfl rfl rfl
          refine ⟨extends' rfl, ⟨framed.current, framed.tried, ?_⟩, answered told.answered⟩
          intro write' result' member
          rcases List.mem_append.mp member with old | new
          · exact framed.written write' result' old
          · cases List.mem_singleton.mp new
            refine ⟨orderId, state, known, fun held => past held ?_⟩
            simp only [HeldInTime, dispatched, known] at inTime
            obtain ⟨row, found, unrejected⟩ := (Option.any_eq_true _ _).mp (inTime held)
            exact ⟨row, found, by simpa using unrejected⟩
        · cases stepped
      · cases stepped
  | changeOrder orderId change outboxId now =>
      cases stepped
      obtain ⟨-, keys⟩ := perform_moved books.keyed orderId change outboxId now
      exact ⟨extends' rfl, told.engine.frame (extends' rfl) rfl rfl rfl,
        evolves.answered told.answered fun row member => .inl (keys ▸ member)⟩
  | notifyAuthorized orderId authorization run nowMs =>
      have off := offTable_notifyAuthorized stepped
      obtain ⟨engine, runs⟩ := engine_notifyAuthorized told.engine stepped
      exact ⟨extends_of_table table runs, engine, off.db ▸ told.answered⟩
  | reap nowMs limit =>
      simp only [step] at stepped
      split at stepped <;> cases stepped
      exact ⟨extends' rfl, told.engine.frame (extends' rfl) rfl rfl rfl, told.answered⟩
  | handBack position run nowMs =>
      simp only [step] at stepped
      split at stepped
      · split at stepped
        · split at stepped <;> cases stepped
          rename_i unused
          exact ⟨extends_of_table table (runs_startRun _ _ _ unused.2),
            told.engine.startRun unused.2,
            told.answered⟩
        · cases stepped
      · cases stepped
  | forget orderId =>
      simp only [step] at stepped
      split at stepped
      · split at stepped <;> cases stepped
        refine ⟨extends' rfl, ⟨?_, told.engine.tried, told.engine.written⟩, told.answered⟩
        intro owner run now
        by_cases itself : owner = orderId
        · subst itself
          simp at now
        · simp only [Function.update_of_ne itself] at now
          exact told.engine.current owner run now
      · cases stepped
  | sweepKeys nowMs batch =>
      cases stepped
      exact ⟨extends' rfl, told.engine.frame (extends' rfl) rfl rfl rfl,
        evolves.answered told.answered fun row member => .inl (Db.mem_dropKeys _ _ row member)⟩
  | sweepRejected cutoff batch =>
      cases stepped
      exact ⟨extends' rfl, told.engine.frame (extends' rfl) rfl rfl rfl,
        evolves.answered told.answered fun row member => .inl member⟩

/-! ## Whole runs -/

theorem told_setPhase {world : World} {slot : Nat} {process : Process} {phase : Phase}
    (told : Told world) (sound : phase.Sound world process.request) :
    Told (world.setPhase slot process phase) where
  engine := ⟨told.engine.current, told.engine.tried, told.engine.written⟩
  answered := told.answered
  answers := told.answers
  sound := by
    have same : Extends world (world.setPhase slot process phase) :=
      ⟨fun _ member => member, ⟨[], .of_same rfl⟩, fun run orderId state known => ⟨state, known⟩⟩
    intro other later found
    exact same.phase later.phase (requests_update
      (fun process => process.phase.Sound world process.request) told.sound sound
      other later found)

theorem told_record {world : World} {request : Request} {phase : Phase} (told : Told world)
    (sound : phase.Sound world request) : Told (world.record request phase) := by
  unfold World.record
  split
  · rename_i status body
    refine ⟨⟨told.engine.current, told.engine.tried, told.engine.written⟩, told.answered, ?_, ?_⟩
    · intro answer member
      rcases List.mem_append.mp member with old | new
      · exact told.answers answer old
      · rw [List.mem_singleton.mp new]
        exact sound
    · have same : Extends world { world with
          answers := world.answers ++ [⟨request.userId, request.key, status, body⟩] } :=
        ⟨fun _ member => member, ⟨[], .of_same rfl⟩, fun run orderId state known => ⟨state, known⟩⟩
      exact fun slot process found => same.phase process.phase (told.sound slot process found)
  · exact told

theorem Told.frame {before after : World} (told : Told before) (extends' : Extends before after)
    (engine : Engine after) (answered : Answered after.db)
    (requests : after.requests = before.requests) (answers : after.answers = before.answers) :
    Told after where
  engine := engine
  answered := answered
  answers := by
    rw [answers]
    intro answer member
    obtain ⟨view, body, names⟩ := told.answers answer member
    exact ⟨view, body, extends'.names names⟩
  sound := by
    rw [requests]
    exact fun slot process found => extends'.phase process.phase (told.sound slot process found)

theorem told_step {settings : Settings} (world : World) (event : Event) (next : World)
    (books : Books world) (told : Told world) (inTime : HeldInTime world event)
    (stepped : step settings world event = some next) : Told next := by
  by_cases background : Background event
  · obtain ⟨-, requests, answers⟩ := background_table books background stepped
    obtain ⟨extends', engine, answered⟩ := background_told books told inTime background stepped
    exact told.frame extends' engine answered requests answers
  cases event with
  | arrive slot request nowMs =>
      simp only [step] at stepped
      split at stepped <;> cases stepped
      let arrived : Process := ⟨request, nowMs + idempotencyTtlMs, .asked .lookup⟩
      have sound : (Phase.asked .lookup).Sound world arrived.request := trivial
      have asked : Told (world.setPhase slot arrived (.asked .lookup)) := told_setPhase told sound
      exact asked
  | serve slot given =>
      simp only [step] at stepped
      split at stepped
      · rename_i process known
        split at stepped
        · rename_i awaiting waiting
          obtain ⟨⟨served, reply⟩, called, rfl⟩ := Option.map_eq_some_iff.mp stepped
          have drafted := books.drafted slot process known
          have sound := told.sound slot process known
          rw [waiting] at drafted sound
          obtain ⟨-, requests, answers⟩ := call_table books drafted called
          obtain ⟨extends', engine, answered, answer⟩ := call_told books told drafted sound called
          exact told_setPhase (told.frame extends' engine answered requests answers)
            ⟨extends'.awaiting awaiting sound, answer⟩
        · cases stepped
      · cases stepped
  | proceed slot nowMs =>
      simp only [step] at stepped
      split at stepped
      · rename_i process known
        split at stepped
        · rename_i awaiting reply waiting
          obtain ⟨phase, went, rfl⟩ := Option.map_eq_some_iff.mp stepped
          have sound := told.sound slot process known
          rw [waiting] at sound
          have moved := sound_proceed sound.1 sound.2 went
          exact told_record (told_setPhase told moved) moved
        · cases stepped
      · cases stepped
  | fail slot failure =>
      simp only [step] at stepped
      split at stepped
      · split at stepped
        · exact Option.some.inj stepped ▸ told_setPhase told (sound_fail world _ failure _)
        · exact Option.some.inj stepped ▸ told_setPhase told (sound_fail world _ failure _)
        · cases stepped
      · cases stepped
  | die slot =>
      cases stepped
      exact ⟨⟨told.engine.current, told.engine.tried, told.engine.written⟩, told.answered,
        told.answers, requests_drop
          (fun process => process.phase.Sound world process.request) told.sound⟩
  | _ => exact absurd trivial background

theorem books_start : Books start where
  keyed := ⟨List.nodup_nil, (fun _ none => nomatch none), fun _ => Nat.zero_le _⟩
  known := fun _ none => nomatch none
  owned := fun _ none => nomatch none
  listed := fun _ none => nomatch none
  drafted := fun _ _ none => nomatch none

theorem told_start : Told start where
  engine := ⟨(fun _ _ none => nomatch none), (fun _ _ _ none => nomatch none),
    fun _ _ none => nomatch none⟩
  answered := fun _ none => nomatch none
  answers := fun _ none => nomatch none
  sound := fun _ _ none => nomatch none

def OneOrderPerKey (world : World) : Prop :=
  ∀ first ∈ world.created, ∀ second ∈ world.created,
    first.userId = second.userId → first.key = second.key →
      ∀ one ∈ world.db.orders, ∀ other ∈ world.db.orders,
        one.id = first.orderId → other.id = second.orderId →
          one.status ≠ .rejected → other.status ≠ .rejected → one = other

def AnswersAgree (world : World) : Prop :=
  ∀ first ∈ world.answers, ∀ second ∈ world.answers,
    first.userId = second.userId → first.key = second.key →
      ∃ orderId, (first.body.bind fun view => view.id) = some orderId ∧
        (second.body.bind fun view => view.id) = some orderId

def Capped (world : World) : Prop :=
  ∀ userId, world.db.inFlight userId ≤ maxPendingOrdersPerUser

theorem Books.oneOrder {world : World} (books : Books world) : OneOrderPerKey world := by
  intro first memFirst second memSecond user key one memOne other memOther isFirst isSecond
    unrejected unrejected'
  obtain ⟨owner, held⟩ := (books.owned first memFirst).2 one memOne isFirst
  obtain ⟨owner', held'⟩ := (books.owned second memSecond).2 other memOther isSecond
  have heldFirst := held.resolve_left unrejected
  have heldSecond := held'.resolve_left unrejected'
  refine List.inj_on_of_nodup_map books.keyed.ids memOne memOther ?_
  refine books.keyed.keys one memOne other memOther (owner.trans (user.trans owner'.symm)) ?_ ?_
  · rw [heldFirst, heldSecond, key]
  · rw [heldFirst]
    exact Option.some_ne_none _

theorem Told.answersAgree {world : World} (books : Books world) (told : Told world) :
    AnswersAgree world := by
  intro first memFirst second memSecond user key
  obtain ⟨view, body, orderId, named, placed⟩ := told.answers first memFirst
  obtain ⟨view', body', orderId', named', placed'⟩ := told.answers second memSecond
  rw [← user, ← key] at placed'
  have same := placed_unique books.keyed placed placed'
  exact ⟨orderId, by simp [body, named], by simp [body', named', same]⟩

/-- In every run of checkouts, sagas, reapers and sweeps a user has at most one unrejected order
under a key and never more orders in flight than the cap; if no Try is held after its order was
rejected, all success answers under a key name one order. -/
theorem checkout_law (settings : Settings) (events : List Event) (final : World)
    (ran : run (step settings) start events = some final) :
    OneOrderPerKey final ∧ Capped final ∧
      (Along (step settings) HeldInTime start events → AnswersAgree final) := by
  have books : Books final :=
    run_preserves (step settings) Books books_step events start final books_start ran
  refine ⟨books.oneOrder, books.keyed.capped, fun inTime => ?_⟩
  have both : Books final ∧ Told final :=
    run_preserves_along (step settings) HeldInTime (fun world => Books world ∧ Told world)
      (fun world event next kept met stepped =>
        ⟨books_step world event next kept.1 stepped,
          told_step world event next kept.1 kept.2 met stepped⟩)
      events start final ⟨books_start, told_start⟩ inTime ran
  exact both.2.answersAgree both.1

/-! A handler that fails once its order is written, a retry that places the order, and a replay. -/

def teaSettings : Settings where
  sha256Hex := fun text => text
  paymentDeadlineMs := 900000
  tryTimeoutMs := 8000
  reservingOrphanMs := 60000
  idempotencyGraceMs := 0

def teaRequest : Request where
  userId := 9
  key := "k1"
  method := "POST"
  path := "/orders"
  body := "null"

def nothing : Given where
  ids := []
  nowMs := 0
  lines := []
  views := []
  run := 0

def teaCart : Given :=
  { nothing with
    lines := [⟨3, 2⟩]
    views := [⟨3, "Tea", some 250, "USD", true⟩] }

def reserving (slot claim orderId itemId run : Nat) (nowMs : Int) : List Event :=
  [ .serve slot { nothing with ids := [claim], nowMs := nowMs }, .proceed slot nowMs,
    .serve slot teaCart, .proceed slot nowMs,
    .serve slot { nothing with ids := [orderId, itemId] }, .proceed slot nowMs,
    .serve slot { nothing with run := run, nowMs := nowMs } ]

def retriedRun : List Event :=
  [.arrive 0 teaRequest 0, .serve 0 nothing, .proceed 0 0] ++ reserving 0 1 2 3 0 10 ++
  [ .fail 0 ⟨"connection lost", true⟩, .serve 0 nothing, .proceed 0 20,
    .arrive 1 teaRequest 30, .serve 1 nothing, .proceed 1 30 ] ++ reserving 1 4 5 6 1 40 ++
  [ .proceed 1 40, .saga 0 (.tryAnswered 0 (.answered .reserved)), .dispatchTry 0,
    .writeTry 0 100 50, .saga 0 (.tryWritten 1 .applied), .serve 1 nothing, .proceed 1 60,
    .serve 1 nothing, .proceed 1 70, .arrive 2 teaRequest 80, .serve 2 nothing, .proceed 2 80 ]

theorem checkout_law_retried :
    ∃ final, run (step teaSettings) start retriedRun = some final ∧
      final.answers.length = 2 ∧ AnswersAgree final := by
  have inTime : Along (step teaSettings) HeldInTime start retriedRun := by decide +kernel
  have answered : (run (step teaSettings) start retriedRun).map (·.answers.length) = some 2 := by
    decide +kernel
  obtain ⟨final, ran, two⟩ := Option.map_eq_some_iff.mp answered
  exact ⟨final, ran, two, (checkout_law teaSettings retriedRun final ran).2.2 inTime⟩

/-- A refused Try whose record is lost is tried again and held: the order is rejected and the
buyer is told it was placed.  The next request under the key places another. -/
def refusedThenHeldRun : List Event :=
  [.arrive 0 teaRequest 0, .serve 0 nothing, .proceed 0 0] ++ reserving 0 1 2 3 0 10 ++
  [ .proceed 0 10, .saga 0 (.tryAnswered 0 (.answered .outOfStock)), .dispatchTry 0,
    .writeTry 0 0 20, .saga 0 (.crash false 30), .saga 0 (.tryAnswered 2 (.answered .reserved)),
    .dispatchTry 0, .writeTry 1 100 40, .saga 0 (.tryWritten 3 .stale), .serve 0 nothing,
    .proceed 0 50, .arrive 1 teaRequest 40000, .serve 1 nothing, .proceed 1 40000,
    .serve 1 nothing, .proceed 1 40000 ] ++ reserving 1 4 5 6 1 40000 ++
  [ .proceed 1 40000, .saga 1 (.tryAnswered 0 (.answered .reserved)), .dispatchTry 1,
    .writeTry 2 101 40010, .saga 1 (.tryWritten 1 .applied), .serve 1 nothing, .proceed 1 40020 ]

theorem refused_then_held_answers_two_orders :
    ¬ ∀ (settings : Settings) (events : List Event) (final : World),
      run (step settings) start events = some final →
        OneOrderPerKey final ∧ Capped final ∧ AnswersAgree final := by
  intro law
  have answered : (run (step teaSettings) start refusedThenHeldRun).map (fun world =>
      world.answers.map fun answer =>
        (answer.userId, answer.key, answer.body.bind fun view => view.id)) =
      some [(9, "k1", some 2), (9, "k1", some 5)] := by decide +kernel
  obtain ⟨final, ran, two⟩ := Option.map_eq_some_iff.mp answered
  obtain ⟨first, rest, answers, isFirst, others⟩ := List.map_eq_cons_iff.mp two
  obtain ⟨second, none, rfl, isSecond, -⟩ := List.map_eq_cons_iff.mp others
  simp only [Prod.mk.injEq] at isFirst isSecond
  obtain ⟨orderId, one, other⟩ := (law teaSettings refusedThenHeldRun final ran).2.2
    first (by simp [answers]) second (by simp [answers]) (isFirst.1.trans isSecond.1.symm)
    (isFirst.2.1.trans isSecond.2.1.symm)
  have two : 2 = orderId := Option.some.inj (isFirst.2.2.symm.trans one)
  have five : 5 = orderId := Option.some.inj (isSecond.2.2.symm.trans other)
  omega

end Commerce.Placing
