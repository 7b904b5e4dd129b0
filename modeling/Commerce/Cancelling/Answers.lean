import Commerce.Cancelling.Requests
import Commerce.Trying.Agreement

/-!
# What a cancel that was answered has done

A view a cancel is answered with reads `CANCELLED`, and the saga is bound to undo the order
from then on.  Only the answer of the finished update waits for that: the row turns
`CANCELLED` before the compensations start, and a repeat, or a request whose call of the
engine got no answer, answers from the row.
-/

set_option autoImplicit false

namespace Commerce.Cancelling

open Commerce.Composition (Cancellation Undone Unsettled)
open Commerce.Orders (Db OrderStatus OrderView SagaWriteResult)
open Commerce.Saga
open Runs

/-! ## Writes to the row -/

/-- What a transaction of the order service can do to the row of an order with a run. -/
inductive RowStep (current : Saga.Run) (world next : Trying.World) (status entered : OrderStatus) :
    Prop
  | kept (changed : next.changed = world.changed) (same : entered = status)
  | tried (changed : next.changed = world.changed) (reserving : status = .reserving)
      (target : entered = .pending ∨ entered = .rejected)
  | moved (change : OrderChangeCommand) (result : SagaWriteResult)
      (issued : .issued (.changeOrder change) ∈ current.log)
      (changed : next.changed = world.changed ++ [(change, result)])
      (target : entered = status ∧ (status = change.target ∨ status ∉ change.source) ∨
        entered = change.target)

theorem rowStep_of_step (orderId : Nat) (world next : Trying.World) (current : Saga.Run)
    (event : Trying.Event) (status : OrderStatus) (runs : world.run = some current)
    (row : world.db.statusOf orderId = some status) (writes : writesRow event = true)
    (stepped : Trying.step orderId world event = some next) :
    ∃ entered, next.db.statusOf orderId = some entered ∧
      RowStep current world next status entered := by
  cases event with
  | reserve input nowMs => cases writes
  | handBack input nowMs => cases writes
  | saga event => cases writes
  | dispatchTry =>
      simp only [Trying.step] at stepped
      split at stepped
      · cases Option.some.inj stepped
        exact ⟨status, row, .kept rfl rfl⟩
      · cases stepped
  | writeTry position outboxId now =>
      simp only [Trying.step] at stepped
      split at stepped
      · cases stepped
      rename_i seq outcome found
      split at stepped
      · rename_i result db success
        cases Option.some.inj stepped
        rcases Trying.applyTryResult_status world.db db orderId outcome _ outboxId now result status
          row success with ⟨-, rfl⟩ | ⟨reserving, entered⟩
        · exact ⟨status, row, .kept rfl rfl⟩
        · refine ⟨_, entered, .tried rfl reserving ?_⟩
          unfold Trying.tryTarget
          split
          · exact .inl rfl
          · exact .inr rfl
      · cases stepped
  | changeOrder change outboxId now =>
      simp only [Trying.step, runs] at stepped
      split at stepped
      · rename_i issued
        split at stepped
        · rename_i result db success
          cases Option.some.inj stepped
          rcases Trying.applyOrderChange_status world.db db orderId _ _ _ _ outboxId now result
            status
            row success with ⟨rfl, stands⟩ | ⟨-, -, entered⟩
          · exact ⟨status, row, .moved change result issued rfl (.inl ⟨rfl, stands⟩)⟩
          · exact ⟨_, entered, .moved change result issued rfl (.inr rfl)⟩
        · cases stepped
      · cases stepped
  | elsewhere call =>
      simp only [Trying.step] at stepped
      split at stepped
      · cases stepped
      · rename_i other
        cases Option.some.inj stepped
        refine ⟨status, ?_, .kept rfl rfl⟩
        exact (Trying.statusOf_elsewhere world.db call orderId other).trans row

/-! ## The row and the run -/

structure Follows (world : World) (status : OrderStatus) : Prop where
  asked : ∀ change result, (change, result) ∈ world.changed →
    .issued (.changeOrder change) ∈ world.checkout.run.log
  kept : ∀ change, .issued (.changeOrder change) ∈ world.checkout.run.log →
    .changeOrder change ∈ owed world.checkout.run.pending ∨
      ∃ result, (change, result) ∈ world.changed
  /-- Whoever sent a cancel saw the order `PENDING`. -/
  seen : world.sent ≠ [] →
    (∀ change, .issued (.changeOrder change) ∉ world.checkout.run.log) → status = .pending
  taken : world.checkout.run.saga.orderStatus = some .cancelled →
    status = .pending ∨ status = .cancelled
  moved : world.checkout.run.saga.orderStatus = some .cancelled → world.changed ≠ [] →
    status = .cancelled
  landed : status = .cancelled → world.checkout.run.saga.orderStatus = some .cancelled

section Row

variable {world next : World} {status entered : OrderStatus}

theorem follows_order (changes : Changes world.checkout.run.saga world.checkout.run.log)
    (follows : Follows world status) (checkout : next.checkout = world.checkout)
    (sent : next.sent = world.sent)
    (wrote : RowStep world.checkout.run world.order next.order status entered) :
    Follows next entered := by
  have unreserved : status = .reserving →
      world.checkout.run.saga.orderStatus ≠ some .cancelled := by
    intro reserving cancelled
    rcases follows.taken cancelled with same | same <;> rw [reserving] at same <;> cases same
  cases wrote with
  | kept changed same =>
      have changed : next.changed = world.changed := changed
      subst same
      constructor <;> rw [checkout]
      · rw [changed]
        exact follows.asked
      · rw [changed]
        exact follows.kept
      · rw [sent]
        exact follows.seen
      · exact follows.taken
      · rw [changed]
        exact follows.moved
      · exact follows.landed
  | tried changed reserving target =>
      have changed : next.changed = world.changed := changed
      constructor <;> rw [checkout]
      · rw [changed]
        exact follows.asked
      · rw [changed]
        exact follows.kept
      · rw [sent]
        intro asks none
        have pending := follows.seen asks none
        rw [reserving] at pending
        cases pending
      · exact fun cancelled => absurd cancelled (unreserved reserving)
      · exact fun cancelled => absurd cancelled (unreserved reserving)
      · intro cancelled
        rcases target with same | same <;> rw [same] at cancelled <;> cases cancelled
  | moved change result issued changed target =>
      have changed : next.changed = world.changed ++ [(change, result)] := changed
      constructor <;> rw [checkout]
      · rw [changed]
        intro other answer member
        rcases List.mem_append.mp member with old | new
        · exact follows.asked other answer old
        · cases List.mem_singleton.mp new
          exact issued
      · rw [changed]
        intro other asked
        refine (follows.kept other asked).imp id ?_
        rintro ⟨answer, member⟩
        exact ⟨answer, List.mem_append_left _ member⟩
      · exact fun _ none => absurd issued (none change)
      · intro cancelled
        obtain ⟨-, onto⟩ := changes.single cancelled change issued
        rcases target with ⟨same, -⟩ | same
        · rw [same]
          exact follows.taken cancelled
        · exact .inr (same.trans onto)
      · intro cancelled _
        obtain ⟨source, onto⟩ := changes.single cancelled change issued
        rcases target with ⟨same, stands⟩ | same
        · rw [same]
          rcases stands with there | elsewhere
          · exact there.trans onto
          · refine (follows.taken cancelled).resolve_left ?_
            intro pending
            exact elsewhere (by simp [source, pending])
        · exact same.trans onto
      · intro cancelled
        rcases target with ⟨same, -⟩ | same
        · exact follows.landed (same.symm.trans cancelled)
        · exact changes.cancels change issued (same.symm.trans cancelled)

theorem follows_deliver (changes : Changes world.checkout.run.saga world.checkout.run.log)
    (follows : Follows world status) (event : Saga.Event)
    (confirmed : world.order.Confirmed world.checkout.run event)
    (delivered : deliver world.checkout.run event = some next.checkout.run)
    (changed : next.changed = world.changed) (sent : next.sent = world.sent)
    (cancels : next.checkout.run.saga.orderStatus = some .cancelled →
      world.checkout.run.saga.orderStatus = some .cancelled ∨
        world.checkout.run.saga.step = .awaitingAuth ∧ world.sent ≠ []) :
    Follows next status := by
  obtain ⟨entries, transition, fires, applied⟩ :=
    deliver_reports world.checkout.run next.checkout.run event delivered
  have log := issued_after fires applied
  have unchanged : world.checkout.run.saga.step = .awaitingAuth →
      ∀ change, .issued (.changeOrder change) ∉ world.checkout.run.log := by
    intro awaiting
    exact changes.unissued (by rw [awaiting]; rfl)
  constructor
  · rw [changed]
    exact fun change result member => (log _).mpr (.inl (follows.asked change result member))
  · rw [changed]
    intro change issued
    by_cases reports : .changeOrder change ∈ reported world.checkout.run event
    · exact .inr (Trying.reported_change confirmed delivered change reports)
    · rcases (log _).mp issued with old | new
      · rcases follows.kept change old with owes | executed
        · exact .inl (Trying.owed_after applied _ (.inl owes) reports)
        · exact .inr executed
      · exact .inl (Trying.owed_after applied _ (.inr new) reports)
  · rw [sent]
    exact fun asks none => follows.seen asks fun change old => none change ((log _).mpr (.inl old))
  · intro cancelled
    rcases cancels cancelled with before | ⟨awaiting, asks⟩
    · exact follows.taken before
    · exact .inl (follows.seen asks (unchanged awaiting))
  · rw [changed]
    intro cancelled executed
    rcases cancels cancelled with before | ⟨awaiting, -⟩
    · exact follows.moved before executed
    · obtain ⟨executed, member⟩ := List.exists_mem_of_ne_nil _ executed
      exact absurd (follows.asked _ _ member) (unchanged awaiting executed.1)
  · exact fun cancelled => cancelled_stays world.checkout.run next.checkout.run event changes
      delivered
      (follows.landed cancelled)

/-- Once the saga is `COMPENSATED`, the order it cancelled reads so. -/
theorem cancelled_of_compensated (orderId : Nat) (inv : Cancellation orderId world.checkout)
    (follows : Follows world status)
    (cancelled : world.checkout.run.saga.orderStatus = some .cancelled)
    (compensated : world.checkout.run.saga.step = .compensated) : status = .cancelled := by
  obtain ⟨reason, issued⟩ := inv.changes.issued cancelled
  rcases follows.kept _ issued with owes | ⟨result, executed⟩
  · -- behind the change stand the compensations, and none of them is pending
    have behind := compensations_behind world.checkout.run inv.backed _ rfl owes
    have settled := Composition.settled_of_compensated orderId world.checkout inv compensated
    have none := inv.outstanding.pending
    rw [settled, List.perm_nil] at none
    exact absurd none behind
  · exact follows.moved cancelled (List.ne_nil_of_mem executed)

end Row

/-! ## One step -/

/-- What the answers to come and the answers given rely on. -/
def Stage.Fits (orderId : Nat) (world : World) : Stage → Prop
  | .sent => True
  | .rereading .finished => world.update = .completed
  | .rereading .finishedLate => world.db.statusOf orderId = some .cancelled
  | .rereading .closed | .rereading .unavailable => True
  | .rereading .rejected | .rereading (.fault _) => False
  | .answered engine (.view view) =>
      view.status = .cancelled ∧ world.checkout.run.saga.orderStatus = some .cancelled ∧
        (engine = some .finished → world.update = .completed)
  | .answered _ _ => True

structure Answering (orderId : Nat) (world : World) : Prop where
  cancellation : Cancellation orderId world.checkout
  follows : ∃ status, world.db.statusOf orderId = some status ∧ Follows world status
  accepted : world.update ≠ .absent → world.checkout.run.saga.orderStatus = some .cancelled
  completed : world.update = .completed →
    Undone orderId world.checkout ∧ world.db.statusOf orderId = some .cancelled
  requests : ∀ slot stage, world.requests slot = some stage → stage.Fits orderId world

theorem answering_placed (orderId : Nat) (db : Db) (input : CheckoutSagaInput)
    (row : db.statusOf orderId = some .reserving) (mode : input.mode = .checkout) (firstSeq : Nat)
    (nowMs : Int) : Answering orderId (placed db input firstSeq nowMs) := by
  have log : (placed db input firstSeq nowMs).checkout.run.log = [] :=
    log_initial input firstSeq nowMs
  have carries : (placed db input firstSeq nowMs).checkout.run.saga.orderStatus ≠
      some .cancelled := by
    simp [placed, Composition.placed, saga_initial, mode, initialCheckoutSagaState]
  constructor
  · exact Composition.cancellation_placed orderId input mode firstSeq nowMs
  · refine ⟨.reserving, row, ?_⟩
    constructor
    · simp [placed]
    · simp [log]
    · simp [placed]
    · exact fun cancelled => absurd cancelled carries
    · exact fun cancelled => absurd cancelled carries
    · simp
  · simp [placed]
  · simp [placed]
  · simp [placed]

section Steps

variable {orderId : Nat} {world next : World}

theorem fits_lasts (stage : Stage) (fits : stage.Fits orderId world)
    (update : world.update = .completed → next.update = .completed)
    (row : world.db.statusOf orderId = some .cancelled → next.db.statusOf orderId = some .cancelled)
    (carries : world.checkout.run.saga.orderStatus = some .cancelled →
      next.checkout.run.saga.orderStatus = some .cancelled) : stage.Fits orderId next := by
  unfold Stage.Fits at fits ⊢
  split <;> simp only at fits ⊢
  · exact update fits
  · exact row fits
  · obtain ⟨reads, cancelled, finished⟩ := fits
    exact ⟨reads, carries cancelled, fun engine => update (finished engine)⟩

theorem follows_checkout (minLeadMs : Int) (maxRetries : Nat) (event : Composition.Event)
    (status : OrderStatus) (inv : Cancellation orderId world.checkout)
    (follows : Follows world status)
    (confirmed : ∀ delivered slot, event = .saga delivered slot →
      world.order.Confirmed world.checkout.run delivered ∧
        (cancels delivered = false ∨ world.sent ≠ []))
    (stepped : Composition.step minLeadMs maxRetries orderId world.checkout event =
      some next.checkout)
    (changed : next.changed = world.changed) (sent : next.sent = world.sent) :
    Follows next status ∧ (world.checkout.run.saga.orderStatus = some .cancelled →
      next.checkout.run.saga.orderStatus = some .cancelled) := by
  by_cases saga : ∃ delivered slot, event = .saga delivered slot
  · obtain ⟨event, slot, rfl⟩ := saga
    obtain ⟨written, asks⟩ := confirmed event slot rfl
    obtain ⟨-, run, delivered, same⟩ := Composition.step_saga minLeadMs maxRetries orderId
      world.checkout next.checkout event slot stepped
    have ran : next.checkout.run = run := by rw [same]
    rw [← ran] at delivered
    refine ⟨follows_deliver inv.changes follows event written delivered changed sent ?_,
      cancelled_stays _ _ event inv.changes delivered⟩
    intro cancelled
    by_cases cancelling : ∃ requester, event = .cancel requester
    · obtain ⟨requester, rfl⟩ := cancelling
      have asks := asks.resolve_left (by simp [cancels])
      rcases (cancelled_of_accepted _ _ requester delivered).2 with awaiting | before
      · exact .inr ⟨awaiting, asks⟩
      · exact .inl before
    · refine .inl (uncancelled_deliver _ _ event inv.changes.mode ?_ delivered cancelled)
      exact fun requester same => cancelling ⟨requester, same⟩
  · have run : next.checkout.run = world.checkout.run := by
      refine Composition.run_kept minLeadMs maxRetries orderId world.checkout next.checkout event ?_
        stepped
      exact fun delivered slot same => saga ⟨delivered, slot, same⟩
    obtain ⟨asked, kept, seen, taken, moved, landed⟩ := follows
    rw [run]
    refine ⟨⟨?_, ?_, ?_, ?_, ?_, ?_⟩, id⟩ <;> rw [run]
    · rwa [changed]
    · rwa [changed]
    · rwa [sent]
    · exact taken
    · rwa [changed]
    · exact landed

theorem answering_checkout (minLeadMs : Int) (maxRetries : Nat) (event : Composition.Event)
    (inv : Answering orderId world)
    (confirmed : ∀ delivered slot, event = .saga delivered slot →
      world.order.Confirmed world.checkout.run delivered ∧
        (cancels delivered = false ∨ world.sent ≠ []))
    (stepped : Composition.step minLeadMs maxRetries orderId world.checkout event =
      some next.checkout)
    (db : next.db = world.db) (changed : next.changed = world.changed)
    (sent : next.sent = world.sent) (requests : next.requests = world.requests)
    (accepted : next.update ≠ .absent → world.update ≠ .absent ∨
      next.checkout.run.saga.orderStatus = some .cancelled)
    (completed : next.update = .completed ↔ world.update = .completed) :
    Answering orderId next := by
  obtain ⟨status, row, follows⟩ := inv.follows
  obtain ⟨after, stays⟩ := follows_checkout minLeadMs maxRetries event status inv.cancellation
    follows
    confirmed stepped changed sent
  constructor
  · exact Composition.cancellation_step minLeadMs maxRetries orderId _ _ event inv.cancellation
      stepped
  · exact ⟨status, by rw [db, row], after⟩
  · intro present
    rcases accepted present with before | cancelled
    · exact stays (inv.accepted before)
    · exact cancelled
  · intro done
    obtain ⟨undone, reads⟩ := inv.completed (completed.mp done)
    refine ⟨?_, by rw [db, reads]⟩
    exact Composition.undone_step minLeadMs maxRetries orderId _ _ event inv.cancellation undone
      stepped
  · rw [requests]
    intro slot stage present
    exact fits_lasts stage (inv.requests slot stage present) completed.mpr
      (by rw [db]; exact id) stays

theorem answering_order (event : Trying.Event) (order : Trying.World)
    (inv : Answering orderId world)
    (writes : writesRow event = true)
    (stepped : Trying.step orderId world.order event = some order) :
    Answering orderId { world with
      db := order.db, dispatched := order.dispatched, tried := order.tried,
      changed := order.changed } := by
  obtain ⟨status, row, follows⟩ := inv.follows
  obtain ⟨entered, reads, wrote⟩ := rowStep_of_step orderId world.order order world.checkout.run
    event
    status rfl row writes stepped
  have changes := inv.cancellation.changes
  have stays : world.db.statusOf orderId = some .cancelled →
      order.db.statusOf orderId = some .cancelled := by
    intro cancelled
    cases row.symm.trans cancelled
    rw [reads]
    congr 1
    cases wrote with
    | kept _ same => exact same
    | tried _ reserving _ => cases reserving
    | moved change result issued _ target =>
        rcases target with ⟨same, -⟩ | same
        · exact same
        · exact same.trans (changes.single (follows.landed rfl) change issued).2
  constructor
  · exact inv.cancellation
  · refine ⟨entered, reads, follows_order changes follows rfl rfl ?_⟩
    cases wrote with
    | kept changed same => exact .kept changed same
    | tried changed reserving target => exact .tried changed reserving target
    | moved change result issued changed target => exact .moved change result issued changed target
  · exact inv.accepted
  · exact fun done => ⟨(inv.completed done).1, stays (inv.completed done).2⟩
  · intro slot stage present
    exact fits_lasts stage (inv.requests slot stage present) id stays id

theorem answering_stage (inv : Answering orderId world) (slot : Nat) (stage : Stage)
    (fits : stage.Fits orderId world) : Answering orderId (world.stage slot stage) := by
  obtain ⟨status, row, follows⟩ := inv.follows
  constructor
  · exact inv.cancellation
  · refine ⟨status, row, ?_⟩
    obtain ⟨asked, kept, seen, taken, moved, landed⟩ := follows
    exact ⟨asked, kept, seen, taken, moved, landed⟩
  · exact inv.accepted
  · exact inv.completed
  · intro other found present
    have lasts : ∀ now : Stage, now.Fits orderId world →
      now.Fits orderId (world.stage slot stage) :=
      fun now here => fits_lasts now here id id id
    simp only [World.stage, Function.update_apply] at present
    split at present
    · cases Option.some.inj present
      exact lasts stage fits
    · exact lasts found (inv.requests other found present)

theorem answering_sent (inv : Answering orderId world) (sent : List (Nat × CancelBy))
    (pending : world.db.statusOf orderId = some .pending) :
    Answering orderId { world with sent } := by
  obtain ⟨status, row, follows⟩ := inv.follows
  cases row.symm.trans pending
  constructor
  · exact inv.cancellation
  · refine ⟨.pending, row, ?_⟩
    obtain ⟨asked, kept, seen, taken, moved, landed⟩ := follows
    exact ⟨asked, kept, fun _ _ => rfl, taken, moved, landed⟩
  · exact inv.accepted
  · exact inv.completed
  · intro slot stage present
    exact fits_lasts stage (inv.requests slot stage present) id id id

theorem answering_complete (inv : Answering orderId world) (accepted : world.update = .accepted)
    (compensated : world.checkout.run.saga.step = .compensated) :
    Answering orderId { world with update := .completed } := by
  obtain ⟨status, row, follows⟩ := inv.follows
  have cancelled := inv.accepted (by simp [accepted])
  have settled := Composition.settled_of_compensated orderId world.checkout inv.cancellation
    compensated
  constructor
  · exact inv.cancellation
  · refine ⟨status, row, ?_⟩
    obtain ⟨asked, kept, seen, taken, moved, landed⟩ := follows
    exact ⟨asked, kept, seen, taken, moved, landed⟩
  · exact fun _ => cancelled
  · intro _
    constructor
    · refine Composition.undone_of_settled orderId world.checkout inv.cancellation cancelled ?_
      rintro ⟨command, pending, -⟩
      rw [settled] at pending
      cases pending
    · rw [← cancelled_of_compensated orderId inv.cancellation follows cancelled compensated]
      exact row
  · intro slot stage present
    exact fits_lasts stage (inv.requests slot stage present) (fun _ => rfl) id id

theorem fits_afterEngine (slot : Nat) (engine : EngineAnswer)
    (answers : engineAnswers orderId world slot engine = true) :
    (afterEngine engine).Fits orderId world := by
  cases engine with
  | finished => exact eq_of_beq answers
  | finishedLate =>
      simp only [engineAnswers, Bool.and_eq_true] at answers
      exact eq_of_beq answers.2
  | rejected | closed | unavailable | fault => trivial

theorem fits_reread (inv : Answering orderId world) (engine : EngineAnswer)
    (fits : (Stage.rereading engine).Fits orderId world) :
    (Stage.answered (some engine)
      (reread orderId engine (Orders.findById world.db orderId))).Fits orderId world := by
  obtain ⟨status, row, follows⟩ := inv.follows
  cases answer : reread orderId engine (Orders.findById world.db orderId) with
  | notFound | conflict | unavailable | failed => trivial
  | view view =>
      obtain ⟨reads, cancels⟩ := reread_view world.db orderId engine view answer
      have landed : view.status = .cancelled →
          world.checkout.run.saga.orderStatus = some .cancelled := by
        intro cancelled
        apply follows.landed
        rw [← cancelled]
        exact Option.some.inj (row.symm.trans reads)
      cases engine with
      | finished =>
          have cancelled := Option.some.inj (reads.symm.trans (inv.completed fits).2)
          exact ⟨cancelled, landed cancelled, fun _ => fits⟩
      | finishedLate =>
          have cancelled := Option.some.inj (reads.symm.trans fits)
          exact ⟨cancelled, landed cancelled, by simp⟩
      | closed =>
          have cancelled := cancels (.inl rfl)
          exact ⟨cancelled, landed cancelled, by simp⟩
      | unavailable =>
          have cancelled := cancels (.inr rfl)
          exact ⟨cancelled, landed cancelled, by simp⟩
      | rejected | fault => cases fits

theorem answering_request (inv : Answering orderId world) (slot : Nat) (caller : Caller) :
    Answering orderId (world.request slot caller
        (cancel orderId (caller.read world.db orderId))) := by
  rcases cancel_spec world.db orderId caller with ⟨sent, pending⟩ | ⟨answer, answered, views⟩
  · rw [sent, World.request, if_pos rfl]
    exact answering_stage (answering_sent inv (world.sent ++ [(slot, caller.requester)]) pending)
      slot
      .sent trivial
  · rw [answered, World.request, if_neg (by simp)]
    refine answering_stage inv slot (.answered none answer) ?_
    cases answer with
    | notFound | conflict | unavailable | failed => trivial
    | view view =>
        obtain ⟨cancelled, reads⟩ := views view rfl
        obtain ⟨status, row, follows⟩ := inv.follows
        have landed := follows.landed (Option.some.inj (row.symm.trans reads))
        exact ⟨cancelled, landed, by simp⟩

theorem answering_arrive (minLeadMs : Int) (maxRetries position : Nat)
    (inv : Answering orderId world)
    (stepped : step minLeadMs maxRetries orderId world (.arrive position) = some next) :
    Answering orderId next := by
  simp only [step] at stepped
  split at stepped
  · cases stepped
  rename_i slot requester found
  have asks : world.sent ≠ [] := by
    intro none
    simp [none] at found
  split at stepped
  · rename_i absent
    split at stepped
    · rename_i checkout accepted
      cases Option.some.inj stepped
      obtain ⟨-, run, delivered, same⟩ := Composition.step_saga minLeadMs maxRetries orderId
        world.checkout checkout _ 0 accepted
      refine answering_checkout minLeadMs maxRetries (.saga (.cancel requester) 0) inv ?_ accepted
        rfl
        rfl rfl rfl ?_ (by simp [absent])
      · intro delivered slot same
        cases same
        exact ⟨trivial, .inr asks⟩
      · intro _
        rw [same]
        exact .inr (cancelled_of_accepted _ run requester delivered).1
    · cases Option.some.inj stepped
      obtain ⟨cancellation, ⟨status, row, follows⟩, accepted, completed, requests⟩ := inv
      obtain ⟨asked, kept, seen, taken, moved, landed⟩ := follows
      refine ⟨cancellation, ⟨status, row, asked, kept, seen, taken, moved, landed⟩, accepted,
        completed, ?_⟩
      intro slot stage present
      exact fits_lasts stage (requests slot stage present) id id id
  · cases Option.some.inj stepped
    exact inv

theorem answering_step (minLeadMs : Int) (maxRetries : Nat) (event : Event)
    (inv : Answering orderId world)
    (stepped : step minLeadMs maxRetries orderId world event = some next) :
    Answering orderId next := by
  cases event with
  | checkout event =>
      simp only [step] at stepped
      split at stepped
      · rename_i allowed
        obtain ⟨checkout, moved, rfl⟩ := Option.map_eq_some_iff.mp stepped
        refine answering_checkout minLeadMs maxRetries event inv ?_ moved rfl rfl rfl rfl .inl
          Iff.rfl
        rintro delivered slot rfl
        simp only [allows, Bool.and_eq_true, Bool.not_eq_true'] at allowed
        exact ⟨(Trying.World.confirms_iff _ _ _).mp allowed.2, .inl allowed.1⟩
      · cases stepped
  | order event =>
      simp only [step] at stepped
      split at stepped
      · rename_i writes
        obtain ⟨order, moved, rfl⟩ := Option.map_eq_some_iff.mp stepped
        exact answering_order event order inv writes moved
      · cases stepped
  | request slot caller =>
      simp only [step] at stepped
      split at stepped
      · cases Option.some.inj stepped
        exact answering_request inv slot caller
      · cases stepped
  | arrive position => exact answering_arrive minLeadMs maxRetries position inv stepped
  | complete =>
      simp only [step] at stepped
      split at stepped
      · rename_i ready
        cases Option.some.inj stepped
        exact answering_complete inv ready.1 ready.2
      · cases stepped
  | answer slot engine =>
      simp only [step] at stepped
      split at stepped
      · rename_i waits
        cases Option.some.inj stepped
        exact answering_stage inv slot _ (fits_afterEngine slot engine waits.2)
      · cases stepped
  | reread slot =>
      simp only [step] at stepped
      split at stepped
      · rename_i engine rereads
        cases Option.some.inj stepped
        exact answering_stage inv slot _ (fits_reread inv engine (inv.requests slot _ rereads))
      · cases stepped

theorem undone_lasts (minLeadMs : Int) (maxRetries : Nat) (event : Event)
    (inv : Answering orderId world) (undone : Undone orderId world.checkout)
    (stepped : step minLeadMs maxRetries orderId world event = some next) :
    Undone orderId next.checkout := by
  have moved : ∀ event checkout,
      Composition.step minLeadMs maxRetries orderId world.checkout event =
      some checkout → Undone orderId checkout := fun event checkout =>
    Composition.undone_step minLeadMs maxRetries orderId world.checkout checkout event
      inv.cancellation undone
  cases event with
  | checkout event =>
      simp only [step] at stepped
      split at stepped
      · obtain ⟨checkout, ran, rfl⟩ := Option.map_eq_some_iff.mp stepped
        exact moved event checkout ran
      · cases stepped
  | order event =>
      simp only [step] at stepped
      split at stepped
      · obtain ⟨order, -, rfl⟩ := Option.map_eq_some_iff.mp stepped
        exact undone
      · cases stepped
  | arrive position =>
      simp only [step] at stepped
      split at stepped
      · cases stepped
      · split at stepped
        · split at stepped
          · rename_i checkout ran
            cases Option.some.inj stepped
            exact moved _ checkout ran
          · cases Option.some.inj stepped
            exact undone
        · cases Option.some.inj stepped
          exact undone
  | request slot caller | complete | answer slot engine =>
      simp only [step] at stepped
      split at stepped
      · cases Option.some.inj stepped
        exact undone
      · cases stepped
  | reread slot =>
      simp only [step] at stepped
      split at stepped
      · cases Option.some.inj stepped
        exact undone
      · cases stepped

end Steps

/-! ## The answers -/

def Views (world : World) (slot : Nat) (view : OrderView) : Prop :=
  ∃ engine, world.requests slot = some (.answered engine (.view view))

/-- What a view and an accepted cancel say about the order. -/
structure CancelAnswers (orderId : Nat) (world : World) : Prop where
  reads : ∀ slot view, Views world slot view → view.status = .cancelled
  /-- The order is undone, or a compensation of its cancel is still to come. -/
  lands : ∀ slot view, Views world slot view →
    world.checkout.run.saga.orderStatus = some .cancelled ∧
      (Undone orderId world.checkout ∨ Unsettled world.checkout.run)
  /-- The update's answer waits for them. -/
  finished : ∀ slot view,
    world.requests slot = some (.answered (some .finished) (.view view)) →
      Undone orderId world.checkout
  /-- An accepted cancel has the saga compensate until everything is undone, and nothing
  but that lets the run return. -/
  accepted : world.update ≠ .absent →
    world.checkout.run.saga.step = .compensating ∧
        compensationsIn (owed world.checkout.run.pending) ≠ [] ∨
      world.checkout.run.saga.step = .compensated ∧ Undone orderId world.checkout
  returns : world.update ≠ .absent → canReturn world.checkout.run = true →
    world.checkout.run.saga.step = .compensated ∧ Undone orderId world.checkout

theorem undone_or_unsettled (orderId : Nat) (world : World) (inv : Answering orderId world)
    (cancelled : world.checkout.run.saga.orderStatus = some .cancelled) :
    Undone orderId world.checkout ∨ Unsettled world.checkout.run := by
  by_cases unsettled : Unsettled world.checkout.run
  · exact .inr unsettled
  · exact .inl (Composition.undone_of_settled orderId world.checkout inv.cancellation cancelled
      unsettled)

theorem undone_of_compensated (orderId : Nat) (world : World) (inv : Answering orderId world)
    (cancelled : world.checkout.run.saga.orderStatus = some .cancelled)
    (compensated : world.checkout.run.saga.step = .compensated) :
    Undone orderId world.checkout := by
  refine (undone_or_unsettled orderId world inv cancelled).resolve_right ?_
  rintro ⟨command, pending, -⟩
  rw [Composition.settled_of_compensated orderId world.checkout inv.cancellation
    compensated] at pending
  cases pending

theorem cancelAnswers_of_answering (orderId : Nat) (world : World) (inv : Answering orderId world) :
    CancelAnswers orderId world := by
  have fits : ∀ slot view, Views world slot view → view.status = .cancelled ∧
      world.checkout.run.saga.orderStatus = some .cancelled := by
    rintro slot view ⟨engine, answered⟩
    obtain ⟨reads, cancelled, -⟩ := inv.requests slot _ answered
    exact ⟨reads, cancelled⟩
  have compensates : world.update ≠ .absent →
      world.checkout.run.saga.step = .compensating ∧
          compensationsIn (owed world.checkout.run.pending) ≠ [] ∨
        world.checkout.run.saga.step = .compensated ∧ Undone orderId world.checkout := by
    intro present
    have cancelled := inv.accepted present
    rcases Composition.undoing_of_cancelled orderId world.checkout inv.cancellation cancelled with
      compensating | compensated
    · exact .inl compensating
    · exact .inr ⟨compensated, undone_of_compensated orderId world inv cancelled compensated⟩
  constructor
  · exact fun slot view answered => (fits slot view answered).1
  · intro slot view answered
    have cancelled := (fits slot view answered).2
    exact ⟨cancelled, undone_or_unsettled orderId world inv cancelled⟩
  · intro slot view answered
    obtain ⟨-, -, finished⟩ := inv.requests slot _ answered
    exact (inv.completed (finished rfl)).1
  · exact compensates
  · intro present ready
    obtain ⟨-, settled⟩ := canReturn_idle world.checkout.run ready
    refine (compensates present).resolve_left ?_
    rintro ⟨compensating, -⟩
    rcases settled with step | step <;> rw [compensating] at step <;> cases step

theorem answering_run (minLeadMs : Int) (maxRetries orderId : Nat) (events : List Event)
    (world final : World) (inv : Answering orderId world)
    (success : run (step minLeadMs maxRetries orderId) world events = some final) :
    Answering orderId final :=
  run_preserves (step minLeadMs maxRetries orderId) (Answering orderId)
    (fun _ event _ holds stepped => answering_step minLeadMs maxRetries event holds stepped)
    events world final inv success

/-- However requests, the saga and its participants interleave, a view reads `CANCELLED`, and
the order it is of is undone once the saga waits for no compensation of the cancel. -/
theorem cancel_answers (minLeadMs : Int) (maxRetries orderId : Nat) (db : Db)
    (input : CheckoutSagaInput) (row : db.statusOf orderId = some .reserving)
    (mode : input.mode = .checkout) (firstSeq : Nat) (nowMs : Int) (before after : List Event)
    (world final : World)
    (reached : run (step minLeadMs maxRetries orderId) (placed db input firstSeq nowMs) before =
      some world)
    (more : run (step minLeadMs maxRetries orderId) world after = some final) :
    CancelAnswers orderId world ∧
      ∀ slot view, Views world slot view → ¬ Unsettled world.checkout.run →
        Undone orderId final.checkout := by
  have inv := answering_run minLeadMs maxRetries orderId before _ world
    (answering_placed orderId db input row mode firstSeq nowMs) reached
  have answers := cancelAnswers_of_answering orderId world inv
  refine ⟨answers, ?_⟩
  intro slot view answered settled
  have undone := (answers.lands slot view answered).2.resolve_right settled
  have lasts := run_preserves (step minLeadMs maxRetries orderId)
    (fun now => Answering orderId now ∧ Undone orderId now.checkout)
    (fun _ event _ holds stepped =>
      ⟨answering_step minLeadMs maxRetries event holds.1 stepped,
        undone_lasts minLeadMs maxRetries event holds.1 holds.2 stepped⟩)
    after world final ⟨inv, undone⟩ more
  exact lasts.2

/-- Two of five pieces are reserved, the row is `PENDING`, and the saga waits for its payment. -/
def heldEvents : List Event :=
  [.checkout (.inventory (.setOnHand 21 5)),
    .checkout (.inventory (.tryReserve .pessimistic ⟨1, [⟨21, 2⟩], 9000, [31], []⟩)),
    .checkout (.saga (.tryAnswered 0 (.answered .reserved)) 0), .order .dispatchTry,
    .order (.writeTry 0 101 10), .checkout (.saga (.tryWritten 1 .applied) 0)]

def userCancel : OrderChangeCommand := changeOrder .pending .cancelled (some "user:cancel")

def cancelledEvents : List Event :=
  heldEvents ++ [.request 0 (.cancelOwn 7), .arrive 0, .order (.changeOrder userCancel 102 20)]

/-- Both compensations are carried out, and the update's answer leads to the view. -/
def compensatedEvents : List Event :=
  cancelledEvents ++
  [.checkout (.saga (.answered 2 (.written .applied)) 0), .checkout (.resolve .release),
    .checkout (.payment (.start 0 .cancel)), .checkout (.payment (.step 0 {})),
    .checkout (.saga (.answered 3 .compensated) 0), .checkout (.saga (.answered 4 .compensated) 0),
    .complete, .answer 0 .finished, .reread 0]

def cancelledView : OrderView :=
  ⟨some 1, .cancelled, "USD", 500, some 0, some "user:cancel", [⟨21, "Cup", 500, 1, 500⟩]⟩

/-- The buyer's view comes from the finished update, and everything is undone. -/
theorem cancel_answers_finished : ∃ world,
    run (step 10 3 1) (placed Trying.oneReserving ⟨.checkout, 0, none, 500, "USD", 1000⟩ 0 0)
      compensatedEvents = some world ∧
    world.requests 0 = some (.answered (some .finished) (.view cancelledView)) ∧
    CancelAnswers 1 world ∧ Undone 1 world.checkout := by
  have view : (run (step 10 3 1)
      (placed Trying.oneReserving ⟨.checkout, 0, none, 500, "USD", 1000⟩ 0 0)
      compensatedEvents).map (fun world =>
        decide (world.requests 0 = some (.answered (some .finished) (.view cancelledView)) ∧
          ¬ Unsettled world.checkout.run)) = some true := by
    decide +kernel
  obtain ⟨world, reached, same⟩ := Option.map_eq_some_iff.mp view
  obtain ⟨answered, settled⟩ := of_decide_eq_true same
  have answers := cancel_answers 10 3 1 Trying.oneReserving _ rfl rfl 0 0 compensatedEvents [] world
    world reached rfl
  exact ⟨world, reached, answered, answers.1,
    answers.2 0 cancelledView ⟨some .finished, answered⟩ settled⟩

/-- The engine does not answer in time, the row is read again, and the buyer asks once more. -/
def impatientEvents : List Event :=
  cancelledEvents ++ [.answer 0 .unavailable, .reread 0, .request 1 (.cancelOwn 7)]

/-- Both requests are answered with the cancelled order while its stock is still reserved. -/
theorem cancel_answered_held : ∃ world,
    run (step 10 3 1) (placed Trying.oneReserving ⟨.checkout, 0, none, 500, "USD", 1000⟩ 0 0)
      impatientEvents = some world ∧
    world.requests 0 = some (.answered (some .unavailable) (.view cancelledView)) ∧
    world.requests 1 = some (.answered none (.view cancelledView)) ∧
    world.checkout.stock.statusOf 1 = some .held ∧ ¬ Undone 1 world.checkout := by
  have view : (run (step 10 3 1)
      (placed Trying.oneReserving ⟨.checkout, 0, none, 500, "USD", 1000⟩ 0 0)
      impatientEvents).map (fun world =>
        decide (world.requests 0 = some (.answered (some .unavailable) (.view cancelledView)) ∧
          world.requests 1 = some (.answered none (.view cancelledView)) ∧
          world.checkout.stock.statusOf 1 = some .held)) = some true := by
    decide +kernel
  obtain ⟨world, reached, same⟩ := Option.map_eq_some_iff.mp view
  obtain ⟨first, second, held⟩ := of_decide_eq_true same
  refine ⟨world, reached, first, second, held, ?_⟩
  intro undone
  have released := undone.released
  rw [held] at released
  rcases released with status | status <;> cases status

end Commerce.Cancelling
