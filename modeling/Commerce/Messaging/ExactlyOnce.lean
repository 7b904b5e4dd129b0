import Commerce.Messaging.Steps

/-!
# The effect of a domain event is applied once

The inbox claim and the effect commit together, so a redelivery finds the
claim.  That holds for as long as the claim does: the sweep removes it by age,
and the age counts from the start of the transaction that wrote it, while a
failed job is kept by the age of its last failure.  A claim that is swept only
when its message can no longer be delivered keeps the effect single.
-/

set_option autoImplicit false

namespace Commerce.Messaging

open JobQueues

/-! ## The condition -/

def DeliveryPhase.spent : DeliveryPhase → Bool
  | .returned _ | .stopped => true
  | _ => false

/-- The replay has not yet passed its checks, or has nothing left to add. -/
def ReplayPhase.harmless : ReplayPhase → Bool
  | .gettingStale | .removingStale | .adding => false
  | _ => true

/-- The message can no longer be delivered: its outbox row is not the relay's work, its job is
completed or gone, and no delivery and no replay of it is on its way. -/
structure Settled (world : World) (id : Nat) : Prop where
  row : ∀ row, world.outbox id = some row → row.publishedAt ≠ none
  job : ∀ job, world.main (jobIdFor id) = some job → job.isCompleted = true
  deliveries : ∀ delivery ∈ world.deliveries, delivery.job.outboxId = id →
    delivery.phase.spent = true
  replays : ∀ replay ∈ world.replays, replay.job.outboxId = id → replay.phase.harmless = true

instance (world : World) (id : Nat) : Decidable (Settled world id) :=
  decidable_of_iff
    ((∀ row ∈ world.outbox id, row.publishedAt ≠ none) ∧
      (∀ job ∈ world.main (jobIdFor id), job.isCompleted = true) ∧
      (∀ delivery ∈ world.deliveries, delivery.job.outboxId = id → delivery.phase.spent = true) ∧
      ∀ replay ∈ world.replays, replay.job.outboxId = id → replay.phase.harmless = true)
    ⟨fun ⟨row, job, deliveries, replays⟩ => ⟨row, job, deliveries, replays⟩,
      fun settled => ⟨settled.row, settled.job, settled.deliveries, settled.replays⟩⟩

/-- The inbox sweep takes no claim of a message that can still be delivered. -/
def SweepsSettled (world : World) : Event → Prop
  | .sweepInbox _ doomed => ∀ id ∈ doomed, Settled world id
  | _ => True

def Unforced : Event → Prop
  | .replay _ options => options.force = false
  | _ => True

instance (world : World) (event : Event) : Decidable (SweepsSettled world event) := by
  unfold SweepsSettled
  split <;> infer_instance

def Event.forces : Event → Bool
  | .replay _ options => options.force
  | _ => false

instance (event : Event) : Decidable (Unforced event) :=
  decidable_of_iff (event.forces = false) (by cases event <;> simp [Unforced, Event.forces])

structure Careful (world : World) (event : Event) : Prop where
  unforced : Unforced event
  settled : SweepsSettled world event
  handsOver : HandsOver world event

instance (world : World) (event : Event) : Decidable (Careful world event) :=
  decidable_of_iff (Unforced event ∧ SweepsSettled world event ∧ HandsOver world event)
    ⟨fun ⟨unforced, settled, handsOver⟩ => ⟨unforced, settled, handsOver⟩,
      fun careful => ⟨careful.unforced, careful.settled, careful.handsOver⟩⟩

/-! ## Envelopes are genuine -/

def Genuine (world : World) (job : DomainEventJob) : Prop :=
  world.born job.outboxId = some job.occurredAt

structure Envelopes (world : World) : Prop where
  past : ∀ id bornAt, world.born id = some bornAt → bornAt ≤ world.now
  rows : ∀ id row, world.outbox id = some row → world.born id = some row.createdAt
  jobs : ∀ id job, world.main (jobIdFor id) = some job → Genuine world job.data
  entries : ∀ id entry, world.deadLetters (jobIdFor id) = some entry →
    Genuine world entry.data.toDomainEventJob
  deliveries : ∀ delivery ∈ world.deliveries, Genuine world delivery.job
  routers : ∀ router ∈ world.routers, Genuine world router.dead.toDomainEventJob
  replays : ∀ replay ∈ world.replays, Genuine world replay.job.toDomainEventJob ∧
    replay.options.force = false

theorem born_kept {settings : Settings} {world next : World} {event : Event}
    (stepped : step settings world event = some next) {id bornAt : Nat}
    (born : world.born id = some bornAt) : next.born id = some bornAt := by
  cases step_outbox stepped with
  | appended appendedId eventType createdAt unborn past outbox bornNow relays entered =>
      have different : id ≠ appendedId := by
        rintro rfl
        rw [unborn] at born
        cases born
      rw [bornNow, Function.update_of_ne different, born]
  | same outbox bornNow => rw [bornNow, born]
  | published id row found unpublished outbox bornNow => rw [bornNow, born]
  | marked batch opened outbox bornNow => rw [bornNow, born]
  | swept doomed published outbox bornNow => rw [bornNow, born]

theorem row_from {world next : World} (change : OutboxChange world next) {id : Nat}
    {row : OutboxRow} (found : next.outbox id = some row) :
    (world.born id = none ∧ next.born id = some row.createdAt ∧ row.publishedAt = none ∧
      row.createdAt ≤ world.now) ∨
    ∃ before, world.outbox id = some before ∧ row.createdAt = before.createdAt ∧
      (before.publishedAt ≠ none → row.publishedAt ≠ none) := by
  cases change with
  | same outbox => exact .inr ⟨row, outbox ▸ found, rfl, fun kept => kept⟩
  | appended appendedId eventType createdAt unborn past outbox bornNow =>
      rw [outbox] at found
      by_cases itself : id = appendedId
      · subst itself
        rw [Function.update_self] at found
        cases found
        exact .inl ⟨unborn, by rw [bornNow, Function.update_self], rfl, past⟩
      · rw [Function.update_of_ne itself] at found
        exact .inr ⟨row, found, rfl, fun kept => kept⟩
  | published publishedId before there unpublished outbox =>
      exact .inr ⟨row, outbox ▸ found, rfl, fun kept => kept⟩
  | marked batch opened outbox =>
      rw [outbox] at found
      obtain ⟨before, there, rfl⟩ := Option.map_eq_some_iff.mp found
      refine .inr ⟨before, there, ?_, fun kept => ?_⟩
      · split <;> rfl
      · split
        · exact Option.some_ne_none _
        · exact kept
  | swept doomed published outbox =>
      rw [outbox] at found
      dsimp only at found
      split at found
      · cases found
      · exact .inr ⟨row, found, rfl, fun kept => kept⟩

theorem envelopes_step {settings : Settings} {world next : World} {event : Event}
    (envelopes : Envelopes world) (unforced : Unforced event)
    (stepped : step settings world event = some next) : Envelopes next := by
  have kept : ∀ {job : DomainEventJob}, Genuine world job → Genuine next job :=
    fun genuine => born_kept stepped genuine
  have change := step_outbox stepped
  have later := step_now stepped
  refine ⟨?_, ?_, ?_, ?_, ?_, ?_, ?_⟩
  · intro id bornAt born
    cases change with
    | appended appendedId eventType createdAt unborn past outbox bornNow =>
        rw [bornNow] at born
        by_cases itself : id = appendedId
        · subst itself
          rw [Function.update_self] at born
          cases born
          omega
        · rw [Function.update_of_ne itself] at born
          have before := envelopes.past id bornAt born
          omega
    | same outbox bornNow =>
        exact Nat.le_trans (envelopes.past id bornAt (bornNow ▸ born)) later
    | published publishedId row found unpublished outbox bornNow =>
        exact Nat.le_trans (envelopes.past id bornAt (bornNow ▸ born)) later
    | marked batch opened outbox bornNow =>
        exact Nat.le_trans (envelopes.past id bornAt (bornNow ▸ born)) later
    | swept doomed published outbox bornNow =>
        exact Nat.le_trans (envelopes.past id bornAt (bornNow ▸ born)) later
  · intro id row found
    rcases row_from change found with ⟨-, born, -⟩ | ⟨before, there, created, -⟩
    · exact born
    · rw [created]
      exact born_kept stepped (envelopes.rows id before there)
  · intro id job found
    cases step_main stepped found with
    | kept there => exact kept (envelopes.jobs id job there)
    | moved before there moved done =>
        rw [moved.data]
        exact kept (envelopes.jobs id before there)
    | published row there unpublished data fresh =>
        rw [data]
        exact kept (envelopes.rows id row there)
    | replayed replay listed phase names data fresh =>
        rw [data]
        exact kept (envelopes.replays replay listed).1
  · intro id entry found
    rcases step_deadLetters stepped found with there | ⟨router, listed, data⟩
    · exact kept (envelopes.entries id entry there)
    · rw [data]
      exact kept (envelopes.routers router listed)
  · intro delivery member
    rcases step_deliveries stepped member with known | ⟨phase, known, -⟩ | ⟨id, job, there, -, rfl⟩
    · exact kept (envelopes.deliveries delivery known)
    · exact kept (envelopes.deliveries ⟨delivery.job, phase⟩ known)
    · exact kept (envelopes.jobs id job there)
  · intro router member
    rcases step_routers stepped member with ⟨earlier, known, same⟩ | ⟨id, job, there, same⟩
    · rw [← same]
      exact kept (envelopes.routers earlier known)
    · rw [same]
      exact kept (envelopes.jobs id job there)
  · intro replay member
    cases step_replays stepped member with
    | kept listed =>
        obtain ⟨genuine, noForce⟩ := envelopes.replays replay listed
        exact ⟨kept genuine, noForce⟩
    | opened id options entry opening found same =>
        subst same
        subst opening
        exact ⟨kept (envelopes.entries id entry found), unforced⟩
    | walked before listed job options walks =>
        obtain ⟨genuine, noForce⟩ := envelopes.replays before listed
        rw [job, options]
        exact ⟨kept genuine, noForce⟩
    | added before listed job options phases =>
        obtain ⟨genuine, noForce⟩ := envelopes.replays before listed
        rw [job, options]
        exact ⟨kept genuine, noForce⟩

/-! ## A settled message stays settled -/

/-- The message was born longer ago than the inbox keeps a claim. -/
def Outlived (settings : Settings) (world : World) (id : Nat) : Prop :=
  ∃ bornAt, world.born id = some bornAt ∧ bornAt + settings.retentionMs < world.now

theorem outlived_step {settings : Settings} {world next : World} {event : Event} {id : Nat}
    (outlived : Outlived settings world id) (stepped : step settings world event = some next) :
    Outlived settings next id := by
  obtain ⟨bornAt, born, old⟩ := outlived
  have later := step_now stepped
  exact ⟨bornAt, born_kept stepped born, by omega⟩

theorem not_goesAhead {settings : Settings} {world : World} {replay : Replay}
    (genuine : Genuine world replay.job.toDomainEventJob) (noForce : replay.options.force = false)
    (outlived : Outlived settings world replay.job.outboxId) :
    replay.goesAhead settings world.now = false := by
  obtain ⟨bornAt, born, old⟩ := outlived
  have same : replay.job.occurredAt = bornAt := Option.some.inj (genuine.symm.trans born)
  have older : olderThanRetention settings replay.job world.now = true := by
    simp only [olderThanRetention, decide_eq_true_eq]
    omega
  simp [Replay.goesAhead, older, noForce]

theorem settled_step {settings : Settings} {world next : World} {event : Event} {id : Nat}
    (filed : Filed world) (envelopes : Envelopes world) (settled : Settled world id)
    (outlived : Outlived settings world id) (stepped : step settings world event = some next) :
    Settled next id := by
  have ⟨bornAt, born, _⟩ := outlived
  refine ⟨?_, ?_, ?_, ?_⟩
  · intro row found
    rcases row_from (step_outbox stepped) found with ⟨unborn, -⟩ | ⟨before, there, -, marked⟩
    · rw [unborn] at born
      cases born
    · exact marked (settled.row before there)
  · intro job found
    cases step_main stepped found with
    | kept there => exact settled.job job there
    | moved before there moved done =>
        have completed := settled.job before there
        rw [moved.pending] at completed
        cases completed
    | published row there unpublished data fresh => exact absurd unpublished (settled.row row there)
    | replayed replay listed phase names data fresh =>
        have harmless := settled.replays replay listed names
        rw [phase] at harmless
        cases harmless
  · intro delivery member names
    rcases step_deliveries stepped member with known | ⟨phase, known, moved⟩ |
      ⟨other, job, there, unfinished, rfl⟩
    · exact settled.deliveries delivery known names
    · have spent := settled.deliveries _ known names
      generalize after : delivery.phase = later at moved
      cases moved with
      | prepared result | begun result => cases spent
      | consumed | failed | ended => rfl
    · have same : other = id := (filed other job there).symm.trans names
      subst same
      rw [settled.job job there] at unfinished
      cases unfinished
  · intro replay member names
    cases step_replays stepped member with
    | kept listed => exact settled.replays replay listed names
    | opened other options entry opening found same =>
        subst same
        rfl
    | walked before listed job options walks =>
        obtain ⟨genuine, noForce⟩ := envelopes.replays before listed
        rw [job] at names
        have harmless := settled.replays before listed names
        generalize after : replay.phase = later at walks
        cases walks with
        | cleared phase ahead =>
            have refused := not_goesAhead genuine noForce (names.symm ▸ outlived)
            rw [ahead] at refused
            cases refused
        | found phase | free phase =>
            rw [phase] at harmless
            cases harmless
        | _ => rfl
    | added before listed job options phases =>
        rw [job] at names
        have harmless := settled.replays before listed names
        rcases phases with ⟨phase, -⟩ | phase
        · rw [phase] at harmless
          cases harmless
        · rw [phase]
          rfl

/-! ## Claims and effects -/

/-- Effects are claimed, and an effect whose claim was swept belongs to a settled message that
outlived the retention. -/
structure Claims (settings : Settings) (world : World) : Prop where
  begun : ∀ delivery ∈ world.deliveries, ∀ result startedAt,
    delivery.phase = .inTransaction result startedAt → delivery.job.occurredAt ≤ startedAt
  returned : ∀ delivery ∈ world.deliveries, ∀ outcome, delivery.phase = .returned (.ok outcome) →
    1 ≤ world.applied delivery.job.outboxId
  completed : ∀ id job, world.main (jobIdFor id) = some job → job.isCompleted = true →
    1 ≤ world.applied id
  claimed : ∀ id processedAt, world.inbox id = some processedAt → 1 ≤ world.applied id ∧
    ∃ bornAt, world.born id = some bornAt ∧ bornAt ≤ processedAt
  forgotten : ∀ id, 1 ≤ world.applied id → world.inbox id = none →
    Settled world id ∧ Outlived settings world id
  once : ∀ id, world.applied id ≤ 1

/-- A delivery that commits its effect is the first to do so. -/
theorem Claims.unapplied {settings : Settings} {world : World} (claims : Claims settings world)
    {delivery : Delivery} (listed : delivery ∈ world.deliveries)
    {result : Except Failure Unit} {startedAt : Nat}
    (phase : delivery.phase = .inTransaction result startedAt)
    (unclaimed : world.inbox delivery.job.outboxId = none) :
    world.applied delivery.job.outboxId = 0 := by
  by_contra applied
  have once : 1 ≤ world.applied delivery.job.outboxId := by omega
  obtain ⟨settled, -⟩ := claims.forgotten _ once unclaimed
  have spent := settled.deliveries delivery listed rfl
  rw [phase] at spent
  cases spent

theorem applied_mono {settings : Settings} {world next : World} {event : Event}
    (change : InboxChange settings world next event) (id : Nat) :
    world.applied id ≤ next.applied id := by
  cases change with
  | same inbox applied => exact Nat.le_of_eq (congrFun applied id).symm
  | applied delivery listed result startedAt phase unclaimed inbox applied =>
      rw [applied]
      by_cases itself : id = delivery.job.outboxId
      · subst itself
        rw [Function.update_self]
        exact Nat.le_succ _
      · exact Nat.le_of_eq (Function.update_of_ne itself _ _).symm
  | swept readAt doomed event past old inbox applied =>
      exact Nat.le_of_eq (congrFun applied id).symm

theorem claims_change {settings : Settings} {world next : World} {event : Event}
    (envelopes : Envelopes world) (claims : Claims settings world) (careful : Careful world event)
    (change : InboxChange settings world next event) (id : Nat) :
    (next.inbox id = world.inbox id ∧ next.applied id = world.applied id) ∨
    (∃ processedAt bornAt, next.inbox id = some processedAt ∧ next.applied id = 1 ∧
      world.born id = some bornAt ∧ bornAt ≤ processedAt) ∨
    (next.inbox id = none ∧ next.applied id = world.applied id ∧ Settled world id ∧
      Outlived settings world id) := by
  cases change with
  | same inbox applied => exact .inl ⟨congrFun inbox id, congrFun applied id⟩
  | applied delivery listed result startedAt phase unclaimed inbox applied =>
      by_cases itself : id = delivery.job.outboxId
      · subst itself
        have first := claims.unapplied listed phase unclaimed
        refine .inr (.inl ⟨startedAt, delivery.job.occurredAt, ?_, ?_,
          envelopes.deliveries delivery listed,
          claims.begun delivery listed result startedAt phase⟩)
        · rw [inbox, Function.update_self]
        · rw [applied, Function.update_self, first]
      · left
        rw [inbox, applied, Function.update_of_ne itself, Function.update_of_ne itself]
        exact ⟨rfl, rfl⟩
  | swept readAt doomed sweeping past old inbox applied =>
      by_cases member : id ∈ doomed
      · subst sweeping
        have settled : Settled world id := careful.settled id member
        have due := old id member
        simp only [World.sweptBefore] at due
        split at due
        · rename_i processedAt claim
          obtain ⟨-, bornAt, born, before⟩ := claims.claimed id processedAt claim
          refine .inr (.inr ⟨?_, congrFun applied id, settled, bornAt, born, ?_⟩)
          · rw [inbox]
            exact if_pos member
          · have due := of_decide_eq_true due
            omega
        · cases due
      · left
        rw [inbox]
        exact ⟨if_neg member, congrFun applied id⟩

theorem claims_step {settings : Settings} {world next : World} {event : Event}
    (filed : Filed world) (envelopes : Envelopes world) (claims : Claims settings world)
    (careful : Careful world event) (stepped : step settings world event = some next) :
    Claims settings next := by
  have change := step_inbox stepped
  have grown := applied_mono change
  have moved := claims_change envelopes claims careful change
  have claimed : ∀ id processedAt, next.inbox id = some processedAt → 1 ≤ next.applied id ∧
      ∃ bornAt, next.born id = some bornAt ∧ bornAt ≤ processedAt := by
    intro id processedAt claim
    rcases moved id with ⟨inbox, applied⟩ | ⟨claimedAt, bornAt, inbox, applied, born, before⟩ |
      ⟨inbox, -⟩
    · rw [inbox] at claim
      obtain ⟨once, bornAt, born, before⟩ := claims.claimed id processedAt claim
      exact ⟨applied ▸ once, bornAt, born_kept stepped born, before⟩
    · rw [inbox] at claim
      cases claim
      exact ⟨Nat.le_of_eq applied.symm, bornAt, born_kept stepped born, before⟩
    · rw [inbox] at claim
      cases claim
  refine ⟨?_, ?_, ?_, claimed, ?_, ?_⟩
  · intro delivery member result startedAt phase
    rcases step_deliveries stepped member with known | ⟨earlier, known, delivers⟩ |
      ⟨other, job, there, -, rfl⟩
    · exact claims.begun delivery known result startedAt phase
    · rw [phase] at delivers
      cases delivers with
      | begun =>
          exact envelopes.past _ _ (envelopes.deliveries ⟨delivery.job, .prepared result⟩ known)
    · cases phase
  · intro delivery member outcome phase
    rcases step_deliveries stepped member with known | ⟨earlier, known, delivers⟩ |
      ⟨other, job, there, -, rfl⟩
    · exact Nat.le_trans (claims.returned delivery known outcome phase) (grown _)
    · rw [phase] at delivers
      cases delivers with
      | consumed result startedAt outcome taken =>
          obtain ⟨processedAt, claim⟩ := Option.ne_none_iff_exists'.mp taken
          exact (claimed _ processedAt claim).1
    · cases phase
  · intro id job found completed
    cases step_main stepped found with
    | kept there => exact Nat.le_trans (claims.completed id job there completed) (grown id)
    | moved before there moved done =>
        obtain ⟨delivery, listed, outcome, names, phase⟩ := done completed
        exact names ▸ Nat.le_trans (claims.returned delivery listed outcome phase) (grown _)
    | published row there unpublished data fresh =>
        rw [fresh] at completed
        cases completed
    | replayed replay listed phase names data fresh =>
        rw [fresh] at completed
        cases completed
  · intro id once unclaimed
    have still : Settled world id ∧ Outlived settings world id := by
      rcases moved id with ⟨inbox, applied⟩ | ⟨processedAt, bornAt, inbox, -⟩ |
        ⟨-, -, settled, outlived⟩
      · exact claims.forgotten id (applied ▸ once) (inbox ▸ unclaimed)
      · rw [inbox] at unclaimed
        cases unclaimed
      · exact ⟨settled, outlived⟩
    exact ⟨settled_step filed envelopes still.1 still.2 stepped, outlived_step still.2 stepped⟩
  · intro id
    rcases moved id with ⟨-, applied⟩ | ⟨processedAt, bornAt, -, applied, -⟩ | ⟨-, applied, -⟩
    · exact applied ▸ claims.once id
    · exact Nat.le_of_eq applied
    · exact applied ▸ claims.once id

/-! ## A message is published or waits for the relay -/

structure Entered (world : World) : Prop where
  batches : ∀ batch ∈ world.relays, ∀ id ∈ batch, world.entered id = true
  rows : ∀ id row, world.outbox id = some row → row.publishedAt ≠ none → world.entered id = true
  waits : ∀ id, world.born id ≠ none → world.entered id = true ∨
    ∃ row, world.outbox id = some row ∧ row.publishedAt = none

theorem entered_step {world next : World} (entered : Entered world)
    (change : OutboxChange world next) : Entered next := by
  cases change with
  | same outbox born relays marks =>
      refine ⟨fun batch member id inBatch => ?_, fun id row found published => ?_, fun id exists' =>
        ?_⟩
      · rcases relays batch member with rfl | known
        · cases inBatch
        · exact marks ▸ entered.batches batch known id inBatch
      · exact marks ▸ entered.rows id row (outbox ▸ found) published
      · rw [marks, outbox]
        exact entered.waits id (born ▸ exists')
  | appended appendedId eventType createdAt unborn past outbox born relays marks =>
      refine ⟨fun batch member id inBatch => ?_, fun id row found published => ?_, fun id exists' =>
        ?_⟩
      · exact marks ▸ entered.batches batch (relays ▸ member) id inBatch
      · rw [outbox] at found
        by_cases itself : id = appendedId
        · subst itself
          rw [Function.update_self] at found
          cases found
          exact absurd rfl published
        · rw [Function.update_of_ne itself] at found
          exact marks ▸ entered.rows id row found published
      · rw [marks, outbox]
        by_cases itself : id = appendedId
        · subst itself
          exact .inr ⟨⟨eventType, createdAt, none⟩, Function.update_self .., rfl⟩
        · rw [born, Function.update_of_ne itself] at exists'
          rw [Function.update_of_ne itself]
          exact entered.waits id exists'
  | published publishedId row found unpublished outbox born relays marks =>
      have grown : ∀ id, world.entered id = true → next.entered id = true := by
        intro id before
        rw [marks]
        by_cases itself : id = publishedId
        · subst itself
          exact Function.update_self ..
        · rw [Function.update_of_ne itself, before]
      refine ⟨fun batch member id inBatch => ?_, fun id other there published => ?_,
        fun id exists' => ?_⟩
      · rcases relays batch member with known | ⟨earlier, known, rfl⟩
        · exact grown id (entered.batches batch known id inBatch)
        · rcases List.mem_cons.mp inBatch with rfl | before
          · rw [marks]
            exact Function.update_self ..
          · exact grown id (entered.batches earlier known id before)
      · exact grown id (entered.rows id other (outbox ▸ there) published)
      · rw [outbox]
        exact (entered.waits id (born ▸ exists')).imp_left (grown id)
  | marked batch opened outbox born relays marks =>
      refine ⟨fun other member id inBatch => ?_, fun id row found published => ?_, fun id exists' =>
        ?_⟩
      · rcases relays other member with rfl | known
        · cases inBatch
        · exact marks ▸ entered.batches other known id inBatch
      · rw [outbox] at found
        obtain ⟨before, there, same⟩ := Option.map_eq_some_iff.mp found
        rw [marks]
        split at same
        · rename_i inBatch
          exact entered.batches batch opened id inBatch
        · subst same
          exact entered.rows id before there published
      · rw [marks]
        rcases entered.waits id (born ▸ exists') with there | ⟨row, found, unpublished⟩
        · exact .inl there
        · by_cases inBatch : id ∈ batch
          · exact .inl (entered.batches batch opened id inBatch)
          · refine .inr ⟨row, ?_, unpublished⟩
            simp [outbox, markPublished, found, inBatch]
  | swept doomed published outbox born relays marks =>
      refine ⟨fun batch member id inBatch => ?_, fun id row found there => ?_, fun id exists' => ?_⟩
      · exact marks ▸ entered.batches batch (relays ▸ member) id inBatch
      · rw [outbox] at found
        dsimp only at found
        split at found
        · cases found
        · exact marks ▸ entered.rows id row found there
      · rw [marks]
        rcases entered.waits id (born ▸ exists') with there | ⟨row, found, unpublished⟩
        · exact .inl there
        · have kept : id ∉ doomed := by
            intro member
            have collected := List.all_eq_true.mp published id member
            simp [sweepable, found, unpublished] at collected
          refine .inr ⟨row, ?_, unpublished⟩
          rw [outbox]
          exact (if_neg kept).trans found

/-! ## Whole runs -/

def World.Deliverable (world : World) (id : Nat) : Prop :=
  (∃ row, world.outbox id = some row ∧ row.publishedAt = none) ∨
  (∃ job, world.main (jobIdFor id) = some job ∧ job.isCompleted = false) ∨
  world.deadLetters (jobIdFor id) ≠ none

structure Accounted (settings : Settings) (world : World) : Prop where
  secured : Secured world
  envelopes : Envelopes world
  claims : Claims settings world
  entered : Entered world

theorem accounted_start (settings : Settings) : Accounted settings start where
  secured := secured_start
  envelopes := by
    refine ⟨?_, ?_, ?_, ?_, ?_, ?_, ?_⟩
    · intro id bornAt born
      cases born
    · intro id row found
      cases found
    · intro id job found
      cases found
    · intro id entry found
      cases found
    · intro delivery member
      cases member
    · intro router member
      cases member
    · intro replay member
      cases member
  claims := by
    refine ⟨?_, ?_, ?_, ?_, ?_, ?_⟩
    · intro delivery member
      cases member
    · intro delivery member
      cases member
    · intro id job found
      cases found
    · intro id processedAt claim
      cases claim
    · intro id applied
      cases applied
    · intro id
      exact Nat.zero_le 1
  entered := by
    refine ⟨?_, ?_, ?_⟩
    · intro batch member
      cases member
    · intro id row found
      cases found
    · intro id born
      exact absurd rfl born

theorem accounted_step {settings : Settings} {world next : World} {event : Event}
    (accounted : Accounted settings world) (careful : Careful world event)
    (stepped : step settings world event = some next) : Accounted settings next where
  secured := secured_step accounted.secured careful.handsOver stepped
  envelopes := envelopes_step accounted.envelopes careful.unforced stepped
  claims := claims_step accounted.secured.1 accounted.envelopes accounted.claims careful stepped
  entered := entered_step accounted.entered (step_outbox stepped)

/-- In every careful run of unforced replays: the effect of a message is applied at most once, and
one whose effect was not applied can still be delivered unless it was discarded. -/
theorem effect_applied_once (settings : Settings) (events : List Event) (world : World)
    (careful : Runs.Along (step settings) Careful start events)
    (ran : Runs.run (step settings) start events = some world) (id : Nat) :
    world.applied id ≤ 1 ∧
      (world.born id ≠ none → world.applied id = 0 → world.discarded id = false →
        world.Deliverable id) := by
  have accounted : Accounted settings world :=
    Runs.run_preserves_along (step settings) Careful (Accounted settings)
      (fun _ _ _ accounted careful stepped => accounted_step accounted careful stepped)
      events start world (accounted_start settings) careful ran
  refine ⟨accounted.claims.once id, fun born unapplied kept => ?_⟩
  rcases accounted.entered.waits id born with entered | waiting
  · rcases accounted.secured.2 id ⟨entered, unapplied, kept⟩ with held | parked
    · obtain ⟨job, found⟩ := Option.ne_none_iff_exists'.mp held
      refine .inr (.inl ⟨job, found, Bool.eq_false_iff.mpr fun completed => ?_⟩)
      have applied := accounted.claims.completed id job found completed
      omega
    · exact .inr (.inr parked.entry)
  · exact .inl waiting

theorem effect_applied_once_replayed :
    ∃ world, Runs.run (step oneAttempt) start
        (published ++ lastFailure 0 ++ [.routerTurn 0, .routerTurn 0] ++ replayed 0 7) =
          some world ∧
      world.applied 262144 ≤ 1 ∧ (world.born 262144 ≠ none → world.applied 262144 = 0 →
        world.discarded 262144 = false → world.Deliverable 262144) := by
  refine ⟨_, rfl, ?_⟩
  exact effect_applied_once oneAttempt
    (published ++ lastFailure 0 ++ [.routerTurn 0, .routerTurn 0] ++ replayed 0 7) _
    (by decide +kernel) rfl 262144

/-- A transaction of five seconds commits unheard on the last attempt.  Seven days after its start
the sweep removes the claim; the failed job is younger, is run again, and applies the effect. -/
def rerunAfterSweep : List Event :=
  published ++
    [.pick 262144, .prepare 0 (.ok ()), .begin 0, .tick 5_000, .commitUnheard 0, .report 0,
      .routerTurn 0, .routerTurn 0, .tick (604_800_000 - 4_999), .sweepInbox 604_801_001 [262144],
      .rerun 262144, .pick 262144, .prepare 1 (.ok ()), .begin 1, .commit 1]

theorem rerun_applies_twice :
    assertClearsRedeliveryHorizon oneAttempt.inboxDays = .ok () ∧
      (∀ event ∈ rerunAfterSweep, Unforced event) ∧
      (Runs.run (step oneAttempt) start rerunAfterSweep).map (·.applied 262144) = some 2 := by
  refine ⟨?_, ?_, ?_⟩ <;> decide +kernel

end Commerce.Messaging
