import Commerce.Lib.Decimals
import Commerce.Lib.JobQueues
import Commerce.Lib.Runs

/-!
# Domain events on their way to a consumer

The outbox relay, one queue with its workers and its dead-letter queue, the
replay tool, and the inbox with its sweep.  Every process takes one operation
on the queues or the database at a time, and can die between any two.
-/

set_option autoImplicit false

namespace Commerce.Messaging

open JobQueues

/-! ## Envelopes -/

structure DomainEventJob where
  /-- The outbox row id: what a consumer dedups on. -/
  outboxId : Nat
  eventType : String
  occurredAt : Nat
  deriving DecidableEq, Repr

structure DeadLetterJob extends DomainEventJob where
  attemptsMade : Nat
  failedAt : Nat
  deriving DecidableEq, Repr

def isRoutableId (id : Nat) : Bool := decide (2 ^ 18 ≤ id) && decide (id < 2 ^ 63)

def isWellFormedEnvelope (job : DomainEventJob) : Bool :=
  isRoutableId job.outboxId && job.eventType != ""

def jobIdFor (outboxId : Nat) : String := "msg-" ++ toString outboxId

@[simp] theorem jobIdFor_inj (first second : Nat) :
    jobIdFor first = jobIdFor second ↔ first = second := by
  constructor
  · intro same
    exact Decimals.toString_inj first second (String.append_right_inj "msg-" |>.mp same)
  · rintro rfl
    rfl

/-! ## Retention -/

def secPerDay : Nat := 86_400

def dayMs : Nat := 86_400_000

/-- `REMOVE_ON_FAIL_AGE_SEC`, and the `count` beside it. -/
def removeOnFailAgeSec : Nat := 604_800

def removeOnFailCount : Nat := 10_000

def minInboxRetentionDays : Nat := (removeOnFailAgeSec + secPerDay - 1) / secPerDay

/-- The start-up check of the inbox sweep; the error names the two ages and the least retention. -/
def assertClearsRedeliveryHorizon (days : Nat) : Except (Nat × Nat × Nat) Unit :=
  let retentionSec := days * secPerDay
  if retentionSec < removeOnFailAgeSec then
    .error (retentionSec, removeOnFailAgeSec, minInboxRetentionDays)
  else .ok ()

structure Settings where
  inboxDays : Nat
  /-- The attempts an event's job is added with, by the relay and by a replay. -/
  attemptsFor : String → Nat

def Settings.retentionMs (settings : Settings) : Nat := settings.inboxDays * dayMs

/-! ## One consume -/

inductive Failure where
  | transient
  /-- `UnrecoverableError`: no further attempt is made. -/
  | permanent
  deriving DecidableEq, Repr

inductive ConsumeResult where
  | processed
  | duplicate
  deriving DecidableEq, Repr

def assertEnvelope (job : DomainEventJob) : Except Failure Unit :=
  if isWellFormedEnvelope job then .ok () else .error .permanent

def consume (claimed : Bool) (prepared : Except Failure Unit) : Except Failure ConsumeResult :=
  if claimed then prepared.map fun _ => .processed else .ok .duplicate

inductive DeliveryPhase where
  | picked
  | prepared (result : Except Failure Unit)
  /-- `processed_at` is the start of the transaction. -/
  | inTransaction (result : Except Failure Unit) (startedAt : Nat)
  | returned (result : Except Failure ConsumeResult)
  | stopped
  deriving DecidableEq, Repr

structure Delivery where
  job : DomainEventJob
  phase : DeliveryPhase
  deriving DecidableEq, Repr

/-! ## Routing and replaying dead letters -/

/-- `route` removes the entry of the message before it adds the new one. -/
inductive RouterPhase where
  | removing
  | adding
  | stopped
  deriving DecidableEq, Repr

structure Router where
  dead : DeadLetterJob
  phase : RouterPhase
  deriving DecidableEq, Repr

def route (job : Job DomainEventJob) (now : Nat) : List Router :=
  match job.finishedOn with
  | none => []
  | some _ => [⟨⟨job.data, job.attemptsMade, now⟩, .removing⟩]

structure ReplayOptions where
  dryRun : Bool
  force : Bool
  deriving DecidableEq, Repr

inductive ReplayPhase where
  | lookup
  | judging
  | gettingStale
  | removingStale
  | adding
  | rereading
  | removingDead
  | stopped
  deriving DecidableEq, Repr

structure Replay where
  /-- The entry as the page held it. -/
  job : DeadLetterJob
  options : ReplayOptions
  phase : ReplayPhase
  deriving DecidableEq, Repr

def olderThanRetention (settings : Settings) (job : DeadLetterJob) (now : Nat) : Bool :=
  decide (settings.retentionMs < now - job.occurredAt)

def Replay.goesAhead (settings : Settings) (replay : Replay) (now : Nat) : Bool :=
  (!olderThanRetention settings replay.job now || replay.options.force) && !replay.options.dryRun

/-! ## The world -/

structure OutboxRow where
  eventType : String
  createdAt : Nat
  publishedAt : Option Nat
  deriving DecidableEq, Repr

structure World where
  now : Nat
  outbox : Nat → Option OutboxRow
  /-- The open relay transactions, with the rows each has put on the queue. -/
  relays : List (List Nat)
  main : Queue String DomainEventJob
  deadLetters : Queue String DeadLetterJob
  deliveries : List Delivery
  routers : List Router
  replays : List Replay
  /-- `processed_at` of the claim on a message. -/
  inbox : Nat → Option Nat
  /-- When each message was appended. -/
  born : Nat → Option Nat
  /-- The messages the relay ever put on the queue. -/
  entered : Nat → Bool
  /-- How often the effect of a message was committed. -/
  applied : Nat → Nat
  /-- The messages whose dead letter an operator dropped. -/
  discarded : Nat → Bool

def start : World where
  now := 0
  outbox _ := none
  relays := []
  main _ := none
  deadLetters _ := none
  deliveries := []
  routers := []
  replays := []
  inbox _ := none
  born _ := none
  entered _ := false
  applied _ := 0
  discarded _ := false

inductive Process where
  | relay (slot : Nat)
  | delivery (slot : Nat)
  | router (slot : Nat)
  | replay (slot : Nat)
  deriving DecidableEq, Repr

inductive Event where
  /-- Time passes. -/
  | tick (elapsed : Nat)
  /-- A producer's transaction, begun at `createdAt`, commits with the event in it. -/
  | append (id : Nat) (eventType : String) (createdAt : Nat)
  | openRelay
  | publish (slot id : Nat)
  | commitRelay (slot : Nat)
  | sweepOutbox (doomed : List Nat)
  /-- A worker takes the job of a message. -/
  | pick (id : Nat)
  | prepare (slot : Nat) (result : Except Failure Unit)
  | begin (slot : Nat)
  | commit (slot : Nat)
  /-- The transaction commits and its process never hears of it. -/
  | commitUnheard (slot : Nat)
  | abort (slot : Nat) (failure : Failure)
  /-- The worker moves its job to completed or to failed. -/
  | report (slot : Nat)
  | expireLock (id : Nat)
  | stall (id : Nat) (giveUp : Bool)
  /-- A failed job is run again by hand. -/
  | rerun (id : Nat)
  /-- A finished job leaves the queue by age or behind `newer` ones. -/
  | evict (id : Nat) (newer : List Nat)
  | routerTurn (slot : Nat)
  | replay (id : Nat) (options : ReplayOptions)
  | replayTurn (slot : Nat)
  | die (process : Process)
  | sweepInbox (readAt : Nat) (doomed : List Nat)
  /-- An operator drops a dead letter by hand. -/
  | discard (id : Nat)
  deriving DecidableEq, Repr

/-! ## Steps -/

section Steps

variable (settings : Settings) (world : World)

def World.setDelivery (slot : Nat) (delivery : Delivery) (phase : DeliveryPhase) : World :=
  { world with deliveries := world.deliveries.set slot { delivery with phase := phase } }

def World.setRouter (slot : Nat) (router : Router) (phase : RouterPhase) : World :=
  { world with routers := world.routers.set slot { router with phase := phase } }

def World.setReplay (slot : Nat) (replay : Replay) (phase : ReplayPhase) : World :=
  { world with replays := world.replays.set slot { replay with phase := phase } }

/-- `publish` of one row: the job carries the row's id and birth. -/
def publishRow (slot id : Nat) (batch : List Nat) (row : OutboxRow) : World :=
  { world with
    main := world.main.add (jobIdFor id) ⟨id, row.eventType, row.createdAt⟩
      (settings.attemptsFor row.eventType)
    relays := world.relays.set slot (id :: batch)
    entered := Function.update world.entered id true }

def markPublished (batch : List Nat) (id : Nat) : Option OutboxRow :=
  (world.outbox id).map fun row =>
    if id ∈ batch then { row with publishedAt := some world.now } else row

def sweepable (id : Nat) : Bool :=
  match world.outbox id with
  | some row => row.publishedAt.isSome
  | none => true

def applyEffect (slot : Nat) (delivery : Delivery) (startedAt : Nat)
    (result : Except Failure ConsumeResult) : World :=
  { world.setDelivery slot delivery (.returned result) with
    inbox := Function.update world.inbox delivery.job.outboxId (some startedAt)
    applied := Function.update world.applied delivery.job.outboxId
      (world.applied delivery.job.outboxId + 1) }

def commitTransaction (slot : Nat) (delivery : Delivery) (prepared : Except Failure Unit)
    (startedAt : Nat) : World :=
  let outcome := consume (world.inbox delivery.job.outboxId).isNone prepared
  match outcome with
  | .ok .processed => applyEffect world slot delivery startedAt outcome
  | _ => world.setDelivery slot delivery (.returned outcome)

/-- A worker that lost its lock, or whose job is gone, moves nothing. -/
def reportResult (slot : Nat) (delivery : Delivery) (result : Except Failure ConsumeResult) :
    World :=
  let settled := world.setDelivery slot delivery .stopped
  let moved := world.main.move (jobIdFor delivery.job.outboxId) fun job =>
    match result with
    | .ok _ => job.complete slot world.now
    | .error failure => job.fail slot world.now (failure == .permanent)
  match moved, result with
  | none, _ => settled
  | some (_, main), .ok _ => { settled with main := main }
  | some (job, main), .error _ =>
      { settled with main := main, routers := world.routers ++ route job world.now }

/-- A failed job goes by the age or the count of `removeOnFail`; a completed one may go at any
time. -/
def evictable (id : Nat) (newer : List Nat) : Bool :=
  match (world.main (jobIdFor id)).map Job.state with
  | some (.completed _) => true
  | some (.failed finishedOn) =>
      decide (finishedOn + removeOnFailAgeSec * 1000 < world.now) ||
        (decide newer.Nodup && decide (removeOnFailCount ≤ newer.length) &&
          newer.all fun other =>
            match (world.main (jobIdFor other)).map Job.state with
            | some (.failed later) => decide (finishedOn ≤ later) && other != id
            | _ => false)
  | _ => false

def routerTurn (slot : Nat) (router : Router) : Option World :=
  let id := jobIdFor router.dead.outboxId
  match router.phase with
  | .removing =>
      (world.deadLetters.remove id).map fun deadLetters =>
        { world.setRouter slot router .adding with deadLetters := deadLetters }
  | .adding =>
      some { world.setRouter slot router .stopped with
        deadLetters := world.deadLetters.add id router.dead 0 }
  | .stopped => none

def replayTurn (slot : Nat) (replay : Replay) : Option World :=
  let id := jobIdFor replay.job.outboxId
  match replay.phase with
  | .lookup =>
      let allowed := isWellFormedEnvelope replay.job.toDomainEventJob &&
        (world.inbox replay.job.outboxId).isNone
      some (world.setReplay slot replay (if allowed then .judging else .stopped))
  | .judging =>
      let phase := if replay.goesAhead settings world.now then .gettingStale else .stopped
      some (world.setReplay slot replay phase)
  | .gettingStale =>
      let phase := if (world.main id).isSome then .removingStale else .adding
      some (world.setReplay slot replay phase)
  | .removingStale =>
      match world.main.remove id with
      | none => some (world.setReplay slot replay .stopped)
      | some main => some { world.setReplay slot replay .adding with main := main }
  | .adding =>
      some { world.setReplay slot replay .rereading with
        main := world.main.add id replay.job.toDomainEventJob
          (settings.attemptsFor replay.job.eventType) }
  | .rereading =>
      let current := (world.deadLetters id).map (·.data.failedAt)
      let phase := if current = some replay.job.failedAt then .removingDead else .stopped
      some (world.setReplay slot replay phase)
  | .removingDead =>
      (world.deadLetters.remove id).map fun deadLetters =>
        { world.setReplay slot replay .stopped with deadLetters := deadLetters }
  | .stopped => none

def World.die : Process → World
  | .relay slot => { world with relays := world.relays.set slot [] }
  | .delivery slot =>
      match world.deliveries[slot]? with
      | some delivery => world.setDelivery slot delivery .stopped
      | none => world
  | .router slot =>
      match world.routers[slot]? with
      | some router => world.setRouter slot router .stopped
      | none => world
  | .replay slot =>
      match world.replays[slot]? with
      | some replay => world.setReplay slot replay .stopped
      | none => world

end Steps

/-- The claims of the doomed messages are older than the retention at the time it read. -/
def World.sweptBefore (world : World) (settings : Settings) (readAt : Nat) (id : Nat) : Bool :=
  match world.inbox id with
  | some processedAt => decide (processedAt + settings.retentionMs < readAt)
  | none => false

def step (settings : Settings) (world : World) : Event → Option World
  | .tick elapsed => some { world with now := world.now + elapsed }
  | .append id eventType createdAt =>
      if world.born id = none ∧ createdAt ≤ world.now then
        some { world with
          outbox := Function.update world.outbox id (some ⟨eventType, createdAt, none⟩)
          born := Function.update world.born id (some createdAt) }
      else none
  | .openRelay => some { world with relays := world.relays ++ [[]] }
  | .publish slot id =>
      match world.relays[slot]?, world.outbox id with
      | some batch, some row =>
          if row.publishedAt = none then some (publishRow settings world slot id batch row)
          else none
      | _, _ => none
  | .commitRelay slot =>
      world.relays[slot]?.map fun batch =>
        { world with outbox := markPublished world batch, relays := world.relays.set slot [] }
  | .sweepOutbox doomed =>
      if doomed.all (sweepable world) then
        some { world with outbox := fun id => if id ∈ doomed then none else world.outbox id }
      else none
  | .pick id =>
      (world.main.move (jobIdFor id) (Job.take world.deliveries.length)).map fun (job, main) =>
        { world with main := main, deliveries := world.deliveries ++ [⟨job.data, .picked⟩] }
  | .prepare slot result =>
      match world.deliveries[slot]? with
      | some ⟨job, .picked⟩ =>
          let phase := match assertEnvelope job with
            | .ok () => DeliveryPhase.prepared result
            | .error failure => .returned (.error failure)
          some (world.setDelivery slot ⟨job, .picked⟩ phase)
      | _ => none
  | .begin slot =>
      match world.deliveries[slot]? with
      | some ⟨job, .prepared result⟩ =>
          some (world.setDelivery slot ⟨job, .prepared result⟩ (.inTransaction result world.now))
      | _ => none
  | .commit slot =>
      match world.deliveries[slot]? with
      | some ⟨job, .inTransaction result startedAt⟩ =>
          some (commitTransaction world slot ⟨job, .inTransaction result startedAt⟩ result
            startedAt)
      | _ => none
  | .commitUnheard slot =>
      match world.deliveries[slot]? with
      | some ⟨job, .inTransaction (.ok ()) startedAt⟩ =>
          if world.inbox job.outboxId = none then
            some (applyEffect world slot ⟨job, .inTransaction (.ok ()) startedAt⟩ startedAt
              (.error .transient))
          else none
      | _ => none
  | .abort slot failure =>
      match world.deliveries[slot]? with
      | some ⟨job, .prepared result⟩ =>
          some (world.setDelivery slot ⟨job, .prepared result⟩ (.returned (.error failure)))
      | some ⟨job, .inTransaction result startedAt⟩ =>
          some (world.setDelivery slot ⟨job, .inTransaction result startedAt⟩
            (.returned (.error failure)))
      | _ => none
  | .report slot =>
      match world.deliveries[slot]? with
      | some ⟨job, .returned result⟩ =>
          some (reportResult world slot ⟨job, .returned result⟩ result)
      | _ => none
  | .expireLock id =>
      (world.main.move (jobIdFor id) Job.expire).map fun (_, main) => { world with main := main }
  | .stall id giveUp =>
      (world.main.move (jobIdFor id) (Job.stall world.now giveUp)).map fun (job, main) =>
        { world with main := main, routers := world.routers ++ route job world.now }
  | .rerun id =>
      (world.main.move (jobIdFor id) Job.retry).map fun (_, main) => { world with main := main }
  | .evict id newer =>
      if evictable world id newer then
        some { world with main := Function.update world.main (jobIdFor id) none }
      else none
  | .routerTurn slot => world.routers[slot]?.bind (routerTurn world slot)
  | .replay id options =>
      (world.deadLetters (jobIdFor id)).map fun job =>
        { world with replays := world.replays ++ [⟨job.data, options, .lookup⟩] }
  | .replayTurn slot => world.replays[slot]?.bind (replayTurn settings world slot)
  | .die process => some (world.die process)
  | .sweepInbox readAt doomed =>
      if readAt ≤ world.now ∧ doomed.all (world.sweptBefore settings readAt) then
        some { world with inbox := fun id => if id ∈ doomed then none else world.inbox id }
      else none
  | .discard id =>
      some { world with
        deadLetters := Function.update world.deadLetters (jobIdFor id) none
        discarded := Function.update world.discarded id true }

end Commerce.Messaging
