import Commerce.Messaging.Delivery

/-!
# What the moves between the two queues lose

The router and the replay tool move a message between the main queue and the
dead-letter queue, and neither move is atomic.  A message the relay put on the
queue stays in one of the two, as long as its job is only taken out of the
main queue while nobody is about to remove its dead letter.
-/

set_option autoImplicit false

namespace Commerce.Messaging

open JobQueues

/-! ## The law and its condition -/

/-- The message was put on the queue, nobody dropped it, and its effect has not been applied. -/
def World.Owed (world : World) (id : Nat) : Prop :=
  world.entered id = true ∧ world.applied id = 0 ∧ world.discarded id = false

def World.Held (world : World) (id : Nat) : Prop :=
  world.main (jobIdFor id) ≠ none ∨ world.deadLetters (jobIdFor id) ≠ none

/-- The dead-letter queue holds the message, and no router and no replay is about to remove the
entry. -/
structure Parked (world : World) (id : Nat) : Prop where
  entry : world.deadLetters (jobIdFor id) ≠ none
  routers : ∀ router ∈ world.routers, router.dead.outboxId = id → router.phase ≠ .removing
  replays : ∀ replay ∈ world.replays, replay.job.outboxId = id →
    replay.phase ≠ .rereading ∧ replay.phase ≠ .removingDead

instance (world : World) (id : Nat) : Decidable (world.Owed id) :=
  inferInstanceAs (Decidable (_ ∧ _ ∧ _))

instance (world : World) (id : Nat) : Decidable (Parked world id) :=
  decidable_of_iff
    (world.deadLetters (jobIdFor id) ≠ none ∧
      (∀ router ∈ world.routers, router.dead.outboxId = id → router.phase ≠ .removing) ∧
      ∀ replay ∈ world.replays, replay.job.outboxId = id →
        replay.phase ≠ .rereading ∧ replay.phase ≠ .removingDead)
    ⟨fun ⟨entry, routers, replays⟩ => ⟨entry, routers, replays⟩,
      fun parked => ⟨parked.entry, parked.routers, parked.replays⟩⟩

def takesJob (world : World) : Event → Option Nat
  | .replayTurn slot =>
      world.replays[slot]?.bind fun replay =>
        if replay.phase = .removingStale ∧
            (world.main (jobIdFor replay.job.outboxId)).any (!·.locked) then
          some replay.job.outboxId
        else none
  | .evict id _ => some id
  | _ => none

/-- An owed message's job is taken out of the main queue only while its dead letter is parked. -/
def HandsOver (world : World) (event : Event) : Prop :=
  ∀ id, takesJob world event = some id → world.Owed id → Parked world id

instance (world : World) (event : Event) : Decidable (HandsOver world event) :=
  match taken : takesJob world event with
  | none => .isTrue fun _ took => nomatch taken.symm.trans took
  | some id =>
      decidable_of_iff (world.Owed id → Parked world id)
        ⟨fun parked _ took => Option.some.inj (taken.symm.trans took) ▸ parked,
          fun handsOver => handsOver id taken⟩

/-! ## What a step leaves of one message -/

def Filed (world : World) : Prop :=
  ∀ id job, world.main (jobIdFor id) = some job → job.data.outboxId = id

def Safe (world : World) (id : Nat) : Prop :=
  world.main (jobIdFor id) ≠ none ∨ Parked world id

structure Keeps (before after : World) (id : Nat) : Prop where
  main : before.main (jobIdFor id) ≠ none → after.main (jobIdFor id) ≠ none
  entry : before.deadLetters (jobIdFor id) ≠ none → after.deadLetters (jobIdFor id) ≠ none
  routers : ∀ router ∈ after.routers, router.dead.outboxId = id → router.phase = .removing →
    router ∈ before.routers ∨ after.main (jobIdFor id) ≠ none
  replays : ∀ replay ∈ after.replays, replay.job.outboxId = id →
    replay.phase = .rereading ∨ replay.phase = .removingDead →
    (∃ earlier ∈ before.replays, earlier.job = replay.job ∧
      (earlier.phase = .rereading ∨ earlier.phase = .removingDead)) ∨
    after.main (jobIdFor id) ≠ none

theorem Keeps.parked {before after : World} {id : Nat} (keeps : Keeps before after id)
    (parked : Parked before id) : Safe after id := by
  by_cases held : after.main (jobIdFor id) = none
  · refine .inr ⟨keeps.entry parked.entry, ?_, ?_⟩
    · intro router member same removing
      rcases keeps.routers router member same removing with known | there
      · exact parked.routers router known same removing
      · exact there held
    · intro replay member same
      by_contra rereads
      have rereads : replay.phase = .rereading ∨ replay.phase = .removingDead := by
        by_contra neither
        exact rereads ⟨fun phase => neither (.inl phase), fun phase => neither (.inr phase)⟩
      rcases keeps.replays replay member same rereads with ⟨earlier, known, job, phase⟩ | there
      · have neither := parked.replays earlier known (job ▸ same)
        exact phase.elim neither.1 neither.2
      · exact there held
  · exact .inl held

theorem Keeps.safe {before after : World} {id : Nat} (keeps : Keeps before after id)
    (safe : Safe before id) : Safe after id := by
  rcases safe with held | parked
  · exact .inl (keeps.main held)
  · exact keeps.parked parked

theorem Keeps.of_same {before after : World} {id : Nat} (main : after.main = before.main)
    (deadLetters : after.deadLetters = before.deadLetters)
    (routers : after.routers = before.routers) (replays : after.replays = before.replays) :
    Keeps before after id where
  main held := main ▸ held
  entry held := deadLetters ▸ held
  routers _ member _ _ := .inl (routers ▸ member)
  replays replay member _ phase := .inl ⟨replay, replays ▸ member, rfl, phase⟩

theorem updated_holds {queue : Queue String DomainEventJob} {key other : String}
    {job : Job DomainEventJob} (held : queue other ≠ none) :
    Function.update queue key (some job) other ≠ none := by
  by_cases itself : other = key
  · subst itself
    rw [Function.update_self]
    exact Option.some_ne_none job
  · rw [Function.update_of_ne itself]
    exact held

theorem add_still {δ : Type} {queue : Queue String δ} {key other : String} {data : δ}
    {attempts : Nat} (held : queue other ≠ none) : queue.add key data attempts other ≠ none := by
  obtain ⟨job, found⟩ := Option.ne_none_iff_exists'.mp held
  rw [Queue.add_keeps queue data attempts found]
  exact Option.some_ne_none job

theorem Keeps.of_moved {before after : World} {id : Nat} {key : String}
    {job : Job DomainEventJob} (filed : key = jobIdFor job.data.outboxId)
    (main : after.main = Function.update before.main key (some job))
    (deadLetters : after.deadLetters = before.deadLetters)
    (routers : ∀ router ∈ after.routers, router ∈ before.routers ∨
      router.dead.toDomainEventJob = job.data)
    (replays : after.replays = before.replays) : Keeps before after id where
  main held := by
    rw [main]
    exact updated_holds held
  entry held := deadLetters ▸ held
  routers router member same _ := by
    rcases routers router member with known | started
    · exact .inl known
    · right
      have here : key = jobIdFor id := by rw [filed, ← started, same]
      rw [main, here, Function.update_self]
      exact Option.some_ne_none job
  replays replay member _ phase := .inl ⟨replay, replays ▸ member, rfl, phase⟩

theorem route_data {job : Job DomainEventJob} {now : Nat} {router : Router}
    (routed : router ∈ route job now) : router.dead.toDomainEventJob = job.data := by
  simp only [route] at routed
  split at routed
  · cases routed
  · obtain rfl := List.mem_singleton.mp routed
    rfl

theorem reportResult_cases (world : World) (slot : Nat) (delivery : Delivery)
    (result : Except Failure ConsumeResult) :
    reportResult world slot delivery result = world.setDelivery slot delivery .stopped ∨
    ∃ before job routers, world.main (jobIdFor delivery.job.outboxId) = some before ∧
      Moved before job ∧ (job.isCompleted = true → ∃ outcome, result = .ok outcome) ∧
      (∀ router ∈ routers, router.dead.toDomainEventJob = job.data) ∧
      reportResult world slot delivery result = { world.setDelivery slot delivery .stopped with
        main := Function.update world.main (jobIdFor delivery.job.outboxId) (some job)
        routers := world.routers ++ routers } := by
  simp only [reportResult]
  split
  · exact .inl rfl
  · rename_i job main outcome moved
    obtain ⟨before, found, completed, rfl⟩ := Queue.move_ok moved
    refine .inr ⟨before, job, [], found, complete_moved completed, fun _ => ⟨outcome, rfl⟩,
      (fun _ member => nomatch member), ?_⟩
    rw [List.append_nil]
    rfl
  · rename_i job main failure moved
    obtain ⟨before, found, failed, rfl⟩ := Queue.move_ok moved
    obtain ⟨kept, unfinished⟩ := fail_moved failed
    refine .inr ⟨before, job, route job world.now, found, kept, fun finished => ?_,
      fun _ => route_data, rfl⟩
    rw [unfinished] at finished
    cases finished

/-! ## One step -/

/-- The events that add to a queue, take from one, or turn a router or a replay. -/
def OnQueues : Event → Prop
  | .publish .. | .evict .. | .routerTurn .. | .replay .. | .replayTurn .. | .die ..
  | .discard .. =>
      True
  | _ => False

instance (event : Event) : Decidable (OnQueues event) := by
  unfold OnQueues
  split <;> infer_instance

structure Still (world next : World) : Prop where
  main : next.main = world.main
  deadLetters : next.deadLetters = world.deadLetters
  routers : next.routers = world.routers
  replays : next.replays = world.replays
  entered : next.entered = world.entered
  discarded : next.discarded = world.discarded
  applied : ∀ id, world.applied id ≤ next.applied id

structure JobMoved (world next : World) (id : Nat) (before job : Job DomainEventJob)
    (started : List Router) : Prop where
  found : world.main (jobIdFor id) = some before
  moved : Moved before job
  main : next.main = Function.update world.main (jobIdFor id) (some job)
  deadLetters : next.deadLetters = world.deadLetters
  routers : next.routers = world.routers ++ started
  data : ∀ router ∈ started, router.dead.toDomainEventJob = job.data
  replays : next.replays = world.replays
  entered : next.entered = world.entered
  discarded : next.discarded = world.discarded
  applied : next.applied = world.applied

theorem still_setDelivery (world : World) (slot : Nat) (delivery : Delivery)
    (phase : DeliveryPhase) : Still world (world.setDelivery slot delivery phase) :=
  ⟨rfl, rfl, rfl, rfl, rfl, rfl, fun _ => Nat.le_refl _⟩

theorem still_applyEffect (world : World) (slot : Nat) (delivery : Delivery) (startedAt : Nat)
    (result : Except Failure ConsumeResult) :
    Still world (applyEffect world slot delivery startedAt result) := by
  refine ⟨rfl, rfl, rfl, rfl, rfl, rfl, fun id => ?_⟩
  simp only [applyEffect]
  by_cases itself : id = delivery.job.outboxId
  · subst itself
    rw [Function.update_self]
    exact Nat.le_succ _
  · exact Nat.le_of_eq (Function.update_of_ne itself _ _).symm

theorem still_commitTransaction (world : World) (slot : Nat) (delivery : Delivery)
    (prepared : Except Failure Unit) (startedAt : Nat) :
    Still world (commitTransaction world slot delivery prepared startedAt) := by
  simp only [commitTransaction]
  split
  · exact still_applyEffect world slot delivery startedAt _
  · exact still_setDelivery world slot delivery _

/-- Every other event leaves the queues alone or moves one job of the main queue. -/
theorem still_or_moved {settings : Settings} {world next : World} {event : Event}
    (elsewhere : ¬ OnQueues event) (stepped : step settings world event = some next) :
    Still world next ∨ ∃ id before job started, JobMoved world next id before job started := by
  cases event with
  | tick elapsed =>
      cases stepped
      exact .inl ⟨rfl, rfl, rfl, rfl, rfl, rfl, fun _ => Nat.le_refl _⟩
  | append id eventType createdAt =>
      simp only [step] at stepped
      split at stepped <;> cases stepped
      exact .inl ⟨rfl, rfl, rfl, rfl, rfl, rfl, fun _ => Nat.le_refl _⟩
  | openRelay =>
      cases stepped
      exact .inl ⟨rfl, rfl, rfl, rfl, rfl, rfl, fun _ => Nat.le_refl _⟩
  | commitRelay slot =>
      obtain ⟨batch, -, rfl⟩ := Option.map_eq_some_iff.mp stepped
      exact .inl ⟨rfl, rfl, rfl, rfl, rfl, rfl, fun _ => Nat.le_refl _⟩
  | sweepOutbox doomed =>
      simp only [step] at stepped
      split at stepped <;> cases stepped
      exact .inl ⟨rfl, rfl, rfl, rfl, rfl, rfl, fun _ => Nat.le_refl _⟩
  | sweepInbox readAt doomed =>
      simp only [step] at stepped
      split at stepped <;> cases stepped
      exact .inl ⟨rfl, rfl, rfl, rfl, rfl, rfl, fun _ => Nat.le_refl _⟩
  | prepare slot result =>
      simp only [step] at stepped
      split at stepped <;> cases stepped
      exact .inl (still_setDelivery ..)
  | begin slot =>
      simp only [step] at stepped
      split at stepped <;> cases stepped
      exact .inl (still_setDelivery ..)
  | commit slot =>
      simp only [step] at stepped
      split at stepped <;> cases stepped
      exact .inl (still_commitTransaction ..)
  | commitUnheard slot =>
      simp only [step] at stepped
      split at stepped
      · split at stepped <;> cases stepped
        exact .inl (still_applyEffect ..)
      · cases stepped
  | abort slot failure =>
      simp only [step] at stepped
      split at stepped <;> cases stepped
      · exact .inl (still_setDelivery ..)
      · exact .inl (still_setDelivery ..)
  | pick id =>
      obtain ⟨⟨job, main⟩, moved, rfl⟩ := Option.map_eq_some_iff.mp stepped
      obtain ⟨before, found, took, rfl⟩ := Queue.move_ok moved
      exact .inr ⟨id, before, job, [], found, (take_moved took).1, rfl, rfl,
        (List.append_nil _).symm, (fun _ member => nomatch member), rfl, rfl, rfl, rfl⟩
  | report slot =>
      simp only [step] at stepped
      split at stepped
      · rename_i data result known
        cases stepped
        rcases reportResult_cases world slot ⟨data, .returned result⟩ result with
          same | ⟨before, job, started, found, moved, -, routed, same⟩
        · rw [same]
          exact .inl (still_setDelivery ..)
        · rw [same]
          exact .inr ⟨data.outboxId, before, job, started, found, moved, rfl, rfl, rfl, routed, rfl,
            rfl, rfl, rfl⟩
      · cases stepped
  | expireLock id =>
      obtain ⟨⟨job, main⟩, moved, rfl⟩ := Option.map_eq_some_iff.mp stepped
      obtain ⟨before, found, expired, rfl⟩ := Queue.move_ok moved
      exact .inr ⟨id, before, job, [], found, (expire_moved expired).1, rfl, rfl,
        (List.append_nil _).symm, (fun _ member => nomatch member), rfl, rfl, rfl, rfl⟩
  | stall id giveUp =>
      obtain ⟨⟨job, main⟩, moved, rfl⟩ := Option.map_eq_some_iff.mp stepped
      obtain ⟨before, found, stalled, rfl⟩ := Queue.move_ok moved
      exact .inr ⟨id, before, job, _, found, (stall_moved stalled).1, rfl, rfl, rfl,
        fun _ => route_data, rfl, rfl, rfl, rfl⟩
  | rerun id =>
      obtain ⟨⟨job, main⟩, moved, rfl⟩ := Option.map_eq_some_iff.mp stepped
      obtain ⟨before, found, retried, rfl⟩ := Queue.move_ok moved
      exact .inr ⟨id, before, job, [], found, (retry_moved retried).1, rfl, rfl,
        (List.append_nil _).symm, (fun _ member => nomatch member), rfl, rfl, rfl, rfl⟩
  | _ => exact absurd trivial elsewhere

inductive Walks (settings : Settings) (world : World) (replay : Replay) : ReplayPhase → Prop
  | stops : Walks settings world replay .stopped
  | looked (phase : replay.phase = .lookup)
      (unclaimed : world.inbox replay.job.outboxId = none) : Walks settings world replay .judging
  | cleared (phase : replay.phase = .judging)
      (ahead : replay.goesAhead settings world.now = true) :
      Walks settings world replay .gettingStale
  | found (phase : replay.phase = .gettingStale) : Walks settings world replay .removingStale
  | free (phase : replay.phase = .gettingStale) : Walks settings world replay .adding
  | same (phase : replay.phase = .rereading) : Walks settings world replay .removingDead

theorem replayTurn_cases {settings : Settings} {world next : World} {slot : Nat} {replay : Replay}
    (turned : replayTurn settings world slot replay = some next) :
    (∃ phase, Walks settings world replay phase ∧ next = world.setReplay slot replay phase) ∨
    (replay.phase = .removingStale ∧
      (world.main (jobIdFor replay.job.outboxId)).any Job.locked = false ∧
      next = { world.setReplay slot replay .adding with
        main := Function.update world.main (jobIdFor replay.job.outboxId) none }) ∨
    (replay.phase = .adding ∧
      next = { world.setReplay slot replay .rereading with
        main := world.main.add (jobIdFor replay.job.outboxId) replay.job.toDomainEventJob
          (settings.attemptsFor replay.job.eventType) }) ∨
    (replay.phase = .removingDead ∧
      next = { world.setReplay slot replay .stopped with
        deadLetters := Function.update world.deadLetters
            (jobIdFor replay.job.outboxId) none }) := by
  simp only [replayTurn] at turned
  split at turned
  · rename_i phase
    cases turned
    refine .inl ⟨_, ?_, rfl⟩
    split
    · rename_i allowed
      rw [Bool.and_eq_true] at allowed
      exact .looked phase (Option.isNone_iff_eq_none.mp allowed.2)
    · exact .stops
  · rename_i phase
    cases turned
    refine .inl ⟨_, ?_, rfl⟩
    split
    · rename_i ahead
      exact .cleared phase ahead
    · exact .stops
  · rename_i phase
    cases turned
    refine .inl ⟨_, ?_, rfl⟩
    split
    · exact .found phase
    · exact .free phase
  · rename_i phase
    split at turned
    · cases turned
      exact .inl ⟨_, .stops, rfl⟩
    · rename_i main removed
      cases turned
      refine .inr (.inl ⟨phase, ?_, ?_⟩)
      · simp only [Queue.remove] at removed
        split at removed
        · cases removed
        · rename_i unlocked
          exact Bool.eq_false_iff.mpr unlocked
      · rw [Queue.remove_ok removed]
  · rename_i phase
    cases turned
    exact .inr (.inr (.inl ⟨phase, rfl⟩))
  · rename_i phase
    cases turned
    refine .inl ⟨_, ?_, rfl⟩
    split
    · exact .same phase
    · exact .stops
  · rename_i phase
    obtain ⟨deadLetters, removed, rfl⟩ := Option.map_eq_some_iff.mp turned
    rw [Queue.remove_ok removed]
    exact .inr (.inr (.inr ⟨phase, rfl⟩))
  · cases turned

theorem routerTurn_cases {world next : World} {slot : Nat} {router : Router}
    (turned : routerTurn world slot router = some next) :
    (router.phase = .removing ∧
      next = { world.setRouter slot router .adding with
        deadLetters := Function.update world.deadLetters (jobIdFor router.dead.outboxId) none }) ∨
    (router.phase = .adding ∧
      next = { world.setRouter slot router .stopped with
        deadLetters := world.deadLetters.add (jobIdFor router.dead.outboxId) router.dead 0 }) := by
  simp only [routerTurn] at turned
  split at turned
  · rename_i phase
    obtain ⟨deadLetters, removed, rfl⟩ := Option.map_eq_some_iff.mp turned
    rw [Queue.remove_ok removed]
    exact .inl ⟨phase, rfl⟩
  · rename_i phase
    cases turned
    exact .inr ⟨phase, rfl⟩
  · cases turned

theorem die_still (world : World) (process : Process) :
    (world.die process).main = world.main ∧
      (world.die process).deadLetters = world.deadLetters ∧
      (world.die process).entered = world.entered ∧
      (world.die process).applied = world.applied ∧
      (world.die process).discarded = world.discarded := by
  unfold World.die
  split
  · exact ⟨rfl, rfl, rfl, rfl, rfl⟩
  · split <;> exact ⟨rfl, rfl, rfl, rfl, rfl⟩
  · split <;> exact ⟨rfl, rfl, rfl, rfl, rfl⟩
  · split <;> exact ⟨rfl, rfl, rfl, rfl, rfl⟩

theorem die_routers {world : World} {process : Process} {router : Router}
    (member : router ∈ (world.die process).routers) :
    router ∈ world.routers ∨ router.phase = .stopped := by
  cases process with
  | relay slot => exact .inl member
  | delivery slot =>
      simp only [World.die] at member
      split at member <;> exact .inl member
  | router slot =>
      simp only [World.die] at member
      split at member
      · rcases List.mem_or_eq_of_mem_set member with known | rfl
        · exact .inl known
        · exact .inr rfl
      · exact .inl member
  | replay slot =>
      simp only [World.die] at member
      split at member <;> exact .inl member

theorem die_replays {world : World} {process : Process} {replay : Replay}
    (member : replay ∈ (world.die process).replays) :
    replay ∈ world.replays ∨ replay.phase = .stopped := by
  cases process with
  | relay slot => exact .inl member
  | delivery slot =>
      simp only [World.die] at member
      split at member <;> exact .inl member
  | router slot =>
      simp only [World.die] at member
      split at member <;> exact .inl member
  | replay slot =>
      simp only [World.die] at member
      split at member
      · rcases List.mem_or_eq_of_mem_set member with known | rfl
        · exact .inl known
        · exact .inr rfl
      · exact .inl member

/-! ## Jobs stay filed -/

theorem filed_update {queue : Queue String DomainEventJob} {id : Nat}
    {put : Option (Job DomainEventJob)}
    (filed : ∀ other job, queue (jobIdFor other) = some job → job.data.outboxId = other)
    (here : ∀ job, put = some job → job.data.outboxId = id) :
    ∀ other job, Function.update queue (jobIdFor id) put (jobIdFor other) = some job →
      job.data.outboxId = other := by
  intro other job found
  by_cases itself : other = id
  · subst itself
    rw [Function.update_self] at found
    exact here job found
  · rw [Function.update_of_ne (mt (jobIdFor_inj other id).mp itself)] at found
    exact filed other job found

theorem filed_add {world : World} (filed : Filed world) (data : DomainEventJob) (attempts : Nat) :
    ∀ other job, world.main.add (jobIdFor data.outboxId) data attempts (jobIdFor other) = some job →
      job.data.outboxId = other := by
  intro other job found
  rcases Queue.add_cases found with known | ⟨same, rfl⟩
  · exact filed other job known
  · exact ((jobIdFor_inj _ _).mp same).symm

theorem step_filed {settings : Settings} {world next : World} {event : Event}
    (filed : Filed world) (stepped : step settings world event = some next) : Filed next := by
  by_cases queues : OnQueues event
  · cases event with
    | publish slot id =>
        simp only [step] at stepped
        split at stepped
        · rename_i batch row _ _
          split at stepped <;> cases stepped
          exact filed_add filed ⟨id, row.eventType, row.createdAt⟩ _
        · cases stepped
    | evict id newer =>
        simp only [step] at stepped
        split at stepped <;> cases stepped
        exact filed_update filed fun job put => nomatch put
    | routerTurn slot =>
        obtain ⟨router, -, turned⟩ := Option.bind_eq_some_iff.mp stepped
        rcases routerTurn_cases turned with ⟨-, rfl⟩ | ⟨-, rfl⟩
        · exact filed
        · exact filed
    | replay id options =>
        obtain ⟨entry, -, rfl⟩ := Option.map_eq_some_iff.mp stepped
        exact filed
    | replayTurn slot =>
        obtain ⟨replay, -, turned⟩ := Option.bind_eq_some_iff.mp stepped
        rcases replayTurn_cases turned with ⟨phase, -, rfl⟩ | ⟨-, -, rfl⟩ | ⟨-, rfl⟩ | ⟨-, rfl⟩
        · exact filed
        · exact filed_update filed fun job put => nomatch put
        · exact filed_add filed _ _
        · exact filed
    | die process =>
        cases stepped
        obtain ⟨main, -⟩ := die_still world process
        intro id job found
        exact filed id job (main ▸ found)
    | discard id =>
        cases stepped
        exact filed
    | _ => exact queues.elim
  · rcases still_or_moved queues stepped with still | ⟨id, before, job, started, moved⟩
    · intro id job found
      exact filed id job (still.main ▸ found)
    · intro other found there
      rw [moved.main] at there
      refine filed_update filed (fun put same => ?_) other found there
      cases same
      rw [moved.moved.data]
      exact filed id before moved.found

/-! ## An owed message stays in one of the queues -/

/-- A message becomes owed only by being put on the main queue. -/
theorem owed_before {settings : Settings} {world next : World} {event : Event}
    (stepped : step settings world event = some next) {id : Nat} (owed : next.Owed id) :
    world.Owed id ∨ next.main (jobIdFor id) ≠ none := by
  obtain ⟨entered, unapplied, kept⟩ := owed
  by_cases queues : OnQueues event
  · cases event with
    | publish slot published =>
        simp only [step] at stepped
        split at stepped
        · split at stepped <;> cases stepped
          by_cases itself : id = published
          · subst itself
            exact .inr (Queue.add_holds world.main (jobIdFor id) _ _)
          · have before : world.entered id = true := by
              simpa [publishRow, Function.update_of_ne itself] using entered
            exact .inl ⟨before, unapplied, kept⟩
        · cases stepped
    | evict evicted newer =>
        simp only [step] at stepped
        split at stepped <;> cases stepped
        exact .inl ⟨entered, unapplied, kept⟩
    | routerTurn slot =>
        obtain ⟨router, -, turned⟩ := Option.bind_eq_some_iff.mp stepped
        rcases routerTurn_cases turned with ⟨-, rfl⟩ | ⟨-, rfl⟩ <;>
          exact .inl ⟨entered, unapplied, kept⟩
    | replay replayed options =>
        obtain ⟨entry, -, rfl⟩ := Option.map_eq_some_iff.mp stepped
        exact .inl ⟨entered, unapplied, kept⟩
    | replayTurn slot =>
        obtain ⟨replay, -, turned⟩ := Option.bind_eq_some_iff.mp stepped
        rcases replayTurn_cases turned with ⟨phase, -, rfl⟩ | ⟨-, -, rfl⟩ | ⟨-, rfl⟩ | ⟨-, rfl⟩ <;>
          exact .inl ⟨entered, unapplied, kept⟩
    | die process =>
        cases stepped
        obtain ⟨-, -, sameEntered, sameApplied, sameDiscarded⟩ := die_still world process
        exact .inl ⟨sameEntered ▸ entered, sameApplied ▸ unapplied, sameDiscarded ▸ kept⟩
    | discard dropped =>
        cases stepped
        have different : id ≠ dropped := by
          rintro rfl
          simp at kept
        have before : world.discarded id = false := by
          simpa [Function.update_of_ne different] using kept
        exact .inl ⟨entered, unapplied, before⟩
    | _ => exact queues.elim
  · rcases still_or_moved queues stepped with still | ⟨_, _, _, _, moved⟩
    · have before : world.applied id = 0 := by
        have grown := still.applied id
        omega
      exact .inl ⟨still.entered ▸ entered, before, still.discarded ▸ kept⟩
    · exact .inl ⟨moved.entered ▸ entered, moved.applied ▸ unapplied, moved.discarded ▸ kept⟩

theorem keeps_walks {settings : Settings} {world : World} {slot : Nat} {replay : Replay}
    {phase : ReplayPhase} (known : world.replays[slot]? = some replay)
    (walks : Walks settings world replay phase) (id : Nat) :
    Keeps world (world.setReplay slot replay phase) id where
  main held := held
  entry held := held
  routers router member _ _ := .inl member
  replays other member _ rereads := by
    rcases List.mem_or_eq_of_mem_set member with before | rfl
    · exact .inl ⟨other, before, rfl, rereads⟩
    · refine .inl ⟨replay, List.mem_of_getElem? known, rfl, ?_⟩
      cases walks with
      | same rereading => exact .inl rereading
      | _ => exact absurd rereads (by simp)

/-- The turns of a replay, for a message that was safe. -/
theorem safe_replayTurn {settings : Settings} {world next : World} {slot id : Nat}
    {replay : Replay} (known : world.replays[slot]? = some replay)
    (turned : replayTurn settings world slot replay = some next)
    (handsOver : HandsOver world (.replayTurn slot)) (owed : world.Owed id)
    (safe : Safe world id) : Safe next id := by
  have member := List.mem_of_getElem? known
  rcases replayTurn_cases turned with ⟨phase, walks, rfl⟩ | ⟨removing, unlocked, rfl⟩ |
    ⟨adding, rfl⟩ | ⟨dropping, rfl⟩
  · exact (keeps_walks known walks id).safe safe
  · have replays : ∀ other ∈ (world.setReplay slot replay .adding).replays,
        other.phase = .rereading ∨ other.phase = .removingDead → other ∈ world.replays := by
      intro other there rereads
      rcases List.mem_or_eq_of_mem_set there with before | rfl
      · exact before
      · exact absurd rereads (by simp)
    by_cases itself : id = replay.job.outboxId
    · -- The job it takes was handed over, so the entry outlives the removal.
      have parked : Parked world id := by
        cases found : world.main (jobIdFor id) with
        | none => exact safe.resolve_left fun held => held found
        | some job =>
            rw [itself] at found
            rw [found] at unlocked
            have free : job.locked = false := by simpa using unlocked
            refine handsOver id ?_ owed
            simp [takesJob, known, removing, found, free, itself]
      refine .inr ⟨parked.entry, parked.routers, fun other there same => ?_⟩
      by_contra rereads
      have rereads : other.phase = .rereading ∨ other.phase = .removingDead := by tauto
      have neither := parked.replays other (replays other there rereads) same
      exact rereads.elim neither.1 neither.2
    · have keeps : Keeps world { world.setReplay slot replay .adding with
          main := Function.update world.main (jobIdFor replay.job.outboxId) none } id := by
        refine ⟨fun held => ?_, fun held => held, fun router there _ _ => .inl there,
          fun other there _ rereads => .inl ⟨other, replays other there rereads, rfl, rereads⟩⟩
        exact (Function.update_of_ne (mt (jobIdFor_inj _ _).mp itself) _ _).trans_ne held
      exact keeps.safe safe
  · have keeps : Keeps world { world.setReplay slot replay .rereading with
        main := world.main.add (jobIdFor replay.job.outboxId) replay.job.toDomainEventJob
          (settings.attemptsFor replay.job.eventType) } id := by
      refine ⟨fun held => add_still held, fun held => held, fun router there _ _ => .inl there,
        fun other there same rereads => ?_⟩
      rcases List.mem_or_eq_of_mem_set there with before | rfl
      · exact .inl ⟨other, before, rfl, rereads⟩
      · right
        rw [← same]
        exact Queue.add_holds world.main _ _ _
    exact keeps.safe safe
  · by_cases itself : id = replay.job.outboxId
    · refine .inl (safe.resolve_right fun parked => ?_)
      exact (parked.replays replay member itself.symm).2 dropping
    · have keeps : Keeps world { world.setReplay slot replay .stopped with
          deadLetters :=
            Function.update world.deadLetters (jobIdFor replay.job.outboxId) none } id := by
        refine ⟨fun held => held, fun held => ?_, fun router there _ _ => .inl there,
          fun other there _ rereads => ?_⟩
        · exact (Function.update_of_ne (mt (jobIdFor_inj _ _).mp itself) _ _).trans_ne held
        · rcases List.mem_or_eq_of_mem_set there with before | rfl
          · exact .inl ⟨other, before, rfl, rereads⟩
          · exact absurd rereads (by simp)
      exact keeps.safe safe

theorem safe_routerTurn {world next : World} {slot id : Nat} {router : Router}
    (known : world.routers[slot]? = some router) (turned : routerTurn world slot router = some next)
    (safe : Safe world id) : Safe next id := by
  rcases routerTurn_cases turned with ⟨removing, rfl⟩ | ⟨adding, rfl⟩
  · by_cases itself : id = router.dead.outboxId
    · -- The router was about to remove the entry, so the main queue holds the message.
      refine .inl (safe.resolve_right fun parked => ?_)
      exact parked.routers router (List.mem_of_getElem? known) itself.symm removing
    · have keeps : Keeps world { world.setRouter slot router .adding with
          deadLetters :=
            Function.update world.deadLetters (jobIdFor router.dead.outboxId) none } id := by
        refine ⟨fun held => held, fun held => ?_, fun other there _ removes => ?_,
          fun other there _ rereads => .inl ⟨other, there, rfl, rereads⟩⟩
        · exact (Function.update_of_ne (mt (jobIdFor_inj _ _).mp itself) _ _).trans_ne held
        · rcases List.mem_or_eq_of_mem_set there with before | rfl
          · exact .inl before
          · cases removes
      exact keeps.safe safe
  · have keeps : Keeps world { world.setRouter slot router .stopped with
        deadLetters :=
          world.deadLetters.add (jobIdFor router.dead.outboxId) router.dead 0 } id := by
      refine ⟨fun held => held, fun held => add_still held, fun other there _ removes => ?_,
        fun other there _ rereads => .inl ⟨other, there, rfl, rereads⟩⟩
      rcases List.mem_or_eq_of_mem_set there with before | rfl
      · exact .inl before
      · cases removes
    exact keeps.safe safe

theorem step_safe {settings : Settings} {world next : World} {event : Event}
    (filed : Filed world) (handsOver : HandsOver world event)
    (stepped : step settings world event = some next) (id : Nat)
    (safe : world.Owed id → Safe world id) (owed : next.Owed id) : Safe next id := by
  rcases owed_before stepped owed with before | held
  · have safe := safe before
    by_cases queues : OnQueues event
    · cases event with
      | publish slot published =>
          simp only [step] at stepped
          split at stepped
          · rename_i batch row _ _
            split at stepped <;> cases stepped
            have keeps : Keeps world (publishRow settings world slot published batch row) id :=
              ⟨fun held => add_still held, fun held => held, fun router there _ _ => .inl there,
                fun replay there _ rereads => .inl ⟨replay, there, rfl, rereads⟩⟩
            exact keeps.safe safe
          · cases stepped
      | evict evicted newer =>
          simp only [step] at stepped
          split at stepped <;> cases stepped
          by_cases itself : id = evicted
          · subst itself
            have parked := handsOver id rfl before
            exact .inr ⟨parked.entry, parked.routers, parked.replays⟩
          · rcases safe with held | parked
            · left
              exact (Function.update_of_ne (mt (jobIdFor_inj _ _).mp itself) _ _).trans_ne held
            · exact .inr ⟨parked.entry, parked.routers, parked.replays⟩
      | routerTurn slot =>
          obtain ⟨router, known, turned⟩ := Option.bind_eq_some_iff.mp stepped
          exact safe_routerTurn known turned safe
      | replay replayed options =>
          obtain ⟨entry, -, rfl⟩ := Option.map_eq_some_iff.mp stepped
          have keeps : Keeps world { world with
              replays := world.replays ++ [⟨entry.data, options, .lookup⟩] } id := by
            refine ⟨fun held => held, fun held => held, fun router there _ _ => .inl there,
              fun replay there _ rereads => ?_⟩
            rcases List.mem_append.mp there with known | opened
            · exact .inl ⟨replay, known, rfl, rereads⟩
            · obtain rfl := List.mem_singleton.mp opened
              exact absurd rereads (by simp)
          exact keeps.safe safe
      | replayTurn slot =>
          obtain ⟨replay, known, turned⟩ := Option.bind_eq_some_iff.mp stepped
          exact safe_replayTurn known turned handsOver before safe
      | die process =>
          cases stepped
          obtain ⟨main, deadLetters, -⟩ := die_still world process
          have keeps : Keeps world (world.die process) id := by
            refine ⟨fun held => main ▸ held, fun held => deadLetters ▸ held,
              fun router there _ removing => ?_, fun replay there _ rereads => ?_⟩
            · rcases die_routers there with known | stopped
              · exact .inl known
              · rw [stopped] at removing
                cases removing
            · rcases die_replays there with known | stopped
              · exact .inl ⟨replay, known, rfl, rereads⟩
              · rw [stopped] at rereads
                exact absurd rereads (by simp)
          exact keeps.safe safe
      | discard dropped =>
          cases stepped
          have different : id ≠ dropped := by
            rintro rfl
            simpa using owed.2.2
          have keeps : Keeps world { world with
              deadLetters := Function.update world.deadLetters (jobIdFor dropped) none
              discarded := Function.update world.discarded dropped true } id := by
            refine ⟨fun held => held, fun held => ?_, fun router there _ _ => .inl there,
              fun replay there _ rereads => .inl ⟨replay, there, rfl, rereads⟩⟩
            exact (Function.update_of_ne (mt (jobIdFor_inj _ _).mp different) _ _).trans_ne held
          exact keeps.safe safe
      | _ => exact queues.elim
    · rcases still_or_moved queues stepped with still | ⟨moving, earlier, job, started, moved⟩
      · exact (Keeps.of_same still.main still.deadLetters still.routers still.replays).safe safe
      · have key : jobIdFor moving = jobIdFor job.data.outboxId := by
          rw [moved.moved.data, filed moving earlier moved.found]
        refine (Keeps.of_moved key moved.main moved.deadLetters (fun router there => ?_)
          moved.replays).safe safe
        rw [moved.routers] at there
        rcases List.mem_append.mp there with known | new
        · exact .inl known
        · exact .inr (moved.data router new)
  · exact .inl held

/-! ## Whole runs -/

/-- The jobs are filed, and every owed message is safe. -/
def Secured (world : World) : Prop :=
  Filed world ∧ ∀ id, world.Owed id → Safe world id

theorem secured_start : Secured start := by
  refine ⟨(fun _ _ found => nomatch found), fun _ owed => ?_⟩
  exact absurd owed.1 Bool.false_ne_true

theorem secured_step {settings : Settings} {world next : World} {event : Event}
    (secured : Secured world) (handsOver : HandsOver world event)
    (stepped : step settings world event = some next) : Secured next :=
  ⟨step_filed secured.1 stepped,
    fun id owed => step_safe secured.1 handsOver stepped id (secured.2 id) owed⟩

/-- In every run that takes an owed message's job out of the main queue only while its dead letter
is parked, whoever else adds, removes, fails or dies: an owed message is in one of the queues. -/
theorem owed_message_held (settings : Settings) (events : List Event) (world : World)
    (handsOver : Runs.Along (step settings) HandsOver start events)
    (ran : Runs.run (step settings) start events = some world) (id : Nat) (owed : world.Owed id) :
    world.Held id := by
  have secured : Secured world :=
    Runs.run_preserves_along (step settings) HandsOver Secured
      (fun _ _ _ secured handsOver stepped => secured_step secured handsOver stepped)
      events start world secured_start handsOver ran
  rcases secured.2 id owed with held | parked
  · exact .inl held
  · exact .inr parked.entry

def oneAttempt : Settings := ⟨7, fun _ => 1⟩

def published : List Event :=
  [.tick 1000, .append 262144 "order.paid" 1000, .openRelay, .publish 0 262144, .commitRelay 0]

def lastFailure (slot : Nat) : List Event :=
  [.pick 262144, .prepare slot (.ok ()), .begin slot, .abort slot .transient, .report slot]

def replayed (slot turns : Nat) : List Event :=
  .replay 262144 ⟨false, false⟩ :: List.replicate turns (.replayTurn slot)

theorem owed_message_held_replayed :
    ∃ world, Runs.run (step oneAttempt) start
        (published ++ lastFailure 0 ++ [.routerTurn 0, .routerTurn 0] ++ replayed 0 7) =
          some world ∧
      world.Held 262144 := by
  refine ⟨_, rfl, ?_⟩
  exact owed_message_held oneAttempt
    (published ++ lastFailure 0 ++ [.routerTurn 0, .routerTurn 0] ++ replayed 0 7) _
    (by decide +kernel) rfl 262144 (by decide +kernel)

/-- A replay dies before it drops the entry and the job fails again.  The router of that failure
removes the entry, the retried replay removes the failed job, and both die. -/
def overlapping : List Event :=
  published ++ lastFailure 0 ++ [.routerTurn 0, .routerTurn 0] ++ replayed 0 5 ++
    [.die (.replay 0), .tick 1] ++ lastFailure 1 ++ replayed 1 3 ++
    [.routerTurn 1, .replayTurn 1, .die (.router 1), .die (.replay 1)]

theorem overlapping_moves_lose_message :
    ∃ world, Runs.run (step oneAttempt) start overlapping = some world ∧
      world.Owed 262144 ∧ world.main (jobIdFor 262144) = none ∧
      world.deadLetters (jobIdFor 262144) = none ∧
      (∀ router ∈ world.routers, router.phase = .stopped) ∧
      ∀ replay ∈ world.replays, replay.phase = .stopped := by
  refine ⟨_, rfl, ?_, ?_, ?_, ?_, ?_⟩ <;> decide +kernel

end Commerce.Messaging
