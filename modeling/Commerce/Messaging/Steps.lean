import Commerce.Messaging.DeadLetters

/-!
# What one step of the message flow does

The outbox and the relay, the worker's deliveries, and the moves between the
queues: each family of events leaves the others' state alone, and each part of
the state changes in a few ways.
-/

set_option autoImplicit false

namespace Commerce.Messaging

open JobQueues

/-! ## Three families of events -/

def Produces : Event → Prop
  | .tick .. | .append .. | .openRelay | .publish .. | .commitRelay .. | .sweepOutbox .. => True
  | _ => False

def Consumes : Event → Prop
  | .pick .. | .prepare .. | .begin .. | .commit .. | .commitUnheard .. | .abort .. | .report ..
  | .expireLock .. | .stall .. | .rerun .. | .evict .. => True
  | _ => False

def MovesLetters : Event → Prop
  | .routerTurn .. | .replay .. | .replayTurn .. | .discard .. => True
  | _ => False

structure ProducerFrame (world next : World) : Prop where
  deliveries : next.deliveries = world.deliveries
  deadLetters : next.deadLetters = world.deadLetters
  routers : next.routers = world.routers
  replays : next.replays = world.replays
  inbox : next.inbox = world.inbox
  applied : next.applied = world.applied

structure ConsumerFrame (world next : World) : Prop where
  now : next.now = world.now
  outbox : next.outbox = world.outbox
  born : next.born = world.born
  relays : next.relays = world.relays
  entered : next.entered = world.entered
  deadLetters : next.deadLetters = world.deadLetters
  replays : next.replays = world.replays

structure LetterFrame (world next : World) : Prop where
  now : next.now = world.now
  outbox : next.outbox = world.outbox
  born : next.born = world.born
  relays : next.relays = world.relays
  entered : next.entered = world.entered
  deliveries : next.deliveries = world.deliveries
  inbox : next.inbox = world.inbox
  applied : next.applied = world.applied

theorem produces_frame {settings : Settings} {world next : World} {event : Event}
    (produces : Produces event) (stepped : step settings world event = some next) :
    ProducerFrame world next := by
  cases event with
  | tick elapsed => cases stepped; exact ⟨rfl, rfl, rfl, rfl, rfl, rfl⟩
  | append id eventType createdAt =>
      simp only [step] at stepped
      split at stepped <;> cases stepped
      exact ⟨rfl, rfl, rfl, rfl, rfl, rfl⟩
  | openRelay => cases stepped; exact ⟨rfl, rfl, rfl, rfl, rfl, rfl⟩
  | publish slot id =>
      simp only [step] at stepped
      split at stepped
      · split at stepped <;> cases stepped
        exact ⟨rfl, rfl, rfl, rfl, rfl, rfl⟩
      · cases stepped
  | commitRelay slot =>
      obtain ⟨batch, -, rfl⟩ := Option.map_eq_some_iff.mp stepped
      exact ⟨rfl, rfl, rfl, rfl, rfl, rfl⟩
  | sweepOutbox doomed =>
      simp only [step] at stepped
      split at stepped <;> cases stepped
      exact ⟨rfl, rfl, rfl, rfl, rfl, rfl⟩
  | _ => exact produces.elim

theorem consumes_setDelivery (world : World) (slot : Nat) (delivery : Delivery)
    (phase : DeliveryPhase) : ConsumerFrame world (world.setDelivery slot delivery phase) :=
  ⟨rfl, rfl, rfl, rfl, rfl, rfl, rfl⟩

theorem consumes_frame {settings : Settings} {world next : World} {event : Event}
    (consumes : Consumes event) (stepped : step settings world event = some next) :
    ConsumerFrame world next := by
  cases event with
  | pick id =>
      obtain ⟨⟨job, main⟩, -, rfl⟩ := Option.map_eq_some_iff.mp stepped
      exact ⟨rfl, rfl, rfl, rfl, rfl, rfl, rfl⟩
  | prepare slot result =>
      simp only [step] at stepped
      split at stepped <;> cases stepped
      exact consumes_setDelivery ..
  | begin slot =>
      simp only [step] at stepped
      split at stepped <;> cases stepped
      exact consumes_setDelivery ..
  | commit slot =>
      simp only [step] at stepped
      split at stepped <;> cases stepped
      simp only [commitTransaction]
      split
      · exact ⟨rfl, rfl, rfl, rfl, rfl, rfl, rfl⟩
      · exact consumes_setDelivery ..
  | commitUnheard slot =>
      simp only [step] at stepped
      split at stepped
      · split at stepped <;> cases stepped
        exact ⟨rfl, rfl, rfl, rfl, rfl, rfl, rfl⟩
      · cases stepped
  | abort slot failure =>
      simp only [step] at stepped
      split at stepped <;> cases stepped
      · exact consumes_setDelivery ..
      · exact consumes_setDelivery ..
  | report slot =>
      simp only [step] at stepped
      split at stepped
      · rename_i data result known
        cases stepped
        rcases reportResult_cases world slot ⟨data, .returned result⟩ result with
          same | ⟨before, job, started, -, -, -, -, same⟩
        · rw [same]
          exact consumes_setDelivery ..
        · rw [same]
          exact ⟨rfl, rfl, rfl, rfl, rfl, rfl, rfl⟩
      · cases stepped
  | expireLock id =>
      obtain ⟨moved, -, rfl⟩ := Option.map_eq_some_iff.mp stepped
      exact ⟨rfl, rfl, rfl, rfl, rfl, rfl, rfl⟩
  | stall id giveUp =>
      obtain ⟨⟨job, main⟩, -, rfl⟩ := Option.map_eq_some_iff.mp stepped
      exact ⟨rfl, rfl, rfl, rfl, rfl, rfl, rfl⟩
  | rerun id =>
      obtain ⟨moved, -, rfl⟩ := Option.map_eq_some_iff.mp stepped
      exact ⟨rfl, rfl, rfl, rfl, rfl, rfl, rfl⟩
  | evict id newer =>
      simp only [step] at stepped
      split at stepped <;> cases stepped
      exact ⟨rfl, rfl, rfl, rfl, rfl, rfl, rfl⟩
  | _ => exact consumes.elim

theorem letters_frame {settings : Settings} {world next : World} {event : Event}
    (moves : MovesLetters event) (stepped : step settings world event = some next) :
    LetterFrame world next := by
  cases event with
  | routerTurn slot =>
      obtain ⟨router, -, turned⟩ := Option.bind_eq_some_iff.mp stepped
      rcases routerTurn_cases turned with ⟨-, rfl⟩ | ⟨-, rfl⟩
      · exact ⟨rfl, rfl, rfl, rfl, rfl, rfl, rfl, rfl⟩
      · exact ⟨rfl, rfl, rfl, rfl, rfl, rfl, rfl, rfl⟩
  | replay id options =>
      obtain ⟨entry, -, rfl⟩ := Option.map_eq_some_iff.mp stepped
      exact ⟨rfl, rfl, rfl, rfl, rfl, rfl, rfl, rfl⟩
  | replayTurn slot =>
      obtain ⟨replay, -, turned⟩ := Option.bind_eq_some_iff.mp stepped
      rcases replayTurn_cases turned with ⟨phase, -, rfl⟩ | ⟨-, -, rfl⟩ | ⟨-, rfl⟩ | ⟨-, rfl⟩ <;>
        exact ⟨rfl, rfl, rfl, rfl, rfl, rfl, rfl, rfl⟩
  | discard id => cases stepped; exact ⟨rfl, rfl, rfl, rfl, rfl, rfl, rfl, rfl⟩
  | _ => exact moves.elim

/-- A death leaves everything but the lists of processes alone. -/
structure DeathFrame (world next : World) : Prop where
  now : next.now = world.now
  outbox : next.outbox = world.outbox
  born : next.born = world.born
  main : next.main = world.main
  deadLetters : next.deadLetters = world.deadLetters
  inbox : next.inbox = world.inbox
  entered : next.entered = world.entered
  applied : next.applied = world.applied

theorem death_frame (world : World) (process : Process) : DeathFrame world (world.die process) := by
  unfold World.die
  split
  · exact ⟨rfl, rfl, rfl, rfl, rfl, rfl, rfl, rfl⟩
  · split <;> exact ⟨rfl, rfl, rfl, rfl, rfl, rfl, rfl, rfl⟩
  · split <;> exact ⟨rfl, rfl, rfl, rfl, rfl, rfl, rfl, rfl⟩
  · split <;> exact ⟨rfl, rfl, rfl, rfl, rfl, rfl, rfl, rfl⟩

theorem event_cases (event : Event) :
    Produces event ∨ Consumes event ∨ MovesLetters event ∨ (∃ process, event = .die process) ∨
      ∃ readAt doomed, event = .sweepInbox readAt doomed := by
  cases event with
  | die process => exact .inr (.inr (.inr (.inl ⟨process, rfl⟩)))
  | sweepInbox readAt doomed => exact .inr (.inr (.inr (.inr ⟨readAt, doomed, rfl⟩)))
  | routerTurn | replay | replayTurn | discard => exact .inr (.inr (.inl trivial))
  | tick | append | openRelay | publish | commitRelay | sweepOutbox => exact .inl trivial
  | _ => exact .inr (.inl trivial)

/-! ## The outbox -/

theorem step_now {settings : Settings} {world next : World} {event : Event}
    (stepped : step settings world event = some next) : world.now ≤ next.now := by
  rcases event_cases event with produces | consumes | moves | ⟨process, rfl⟩ | ⟨readAt, doomed, rfl⟩
  · cases event with
    | tick elapsed => cases stepped; exact Nat.le_add_right _ _
    | append id eventType createdAt =>
        simp only [step] at stepped
        split at stepped <;> cases stepped
        exact Nat.le_refl _
    | openRelay => cases stepped; exact Nat.le_refl _
    | publish slot id =>
        simp only [step] at stepped
        split at stepped
        · split at stepped <;> cases stepped
          exact Nat.le_refl _
        · cases stepped
    | commitRelay slot =>
        obtain ⟨batch, -, rfl⟩ := Option.map_eq_some_iff.mp stepped
        exact Nat.le_refl _
    | sweepOutbox doomed =>
        simp only [step] at stepped
        split at stepped <;> cases stepped
        exact Nat.le_refl _
    | _ => exact produces.elim
  · exact Nat.le_of_eq (consumes_frame consumes stepped).now.symm
  · exact Nat.le_of_eq (letters_frame moves stepped).now.symm
  · cases stepped
    exact Nat.le_of_eq (death_frame world process).now.symm
  · simp only [step] at stepped
    split at stepped <;> cases stepped
    exact Nat.le_refl _

inductive OutboxChange (world next : World) : Prop
  | same (outbox : next.outbox = world.outbox) (born : next.born = world.born)
      (relays : ∀ batch ∈ next.relays, batch = [] ∨ batch ∈ world.relays)
      (entered : next.entered = world.entered)
  | appended (id : Nat) (eventType : String) (createdAt : Nat) (unborn : world.born id = none)
      (past : createdAt ≤ world.now)
      (outbox : next.outbox = Function.update world.outbox id (some ⟨eventType, createdAt, none⟩))
      (born : next.born = Function.update world.born id (some createdAt))
      (relays : next.relays = world.relays) (entered : next.entered = world.entered)
  | published (id : Nat) (row : OutboxRow) (found : world.outbox id = some row)
      (unpublished : row.publishedAt = none) (outbox : next.outbox = world.outbox)
      (born : next.born = world.born)
      (relays : ∀ batch ∈ next.relays, batch ∈ world.relays ∨
        ∃ earlier ∈ world.relays, batch = id :: earlier)
      (entered : next.entered = Function.update world.entered id true)
  | marked (batch : List Nat) (opened : batch ∈ world.relays)
      (outbox : next.outbox = markPublished world batch) (born : next.born = world.born)
      (relays : ∀ other ∈ next.relays, other = [] ∨ other ∈ world.relays)
      (entered : next.entered = world.entered)
  | swept (doomed : List Nat) (published : doomed.all (sweepable world) = true)
      (outbox : next.outbox = fun id => if id ∈ doomed then none else world.outbox id)
      (born : next.born = world.born) (relays : next.relays = world.relays)
      (entered : next.entered = world.entered)

theorem outboxChange_still {world next : World} (outbox : next.outbox = world.outbox)
    (born : next.born = world.born) (relays : next.relays = world.relays)
    (entered : next.entered = world.entered) : OutboxChange world next :=
  .same outbox born (fun _ member => .inr (relays ▸ member)) entered

theorem step_outbox {settings : Settings} {world next : World} {event : Event}
    (stepped : step settings world event = some next) : OutboxChange world next := by
  rcases event_cases event with produces | consumes | moves | ⟨process, rfl⟩ | ⟨readAt, doomed, rfl⟩
  · cases event with
    | tick elapsed => cases stepped; exact outboxChange_still rfl rfl rfl rfl
    | append id eventType createdAt =>
        simp only [step] at stepped
        split at stepped
        · rename_i fresh
          cases stepped
          exact .appended id eventType createdAt fresh.1 fresh.2 rfl rfl rfl rfl
        · cases stepped
    | openRelay =>
        cases stepped
        refine .same rfl rfl (fun batch member => ?_) rfl
        rcases List.mem_append.mp member with known | opened
        · exact .inr known
        · exact .inl (List.mem_singleton.mp opened)
    | publish slot id =>
        simp only [step] at stepped
        split at stepped
        · rename_i batch row opened found
          split at stepped
          · rename_i unpublished
            cases stepped
            refine .published id row found unpublished rfl rfl (fun other member => ?_) rfl
            rcases List.mem_or_eq_of_mem_set member with known | rfl
            · exact .inl known
            · exact .inr ⟨batch, List.mem_of_getElem? opened, rfl⟩
          · cases stepped
        · cases stepped
    | commitRelay slot =>
        obtain ⟨batch, opened, rfl⟩ := Option.map_eq_some_iff.mp stepped
        refine .marked batch (List.mem_of_getElem? opened) rfl rfl (fun other member => ?_) rfl
        exact (List.mem_or_eq_of_mem_set member).symm
    | sweepOutbox doomed =>
        simp only [step] at stepped
        split at stepped
        · rename_i published
          cases stepped
          exact .swept doomed published rfl rfl rfl rfl
        · cases stepped
    | _ => exact produces.elim
  · have frame := consumes_frame consumes stepped
    exact outboxChange_still frame.outbox frame.born frame.relays frame.entered
  · have frame := letters_frame moves stepped
    exact outboxChange_still frame.outbox frame.born frame.relays frame.entered
  · cases stepped
    have frame := death_frame world process
    refine .same frame.outbox frame.born (fun batch member => ?_) frame.entered
    cases process with
    | relay slot => exact (List.mem_or_eq_of_mem_set member).symm
    | delivery slot | router slot | replay slot =>
        simp only [World.die] at member
        split at member <;> exact .inr member
  · simp only [step] at stepped
    split at stepped <;> cases stepped
    exact outboxChange_still rfl rfl rfl rfl

/-! ## The inbox -/

inductive InboxChange (settings : Settings) (world next : World) (event : Event) : Prop
  | same (inbox : next.inbox = world.inbox) (applied : next.applied = world.applied)
  | applied (delivery : Delivery) (listed : delivery ∈ world.deliveries)
      (result : Except Failure Unit) (startedAt : Nat)
      (phase : delivery.phase = .inTransaction result startedAt)
      (unclaimed : world.inbox delivery.job.outboxId = none)
      (inbox : next.inbox = Function.update world.inbox delivery.job.outboxId (some startedAt))
      (applied : next.applied = Function.update world.applied delivery.job.outboxId
        (world.applied delivery.job.outboxId + 1))
  | swept (readAt : Nat) (doomed : List Nat) (event : event = .sweepInbox readAt doomed)
      (past : readAt ≤ world.now) (old : ∀ id ∈ doomed, world.sweptBefore settings readAt id = true)
      (inbox : next.inbox = fun id => if id ∈ doomed then none else world.inbox id)
      (applied : next.applied = world.applied)

/-- What a committing transaction leaves: its effect, or no trace but the delivery's phase. -/
theorem commitTransaction_cases (world : World) (slot : Nat) (delivery : Delivery)
    (prepared : Except Failure Unit) (startedAt : Nat) :
    (world.inbox delivery.job.outboxId = none ∧
      commitTransaction world slot delivery prepared startedAt =
        applyEffect world slot delivery startedAt (.ok .processed)) ∨
    ∃ outcome, commitTransaction world slot delivery prepared startedAt =
        world.setDelivery slot delivery (.returned outcome) ∧
      (∀ result, outcome = .ok result → world.inbox delivery.job.outboxId ≠ none) := by
  cases claim : world.inbox delivery.job.outboxId with
  | some claimedAt =>
      refine .inr ⟨.ok .duplicate, ?_, fun _ _ => Option.some_ne_none claimedAt⟩
      simp [commitTransaction, claim, consume]
  | none =>
      cases prepared with
      | error failure =>
          refine .inr ⟨.error failure, ?_, by simp⟩
          simp [commitTransaction, claim, consume, Except.map]
      | ok done =>
          refine .inl ⟨rfl, ?_⟩
          simp [commitTransaction, claim, consume, Except.map]

theorem step_inbox {settings : Settings} {world next : World} {event : Event}
    (stepped : step settings world event = some next) : InboxChange settings world next event := by
  rcases event_cases event with produces | consumes | moves | ⟨process, rfl⟩ | ⟨readAt, doomed, rfl⟩
  · have frame := produces_frame produces stepped
    exact .same frame.inbox frame.applied
  · cases event with
    | pick id | expireLock id | stall id giveUp | rerun id =>
        obtain ⟨⟨job, main⟩, -, rfl⟩ := Option.map_eq_some_iff.mp stepped
        exact .same rfl rfl
    | prepare slot result | begin slot =>
        simp only [step] at stepped
        split at stepped <;> cases stepped
        exact .same rfl rfl
    | abort slot failure =>
        simp only [step] at stepped
        split at stepped <;> cases stepped
        · exact .same rfl rfl
        · exact .same rfl rfl
    | evict id newer =>
        simp only [step] at stepped
        split at stepped <;> cases stepped
        exact .same rfl rfl
    | commit slot =>
        simp only [step] at stepped
        split at stepped
        · rename_i job result startedAt known
          cases stepped
          rcases commitTransaction_cases world slot ⟨job, .inTransaction result startedAt⟩ result
            startedAt with ⟨unclaimed, same⟩ | ⟨outcome, same, -⟩
          · rw [same]
            exact .applied _ (List.mem_of_getElem? known) result startedAt rfl unclaimed rfl rfl
          · rw [same]
            exact .same rfl rfl
        · cases stepped
    | commitUnheard slot =>
        simp only [step] at stepped
        split at stepped
        · rename_i job startedAt known
          split at stepped
          · rename_i unclaimed
            cases stepped
            exact .applied _ (List.mem_of_getElem? known) (.ok ()) startedAt rfl unclaimed rfl rfl
          · cases stepped
        · cases stepped
    | report slot =>
        simp only [step] at stepped
        split at stepped
        · rename_i data result known
          cases stepped
          rcases reportResult_cases world slot ⟨data, .returned result⟩ result with
            same | ⟨before, job, started, -, -, -, -, same⟩
          · rw [same]
            exact .same rfl rfl
          · rw [same]
            exact .same rfl rfl
        · cases stepped
    | _ => exact consumes.elim
  · have frame := letters_frame moves stepped
    exact .same frame.inbox frame.applied
  · cases stepped
    have frame := death_frame world process
    exact .same frame.inbox frame.applied
  · simp only [step] at stepped
    split at stepped
    · rename_i due
      cases stepped
      exact .swept readAt doomed rfl due.1 (List.all_eq_true.mp due.2) rfl rfl
    · cases stepped

/-! ## The deliveries -/

inductive Delivers (world next : World) (job : DomainEventJob) : DeliveryPhase → DeliveryPhase →
    Prop
  | prepared (result : Except Failure Unit) : Delivers world next job .picked (.prepared result)
  | begun (result : Except Failure Unit) :
      Delivers world next job (.prepared result) (.inTransaction result world.now)
  | consumed (result : Except Failure Unit) (startedAt : Nat) (outcome : ConsumeResult)
      (claimed : next.inbox job.outboxId ≠ none) :
      Delivers world next job (.inTransaction result startedAt) (.returned (.ok outcome))
  | failed (phase : DeliveryPhase) (failure : Failure) :
      Delivers world next job phase (.returned (.error failure))
  | ended (phase : DeliveryPhase) : Delivers world next job phase .stopped

/-- Every delivery was there, or moved on, or took a job that was not completed. -/
def DeliveryFrom (world next : World) (delivery : Delivery) : Prop :=
  delivery ∈ world.deliveries ∨
  (∃ phase, ⟨delivery.job, phase⟩ ∈ world.deliveries ∧
    Delivers world next delivery.job phase delivery.phase) ∨
  ∃ id job, world.main (jobIdFor id) = some job ∧ job.isCompleted = false ∧
    delivery = ⟨job.data, .picked⟩

theorem deliveryFrom_set {world next : World} {slot : Nat} {job : DomainEventJob}
    {phase later : DeliveryPhase} (known : world.deliveries[slot]? = some ⟨job, phase⟩)
    (moves : Delivers world next job phase later)
    (deliveries : next.deliveries = world.deliveries.set slot ⟨job, later⟩) {delivery : Delivery}
    (member : delivery ∈ next.deliveries) : DeliveryFrom world next delivery := by
  rw [deliveries] at member
  rcases List.mem_or_eq_of_mem_set member with before | rfl
  · exact .inl before
  · exact .inr (.inl ⟨phase, List.mem_of_getElem? known, moves⟩)

theorem step_deliveries {settings : Settings} {world next : World} {event : Event}
    (stepped : step settings world event = some next) {delivery : Delivery}
    (member : delivery ∈ next.deliveries) : DeliveryFrom world next delivery := by
  rcases event_cases event with produces | consumes | moves | ⟨process, rfl⟩ | ⟨readAt, doomed, rfl⟩
  · exact .inl ((produces_frame produces stepped).deliveries ▸ member)
  · cases event with
    | pick id =>
        obtain ⟨⟨job, main⟩, moved, rfl⟩ := Option.map_eq_some_iff.mp stepped
        obtain ⟨before, found, took, -⟩ := Queue.move_ok moved
        obtain ⟨kept, -⟩ := take_moved took
        rcases List.mem_append.mp member with known | picked
        · exact .inl known
        · obtain rfl := List.mem_singleton.mp picked
          exact .inr (.inr ⟨id, before, found, kept.pending, by rw [kept.data]⟩)
    | prepare slot result =>
        simp only [step] at stepped
        split at stepped
        · rename_i job known
          cases stepped
          refine deliveryFrom_set known ?_ rfl member
          split
          · exact .prepared result
          · rename_i failure _
            exact .failed _ failure
        · cases stepped
    | begin slot =>
        simp only [step] at stepped
        split at stepped
        · rename_i job result known
          cases stepped
          exact deliveryFrom_set known (.begun result) rfl member
        · cases stepped
    | commit slot =>
        simp only [step] at stepped
        split at stepped
        · rename_i job result startedAt known
          cases stepped
          rcases commitTransaction_cases world slot ⟨job, .inTransaction result startedAt⟩ result
            startedAt with ⟨-, same⟩ | ⟨outcome, same, claimed⟩
          · rw [same] at member ⊢
            refine deliveryFrom_set known (.consumed result startedAt .processed ?_) rfl member
            simp [applyEffect]
          · rw [same] at member ⊢
            refine deliveryFrom_set known ?_ rfl member
            cases outcome with
            | error failure => exact .failed _ failure
            | ok outcome => exact .consumed result startedAt outcome (claimed outcome rfl)
        · cases stepped
    | commitUnheard slot =>
        simp only [step] at stepped
        split at stepped
        · rename_i job startedAt known
          split at stepped <;> cases stepped
          exact deliveryFrom_set known (.failed _ .transient) rfl member
        · cases stepped
    | abort slot failure =>
        simp only [step] at stepped
        split at stepped
        · rename_i job result known
          cases stepped
          exact deliveryFrom_set known (.failed _ failure) rfl member
        · rename_i job result startedAt known
          cases stepped
          exact deliveryFrom_set known (.failed _ failure) rfl member
        · cases stepped
    | report slot =>
        simp only [step] at stepped
        split at stepped
        · rename_i data result known
          cases stepped
          rcases reportResult_cases world slot ⟨data, .returned result⟩ result with
            same | ⟨before, job, started, -, -, -, -, same⟩
          · rw [same] at member ⊢
            exact deliveryFrom_set known (.ended _) rfl member
          · rw [same] at member ⊢
            exact deliveryFrom_set known (.ended _) rfl member
        · cases stepped
    | expireLock id | stall id giveUp | rerun id =>
        obtain ⟨⟨job, main⟩, -, rfl⟩ := Option.map_eq_some_iff.mp stepped
        exact .inl member
    | evict id newer =>
        simp only [step] at stepped
        split at stepped <;> cases stepped
        exact .inl member
    | _ => exact consumes.elim
  · exact .inl ((letters_frame moves stepped).deliveries ▸ member)
  · cases stepped
    cases process with
    | relay slot => exact .inl member
    | delivery slot =>
        simp only [World.die] at member ⊢
        split at member
        · rename_i known
          exact deliveryFrom_set known (.ended _) rfl member
        · exact .inl member
    | router slot | replay slot =>
        simp only [World.die] at member
        split at member <;> exact .inl member
  · simp only [step] at stepped
    split at stepped <;> cases stepped
    exact .inl member

/-! ## The queues -/

inductive JobFrom (world : World) (id : Nat) (job : Job DomainEventJob) : Prop
  | kept (found : world.main (jobIdFor id) = some job)
  | moved (before : Job DomainEventJob) (found : world.main (jobIdFor id) = some before)
      (moved : Moved before job)
      (done : job.isCompleted = true → ∃ delivery ∈ world.deliveries, ∃ outcome,
        delivery.job.outboxId = id ∧ delivery.phase = .returned (.ok outcome))
  | published (row : OutboxRow) (found : world.outbox id = some row)
      (unpublished : row.publishedAt = none)
      (data : job.data = ⟨id, row.eventType, row.createdAt⟩) (fresh : job.isCompleted = false)
  | replayed (replay : Replay) (listed : replay ∈ world.replays) (phase : replay.phase = .adding)
      (names : replay.job.outboxId = id) (data : job.data = replay.job.toDomainEventJob)
      (fresh : job.isCompleted = false)

theorem jobFrom_update {world : World} {moving id : Nat} {before job found : Job DomainEventJob}
    (here : world.main (jobIdFor moving) = some before) (moved : Moved before job)
    (done : job.isCompleted = true → ∃ delivery ∈ world.deliveries, ∃ outcome,
      delivery.job.outboxId = moving ∧ delivery.phase = .returned (.ok outcome))
    (there : Function.update world.main (jobIdFor moving) (some job) (jobIdFor id) = some found) :
    JobFrom world id found := by
  by_cases itself : id = moving
  · subst itself
    rw [Function.update_self] at there
    cases there
    exact .moved before here moved done
  · rw [Function.update_of_ne (mt (jobIdFor_inj _ _).mp itself)] at there
    exact .kept there

theorem jobFrom_remove {world : World} {removed id : Nat} {found : Job DomainEventJob}
    (there : Function.update world.main (jobIdFor removed) none (jobIdFor id) = some found) :
    JobFrom world id found := by
  by_cases itself : id = removed
  · subst itself
    rw [Function.update_self] at there
    cases there
  · rw [Function.update_of_ne (mt (jobIdFor_inj _ _).mp itself)] at there
    exact .kept there

theorem unfinished {job : Job DomainEventJob} {world : World} {id : Nat}
    (fresh : job.isCompleted = false) : job.isCompleted = true →
      ∃ delivery ∈ world.deliveries, ∃ outcome, delivery.job.outboxId = id ∧
        delivery.phase = .returned (.ok outcome) := by
  intro completed
  rw [fresh] at completed
  cases completed

theorem step_main {settings : Settings} {world next : World} {event : Event}
    (stepped : step settings world event = some next) {id : Nat} {job : Job DomainEventJob}
    (found : next.main (jobIdFor id) = some job) : JobFrom world id job := by
  cases event with
  | publish slot published =>
      simp only [step] at stepped
      split at stepped
      · rename_i batch row _ listed
        split at stepped
        · rename_i unpublished
          cases stepped
          rcases Queue.add_cases found with known | ⟨same, rfl⟩
          · exact .kept known
          · obtain rfl := (jobIdFor_inj _ _).mp same
            exact .published row listed unpublished rfl rfl
        · cases stepped
      · cases stepped
  | pick picked =>
      obtain ⟨⟨later, main⟩, moved, rfl⟩ := Option.map_eq_some_iff.mp stepped
      obtain ⟨before, here, took, rfl⟩ := Queue.move_ok moved
      obtain ⟨kept, fresh⟩ := take_moved took
      exact jobFrom_update here kept (unfinished fresh) found
  | report slot =>
      simp only [step] at stepped
      split at stepped
      · rename_i data result known
        cases stepped
        rcases reportResult_cases world slot ⟨data, .returned result⟩ result with
          same | ⟨before, later, started, here, moved, done, -, same⟩
        · rw [same] at found
          exact .kept found
        · rw [same] at found
          refine jobFrom_update here moved (fun completed => ?_) found
          obtain ⟨outcome, rfl⟩ := done completed
          exact ⟨_, List.mem_of_getElem? known, outcome, rfl, rfl⟩
      · cases stepped
  | expireLock expired =>
      obtain ⟨⟨later, main⟩, moved, rfl⟩ := Option.map_eq_some_iff.mp stepped
      obtain ⟨before, here, expired, rfl⟩ := Queue.move_ok moved
      obtain ⟨kept, fresh⟩ := expire_moved expired
      exact jobFrom_update here kept (unfinished fresh) found
  | stall stalled giveUp =>
      obtain ⟨⟨later, main⟩, moved, rfl⟩ := Option.map_eq_some_iff.mp stepped
      obtain ⟨before, here, stalled, rfl⟩ := Queue.move_ok moved
      obtain ⟨kept, fresh⟩ := stall_moved stalled
      exact jobFrom_update here kept (unfinished fresh) found
  | rerun retried =>
      obtain ⟨⟨later, main⟩, moved, rfl⟩ := Option.map_eq_some_iff.mp stepped
      obtain ⟨before, here, retried, rfl⟩ := Queue.move_ok moved
      obtain ⟨kept, fresh⟩ := retry_moved retried
      exact jobFrom_update here kept (unfinished fresh) found
  | evict evicted newer =>
      simp only [step] at stepped
      split at stepped <;> cases stepped
      exact jobFrom_remove found
  | replayTurn slot =>
      obtain ⟨replay, known, turned⟩ := Option.bind_eq_some_iff.mp stepped
      rcases replayTurn_cases turned with ⟨phase, -, rfl⟩ | ⟨-, -, rfl⟩ | ⟨adding, rfl⟩ | ⟨-, rfl⟩
      · exact .kept found
      · exact jobFrom_remove found
      · rcases Queue.add_cases found with there | ⟨same, rfl⟩
        · exact .kept there
        · exact .replayed replay (List.mem_of_getElem? known) adding
            ((jobIdFor_inj _ _).mp same).symm rfl rfl
      · exact .kept found
  | routerTurn slot =>
      obtain ⟨router, -, turned⟩ := Option.bind_eq_some_iff.mp stepped
      rcases routerTurn_cases turned with ⟨-, rfl⟩ | ⟨-, rfl⟩
      · exact .kept found
      · exact .kept found
  | replay replayed options =>
      obtain ⟨entry, -, rfl⟩ := Option.map_eq_some_iff.mp stepped
      exact .kept found
  | die process =>
      cases stepped
      exact .kept ((death_frame world process).main ▸ found)
  | commit slot =>
      simp only [step] at stepped
      split at stepped <;> cases stepped
      exact .kept ((still_commitTransaction ..).main ▸ found)
  | commitUnheard slot =>
      simp only [step] at stepped
      split at stepped
      · split at stepped <;> cases stepped
        exact .kept found
      · cases stepped
  | abort slot failure =>
      simp only [step] at stepped
      split at stepped <;> cases stepped
      · exact .kept found
      · exact .kept found
  | append | sweepOutbox | sweepInbox | prepare | begin =>
      simp only [step] at stepped
      split at stepped <;> cases stepped
      exact .kept found
  | commitRelay slot =>
      obtain ⟨batch, -, rfl⟩ := Option.map_eq_some_iff.mp stepped
      exact .kept found
  | tick | openRelay | discard =>
      cases stepped
      exact .kept found

theorem step_deadLetters {settings : Settings} {world next : World} {event : Event}
    (stepped : step settings world event = some next) {id : Nat} {entry : Job DeadLetterJob}
    (found : next.deadLetters (jobIdFor id) = some entry) :
    world.deadLetters (jobIdFor id) = some entry ∨
      ∃ router ∈ world.routers, entry.data = router.dead := by
  have removed : ∀ {key : String}, Function.update world.deadLetters key none (jobIdFor id) =
      some entry → world.deadLetters (jobIdFor id) = some entry := by
    intro key there
    by_cases itself : jobIdFor id = key
    · rw [itself, Function.update_self] at there
      cases there
    · rwa [Function.update_of_ne itself] at there
  rcases event_cases event with produces | consumes | moves | ⟨process, rfl⟩ | ⟨readAt, doomed, rfl⟩
  · exact .inl ((produces_frame produces stepped).deadLetters ▸ found)
  · exact .inl ((consumes_frame consumes stepped).deadLetters ▸ found)
  · cases event with
    | routerTurn slot =>
        obtain ⟨router, known, turned⟩ := Option.bind_eq_some_iff.mp stepped
        rcases routerTurn_cases turned with ⟨-, rfl⟩ | ⟨-, rfl⟩
        · exact .inl (removed found)
        · rcases Queue.add_cases found with there | ⟨-, rfl⟩
          · exact .inl there
          · exact .inr ⟨router, List.mem_of_getElem? known, rfl⟩
    | replay replayed options =>
        obtain ⟨entry, -, rfl⟩ := Option.map_eq_some_iff.mp stepped
        exact .inl found
    | replayTurn slot =>
        obtain ⟨replay, -, turned⟩ := Option.bind_eq_some_iff.mp stepped
        rcases replayTurn_cases turned with ⟨phase, -, rfl⟩ | ⟨-, -, rfl⟩ | ⟨-, rfl⟩ | ⟨-, rfl⟩
        · exact .inl found
        · exact .inl found
        · exact .inl found
        · exact .inl (removed found)
    | discard dropped =>
        cases stepped
        exact .inl (removed found)
    | _ => exact moves.elim
  · cases stepped
    exact .inl ((death_frame world process).deadLetters ▸ found)
  · simp only [step] at stepped
    split at stepped <;> cases stepped
    exact .inl found

theorem step_routers {settings : Settings} {world next : World} {event : Event}
    (stepped : step settings world event = some next) {router : Router}
    (member : router ∈ next.routers) :
    (∃ earlier ∈ world.routers, earlier.dead = router.dead) ∨
      ∃ id job, world.main (jobIdFor id) = some job ∧ router.dead.toDomainEventJob = job.data := by
  by_cases queues : OnQueues event
  · cases event with
    | publish slot id =>
        have producing : Produces (.publish slot id) := trivial
        have frame := produces_frame producing stepped
        exact .inl ⟨router, frame.routers ▸ member, rfl⟩
    | evict id newer =>
        simp only [step] at stepped
        split at stepped <;> cases stepped
        exact .inl ⟨router, member, rfl⟩
    | routerTurn slot =>
        obtain ⟨turning, known, turned⟩ := Option.bind_eq_some_iff.mp stepped
        rcases routerTurn_cases turned with ⟨-, rfl⟩ | ⟨-, rfl⟩
        · rcases List.mem_or_eq_of_mem_set member with before | rfl
          · exact .inl ⟨router, before, rfl⟩
          · exact .inl ⟨turning, List.mem_of_getElem? known, rfl⟩
        · rcases List.mem_or_eq_of_mem_set member with before | rfl
          · exact .inl ⟨router, before, rfl⟩
          · exact .inl ⟨turning, List.mem_of_getElem? known, rfl⟩
    | replay id options =>
        obtain ⟨entry, -, rfl⟩ := Option.map_eq_some_iff.mp stepped
        exact .inl ⟨router, member, rfl⟩
    | replayTurn slot =>
        obtain ⟨replay, -, turned⟩ := Option.bind_eq_some_iff.mp stepped
        rcases replayTurn_cases turned with ⟨phase, -, rfl⟩ | ⟨-, -, rfl⟩ | ⟨-, rfl⟩ | ⟨-, rfl⟩ <;>
          exact .inl ⟨router, member, rfl⟩
    | die process =>
        cases stepped
        cases process with
        | relay slot => exact .inl ⟨router, member, rfl⟩
        | router slot =>
            simp only [World.die] at member
            split at member
            · rename_i dying known
              rcases List.mem_or_eq_of_mem_set member with before | rfl
              · exact .inl ⟨router, before, rfl⟩
              · exact .inl ⟨dying, List.mem_of_getElem? known, rfl⟩
            · exact .inl ⟨router, member, rfl⟩
        | delivery slot | replay slot =>
            simp only [World.die] at member
            split at member <;> exact .inl ⟨router, member, rfl⟩
    | discard id =>
        cases stepped
        exact .inl ⟨router, member, rfl⟩
    | _ => exact queues.elim
  · rcases still_or_moved queues stepped with still | ⟨id, before, job, started, moved⟩
    · exact .inl ⟨router, still.routers ▸ member, rfl⟩
    · rw [moved.routers] at member
      rcases List.mem_append.mp member with known | new
      · exact .inl ⟨router, known, rfl⟩
      · exact .inr ⟨id, before, moved.found, (moved.data router new).trans moved.moved.data⟩

inductive ReplayFrom (settings : Settings) (world : World) (event : Event) (replay : Replay) : Prop
  | kept (listed : replay ∈ world.replays)
  | opened (id : Nat) (options : ReplayOptions) (entry : Job DeadLetterJob)
      (event : event = .replay id options)
      (found : world.deadLetters (jobIdFor id) = some entry)
      (same : replay = ⟨entry.data, options, .lookup⟩)
  | walked (before : Replay) (listed : before ∈ world.replays) (job : replay.job = before.job)
      (options : replay.options = before.options) (walks : Walks settings world before replay.phase)
  | added (before : Replay) (listed : before ∈ world.replays) (job : replay.job = before.job)
      (options : replay.options = before.options)
      (phases : before.phase = .removingStale ∧ replay.phase = .adding ∨
        replay.phase = .rereading)

theorem step_replays {settings : Settings} {world next : World} {event : Event}
    (stepped : step settings world event = some next) {replay : Replay}
    (member : replay ∈ next.replays) : ReplayFrom settings world event replay := by
  rcases event_cases event with produces | consumes | moves | ⟨process, rfl⟩ | ⟨readAt, doomed, rfl⟩
  · exact .kept ((produces_frame produces stepped).replays ▸ member)
  · exact .kept ((consumes_frame consumes stepped).replays ▸ member)
  · cases event with
    | routerTurn slot =>
        obtain ⟨router, -, turned⟩ := Option.bind_eq_some_iff.mp stepped
        rcases routerTurn_cases turned with ⟨-, rfl⟩ | ⟨-, rfl⟩
        · exact .kept member
        · exact .kept member
    | replay id options =>
        obtain ⟨entry, found, rfl⟩ := Option.map_eq_some_iff.mp stepped
        rcases List.mem_append.mp member with known | opened
        · exact .kept known
        · exact .opened id options entry rfl found (List.mem_singleton.mp opened)
    | replayTurn slot =>
        obtain ⟨turning, known, turned⟩ := Option.bind_eq_some_iff.mp stepped
        have listed := List.mem_of_getElem? known
        rcases replayTurn_cases turned with ⟨phase, walks, rfl⟩ | ⟨removing, -, rfl⟩ | ⟨-, rfl⟩ |
          ⟨-, rfl⟩
        · rcases List.mem_or_eq_of_mem_set member with before | rfl
          · exact .kept before
          · exact .walked turning listed rfl rfl walks
        · rcases List.mem_or_eq_of_mem_set member with before | rfl
          · exact .kept before
          · exact .added turning listed rfl rfl (.inl ⟨removing, rfl⟩)
        · rcases List.mem_or_eq_of_mem_set member with before | rfl
          · exact .kept before
          · exact .added turning listed rfl rfl (.inr rfl)
        · rcases List.mem_or_eq_of_mem_set member with before | rfl
          · exact .kept before
          · exact .walked turning listed rfl rfl .stops
    | discard id =>
        cases stepped
        exact .kept member
    | _ => exact moves.elim
  · cases stepped
    cases process with
    | relay slot => exact .kept member
    | replay slot =>
        simp only [World.die] at member
        split at member
        · rename_i dying known
          rcases List.mem_or_eq_of_mem_set member with before | rfl
          · exact .kept before
          · exact .walked dying (List.mem_of_getElem? known) rfl rfl .stops
        · exact .kept member
    | delivery slot | router slot =>
        simp only [World.die] at member
        split at member <;> exact .kept member
  · simp only [step] at stepped
    split at stepped <;> cases stepped
    exact .kept member

end Commerce.Messaging
