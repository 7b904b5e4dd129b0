import Commerce.Identity.Timing

/-!
# Replicas cut off from their keyspace

The keyspace is lost while replicas hold nodes.  Cut off from it, each of them
mints until its own fence stops it, which is within a lease's length of a look it
took before the loss.
-/

set_option autoImplicit false

namespace Commerce.Identity

open Revisions
open Runs

/-! ## The old replicas -/

/-- A replica is granted a node once its clock has caught up with what it last returned. -/
def CaughtUp (hosts : Nat → Host) (world : World) : Event → Prop
  | .proceed id _ =>
      ((world.replicas id).operation.any fun pending => pending.1.checkedAt.isSome) = true →
        (world.replicas id).CaughtUp (hosts id)
  | _ => True

/-- Nothing reaches the lost keyspace any more; answers on their way may still arrive. -/
def Event.CutOff : Event → Prop
  | .serve _ | .late _ _ | .expire _ | .elsewhere => False
  | _ => True

instance (hosts : Nat → Host) (world : World) (event : Event) :
    Decidable (CaughtUp hosts world event) :=
  match event with
  | .proceed id _ => inferInstanceAs (Decidable (_ → (world.replicas id).CaughtUp (hosts id)))
  | .acquire _ | .renew _ | .release _ | .drain _ | .generate _ | .serve _ | .fail _ | .crash _
  | .late _ _ | .drop _ _ | .expire _ | .elsewhere => isTrue trivial

/-- The wall clock of every host runs with its monotonic one, leases have one length, and no floor
may be further ahead than the fence's margin. -/
structure Agreeing (hosts : Nat → Host) (ttlMs : Int) : Prop where
  clocks : ∀ id, (hosts id).clock.Agreed
  ttl : ∀ id, (hosts id).options.ttlMs = ttlMs
  ahead : ∀ id, (hosts id).options.maxFloorAheadMs ≤ (hosts id).options.fenceMarginMs

structure Punctual (hosts : Nat → Host) (ttlMs : Int) (world : World) : Prop where
  replicas : ∀ id, (world.replicas id).Timely (hosts id) 0
  minted : ∀ minted ∈ world.minted,
    Looked (hosts minted.replica).clock (world.replicas minted.replica).tick
      (minted.fields.tsMs - ttlMs)

section Punctual

variable {hosts : Nat → Host} {ttlMs : Int} {world : World}

theorem Replica.Timely.from {host : Host} {replica : Replica} {since : Nat}
    (timely : replica.Timely host since) : replica.Timely host replica.tick :=
  ⟨le_refl _, timely.held, timely.retired, timely.operation⟩

theorem Replica.Timely.zero {host : Host} {replica : Replica} {since : Nat}
    (timely : replica.Timely host since) : replica.Timely host 0 :=
  ⟨Nat.zero_le _, timely.held, timely.retired, timely.operation⟩

theorem punctual_set (inv : Punctual hosts ttlMs world) (id : Nat) (replica : Replica)
    (timely : replica.Timely (hosts id) (world.replicas id).tick) :
    Punctual hosts ttlMs (world.set id replica) where
  replicas := by
    intro other
    by_cases same : other = id
    · subst same
      rw [set_replicas]
      exact timely.zero
    · rw [set_others world id other replica same]
      exact inv.replicas other
  minted := by
    intro minted member
    have looked := inv.minted minted member
    by_cases same : minted.replica = id
    · rw [same, set_replicas]
      rw [same] at looked
      exact looked.later timely.reached
    · rw [set_others world id _ replica same]
      exact looked

theorem punctual_mint (inv : Punctual hosts ttlMs world) (id : Nat) (held : Held)
    (spelled : String) (believed : (world.replicas id).held = some held)
    (looked : Looked (hosts id).clock (world.replicas id).tick
      (held.generator.lastMs - ttlMs)) : Punctual hosts ttlMs (world.mint id spelled) := by
  have shape : world.mint id spelled =
      { world with
        minted := world.minted ++
          [{ replica := id
             nodeId := held.nodeId
             generation := held.generation
             fields := held.generator.fields
             id := spelled }] } := by
    simp [World.mint, believed]
  rw [shape]
  refine ⟨inv.replicas, fun minted member => ?_⟩
  rcases List.mem_append.mp member with old | new
  · exact inv.minted minted old
  · obtain rfl := List.mem_singleton.mp new
    exact looked

theorem punctual_keyspace (inv : Punctual hosts ttlMs world) (next : World)
    (replicas : next.replicas = world.replicas) (minted : next.minted = world.minted) :
    Punctual hosts ttlMs next := by
  refine ⟨fun id => replicas ▸ inv.replicas id, fun found member => ?_⟩
  rw [replicas]
  exact inv.minted found (minted ▸ member)

theorem call_replicas (world : World) (id : Nat) (call : Call) :
    (world.call id call).1.replicas = world.replicas ∧
      (world.call id call).1.minted = world.minted := by
  cases call with
  | leaseRevoke leaseId => cases leaseId <;> exact ⟨rfl, rfl⟩
  | _ => exact ⟨rfl, rfl⟩

theorem punctual_act (agreeing : Agreeing hosts ttlMs) (inv : Punctual hosts ttlMs world)
    (id : Nat) (event : Event) (next : World) (actor : event.actor = some id)
    (caughtUp : CaughtUp hosts world event)
    (acted : world.act hosts id (world.replicas id) event = some next) :
    Punctual hosts ttlMs next := by
  have timely := (inv.replicas id).from
  have agreed := agreeing.clocks id
  unfold World.act at acted
  split at acted
  · split at acted
    · cases acted
      exact inv
    · rename_i started
      cases acted
      exact punctual_set inv id _ (acquire_timely timely started)
  · split at acted
    · cases acted
      exact inv
    · rename_i started
      cases acted
      exact punctual_set inv id _ (renew_timely timely started)
  · cases acted
    exact punctual_set inv id _ (release_timely timely)
  · cases acted
    exact punctual_set inv id _ ⟨timely.reached, timely.held, timely.retired, timely.operation⟩
  · split at acted
    · rename_i spelled replica called
      cases acted
      obtain ⟨kept, returned⟩ := generate_timely agreed (agreeing.ahead id) timely _ called
      obtain ⟨before, held, -, believed, -, bounded⟩ := returned spelled rfl
      refine punctual_mint (punctual_set inv id replica kept) id held spelled ?_ ?_
      · rw [set_replicas]
        exact believed
      · rw [set_replicas]
        have anchor := (kept.held held believed).anchor
        have ttl := agreeing.ttl id
        exact anchor.mono (by omega)
    · rename_i error replica called
      cases acted
      exact punctual_set inv id replica
        (generate_timely agreed (agreeing.ahead id) timely _ called).1
  · split at acted
    · rename_i awaiting call now
      cases acted
      have same := call_replicas world id call
      have own := congrFun same.1 id
      refine punctual_set (punctual_keyspace inv _ same.1 same.2) id _ ?_
      rw [own]
      exact timely.move (le_refl _) rfl rfl fun found transit present => by
        cases present
        exact timely.operation awaiting _ now
    · cases acted
  · split at acted
    · rename_i awaiting reply now
      obtain ⟨replica, gone, rfl⟩ := Option.map_eq_some_iff.mp acted
      cases actor
      have granting : awaiting.checkedAt.isSome = true →
          (world.replicas id).CaughtUp (hosts id) := fun granted =>
        caughtUp (by rw [now]; exact granted)
      exact punctual_set inv id replica
        (proceed_timely agreed timely awaiting _ reply _ now granting gone)
    · cases acted
  · obtain ⟨replica, failed, rfl⟩ := Option.map_eq_some_iff.mp acted
    exact punctual_set inv id replica (fail_timely timely failed)
  · cases acted
    exact punctual_set inv id _ (crash_timely timely)
  · cases acted

theorem punctual_step (agreeing : Agreeing hosts ttlMs) (inv : Punctual hosts ttlMs world)
    (event : Event) (next : World) (caughtUp : CaughtUp hosts world event)
    (stepped : step hosts world event = some next) : Punctual hosts ttlMs next := by
  have forget : ∀ id position, ({ world.replicas id with
      abandoned := (world.replicas id).abandoned.eraseIdx position } : Replica).Timely (hosts id)
        (world.replicas id).tick := by
    intro id position
    have timely := (inv.replicas id).from
    exact ⟨timely.reached, timely.held, timely.retired, timely.operation⟩
  unfold step at stepped
  split at stepped
  · split at stepped
    · cases stepped
    · rename_i id position _ message found
      cases stepped
      exact punctual_set (punctual_keyspace inv (world.apply id message).1 rfl rfl) id _
        (forget id position)
  · split at stepped
    · cases stepped
      exact punctual_set inv _ _ (forget _ _)
    · cases stepped
  · cases stepped
    exact punctual_keyspace inv _ rfl rfl
  · cases stepped
    exact punctual_keyspace inv _ rfl rfl
  · split at stepped
    · cases stepped
    · rename_i id actor
      split at stepped
      · exact punctual_act agreeing inv id event next actor caughtUp stepped
      · cases stepped

theorem punctual_start (hosts : Nat → Host) (ttlMs : Int) (origin : Origin) :
    Punctual hosts ttlMs (start origin) where
  replicas := fun _ =>
    { reached := Nat.zero_le _
      held := fun _ none => absurd none.symm (Option.some_ne_none _)
      retired := .inl rfl
      operation := fun _ _ none => absurd none.symm (Option.some_ne_none _) }
  minted := fun _ none => absurd none List.not_mem_nil

end Punctual

/-! ## Cut off -/

/-- The anchors a replica may still mint under were taken before the loss. -/
structure Replica.Cut (lostAtMs : Int) (replica : Replica) : Prop where
  held : ∀ held, replica.held = some held → held.anchor.wallMs ≤ lostAtMs
  answered : ∀ awaiting reply anchor, replica.operation = some (awaiting, .answered reply) →
    awaiting.anchor = some anchor → anchor.wallMs ≤ lostAtMs

section Cut

variable {host : Host} {lostAtMs : Int} {replica next : Replica}

theorem Replica.Cut.ask (cut : replica.Cut lostAtMs) (call : Call) (awaiting : Awaiting)
    (held : next.held = replica.held)
    (operation : next.operation = some (awaiting, .asked call)) : next.Cut lostAtMs := by
  refine ⟨held ▸ cut.held, fun other reply anchor now => ?_⟩
  cases operation.symm.trans now

theorem Replica.Cut.idle (held : ∀ held, next.held = some held → held.anchor.wallMs ≤ lostAtMs)
    (done : next.operation = none) : next.Cut lostAtMs := by
  refine ⟨held, fun other reply anchor now => ?_⟩
  cases done.symm.trans now

theorem retired_cut (lostAtMs : Int) (replica : Replica) (phase : Phase) :
    ∀ held, (replica.retire phase).held = some held → held.anchor.wallMs ≤ lostAtMs :=
  fun _ none => absurd none.symm (Option.some_ne_none _)

theorem granted_cut (cut : replica.Cut lostAtMs) (anchor : Reading) (nodeId generation : Nat)
    (floorMs : Option Int) (leaseUntilMs nowMs : Int) (before : anchor.wallMs ≤ lostAtMs) :
    (replica.granted host anchor nodeId generation floorMs leaseUntilMs nowMs).Cut lostAtMs := by
  unfold Replica.granted
  split
  · exact cut.ask _ _ rfl rfl
  · split
    · exact .idle cut.held rfl
    · refine .idle (fun held same => ?_) rfl
      cases same
      exact before

theorem claimNext_cut (cut : replica.Cut lostAtMs) (anchor : Reading) (leaseId : Nat)
    (free : List NodeEntry) (position : Nat)
    (claimed : replica.claimNext host anchor leaseId free position = some next) :
    next.Cut lostAtMs := by
  unfold Replica.claimNext at claimed
  split at claimed
  · cases claimed
    exact cut.ask _ _ rfl rfl
  · obtain ⟨entry, -, rfl⟩ := Option.map_eq_some_iff.mp claimed
    exact cut.ask _ _ rfl rfl

theorem proceed_cut (cut : replica.Cut lostAtMs) (awaiting : Awaiting) (reply : Reply)
    (position : Nat) (now : replica.operation = some (awaiting, .answered reply))
    (gone : replica.proceed host position awaiting reply = some next) : next.Cut lostAtMs := by
  have before := fun anchor => cut.answered awaiting reply anchor now
  have done : ∀ other : Replica, other.held = replica.held → other.operation = none →
      other.Cut lostAtMs := fun other same none => .idle (same ▸ cut.held) none
  have lost : (replica.retire .lost).done.Cut lostAtMs := .idle (retired_cut _ replica .lost) rfl
  unfold Replica.proceed at gone
  split at gone
  · cases gone
    exact cut.ask _ _ rfl rfl
  · cases gone
    exact cut.ask _ _ rfl rfl
  · cases gone
    exact cut.ask _ _ rfl rfl
  · split at gone
    · cases gone
      exact done _ rfl rfl
    · split at gone
      · cases gone
        exact cut.ask _ _ rfl rfl
      · exact claimNext_cut cut _ _ _ _ gone
  · -- A claim that went through before the loss.
    cases gone
    have unclaiming : ({ replica with pendingLeaseId := none } : Replica).Cut lostAtMs :=
      ⟨cut.held, cut.answered⟩
    exact granted_cut unclaiming _ _ _ _ _ _ (before _ rfl)
  · exact claimNext_cut cut _ _ _ _ gone
  · cases gone
    exact done _ rfl rfl
  · -- A re-adoption that went through before the loss.
    cases gone
    have unclaiming : ({ replica with pendingLeaseId := none } : Replica).Cut lostAtMs :=
      ⟨cut.held, cut.answered⟩
    exact granted_cut unclaiming _ _ _ _ _ _ (before _ rfl)
  · cases gone
    exact done _ rfl rfl
  · cases gone
    exact done _ rfl rfl
  · cases gone
    exact done _ rfl rfl
  · split at gone
    · cases gone
      exact lost
    · cases gone
      exact cut.ask _ _ rfl rfl
  · cases gone
    exact lost
  · cases gone
    exact cut.ask _ _ rfl rfl
  · -- A renewal confirmed before the loss.
    cases gone
    refine .idle (fun held same => ?_) rfl
    obtain ⟨old, -, rfl⟩ := Option.map_eq_some_iff.mp same
    exact before _ rfl
  · cases gone
    exact lost
  · cases gone
    exact done _ rfl rfl
  · split at gone
    · cases gone
      exact done _ rfl rfl
    · cases gone
      exact cut.ask _ _ rfl rfl
  · cases gone
    exact cut.ask _ _ rfl rfl
  · cases gone
    exact done _ rfl rfl
  · cases gone
    exact done _ rfl rfl
  · cases gone

end Cut

structure CutOff (hosts : Nat → Host) (ttlMs lostAtMs : Int) (world : World) : Prop where
  inner : Inv hosts world
  punctual : Punctual hosts ttlMs world
  replicas : ∀ id, (world.replicas id).Cut lostAtMs
  minted : ∀ minted ∈ world.minted, minted.fields.tsMs ≤ lostAtMs + ttlMs

section CutOff

variable {hosts : Nat → Host} {ttlMs lostAtMs : Int} {world : World}

theorem cut_set (replicas : ∀ id, (world.replicas id).Cut lostAtMs) (id : Nat)
    (replica : Replica) (cut : replica.Cut lostAtMs) (other : Nat) :
    ((world.set id replica).replicas other).Cut lostAtMs := by
  by_cases same : other = id
  · subst same
    rw [set_replicas]
    exact cut
  · rw [set_others world id other replica same]
    exact replicas other

/-- A replica that is cut off mints within a lease's length of the loss. -/
theorem cut_generate (agreeing : Agreeing hosts ttlMs) (inv : CutOff hosts ttlMs lostAtMs world)
    (id : Nat) (replica : Replica) (result : Except GenerateError String)
    (called : (world.replicas id).generate (hosts id) = (result, replica)) :
    replica.Cut lostAtMs ∧ ∀ spelled, result = .ok spelled →
      ∀ minted ∈ ((world.set id replica).mint id spelled).minted,
        minted.fields.tsMs ≤ lostAtMs + ttlMs := by
  have cut := inv.replicas id
  obtain ⟨kept, returned⟩ := generate_timely (agreeing.clocks id) (agreeing.ahead id)
    (inv.punctual.replicas id) result called
  constructor
  · rcases generate_cases (hosts id) _ replica result called with
      ⟨tick, error, -, rfl, -⟩ | ⟨held, minted, generator, tick, later, believed, -, -, rfl, -⟩
    · exact ⟨cut.held, cut.answered⟩
    · refine ⟨fun other same => ?_, cut.answered⟩
      cases same
      exact cut.held held believed
  · intro spelled ok minted member
    obtain ⟨before, held, was, believed, anchor, bounded⟩ := returned spelled ok
    have early := cut.held before was
    have ttl := agreeing.ttl id
    rw [← anchor] at early
    have shape : ((world.set id replica).mint id spelled).minted = world.minted ++
        [{ replica := id
           nodeId := held.nodeId
           generation := held.generation
           fields := held.generator.fields
           id := spelled }] := by
      simp [World.mint, World.set, believed]
    rw [shape] at member
    rcases List.mem_append.mp member with old | new
    · exact inv.minted minted old
    · obtain rfl := List.mem_singleton.mp new
      simp only [Generator.fields]
      omega

theorem release_cut {replica : Replica} (cut : replica.Cut lostAtMs) :
    replica.release.Cut lostAtMs := by
  rcases release_cases replica with ⟨-, same⟩ | ⟨idle, -, same⟩ | ⟨held, -, same⟩
  · rw [same]
    exact ⟨cut.held, cut.answered⟩
  · rw [same]
    exact .idle (retired_cut _ _ .released) idle
  · rw [same]
    refine ⟨retired_cut _ { replica with draining := true } .released,
      fun other reply anchor now => ?_⟩
    cases now

theorem renew_cut {host : Host} {replica next : Replica} (cut : replica.Cut lostAtMs)
    (started : replica.renew host = .ok next) : next.Cut lostAtMs := by
  unfold Replica.renew at started
  split at started
  · cases started
  · split at started
    · cases started
    · cases started
      exact cut.ask _ _ rfl rfl

theorem fail_cut {replica next : Replica} (cut : replica.Cut lostAtMs)
    (failed : replica.fail = some next) : next.Cut lostAtMs := by
  unfold Replica.fail at failed
  split at failed
  · cases failed
  · cases failed
    exact .idle cut.held rfl
  · cases failed
    exact .idle cut.held rfl

/-- What a step of one replica does to the anchors, and what it returns. -/
theorem cut_act (agreeing : Agreeing hosts ttlMs) (inv : CutOff hosts ttlMs lostAtMs world)
    (id : Nat) (event : Event) (next : World) (off : event.CutOff)
    (acted : world.act hosts id (world.replicas id) event = some next) :
    (∀ other, (next.replicas other).Cut lostAtMs) ∧
      ∀ minted ∈ next.minted, minted.fields.tsMs ≤ lostAtMs + ttlMs := by
  have cut := inv.replicas id
  have turn : ∀ replica : Replica, replica.Cut lostAtMs →
      (∀ other, ((world.set id replica).replicas other).Cut lostAtMs) ∧
        ∀ minted ∈ world.minted, minted.fields.tsMs ≤ lostAtMs + ttlMs :=
    fun replica own => ⟨cut_set inv.replicas id replica own, inv.minted⟩
  unfold World.act at acted
  split at acted
  · split at acted
    · cases acted
      exact ⟨inv.replicas, inv.minted⟩
    · rename_i started
      cases acted
      obtain ⟨-, ⟨leaseId, -, rfl⟩ | rfl⟩ := acquire_cases (hosts id) _ _ started
      · exact turn _ (cut.ask _ _ rfl rfl)
      · exact turn _ (cut.ask _ _ rfl rfl)
  · split at acted
    · cases acted
      exact ⟨inv.replicas, inv.minted⟩
    · rename_i started
      cases acted
      exact turn _ (renew_cut cut started)
  · cases acted
    exact turn _ (release_cut cut)
  · cases acted
    exact turn _ ⟨cut.held, cut.answered⟩
  · split at acted
    · rename_i spelled replica called
      cases acted
      obtain ⟨kept, minted⟩ := cut_generate agreeing inv id replica _ called
      have same : ((world.set id replica).mint id spelled).replicas =
          (world.set id replica).replicas := by
        unfold World.mint
        split <;> rfl
      refine ⟨fun other => ?_, minted spelled rfl⟩
      rw [same]
      exact cut_set inv.replicas id replica kept other
    · rename_i error replica called
      cases acted
      exact turn _ (cut_generate agreeing inv id replica _ called).1
  · exact off.elim
  · split at acted
    · rename_i awaiting reply now
      obtain ⟨replica, gone, rfl⟩ := Option.map_eq_some_iff.mp acted
      exact turn _ (proceed_cut cut awaiting reply _ now gone)
    · cases acted
  · obtain ⟨replica, failed, rfl⟩ := Option.map_eq_some_iff.mp acted
    exact turn _ (fail_cut cut failed)
  · cases acted
    exact turn _ (.idle (fun _ none => absurd none.symm (Option.some_ne_none _)) rfl)
  · cases acted

/-- No step cut off from the keyspace moves an anchor past the loss. -/
theorem cut_step (agreeing : Agreeing hosts ttlMs) (inv : CutOff hosts ttlMs lostAtMs world)
    (event : Event) (next : World) (off : event.CutOff) (uncrossed : Uncrossed world event)
    (caughtUp : CaughtUp hosts world event) (stepped : step hosts world event = some next) :
    CutOff hosts ttlMs lostAtMs next := by
  have inner := inv_step inv.inner event next uncrossed stepped
  have punctual := punctual_step agreeing inv.punctual event next caughtUp stepped
  unfold step at stepped
  split at stepped
  · exact off.elim
  · split at stepped
    · cases stepped
      exact ⟨inner, punctual,
        cut_set inv.replicas _ _ ⟨(inv.replicas _).held, (inv.replicas _).answered⟩, inv.minted⟩
    · cases stepped
  · exact off.elim
  · exact off.elim
  · split at stepped
    · cases stepped
    · rename_i id actor
      split at stepped
      · obtain ⟨replicas, minted⟩ := cut_act agreeing inv id event next off stepped
        exact ⟨inner, punctual, replicas, minted⟩
      · cases stepped

theorem cut_of_lost (inner : Inv hosts world) (punctual : Punctual hosts ttlMs world)
    (known : ∀ id look, look < (world.replicas id).tick →
      ((hosts id).clock.reading look).wallMs ≤ lostAtMs) : CutOff hosts ttlMs lostAtMs world := by
  have bounded : ∀ id ms, Looked (hosts id).clock (world.replicas id).tick ms → ms ≤ lostAtMs := by
    rintro id ms ⟨look, before, past⟩
    exact past.trans (known id look before)
  refine ⟨inner, punctual, fun id => ⟨fun held believed => ?_,
    fun awaiting reply anchor now same => ?_⟩, fun minted member => ?_⟩
  · exact bounded id _ ((punctual.replicas id).held held believed).anchor
  · exact bounded id _ (((punctual.replicas id).operation awaiting _ now).anchor anchor same)
  · have below := bounded minted.replica _ (punctual.minted minted member)
    omega

end CutOff

end Commerce.Identity
