import Commerce.Identity.Uniqueness

/-!
# The ceiling a node has stored

A holder mints up to the bound its last confirmed transaction stored as the
node's floor.  The floor stays at or above that bound as long as no raise
overtakes a lower one the holder has given up on: the guard of a raise compares
the claim's generation, which both carry, and not the floor.
-/

set_option autoImplicit false

namespace Commerce.Identity

open Revisions
open Runs

/-- The floor stored for a node is at or above the bound its holder mints under. -/
def CeilingStored (world : World) : Prop :=
  ∀ id held, (world.replicas id).held = some held →
    ∃ cell : Cell Int, world.keyspace.cells (.floor held.nodeId) = some cell ∧
      held.leaseUntilMs ≤ cell.value

/-- In any run in which no raise overtakes a lower one of its tenure that is still in flight,
every holder's bound is stored. -/
theorem ceiling_stored (hosts : Nat → Host) (origin : Origin) (events : List Event)
    (final : World) (uncrossed : Along (step hosts) Uncrossed (start origin) events)
    (success : run (step hosts) (start origin) events = some final) : CeilingStored final := by
  have inv : Inv hosts final :=
    run_preserves_along (step hosts) Uncrossed (Inv hosts)
      (fun state event next kept met stepped => inv_step kept event next met stepped) events
      (start origin) final (inv_start hosts origin) uncrossed success
  intro id held believed
  obtain ⟨claimFloorMs, floorMs, believes⟩ := (inv.sane id).held held believed
  exact believes.covered.stored

/-! A renewal that times out, the next one confirmed, and then the first one applied. -/

def tickingHost : Host where
  options := steadyHost.options
  clock :=
    { reading := fun tick =>
        { wallMs := epochMs + 1000 * (tick + 1), monotonicMs := 1000 * tick, elapsedNs := 0 }
      steady := by
        intro earlier later before
        simp only
        omega }

def acquiring : List Event :=
  [.acquire 0, .serve 0, .proceed 0 0, .serve 0, .proceed 0 0, .serve 0, .proceed 0 0]

def timedOutRenewal : List Event :=
  [.renew 0, .serve 0, .proceed 0 0, .serve 0, .proceed 0 0, .fail 0]

def confirmedRenewal : List Event :=
  [.renew 0, .serve 0, .proceed 0 0, .serve 0, .proceed 0 0, .serve 0, .proceed 0 0]

def lateRaiseRun : List Event := acquiring ++ timedOutRenewal ++ [.late 0 0] ++ confirmedRenewal

theorem ceiling_stored_late_raise :
    ∃ final, run (step fun _ => tickingHost) (start initializedOrigin) lateRaiseRun = some final ∧
      (final.replicas 0).held.map (·.leaseUntilMs) = some (epochMs + 307000) ∧
      CeilingStored final := by
  have uncrossed : Along (step fun _ => tickingHost) Uncrossed (start initializedOrigin)
      lateRaiseRun := by decide +kernel
  have holds : (run (step fun _ => tickingHost) (start initializedOrigin) lateRaiseRun).map
      (fun world => (world.replicas 0).held.map (·.leaseUntilMs)) =
        some (some (epochMs + 307000)) := by decide +kernel
  obtain ⟨final, success, upTo⟩ := Option.map_eq_some_iff.mp holds
  exact ⟨final, success, upTo,
    ceiling_stored (fun _ => tickingHost) initializedOrigin lateRaiseRun final uncrossed success⟩

def crossedRun : List Event := acquiring ++ timedOutRenewal ++ confirmedRenewal ++ [.late 0 0]

/-- The holder mints up to a bound two seconds above the floor left in the keyspace. -/
theorem crossed_raise_lowers_ceiling :
    ¬ ∀ (hosts : Nat → Host) (origin : Origin) (events : List Event) (final : World),
      run (step hosts) (start origin) events = some final → CeilingStored final := by
  intro stored
  have crossed : (run (step fun _ => tickingHost) (start initializedOrigin) crossedRun).map
      (fun world => ((world.replicas 0).held.map fun held => (held.nodeId, held.leaseUntilMs),
        (world.keyspace.cells (.floor 1)).map (·.value))) =
        some (some (1, epochMs + 307000), some (epochMs + 305000)) := by decide +kernel
  obtain ⟨final, success, view⟩ := Option.map_eq_some_iff.mp crossed
  obtain ⟨holding, floor⟩ := Prod.mk.inj view
  obtain ⟨held, believed, bound⟩ := Option.map_eq_some_iff.mp holding
  obtain ⟨node, upTo⟩ := Prod.mk.inj bound
  obtain ⟨cell, present, below⟩ :=
    stored (fun _ => tickingHost) initializedOrigin crossedRun final success 0 held believed
  rw [node] at present
  rw [present] at floor
  have value : cell.value = epochMs + 305000 := Option.some.inj floor
  omega

end Commerce.Identity
