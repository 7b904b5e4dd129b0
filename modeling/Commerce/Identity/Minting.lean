import Commerce.Identity.Operations

/-!
# Minting

A call of `generate` that returns moves the generator's stamp up and stays under
the bound the store confirmed, so the id is none that any replica has returned.
-/

set_option autoImplicit false

namespace Commerce.Identity

open Revisions

theorem generate_cases (host : Host) (replica next : Replica)
    (result : Except GenerateError String) (called : replica.generate host = (result, next)) :
    (∃ tick error, replica.tick ≤ tick ∧ next = { replica with tick } ∧ result = .error error) ∨
    ∃ held minted generator tick later,
      replica.held = some held ∧
      held.generator.generate host.clock.reading (replica.tick + 1) = (minted, generator, tick) ∧
      tick ≤ later ∧ next = { replica with held := some { held with generator }, tick := later } ∧
      ((∃ error, result = .error error) ∨
        ∃ spelled, result = .ok spelled ∧ minted = .ok spelled ∧
          generator.lastMs ≤ held.leaseUntilMs) := by
  unfold Replica.generate at called
  split at called
  · cases called
    exact .inl ⟨_, _, Nat.le_refl _, rfl, rfl⟩
  · rename_i held believed
    split at called
    · cases called
      exact .inl ⟨replica.tick + 1 + 1, _, by omega, rfl, rfl⟩
    · generalize stamped : held.generator.generate host.clock.reading (replica.tick + 1) = outcome
        at called
      obtain ⟨minted, generator, tick⟩ := outcome
      refine .inr ⟨held, minted, generator, tick, ?_⟩
      cases minted with
      | error error =>
          cases called
          exact ⟨tick, believed, stamped, Nat.le_refl _, rfl, .inl ⟨_, rfl⟩⟩
      | ok spelled =>
          simp only at called
          split at called
          · cases called
            exact ⟨tick + 1 + 1, believed, stamped, by omega, rfl, .inl ⟨_, rfl⟩⟩
          · rename_i unfenced
            cases called
            refine ⟨tick + 1, believed, stamped, by omega, rfl, .inr ⟨spelled, rfl, rfl, ?_⟩⟩
            simp only [fenced, Bool.or_eq_true, decide_eq_true_eq, not_or, not_lt] at unfenced
            exact unfenced.2

section Turn

variable {clock : Clock} {world : World} {id : Nat} {held : Held} {claimFloorMs : Option Int}
  {floorMs : Int}

theorem Covered.mono {nodeId generation : Nat} {low high : Int}
    (covered : Covered world nodeId generation high) (below : low ≤ high) :
    Covered world nodeId generation low := by
  obtain ⟨⟨cell, stored, under⟩, later⟩ := covered
  refine ⟨⟨cell, stored, below.trans under⟩, fun claim member node after => ?_⟩
  obtain ⟨recorded, same, above⟩ := later claim member node after
  exact ⟨recorded, same, below.trans above⟩

theorem Believes.turn (believes : Believes clock world id held claimFloorMs floorMs)
    (generator : Generator) (later : Nat) (node : generator.nodeId = held.generator.nodeId)
    (above : generator.Above clock later floorMs)
    (up : held.generator.stamp ≤ generator.stamp) :
    Believes clock
      (world.set id { world.replicas id with held := some { held with generator }, tick := later })
      id { held with generator } claimFloorMs floorMs := by
  refine ⟨?_, believes.tenure, covered_set id _ believes.covered, believes.claimed, ?_, ?_,
    node.trans believes.node, fun minted member own at' under =>
      (believes.minted minted member own at' under).trans up⟩ <;> rw [set_replicas]
  · exact believes.unclaiming
  · exact believes.retired
  · exact above

theorem Past.turn (believed : (world.replicas id).held = some held) (generator : Generator)
    (later : Nat) (up : held.generator.stamp ≤ generator.stamp) (fields : SnowflakeFields)
    (past : (world.replicas id).Past fields) :
    Replica.Past
      { world.replicas id with held := some { held with generator }, tick := later } fields := by
  rcases past with before | ⟨other, same, below⟩
  · exact .inl before
  · obtain rfl := Option.some.inj (believed.symm.trans same)
    exact .inr ⟨_, rfl, below.trans up⟩

theorem Sane.move (sane : Sane clock world id)
    (believed : (world.replicas id).held = some held)
    (believes : Believes clock world id held claimFloorMs floorMs)
    (generator : Generator) (later : Nat) (node : generator.nodeId = held.generator.nodeId)
    (above : generator.Above clock later floorMs)
    (up : held.generator.stamp ≤ generator.stamp) :
    Sane clock
      (world.set id { world.replicas id with held := some { held with generator }, tick := later })
      id := by
  have present : (world.replicas id).held ≠ none := by
    rw [believed]
    exact Option.some_ne_none _
  have steady := steady_set world id id
    { world.replicas id with held := some { held with generator }, tick := later }
    (fun _ => by simp [Replica.belief, believed]) fun _ => rfl
  refine ⟨?_, ?_, ?_, ?_, ?_, ?_⟩
  · rw [set_replicas, sane.unclaiming present]
    exact fun _ none => absurd none.symm (Option.some_ne_none _)
  · rw [set_replicas]
    exact fun _ => sane.phase present
  · intro other same
    rw [set_replicas] at same
    cases same
    exact ⟨claimFloorMs, floorMs, believes.turn generator later node above up⟩
  · exact fun minted member own =>
      (sane.minted minted member own).carries steady.toCarries (covered_set id _)
  · intro alive minted member own
    rw [set_replicas] at alive ⊢
    exact Past.turn believed generator later up _ (sane.past alive minted member own)
  · intro message member
    rw [set_replicas] at member
    exact steady.flight (sane.sent message member)

/-- The id of a held generator, once returned, is on record. -/
theorem Sane.mint (sane : Sane clock world id)
    (believed : (world.replicas id).held = some held)
    (believes : Believes clock world id held claimFloorMs floorMs)
    (fresh : floorMs < held.generator.lastMs)
    (bounded : held.generator.lastMs ≤ held.leaseUntilMs) (spelled : String)
    (encoded : encode held.generator.fields = .ok spelled) :
    Sane clock (world.mint id spelled) id ∧ Steady world (world.mint id spelled) id := by
  have shape : world.mint id spelled =
      { world with
        minted := world.minted ++
          [{ replica := id
             nodeId := held.nodeId
             generation := held.generation
             fields := held.generator.fields
             id := spelled }] } := by
    simp [World.mint, believed]
  have same : (world.mint id spelled).replicas = world.replicas := by rw [shape]
  have claims : (world.mint id spelled).claims = world.claims := by rw [shape]
  have carries : Carries world (world.mint id spelled) := by
    rw [shape]
    exact ⟨advances_refl _, fun _ _ => rfl, fun _ member => member⟩
  have covers : ∀ nodeId generation tsMs, Covered world nodeId generation tsMs →
      Covered (world.mint id spelled) nodeId generation tsMs := by
    intro nodeId generation tsMs covered
    rw [shape]
    exact ⟨covered.stored, covered.later⟩
  have minted : ∀ minted ∈ (world.mint id spelled).minted, minted ∈ world.minted ∨
      minted = { replica := id
                 nodeId := held.nodeId
                 generation := held.generation
                 fields := held.generator.fields
                 id := spelled } := by
    rw [shape]
    intro minted member
    simpa using member
  have steady : Steady world (world.mint id spelled) id := by
    refine ⟨carries, by rw [same], by rw [same], fun found member _ => ?_⟩
    rcases minted found member with old | rfl
    · exact .inl old
    · exact .inr ⟨held, believed, rfl, rfl, bounded⟩
  have present : (world.replicas id).held ≠ none := by
    rw [believed]
    exact Option.some_ne_none _
  refine ⟨⟨?_, ?_, ?_, ?_, ?_, ?_⟩, steady⟩
  · rw [same, sane.unclaiming present]
    exact fun _ none => absurd none.symm (Option.some_ne_none _)
  · rw [same]
    exact sane.phase
  · intro other now
    rw [same, believed] at now
    cases now
    refine ⟨claimFloorMs, floorMs, ?_⟩
    refine ⟨same ▸ believes.unclaiming, carries.tenure _ _ _ _ believes.tenure,
      covers _ _ _ believes.covered, believes.claimed, same ▸ believes.retired,
      same ▸ believes.above, believes.node, fun found member own node under => ?_⟩
    rcases minted found member with old | rfl
    · exact believes.minted found old own node under
    · exact le_refl _
  · intro found member own
    rcases minted found member with old | rfl
    · exact (sane.minted found old own).carries carries (covers _ _ _)
    · refine ⟨⟨claimFloorMs, carries.tenure _ _ _ _ believes.tenure, ?_⟩,
        covers _ _ _ (believes.covered.mono bounded), believes.node, encoded⟩
      exact believes.claimed.trans_lt fresh
  · rw [same]
    intro alive found member own
    rcases minted found member with old | rfl
    · exact sane.past alive found old own
    · exact .inr ⟨held, believed, le_refl _⟩
  · rw [same]
    exact fun message member => steady.flight (sane.sent message member)

end Turn

/-- An id minted above everything of its replica is none that any replica has returned. -/
theorem mint_fresh (clock : Nat → Clock) (world : World) (id : Nat) (inv : Tenures world)
    (sane : ∀ other, Sane (clock other) world other) (held : Held) (claimFloorMs : Option Int)
    (tsMs : Int) (fields : SnowflakeFields) (spelled : String)
    (tenure : Tenure world id held.nodeId held.generation claimFloorMs)
    (covered : Covered world held.nodeId held.generation tsMs)
    (above : claimFloorMs.getD 0 < fields.tsMs) (bounded : fields.tsMs ≤ tsMs)
    (node : fields.nodeId = held.nodeId) (encoded : encode fields = .ok spelled)
    (later : ∀ minted ∈ world.minted, minted.replica = id →
      minted.fields.stamp < fields.stamp) :
    spelled ∉ world.minted.map (·.id) := by
  intro present
  obtain ⟨old, member, same⟩ := List.mem_map.mp present
  have good := (sane old.replica).minted old member rfl
  have fields_eq : old.fields = fields := by
    refine encode_injective _ _ spelled ?_ encoded
    rw [← same]
    exact good.spelled
  by_cases own : old.replica = id
  · exact absurd (later old member own) (by rw [fields_eq]; exact lt_irrefl _)
  · -- The other tenure is of the same node: one of the two was claimed above the other.
    have nodes : old.nodeId = held.nodeId := by
      have := good.node
      rw [fields_eq, node] at this
      exact_mod_cast this.symm
    obtain ⟨oldFloor, oldTenure, oldAbove⟩ := good.tenure
    rw [fields_eq] at oldAbove
    rcases Nat.lt_trichotomy old.generation held.generation with earlier | equal | after
    · obtain ⟨leaseId, claim⟩ := tenure
      obtain ⟨floorMs, recorded, under⟩ := good.covered.later _ claim nodes.symm earlier
      dsimp only at recorded
      rw [recorded, Option.getD_some] at above
      rw [fields_eq] at under
      omega
    · rw [equal] at oldTenure
      exact own (tenure_unique world inv _ _ _ _ _ _ _ tenure oldTenure).1
    · obtain ⟨leaseId, claim⟩ := oldTenure
      obtain ⟨floorMs, recorded, under⟩ := covered.later _ claim nodes after
      dsimp only at recorded
      rw [recorded, Option.getD_some] at oldAbove
      omega

end Commerce.Identity
