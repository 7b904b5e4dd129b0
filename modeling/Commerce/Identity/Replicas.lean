import Commerce.Identity.Tenures

/-!
# What a replica may rely on

Whatever a replica has in flight, has read or has been answered stays at or
above what it has minted and the bound it mints under, until it goes on.
-/

set_option autoImplicit false

namespace Commerce.Identity

open Revisions

/-- At or above the tenure's claim, what was minted under it and the bound it is held to. -/
structure Bounds (world : World) (id nodeId generation : Nat) (floorMs : Int) : Prop where
  tenure : ∃ claimFloorMs, Tenure world id nodeId generation claimFloorMs ∧
    claimFloorMs.getD 0 ≤ floorMs
  minted : ∀ minted ∈ world.minted, minted.replica = id → minted.nodeId = nodeId →
    minted.generation = generation → minted.fields.tsMs ≤ floorMs
  held : ∀ held, (world.replicas id).held = some held → held.nodeId = nodeId →
    held.generation = generation → held.leaseUntilMs ≤ floorMs

def InFlight (world : World) (id : Nat) (message : Message) : Prop :=
  message.Honest world id ∧ ∀ nodeId generation, message.Within nodeId generation →
    Bounds world id nodeId generation message.floorMs

/-- Nothing the replica gave up on would still lower the tenure's ceiling. -/
def Clear (world : World) (id nodeId generation : Nat) (ceilingMs : Int) : Prop :=
  ∀ message ∈ (world.replicas id).abandoned, message.Within nodeId generation →
    ceilingMs ≤ message.floorMs

theorem clear_same {before after : World} {id nodeId generation : Nat} {ceilingMs : Int}
    (same : after.replicas id = before.replicas id)
    (clear : Clear before id nodeId generation ceilingMs) :
    Clear after id nodeId generation ceilingMs := by
  rw [Clear, same]
  exact clear

def SnowflakeFields.stamp (fields : SnowflakeFields) : Int ×ₗ Int :=
  toLex (fields.tsMs, fields.sequence)

/-- The tenure a replica believes in: claimed above `claimFloorMs`, minting above `floorMs`. -/
structure Believes (clock : Clock) (world : World) (id : Nat) (held : Held)
    (claimFloorMs : Option Int) (floorMs : Int) : Prop where
  unclaiming : (world.replicas id).pendingLeaseId = none
  tenure : Tenure world id held.nodeId held.generation claimFloorMs
  covered : Covered world held.nodeId held.generation held.leaseUntilMs
  claimed : claimFloorMs.getD 0 ≤ floorMs
  retired : (world.replicas id).retiredLastMs ≤ floorMs
  above : held.generator.Above clock (world.replicas id).tick floorMs
  node : held.generator.nodeId = held.nodeId
  minted : ∀ minted ∈ world.minted, minted.replica = id → minted.nodeId = held.nodeId →
    minted.generation = held.generation → minted.fields.stamp ≤ held.generator.stamp

/-- An id is good: of a tenure of its replica, above its claim, covered, and spelled by its
fields. -/
structure Minted.Good (world : World) (minted : Minted) : Prop where
  tenure : ∃ claimFloorMs,
    Tenure world minted.replica minted.nodeId minted.generation claimFloorMs ∧
      claimFloorMs.getD 0 < minted.fields.tsMs
  covered : Covered world minted.nodeId minted.generation minted.fields.tsMs
  node : minted.fields.nodeId = minted.nodeId
  spelled : encode minted.fields = .ok minted.id

/-- The replica is past this id: it retired it, or its generator stands at or above it. -/
def Replica.Past (replica : Replica) (fields : SnowflakeFields) : Prop :=
  fields.tsMs ≤ replica.retiredLastMs ∨
    ∃ held, replica.held = some held ∧ fields.stamp ≤ held.generator.stamp

structure Unused (world : World) (id leaseId : Nat) : Prop where
  leased : Leased world id leaseId
  unused : ∀ minted ∈ world.minted, minted.replica = id →
    ∃ claimFloorMs other, other ≠ leaseId ∧
      TenureUnder world id minted.nodeId minted.generation claimFloorMs other

/-- What holds of a replica whatever it waits for. -/
structure Sane (clock : Clock) (world : World) (id : Nat) : Prop where
  pending : ∀ leaseId, (world.replicas id).pendingLeaseId = some leaseId → Unused world id leaseId
  phase : (world.replicas id).held ≠ none → (world.replicas id).phase = .held
  held : ∀ held, (world.replicas id).held = some held →
    ∃ claimFloorMs floorMs, Believes clock world id held claimFloorMs floorMs
  minted : ∀ minted ∈ world.minted, minted.replica = id → minted.Good world
  past : (world.replicas id).alive → ∀ minted ∈ world.minted, minted.replica = id →
    (world.replicas id).Past minted.fields
  sent : ∀ message ∈ (world.replicas id).abandoned, InFlight world id message

def Replica.Holds (replica : Replica) (nodeId generation : Nat) : Prop :=
  ∃ held, replica.held = some held ∧ held.nodeId = nodeId ∧ held.generation = generation

def Awaiting.Knows (world : World) (id : Nat) : Awaiting → Prop
  | .acquireAlive _ leaseId | .acquireRange _ leaseId =>
      (world.replicas id).held = none ∧ (world.replicas id).pendingLeaseId = some leaseId
  | .acquireGrant _ | .acquireRevoke => (world.replicas id).held = none
  | .acquireClaim _ leaseId _ floorMs _ ceilingMs free =>
      (world.replicas id).held = none ∧ (world.replicas id).pendingLeaseId = some leaseId ∧
        floorMs.getD 0 ≤ ceilingMs ∧
        ∀ entry ∈ free, Seen world.keyspace (.floor entry.nodeId) entry.floor
  | .acquireReadopt _ own _ _ =>
      (world.replicas id).held = none ∧ ∃ leaseId,
        (world.replicas id).pendingLeaseId = some leaseId ∧
        TenureUnder world id own.nodeId own.owner.createRevision own.owner.value.claimFloorMs
          leaseId
  | .renewRead _ nodeId generation _ _ => (world.replicas id).Holds nodeId generation
  | .renewAlive _ entry generation _ _ =>
      (world.replicas id).Holds entry.nodeId generation ∧
        Bounds world id entry.nodeId generation ((floorOf entry.floor).getD 0)
  | .releaseRead nodeId generation lastMs =>
      (world.replicas id).held = none ∧ (∃ claimFloorMs,
        Tenure world id nodeId generation claimFloorMs) ∧
        ∀ minted ∈ world.minted, minted.replica = id → minted.nodeId = nodeId →
          minted.generation = generation → minted.fields.tsMs ≤ lastMs.getD 0
  | .renewRaise _ _ | .releaseTxn _ | .releaseRevoke => True

/-- What the call in transit, or its answer, is worth. -/
def Awaiting.Transits (world : World) (id : Nat) : Awaiting → Transit → Prop
  | .acquireGrant _, .answered (.granted leaseId) => Unused world id leaseId
  | .acquireRange _ leaseId, .answered (.range shot) =>
      (∀ entry ∈ shot.entries, Seen world.keyspace (.floor entry.nodeId) entry.floor) ∧
        ∀ own, shot.ownedBy leaseId = some own →
          TenureUnder world id own.nodeId own.owner.createRevision
              own.owner.value.claimFloorMs leaseId ∧
            Bounds world id own.nodeId own.owner.createRevision ((floorOf own.floor).getD 0)
  | .acquireClaim _ leaseId nodeId floorMs _ ceilingMs _, .asked (.txn message) =>
      InFlight world id message ∧ ∃ holder revision,
        message = .claim nodeId holder leaseId floorMs revision ceilingMs
  | .acquireClaim _ leaseId nodeId floorMs _ ceilingMs _,
      .answered (.txn (.done true revision)) =>
      Clear world id nodeId revision ceilingMs ∧
        TenureUnder world id nodeId revision floorMs leaseId ∧
        Covered world nodeId revision ceilingMs
  | .acquireReadopt _ own _ ceilingMs, .asked (.txn message) =>
      InFlight world id message ∧
        message = .raiseCeiling own.nodeId own.owner.createRevision ceilingMs
  | .acquireReadopt _ own _ ceilingMs, .answered (.txn (.done true _)) =>
      Clear world id own.nodeId own.owner.createRevision ceilingMs ∧
        Covered world own.nodeId own.owner.createRevision ceilingMs
  | .renewRead _ nodeId _ _ _, .asked (.readNode asked)
  | .releaseRead nodeId _ _, .asked (.readNode asked) => asked = nodeId
  | .renewRead _ nodeId generation _ _, .answered (.node entry) =>
      ∀ own, isHeldBy entry generation = some own → own.nodeId = nodeId ∧
        Bounds world id nodeId generation ((floorOf own.floor).getD 0)
  | .renewRaise _ ceilingMs, .asked (.txn message) =>
      InFlight world id message ∧ ∃ nodeId generation,
        (world.replicas id).Holds nodeId generation ∧
          message = .raiseCeiling nodeId generation ceilingMs
  | .renewRaise _ ceilingMs, .answered (.txn (.done true _)) =>
      ∃ nodeId generation, Clear world id nodeId generation ceilingMs ∧
        (world.replicas id).Holds nodeId generation ∧
          (∃ claimFloorMs, Tenure world id nodeId generation claimFloorMs) ∧
            Covered world nodeId generation ceilingMs
  | .releaseRead nodeId generation _, .answered (.node entry) =>
      ∀ own, isHeldBy entry generation = some own → own.nodeId = nodeId ∧
        Tenure world id nodeId generation own.owner.value.claimFloorMs
  | .releaseTxn _, .asked (.txn message) => InFlight world id message
  | _, .asked (.txn _) => False
  | _, _ => True

def Operating (world : World) (id : Nat) : Prop :=
  ∀ awaiting transit, (world.replicas id).operation = some (awaiting, transit) →
    awaiting.Knows world id ∧ awaiting.Transits world id transit

/-! ## What a step leaves standing -/

def Replica.belief (replica : Replica) : Option (Nat × Nat × Int) :=
  replica.held.map fun held => (held.nodeId, held.generation, held.leaseUntilMs)

/-- A step after which a replica's bounds stand: it believes what it did, and has minted at
most within that belief. -/
structure Steady (before after : World) (id : Nat) : Prop extends Carries before after where
  belief : (after.replicas id).belief = (before.replicas id).belief
  pending : (after.replicas id).pendingLeaseId = (before.replicas id).pendingLeaseId
  minted : ∀ minted ∈ after.minted, minted.replica = id → minted ∈ before.minted ∨
    ∃ held, (before.replicas id).held = some held ∧ minted.nodeId = held.nodeId ∧
      minted.generation = held.generation ∧ minted.fields.tsMs ≤ held.leaseUntilMs

theorem Steady.held {before after : World} {id : Nat} (steady : Steady before after id)
    (held : Held) (now : (after.replicas id).held = some held) :
    ∃ was, (before.replicas id).held = some was ∧ was.nodeId = held.nodeId ∧
      was.generation = held.generation ∧ was.leaseUntilMs = held.leaseUntilMs := by
  have same := steady.belief
  simp only [Replica.belief, now, Option.map_some] at same
  obtain ⟨was, before, agree⟩ := Option.map_eq_some_iff.mp same.symm
  simp only [Prod.mk.injEq] at agree
  exact ⟨was, before, agree⟩

theorem Steady.holds {before after : World} {id nodeId generation : Nat}
    (steady : Steady before after id) (holds : (before.replicas id).Holds nodeId generation) :
    (after.replicas id).Holds nodeId generation := by
  obtain ⟨was, held, node, tenure⟩ := holds
  have same := steady.belief
  simp only [Replica.belief, held, Option.map_some] at same
  obtain ⟨now, after, agree⟩ := Option.map_eq_some_iff.mp same
  simp only [Prod.mk.injEq] at agree
  exact ⟨now, after, agree.1.trans node, agree.2.1.trans tenure⟩

theorem Steady.unheld {before after : World} {id : Nat} (steady : Steady before after id)
    (unheld : (before.replicas id).held = none) : (after.replicas id).held = none := by
  have same := steady.belief
  simpa [Replica.belief, unheld] using same

theorem Steady.bounds {before after : World} {id nodeId generation : Nat} {floorMs : Int}
    (steady : Steady before after id) (bounds : Bounds before id nodeId generation floorMs) :
    Bounds after id nodeId generation floorMs := by
  obtain ⟨claimFloorMs, tenure, above⟩ := bounds.tenure
  refine ⟨⟨claimFloorMs, steady.tenure id nodeId generation claimFloorMs tenure, above⟩, ?_, ?_⟩
  · intro minted member own node under
    rcases steady.minted minted member own with old | ⟨held, believed, sameNode, sameTenure, below⟩
    · exact bounds.minted minted old own node under
    · have bound := bounds.held held believed (sameNode.symm.trans node)
        (sameTenure.symm.trans under)
      exact below.trans bound
  · intro held now node under
    obtain ⟨was, believed, sameNode, sameTenure, bound⟩ := steady.held held now
    rw [← bound]
    exact bounds.held was believed (sameNode.trans node) (sameTenure.trans under)

theorem Steady.flight {before after : World} {id : Nat} {message : Message}
    (steady : Steady before after id) (flight : InFlight before id message) :
    InFlight after id message :=
  ⟨steady.honest id message flight.1, fun nodeId generation within =>
    steady.bounds (flight.2 nodeId generation within)⟩

theorem Steady.knows {before after : World} {id : Nat} (steady : Steady before after id)
    (awaiting : Awaiting) (knows : awaiting.Knows before id) : awaiting.Knows after id := by
  cases awaiting with
  | acquireAlive anchor leaseId => exact ⟨steady.unheld knows.1, steady.pending.trans knows.2⟩
  | acquireRange anchor leaseId => exact ⟨steady.unheld knows.1, steady.pending.trans knows.2⟩
  | acquireGrant anchor => exact steady.unheld knows
  | acquireClaim anchor leaseId nodeId floorMs nowMs ceilingMs free =>
      obtain ⟨unheld, pending, above, seen⟩ := knows
      exact ⟨steady.unheld unheld, steady.pending.trans pending, above, fun entry member =>
        seen_advances _ _ _ _ steady.advances (seen entry member)⟩
  | acquireReadopt anchor own nowMs ceilingMs =>
      obtain ⟨unheld, leaseId, pending, tenure⟩ := knows
      exact ⟨steady.unheld unheld, leaseId, steady.pending.trans pending, steady.claims _ tenure⟩
  | renewRead anchor nodeId generation nowMs lastMs => exact steady.holds knows
  | renewAlive anchor entry generation nowMs lastMs =>
      exact ⟨steady.holds knows.1, steady.bounds knows.2⟩
  | releaseRead nodeId generation lastMs =>
      obtain ⟨unheld, ⟨claimFloorMs, tenure⟩, below⟩ := knows
      refine ⟨steady.unheld unheld, ⟨claimFloorMs, steady.tenure _ _ _ _ tenure⟩, ?_⟩
      intro minted member own node under
      rcases steady.minted minted member own with old | ⟨held, believed, -⟩
      · exact below minted old own node under
      · rw [unheld] at believed
        cases believed
  | acquireRevoke => exact steady.unheld knows
  | renewRaise anchor ceilingMs => trivial
  | releaseTxn leaseId => trivial
  | releaseRevoke => trivial

theorem Steady.idle {before after : World} {id : Nat} (steady : Steady before after id)
    (unheld : (before.replicas id).held = none) :
    ∀ minted ∈ after.minted, minted.replica = id → minted ∈ before.minted := by
  intro minted member own
  rcases steady.minted minted member own with old | ⟨held, believed, -⟩
  · exact old
  · rw [unheld] at believed
    cases believed

theorem Unused.carries {before after : World} {id leaseId : Nat} (carries : Carries before after)
    (minted : ∀ minted ∈ after.minted, minted.replica = id → minted ∈ before.minted)
    (unused : Unused before id leaseId) : Unused after id leaseId where
  leased := carries.leased id leaseId unused.leased
  unused := by
    intro id' member own
    obtain ⟨claimFloorMs, other, different, tenure⟩ :=
      unused.unused id' (minted id' member own) own
    exact ⟨claimFloorMs, other, different, carries.claims _ tenure⟩

def StaysCovered (before after : World) (id : Nat) : Prop :=
  ∀ nodeId generation floorMs tsMs, Tenure before id nodeId generation floorMs →
    Clear before id nodeId generation tsMs → Covered before nodeId generation tsMs →
    Clear after id nodeId generation tsMs ∧ Covered after nodeId generation tsMs

theorem Steady.transits {before after : World} {id : Nat} (steady : Steady before after id)
    (stays : StaysCovered before after id) (awaiting : Awaiting) (transit : Transit)
    (knows : awaiting.Knows before id) (transits : awaiting.Transits before id transit) :
    awaiting.Transits after id transit := by
  revert transits
  unfold Awaiting.Transits
  split
  · exact Unused.carries steady.toCarries (steady.idle knows)
  · rintro ⟨seen, owned⟩
    refine ⟨fun entry member => seen_advances _ _ _ _ steady.advances (seen entry member),
      fun own found => ?_⟩
    obtain ⟨tenure, bounds⟩ := owned own found
    exact ⟨steady.claims _ tenure, steady.bounds bounds⟩
  · rintro ⟨flight, shape⟩
    exact ⟨steady.flight flight, shape⟩
  · rintro ⟨clear, tenure, covered⟩
    obtain ⟨cleared, kept⟩ := stays _ _ _ _ ⟨_, tenure⟩ clear covered
    exact ⟨cleared, steady.claims _ tenure, kept⟩
  · rintro ⟨flight, shape⟩
    exact ⟨steady.flight flight, shape⟩
  · rintro ⟨clear, covered⟩
    obtain ⟨-, leaseId, -, tenure⟩ := knows
    exact stays _ _ _ _ ⟨leaseId, tenure⟩ clear covered
  · exact fun same => same
  · exact fun same => same
  · intro owned own found
    exact ⟨(owned own found).1, steady.bounds (owned own found).2⟩
  · rintro ⟨flight, nodeId, generation, holds, shape⟩
    exact ⟨steady.flight flight, nodeId, generation, steady.holds holds, shape⟩
  · rintro ⟨nodeId, generation, clear, holds, ⟨claimFloorMs, tenure⟩, covered⟩
    obtain ⟨cleared, kept⟩ := stays _ _ _ _ tenure clear covered
    exact ⟨nodeId, generation, cleared, steady.holds holds,
      ⟨claimFloorMs, steady.tenure _ _ _ _ tenure⟩, kept⟩
  · intro owned own found
    exact ⟨(owned own found).1, steady.tenure _ _ _ _ (owned own found).2⟩
  · exact steady.flight
  · exact fun same => same
  · exact fun same => same

/-- An operation stays in order through a steady step. -/
theorem Steady.operating {before after : World} {id : Nat} (steady : Steady before after id)
    (stays : StaysCovered before after id)
    (same : (after.replicas id).operation = (before.replicas id).operation)
    (operating : Operating before id) : Operating after id := by
  intro awaiting transit now
  obtain ⟨knows, transits⟩ := operating awaiting transit (same ▸ now)
  exact ⟨steady.knows awaiting knows, steady.transits stays awaiting transit knows transits⟩

theorem Minted.Good.carries {before after : World} {minted : Minted}
    (carries : Carries before after)
    (covered : Covered before minted.nodeId minted.generation minted.fields.tsMs →
      Covered after minted.nodeId minted.generation minted.fields.tsMs)
    (good : minted.Good before) : minted.Good after := by
  obtain ⟨claimFloorMs, tenure, above⟩ := good.tenure
  exact ⟨⟨claimFloorMs, carries.tenure _ _ _ claimFloorMs tenure, above⟩, covered good.covered,
    good.node, good.spelled⟩

/-- A step that changes nothing of this replica but what etcd holds. -/
theorem Sane.stays {clock : Clock} {before after : World} {id : Nat}
    (steady : Steady before after id)
    (same : after.replicas id = before.replicas id)
    (minted : ∀ minted ∈ after.minted, minted.replica = id → minted ∈ before.minted)
    (bound : ∀ held, (before.replicas id).held = some held →
      Covered before held.nodeId held.generation held.leaseUntilMs →
        Covered after held.nodeId held.generation held.leaseUntilMs)
    (stamped : ∀ minted ∈ before.minted, minted.replica = id →
      Covered before minted.nodeId minted.generation minted.fields.tsMs →
        Covered after minted.nodeId minted.generation minted.fields.tsMs)
    (sane : Sane clock before id) : Sane clock after id where
  pending := by
    rw [same]
    exact fun leaseId pending =>
      (sane.pending leaseId pending).carries steady.toCarries minted
  phase := same ▸ sane.phase
  held := by
    intro held now
    rw [same] at now
    obtain ⟨claimFloorMs, floorMs, believes⟩ := sane.held held now
    exact ⟨claimFloorMs, floorMs,
      { unclaiming := same ▸ believes.unclaiming
        tenure := steady.tenure _ _ _ _ believes.tenure
        covered := bound held now believes.covered
        claimed := believes.claimed
        retired := same ▸ believes.retired
        above := same ▸ believes.above
        node := believes.node
        minted := fun found member own => believes.minted found (minted found member own) own }⟩
  minted := by
    intro found member own
    have old := minted found member own
    exact (sane.minted found old own).carries steady.toCarries (stamped found old own)
  past := by
    rw [same]
    exact fun alive found member own => sane.past alive found (minted found member own) own
  sent := by
    rw [same]
    exact fun message member => steady.flight (sane.sent message member)

end Commerce.Identity
