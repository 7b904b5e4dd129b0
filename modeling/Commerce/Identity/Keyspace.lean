import Mathlib.Data.List.Sort
import Commerce.Lib.Revisions

/-!
# The lease keyspace

Per leased node the keyspace has an owner key, attached to its holder's etcd
lease, and a floor key: the highest timestamp any holder may have stamped.  The
store writes them in three transactions only: a claim, a raise and a release.
-/

set_option autoImplicit false

namespace Commerce.Identity

open Revisions

/-- Written with the claim, so a re-adopt after an unknown outcome knows the floor it claimed
above. -/
structure OwnerRecord where
  holder : String
  claimFloorMs : Option Int
  deriving DecidableEq

inductive Key where
  | owner (nodeId : Nat)
  | floor (nodeId : Nat)
  | initialized
  deriving DecidableEq

abbrev Value : Key → Type
  | .owner _ => OwnerRecord
  | .floor _ => Int
  | .initialized => Unit

abbrev Keyspace := Store Key Value

def leasedNodeMin : Nat := 1
def leasedNodeMax : Nat := 254

def leasedNodeIds : List Nat := List.range' leasedNodeMin (leasedNodeMax + 1 - leasedNodeMin)

structure NodeEntry where
  nodeId : Nat
  owner : Option (Cell OwnerRecord)
  floor : Option (Cell Int)

structure HeldEntry where
  nodeId : Nat
  owner : Cell OwnerRecord
  floor : Option (Cell Int)

def floorOf (floor : Option (Cell Int)) : Option Int := floor.map (·.value)

def NodeEntry.held (entry : NodeEntry) : Option HeldEntry :=
  entry.owner.map fun owner => { nodeId := entry.nodeId, owner, floor := entry.floor }

def isHeldBy (entry : NodeEntry) (generation : Nat) : Option HeldEntry :=
  entry.held.filter fun held => held.owner.createRevision == generation

structure KeyspaceSnapshot where
  initialized : Bool
  entries : List NodeEntry

def entryOf (keyspace : Keyspace) (nodeId : Nat) : NodeEntry :=
  { nodeId, owner := keyspace.cells (.owner nodeId), floor := keyspace.cells (.floor nodeId) }

def snapshot (keyspace : Keyspace) : KeyspaceSnapshot :=
  { initialized := (keyspace.cells .initialized).isSome
    entries := leasedNodeIds.map (entryOf keyspace) }

def readNode (keyspace : Keyspace) (nodeId : Nat) : NodeEntry :=
  if nodeId ∈ leasedNodeIds then entryOf keyspace nodeId
  else { nodeId, owner := none, floor := none }

def KeyspaceSnapshot.ownedBy (shot : KeyspaceSnapshot) (leaseId : Nat) : Option HeldEntry :=
  shot.entries.findSome? fun entry =>
    entry.held.filter fun held => held.owner.lease == some leaseId

/-- The node whose floor was written longest ago first; never-leased nodes tie at 0, lowest id
first. -/
def olderFirst (first second : NodeEntry) : Prop :=
  modifiedAt first.floor < modifiedAt second.floor ∨
    modifiedAt first.floor = modifiedAt second.floor ∧ first.nodeId ≤ second.nodeId

instance : DecidableRel olderFirst := fun _ _ => inferInstanceAs (Decidable (_ ∨ _))

def KeyspaceSnapshot.freeOldestFirst (shot : KeyspaceSnapshot) : List NodeEntry :=
  (shot.entries.filter (·.owner.isNone)).insertionSort olderFirst

/-! ## The store's transactions -/

inductive Message where
  | claim (nodeId : Nat) (holder : String) (leaseId : Nat) (floorMs : Option Int)
      (floorRevision : Nat) (ceilingMs : Int)
  | raiseCeiling (nodeId generation : Nat) (ceilingMs : Int)
  | release (nodeId generation : Nat) (floorMs : Int)

def heldBy (nodeId generation : Nat) : Compare Key := .created (.owner nodeId) generation

def Message.compare : Message → List (Compare Key)
  | .claim nodeId _ _ _ floorRevision _ =>
      -- The floor must still be the one read, or the claim would record a floor it never saw.
      [.created (.owner nodeId) 0, .modified (.floor nodeId) floorRevision]
  | .raiseCeiling nodeId generation _ => [heldBy nodeId generation]
  | .release nodeId generation _ => [heldBy nodeId generation]

def Message.success : Message → List (Op Key Value)
  | .claim nodeId holder leaseId floorMs _ ceilingMs =>
      [.put (.owner nodeId) { holder, claimFloorMs := floorMs } (some leaseId),
        .put (.floor nodeId) ceilingMs none]
  | .raiseCeiling nodeId _ ceilingMs => [.put (.floor nodeId) ceilingMs none]
  | .release nodeId _ floorMs => [.put (.floor nodeId) floorMs none, .delete (.owner nodeId)]

def Message.commit (message : Message) (keyspace : Keyspace) : Keyspace × Answer :=
  keyspace.commit message.compare message.success

/-! ## What each transaction does -/

def Message.nodeId : Message → Nat
  | .claim nodeId .. | .raiseCeiling nodeId .. | .release nodeId .. => nodeId

def Message.floorMs : Message → Int
  | .claim _ _ _ _ _ ceilingMs => ceilingMs
  | .raiseCeiling _ _ ceilingMs => ceilingMs
  | .release _ _ floorMs => floorMs

def Message.Within (nodeId generation : Nat) : Message → Prop
  | .claim .. => False
  | .raiseCeiling node tenure _ | .release node tenure _ => node = nodeId ∧ tenure = generation

instance (nodeId generation : Nat) (message : Message) :
    Decidable (message.Within nodeId generation) := by
  cases message <;> unfold Message.Within <;> infer_instance

structure WritesNode (before after : Keyspace) (nodeId : Nat) (floorMs : Int) : Prop where
  revision : after.revision = before.revision + 1
  granted : after.granted = before.granted
  floor : ∃ cell : Cell Int, after.cells (.floor nodeId) = some cell ∧ cell.value = floorMs ∧
    cell.lease = none
  owners : ∀ other, other ≠ nodeId → after.cells (.owner other) = before.cells (.owner other)
  floors : ∀ other, other ≠ nodeId → after.cells (.floor other) = before.cells (.floor other)

theorem Message.commit_writes (message : Message) (before after : Keyspace) (revision : Nat)
    (committed : message.commit before = (after, .done true revision)) :
    WritesNode before after message.nodeId message.floorMs := by
  obtain ⟨-, -, rfl⟩ := commit_done _ _ _ _ _ committed
  have named : ∀ op ∈ message.success,
      op.key = .owner message.nodeId ∨ op.key = .floor message.nodeId := by
    cases message <;> simp [Message.success, Message.nodeId, Op.key]
  refine ⟨rfl, rfl, ?_, fun other different => ?_, fun other different => ?_⟩
  · cases message <;> simp [Message.success, Message.nodeId, Message.floorMs, Op.write]
  · refine write_other _ _ _ _ fun op member same => ?_
    rcases named op member with owned | floored
    · exact different (Key.owner.inj (same.symm.trans owned))
    · cases same.symm.trans floored
  · refine write_other _ _ _ _ fun op member same => ?_
    rcases named op member with owned | floored
    · cases same.symm.trans owned
    · exact different (Key.floor.inj (same.symm.trans floored))

/-- A claim went through: the node was free, the floor was the one read, and the owner key is
the claimant's. -/
theorem claim_done (nodeId : Nat) (holder : String) (leaseId : Nat) (floorMs : Option Int)
    (floorRevision : Nat) (ceilingMs : Int) (before after : Keyspace) (revision : Nat)
    (sound : Sound before)
    (committed : (Message.claim nodeId holder leaseId floorMs floorRevision ceilingMs).commit
      before = (after, .done true revision)) :
    before.cells (.owner nodeId) = none ∧
      (Compare.modified (.floor nodeId) floorRevision).holds before ∧
      revision = before.revision + 1 ∧
      after.cells (.owner nodeId) = some
        { value := { holder, claimFloorMs := floorMs }
          createRevision := revision
          modRevision := revision
          lease := some leaseId } := by
  obtain ⟨met, rfl, rfl⟩ := commit_done _ _ _ _ _ committed
  have free := absent_compared before (.owner nodeId) sound (met _ (by simp [Message.compare]))
  refine ⟨free, met _ (by simp [Message.compare]), rfl, ?_⟩
  simp [Message.success, Op.write, free]

theorem heldBy_done (message : Message) (nodeId generation : Nat) (before after : Keyspace)
    (revision : Nat) (positive : 0 < generation)
    (guarded : heldBy nodeId generation ∈ message.compare)
    (committed : message.commit before = (after, .done true revision)) :
    ∃ cell, before.cells (.owner nodeId) = some cell ∧ cell.createRevision = generation := by
  obtain ⟨met, -, -⟩ := commit_done _ _ _ _ _ committed
  exact created_compared before (.owner nodeId) generation positive (met _ guarded)

theorem raise_owner (nodeId generation : Nat) (ceilingMs : Int) (before after : Keyspace)
    (revision : Nat)
    (committed : (Message.raiseCeiling nodeId generation ceilingMs).commit before =
      (after, .done true revision)) :
    after.cells (.owner nodeId) = before.cells (.owner nodeId) := by
  obtain ⟨-, -, rfl⟩ := commit_done _ _ _ _ _ committed
  simp [Message.success, Op.write]

theorem release_owner (nodeId generation : Nat) (floorMs : Int) (before after : Keyspace)
    (revision : Nat)
    (committed : (Message.release nodeId generation floorMs).commit before =
      (after, .done true revision)) :
    after.cells (.owner nodeId) = none := by
  obtain ⟨-, -, rfl⟩ := commit_done _ _ _ _ _ committed
  simp [Message.success, Op.write]

end Commerce.Identity
