import Commerce.Identity.Uniqueness

/-!
# Lifting the floors of a keyspace

After a keyspace is lost and started again empty, no replica may claim a node
until an operator has lifted every floor.  A lift reads the keyspace once, waits
until replicas of the lost keyspace can no longer mint, raises the floors in
chunks, each guarded by what it read, and then marks the keyspace initialized.
Nothing stops replicas or other lifts from running beside it.
-/

set_option autoImplicit false

namespace Commerce.Identity

open Revisions
open Runs

/-- etcd refuses a transaction with more than 128 compares or operations; two compares a node. -/
def nodesPerTxn : Nat := 50

structure LiftOptions where
  nowMs : Int
  onlyIfUninitialized : Bool
  settleMs : Option Int

inductive LiftOutcome where
  | lifted (floorMs : Int)
  | alreadyInitialized
  deriving DecidableEq

inductive LiftError where
  | nodesHeld (nodes : List Nat)
  | settling (remainingMs : Int)
  | raced
  | unanswered
  deriving DecidableEq

inductive LiftStage where
  | reading
  /-- About to read when the keyspace was first seen empty. -/
  | settling (entries : List NodeEntry)
  /-- About to record that instant. -/
  | recording (settleMs : Int)
  /-- The entries whose floors are still to be raised. -/
  | raising (entries : List NodeEntry)
  | ended (result : Except LiftError LiftOutcome)

structure LiftRun where
  options : LiftOptions
  stage : LiftStage := .reading

structure LiftStore where
  keyspace : Keyspace
  emptySinceMs : Option Int

def raisedFloor (options : LiftOptions) (entry : NodeEntry) : Int :=
  max ((floorOf entry.floor).getD 0) options.nowMs

def chunkCompare (chunk : List NodeEntry) : List (Compare Key) :=
  chunk.flatMap fun entry =>
    [.created (.owner entry.nodeId) 0, .modified (.floor entry.nodeId) (modifiedAt entry.floor)]

def chunkSuccess (options : LiftOptions) (chunk : List NodeEntry) : List (Op Key Value) :=
  chunk.map fun entry => .put (.floor entry.nodeId) (raisedFloor options entry) none

def LiftOptions.begin (options : LiftOptions) (shot : KeyspaceSnapshot) : LiftStage :=
  if shot.initialized && options.onlyIfUninitialized then .ended (.ok .alreadyInitialized)
  else
    let held := (shot.entries.filter (·.owner.isSome)).map (·.nodeId)
    if held ≠ [] then .ended (.error (.nodesHeld held))
    else if options.settleMs.any (· > 0) then .settling shot.entries
    else .raising shot.entries

/-- `requireSettled`, once it has read the record. -/
def LiftOptions.settled (options : LiftOptions) (entries : List NodeEntry) :
    Option Int → LiftStage
  | none => .recording (options.settleMs.getD 0)
  | some recordedMs =>
      let remainingMs := recordedMs + options.settleMs.getD 0 - options.nowMs
      if remainingMs > 0 then .ended (.error (.settling remainingMs)) else .raising entries

/-- A concurrent first run that wins the create recorded an equal or earlier instant. -/
def LiftStore.record (store : LiftStore) (nowMs : Int) : LiftStore :=
  match store.emptySinceMs with
  | some _ => store
  | none => { keyspace := store.keyspace.elsewhere, emptySinceMs := some nowMs }

def LiftStore.raiseChunk (store : LiftStore) (options : LiftOptions) (chunk : List NodeEntry) :
    LiftStore × Answer :=
  let (keyspace, answer) :=
    store.keyspace.commit (chunkCompare chunk) (chunkSuccess options chunk)
  ({ store with keyspace }, answer)

/-- The marker is put and the record of the empty keyspace deleted, under no comparison. -/
def LiftStore.mark (store : LiftStore) : LiftStore :=
  { keyspace := (store.keyspace.commit [] [.put .initialized () none]).1, emptySinceMs := none }

def LiftRun.call (lift : LiftRun) (store : LiftStore) : Option (LiftStore × LiftStage) :=
  match lift.stage with
  | .reading => some (store, lift.options.begin (snapshot store.keyspace))
  | .settling entries => some (store, lift.options.settled entries store.emptySinceMs)
  | .recording settleMs =>
      some (store.record lift.options.nowMs, .ended (.error (.settling settleMs)))
  | .raising [] => some (store.mark, .ended (.ok (.lifted lift.options.nowMs)))
  | .raising (entry :: rest) =>
      let entries := entry :: rest
      match store.raiseChunk lift.options (entries.take nodesPerTxn) with
      | (store, .done true _) => some (store, .raising (entries.drop nodesPerTxn))
      | (store, _) => some (store, .ended (.error .raced))
  | .ended _ => none

/-! ## Replicas and lifts over one keyspace -/

structure Marked where
  floorMs : Int
  revision : Nat

/-- `marks` is history: nothing reads it. -/
structure Site where
  world : World
  emptySinceMs : Option Int := none
  lifts : List LiftRun := []
  marks : List Marked := []

inductive SiteEvent where
  | replicas (event : Event)
  | start (options : LiftOptions)
  | lift (slot : Nat)
  /-- The lift's call reaches etcd, its answer never comes, and the lift throws. -/
  | unanswered (slot : Nat)

def Site.store (site : Site) : LiftStore :=
  { keyspace := site.world.keyspace, emptySinceMs := site.emptySinceMs }

def LiftRun.marks (lift : LiftRun) (store : LiftStore) : List Marked :=
  match lift.stage with
  | .raising [] => [{ floorMs := lift.options.nowMs, revision := store.keyspace.revision + 1 }]
  | _ => []

def Site.move (site : Site) (slot : Nat) (lift : LiftRun) (store : LiftStore) (stage : LiftStage) :
    Site :=
  { world := { site.world with keyspace := store.keyspace }
    emptySinceMs := store.emptySinceMs
    lifts := site.lifts.set slot { lift with stage }
    marks := site.marks ++ lift.marks site.store }

def siteStep (hosts : Nat → Host) (site : Site) : SiteEvent → Option Site
  | .replicas event => (step hosts site.world event).map fun world => { site with world }
  | .start options => some { site with lifts := site.lifts ++ [{ options }] }
  | .lift slot =>
      match site.lifts[slot]? with
      | none => none
      | some lift =>
          (lift.call site.store).map fun called => site.move slot lift called.1 called.2
  | .unanswered slot =>
      match site.lifts[slot]? with
      | none => none
      | some lift =>
          (lift.call site.store).map fun called =>
            site.move slot lift called.1 (.ended (.error .unanswered))

/-- The condition on the order of a client's transactions, beside lifts. -/
def SiteInOrder (site : Site) : SiteEvent → Prop
  | .replicas event => InOrder site.world event
  | _ => True

instance (site : Site) (event : SiteEvent) : Decidable (SiteInOrder site event) :=
  match event with
  | .replicas event => inferInstanceAs (Decidable (InOrder site.world event))
  | .start _ => isTrue trivial
  | .lift _ => isTrue trivial
  | .unanswered _ => isTrue trivial

end Commerce.Identity
