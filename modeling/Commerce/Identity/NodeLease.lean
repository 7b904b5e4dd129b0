import Commerce.Identity.Generator
import Commerce.Identity.Keyspace

/-!
# A replica's node lease

One replica runs a `NodeLease` over an `EtcdLeaseStore`.  Its store operations
are sequences of calls; a call is asked, reaches etcd or not, and its answer
reaches the replica or not.  A transaction the replica has stopped waiting for
is still in flight.  Between two calls the replica may mint.
-/

set_option autoImplicit false

namespace Commerce.Identity

open Revisions

/-- The options the constructor accepts. -/
structure NodeLeaseOptions where
  holder : String
  ttlMs : Int
  fenceMarginMs : Int
  maxFloorAheadMs : Int
  named : holder ≠ ""
  ttl : 0 < ttlMs
  margin : 0 < fenceMarginMs ∧ fenceMarginMs < ttlMs
  ahead : 0 ≤ maxFloorAheadMs

def NodeLeaseOptions.create (holder : String) (ttlMs fenceMarginMs : Int)
    (maxFloorAheadMs : Option Int) : Except String NodeLeaseOptions :=
  if named : holder = "" then .error "Lease holder must not be empty"
  else if ttl : ttlMs ≤ 0 then .error "Lease ttlMs must be a positive integer"
  else if margin : fenceMarginMs ≤ 0 ∨ fenceMarginMs ≥ ttlMs then
    .error "Lease fenceMarginMs must be a positive integer below ttlMs"
  else if ahead : maxFloorAheadMs.getD fenceMarginMs < 0 then
    .error "Lease maxFloorAheadMs must be a non-negative integer"
  else
    .ok
      { holder, ttlMs, fenceMarginMs
        maxFloorAheadMs := maxFloorAheadMs.getD fenceMarginMs
        named
        ttl := by omega
        margin := by omega
        ahead := by omega }

/-- The constructor turns no lawful options away, and changes none. -/
theorem NodeLeaseOptions.create_accepts (options : NodeLeaseOptions) :
    create options.holder options.ttlMs options.fenceMarginMs (some options.maxFloorAheadMs) =
      .ok options := by
  have ttl := options.ttl
  have margin := options.margin
  have ahead := options.ahead
  have within : ¬ (options.fenceMarginMs ≤ 0 ∨ options.fenceMarginMs ≥ options.ttlMs) := by omega
  simp only [create, Option.getD_some]
  rw [dif_neg options.named, dif_neg (by omega), dif_neg within, dif_neg (by omega)]

structure Host where
  options : NodeLeaseOptions
  clock : Clock

structure Held where
  nodeId : Nat
  generation : Nat
  generator : Generator
  /-- Taken before the store call that granted or extended the lease. -/
  anchor : Reading
  /-- The ceiling the store last confirmed. -/
  leaseUntilMs : Int

inductive Phase where
  | idle
  | acquiring
  | held
  | lost
  | exhausted
  | released
  deriving DecidableEq

def Phase.spelling : Phase → String
  | .idle => "idle"
  | .acquiring => "acquiring"
  | .held => "held"
  | .lost => "lost"
  | .exhausted => "exhausted"
  | .released => "released"

inductive LeaseState where
  | phase (phase : Phase)
  | fenced
  | draining
  deriving DecidableEq

inductive GenerateError where
  | leaseNotHeld (state : LeaseState)
  | mint (error : MintError)
  deriving DecidableEq

inductive Call where
  | leaseGrant
  | keepAlive (leaseId : Option Nat)
  | range
  | readNode (nodeId : Nat)
  | txn (message : Message)
  | leaseRevoke (leaseId : Option Nat)

inductive Reply where
  | granted (leaseId : Nat)
  | alive (answer : Bool)
  | range (shot : KeyspaceSnapshot)
  | node (entry : NodeEntry)
  | txn (answer : Answer)
  | revoked

inductive Transit where
  | asked (call : Call)
  | answered (reply : Reply)

/-- What a replica goes on with once its call is answered. -/
inductive Awaiting where
  | acquireAlive (anchor : Reading) (leaseId : Nat)
  | acquireGrant (anchor : Reading)
  | acquireRange (anchor : Reading) (leaseId : Nat)
  | acquireClaim (anchor : Reading) (leaseId nodeId : Nat) (floorMs : Option Int)
      (nowMs ceilingMs : Int) (free : List NodeEntry)
  | acquireReadopt (anchor : Reading) (own : HeldEntry) (nowMs ceilingMs : Int)
  | acquireRevoke
  | renewRead (anchor : Reading) (nodeId generation : Nat) (nowMs lastMs : Int)
  | renewAlive (anchor : Reading) (entry : HeldEntry) (generation : Nat) (nowMs lastMs : Int)
  | renewRaise (anchor : Reading) (ceilingMs : Int)
  | releaseRead (nodeId generation : Nat) (lastMs : Option Int)
  | releaseTxn (leaseId : Option Nat)
  | releaseRevoke

structure Replica where
  alive : Bool := true
  phase : Phase := .idle
  held : Option Held := none
  draining : Bool := false
  retiredLastMs : Int := 0
  pendingLeaseId : Option Nat := none
  /-- Looks at the clocks so far. -/
  tick : Nat := 0
  /-- The store operation in flight. -/
  operation : Option (Awaiting × Transit) := none
  /-- Transactions the replica stopped waiting for, oldest first. -/
  abandoned : List Message := []

def Replica.ask (replica : Replica) (call : Call) (awaiting : Awaiting) : Replica :=
  { replica with operation := some (awaiting, .asked call) }

def Replica.done (replica : Replica) : Replica := { replica with operation := none }

def Replica.look (replica : Replica) : Replica := { replica with tick := replica.tick + 1 }

def Replica.reading (host : Host) (replica : Replica) : Reading :=
  host.clock.reading replica.tick

def Replica.retire (replica : Replica) (phase : Phase) : Replica :=
  { replica with
    retiredLastMs :=
      match replica.held with
      | some held => max replica.retiredLastMs held.generator.lastMs
      | none => replica.retiredLastMs
    held := none
    phase }

/-! ## Minting -/

/-- Both clocks, because each fails alone, and the ceiling, which needs no clock at all. -/
def fenced (options : NodeLeaseOptions) (now : Reading) (held : Held) : Bool :=
  let monotonicElapsed := now.monotonicMs - held.anchor.monotonicMs
  let wallElapsed := now.wallMs - held.anchor.wallMs
  max monotonicElapsed wallElapsed ≥ options.ttlMs - options.fenceMarginMs ||
    wallElapsed - monotonicElapsed > options.fenceMarginMs ||
    held.generator.lastMs > held.leaseUntilMs

def Replica.state (host : Host) (replica : Replica) : LeaseState :=
  if replica.phase ≠ .held then .phase replica.phase
  else if replica.held.all (fenced host.options (replica.reading host)) then .fenced
  else if replica.draining then .draining
  else .phase .held

def Replica.generate (host : Host) (replica : Replica) :
    Except GenerateError String × Replica :=
  match replica.held with
  | none => (.error (.leaseNotHeld (replica.state host)), replica)
  | some held =>
      if fenced host.options (replica.reading host) held then
        (.error (.leaseNotHeld (replica.look.state host)), replica.look.look)
      else
        let (result, generator, tick) :=
          held.generator.generate host.clock.reading (replica.tick + 1)
        let held := { held with generator }
        let minted := { replica with held := some held, tick }
        match result with
        | .error error => (.error (.mint error), minted)
        | .ok id =>
            -- Again after stamping: a freeze may have fallen between the two looks.
            if fenced host.options (minted.reading host) held then
              (.error (.leaseNotHeld (minted.look.state host)), minted.look.look)
            else (.ok id, minted.look)

/-! ## Acquiring -/

def Replica.leaseForClaim (replica : Replica) (anchor : Reading) : Replica :=
  match replica.pendingLeaseId with
  | some leaseId => replica.ask (.keepAlive (some leaseId)) (.acquireAlive anchor leaseId)
  | none => replica.ask .leaseGrant (.acquireGrant anchor)

def Replica.acquire (host : Host) (replica : Replica) : Except String Replica :=
  if replica.draining then .error "acquire() after draining began"
  else if replica.phase = .held ∨ replica.phase = .released then
    .error s!"acquire() while {replica.phase.spelling}"
  else if replica.operation.isSome then .error "NodeLease operations must not overlap"
  else
    .ok (({ replica with phase := .acquiring }).look.leaseForClaim (replica.reading host))

def Replica.granted (host : Host) (replica : Replica) (anchor : Reading)
    (nodeId generation : Nat) (floorMs : Option Int) (leaseUntilMs nowMs : Int) : Replica :=
  if floorMs.any fun floorMs => floorMs - nowMs > host.options.maxFloorAheadMs then
    replica.ask (.readNode nodeId) (.releaseRead nodeId generation none)
  else
    match Generator.create host.clock.reading replica.tick nodeId
        (some (max (floorMs.getD 0) replica.retiredLastMs)) with
    | .error _ => replica.done
    | .ok generator =>
        { replica with
          held := some { nodeId, generation, generator, anchor, leaseUntilMs }
          phase := .held
          tick := replica.tick + 1
          operation := none }

def Replica.claim (host : Host) (replica : Replica) (anchor : Reading) (leaseId : Nat)
    (entry : NodeEntry) (free : List NodeEntry) : Replica :=
  let floorMs := floorOf entry.floor
  let nowMs := (replica.reading host).wallMs
  let ceilingMs := max nowMs (floorMs.getD 0) + host.options.ttlMs
  replica.look.ask
    (.txn (.claim entry.nodeId host.options.holder leaseId floorMs (modifiedAt entry.floor)
      ceilingMs))
    (.acquireClaim anchor leaseId entry.nodeId floorMs nowMs ceilingMs free)

/-- One turn of the loop over free nodes; `next` is the position drawn. -/
def Replica.claimNext (host : Host) (replica : Replica) (anchor : Reading) (leaseId : Nat)
    (free : List NodeEntry) (next : Nat) : Option Replica :=
  if free.isEmpty then
    some (({ replica with pendingLeaseId := none }).ask (.leaseRevoke (some leaseId))
      .acquireRevoke)
  else
    (free[next]?).map fun entry => replica.claim host anchor leaseId entry (free.eraseIdx next)

def raisedCeiling (options : NodeLeaseOptions) (floor : Option (Cell Int)) (stampedMs : Int) :
    Int :=
  max ((floorOf floor).getD 0) (stampedMs + options.ttlMs)

def Replica.readopt (host : Host) (replica : Replica) (anchor : Reading) (own : HeldEntry) :
    Replica :=
  let nowMs := (replica.reading host).wallMs
  let ceilingMs := raisedCeiling host.options own.floor nowMs
  replica.look.ask (.txn (.raiseCeiling own.nodeId own.owner.createRevision ceilingMs))
    (.acquireReadopt anchor own nowMs ceilingMs)

/-! ## Renewing and releasing -/

def Replica.renew (host : Host) (replica : Replica) : Except String Replica :=
  match replica.held with
  | none => .error s!"renew() while {replica.phase.spelling}"
  | some held =>
      if replica.operation.isSome then .error "NodeLease operations must not overlap"
      else
        .ok (replica.look.look.ask (.readNode held.nodeId)
          (.renewRead (replica.reading host) held.nodeId held.generation
            (replica.look.reading host).wallMs held.generator.lastMs))

def Replica.confirm (replica : Replica) (anchor : Reading) (leaseUntilMs : Int) : Replica :=
  { replica with held := replica.held.map fun held => { held with anchor, leaseUntilMs } }

def Replica.release (replica : Replica) : Replica :=
  let replica := { replica with draining := true }
  if replica.operation.isSome then replica
  else
    match replica.held with
    | none => replica.retire .released
    | some held =>
        -- Minting stops before the store hears of it, so the recorded floor covers every id.
        (replica.retire .released).ask (.readNode held.nodeId)
          (.releaseRead held.nodeId held.generation
            (if held.generator.lastMs = 0 then none else some held.generator.lastMs))

/-! ## Going on after an answer -/

/-- The rest of an operation up to its next call, `none` where the answer is not one to the
call or the position drawn is past the free nodes. -/
def Replica.proceed (host : Host) (replica : Replica) (next : Nat) :
    Awaiting → Reply → Option Replica
  | .acquireAlive anchor leaseId, .alive true =>
      some (replica.ask .range (.acquireRange anchor leaseId))
  | .acquireAlive anchor _, .alive false => some (replica.ask .leaseGrant (.acquireGrant anchor))
  | .acquireGrant anchor, .granted leaseId =>
      some (({ replica with pendingLeaseId := some leaseId }).ask .range
        (.acquireRange anchor leaseId))
  | .acquireRange anchor leaseId, .range shot =>
      if !shot.initialized then some replica.done
      else
        match shot.ownedBy leaseId with
        | some own => some (replica.readopt host anchor own)
        | none => replica.claimNext host anchor leaseId shot.freeOldestFirst 0
  | .acquireClaim anchor _ nodeId floorMs nowMs ceilingMs _, .txn (.done true revision) =>
      some (({ replica with pendingLeaseId := none }).granted host anchor nodeId revision floorMs
        ceilingMs nowMs)
  | .acquireClaim anchor leaseId _ _ _ _ free, .txn (.done false _) =>
      replica.claimNext host anchor leaseId free next
  | .acquireClaim _ _ _ _ _ _ _, .txn .leaseNotFound =>
      some { replica with pendingLeaseId := none, operation := none }
  | .acquireReadopt anchor own nowMs ceilingMs, .txn (.done true _) =>
      some (({ replica with pendingLeaseId := none }).granted host anchor own.nodeId
        own.owner.createRevision own.owner.value.claimFloorMs ceilingMs nowMs)
  | .acquireReadopt _ _ _ _, .txn (.done false _) => some replica.done
  | .acquireReadopt _ _ _ _, .txn .leaseNotFound =>
      some { replica with pendingLeaseId := none, operation := none }
  | .acquireRevoke, .revoked => some { replica with phase := .exhausted, operation := none }
  | .renewRead anchor _ generation nowMs lastMs, .node entry =>
      match isHeldBy entry generation with
      | none => some (replica.retire .lost).done
      | some held =>
          some (replica.ask (.keepAlive held.owner.lease)
            (.renewAlive anchor held generation nowMs lastMs))
  | .renewAlive _ _ _ _ _, .alive false => some (replica.retire .lost).done
  | .renewAlive anchor entry generation nowMs lastMs, .alive true =>
      let ceilingMs := raisedCeiling host.options entry.floor (max nowMs lastMs)
      some (replica.ask (.txn (.raiseCeiling entry.nodeId generation ceilingMs))
        (.renewRaise anchor ceilingMs))
  | .renewRaise anchor ceilingMs, .txn (.done true _) =>
      some (replica.confirm anchor ceilingMs).done
  | .renewRaise _ _, .txn (.done false _) => some (replica.retire .lost).done
  | .renewRaise _ _, .txn .leaseNotFound => some replica.done
  | .releaseRead _ generation lastMs, .node entry =>
      match isHeldBy entry generation with
      | none => some replica.done
      | some held =>
          some (replica.ask
            (.txn (.release held.nodeId generation
              (max (held.owner.value.claimFloorMs.getD 0) (lastMs.getD 0))))
            (.releaseTxn held.owner.lease))
  | .releaseTxn leaseId, .txn (.done _ _) =>
      some (replica.ask (.leaseRevoke leaseId) .releaseRevoke)
  | .releaseTxn _, .txn .leaseNotFound => some replica.done
  | .releaseRevoke, .revoked => some replica.done
  | _, _ => none

/-- The transaction a call leaves in flight when its replica stops waiting. -/
def Transit.unfinished : Transit → List Message
  | .asked (.txn message) => [message]
  | _ => []

/-- The call times out or its answer is lost, and the operation throws.  A failed revocation
is swallowed. -/
def Replica.fail (replica : Replica) : Option Replica :=
  match replica.operation with
  | none => none
  | some (.acquireRevoke, _) => some { replica with phase := .exhausted, operation := none }
  | some (_, transit) =>
      some { replica with operation := none, abandoned := replica.abandoned ++ transit.unfinished }

/-- The process dies.  What it has sent stays in flight. -/
def Replica.crash (replica : Replica) : Replica :=
  { replica with
    alive := false
    held := none
    operation := none
    abandoned := replica.abandoned ++
      (replica.operation.map fun operation => operation.2.unfinished).getD [] }

/-! ## Replicas over one keyspace -/

structure Minted where
  replica : Nat
  nodeId : Nat
  generation : Nat
  fields : SnowflakeFields
  id : String

structure Claim where
  replica : Nat
  nodeId : Nat
  generation : Nat
  claimFloorMs : Option Int
  leaseId : Nat
  deriving DecidableEq

/-- `grantee` (whom each lease was granted to), `claims` and `minted` are history: nothing
reads them. -/
structure World where
  keyspace : Keyspace
  replicas : Nat → Replica
  grantee : Nat → Nat
  claims : List Claim
  minted : List Minted

inductive Event where
  | acquire (replica : Nat)
  | renew (replica : Nat)
  | release (replica : Nat)
  | drain (replica : Nat)
  | generate (replica : Nat)
  /-- The call in flight reaches etcd. -/
  | serve (replica : Nat)
  /-- Its answer reaches the replica; `next` is what a random draw gives. -/
  | proceed (replica : Nat) (next : Nat)
  | fail (replica : Nat)
  | crash (replica : Nat)
  /-- A transaction its replica gave up on reaches etcd, or never does. -/
  | late (replica : Nat) (position : Nat)
  | drop (replica : Nat) (position : Nat)
  | expire (leaseId : Nat)
  /-- Some other key of the cluster is written. -/
  | elsewhere

def World.set (world : World) (id : Nat) (replica : Replica) : World :=
  { world with replicas := Function.update world.replicas id replica }

def Message.claimed (message : Message) (replica revision : Nat) : List Claim :=
  match message with
  | .claim nodeId _ leaseId floorMs _ _ =>
      [{ replica, nodeId, generation := revision, claimFloorMs := floorMs, leaseId }]
  | _ => []

def World.apply (world : World) (id : Nat) (message : Message) : World × Answer :=
  let (keyspace, answer) := message.commit world.keyspace
  ({ world with
      keyspace
      claims := world.claims ++
        match answer with
        | .done true revision => message.claimed id revision
        | _ => [] },
    answer)

def World.call (world : World) (id : Nat) : Call → World × Reply
  | .leaseGrant =>
      let (keyspace, leaseId) := world.keyspace.grant
      ({ world with
          keyspace
          grantee := Function.update world.grantee leaseId id },
        .granted leaseId)
  | .keepAlive leaseId => (world, .alive (leaseId.any world.keyspace.live))
  | .range => (world, .range (snapshot world.keyspace))
  | .readNode nodeId => (world, .node (readNode world.keyspace nodeId))
  | .txn message =>
      let (world, answer) := world.apply id message
      (world, .txn answer)
  | .leaseRevoke leaseId =>
      match leaseId with
      | some leaseId => ({ world with keyspace := world.keyspace.expire leaseId }, .revoked)
      | none => (world, .revoked)

def World.mint (world : World) (id : Nat) (spelled : String) : World :=
  match (world.replicas id).held with
  | none => world
  | some held =>
      { world with
        minted := world.minted ++
          [{ replica := id
             nodeId := held.nodeId
             generation := held.generation
             fields := held.generator.fields
             id := spelled }] }

def World.act (hosts : Nat → Host) (world : World) (id : Nat) (replica : Replica) :
    Event → Option World
  | .acquire _ =>
      match replica.acquire (hosts id) with
      | .error _ => some world
      | .ok replica => some (world.set id replica)
  | .renew _ =>
      match replica.renew (hosts id) with
      | .error _ => some world
      | .ok replica => some (world.set id replica)
  | .release _ => some (world.set id replica.release)
  | .drain _ => some (world.set id { replica with draining := true })
  | .generate _ =>
      match replica.generate (hosts id) with
      | (.ok spelled, replica) => some ((world.set id replica).mint id spelled)
      | (.error _, replica) => some (world.set id replica)
  | .serve _ =>
      match replica.operation with
      | some (awaiting, .asked call) =>
          let (world, reply) := world.call id call
          some (world.set id { replica with operation := some (awaiting, .answered reply) })
      | _ => none
  | .proceed _ next =>
      match replica.operation with
      | some (awaiting, .answered reply) =>
          (replica.proceed (hosts id) next awaiting reply).map (world.set id)
      | _ => none
  | .fail _ => replica.fail.map (world.set id)
  | .crash _ => some (world.set id replica.crash)
  | _ => none

def Event.actor : Event → Option Nat
  | .acquire id | .renew id | .release id | .drain id | .generate id | .serve id
  | .proceed id _ | .fail id | .crash id => some id
  | _ => none

def step (hosts : Nat → Host) (world : World) (event : Event) : Option World :=
  match event with
  | .late id position =>
      match (world.replicas id).abandoned[position]? with
      | none => none
      | some message =>
          some ((world.apply id message).1.set id
            { world.replicas id with
              abandoned := (world.replicas id).abandoned.eraseIdx position })
  | .drop id position =>
      if position < (world.replicas id).abandoned.length then
        some (world.set id
          { world.replicas id with
            abandoned := (world.replicas id).abandoned.eraseIdx position })
      else none
  | .expire leaseId => some { world with keyspace := world.keyspace.expire leaseId }
  | .elsewhere => some { world with keyspace := world.keyspace.elsewhere }
  | event =>
      match event.actor with
      | none => none
      | some id =>
          if (world.replicas id).alive then world.act hosts id (world.replicas id) event else none

/-- A keyspace before any replica has worked on it: floors and no owners. -/
structure Origin where
  keyspace : Keyspace
  sound : Sound keyspace
  unowned : ∀ nodeId, keyspace.cells (.owner nodeId) = none
  unleased : ∀ nodeId cell, keyspace.cells (.floor nodeId) = some cell → cell.lease = none

def start (origin : Origin) : World :=
  { keyspace := origin.keyspace
    replicas := fun _ => {}
    grantee := fun _ => 0
    claims := []
    minted := [] }

/-- No raise of a tenure's ceiling applies while a lower one its replica gave up on is still in
flight. -/
def Uncrossed (world : World) : Event → Prop
  | .serve id =>
      match (world.replicas id).operation with
      | some (_, .asked (.txn (.raiseCeiling nodeId generation ceilingMs))) =>
          (heldBy nodeId generation).holds world.keyspace →
            ∀ message ∈ (world.replicas id).abandoned,
              message.Within nodeId generation → ceilingMs ≤ message.floorMs
      | _ => True
  | _ => True

/-- A client's transactions apply in the order it sent them. -/
def InOrder (world : World) : Event → Prop
  | .late _ position => position = 0
  | .serve id =>
      match (world.replicas id).operation with
      | some (_, .asked (.txn _)) => (world.replicas id).abandoned = []
      | _ => True
  | _ => True

instance (world : World) (event : Event) : Decidable (Uncrossed world event) := by
  unfold Uncrossed
  split
  · split <;> infer_instance
  · infer_instance

instance (world : World) (event : Event) : Decidable (InOrder world event) := by
  unfold InOrder
  split
  · infer_instance
  · split
    · exact decidable_of_iff _ List.isEmpty_iff
    · infer_instance
  · infer_instance

end Commerce.Identity
