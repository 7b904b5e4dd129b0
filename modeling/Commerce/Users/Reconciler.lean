import Commerce.Lib.Pages
import Commerce.Lib.Runs
import Commerce.Users.Sound

/-!
# The epoch reconciler

A pass pages through the users changed since the last clean pass, in the order
of their stamps, and publishes every epoch it reads.  A stamp is taken before
its transaction commits, by whichever clock wrote it, and lags the commit by at
most the overlap.  Instants are microseconds.
-/

set_option autoImplicit false

namespace Commerce.Users.Reconciler

open Users.Service (raiseEpoch raiseEpoch_cases)

def minFirstPassLookback : Int := 15 * 60 * 1000000

def overlap : Int := 30000 * 1000

def pageSize : Nat := 500

def firstPassLookback (accessTtl : Int) : Int := max minFirstPassLookback accessTtl

/-! ## The users table -/

structure UserRow where
  id : Nat
  epoch : Int
  updatedAt : Int
  deriving DecidableEq, Repr

/-- `EpochChangeCursor`: a row's place in the order of the stamps. -/
structure Cursor where
  updatedAt : Int
  userId : Nat
  deriving DecidableEq, Repr

structure EpochChange where
  userId : Nat
  epoch : Int
  updatedAt : Int
  deriving DecidableEq, Repr

def UserRow.change (row : UserRow) : EpochChange := ⟨row.id, row.epoch, row.updatedAt⟩

def Cursor.passedBy (cursor : Cursor) (row : UserRow) : Bool :=
  cursor.updatedAt < row.updatedAt ||
    cursor.updatedAt == row.updatedAt && decide (cursor.userId < row.id)

def upTo (one other : UserRow) : Prop :=
  one.updatedAt < other.updatedAt ∨ one.updatedAt = other.updatedAt ∧ one.id ≤ other.id

instance (one other : UserRow) : Decidable (upTo one other) :=
  inferInstanceAs (Decidable (_ ∨ _ ∧ _))

/-- From `since`, or strictly past the cursor once paging. -/
def beyond (since : Int) (after : Option Cursor) (row : UserRow) : Bool :=
  match after with
  | some cursor => cursor.passedBy row
  | none => decide (since ≤ row.updatedAt)

def listChanges (rows : List UserRow) (since : Int) (after : Option Cursor) (limit : Nat) :
    List EpochChange :=
  (Pages.page upTo (beyond since after) limit rows).map UserRow.change

/-! ## Passes -/

structure Bump where
  userId : Nat
  epoch : Int
  committedAt : Int
  deriving DecidableEq, Repr

/-- A pass under way, with the bumps committed before it started. -/
structure Pass where
  startedAt : Int
  since : Int
  after : Option Cursor
  pending : List EpochChange
  more : Bool
  known : List Bump
  deriving DecidableEq, Repr

structure World where
  now : Int
  rows : List UserRow
  published : Nat → Option Int
  watermark : Option Int
  pass : Option Pass
  bumps : List Bump
  completed : List Pass

structure Table where
  rows : List UserRow
  keyed : (rows.map (·.id)).Nodup

def start (table : Table) (now : Int) : World :=
  { now
    rows := table.rows
    published := fun _ => none
    watermark := none
    pass := none
    bumps := []
    completed := [] }

inductive Event where
  | tick (elapsed : Nat)
  | register (userId : Nat) (stamp : Int)
  /-- A transaction that changes a user commits, with the stamp it took. -/
  | write (userId : Nat) (stamp : Int) (bumps : Bool)
  /-- Any other publish of an epoch the user has reached. -/
  | publish (userId : Nat) (epoch : Int)
  | startPass
  | readPage
  | publishNext
  | abortPass
  | finishPass
  | restart
  deriving DecidableEq, Repr

def World.stamps (world : World) (stamp : Int) : Bool :=
  decide (world.now - overlap ≤ stamp) && decide (stamp ≤ world.now)

def World.publish (world : World) (userId : Nat) (epoch : Int) : World :=
  { world with
    published := Function.update world.published userId
      (some (raiseEpoch (world.published userId) epoch)) }

def writeRow (bumps : Bool) (stamp : Int) (row : UserRow) : UserRow :=
  { row with epoch := if bumps then row.epoch + 1 else row.epoch, updatedAt := stamp }

def World.since (world : World) (accessTtl : Int) : Int :=
  world.watermark.getD (world.now - firstPassLookback accessTtl) - overlap

def Pass.read (pass : Pass) (rows : List UserRow) : Pass :=
  let page := listChanges rows pass.since pass.after pageSize
  if page.length < pageSize then { pass with pending := page, more := false }
  else
    { pass with
      pending := page
      after := (page.getLast?.map fun change => ⟨change.updatedAt, change.userId⟩) }

section Steps

variable (accessTtl : Int)

def step (world : World) : Event → Option World
  | .tick elapsed => some { world with now := world.now + elapsed }
  | .register userId stamp =>
      if world.stamps stamp ∧ userId ∉ world.rows.map (·.id) then
        some { world with rows := world.rows ++ [⟨userId, 0, stamp⟩] }
      else none
  | .write userId stamp bumps =>
      match world.rows.find? fun row => row.id == userId with
      | none => none
      | some row =>
          if world.stamps stamp then
            some { world with
              rows := Tables.update (·.id) userId (writeRow bumps stamp) world.rows
              bumps := (if bumps then [⟨userId, row.epoch + 1, world.now⟩] else []) ++ world.bumps }
          else none
  | .publish userId epoch =>
      if world.rows.any fun row => row.id == userId && decide (epoch ≤ row.epoch) then
        some (world.publish userId epoch)
      else none
  | .startPass =>
      match world.pass with
      | some _ => none
      | none =>
          some { world with
            pass := some
              { startedAt := world.now
                since := world.since accessTtl
                after := none
                pending := []
                more := true
                known := world.bumps } }
  | .readPage =>
      match world.pass with
      | some pass =>
          if pass.pending = [] ∧ pass.more then
            some { world with pass := some (pass.read world.rows) }
          else none
      | none => none
  | .publishNext =>
      match world.pass with
      | some pass =>
          match pass.pending with
          | [] => none
          | change :: rest =>
              some { world.publish change.userId change.epoch with
                pass := some { pass with pending := rest } }
      | none => none
  | .abortPass =>
      match world.pass with
      | some _ => some { world with pass := none }
      | none => none
  | .finishPass =>
      match world.pass with
      | some pass =>
          if pass.pending = [] ∧ pass.more = false then
            some { world with
              pass := none
              watermark := some pass.startedAt
              completed := pass :: world.completed }
          else none
      | none => none
  | .restart => some { world with pass := none, watermark := none }

end Steps

end Commerce.Users.Reconciler
