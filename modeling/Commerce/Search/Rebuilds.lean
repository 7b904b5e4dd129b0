import Commerce.Lib.Aliases
import Commerce.Lib.Pages
import Mathlib.Logic.Function.Basic

/-!
# Rebuilds of the search index

Replicas that make sure the index exists, and operators that rebuild it, each
send the engine one call at a time.  A call may be answered, or lost: the client
then sees an error, and the engine may still apply the call later.  A process
may also stop between any two of its calls, or during one.
-/

set_option autoImplicit false

namespace Commerce.Search

open Aliases

abbrev ProductId := Nat

/-- The physical index `products_v<n>`, by its number. -/
abbrev IndexName := Nat

inductive Alias where
  | products
  | productsRebuilding
deriving DecidableEq, Repr

def productsAlias : Alias := .products

/-- Exists only while a rebuild runs: writes reach the index being filled through it, and its
presence keeps a second rebuild out. -/
def rebuildAlias : Alias := .productsRebuilding

def initialIndex : IndexName := 0

def writeChunk : Nat := 500

abbrev Indices := List (Index IndexName Alias ProductId)

/-! ## Calls of the engine -/

inductive Call where
  | existsAlias (name : Alias)
  | create (index : IndexName) (aliases : List (Alias × Bool))
  | putMapping (name : Alias)
  | getAlias
  | refresh (index : IndexName)
  | updateAliases (actions : List (Action IndexName Alias))
  | delete (indices : List IndexName)
  | bulk (name : Alias) (documents : List ProductId)
deriving DecidableEq, Repr

inductive Answer where
  | found (exists? : Bool)
  | listing (indices : List (IndexName × List Alias))
  | acknowledged
deriving DecidableEq, Repr

def Call.putAlias (index : IndexName) (name : Alias) (isWriteIndex : Bool) : Call :=
  .updateAliases [.add index name isWriteIndex]

def acknowledge (result : Except Refusal Indices) : Except Refusal (Indices × Answer) :=
  match result with
  | .error refusal => .error refusal
  | .ok indices => .ok (indices, .acknowledged)

def Call.apply (call : Call) (indices : Indices) : Except Refusal (Indices × Answer) :=
  match call with
  | .existsAlias name => .ok (indices, .found (Aliases.existsAlias name indices))
  | .create index aliases => acknowledge (Aliases.create index aliases indices)
  | .putMapping name =>
      if Aliases.existsAlias name indices then .ok (indices, .acknowledged)
      else .error .indexNotFound
  | .getAlias => .ok (indices, .listing (Aliases.getAlias indices))
  | .refresh index =>
      if hasIndex index indices then .ok (indices, .acknowledged) else .error .indexNotFound
  | .updateAliases actions => acknowledge (Aliases.updateAliases actions indices)
  | .delete names => acknowledge (Aliases.delete names indices)
  | .bulk name documents => acknowledge (Aliases.bulk name documents indices)

/-! ## Sessions -/

inductive Failure where
  | rebuildInProgress
  | lockLost
  | refused (refusal : Refusal)
  /-- The call timed out, its answer was lost, or a signal stopped the fill. -/
  | unanswered
  | crashed
deriving DecidableEq, Repr

/-- What releasing a lock answers when the swap or another abort got there first. -/
def Failure.gone : Failure → Bool
  | .refused .aliasesNotFound | .refused .indexNotFound => true
  | _ => false

abbrev PageSize := { size : Nat // 0 < size }

/-- A run of `rebuildIndex` that has its index, and the products the table had when it got it. -/
structure Fill where
  pageSize : PageSize
  index : IndexName
  products : List ProductId
deriving DecidableEq, Repr

inductive Onward where
  | finish
  | begin (pageSize : PageSize)
  | rethrow (failure : Failure)
deriving DecidableEq, Repr

inductive Phase where
  -- `ensureIndex`
  | checkingProducts
  | creatingInitial
  | puttingAlias
  | puttingMapping
  -- `beginRebuild`
  | checkingLock (pageSize : PageSize)
  | creating (pageSize : PageSize) (index : IndexName)
  | recheckingLock (failure : Failure)
  -- `fill`
  | reading (fill : Fill) (cursor : Option ProductId)
  | writing (fill : Fill) (page : List ProductId) (rest : List ProductId)
  -- `promoteRebuild`
  | listing (fill : Fill)
  | refreshing (fill : Fill) (serving : List IndexName) (retired : List IndexName)
  | swapping (fill : Fill) (serving : List IndexName) (retired : List IndexName)
  -- `dropRetired`
  | listingIdle (retired : List IndexName)
  | deletingRetired (doomed : List IndexName)
  -- `abortRebuild`
  | listingLocked (rebuild : Option IndexName) (onward : Onward)
  | releasing (name : IndexName) (rest : List IndexName) (onward : Onward)
  | deletingLocked (name : IndexName) (rest : List IndexName) (onward : Onward)
  | finished
  | failed (failure : Failure)
deriving DecidableEq, Repr

def release (name : IndexName) : List (Action IndexName Alias) := [.remove name rebuildAlias true]

def swap (rebuild : IndexName) (serving : List IndexName) : List (Action IndexName Alias) :=
  serving.map (fun index => .remove index productsAlias true) ++
    [.add rebuild productsAlias true, .remove rebuild rebuildAlias true]

def Phase.call : Phase → Option Call
  | .checkingProducts => some (.existsAlias productsAlias)
  | .creatingInitial => some (.create initialIndex [])
  | .puttingAlias => some (.putAlias initialIndex productsAlias true)
  | .puttingMapping => some (.putMapping productsAlias)
  | .checkingLock _ | .recheckingLock _ => some (.existsAlias rebuildAlias)
  | .creating _ index => some (.create index [(rebuildAlias, true)])
  | .writing _ _ rest => some (.bulk rebuildAlias (rest.take writeChunk))
  | .listing _ | .listingIdle _ | .listingLocked _ _ => some .getAlias
  | .refreshing fill _ _ => some (.refresh fill.index)
  | .swapping fill serving _ => some (.updateAliases (swap fill.index serving))
  | .deletingRetired doomed => some (.delete doomed)
  | .releasing name _ _ => some (.updateAliases (release name))
  | .deletingLocked name _ _ => some (.delete [name])
  | .reading _ _ | .finished | .failed _ => none

def Onward.phase : Onward → Phase
  | .finish => .finished
  | .begin pageSize => .checkingLock pageSize
  | .rethrow failure => .failed failure

def nextLocked (locked : List IndexName) (onward : Onward) : Phase :=
  match locked with
  | [] => onward.phase
  | name :: rest => .releasing name rest onward

def afterPage (fill : Fill) (page : List ProductId) : Phase :=
  if page.length < fill.pageSize then .listing fill else .reading fill page.getLast?

/-- The products after the cursor, in the order of their ids. -/
def findAfter (products : List ProductId) (cursor : Option ProductId) (limit : Nat) :
    List ProductId :=
  Pages.page (· ≤ ·) (fun id => cursor.all (· < id)) limit products

def gotPage (fill : Fill) (page : List ProductId) : Phase :=
  if page.isEmpty then .listing fill else .writing fill page page

/-- `rebuildIndex` aborts its own rebuild before it rethrows. -/
def Fill.abort (fill : Fill) (failure : Failure) : Phase :=
  .listingLocked (some fill.index) (.rethrow failure)

def lockedIn (rebuild : Option IndexName) (indices : List (IndexName × List Alias)) :
    List IndexName :=
  (indices.filter fun entry =>
    rebuild.all (entry.1 = ·) && decide (rebuildAlias ∈ entry.2) &&
      decide (productsAlias ∉ entry.2)).map Prod.fst

def servingIn (indices : List (IndexName × List Alias)) : List IndexName :=
  (indices.filter fun entry => productsAlias ∈ entry.2).map Prod.fst

def idleIn (indices : List (IndexName × List Alias)) : List IndexName :=
  (indices.filter fun entry => entry.2.isEmpty).map Prod.fst

/-- What a session does with an answer; `now` is the clock it reads for the name of an index. -/
def Phase.answered (now : Nat) (products : List ProductId) : Phase → Answer → Phase
  | .checkingProducts, .found exists? => if exists? then .puttingMapping else .creatingInitial
  | .creatingInitial, _ => .puttingAlias
  | .puttingAlias, _ => .puttingMapping
  | .puttingMapping, _ => .finished
  | .checkingLock pageSize, .found exists? =>
      if exists? then .failed .rebuildInProgress else .creating pageSize now
  | .creating pageSize index, _ => .reading ⟨pageSize, index, products⟩ none
  | .recheckingLock failure, .found exists? =>
      if exists? then .failed .rebuildInProgress else .failed failure
  | .writing fill page rest, _ =>
      if (rest.drop writeChunk).isEmpty then afterPage fill page
      else .writing fill page (rest.drop writeChunk)
  | .listing fill, .listing indices =>
      if indices.any fun entry => entry.1 = fill.index && decide (rebuildAlias ∈ entry.2) then
        .refreshing fill (servingIn indices)
          ((indices.map Prod.fst).filter fun name => name ≠ fill.index)
      else fill.abort .lockLost
  | .refreshing fill serving retired, _ => .swapping fill serving retired
  | .swapping _ _ retired, _ => .listingIdle retired
  | .listingIdle retired, .listing indices =>
      let doomed := retired.filter fun name => name ∈ idleIn indices
      if doomed.isEmpty then .finished else .deletingRetired doomed
  | .deletingRetired _, _ => .finished
  | .listingLocked rebuild onward, .listing indices => nextLocked (lockedIn rebuild indices) onward
  | .releasing name rest onward, _ => .deletingLocked name rest onward
  | .deletingLocked _ rest onward, _ => nextLocked rest onward
  | phase, _ => phase

def Phase.fails (failure : Failure) : Phase → Phase
  | .creatingInitial =>
      if failure = .refused .resourceAlreadyExists then .puttingAlias else .failed failure
  | .creating _ _ => .recheckingLock failure
  | .reading fill _ | .writing fill _ _ | .listing fill | .refreshing fill _ _
  | .swapping fill _ _ => fill.abort failure
  | .releasing _ rest onward =>
      if failure.gone then nextLocked rest onward else .failed failure
  | _ => .failed failure

/-! ## Interleavings -/

inductive Request where
  | ensureIndex
  | rebuildIndex (pageSize : PageSize)
  /-- `--clear-stale`: aborts whichever rebuild holds the lock, then rebuilds. -/
  | clearStale (pageSize : PageSize)
  | abortRebuild (rebuild : Option IndexName)
deriving DecidableEq, Repr

def Request.phase : Request → Phase
  | .ensureIndex => .checkingProducts
  | .rebuildIndex pageSize => .checkingLock pageSize
  | .clearStale pageSize => .listingLocked none (.begin pageSize)
  | .abortRebuild rebuild => .listingLocked rebuild .finish

structure World where
  indices : Indices
  /-- The products of the table. -/
  products : List ProductId
  sessions : Nat → Option Phase
  /-- Calls whose client no longer waits, and that the engine may still apply. -/
  transit : List Call
  /-- The initial index, and every name an index was created under. -/
  named : List IndexName
  /-- The fills that went through every page of the products. -/
  filled : List Fill

def initial : World where
  indices := []
  products := []
  sessions := fun _ => none
  transit := []
  named := [initialIndex]
  filled := []

inductive Event where
  | start (slot : Nat) (request : Request)
  /-- The session goes on with the answer to its call, or with the page it read. -/
  | turn (slot : Nat) (now : Nat)
  /-- The session's call fails without an answer. -/
  | lapse (slot : Nat)
  | crash (slot : Nat)
  /-- The engine applies a call whose client no longer waits. -/
  | arrive (position : Nat)
  | insert (product : ProductId)
  /-- A live write of documents, to the index behind each alias. -/
  | write (documents : List ProductId)
deriving DecidableEq, Repr

def Call.naming : Call → List IndexName
  | .create index _ => [index]
  | _ => []

def World.applied (world : World) (call : Call) (indices : Indices) : World :=
  { world with indices := indices, named := call.naming ++ world.named }

def Phase.completes : Phase → List Fill
  | .listing fill => [fill]
  | _ => []

/-- The session goes on with a phase; that of a promotion is reached by a finished fill only. -/
def World.enter (world : World) (slot : Nat) (phase : Phase) : World :=
  { world with
    sessions := Function.update world.sessions slot (some phase)
    filled := phase.completes ++ world.filled }

/-- A call that fails at its client is left to the engine. -/
def World.abandon (world : World) (phase : Phase) : World :=
  { world with transit := phase.call.toList ++ world.transit }

def World.turn (world : World) (slot : Nat) (now : Nat) (phase : Phase) : Option World :=
  match phase, phase.call with
  | .reading fill cursor, _ =>
      some (world.enter slot (gotPage fill (findAfter world.products cursor fill.pageSize)))
  | _, none => none
  | _, some call =>
      match call.apply world.indices with
      | .error refusal => some (world.enter slot (phase.fails (.refused refusal)))
      | .ok (indices, answer) =>
          some ((world.applied call indices).enter slot (phase.answered now world.products answer))

def Phase.over : Phase → Bool
  | .finished | .failed _ => true
  | _ => false

def World.settle (world : World) (call : Call) : World :=
  match call.apply world.indices with
  | .error _ => world
  | .ok (indices, _) => world.applied call indices

def step (world : World) : Event → Option World
  | .start slot request =>
      match world.sessions slot with
      | some _ => none
      | none => some (world.enter slot request.phase)
  | .turn slot now =>
      match world.sessions slot with
      | none => none
      | some phase => world.turn slot now phase
  | .lapse slot =>
      match world.sessions slot with
      | none => none
      | some phase =>
          if phase.over then none
          else some ((world.abandon phase).enter slot (phase.fails .unanswered))
  | .crash slot =>
      match world.sessions slot with
      | none => none
      | some phase =>
          if phase.over then none
          else some ((world.abandon phase).enter slot (.failed .crashed))
  | .arrive position =>
      match world.transit[position]? with
      | none => none
      | some call =>
          some { world.settle call with transit := world.transit.eraseIdx position }
  | .insert product => some { world with products := product :: world.products }
  | .write documents =>
      some ((world.settle (.bulk productsAlias documents)).settle (.bulk rebuildAlias documents))

/-! ## Names that recur -/

def World.sends (world : World) : Event → Option Call
  | .turn slot _ => (world.sessions slot).bind Phase.call
  | .arrive position => world.transit[position]?
  | _ => none

/-- The event creates the index of a rebuild under the name of an index that is gone, or under
that of the initial one. -/
def World.recreates (world : World) (event : Event) : Bool :=
  match world.sends event with
  | some (.create index (_ :: _)) => index ∈ world.named && !hasIndex index world.indices
  | _ => false

end Commerce.Search
