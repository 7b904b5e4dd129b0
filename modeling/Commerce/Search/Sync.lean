import Commerce.Catalog.Writes
import Commerce.Lib.Runs
import Mathlib.Logic.Function.Basic

/-!
# Writing the catalog to the search index

Admin writes append their events to the outbox in the transaction that makes
them.  An event is delivered any number of times and at any time; a delivery
reads the state of search and writes documents under the products alias, each
applied on its own and refused at or below the stored version.  A delivery that
fails leaves behind the documents it had sent, which may still be applied.  No
rebuild of the index runs.
-/

set_option autoImplicit false

namespace Commerce.Listing

/-! ## Documents -/

structure SearchDocumentWrite where
  id : Nat
  version : Nat
  /-- `none`: a tombstone. -/
  doc : Option SearchableProduct
  deriving DecidableEq, Repr

def toSearchDocumentWrite (state : ProductSearchState) : SearchDocumentWrite :=
  ⟨state.id, state.version, state.product.map toSearchableProduct⟩

structure IndexEntry where
  version : Nat
  doc : Option SearchableProduct
  deriving DecidableEq, Repr

abbrev SearchIndex := Nat → Option IndexEntry

/-- Stores a document unless the index has its version or a later one. -/
def SearchIndex.write (index : SearchIndex) (write : SearchDocumentWrite) : SearchIndex :=
  if (index write.id).any fun entry => decide (write.version ≤ entry.version) then index
  else Function.update index write.id (some ⟨write.version, write.doc⟩)

/-! ## Deliveries -/

inductive Task where
  /-- `syncProduct`, before its read. -/
  | readProduct (productId : Nat)
  /-- `syncCategory`, before the bump of a page. -/
  | bumpPage (categoryId : Nat) (afterId : Option Nat)
  | readPage (categoryId : Nat) (ids : List Nat)
  /-- A bulk request: what is not applied yet, and the page that ends it. -/
  | write (unapplied : List SearchDocumentWrite) (page : Option (Nat × Option Nat))
  deriving DecidableEq, Repr

def OutboxRecord.task : OutboxRecord → Task
  | .productChanged productId => .readProduct productId
  | .categoryRenamed categoryId => .bumpPage categoryId none

def Task.sent : Task → List SearchDocumentWrite
  | .write unapplied _ => unapplied
  | .readProduct _ | .bumpPage _ _ | .readPage _ _ => []

structure Delivery where
  event : Nat
  task : Task
  deriving DecidableEq, Repr

structure OutboxEntry where
  record : OutboxRecord
  /-- A delivery of it ran to its end. -/
  handled : Bool
  deriving DecidableEq, Repr

/-! ## The system -/

inductive AdminWrite where
  | createCategory (id now : Nat) (data : CreateCategoryData)
  | updateCategory (id : Nat) (data : UpdateCategoryData)
  | createProduct (id now : Nat) (data : CreateProductData)
  | updateProduct (id : Nat) (data : UpdateProductData)
  | archiveProduct (id : Nat)
  | createSku (id now productId : Nat) (data : CreateSkuData)
  | updateSku (id : Nat) (data : UpdateSkuData)
  | archiveSku (id now : Nat)
  | setPrice (id variantId : Nat) (data : SetPriceData)
  deriving DecidableEq, Repr

def commitWrite (rows : Rows) : AdminWrite → Except AdminError (Rows × List OutboxRecord)
  | .createCategory id now data =>
      (createCategory rows id now data).map fun done => (done.rows, done.records)
  | .updateCategory id data =>
      (updateCategory rows id data).map fun done => (done.rows, done.records)
  | .createProduct id now data =>
      (createProduct rows id now data).map fun done => (done.rows, done.records)
  | .updateProduct id data =>
      (updateProduct rows id data).map fun done => (done.rows, done.records)
  | .archiveProduct id => .ok ((archiveProduct rows id).rows, (archiveProduct rows id).records)
  | .createSku id now productId data =>
      (createSku rows id now productId data).map fun done => (done.rows, done.records)
  | .updateSku id data => (updateSku rows id data).map fun done => (done.rows, done.records)
  | .archiveSku id now => .ok ((archiveSku rows id now).rows, (archiveSku rows id now).records)
  | .setPrice id variantId data =>
      (setPrice rows id variantId data).map fun done => (done.rows, done.records)

/-- The category whose row a write locks. -/
def AdminWrite.locks : AdminWrite → Option Nat
  | .updateCategory id data => if data.isEmpty then none else some id
  | .createProduct _ _ data => some data.categoryId
  | .updateProduct _ data => data.categoryId
  | .createCategory .. | .archiveProduct _ | .createSku .. | .updateSku .. | .archiveSku ..
  | .setPrice .. => none

structure World where
  rows : Rows
  /-- The categories that an archive holds locked between its count and its commit. -/
  archiving : List Nat
  outbox : List OutboxEntry
  deliveries : List Delivery
  /-- Documents of requests whose delivery has failed. -/
  loose : List SearchDocumentWrite
  index : SearchIndex

def emptyWorld : World := ⟨⟨[], [], [], [], []⟩, [], [], [], [], fun _ => none⟩

inductive SyncEvent where
  | admin (write : AdminWrite)
  /-- The lock and the count of an archive. -/
  | archiveCount (categoryId : Nat)
  | archiveCommit (categoryId now : Nat)
  | archiveRollback (categoryId : Nat)
  | deliver (event : Nat)
  /-- A delivery takes its next step. -/
  | turn (slot : Nat)
  /-- The engine applies a document of a delivery's request. -/
  | apply (slot position : Nat)
  | fail (slot : Nat)
  /-- The engine applies, or never sees, a document of a failed delivery. -/
  | applyLoose (position : Nat)
  | dropLoose (position : Nat)
  deriving DecidableEq, Repr

namespace World

def setTask (world : World) (slot event : Nat) (task : Task) : World :=
  { world with deliveries := world.deliveries.set slot ⟨event, task⟩ }

def finish (world : World) (slot event : Nat) : World :=
  { world with
    deliveries := world.deliveries.eraseIdx slot
    outbox := world.outbox.modify event fun entry => { entry with handled := true } }

def fail (world : World) (slot : Nat) (task : Task) : World :=
  { world with
    deliveries := world.deliveries.eraseIdx slot
    loose := world.loose ++ task.sent }

/-- `none` while the engine still has documents to apply. -/
def turn (batchSize : Nat) (world : World) (slot event : Nat) : Task → Option World
  | .readProduct productId =>
      match world.rows.findByIds [productId] with
      | .error _ => some (world.fail slot (.readProduct productId))
      | .ok [] => some (world.finish slot event)
      | .ok (state :: rest) =>
          some (world.setTask slot event
            (.write ((state :: rest).map toSearchDocumentWrite) none))
  | .bumpPage categoryId afterId =>
      match bumpCategoryProducts world.rows categoryId afterId batchSize with
      | ([], _) => some (world.finish slot event)
      | (id :: ids, rows) =>
          some ({ world with rows := rows }.setTask slot event (.readPage categoryId (id :: ids)))
  | .readPage categoryId ids =>
      match world.rows.findByIds ids with
      | .error _ => some (world.fail slot (.readPage categoryId ids))
      | .ok states =>
          some (world.setTask slot event
            (.write (states.map toSearchDocumentWrite) (some (categoryId, ids.getLast?))))
  | .write [] none => some (world.finish slot event)
  | .write [] (some (categoryId, afterId)) =>
      some (world.setTask slot event (.bumpPage categoryId afterId))
  | .write (_ :: _) _ => none

end World

/-- `CATEGORY_FAN_OUT_BATCH`: no page is longer than one bulk request of the adapter. -/
def categoryFanOutBatch : Nat := 500

def syncStep (world : World) : SyncEvent → Option World
  | .admin write =>
      if write.locks.any fun categoryId => world.archiving.contains categoryId then none
      else
        match commitWrite world.rows write with
        | .error _ => some world
        | .ok (rows, records) =>
            some { world with
              rows := rows
              outbox := world.outbox ++ records.map fun record => ⟨record, false⟩ }
  | .archiveCount categoryId =>
      if world.archiving.contains categoryId then none
      else if (world.rows.findCategory categoryId).isNone then some world
      else if 0 < unarchivedProducts world.rows categoryId then some world
      else some { world with archiving := categoryId :: world.archiving }
  | .archiveCommit categoryId now =>
      if world.archiving.contains categoryId then
        some { world with
          rows := archiveCategory world.rows categoryId now
          archiving := world.archiving.erase categoryId }
      else none
  | .archiveRollback categoryId =>
      if world.archiving.contains categoryId then
        some { world with archiving := world.archiving.erase categoryId }
      else none
  | .deliver event =>
      world.outbox[event]?.map fun entry =>
        { world with deliveries := world.deliveries ++ [⟨event, entry.record.task⟩] }
  | .turn slot =>
      world.deliveries[slot]?.bind fun delivery =>
        world.turn categoryFanOutBatch slot delivery.event delivery.task
  | .apply slot position =>
      match world.deliveries[slot]? with
      | some ⟨event, .write unapplied page⟩ =>
          unapplied[position]?.map fun write =>
            { world with index := world.index.write write }.setTask slot event
              (.write (unapplied.eraseIdx position) page)
      | _ => none
  | .fail slot =>
      world.deliveries[slot]?.map fun delivery => world.fail slot delivery.task
  | .applyLoose position =>
      world.loose[position]?.map fun write =>
        { world with
          index := world.index.write write
          loose := world.loose.eraseIdx position }
  | .dropLoose position => some { world with loose := world.loose.eraseIdx position }

end Commerce.Listing
