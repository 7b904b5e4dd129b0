import Commerce.Lib.Runs
import Mathlib.Logic.Function.Basic

/-!
# Media assets

Assets, the images of products and the objects of the bucket.  Statements run
under READ COMMITTED: a write waits for the lock of its row and checks its
conditions again on the row it then finds, and what a transaction writes is
seen by others from its commit on.  An object is deleted outside any
transaction.
-/

set_option autoImplicit false

namespace Commerce.Media

/-! ## Assets -/

inductive AssetStatus where
  | pending
  | ready
  | attached
  | detached
  | sweeping
  deriving DecidableEq, Repr

def reclaimable : AssetStatus → Bool
  | .pending | .ready | .detached => true
  | .attached | .sweeping => false

def canTransition : AssetStatus → AssetStatus → Bool
  | .pending, .ready | .ready, .attached | .attached, .detached => true
  | .pending, .sweeping | .ready, .sweeping | .detached, .sweeping => true
  | _, _ => false

inductive ContentType where
  | jpeg
  | png
  | webp
  | avif
  deriving DecidableEq, Repr

def extensionFor : ContentType → String
  | .jpeg => "jpg"
  | .png => "png"
  | .webp => "webp"
  | .avif => "avif"

def storageKeyFor (assetId : Nat) (contentType : ContentType) : String :=
  "media/" ++ toString assetId ++ "." ++ extensionFor contentType

structure MediaAsset where
  id : Nat
  storageKey : String
  contentType : ContentType
  sizeBytes : Option Nat
  status : AssetStatus
  uploadedBy : Nat
  expiresAt : Option Int
  updatedAt : Int
  deriving DecidableEq, Repr

structure ProductImage where
  id : Nat
  productId : Nat
  assetId : Nat
  deriving DecidableEq, Repr

structure StoredObject where
  key : String
  sizeBytes : Nat
  contentType : Option ContentType
  deriving DecidableEq, Repr

/-- The assets' ids and keys; an id with no asset is absent. -/
def findStorageKeys (assets : List MediaAsset) (ids : List Nat) : List (Nat × String) :=
  (assets.filter fun asset => ids.contains asset.id).map fun asset => (asset.id, asset.storageKey)

def getPublicUrls (assets : List MediaAsset) (publicUrl : String → String) (assetIds : List Nat) :
    List (Nat × String) :=
  let unique := assetIds.eraseDups
  if unique.isEmpty then []
  else (findStorageKeys assets unique).map fun row => (row.1, publicUrl row.2)

theorem mem_getPublicUrls (assets : List MediaAsset) (publicUrl : String → String)
    (assetIds : List Nat) (id : Nat) (url : String) :
    (id, url) ∈ getPublicUrls assets publicUrl assetIds ↔
      id ∈ assetIds ∧ ∃ asset ∈ assets, asset.id = id ∧ publicUrl asset.storageKey = url := by
  unfold getPublicUrls
  dsimp only
  split
  · rename_i empty
    have nothing : id ∉ assetIds := by
      rw [← List.mem_eraseDups, List.isEmpty_iff.mp empty]
      exact List.not_mem_nil
    simp [nothing]
  · rw [findStorageKeys, List.map_map, List.mem_map]
    constructor
    · rintro ⟨asset, member, same⟩
      obtain ⟨stored, listed⟩ := List.mem_filter.mp member
      cases same
      exact ⟨List.mem_eraseDups.mp (List.contains_iff_mem.mp listed), asset, stored, rfl, rfl⟩
    · rintro ⟨asked, asset, stored, rfl, rfl⟩
      refine ⟨asset, List.mem_filter.mpr ⟨stored, ?_⟩, rfl⟩
      exact List.contains_iff_mem.mpr (List.mem_eraseDups.mpr asked)

/-- `eligible` of a claim: expired and not in use, or a claim that has gone stale. -/
def eligible (now staleClaimBefore : Int) (asset : MediaAsset) : Bool :=
  (reclaimable asset.status && asset.expiresAt.any fun expiresAt => decide (expiresAt < now)) ||
    (asset.status == .sweeping && decide (asset.updatedAt < staleClaimBefore))

/-! ## Requests -/

inductive Operation where
  | initiate (contentType : ContentType) (uploadedBy : Nat)
  | complete (assetId : Nat)
  | attach (productId assetId : Nat)
  | detach (productId imageId : Nat)
  | sweep (batchSize : Nat)
  deriving DecidableEq, Repr

structure ClaimedAsset where
  id : Nat
  storageKey : String
  deriving DecidableEq, Repr

/-- The statement a request runs next.  From the lock of the asset on, an attach, a detach and a
claim hold the locks of the rows they will write. -/
inductive Phase where
  | inserting
  | presigning
  | reading
  | heading (asset : MediaAsset)
  | marking (asset : MediaAsset) (sizeBytes : Nat)
  | insertingImage
  | lockingForAttach (image : ProductImage)
  | attaching (image : ProductImage)
  | deletingImage
  | lockingForDetach (image : ProductImage)
  | detaching (image : ProductImage)
  /-- The update of a claim: rows still to be locked, and rows locked and found eligible. -/
  | claiming (now staleClaimBefore : Int) (chosen taken : List Nat)
  | deletingObject (claimed : List ClaimedAsset)
  | deletingRow (asset : ClaimedAsset) (claimed : List ClaimedAsset)
  | finished
  | failed
  deriving DecidableEq, Repr

def Operation.first : Operation → Phase
  | .initiate .. => .inserting
  | .complete _ => .reading
  | .attach .. => .insertingImage
  | .detach .. => .deletingImage
  | .sweep _ => .claiming 0 0 [] []

structure Process where
  operation : Operation
  phase : Phase
  deriving DecidableEq, Repr

/-- The committed rows, the locks on asset rows, the images transactions have inserted or deleted
and not committed yet, and the bucket; with a history of what was deleted. -/
structure World where
  assets : List MediaAsset
  images : List ProductImage
  objects : List StoredObject
  locks : Nat → Option Nat
  inserted : List (Nat × ProductImage)
  deleting : List (Nat × Nat)
  requests : Nat → Option Process
  minted : List Nat
  deletedObjects : List String
  deletedRows : List MediaAsset

def start : World :=
  { assets := []
    images := []
    objects := []
    locks := fun _ => none
    inserted := []
    deleting := []
    requests := fun _ => none
    minted := []
    deletedObjects := []
    deletedRows := [] }

def World.findAsset (world : World) (assetId : Nat) : Option MediaAsset :=
  world.assets.find? fun asset => asset.id == assetId

def setAsset (assetId : Nat) (change : MediaAsset → MediaAsset) (assets : List MediaAsset) :
    List MediaAsset :=
  assets.map fun asset => if asset.id = assetId then change asset else asset

def claimAsset (assetIds : List Nat) (updatedAt : Int) (asset : MediaAsset) : MediaAsset :=
  if asset.id ∈ assetIds then { asset with status := .sweeping, updatedAt } else asset

/-- What the surroundings put into one statement: a minted id, a reading of the clock, the rows a
snapshot selects, and the time to live of a status. -/
structure Choice where
  id : Nat
  now : Int
  expiresAt : Int
  selected : List Nat
  staleClaimMs : Nat
  deriving DecidableEq, Repr

inductive Effect where
  | none
  | insertAsset (asset : MediaAsset)
  | markReady (assetId sizeBytes : Nat) (expiresAt updatedAt : Int)
  | insertImage (image : ProductImage)
  | deleteImage (imageId : Nat)
  | lock (assetId : Nat)
  | commitAttach (image : ProductImage) (updatedAt : Int)
  | commitDetach (image : ProductImage) (expiresAt updatedAt : Int)
  | commitDangling (image : ProductImage)
  | commitClaim (assetIds : List Nat) (updatedAt : Int)
  | deleteObject (storageKey : String)
  | deleteRow (assetId : Nat)
  | rollback
  deriving DecidableEq, Repr

def World.heldByOther (world : World) (slot assetId : Nat) : Bool :=
  match world.locks assetId with
  | some holder => holder != slot
  | none => false

def claimedAssets (world : World) (taken : List Nat) : List ClaimedAsset :=
  taken.filterMap fun assetId =>
    (world.findAsset assetId).map fun asset => ⟨asset.id, asset.storageKey⟩

section Statements

variable (maxBytes : Nat)

/-- One statement of a request; `none` while it waits for a lock. -/
def statement (world : World) (slot : Nat) (process : Process) (choice : Choice) :
    Option (Effect × Phase) :=
  match process.phase, process.operation with
  | .inserting, .initiate contentType uploadedBy =>
      let storageKey := storageKeyFor choice.id contentType
      if world.assets.any fun asset => asset.id == choice.id || asset.storageKey == storageKey then
        some (.none, .failed)
      else
        some (.insertAsset ⟨choice.id, storageKey, contentType, none, .pending, uploadedBy,
          some choice.expiresAt, choice.now⟩, .presigning)
  | .presigning, _ => some (.none, .finished)
  | .reading, .complete assetId =>
      match world.findAsset assetId with
      | some asset =>
          some (.none, if canTransition asset.status .ready then .heading asset else .failed)
      | none => some (.none, .failed)
  | .heading asset, _ =>
      match world.objects.find? fun object => object.key == asset.storageKey with
      | some head =>
          if maxBytes < head.sizeBytes then some (.none, .failed)
          else if head.contentType.any (· != asset.contentType) then some (.none, .failed)
          else some (.none, .marking asset head.sizeBytes)
      | none => some (.none, .failed)
  | .marking asset sizeBytes, _ =>
      if world.heldByOther slot asset.id then none
      else
        match world.findAsset asset.id with
        | some found =>
            if found.status = .pending then
              some (.markReady asset.id sizeBytes choice.expiresAt choice.now, .finished)
            else some (.none, .failed)
        | none => some (.none, .failed)
  | .insertingImage, .attach productId assetId =>
      -- the unique indexes: the primary key, and one link of a product to an asset
      let clashes := fun image : ProductImage =>
        image.id == choice.id || (image.productId == productId && image.assetId == assetId)
      if world.inserted.any fun entry => entry.1 != slot && clashes entry.2 then none
      else if world.images.any clashes then some (.none, .failed)
      else some (.insertImage ⟨choice.id, productId, assetId⟩,
        .lockingForAttach ⟨choice.id, productId, assetId⟩)
  | .lockingForAttach image, _ =>
      if world.heldByOther slot image.assetId then none
      else
        match world.findAsset image.assetId with
        | some asset =>
            if canTransition asset.status .attached then
              some (.lock image.assetId, .attaching image)
            else some (.rollback, .failed)
        | none => some (.rollback, .failed)
  | .attaching image, _ => some (.commitAttach image choice.now, .finished)
  | .deletingImage, .detach productId imageId =>
      if world.deleting.any fun entry => entry.1 != slot && entry.2 == imageId then none
      else
        match world.images.find? fun image =>
          image.id == imageId && image.productId == productId with
        | some image => some (.deleteImage imageId, .lockingForDetach image)
        | none => some (.none, .finished)
  | .lockingForDetach image, _ =>
      if world.heldByOther slot image.assetId then none
      else
        match world.findAsset image.assetId with
        | some asset =>
            if canTransition asset.status .detached then
              some (.lock image.assetId, .detaching image)
            else some (.rollback, .failed)
        -- a link to a missing row is dropped
        | none => some (.commitDangling image, .finished)
  | .detaching image, _ => some (.commitDetach image choice.expiresAt choice.now, .finished)
  | .claiming _ _ [] [], .sweep batchSize =>
      let staleClaimBefore := choice.now - choice.staleClaimMs
      -- the subquery: eligible rows of the snapshot, up to the limit
      let chosen := (choice.selected.filter fun assetId =>
        (world.findAsset assetId).any (eligible choice.now staleClaimBefore)).take batchSize
      match chosen with
      | [] => some (.none, .finished)
      | _ :: _ => some (.none, .claiming choice.now staleClaimBefore chosen [])
  | .claiming now staleClaimBefore (assetId :: chosen) taken, _ =>
      if world.heldByOther slot assetId then none
      else if (world.findAsset assetId).any (eligible now staleClaimBefore) then
        some (.lock assetId, .claiming now staleClaimBefore chosen (taken ++ [assetId]))
      else some (.none, .claiming now staleClaimBefore chosen taken)
  | .claiming _ _ [] (assetId :: taken), _ =>
      some (.commitClaim (assetId :: taken) choice.now,
        .deletingObject (claimedAssets world (assetId :: taken)))
  | .deletingObject [], _ => some (.none, .finished)
  | .deletingObject (asset :: claimed), _ =>
      some (.deleteObject asset.storageKey, .deletingRow asset claimed)
  | .deletingRow asset claimed, _ =>
      if world.heldByOther slot asset.id then none
      else
        match world.findAsset asset.id with
        | some found =>
            if found.status = .sweeping then
              some (.deleteRow asset.id, .deletingObject claimed)
            else some (.none, .deletingObject claimed)
        | none => some (.none, .deletingObject claimed)
  | _, _ => none

/-! ## Any number of requests -/

def World.release (world : World) (slot : Nat) : World :=
  { world with
    locks := fun assetId => if world.locks assetId = some slot then none else world.locks assetId
    inserted := world.inserted.filter (·.1 != slot)
    deleting := world.deleting.filter (·.1 != slot) }

def World.apply (world : World) (slot : Nat) : Effect → Option World
  | .none => some world
  | .insertAsset asset =>
      if asset.id ∈ world.minted then none
      else some { world with
        assets := world.assets ++ [asset]
        minted := asset.id :: world.minted }
  | .markReady assetId sizeBytes expiresAt updatedAt =>
      some { world with
        assets := setAsset assetId
          (fun asset => { asset with status := .ready, sizeBytes, expiresAt, updatedAt })
          world.assets }
  | .insertImage image => some { world with inserted := (slot, image) :: world.inserted }
  | .deleteImage imageId => some { world with deleting := (slot, imageId) :: world.deleting }
  | .lock assetId =>
      some { world with locks := Function.update world.locks assetId (some slot) }
  | .commitAttach image updatedAt =>
      some ({ world with
        images := world.images ++ [image]
        assets := setAsset image.assetId
          (fun asset => { asset with status := .attached, expiresAt := none, updatedAt })
          world.assets }.release slot)
  | .commitDetach image expiresAt updatedAt =>
      some ({ world with
        images := world.images.filter (·.id != image.id)
        assets := setAsset image.assetId
          (fun asset => { asset with status := .detached, expiresAt, updatedAt })
          world.assets }.release slot)
  | .commitDangling image =>
      some ({ world with images := world.images.filter (·.id != image.id) }.release slot)
  | .commitClaim assetIds updatedAt =>
      some ({ world with
        assets := world.assets.map (claimAsset assetIds updatedAt) }.release slot)
  | .deleteObject storageKey =>
      some { world with
        objects := world.objects.filter (·.key != storageKey)
        deletedObjects := storageKey :: world.deletedObjects }
  | .deleteRow assetId =>
      some { world with
        assets := world.assets.filter (·.id != assetId)
        deletedRows := world.assets.filter (·.id == assetId) ++ world.deletedRows }
  | .rollback => some (world.release slot)

inductive Event where
  | arrive (slot : Nat) (operation : Operation)
  | turn (slot : Nat) (choice : Choice)
  /-- A statement or a call of the bucket fails, or the process dies. -/
  | fail (slot : Nat)
  /-- A client uploads to the bucket. -/
  | upload (object : StoredObject)
  deriving DecidableEq, Repr

def World.goOn (world : World) (slot : Nat) (process : Process) (phase : Phase) : World :=
  { world with
    requests := Function.update world.requests slot (some { process with phase := phase }) }

def step (world : World) : Event → Option World
  | .arrive slot operation =>
      if world.requests slot = none then
        some (world.goOn slot ⟨operation, operation.first⟩ operation.first)
      else none
  | .turn slot choice => do
      let process ← world.requests slot
      let (effect, phase) ← statement maxBytes world slot process choice
      let next ← world.apply slot effect
      pure (next.goOn slot process phase)
  | .fail slot => do
      let process ← world.requests slot
      pure ((world.release slot).goOn slot process .failed)
  | .upload object =>
      some { world with
        objects := object :: world.objects.filter (·.key != object.key) }

end Statements

end Commerce.Media
