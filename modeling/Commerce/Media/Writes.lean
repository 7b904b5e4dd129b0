import Commerce.Media.Books

/-!
# Writes of the media world

What a statement has found out by the time it writes, and that each write
keeps the books and what the other requests hold.
-/

set_option autoImplicit false

namespace Commerce.Media

/-! ## Rewriting rows -/

/-- A change of rows that keeps their keys and lets none leave the sweep or wait again. -/
structure Rewrites (world : World) (change : MediaAsset → MediaAsset) : Prop where
  id : ∀ asset, (change asset).id = asset.id
  storageKey : ∀ asset, (change asset).storageKey = asset.storageKey
  contentType : ∀ asset, (change asset).contentType = asset.contentType
  sweeping : ∀ asset ∈ world.assets, asset.status = .sweeping → (change asset).status = .sweeping
  pending : ∀ asset ∈ world.assets, (change asset).status = .pending → asset.status = .pending
  uploaded : ∀ asset ∈ world.assets, (change asset).status.uploaded = true →
    ∃ object ∈ world.objects, object.key = asset.storageKey

def onlyAsset (assetId : Nat) (change : MediaAsset → MediaAsset) (asset : MediaAsset) :
    MediaAsset :=
  if asset.id = assetId then change asset else asset

theorem rewrites_onlyAsset (world : World) (books : Books world) (change : MediaAsset → MediaAsset)
    (row : MediaAsset) (listed : row ∈ world.assets)
    (keeps : ∀ asset, (change asset).id = asset.id ∧
      (change asset).storageKey = asset.storageKey ∧
      (change asset).contentType = asset.contentType)
    (awake : row.status ≠ .sweeping) (settled : (change row).status ≠ .pending)
    (stored : ∃ object ∈ world.objects, object.key = row.storageKey) :
    Rewrites world (onlyAsset row.id change) := by
  have here (asset : MediaAsset) (member : asset ∈ world.assets) (same : asset.id = row.id) :
      asset = row := books.same_row member listed same
  constructor
  · intro asset
    unfold onlyAsset
    split
    · exact (keeps asset).1
    · rfl
  · intro asset
    unfold onlyAsset
    split
    · exact (keeps asset).2.1
    · rfl
  · intro asset
    unfold onlyAsset
    split
    · exact (keeps asset).2.2
    · rfl
  · intro asset member sweeping
    unfold onlyAsset
    split
    · rename_i same
      cases here asset member same
      exact absurd sweeping awake
    · exact sweeping
  · intro asset member pending
    unfold onlyAsset at pending
    split at pending
    · rename_i same
      cases here asset member same
      exact absurd pending settled
    · exact pending
  · intro asset member uploaded
    unfold onlyAsset at uploaded
    split at uploaded
    · rename_i same
      cases here asset member same
      exact stored
    · exact books.stored asset member uploaded

theorem Rewrites.later {world next : World} {change : MediaAsset → MediaAsset}
    (rewrites : Rewrites world change) (assets : next.assets = world.assets.map change)
    (minted : next.minted = world.minted) (objects : next.objects = world.objects)
    (deletedObjects : next.deletedObjects = world.deletedObjects) : Later world next := by
  constructor
  · intro assetId member
    rw [minted]
    exact member
  · intro storageKey member
    rw [deletedObjects]
    exact member
  · intro found listed _
    rw [assets] at listed
    obtain ⟨old, oldListed, rfl⟩ := List.mem_map.mp listed
    exact ⟨old, oldListed, (rewrites.id old).symm, (rewrites.storageKey old).symm,
      rewrites.sweeping old oldListed, rewrites.pending old oldListed⟩
  · intro found _ _ object kept key
    rw [objects]
    exact ⟨object, kept, key⟩

theorem Books.rewrite {world next : World} {change : MediaAsset → MediaAsset}
    (books : Books world) (rewrites : Rewrites world change)
    (assets : next.assets = world.assets.map change)
    (minted : next.minted = world.minted) (objects : next.objects = world.objects)
    (deletedObjects : next.deletedObjects = world.deletedObjects)
    (deletedRows : next.deletedRows = world.deletedRows)
    (imageIds : (next.images.map (·.id) ++ next.inserted.map (·.2.id)).Nodup)
    (one : (next.images.map (·.assetId)).Nodup)
    (holders : (next.deleting.map (·.2)).Nodup)
    (live : ∀ image ∈ next.images, ∃ asset ∈ world.assets,
      asset.id = image.assetId ∧ (change asset).status = .attached)
    (pictured : ∀ asset ∈ world.assets, (change asset).status = .attached →
      ∃ image ∈ next.images, image.assetId = asset.id) : Books next := by
  have ids : (world.assets.map change).map (·.id) = world.assets.map (·.id) := by
    rw [List.map_map]
    exact List.map_congr_left fun asset _ => rewrites.id asset
  constructor
  · rw [assets, ids]
    exact books.ids
  · intro asset listed
    rw [assets] at listed
    obtain ⟨old, oldListed, rfl⟩ := List.mem_map.mp listed
    rw [rewrites.storageKey, rewrites.id, rewrites.contentType]
    exact books.keyed old oldListed
  · intro asset listed
    rw [assets] at listed
    obtain ⟨old, oldListed, rfl⟩ := List.mem_map.mp listed
    rw [rewrites.id, minted]
    exact books.minted old oldListed
  · exact imageIds
  · exact one
  · exact holders
  · intro image member
    obtain ⟨asset, listed, sameId, attached⟩ := live image member
    refine ⟨change asset, ?_, (rewrites.id asset).trans sameId, attached⟩
    rw [assets]
    exact List.mem_map_of_mem listed
  · intro asset listed attached
    rw [assets] at listed
    obtain ⟨old, oldListed, rfl⟩ := List.mem_map.mp listed
    rw [rewrites.id]
    exact pictured old oldListed attached
  · intro asset listed uploaded
    rw [assets] at listed
    obtain ⟨old, oldListed, rfl⟩ := List.mem_map.mp listed
    rw [rewrites.storageKey, objects]
    exact rewrites.uploaded old oldListed uploaded
  · intro asset listed deleted
    rw [assets] at listed
    obtain ⟨old, oldListed, rfl⟩ := List.mem_map.mp listed
    rw [rewrites.storageKey, deletedObjects] at deleted
    exact rewrites.sweeping old oldListed (books.swept old oldListed deleted)
  · intro storageKey member
    rw [deletedObjects] at member
    rw [minted]
    exact books.spent storageKey member
  · intro asset member
    rw [deletedRows] at member
    rw [deletedObjects]
    exact books.gone asset member

/-- What others hold stays when rows that no other request has locked are rewritten. -/
theorem Rewrites.frame {world next : World} {change : MediaAsset → MediaAsset} (slot : Nat)
    (rewrites : Rewrites world change) (assets : next.assets = world.assets.map change)
    (minted : next.minted = world.minted) (objects : next.objects = world.objects)
    (deletedObjects : next.deletedObjects = world.deletedObjects)
    (others : ∀ holder, holder ≠ slot → ∀ asset ∈ world.assets,
      world.locks asset.id = some holder → change asset = asset)
    (inserted : ∀ holder image, holder ≠ slot →
      ((holder, image) ∈ next.inserted ↔ (holder, image) ∈ world.inserted))
    (deleting : ∀ holder imageId, holder ≠ slot →
      ((holder, imageId) ∈ next.deleting ↔ (holder, imageId) ∈ world.deleting))
    (images : ∀ holder image, holder ≠ slot → (holder, image.id) ∈ world.deleting →
      image ∈ world.images → image ∈ next.images)
    (locks : ∀ holder assetId, holder ≠ slot → world.locks assetId = some holder →
      next.locks assetId = some holder) : Frame world next slot := by
  refine ⟨rewrites.later assets minted objects deletedObjects, inserted, deleting, images, locks,
    ?_, ?_⟩
  · intro holder apart asset listed locked
    rw [assets, ← others holder apart asset listed locked]
    exact List.mem_map_of_mem listed
  · intro holder apart asset listed locked _
    rw [assets] at listed
    obtain ⟨old, oldListed, rfl⟩ := List.mem_map.mp listed
    rw [rewrites.id] at locked
    rw [others holder apart old oldListed locked]
    exact oldListed

/-! ## Locks -/

theorem free_of_heldByOther (world : World) (slot assetId : Nat)
    (free : world.heldByOther slot assetId = false) (holder : Nat) (apart : holder ≠ slot) :
    world.locks assetId ≠ some holder := by
  intro locked
  rw [World.heldByOther, locked] at free
  simp [apart] at free

theorem release_inserted (world : World) (slot holder : Nat) (image : ProductImage)
    (apart : holder ≠ slot) :
    (holder, image) ∈ (world.release slot).inserted ↔ (holder, image) ∈ world.inserted := by
  simp [World.release, apart]

theorem release_deleting (world : World) (slot holder imageId : Nat) (apart : holder ≠ slot) :
    (holder, imageId) ∈ (world.release slot).deleting ↔ (holder, imageId) ∈ world.deleting := by
  simp [World.release, apart]

theorem release_locks (world : World) (slot holder assetId : Nat)
    (apart : holder ≠ slot) (locked : world.locks assetId = some holder) :
    (world.release slot).locks assetId = some holder := by
  have other : world.locks assetId ≠ some slot := by
    rw [locked]
    simpa using apart
  simp only [World.release, if_neg other]
  exact locked

theorem release_holders (world : World) (slot : Nat) (books : Books world) :
    ((world.release slot).deleting.map (·.2)).Nodup :=
  books.holders.sublist (List.filter_sublist.map _)

theorem release_imageIds (world : World) (slot : Nat) (books : Books world) :
    (world.images.map (·.id) ++ (world.release slot).inserted.map (·.2.id)).Nodup :=
  books.imageIds.sublist ((List.Sublist.refl _).append (List.filter_sublist.map _))

theorem Books.inserted_fresh {world : World} (books : Books world) (slot : Nat)
    (image : ProductImage) (inserted : (slot, image) ∈ world.inserted) :
    image.id ∉ world.images.map (·.id) ∧
      image.id ∉ (world.release slot).inserted.map (·.2.id) := by
  obtain ⟨-, insertedIds, apart⟩ := List.nodup_append.mp books.imageIds
  have among : image.id ∈ world.inserted.map (·.2.id) := List.mem_map.mpr ⟨_, inserted, rfl⟩
  constructor
  · intro member
    exact apart _ member _ among rfl
  · intro member
    obtain ⟨⟨holder, other⟩, kept, same⟩ := List.mem_map.mp member
    obtain ⟨listed, foreign⟩ := List.mem_filter.mp kept
    have equal := List.inj_on_of_nodup_map insertedIds listed inserted same
    cases equal
    simp at foreign

/-! ## What a statement writes -/

def Licensed (world : World) (slot : Nat) : Effect → Prop
  | .none | .rollback => True
  | .insertAsset asset =>
      asset.storageKey = storageKeyFor asset.id asset.contentType ∧ asset.status = .pending
  | .markReady assetId .. => world.heldByOther slot assetId = false ∧
      ∃ row ∈ world.assets, row.id = assetId ∧ row.status = .pending ∧
        ∃ object ∈ world.objects, object.key = row.storageKey
  | .insertImage image => image.id ∉ world.images.map (·.id) ∧
      image.id ∉ world.inserted.map (·.2.id)
  | .deleteImage imageId => imageId ∉ world.deleting.map (·.2)
  | .lock assetId => world.heldByOther slot assetId = false
  | .commitAttach image _ => Holds world slot (.attaching image)
  | .commitDetach image .. => Holds world slot (.detaching image)
  -- an image always has its row
  | .commitDangling _ => False
  | .commitClaim assetIds _ => ∀ assetId ∈ assetIds, world.locks assetId = some slot ∧
      ∀ asset ∈ world.assets, asset.id = assetId → asset.status ≠ .attached
  | .deleteObject storageKey => ∃ asset, Claimed world asset ∧ asset.storageKey = storageKey
  | .deleteRow assetId => world.heldByOther slot assetId = false ∧
      ∃ row ∈ world.assets, row.id = assetId ∧ row.status = .sweeping ∧
        row.storageKey ∈ world.deletedObjects

structure Kept (world next : World) (slot : Nat) : Prop where
  books : Books next
  frame : Frame world next slot

theorem later_refl (world next : World) (assets : next.assets = world.assets)
    (minted : next.minted = world.minted) (objects : next.objects = world.objects)
    (deletedObjects : next.deletedObjects = world.deletedObjects) : Later world next := by
  constructor
  · intro assetId member
    rw [minted]
    exact member
  · intro storageKey member
    rw [deletedObjects]
    exact member
  · intro found listed _
    rw [assets] at listed
    exact ⟨found, listed, rfl, rfl, fun same => same, fun same => same⟩
  · intro found _ _ object kept key
    rw [objects]
    exact ⟨object, kept, key⟩

theorem frame_refl (world : World) (slot : Nat) : Frame world world slot :=
  ⟨later_refl world world rfl rfl rfl rfl, fun _ _ _ => Iff.rfl, fun _ _ _ => Iff.rfl,
    fun _ _ _ _ listed => listed, fun _ _ _ locked => locked, fun _ _ _ listed _ => listed,
    fun _ _ _ listed _ _ => listed⟩

theorem release_kept (world : World) (slot : Nat) (books : Books world) :
    Kept world (world.release slot) slot := by
  constructor
  · exact ⟨books.ids, books.keyed, books.minted, release_imageIds world slot books, books.one,
      release_holders world slot books, books.live, books.pictured, books.stored, books.swept,
      books.spent, books.gone⟩
  · exact ⟨later_refl world _ rfl rfl rfl rfl, release_inserted world slot,
      release_deleting world slot, fun _ _ _ _ listed => listed, release_locks world slot,
      fun _ _ _ listed _ => listed, fun _ _ _ listed _ _ => listed⟩

theorem insertAsset_kept (world : World) (slot : Nat) (asset : MediaAsset) (books : Books world)
    (keyed : asset.storageKey = storageKeyFor asset.id asset.contentType)
    (pending : asset.status = .pending) (fresh : asset.id ∉ world.minted) :
    Kept world { world with
      assets := world.assets ++ [asset]
      minted := asset.id :: world.minted } slot := by
  have split (row : MediaAsset) (listed : row ∈ world.assets ++ [asset]) :
      row ∈ world.assets ∨ row = asset := by
    simpa using listed
  constructor
  · constructor
    · dsimp only
      rw [List.map_append]
      refine List.nodup_append.mpr ⟨books.ids, List.nodup_singleton _, ?_⟩
      rintro _ member _ last rfl
      obtain ⟨row, listed, same⟩ := List.mem_map.mp member
      have sameId : row.id = asset.id := same.trans (List.mem_singleton.mp last)
      rw [← sameId] at fresh
      exact fresh (books.minted row listed)
    · intro row listed
      rcases split row listed with old | rfl
      · exact books.keyed row old
      · exact keyed
    · intro row listed
      rcases split row listed with old | rfl
      · exact List.mem_cons_of_mem _ (books.minted row old)
      · exact List.mem_cons_self
    · exact books.imageIds
    · exact books.one
    · exact books.holders
    · intro image member
      obtain ⟨row, listed, shown⟩ := books.live image member
      exact ⟨row, List.mem_append_left _ listed, shown⟩
    · intro row listed attached
      rcases split row listed with old | rfl
      · exact books.pictured row old attached
      · rw [pending] at attached
        cases attached
    · intro row listed uploaded
      rcases split row listed with old | rfl
      · exact books.stored row old uploaded
      · rw [pending] at uploaded
        cases uploaded
    · intro row listed deleted
      rcases split row listed with old | rfl
      · exact books.swept row old deleted
      · -- the key of a fresh id has not been deleted
        obtain ⟨assetId, known, contentType, spelled⟩ := books.spent _ deleted
        rw [keyed] at spelled
        rw [storageKeyFor_inj _ _ _ _ spelled] at fresh
        exact absurd known fresh
    · intro storageKey deleted
      obtain ⟨assetId, known, spelled⟩ := books.spent storageKey deleted
      exact ⟨assetId, List.mem_cons_of_mem _ known, spelled⟩
    · exact books.gone
  · refine ⟨⟨fun _ known => List.mem_cons_of_mem _ known, fun _ deleted => deleted, ?_, ?_⟩,
      fun _ _ _ => Iff.rfl, fun _ _ _ => Iff.rfl, fun _ _ _ _ listed => listed,
      fun _ _ _ locked => locked, fun _ _ _ listed _ => List.mem_append_left _ listed, ?_⟩
    · intro row listed known
      rcases split row listed with old | rfl
      · exact ⟨row, old, rfl, rfl, fun same => same, fun same => same⟩
      · exact absurd known fresh
    · intro row _ _ object kept key
      exact ⟨object, kept, key⟩
    · intro holder _ row listed _ attached
      rcases split row listed with old | rfl
      · exact old
      · rw [pending] at attached
        cases attached

theorem markReady_kept (world : World) (slot sizeBytes : Nat) (expiresAt : Option Int)
    (updatedAt : Int) (books : Books world) (row : MediaAsset) (listed : row ∈ world.assets)
    (free : world.heldByOther slot row.id = false) (pending : row.status = .pending)
    (stored : ∃ object ∈ world.objects, object.key = row.storageKey) :
    Kept world { world with
      assets := setAsset row.id
        (fun asset =>
          { asset with status := .ready, sizeBytes := some sizeBytes, expiresAt, updatedAt })
        world.assets } slot := by
  let change := fun asset : MediaAsset =>
    { asset with status := .ready, sizeBytes := some sizeBytes, expiresAt, updatedAt }
  have rewrites : Rewrites world (onlyAsset row.id change) :=
    rewrites_onlyAsset world books change row listed (fun _ => ⟨rfl, rfl, rfl⟩)
      (by simp [pending]) (by simp [change]) stored
  constructor
  · refine books.rewrite rewrites rfl rfl rfl rfl rfl books.imageIds books.one books.holders ?_ ?_
    · intro image member
      obtain ⟨asset, shown, sameId, attached⟩ := books.live image member
      refine ⟨asset, shown, sameId, ?_⟩
      rw [onlyAsset, if_neg]
      · exact attached
      · intro same
        have waiting : row.status ≠ .attached := by simp [pending]
        exact books.unpictured row listed waiting image member (sameId.symm.trans same)
    · intro asset shown attached
      rw [onlyAsset] at attached
      split at attached
      · cases attached
      · exact books.pictured asset shown attached
  · refine rewrites.frame slot rfl rfl rfl rfl ?_ (fun _ _ _ => Iff.rfl) (fun _ _ _ => Iff.rfl)
      (fun _ _ _ _ member => member) (fun _ _ _ locked => locked)
    intro holder apart asset _ locked
    rw [onlyAsset, if_neg]
    rintro same
    rw [same] at locked
    exact free_of_heldByOther world slot row.id free holder apart locked

/-- The commit of an attach: the link and the status appear together. -/
theorem commitAttach_kept (world : World) (slot : Nat) (image : ProductImage) (updatedAt : Int)
    (books : Books world) (holds : Holds world slot (.attaching image)) :
    Kept world ({ world with
      images := world.images ++ [image]
      assets := setAsset image.assetId
        (fun asset => { asset with status := .attached, expiresAt := none, updatedAt })
        world.assets }.release slot) slot := by
  obtain ⟨inserted, locked, row, listed, rowId, ready⟩ := holds
  let change := fun asset : MediaAsset =>
    { asset with status := .attached, expiresAt := none, updatedAt }
  have stored := books.stored row listed (by rw [ready]; rfl)
  have rewrites : Rewrites world (onlyAsset image.assetId change) := by
    rw [← rowId]
    exact rewrites_onlyAsset world books change row listed (fun _ => ⟨rfl, rfl, rfl⟩)
      (by simp [ready]) (by simp [change]) stored
  have unshown : ∀ other ∈ world.images, other.assetId ≠ image.assetId := by
    intro other member
    rw [← rowId]
    exact books.unpictured row listed (by simp [ready]) other member
  obtain ⟨freshCommitted, freshInserted⟩ := books.inserted_fresh slot image inserted
  constructor
  · refine books.rewrite rewrites rfl rfl rfl rfl rfl ?_ ?_ (release_holders world slot books) ?_ ?_
    · have ids := release_imageIds world slot books
      show ((world.images ++ [image]).map (·.id) ++
        (world.release slot).inserted.map (·.2.id)).Nodup
      rw [List.map_append, List.append_assoc, List.map_singleton, List.singleton_append]
      refine (List.nodup_middle.mpr (List.nodup_cons.mpr ⟨?_, ids⟩))
      intro member
      rcases List.mem_append.mp member with old | new
      · exact freshCommitted old
      · exact freshInserted new
    · show ((world.images ++ [image]).map (·.assetId)).Nodup
      rw [List.map_append]
      refine List.nodup_append.mpr ⟨books.one, List.nodup_singleton _, ?_⟩
      rintro _ member _ last same
      obtain ⟨other, old, rfl⟩ := List.mem_map.mp member
      exact unshown other old (same.trans (List.mem_singleton.mp last))
    · intro shown member
      rcases List.mem_append.mp member with old | new
      · obtain ⟨asset, assetListed, sameId, attached⟩ := books.live shown old
        refine ⟨asset, assetListed, sameId, ?_⟩
        rw [onlyAsset, if_neg (sameId ▸ unshown shown old)]
        exact attached
      · cases List.mem_singleton.mp new
        refine ⟨row, listed, rowId, ?_⟩
        rw [onlyAsset, if_pos rowId]
    · intro asset assetListed attached
      rw [onlyAsset] at attached
      split at attached
      · rename_i same
        exact ⟨image, List.mem_append_right _ List.mem_cons_self, same.symm⟩
      · obtain ⟨shown, member, sameId⟩ := books.pictured asset assetListed attached
        exact ⟨shown, List.mem_append_left _ member, sameId⟩
  · refine rewrites.frame slot rfl rfl rfl rfl ?_ (release_inserted world slot)
      (release_deleting world slot) (fun _ _ _ _ member => List.mem_append_left _ member)
      (release_locks world slot)
    intro holder apart asset _ lockedByOther
    rw [onlyAsset, if_neg]
    intro same
    rw [same, locked] at lockedByOther
    exact apart (Option.some.inj lockedByOther).symm

/-- The commit of a detach: the link goes and its asset is free. -/
theorem commitDetach_kept (world : World) (slot : Nat) (image : ProductImage)
    (expiresAt : Option Int) (updatedAt : Int) (books : Books world)
    (holds : Holds world slot (.detaching image)) :
    Kept world ({ world with
      images := world.images.filter (·.id != image.id)
      assets := setAsset image.assetId
        (fun asset => { asset with status := .detached, expiresAt, updatedAt })
        world.assets }.release slot) slot := by
  obtain ⟨member, deleting, locked⟩ := holds
  obtain ⟨row, listed, rowId, attached⟩ := books.live image member
  let change := fun asset : MediaAsset => { asset with status := .detached, expiresAt, updatedAt }
  have stored := books.stored row listed (by rw [attached]; rfl)
  have rewrites : Rewrites world (onlyAsset image.assetId change) := by
    rw [← rowId]
    exact rewrites_onlyAsset world books change row listed (fun _ => ⟨rfl, rfl, rfl⟩)
      (by simp [attached]) (by simp [change]) stored
  have fewer : (world.images.filter (·.id != image.id)).Sublist world.images :=
    List.filter_sublist
  constructor
  · refine books.rewrite rewrites rfl rfl rfl rfl rfl ?_ ?_ (release_holders world slot books) ?_ ?_
    · exact (release_imageIds world slot books).sublist
        ((fewer.map _).append (List.Sublist.refl _))
    · exact books.one.sublist (fewer.map _)
    · intro shown kept
      obtain ⟨old, other⟩ := List.mem_filter.mp kept
      obtain ⟨asset, assetListed, sameId, shownAttached⟩ := books.live shown old
      refine ⟨asset, assetListed, sameId, ?_⟩
      rw [onlyAsset, if_neg]
      · exact shownAttached
      · intro same
        have equal := List.inj_on_of_nodup_map books.one old member (sameId.symm.trans same)
        rw [equal] at other
        simp at other
    · intro asset assetListed still
      rw [onlyAsset] at still
      split at still
      · cases still
      · rename_i different
        obtain ⟨shown, old, sameId⟩ := books.pictured asset assetListed still
        refine ⟨shown, List.mem_filter.mpr ⟨old, ?_⟩, sameId⟩
        have apart : shown.id ≠ image.id := by
          intro same
          rw [books.same_image old member same] at sameId
          exact different sameId.symm
        simpa using apart
  · refine rewrites.frame slot rfl rfl rfl rfl ?_ (release_inserted world slot)
      (release_deleting world slot) ?_ (release_locks world slot)
    · intro holder apart asset _ lockedByOther
      rw [onlyAsset, if_neg]
      intro same
      rw [same, locked] at lockedByOther
      exact apart (Option.some.inj lockedByOther).symm
    · -- no two requests delete one image
      intro holder shown apart theirs old
      refine List.mem_filter.mpr ⟨old, ?_⟩
      have different : shown.id ≠ image.id := by
        intro same
        rw [same] at theirs
        have equal := List.inj_on_of_nodup_map books.holders theirs deleting rfl
        exact apart (congrArg Prod.fst equal)
      simpa using different

theorem commitClaim_kept (world : World) (slot : Nat) (assetIds : List Nat) (updatedAt : Int)
    (books : Books world)
    (taken : ∀ assetId ∈ assetIds, world.locks assetId = some slot ∧
      ∀ asset ∈ world.assets, asset.id = assetId → asset.status ≠ .attached) :
    Kept world ({ world with
      assets := world.assets.map (claimAsset assetIds updatedAt) }.release slot) slot := by
  have rewrites : Rewrites world (claimAsset assetIds updatedAt) := by
    constructor
    · intro asset
      unfold claimAsset
      split <;> rfl
    · intro asset
      unfold claimAsset
      split <;> rfl
    · intro asset
      unfold claimAsset
      split <;> rfl
    · intro asset _ sweeping
      unfold claimAsset
      split
      · rfl
      · exact sweeping
    · intro asset _ pending
      unfold claimAsset at pending
      split at pending
      · cases pending
      · exact pending
    · intro asset listed uploaded
      unfold claimAsset at uploaded
      split at uploaded
      · cases uploaded
      · exact books.stored asset listed uploaded
  constructor
  · refine books.rewrite rewrites rfl rfl rfl rfl rfl (release_imageIds world slot books) books.one
      (release_holders world slot books) ?_ ?_
    · intro image member
      obtain ⟨asset, listed, sameId, attached⟩ := books.live image member
      refine ⟨asset, listed, sameId, ?_⟩
      rw [claimAsset, if_neg]
      · exact attached
      · intro claimed
        exact (taken asset.id claimed).2 asset listed rfl attached
    · intro asset listed attached
      unfold claimAsset at attached
      split at attached
      · cases attached
      · exact books.pictured asset listed attached
  · refine rewrites.frame slot rfl rfl rfl rfl ?_ (release_inserted world slot)
      (release_deleting world slot) (fun _ _ _ _ member => member) (release_locks world slot)
    intro holder apart asset _ lockedByOther
    rw [claimAsset, if_neg]
    intro claimed
    rw [(taken asset.id claimed).1] at lockedByOther
    exact apart (Option.some.inj lockedByOther).symm

theorem insertImage_kept (world : World) (slot : Nat) (image : ProductImage) (books : Books world)
    (fresh : image.id ∉ world.images.map (·.id) ∧ image.id ∉ world.inserted.map (·.2.id)) :
    Kept world { world with inserted := (slot, image) :: world.inserted } slot := by
  constructor
  · refine ⟨books.ids, books.keyed, books.minted, ?_, books.one, books.holders, books.live,
      books.pictured, books.stored, books.swept, books.spent, books.gone⟩
    dsimp only
    rw [List.map_cons]
    refine List.nodup_middle.mpr (List.nodup_cons.mpr ⟨?_, books.imageIds⟩)
    intro member
    rcases List.mem_append.mp member with committed | pending
    · exact fresh.1 committed
    · exact fresh.2 pending
  · have frame := frame_refl world slot
    refine ⟨later_refl world _ rfl rfl rfl rfl, ?_, frame.deleting, frame.images, frame.locks,
      frame.rows, frame.attached⟩
    intro holder other apart
    simp [apart]

theorem deleteImage_kept (world : World) (slot imageId : Nat) (books : Books world)
    (fresh : imageId ∉ world.deleting.map (·.2)) :
    Kept world { world with deleting := (slot, imageId) :: world.deleting } slot := by
  constructor
  · exact ⟨books.ids, books.keyed, books.minted, books.imageIds, books.one,
      List.nodup_cons.mpr ⟨fresh, books.holders⟩, books.live, books.pictured, books.stored,
      books.swept, books.spent, books.gone⟩
  · have frame := frame_refl world slot
    refine ⟨later_refl world _ rfl rfl rfl rfl, frame.inserted, ?_, ?_, frame.locks, frame.rows,
      frame.attached⟩
    · intro holder other apart
      simp [apart]
    · intro holder image _ _ listed
      exact listed

theorem lock_kept (world : World) (slot assetId : Nat) (books : Books world)
    (free : world.heldByOther slot assetId = false) :
    Kept world { world with locks := Function.update world.locks assetId (some slot) } slot := by
  constructor
  · exact ⟨books.ids, books.keyed, books.minted, books.imageIds, books.one, books.holders,
      books.live, books.pictured, books.stored, books.swept, books.spent, books.gone⟩
  · have frame := frame_refl world slot
    refine ⟨later_refl world _ rfl rfl rfl rfl, frame.inserted, frame.deleting, frame.images, ?_,
      frame.rows, frame.attached⟩
    intro holder other apart locked
    have different : other ≠ assetId := by
      rintro rfl
      exact free_of_heldByOther world slot other free holder apart locked
    dsimp only
    rw [Function.update_of_ne different]
    exact locked

/-- Only the object of a claimed asset is deleted, and it is no other asset's. -/
theorem deleteObject_kept (world : World) (slot : Nat) (claimed : ClaimedAsset)
    (books : Books world) (claim : Claimed world claimed) :
    Kept world { world with
      objects := world.objects.filter (·.key != claimed.storageKey)
      deletedObjects := claimed.storageKey :: world.deletedObjects } slot := by
  have sweeping : ∀ asset ∈ world.assets, asset.storageKey = claimed.storageKey →
      asset.status = .sweeping := by
    intro asset listed same
    obtain ⟨contentType, spelled⟩ := claim.names.spelled
    rw [books.keyed asset listed, spelled] at same
    exact claim.sweeping asset listed (storageKeyFor_inj _ _ _ _ same)
  have survives : ∀ asset ∈ world.assets, asset.status ≠ .sweeping → ∀ object ∈ world.objects,
      object.key = asset.storageKey →
      object ∈ world.objects.filter (·.key != claimed.storageKey) := by
    intro asset listed awake object kept key
    refine List.mem_filter.mpr ⟨kept, ?_⟩
    have apart : object.key ≠ claimed.storageKey := by
      intro same
      exact awake (sweeping asset listed (key.symm.trans same))
    simpa using apart
  constructor
  · refine ⟨books.ids, books.keyed, books.minted, books.imageIds, books.one, books.holders,
      books.live, books.pictured, ?_, ?_, ?_, ?_⟩
    · intro asset listed uploaded
      obtain ⟨object, kept, key⟩ := books.stored asset listed uploaded
      have awake : asset.status ≠ .sweeping := by
        intro asleep
        rw [asleep] at uploaded
        cases uploaded
      exact ⟨object, survives asset listed awake object kept key, key⟩
    · intro asset listed deleted
      rcases List.mem_cons.mp deleted with now | before
      · exact sweeping asset listed now
      · exact books.swept asset listed before
    · intro storageKey deleted
      rcases List.mem_cons.mp deleted with now | before
      · rw [now]
        exact ⟨claimed.id, claim.names.minted, claim.names.spelled⟩
      · exact books.spent storageKey before
    · intro asset member
      exact List.mem_cons_of_mem _ (books.gone asset member)
  · have frame := frame_refl world slot
    refine ⟨⟨frame.later.minted, ?_, frame.later.rows, ?_⟩, frame.inserted, frame.deleting,
      frame.images, frame.locks, frame.rows, frame.attached⟩
    · intro storageKey member
      exact List.mem_cons_of_mem _ member
    · intro asset listed awake object kept key
      exact ⟨object, survives asset listed awake object kept key, key⟩

theorem deleteRow_kept (world : World) (slot : Nat) (row : MediaAsset) (books : Books world)
    (listed : row ∈ world.assets) (free : world.heldByOther slot row.id = false)
    (sweeping : row.status = .sweeping) (deleted : row.storageKey ∈ world.deletedObjects) :
    Kept world { world with
      assets := world.assets.filter (·.id != row.id)
      deletedRows := world.assets.filter (·.id == row.id) ++ world.deletedRows } slot := by
  have fewer (asset : MediaAsset) (kept : asset ∈ world.assets.filter (·.id != row.id)) :
      asset ∈ world.assets := (List.mem_filter.mp kept).1
  have stays (asset : MediaAsset) (member : asset ∈ world.assets) (apart : asset.id ≠ row.id) :
      asset ∈ world.assets.filter (·.id != row.id) :=
    List.mem_filter.mpr ⟨member, by simpa using apart⟩
  constructor
  · constructor
    · exact books.ids.sublist (List.filter_sublist.map _)
    · intro asset kept
      exact books.keyed asset (fewer asset kept)
    · intro asset kept
      exact books.minted asset (fewer asset kept)
    · exact books.imageIds
    · exact books.one
    · exact books.holders
    · intro image member
      obtain ⟨asset, shown, sameId, attached⟩ := books.live image member
      refine ⟨asset, stays asset shown ?_, sameId, attached⟩
      intro same
      exact books.unpictured row listed (by simp [sweeping]) image member
        (sameId.symm.trans same)
    · intro asset kept attached
      exact books.pictured asset (fewer asset kept) attached
    · intro asset kept uploaded
      exact books.stored asset (fewer asset kept) uploaded
    · intro asset kept gone
      exact books.swept asset (fewer asset kept) gone
    · exact books.spent
    · intro asset member
      rcases List.mem_append.mp member with now | before
      · obtain ⟨here, same⟩ := List.mem_filter.mp now
        rw [books.same_row here listed (by simpa using same)]
        exact deleted
      · exact books.gone asset before
  · have frame := frame_refl world slot
    refine ⟨⟨frame.later.minted, frame.later.deletedObjects, ?_, ?_⟩, frame.inserted,
      frame.deleting, frame.images, frame.locks, ?_, ?_⟩
    · intro asset kept _
      exact ⟨asset, fewer asset kept, rfl, rfl, fun same => same, fun same => same⟩
    · intro asset _ _ object kept key
      exact ⟨object, kept, key⟩
    · intro holder apart asset member locked
      refine stays asset member ?_
      intro same
      rw [same] at locked
      exact free_of_heldByOther world slot row.id free holder apart locked
    · intro holder _ asset kept _ _
      exact fewer asset kept

theorem apply_kept (world next : World) (slot : Nat) (effect : Effect) (books : Books world)
    (licensed : Licensed world slot effect) (applied : world.apply slot effect = some next) :
    Kept world next slot := by
  cases effect with
  | none =>
      cases applied
      exact ⟨books, frame_refl world slot⟩
  | rollback =>
      cases applied
      exact release_kept world slot books
  | insertAsset asset =>
      simp only [World.apply] at applied
      split at applied
      · cases applied
      · rename_i fresh
        cases applied
        exact insertAsset_kept world slot asset books licensed.1 licensed.2 fresh
  | markReady assetId sizeBytes expiresAt updatedAt =>
      cases applied
      obtain ⟨free, row, listed, rfl, pending, stored⟩ := licensed
      exact markReady_kept world slot sizeBytes (some expiresAt) updatedAt books row listed free
        pending stored
  | insertImage image =>
      cases applied
      exact insertImage_kept world slot image books licensed
  | deleteImage imageId =>
      cases applied
      exact deleteImage_kept world slot imageId books licensed
  | lock assetId =>
      cases applied
      exact lock_kept world slot assetId books licensed
  | commitAttach image updatedAt =>
      cases applied
      exact commitAttach_kept world slot image updatedAt books licensed
  | commitDetach image expiresAt updatedAt =>
      cases applied
      exact commitDetach_kept world slot image (some expiresAt) updatedAt books licensed
  | commitDangling image => exact absurd licensed id
  | commitClaim assetIds updatedAt =>
      cases applied
      exact commitClaim_kept world slot assetIds updatedAt books licensed
  | deleteObject storageKey =>
      cases applied
      obtain ⟨claimed, claim, rfl⟩ := licensed
      exact deleteObject_kept world slot claimed books claim
  | deleteRow assetId =>
      cases applied
      obtain ⟨free, row, listed, rfl, sweeping, deleted⟩ := licensed
      exact deleteRow_kept world slot row books listed free sweeping deleted

end Commerce.Media
