import Commerce.Lib.Decimals
import Commerce.Media.Assets
import Mathlib.Data.List.Nodup

/-!
# The rows, the images and the bucket

The books relate the committed rows to the objects: an image shows an attached
asset, an attached asset is shown once, and an object is deleted only under an
asset being swept.  Each write keeps them from what its statement found, and
leaves alone what other requests hold.
-/

set_option autoImplicit false

namespace Commerce.Media

/-! ## Keys -/

theorem storageKeyFor_inj (first second : Nat) (contentType other : ContentType)
    (same : storageKeyFor first contentType = storageKeyFor second other) : first = second := by
  have spelled := congrArg String.toList same
  simp only [storageKeyFor, String.toList_append] at spelled
  have dot : ".".toList = ['.'] := rfl
  rw [dot] at spelled
  have tails := List.append_cancel_left (by simpa only [List.append_assoc] using spelled)
  exact Decimals.toString_append_inj first second '.' (extensionFor contentType).toList
    (extensionFor other).toList (by decide) tails

def AssetStatus.uploaded : AssetStatus → Bool
  | .ready | .attached | .detached => true
  | .pending | .sweeping => false

/-! ## Invariant -/

structure Books (world : World) : Prop where
  ids : (world.assets.map (·.id)).Nodup
  keyed : ∀ asset ∈ world.assets, asset.storageKey = storageKeyFor asset.id asset.contentType
  minted : ∀ asset ∈ world.assets, asset.id ∈ world.minted
  imageIds : (world.images.map (·.id) ++ world.inserted.map (·.2.id)).Nodup
  one : (world.images.map (·.assetId)).Nodup
  holders : (world.deleting.map (·.2)).Nodup
  live : ∀ image ∈ world.images, ∃ asset ∈ world.assets,
    asset.id = image.assetId ∧ asset.status = .attached
  pictured : ∀ asset ∈ world.assets, asset.status = .attached →
    ∃ image ∈ world.images, image.assetId = asset.id
  stored : ∀ asset ∈ world.assets, asset.status.uploaded = true →
    ∃ object ∈ world.objects, object.key = asset.storageKey
  swept : ∀ asset ∈ world.assets, asset.storageKey ∈ world.deletedObjects →
    asset.status = .sweeping
  spent : ∀ storageKey ∈ world.deletedObjects, ∃ assetId ∈ world.minted, ∃ contentType,
    storageKey = storageKeyFor assetId contentType
  gone : ∀ asset ∈ world.deletedRows, asset.storageKey ∈ world.deletedObjects

theorem start_books : Books start := by
  constructor <;> simp [start]

theorem Books.same_row {world : World} (books : Books world) {first second : MediaAsset}
    (firstListed : first ∈ world.assets) (secondListed : second ∈ world.assets)
    (sameId : first.id = second.id) : first = second :=
  List.inj_on_of_nodup_map books.ids firstListed secondListed sameId

theorem Books.same_image {world : World} (books : Books world) {first second : ProductImage}
    (firstListed : first ∈ world.images) (secondListed : second ∈ world.images)
    (sameId : first.id = second.id) : first = second :=
  List.inj_on_of_nodup_map (List.nodup_append.mp books.imageIds).1 firstListed secondListed sameId

theorem Books.unpictured {world : World} (books : Books world) (asset : MediaAsset)
    (listed : asset ∈ world.assets) (free : asset.status ≠ .attached) (image : ProductImage)
    (member : image ∈ world.images) : image.assetId ≠ asset.id := by
  intro same
  obtain ⟨shown, shownListed, shownId, attached⟩ := books.live image member
  cases books.same_row shownListed listed (shownId.trans same)
  exact free attached

theorem findAsset_some (world : World) (assetId : Nat) (asset : MediaAsset)
    (found : world.findAsset assetId = some asset) :
    asset ∈ world.assets ∧ asset.id = assetId :=
  ⟨List.mem_of_find?_eq_some found, by simpa using List.find?_some found⟩

theorem findAsset_none (world : World) (assetId : Nat) (absent : world.findAsset assetId = none)
    (asset : MediaAsset) (listed : asset ∈ world.assets) : asset.id ≠ assetId := by
  have none := List.find?_eq_none.mp absent asset listed
  simpa using none

theorem Books.found {world : World} (books : Books world) (asset : MediaAsset)
    (listed : asset ∈ world.assets) : world.findAsset asset.id = some asset := by
  cases found : world.findAsset asset.id with
  | none => exact absurd rfl (findAsset_none world asset.id found asset listed)
  | some other =>
      obtain ⟨otherListed, sameId⟩ := findAsset_some world asset.id other found
      rw [books.same_row otherListed listed sameId]

/-! ## What requests hold -/

/-- The key a request remembers is that of the asset it names, now and after its row is gone. -/
structure Names (world : World) (assetId : Nat) (storageKey : String) : Prop where
  minted : assetId ∈ world.minted
  spelled : ∃ contentType, storageKey = storageKeyFor assetId contentType
  row : ∀ found ∈ world.assets, found.id = assetId → found.storageKey = storageKey

structure Claimed (world : World) (asset : ClaimedAsset) : Prop where
  names : Names world asset.id asset.storageKey
  sweeping : ∀ found ∈ world.assets, found.id = asset.id → found.status = .sweeping

structure Headed (world : World) (asset : MediaAsset) : Prop where
  names : Names world asset.id asset.storageKey
  stored : ∀ found ∈ world.assets, found.id = asset.id → found.status = .pending →
    ∃ object ∈ world.objects, object.key = found.storageKey

/-- What the phase of a request says about the rows it has locked, inserted or claimed. -/
def Holds (world : World) (slot : Nat) : Phase → Prop
  | .heading asset => Names world asset.id asset.storageKey
  | .marking asset _ => Headed world asset
  | .insertingImage => ∀ image, (slot, image) ∉ world.inserted
  | .deletingImage => ∀ imageId, (slot, imageId) ∉ world.deleting
  | .lockingForAttach image => (slot, image) ∈ world.inserted
  | .attaching image =>
      (slot, image) ∈ world.inserted ∧ world.locks image.assetId = some slot ∧
        ∃ asset ∈ world.assets, asset.id = image.assetId ∧ asset.status = .ready
  | .lockingForDetach image => image ∈ world.images ∧ (slot, image.id) ∈ world.deleting
  | .detaching image =>
      image ∈ world.images ∧ (slot, image.id) ∈ world.deleting ∧
        world.locks image.assetId = some slot
  | .claiming _ _ _ taken => ∀ assetId ∈ taken, world.locks assetId = some slot ∧
      ∀ asset ∈ world.assets, asset.id = assetId → asset.status ≠ .attached
  | .deletingObject claimed => ∀ asset ∈ claimed, Claimed world asset
  | .deletingRow asset claimed =>
      Claimed world asset ∧ asset.storageKey ∈ world.deletedObjects ∧
        ∀ later ∈ claimed, Claimed world later
  | _ => True

/-- What never comes back: ids, deleted keys, and the way of an asset into the sweep. -/
structure Later (world next : World) : Prop where
  minted : ∀ assetId ∈ world.minted, assetId ∈ next.minted
  deletedObjects : ∀ storageKey ∈ world.deletedObjects, storageKey ∈ next.deletedObjects
  rows : ∀ found ∈ next.assets, found.id ∈ world.minted → ∃ old ∈ world.assets,
    old.id = found.id ∧ old.storageKey = found.storageKey ∧
      (old.status = .sweeping → found.status = .sweeping) ∧
      (found.status = .pending → old.status = .pending)
  objects : ∀ found ∈ next.assets, found.status ≠ .sweeping → ∀ object ∈ world.objects,
    object.key = found.storageKey → ∃ kept ∈ next.objects, kept.key = found.storageKey

theorem Names.later {world next : World} {assetId : Nat} {storageKey : String}
    (names : Names world assetId storageKey) (later : Later world next) :
    Names next assetId storageKey := by
  refine ⟨later.minted assetId names.minted, names.spelled, ?_⟩
  rintro found listed rfl
  obtain ⟨old, oldListed, sameId, sameKey, -⟩ := later.rows found listed names.minted
  rw [← sameKey]
  exact names.row old oldListed sameId

theorem Claimed.later {world next : World} {asset : ClaimedAsset} (claimed : Claimed world asset)
    (later : Later world next) : Claimed next asset := by
  refine ⟨claimed.names.later later, ?_⟩
  intro found listed sameId
  have known : found.id ∈ world.minted := by
    rw [sameId]
    exact claimed.names.minted
  obtain ⟨old, oldListed, oldId, -, sweeping, -⟩ := later.rows found listed known
  exact sweeping (claimed.sweeping old oldListed (oldId.trans sameId))

theorem Headed.later {world next : World} {asset : MediaAsset} (headed : Headed world asset)
    (later : Later world next) : Headed next asset := by
  refine ⟨headed.names.later later, ?_⟩
  intro found listed sameId pending
  have known : found.id ∈ world.minted := by
    rw [sameId]
    exact headed.names.minted
  obtain ⟨old, oldListed, oldId, oldKey, -, waits⟩ := later.rows found listed known
  obtain ⟨object, kept, key⟩ :=
    headed.stored old oldListed (oldId.trans sameId) (waits pending)
  have awake : found.status ≠ .sweeping := by
    rw [pending]
    decide
  exact later.objects found listed awake object kept (key.trans oldKey)

/-- A step of one request leaves what the others hold. -/
structure Frame (world next : World) (slot : Nat) : Prop where
  later : Later world next
  inserted : ∀ holder image, holder ≠ slot →
    ((holder, image) ∈ next.inserted ↔ (holder, image) ∈ world.inserted)
  deleting : ∀ holder imageId, holder ≠ slot →
    ((holder, imageId) ∈ next.deleting ↔ (holder, imageId) ∈ world.deleting)
  images : ∀ holder image, holder ≠ slot → (holder, image.id) ∈ world.deleting →
    image ∈ world.images → image ∈ next.images
  locks : ∀ holder assetId, holder ≠ slot → world.locks assetId = some holder →
    next.locks assetId = some holder
  rows : ∀ holder, holder ≠ slot → ∀ asset ∈ world.assets,
    world.locks asset.id = some holder → asset ∈ next.assets
  attached : ∀ holder, holder ≠ slot → ∀ asset ∈ next.assets,
    world.locks asset.id = some holder → asset.status = .attached → asset ∈ world.assets

theorem Holds.framed {world next : World} {slot holder : Nat} {phase : Phase}
    (holds : Holds world holder phase) (frame : Frame world next slot) (apart : holder ≠ slot) :
    Holds next holder phase := by
  cases phase with
  | heading asset => exact Names.later holds frame.later
  | marking asset sizeBytes => exact Headed.later holds frame.later
  | insertingImage =>
      intro image member
      exact holds image ((frame.inserted holder image apart).mp member)
  | deletingImage =>
      intro imageId member
      exact holds imageId ((frame.deleting holder imageId apart).mp member)
  | lockingForAttach image => exact (frame.inserted holder image apart).mpr holds
  | attaching image =>
      obtain ⟨inserted, locked, asset, listed, sameId, ready⟩ := holds
      have here : world.locks asset.id = some holder := by
        rw [sameId]
        exact locked
      exact ⟨(frame.inserted holder image apart).mpr inserted,
        frame.locks holder image.assetId apart locked, asset,
        frame.rows holder apart asset listed here, sameId, ready⟩
  | lockingForDetach image =>
      exact ⟨frame.images holder image apart holds.2 holds.1,
        (frame.deleting holder image.id apart).mpr holds.2⟩
  | detaching image =>
      obtain ⟨listed, deleting, locked⟩ := holds
      exact ⟨frame.images holder image apart deleting listed,
        (frame.deleting holder image.id apart).mpr deleting,
        frame.locks holder image.assetId apart locked⟩
  | claiming now staleClaimBefore chosen taken =>
      intro assetId member
      obtain ⟨locked, free⟩ := holds assetId member
      refine ⟨frame.locks holder assetId apart locked, ?_⟩
      rintro asset listed rfl attached
      exact free asset (frame.attached holder apart asset listed locked attached) rfl attached
  | deletingObject claimed =>
      intro asset member
      exact (holds asset member).later frame.later
  | deletingRow asset claimed =>
      obtain ⟨here, deleted, rest⟩ := holds
      refine ⟨here.later frame.later, frame.later.deletedObjects _ deleted, ?_⟩
      intro other member
      exact (rest other member).later frame.later
  | inserting | presigning | reading | finished | failed => trivial

end Commerce.Media
