import Commerce.Media.Writes

/-!
# Sweeps and the images of products

A sweep deletes the object of an asset only after the claim on it is
committed, and its row only after the object.  An attach finds the asset ready
under the lock the claim waits for, so no product shows what a sweep took.
-/

set_option autoImplicit false

namespace Commerce.Media

open Runs

variable (maxBytes : Nat)

/-! ## What a statement finds out -/

theorem Books.names {world : World} (books : Books world) (asset : MediaAsset)
    (listed : asset ∈ world.assets) : Names world asset.id asset.storageKey := by
  refine ⟨books.minted asset listed, ⟨asset.contentType, books.keyed asset listed⟩, ?_⟩
  intro found member sameId
  rw [books.same_row member listed sameId]

theorem canTransition_attached (status : AssetStatus)
    (allowed : canTransition status .attached = true) : status = .ready := by
  cases status <;> first | rfl | cases allowed

theorem eligible_unattached (now staleClaimBefore : Int) (asset : MediaAsset)
    (chosen : eligible now staleClaimBefore asset = true) : asset.status ≠ .attached := by
  intro attached
  simp [eligible, attached, reclaimable] at chosen

def Proceeds (world : World) (slot : Nat) (effect : Effect) (phase : Phase) : Prop :=
  Licensed world slot effect ∧
    ∀ next, world.apply slot effect = some next → Holds next slot phase

theorem proceeds_none (world : World) (slot : Nat) (phase : Phase)
    (holds : Holds world slot phase) : Proceeds world slot .none phase := by
  refine ⟨trivial, ?_⟩
  intro next applied
  cases applied
  exact holds

theorem proceeds_complete (world : World) (slot : Nat) (asset : MediaAsset)
    (sizeBytes : Nat) (process : Process) (choice : Choice) (effect : Effect) (phase : Phase)
    (here : process.phase = .marking asset sizeBytes) (headed : Headed world asset)
    (ran : statement maxBytes world slot process choice = some (effect, phase)) :
    Proceeds world slot effect phase := by
  simp only [statement, here] at ran
  split at ran
  · cases ran
  · rename_i free
    split at ran
    · rename_i found row
      split at ran
      · rename_i pending
        cases ran
        obtain ⟨listed, sameId⟩ := findAsset_some world asset.id found row
        refine ⟨⟨by simpa using free, found, listed, sameId, pending,
          headed.stored found listed sameId pending⟩, ?_⟩
        intro next _
        trivial
      · cases ran
        exact proceeds_none world slot .failed trivial
    · cases ran
      exact proceeds_none world slot .failed trivial

theorem proceeds_head (world : World) (slot : Nat) (asset : MediaAsset) (process : Process)
    (choice : Choice) (effect : Effect) (phase : Phase) (here : process.phase = .heading asset)
    (names : Names world asset.id asset.storageKey)
    (ran : statement maxBytes world slot process choice = some (effect, phase)) :
    Proceeds world slot effect phase := by
  simp only [statement, here] at ran
  split at ran
  · rename_i head found
    split at ran
    · cases ran
      exact proceeds_none world slot .failed trivial
    · split at ran
      · cases ran
        exact proceeds_none world slot .failed trivial
      · cases ran
        refine proceeds_none world slot _ ⟨names, ?_⟩
        intro row listed sameId _
        have key : head.key = asset.storageKey := by simpa using List.find?_some found
        exact ⟨head, List.mem_of_find?_eq_some found, key.trans (names.row row listed sameId).symm⟩
  · cases ran
    exact proceeds_none world slot .failed trivial

theorem proceeds_insertImage (world : World) (slot productId assetId : Nat) (process : Process)
    (choice : Choice) (effect : Effect) (phase : Phase) (here : process.phase = .insertingImage)
    (attach : process.operation = .attach productId assetId)
    (none : ∀ image, (slot, image) ∉ world.inserted)
    (ran : statement maxBytes world slot process choice = some (effect, phase)) :
    Proceeds world slot effect phase := by
  simp only [statement, here, attach] at ran
  split at ran
  · cases ran
  · rename_i foreign
    split at ran
    · cases ran
      exact proceeds_none world slot .failed trivial
    · rename_i committed
      cases ran
      refine ⟨⟨?_, ?_⟩, ?_⟩
      · intro member
        obtain ⟨image, listed, same⟩ := List.mem_map.mp member
        refine committed (List.any_eq_true.mpr ⟨image, listed, ?_⟩)
        simp [show image.id = choice.id from same]
      · intro member
        obtain ⟨⟨holder, image⟩, listed, same⟩ := List.mem_map.mp member
        have other : holder ≠ slot := by
          rintro rfl
          exact none image listed
        refine foreign (List.any_eq_true.mpr ⟨_, listed, ?_⟩)
        simp [other, show image.id = choice.id from same]
      · intro next applied
        cases applied
        exact List.mem_cons_self

theorem proceeds_lockForAttach (world : World) (slot : Nat) (image : ProductImage)
    (process : Process) (choice : Choice) (effect : Effect) (phase : Phase)
    (here : process.phase = .lockingForAttach image) (inserted : (slot, image) ∈ world.inserted)
    (ran : statement maxBytes world slot process choice = some (effect, phase)) :
    Proceeds world slot effect phase := by
  simp only [statement, here] at ran
  split at ran
  · cases ran
  · rename_i free
    split at ran
    · rename_i asset found
      split at ran
      · rename_i allowed
        cases ran
        obtain ⟨listed, sameId⟩ := findAsset_some world image.assetId asset found
        refine ⟨by simpa [Licensed] using free, ?_⟩
        intro next applied
        cases applied
        exact ⟨inserted, Function.update_self .., asset, listed, sameId,
          canTransition_attached asset.status allowed⟩
      · cases ran
        exact ⟨trivial, fun _ _ => trivial⟩
    · cases ran
      exact ⟨trivial, fun _ _ => trivial⟩

theorem proceeds_deleteImage (world : World) (slot productId imageId : Nat) (process : Process)
    (choice : Choice) (effect : Effect) (phase : Phase) (here : process.phase = .deletingImage)
    (detach : process.operation = .detach productId imageId)
    (none : ∀ imageId, (slot, imageId) ∉ world.deleting)
    (ran : statement maxBytes world slot process choice = some (effect, phase)) :
    Proceeds world slot effect phase := by
  simp only [statement, here, detach] at ran
  split at ran
  · cases ran
  · rename_i foreign
    split at ran
    · rename_i image found
      cases ran
      have sameId : image.id = imageId := by
        have both := List.find?_some found
        simp only [Bool.and_eq_true, beq_iff_eq] at both
        exact both.1
      constructor
      · intro member
        obtain ⟨⟨holder, other⟩, listed, same⟩ := List.mem_map.mp member
        have apart : holder ≠ slot := by
          rintro rfl
          exact none other listed
        refine foreign (List.any_eq_true.mpr ⟨_, listed, ?_⟩)
        simp [apart, show other = imageId from same]
      · intro next applied
        cases applied
        refine ⟨List.mem_of_find?_eq_some found, ?_⟩
        rw [sameId]
        exact List.mem_cons_self
    · cases ran
      exact proceeds_none world slot .finished trivial

theorem proceeds_lockForDetach (world : World) (books : Books world) (slot : Nat)
    (image : ProductImage) (process : Process) (choice : Choice) (effect : Effect) (phase : Phase)
    (here : process.phase = .lockingForDetach image)
    (holds : Holds world slot (.lockingForDetach image))
    (ran : statement maxBytes world slot process choice = some (effect, phase)) :
    Proceeds world slot effect phase := by
  simp only [statement, here] at ran
  split at ran
  · cases ran
  · rename_i free
    split at ran
    · split at ran
      · cases ran
        refine ⟨by simpa [Licensed] using free, ?_⟩
        intro next applied
        cases applied
        exact ⟨holds.1, holds.2, Function.update_self ..⟩
      · cases ran
        exact ⟨trivial, fun _ _ => trivial⟩
    · rename_i absent
      obtain ⟨asset, listed, sameId, -⟩ := books.live image holds.1
      exact absurd sameId (findAsset_none world image.assetId absent asset listed)

theorem proceeds_claim (world : World) (slot assetId : Nat) (now staleClaimBefore : Int)
    (chosen taken : List Nat) (process : Process) (choice : Choice) (effect : Effect)
    (phase : Phase) (here : process.phase = .claiming now staleClaimBefore
      (assetId :: chosen) taken)
    (books : Books world)
    (holds : Holds world slot (.claiming now staleClaimBefore (assetId :: chosen) taken))
    (ran : statement maxBytes world slot process choice = some (effect, phase)) :
    Proceeds world slot effect phase := by
  simp only [statement, here] at ran
  split at ran
  · cases ran
  · rename_i free
    split at ran
    · rename_i matching
      cases ran
      refine ⟨by simpa [Licensed] using free, ?_⟩
      intro next applied
      cases applied
      intro other member
      by_cases same : other = assetId
      · cases same
        refine ⟨Function.update_self .., ?_⟩
        rintro asset listed rfl
        rw [books.found asset listed] at matching
        exact eligible_unattached now staleClaimBefore asset matching
      · have earlier : other ∈ taken := by
          rcases List.mem_append.mp member with old | last
          · exact old
          · exact absurd (List.mem_singleton.mp last) same
        obtain ⟨locked, unattached⟩ := holds other earlier
        exact ⟨(Function.update_of_ne same ..).trans locked, unattached⟩
    · cases ran
      exact proceeds_none world slot _ holds

theorem proceeds_commitClaim (world : World) (slot : Nat) (assetIds : List Nat) (updatedAt : Int)
    (books : Books world)
    (taken : ∀ assetId ∈ assetIds, world.locks assetId = some slot ∧
      ∀ asset ∈ world.assets, asset.id = assetId → asset.status ≠ .attached) :
    Proceeds world slot (.commitClaim assetIds updatedAt)
      (.deletingObject (claimedAssets world assetIds)) := by
  refine ⟨taken, ?_⟩
  intro next applied claimed member
  obtain ⟨assetId, wanted, returned⟩ := List.mem_filterMap.mp member
  obtain ⟨asset, found, rfl⟩ := Option.map_eq_some_iff.mp returned
  obtain ⟨listed, rfl⟩ := findAsset_some world assetId asset found
  have kept := apply_kept world next slot (.commitClaim assetIds updatedAt) books taken applied
  refine ⟨(books.names asset listed).later kept.frame.later, ?_⟩
  intro row rowListed sameId
  cases applied
  obtain ⟨old, -, rfl⟩ := List.mem_map.mp rowListed
  have oldId : old.id = asset.id := by
    have changed : (claimAsset assetIds updatedAt old).id = asset.id := sameId
    rw [← changed]
    unfold claimAsset
    split <;> rfl
  rw [claimAsset, if_pos]
  rw [oldId]
  exact wanted

theorem proceeds_deleteRow (world : World) (slot : Nat) (asset : ClaimedAsset)
    (claimed : List ClaimedAsset) (process : Process) (choice : Choice) (effect : Effect)
    (phase : Phase) (here : process.phase = .deletingRow asset claimed) (books : Books world)
    (holds : Holds world slot (.deletingRow asset claimed))
    (ran : statement maxBytes world slot process choice = some (effect, phase)) :
    Proceeds world slot effect phase := by
  obtain ⟨claim, deleted, rest⟩ := holds
  simp only [statement, here] at ran
  split at ran
  · cases ran
  · rename_i free
    split at ran
    · rename_i row found
      split at ran
      · rename_i sweeping
        cases ran
        obtain ⟨listed, sameId⟩ := findAsset_some world asset.id row found
        have licensed : Licensed world slot (.deleteRow asset.id) := by
          refine ⟨by simpa using free, row, listed, sameId, sweeping, ?_⟩
          rw [claim.names.row row listed sameId]
          exact deleted
        refine ⟨licensed, ?_⟩
        intro next applied other member
        have kept := apply_kept world next slot _ books licensed applied
        exact (rest other member).later kept.frame.later
      · cases ran
        exact proceeds_none world slot _ rest
    · cases ran
      exact proceeds_none world slot _ rest

theorem statement_proceeds (world : World) (slot : Nat) (process : Process) (choice : Choice)
    (effect : Effect) (phase : Phase) (books : Books world)
    (holds : Holds world slot process.phase)
    (ran : statement maxBytes world slot process choice = some (effect, phase)) :
    Proceeds world slot effect phase := by
  obtain ⟨operation, here⟩ := process
  cases here with
  | inserting =>
      cases operation with
      | initiate contentType uploadedBy =>
          simp only [statement] at ran
          split at ran
          · cases ran
            exact proceeds_none world slot .failed trivial
          · cases ran
            exact ⟨⟨rfl, rfl⟩, fun _ _ => trivial⟩
      | complete _ | attach _ _ | detach _ _ | sweep _ => cases ran
  | presigning =>
      cases ran
      exact proceeds_none world slot .finished trivial
  | reading =>
      cases operation with
      | complete assetId =>
          simp only [statement] at ran
          split at ran
          · rename_i asset found
            cases ran
            refine proceeds_none world slot _ ?_
            split
            · exact books.names asset (findAsset_some world assetId asset found).1
            · trivial
          · cases ran
            exact proceeds_none world slot .failed trivial
      | initiate _ _ | attach _ _ | detach _ _ | sweep _ => cases ran
  | heading asset =>
      exact proceeds_head maxBytes world slot asset _ choice effect phase rfl holds
        ran
  | marking asset sizeBytes =>
      exact proceeds_complete maxBytes world slot asset sizeBytes _ choice effect phase rfl holds
        ran
  | insertingImage =>
      cases operation with
      | attach productId assetId =>
          exact proceeds_insertImage maxBytes world slot productId assetId _ choice effect phase rfl
            rfl holds ran
      | initiate _ _ | complete _ | detach _ _ | sweep _ => cases ran
  | lockingForAttach image =>
      exact proceeds_lockForAttach maxBytes world slot image _ choice effect phase rfl holds ran
  | attaching image =>
      cases ran
      exact ⟨holds, fun _ _ => trivial⟩
  | deletingImage =>
      cases operation with
      | detach productId imageId =>
          exact proceeds_deleteImage maxBytes world slot productId imageId _ choice effect phase rfl
            rfl holds ran
      | initiate _ _ | complete _ | attach _ _ | sweep _ => cases ran
  | lockingForDetach image =>
      exact proceeds_lockForDetach maxBytes world books slot image _ choice effect phase rfl holds
        ran
  | detaching image =>
      cases ran
      exact ⟨holds, fun _ _ => trivial⟩
  | claiming now staleClaimBefore chosen taken =>
      cases chosen with
      | cons assetId chosen =>
          exact proceeds_claim maxBytes world slot assetId now staleClaimBefore chosen taken _
            choice effect phase rfl books holds ran
      | nil =>
          cases taken with
          | cons assetId taken =>
              cases ran
              exact proceeds_commitClaim world slot (assetId :: taken) choice.now books holds
          | nil =>
              cases operation with
              | sweep batchSize =>
                  simp only [statement] at ran
                  split at ran
                  · cases ran
                    exact proceeds_none world slot .finished trivial
                  · cases ran
                    refine proceeds_none world slot _ ?_
                    intro assetId member
                    cases member
              | initiate _ _ | complete _ | attach _ _ | detach _ _ => cases ran
  | deletingObject claimed =>
      cases claimed with
      | nil =>
          cases ran
          exact proceeds_none world slot .finished trivial
      | cons asset claimed =>
          cases ran
          have licensed : Licensed world slot (.deleteObject asset.storageKey) :=
            ⟨asset, holds asset List.mem_cons_self, rfl⟩
          refine ⟨licensed, ?_⟩
          intro next applied
          have kept := apply_kept world next slot _ books licensed applied
          cases applied
          refine ⟨(holds asset List.mem_cons_self).later kept.frame.later, List.mem_cons_self, ?_⟩
          intro other member
          exact (holds other (List.mem_cons_of_mem _ member)).later kept.frame.later
  | deletingRow asset claimed =>
      exact proceeds_deleteRow maxBytes world slot asset claimed _ choice effect phase rfl books
        holds ran
  | finished => cases ran
  | failed => cases ran

/-! ## Any number of requests -/

structure Sound (world : World) : Prop where
  books : Books world
  phases : ∀ slot process, world.requests slot = some process → Holds world slot process.phase
  idle : ∀ slot, world.requests slot = none →
    (∀ image, (slot, image) ∉ world.inserted) ∧ ∀ imageId, (slot, imageId) ∉ world.deleting

theorem start_sound : Sound start := by
  refine ⟨start_books, ?_, ?_⟩
  · intro slot process serving
    cases serving
  · intro slot _
    constructor <;> intro _ member <;> cases member

theorem apply_requests (world next : World) (slot : Nat) (effect : Effect)
    (applied : world.apply slot effect = some next) : next.requests = world.requests := by
  cases effect with
  | insertAsset asset =>
      simp only [World.apply] at applied
      split at applied
      · cases applied
      · cases applied
        rfl
  | none | markReady _ _ _ _ | insertImage _ | deleteImage _ | lock _ | commitAttach _ _
  | commitDetach _ _ _ | commitDangling _ | commitClaim _ _ | deleteObject _ | deleteRow _
  | rollback =>
      cases applied
      rfl

theorem goOn_self (world : World) (slot : Nat) (process : Process) (phase : Phase) :
    (world.goOn slot process phase).requests slot = some { process with phase := phase } :=
  Function.update_self _ _ _

theorem goOn_other (world : World) (slot holder : Nat) (process : Process) (phase : Phase)
    (apart : holder ≠ slot) :
    (world.goOn slot process phase).requests holder = world.requests holder :=
  Function.update_of_ne apart _ _

theorem Sound.goOn {world next : World} (sound : Sound world) (slot : Nat) (process : Process)
    (phase : Phase) (requests : next.requests = world.requests) (kept : Kept world next slot)
    (holds : Holds next slot phase) : Sound (next.goOn slot process phase) := by
  have books := kept.books
  have still (holder : Nat) (held : Phase) (there : Holds next holder held) :
      Holds (next.goOn slot process phase) holder held := by
    cases held with
    | heading _ => exact ⟨there.minted, there.spelled, there.row⟩
    | marking _ _ =>
        exact ⟨⟨there.names.minted, there.names.spelled, there.names.row⟩, there.stored⟩
    | deletingObject _ =>
        intro asset member
        have claim := there asset member
        exact ⟨⟨claim.names.minted, claim.names.spelled, claim.names.row⟩, claim.sweeping⟩
    | deletingRow _ _ =>
        obtain ⟨claim, deleted, rest⟩ := there
        refine ⟨⟨⟨claim.names.minted, claim.names.spelled, claim.names.row⟩, claim.sweeping⟩,
          deleted, ?_⟩
        intro asset member
        have later := rest asset member
        exact ⟨⟨later.names.minted, later.names.spelled, later.names.row⟩, later.sweeping⟩
    | inserting | presigning | reading | insertingImage | lockingForAttach _ | attaching _
    | deletingImage | lockingForDetach _ | detaching _ | claiming _ _ _ _ | finished | failed =>
        exact there
  refine ⟨⟨books.ids, books.keyed, books.minted, books.imageIds, books.one, books.holders,
    books.live, books.pictured, books.stored, books.swept, books.spent, books.gone⟩, ?_, ?_⟩
  · intro holder other serving
    refine still holder other.phase ?_
    by_cases same : holder = slot
    · cases same
      rw [goOn_self] at serving
      cases serving
      exact holds
    · have before : world.requests holder = some other := by
        rw [← requests, ← goOn_other next slot holder process phase same]
        exact serving
      exact (sound.phases holder other before).framed kept.frame same
  · intro holder idle
    have apart : holder ≠ slot := by
      rintro rfl
      rw [goOn_self] at idle
      cases idle
    have before : world.requests holder = none := by
      rw [← requests, ← goOn_other next slot holder process phase apart]
      exact idle
    obtain ⟨noImage, noDelete⟩ := sound.idle holder before
    constructor
    · intro image member
      exact noImage image ((kept.frame.inserted holder image apart).mp member)
    · intro imageId member
      exact noDelete imageId ((kept.frame.deleting holder imageId apart).mp member)

theorem upload_kept (world : World) (slot : Nat) (object : StoredObject) (books : Books world) :
    Kept world { world with
      objects := object :: world.objects.filter (·.key != object.key) } slot := by
  have survives (storageKey : String) (old : StoredObject) (kept : old ∈ world.objects)
      (key : old.key = storageKey) :
      ∃ later ∈ object :: world.objects.filter (·.key != object.key), later.key = storageKey := by
    by_cases same : old.key = object.key
    · exact ⟨object, List.mem_cons_self, same.symm.trans key⟩
    · exact ⟨old, List.mem_cons_of_mem _ (List.mem_filter.mpr ⟨kept, by simpa using same⟩), key⟩
  constructor
  · refine ⟨books.ids, books.keyed, books.minted, books.imageIds, books.one, books.holders,
      books.live, books.pictured, ?_, books.swept, books.spent, books.gone⟩
    intro asset listed uploaded
    obtain ⟨old, kept, key⟩ := books.stored asset listed uploaded
    exact survives asset.storageKey old kept key
  · have frame := frame_refl world slot
    refine ⟨⟨frame.later.minted, frame.later.deletedObjects, frame.later.rows, ?_⟩,
      frame.inserted, frame.deleting, frame.images, frame.locks, frame.rows, frame.attached⟩
    intro asset _ _ old kept key
    exact survives asset.storageKey old kept key

/-- Each step keeps the invariant, and what it does to the rows is a write of one request. -/
theorem step_sound (world next : World) (event : Event) (sound : Sound world)
    (stepped : step maxBytes world event = some next) : Sound next ∧ Later world next := by
  cases event with
  | arrive slot operation =>
      simp only [step] at stepped
      split at stepped
      · rename_i idle
        cases stepped
        obtain ⟨noImage, noDelete⟩ := sound.idle slot idle
        have holds : Holds world slot operation.first := by
          cases operation with
          | initiate _ _ => trivial
          | complete _ => trivial
          | attach _ _ => exact noImage
          | detach _ _ => exact noDelete
          | sweep _ =>
              intro assetId member
              cases member
        have kept : Kept world world slot := ⟨sound.books, frame_refl world slot⟩
        exact ⟨sound.goOn slot _ _ rfl kept holds, later_refl world _ rfl rfl rfl rfl⟩
      · cases stepped
  | turn slot choice =>
      obtain ⟨process, serving, remaining⟩ := Option.bind_eq_some_iff.mp stepped
      obtain ⟨⟨effect, phase⟩, ran, written⟩ := Option.bind_eq_some_iff.mp remaining
      obtain ⟨after, applied, same⟩ := Option.bind_eq_some_iff.mp written
      cases same
      obtain ⟨licensed, holds⟩ := statement_proceeds maxBytes world slot process choice effect phase
        sound.books (sound.phases slot process serving) ran
      have kept := apply_kept world after slot effect sound.books licensed applied
      have later := kept.frame.later
      exact ⟨sound.goOn slot process phase (apply_requests world after slot effect applied) kept
        (holds after applied), ⟨later.minted, later.deletedObjects, later.rows, later.objects⟩⟩
  | fail slot =>
      obtain ⟨process, serving, same⟩ := Option.bind_eq_some_iff.mp stepped
      cases same
      have kept := release_kept world slot sound.books
      have later := kept.frame.later
      exact ⟨sound.goOn slot process .failed rfl kept trivial,
        ⟨later.minted, later.deletedObjects, later.rows, later.objects⟩⟩
  | upload object =>
      cases stepped
      have kept (slot : Nat) := upload_kept world slot object sound.books
      refine ⟨⟨(kept 0).books, ?_, sound.idle⟩, (kept 0).frame.later⟩
      intro slot process serving
      exact (sound.phases slot process serving).framed (kept (slot + 1)).frame (by omega)

theorem run_sound (events : List Event) (final : World)
    (success : run (step maxBytes) start events = some final) : Sound final :=
  run_preserves (step maxBytes) Sound
    (fun world event next sound stepped => (step_sound maxBytes world next event sound stepped).1)
    events start final start_sound success

/-! ## Rows and objects -/

theorem ite_id (assetId : Nat) (asset changed : MediaAsset) (same : changed.id = asset.id) :
    (if asset.id = assetId then changed else asset).id = asset.id := by
  split
  · exact same
  · rfl

theorem apply_ids (world next : World) (slot : Nat) (effect : Effect) (asset : MediaAsset)
    (listed : asset ∈ world.assets) (applied : world.apply slot effect = some next) :
    (∃ later ∈ next.assets, later.id = asset.id) ∨ effect = .deleteRow asset.id := by
  cases effect with
  | insertAsset new =>
      simp only [World.apply] at applied
      split at applied
      · cases applied
      · cases applied
        exact .inl ⟨asset, List.mem_append_left _ listed, rfl⟩
  | markReady assetId sizeBytes expiresAt updatedAt =>
      cases applied
      exact .inl ⟨_, List.mem_map_of_mem listed, ite_id assetId asset _ rfl⟩
  | commitAttach image updatedAt =>
      cases applied
      exact .inl ⟨_, List.mem_map_of_mem listed, ite_id image.assetId asset _ rfl⟩
  | commitDetach image expiresAt updatedAt =>
      cases applied
      exact .inl ⟨_, List.mem_map_of_mem listed, ite_id image.assetId asset _ rfl⟩
  | commitClaim assetIds updatedAt =>
      cases applied
      refine .inl ⟨_, List.mem_map_of_mem listed, ?_⟩
      unfold claimAsset
      split <;> rfl
  | deleteRow assetId =>
      cases applied
      by_cases same : asset.id = assetId
      · exact .inr (congrArg _ same.symm)
      · exact .inl ⟨asset, List.mem_filter.mpr ⟨listed, by simpa using same⟩, rfl⟩
  | none | insertImage _ | deleteImage _ | lock _ | commitDangling _ | deleteObject _
  | rollback =>
      cases applied
      exact .inl ⟨asset, listed, rfl⟩

/-- A row is deleted only after its object was. -/
theorem step_deletes (world next : World) (event : Event) (sound : Sound world)
    (stepped : step maxBytes world event = some next) (asset : MediaAsset)
    (listed : asset ∈ world.assets) (gone : ∀ later ∈ next.assets, later.id ≠ asset.id) :
    asset.status = .sweeping ∧ asset.storageKey ∈ world.deletedObjects := by
  have stays (same : next.assets = world.assets) : False := by
    rw [same] at gone
    exact gone asset listed rfl
  cases event with
  | arrive slot operation =>
      simp only [step] at stepped
      split at stepped
      · cases stepped
        exact absurd (stays rfl) id
      · cases stepped
  | turn slot choice =>
      obtain ⟨process, serving, remaining⟩ := Option.bind_eq_some_iff.mp stepped
      obtain ⟨⟨effect, phase⟩, ran, written⟩ := Option.bind_eq_some_iff.mp remaining
      obtain ⟨after, applied, same⟩ := Option.bind_eq_some_iff.mp written
      cases same
      rcases apply_ids world after slot effect asset listed applied with ⟨later, kept, sameId⟩ | rfl
      · exact absurd sameId (gone later kept)
      · obtain ⟨⟨-, row, rowListed, sameId, sweeping, deleted⟩, -⟩ :=
          statement_proceeds maxBytes world slot process choice _ phase sound.books
            (sound.phases slot process serving) ran
        cases sound.books.same_row rowListed listed sameId
        exact ⟨sweeping, deleted⟩
  | fail slot =>
      obtain ⟨process, serving, same⟩ := Option.bind_eq_some_iff.mp stepped
      cases same
      exact absurd (stays rfl) id
  | upload object =>
      cases stepped
      exact absurd (stays rfl) id

/-- An image shows an attached asset whose object is there; an attached asset is shown by one
image; a swept asset leaves the sweep by the deletion of its row, and that follows the deletion
of its object. -/
theorem bytes_outlive_images (events : List Event) (final : World)
    (success : run (step maxBytes) start events = some final) :
    (∀ image ∈ final.images, ∃ asset, final.findAsset image.assetId = some asset ∧
      asset.status = .attached ∧ asset.storageKey ∉ final.deletedObjects ∧
        ∃ object ∈ final.objects, object.key = asset.storageKey) ∧
    (∀ asset ∈ final.assets, asset.status = .attached →
      final.images.countP (·.assetId == asset.id) = 1) ∧
    (∀ asset ∈ final.deletedRows, asset.storageKey ∈ final.deletedObjects) ∧
    ∀ event next, step maxBytes final event = some next → ∀ asset ∈ final.assets,
      (asset.status = .sweeping →
        (∀ later ∈ next.assets, later.id = asset.id → later.status = .sweeping)) ∧
      ((∀ later ∈ next.assets, later.id ≠ asset.id) →
        asset.status = .sweeping ∧ asset.storageKey ∈ final.deletedObjects) := by
  have sound := run_sound maxBytes events final success
  have books := sound.books
  refine ⟨?_, ?_, books.gone, ?_⟩
  · intro image member
    obtain ⟨asset, listed, sameId, attached⟩ := books.live image member
    refine ⟨asset, ?_, attached, ?_, books.stored asset listed (by rw [attached]; rfl)⟩
    · rw [← sameId]
      exact books.found asset listed
    · intro deleted
      have asleep := books.swept asset listed deleted
      rw [attached] at asleep
      cases asleep
  · intro asset listed attached
    obtain ⟨image, member, sameId⟩ := books.pictured asset listed attached
    have counted : final.images.countP (·.assetId == asset.id) =
        (final.images.map (·.assetId)).count asset.id := by
      rw [List.count, List.countP_map]
      rfl
    rw [counted]
    exact List.count_eq_one_of_mem books.one (List.mem_map.mpr ⟨image, member, sameId⟩)
  · intro event next stepped asset listed
    refine ⟨?_, step_deletes maxBytes final next event sound stepped asset listed⟩
    intro sweeping later laterListed sameId
    have known : later.id ∈ final.minted := by
      rw [sameId]
      exact books.minted asset listed
    obtain ⟨old, oldListed, oldId, -, stays, -⟩ :=
      (step_sound maxBytes final next event sound stepped).2.rows later laterListed known
    cases books.same_row oldListed listed (oldId.trans sameId)
    exact stays sweeping

/-- One asset is attached; another expires, and the sweep that claims it dies after deleting its
object. -/
def interruptedSweep : List Event :=
  [.arrive 0 (.initiate .jpeg 9), .turn 0 ⟨1, 0, 100, [], 60⟩, .turn 0 ⟨0, 1, 0, [], 60⟩,
    .upload ⟨storageKeyFor 1 .jpeg, 5, some .jpeg⟩,
    .arrive 1 (.complete 1), .turn 1 ⟨0, 2, 0, [], 60⟩, .turn 1 ⟨0, 3, 0, [], 60⟩,
    .turn 1 ⟨0, 4, 200, [], 60⟩,
    .arrive 2 (.attach 7 1), .turn 2 ⟨3, 5, 0, [], 60⟩, .turn 2 ⟨0, 6, 0, [], 60⟩,
    .turn 2 ⟨0, 7, 0, [], 60⟩,
    .arrive 3 (.initiate .png 9), .turn 3 ⟨2, 8, 100, [], 60⟩, .turn 3 ⟨0, 9, 0, [], 60⟩,
    .arrive 4 (.sweep 10), .turn 4 ⟨0, 1000, 0, [1, 2], 60⟩, .turn 4 ⟨0, 1001, 0, [], 60⟩,
    .turn 4 ⟨0, 1002, 0, [], 60⟩, .turn 4 ⟨0, 1003, 0, [], 60⟩, .fail 4]

def laterPass : List Event :=
  [.arrive 5 (.sweep 10), .turn 5 ⟨0, 5000, 0, [1, 2], 60⟩, .turn 5 ⟨0, 5001, 0, [], 60⟩,
    .turn 5 ⟨0, 5002, 0, [], 60⟩, .turn 5 ⟨0, 5003, 0, [], 60⟩, .turn 5 ⟨0, 5004, 0, [], 60⟩]

theorem bytes_outlive_images_interrupted :
    ∃ final, run (step 100) start (interruptedSweep ++ laterPass) = some final ∧
      final.images = [⟨3, 7, 1⟩] ∧ final.deletedRows.length = 1 ∧
      (∀ image ∈ final.images, ∃ asset, final.findAsset image.assetId = some asset ∧
        asset.status = .attached ∧ asset.storageKey ∉ final.deletedObjects ∧
          ∃ object ∈ final.objects, object.key = asset.storageKey) ∧
      ∀ asset ∈ final.deletedRows, asset.storageKey ∈ final.deletedObjects := by
  have counted : (run (step 100) start (interruptedSweep ++ laterPass)).map
      (fun final => (final.images, final.deletedRows.length)) = some ([⟨3, 7, 1⟩], 1) := by
    decide +kernel
  obtain ⟨final, success, same⟩ := Option.map_eq_some_iff.mp counted
  obtain ⟨images, rows⟩ := Prod.mk.inj same
  have outlives := bytes_outlive_images 100 (interruptedSweep ++ laterPass) final success
  exact ⟨final, success, images, rows, outlives.1, outlives.2.2.1⟩

end Commerce.Media
