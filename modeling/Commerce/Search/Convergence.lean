import Commerce.Lib.Runs
import Commerce.Search.Tracking

/-!
# The index follows the catalog

Whenever every event that the catalog committed has had a delivery run to its
end, search holds exactly what the catalog shows, whatever is still in flight.
An archive of a category appends no event.  It counts on there being no active
product in the category, and a patch that makes one active without naming its
category takes no lock against that count.
-/

set_option autoImplicit false

namespace Commerce.Listing

open Results

variable {marks : Marks} {rows next : Rows} {world after : World}

/-! ## Archives of categories -/

def Rows.Active (rows : Rows) (categoryId : Nat) : Prop :=
  ∃ row ∈ rows.products, row.categoryId = categoryId ∧ row.status = .active

/-- A patch that makes a product of the category active and names no category. -/
def AdminWrite.revives (rows : Rows) (categoryId : Nat) : AdminWrite → Bool
  | .updateProduct id data =>
      data.categoryId.isNone && data.status == some .active &&
        rows.categoryOf id == some categoryId
  | .createCategory .. | .updateCategory .. | .createProduct .. | .archiveProduct _
  | .createSku .. | .updateSku .. | .archiveSku .. | .setPrice .. => false

theorem not_active_of_unarchived (rows : Rows) (categoryId : Nat)
    (none : ¬ 0 < unarchivedProducts rows categoryId) : ¬ rows.Active categoryId := by
  intro active
  obtain ⟨row, stored, filed, status⟩ := active
  refine none (List.length_pos_of_mem (List.mem_filter.mpr ⟨stored, ?_⟩))
  rw [filed, status, beq_self_eq_true]
  rfl

theorem active_update (id : Nat) (change : ProductRow → ProductRow) (categoryId : Nat)
    (kept : ∀ row ∈ rows.products, row.id = id → (change row).categoryId = categoryId →
      (change row).status = .active → row.categoryId = categoryId ∧ row.status = .active)
    (active : Rows.Active { rows with products := Tables.update (·.id) id change rows.products }
      categoryId) : rows.Active categoryId := by
  obtain ⟨row, stored, filed, status⟩ := active
  obtain ⟨before, among, same⟩ := (Tables.mem_update ..).mp stored
  rw [← same] at filed status
  split at filed
  · rename_i hit
    rw [if_pos hit] at status
    obtain ⟨filed, status⟩ := kept before among hit filed status
    exact ⟨before, among, filed, status⟩
  · rename_i miss
    rw [if_neg miss] at status
    exact ⟨before, among, filed, status⟩

theorem active_mark (productId categoryId : Nat)
    (active : (markProductChanged rows productId).1.Active categoryId) :
    rows.Active categoryId := by
  unfold markProductChanged at active
  split at active
  · exact active
  · exact active_update productId ProductRow.bump categoryId
      (fun _ _ _ filed status => ⟨filed, status⟩) active

theorem active_bump (rows : Rows) (categoryId category : Nat) (afterId : Option Nat) (limit : Nat)
    (active : (bumpCategoryProducts rows category afterId limit).2.Active categoryId) :
    rows.Active categoryId := by
  obtain ⟨row, stored, filed, status⟩ := active
  obtain ⟨before, among, same⟩ := List.mem_map.mp stored
  refine ⟨before, among, ?_⟩
  rw [← same] at filed status
  constructor
  · rw [← filed]
    split <;> rfl
  · rw [← status]
    split <;> rfl

theorem createProduct_active (id now : Nat) (data : CreateProductData)
    (committed : Committed AdminProduct)
    (created : createProduct rows id now data = .ok committed) (categoryId : Nat)
    (active : committed.rows.Active categoryId) :
    rows.Active categoryId ∨ data.categoryId = categoryId := by
  obtain ⟨_, -, created⟩ := (bind_eq_ok _ _ _).mp created
  split at created
  · cases created
  · cases created
    obtain ⟨row, stored, filed, status⟩ := active
    rcases List.mem_append.mp stored with old | new
    · exact .inl ⟨row, old, filed, status⟩
    · rw [List.mem_singleton.mp new] at filed
      exact .inr filed

theorem updateProduct_active (keyed : rows.Keyed) (id : Nat) (data : UpdateProductData)
    (committed : Committed (Option AdminProduct))
    (updated : updateProduct rows id data = .ok committed) (categoryId : Nat)
    (unlocked : data.categoryId ≠ some categoryId)
    (unrevived : (AdminWrite.updateProduct id data).revives rows categoryId = false)
    (active : committed.rows.Active categoryId) : rows.Active categoryId := by
  unfold updateProduct at updated
  split at updated
  · cases updated
    exact active
  · obtain ⟨_, -, updated⟩ := (bind_eq_ok _ _ _).mp updated
    split at updated
    · cases updated
      exact active
    · dsimp only at updated
      split at updated
      · cases updated
      · cases updated
        refine active_update id data.set categoryId (fun row stored hit filed status => ?_) active
        cases moved : data.categoryId with
        | some movedTo =>
            simp only [UpdateProductData.set, moved, Option.getD_some] at filed
            exact absurd (moved.trans (congrArg some filed)) unlocked
        | none =>
            simp only [UpdateProductData.set, moved, Option.getD_none] at filed status
            refine ⟨filed, ?_⟩
            cases asked : data.status with
            | none =>
                rw [asked] at status
                exact status
            | some wanted =>
                rw [asked, Option.getD_some] at status
                have filing : rows.categoryOf id = some categoryId :=
                  (categoryOf_iff categoryId keyed id).mpr ⟨row, stored, hit, filed⟩
                simp [AdminWrite.revives, moved, asked, status, filing] at unrevived

theorem archiveProduct_active (id categoryId : Nat)
    (active : (archiveProduct rows id).rows.Active categoryId) : rows.Active categoryId := by
  unfold archiveProduct at active
  split at active
  · exact active
  · refine active_update id ProductRow.archive categoryId (fun _ _ _ _ status => ?_) active
    cases status

theorem raised_active (productId categoryId : Nat)
    (products : next.products = rows.products ∨
      next.products = (markProductChanged rows productId).1.products)
    (active : next.Active categoryId) : rows.Active categoryId := by
  obtain ⟨row, stored, filed, status⟩ := active
  rcases products with same | marked
  · exact ⟨row, same ▸ stored, filed, status⟩
  · exact active_mark productId categoryId ⟨row, marked ▸ stored, filed, status⟩

theorem updateCategory_products (id : Nat) (data : UpdateCategoryData)
    (committed : Committed (Option CategoryRow))
    (updated : updateCategory rows id data = .ok committed) :
    committed.rows.products = rows.products := by
  unfold updateCategory at updated
  split at updated
  · cases updated
    rfl
  · split at updated
    · cases updated
      rfl
    · dsimp only at updated
      split at updated <;> cases updated
      rfl

theorem createCategory_products (id now : Nat) (data : CreateCategoryData)
    (committed : Committed CategoryRow)
    (created : createCategory rows id now data = .ok committed) :
    committed.rows.products = rows.products := by
  unfold createCategory at created
  split at created <;> cases created
  rfl

theorem createSku_products (id now productId : Nat) (data : CreateSkuData)
    (committed : Committed VariantRow)
    (created : createSku rows id now productId data = .ok committed) :
    committed.rows.products = (markProductChanged rows productId).1.products := by
  unfold createSku at created
  split at created
  · cases created
  · split at created <;> cases created
    rfl

theorem updateSku_products (id : Nat) (data : UpdateSkuData)
    (committed : Committed (Option VariantRow)) (updated : updateSku rows id data = .ok committed) :
    ∃ productId, committed.rows.products = rows.products ∨
      committed.rows.products = (markProductChanged rows productId).1.products := by
  unfold updateSku at updated
  split at updated
  · cases updated
    exact ⟨0, .inl rfl⟩
  · split at updated
    · cases updated
      exact ⟨0, .inl rfl⟩
    · dsimp only at updated
      split at updated <;> cases updated
      exact ⟨_, .inr rfl⟩

theorem archiveSku_products (rows : Rows) (id now : Nat) :
    ∃ productId, (archiveSku rows id now).rows.products = rows.products ∨
      (archiveSku rows id now).rows.products =
        (markProductChanged rows productId).1.products := by
  unfold archiveSku
  split
  · exact ⟨0, .inl rfl⟩
  · exact ⟨_, .inr rfl⟩

theorem setPrice_products (id variantId : Nat) (data : SetPriceData) (committed : Committed Price)
    (priced : setPrice rows id variantId data = .ok committed) :
    ∃ productId, committed.rows.products = (markProductChanged rows productId).1.products := by
  obtain ⟨_, -, priced⟩ := (bind_eq_ok _ _ _).mp priced
  split at priced
  · cases priced
  · obtain ⟨_, -, priced⟩ := (bind_eq_ok _ _ _).mp priced
    cases priced
    exact ⟨_, rfl⟩

/-- A committed write that leaves a category with an active product found it so, locked the
category, or revived the product. -/
theorem commitWrite_active (keyed : rows.Keyed) (write : AdminWrite) (records : List OutboxRecord)
    (committed : commitWrite rows write = .ok (next, records)) (categoryId : Nat)
    (unlocked : write.locks ≠ some categoryId)
    (unrevived : write.revives rows categoryId = false)
    (active : next.Active categoryId) : rows.Active categoryId := by
  cases write with
  | createCategory id now data =>
      obtain ⟨done, made, rfl, -⟩ := answered _ _ committed
      exact raised_active 0 categoryId (.inl (createCategory_products id now data done made)) active
  | updateCategory id data =>
      obtain ⟨done, made, rfl, -⟩ := answered _ _ committed
      exact raised_active 0 categoryId (.inl (updateCategory_products id data done made)) active
  | createProduct id now data =>
      obtain ⟨done, made, rfl, -⟩ := answered _ _ committed
      rcases createProduct_active id now data done made categoryId active with old | filed
      · exact old
      · exact absurd (congrArg some filed) unlocked
  | updateProduct id data =>
      obtain ⟨done, made, rfl, -⟩ := answered _ _ committed
      exact updateProduct_active keyed id data done made categoryId unlocked unrevived active
  | archiveProduct id =>
      cases committed
      exact archiveProduct_active id categoryId active
  | createSku id now productId data =>
      obtain ⟨done, made, rfl, -⟩ := answered _ _ committed
      exact raised_active productId categoryId
        (.inr (createSku_products id now productId data done made)) active
  | updateSku id data =>
      obtain ⟨done, made, rfl, -⟩ := answered _ _ committed
      obtain ⟨productId, products⟩ := updateSku_products id data done made
      exact raised_active productId categoryId products active
  | archiveSku id now =>
      cases committed
      obtain ⟨productId, products⟩ := archiveSku_products rows id now
      exact raised_active productId categoryId products active
  | setPrice id variantId data =>
      obtain ⟨done, made, rfl, -⟩ := answered _ _ committed
      obtain ⟨productId, products⟩ := setPrice_products id variantId data done made
      exact raised_active productId categoryId (.inr products) active

/-! ## Runs -/

/-- No patch revives a product of a category between the count and the commit of its archive. -/
def Unrevived (world : World) : SyncEvent → Prop
  | .admin write => ∀ categoryId ∈ world.archiving, write.revives world.rows categoryId = false
  | .archiveCount _ | .archiveCommit .. | .archiveRollback _ | .deliver _ | .turn _ | .apply ..
  | .fail _ | .applyLoose _ | .dropLoose _ => True

instance Unrevived.decidable (world : World) : ∀ event, Decidable (Unrevived world event)
  | .admin write => inferInstanceAs (Decidable (∀ categoryId ∈ world.archiving,
      write.revives world.rows categoryId = false))
  | .archiveCount _ | .archiveCommit .. | .archiveRollback _ | .deliver _ | .turn _ | .apply ..
  | .fail _ | .applyLoose _ | .dropLoose _ => isTrue trivial

/-- The index tracks the catalog, and no category being archived has an active product. -/
structure Follows (world : World) : Prop where
  tracks : ∃ marks, Tracks marks world
  idle : ∀ categoryId ∈ world.archiving, ¬ world.rows.Active categoryId

theorem follows_empty : Follows emptyWorld where
  tracks := by
    refine ⟨⟨fun _ => 0, fun _ => false⟩, ?_⟩
    exact
      { keyed := by constructor <;> simp [emptyWorld]
        events := fun _ listed => absurd listed List.not_mem_nil
        current := fun _ _ _ => Nat.zero_le _
        indexed := by
          intro id entry stored
          cases stored
        sent := fun _ listed => absurd listed List.not_mem_nil
        loose := fun _ listed => absurd listed List.not_mem_nil
        renamed := by
          intro id stale
          cases stale
        behind := by
          intro id known
          cases known }
  idle := fun _ listed => absurd listed List.not_mem_nil

theorem turn_idle (batchSize slot event : Nat) (task : Task)
    (turned : world.turn batchSize slot event task = some after) :
    after.archiving = world.archiving ∧
      ∀ categoryId, after.rows.Active categoryId → world.rows.Active categoryId := by
  cases task with
  | readProduct productId =>
      simp only [World.turn] at turned
      split at turned <;> cases turned <;> exact ⟨rfl, fun _ active => active⟩
  | bumpPage category afterId =>
      have kept := fun categoryId =>
        active_bump world.rows categoryId category afterId batchSize
      simp only [World.turn] at turned
      split at turned
      · cases turned
        exact ⟨rfl, fun _ active => active⟩
      · rename_i bumped
        cases turned
        rw [bumped] at kept
        exact ⟨rfl, kept⟩
  | readPage category ids =>
      simp only [World.turn] at turned
      split at turned <;> cases turned <;> exact ⟨rfl, fun _ active => active⟩
  | write unapplied page =>
      cases unapplied with
      | cons _ _ => cases turned
      | nil =>
          cases page with
          | none =>
              cases turned
              exact ⟨rfl, fun _ active => active⟩
          | some place =>
              cases turned
              exact ⟨rfl, fun _ active => active⟩

theorem admin_follows (follows : Follows world) (write : AdminWrite)
    (unrevived : Unrevived world (.admin write))
    (stepped : syncStep world (.admin write) = some after) : Follows after := by
  obtain ⟨⟨marks, tracks⟩, idle⟩ := follows
  simp only [syncStep] at stepped
  split at stepped
  · cases stepped
  · rename_i free
    split at stepped
    · cases stepped
      exact ⟨⟨marks, tracks⟩, idle⟩
    · rename_i next records committed
      cases stepped
      obtain ⟨keyed, effect⟩ := commitWrite_effect tracks.keyed write records committed
      refine ⟨tracks.effect keyed records effect, fun categoryId held active => ?_⟩
      refine idle categoryId held (commitWrite_active tracks.keyed write records committed
        categoryId (fun locked => free ?_) (unrevived categoryId held) active)
      rw [locked, Option.any_some, List.contains_iff_mem]
      exact held

theorem archive_follows (follows : Follows world) (categoryId now : Nat)
    (held : categoryId ∈ world.archiving) :
    Follows { world with
      rows := archiveCategory world.rows categoryId now
      archiving := world.archiving.erase categoryId } := by
  obtain ⟨⟨marks, tracks⟩, idle⟩ := follows
  obtain ⟨keyed, effect⟩ := archiveCategory_effect tracks.keyed categoryId now
    fun row stored filed status => idle categoryId held ⟨row, stored, filed, status⟩
  obtain ⟨later, moved⟩ := tracks.effect keyed [] effect
  rw [List.map_nil, List.append_nil] at moved
  exact ⟨⟨later, moved.archives _⟩, fun category listed active =>
    idle category (List.mem_of_mem_erase listed) active⟩

theorem sync_step_follows (event : SyncEvent) (follows : Follows world)
    (unrevived : Unrevived world event) (stepped : syncStep world event = some after) :
    Follows after := by
  obtain ⟨⟨marks, tracks⟩, idle⟩ := id follows
  cases event with
  | admin write => exact admin_follows follows write unrevived stepped
  | archiveCount categoryId =>
      simp only [syncStep] at stepped
      split at stepped
      · cases stepped
      · split at stepped
        · cases stepped
          exact follows
        · split at stepped
          · cases stepped
            exact follows
          · rename_i none
            cases stepped
            refine ⟨⟨marks, tracks.archives _⟩, fun category listed => ?_⟩
            rcases List.mem_cons.mp listed with rfl | old
            · exact not_active_of_unarchived world.rows category none
            · exact idle category old
  | archiveCommit categoryId now =>
      simp only [syncStep] at stepped
      split at stepped
      · rename_i held
        cases stepped
        exact archive_follows follows categoryId now (List.contains_iff_mem.mp held)
      · cases stepped
  | archiveRollback categoryId =>
      simp only [syncStep] at stepped
      split at stepped <;> cases stepped
      exact ⟨⟨marks, tracks.archives _⟩, fun category listed =>
        idle category (List.mem_of_mem_erase listed)⟩
  | deliver event =>
      obtain ⟨entry, stored, rfl⟩ := Option.map_eq_some_iff.mp stepped
      exact ⟨⟨marks, tracks.delivered event entry stored⟩, idle⟩
  | turn slot =>
      obtain ⟨delivery, taken, turned⟩ := Option.bind_eq_some_iff.mp stepped
      obtain ⟨archiving, kept⟩ := turn_idle _ slot delivery.event delivery.task turned
      refine ⟨tracks.turned slot delivery.event categoryFanOutBatch (by decide) delivery.task taken
        turned, fun category listed active => ?_⟩
      exact idle category (archiving ▸ listed) (kept category active)
  | apply slot position =>
      simp only [syncStep] at stepped
      split at stepped
      · rename_i event unapplied page taken
        obtain ⟨write, chosen, rfl⟩ := Option.map_eq_some_iff.mp stepped
        exact ⟨⟨marks, tracks.applied slot event position unapplied page write taken chosen⟩, idle⟩
      · cases stepped
  | fail slot =>
      obtain ⟨delivery, taken, rfl⟩ := Option.map_eq_some_iff.mp stepped
      exact ⟨⟨marks, tracks.failed slot delivery taken⟩, idle⟩
  | applyLoose position =>
      obtain ⟨write, chosen, rfl⟩ := Option.map_eq_some_iff.mp stepped
      have stored := tracks.written write (tracks.loose write (List.mem_of_getElem? chosen))
      exact ⟨⟨marks, stored.loosened _ fun other listed => List.mem_of_mem_eraseIdx listed⟩, idle⟩
  | dropLoose position =>
      cases stepped
      exact ⟨⟨marks, tracks.loosened _ fun other listed => List.mem_of_mem_eraseIdx listed⟩, idle⟩

theorem run_follows (events : List SyncEvent) (final : World)
    (ran : Runs.run syncStep emptyWorld events = some final)
    (unrevived : Runs.Along syncStep Unrevived emptyWorld events) : Follows final :=
  Runs.run_preserves_along syncStep Unrevived Follows
    (fun _ event _ follows met stepped => sync_step_follows event follows met stepped)
    events emptyWorld final follows_empty unrevived ran

/-- Once a delivery of every event has run to its end, the index holds every product at the
document that the catalog has of it, and nothing else, whatever is still in flight. -/
theorem search_converges (events : List SyncEvent) (final : World)
    (ran : Runs.run syncStep emptyWorld events = some final)
    (unrevived : Runs.Along syncStep Unrevived emptyWorld events)
    (handled : ∀ entry ∈ final.outbox, entry.handled = true) (id : Nat) :
    (final.index id).map (·.doc) =
      (final.rows.stateOf id).map fun state => state.product.map toSearchableProduct := by
  obtain ⟨marks, tracks⟩ := (run_follows events final ran unrevived).tracks
  exact tracks.settled handled id

/-- A product is filed, and its category renamed while the first delivery fails: its document
comes in late, and the second delivery's is refused under the version both have. -/
def lateRun : List SyncEvent := [
  .admin (.createCategory 1 0 ⟨"Shoes", "shoes", none⟩),
  .admin (.createProduct 7 1 ⟨"Boot", "boot", none, some .active, 1⟩),
  .deliver 0, .turn 0, .fail 0,
  .admin (.updateCategory 1 ⟨some "Footwear", none, none⟩),
  .applyLoose 0,
  .deliver 0, .turn 0, .apply 0 0, .turn 0,
  .deliver 1, .turn 0, .turn 0, .apply 0 0, .turn 0, .turn 0]

theorem search_converges_late : ∃ final, Runs.run syncStep emptyWorld lateRun = some final ∧
    ∀ id, (final.index id).map (·.doc) =
      (final.rows.stateOf id).map fun state => state.product.map toSearchableProduct := by
  have handled : ((Runs.run syncStep emptyWorld lateRun).any fun final =>
      final.outbox.all (·.handled)) = true := by decide +kernel
  cases ran : Runs.run syncStep emptyWorld lateRun with
  | none =>
      rw [ran] at handled
      cases handled
  | some final =>
      rw [ran, Option.any_some, List.all_eq_true] at handled
      exact ⟨final, rfl, search_converges lateRun final ran (by decide +kernel) handled⟩

def revivedRun : List SyncEvent := [
  .admin (.createCategory 1 0 ⟨"Shoes", "shoes", none⟩),
  .admin (.createProduct 7 1 ⟨"Boot", "boot", none, some .archived, 1⟩),
  .archiveCount 1,
  .admin (.updateProduct 7 ⟨none, none, none, some .active, none⟩),
  .deliver 0, .turn 0, .apply 0 0, .turn 0,
  .deliver 1, .turn 0, .apply 0 0, .turn 0,
  .archiveCommit 1 2]

/-- Search then keeps a product that the catalog does not show. -/
theorem revived_stays_in_search : ((Runs.run syncStep emptyWorld revivedRun).any fun final =>
    final.outbox.all (·.handled) && final.deliveries.isEmpty && final.loose.isEmpty &&
      ((final.index 7).bind (·.doc)).isSome &&
        ((final.rows.stateOf 7).bind (·.product)).isNone) = true := by
  decide +kernel

end Commerce.Listing
