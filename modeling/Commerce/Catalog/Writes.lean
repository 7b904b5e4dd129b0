import Commerce.Catalog.Reads
import Mathlib.Data.List.DropRight

/-!
# What the admin writes do

Each committed write keeps the indexes and references, and has one of three
effects on what search shows: none, a product changed under a higher version, or
a category renamed under its products.
-/

set_option autoImplicit false

namespace Commerce.Listing

open Commerce.Orders (Money)
open Results Sorting

variable {rows next : Rows}

/-! ## States of search -/

def Rows.stateOf (rows : Rows) (id : Nat) : Option ProductSearchState :=
  (rows.findProduct id).map rows.searchState

def Rows.categoryOf (rows : Rows) (id : Nat) : Option Nat :=
  (rows.findProduct id).map (·.categoryId)

/-- What a committed write did to what search shows, with the records it appended. -/
inductive Effect (rows next : Rows) : List OutboxRecord → Prop where
  | quiet (states : ∀ id, next.stateOf id = rows.stateOf id)
      (categories : ∀ id, next.categoryOf id = rows.categoryOf id) : Effect rows next []
  | changed (productId : Nat) (state : ProductSearchState)
      (now : next.stateOf productId = some state)
      (raised : ∀ before, rows.stateOf productId = some before → before.version < state.version)
      (states : ∀ id, id ≠ productId → next.stateOf id = rows.stateOf id)
      (categories : ∀ id, id ≠ productId → next.categoryOf id = rows.categoryOf id) :
      Effect rows next [.productChanged productId]
  | renamed (categoryId : Nat)
      (versions : ∀ id, (next.stateOf id).map (·.version) = (rows.stateOf id).map (·.version))
      (states : ∀ id, rows.categoryOf id ≠ some categoryId → next.stateOf id = rows.stateOf id)
      (categories : ∀ id, next.categoryOf id = rows.categoryOf id) :
      Effect rows next [.categoryRenamed categoryId]

/-- The category a product is shown under. -/
def Rows.label (rows : Rows) (row : ProductRow) : Option ProductCategory :=
  (rows.liveCategories row).head?.map fun category => ⟨category.slug, category.name⟩

/-- The tables show the same for a product's row. -/
structure Shows (rows next : Rows) (row : ProductRow) : Prop where
  label : next.label row = rows.label row
  variants : next.liveVariants row = rows.liveVariants row
  prices : ∀ variant ∈ rows.liveVariants row,
    next.pricesOf (some variant) = rows.pricesOf (some variant)
  images : next.assetsOf row.id = rows.assetsOf row.id

theorem liveProduct_label (rows : Rows) (row : ProductRow) :
    rows.liveProduct row = (rows.label row).map fun category =>
      { rows.product row ⟨0, category.name, category.slug, none, none, 0⟩ with
        category := category } := by
  rw [Rows.liveProduct, Rows.label, Option.map_map]
  rfl

theorem Shows.searchState {row : ProductRow} (same : Shows rows next row) :
    next.searchState row = rows.searchState row := by
  have variants : (sortBy VariantRow.age (rows.liveVariants row)).map next.variant =
      (sortBy VariantRow.age (rows.liveVariants row)).map rows.variant := by
    refine List.map_congr_left fun variant member => ?_
    rw [Rows.variant, Rows.variant, same.prices variant ((mem_sortBy _ _ _).mp member)]
  have live : next.liveProduct row = rows.liveProduct row := by
    rw [liveProduct_label, liveProduct_label, same.label]
    refine congrArg (Option.map · _) (funext fun category => ?_)
    simp only [Rows.product, same.variants, variants, same.images]
  rw [Rows.searchState, Rows.searchState, Rows.publicProduct, Rows.publicProduct, live]

theorem find_stored (id : Nat) (row : ProductRow) (found : rows.findProduct id = some row) :
    row ∈ rows.products ∧ row.id = id :=
  ⟨List.mem_of_find?_eq_some found, by simpa using List.find?_some found⟩

theorem stateOf_same (id : Nat) (found : next.findProduct id = rows.findProduct id)
    (same : ∀ row, rows.findProduct id = some row → Shows rows next row) :
    next.stateOf id = rows.stateOf id := by
  rw [Rows.stateOf, Rows.stateOf, found]
  cases here : rows.findProduct id with
  | none => rfl
  | some row => exact congrArg some (same row here).searchState

theorem categoryOf_same (id : Nat) (found : next.findProduct id = rows.findProduct id) :
    next.categoryOf id = rows.categoryOf id := by
  rw [Rows.categoryOf, Rows.categoryOf, found]

theorem stateOf_version (rows : Rows) (id : Nat) :
    (rows.stateOf id).map (·.version) = (rows.findProduct id).map (·.searchVersion) := by
  rw [Rows.stateOf, Option.map_map]
  rfl

/-! ## Categories -/

section Categories

theorem findCategory_some (id : Nat) (row : CategoryRow) (found : rows.findCategory id = some row) :
    row ∈ rows.categories ∧ row.id = id :=
  ⟨List.mem_of_find?_eq_some found, by simpa using List.find?_some found⟩

theorem absent_of_find {α : Type} (key : α → Nat) (found : List α) (id : Nat)
    (none : (found.find? fun row => key row == id) = none) : id ∉ found.map key := by
  intro member
  obtain ⟨row, stored, rfl⟩ := List.mem_map.mp member
  exact absurd (beq_self_eq_true _) (List.find?_eq_none.mp none row stored)

theorem free_of_taken {α : Type} (key : α → Nat) (column : α → String) (table : List α) (id : Nat)
    (value : String)
    (taken : (table.any fun row => key row != id && column row == value) = false) :
    ∀ other ∈ table, key other ≠ id → column other ≠ value := by
  intro other stored apart same
  refine Bool.eq_false_iff.mp taken (List.any_eq_true.mpr ⟨other, stored, ?_⟩)
  simp [apart, same]

theorem nodup_append_one {α β : Type} (column : α → β) (table : List α) (row : α)
    (distinct : (table.map column).Nodup) (fresh : column row ∉ table.map column) :
    ((table ++ [row]).map column).Nodup := by
  rw [List.map_append, List.map_singleton]
  refine List.nodup_append.mpr ⟨distinct, List.nodup_singleton _, fun first among second last => ?_⟩
  rw [List.mem_singleton.mp last]
  exact fun same => fresh (same ▸ among)

theorem quiet_of (found : ∀ id, next.findProduct id = rows.findProduct id)
    (same : ∀ row ∈ rows.products, Shows rows next row) : Effect rows next [] :=
  .quiet (fun id => stateOf_same id (found id) fun row here =>
    same row (find_stored id row here).1) fun id => categoryOf_same id (found id)

theorem createCategory_effect (keyed : rows.Keyed) (id now : Nat) (data : CreateCategoryData)
    (committed : Committed CategoryRow)
    (created : createCategory rows id now data = .ok committed) :
    committed.rows.Keyed ∧ Effect rows committed.rows committed.records := by
  unfold createCategory at created
  split at created
  · cases created
  · rename_i free
    rw [Bool.or_eq_true, not_or] at free
    obtain ⟨unknown, untaken⟩ := free
    rw [Bool.not_eq_true, Option.isSome_eq_false_iff, Option.isNone_iff_eq_none] at unknown
    cases created
    have fresh : id ∉ rows.categories.map (·.id) := absent_of_find _ _ _ unknown
    have slug := free_of_taken (fun row : CategoryRow => row.id) (·.slug) _ id data.slug
      (Bool.eq_false_iff.mpr untaken)
    refine ⟨{ keyed with
      categories := nodup_append_one _ _ _ keyed.categories fresh
      categorySlugs := nodup_append_one _ _ _ keyed.categorySlugs fun member => ?_
      filed := fun product stored => ?_ }, quiet_of (fun _ => rfl) fun row stored => ?_⟩
    · obtain ⟨other, among, same⟩ := List.mem_map.mp member
      exact slug other among (fun hit => fresh (hit ▸ List.mem_map_of_mem among)) same
    · rw [List.map_append]
      exact List.mem_append_left _ (keyed.filed product stored)
    · refine ⟨?_, rfl, fun _ _ => rfl, rfl⟩
      have apart : id ≠ row.categoryId := fun hit => fresh (hit ▸ keyed.filed row stored)
      have beside : (id == row.categoryId) = false := beq_false_of_ne apart
      simp [Rows.label, Rows.liveCategories, List.filter_append, beside]

/-- An update that keeps ids and archive marks keeps which categories are live. -/
theorem liveCategories_update (id : Nat) (change : CategoryRow → CategoryRow)
    (ids : ∀ row, (change row).id = row.id)
    (marks : ∀ row, (change row).archivedAt = row.archivedAt) (row : ProductRow) :
    Rows.liveCategories { rows with categories := Tables.update (·.id) id change rows.categories }
        row =
      (rows.liveCategories row).map fun category =>
        if category.id = id then change category else category := by
  rw [Rows.liveCategories, Rows.liveCategories, Tables.update, List.filter_map]
  refine congrArg (List.map _) (List.filter_congr fun category _ => ?_)
  simp only [Function.comp_apply]
  split
  · rw [ids, marks]
  · rfl

theorem label_update (id : Nat) (change : CategoryRow → CategoryRow)
    (ids : ∀ row, (change row).id = row.id)
    (marks : ∀ row, (change row).archivedAt = row.archivedAt) (row : ProductRow)
    (shown : ∀ category ∈ rows.liveCategories row, category.id = id →
      (change category).slug = category.slug ∧ (change category).name = category.name) :
    Rows.label { rows with categories := Tables.update (·.id) id change rows.categories } row =
      rows.label row := by
  rw [Rows.label, Rows.label, liveCategories_update id change ids marks]
  cases live : rows.liveCategories row with
  | nil => rfl
  | cons category rest =>
      have first : category ∈ rows.liveCategories row := live ▸ List.mem_cons_self
      simp only [List.map_cons, List.head?_cons, Option.map_some]
      split
      · rename_i hit
        obtain ⟨slug, name⟩ := shown category first hit
        rw [slug, name]
      · rfl

theorem updateCategory_effect (keyed : rows.Keyed) (id : Nat) (data : UpdateCategoryData)
    (committed : Committed (Option CategoryRow))
    (updated : updateCategory rows id data = .ok committed) :
    committed.rows.Keyed ∧ Effect rows committed.rows committed.records := by
  unfold updateCategory at updated
  split at updated
  · cases updated
    exact ⟨keyed, quiet_of (fun _ => rfl) fun row _ => ⟨rfl, rfl, fun _ _ => rfl, rfl⟩⟩
  · split at updated
    · cases updated
      exact ⟨keyed, quiet_of (fun _ => rfl) fun row _ => ⟨rfl, rfl, fun _ _ => rfl, rfl⟩⟩
    · rename_i before found
      obtain ⟨stored, rfl⟩ := findCategory_some id before found
      dsimp only at updated
      split at updated
      · cases updated
      · rename_i untaken
        have slug := free_of_taken (fun row : CategoryRow => row.id) (·.slug) _ before.id
          (data.set before).slug (Bool.eq_false_iff.mpr untaken)
        have only : ∀ row ∈ rows.categories, row.id = before.id → row = before :=
          fun row among hit => List.inj_on_of_nodup_map keyed.categories among stored hit
        cases updated
        refine ⟨{ keyed with
          categories := (Tables.map_key_update (·.id) before.id data.set _ fun _ => rfl).symm ▸
            keyed.categories
          categorySlugs := Tables.nodup_update _ _ _ _ _ keyed.categories keyed.categorySlugs
            fun row among hit other beside apart => ?_
          filed := fun product listed => ?_ }, ?_⟩
        · rw [only row among hit]
          exact slug other beside apart
        · rw [Tables.map_key_update (·.id) before.id data.set _ fun _ => rfl]
          exact keyed.filed product listed
        · have elsewhere : ∀ row, row.categoryId ≠ before.id →
              Rows.label { rows with
                categories := Tables.update (·.id) before.id data.set rows.categories } row =
                rows.label row := by
            intro row apart
            refine label_update before.id data.set (fun _ => rfl) (fun _ => rfl) row
              fun category live hit => ?_
            exact absurd (((mem_liveCategories row category).mp live).2.1.symm.trans hit) apart
          split
          · refine .renamed before.id (fun product => ?_) (fun product apart => ?_) fun _ => rfl
            · rw [stateOf_version, stateOf_version]
              rfl
            · refine stateOf_same product rfl fun row here => ?_
              refine ⟨elsewhere row fun hit => apart ?_, rfl, fun _ _ => rfl, rfl⟩
              rw [Rows.categoryOf, here, Option.map_some, hit]
          · rename_i plain
            rw [not_or, not_not, not_not] at plain
            refine quiet_of (fun _ => rfl) fun row _ => ⟨?_, rfl, fun _ _ => rfl, rfl⟩
            refine label_update before.id data.set (fun _ => rfl) (fun _ => rfl) row
              fun category live hit => ?_
            rw [only category ((mem_liveCategories row category).mp live).1 hit]
            exact ⟨plain.2, plain.1⟩

/-- The write of an archive shows nothing where no product of the category is active. -/
theorem archiveCategory_effect (keyed : rows.Keyed) (id now : Nat)
    (idle : ∀ row ∈ rows.products, row.categoryId = id → row.status ≠ .active) :
    (archiveCategory rows id now).Keyed ∧ Effect rows (archiveCategory rows id now) [] := by
  have slugs : (archiveCategory rows id now).categories.map (·.slug) =
      rows.categories.map (·.slug) := by
    rw [archiveCategory, Tables.update, List.map_map]
    refine List.map_congr_left fun row _ => ?_
    simp only [Function.comp_apply]
    split <;> rfl
  have ids : (archiveCategory rows id now).categories.map (·.id) =
      rows.categories.map (·.id) :=
    Tables.map_key_update (fun row : CategoryRow => row.id) id _ _ fun _ => rfl
  refine ⟨{ keyed with
    categories := ids ▸ keyed.categories
    categorySlugs := slugs ▸ keyed.categorySlugs
    filed := fun product stored => ids ▸ keyed.filed product stored }, ?_⟩
  have each : ∀ product, (archiveCategory rows id now).stateOf product = rows.stateOf product := by
    intro product
    rw [Rows.stateOf, Rows.stateOf]
    change (rows.findProduct product).map _ = _
    cases here : rows.findProduct product with
    | none => rfl
    | some row =>
        refine congrArg some ?_
        by_cases filed : row.categoryId = id
        · have hidden := idle row (find_stored product row here).1 filed
          rw [Rows.searchState, Rows.searchState, Rows.publicProduct, Rows.publicProduct,
            if_neg hidden, if_neg hidden]
        · refine Shows.searchState ⟨?_, rfl, fun _ _ => rfl, rfl⟩
          refine congrArg (fun live => Option.map _ (List.head? live)) ?_
          refine Tables.filter_update _ _ _ _ _ fun category _ hit => ?_
          have apart : (category.id == row.categoryId) = false :=
            beq_false_of_ne fun same => filed (same.symm.trans hit)
          exact ⟨by rw [apart]; rfl, by rw [apart]; rfl⟩
  exact .quiet each fun _ => rfl

end Categories

/-! ## Products -/

section Products

theorem touched_effect (id : Nat) (before : ProductRow) (change : ProductRow → ProductRow)
    (found : rows.findProduct id = some before) (ids : ∀ row, (change row).id = row.id)
    (raises : ∀ row, (change row).searchVersion = row.searchVersion + 1)
    (products : next.products = Tables.update (·.id) id change rows.products)
    (others : ∀ row ∈ rows.products, row.id ≠ id → Shows rows next row) :
    Effect rows next [.productChanged id] := by
  have each : ∀ wanted, next.findProduct wanted = (rows.findProduct wanted).map fun row =>
      if wanted = id then change row else row := by
    intro wanted
    rw [Rows.findProduct, products]
    exact Tables.find_update _ _ _ _ _ ids
  have elsewhere : ∀ wanted, wanted ≠ id → next.findProduct wanted = rows.findProduct wanted := by
    intro wanted apart
    rw [each]
    simp [apart]
  refine .changed id (next.searchState (change before)) ?_ (fun state was => ?_)
    (fun wanted apart => ?_) fun wanted apart => categoryOf_same wanted (elsewhere wanted apart)
  · rw [Rows.stateOf, each, found, Option.map_some, if_pos rfl]
    rfl
  · rw [Rows.stateOf, found] at was
    cases was
    have one := raises before
    simp only [Rows.searchState]
    omega
  · refine stateOf_same wanted (elsewhere wanted apart) fun row here => ?_
    obtain ⟨stored, named⟩ := find_stored wanted row here
    exact others row stored fun same => apart (named.symm.trans same)

theorem added_effect (row : ProductRow) (fresh : rows.findProduct row.id = none) :
    Effect rows { rows with products := rows.products ++ [row] } [.productChanged row.id] := by
  have each : ∀ wanted, Rows.findProduct { rows with products := rows.products ++ [row] } wanted =
      (rows.findProduct wanted).or (if row.id = wanted then some row else none) := by
    intro wanted
    rw [Rows.findProduct, List.find?_append]
    by_cases hit : row.id = wanted <;> simp [hit, Rows.findProduct]
  have elsewhere : ∀ wanted, wanted ≠ row.id →
      Rows.findProduct { rows with products := rows.products ++ [row] } wanted =
        rows.findProduct wanted := by
    intro wanted apart
    rw [each, if_neg apart.symm, Option.or_none]
  refine .changed row.id (Rows.searchState { rows with products := rows.products ++ [row] } row) ?_
    (fun before was => ?_) (fun wanted apart => ?_) fun wanted apart =>
      categoryOf_same wanted (elsewhere wanted apart)
  · rw [Rows.stateOf, each, fresh, if_pos rfl]
    rfl
  · rw [Rows.stateOf, fresh] at was
    cases was
  · exact stateOf_same wanted (elsewhere wanted apart) fun row _ => ⟨rfl, rfl, fun _ _ => rfl, rfl⟩

theorem lockLiveCategory_ok (categoryId : Nat)
    (locked : lockLiveCategory rows categoryId = .ok ()) :
    categoryId ∈ rows.categories.map (·.id) := by
  unfold lockLiveCategory at locked
  split at locked
  · cases locked
  · rename_i row found
    obtain ⟨stored, same⟩ := findCategory_some categoryId row found
    exact same ▸ List.mem_map_of_mem stored

theorem createProduct_effect (keyed : rows.Keyed) (id now : Nat) (data : CreateProductData)
    (committed : Committed AdminProduct)
    (created : createProduct rows id now data = .ok committed) :
    committed.rows.Keyed ∧ Effect rows committed.rows committed.records := by
  obtain ⟨_, locked, created⟩ := (bind_eq_ok _ _ _).mp created
  have filed := lockLiveCategory_ok data.categoryId locked
  split at created
  · cases created
  · rename_i free
    rw [Bool.or_eq_true, not_or] at free
    obtain ⟨unknown, untaken⟩ := free
    rw [Bool.not_eq_true, Option.isSome_eq_false_iff, Option.isNone_iff_eq_none] at unknown
    cases created
    have fresh : id ∉ rows.products.map (·.id) := absent_of_find _ _ _ unknown
    have slug := free_of_taken (fun row : ProductRow => row.id) (·.slug) _ id data.slug
      (Bool.eq_false_iff.mpr untaken)
    refine ⟨{ keyed with
      products := nodup_append_one _ _ _ keyed.products fresh
      productSlugs := nodup_append_one _ _ _ keyed.productSlugs fun member => ?_
      filed := fun product stored => ?_
      owned := fun variant stored => ?_ }, added_effect _ unknown⟩
    · obtain ⟨other, among, same⟩ := List.mem_map.mp member
      exact slug other among (fun hit => fresh (hit ▸ List.mem_map_of_mem among)) same
    · rcases List.mem_append.mp stored with old | new
      · exact keyed.filed product old
      · rw [List.mem_singleton.mp new]
        exact filed
    · rw [List.map_append]
      exact List.mem_append_left _ (keyed.owned variant stored)

/-- Products whose ids stay, whose slugs stay apart and whose categories exist. -/
theorem Rows.Keyed.update (keyed : rows.Keyed) (id : Nat) (change : ProductRow → ProductRow)
    (ids : ∀ row, (change row).id = row.id)
    (slugs : ∀ row ∈ rows.products, row.id = id →
      ∀ other ∈ rows.products, other.id ≠ id → other.slug ≠ (change row).slug)
    (filed : ∀ row ∈ rows.products, row.id = id →
      (change row).categoryId ∈ rows.categories.map (·.id)) :
    Rows.Keyed { rows with products := Tables.update (·.id) id change rows.products } := by
  have same := Tables.map_key_update (fun row : ProductRow => row.id) id change rows.products ids
  refine { keyed with
    products := same ▸ keyed.products
    productSlugs := Tables.nodup_update _ _ _ _ _ keyed.products keyed.productSlugs slugs
    filed := fun product stored => ?_
    owned := fun variant stored => same ▸ keyed.owned variant stored }
  obtain ⟨before, among, here⟩ := (Tables.mem_update ..).mp stored
  rw [← here]
  split
  · rename_i hit
    exact filed before among hit
  · exact keyed.filed before among

theorem only_product (keyed : rows.Keyed) (id : Nat) (before : ProductRow)
    (found : rows.findProduct id = some before) (row : ProductRow) (stored : row ∈ rows.products)
    (hit : row.id = id) : row = before := by
  obtain ⟨among, same⟩ := find_stored id before found
  exact List.inj_on_of_nodup_map keyed.products stored among (hit.trans same.symm)

theorem updateProduct_effect (keyed : rows.Keyed) (id : Nat) (data : UpdateProductData)
    (committed : Committed (Option AdminProduct))
    (updated : updateProduct rows id data = .ok committed) :
    committed.rows.Keyed ∧ Effect rows committed.rows committed.records := by
  unfold updateProduct at updated
  split at updated
  · cases updated
    exact ⟨keyed, quiet_of (fun _ => rfl) fun row _ => ⟨rfl, rfl, fun _ _ => rfl, rfl⟩⟩
  · obtain ⟨_, locked, updated⟩ := (bind_eq_ok _ _ _).mp updated
    have moved : ∀ movedTo, data.categoryId = some movedTo →
        movedTo ∈ rows.categories.map (·.id) := by
      intro movedTo asked
      rw [asked, lockMovedTo] at locked
      exact lockLiveCategory_ok movedTo locked
    split at updated
    · cases updated
      exact ⟨keyed, quiet_of (fun _ => rfl) fun row _ => ⟨rfl, rfl, fun _ _ => rfl, rfl⟩⟩
    · rename_i before found
      have only := only_product keyed id before found
      dsimp only at updated
      split at updated
      · cases updated
      · rename_i untaken
        have slug := free_of_taken (fun row : ProductRow => row.id) (·.slug) _ id
          (data.set before).slug (Bool.eq_false_iff.mpr untaken)
        cases updated
        refine ⟨keyed.update id data.set (fun _ => rfl) (fun row stored hit => ?_)
          fun row stored hit => ?_, touched_effect id before data.set found (fun _ => rfl)
            (fun _ => rfl) rfl fun row _ _ => ⟨rfl, rfl, fun _ _ => rfl, rfl⟩⟩
        · rw [only row stored hit]
          exact slug
        · cases asked : data.categoryId with
          | none =>
              simp only [UpdateProductData.set, asked]
              exact keyed.filed row stored
          | some movedTo =>
              simp only [UpdateProductData.set, asked]
              exact moved movedTo asked

theorem Rows.Keyed.raised (keyed : rows.Keyed) (id : Nat) (change : ProductRow → ProductRow)
    (ids : ∀ row, (change row).id = row.id) (slugs : ∀ row, (change row).slug = row.slug)
    (filed : ∀ row, (change row).categoryId = row.categoryId) :
    Rows.Keyed { rows with products := Tables.update (·.id) id change rows.products } := by
  refine keyed.update id change ids (fun row stored hit other among apart same => apart ?_)
    fun row stored _ => filed row ▸ keyed.filed row stored
  rw [← hit, List.inj_on_of_nodup_map keyed.productSlugs among stored (same.trans (slugs row))]

theorem archiveProduct_effect (keyed : rows.Keyed) (id : Nat) :
    (archiveProduct rows id).rows.Keyed ∧
      Effect rows (archiveProduct rows id).rows (archiveProduct rows id).records := by
  unfold archiveProduct
  split
  · exact ⟨keyed, quiet_of (fun _ => rfl) fun row _ => ⟨rfl, rfl, fun _ _ => rfl, rfl⟩⟩
  · rename_i before found
    exact ⟨keyed.raised id ProductRow.archive (fun _ => rfl) (fun _ => rfl) fun _ => rfl,
      touched_effect id before ProductRow.archive found (fun _ => rfl) (fun _ => rfl) rfl
        fun row _ _ => ⟨rfl, rfl, fun _ _ => rfl, rfl⟩⟩

end Products

/-! ## SKUs and prices -/

section Skus

theorem findSku_some (id : Nat) (row : VariantRow) (found : rows.findSku id = some row) :
    row ∈ rows.variants ∧ row.id = id :=
  ⟨List.mem_of_find?_eq_some found, by simpa using List.find?_some found⟩

theorem only_sku (keyed : rows.Keyed) (id : Nat) (before : VariantRow)
    (found : rows.findSku id = some before) (row : VariantRow) (stored : row ∈ rows.variants)
    (hit : row.id = id) : row = before := by
  obtain ⟨among, same⟩ := findSku_some id before found
  exact List.inj_on_of_nodup_map keyed.variants stored among (hit.trans same.symm)

theorem owner (keyed : rows.Keyed) (variant : VariantRow) (stored : variant ∈ rows.variants) :
    ∃ row, rows.findProduct variant.productId = some row := by
  cases found : rows.findProduct variant.productId with
  | none => exact absurd (keyed.owned variant stored) (absent_of_find _ _ _ found)
  | some row => exact ⟨row, rfl⟩

theorem mark_eq (productId : Nat) (before : ProductRow)
    (found : rows.findProduct productId = some before) :
    markProductChanged rows productId =
      ({ rows with products := Tables.update (·.id) productId ProductRow.bump rows.products },
        [.productChanged productId]) := by
  unfold markProductChanged
  rw [found]

theorem keyed_bumped (keyed : rows.Keyed) (productId : Nat) :
    Rows.Keyed { rows with
      products := Tables.update (·.id) productId ProductRow.bump rows.products } :=
  keyed.raised productId ProductRow.bump (fun _ => rfl) (fun _ => rfl) fun _ => rfl

theorem touched_by_bump (productId : Nat) (before : ProductRow)
    (found : rows.findProduct productId = some before)
    (products : next.products = Tables.update (·.id) productId ProductRow.bump rows.products)
    (others : ∀ row ∈ rows.products, row.id ≠ productId → Shows rows next row) :
    Effect rows next [.productChanged productId] :=
  touched_effect productId before ProductRow.bump found (fun _ => rfl) (fun _ => rfl) products
    others

theorem createSku_effect (keyed : rows.Keyed) (id now productId : Nat) (data : CreateSkuData)
    (committed : Committed VariantRow)
    (created : createSku rows id now productId data = .ok committed) :
    committed.rows.Keyed ∧ Effect rows committed.rows committed.records := by
  unfold createSku at created
  split at created
  · cases created
  · rename_i free
    rw [Bool.or_eq_true, not_or] at free
    obtain ⟨unknown, untaken⟩ := free
    rw [Bool.not_eq_true, Option.isSome_eq_false_iff, Option.isNone_iff_eq_none] at unknown
    have fresh : id ∉ rows.variants.map (·.id) := absent_of_find _ _ _ unknown
    have sku := free_of_taken (fun row : VariantRow => row.id) (·.sku) _ id data.sku
      (Bool.eq_false_iff.mpr untaken)
    split at created
    · cases created
    · rename_i before found
      rw [mark_eq productId before found] at created
      cases created
      have bumped := keyed_bumped keyed productId
      refine ⟨{ bumped with
        variants := nodup_append_one _ _ _ keyed.variants fresh
        skus := nodup_append_one _ _ _ keyed.skus fun member => ?_
        owned := fun variant stored => ?_ },
        touched_by_bump productId before found rfl fun row stored apart => ?_⟩
      · obtain ⟨other, among, same⟩ := List.mem_map.mp member
        exact sku other among (fun hit => fresh (hit ▸ List.mem_map_of_mem among)) same
      · rcases List.mem_append.mp stored with old | new
        · exact bumped.owned variant old
        · obtain ⟨among, same⟩ := find_stored productId before found
          rw [List.mem_singleton.mp new]
          change productId ∈ List.map _ (Tables.update _ _ _ _)
          rw [Tables.map_key_update (fun row : ProductRow => row.id) productId ProductRow.bump _
            fun _ => rfl]
          exact same ▸ List.mem_map_of_mem among
      · refine ⟨rfl, ?_, fun _ _ => rfl, rfl⟩
        have beside : (productId == row.id) = false := beq_false_of_ne apart.symm
        simp [Rows.liveVariants, List.filter_append, beside]

/-- SKUs updated under an id that keep their ids and products, and whose codes stay apart. -/
theorem sku_effect (keyed : rows.Keyed) (id : Nat) (before : VariantRow)
    (found : rows.findSku id = some before) (change : VariantRow → VariantRow)
    (ids : ∀ row, (change row).id = row.id)
    (products : ∀ row, (change row).productId = row.productId)
    (skus : ∀ other ∈ rows.variants, other.id ≠ id → other.sku ≠ (change before).sku) :
    Rows.Keyed { (markProductChanged rows before.productId).1 with
        variants := Tables.update (·.id) id change rows.variants } ∧
      Effect rows { (markProductChanged rows before.productId).1 with
        variants := Tables.update (·.id) id change rows.variants }
          (markProductChanged rows before.productId).2 := by
  have only := only_sku keyed id before found
  obtain ⟨product, here⟩ := owner keyed before (findSku_some id before found).1
  have bumped := keyed_bumped keyed before.productId
  rw [mark_eq before.productId product here]
  refine ⟨{ bumped with
    variants :=
      (Tables.map_key_update (fun row : VariantRow => row.id) id change _ ids).symm ▸ keyed.variants
    skus := Tables.nodup_update _ _ _ _ _ keyed.variants keyed.skus
      fun row stored hit => only row stored hit ▸ skus
    owned := fun variant stored => ?_ },
    touched_by_bump before.productId product here rfl fun row _ apart =>
      ⟨rfl, ?_, fun _ _ => rfl, rfl⟩⟩
  · obtain ⟨was, among, same⟩ := (Tables.mem_update ..).mp stored
    have kept : variant.productId = was.productId := by
      rw [← same]
      split
      · exact products was
      · rfl
    rw [kept]
    exact bumped.owned was among
  · refine Tables.filter_update _ _ _ _ _ fun variant stored hit => ?_
    have beside : (variant.productId == row.id) = false := by
      rw [only variant stored hit]
      exact beq_false_of_ne apart.symm
    exact ⟨by rw [beside]; rfl, by rw [products, beside]; rfl⟩

theorem updateSku_effect (keyed : rows.Keyed) (id : Nat) (data : UpdateSkuData)
    (committed : Committed (Option VariantRow))
    (updated : updateSku rows id data = .ok committed) :
    committed.rows.Keyed ∧ Effect rows committed.rows committed.records := by
  unfold updateSku at updated
  split at updated
  · cases updated
    exact ⟨keyed, quiet_of (fun _ => rfl) fun row _ => ⟨rfl, rfl, fun _ _ => rfl, rfl⟩⟩
  · split at updated
    · cases updated
      exact ⟨keyed, quiet_of (fun _ => rfl) fun row _ => ⟨rfl, rfl, fun _ _ => rfl, rfl⟩⟩
    · rename_i before found
      dsimp only at updated
      split at updated
      · cases updated
      · rename_i untaken
        cases updated
        exact sku_effect keyed id before found data.set (fun _ => rfl) (fun _ => rfl)
          (free_of_taken (fun row : VariantRow => row.id) (·.sku) _ id _
            (Bool.eq_false_iff.mpr untaken))

theorem archiveSku_effect (keyed : rows.Keyed) (id now : Nat) :
    (archiveSku rows id now).rows.Keyed ∧
      Effect rows (archiveSku rows id now).rows (archiveSku rows id now).records := by
  unfold archiveSku
  split
  · exact ⟨keyed, quiet_of (fun _ => rfl) fun row _ => ⟨rfl, rfl, fun _ _ => rfl, rfl⟩⟩
  · rename_i before found
    refine sku_effect keyed id before found (VariantRow.archive now) (fun _ => rfl) (fun _ => rfl)
      fun other stored apart same => apart ?_
    obtain ⟨among, named⟩ := findSku_some id before found
    rw [List.inj_on_of_nodup_map keyed.skus stored among same, named]

end Skus

/-! ## The stored form of money -/

section Currency

theorem lower_letters_upper : ∀ n < 26, Orders.isSpace (Char.ofNat (97 + n)) = false ∧
    Orders.isSpace (Char.ofNat (97 + n)).toUpper = false := by
  decide

theorem isSpace_toUpper (char : Char) : Orders.isSpace char.toUpper = Orders.isSpace char := by
  by_cases lower : 'a'.val ≤ char.val ∧ char.val ≤ 'z'.val
  · have range : 97 ≤ char.toNat ∧ char.toNat ≤ 122 := lower
    obtain ⟨letter, upper⟩ := lower_letters_upper (char.toNat - 97) (by omega)
    rw [Nat.add_sub_cancel' range.1, Char.ofNat_toNat] at letter upper
    exact upper.trans letter.symm
  · rw [show char.toUpper = char from dif_neg lower]

/-- `String.prototype.trim` on characters. -/
def strip (chars : List Char) : List Char :=
  (chars.dropWhile Orders.isSpace).rdropWhile Orders.isSpace

theorem strip_strip (chars : List Char) : strip (strip chars) = strip chars := by
  have kept : (strip chars).dropWhile Orders.isSpace = strip chars := by
    cases stripped : strip chars with
    | nil => rfl
    | cons first rest =>
        have front : strip chars <+: chars.dropWhile Orders.isSpace := List.rdropWhile_prefix _ _
        have head := List.head?_dropWhile_not Orders.isSpace chars
        rw [stripped] at front
        obtain ⟨behind, same⟩ := front
        rw [← same, List.cons_append, List.head?_cons] at head
        exact List.dropWhile_cons_of_neg (by simpa using head)
  rw [strip, kept, strip, List.rdropWhile_idempotent]

theorem strip_upper (chars : List Char) :
    strip (chars.map Char.toUpper) = (strip chars).map Char.toUpper := by
  have same : Orders.isSpace ∘ Char.toUpper = Orders.isSpace :=
    funext isSpace_toUpper
  rw [strip, strip, List.rdropWhile, List.rdropWhile, List.dropWhile_map, same, ← List.map_reverse,
    List.dropWhile_map, same, List.map_reverse]

theorem trim_eq (text : String) : Orders.trim text = strip text.toList := rfl

theorem normalizeCurrency_again (currency code : String)
    (normal : Money.normalizeCurrency currency = .ok code) :
    Money.normalizeCurrency code = .ok code := by
  obtain ⟨_, -, normal⟩ := (bind_eq_ok _ _ _).mp normal
  dsimp only at normal
  split at normal
  · cases normal
  · rename_i three
    cases normal
    rw [not_not] at three
    have trimmed : Orders.trim (String.ofList ((Orders.trim currency).map Char.toUpper)) =
        (Orders.trim currency).map Char.toUpper := by
      rw [trim_eq, String.toList_ofList, trim_eq, strip_upper, strip_strip]
    have upper : ((Orders.trim currency).map Char.toUpper).map Char.toUpper =
        (Orders.trim currency).map Char.toUpper := Orders.upper_again _
    have nonempty : Orders.assertNonEmpty
        (String.ofList ((Orders.trim currency).map Char.toUpper)) "Money.currency" = .ok () := by
      rw [Orders.assertNonEmpty, trimmed, three]
      rfl
    rw [Money.normalizeCurrency, nonempty]
    simp only [bind, Except.bind, trimmed, upper, three]
    rfl

theorem money_again (amountMinor : Int) (currency : String) (money : Money)
    (made : Money.of amountMinor currency = .ok money) :
    Money.of money.amountMinor money.currency = .ok money := by
  obtain ⟨_, safe, made⟩ := (bind_eq_ok _ _ _).mp made
  obtain ⟨code, normal, made⟩ := (bind_eq_ok _ _ _).mp made
  cases made
  rw [Money.of, safe, normalizeCurrency_again currency code normal]
  rfl

end Currency

section Prices

theorem upsertPrice_keyed (keyed : rows.Keyed) (id variantId : Nat) (money : Money)
    (amountMinor : Int) (currency : String) (made : Money.of amountMinor currency = .ok money)
    (prices : List PriceRow) (upserted : upsertPrice rows.prices id variantId money = .ok prices) :
    (prices.map (·.id)).Nodup ∧ (prices.map PriceRow.key).Nodup ∧
      ∀ price ∈ prices,
        Money.of price.amountMinor price.currency = .ok ⟨price.amountMinor, price.currency⟩ := by
  have again := money_again amountMinor currency money made
  unfold upsertPrice at upserted
  split at upserted
  · cases upserted
    have ids : (Tables.update PriceRow.key (variantId, money.currency)
        (fun row => { row with amountMinor := money.amountMinor }) rows.prices).map (·.id) =
          rows.prices.map (·.id) := by
      rw [Tables.update, List.map_map]
      refine List.map_congr_left fun row _ => ?_
      simp only [Function.comp_apply]
      split <;> rfl
    have keys := Tables.map_key_update PriceRow.key (variantId, money.currency)
      (fun row => { row with amountMinor := money.amountMinor }) rows.prices fun _ => rfl
    refine ⟨ids ▸ keyed.prices, keys ▸ keyed.currencies, fun price member => ?_⟩
    · obtain ⟨before, stored, same⟩ := (Tables.mem_update ..).mp member
      rw [← same]
      split
      · rename_i hit
        have here : before.currency = money.currency := congrArg Prod.snd hit
        simp only [here]
        exact again
      · exact keyed.money before stored
  · rename_i unpriced
    split at upserted
    · cases upserted
    · rename_i fresh
      cases upserted
      refine ⟨nodup_append_one _ _ _ keyed.prices fresh,
        nodup_append_one _ _ _ keyed.currencies unpriced, fun price member => ?_⟩
      rcases List.mem_append.mp member with old | new
      · exact keyed.money price old
      · rw [List.mem_singleton.mp new]
        exact again

theorem upsertPrice_others (id variantId : Nat) (money : Money) (stored prices : List PriceRow)
    (upserted : upsertPrice stored id variantId money = .ok prices) (variant : VariantRow)
    (apart : variant.id ≠ variantId) :
    (prices.filter fun row => (some variant).any fun of => row.variantId == of.id) =
      stored.filter fun row => (some variant).any fun of => row.variantId == of.id := by
  have beside : (variantId == variant.id) = false := beq_false_of_ne apart.symm
  unfold upsertPrice at upserted
  split at upserted
  · cases upserted
    refine Tables.filter_update _ _ _ _ _ fun row _ hit => ?_
    have here : row.variantId = variantId := congrArg Prod.fst hit
    exact ⟨by simp [here, beside], by simp [here, beside]⟩
  · split at upserted
    · cases upserted
    · cases upserted
      simp [List.filter_append, beside]

theorem setPrice_effect (keyed : rows.Keyed) (id variantId : Nat) (data : SetPriceData)
    (committed : Committed Price) (priced : setPrice rows id variantId data = .ok committed) :
    committed.rows.Keyed ∧ Effect rows committed.rows committed.records := by
  obtain ⟨money, made, priced⟩ := (bind_eq_ok _ _ _).mp priced
  have made := mapError_eq_ok.mp made
  split at priced
  · cases priced
  · rename_i variant found
    obtain ⟨stored, named⟩ := findSku_some variantId variant found
    obtain ⟨product, here⟩ := owner keyed variant stored
    dsimp only at priced
    obtain ⟨prices, upserted, priced⟩ := (bind_eq_ok _ _ _).mp priced
    rw [mark_eq variant.productId product here] at priced
    cases priced
    obtain ⟨ids, keys, parses⟩ :=
      upsertPrice_keyed keyed id variantId money _ _ made prices upserted
    have bumped := keyed_bumped keyed variant.productId
    refine ⟨{ bumped with prices := ids, currencies := keys, money := parses },
      touched_by_bump variant.productId product here rfl fun row _ apart =>
        ⟨rfl, rfl, fun other listed => ?_, rfl⟩⟩
    have kept := (List.mem_filter.mp listed).2
    simp only [Bool.and_eq_true, beq_iff_eq] at kept
    refine upsertPrice_others id variantId money rows.prices prices upserted other fun same => ?_
    rw [only_sku keyed variantId variant found other (List.mem_filter.mp listed).1 same] at kept
    exact apart kept.1.symm

end Prices

/-! ## Pages of a category -/

section CategoryPages

variable (categoryId : Nat) (afterId : Option Nat) (limit : Nat)

theorem categoryOf_iff (keyed : rows.Keyed) (id : Nat) :
    rows.categoryOf id = some categoryId ↔
      ∃ row ∈ rows.products, row.id = id ∧ row.categoryId = categoryId := by
  constructor
  · intro filed
    obtain ⟨row, found, same⟩ := Option.map_eq_some_iff.mp filed
    obtain ⟨stored, named⟩ := find_stored id row found
    exact ⟨row, stored, named, same⟩
  · rintro ⟨row, stored, rfl, same⟩
    rw [Rows.categoryOf, find_product keyed row stored, Option.map_some, same]

theorem upto_total : Std.Total fun first second : ProductRow => first.id ≤ second.id :=
  ⟨fun first second => Nat.le_total first.id second.id⟩

theorem upto_trans : IsTrans ProductRow fun first second => first.id ≤ second.id :=
  ⟨fun _ _ _ => Nat.le_trans⟩

/-- A product of the category behind the cursor is on the next page, or behind its last id. -/
theorem page_or_past (keyed : rows.Keyed) (positive : 0 < limit) (id : Nat)
    (filed : rows.categoryOf id = some categoryId)
    (behind : ∀ after, afterId = some after → after < id) :
    id ∈ categoryPage rows categoryId afterId limit ∨
      ∃ last, (categoryPage rows categoryId afterId limit).getLast? = some last ∧ last < id := by
  have total := upto_total
  have trans := upto_trans
  obtain ⟨row, stored, rfl, same⟩ := (categoryOf_iff categoryId keyed id).mp filed
  have chosen : (row.categoryId == categoryId && afterId.all fun id => decide (id < row.id)) =
      true := by
    rw [same, beq_self_eq_true, Bool.true_and]
    cases afterId with
    | none => rfl
    | some after => exact decide_eq_true (behind after rfl)
  rw [categoryPage, List.getLast?_map]
  cases ends : (Pages.page (fun first second : ProductRow => first.id ≤ second.id)
      (fun row => row.categoryId == categoryId && afterId.all fun id => decide (id < row.id))
      limit rows.products).getLast? with
  | none =>
      have empty := List.getLast?_eq_none_iff.mp ends
      refine .inl (List.mem_map_of_mem (Pages.mem_page_of_short _ _ _ _ _ ?_ stored chosen))
      rw [empty]
      exact positive
  | some last =>
      rcases Pages.mem_page_or_past _ _ _ _ _ _ stored chosen ends with listed | past
      · exact .inl (List.mem_map_of_mem listed)
      · rcases Nat.lt_or_eq_of_le past with less | equal
        · exact .inr ⟨last.id, rfl, less⟩
        · exact .inl (equal ▸ List.mem_map_of_mem (List.mem_of_getLast? ends))

/-- The bump raises the versions of its page and shows nothing else. -/
theorem bump_state (rows : Rows) (id : Nat) :
    (bumpCategoryProducts rows categoryId afterId limit).2.stateOf id =
        (rows.stateOf id).map (fun state =>
          if id ∈ categoryPage rows categoryId afterId limit then
            { state with version := state.version + 1 } else state) ∧
      (bumpCategoryProducts rows categoryId afterId limit).2.categoryOf id =
        rows.categoryOf id := by
  have each : (bumpCategoryProducts rows categoryId afterId limit).2.findProduct id =
      (rows.findProduct id).map fun row =>
        if row.id ∈ categoryPage rows categoryId afterId limit then row.bump else row := by
    rw [Rows.findProduct, Rows.findProduct, bumpCategoryProducts, List.find?_map]
    refine congrArg (Option.map _) (congrArg (List.find? · _) (funext fun row => ?_))
    simp only [Function.comp_apply]
    split <;> rfl
  constructor
  · rw [Rows.stateOf, Rows.stateOf, each, Option.map_map, Option.map_map]
    cases found : rows.findProduct id with
    | none => rfl
    | some row =>
        rw [← (find_stored id row found).2]
        simp only [Option.map_some, Function.comp_apply]
        split <;> rfl
  · rw [Rows.categoryOf, Rows.categoryOf, each, Option.map_map]
    cases rows.findProduct id with
    | none => rfl
    | some row =>
        simp only [Option.map_some, Function.comp_apply]
        split <;> rfl

theorem bump_keyed (keyed : rows.Keyed) :
    (bumpCategoryProducts rows categoryId afterId limit).2.Keyed := by
  have same : ∀ {β : Type} (column : ProductRow → β) (_ : ∀ row, column row.bump = column row),
      (rows.products.map fun row =>
        if row.id ∈ categoryPage rows categoryId afterId limit then row.bump else row).map column =
          rows.products.map column := by
    intro β column kept
    rw [List.map_map]
    refine List.map_congr_left fun row _ => ?_
    simp only [Function.comp_apply]
    split
    · exact kept row
    · rfl
  have ids := same (fun row => row.id) fun _ => rfl
  refine { keyed with
    products := ids ▸ keyed.products
    productSlugs := (same (fun row => row.slug) fun _ => rfl) ▸ keyed.productSlugs
    filed := fun product stored => ?_
    owned := fun variant stored => ids ▸ keyed.owned variant stored }
  obtain ⟨before, among, rfl⟩ := List.mem_map.mp stored
  have kept := keyed.filed before among
  split <;> exact kept

end CategoryPages

end Commerce.Listing
