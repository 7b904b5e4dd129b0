import Commerce.Catalog.Products

/-!
# Reads of the catalog tables

The columns of the `ORDER BY` nest the joined rows, so that a read answers with
each public product once, in order of id, its live SKUs in order of creation.
The state of search is read from one snapshot.
-/

set_option autoImplicit false

namespace Commerce.Listing

open Commerce.Orders (Money)
open Grouping Sorting

/-! ## Order of the joined rows -/

theorem leftJoin_perm {α : Type} {found other : List α} (perm : found.Perm other) :
    (leftJoin found).Perm (leftJoin other) := by
  cases found with
  | nil => rw [List.nil_perm.mp perm]
  | cons first rest =>
      cases other with
      | nil => exact absurd (List.perm_nil.mp perm) (List.cons_ne_nil first rest)
      | cons second later => exact perm.map some

theorem mem_leftJoin {α : Type} (found : List α) (entry : Option α) :
    entry ∈ leftJoin found ↔ (found = [] ∧ entry = none) ∨ ∃ row ∈ found, entry = some row := by
  cases found with
  | nil => simp [leftJoin]
  | cons first rest => simp [leftJoin, eq_comm]

theorem leftJoin_sorted {α : Type} (found : List α) (R : α → α → Prop)
    (S : Option α → Option α → Prop)
    (lifts : ∀ first second, R first second → S (some first) (some second))
    (sorted : found.Pairwise R) : (leftJoin found).Pairwise S := by
  cases found with
  | nil => exact List.pairwise_singleton S none
  | cons first rest => exact (List.pairwise_map.mpr (sorted.imp (lifts _ _)))

namespace Nest

theorem mem_rows (nest : Nest) (row : Joined) :
    row ∈ nest.rows ↔ (row.product, row.category) ∈ nest.heads ∧
      row.variant ∈ leftJoin (nest.variants row.product) ∧
        row.price ∈ leftJoin (nest.prices row.variant) := by
  constructor
  · intro member
    obtain ⟨head, among, inside⟩ := List.mem_flatMap.mp member
    obtain ⟨variant, listed, inner⟩ := List.mem_flatMap.mp inside
    obtain ⟨price, priced, rfl⟩ := List.mem_map.mp inner
    exact ⟨among, listed, priced⟩
  · rintro ⟨among, listed, priced⟩
    refine List.mem_flatMap.mpr ⟨_, among, List.mem_flatMap.mpr ⟨_, listed, ?_⟩⟩
    exact List.mem_map.mpr ⟨_, priced, rfl⟩

theorem rows_perm (nest other : Nest) (heads : nest.heads.Perm other.heads)
    (variants : ∀ product, (nest.variants product).Perm (other.variants product))
    (prices : ∀ variant, (nest.prices variant).Perm (other.prices variant)) :
    nest.rows.Perm other.rows :=
  heads.flatMap fun head _ => (leftJoin_perm (variants head.1)).flatMap fun variant _ =>
    (leftJoin_perm (prices variant)).map _

/-- Products by the leading column, SKUs by creation, prices by currency. -/
structure Sorted (nest : Nest) (lead : ProductRow → Nat) : Prop where
  heads : nest.heads.Pairwise fun first second => lead first.1 < lead second.1
  variants : ∀ product, (nest.variants product).Pairwise fun first second => first.age < second.age
  prices : ∀ variant, (nest.prices variant).Pairwise fun first second =>
    first.currency < second.currency

variable {lead : ProductRow → Nat}

theorem order_of_product (row other : Joined) (less : lead row.product < lead other.product) :
    row.order lead ≤ other.order lead := Prod.Lex.toLex_le_toLex.mpr (.inl less)

theorem order_of_variant (row other : Joined) (product : row.product = other.product)
    (first second : VariantRow) (left : row.variant = some first)
    (right : other.variant = some second) (less : first.age < second.age) :
    row.order lead ≤ other.order lead := by
  rw [Joined.order, Joined.order, left, right, product]
  refine Prod.Lex.toLex_le_toLex.mpr (.inr ⟨rfl, Prod.Lex.toLex_le_toLex.mpr ?_⟩)
  rcases Prod.Lex.toLex_lt_toLex.mp less with earlier | ⟨together, before⟩
  · exact .inl (WithTop.coe_lt_coe.mpr earlier)
  · exact .inr ⟨congrArg (fun created : Nat => (created : WithTop Nat)) together,
      Prod.Lex.toLex_le_toLex.mpr (.inl (WithTop.coe_lt_coe.mpr before))⟩

theorem order_of_price (row other : Joined) (product : row.product = other.product)
    (variant : row.variant = other.variant) (first second : PriceRow)
    (left : row.price = some first) (right : other.price = some second)
    (less : first.currency < second.currency) : row.order lead ≤ other.order lead := by
  rw [Joined.order, Joined.order, left, right, variant, product]
  refine Prod.Lex.toLex_le_toLex.mpr (.inr ⟨rfl, Prod.Lex.toLex_le_toLex.mpr (.inr ⟨rfl, ?_⟩)⟩)
  exact Prod.Lex.toLex_le_toLex.mpr (.inr ⟨rfl, (WithTop.coe_lt_coe.mpr less).le⟩)

theorem mem_variantRows (nest : Nest) (head : ProductRow × CategoryRow)
    (variant : Option VariantRow) (row : Joined) (member : row ∈ nest.variantRows head variant) :
    row.product = head.1 ∧ row.variant = variant := by
  obtain ⟨price, -, rfl⟩ := List.mem_map.mp member
  exact ⟨rfl, rfl⟩

theorem mem_headRows (nest : Nest) (head : ProductRow × CategoryRow) (row : Joined)
    (member : row ∈ nest.headRows head) : row.product = head.1 := by
  obtain ⟨variant, -, inside⟩ := List.mem_flatMap.mp member
  exact (mem_variantRows nest head variant row inside).1

theorem rows_sorted (nest : Nest) (sorted : nest.Sorted lead) :
    nest.rows.Pairwise fun row other => row.order lead ≤ other.order lead := by
  refine List.pairwise_flatMap.mpr ⟨fun head _ =>
    List.pairwise_flatMap.mpr ⟨fun variant _ => ?_, ?_⟩,
    sorted.heads.imp fun less row among other later => ?_⟩
  · -- the prices of one SKU
    refine List.pairwise_map.mpr (leftJoin_sorted _ _ _ (fun first second less => ?_)
      (sorted.prices variant))
    exact order_of_price _ _ rfl rfl first second rfl rfl less
  · -- the SKUs of one product
    refine leftJoin_sorted _ _ _ (fun first second less row among other later => ?_)
      (sorted.variants head.1)
    obtain ⟨here, left⟩ := mem_variantRows nest head _ row among
    obtain ⟨there, right⟩ := mem_variantRows nest head _ other later
    exact order_of_variant row other (here.trans there.symm) first second left right less
  · apply order_of_product
    rw [mem_headRows nest _ row among, mem_headRows nest _ other later]
    exact less

theorem nullsLast_inj {α : Type} (first second : Option α)
    (same : nullsLast first = nullsLast second) : first = second := by
  cases first with
  | none =>
      cases second with
      | none => rfl
      | some value => exact absurd same.symm WithTop.coe_ne_top
  | some value =>
      cases second with
      | none => exact absurd same WithTop.coe_ne_top
      | some other => exact congrArg some (WithTop.coe_injective same)

/-- A left-joined column is determined by a key that its matches have alone. -/
theorem leftJoin_inj {α κ : Type} (found : List α) (key : α → κ)
    (distinct : (found.map key).Nodup) (first second : Option α) (among : first ∈ leftJoin found)
    (member : second ∈ leftJoin found) (same : first.map key = second.map key) :
    first = second := by
  rcases (mem_leftJoin found first).mp among with ⟨-, rfl⟩ | ⟨row, listed, rfl⟩
  · rcases (mem_leftJoin found second).mp member with ⟨-, rfl⟩ | ⟨other, -, rfl⟩
    · rfl
    · cases same
  · rcases (mem_leftJoin found second).mp member with ⟨-, rfl⟩ | ⟨other, beside, rfl⟩
    · cases same
    · have keys : key row = key other := Option.some_inj.mp same
      rw [List.inj_on_of_nodup_map distinct listed beside keys]

theorem order_inj (nest : Nest) (heads : (nest.heads.map (lead ·.1)).Nodup)
    (variants : ∀ product, ((nest.variants product).map (·.id)).Nodup)
    (currencies : ∀ variant, ((nest.prices variant).map (·.currency)).Nodup)
    (row other : Joined) (among : row ∈ nest.rows) (member : other ∈ nest.rows)
    (same : row.order lead = other.order lead) : row = other := by
  obtain ⟨head, listed, priced⟩ := (mem_rows nest row).mp among
  obtain ⟨otherHead, otherListed, otherPriced⟩ := (mem_rows nest other).mp member
  have keys := Prod.mk.inj (toLex.injective same)
  have rest := Prod.mk.inj (toLex.injective keys.2)
  have last := Prod.mk.inj (toLex.injective rest.2)
  have pair : (row.product, row.category) = (other.product, other.category) :=
    List.inj_on_of_nodup_map heads head otherHead keys.1
  obtain ⟨product, category⟩ := Prod.mk.inj pair
  have variant : row.variant = other.variant := by
    refine leftJoin_inj _ (·.id) (variants row.product) _ _ listed ?_ (nullsLast_inj _ _ last.1)
    rw [product]
    exact otherListed
  have price : row.price = other.price := by
    refine leftJoin_inj _ (·.currency) (currencies row.variant) _ _ priced ?_
      (nullsLast_inj _ _ last.2)
    rw [variant]
    exact otherPriced
  exact Joined.ext product category variant price

end Nest

/-! ## The read of the tables -/

section Reads

variable {rows : Rows}

def Product.shown (imagesByProduct : List (Nat × List Nat)) (product : Product) : Product :=
  { product with imageAssetIds := gathered imagesByProduct product.id }

def Rows.headsOf (rows : Rows) (products : List ProductRow) : List (ProductRow × CategoryRow) :=
  products.flatMap fun product => (rows.liveCategories product).map fun category =>
    (product, category)

def Rows.joinNest (rows : Rows) (chosen : List ProductRow) : Nest where
  heads := rows.headsOf chosen
  variants := rows.liveVariants
  prices := rows.pricesOf

def Rows.sortedNest (rows : Rows) (lead : ProductRow → Nat) (chosen : List ProductRow) : Nest where
  heads := rows.headsOf (sortBy lead chosen)
  variants product := sortBy VariantRow.age (rows.liveVariants product)
  prices variant := sortBy PriceRow.currency (rows.pricesOf variant)

theorem join_nest (rows : Rows) (chosen : List ProductRow) :
    rows.join chosen = (rows.joinNest chosen).rows := by
  rw [Rows.join, Nest.rows, Rows.joinNest, Rows.headsOf, List.flatMap_assoc]
  refine congrArg (List.flatMap · _) (funext fun product => ?_)
  rw [List.flatMap_map]
  rfl

theorem single_of_key {α κ : Type} (key : α → κ) (found : List α) (value : κ)
    (distinct : (found.map key).Nodup) (all : ∀ row ∈ found, key row = value) :
    found = found.head?.toList := by
  cases found with
  | nil => rfl
  | cons first rest =>
      have none : rest = [] := by
        refine List.eq_nil_iff_forall_not_mem.mpr fun row later => ?_
        refine (List.nodup_cons.mp distinct).1 (List.mem_map.mpr ⟨row, later, ?_⟩)
        rw [all row (List.mem_cons_of_mem _ later), all first List.mem_cons_self]
      rw [none]
      rfl

theorem mem_liveCategories (product : ProductRow) (category : CategoryRow) :
    category ∈ rows.liveCategories product ↔ category ∈ rows.categories ∧
      category.id = product.categoryId ∧ category.archivedAt = none := by
  rw [Rows.liveCategories, List.mem_filter]
  simp

theorem liveCategories_single (keyed : rows.Keyed) (product : ProductRow) :
    rows.liveCategories product = (rows.liveCategories product).head?.toList := by
  refine single_of_key (·.id) _ product.categoryId
    (keyed.categories.sublist (List.filter_sublist.map _)) fun row member => ?_
  have kept := (List.mem_filter.mp member).2
  simp only [Bool.and_eq_true, beq_iff_eq] at kept
  exact kept.1

theorem headsOf_filterMap (keyed : rows.Keyed) (products : List ProductRow) :
    rows.headsOf products = products.filterMap fun product =>
      (rows.liveCategories product).head?.map fun category => (product, category) := by
  rw [Rows.headsOf, List.filterMap_eq_flatMap_toList]
  refine congrArg (List.flatMap · _) (funext fun product => ?_)
  rw [liveCategories_single keyed product]
  cases (rows.liveCategories product).head? <;> rfl

theorem headsOf_sorted (keyed : rows.Keyed) (lead : ProductRow → Nat) (products : List ProductRow)
    (sorted : products.Pairwise fun first second => lead first < lead second) :
    (rows.headsOf products).Pairwise fun first second => lead first.1 < lead second.1 := by
  rw [headsOf_filterMap keyed, List.pairwise_filterMap]
  refine sorted.imp fun less head found other later => ?_
  obtain ⟨category, -, rfl⟩ := Option.map_eq_some_iff.mp found
  obtain ⟨beside, -, rfl⟩ := Option.map_eq_some_iff.mp later
  exact less

theorem products_distinct (keyed : rows.Keyed) (p : ProductRow → Bool) :
    ((rows.products.filter p).map ProductRow.id).Nodup :=
  keyed.products.sublist (List.filter_sublist.map _)

theorem ages_distinct (keyed : rows.Keyed) (product : ProductRow) :
    ((rows.liveVariants product).map VariantRow.age).Nodup := by
  have ids : ((rows.liveVariants product).map (·.id)).Nodup :=
    keyed.variants.sublist (List.filter_sublist.map _)
  exact nodup_of_coarser _ _ _ (fun first second same =>
    congrArg (fun age : Nat ×ₗ Nat => (ofLex age).2) same) ids

theorem currencies_distinct (keyed : rows.Keyed) (variant : Option VariantRow) :
    ((rows.pricesOf variant).map PriceRow.currency).Nodup := by
  have keys : ((rows.pricesOf variant).map PriceRow.key).Nodup :=
    keyed.currencies.sublist (List.filter_sublist.map _)
  refine (List.nodup_map_iff_inj_on (List.Nodup.of_map _ keys)).mpr ?_
  intro first among second member same
  have ofFirst := (List.mem_filter.mp among).2
  have ofSecond := (List.mem_filter.mp member).2
  cases variant with
  | none => cases ofFirst
  | some row =>
      have left : first.variantId = row.id := of_decide_eq_true ofFirst
      have right : second.variantId = row.id := of_decide_eq_true ofSecond
      have key : first.key = second.key := Prod.ext (left.trans right.symm) same
      exact List.inj_on_of_nodup_map keys among member key

section Chosen

variable (keyed : rows.Keyed) (lead : ProductRow → Nat) (chosen : List ProductRow)
  (stored : chosen.Sublist rows.products) (leads : (chosen.map lead).Nodup)

include keyed leads

theorem sortedNest_sorted : (rows.sortedNest lead chosen).Sorted lead where
  heads := headsOf_sorted keyed lead _ (sortBy_strict _ _ leads)
  variants product := sortBy_strict _ _ (ages_distinct keyed product)
  prices variant := sortBy_strict _ _ (currencies_distinct keyed variant)

theorem sortedNest_leads : ((rows.sortedNest lead chosen).heads.map (lead ·.1)).Nodup :=
  nodup_of_strict _ _ (sortedNest_sorted keyed lead chosen leads).heads

omit leads in
include stored in
theorem sortedNest_keyed : (rows.sortedNest lead chosen).Keyed where
  heads := by
    have ids : ((sortBy lead chosen).map ProductRow.id).Nodup :=
      ((sortBy_perm lead chosen).map _).nodup_iff.mpr (keyed.products.sublist (stored.map _))
    change ((rows.headsOf (sortBy lead chosen)).map _).Nodup
    rw [headsOf_filterMap keyed]
    refine List.pairwise_map.mpr (List.pairwise_filterMap.mpr ?_)
    refine (List.pairwise_map.mp ids).imp fun apart head found other later => ?_
    obtain ⟨category, -, rfl⟩ := Option.map_eq_some_iff.mp found
    obtain ⟨beside, -, rfl⟩ := Option.map_eq_some_iff.mp later
    exact apart
  variants product := by
    refine ((sortBy_perm _ _).map _).nodup_iff.mpr ?_
    exact keyed.variants.sublist (List.filter_sublist.map _)
  prices variant := by
    refine ((sortBy_perm _ _).map _).nodup_iff.mpr ?_
    exact keyed.prices.sublist (List.filter_sublist.map _)
  bare := by simp [Rows.sortedNest, Rows.pricesOf, sortBy]
  money variant price member :=
    keyed.money price (List.mem_filter.mp ((mem_sortBy _ _ _).mp member)).1

omit keyed leads in
theorem nests_perm : (rows.joinNest chosen).rows.Perm (rows.sortedNest lead chosen).rows :=
  Nest.rows_perm _ _ ((sortBy_perm _ _).symm.flatMap_right _)
    (fun _ => (sortBy_perm _ _).symm) (fun _ => (sortBy_perm _ _).symm)

include stored

theorem sorted_join :
    sortBy (Joined.order lead) (rows.join chosen) = (rows.sortedNest lead chosen).rows := by
  have perm : (rows.joinNest chosen).rows.Perm (rows.sortedNest lead chosen).rows :=
    nests_perm lead chosen
  have sorted := sortedNest_sorted keyed lead chosen leads
  rw [join_nest]
  refine sortBy_eq _ _ _ perm (Nest.rows_sorted _ sorted) fun row among other member same => ?_
  exact Nest.order_inj _ (sortedNest_leads keyed lead chosen leads)
    (sortedNest_keyed keyed lead chosen stored).variants
    (fun variant => nodup_of_strict _ _ (sorted.prices variant)) row other
    (perm.mem_iff.mp among) (perm.mem_iff.mp member) same

/-- The read of chosen products answers with each of them that is in a live category, with the
images it was given. -/
theorem assemble_flatRows (imagesByProduct : List (Nat × List Nat)) :
    assembleProducts (rows.flatRows lead chosen) imagesByProduct =
      .ok (((sortBy lead chosen).filterMap rows.liveProduct).map (·.shown imagesByProduct)) := by
  rw [Rows.flatRows, sorted_join keyed lead chosen stored leads,
    assemble_nest (sortedNest_keyed keyed lead chosen stored)]
  refine congrArg Except.ok ?_
  change (rows.headsOf _).map _ = _
  rw [headsOf_filterMap keyed, List.map_filterMap, List.map_filterMap]
  refine List.filterMap_congr fun row _ => ?_
  rw [Rows.liveProduct, Option.map_map, Option.map_map]
  rfl

end Chosen

theorem display_inj (first second : ProductImageRow) (same : first.display = second.display) :
    first.id = second.id :=
  congrArg (fun place : Int ×ₗ Nat => (ofLex place).2) same

/-- The images loaded for products are all their images. -/
theorem gathered_loadImageAssetIds (keyed : rows.Keyed) (productIds : List Nat) (id : Nat)
    (asked : id ∈ productIds) :
    gathered (rows.loadImageAssetIds productIds) id = rows.assetsOf id := by
  have filled : productIds.isEmpty = false := by
    rw [List.isEmpty_eq_false_iff]
    exact List.ne_nil_of_mem asked
  have apart : (rows.images.map ProductImageRow.display).Nodup :=
    nodup_of_coarser _ _ _ display_inj keyed.images
  rw [Rows.loadImageAssetIds, filled]
  simp only [Bool.false_eq_true, if_false]
  rw [gathered_foldl, List.filter_map, List.map_map, sortBy_filter _ _ _ apart, List.filter_filter,
    Rows.assetsOf, sortBy_filter _ _ _ apart]
  refine congrArg (List.map _) (List.filter_congr fun row _ => ?_)
  simp only [Function.comp_apply]
  by_cases here : row.productId = id
  · simp [here, asked]
  · simp [here]

/-- Loaded images show a product as it is. -/
theorem shown_loaded (keyed : rows.Keyed) (productIds : List Nat) (row : ProductRow)
    (product : Product) (live : rows.liveProduct row = some product)
    (asked : row.id ∈ productIds) :
    product.shown (rows.loadImageAssetIds productIds) = product := by
  obtain ⟨category, -, rfl⟩ := Option.map_eq_some_iff.mp live
  have loaded : gathered (rows.loadImageAssetIds productIds) row.id = rows.assetsOf row.id :=
    gathered_loadImageAssetIds keyed productIds row.id asked
  exact congrArg (fun assets => { rows.product row category with imageAssetIds := assets }) loaded

/-- The public read answers with each public product once, in order of id. -/
theorem hydrateActive_eq (keyed : rows.Keyed) (ids : List Nat) :
    rows.hydrateActive ids =
      .ok ((sortBy ProductRow.id (rows.among ids)).filterMap rows.publicProduct) := by
  have stored : (rows.among ids).Sublist rows.products := List.filter_sublist
  have distinct : ((rows.among ids).map ProductRow.id).Nodup :=
    keyed.products.sublist (stored.map _)
  unfold Rows.hydrateActive
  split
  · rename_i empty
    have nothing : rows.among ids = [] := by
      rw [Rows.among, List.isEmpty_iff.mp empty]
      exact List.filter_eq_nil_iff.mpr fun row _ => by simp
    rw [nothing]
    rfl
  · rw [assemble_flatRows keyed _ _ (List.filter_sublist.trans stored)
      (distinct.sublist (List.filter_sublist.map _)), sortBy_filter _ _ _ distinct,
      List.filterMap_filter, List.map_filterMap]
    refine congrArg Except.ok (List.filterMap_congr fun row member => ?_)
    have asked : row.id ∈ ids := by
      simpa using (List.mem_filter.mp ((mem_sortBy _ _ _).mp member)).2
    unfold Rows.publicProduct
    by_cases active : row.status = .active
    · cases live : rows.liveProduct row with
      | none => simp [active]
      | some product => simp [active, shown_loaded keyed ids row product live asked]
    · simp [active]

theorem find_product (keyed : rows.Keyed) (row : ProductRow) (stored : row ∈ rows.products) :
    rows.findProduct row.id = some row := by
  cases found : rows.findProduct row.id with
  | none => exact absurd (beq_self_eq_true row.id) (List.find?_eq_none.mp found row stored)
  | some other =>
      have same : other.id = row.id := by simpa using List.find?_some found
      have among : other ∈ rows.products := List.mem_of_find?_eq_some found
      rw [List.inj_on_of_nodup_map keyed.products among stored same]

theorem liveProduct_id (row : ProductRow) (product : Product)
    (live : rows.liveProduct row = some product) : product.id = row.id := by
  obtain ⟨category, -, rfl⟩ := Option.map_eq_some_iff.mp live
  rfl

theorem publicProduct_id (row : ProductRow) (product : Product)
    (shown : rows.publicProduct row = some product) : product.id = row.id := by
  unfold Rows.publicProduct at shown
  split at shown
  · exact liveProduct_id row product shown
  · cases shown

theorem find_publicProduct (products : List ProductRow)
    (distinct : (products.map ProductRow.id).Nodup) (row : ProductRow) (member : row ∈ products) :
    ((products.filterMap rows.publicProduct).find? fun product => product.id == row.id) =
      rows.publicProduct row := by
  induction products with
  | nil => cases member
  | cons first rest ih =>
      obtain ⟨fresh, later⟩ := List.nodup_cons.mp distinct
      rcases List.mem_cons.mp member with rfl | behind
      · cases shown : rows.publicProduct row with
        | some product =>
            rw [List.filterMap_cons_some shown, List.find?_cons_of_pos]
            simp [publicProduct_id row product shown]
        | none =>
            rw [List.filterMap_cons_none shown, List.find?_eq_none]
            intro product among same
            obtain ⟨other, listed, shownOther⟩ := List.mem_filterMap.mp among
            have ids : other.id = row.id :=
              (publicProduct_id other product shownOther).symm.trans (of_decide_eq_true same)
            exact fresh (ids ▸ List.mem_map_of_mem listed)
      · have apart : first.id ≠ row.id := fun same => fresh (same ▸ List.mem_map_of_mem behind)
        cases shown : rows.publicProduct first with
        | some product =>
            rw [List.filterMap_cons_some shown, List.find?_cons_of_neg, ih later behind]
            rw [publicProduct_id first product shown]
            simpa using apart
        | none =>
            rw [List.filterMap_cons_none shown, ih later behind]

end Reads

/-! ## The state of search -/

def defaultCurrency : String := "VND"

structure SearchableProduct where
  id : Nat
  name : String
  slug : String
  description : Option String
  categorySlug : String
  categoryName : String
  status : ProductStatus
  skus : List String
  minPriceMinor : Option Int
  currency : Option String
  createdAtEpoch : Nat
  deriving DecidableEq, Repr

def toSearchableProduct (product : Product) : SearchableProduct :=
  let amountsMinor := ((product.variants.flatMap (·.prices)).filter
    fun price => price.currency == defaultCurrency).map (·.amountMinor)
  { id := product.id
    name := product.name
    slug := product.slug
    description := product.description
    categorySlug := product.category.slug
    categoryName := product.category.name
    status := product.status
    skus := product.variants.map (·.sku)
    minPriceMinor := amountsMinor.min?
    currency := if amountsMinor.min?.isNone then none else some defaultCurrency
    createdAtEpoch := product.createdAt }

structure ProductSearchState where
  id : Nat
  version : Nat
  product : Option Product
  deriving DecidableEq, Repr

/-- Versions and projection of one snapshot. -/
def Rows.findByIds (rows : Rows) (ids : List Nat) : Except String (List ProductSearchState) :=
  let versions := sortBy ProductRow.id (rows.among ids)
  rows.hydrateActive (versions.map (·.id)) >>= fun byId =>
    .ok (versions.map fun row =>
      ⟨row.id, row.searchVersion, byId.find? fun product => product.id == row.id⟩)

def Rows.searchState (rows : Rows) (row : ProductRow) : ProductSearchState :=
  ⟨row.id, row.searchVersion, rows.publicProduct row⟩

/-- Each known product is read once, with the version and projection of its row. -/
theorem findByIds_eq {rows : Rows} (keyed : rows.Keyed) (ids : List Nat) :
    rows.findByIds ids = .ok ((sortBy ProductRow.id (rows.among ids)).map rows.searchState) := by
  have distinct := products_distinct keyed fun row => ids.contains row.id
  have again : rows.among ((sortBy ProductRow.id (rows.among ids)).map (·.id)) =
      rows.among ids := by
    refine List.filter_congr fun row member => ?_
    rw [Bool.eq_iff_iff, List.contains_iff_mem, List.contains_iff_mem, List.mem_map]
    constructor
    · rintro ⟨other, among, same⟩
      rw [← same]
      simpa using (List.mem_filter.mp ((mem_sortBy _ _ _).mp among)).2
    · intro asked
      exact ⟨row, (mem_sortBy _ _ _).mpr (List.mem_filter.mpr ⟨member, by simpa using asked⟩), rfl⟩
  rw [Rows.findByIds, hydrateActive_eq keyed, again]
  refine congrArg Except.ok (List.map_congr_left fun row member => ?_)
  have ids :=
    ((sortBy_perm ProductRow.id (rows.among ids)).map ProductRow.id).nodup_iff.mpr distinct
  rw [find_publicProduct _ ids row member]
  rfl

end Commerce.Listing
