import Commerce.Catalog.Rows
import Commerce.Lib.Grouping
import Commerce.Lib.Sorting
import Mathlib.Data.Prod.Lex
import Mathlib.Data.String.Basic
import Mathlib.Order.WithBot

/-!
# Products from joined rows

The public read joins products, live categories, live SKUs and prices into flat
rows, one for each price, and assembles products from them.  From rows nested
by product and SKU the assembly gives back each product once, with each of its
SKUs once, and each price of a SKU once.
-/

set_option autoImplicit false

namespace Commerce.Listing

open Commerce.Orders (Money)
open Grouping Results Sorting

/-! ## The joined rows -/

structure ProductFlatRow where
  productId : Nat
  productName : String
  productSlug : String
  productDescription : Option String
  productStatus : ProductStatus
  productCreatedAt : Nat
  categorySlug : String
  categoryName : String
  variantId : Option Nat
  variantSku : Option String
  variantName : Option String
  priceId : Option Nat
  priceCurrency : Option String
  priceAmountMinor : Option Int
  deriving DecidableEq, Repr

@[ext]
structure Joined where
  product : ProductRow
  category : CategoryRow
  variant : Option VariantRow
  price : Option PriceRow
  deriving DecidableEq, Repr

def Joined.flat (row : Joined) : ProductFlatRow where
  productId := row.product.id
  productName := row.product.name
  productSlug := row.product.slug
  productDescription := row.product.description
  productStatus := row.product.status
  productCreatedAt := row.product.createdAt
  categorySlug := row.category.slug
  categoryName := row.category.name
  variantId := row.variant.map (·.id)
  variantSku := row.variant.map (·.sku)
  variantName := row.variant.map (·.name)
  priceId := row.price.map (·.id)
  priceCurrency := row.price.map (·.currency)
  priceAmountMinor := row.price.map (·.amountMinor)

/-- What a left join puts beside a row: its matches, or one row of nulls. -/
def leftJoin {α : Type} (found : List α) : List (Option α) :=
  match found with
  | [] => [none]
  | first :: rest => (first :: rest).map some

def Rows.liveCategories (rows : Rows) (product : ProductRow) : List CategoryRow :=
  rows.categories.filter fun row => row.id == product.categoryId && row.archivedAt.isNone

def Rows.liveVariants (rows : Rows) (product : ProductRow) : List VariantRow :=
  rows.variants.filter fun row => row.productId == product.id && row.archivedAt.isNone

def Rows.pricesOf (rows : Rows) (variant : Option VariantRow) : List PriceRow :=
  rows.prices.filter fun row => variant.any fun of => row.variantId == of.id

/-- The join of chosen products with their live categories, their live SKUs and the prices. -/
def Rows.join (rows : Rows) (chosen : List ProductRow) : List Joined :=
  chosen.flatMap fun product =>
    (rows.liveCategories product).flatMap fun category =>
      (leftJoin (rows.liveVariants product)).flatMap fun variant =>
        (leftJoin (rows.pricesOf variant)).map fun price => ⟨product, category, variant, price⟩

def nullsLast {α : Type} : Option α → WithTop α
  | none => ⊤
  | some value => value

/-- The columns of an `ORDER BY`: one of the product, then those of the SKU and the price. -/
def Joined.order (lead : ProductRow → Nat) (row : Joined) :
    Nat ×ₗ WithTop Nat ×ₗ WithTop Nat ×ₗ WithTop String :=
  toLex (lead row.product, toLex (nullsLast (row.variant.map (·.createdAt)),
    toLex (nullsLast (row.variant.map (·.id)), nullsLast (row.price.map (·.currency)))))

def Rows.flatRows (rows : Rows) (lead : ProductRow → Nat) (chosen : List ProductRow) :
    List ProductFlatRow :=
  (sortBy (Joined.order lead) (rows.join chosen)).map Joined.flat

/-! ## Assembly -/

structure ProductVariant where
  id : Nat
  sku : String
  name : String
  prices : List Money
  deriving DecidableEq, Repr

structure ProductCategory where
  slug : String
  name : String
  deriving DecidableEq, Repr

structure Product where
  id : Nat
  name : String
  slug : String
  description : Option String
  status : ProductStatus
  category : ProductCategory
  variants : List ProductVariant
  createdAt : Nat
  imageAssetIds : List Nat
  deriving DecidableEq, Repr

structure VariantAcc where
  id : Nat
  sku : String
  name : String
  prices : List (Nat × Money)

structure ProductAcc where
  row : ProductFlatRow
  variants : List VariantAcc

/-- A price is parsed where its id is first seen; later rows of the id are passed over. -/
def priceGroups : Groups String (Nat × String × Int) (Nat × Money) Nat where
  keyOf row := row.1
  key group := group.1
  start row := Money.of row.2.2 row.2.1 >>= fun money => .ok (row.1, money)
  add group _ := .ok group
  opens row group opened := by
    obtain ⟨money, -, same⟩ := (bind_eq_ok _ _ _).mp opened
    cases same
    rfl
  keeps group row next added := by
    cases added
    rfl

def VariantAcc.addPrice (variant : VariantAcc) (row : ProductFlatRow) : Except String VariantAcc :=
  match row.priceId, row.priceCurrency, row.priceAmountMinor with
  | some priceId, some currency, some amountMinor =>
      priceGroups.place variant.prices (priceId, currency, amountMinor) >>= fun prices =>
        .ok { variant with prices := prices }
  | _, _, _ => .ok variant

theorem addPrice_id (variant next : VariantAcc) (row : ProductFlatRow)
    (added : variant.addPrice row = .ok next) : next.id = variant.id := by
  unfold VariantAcc.addPrice at added
  split at added
  · obtain ⟨prices, -, same⟩ := (bind_eq_ok _ _ _).mp added
    cases same
    rfl
  · cases added
    rfl

def variantGroups : Groups String (Nat × ProductFlatRow) VariantAcc Nat where
  keyOf row := row.1
  key group := group.id
  start row := .ok ⟨row.1, row.2.variantSku.getD "", row.2.variantName.getD "", []⟩
  add variant row := variant.addPrice row.2
  opens row group opened := by
    cases opened
    rfl
  keeps variant row next added := addPrice_id variant next row.2 added

def ProductAcc.addVariant (product : ProductAcc) (row : ProductFlatRow) :
    Except String ProductAcc :=
  match row.variantId with
  | none => .ok product
  | some variantId =>
      variantGroups.place product.variants (variantId, row) >>= fun variants =>
        .ok { product with variants := variants }

theorem addVariant_row (product next : ProductAcc) (row : ProductFlatRow)
    (added : product.addVariant row = .ok next) : next.row = product.row := by
  unfold ProductAcc.addVariant at added
  split at added
  · cases added
    rfl
  · obtain ⟨variants, -, same⟩ := (bind_eq_ok _ _ _).mp added
    cases same
    rfl

def productGroups : Groups String ProductFlatRow ProductAcc Nat where
  keyOf row := row.productId
  key group := group.row.productId
  start row := .ok ⟨row, []⟩
  add := ProductAcc.addVariant
  opens row group opened := by
    cases opened
    rfl
  keeps product row next added := congrArg ProductFlatRow.productId (addVariant_row _ _ row added)

def VariantAcc.variant (acc : VariantAcc) : ProductVariant :=
  ⟨acc.id, acc.sku, acc.name, acc.prices.map (·.2)⟩

def ProductAcc.product (imagesByProduct : List (Nat × List Nat)) (acc : ProductAcc) :
    Product where
  id := acc.row.productId
  name := acc.row.productName
  slug := acc.row.productSlug
  description := acc.row.productDescription
  status := acc.row.productStatus
  category := ⟨acc.row.categorySlug, acc.row.categoryName⟩
  variants := acc.variants.map VariantAcc.variant
  createdAt := acc.row.productCreatedAt
  imageAssetIds := gathered imagesByProduct acc.row.productId

def assembleProducts (rows : List ProductFlatRow) (imagesByProduct : List (Nat × List Nat)) :
    Except String (List Product) :=
  productGroups.collect rows >>= fun acc => .ok (acc.map (ProductAcc.product imagesByProduct))

def ProductImageRow.display (row : ProductImageRow) : Int ×ₗ Nat := toLex (row.position, row.id)

def Rows.loadImageAssetIds (rows : Rows) (productIds : List Nat) : List (Nat × List Nat) :=
  if productIds.isEmpty then []
  else
    ((sortBy ProductImageRow.display
      (rows.images.filter fun row => productIds.contains row.productId)).map
        fun row => (row.productId, row.assetId)).foldl gather []

def Rows.among (rows : Rows) (ids : List Nat) : List ProductRow :=
  rows.products.filter fun row => ids.contains row.id

def Rows.hydrateActive (rows : Rows) (ids : List Nat) : Except String (List Product) :=
  if ids.isEmpty then .ok []
  else
    assembleProducts (rows.flatRows ProductRow.id ((rows.among ids).filter (·.status == .active)))
      (rows.loadImageAssetIds ids)

/-! ## The products of the tables -/

def VariantRow.age (row : VariantRow) : Nat ×ₗ Nat := toLex (row.createdAt, row.id)

def Rows.variant (rows : Rows) (row : VariantRow) : ProductVariant where
  id := row.id
  sku := row.sku
  name := row.name
  prices := (sortBy PriceRow.currency (rows.pricesOf (some row))).map fun price =>
    ⟨price.amountMinor, price.currency⟩

def Rows.assetsOf (rows : Rows) (productId : Nat) : List Nat :=
  (sortBy ProductImageRow.display (rows.images.filter fun row => row.productId == productId)).map
    (·.assetId)

def Rows.product (rows : Rows) (row : ProductRow) (category : CategoryRow) : Product where
  id := row.id
  name := row.name
  slug := row.slug
  description := row.description
  status := row.status
  category := ⟨category.slug, category.name⟩
  variants := (sortBy VariantRow.age (rows.liveVariants row)).map rows.variant
  createdAt := row.createdAt
  imageAssetIds := rows.assetsOf row.id

def Rows.liveProduct (rows : Rows) (row : ProductRow) : Option Product :=
  (rows.liveCategories row).head?.map (rows.product row)

/-- A product as the public sees it: active, in a live category. -/
def Rows.publicProduct (rows : Rows) (row : ProductRow) : Option Product :=
  if row.status = .active then rows.liveProduct row else none

/-! ## Assembly of nested rows -/

/-- The joined rows of products in their order, each with its SKUs, each with its prices. -/
structure Nest where
  heads : List (ProductRow × CategoryRow)
  variants : ProductRow → List VariantRow
  prices : Option VariantRow → List PriceRow

namespace Nest

def variantRows (nest : Nest) (head : ProductRow × CategoryRow) (variant : Option VariantRow) :
    List Joined :=
  (leftJoin (nest.prices variant)).map fun price => ⟨head.1, head.2, variant, price⟩

def headRows (nest : Nest) (head : ProductRow × CategoryRow) : List Joined :=
  (leftJoin (nest.variants head.1)).flatMap (nest.variantRows head)

def rows (nest : Nest) : List Joined := nest.heads.flatMap nest.headRows

def variant (nest : Nest) (row : VariantRow) : ProductVariant where
  id := row.id
  sku := row.sku
  name := row.name
  prices := (nest.prices (some row)).map fun price => ⟨price.amountMinor, price.currency⟩

def product (nest : Nest) (imagesByProduct : List (Nat × List Nat))
    (head : ProductRow × CategoryRow) : Product where
  id := head.1.id
  name := head.1.name
  slug := head.1.slug
  description := head.1.description
  status := head.1.status
  category := ⟨head.2.slug, head.2.name⟩
  variants := (nest.variants head.1).map nest.variant
  createdAt := head.1.createdAt
  imageAssetIds := gathered imagesByProduct head.1.id

structure Keyed (nest : Nest) : Prop where
  heads : (nest.heads.map (·.1.id)).Nodup
  variants : ∀ product, ((nest.variants product).map (·.id)).Nodup
  prices : ∀ variant, ((nest.prices variant).map (·.id)).Nodup
  bare : nest.prices none = []
  money : ∀ variant, ∀ price ∈ nest.prices variant,
    Money.of price.amountMinor price.currency = .ok ⟨price.amountMinor, price.currency⟩

end Nest

theorem leftJoin_cons {α : Type} (found : List α) :
    ∃ tail, leftJoin found = found.head? :: tail := by
  cases found with
  | nil => exact ⟨[], rfl⟩
  | cons first rest => exact ⟨rest.map some, rfl⟩

theorem leftJoin_of_ne {α : Type} (found : List α) (filled : found ≠ []) :
    leftJoin found = found.map some := by
  cases found with
  | nil => exact absurd rfl filled
  | cons first rest => rfl

section Assembly

variable {nest : Nest}

def priceCells (price : PriceRow) : Nat × String × Int :=
  (price.id, price.currency, price.amountMinor)

theorem addPrice_rows (head : ProductRow × CategoryRow) (variant : Option VariantRow)
    (prices : List PriceRow) (acc : VariantAcc) :
    (prices.map fun price => Joined.flat ⟨head.1, head.2, variant, some price⟩).foldlM
        VariantAcc.addPrice acc =
      ((prices.map priceCells).foldlM priceGroups.place acc.prices >>= fun placed =>
        .ok { acc with prices := placed }) := by
  induction prices generalizing acc with
  | nil => rfl
  | cons price rest ih =>
      rw [List.map_cons, List.foldlM_cons, List.map_cons, List.foldlM_cons]
      have one : acc.addPrice (Joined.flat ⟨head.1, head.2, variant, some price⟩) =
          (priceGroups.place acc.prices (priceCells price) >>= fun placed =>
            .ok { acc with prices := placed }) := rfl
      rw [one]
      cases placed : priceGroups.place acc.prices (priceCells price) with
      | error message => rfl
      | ok next => exact ih { acc with prices := next }

theorem collect_prices (keyed : nest.Keyed) (variant : Option VariantRow) :
    ((nest.prices variant).map priceCells).foldlM priceGroups.place [] =
      .ok ((nest.prices variant).map fun price =>
        (price.id, ⟨price.amountMinor, price.currency⟩)) := by
  rw [List.map_eq_flatMap]
  refine collect_blocks priceGroups (nest.prices variant) (fun price => [priceCells price])
    (·.id) _ (fun price member => ⟨fun row among => ?_, ?_⟩) (keyed.prices variant)
  · rw [List.mem_singleton.mp among]
    rfl
  · refine ⟨priceCells price, [], (price.id, ⟨price.amountMinor, price.currency⟩), rfl, ?_, rfl⟩
    have parsed := keyed.money variant price member
    simp only [priceGroups, priceCells, parsed]
    rfl

/-- The joined rows of one SKU give its prices. -/
theorem addPrice_variant (keyed : nest.Keyed) (head : ProductRow × CategoryRow)
    (row : VariantRow) :
    ((nest.variantRows head (some row)).map Joined.flat).foldlM VariantAcc.addPrice
        ⟨row.id, row.sku, row.name, []⟩ =
      .ok ⟨row.id, row.sku, row.name, (nest.prices (some row)).map fun price =>
        (price.id, ⟨price.amountMinor, price.currency⟩)⟩ := by
  by_cases unpriced : nest.prices (some row) = []
  · simp only [Nest.variantRows, unpriced, leftJoin]
    rfl
  · have priced : (nest.variantRows head (some row)).map Joined.flat =
        (nest.prices (some row)).map fun price =>
          Joined.flat ⟨head.1, head.2, some row, some price⟩ := by
      rw [Nest.variantRows, leftJoin_of_ne _ unpriced, List.map_map, List.map_map]
      rfl
    rw [priced, addPrice_rows, collect_prices keyed]
    rfl

theorem addVariant_rows (rows : List (Nat × ProductFlatRow)) (acc : ProductAcc)
    (same : ∀ row ∈ rows, row.2.variantId = some row.1) :
    (rows.map (·.2)).foldlM ProductAcc.addVariant acc =
      (rows.foldlM variantGroups.place acc.variants >>= fun placed =>
        .ok { acc with variants := placed }) := by
  induction rows generalizing acc with
  | nil => rfl
  | cons row rest ih =>
      have later := fun next => ih next fun other member => same other (.tail _ member)
      have one : acc.addVariant row.2 = (variantGroups.place acc.variants row >>= fun placed =>
          .ok { acc with variants := placed }) := by
        unfold ProductAcc.addVariant
        rw [same row List.mem_cons_self]
      rw [List.map_cons, List.foldlM_cons, List.foldlM_cons, one]
      cases placed : variantGroups.place acc.variants row with
      | error message => rfl
      | ok next => exact later { acc with variants := next }

def Nest.variantAcc (nest : Nest) (row : VariantRow) : VariantAcc where
  id := row.id
  sku := row.sku
  name := row.name
  prices := (nest.prices (some row)).map fun price =>
    (price.id, ⟨price.amountMinor, price.currency⟩)

def Nest.keyedRows (nest : Nest) (head : ProductRow × CategoryRow) (row : VariantRow) :
    List (Nat × ProductFlatRow) :=
  (nest.variantRows head (some row)).map fun joined => (row.id, joined.flat)

/-- The SKUs of a product are collected once each, with their prices. -/
theorem collect_variants (keyed : nest.Keyed) (head : ProductRow × CategoryRow) :
    ((nest.variants head.1).flatMap (nest.keyedRows head)).foldlM variantGroups.place [] =
      .ok ((nest.variants head.1).map nest.variantAcc) := by
  refine collect_blocks variantGroups (nest.variants head.1) (nest.keyedRows head) (·.id) _
    (fun row member => ⟨fun cells among => ?_, ?_⟩) (keyed.variants head.1)
  · obtain ⟨joined, -, rfl⟩ := List.mem_map.mp among
    rfl
  · obtain ⟨tail, priced⟩ := leftJoin_cons (nest.prices (some row))
    have rows : nest.keyedRows head row =
        (row.id, Joined.flat ⟨head.1, head.2, some row, (nest.prices (some row)).head?⟩) ::
          tail.map fun price => (row.id, Joined.flat ⟨head.1, head.2, some row, price⟩) := by
      rw [Nest.keyedRows, Nest.variantRows, priced, List.map_cons, List.map_cons, List.map_map]
      rfl
    refine ⟨_, _, ⟨row.id, row.sku, row.name, []⟩, rows, rfl, ?_⟩
    have added := addPrice_variant keyed head row
    rw [List.foldlM_map] at added
    rw [Nest.keyedRows, List.foldlM_map]
    exact added

theorem addVariant_head (keyed : nest.Keyed) (head : ProductRow × CategoryRow)
    (first : ProductFlatRow) :
    ((nest.headRows head).map Joined.flat).foldlM ProductAcc.addVariant ⟨first, []⟩ =
      .ok ⟨first, (nest.variants head.1).map nest.variantAcc⟩ := by
  by_cases empty : nest.variants head.1 = []
  · have single : nest.headRows head = [⟨head.1, head.2, none, none⟩] := by
      rw [Nest.headRows, empty]
      simp [leftJoin, Nest.variantRows, keyed.bare]
    rw [single, empty]
    rfl
  · have listed : (nest.headRows head).map Joined.flat =
        ((nest.variants head.1).flatMap (nest.keyedRows head)).map (·.2) := by
      rw [Nest.headRows, leftJoin_of_ne _ empty, List.flatMap_map, List.map_flatMap,
        List.map_flatMap]
      refine congrArg (List.flatMap · _) (funext fun row => ?_)
      rw [Nest.keyedRows, List.map_map]
      rfl
    rw [listed, addVariant_rows _ _ fun row member => ?_, collect_variants keyed]
    · rfl
    · obtain ⟨variant, -, among⟩ := List.mem_flatMap.mp member
      obtain ⟨joined, inside, rfl⟩ := List.mem_map.mp among
      obtain ⟨price, -, rfl⟩ := List.mem_map.mp inside
      rfl

def Nest.firstRow (nest : Nest) (head : ProductRow × CategoryRow) : Joined :=
  ⟨head.1, head.2, (nest.variants head.1).head?, (nest.prices (nest.variants head.1).head?).head?⟩

theorem headRows_cons (nest : Nest) (head : ProductRow × CategoryRow) :
    ∃ tail, nest.headRows head = nest.firstRow head :: tail := by
  obtain ⟨others, variants⟩ := leftJoin_cons (nest.variants head.1)
  obtain ⟨rest, prices⟩ := leftJoin_cons (nest.prices (nest.variants head.1).head?)
  rw [Nest.headRows, variants, List.flatMap_cons, Nest.variantRows, prices]
  exact ⟨_, rfl⟩

/-- Nested rows are assembled into the products they came from. -/
theorem assemble_nest (keyed : nest.Keyed) (imagesByProduct : List (Nat × List Nat)) :
    assembleProducts (nest.rows.map Joined.flat) imagesByProduct =
      .ok (nest.heads.map (nest.product imagesByProduct)) := by
  have collected : productGroups.collect (nest.rows.map Joined.flat) = .ok (nest.heads.map
      fun head => ⟨(nest.firstRow head).flat, (nest.variants head.1).map nest.variantAcc⟩) := by
    rw [Nest.rows, List.map_flatMap]
    refine collect_blocks productGroups nest.heads
      (fun head => (nest.headRows head).map Joined.flat)
      (·.1.id) _ (fun head member => ⟨fun row among => ?_, ?_⟩) keyed.heads
    · obtain ⟨joined, inside, rfl⟩ := List.mem_map.mp among
      obtain ⟨variant, -, inner⟩ := List.mem_flatMap.mp inside
      obtain ⟨price, -, rfl⟩ := List.mem_map.mp inner
      rfl
    · obtain ⟨tail, rows⟩ := headRows_cons nest head
      have flat : (nest.headRows head).map Joined.flat =
          (nest.firstRow head).flat :: tail.map Joined.flat := by rw [rows, List.map_cons]
      exact ⟨_, _, ⟨(nest.firstRow head).flat, []⟩, flat, rfl, addVariant_head keyed head _⟩
  rw [assembleProducts, collected]
  change Except.ok _ = Except.ok _
  rw [List.map_map]
  refine congrArg Except.ok (List.map_congr_left fun head _ => ?_)
  simp only [Function.comp_apply, ProductAcc.product, Nest.product, Nest.firstRow, Joined.flat,
    List.map_map]
  refine congrArg (fun variants => Product.mk _ _ _ _ _ _ variants _ _) ?_
  refine List.map_congr_left fun row _ => ?_
  simp only [Function.comp_apply, Nest.variantAcc, VariantAcc.variant, Nest.variant, List.map_map]
  rfl

end Assembly

end Commerce.Listing
