import Commerce.Lib.Pages
import Commerce.Lib.Tables
import Commerce.Orders.Entity

/-!
# The catalog tables and their admin repository

Categories, products, SKUs, prices and images, and the writes of the admin repository.
A write is one transaction: it throws and changes nothing, or commits its rows
together with the outbox records of its events.  Every write that changes what
search shows of a product raises the product's search version.
-/

set_option autoImplicit false

namespace Commerce.Listing

open Commerce.Orders (Money)

/-! ## Rows -/

inductive ProductStatus where
  | draft
  | active
  | archived
  deriving DecidableEq, Repr

structure CategoryRow where
  id : Nat
  name : String
  slug : String
  parentId : Option Nat
  archivedAt : Option Nat
  createdAt : Nat
  deriving DecidableEq, Repr

structure ProductRow where
  id : Nat
  name : String
  slug : String
  description : Option String
  status : ProductStatus
  categoryId : Nat
  searchVersion : Nat
  createdAt : Nat
  deriving DecidableEq, Repr

structure VariantRow where
  id : Nat
  sku : String
  name : String
  productId : Nat
  archivedAt : Option Nat
  createdAt : Nat
  deriving DecidableEq, Repr

structure PriceRow where
  id : Nat
  variantId : Nat
  currency : String
  amountMinor : Int
  deriving DecidableEq, Repr

structure ProductImageRow where
  id : Nat
  productId : Nat
  assetId : Nat
  position : Int
  deriving DecidableEq, Repr

structure Rows where
  categories : List CategoryRow
  products : List ProductRow
  variants : List VariantRow
  prices : List PriceRow
  images : List ProductImageRow
  deriving DecidableEq, Repr

def PriceRow.key (row : PriceRow) : Nat × String := (row.variantId, row.currency)

/-- The unique indexes, the references and the stored form of a price. -/
structure Rows.Keyed (rows : Rows) : Prop where
  categories : (rows.categories.map (·.id)).Nodup
  products : (rows.products.map (·.id)).Nodup
  variants : (rows.variants.map (·.id)).Nodup
  prices : (rows.prices.map (·.id)).Nodup
  images : (rows.images.map (·.id)).Nodup
  currencies : (rows.prices.map PriceRow.key).Nodup
  categorySlugs : (rows.categories.map (·.slug)).Nodup
  productSlugs : (rows.products.map (·.slug)).Nodup
  skus : (rows.variants.map (·.sku)).Nodup
  filed : ∀ product ∈ rows.products, product.categoryId ∈ rows.categories.map (·.id)
  owned : ∀ variant ∈ rows.variants, variant.productId ∈ rows.products.map (·.id)
  money : ∀ price ∈ rows.prices,
    Money.of price.amountMinor price.currency = .ok ⟨price.amountMinor, price.currency⟩

def Rows.findCategory (rows : Rows) (id : Nat) : Option CategoryRow :=
  rows.categories.find? fun row => row.id == id

def Rows.findProduct (rows : Rows) (id : Nat) : Option ProductRow :=
  rows.products.find? fun row => row.id == id

def Rows.findSku (rows : Rows) (id : Nat) : Option VariantRow :=
  rows.variants.find? fun row => row.id == id

/-! ## Writes -/

inductive OutboxRecord where
  | productChanged (productId : Nat)
  | categoryRenamed (categoryId : Nat)
  deriving DecidableEq, Repr

inductive AdminError where
  | conflict (message : String)
  | notFound (message : String)
  | domain (message : String)
  /-- A constraint that no guard of the repository names. -/
  | violation
  deriving DecidableEq, Repr

structure Committed (α : Type) where
  answer : α
  rows : Rows
  records : List OutboxRecord
  deriving DecidableEq, Repr

def unchanged {α : Type} (rows : Rows) (answer : α) : Committed α := ⟨answer, rows, []⟩

structure CreateCategoryData where
  name : String
  slug : String
  parentId : Option Nat
  deriving DecidableEq, Repr

def categorySlugTaken (rows : Rows) (id : Nat) (slug : String) : Bool :=
  rows.categories.any fun row => row.id != id && row.slug == slug

def createCategory (rows : Rows) (id now : Nat) (data : CreateCategoryData) :
    Except AdminError (Committed CategoryRow) :=
  if (rows.findCategory id).isSome || categorySlugTaken rows id data.slug then
    .error (.conflict "Category slug already exists")
  else
    let row : CategoryRow := ⟨id, data.name, data.slug, data.parentId, none, now⟩
    .ok ⟨row, { rows with categories := rows.categories ++ [row] }, []⟩

structure UpdateCategoryData where
  name : Option String
  slug : Option String
  parentId : Option (Option Nat)
  deriving DecidableEq, Repr

def UpdateCategoryData.isEmpty (data : UpdateCategoryData) : Bool :=
  data.name.isNone && data.slug.isNone && data.parentId.isNone

def UpdateCategoryData.set (data : UpdateCategoryData) (row : CategoryRow) : CategoryRow :=
  { row with
    name := data.name.getD row.name
    slug := data.slug.getD row.slug
    parentId := data.parentId.getD row.parentId }

def updateCategory (rows : Rows) (id : Nat) (data : UpdateCategoryData) :
    Except AdminError (Committed (Option CategoryRow)) :=
  if data.isEmpty then .ok (unchanged rows (rows.findCategory id))
  else
    match rows.findCategory id with
    | none => .ok (unchanged rows none)
    | some before =>
        let row := data.set before
        if categorySlugTaken rows id row.slug then .error (.conflict "Category slug already exists")
        else
          .ok ⟨some row,
            { rows with categories := Tables.update (·.id) id data.set rows.categories },
            if row.name ≠ before.name ∨ row.slug ≠ before.slug then [.categoryRenamed id] else []⟩

/-- The count of `archiveCategoryIfEmpty`. -/
def unarchivedProducts (rows : Rows) (categoryId : Nat) : Nat :=
  (rows.products.filter fun row =>
    row.categoryId == categoryId && row.status != .archived).length

/-- The write of `archiveCategoryIfEmpty`: the first timestamp stays. -/
def archiveCategory (rows : Rows) (id now : Nat) : Rows :=
  { rows with
    categories := Tables.update (·.id) id
      (fun row => { row with archivedAt := row.archivedAt.or (some now) }) rows.categories }

def lockLiveCategory (rows : Rows) (categoryId : Nat) : Except AdminError Unit :=
  match rows.findCategory categoryId with
  | none => .error (.notFound ("Category not found: " ++ toString categoryId))
  | some row =>
      if row.archivedAt.isSome then
        .error (.notFound ("Category not found: " ++ toString categoryId))
      else .ok ()

def ProductRow.bump (row : ProductRow) : ProductRow :=
  { row with searchVersion := row.searchVersion + 1 }

def markProductChanged (rows : Rows) (productId : Nat) : Rows × List OutboxRecord :=
  match rows.findProduct productId with
  | none => (rows, [])
  | some _ =>
      ({ rows with products := Tables.update (·.id) productId ProductRow.bump rows.products },
        [.productChanged productId])

structure AdminProduct where
  id : Nat
  name : String
  slug : String
  description : Option String
  status : ProductStatus
  categoryId : Nat
  createdAt : Nat
  deriving DecidableEq, Repr

def toProduct (row : ProductRow) : AdminProduct :=
  ⟨row.id, row.name, row.slug, row.description, row.status, row.categoryId, row.createdAt⟩

structure CreateProductData where
  name : String
  slug : String
  description : Option String
  status : Option ProductStatus
  categoryId : Nat
  deriving DecidableEq, Repr

def productSlugTaken (rows : Rows) (id : Nat) (slug : String) : Bool :=
  rows.products.any fun row => row.id != id && row.slug == slug

def createProduct (rows : Rows) (id now : Nat) (data : CreateProductData) :
    Except AdminError (Committed AdminProduct) := do
  lockLiveCategory rows data.categoryId
  if (rows.findProduct id).isSome || productSlugTaken rows id data.slug then
    .error (.conflict "Product slug already exists")
  else
    let row : ProductRow := ⟨id, data.name, data.slug, data.description,
      data.status.getD .draft, data.categoryId, 0, now⟩
    .ok ⟨toProduct row, { rows with products := rows.products ++ [row] }, [.productChanged id]⟩

structure UpdateProductData where
  name : Option String
  slug : Option String
  description : Option (Option String)
  status : Option ProductStatus
  categoryId : Option Nat
  deriving DecidableEq, Repr

def UpdateProductData.isEmpty (data : UpdateProductData) : Bool :=
  data.name.isNone && data.slug.isNone && data.description.isNone && data.status.isNone &&
    data.categoryId.isNone

def UpdateProductData.set (data : UpdateProductData) (row : ProductRow) : ProductRow :=
  { row.bump with
    name := data.name.getD row.name
    slug := data.slug.getD row.slug
    description := data.description.getD row.description
    status := data.status.getD row.status
    categoryId := data.categoryId.getD row.categoryId }

/-- Only a patch that names a category locks one. -/
def lockMovedTo (rows : Rows) : Option Nat → Except AdminError Unit
  | none => .ok ()
  | some movedTo => lockLiveCategory rows movedTo

def updateProduct (rows : Rows) (id : Nat) (data : UpdateProductData) :
    Except AdminError (Committed (Option AdminProduct)) :=
  if data.isEmpty then .ok (unchanged rows ((rows.findProduct id).map toProduct))
  else do
    lockMovedTo rows data.categoryId
    match rows.findProduct id with
    | none => .ok (unchanged rows none)
    | some before =>
        let row := data.set before
        if productSlugTaken rows id row.slug then .error (.conflict "Product slug already exists")
        else
          .ok ⟨some (toProduct row),
            { rows with products := Tables.update (·.id) id data.set rows.products },
            [.productChanged id]⟩

def ProductRow.archive (row : ProductRow) : ProductRow := { row.bump with status := .archived }

def archiveProduct (rows : Rows) (id : Nat) : Committed (Option AdminProduct) :=
  match rows.findProduct id with
  | none => unchanged rows none
  | some before =>
      ⟨some (toProduct before.archive),
        { rows with products := Tables.update (·.id) id ProductRow.archive rows.products },
        [.productChanged id]⟩

structure CreateSkuData where
  sku : String
  name : String
  deriving DecidableEq, Repr

def skuTaken (rows : Rows) (id : Nat) (sku : String) : Bool :=
  rows.variants.any fun row => row.id != id && row.sku == sku

def createSku (rows : Rows) (id now productId : Nat) (data : CreateSkuData) :
    Except AdminError (Committed VariantRow) :=
  if (rows.findSku id).isSome || skuTaken rows id data.sku then
    .error (.conflict "SKU code already exists")
  else
    match rows.findProduct productId with
    | none => .error .violation
    | some _ =>
        let row : VariantRow := ⟨id, data.sku, data.name, productId, none, now⟩
        let marked := markProductChanged rows productId
        .ok ⟨row, { marked.1 with variants := rows.variants ++ [row] }, marked.2⟩

structure UpdateSkuData where
  sku : Option String
  name : Option String
  deriving DecidableEq, Repr

def UpdateSkuData.isEmpty (data : UpdateSkuData) : Bool := data.sku.isNone && data.name.isNone

def UpdateSkuData.set (data : UpdateSkuData) (row : VariantRow) : VariantRow :=
  { row with sku := data.sku.getD row.sku, name := data.name.getD row.name }

def updateSku (rows : Rows) (id : Nat) (data : UpdateSkuData) :
    Except AdminError (Committed (Option VariantRow)) :=
  if data.isEmpty then .ok (unchanged rows (rows.findSku id))
  else
    match rows.findSku id with
    | none => .ok (unchanged rows none)
    | some before =>
        let row := data.set before
        if skuTaken rows id row.sku then .error (.conflict "SKU code already exists")
        else
          let marked := markProductChanged rows before.productId
          .ok ⟨some row,
            { marked.1 with variants := Tables.update (·.id) id data.set rows.variants }, marked.2⟩

def VariantRow.archive (now : Nat) (row : VariantRow) : VariantRow :=
  { row with archivedAt := row.archivedAt.or (some now) }

def archiveSku (rows : Rows) (id now : Nat) : Committed (Option VariantRow) :=
  match rows.findSku id with
  | none => unchanged rows none
  | some before =>
      let marked := markProductChanged rows before.productId
      ⟨some (before.archive now),
        { marked.1 with
          variants := Tables.update (·.id) id (VariantRow.archive now) rows.variants },
        marked.2⟩

structure Price where
  variantId : Nat
  currency : String
  amountMinor : Int
  deriving DecidableEq, Repr

structure SetPriceData where
  currency : String
  amountMinor : Int
  deriving DecidableEq, Repr

def upsertPrice (prices : List PriceRow) (id variantId : Nat) (money : Money) :
    Except AdminError (List PriceRow) :=
  if (variantId, money.currency) ∈ prices.map PriceRow.key then
    .ok (Tables.update PriceRow.key (variantId, money.currency)
      (fun row => { row with amountMinor := money.amountMinor }) prices)
  else if id ∈ prices.map (·.id) then .error .violation
  else .ok (prices ++ [⟨id, variantId, money.currency, money.amountMinor⟩])

def setPrice (rows : Rows) (id variantId : Nat) (data : SetPriceData) :
    Except AdminError (Committed Price) := do
  let money ← (Money.of data.amountMinor data.currency).mapError AdminError.domain
  match rows.findSku variantId with
  | none => .error .violation
  | some variant =>
      let marked := markProductChanged rows variant.productId
      let prices ← upsertPrice rows.prices id variantId money
      .ok ⟨⟨variantId, money.currency, money.amountMinor⟩, { marked.1 with prices := prices },
        marked.2⟩

/-! ## The pages of a category -/

/-- The rows of `bumpCategoryProducts`: the next page of the category behind the cursor. -/
def categoryPage (rows : Rows) (categoryId : Nat) (afterId : Option Nat) (limit : Nat) : List Nat :=
  (Pages.page (fun first second : ProductRow => first.id ≤ second.id)
    (fun row => row.categoryId == categoryId && afterId.all fun id => decide (id < row.id))
    limit rows.products).map (·.id)

/-- Raises the versions of the page; the ids come back ascending. -/
def bumpCategoryProducts (rows : Rows) (categoryId : Nat) (afterId : Option Nat) (limit : Nat) :
    List Nat × Rows :=
  let page := categoryPage rows categoryId afterId limit
  (page, { rows with
    products := rows.products.map fun row => if row.id ∈ page then row.bump else row })

end Commerce.Listing
