import Commerce.Catalog.Cache
import Commerce.Catalog.Reads
import Commerce.Identity.RoutableIds
import Commerce.Lib.LikePatterns
import Commerce.Media.Assets

/-!
# Pages and details of the catalog

A list is read in two steps, the ids of a page and then their products; a
detail by an id or a slug, where the id wins.  Both answer with the products the
public sees and with the URLs of their images.
-/

set_option autoImplicit false

namespace Commerce.Listing

open Catalog (FindManyActiveCriteria)
open Results Sorting

/-! ## Lists -/

def likeAlphabet : LikePatterns.Alphabet Char := ⟨'%', '_', '\\', by decide⟩

/-- The letters that the database takes for the same where case does not count. -/
abbrev CaseFold := LikePatterns.Fold likeAlphabet

def escapeLike (input : String) : List Char := likeAlphabet.escaped input.toList

def given (parameter : Option String) : Option String := parameter.filter (· != "")

structure FindManyActiveResult where
  items : List Product
  total : Nat
  deriving DecidableEq, Repr

def CaseFold.named (fold : CaseFold) (pattern : List Char)
    (heads : List (ProductRow × CategoryRow)) : Except String (List (ProductRow × CategoryRow)) :=
  match likeAlphabet.parse false (pattern.map fold.apply) with
  | none => .error "LIKE pattern must not end with escape character"
  | some tokens => .ok (heads.filter fun head =>
      LikePatterns.fits tokens (head.1.name.toList.map fold.apply))

/-- The `WHERE` of a list: active products of live categories, in the category asked for. -/
def Rows.listed (rows : Rows) (categoryId : Option Nat) : List (ProductRow × CategoryRow) :=
  (rows.headsOf (rows.products.filter (·.status == .active))).filter fun head =>
    categoryId.all fun id => head.1.categoryId == id

def newest (row : ProductRow) : Natᵒᵈ ×ₗ Natᵒᵈ :=
  toLex (OrderDual.toDual row.createdAt, OrderDual.toDual row.id)

/-- The page of the matching rows and their count; the database refuses an offset below zero. -/
def Rows.listPage (rows : Rows) (page pageSize : Nat) (found : List (ProductRow × CategoryRow)) :
    Except String FindManyActiveResult :=
  let offset : Int := ((page : Int) - 1) * pageSize
  if offset < 0 then .error "OFFSET must not be negative"
  else
    let sorted := sortBy (fun head => newest head.1) found
    let ids := ((sorted.drop offset.toNat).take pageSize).map (·.1.id)
    rows.hydrateActive ids >>= fun byId =>
      .ok ⟨ids.filterMap fun id => byId.find? fun product => product.id == id, found.length⟩

def Rows.matching (rows : Rows) (fold : CaseFold) (q : Option String) (categoryId : Option Nat) :
    Except String (List (ProductRow × CategoryRow)) :=
  match q with
  | none => .ok (rows.listed categoryId)
  | some q => fold.named ('%' :: escapeLike q ++ ['%']) (rows.listed categoryId)

/-- One snapshot for the page and the count. -/
def Rows.findManyActive (rows : Rows) (fold : CaseFold) (criteria : FindManyActiveCriteria) :
    Except String FindManyActiveResult :=
  match given criteria.categorySlug with
  | none =>
      rows.matching fold (given criteria.q) none >>= rows.listPage criteria.page criteria.pageSize
  | some slug =>
      match rows.categories.find? fun row => row.slug == slug with
      | none => .ok ⟨[], 0⟩
      | some category =>
          rows.matching fold (given criteria.q) (some category.id) >>=
            rows.listPage criteria.page criteria.pageSize

structure ListProductsResult where
  items : List Product
  total : Nat
  page : Nat
  pageSize : Nat
  totalPages : Nat
  imageUrls : List (Nat × String)
  deriving DecidableEq, Repr

structure MediaQuery where
  assets : List Media.MediaAsset
  publicUrl : String → String

def MediaQuery.resolveUrls (media : MediaQuery) (assetIds : List Nat) : List (Nat × String) :=
  Media.getPublicUrls media.assets media.publicUrl assetIds

def Rows.listProducts (rows : Rows) (media : MediaQuery) (fold : CaseFold)
    (criteria : FindManyActiveCriteria) : Except String ListProductsResult :=
  rows.findManyActive fold criteria >>= fun found =>
    .ok ⟨found.items, found.total, criteria.page, criteria.pageSize,
      if 0 < criteria.pageSize then (found.total + criteria.pageSize - 1) / criteria.pageSize
        else 0,
      media.resolveUrls (found.items.flatMap (·.imageAssetIds))⟩

/-! ## Details -/

/-- The id of a product before every other product its slug could name. -/
def idFirst (id : Option Nat) (row : ProductRow) : Nat := if some row.id = id then 0 else 1

def Rows.named (rows : Rows) (id : Option Nat) (slug : String) : List ProductRow :=
  rows.products.filter fun row => row.status == .active && (some row.id == id || row.slug == slug)

/-- The rows are assembled once more when the product, and so its images, is known. -/
def Rows.findActiveByIdOrSlug (rows : Rows) (idOrSlug : String) : Except String (Option Product) :=
  let id := Identity.toRoutable idOrSlug
  let found := rows.flatRows (idFirst id) (rows.named id idOrSlug)
  assembleProducts found [] >>= fun products =>
    match products.head? with
    | none => .ok none
    | some product =>
        assembleProducts found (rows.loadImageAssetIds [product.id]) >>= fun products =>
          .ok products.head?

structure ProductDetailResult where
  product : Product
  imageUrls : List (Nat × String)
  deriving DecidableEq, Repr

def Rows.getProductDetail (rows : Rows) (media : MediaQuery) (idOrSlug : String) :
    Except String ProductDetailResult :=
  rows.findActiveByIdOrSlug idOrSlug >>= fun found =>
    match found with
    | none => .error ("Product not found: " ++ idOrSlug)
    | some product => .ok ⟨product, media.resolveUrls product.imageAssetIds⟩

/-! ## What the public sees -/

def Rows.publicProducts (rows : Rows) : List Product :=
  (sortBy newest rows.products).filterMap rows.publicProduct

def wanted (fold : CaseFold) (criteria : FindManyActiveCriteria) (product : Product) : Bool :=
  ((given criteria.categorySlug).all fun slug => product.category.slug == slug) &&
    (given criteria.q).all fun q =>
      decide (q.toList.map fold.apply <:+: product.name.toList.map fold.apply)

def Rows.asked (rows : Rows) (fold : CaseFold) (criteria : FindManyActiveCriteria) : List Product :=
  rows.publicProducts.filter (wanted fold criteria)

section Lists

variable {rows : Rows}

theorem newest_inj (first second : ProductRow) (same : newest first = newest second) :
    first.id = second.id :=
  congrArg (fun key : Natᵒᵈ ×ₗ Natᵒᵈ => OrderDual.ofDual (ofLex key).2) same

theorem mem_headsOf (products : List ProductRow) (head : ProductRow × CategoryRow) :
    head ∈ rows.headsOf products ↔ head.1 ∈ products ∧ head.2 ∈ rows.liveCategories head.1 := by
  constructor
  · intro member
    obtain ⟨product, among, inside⟩ := List.mem_flatMap.mp member
    obtain ⟨category, live, rfl⟩ := List.mem_map.mp inside
    exact ⟨among, live⟩
  · rintro ⟨among, live⟩
    exact List.mem_flatMap.mpr ⟨head.1, among, List.mem_map.mpr ⟨head.2, live, rfl⟩⟩

theorem sorted_heads (keyed : rows.Keyed) (p : ProductRow × CategoryRow → Bool) :
    sortBy (fun head => newest head.1)
        ((rows.headsOf (rows.products.filter (·.status == .active))).filter p) =
      (rows.headsOf (sortBy newest (rows.products.filter (·.status == .active)))).filter p := by
  have stored : (rows.products.filter (·.status == .active)).Sublist rows.products :=
    List.filter_sublist
  have ids := keyed.products.sublist (stored.map _)
  refine sortBy_eq _ _ _ ?_ ?_ ?_
  · exact (((sortBy_perm _ _).symm).flatMap_right _).filter p
  · refine List.Pairwise.filter p ?_
    rw [headsOf_filterMap keyed]
    refine List.pairwise_filterMap.mpr ((sortBy_sorted _ _).imp fun upto head found other later =>
      ?_)
    obtain ⟨category, -, rfl⟩ := Option.map_eq_some_iff.mp found
    obtain ⟨beside, -, rfl⟩ := Option.map_eq_some_iff.mp later
    exact upto
  · intro first among second member same
    obtain ⟨left, leftLive⟩ := (mem_headsOf _ _).mp (List.mem_filter.mp among).1
    obtain ⟨right, rightLive⟩ := (mem_headsOf _ _).mp (List.mem_filter.mp member).1
    have product : first.1 = second.1 :=
      List.inj_on_of_nodup_map ids left right (newest_inj _ _ same)
    obtain ⟨here, leftId, -⟩ := (mem_liveCategories _ _).mp leftLive
    obtain ⟨there, rightId, -⟩ := (mem_liveCategories _ _).mp rightLive
    refine Prod.ext product (List.inj_on_of_nodup_map keyed.categories here there ?_)
    rw [leftId, rightId, product]

theorem publicProduct_of_head (keyed : rows.Keyed) (head : ProductRow × CategoryRow)
    (member : head ∈ rows.headsOf (rows.products.filter (·.status == .active))) :
    head.1 ∈ rows.products ∧ rows.publicProduct head.1 = some (rows.product head.1 head.2) := by
  obtain ⟨among, live⟩ := (mem_headsOf _ head).mp member
  obtain ⟨stored, active⟩ := List.mem_filter.mp among
  refine ⟨stored, ?_⟩
  rw [liveCategories_single keyed, Option.mem_toList] at live
  rw [Rows.publicProduct, if_pos (of_decide_eq_true active), Rows.liveProduct, live]
  rfl

/-- The products of a page's ids, in the order of the ids. -/
theorem page_items (keyed : rows.Keyed) (heads : List (ProductRow × CategoryRow))
    (listed : ∀ head ∈ heads, head ∈ rows.headsOf (rows.products.filter (·.status == .active)))
    (products : List Product) (read : rows.hydrateActive (heads.map (·.1.id)) = .ok products) :
    (heads.map (·.1.id)).filterMap (fun id => products.find? fun product => product.id == id) =
      heads.map fun head => rows.product head.1 head.2 := by
  rw [hydrateActive_eq keyed] at read
  cases read
  rw [List.filterMap_map]
  refine Eq.trans (List.filterMap_congr fun head member => ?_)
    (congrFun List.filterMap_eq_map heads)
  obtain ⟨stored, shown⟩ := publicProduct_of_head keyed head (listed head member)
  have among : head.1 ∈ sortBy ProductRow.id (rows.among (heads.map (·.1.id))) := by
    refine (mem_sortBy _ _ _).mpr (List.mem_filter.mpr ⟨stored, ?_⟩)
    exact List.contains_iff_mem.mpr (List.mem_map_of_mem member)
  have distinct := ((sortBy_perm ProductRow.id (rows.among (heads.map (·.1.id)))).map
    ProductRow.id).nodup_iff.mpr (products_distinct keyed _)
  exact (find_publicProduct _ distinct head.1 among).trans shown

theorem products_of_heads (keyed : rows.Keyed) :
    (rows.headsOf (sortBy newest (rows.products.filter (·.status == .active)))).map
      (fun head => rows.product head.1 head.2) = rows.publicProducts := by
  have apart : (rows.products.map newest).Nodup :=
    nodup_of_coarser _ _ _ newest_inj keyed.products
  rw [headsOf_filterMap keyed, List.map_filterMap, sortBy_filter _ _ _ apart,
    List.filterMap_filter]
  refine List.filterMap_congr fun row _ => ?_
  rw [Option.map_map, Rows.publicProduct]
  by_cases shown : row.status = .active
  · simp only [shown, beq_self_eq_true, if_true]
    rfl
  · simp [shown]

/-- From page one on the offset of a page is not negative. -/
theorem listPage_numbered (page pageSize : Nat) (numbered : 0 < page)
    (found : List (ProductRow × CategoryRow)) (ids : List Nat)
    (sliced : (((sortBy (fun head => newest head.1) found).drop
      ((page - 1) * pageSize)).take pageSize).map (·.1.id) = ids) :
    rows.listPage page pageSize found = rows.hydrateActive ids >>= fun byId =>
      .ok ⟨ids.filterMap fun id => byId.find? fun product => product.id == id, found.length⟩ := by
  have offset : ((page : Int) - 1) * pageSize = ((page - 1) * pageSize : Nat) := by
    rw [Nat.cast_mul, Nat.cast_pred numbered]
  have within : ¬ (((page - 1) * pageSize : Nat) : Int) < 0 := not_lt.mpr (Int.natCast_nonneg _)
  rw [Rows.listPage]
  simp only [offset, if_neg within, Int.toNat_natCast, sliced]

/-- The page of a selection holds its products, newest first. -/
theorem listPage_eq (keyed : rows.Keyed) (page pageSize : Nat) (numbered : 0 < page)
    (p : ProductRow × CategoryRow → Bool) (q : Product → Bool)
    (agree : ∀ head ∈ rows.headsOf (rows.products.filter (·.status == .active)),
      p head = q (rows.product head.1 head.2)) :
    rows.listPage page pageSize
        ((rows.headsOf (rows.products.filter (·.status == .active))).filter p) =
      .ok ⟨((rows.publicProducts.filter q).drop ((page - 1) * pageSize)).take pageSize,
        (rows.publicProducts.filter q).length⟩ := by
  have sorted := sorted_heads keyed p
  have stored : ∀ head ∈ rows.headsOf (sortBy newest (rows.products.filter (·.status == .active))),
      head ∈ rows.headsOf (rows.products.filter (·.status == .active)) := by
    intro head member
    obtain ⟨among, live⟩ := (mem_headsOf _ head).mp member
    exact (mem_headsOf _ head).mpr ⟨(mem_sortBy _ _ _).mp among, live⟩
  have whole : ((rows.headsOf (sortBy newest (rows.products.filter (·.status == .active)))).filter
      p).map (fun head => rows.product head.1 head.2) = rows.publicProducts.filter q := by
    rw [← products_of_heads keyed, List.filter_map]
    refine congrArg (List.map _) (List.filter_congr fun head member => ?_)
    exact agree head (stored head member)
  have counted : ((rows.headsOf (rows.products.filter (·.status == .active))).filter p).length =
      (rows.publicProducts.filter q).length := by
    rw [← whole, List.length_map, ← sorted, (sortBy_perm _ _).length_eq]
  rw [listPage_numbered page pageSize numbered _ _ rfl, sorted]
  generalize slice : (((rows.headsOf (sortBy newest
    (rows.products.filter (·.status == .active)))).filter p).drop
      ((page - 1) * pageSize)).take pageSize = heads
  have listed : ∀ head ∈ heads, head ∈ rows.headsOf
      (rows.products.filter (·.status == .active)) := by
    intro head member
    rw [← slice] at member
    exact stored head (List.mem_filter.mp (List.mem_of_mem_drop (List.mem_of_mem_take member))).1
  rw [hydrateActive_eq keyed]
  change Except.ok _ = Except.ok _
  rw [page_items keyed heads listed _ (hydrateActive_eq keyed _), counted, ← slice, List.map_take,
    List.map_drop, whole]

theorem category_of_slug (keyed : rows.Keyed) (slug : String) (category : CategoryRow)
    (found : (rows.categories.find? fun row => row.slug == slug) = some category)
    (head : ProductRow × CategoryRow)
    (member : head ∈ rows.headsOf (rows.products.filter (·.status == .active))) :
    (head.1.categoryId == category.id) = (head.2.slug == slug) := by
  have slugged : category.slug = slug := by simpa using List.find?_some found
  have stored := List.mem_of_find?_eq_some found
  obtain ⟨among, filed, -⟩ := (mem_liveCategories _ _).mp ((mem_headsOf _ head).mp member).2
  rw [Bool.eq_iff_iff, beq_iff_eq, beq_iff_eq, ← filed, ← slugged]
  constructor
  · intro same
    rw [List.inj_on_of_nodup_map keyed.categories among stored same]
  · intro same
    rw [List.inj_on_of_nodup_map keyed.categorySlugs among stored same]

theorem named_eq (fold : CaseFold) (q : String) (heads : List (ProductRow × CategoryRow)) :
    fold.named ('%' :: escapeLike q ++ ['%']) heads = .ok (heads.filter fun head =>
      decide (q.toList.map fold.apply <:+: head.1.name.toList.map fold.apply)) := by
  obtain ⟨tokens, parsed, fitting⟩ :=
    LikePatterns.fits_contains likeAlphabet (q.toList.map fold.apply)
  have folded : ('%' :: escapeLike q ++ ['%']).map fold.apply =
      likeAlphabet.many :: likeAlphabet.escaped (q.toList.map fold.apply) ++
          [likeAlphabet.many] := by
    have many : fold.apply '%' = '%' := fold.keeps '%' rfl
    rw [List.map_append, List.map_cons, escapeLike, LikePatterns.escaped_map, List.map_singleton,
      many]
    rfl
  rw [CaseFold.named, folded, parsed]
  simp only [fitting]

/-- A page of a selection is the asked page of the public products that are wanted. -/
theorem matching_page (keyed : rows.Keyed) (fold : CaseFold) (criteria : FindManyActiveCriteria)
    (numbered : 0 < criteria.page) (categoryId : Option Nat)
    (named : ∀ head ∈ rows.headsOf (rows.products.filter (·.status == .active)),
      (categoryId.all fun id => head.1.categoryId == id) =
        (given criteria.categorySlug).all fun slug => head.2.slug == slug) :
    (rows.matching fold (given criteria.q) categoryId >>=
        rows.listPage criteria.page criteria.pageSize) =
      .ok ⟨((rows.asked fold criteria).drop
          ((criteria.page - 1) * criteria.pageSize)).take criteria.pageSize,
        (rows.asked fold criteria).length⟩ := by
  cases asked : given criteria.q with
  | none =>
      refine listPage_eq keyed _ _ numbered _ _ fun head member => ?_
      rw [named head member, wanted, asked]
      exact (Bool.and_true _).symm
  | some q =>
      rw [Rows.matching, named_eq, Rows.listed, List.filter_filter]
      refine listPage_eq keyed _ _ numbered _ _ fun head member => ?_
      rw [named head member, wanted, asked]
      exact Bool.and_comm _ _

theorem category_of_public (product : Product) (member : product ∈ rows.publicProducts) :
    product.category.slug ∈ rows.categories.map (·.slug) := by
  obtain ⟨row, -, shown⟩ := List.mem_filterMap.mp member
  unfold Rows.publicProduct at shown
  split at shown
  · obtain ⟨category, live, rfl⟩ := Option.map_eq_some_iff.mp shown
    have listed := (mem_liveCategories row category).mp (List.mem_of_mem_head? live)
    exact List.mem_map_of_mem listed.1
  · cases shown

theorem findManyActive_eq (keyed : rows.Keyed) (fold : CaseFold)
    (criteria : FindManyActiveCriteria) (numbered : 0 < criteria.page) :
    rows.findManyActive fold criteria =
      .ok ⟨((rows.asked fold criteria).drop
          ((criteria.page - 1) * criteria.pageSize)).take criteria.pageSize,
        (rows.asked fold criteria).length⟩ := by
  unfold Rows.findManyActive
  cases slugged : given criteria.categorySlug with
  | none =>
      refine matching_page keyed fold criteria numbered none fun head _ => ?_
      rw [slugged]
      rfl
  | some slug =>
      cases found : rows.categories.find? fun row => row.slug == slug with
      | none =>
          have nothing : rows.asked fold criteria = [] := by
            refine List.filter_eq_nil_iff.mpr fun product member want => ?_
            obtain ⟨category, stored, same⟩ := List.mem_map.mp (category_of_public product member)
            rw [wanted, slugged, Bool.and_eq_true] at want
            refine List.find?_eq_none.mp found category stored ?_
            rw [same]
            exact want.1
          simp only [found, nothing, List.drop_nil, List.take_nil, List.length_nil]
      | some category =>
          simp only [found]
          refine matching_page keyed fold criteria numbered (some category.id) fun head member => ?_
          rw [slugged]
          exact category_of_slug keyed slug category found head member

theorem asked_page (fold : CaseFold) (criteria : FindManyActiveCriteria) (page : Nat) :
    rows.asked fold { criteria with page := page } = rows.asked fold criteria := rfl

theorem publicProducts_distinct (keyed : rows.Keyed) : (rows.publicProducts.map (·.id)).Nodup := by
  have ids : ((sortBy newest rows.products).map ProductRow.id).Nodup :=
    ((sortBy_perm _ _).map _).nodup_iff.mpr keyed.products
  refine List.pairwise_map.mpr (List.pairwise_filterMap.mpr ?_)
  refine (List.pairwise_map.mp ids).imp fun apart product shown other later => ?_
  rw [publicProduct_id _ product shown, publicProduct_id _ other later]
  exact apart

/-- The answer of a list: the asked page, the total, the number of pages and the URLs of the page's
images. -/
theorem listProducts_eq (keyed : rows.Keyed) (media : MediaQuery) (fold : CaseFold)
    (criteria : FindManyActiveCriteria) (numbered : 0 < criteria.page)
    (sized : 0 < criteria.pageSize) (items : List Product)
    (sliced : ((rows.asked fold criteria).drop
      ((criteria.page - 1) * criteria.pageSize)).take criteria.pageSize = items) :
    rows.listProducts media fold criteria =
      .ok ⟨items, (rows.asked fold criteria).length, criteria.page, criteria.pageSize,
        ((rows.asked fold criteria).length + criteria.pageSize - 1) / criteria.pageSize,
        media.resolveUrls (items.flatMap (·.imageAssetIds))⟩ := by
  rw [Rows.listProducts, findManyActive_eq keyed fold criteria numbered, sliced]
  simp only [bind, Except.bind, if_pos sized]

end Lists

/-- The pages of a list, one after the other, are the public products it asks for, each once and
newest first; every page, also one past the end, has their number and that of the pages, and the
URLs of its own images. -/
theorem pages_list_public_products (rows : Rows) (keyed : rows.Keyed) (media : MediaQuery)
    (fold : CaseFold) (criteria : FindManyActiveCriteria) (sized : 0 < criteria.pageSize) :
    ((rows.asked fold criteria).map (·.id)).Nodup ∧
      ∃ (totalPages : Nat) (results : List ListProductsResult),
        totalPages =
          ((rows.asked fold criteria).length + criteria.pageSize - 1) / criteria.pageSize ∧
        (∀ page, 0 < page →
          ∃ items, rows.listProducts media fold { criteria with page := page } =
            .ok ⟨items, (rows.asked fold criteria).length, page, criteria.pageSize, totalPages,
              media.resolveUrls (items.flatMap (·.imageAssetIds))⟩ ∧
            (totalPages < page → items = [])) ∧
        (List.range totalPages).mapM (fun n =>
          rows.listProducts media fold { criteria with page := n + 1 }) = .ok results ∧
        results.flatMap (·.items) = rows.asked fold criteria := by
  refine ⟨(publicProducts_distinct keyed).sublist (List.filter_sublist.map _), ?_⟩
  have enough := Pages.le_slices (rows.asked fold criteria).length criteria.pageSize sized
  have read : ∀ page, 0 < page → rows.listProducts media fold { criteria with page := page } = _ :=
    fun page numbered => listProducts_eq keyed media fold { criteria with page := page } numbered
      sized _ rfl
  simp only [asked_page] at read
  generalize rows.asked fold criteria = asked at read enough ⊢
  generalize (asked.length + criteria.pageSize - 1) / criteria.pageSize =
    totalPages at read enough ⊢
  refine ⟨totalPages, (List.range totalPages).map fun n =>
    ⟨(asked.drop (n * criteria.pageSize)).take criteria.pageSize, asked.length, n + 1,
      criteria.pageSize, totalPages, media.resolveUrls
        (((asked.drop (n * criteria.pageSize)).take criteria.pageSize).flatMap (·.imageAssetIds))⟩,
    rfl, fun page numbered => ⟨_, read page numbered, fun past => ?_⟩, ?_, ?_⟩
  · have behind : asked.length ≤ (page - 1) * criteria.pageSize :=
      enough.trans (Nat.mul_le_mul_right _ (by omega))
    rw [List.drop_eq_nil_of_le behind, List.take_nil]
  · simp only [read _ (Nat.succ_pos _)]
    exact List.mapM_pure
  · rw [List.flatMap_map, Pages.flatMap_slices, List.take_of_length_le enough]

theorem lower_letters : ∀ n < 26, likeAlphabet.special (Char.ofNat (65 + n)).toLower = false := by
  decide

theorem toLower_keeps (char : Char) (meaning : likeAlphabet.special char = true) :
    char.toLower = char := by
  rw [LikePatterns.Alphabet.special, Bool.or_eq_true, Bool.or_eq_true] at meaning
  rcases meaning with (many | one) | escape
  · rw [of_decide_eq_true many]
    rfl
  · rw [of_decide_eq_true one]
    rfl
  · rw [of_decide_eq_true escape]
    rfl

theorem toLower_avoids (char : Char) (meaning : likeAlphabet.special char.toLower = true) :
    likeAlphabet.special char = true := by
  by_cases upper : 'A'.val ≤ char.val ∧ char.val ≤ 'Z'.val
  · have range : 65 ≤ char.toNat ∧ char.toNat ≤ 90 := upper
    have letter : likeAlphabet.special char.toLower = false := by
      rw [← Char.ofNat_toNat char, ← Nat.add_sub_cancel' range.1]
      exact lower_letters _ (by omega)
    rw [letter] at meaning
    cases meaning
  · have same : char.toLower = char := dif_neg upper
    rwa [same] at meaning

def asciiFold : CaseFold := ⟨Char.toLower, toLower_keeps, toLower_avoids⟩

/-! A shelf of three products; the slug of one spells the id of another. -/

def shelfRows : Rows where
  categories := [⟨1, "Audio", "audio", none, none, 1⟩, ⟨2, "Old", "old", none, some 5, 2⟩]
  products := [⟨300000, "Headphones 50%", "headphones", none, .active, 1, 0, 3⟩,
    ⟨300001, "Speaker", "300000", some "loud", .active, 1, 4, 2⟩,
    ⟨300002, "Radio", "radio", none, .active, 2, 0, 4⟩]
  variants := [⟨20, "HP-2", "white", 300000, none, 8⟩, ⟨21, "HP-1", "black", 300000, none, 7⟩,
    ⟨22, "HP-0", "grey", 300000, some 9, 6⟩]
  prices := [⟨30, 20, "VND", 500⟩, ⟨31, 20, "USD", 2⟩, ⟨32, 21, "VND", 400⟩]
  images := [⟨40, 300000, 90, 1⟩, ⟨41, 300001, 91, 0⟩, ⟨42, 300000, 92, 0⟩]

theorem shelf_keyed : shelfRows.Keyed where
  categories := by decide
  products := by decide
  variants := by decide
  prices := by decide
  images := by decide
  currencies := by decide
  categorySlugs := by decide
  productSlugs := by decide
  skus := by decide
  filed := by decide
  owned := by decide
  money := by decide +kernel

def halfPrice : FindManyActiveCriteria := ⟨1, 1, some "audio", some "0%"⟩

def shelfMedia : MediaQuery where
  assets := [⟨90, "media/90.jpg", .jpeg, some 9, .attached, 7, none, 0⟩,
    ⟨92, "media/92.png", .png, some 8, .attached, 7, none, 0⟩]
  publicUrl key := "cdn/" ++ key

theorem pages_list_public_products_shelf :
    (shelfRows.asked asciiFold halfPrice).map (·.id) = [300000] ∧
      ∃ (totalPages : Nat) (results : List ListProductsResult), totalPages = 1 ∧
        (List.range totalPages).mapM (fun n =>
          shelfRows.listProducts shelfMedia asciiFold { halfPrice with page := n + 1 }) =
            .ok results ∧
        results.flatMap (·.items) = shelfRows.asked asciiFold halfPrice := by
  obtain ⟨-, totalPages, results, counted, -, pages⟩ :=
    pages_list_public_products shelfRows shelf_keyed shelfMedia asciiFold halfPrice (by decide)
  exact ⟨by decide +kernel, totalPages, results, counted.trans (by decide +kernel), pages⟩

section Details

variable {rows : Rows} (id : Option Nat) (slug : String)

theorem mem_named (row : ProductRow) : row ∈ rows.named id slug ↔
    row ∈ rows.products ∧ row.status = .active ∧ (some row.id = id ∨ row.slug = slug) := by
  rw [Rows.named, List.mem_filter]
  simp

/-- The id names one product at most, and so does the slug. -/
theorem named_leads (keyed : rows.Keyed) : ((rows.named id slug).map (idFirst id)).Nodup := by
  have pairs := (List.pairwise_map.mp keyed.products).and (List.pairwise_map.mp keyed.productSlugs)
  refine List.pairwise_map.mpr (List.Pairwise.imp_of_mem ?_ (pairs.sublist List.filter_sublist))
  intro first second among member apart same
  obtain ⟨-, -, left⟩ := (mem_named id slug first).mp among
  obtain ⟨-, -, right⟩ := (mem_named id slug second).mp member
  unfold idFirst at same
  by_cases here : some first.id = id
  · by_cases there : some second.id = id
    · exact apart.1 (Option.some_inj.mp (here.trans there.symm))
    · simp [here, there] at same
  · by_cases there : some second.id = id
    · simp [here, there] at same
    · exact apart.2 ((left.resolve_left here).trans (right.resolve_left there).symm)

theorem head_filterMap (lead : ProductRow → Nat) (shown : ProductRow → Option Product)
    (sorted : List ProductRow) (row : ProductRow) (product : Product)
    (strict : sorted.Pairwise fun first second => lead first < lead second) (member : row ∈ sorted)
    (lesser : ∀ other ∈ sorted, lead other < lead row → shown other = none)
    (here : shown row = some product) : (sorted.filterMap shown).head? = some product := by
  obtain ⟨before, after, rfl⟩ := List.append_of_mem member
  have nothing : before.filterMap shown = [] := by
    refine List.filterMap_eq_nil_iff.mpr fun other among => ?_
    refine lesser other (List.mem_append_left _ among) ?_
    exact (List.pairwise_append.mp strict).2.2 other among row List.mem_cons_self
  rw [List.filterMap_append, nothing, List.filterMap_cons_some here]
  rfl

theorem publicProduct_active (row : ProductRow) (active : row.status = .active) :
    rows.publicProduct row = rows.liveProduct row := if_pos active

theorem active_of_public (row : ProductRow) (product : Product)
    (shown : rows.publicProduct row = some product) : row.status = .active := by
  unfold Rows.publicProduct at shown
  split at shown
  · assumption
  · cases shown

theorem find_slug (keyed : rows.Keyed) (row : ProductRow) (stored : row ∈ rows.products) :
    (rows.products.find? fun other => other.slug == row.slug) = some row := by
  cases found : rows.products.find? fun other => other.slug == row.slug with
  | none => exact absurd (beq_self_eq_true row.slug) (List.find?_eq_none.mp found row stored)
  | some other =>
      have same : other.slug = row.slug := by simpa using List.find?_some found
      have among : other ∈ rows.products := List.mem_of_find?_eq_some found
      rw [List.inj_on_of_nodup_map keyed.productSlugs among stored same]

def Rows.publicById (rows : Rows) (id : Option Nat) : Option Product :=
  (id.bind rows.findProduct).bind rows.publicProduct

def Rows.publicBySlug (rows : Rows) (slug : String) : Option Product :=
  (rows.products.find? fun row => row.slug == slug).bind rows.publicProduct

theorem publicById_eq_some (keyed : rows.Keyed) (product : Product) :
    rows.publicById id = some product ↔
      ∃ row ∈ rows.products, some row.id = id ∧ rows.publicProduct row = some product := by
  constructor
  · intro found
    obtain ⟨row, located, shown⟩ := Option.bind_eq_some_iff.mp found
    obtain ⟨value, rfl, located⟩ := Option.bind_eq_some_iff.mp located
    have same : row.id = value := by simpa using List.find?_some located
    exact ⟨row, List.mem_of_find?_eq_some located, congrArg some same, shown⟩
  · rintro ⟨row, stored, rfl, shown⟩
    rw [Rows.publicById, Option.bind_some, find_product keyed row stored]
    exact shown

theorem publicBySlug_eq_some (keyed : rows.Keyed) (product : Product) :
    rows.publicBySlug slug = some product ↔
      ∃ row ∈ rows.products, row.slug = slug ∧ rows.publicProduct row = some product := by
  constructor
  · intro found
    obtain ⟨row, located, shown⟩ := Option.bind_eq_some_iff.mp found
    have same : row.slug = slug := by simpa using List.find?_some located
    exact ⟨row, List.mem_of_find?_eq_some located, same, shown⟩
  · rintro ⟨row, stored, rfl, shown⟩
    rw [Rows.publicBySlug, find_slug keyed row stored]
    exact shown

def Rows.firstNamed (rows : Rows) (id : Option Nat) (slug : String) : Option Product :=
  ((sortBy (idFirst id) (rows.named id slug)).filterMap rows.liveProduct).head?

theorem firstNamed_of_id (keyed : rows.Keyed) (product : Product)
    (byId : rows.publicById id = some product) : rows.firstNamed id slug = some product := by
  obtain ⟨row, stored, same, shown⟩ := (publicById_eq_some id keyed product).mp byId
  have active := active_of_public row product shown
  have member : row ∈ rows.named id slug := (mem_named id slug row).mpr ⟨stored, active, .inl same⟩
  refine head_filterMap (idFirst id) rows.liveProduct _ row product
    (sortBy_strict _ _ (named_leads id slug keyed)) ((mem_sortBy _ _ _).mpr member)
    (fun other _ less => ?_) ((publicProduct_active row active).symm.trans shown)
  have least : idFirst id row = 0 := if_pos same
  rw [least] at less
  exact absurd less (Nat.not_lt_zero _)

/-- Where the id names no public product, its row shows nothing. -/
theorem hidden_of_id (keyed : rows.Keyed) (byId : rows.publicById id = none) (row : ProductRow)
    (member : row ∈ rows.named id slug) (same : some row.id = id) :
    rows.liveProduct row = none := by
  obtain ⟨stored, active, -⟩ := (mem_named id slug row).mp member
  rw [← publicProduct_active row active]
  cases shown : rows.publicProduct row with
  | none => rfl
  | some product =>
      have found := (publicById_eq_some id keyed product).mpr ⟨row, stored, same, shown⟩
      rw [byId] at found
      cases found

theorem firstNamed_of_slug (keyed : rows.Keyed) (byId : rows.publicById id = none) :
    rows.firstNamed id slug = rows.publicBySlug slug := by
  cases bySlug : rows.publicBySlug slug with
  | some product =>
      obtain ⟨row, stored, same, shown⟩ := (publicBySlug_eq_some slug keyed product).mp bySlug
      have active := active_of_public row product shown
      have live := (publicProduct_active row active).symm.trans shown
      have member : row ∈ rows.named id slug :=
        (mem_named id slug row).mpr ⟨stored, active, .inr same⟩
      refine head_filterMap (idFirst id) rows.liveProduct _ row product
        (sortBy_strict _ _ (named_leads id slug keyed)) ((mem_sortBy _ _ _).mpr member)
        (fun other among less => ?_) live
      refine hidden_of_id id slug keyed byId other ((mem_sortBy _ _ _).mp among) ?_
      by_contra apart
      have most : idFirst id other = 1 := if_neg apart
      have bound : idFirst id row ≤ 1 := by
        unfold idFirst
        split <;> omega
      omega
  | none =>
      rw [Rows.firstNamed, List.head?_eq_none_iff, List.filterMap_eq_nil_iff]
      intro row among
      have member := (mem_sortBy _ _ _).mp among
      obtain ⟨stored, active, same | same⟩ := (mem_named id slug row).mp member
      · exact hidden_of_id id slug keyed byId row member same
      · rw [← publicProduct_active row active]
        cases shown : rows.publicProduct row with
        | none => rfl
        | some product =>
            have found := (publicBySlug_eq_some slug keyed product).mpr ⟨row, stored, same, shown⟩
            rw [bySlug] at found
            cases found

/-- The detail read answers with the first product of its rows, with that product's images. -/
theorem findActive_firstNamed (keyed : rows.Keyed) (idOrSlug : String) :
    rows.findActiveByIdOrSlug idOrSlug =
      .ok (rows.firstNamed (Identity.toRoutable idOrSlug) idOrSlug) := by
  unfold Rows.findActiveByIdOrSlug
  dsimp only
  generalize Identity.toRoutable idOrSlug = id
  have stored : (rows.named id idOrSlug).Sublist rows.products := List.filter_sublist
  have read := assemble_flatRows keyed (idFirst id) _ stored (named_leads id idOrSlug keyed)
  simp only [read, bind, Except.bind, List.head?_map]
  change _ = Except.ok ((sortBy (idFirst id) (rows.named id idOrSlug)).filterMap
    rows.liveProduct).head?
  cases first : ((sortBy (idFirst id) (rows.named id idOrSlug)).filterMap
    rows.liveProduct).head? with
  | none => rfl
  | some product =>
      obtain ⟨row, -, live⟩ := List.mem_filterMap.mp (List.mem_of_head? first)
      have named : product.id = row.id := liveProduct_id row product live
      have asked : row.id ∈ [(product.shown []).id] := List.mem_singleton.mpr named.symm
      exact congrArg (fun shown => Except.ok (some shown))
        (shown_loaded keyed [(product.shown []).id] row product live asked)

theorem firstNamed_eq (keyed : rows.Keyed) :
    rows.firstNamed id slug = (rows.publicById id).or (rows.publicBySlug slug) := by
  cases byId : rows.publicById id with
  | some product => exact firstNamed_of_id id slug keyed product byId
  | none => exact firstNamed_of_slug id slug keyed byId

/-- What a detail answers with, or that it is not found. -/
theorem getProductDetail_eq (keyed : rows.Keyed) (media : MediaQuery) (idOrSlug : String) :
    rows.getProductDetail media idOrSlug =
      ((rows.publicById (Identity.toRoutable idOrSlug)).or (rows.publicBySlug idOrSlug)).elim
        (.error ("Product not found: " ++ idOrSlug))
        fun product => .ok ⟨product, media.resolveUrls product.imageAssetIds⟩ := by
  rw [Rows.getProductDetail, findActive_firstNamed keyed, ← firstNamed_eq _ _ keyed]
  cases rows.firstNamed (Identity.toRoutable idOrSlug) idOrSlug <;> rfl

/-- A detail has a URL for each of its product's images whose asset is stored, and no other. -/
theorem getProductDetail_urls (keyed : rows.Keyed) (media : MediaQuery) (idOrSlug : String)
    (result : ProductDetailResult) (shown : rows.getProductDetail media idOrSlug = .ok result)
    (assetId : Nat) (url : String) :
    (assetId, url) ∈ result.imageUrls ↔ assetId ∈ result.product.imageAssetIds ∧
      ∃ asset ∈ media.assets, asset.id = assetId ∧ media.publicUrl asset.storageKey = url := by
  rw [getProductDetail_eq keyed] at shown
  cases found : (rows.publicById (Identity.toRoutable idOrSlug)).or
    (rows.publicBySlug idOrSlug) with
  | none =>
      rw [found] at shown
      cases shown
  | some product =>
      rw [found] at shown
      cases shown
      exact Media.mem_getPublicUrls media.assets media.publicUrl product.imageAssetIds assetId url

end Details

/-- A detail is the public product under the id, if the text is one, and else the one under the
slug. -/
theorem detail_prefers_id (rows : Rows) (keyed : rows.Keyed) (idOrSlug : String) :
    rows.findActiveByIdOrSlug idOrSlug =
      .ok ((rows.publicById (Identity.toRoutable idOrSlug)).or (rows.publicBySlug idOrSlug)) := by
  rw [findActive_firstNamed keyed, firstNamed_eq _ _ keyed]

theorem detail_prefers_id_shelf :
    shelfRows.findActiveByIdOrSlug "300000" =
        .ok ((shelfRows.publicById (some 300000)).or (shelfRows.publicBySlug "300000")) ∧
      (shelfRows.publicById (some 300000)).map (·.slug) = some "headphones" ∧
      (shelfRows.publicBySlug "300000").map (·.id) = some 300001 := by
  have routable : Identity.toRoutable "300000" = some 300000 := by decide +kernel
  have read := detail_prefers_id shelfRows shelf_keyed "300000"
  rw [routable] at read
  exact ⟨read, by decide +kernel, by decide +kernel⟩

end Commerce.Listing
