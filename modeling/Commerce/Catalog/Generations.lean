import Commerce.Catalog.Cache

/-!
# Generations

A key of the cache carries the generation its reader found.  What is stored or
read under a key reflects every commit whose bump that generation includes: the
reader found the generation after the bump, and went to the source later still.
-/

set_option autoImplicit false

namespace Commerce.Catalog

/-! ## Keys -/

section Keys

variable (hashing : Hashing)

theorem productKey_spelled (version : Nat) (query : Query) : ∃ rest,
    (productKey hashing version query).toList =
      "catalog:v3:".toList ++ ((toString version).toList ++ ':' :: rest) := by
  cases query with
  | list criteria =>
      refine ⟨"list:".toList ++ (hashing.listDigestOf criteria).toList, ?_⟩
      simp only [productKey, productListKey, cacheNamespace, String.toList_append]
      simp [List.append_assoc]
  | detail idOrSlug =>
      refine ⟨"product:".toList ++ (hashing.digestOf idOrSlug).toList, ?_⟩
      simp only [productKey, productDetailKey, cacheNamespace, String.toList_append]
      simp [List.append_assoc]

theorem productKey_version (version other : Nat) (query different : Query)
    (same : productKey hashing version query = productKey hashing other different) :
    version = other := by
  obtain ⟨rest, spelled⟩ := productKey_spelled hashing version query
  obtain ⟨tail, otherSpelled⟩ := productKey_spelled hashing other different
  rw [same, otherSpelled] at spelled
  have digits := List.append_cancel_left spelled
  exact (Decimals.toString_append_inj other version ':' tail rest (by decide) digits).symm

/-- No text that starts with a generation is the key of the counter. -/
theorem spelled_ne_counterKey (key : String) (version : Nat) (rest : List Char)
    (spelled : key.toList = "catalog:v3:".toList ++ ((toString version).toList ++ ':' :: rest)) :
    key ≠ catalogCacheVersionKey := by
  rintro rfl
  have counter : catalogCacheVersionKey.toList = "catalog:v3:".toList ++ ['v', 'e', 'r'] := by
    decide
  rw [counter] at spelled
  have digits := List.append_cancel_left spelled
  cases shape : (toString version).toList with
  | nil =>
      rw [shape] at digits
      cases digits
  | cons digit others =>
      rw [shape] at digits
      have first : digit = 'v' := (List.cons.inj digits).1.symm
      have isDigit := Decimals.isDigit_toString version digit
        (by rw [shape]; exact List.mem_cons_self)
      rw [first] at isDigit
      cases isDigit

theorem productKey_ne_counterKey (version : Nat) (query : Query) :
    productKey hashing version query ≠ catalogCacheVersionKey := by
  obtain ⟨rest, spelled⟩ := productKey_spelled hashing version query
  exact spelled_ne_counterKey _ version rest spelled

theorem lockKey_ne_counterKey (version : Nat) (query : Query) :
    lockKeyFor (productKey hashing version query) ≠ catalogCacheVersionKey := by
  obtain ⟨rest, spelled⟩ := productKey_spelled hashing version query
  refine spelled_ne_counterKey _ version (rest ++ ":lock".toList) ?_
  rw [lockKeyFor, String.toList_append, spelled]
  simp [List.append_assoc]

end Keys

/-! ## Writes -/

theorem hasPatch_of_patchOf (entity : Entity) (data : UpdateData)
    (patched : patchOf entity data ≠ []) : hasPatch data = true := by
  obtain ⟨⟨field, value⟩, member⟩ := List.exists_mem_of_ne_nil _ patched
  obtain ⟨known, -, written⟩ := List.mem_filterMap.mp member
  obtain ⟨found, present, -⟩ := Option.map_eq_some_iff.mp written
  obtain ⟨entry, looked, same⟩ := Option.bind_eq_some_iff.mp present
  cases entry with
  | none => cases same
  | some carried =>
      obtain ⟨before, behind, split, -⟩ := List.lookup_eq_some_iff.mp looked
      refine List.any_eq_true.mpr ⟨(known, some carried), ?_, rfl⟩
      rw [split]
      exact List.mem_append_right _ List.mem_cons_self

/-- Every write that commits raises the generation. -/
theorem invalidates_of_commits (write : AdminWrite) (found : Bool)
    (commits : write.commits found = true) : write.invalidates found = true := by
  cases write with
  | create => rfl
  | update entity data =>
      simp only [AdminWrite.commits, Bool.and_eq_true, Bool.not_eq_true'] at commits
      have patched : patchOf entity data ≠ [] := by
        intro empty
        rw [empty] at commits
        cases commits.1
      simp [AdminWrite.invalidates, AdminWrite.answered, hasPatch_of_patchOf entity data patched,
        commits.2]
  | change => exact commits
  | archiveCategoryIfEmpty => exact commits

end Commerce.Catalog
