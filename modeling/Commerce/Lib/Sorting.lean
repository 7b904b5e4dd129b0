import Mathlib.Data.List.Nodup
import Mathlib.Data.List.Sort

/-!
# Sorting by a key

Insertion sort by a key into a linear order.  Where the key determines the
element, the sorted list is the only increasing one with these elements.
-/

set_option autoImplicit false

namespace Sorting

universe u v

variable {α : Type u} {κ : Type v} [LinearOrder κ]

def sortBy (key : α → κ) (rows : List α) : List α :=
  rows.insertionSort fun first second => key first ≤ key second

theorem sortBy_perm (key : α → κ) (rows : List α) : (sortBy key rows).Perm rows :=
  List.perm_insertionSort _ rows

@[simp] theorem mem_sortBy (key : α → κ) (rows : List α) (row : α) :
    row ∈ sortBy key rows ↔ row ∈ rows := (sortBy_perm key rows).mem_iff

theorem sortBy_sorted (key : α → κ) (rows : List α) :
    (sortBy key rows).Pairwise fun first second => key first ≤ key second := by
  have total : Std.Total fun first second : α => key first ≤ key second :=
    ⟨fun first second => le_total (key first) (key second)⟩
  have trans : IsTrans α fun first second => key first ≤ key second :=
    ⟨fun _ _ _ => le_trans⟩
  exact List.pairwise_insertionSort _ rows

theorem nodup_of_strict (key : α → κ) (sorted : List α)
    (strict : sorted.Pairwise fun first second => key first < key second) :
    (sorted.map key).Nodup := List.pairwise_map.mpr (strict.imp ne_of_lt)

/-- Rows that a coarser key tells apart are told apart by a finer one. -/
theorem nodup_of_coarser {β : Type*} {γ : Type*} (coarse : α → β) (fine : α → γ) (rows : List α)
    (determined : ∀ first second, fine first = fine second → coarse first = coarse second)
    (distinct : (rows.map coarse).Nodup) : (rows.map fine).Nodup :=
  List.pairwise_map.mpr ((List.pairwise_map.mp distinct).imp fun apart same =>
    apart (determined _ _ same))

theorem sortBy_strict (key : α → κ) (rows : List α) (distinct : (rows.map key).Nodup) :
    (sortBy key rows).Pairwise fun first second => key first < key second := by
  have apart : ((sortBy key rows).map key).Nodup :=
    ((sortBy_perm key rows).map key).nodup_iff.mpr distinct
  have both := (sortBy_sorted key rows).and (List.pairwise_map.mp apart)
  exact both.imp fun upto => lt_of_le_of_ne upto.1 upto.2

/-- The only increasing list of these rows. -/
theorem sortBy_eq (key : α → κ) (rows sorted : List α) (perm : rows.Perm sorted)
    (increasing : sorted.Pairwise fun first second => key first ≤ key second)
    (determined : ∀ first ∈ rows, ∀ second ∈ rows, key first = key second → first = second) :
    sortBy key rows = sorted := by
  refine List.Perm.eq_of_pairwise (fun first second among member upto downto => ?_)
    (sortBy_sorted key rows) increasing ((sortBy_perm key rows).trans perm)
  have here : first ∈ rows := (mem_sortBy key rows first).mp among
  exact determined first here second (perm.mem_iff.mpr member) (le_antisymm upto downto)

/-- Rows left out before the sort are left out after it. -/
theorem sortBy_filter (key : α → κ) (p : α → Bool) (rows : List α)
    (distinct : (rows.map key).Nodup) :
    sortBy key (rows.filter p) = (sortBy key rows).filter p := by
  refine sortBy_eq key _ _ ((sortBy_perm key rows).filter p).symm
    ((sortBy_sorted key rows).filter p) fun first among second member same => ?_
  exact List.inj_on_of_nodup_map distinct (List.mem_filter.mp among).1
    (List.mem_filter.mp member).1 same

end Sorting
