import Mathlib.Data.List.Sort
import Mathlib.Tactic.Common

/-!
# Pages of an ordered selection

A page is the first rows of a selection in a total order.  What is selected is
on the page, or at or past its last row; a page that is not full is complete.
-/

set_option autoImplicit false

namespace Pages

universe u

variable {α : Type u} (r : α → α → Prop) [DecidableRel r]

def page (chosen : α → Bool) (limit : Nat) (rows : List α) : List α :=
  ((rows.filter chosen).insertionSort r).take limit

theorem mem_page (chosen : α → Bool) (limit : Nat) (rows : List α) (row : α)
    (listed : row ∈ page r chosen limit rows) : row ∈ rows ∧ chosen row = true := by
  have sorted := List.mem_of_mem_take listed
  exact List.mem_filter.mp ((List.mem_insertionSort r).mp sorted)

theorem length_page_le (chosen : α → Bool) (limit : Nat) (rows : List α) :
    (page r chosen limit rows).length ≤ limit := by
  simp [page]

/-- A page that is not full has every chosen row. -/
theorem mem_page_of_short (chosen : α → Bool) (limit : Nat) (rows : List α) (row : α)
    (short : (page r chosen limit rows).length < limit) (listed : row ∈ rows)
    (chosenRow : chosen row = true) : row ∈ page r chosen limit rows := by
  have member : row ∈ (rows.filter chosen).insertionSort r :=
    (List.mem_insertionSort r).mpr (List.mem_filter.mpr ⟨listed, chosenRow⟩)
  have whole : ((rows.filter chosen).insertionSort r).length ≤ limit := by
    simp only [page, List.length_take] at short
    omega
  rw [page, List.take_of_length_le whole]
  exact member

/-- A chosen row that is not on the page comes at or after the last row of the page. -/
theorem mem_page_or_past [Std.Total r] [IsTrans α r] (chosen : α → Bool) (limit : Nat)
    (rows : List α) (row last : α) (listed : row ∈ rows) (chosenRow : chosen row = true)
    (ends : (page r chosen limit rows).getLast? = some last) :
    row ∈ page r chosen limit rows ∨ r last row := by
  have member : row ∈ (rows.filter chosen).insertionSort r :=
    (List.mem_insertionSort r).mpr (List.mem_filter.mpr ⟨listed, chosenRow⟩)
  have sorted := List.pairwise_insertionSort r (rows.filter chosen)
  rw [← List.take_append_drop limit ((rows.filter chosen).insertionSort r)] at member sorted
  rcases List.mem_append.mp member with early | late
  · exact .inl early
  · have lastListed : last ∈ page r chosen limit rows := List.mem_of_getLast? ends
    exact .inr ((List.pairwise_append.mp sorted).2.2 last lastListed row late)

theorem page_le_last [Std.Total r] [IsTrans α r] (chosen : α → Bool) (limit : Nat)
    (rows : List α) (row last : α) (listed : row ∈ page r chosen limit rows)
    (ends : (page r chosen limit rows).getLast? = some last) : r row last := by
  have sorted : (page r chosen limit rows).Pairwise r :=
    (List.pairwise_insertionSort r (rows.filter chosen)).sublist (List.take_sublist _ _)
  obtain ⟨before, split⟩ := List.getLast?_eq_some_iff.mp ends
  rw [split] at sorted listed
  rcases List.mem_append.mp listed with early | here
  · exact (List.pairwise_append.mp sorted).2.2 row early last List.mem_cons_self
  · obtain rfl := List.mem_singleton.mp here
    exact (Std.Total.total row row).elim id id

theorem nodup_page (chosen : α → Bool) (limit : Nat) (rows : List α) (distinct : rows.Nodup) :
    (page r chosen limit rows).Nodup := by
  have sorted := (List.perm_insertionSort r (rows.filter chosen)).nodup_iff.mpr
    (distinct.sublist List.filter_sublist)
  exact sorted.sublist (List.take_sublist _ _)

/-! ## A row's place in the order -/

def ahead (chosen : α → Bool) (rows : List α) (row : α) : List α :=
  rows.filter fun other => chosen other && !decide (r row other)

theorem perm_ahead [Std.Total r] [IsTrans α r] (chosen : α → Bool) (rows : List α) (row : α)
    (distinct : rows.Nodup)
    (apart : ∀ one ∈ rows, ∀ other ∈ rows, r one other → r other one → one = other)
    (listed : row ∈ rows) (before after : List α)
    (split : (rows.filter chosen).insertionSort r = before ++ row :: after) :
    before.Perm (ahead r chosen rows row) := by
  have sorted := List.pairwise_insertionSort r (rows.filter chosen)
  have perm := List.perm_insertionSort r (rows.filter chosen)
  have once := perm.nodup_iff.mpr (distinct.sublist List.filter_sublist)
  rw [split] at sorted once perm
  obtain ⟨-, fromRow, across⟩ := List.pairwise_append.mp sorted
  obtain ⟨behind, -⟩ := List.pairwise_cons.mp fromRow
  have stored : ∀ other ∈ before, other ∈ rows := fun other early =>
    List.mem_of_mem_filter (perm.subset (List.mem_append_left _ early))
  have front : (before ++ row :: after).filter (fun other => !decide (r row other)) = before := by
    rw [List.filter_append, List.filter_cons_of_neg, List.filter_eq_self.mpr,
      List.filter_eq_nil_iff.mpr, List.append_nil]
    · intro other late
      simpa using behind other late
    · intro other early
      have upTo := across other early row List.mem_cons_self
      have notBack : ¬ r row other := by
        intro back
        have same := apart other (stored other early) row listed upTo back
        rw [same] at early
        exact (List.nodup_append.mp once).2.2 row early row List.mem_cons_self rfl
      simpa using notBack
    · have itself : r row row := (Std.Total.total row row).elim id id
      simpa using itself
  have filtered := perm.filter fun other => !decide (r row other)
  rw [front, List.filter_filter] at filtered
  rw [ahead]
  simpa only [Bool.and_comm] using filtered

theorem sorted_split [Std.Total r] [IsTrans α r] (chosen : α → Bool) (rows : List α) (row : α)
    (distinct : rows.Nodup)
    (apart : ∀ one ∈ rows, ∀ other ∈ rows, r one other → r other one → one = other)
    (listed : row ∈ rows) (chosenRow : chosen row = true) :
    ∃ before after, (rows.filter chosen).insertionSort r = before ++ row :: after ∧
      before.Perm (ahead r chosen rows row) := by
  have member : row ∈ (rows.filter chosen).insertionSort r :=
    (List.mem_insertionSort r).mpr (List.mem_filter.mpr ⟨listed, chosenRow⟩)
  obtain ⟨before, after, split⟩ := List.append_of_mem member
  exact ⟨before, after, split, perm_ahead r chosen rows row distinct apart listed before after
    split⟩

/-- A row is on a page exactly when fewer chosen rows than the limit come before it. -/
theorem mem_page_iff [Std.Total r] [IsTrans α r] (chosen : α → Bool) (limit : Nat) (rows : List α)
    (row : α) (distinct : rows.Nodup)
    (apart : ∀ one ∈ rows, ∀ other ∈ rows, r one other → r other one → one = other)
    (listed : row ∈ rows) (chosenRow : chosen row = true) :
    row ∈ page r chosen limit rows ↔ (ahead r chosen rows row).length < limit := by
  obtain ⟨before, after, split, place⟩ :=
    sorted_split r chosen rows row distinct apart listed chosenRow
  have once := (List.perm_insertionSort r (rows.filter chosen)).nodup_iff.mpr
    (distinct.sublist List.filter_sublist)
  rw [split] at once
  have absent : row ∉ before := fun early =>
    (List.nodup_append.mp once).2.2 row early row List.mem_cons_self rfl
  rw [page, split, ← place.length_eq]
  constructor
  · intro member
    by_contra late
    rw [List.take_append_of_le_length (by omega)] at member
    exact absent (List.mem_of_mem_take member)
  · intro early
    obtain ⟨more, rfl⟩ := Nat.exists_eq_add_of_lt early
    rw [Nat.add_assoc, List.take_append, Nat.add_sub_cancel_left, List.take_succ_cons]
    exact List.mem_append_right _ List.mem_cons_self

/-- Where what comes before a row that missed the page came before it already, and was not on the
page either, the row has moved up by a whole page. -/
theorem length_ahead_of_missed [Std.Total r] [IsTrans α r] (chosen later : α → Bool) (limit : Nat)
    (rows moved : List α) (row : α) (distinct : rows.Nodup) (distinctMoved : moved.Nodup)
    (apart : ∀ one ∈ rows, ∀ other ∈ rows, r one other → r other one → one = other)
    (listed : row ∈ rows) (chosenRow : chosen row = true)
    (missed : row ∉ page r chosen limit rows)
    (waited : ∀ other ∈ ahead r later moved row,
      other ∈ ahead r chosen rows row ∧ other ∉ page r chosen limit rows) :
    (ahead r later moved row).length + limit ≤ (ahead r chosen rows row).length := by
  obtain ⟨before, after, split, place⟩ :=
    sorted_split r chosen rows row distinct apart listed chosenRow
  have full : limit ≤ before.length := by
    have placed := mem_page_iff r chosen limit rows row distinct apart listed chosenRow
    rw [← place.length_eq] at placed
    by_contra short
    exact missed (placed.mpr (by omega))
  have firsts : page r chosen limit rows = before.take limit := by
    rw [page, split, List.take_append_of_le_length full]
  have within : ahead r later moved row ⊆ before.drop limit := by
    intro other early
    obtain ⟨old, unlisted⟩ := waited other early
    have member := place.symm.subset old
    rw [← List.take_append_drop limit before] at member
    rcases List.mem_append.mp member with first | rest
    · exact absurd (firsts ▸ first) unlisted
    · exact rest
  have fits := (List.subperm_of_subset (distinctMoved.sublist List.filter_sublist) within).length_le
  rw [List.length_drop] at fits
  rw [← place.length_eq]
  exact Nat.add_le_of_le_sub full fits

/-- Fewer rows than are chosen come before a chosen row. -/
theorem length_ahead_lt [Std.Total r] (chosen : α → Bool) (rows : List α) (row : α)
    (listed : row ∈ rows) (chosenRow : chosen row = true) :
    (ahead r chosen rows row).length < (rows.filter chosen).length := by
  have itself : r row row := (Std.Total.total row row).elim id id
  have front : ahead r chosen rows row =
      (rows.filter chosen).filter fun other => !decide (r row other) := by
    rw [ahead, List.filter_filter]
    exact List.filter_congr fun _ _ => Bool.and_comm _ _
  rw [front]
  refine List.length_filter_lt_length_iff_exists.mpr ⟨row, ?_, by simpa using itself⟩
  exact List.mem_filter.mpr ⟨listed, chosenRow⟩

/-! ## Slices of one size -/

omit [DecidableRel r] in
theorem flatMap_slices (rows : List α) (size count : Nat) :
    (List.range count).flatMap (fun n => (rows.drop (n * size)).take size) =
      rows.take (count * size) := by
  induction count with
  | zero => simp
  | succ count ih =>
      rw [List.range_succ, List.flatMap_append, ih, List.flatMap_singleton, Nat.succ_mul,
        List.take_add]

theorem le_slices (length size : Nat) (sized : 0 < size) :
    length ≤ (length + size - 1) / size * size := by
  have above := Nat.lt_mul_div_succ (length + size - 1) sized
  rw [Nat.mul_add, Nat.mul_one, Nat.mul_comm] at above
  omega

end Pages
