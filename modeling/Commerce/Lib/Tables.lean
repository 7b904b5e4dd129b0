import Mathlib.Algebra.BigOperators.Group.List.Basic
import Mathlib.Data.List.Nodup
import Mathlib.Tactic.Common
import Mathlib.Tactic.Abel

/-!
# Tables as lists of keyed rows

A table is a list of rows; a key function makes it a keyed table when no two
rows share a key.  A tally adds up an amount over the rows, and changes by one
row's difference when that row is updated.
-/

set_option autoImplicit false

namespace Tables

universe u v

variable {α : Type u} {κ : Type v} [DecidableEq κ]

def tally (amount : α → Int) (rows : List α) : Int := (rows.map amount).sum

@[simp] theorem tally_nil (amount : α → Int) : tally amount [] = 0 := rfl

@[simp] theorem tally_cons (amount : α → Int) (row : α) (rows : List α) :
    tally amount (row :: rows) = amount row + tally amount rows := by
  simp [tally]

@[simp] theorem tally_append (amount : α → Int) (first second : List α) :
    tally amount (first ++ second) = tally amount first + tally amount second := by
  simp [tally]

theorem tally_map (amount : α → Int) (change : α → α) (rows : List α)
    (same : ∀ row ∈ rows, amount (change row) = amount row) :
    tally amount (rows.map change) = tally amount rows := by
  simp only [tally, List.map_map]
  exact congrArg List.sum (List.map_congr_left same)

theorem filter_map_of_kept (p : α → Bool) (change : α → α) (rows : List α)
    (same : ∀ row, p (change row) = p row) (kept : ∀ row, p row = true → change row = row) :
    (rows.map change).filter p = rows.filter p := by
  induction rows with
  | nil => rfl
  | cons row rest ih =>
      rw [List.map_cons, List.filter_cons, List.filter_cons, same row, ih]
      split
      · rename_i picked
        rw [kept row picked]
      · rfl

theorem tally_eq_zero (amount : α → Int) (rows : List α)
    (none : ∀ row ∈ rows, amount row = 0) : tally amount rows = 0 := by
  induction rows with
  | nil => rfl
  | cons row rest ih =>
      rw [tally_cons, none row List.mem_cons_self,
        ih fun other member => none other (List.mem_cons_of_mem _ member)]
      rfl

theorem tally_nonneg (amount : α → Int) (rows : List α) (each : ∀ row ∈ rows, 0 ≤ amount row) :
    0 ≤ tally amount rows := by
  induction rows with
  | nil => exact Int.le_refl 0
  | cons row rest ih =>
      have here := each row (.head _)
      have later := ih fun other listed => each other (.tail _ listed)
      rw [tally_cons]
      omega

theorem tally_filter (amount : α → Int) (p : α → Bool) (rows : List α)
    (counted : ∀ row ∈ rows, p row = false → amount row = 0) :
    tally amount rows = tally amount (rows.filter p) := by
  induction rows with
  | nil => rfl
  | cons row rest ih =>
      have tail := ih fun other behind => counted other (List.mem_cons_of_mem _ behind)
      rw [tally_cons, List.filter_cons, tail]
      cases picked : p row with
      | true => simp
      | false => simp [counted row List.mem_cons_self picked]

omit [DecidableEq κ] in
theorem tally_single (key : α → κ) (amount : α → Int) (rows : List α) (row : α)
    (keyed : (rows.map key).Nodup) (member : row ∈ rows)
    (others : ∀ other ∈ rows, key other ≠ key row → amount other = 0) :
    tally amount rows = amount row := by
  induction rows with
  | nil => cases member
  | cons head rest ih =>
      obtain ⟨fresh, keyedRest⟩ := List.nodup_cons.mp keyed
      rcases List.mem_cons.mp member with rfl | later
      · have silent : tally amount rest = 0 := by
          refine tally_eq_zero amount rest fun other behind => ?_
          refine others other (List.mem_cons_of_mem _ behind) fun same => fresh ?_
          exact same ▸ List.mem_map_of_mem behind
        rw [tally_cons, silent, Int.add_zero]
      · have different : key head ≠ key row := fun same =>
          fresh (same ▸ List.mem_map_of_mem later)
        rw [tally_cons, others head List.mem_cons_self different,
          ih keyedRest later fun other behind => others other (List.mem_cons_of_mem _ behind)]
        exact Int.zero_add _

def update (key : α → κ) (target : κ) (change : α → α) (rows : List α) : List α :=
  rows.map fun row => if key row = target then change row else row

@[simp] theorem update_cons (key : α → κ) (target : κ) (change : α → α) (row : α) (rows : List α) :
    update key target change (row :: rows) =
      (if key row = target then change row else row) :: update key target change rows := rfl

theorem mem_update (key : α → κ) (target : κ) (change : α → α) (rows : List α) (row : α) :
    row ∈ update key target change rows ↔
      ∃ before ∈ rows, (if key before = target then change before else before) = row := by
  simp [update]

theorem map_key_update (key : α → κ) (target : κ) (change : α → α) (rows : List α)
    (keeps : ∀ row, key (change row) = key row) :
    (update key target change rows).map key = rows.map key := by
  simp only [update, List.map_map]
  refine List.map_congr_left fun row _ => ?_
  simp only [Function.comp_apply]
  split <;> simp [keeps]

theorem update_of_absent (key : α → κ) (target : κ) (change : α → α) (rows : List α)
    (absent : target ∉ rows.map key) : update key target change rows = rows := by
  have same : ∀ row ∈ rows, (if key row = target then change row else row) = id row := by
    intro row member
    rw [if_neg]
    · rfl
    · rintro rfl
      exact absent (List.mem_map_of_mem member)
  rw [update, List.map_congr_left same, List.map_id]

/-- In a keyed table an update changes the tally by the difference of its one row. -/
theorem tally_update (key : α → κ) (amount : α → Int) (change : α → α) (rows : List α) (row : α)
    (keyed : (rows.map key).Nodup) (member : row ∈ rows) :
    tally amount (update key (key row) change rows) =
      tally amount rows - amount row + amount (change row) := by
  induction rows with
  | nil => cases member
  | cons head rest ih =>
      obtain ⟨fresh, keyedRest⟩ := List.nodup_cons.mp keyed
      rcases List.mem_cons.mp member with rfl | later
      · have tail : update key (key row) change rest = rest :=
          update_of_absent key (key row) change rest fresh
        rw [update_cons, if_pos rfl, tail, tally_cons, tally_cons]
        abel
      · have different : key head ≠ key row := by
          intro same
          exact fresh (same ▸ List.mem_map_of_mem later)
        rw [update_cons, if_neg different, tally_cons, tally_cons, ih keyedRest later]
        abel

/-- An update of rows that a condition leaves out, before and after, keeps the rows it picks. -/
theorem filter_update (p : α → Bool) (key : α → κ) (target : κ) (change : α → α) (rows : List α)
    (out : ∀ row ∈ rows, key row = target → p row = false ∧ p (change row) = false) :
    (update key target change rows).filter p = rows.filter p := by
  induction rows with
  | nil => rfl
  | cons row rest ih =>
      have later := ih fun other member => out other (List.mem_cons_of_mem _ member)
      rw [update_cons, List.filter_cons, List.filter_cons, later]
      by_cases hit : key row = target
      · obtain ⟨before, after⟩ := out row List.mem_cons_self hit
        simp [hit, before, after]
      · rw [if_neg hit]

theorem find_update [BEq κ] [LawfulBEq κ] (key : α → κ) (target wanted : κ) (change : α → α)
    (rows : List α) (keeps : ∀ row, key (change row) = key row) :
    ((update key target change rows).find? fun row => key row == wanted) =
      (rows.find? fun row => key row == wanted).map fun row =>
        if wanted = target then change row else row := by
  induction rows with
  | nil => rfl
  | cons row rest ih =>
      have same : key (if key row = target then change row else row) = key row := by
        split
        · exact keeps row
        · rfl
      rw [update_cons, List.find?_cons, List.find?_cons, same]
      cases hit : key row == wanted with
      | true =>
          rw [eq_of_beq hit]
          rfl
      | false => exact ih

theorem nodup_update {β : Type u} (key : α → κ) (column : α → β) (target : κ) (change : α → α)
    (rows : List α) (keyed : (rows.map key).Nodup) (distinct : (rows.map column).Nodup)
    (free : ∀ row ∈ rows, key row = target →
      ∀ other ∈ rows, key other ≠ target → column other ≠ column (change row)) :
    ((update key target change rows).map column).Nodup := by
  have both := (List.pairwise_map.mp keyed).and (List.pairwise_map.mp distinct)
  rw [update, List.map_map]
  refine List.pairwise_map.mpr (List.Pairwise.imp_of_mem ?_ both)
  intro row other member among apart
  simp only [Function.comp_apply]
  by_cases here : key row = target
  · have there : key other ≠ target := fun hit => apart.1 (here.trans hit.symm)
    rw [if_pos here, if_neg there]
    exact (free row member here other among there).symm
  · rw [if_neg here]
    by_cases there : key other = target
    · rw [if_pos there]
      exact free other among there row member here
    · rw [if_neg there]
      exact apart.2

omit [DecidableEq κ] in
/-- In a keyed table the key determines the row. -/
theorem eq_of_key (key : α → κ) (rows : List α) (first second : α)
    (keyed : (rows.map key).Nodup) (memFirst : first ∈ rows) (memSecond : second ∈ rows)
    (same : key first = key second) : first = second :=
  List.inj_on_of_nodup_map keyed memFirst memSecond same

theorem foldl_update [DecidableEq α] (key : α → κ) (change : α → α → α)
    (keeps : ∀ read row, key (change read row) = key row) (changed rows : List α)
    (keyed : (rows.map key).Nodup) (stored : ∀ row ∈ changed, row ∈ rows) (once : changed.Nodup) :
    changed.foldl (fun rows read => update key (key read) (change read) rows) rows =
      rows.map fun row => if row ∈ changed then change row row else row := by
  induction changed generalizing rows with
  | nil => simp
  | cons read rest ih =>
      obtain ⟨fresh, onceRest⟩ := List.nodup_cons.mp once
      have readStored := stored read List.mem_cons_self
      have keyedNext : ((update key (key read) (change read) rows).map key).Nodup := by
        rw [map_key_update key _ _ _ (keeps read)]
        exact keyed
      have storedNext : ∀ row ∈ rest, row ∈ update key (key read) (change read) rows := by
        intro row later
        have member := stored row (List.mem_cons_of_mem _ later)
        refine (mem_update ..).mpr ⟨row, member, if_neg fun same => ?_⟩
        exact fresh (eq_of_key key rows row read keyed member readStored same ▸ later)
      rw [List.foldl_cons, ih _ keyedNext storedNext onceRest, update, List.map_map]
      refine List.map_congr_left fun row member => ?_
      rw [Function.comp_apply]
      by_cases same : key row = key read
      · obtain rfl := eq_of_key key rows row read keyed member readStored same
        have absent : change row row ∉ rest := by
          intro later
          have back := eq_of_key key rows _ row keyed (stored _ (List.mem_cons_of_mem _ later))
            member (keeps row row)
          exact fresh (back ▸ later)
        rw [if_pos rfl, if_neg absent, if_pos List.mem_cons_self]
      · have other : row ≠ read := fun eq => same (congrArg key eq)
        simp only [if_neg same, List.mem_cons, other, false_or]

/-- The same on a table whose rows were settled before, where none of those read was touched. -/
theorem foldl_update_map [DecidableEq α] (key : α → κ) (change : α → α → α)
    (keeps : ∀ read row, key (change read row) = key row) (settle : α → α)
    (settles : ∀ row, key (settle row) = key row) (changed rows : List α)
    (keyed : (rows.map key).Nodup) (stored : ∀ row ∈ changed, row ∈ rows) (once : changed.Nodup)
    (untouched : ∀ row ∈ changed, settle row = row) :
    changed.foldl (fun rows read => update key (key read) (change read) rows) (rows.map settle) =
      rows.map fun row => if row ∈ changed then change row row else settle row := by
  have keyedSettled : ((rows.map settle).map key).Nodup := by
    have same : rows.map (key ∘ settle) = rows.map key :=
      List.map_congr_left fun row _ => settles row
    rw [List.map_map, same]
    exact keyed
  have storedSettled : ∀ row ∈ changed, row ∈ rows.map settle := fun row member =>
    List.mem_map.mpr ⟨row, stored row member, untouched row member⟩
  rw [foldl_update key change keeps changed _ keyedSettled storedSettled once, List.map_map]
  refine List.map_congr_left fun row member => ?_
  rw [Function.comp_apply]
  by_cases listed : row ∈ changed
  · rw [untouched row listed, if_pos listed]
  · have absent : settle row ∉ changed := by
      intro moved
      have same := eq_of_key key rows _ row keyed (stored _ moved) member (settles row)
      exact listed (same ▸ moved)
    rw [if_neg absent, if_neg listed]

end Tables
