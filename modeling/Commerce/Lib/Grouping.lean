import Commerce.Lib.Results
import Mathlib.Data.List.Nodup

/-!
# Grouping rows in the order first seen

A fold over rows keeps one group a key: the first row of a key opens its group
behind the others, and each row of the key is then added to the group where it
stands.  Rows that come in blocks, one block a key, are grouped block by block.
Values that are only gathered under their keys keep the order they come in.
-/

set_option autoImplicit false

namespace Grouping

open Results (bind_eq_ok)

universe u

/-- How rows are grouped.  Opening a group and adding a row to one can fail. -/
structure Groups (ε α γ κ : Type u) where
  keyOf : α → κ
  key : γ → κ
  start : α → Except ε γ
  add : γ → α → Except ε γ
  opens : ∀ row group, start row = .ok group → key group = keyOf row
  keeps : ∀ group row next, add group row = .ok next → key next = key group

variable {ε α β γ κ : Type u} [DecidableEq κ]

/-- Adds a row to the group of its key, which is opened behind the others if there is none. -/
def Groups.place (groups : Groups ε α γ κ) (held : List γ) (row : α) : Except ε (List γ) :=
  match held with
  | [] => do
      let opened ← groups.start row
      let group ← groups.add opened row
      .ok [group]
  | group :: rest =>
      if groups.key group = groups.keyOf row then do
        let changed ← groups.add group row
        .ok (changed :: rest)
      else do
        let placed ← groups.place rest row
        .ok (group :: placed)

def Groups.collect (groups : Groups ε α γ κ) (rows : List α) : Except ε (List γ) :=
  rows.foldlM groups.place []

section Laws

variable (groups : Groups ε α γ κ)

theorem place_front (front rest placed : List γ) (row : α)
    (others : ∀ group ∈ front, groups.key group ≠ groups.keyOf row)
    (behind : groups.place rest row = .ok placed) :
    groups.place (front ++ rest) row = .ok (front ++ placed) := by
  induction front with
  | nil => exact behind
  | cons group front ih =>
      have past := ih fun other member => others other (List.mem_cons_of_mem _ member)
      rw [List.cons_append, Groups.place, if_neg (others group List.mem_cons_self), past]
      rfl

theorem foldlM_last (front : List γ) (group built : γ) (block : List α)
    (keyed : ∀ row ∈ block, groups.keyOf row = groups.key group)
    (others : ∀ other ∈ front, groups.key other ≠ groups.key group)
    (added : block.foldlM groups.add group = .ok built) :
    block.foldlM groups.place (front ++ [group]) = .ok (front ++ [built]) := by
  induction block generalizing group with
  | nil =>
      cases added
      rfl
  | cons row rest ih =>
      rw [List.foldlM_cons] at added ⊢
      obtain ⟨changed, first, remaining⟩ := (bind_eq_ok _ _ _).mp added
      have here : groups.keyOf row = groups.key group := keyed row List.mem_cons_self
      have same : groups.key changed = groups.key group := groups.keeps group row changed first
      have placed : groups.place [group] row = .ok [changed] := by
        rw [Groups.place, if_pos here.symm, first]
        rfl
      have past : groups.place (front ++ [group]) row = .ok (front ++ [changed]) :=
        place_front groups front [group] [changed] row
          (fun other member => here ▸ others other member) placed
      rw [past]
      refine ih changed (fun later member => ?_) (fun other member => ?_) remaining
      · rw [same]
        exact keyed later (List.mem_cons_of_mem _ member)
      · rw [same]
        exact others other member

/-- A block of a key not seen before opens one group. -/
theorem foldlM_block (front : List γ) (head : α) (tail : List α) (opened built : γ)
    (others : ∀ other ∈ front, groups.key other ≠ groups.keyOf head)
    (keyed : ∀ row ∈ tail, groups.keyOf row = groups.keyOf head)
    (start : groups.start head = .ok opened)
    (added : (head :: tail).foldlM groups.add opened = .ok built) :
    (head :: tail).foldlM groups.place front = .ok (front ++ [built]) := by
  rw [List.foldlM_cons] at added ⊢
  obtain ⟨group, first, remaining⟩ := (bind_eq_ok _ _ _).mp added
  have key : groups.key group = groups.keyOf head :=
    (groups.keeps opened head group first).trans (groups.opens head opened start)
  have placed : groups.place [] head = .ok [group] := by
    rw [Groups.place, start]
    simp only [bind, Except.bind, first]
  have past := place_front groups front [] [group] head others placed
  rw [List.append_nil] at past
  rw [past]
  refine foldlM_last groups front group built tail (fun row member => ?_)
    (fun other member => ?_) remaining
  · rw [key]
    exact keyed row member
  · rw [key]
    exact others other member

/-- What a block of rows is built into, and the key it has alone. -/
structure Block (rowsOf : β → List α) (keyed : β → κ) (built : β → γ) (block : β) : Prop where
  keys : ∀ row ∈ rowsOf block, groups.keyOf row = keyed block
  builds : ∃ head tail opened, rowsOf block = head :: tail ∧ groups.start head = .ok opened ∧
    (rowsOf block).foldlM groups.add opened = .ok (built block)

omit [DecidableEq κ] in
theorem key_foldlM (block : List α) (group built : γ)
    (added : block.foldlM groups.add group = .ok built) :
    groups.key built = groups.key group := by
  induction block generalizing group with
  | nil =>
      cases added
      rfl
  | cons row rest ih =>
      rw [List.foldlM_cons] at added
      obtain ⟨next, first, remaining⟩ := (bind_eq_ok _ _ _).mp added
      exact (ih next remaining).trans (groups.keeps group row next first)

omit [DecidableEq κ] in
theorem Block.key {rowsOf : β → List α} {keyed : β → κ} {built : β → γ} {block : β}
    (known : Block groups rowsOf keyed built block) : groups.key (built block) = keyed block := by
  obtain ⟨head, tail, opened, rows, start, added⟩ := known.builds
  have first : groups.keyOf head = keyed block := known.keys head (rows ▸ List.mem_cons_self)
  have opens : groups.key opened = groups.keyOf head := groups.opens head opened start
  exact (key_foldlM groups _ opened _ added).trans (opens.trans first)

theorem foldlM_blocks (front : List γ) (blocks : List β) (rowsOf : β → List α) (keyed : β → κ)
    (built : β → γ) (known : ∀ block ∈ blocks, Block groups rowsOf keyed built block)
    (apart : (blocks.map keyed).Nodup)
    (others : ∀ group ∈ front, ∀ block ∈ blocks, groups.key group ≠ keyed block) :
    (blocks.flatMap rowsOf).foldlM groups.place front = .ok (front ++ blocks.map built) := by
  induction blocks generalizing front with
  | nil => simp [pure, Except.pure]
  | cons block rest ih =>
      obtain ⟨fresh, later⟩ := List.nodup_cons.mp apart
      have here := known block List.mem_cons_self
      obtain ⟨head, tail, opened, rows, start, added⟩ := here.builds
      have keyHead : groups.keyOf head = keyed block := here.keys head (rows ▸ List.mem_cons_self)
      have placed : (rowsOf block).foldlM groups.place front = .ok (front ++ [built block]) := by
        rw [rows] at added ⊢
        refine foldlM_block groups front head tail opened (built block)
          (fun group member => ?_) (fun row member => ?_) start added
        · rw [keyHead]
          exact others group member block List.mem_cons_self
        · rw [keyHead]
          exact here.keys row (rows ▸ List.mem_cons_of_mem _ member)
      have behind := ih (front ++ [built block])
        (fun other member => known other (List.mem_cons_of_mem _ member)) later
        (fun group member other among => by
          rcases List.mem_append.mp member with old | new
          · exact others group old other (List.mem_cons_of_mem _ among)
          · rw [List.mem_singleton.mp new, here.key groups]
            exact fun same => fresh (same ▸ List.mem_map_of_mem among))
      rw [List.flatMap_cons, List.foldlM_append, placed]
      simpa [bind, Except.bind] using behind

/-- Blocks of different keys are grouped into one group each, in their order. -/
theorem collect_blocks (blocks : List β) (rowsOf : β → List α) (keyed : β → κ) (built : β → γ)
    (known : ∀ block ∈ blocks, Block groups rowsOf keyed built block)
    (apart : (blocks.map keyed).Nodup) :
    groups.collect (blocks.flatMap rowsOf) = .ok (blocks.map built) :=
  foldlM_blocks groups [] blocks rowsOf keyed built known apart fun _ member =>
    absurd member List.not_mem_nil

end Laws

/-! ## Values under keys -/

def gather (held : List (κ × List β)) (row : κ × β) : List (κ × List β) :=
  match held with
  | [] => [(row.1, [row.2])]
  | entry :: rest =>
      if entry.1 = row.1 then (entry.1, entry.2 ++ [row.2]) :: rest
      else entry :: gather rest row

/-- The values under a key, none if the key is not held. -/
def gathered (held : List (κ × List β)) (key : κ) : List β :=
  (held.find? fun entry => entry.1 == key).elim [] (·.2)

theorem gathered_gather (held : List (κ × List β)) (row : κ × β) (key : κ) :
    gathered (gather held row) key =
      gathered held key ++ if row.1 = key then [row.2] else [] := by
  induction held with
  | nil =>
      by_cases here : row.1 = key <;> simp [gathered, gather, here]
  | cons entry rest ih =>
      unfold gathered at ih ⊢
      by_cases same : entry.1 = row.1
      · by_cases here : row.1 = key
        · simp [gather, same, here]
        · simp [gather, same, here]
      · by_cases found : entry.1 = key
        · have apart : row.1 ≠ key := fun here => same (found.trans here.symm)
          simp [gather, found, apart, apart.symm]
        · simpa [gather, same, found] using ih

/-- What is gathered under a key are the values that came with it. -/
theorem gathered_foldl (rows : List (κ × β)) (held : List (κ × List β)) (key : κ) :
    gathered (rows.foldl gather held) key =
      gathered held key ++ (rows.filter fun row => row.1 == key).map (·.2) := by
  induction rows generalizing held with
  | nil => simp
  | cons row rest ih =>
      rw [List.foldl_cons, ih, gathered_gather, List.append_assoc]
      by_cases here : row.1 = key <;> simp [here]

end Grouping
