import Mathlib.Logic.Function.Basic
import Mathlib.Tactic.Common

/-!
# A revisioned key-value store

Every write of the store is a transaction: it compares revisions, and when all
comparisons hold it writes its keys under one new revision.  A key remembers the
revision that created it and the one that last wrote it, and may be attached to
a lease, whose end deletes it.  What a client learns from a read is that the
entry it saw is still there as long as its modification revision is.
-/

set_option autoImplicit false

namespace Revisions

universe u v

structure Cell (α : Type v) where
  value : α
  createRevision : Nat
  modRevision : Nat
  lease : Option Nat

/-- `granted` counts the leases handed out, so it is also the next lease's id. -/
structure Store (κ : Type u) (ν : κ → Type v) where
  revision : Nat
  cells : (key : κ) → Option (Cell (ν key))
  granted : Nat
  live : Nat → Bool

inductive Compare (κ : Type u) where
  | created (key : κ) (revision : Nat)
  | modified (key : κ) (revision : Nat)

inductive Op (κ : Type u) (ν : κ → Type v) where
  | put (key : κ) (value : ν key) (lease : Option Nat)
  | delete (key : κ)

def Op.key {κ : Type u} {ν : κ → Type v} : Op κ ν → κ
  | .put key _ _ => key
  | .delete key => key

inductive Answer where
  | done (succeeded : Bool) (revision : Nat)
  | leaseNotFound
  deriving DecidableEq

section Store

variable {κ : Type u} {ν : κ → Type v}

def createdAt {α : Type v} (cell : Option (Cell α)) : Nat :=
  (cell.map (·.createRevision)).getD 0

def modifiedAt {α : Type v} (cell : Option (Cell α)) : Nat :=
  (cell.map (·.modRevision)).getD 0

/-- A key that does not exist compares as revision zero. -/
def Compare.holds (store : Store κ ν) : Compare κ → Bool
  | .created key revision => createdAt (store.cells key) == revision
  | .modified key revision => modifiedAt (store.cells key) == revision

def Op.leaseLive (store : Store κ ν) : Op κ ν → Bool
  | .put _ _ (some lease) => store.live lease
  | .put _ _ none => true
  | .delete _ => true

/-- A put keeps the revision that created the key. -/
def Op.write [DecidableEq κ] (revision : Nat) (cells : (key : κ) → Option (Cell (ν key))) :
    Op κ ν → (key : κ) → Option (Cell (ν key))
  | .put key value lease =>
      Function.update cells key (some
        { value
          createRevision := ((cells key).map (·.createRevision)).getD revision
          modRevision := revision
          lease })
  | .delete key => Function.update cells key none

/-- One transaction: compare, then write every key under the next revision. -/
def Store.commit [DecidableEq κ] (store : Store κ ν) (compares : List (Compare κ))
    (success : List (Op κ ν)) : Store κ ν × Answer :=
  if compares.all (·.holds store) then
    if success.all (·.leaseLive store) then
      let revision := store.revision + 1
      ({ store with
          revision
          cells := success.foldl (fun cells op => op.write revision cells) store.cells },
        .done true revision)
    else (store, .leaseNotFound)
  else (store, .done false store.revision)

def Store.grant (store : Store κ ν) : Store κ ν × Nat :=
  ({ store with
      granted := store.granted + 1
      live := Function.update store.live store.granted true },
    store.granted)

def Store.expire (store : Store κ ν) (lease : Nat) : Store κ ν :=
  { store with
    revision := store.revision + 1
    cells := fun key => (store.cells key).filter fun cell => cell.lease != some lease
    live := Function.update store.live lease false }

def Store.elsewhere (store : Store κ ν) : Store κ ν :=
  { store with revision := store.revision + 1 }

/-! ## Revisions only grow -/

def Sound (store : Store κ ν) : Prop :=
  ∀ key cell, store.cells key = some cell →
    0 < cell.createRevision ∧ cell.createRevision ≤ cell.modRevision ∧
      cell.modRevision ≤ store.revision

/-- A step of the store: what it leaves behind was there before, or was written under a
revision of its own. -/
structure Advances (before after : Store κ ν) : Prop where
  grows : before.revision ≤ after.revision
  granted : before.granted ≤ after.granted
  written : ∀ key cell, after.cells key = some cell →
    before.cells key = some cell ∨ before.revision < cell.modRevision

theorem write_cases [DecidableEq κ] (revision : Nat) (cells : (key : κ) → Option (Cell (ν key)))
    (ops : List (Op κ ν)) (key : κ) (cell : Cell (ν key))
    (stored : ops.foldl (fun cells op => op.write revision cells) cells key = some cell) :
    cells key = some cell ∨ cell.modRevision = revision ∧
      (cell.createRevision = revision ∨
        ∃ old, cells key = some old ∧ old.createRevision = cell.createRevision) := by
  induction ops generalizing cells with
  | nil => exact .inl stored
  | cons op rest ih =>
      have later := ih (op.write revision cells) stored
      cases op with
      | delete target =>
          by_cases same : key = target
          · subst same
            rcases later with gone | ⟨mod, now | ⟨old, gone, -⟩⟩
            · simp [Op.write] at gone
            · exact .inr ⟨mod, .inl now⟩
            · simp [Op.write] at gone
          · simpa [Op.write, Function.update_of_ne same] using later
      | put target value lease =>
          by_cases same : key = target
          · subst same
            have kept : ∀ made : Nat, (((cells key).map (·.createRevision)).getD revision = made) →
                made = revision ∨ ∃ old, cells key = some old ∧ old.createRevision = made := by
              intro made first
              cases old : cells key with
              | none => exact .inl (by simpa [old] using first.symm)
              | some cell => exact .inr ⟨cell, rfl, by simpa [old] using first⟩
            simp only [Op.write, Function.update_self, Option.some.injEq] at later
            rcases later with rfl | ⟨mod, created⟩
            · exact .inr ⟨rfl, kept _ rfl⟩
            · refine .inr ⟨mod, ?_⟩
              rcases created with now | ⟨old, rfl, before⟩
              · exact .inl now
              · exact kept _ before
          · simpa [Op.write, Function.update_of_ne same] using later

theorem write_other [DecidableEq κ] (revision : Nat) (cells : (key : κ) → Option (Cell (ν key)))
    (ops : List (Op κ ν)) (key : κ) (unnamed : ∀ op ∈ ops, op.key ≠ key) :
    ops.foldl (fun cells op => op.write revision cells) cells key = cells key := by
  induction ops generalizing cells with
  | nil => rfl
  | cons op rest ih =>
      have different := unnamed op (List.mem_cons_self ..)
      rw [List.foldl_cons, ih _ fun op member => unnamed op (List.mem_cons_of_mem _ member)]
      cases op <;> exact Function.update_of_ne (Ne.symm different) _ _

/-- A transaction that went through met its comparisons and wrote its keys. -/
theorem commit_done [DecidableEq κ] (store next : Store κ ν) (compares : List (Compare κ))
    (success : List (Op κ ν)) (revision : Nat)
    (committed : store.commit compares success = (next, .done true revision)) :
    (∀ compare ∈ compares, compare.holds store) ∧ revision = store.revision + 1 ∧
      next = { store with
        revision := store.revision + 1
        cells := success.foldl (fun cells op => op.write (store.revision + 1) cells)
          store.cells } := by
  by_cases met : compares.all (·.holds store)
  · by_cases leased : success.all (·.leaseLive store)
    · rw [Store.commit, if_pos met, if_pos leased] at committed
      obtain ⟨rfl, answer⟩ := Prod.mk.inj committed
      cases answer
      exact ⟨by simpa using met, rfl, rfl⟩
    · rw [Store.commit, if_pos met, if_neg leased] at committed
      cases (Prod.mk.inj committed).2
  · rw [Store.commit, if_neg met] at committed
    cases (Prod.mk.inj committed).2

/-- Any other answer leaves the store as it was. -/
theorem commit_refused [DecidableEq κ] (store next : Store κ ν) (compares : List (Compare κ))
    (success : List (Op κ ν)) (answer : Answer)
    (committed : store.commit compares success = (next, answer))
    (refused : ∀ revision, answer ≠ .done true revision) : next = store := by
  unfold Store.commit at committed
  split at committed
  · split at committed
    · exact absurd (Prod.mk.inj committed).2.symm (refused _)
    · exact (Prod.mk.inj committed).1.symm
  · exact (Prod.mk.inj committed).1.symm

theorem advances_refl (store : Store κ ν) : Advances store store :=
  ⟨Nat.le_refl _, Nat.le_refl _, fun _ _ stored => .inl stored⟩

theorem advances_commit [DecidableEq κ] (store : Store κ ν) (compares : List (Compare κ))
    (success : List (Op κ ν)) : Advances store (store.commit compares success).1 := by
  unfold Store.commit
  split
  · split
    · refine ⟨Nat.le_succ _, Nat.le_refl _, fun key cell stored => ?_⟩
      rcases write_cases _ _ _ key cell stored with kept | ⟨mod, -⟩
      · exact .inl kept
      · exact .inr (by omega)
    · exact advances_refl store
  · exact advances_refl store

theorem advances_grant (store : Store κ ν) : Advances store store.grant.1 :=
  ⟨Nat.le_refl _, Nat.le_succ _, fun _ _ stored => .inl stored⟩

theorem advances_expire (store : Store κ ν) (lease : Nat) :
    Advances store (store.expire lease) :=
  ⟨Nat.le_succ _, Nat.le_refl _, fun _ _ stored => .inl (Option.filter_eq_some_iff.mp stored).1⟩

theorem advances_elsewhere (store : Store κ ν) : Advances store store.elsewhere :=
  ⟨Nat.le_succ _, Nat.le_refl _, fun _ _ stored => .inl stored⟩

theorem sound_commit [DecidableEq κ] (store : Store κ ν) (compares : List (Compare κ))
    (success : List (Op κ ν))
    (sound : Sound store) : Sound (store.commit compares success).1 := by
  unfold Store.commit
  split
  · split
    · intro key cell stored
      dsimp only at stored ⊢
      rcases write_cases _ _ _ key cell stored with kept | ⟨mod, now | ⟨old, before, same⟩⟩
      · have := sound key cell kept
        omega
      · omega
      · have := sound key old before
        omega
    · exact sound
  · exact sound

theorem sound_expire (store : Store κ ν) (lease : Nat) (sound : Sound store) :
    Sound (store.expire lease) := by
  intro key cell stored
  have := sound key cell (Option.filter_eq_some_iff.mp stored).1
  exact ⟨this.1, this.2.1, Nat.le_succ_of_le this.2.2⟩

theorem sound_elsewhere (store : Store κ ν) (sound : Sound store) : Sound store.elsewhere := by
  intro key cell stored
  have := sound key cell stored
  exact ⟨this.1, this.2.1, Nat.le_succ_of_le this.2.2⟩

/-! ## What a read is worth later -/

def Seen (store : Store κ ν) (key : κ) (entry : Option (Cell (ν key))) : Prop :=
  ∀ cell, entry = some cell → 0 < cell.modRevision ∧ cell.modRevision ≤ store.revision ∧
    ∀ stored, store.cells key = some stored → stored.modRevision = cell.modRevision →
      stored = cell

theorem seen_read (store : Store κ ν) (sound : Sound store) (key : κ) :
    Seen store key (store.cells key) := by
  intro cell stored
  have range := sound key cell stored
  refine ⟨by omega, range.2.2, fun other same _ => ?_⟩
  exact Option.some.inj (same.symm.trans stored)

theorem seen_advances (before after : Store κ ν) (key : κ) (entry : Option (Cell (ν key)))
    (step : Advances before after) (seen : Seen before key entry) : Seen after key entry := by
  intro cell read
  obtain ⟨positive, bounded, same⟩ := seen cell read
  refine ⟨positive, Nat.le_trans bounded step.grows, fun stored present matched => ?_⟩
  rcases step.written key stored present with kept | fresh
  · exact same stored kept matched
  · omega

/-- A comparison with the modification revision read finds the entry read. -/
theorem seen_compared (store : Store κ ν) (key : κ) (entry : Option (Cell (ν key)))
    (sound : Sound store) (seen : Seen store key entry)
    (compared : (Compare.modified key (modifiedAt entry)).holds store) :
    store.cells key = entry := by
  have matched : modifiedAt (store.cells key) = modifiedAt entry := by
    simpa [Compare.holds] using compared
  cases read : entry with
  | none =>
      cases stored : store.cells key with
      | none => rfl
      | some cell =>
          have range := sound key cell stored
          simp only [stored, read, modifiedAt, Option.map_some, Option.getD_some,
            Option.map_none, Option.getD_none] at matched
          omega
  | some cell =>
      obtain ⟨positive, -, same⟩ := seen cell read
      cases stored : store.cells key with
      | none =>
          simp only [stored, read, modifiedAt, Option.map_some, Option.getD_some,
            Option.map_none, Option.getD_none] at matched
          omega
      | some found =>
          simp only [stored, read, modifiedAt, Option.map_some, Option.getD_some] at matched
          rw [same found stored matched]

theorem created_compared (store : Store κ ν) (key : κ) (revision : Nat) (positive : 0 < revision)
    (compared : (Compare.created key revision).holds store) :
    ∃ cell, store.cells key = some cell ∧ cell.createRevision = revision := by
  have matched : createdAt (store.cells key) = revision := by
    simpa [Compare.holds] using compared
  cases stored : store.cells key with
  | none =>
      simp only [stored, createdAt, Option.map_none, Option.getD_none] at matched
      omega
  | some cell => exact ⟨cell, rfl, by simpa [stored, createdAt] using matched⟩

theorem absent_compared (store : Store κ ν) (key : κ) (sound : Sound store)
    (compared : (Compare.created key 0).holds store) : store.cells key = none := by
  have matched : createdAt (store.cells key) = 0 := by
    simpa [Compare.holds] using compared
  cases stored : store.cells key with
  | none => rfl
  | some cell =>
      have range := sound key cell stored
      simp only [stored, createdAt, Option.map_some, Option.getD_some] at matched
      omega

end Store

end Revisions
