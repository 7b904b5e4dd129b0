import Mathlib.Data.List.Pairwise
import Mathlib.Tactic.Common

/-!
# Indices behind aliases

A search engine keeps named indices, and aliases on them.  An entry of an alias
on an index says whether the index is the alias's write index.  One alias update
is a list of actions applied together or not at all, and no update leaves an
alias with two write indices.
-/

set_option autoImplicit false

namespace Aliases

universe u v w

variable {ι : Type u} {α : Type v} {δ : Type w}

structure Index (ι : Type u) (α : Type v) (δ : Type w) where
  name : ι
  /-- The aliases on the index, each with whether this is its write index. -/
  aliases : List (α × Bool)
  documents : List δ
deriving DecidableEq, Repr

inductive Refusal where
  | resourceAlreadyExists
  | indexNotFound
  | aliasesNotFound
  | secondWriteIndex
deriving DecidableEq, Repr

inductive Action (ι : Type u) (α : Type v) where
  | remove (name : ι) (aliasName : α) (mustExist : Bool)
  | add (name : ι) (aliasName : α) (isWriteIndex : Bool)
deriving DecidableEq, Repr

def Apart (first second : Index ι α δ) : Prop :=
  ∀ entry ∈ first.aliases, entry.2 = true → entry ∉ second.aliases

def Unambiguous (indices : List (Index ι α δ)) : Prop := indices.Pairwise Apart

theorem apart_symm (first second : Index ι α δ) (apart : Apart first second) :
    Apart second first := by
  intro entry member writes other
  exact apart entry other writes member

instance : Std.Symm (@Apart ι α δ) := ⟨apart_symm⟩

variable [DecidableEq ι] [DecidableEq α]

instance (first second : Index ι α δ) : Decidable (Apart first second) :=
  inferInstanceAs (Decidable (∀ entry ∈ first.aliases, entry.2 = true → entry ∉ second.aliases))

instance (indices : List (Index ι α δ)) : Decidable (Unambiguous indices) :=
  inferInstanceAs (Decidable (indices.Pairwise Apart))

/-! ## Operations -/

def Index.carries (index : Index ι α δ) (aliasName : α) : Bool :=
  index.aliases.any fun entry => entry.1 = aliasName

def hasIndex (name : ι) (indices : List (Index ι α δ)) : Bool :=
  indices.any fun index => index.name = name

def existsAlias (aliasName : α) (indices : List (Index ι α δ)) : Bool :=
  indices.any fun index => index.carries aliasName

def getAlias (indices : List (Index ι α δ)) : List (ι × List α) :=
  indices.map fun index => (index.name, index.aliases.map Prod.fst)

def accept (indices : List (Index ι α δ)) : Except Refusal (List (Index ι α δ)) :=
  if Unambiguous indices then .ok indices else .error .secondWriteIndex

def create (name : ι) (aliases : List (α × Bool)) (indices : List (Index ι α δ)) :
    Except Refusal (List (Index ι α δ)) :=
  if hasIndex name indices then .error .resourceAlreadyExists
  else accept (⟨name, aliases, []⟩ :: indices)

def Action.on : Action ι α → Index ι α δ → Index ι α δ
  | .remove name aliasName _, index =>
      if index.name = name then
        { index with aliases := index.aliases.filter fun entry => entry.1 ≠ aliasName }
      else index
  | .add name aliasName isWriteIndex, index =>
      if index.name = name then
        { index with
          aliases := (aliasName, isWriteIndex) :: index.aliases.filter fun entry =>
            entry.1 ≠ aliasName }
      else index

def Action.apply (action : Action ι α) (indices : List (Index ι α δ)) :
    Except Refusal (List (Index ι α δ)) :=
  match action with
  | .remove name aliasName mustExist =>
      match indices.find? fun index => index.name = name with
      | none => .error .indexNotFound
      | some index =>
          if mustExist && !index.carries aliasName then .error .aliasesNotFound
          else .ok (indices.map (Action.remove name aliasName mustExist).on)
  | .add name aliasName isWriteIndex =>
      if hasIndex name indices then .ok (indices.map (Action.add name aliasName isWriteIndex).on)
      else .error .indexNotFound

def applyAll : List (Action ι α) → List (Index ι α δ) → Except Refusal (List (Index ι α δ))
  | [], indices => .ok indices
  | action :: rest, indices =>
      match action.apply indices with
      | .error refusal => .error refusal
      | .ok next => applyAll rest next

def updateAliases (actions : List (Action ι α)) (indices : List (Index ι α δ)) :
    Except Refusal (List (Index ι α δ)) :=
  match applyAll actions indices with
  | .error refusal => .error refusal
  | .ok next => accept next

/-- A request that names an index that does not exist deletes none. -/
def delete (names : List ι) (indices : List (Index ι α δ)) :
    Except Refusal (List (Index ι α δ)) :=
  if names.all fun name => hasIndex name indices then
    .ok (indices.filter fun index => index.name ∉ names)
  else .error .indexNotFound

def Index.write (aliasName : α) (documents : List δ) (index : Index ι α δ) : Index ι α δ :=
  if (aliasName, true) ∈ index.aliases then { index with documents := documents ++ index.documents }
  else index

/-- Documents written through an alias land on its write index; a missing alias is refused. -/
def bulk (aliasName : α) (documents : List δ) (indices : List (Index ι α δ)) :
    Except Refusal (List (Index ι α δ)) :=
  if existsAlias aliasName indices then .ok (indices.map (Index.write aliasName documents))
  else .error .indexNotFound

/-! ## What an operation leaves -/

omit [DecidableEq ι] in
theorem carries_iff (index : Index ι α δ) (aliasName : α) :
    index.carries aliasName = true ↔ ∃ isWriteIndex, (aliasName, isWriteIndex) ∈ index.aliases := by
  constructor
  · intro carried
    obtain ⟨⟨found, isWriteIndex⟩, member, same⟩ := List.any_eq_true.mp carried
    have equal : found = aliasName := of_decide_eq_true same
    exact ⟨isWriteIndex, equal ▸ member⟩
  · rintro ⟨isWriteIndex, member⟩
    exact List.any_eq_true.mpr ⟨(aliasName, isWriteIndex), member, decide_eq_true rfl⟩

omit [DecidableEq α] in
theorem hasIndex_iff (name : ι) (indices : List (Index ι α δ)) :
    hasIndex name indices = true ↔ name ∈ indices.map Index.name := by
  constructor
  · intro found
    obtain ⟨index, member, same⟩ := List.any_eq_true.mp found
    exact List.mem_map.mpr ⟨index, member, of_decide_eq_true same⟩
  · intro listed
    obtain ⟨index, member, same⟩ := List.mem_map.mp listed
    exact List.any_eq_true.mpr ⟨index, member, decide_eq_true same⟩

omit [DecidableEq ι] in
theorem existsAlias_iff (aliasName : α) (indices : List (Index ι α δ)) :
    existsAlias aliasName indices = true ↔ ∃ index ∈ indices, index.carries aliasName = true :=
  List.any_eq_true

omit [DecidableEq ι] in
theorem accept_ok (indices next : List (Index ι α δ)) (accepted : accept indices = .ok next) :
    next = indices ∧ Unambiguous next := by
  simp only [accept] at accepted
  split at accepted
  · rename_i clear
    cases accepted
    exact ⟨rfl, clear⟩
  · cases accepted

theorem create_ok (name : ι) (aliases : List (α × Bool)) (indices next : List (Index ι α δ))
    (created : create name aliases indices = .ok next) :
    next = ⟨name, aliases, []⟩ :: indices ∧ name ∉ indices.map Index.name ∧ Unambiguous next := by
  simp only [create] at created
  split at created
  · cases created
  · rename_i absent
    obtain ⟨rfl, clear⟩ := accept_ok _ next created
    exact ⟨rfl, fun listed => absent ((hasIndex_iff name indices).mpr listed), clear⟩

@[simp] theorem on_name (action : Action ι α) (index : Index ι α δ) :
    (action.on index).name = index.name := by
  cases action <;> simp only [Action.on] <;> split <;> rfl

@[simp] theorem on_documents (action : Action ι α) (index : Index ι α δ) :
    (action.on index).documents = index.documents := by
  cases action <;> simp only [Action.on] <;> split <;> rfl

theorem mem_on (action : Action ι α) (index : Index ι α δ) (entry : α × Bool)
    (member : entry ∈ (action.on index).aliases) :
    entry ∈ index.aliases ∨ action = .add index.name entry.1 entry.2 := by
  cases action with
  | remove name aliasName mustExist =>
      simp only [Action.on] at member
      split at member
      · exact .inl ((List.mem_filter.mp member).1)
      · exact .inl member
  | add name aliasName isWriteIndex =>
      simp only [Action.on] at member
      split at member
      · rename_i here
        rcases List.mem_cons.mp member with rfl | kept
        · exact .inr (by rw [here])
        · exact .inl ((List.mem_filter.mp kept).1)
      · exact .inl member

theorem mem_on_of_mem (action : Action ι α) (index : Index ι α δ) (entry : α × Bool)
    (member : entry ∈ index.aliases)
    (other : ∀ name flag, action ≠ .remove name entry.1 flag ∧ action ≠ .add name entry.1 flag) :
    entry ∈ (action.on index).aliases := by
  cases action with
  | remove name aliasName mustExist =>
      have apart : entry.1 ≠ aliasName := fun same => (other name mustExist).1 (by rw [same])
      simp only [Action.on]
      split
      · exact List.mem_filter.mpr ⟨member, decide_eq_true apart⟩
      · exact member
  | add name aliasName isWriteIndex =>
      have apart : entry.1 ≠ aliasName := fun same => (other name isWriteIndex).2 (by rw [same])
      simp only [Action.on]
      split
      · exact List.mem_cons_of_mem _ (List.mem_filter.mpr ⟨member, decide_eq_true apart⟩)
      · exact member

theorem mem_on_add (name : ι) (aliasName : α) (isWriteIndex : Bool) (index : Index ι α δ)
    (here : index.name = name) :
    (aliasName, isWriteIndex) ∈ ((Action.add name aliasName isWriteIndex).on index).aliases := by
  simp only [Action.on, here, if_true]
  exact List.mem_cons_self

theorem mem_on_add_of_mem (name : ι) (aliasName : α) (isWriteIndex : Bool) (index : Index ι α δ)
    (member : (aliasName, isWriteIndex) ∈ index.aliases) :
    (aliasName, isWriteIndex) ∈ ((Action.add name aliasName isWriteIndex).on index).aliases := by
  by_cases here : index.name = name
  · exact mem_on_add name aliasName isWriteIndex index here
  · simp only [Action.on, here, if_false]
    exact member

theorem remove_carries (name : ι) (aliasName : α) (mustExist : Bool) (index : Index ι α δ)
    (here : index.name = name) :
    ((Action.remove name aliasName mustExist).on index).carries aliasName = false := by
  refine Bool.eq_false_iff.mpr fun carried => ?_
  obtain ⟨isWriteIndex, member⟩ := (carries_iff _ aliasName).mp carried
  simp only [Action.on, here, if_true] at member
  exact of_decide_eq_true (List.mem_filter.mp member).2 rfl

theorem apply_ok (action : Action ι α) (indices next : List (Index ι α δ))
    (applied : action.apply indices = .ok next) : next = indices.map action.on := by
  cases action with
  | remove name aliasName mustExist =>
      simp only [Action.apply] at applied
      split at applied
      · cases applied
      · split at applied
        · cases applied
        · cases applied
          rfl
  | add name aliasName isWriteIndex =>
      simp only [Action.apply] at applied
      split at applied
      · cases applied
        rfl
      · cases applied

theorem remove_ok (name : ι) (aliasName : α) (indices next : List (Index ι α δ))
    (applied : (Action.remove name aliasName true).apply indices = .ok next) :
    ∃ index ∈ indices, index.name = name ∧ index.carries aliasName = true := by
  simp only [Action.apply] at applied
  split at applied
  · cases applied
  · rename_i index found
    split at applied
    · cases applied
    · rename_i carried
      have here : index.name = name := by simpa using List.find?_some found
      exact ⟨index, List.mem_of_find?_eq_some found, here, by simpa using carried⟩

theorem applyAll_append (first second : List (Action ι α)) (indices next : List (Index ι α δ))
    (applied : applyAll (first ++ second) indices = .ok next) :
    ∃ middle, applyAll first indices = .ok middle ∧ applyAll second middle = .ok next := by
  induction first generalizing indices with
  | nil => exact ⟨indices, rfl, applied⟩
  | cons action rest ih =>
      simp only [List.cons_append, applyAll] at applied ⊢
      split at applied
      · cases applied
      · rename_i moved here
        obtain ⟨middle, reached, remaining⟩ := ih moved applied
        exact ⟨middle, reached, remaining⟩

def onAll (actions : List (Action ι α)) (index : Index ι α δ) : Index ι α δ :=
  actions.foldl (fun index action => action.on index) index

theorem applyAll_ok (actions : List (Action ι α)) (indices next : List (Index ι α δ))
    (applied : applyAll actions indices = .ok next) : next = indices.map (onAll actions) := by
  induction actions generalizing indices with
  | nil =>
      cases applied
      exact (List.map_id _).symm
  | cons action rest ih =>
      simp only [applyAll] at applied
      split at applied
      · cases applied
      · rename_i moved here
        rw [ih moved applied, apply_ok action indices moved here, List.map_map]
        rfl

theorem updateAliases_ok (actions : List (Action ι α)) (indices next : List (Index ι α δ))
    (updated : updateAliases actions indices = .ok next) :
    applyAll actions indices = .ok next ∧ next = indices.map (onAll actions) ∧
      Unambiguous next := by
  simp only [updateAliases] at updated
  split at updated
  · cases updated
  · rename_i moved applied
    obtain ⟨rfl, clear⟩ := accept_ok moved next updated
    exact ⟨applied, applyAll_ok actions indices next applied, clear⟩

theorem onAll_append (first second : List (Action ι α)) (index : Index ι α δ) :
    onAll (first ++ second) index = onAll second (onAll first index) := by
  simp only [onAll, List.foldl_append]

@[simp] theorem onAll_name (actions : List (Action ι α)) (index : Index ι α δ) :
    (onAll actions index).name = index.name := by
  induction actions generalizing index with
  | nil => rfl
  | cons action rest ih => exact (ih (action.on index)).trans (on_name action index)

@[simp] theorem onAll_documents (actions : List (Action ι α)) (index : Index ι α δ) :
    (onAll actions index).documents = index.documents := by
  induction actions generalizing index with
  | nil => rfl
  | cons action rest ih => exact (ih (action.on index)).trans (on_documents action index)

theorem mem_onAll (actions : List (Action ι α)) (index : Index ι α δ) (entry : α × Bool)
    (member : entry ∈ (onAll actions index).aliases) :
    entry ∈ index.aliases ∨ .add index.name entry.1 entry.2 ∈ actions := by
  induction actions generalizing index with
  | nil => exact .inl member
  | cons action rest ih =>
      rcases ih (action.on index) member with before | added
      · rcases mem_on action index entry before with old | rfl
        · exact .inl old
        · exact .inr List.mem_cons_self
      · rw [on_name] at added
        exact .inr (List.mem_cons_of_mem _ added)

omit [DecidableEq α] in
theorem delete_ok (names : List ι) (indices next : List (Index ι α δ))
    (deleted : delete names indices = .ok next) :
    next = indices.filter fun index => index.name ∉ names := by
  simp only [delete] at deleted
  split at deleted
  · cases deleted
    rfl
  · cases deleted

omit [DecidableEq ι] in
@[simp] theorem write_name (aliasName : α) (documents : List δ) (index : Index ι α δ) :
    (index.write aliasName documents).name = index.name := by
  simp only [Index.write]
  split <;> rfl

omit [DecidableEq ι] in
@[simp] theorem write_aliases (aliasName : α) (documents : List δ) (index : Index ι α δ) :
    (index.write aliasName documents).aliases = index.aliases := by
  simp only [Index.write]
  split <;> rfl

omit [DecidableEq ι] in
theorem mem_write_of_mem (aliasName : α) (documents : List δ) (index : Index ι α δ) (document : δ)
    (member : document ∈ index.documents) :
    document ∈ (index.write aliasName documents).documents := by
  simp only [Index.write]
  split
  · exact List.mem_append_right documents member
  · exact member

omit [DecidableEq ι] in
theorem mem_write (aliasName : α) (documents : List δ) (index : Index ι α δ) (document : δ)
    (written : document ∈ documents) (entry : (aliasName, true) ∈ index.aliases) :
    document ∈ (index.write aliasName documents).documents := by
  simp only [Index.write, entry, if_true]
  exact List.mem_append_left _ written

omit [DecidableEq ι] in
theorem bulk_ok (aliasName : α) (documents : List δ) (indices next : List (Index ι α δ))
    (written : bulk aliasName documents indices = .ok next) :
    next = indices.map (Index.write aliasName documents) := by
  simp only [bulk] at written
  split at written
  · cases written
    rfl
  · cases written

omit [DecidableEq ι] in
/-- Where every index with an alias is its write index, only one has it. -/
theorem carrier_unique (indices : List (Index ι α δ)) (clear : Unambiguous indices)
    (writes : ∀ index ∈ indices, ∀ entry ∈ index.aliases, entry.2 = true)
    (aliasName : α) (first second : Index ι α δ) (memFirst : first ∈ indices)
    (memSecond : second ∈ indices) (carriesFirst : first.carries aliasName = true)
    (carriesSecond : second.carries aliasName = true) : first = second := by
  by_contra different
  have apart : Apart first second :=
    clear.forall memFirst memSecond different
  obtain ⟨isWrite, entry⟩ := (carries_iff first aliasName).mp carriesFirst
  obtain ⟨alsoWrite, other⟩ := (carries_iff second aliasName).mp carriesSecond
  have here : isWrite = true := writes first memFirst _ entry
  have there : alsoWrite = true := writes second memSecond _ other
  rw [here] at entry
  rw [there] at other
  exact apart (aliasName, true) entry rfl other

end Aliases
