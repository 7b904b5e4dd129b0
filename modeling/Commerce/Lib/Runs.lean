import Mathlib.Data.List.Basic
import Mathlib.Tactic.Common

/-!
# Runs of a guarded step function

A machine is a partial step function: `none` means the event is not enabled.
A run is a list of events executed in order.  The rules below package the two
inductions every safety argument over runs uses: an invariant kept by each
step, and an invariant kept by each step that meets a side condition.
-/

set_option autoImplicit false

namespace Runs

universe u v w

variable {σ : Type u} {ε : Type v}

/-- Executes the events in order; `none` when one of them is not enabled. -/
def run (step : σ → ε → Option σ) : σ → List ε → Option σ
  | state, [] => some state
  | state, event :: rest =>
      match step state event with
      | none => none
      | some next => run step next rest

@[simp] theorem run_nil (step : σ → ε → Option σ) (state : σ) :
    run step state [] = some state := rfl

theorem run_cons (step : σ → ε → Option σ) (state : σ) (event : ε) (rest : List ε) :
    run step state (event :: rest) = (step state event).bind fun next => run step next rest := by
  cases stepped : step state event <;> simp [run, stepped]

theorem run_cons_eq_some (step : σ → ε → Option σ) (state final : σ) (event : ε)
    (rest : List ε) (success : run step state (event :: rest) = some final) :
    ∃ next, step state event = some next ∧ run step next rest = some final := by
  rw [run_cons] at success
  exact Option.bind_eq_some_iff.mp success

theorem run_append (step : σ → ε → Option σ) (state : σ) (first second : List ε) :
    run step state (first ++ second) =
      (run step state first).bind fun middle => run step middle second := by
  induction first generalizing state with
  | nil => rfl
  | cons event rest ih =>
      simp only [List.cons_append, run_cons]
      cases step state event with
      | none => rfl
      | some next => simpa using ih next

/-! ## Invariants -/

/-- What one step preserves, a whole run preserves. -/
theorem run_preserves (step : σ → ε → Option σ) (Inv : σ → Prop)
    (preserved : ∀ state event next, Inv state → step state event = some next → Inv next)
    (events : List ε) (state final : σ) (initial : Inv state)
    (success : run step state events = some final) : Inv final := by
  induction events generalizing state with
  | nil =>
      cases Option.some.inj success
      exact initial
  | cons event rest ih =>
      obtain ⟨next, stepped, remaining⟩ := run_cons_eq_some step state final event rest success
      exact ih next (preserved state event next initial stepped) remaining

/-- Every step of the run is taken from a state and an event that meet `Meets`. -/
def Along (step : σ → ε → Option σ) (Meets : σ → ε → Prop) : σ → List ε → Prop
  | _, [] => True
  | state, event :: rest =>
      Meets state event ∧ ∀ next, step state event = some next → Along step Meets next rest

instance Along.decidable (step : σ → ε → Option σ) (Meets : σ → ε → Prop)
    [∀ state event, Decidable (Meets state event)] :
    ∀ (state : σ) (events : List ε), Decidable (Along step Meets state events)
  | _, [] => inferInstanceAs (Decidable True)
  | state, event :: rest =>
      match stepped : step state event with
      | none =>
          decidable_of_iff (Meets state event)
            ⟨fun met => ⟨met, fun _ next => nomatch stepped.symm.trans next⟩, fun met => met.1⟩
      | some next =>
          haveI := Along.decidable step Meets next rest
          decidable_of_iff (Meets state event ∧ Along step Meets next rest)
            ⟨fun met => ⟨met.1, fun _ same => Option.some.inj (stepped.symm.trans same) ▸ met.2⟩,
              fun met => ⟨met.1, met.2 next stepped⟩⟩

theorem along_append (step : σ → ε → Option σ) (Meets : σ → ε → Prop) (state middle : σ)
    (first second : List ε) (ran : run step state first = some middle)
    (along : Along step Meets state (first ++ second)) :
    Along step Meets state first ∧ Along step Meets middle second := by
  induction first generalizing state with
  | nil =>
      cases Option.some.inj ran
      exact ⟨trivial, along⟩
  | cons event rest ih =>
      obtain ⟨next, stepped, remaining⟩ := run_cons_eq_some step state middle event rest ran
      obtain ⟨here, later⟩ := along
      obtain ⟨early, late⟩ := ih next remaining (later next stepped)
      refine ⟨⟨here, fun other same => ?_⟩, late⟩
      cases Option.some.inj (stepped.symm.trans same)
      exact early

theorem along_concat (step : σ → ε → Option σ) (Meets : σ → ε → Prop) (state : σ)
    (first second : List ε) (early : Along step Meets state first)
    (late : ∀ middle, run step state first = some middle → Along step Meets middle second) :
    Along step Meets state (first ++ second) := by
  induction first generalizing state with
  | nil => exact late state rfl
  | cons event rest ih =>
      obtain ⟨here, later⟩ := early
      refine ⟨here, fun next stepped => ih next (later next stepped) fun middle ran => ?_⟩
      apply late middle
      rw [run_cons, stepped]
      exact ran

theorem along_and (step : σ → ε → Option σ) (One Two : σ → ε → Prop) (events : List ε)
    (state : σ) (one : Along step One state events) (two : Along step Two state events) :
    Along step (fun state event => One state event ∧ Two state event) state events := by
  induction events generalizing state with
  | nil => trivial
  | cons event rest ih =>
      exact ⟨⟨one.1, two.1⟩, fun next stepped => ih next (one.2 next stepped) (two.2 next stepped)⟩

/-- A condition on events alone holds along a run when it holds of each of its events. -/
theorem along_of_forall (step : σ → ε → Option σ) (Meets : ε → Prop) (events : List ε) (state : σ)
    (each : ∀ event ∈ events, Meets event) :
    Along step (fun _ event => Meets event) state events := by
  induction events generalizing state with
  | nil => trivial
  | cons event rest ih =>
      refine ⟨each event List.mem_cons_self, ?_⟩
      intro next _
      exact ih next fun later member => each later (List.mem_cons_of_mem _ member)

/-- What one step meeting the condition preserves, a run of such steps preserves. -/
theorem run_preserves_along (step : σ → ε → Option σ) (Meets : σ → ε → Prop) (Inv : σ → Prop)
    (preserved : ∀ state event next, Inv state → Meets state event →
      step state event = some next → Inv next)
    (events : List ε) (state final : σ) (initial : Inv state)
    (meets : Along step Meets state events)
    (success : run step state events = some final) : Inv final := by
  induction events generalizing state with
  | nil =>
      cases Option.some.inj success
      exact initial
  | cons event rest ih =>
      obtain ⟨next, stepped, remaining⟩ := run_cons_eq_some step state final event rest success
      obtain ⟨here, later⟩ := meets
      exact ih next (preserved state event next initial here stepped) (later next stepped) remaining

/-- Where a step keeps a property exactly when it meets a condition, a run keeps the property in
every state it reaches exactly when all its steps meet the condition. -/
theorem always_iff_along (step : σ → ε → Option σ) (Meets : σ → ε → Prop) (Safe : σ → Prop)
    (exact_step : ∀ state event next, Safe state → step state event = some next →
      (Safe next ↔ Meets state event))
    (events : List ε) (state final : σ) (initial : Safe state)
    (success : run step state events = some final) :
    (∀ before after reached, events = before ++ after → run step state before = some reached →
      Safe reached) ↔ Along step Meets state events := by
  induction events generalizing state with
  | nil =>
      refine ⟨fun _ => trivial, fun _ before after reached split ran => ?_⟩
      obtain ⟨rfl, -⟩ := List.append_eq_nil_iff.mp split.symm
      cases Option.some.inj ran
      exact initial
  | cons event rest ih =>
      obtain ⟨next, stepped, remaining⟩ := run_cons_eq_some step state final event rest success
      have here := exact_step state event next initial stepped
      constructor
      · intro always
        have safe : Safe next := always [event] rest next rfl (by simp [run_cons, stepped])
        refine ⟨here.mp safe, fun other same => ?_⟩
        cases Option.some.inj (stepped.symm.trans same)
        refine (ih next safe remaining).mp fun before after reached split ran => ?_
        refine always (event :: before) after reached (congrArg (event :: ·) split) ?_
        rw [run_cons, stepped]
        exact ran
      · rintro ⟨met, later⟩ before after reached split ran
        cases before with
        | nil =>
            cases Option.some.inj ran
            exact initial
        | cons first before =>
            obtain ⟨rfl, behind⟩ := List.cons.inj split
            rw [run_cons, stepped] at ran
            exact (ih next (here.mpr met) remaining).mpr (later next stepped) before after reached
              behind ran

/-- A property a run gains is gained by one of its steps. -/
theorem run_first_change (step : σ → ε → Option σ) (Changed : σ → Prop) (events : List ε)
    (state final : σ) (unchanged : ¬ Changed state) (success : run step state events = some final)
    (changed : Changed final) :
    ∃ before event after now next, events = before ++ event :: after ∧
      run step state before = some now ∧ ¬ Changed now ∧ step now event = some next ∧
      Changed next ∧ run step next after = some final := by
  induction events generalizing state with
  | nil =>
      cases Option.some.inj success
      exact absurd changed unchanged
  | cons event rest ih =>
      obtain ⟨next, stepped, remaining⟩ := run_cons_eq_some step state final event rest success
      by_cases already : Changed next
      · exact ⟨[], event, rest, state, next, rfl, rfl, unchanged, stepped, already, remaining⟩
      · obtain ⟨before, found, after, now, later, rfl, upTo, still, moved, gained, rest⟩ :=
          ih next already remaining
        refine ⟨event :: before, found, after, now, later, rfl, ?_, still, moved, gained, rest⟩
        rw [run_cons, stepped]
        exact upTo

/-! ## The values a view takes along a run -/

section Changes

variable {α : Type w} [DecidableEq α]

def changes (step : σ → ε → Option σ) (view : σ → α) : σ → List ε → List α
  | _, [] => []
  | state, event :: rest =>
      match step state event with
      | none => []
      | some next =>
          if view next = view state then changes step view next rest
          else view next :: changes step view next rest

end Changes

/-! ## Laws about a growing history -/

section History

variable {α : Type w}

/-- Each entry of the history was allowed by the entries before it. -/
def EachAllowed (Allowed : List α → α → Prop) (history : List α) : Prop :=
  ∀ before entry after, history = before ++ entry :: after → Allowed before entry

theorem eachAllowed_nil (Allowed : List α → α → Prop) : EachAllowed Allowed [] := by
  intro before entry after split
  simp at split

theorem eachAllowed_snoc (Allowed : List α → α → Prop) (history : List α) (entry : α)
    (past : EachAllowed Allowed history) (now : Allowed history entry) :
    EachAllowed Allowed (history ++ [entry]) := by
  intro before found after split
  rcases List.eq_nil_or_concat after with rfl | ⟨body, last, rfl⟩
  · obtain ⟨rfl, tail⟩ := List.append_inj' split rfl
    cases tail
    exact now
  · rw [List.concat_eq_append, ← List.cons_append, ← List.append_assoc] at split
    obtain ⟨same, -⟩ := List.append_inj' split rfl
    exact past before found body same

def AllowedFrom (Allowed : List α → α → Prop) : List α → List α → Prop
  | _, [] => True
  | history, entry :: rest => Allowed history entry ∧ AllowedFrom Allowed (history ++ [entry]) rest

theorem eachAllowed_append (Allowed : List α → α → Prop) (history entries : List α)
    (past : EachAllowed Allowed history) (now : AllowedFrom Allowed history entries) :
    EachAllowed Allowed (history ++ entries) := by
  induction entries generalizing history with
  | nil => simpa using past
  | cons entry rest ih =>
      rw [List.append_cons]
      exact ih (history ++ [entry]) (eachAllowed_snoc Allowed history entry past now.1) now.2

theorem count_le_one_of_eachAllowed [DecidableEq α] (Allowed : List α → α → Prop)
    (history : List α) (entry : α) (each : EachAllowed Allowed history)
    (fresh : ∀ before, Allowed before entry → entry ∉ before) :
    history.count entry ≤ 1 := by
  by_contra twice
  obtain ⟨before, after, split, -⟩ :=
    List.eq_append_cons_of_mem (List.count_pos_iff.mp (by omega : 0 < history.count entry))
  by_cases again : entry ∈ after
  · obtain ⟨middle, last, rfl⟩ := List.append_of_mem again
    have allowed := each (before ++ entry :: middle) entry last (by simp [split])
    exact fresh _ allowed (by simp)
  · have absent : entry ∉ before := fresh before (each before entry after split)
    rw [split, List.count_append, List.count_cons_self, List.count_eq_zero_of_not_mem absent,
      List.count_eq_zero_of_not_mem again] at twice
    exact twice (Nat.le_refl 1)

end History

end Runs
