import Mathlib.Logic.Function.Basic
import Mathlib.Tactic.Common

/-!
# Queues of keyed jobs

A queue keeps one job per id.  Adding under an id in use is ignored, a locked
job is not removed, and a worker moves the job it holds the lock of.  Whether
a failure is the last one is the queue's own verdict, on the attempts made.
-/

set_option autoImplicit false

namespace JobQueues

universe u

variable {κ δ : Type u} [DecidableEq κ]

/-- A retried job waits too, whether or not a delay is put before it.  An active job is locked
by a token until the lock expires. -/
inductive JobState where
  | waiting
  | active (lock : Option Nat)
  | completed (finishedOn : Nat)
  | failed (finishedOn : Nat)
  deriving DecidableEq, Repr

structure Job (δ : Type u) where
  data : δ
  attempts : Nat
  attemptsMade : Nat
  state : JobState
  deriving DecidableEq, Repr

abbrev Queue (κ δ : Type u) : Type u := κ → Option (Job δ)

/-! ## One job -/

def Job.fresh (data : δ) (attempts : Nat) : Job δ := ⟨data, attempts, 0, .waiting⟩

def Job.locked (job : Job δ) : Bool :=
  match job.state with
  | .active (some _) => true
  | _ => false

def Job.isCompleted (job : Job δ) : Bool :=
  match job.state with
  | .completed _ => true
  | _ => false

/-- Set on the branch that schedules no further attempt. -/
def Job.finishedOn (job : Job δ) : Option Nat :=
  match job.state with
  | .completed finishedOn | .failed finishedOn => some finishedOn
  | _ => none

def Job.take (token : Nat) (job : Job δ) : Option (Job δ) :=
  if job.state = .waiting then some { job with state := .active (some token) } else none

/-- `moveToCompleted`, by the token that holds the lock. -/
def Job.complete (token now : Nat) (job : Job δ) : Option (Job δ) :=
  if job.state = .active (some token) then some { job with state := .completed now } else none

/-- `moveToFailed`: another attempt while the budget lasts and the failure may be retried. -/
def Job.fail (token now : Nat) (unrecoverable : Bool) (job : Job δ) : Option (Job δ) :=
  if job.state = .active (some token) then
    let made := job.attemptsMade + 1
    let state := if unrecoverable || decide (job.attempts ≤ made) then .failed now else .waiting
    some { job with attemptsMade := made, state := state }
  else none

def Job.expire (job : Job δ) : Option (Job δ) :=
  if job.locked then some { job with state := .active none } else none

/-- An active job without a lock is stalled: it waits again, or is given up. -/
def Job.stall (now : Nat) (giveUp : Bool) (job : Job δ) : Option (Job δ) :=
  if job.state = .active none then
    some { job with state := if giveUp then .failed now else .waiting }
  else none

def Job.retry (job : Job δ) : Option (Job δ) :=
  match job.state with
  | .failed _ => some { job with state := .waiting }
  | _ => none

/-- What moves a job keeps its data, and takes no completed job. -/
structure Moved (job next : Job δ) : Prop where
  data : next.data = job.data
  pending : job.isCompleted = false

theorem take_moved {token : Nat} {job next : Job δ} (took : job.take token = some next) :
    Moved job next ∧ next.isCompleted = false := by
  simp only [Job.take] at took
  split at took
  · rename_i waiting
    cases took
    exact ⟨⟨rfl, by simp [Job.isCompleted, waiting]⟩, rfl⟩
  · cases took

theorem complete_moved {token now : Nat} {job next : Job δ}
    (completed : job.complete token now = some next) : Moved job next := by
  simp only [Job.complete] at completed
  split at completed
  · rename_i active
    cases completed
    exact ⟨rfl, by simp [Job.isCompleted, active]⟩
  · cases completed

theorem fail_moved {token now : Nat} {unrecoverable : Bool} {job next : Job δ}
    (failed : job.fail token now unrecoverable = some next) :
    Moved job next ∧ next.isCompleted = false := by
  simp only [Job.fail] at failed
  split at failed
  · rename_i active
    cases failed
    refine ⟨⟨rfl, by simp [Job.isCompleted, active]⟩, ?_⟩
    simp only [Job.isCompleted]
    split
    · rename_i finishedOn chosen
      split at chosen <;> cases chosen
    · rfl
  · cases failed

theorem expire_moved {job next : Job δ} (expired : job.expire = some next) :
    Moved job next ∧ next.isCompleted = false := by
  simp only [Job.expire] at expired
  split at expired
  · rename_i locked
    cases expired
    refine ⟨⟨rfl, ?_⟩, rfl⟩
    cases state : job.state <;> simp [Job.locked, Job.isCompleted, state] at locked ⊢
  · cases expired

theorem stall_moved {now : Nat} {giveUp : Bool} {job next : Job δ}
    (stalled : job.stall now giveUp = some next) : Moved job next ∧ next.isCompleted = false := by
  simp only [Job.stall] at stalled
  split at stalled
  · rename_i active
    cases stalled
    refine ⟨⟨rfl, by simp [Job.isCompleted, active]⟩, ?_⟩
    cases giveUp <;> rfl
  · cases stalled

theorem retry_moved {job next : Job δ} (retried : job.retry = some next) :
    Moved job next ∧ next.isCompleted = false := by
  simp only [Job.retry] at retried
  split at retried
  · rename_i finishedOn failed
    cases retried
    exact ⟨⟨rfl, by simp [Job.isCompleted, failed]⟩, rfl⟩
  · cases retried

/-! ## A queue -/

namespace Queue

def add (queue : Queue κ δ) (id : κ) (data : δ) (attempts : Nat) : Queue κ δ :=
  match queue id with
  | some _ => queue
  | none => Function.update queue id (some (.fresh data attempts))

/-- `none` for a locked job; removing what is not there succeeds. -/
def remove (queue : Queue κ δ) (id : κ) : Option (Queue κ δ) :=
  if (queue id).any Job.locked then none else some (Function.update queue id none)

def move (queue : Queue κ δ) (id : κ) (change : Job δ → Option (Job δ)) :
    Option (Job δ × Queue κ δ) := do
  let job ← queue id
  let next ← change job
  pure (next, Function.update queue id (some next))

variable {queue : Queue κ δ} {id : κ}

theorem add_free (queue : Queue κ δ) {id : κ} (data : δ) (attempts : Nat)
    (free : queue id = none) :
    queue.add id data attempts = Function.update queue id (some (.fresh data attempts)) := by
  simp only [add, free]

theorem add_taken (queue : Queue κ δ) {id : κ} (data : δ) (attempts : Nat) {job : Job δ}
    (taken : queue id = some job) : queue.add id data attempts = queue := by
  simp only [add, taken]

theorem add_holds (queue : Queue κ δ) (id : κ) (data : δ) (attempts : Nat) :
    queue.add id data attempts id ≠ none := by
  cases found : queue id with
  | none =>
      rw [add_free queue data attempts found, Function.update_self]
      exact Option.some_ne_none _
  | some job =>
      rw [add_taken queue data attempts found, found]
      exact Option.some_ne_none job

theorem add_keeps (queue : Queue κ δ) {id other : κ} (data : δ) (attempts : Nat) {job : Job δ}
    (found : queue other = some job) : queue.add id data attempts other = some job := by
  cases here : queue id with
  | none =>
      have different : other ≠ id := by
        rintro rfl
        rw [here] at found
        cases found
      rw [add_free queue data attempts here, Function.update_of_ne different, found]
  | some _ => rw [add_taken queue data attempts here, found]

theorem add_cases {data : δ} {attempts : Nat} {other : κ} {job : Job δ}
    (found : queue.add id data attempts other = some job) :
    queue other = some job ∨ other = id ∧ job = .fresh data attempts := by
  cases here : queue id with
  | none =>
      rw [add_free queue data attempts here] at found
      by_cases itself : other = id
      · subst itself
        rw [Function.update_self] at found
        exact .inr ⟨rfl, (Option.some.inj found).symm⟩
      · rw [Function.update_of_ne itself] at found
        exact .inl found
  | some _ =>
      rw [add_taken queue data attempts here] at found
      exact .inl found

theorem remove_ok {next : Queue κ δ} (removed : queue.remove id = some next) :
    next = Function.update queue id none := by
  simp only [remove] at removed
  split at removed <;> cases removed
  rfl

theorem move_ok {change : Job δ → Option (Job δ)} {job : Job δ} {next : Queue κ δ}
    (moved : queue.move id change = some (job, next)) :
    ∃ before, queue id = some before ∧ change before = some job ∧
      next = Function.update queue id (some job) := by
  simp only [move, Option.bind_eq_bind, Option.bind_eq_some_iff] at moved
  obtain ⟨before, found, later, changed, same⟩ := moved
  cases same
  exact ⟨before, found, changed, rfl⟩

end Queue

end JobQueues
