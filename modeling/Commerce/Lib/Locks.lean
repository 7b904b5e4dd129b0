import Commerce.Lib.Runs
import Mathlib.Logic.Function.Basic
import Mathlib.Logic.Relation

/-!
# Transactions that lock rows

A transaction is a tree of statements: what it asks next depends on what the
database answered.  A statement may lock the row it is about, and may have to
wait while another transaction holds that row.  Locks are released only when
the transaction ends, and a row it inserted exists for the others only if it
commits.

The rule of this module: if every transaction asks for rows in one order, no
run reaches a cycle of transactions that wait for one another.  Rows behind a
gate need no place in it: they are touched only under the lock of their gate,
so nobody ever waits for them.
-/

set_option autoImplicit false

namespace Locks

open Runs

inductive Transaction (S : Type) (Answer : S → Type) (α : Type) where
  | done (result : α)
  | failed
  | ask (statement : S) (next : Answer statement → Transaction S Answer α)

/-- What the statements do: the row each is about, whether it waits for that row's lock, and
which answers it may give with the row there or not, taking its lock or not. -/
structure Database (S : Type) (Answer : S → Type) (ρ : Type) where
  row : S → Option ρ
  waits : S → Bool
  permits : (statement : S) → Answer statement → Bool → Bool → Bool

/-- A strict order on the rows, and the gate of each row that has one. -/
structure LockOrder (ρ : Type) where
  before : ρ → ρ → Prop
  before_trans : ∀ one two three, before one two → before two three → before one three
  before_irrefl : ∀ row, ¬ before row row
  gate : ρ → Option ρ

variable {S : Type} {Answer : S → Type} {ρ τ α β θ : Type}

namespace Transaction

def bind : Transaction S Answer α → (α → Transaction S Answer β) → Transaction S Answer β
  | .done result, rest => rest result
  | .failed, _ => .failed
  | .ask statement next, rest => .ask statement fun answer => (next answer).bind rest

instance : Monad (Transaction S Answer) where
  pure := .done
  bind := bind

def query (statement : S) : Transaction S Answer (Answer statement) := .ask statement .done

end Transaction

/-! ## The discipline -/

/-- What a transaction knows of the rows: the locks it holds and rows it saw committed. -/
structure View (ρ : Type) where
  held : ρ → Prop
  present : ρ → Prop

def View.start : View ρ := ⟨fun _ => False, fun _ => False⟩

def View.learn (view : View ρ) (row : Option ρ) (present locked : Bool) : View ρ where
  held other := (locked = true ∧ row = some other) ∨ view.held other
  present other := (present = true ∧ row = some other) ∨ view.present other

section Discipline

variable (db : Database S Answer ρ) (order : LockOrder ρ)

/-- The row may be asked for: its gate is held, and a row without a gate is held already or
comes after every such row that is held. -/
structure Allowed (view : View ρ) (row : ρ) : Prop where
  gated : ∀ gate, order.gate row = some gate → view.held gate
  ascends : order.gate row = none →
    view.held row ∨ ∀ other, view.held other → order.gate other = none →
      order.before other row

def Obeys : View ρ → Transaction S Answer α → (α → View ρ → Prop) → Prop
  | view, .done result, returns => returns result view
  | _, .failed, _ => True
  | view, .ask statement next, returns =>
      (∀ row, db.row statement = some row → Allowed order view row) ∧
        ∀ answer present locked, db.permits statement answer present locked = true →
          (∀ row, db.row statement = some row → view.present row → present = true) →
          Obeys (view.learn (db.row statement) present locked) (next answer) returns

variable {db order}

theorem obeys_mono (transaction : Transaction S Answer α) (view : View ρ)
    (returns returns' : α → View ρ → Prop) (obeys : Obeys db order view transaction returns)
    (weaker : ∀ result later, returns result later → returns' result later) :
    Obeys db order view transaction returns' := by
  induction transaction generalizing view with
  | done result => exact weaker result view obeys
  | failed => trivial
  | ask statement next ih =>
      obtain ⟨allowed, later⟩ := obeys
      refine ⟨allowed, fun answer present locked permitted known => ?_⟩
      exact ih answer _ (later answer present locked permitted known)

theorem obeys_bind (first : Transaction S Answer α) (rest : α → Transaction S Answer β)
    (view : View ρ) (returns : β → View ρ → Prop)
    (obeys : Obeys db order view first fun result later =>
      Obeys db order later (rest result) returns) :
    Obeys db order view (first >>= rest) returns := by
  change Obeys db order view (first.bind rest) returns
  induction first generalizing view with
  | done result => exact obeys
  | failed => trivial
  | ask statement next ih =>
      obtain ⟨allowed, later⟩ := obeys
      refine ⟨allowed, fun answer present locked permitted known => ?_⟩
      exact ih answer _ (later answer present locked permitted known)

theorem obeys_read (statement : S) (view : View ρ) (returns : Answer statement → View ρ → Prop)
    (rowless : db.row statement = none) (later : ∀ answer, returns answer view) :
    Obeys db order view (Transaction.query statement) returns := by
  refine ⟨fun row about => ?_, fun answer present locked _ _ => ?_⟩
  · rw [rowless] at about
    cases about
  · have same : view.learn (db.row statement) present locked = view := by
      simp [View.learn, rowless]
    rw [same]
    exact later answer

theorem obeys_query (statement : S) (view : View ρ) (row : ρ)
    (returns : Answer statement → View ρ → Prop) (about : db.row statement = some row)
    (allowed : Allowed order view row)
    (later : ∀ answer present locked, db.permits statement answer present locked = true →
      (view.present row → present = true) →
      returns answer (view.learn (some row) present locked)) :
    Obeys db order view (Transaction.query statement) returns := by
  refine ⟨fun other same => ?_, fun answer present locked permitted known => ?_⟩
  · cases Option.some.inj (about.symm.trans same)
    exact allowed
  · rw [about]
    exact later answer present locked permitted (known row about)

end Discipline

/-! ## Runs of concurrent transactions -/

structure State (S : Type) (Answer : S → Type) (ρ τ α : Type) where
  present : ρ → Bool
  holder : ρ → Option τ
  transactions : τ → Option (Transaction S Answer α)

/-- A transaction begins, its statement is answered, or it ends; it may be rolled back at any
moment, and commits once it is done. -/
inductive Event (S : Type) (Answer : S → Type) (τ θ : Type) where
  | begin (slot : τ) (request : θ)
  | answer (slot : τ) (statement : S) (answer : Answer statement) (locked : Bool)
  | commit (slot : τ)
  | rollback (slot : τ)

def idle (present : ρ → Bool) : State S Answer ρ τ α := ⟨present, fun _ => none, fun _ => none⟩

section Machine

variable [DecidableEq S] [DecidableEq ρ] [DecidableEq τ]
variable (db : Database S Answer ρ) (program : θ → Transaction S Answer α)

/-- The locks once the statement has been answered; `none` while another holds the row. -/
def acquire (holder : ρ → Option τ) (slot : τ) : Option ρ → Bool → Option (ρ → Option τ)
  | _, false => some holder
  | none, true => none
  | some row, true =>
      if holder row = none ∨ holder row = some slot then
        some (Function.update holder row (some slot))
      else none

def release (holder : ρ → Option τ) (slot : τ) (row : ρ) : Option τ :=
  if holder row = some slot then none else holder row

def step (state : State S Answer ρ τ α) : Event S Answer τ θ → Option (State S Answer ρ τ α)
  | .begin slot request =>
      match state.transactions slot with
      | some _ => none
      | none =>
          some { state with
            transactions := Function.update state.transactions slot (some (program request)) }
  | .answer slot statement answer locked =>
      match state.transactions slot with
      | some (.ask asked next) =>
          if same : statement = asked then
            if db.permits statement answer ((db.row statement).all state.present) locked then
              (acquire state.holder slot (db.row statement) locked).map fun holder =>
                { state with
                  holder := holder
                  transactions :=
                    Function.update state.transactions slot (some (next (same ▸ answer))) }
            else none
          else none
      | _ => none
  | .commit slot =>
      match state.transactions slot with
      | some (.done _) =>
          some
            { present := fun row => state.present row || state.holder row = some slot
              holder := release state.holder slot
              transactions := Function.update state.transactions slot none }
      | _ => none
  | .rollback slot =>
      match state.transactions slot with
      | some _ =>
          some { state with
            holder := release state.holder slot
            transactions := Function.update state.transactions slot none }
      | none => none

def State.waitsOn (state : State S Answer ρ τ α) (slot : τ) : Option ρ :=
  match state.transactions slot with
  | some (.ask statement _) => if db.waits statement then db.row statement else none
  | _ => none

def WaitsFor (state : State S Answer ρ τ α) (one other : τ) : Prop :=
  one ≠ other ∧ ∃ row, state.waitsOn db one = some row ∧ state.holder row = some other

end Machine

/-! ## No cycles -/

section Safety

variable {db : Database S Answer ρ} {program : θ → Transaction S Answer α} {order : LockOrder ρ}

def Disciplined (db : Database S Answer ρ) (order : LockOrder ρ) (present : ρ → Bool)
    (held : ρ → Prop) (transaction : Transaction S Answer α) : Prop :=
  ∃ known : ρ → Prop, (∀ row, known row → present row = true) ∧
    Obeys db order ⟨held, known⟩ transaction fun _ _ => True

structure Orderly (db : Database S Answer ρ) (order : LockOrder ρ)
    (state : State S Answer ρ τ α) : Prop where
  owned : ∀ row slot, state.holder row = some slot → state.transactions slot ≠ none
  gated : ∀ row slot gate, state.holder row = some slot → order.gate row = some gate →
    state.holder gate = some slot
  obeys : ∀ slot transaction, state.transactions slot = some transaction →
    Disciplined db order state.present (fun row => state.holder row = some slot) transaction

theorem disciplined_present (present present' : ρ → Bool) (held : ρ → Prop)
    (transaction : Transaction S Answer α) (grows : ∀ row, present row = true → present' row = true)
    (disciplined : Disciplined db order present held transaction) :
    Disciplined db order present' held transaction := by
  obtain ⟨known, sound, obeys⟩ := disciplined
  exact ⟨known, fun row seen => grows row (sound row seen), obeys⟩

theorem idle_orderly (present : ρ → Bool) :
    Orderly db order (idle present : State S Answer ρ τ α) :=
  ⟨fun _ _ held => (nomatch held), fun _ _ _ held => (nomatch held),
    fun _ _ opened => (nomatch opened)⟩

/-- The row a transaction waits for, while another one holds it, is behind no gate and comes
after every such row the transaction holds itself. -/
theorem wait_ascends (state : State S Answer ρ τ α) (slot other : τ) (row : ρ)
    (inv : Orderly db order state) (waits : state.waitsOn db slot = some row)
    (different : slot ≠ other) (held : state.holder row = some other) :
    order.gate row = none ∧ ∀ own, state.holder own = some slot → order.gate own = none →
      order.before own row := by
  unfold State.waitsOn at waits
  split at waits
  · rename_i statement next asks
    split_ifs at waits
    obtain ⟨known, -, allowed, -⟩ := inv.obeys slot _ asks
    have may := allowed row waits
    have ungated : order.gate row = none := by
      cases behind : order.gate row with
      | none => rfl
      | some gate =>
          have mine : state.holder gate = some slot := may.gated gate behind
          have theirs := inv.gated row other gate held behind
          exact absurd (Option.some.inj (mine.symm.trans theirs)) different
    refine ⟨ungated, ?_⟩
    rcases may.ascends ungated with mine | above
    · exact absurd (Option.some.inj (Eq.trans (Eq.symm mine) held)) different
    · exact above
  · cases waits

/-- Along a chain of waits the rows waited for rise. -/
theorem chain_ascends (state : State S Answer ρ τ α) (inv : Orderly db order state)
    (first last : τ) (chain : Relation.TransGen (WaitsFor db state) first last) (row : ρ)
    (after : τ) (waits : state.waitsOn db last = some row) (different : last ≠ after)
    (held : state.holder row = some after) :
    ∃ start, state.waitsOn db first = some start ∧ order.before start row := by
  induction chain generalizing row after with
  | single wait =>
      obtain ⟨distinct, start, starts, holds⟩ := wait
      have ungated := (wait_ascends state first _ start inv starts distinct holds).1
      have above := (wait_ascends state _ after row inv waits different held).2
      exact ⟨start, starts, above start holds ungated⟩
  | tail _ wait ih =>
      obtain ⟨distinct, middle, waiting, holds⟩ := wait
      obtain ⟨start, starts, below⟩ := ih middle _ waiting distinct holds
      have ungated := (wait_ascends state _ _ middle inv waiting distinct holds).1
      have above := (wait_ascends state _ after row inv waits different held).2
      exact ⟨start, starts, order.before_trans _ _ _ below (above middle holds ungated)⟩

theorem no_wait_cycle (state : State S Answer ρ τ α) (inv : Orderly db order state) (slot : τ) :
    ¬ Relation.TransGen (WaitsFor db state) slot slot := by
  intro cycle
  obtain ⟨next, first, -⟩ := Relation.TransGen.head'_iff.mp cycle
  obtain ⟨distinct, row, waits, held⟩ := first
  obtain ⟨start, starts, below⟩ :=
    chain_ascends state inv slot slot cycle row next waits distinct held
  cases Option.some.inj (starts.symm.trans waits)
  exact order.before_irrefl _ below

variable [DecidableEq τ]

theorem release_holder (holder : ρ → Option τ) (slot : τ) (row : ρ) (other : τ) :
    release holder slot row = some other ↔ other ≠ slot ∧ holder row = some other := by
  unfold release
  split
  · rename_i own
    simp only [reduceCtorEq, own, Option.some.injEq, false_iff, not_and]
    exact fun different same => different same.symm
  · rename_i foreign
    constructor
    · intro held
      refine ⟨?_, held⟩
      rintro rfl
      exact foreign held
    · exact And.right

theorem begin_orderly (state : State S Answer ρ τ α) (slot : τ) (request : θ)
    (inv : Orderly db order state) (vacant : state.transactions slot = none)
    (obeys : Obeys db order View.start (program request) fun _ _ => True) :
    Orderly db order { state with
      transactions := Function.update state.transactions slot (some (program request)) } := by
  refine ⟨fun row other held => ?_, inv.gated, fun other transaction opened => ?_⟩
  · by_cases here : other = slot
    · simp [here]
    · simpa [here] using inv.owned row other held
  · by_cases here : other = slot
    · subst here
      simp only [Function.update_self, Option.some.injEq] at opened
      subst opened
      have bare : (fun row => state.holder row = some other) = fun _ => False := by
        funext row
        exact eq_false fun held => inv.owned row other held vacant
      exact ⟨fun _ => False, fun _ absurdity => absurdity.elim, by rw [bare]; exact obeys⟩
    · exact inv.obeys other transaction (by simpa [here] using opened)

theorem end_orderly (state : State S Answer ρ τ α) (slot : τ) (present : ρ → Bool)
    (inv : Orderly db order state) (grows : ∀ row, state.present row = true → present row = true) :
    Orderly db order
      { present := present
        holder := release state.holder slot
        transactions := Function.update state.transactions slot none } := by
  refine ⟨fun row other held => ?_, fun row other gate held behind => ?_,
    fun other transaction opened => ?_⟩
  · obtain ⟨different, before⟩ := (release_holder ..).mp held
    simpa [different] using inv.owned row other before
  · obtain ⟨different, before⟩ := (release_holder ..).mp held
    exact (release_holder ..).mpr ⟨different, inv.gated row other gate before behind⟩
  · by_cases here : other = slot
    · subst here
      simp at opened
    · have same : (fun row => release state.holder slot row = some other) = fun row =>
          state.holder row = some other := by
        funext row
        exact propext ((release_holder ..).trans ⟨And.right, fun before => ⟨here, before⟩⟩)
      simp only [same]
      exact disciplined_present state.present present _ transaction grows
        (inv.obeys other transaction (by simpa [here] using opened))

variable [DecidableEq ρ]

/-- The lock a statement takes was free or the transaction's own. -/
theorem acquire_holder (holder holder' : ρ → Option τ) (slot : τ) (row : Option ρ) (locked : Bool)
    (acquired : acquire holder slot row locked = some holder') :
    (∀ other, holder' other = some slot ↔
        (locked = true ∧ row = some other) ∨ holder other = some slot) ∧
      ∀ other another, another ≠ slot →
        (holder' other = some another ↔ holder other = some another) := by
  cases locked with
  | false =>
      cases acquired
      simp
  | true =>
      cases row with
      | none => cases acquired
      | some row =>
          simp only [acquire] at acquired
          split_ifs at acquired with free
          cases acquired
          refine ⟨fun other => ?_, fun other another different => ?_⟩
          · by_cases here : other = row
            · simp [here]
            · simp [here, Ne.symm here]
          · by_cases here : other = row
            · subst here
              rcases free with free | free <;> simp [free, Ne.symm different]
            · simp [here]

theorem answer_orderly (state : State S Answer ρ τ α) (slot : τ) (statement : S)
    (next : Answer statement → Transaction S Answer α) (answer : Answer statement) (locked : Bool)
    (holder : ρ → Option τ) (inv : Orderly db order state)
    (asks : state.transactions slot = some (.ask statement next))
    (permitted : db.permits statement answer ((db.row statement).all state.present) locked = true)
    (acquired : acquire state.holder slot (db.row statement) locked = some holder) :
    Orderly db order { state with
      holder := holder
      transactions := Function.update state.transactions slot (some (next answer)) } := by
  obtain ⟨own, foreign⟩ := acquire_holder state.holder holder slot _ locked acquired
  obtain ⟨known, sound, allowed, later⟩ := inv.obeys slot _ asks
  refine ⟨fun row other held => ?_, fun row other gate held behind => ?_,
    fun other transaction opened => ?_⟩
  · by_cases here : other = slot
    · simp [here]
    · have before := (foreign row other here).mp held
      simpa [here] using inv.owned row other before
  · by_cases here : other = slot
    · subst here
      refine (own gate).mpr (.inr ?_)
      rcases (own row).mp held with ⟨-, about⟩ | before
      · exact (allowed row about).gated gate behind
      · exact inv.gated row other gate before behind
    · have before := (foreign row other here).mp held
      exact (foreign gate other here).mpr (inv.gated row other gate before behind)
  · by_cases here : other = slot
    · subst here
      simp only [Function.update_self, Option.some.injEq] at opened
      subst opened
      have seen : ∀ row, db.row statement = some row → known row →
          (db.row statement).all state.present = true := by
        intro row about knows
        simp [about, sound row knows]
      have obeys := later answer _ locked permitted seen
      have held : (fun row => holder row = some other) = fun row =>
          (locked = true ∧ db.row statement = some row) ∨ state.holder row = some other := by
        funext row
        exact propext (own row)
      refine ⟨_, ?_, by rw [held]; exact obeys⟩
      rintro row (⟨here, about⟩ | knows)
      · simpa [about] using here
      · exact sound row knows
    · have same : (fun row => holder row = some other) = fun row => state.holder row =
          some other := by
        funext row
        exact propext (foreign row other here)
      rw [same]
      exact inv.obeys other transaction (by simpa [here] using opened)

variable [DecidableEq S]

theorem step_orderly (obeys : ∀ request, Obeys db order View.start (program request) fun _ _ =>
    True)
    (state : State S Answer ρ τ α) (event : Event S Answer τ θ) (next : State S Answer ρ τ α)
    (inv : Orderly db order state) (stepped : step db program state event = some next) :
    Orderly db order next := by
  cases event with
  | begin slot request =>
      simp only [step] at stepped
      split at stepped
      · cases stepped
      · rename_i vacant
        cases stepped
        exact begin_orderly state slot request inv vacant (obeys request)
  | answer slot statement answer locked =>
      simp only [step] at stepped
      split at stepped
      · rename_i asked next' asks
        split_ifs at stepped with same permitted
        subst same
        obtain ⟨holder, acquired, rfl⟩ := Option.map_eq_some_iff.mp stepped
        exact answer_orderly state slot statement next' answer locked holder inv asks permitted
          acquired
      · cases stepped
  | commit slot =>
      simp only [step] at stepped
      split at stepped
      · cases stepped
        exact end_orderly state slot _ inv fun row there => by simp [there]
      · cases stepped
  | rollback slot =>
      simp only [step] at stepped
      split at stepped
      · cases stepped
        exact end_orderly state slot state.present inv fun _ there => there
      · cases stepped

/-- Transactions that ask in one order never reach a cycle of waits. -/
theorem run_no_wait_cycle
    (obeys : ∀ request, Obeys db order View.start (program request) fun _ _ => True)
    (present : ρ → Bool) (events : List (Event S Answer τ θ)) (state : State S Answer ρ τ α)
    (ran : run (step db program) (idle present) events = some state) (slot : τ) :
    ¬ Relation.TransGen (WaitsFor db state) slot slot := by
  have inv := run_preserves (step db program) (Orderly db order) (step_orderly obeys) events
    (idle present) state (idle_orderly present) ran
  exact no_wait_cycle state inv slot

end Safety

end Locks
