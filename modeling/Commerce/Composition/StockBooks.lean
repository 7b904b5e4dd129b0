import Commerce.Composition.Participants

/-!
# The stock of a composed order

Inventory's header follows the saga: it is committed only once the saga issued the
commit, and after a commit that was answered it stays committed or restocked.  So no
release and no restock the saga issues is refused.
-/

set_option autoImplicit false

namespace Commerce.Composition

open Commerce.Inventory (LineTransition Operation ParticipantCommandOutcome Stock
  commandTransaction)
open Commerce.Saga

/-! ## The saga's side -/

theorem deliver_log (run next : Saga.Run) (event : Saga.Event)
    (delivered : deliver run event = some next) : ∃ more, next.log = run.log ++ more := by
  obtain ⟨done, entries, transition, -, applied⟩ := deliver_fires run next event delivered
  exact ⟨_, applied.log⟩

/-- A reported entry is an answer some execution gave. -/
theorem confirmed_evidence (world : World) (slot : Nat) (event : Saga.Event) (next : Saga.Run)
    (entry : Entry) (reported : entry.reported = true)
    (confirmed : world.confirms slot event = true)
    (delivered : deliver world.run event = some next) (logged : entry ∈ next.log) :
    entry ∈ world.run.log ∨ ∃ task ∈ world.run.pending, ∃ seq result,
      world.answers slot seq task.activity result = true ∧ Reports task.activity result entry := by
  refine (deliver_evidence world.run next event entry reported delivered logged).imp id ?_
  rintro ⟨seq, result, task, rest, rfl, taken, reports⟩
  have answered : world.answers slot seq task.activity result = true := by
    simpa [World.confirms, taken] using confirmed
  have listed := (takeTask_perm seq world.run.pending rest task taken).mem_iff.mpr
    List.mem_cons_self
  exact ⟨task, listed, seq, result, answered, reports⟩

/-- A capture is pending only while the saga is `CAPTURING`. -/
theorem capturing_of_pending (run : Saga.Run) (pivot : RunPivot run) (task : Task)
    (listed : task ∈ run.pending) (captures : task.activity = .capturePayment) :
    run.saga.step = .capturing := by
  have owes : .capturePayment ∈ owed run.pending := by
    refine List.mem_flatMap.mpr ⟨task, listed, ?_⟩
    simp [Task.owes, captures, Activity.owes]
  have counted := List.count_pos_iff.mpr owes
  have bounded := pivot.captureOwed
  by_contra elsewhere
  rw [if_neg elsewhere] at bounded
  omega

/-! ## The order's stock -/

structure StockBooks (orderId : Nat) (world : World) : Prop where
  ledger : Inventory.Ledger world.stock
  uncommitted : .issued .commitStock ∉ world.run.log → Uncommitted world.stock orderId
  committed : ∀ outcome, outcome ≠ .conflict → (.commit, outcome) ∈ world.resolved →
    Inventory.AppliedStatus .commit (world.stock.statusOf orderId)
  reported : ∀ outcome, .committed outcome ∈ world.run.log →
    (.commit, CommitOutcome.answer outcome) ∈ world.resolved
  released : ∀ outcome, (.release, outcome) ∈ world.resolved →
    outcome ≠ .conflict ∧ Inventory.AppliedStatus .release (world.stock.statusOf orderId)
  restocked : ∀ outcome, (.restock, outcome) ∈ world.resolved → outcome ≠ .conflict

theorem CommitOutcome.answer_conflict (outcome : CommitOutcome)
    (same : CommitOutcome.answer outcome = .conflict) : outcome = .conflict := by
  cases outcome <;> first | rfl | cases same

section Stock

variable (orderId : Nat) (world : World)

/-- The saga asks for a restock only when the stock was committed. -/
theorem committed_of_restock (pivot : RunPivot world.run) (books : StockBooks orderId world)
    (issued : resolves world.run.log .restock = true) :
    Inventory.AppliedStatus .commit (world.stock.statusOf orderId) := by
  obtain ⟨command, restocks, member⟩ := (compensates_iff world.run.log .restock).mp issued
  obtain ⟨before, after, parts⟩ := List.append_of_mem member
  have law := (pivotLaw_of_allowed world.run.log pivot.law).restockAfterFailedCapture
  obtain ⟨⟨outcome, fine, committed⟩, -⟩ := law before command after parts restocks
  have logged : .committed outcome ∈ world.run.log := by
    rw [parts]
    exact List.mem_append_left _ committed
  refine books.committed (CommitOutcome.answer outcome) ?_ (books.reported outcome logged)
  exact fun same => fine (CommitOutcome.answer_conflict outcome same)

theorem uncommitted_of_release (aftermath : RunAftermath world.run)
    (books : StockBooks orderId world) (issued : resolves world.run.log .release = true) :
    Uncommitted world.stock orderId := by
  obtain ⟨command, releases, member⟩ := (compensates_iff world.run.log .releaseStock).mp issued
  exact books.uncommitted (aftermath.released command releases member)

theorem stockBooks_saga (books : StockBooks orderId world) (slot : Nat) (event : Saga.Event)
    (next : Saga.Run) (confirmed : world.confirms slot event = true)
    (delivered : deliver world.run event = some next) :
    StockBooks orderId { world with run := next } := by
  obtain ⟨more, log⟩ := deliver_log world.run next event delivered
  constructor
  · exact books.ledger
  · intro unissued
    apply books.uncommitted
    intro issued
    apply unissued
    rw [log]
    exact List.mem_append_left _ issued
  · exact books.committed
  · intro outcome logged
    rcases confirmed_evidence world slot event next _ rfl confirmed delivered logged with
      old | ⟨task, -, seq, result, answered, commits, rfl⟩
    · exact books.reported outcome old
    · rw [commits] at answered
      exact of_decide_eq_true answered
  · exact books.released
  · exact books.restocked

theorem stockBooks_resolve (pivot : RunPivot world.run) (aftermath : RunAftermath world.run)
    (books : StockBooks orderId world) (command : LineTransition)
    (outcome : ParticipantCommandOutcome) (stock : Stock)
    (issued : resolves world.run.log command = true)
    (success : commandTransaction world.stock command orderId = .ok (outcome, stock)) :
    StockBooks orderId
      { world with stock, resolved := world.resolved ++ [(command, outcome)] } := by
  have ledger := Inventory.command_ledger world.stock stock command orderId outcome books.ledger
    success
  have edge : Inventory.HeaderEdge (world.stock.statusOf orderId) (stock.statusOf orderId) :=
    (Inventory.command_step world.stock stock command orderId outcome books.ledger
      success).header.edge
  have older : ∀ other answer, (other, answer) ∈ world.resolved ++ [(command, outcome)] →
      (other, answer) ∈ world.resolved ∨ other = command ∧ answer = outcome := by
    intro other answer member
    rcases List.mem_append.mp member with old | new
    · exact .inl old
    · cases List.mem_singleton.mp new
      exact .inr ⟨rfl, rfl⟩
  constructor
  · exact ledger
  · intro unissued
    have before := books.uncommitted unissued
    cases command with
    | commit => exact absurd (of_decide_eq_true issued) unissued
    | release =>
        exact uncommitted_of_released stock orderId
          (release_answered world.stock stock orderId outcome books.ledger before success).2
    | restock =>
        rw [restock_uncommitted world.stock stock orderId outcome books.ledger before success]
        exact before
  · intro answer fine member
    rcases older .commit answer member with old | ⟨rfl, rfl⟩
    · exact Inventory.appliedStatus_closed .commit _ _ (books.committed answer fine old) edge
    · exact commit_answered world.stock stock orderId answer books.ledger fine success
  · exact fun answer logged => List.mem_append_left _ (books.reported answer logged)
  · intro answer member
    rcases older .release answer member with old | ⟨rfl, rfl⟩
    · obtain ⟨fine, status⟩ := books.released answer old
      exact ⟨fine, Inventory.appliedStatus_closed .release _ _ status edge⟩
    · exact release_answered world.stock stock orderId answer books.ledger
        (uncommitted_of_release orderId world aftermath books issued) success
  · intro answer member
    rcases older .restock answer member with old | ⟨rfl, rfl⟩
    · exact books.restocked answer old
    · exact restock_answered world.stock stock orderId answer books.ledger
        (committed_of_restock orderId world pivot books issued) success

theorem stockBooks_perform (maxRetries : Nat) (books : StockBooks orderId world)
    (operation : Operation) (foreign : ∀ command, operation ≠ .command command orderId) :
    StockBooks orderId
      { world with stock := Inventory.perform maxRetries world.stock operation } := by
  have edge := Inventory.after_header maxRetries world.stock ⟨operation, false⟩ orderId books.ledger
  constructor
  · exact Inventory.perform_ledger maxRetries world.stock operation books.ledger
  · intro unissued
    exact uncommitted_perform maxRetries world.stock operation orderId books.ledger
      (books.uncommitted unissued) foreign
  · intro outcome fine member
    exact committed_perform maxRetries world.stock operation orderId books.ledger
      (books.committed outcome fine member)
  · exact books.reported
  · intro outcome member
    obtain ⟨fine, status⟩ := books.released outcome member
    exact ⟨fine, Inventory.appliedStatus_closed .release _ _ status edge⟩
  · exact books.restocked

end Stock

end Commerce.Composition
