import Commerce.Saga.Outstanding
import Commerce.Saga.PivotLaw

/-!
# What a compensating saga has behind it

Compensations are issued on the way into the compensation steps or within them, and
those steps are not left for the confirm path.  What a compensation relies on is
therefore settled by the time it is issued: the stock was never committed, or the
capture was refused.
-/

set_option autoImplicit false

namespace Commerce.Saga

open Commerce.Orders (OrderStatus)

def CheckoutStep.undoing : CheckoutStep → Bool
  | .compensating | .compensated => true
  | _ => false

structure Aftermath (state : CheckoutSagaState) (log : List Entry) : Prop where
  undoing : ∀ command, .issued (.compensation command) ∈ log → state.step.undoing = true
  released : ∀ command, command.type = .releaseStock → .issued (.compensation command) ∈ log →
    .issued .commitStock ∉ log
  uncaptured : state.step.undoing = true → .issued .capturePayment ∈ log →
    .captured .notCapturable ∈ log
  unread : state.orderStatus = none → ∀ command, .issued (.compensation command) ∉ log
  /-- The confirm path starts with the stock commit. -/
  confirming : state.step = .committingStock ∨ state.step = .capturing ∨
    .issued .capturePayment ∈ log → .issued .commitStock ∈ log

section Moves

variable (state next : CheckoutSagaState) (log entries : List Entry)

theorem aftermath_still (inv : Aftermath state log) (step : next.step = state.step)
    (status : next.orderStatus = none → state.orderStatus = none)
    (quiet : ∀ command, .issued command ∈ entries →
      ∃ authorization, command = .verifyAuthorization authorization) :
    Aftermath next (log ++ entries) := by
  have older : ∀ command, (∀ authorization, command ≠ .verifyAuthorization authorization) →
      .issued command ∈ log ++ entries → .issued command ∈ log := by
    intro command other issued
    rcases List.mem_append.mp issued with old | new
    · exact old
    · obtain ⟨authorization, same⟩ := quiet command new
      exact absurd same (other authorization)
  constructor
  · intro command issued
    rw [step]
    exact inv.undoing command (older _ (by simp) issued)
  · intro command type issued committed
    exact inv.released command type (older _ (by simp) issued) (older _ (by simp) committed)
  · intro undoing captured
    rw [step] at undoing
    exact List.mem_append_left _ (inv.uncaptured undoing (older _ (by simp) captured))
  · intro unread command issued
    exact inv.unread (status unread) command (older _ (by simp) issued)
  · intro path
    rw [step] at path
    apply List.mem_append_left
    apply inv.confirming
    rcases path with committing | capturing | captured
    · exact .inl committing
    · exact .inr (.inl capturing)
    · exact .inr (.inr (older _ (by simp) captured))

theorem aftermath_undoing (inv : Aftermath state log) (undoing : next.step.undoing = true)
    (status : next.orderStatus ≠ none) (commits : .issued .commitStock ∉ entries)
    (captures : .issued .capturePayment ∉ entries)
    (releases : ∀ command, command.type = .releaseStock →
      .issued (.compensation command) ∈ entries → .issued .commitStock ∉ log)
    (refused : .issued .capturePayment ∈ log → .captured .notCapturable ∈ log ++ entries) :
    Aftermath next (log ++ entries) := by
  have committed : .issued .commitStock ∈ log ++ entries → .issued .commitStock ∈ log := by
    intro member
    exact (List.mem_append.mp member).resolve_right commits
  have captured : .issued .capturePayment ∈ log ++ entries → .issued .capturePayment ∈ log := by
    intro member
    exact (List.mem_append.mp member).resolve_right captures
  constructor
  · exact fun _ _ => undoing
  · intro command type issued commit
    rcases List.mem_append.mp issued with old | new
    · exact inv.released command type old (committed commit)
    · exact releases command type new (committed commit)
  · intro _ capture
    exact refused (captured capture)
  · exact fun unread => absurd unread status
  · intro path
    apply List.mem_append_left
    rcases path with committing | capturing | capture
    · rw [committing] at undoing
      cases undoing
    · rw [capturing] at undoing
      cases undoing
    · exact inv.confirming (.inr (.inr (captured capture)))

/-- Along the confirm path nothing was ever compensated. -/
theorem aftermath_forward (inv : Aftermath state log) (forward : next.step.undoing = false)
    (unissued : ∀ command, .issued (.compensation command) ∉ log)
    (uncompensated : ∀ command, .issued (.compensation command) ∉ entries)
    (confirming : next.step = .committingStock ∨ next.step = .capturing ∨
      .issued .capturePayment ∈ entries → .issued .commitStock ∈ log ++ entries) :
    Aftermath next (log ++ entries) := by
  have never : ∀ command, .issued (.compensation command) ∉ log ++ entries := by
    intro command issued
    rcases List.mem_append.mp issued with old | new
    · exact unissued command old
    · exact uncompensated command new
  constructor
  · exact fun command issued => absurd issued (never command)
  · exact fun command _ issued => absurd issued (never command)
  · intro undoing
    rw [forward] at undoing
    cases undoing
  · exact fun _ => never
  · intro path
    rcases path with committing | capturing | capture
    · exact confirming (.inl committing)
    · exact confirming (.inr (.inl capturing))
    · rcases List.mem_append.mp capture with old | new
      · exact List.mem_append_left _ (inv.confirming (.inr (.inr old)))
      · exact confirming (.inr (.inr new))

theorem Aftermath.unissued (inv : Aftermath state log) (forward : state.step.undoing = false) :
    ∀ command, .issued (.compensation command) ∉ log := by
  intro command issued
  have undoing := inv.undoing command issued
  rw [forward] at undoing
  cases undoing

end Moves

/-! ## One lemma for each transition -/

section Transitions

variable (state : CheckoutSagaState) (log : List Entry) (tasks : List SagaCommand)

theorem aftermath_noop (inv : Aftermath state log) :
    Aftermath (noop state).state (log ++ entriesOf state (noop state)) :=
  aftermath_still state _ log _ inv rfl id (by simp)

theorem aftermath_tried (outcome : ReserveOutcome) (pivot : Pivot state log tasks)
    (inv : Aftermath state log) : Aftermath (onTryResult state outcome).state
      (log ++ entriesOf state (onTryResult state outcome)) := by
  rcases onTryResult_cases state outcome with ⟨-, fired⟩ | ⟨reserving, -, fired⟩ |
    ⟨reserving, -, fired⟩
  · rw [fired]
    exact aftermath_noop state log inv
  · rw [fired]
    exact aftermath_forward state _ log _ inv rfl
      (inv.unissued state log (by rw [reserving]; rfl)) (by simp) (by simp)
  · have early : state.step.early = true := by rw [reserving]; rfl
    rw [fired]
    refine aftermath_undoing state _ log _ inv rfl (by simp [compensate]) (by simp [compensate])
      (by simp [compensate]) ?_ ?_
    · exact fun _ _ _ => pivot.commitUnissued early
    · exact fun captured => absurd captured (pivot.captureUnissued (.inl early))

theorem aftermath_authorized (authorization : PaymentAuthorization) (totalMinor : Int)
    (currency : String) (pivot : Pivot state log tasks) (inv : Aftermath state log) :
    Aftermath (onAuthorized state authorization totalMinor currency).transition.state
      (log ++ entriesOf state
        (onAuthorized state authorization totalMinor currency).transition) := by
  rcases onAuthorized_cases state authorization totalMinor currency with
    ⟨verifying, voided, commands, fired, quiet⟩ | ⟨compensating, read, fired⟩
  · rw [fired]
    refine aftermath_still state _ log _ inv rfl id ?_
    intro command issued
    rw [issued_mem_entriesOf] at issued
    rcases quiet with none | ⟨-, one⟩
    · simp [none] at issued
    · exact ⟨authorization, by simpa [one] using issued⟩
  · have known : state.orderStatus ≠ none := fun unread => read (pivot.unread unread).1 unread
    have undoing : state.step.undoing = true := by
      rcases compensating with step | step <;> rw [step] <;> rfl
    rw [fired]
    refine aftermath_undoing state _ log _ inv rfl known (by simp [compensate])
      (by simp [compensate]) ?_ ?_
    · intro command type issued
      simp [compensate, issueFrom] at issued
      rw [issued] at type
      cases type
    · exact fun captured => List.mem_append_left _ (inv.uncaptured undoing captured)

theorem aftermath_verified (authorization : PaymentAuthorization) (verdict : AuthorizationVerdict)
    (inv : Aftermath state log) :
    Aftermath (onAuthorizationVerified state authorization verdict).transition.state
      (log ++ entriesOf state (onAuthorizationVerified state authorization
          verdict).transition) := by
  rcases onAuthorizationVerified_cases state authorization verdict with
    ⟨verifying, fired, -⟩ | ⟨awaiting, -, fired⟩
  · rw [fired]
    exact aftermath_still state _ log _ inv rfl id (by simp)
  · rw [fired]
    exact aftermath_forward state _ log _ inv rfl
      (inv.unissued state log (by rw [awaiting]; rfl)) (by simp) (by simp)

theorem aftermath_committed (outcome : CommitOutcome) (pivot : Pivot state log tasks)
    (inv : Aftermath state log) : Aftermath (onCommitResult state outcome).state
      (log ++ ([.committed outcome] ++ entriesOf state (onCommitResult state outcome))) := by
  rcases onCommitResult_cases state outcome with
    ⟨-, fired⟩ | ⟨committing, -, fired⟩ | ⟨committing, -, fired⟩
  · rw [fired]
    exact aftermath_still state _ log _ inv rfl id (by simp)
  · rw [fired]
    refine aftermath_undoing state _ log _ inv rfl (by simp [compensate]) (by simp [compensate])
      (by simp [compensate]) ?_ ?_
    · intro command type issued
      simp [compensate, issueFrom] at issued
      rw [issued] at type
      cases type
    · exact fun captured => absurd captured (pivot.captureUnissued (.inr committing))
  · rw [fired]
    refine aftermath_forward state _ log _ inv rfl
      (inv.unissued state log (by rw [committing]; rfl)) (by simp) ?_
    exact fun _ => List.mem_append_left _ (inv.confirming (.inl committing))

theorem aftermath_captured (outcome : SettledCaptureOutcome) (inv : Aftermath state log) :
    Aftermath (onCaptureResult state outcome).state
      (log ++ ([.captured outcome] ++ entriesOf state (onCaptureResult state outcome))) := by
  rcases onCaptureResult_cases state outcome with
    ⟨-, fired⟩ | ⟨capturing, refused, fired⟩ | ⟨capturing, -, fired⟩
  · rw [fired]
    exact aftermath_still state _ log _ inv rfl id (by simp)
  · rw [fired]
    refine aftermath_undoing state _ log _ inv rfl (by simp [compensate]) (by simp [compensate])
      (by simp [compensate]) ?_ ?_
    · intro command type issued
      simp [compensate, issueFrom] at issued
      rcases issued with same | same
      · rw [same] at type
        cases type
      · rw [same] at type
        cases type
    · exact fun _ => by simp [refused]
  · rw [fired]
    exact aftermath_forward state _ log _ inv rfl
      (inv.unissued state log (by rw [capturing]; rfl)) (by simp) (by simp)

theorem aftermath_compensated (command : CompensationCommand) (pivot : Pivot state log tasks)
    (inv : Aftermath state log) : Aftermath (onCompensationDone state command.id).state
      (log ++ entriesOf state (onCompensationDone state command.id)) := by
  rcases onCompensationDone_cases state command.id with fired |
    ⟨waiting, pending, step, fired, moved⟩
  · rw [fired]
    exact aftermath_noop state log inv
  · have undoing : state.step.undoing = true := by
      by_contra other
      refine waiting (pivot.forward ?_ ?_) <;> (intro step; exact other (by rw [step]; rfl))
    rw [fired]
    rcases moved with ⟨done, -⟩ | same
    · refine aftermath_undoing state _ log _ inv (by rw [done]; rfl) ?_ (by simp) (by simp)
        (by simp) ?_
      · exact fun unread => waiting (pivot.unread unread).2.2
      · exact fun captured => List.mem_append_left _ (inv.uncaptured undoing captured)
    · exact aftermath_still state _ log _ inv same id (by simp)

theorem aftermath_context (status : Option OrderStatus) (pivot : Pivot state log tasks)
    (inv : Aftermath state log) : Aftermath (onLateAuthorizationContext state status).state
      (log ++ entriesOf state (onLateAuthorizationContext state status)) := by
  rcases onLateAuthorizationContext_cases state status with
    fired | ⟨-, unread, -, fired⟩ | ⟨late, unread, -, fired⟩
  · rw [fired]
    exact aftermath_noop state log inv
  · rw [fired]
    exact aftermath_forward state _ log _ inv rfl (inv.unread unread) (by simp) (by simp)
  · rw [fired]
    refine aftermath_undoing state _ log _ inv rfl (by simp [compensate]) (by simp [compensate])
      (by simp [compensate]) ?_ ?_
    · intro command type issued
      simp [compensate, issueFrom] at issued
      rw [issued] at type
      cases type
    · have compensating := (pivot.unread unread).2.1
      exact fun captured => List.mem_append_left _
        (inv.uncaptured (by rw [compensating]; rfl) captured)

/-- The deadline and a cancel leave `AWAITING_AUTH` the same way. -/
theorem aftermath_abandoned (first : List SagaCommand)
    (compensations : List (CompensationType × CompensationReason)) (status : OrderStatus)
    (pivot : Pivot state log tasks) (inv : Aftermath state log)
    (awaiting : state.step = .awaitingAuth)
    (changes : ∀ command ∈ first, ∃ change, command = .changeOrder change)
    (entries : List Entry) (logged : ∀ command, .issued command ∈ entries → command ∈
      (compensate { state with orderStatus := some status } first compensations).commands) :
    Aftermath (compensate { state with orderStatus := some status } first compensations).state
      (log ++ entries) := by
  have early : state.step.early = true := by rw [awaiting]; rfl
  have other : ∀ command, (∀ change, command ≠ .changeOrder change) →
      (∀ compensation, command ≠ .compensation compensation) → .issued command ∉ entries := by
    intro command unchanging uncompensating issued
    rcases List.mem_append.mp (logged command issued) with before | after
    · obtain ⟨change, same⟩ := changes command before
      exact unchanging change same
    · obtain ⟨compensation, -, same⟩ := List.mem_map.mp after
      exact uncompensating compensation same.symm
  refine aftermath_undoing state _ log _ inv rfl (by simp [compensate])
    (other _ (by simp) (by simp))
    (other _ (by simp) (by simp)) ?_ ?_
  · exact fun _ _ _ => pivot.commitUnissued early
  · exact fun captured => absurd captured (pivot.captureUnissued (.inl early))

theorem aftermath_deadline (pivot : Pivot state log tasks) (inv : Aftermath state log) :
    Aftermath (onDeadline state).state (log ++ entriesOf state (onDeadline state)) := by
  rcases onDeadline_cases state with ⟨-, fired⟩ | ⟨awaiting, fired⟩
  · rw [fired]
    exact aftermath_noop state log inv
  · rw [fired]
    exact aftermath_abandoned state log tasks _ _ .expired pivot inv awaiting (by simp) _ (by simp)

theorem aftermath_cancelled (requester : CancelBy) (pivot : Pivot state log tasks)
    (inv : Aftermath state log) : Aftermath (onCancelRequested state requester).state
      (log ++ ([.cancelAccepted] ++ entriesOf state (onCancelRequested state requester))) := by
  rcases onCancelRequested_cases state requester with ⟨-, fired⟩ | ⟨awaiting, fired⟩
  · rw [fired]
    exact aftermath_still state _ log _ inv rfl id (by simp)
  · rw [fired]
    exact aftermath_abandoned state log tasks _ _ .cancelled pivot inv awaiting (by simp) _
      (by simp)

end Transitions

theorem aftermath_fires (state : CheckoutSagaState) (log entries : List Entry)
    (tasks done : List SagaCommand) (transition : Transition) (pivot : Pivot state log tasks)
    (inv : Aftermath state log) (fires : Fires state done entries transition) :
    Aftermath transition.state (log ++ (entries ++ entriesOf state transition)) := by
  cases fires with
  | quiet => exact aftermath_noop state log inv
  | orderChanged change => exact aftermath_noop state log inv
  | tried outcome => exact aftermath_tried state log tasks outcome pivot inv
  | authorized authorization totalMinor currency =>
      exact aftermath_authorized state log tasks authorization totalMinor currency pivot inv
  | verified authorization verdict => exact aftermath_verified state log authorization verdict inv
  | committed outcome => exact aftermath_committed state log tasks outcome pivot inv
  | captured outcome => exact aftermath_captured state log outcome inv
  | compensated command => exact aftermath_compensated state log tasks command pivot inv
  | contextRead status => exact aftermath_context state log tasks status pivot inv
  | deadline => exact aftermath_deadline state log tasks pivot inv
  | cancelled requester => exact aftermath_cancelled state log tasks requester pivot inv

def RunAftermath (run : Run) : Prop := Aftermath run.saga run.log

theorem runAftermath_deliver (run : Run) (event : Event) (next : Run) (pivot : RunPivot run)
    (inv : RunAftermath run) (delivered : deliver run event = some next) : RunAftermath next := by
  obtain ⟨done, entries, transition, fires, applied⟩ := deliver_fires run next event delivered
  have moved := aftermath_fires run.saga run.log entries _ done transition pivot inv fires
  unfold RunAftermath
  rw [applied.saga, applied.log]
  exact moved

theorem runAftermath_initial (input : CheckoutSagaInput) (firstSeq : Nat) (nowMs : Int) :
    RunAftermath (checkoutSaga input firstSeq nowMs) := by
  unfold RunAftermath
  rw [saga_initial, log_initial]
  cases mode : input.mode <;> constructor <;> simp [initialCheckoutSagaState]

/-! ## Where the log's answers come from -/

/-- Only a verified authorization issues the stock commit. -/
theorem fires_commits {state : CheckoutSagaState} {done : List SagaCommand} {entries : List Entry}
    {transition : Transition} (fires : Fires state done entries transition)
    (commits : .commitStock ∈ transition.commands) :
    ∃ authorization, done = [.verifyAuthorization authorization] := by
  cases fires with
  | quiet => cases commits
  | orderChanged change => cases commits
  | verified authorization verdict => exact ⟨authorization, rfl⟩
  | tried outcome =>
      rcases onTryResult_cases state outcome with ⟨-, fired⟩ | ⟨-, -, fired⟩ | ⟨-, -, fired⟩ <;>
        simp [fired, noop, compensate] at commits
  | authorized authorization totalMinor currency =>
      rcases onAuthorized_cases state authorization totalMinor currency with
        ⟨verifying, voided, commands, fired, none | ⟨-, one⟩⟩ | ⟨-, -, fired⟩
      · simp [fired, none] at commits
      · simp [fired, one] at commits
      · simp [fired, compensate] at commits
  | committed outcome =>
      rcases onCommitResult_cases state outcome with ⟨-, fired⟩ | ⟨-, -, fired⟩ | ⟨-, -, fired⟩ <;>
        simp [fired, noop, compensate] at commits
  | captured outcome =>
      rcases onCaptureResult_cases state outcome with ⟨-, fired⟩ | ⟨-, -, fired⟩ | ⟨-, -, fired⟩ <;>
        simp [fired, noop, compensate] at commits
  | compensated command =>
      rcases onCompensationDone_cases state command.id with fired | ⟨-, pending, step, fired, -⟩ <;>
        simp [fired, noop] at commits
  | contextRead status =>
      rcases onLateAuthorizationContext_cases state status with
        fired | ⟨-, -, -, fired⟩ | ⟨-, -, -, fired⟩ <;> simp [fired, noop, compensate] at commits
  | deadline =>
      rcases onDeadline_cases state with ⟨-, fired⟩ | ⟨-, fired⟩ <;>
        simp [fired, noop, compensate] at commits
  | cancelled requester =>
      rcases onCancelRequested_cases state requester with ⟨-, fired⟩ | ⟨-, fired⟩ <;>
        simp [fired, noop, compensate] at commits

def Entry.reported : Entry → Bool
  | .issued .commitStock | .committed _ | .captured _ => true
  | _ => false

def Reports (activity : Activity) (result : ActivityResult) : Entry → Prop
  | .issued .commitStock =>
      (∃ authorization, activity = .verifyAuthorization authorization) ∧ result = .verdict .verified
  | .committed outcome => activity = .commitStock ∧ result = .committed outcome
  | .captured outcome => activity = .capturePayment ∧ result = .captured outcome
  | _ => False

theorem reported_entriesOf (state : CheckoutSagaState) (transition : Transition) (entry : Entry)
    (reported : entry.reported = true) (member : entry ∈ entriesOf state transition) :
    entry = .issued .commitStock ∧ .commitStock ∈ transition.commands := by
  cases entry with
  | issued command =>
      cases command with
      | commitStock => exact ⟨rfl, (issued_mem_entriesOf state transition _).mp member⟩
      | _ => cases reported
  | committed outcome => exact absurd member (committed_mem_entriesOf state transition outcome)
  | captured outcome => exact absurd member (captured_mem_entriesOf state transition outcome)
  | carries status => cases reported
  | cancelAccepted => cases reported

theorem settle_evidence (run settled : Run) (activity : Activity) (result : ActivityResult)
    (entry : Entry) (reported : entry.reported = true)
    (success : settle run activity result = some settled) (logged : entry ∈ settled.log) :
    entry ∈ run.log ∨ Reports activity result entry := by
  have foreign : ∀ (done : List SagaCommand) (entries : List Entry) (transition : Transition),
      Fires run.saga done entries transition →
      (∀ authorization, done ≠ [.verifyAuthorization authorization]) →
      entry ∉ entriesOf run.saga transition := by
    intro done entries transition fires other member
    obtain ⟨-, commits⟩ := reported_entriesOf run.saga transition entry reported member
    obtain ⟨authorization, same⟩ := fires_commits fires commits
    exact other authorization same
  unfold settle at success
  split at success
  case h_1 change written =>
    cases Option.some.inj success
    exact .inl logged
  case h_2 authorization verdict =>
    cases Option.some.inj success
    rw [apply_log, List.mem_append] at logged
    refine logged.imp id fun member => ?_
    obtain ⟨rfl, commits⟩ := reported_entriesOf run.saga _ entry reported member
    rcases onAuthorizationVerified_cases run.saga authorization verdict with
      ⟨verifying, fired, -⟩ | ⟨-, rfl, -⟩
    · simp [fired] at commits
    · exact ⟨⟨authorization, rfl⟩, rfl⟩
  case h_3 outcome =>
    cases Option.some.inj success
    rw [apply_log, record, List.mem_append, List.mem_append] at logged
    rcases logged with (old | new) | member
    · exact .inl old
    · cases List.mem_singleton.mp new
      exact .inr ⟨rfl, rfl⟩
    · exact absurd member (foreign _ _ _ (.committed outcome) (by simp))
  case h_4 outcome =>
    cases Option.some.inj success
    rw [apply_log, record, List.mem_append, List.mem_append] at logged
    rcases logged with (old | new) | member
    · exact .inl old
    · cases List.mem_singleton.mp new
      exact .inr ⟨rfl, rfl⟩
    · exact absurd member (foreign _ _ _ (.captured outcome) (by simp))
  case h_5 command =>
    cases Option.some.inj success
    rw [apply_log, List.mem_append] at logged
    exact .inl (logged.resolve_right (foreign _ _ _ (.compensated command) (by simp)))
  case h_6 status =>
    cases Option.some.inj success
    rw [apply_log, List.mem_append] at logged
    exact .inl (logged.resolve_right (foreign _ _ _ (.contextRead status) (by simp)))
  case h_7 => cases success

/-- A new entry of this kind was reported by the answer of a pending activity. -/
theorem deliver_evidence (run next : Run) (event : Event) (entry : Entry)
    (reported : entry.reported = true) (delivered : deliver run event = some next)
    (logged : entry ∈ next.log) :
    entry ∈ run.log ∨ ∃ seq result task rest, event = .answered seq result ∧
      takeTask seq run.pending = some (task, rest) ∧ Reports task.activity result entry := by
  cases event with
  | answered seq result =>
      simp only [deliver] at delivered
      split at delivered
      · cases delivered
      split at delivered
      · rename_i task rest taken
        obtain ⟨settled, success, rfl⟩ := Option.map_eq_some_iff.mp delivered
        rw [execute_log] at logged
        have evidence := settle_evidence _ settled task.activity result entry reported success
          logged
        exact evidence.imp id fun reports => ⟨seq, result, task, rest, rfl, taken, reports⟩
      · cases delivered
  | _ =>
      obtain ⟨entries, transition, fires, applied⟩ := deliver_reports run next _ delivered
      simp only [Saga.reported] at fires
      rw [applied.log, List.mem_append, List.mem_append] at logged
      rcases logged with old | new | member
      · exact .inl old
      · cases fires <;> simp [Entry.reported] at new reported
        rw [new] at reported
        cases reported
      · obtain ⟨-, commits⟩ := reported_entriesOf run.saga transition entry reported member
        obtain ⟨authorization, same⟩ := fires_commits fires commits
        cases same

end Commerce.Saga
