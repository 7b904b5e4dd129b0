import Commerce.Messaging.Delivery

/-!
# Replaying the dead letters

One run of the replay tool over a dead-letter queue that nothing else touches.
The run reads pages from a cursor that steps over the entries it leaves behind;
those it replays are gone from the queue by the time it reads the next page.
-/

set_option autoImplicit false

namespace Commerce.Messaging.Replaying

/-! ## Entries and answers -/

/-- A job of the dead-letter queue.  Nothing vets its data, so every field may be missing. -/
structure Entry where
  /-- The id BullMQ keeps the job under. -/
  id : String
  /-- `Object.keys(job.data)`. -/
  fields : List String
  /-- The number the text of `outboxId` spells, if it spells one. -/
  outboxId : Option Nat
  /-- Empty where the envelope names none. -/
  eventType : String
  occurredAt : String
  /-- `Date.parse(job.data.occurredAt)`. -/
  occurredAtMs : Option Int
  failedAt : String
  failedReason : String
  deriving DecidableEq, Repr

def isWellFormedEnvelope (job : Entry) : Bool :=
    job.outboxId.any isRoutableId && job.eventType != ""

def envelopeFields (job : Entry) : String :=
  if job.fields = [] then "none" else ",".intercalate job.fields

inductive Status where
  | replayed
  | skipped
  deriving DecidableEq, Repr

structure ReplayOutcome where
  messageId : String
  eventType : String
  status : Status
  detail : Option String
  failedReason : Option String
  deriving DecidableEq, Repr

structure Options where
  limit : Nat
  dryRun : Bool
  inboxRetentionMs : Int
  force : Bool

/-- What the inbox, the clock and the two queues answer about one message.  A call may throw; what
it throws is its message. -/
structure Answers where
  /-- When the queue's consumer applied the message, or nothing if it never did. -/
  inboxLookup : String → Except String (Option Int)
  /-- `Date.now()` as the message is judged. -/
  now : String → Int
  /-- `main.getJob`, and what the `remove` of the job it found answers. -/
  stale : String → Except String (Option (Except String Unit))
  add : String → Except String Unit
  /-- Whether `dlq.getJob` answers. -/
  reread : String → Except String Unit
  removeDead : String → Except String Unit
  toISOString : Int → String

/-- The dead-letter queue, oldest entry first, and the jobs put on the main queue.  The router adds
entries without a priority, so all of them are waiting. -/
structure Queues where
  deadLetters : List Entry
  added : List String
  deriving DecidableEq, Repr

def Queues.getJobs (queues : Queues) (start count : Nat) : List Entry :=
  (queues.deadLetters.drop start).take count

/-! ## One entry -/

def dryRunDetail : String := "dry run"

def startsWith (text opening : String) : Bool := opening.toList.isPrefixOf text.toList

section One

variable (answers : Answers) (options : Options)

def retentionDays : Int := (options.inboxRetentionMs + 43_200_000) / 86_400_000

def olderThanRetention (job : Entry) (messageId : String) : Bool :=
  match job.occurredAtMs with
  | none => true
  | some occurredAtMs => decide (options.inboxRetentionMs < answers.now messageId - occurredAtMs)

/-- `replayOne` from the main queue on: the failed job goes, the envelope is added, and the entry
goes if it is still the one that was read. -/
def requeue (queues : Queues) (job : Entry) (messageId jobId : String) (outcome : ReplayOutcome) :
    Except String ReplayOutcome × Queues :=
  match answers.stale jobId with
  | .error message => (.error message, queues)
  | .ok (some (.error message)) =>
      (.ok { outcome with detail := some ("main-queue job still held: " ++ message) }, queues)
  | .ok _ =>
      match answers.add messageId with
      | .error message => (.error message, queues)
      | .ok () =>
          let queues := { queues with added := queues.added ++ [jobId] }
          match answers.reread jobId with
          | .error message => (.error message, queues)
          | .ok () =>
              let current := queues.deadLetters.find? fun entry => entry.id == jobId
              if current.any fun entry => entry.failedAt == job.failedAt then
                match answers.removeDead jobId with
                | .error message => (.error message, queues)
                | .ok () =>
                    (.ok { outcome with status := .replayed },
                      { queues with
                        deadLetters := queues.deadLetters.filter fun entry => entry.id != jobId })
              else (.ok { outcome with status := .replayed }, queues)

def replayOne (queues : Queues) (job : Entry) : Except String ReplayOutcome × Queues :=
  match job.outboxId, isWellFormedEnvelope job with
  | some outboxId, true =>
      let messageId := toString outboxId
      let outcome : ReplayOutcome :=
        { messageId := messageId
          eventType := job.eventType
          status := .skipped
          detail := none
          failedReason := some job.failedReason }
      match answers.inboxLookup messageId with
      | .error message => (.error message, queues)
      | .ok (some appliedAt) =>
          (.ok { outcome with
            detail := some ("already applied at " ++ answers.toISOString appliedAt ++
              " — a replay would be a silent no-op (--force cannot override this)") }, queues)
      | .ok none =>
          let old := olderThanRetention answers options job messageId
          if old && !options.force then
            (.ok { outcome with
              detail := some ("occurred " ++ job.occurredAt ++ " (last failed " ++ job.failedAt ++
                "), older than the " ++ toString (retentionDays options) ++
                "-day inbox retention — a claim from back then would " ++
                "already have been swept, so \"no claim\" cannot be told apart from " ++
                "\"applied and forgotten\" and replaying may apply the effect twice. Re-run " ++
                "with --force if you have confirmed it was never applied") },
              queues)
          else if options.dryRun then
            (.ok { outcome with
              detail := some (if options.force && old then
                dryRunDetail ++ " (would be forced past the retention horizon)"
              else dryRunDetail) }, queues)
          else requeue answers queues job messageId (jobIdFor outboxId) outcome
  | _, _ =>
      (.ok
        { messageId := job.id
          eventType := "unknown"
          status := .skipped
          detail := some ("malformed envelope, not replayable (fields: " ++ envelopeFields job ++
            ") — inspect and delete it by hand")
          failedReason := none }, queues)

def caught (job : Entry) : Except String ReplayOutcome → ReplayOutcome
  | .ok outcome => outcome
  | .error message =>
      { messageId := (job.outboxId.map toString).getD job.id
        eventType := job.eventType
        status := .skipped
        detail := some message
        failedReason := none }

def attempt (queues : Queues) (job : Entry) : ReplayOutcome × Queues :=
  let (result, queues) := replayOne answers options queues job
  (caught job result, queues)

/-! ## The run -/

structure Pass where
  queues : Queues
  outcomes : List ReplayOutcome
  seen : List String
  cursor : Nat
  actionable : Nat
  deriving DecidableEq, Repr

/-- The body of the loop over a page; once the limit is reached the rest of the page is left. -/
def Pass.handle (pass : Pass) (job : Entry) : Pass :=
  if options.limit ≤ pass.actionable then pass
  else if job.id ∈ pass.seen then pass
  else
    let (outcome, queues) := attempt answers options pass.queues job
    let pass := { pass with
      queues
      outcomes := pass.outcomes ++ [outcome]
      seen := job.id :: pass.seen }
    if outcome.status = .replayed then { pass with actionable := pass.actionable + 1 }
    else if outcome.detail.any (startsWith · dryRunDetail) then
      { pass with cursor := pass.cursor + 1, actionable := pass.actionable + 1 }
    else { pass with cursor := pass.cursor + 1 }

/-- The `while` loop, for at most `fuel` pages. -/
def Pass.run : Nat → Pass → Option Pass
  | 0, _ => none
  | fuel + 1, pass =>
      if pass.actionable < options.limit then
        let page := pass.queues.getJobs pass.cursor options.limit
        let next := page.foldl (Pass.handle answers options) pass
        if page.length < options.limit ∨ next.outcomes.length = pass.outcomes.length then some next
        else Pass.run fuel next
      else some pass

def replayDeadLetters (fuel : Nat) (deadLetters : List Entry) : Option Pass :=
  Pass.run answers options fuel
    { queues := { deadLetters, added := [] }, outcomes := [], seen := [], cursor := 0
      actionable := 0 }

end One

/-! ## What one entry's turn does -/

section Turn

variable (answers : Answers) (options : Options)

def verdict (job : Entry) : ReplayOutcome :=
  (attempt answers options { deadLetters := [job], added := [] } job).1

def addedBy (job : Entry) : List String :=
  (attempt answers options { deadLetters := [job], added := [] } job).2.added

def stays (job : Entry) : Bool := decide ((verdict answers options job).status ≠ .replayed)

def acts (job : Entry) : Bool :=
  decide ((verdict answers options job).status = .replayed) ||
    (verdict answers options job).detail.any (startsWith · dryRunDetail)

/-- Every entry has a slot of its own, the one of its message where it names one. -/
structure Filed (deadLetters : List Entry) : Prop where
  distinct : (deadLetters.map Entry.id).Nodup
  slot : ∀ job ∈ deadLetters, isWellFormedEnvelope job = true →
    ∀ outboxId, job.outboxId = some outboxId → job.id = jobIdFor outboxId

theorem find_entry (deadLetters : List Entry) (job : Entry)
    (distinct : (deadLetters.map Entry.id).Nodup) (member : job ∈ deadLetters) :
    deadLetters.find? (fun entry => entry.id == job.id) = some job := by
  induction deadLetters with
  | nil => cases member
  | cons first others ih =>
      rw [List.map_cons, List.nodup_cons] at distinct
      rcases List.mem_cons.mp member with rfl | later
      · exact List.find?_cons_of_pos (by simp)
      · have different : first.id ≠ job.id := by
          intro same
          exact distinct.1 (same ▸ List.mem_map_of_mem later)
        rw [List.find?_cons_of_neg (by simpa using different)]
        exact ih distinct.2 later

def Queues.after (queues : Queues) (job : Entry) : Queues where
  deadLetters :=
    if (verdict answers options job).status = .replayed then
      queues.deadLetters.filter fun entry => entry.id != job.id
    else queues.deadLetters
  added := queues.added ++ addedBy answers options job

/-- A turn answers for the entry alone, and takes nothing else out of the queue. -/
structure Alike (queues : Queues) (job : Entry)
    (result alone : Except String ReplayOutcome × Queues) : Prop where
  outcome : result.1 = alone.1
  added : result.2.added = queues.added ++ alone.2.added
  deadLetters : result.2.deadLetters =
    if result.1.toOption.any fun outcome => outcome.status == .replayed then
      queues.deadLetters.filter fun entry => entry.id != job.id
    else queues.deadLetters

theorem alike_skipped (queues : Queues) (job : Entry) (answer : Except String ReplayOutcome)
    (skipped : answer.toOption.any (fun outcome => outcome.status == .replayed) = false) :
    Alike queues job (answer, queues) (answer, { deadLetters := [job], added := [] }) where
  outcome := rfl
  added := (List.append_nil _).symm
  deadLetters := by
    rw [if_neg (by simp [skipped])]

theorem requeue_alike (queues : Queues) (job : Entry) (messageId : String)
    (outcome : ReplayOutcome) (filed : (queues.deadLetters.map Entry.id).Nodup)
    (member : job ∈ queues.deadLetters) (skipped : outcome.status = .skipped) :
    Alike queues job (requeue answers queues job messageId job.id outcome)
      (requeue answers { deadLetters := [job], added := [] } job messageId job.id outcome) := by
  have here := find_entry queues.deadLetters job filed member
  have single : [job].find? (fun entry => entry.id == job.id) = some job :=
    List.find?_cons_of_pos (by simp)
  simp only [requeue]
  split
  · exact alike_skipped queues job _ rfl
  · exact alike_skipped queues job _ (by simp [Except.toOption, skipped])
  · split
    · exact alike_skipped queues job _ rfl
    · split
      · exact ⟨rfl, rfl, by simp [Except.toOption]⟩
      · simp only [here, single, Option.any_some, beq_self_eq_true, if_true]
        split
        · exact ⟨rfl, rfl, by simp [Except.toOption]⟩
        · exact ⟨rfl, rfl, by simp [Except.toOption]⟩

theorem replayOne_alike (queues : Queues) (job : Entry) (filed : Filed queues.deadLetters)
    (member : job ∈ queues.deadLetters) :
    Alike queues job (replayOne answers options queues job)
      (replayOne answers options { deadLetters := [job], added := [] } job) := by
  simp only [replayOne]
  split
  · rename_i outboxId named wellFormed
    split
    · exact alike_skipped queues job _ rfl
    · exact alike_skipped queues job _ (by simp [Except.toOption])
    · split
      · exact alike_skipped queues job _ (by simp [Except.toOption])
      · split
        · exact alike_skipped queues job _ (by simp [Except.toOption])
        · rw [← filed.slot job member wellFormed outboxId named]
          exact requeue_alike answers queues job _ _ filed.distinct member rfl
  · exact alike_skipped queues job _ (by simp [Except.toOption])

theorem attempt_eq (queues : Queues) (job : Entry) (filed : Filed queues.deadLetters)
    (member : job ∈ queues.deadLetters) :
    attempt answers options queues job =
      (verdict answers options job, queues.after answers options job) := by
  obtain ⟨outcome, added, deadLetters⟩ := replayOne_alike answers options queues job filed member
  have replayed : (caught job (replayOne answers options queues job).1).status = .replayed ↔
      ((replayOne answers options queues job).1.toOption.any
        fun outcome => outcome.status == .replayed) = true := by
    cases (replayOne answers options queues job).1 <;> simp [caught, Except.toOption]
  simp only [attempt, Queues.after, verdict, addedBy, ← outcome, ← added, replayed, ← deadLetters]

/-! ## What the run has done -/

/-- The run has taken the turns of the entries before the rest, and the rest is as it was. -/
structure Books (pass : Pass) (visited rest : List Entry) : Prop where
  filed : Filed (visited ++ rest)
  outcomes : pass.outcomes = visited.map (verdict answers options)
  deadLetters : pass.queues.deadLetters = visited.filter (stays answers options) ++ rest
  added : pass.queues.added = visited.flatMap (addedBy answers options)
  seen : ∀ id, id ∈ pass.seen ↔ id ∈ visited.map Entry.id
  cursor : pass.cursor = (visited.filter (stays answers options)).length
  actionable : pass.actionable = visited.countP (acts answers options)
  bounded : pass.actionable ≤ options.limit

variable {answers options} {pass : Pass} {visited rest : List Entry} {job : Entry}

theorem Books.unseen (books : Books answers options pass visited (job :: rest)) :
    job.id ∉ pass.seen := by
  intro seen
  have distinct := books.filed.distinct
  rw [List.map_append, List.nodup_append] at distinct
  exact distinct.2.2 job.id ((books.seen job.id).mp seen) job.id (by simp) rfl

theorem Books.filedNow (books : Books answers options pass visited rest) :
    Filed pass.queues.deadLetters := by
  have kept : (visited.filter (stays answers options) ++ rest).Sublist (visited ++ rest) :=
    List.filter_sublist.append_right rest
  rw [books.deadLetters]
  exact ⟨books.filed.distinct.sublist (kept.map _),
    fun job member => books.filed.slot job (kept.subset member)⟩

theorem Books.removed (books : Books answers options pass visited (job :: rest)) :
    (visited.filter (stays answers options) ++ job :: rest).filter
    (fun entry => entry.id != job.id) =
      visited.filter (stays answers options) ++ rest := by
  have distinct := books.filedNow.distinct
  rw [books.deadLetters, List.map_append, List.map_cons, List.nodup_append, List.nodup_cons]
    at distinct
  obtain ⟨-, ⟨later, -⟩, earlier⟩ := distinct
  rw [List.filter_append, List.filter_cons_of_neg (by simp)]
  congr 1
  · refine List.filter_eq_self.mpr fun entry member => ?_
    have apart := earlier entry.id (List.mem_map_of_mem member) job.id List.mem_cons_self
    simpa using apart
  · refine List.filter_eq_self.mpr fun entry member => ?_
    have apart : entry.id ≠ job.id := fun same => later (same ▸ List.mem_map_of_mem member)
    simpa using apart

theorem Books.handle (books : Books answers options pass visited (job :: rest))
    (room : pass.actionable < options.limit) :
    Books answers options (pass.handle answers options job) (visited ++ [job]) rest := by
  have member : job ∈ pass.queues.deadLetters := by
    rw [books.deadLetters]
    exact List.mem_append_right _ List.mem_cons_self
  have turn := attempt_eq answers options pass.queues job books.filedNow member
  have filed : Filed (visited ++ [job] ++ rest) := by
    rw [List.append_assoc]
    exact books.filed
  have seen : ∀ id, id ∈ job.id :: pass.seen ↔ id ∈ (visited ++ [job]).map Entry.id := by
    intro id
    rw [List.mem_cons, books.seen, List.map_append, List.mem_append]
    simp [or_comm]
  have added : (visited ++ [job]).flatMap (addedBy answers options) =
      pass.queues.added ++ addedBy answers options job := by
    rw [books.added]
    simp
  rw [Pass.handle, if_neg (by omega), if_neg books.unseen, turn]
  dsimp only
  split
  · rename_i replayed
    have gone : stays answers options job = false := by simp [stays, replayed]
    have acted : acts answers options job = true := by simp [acts, replayed]
    refine ⟨filed, ?_, ?_, added.symm, seen, ?_, ?_, room⟩
    · simp [books.outcomes]
    · rw [Queues.after, if_pos replayed, books.deadLetters, books.removed]
      simp [gone]
    · simp [books.cursor, gone]
    · simp [books.actionable, List.countP_append, acted]
  · rename_i skipped
    have here : stays answers options job = true := by simp [stays, skipped]
    have letters : (pass.queues.after answers options job).deadLetters =
        (visited ++ [job]).filter (stays answers options) ++ rest := by
      rw [Queues.after, if_neg skipped, books.deadLetters]
      simp [here]
    split
    · rename_i listed
      have acted : acts answers options job = true := by simp [acts, listed]
      refine ⟨filed, ?_, letters, added.symm, seen, ?_, ?_, room⟩
      · simp [books.outcomes]
      · simp [books.cursor, here]
      · simp [books.actionable, List.countP_append, acted]
    · rename_i unlisted
      have idle : acts answers options job = false := by
        rw [acts, Bool.or_eq_false_iff]
        exact ⟨by simpa using skipped, by simpa using unlisted⟩
      refine ⟨filed, ?_, letters, added.symm, seen, ?_, ?_, Nat.le_of_lt room⟩
      · simp [books.outcomes]
      · simp [books.cursor, here]
      · simp [books.actionable, List.countP_append, idle]

theorem Books.page (page beyond : List Entry)
    (books : Books answers options pass visited (page ++ beyond)) :
    ∃ done left, page = done ++ left ∧
      Books answers options (page.foldl (Pass.handle answers options) pass) (visited ++ done)
        (left ++ beyond) ∧
      (left = [] ∨
        options.limit ≤ (page.foldl (Pass.handle answers options) pass).actionable) ∧
      (pass.actionable < options.limit → page ≠ [] → done ≠ []) := by
  induction page generalizing pass visited with
  | nil => exact ⟨[], [], rfl, by simpa using books, .inl rfl, fun _ empty => absurd rfl empty⟩
  | cons job page ih =>
      by_cases room : pass.actionable < options.limit
      · obtain ⟨done, left, split, after, stop, -⟩ := ih (Books.handle books room)
        refine ⟨job :: done, left, by rw [split, List.cons_append], ?_, stop, fun _ _ => by simp⟩
        simpa using after
      · have idle : pass.handle answers options job = pass := by
          rw [Pass.handle, if_pos (by omega)]
        have full : ∀ page : List Entry, page.foldl (Pass.handle answers options) pass = pass := by
          intro page
          induction page with
          | nil => rfl
          | cons other page rest =>
              rw [List.foldl_cons, Pass.handle, if_pos (by omega)]
              exact rest
        refine ⟨[], job :: page, rfl, ?_, .inr ?_, fun less => absurd less room⟩
        · rw [full]
          simpa using books
        · rw [full]
          omega

/-- The run ends, at the end of the queue or at its limit. -/
theorem Books.run (fuel : Nat) (books : Books answers options pass visited rest)
    (positive : 0 < options.limit) (enough : rest.length < fuel) :
    ∃ final done left, pass.run answers options fuel = some final ∧ rest = done ++ left ∧
      Books answers options final (visited ++ done) left ∧
      (left = [] ∨ options.limit ≤ final.actionable) := by
  induction fuel generalizing pass visited rest with
  | zero => omega
  | succ fuel ih =>
      rw [Pass.run]
      split
      · rename_i room
        have shown : pass.queues.getJobs pass.cursor options.limit = rest.take options.limit := by
          rw [Queues.getJobs, books.deadLetters, books.cursor, List.drop_left]
        rw [shown]
        dsimp only
        have whole := books
        rw [← List.take_append_drop options.limit rest] at whole
        obtain ⟨done, left, cut, after, stop, moved⟩ := whole.page
        split
        · rename_i last
          refine ⟨_, done, left ++ rest.drop options.limit, rfl, ?_, after, ?_⟩
          · rw [← List.append_assoc, ← cut, List.take_append_drop]
          · rcases stop with rfl | full
            · left
              rcases last with short | same
              · have short : rest.length ≤ options.limit := by
                  rw [List.length_take] at short
                  omega
                rw [List.drop_eq_nil_of_le short]
                rfl
              · -- Nothing on the page had a turn, so the page was empty.
                rw [after.outcomes, books.outcomes, List.length_map, List.length_map,
                  List.length_append, Nat.add_eq_left, List.length_eq_zero_iff] at same
                have empty : rest.take options.limit = [] := by
                  by_contra page
                  exact moved room page same
                rw [List.take_eq_nil_iff] at empty
                rcases empty with none | rfl
                · omega
                · simp
            · exact .inr full
        · rename_i more
          have page : rest.take options.limit ≠ [] := by
            intro empty
            rw [empty] at more
            exact more (.inl positive)
          have progress := List.length_pos_iff.mpr (moved room page)
          have shorter : (left ++ rest.drop options.limit).length < fuel := by
            have total : rest.length = done.length + left.length +
                (rest.drop options.limit).length := by
              rw [← List.length_append, ← cut, ← List.length_append, List.take_append_drop]
            rw [List.length_append]
            omega
          obtain ⟨final, later, behind, ran, parts, books, ended⟩ := ih after shorter
          refine ⟨final, done ++ later, behind, ran, ?_, by rwa [← List.append_assoc], ended⟩
          rw [List.append_assoc, ← parts, ← List.append_assoc, ← cut, List.take_append_drop]
      · rename_i full
        exact ⟨pass, [], rest, rfl, rfl, by simpa using books, .inr (by omega)⟩

end Turn

/-! ## What can be replayed -/

section Replayable

variable (answers : Answers) (options : Options)

def Answers.letThrough (messageId jobId : String) : Bool :=
  (match answers.stale jobId with
    | .ok none | .ok (some (.ok ())) => true
    | _ => false) &&
  (answers.add messageId).isOk && (answers.reread jobId).isOk && (answers.removeDead jobId).isOk

/-- The entry names a message never applied, young enough or forced; on a real run the queues let
it through too. -/
def replayable (job : Entry) : Bool :=
  isWellFormedEnvelope job && job.outboxId.any fun outboxId =>
    (match answers.inboxLookup (toString outboxId) with
      | .ok none => true
      | _ => false) &&
    (!olderThanRetention answers options job (toString outboxId) || options.force) &&
    (options.dryRun || answers.letThrough (toString outboxId) (jobIdFor outboxId))

/-- No client of the run throws a message that opens like a preview. -/
structure Answers.Plain : Prop where
  inboxLookup : ∀ id message, answers.inboxLookup id = .error message →
    startsWith message dryRunDetail = false
  stale : ∀ id message, answers.stale id = .error message → startsWith message dryRunDetail = false
  add : ∀ id message, answers.add id = .error message → startsWith message dryRunDetail = false
  reread : ∀ id message, answers.reread id = .error message →
    startsWith message dryRunDetail = false
  removeDead : ∀ id message, answers.removeDead id = .error message →
    startsWith message dryRunDetail = false

theorem startsWith_append (first rest : String) (char : Char) (chars : List Char)
    (spelled : first.toList = char :: chars) (other : char ≠ 'd') :
    startsWith (first ++ rest) dryRunDetail = false := by
  simp [startsWith, dryRunDetail, spelled, List.isPrefixOf, other.symm]

structure Turned (job : Entry) (result : Except String ReplayOutcome) (added : List String) :
    Prop where
  acts : (decide ((caught job result).status = .replayed) ||
    (caught job result).detail.any (startsWith · dryRunDetail)) = replayable answers options job
  dry : options.dryRun = true → added = [] ∧ (caught job result).status = .skipped
  real : options.dryRun = false →
    (∀ id, (answers.reread id).isOk = true ∧ (answers.removeDead id).isOk = true) →
    added = if replayable answers options job then [job.id] else []

variable {answers options} {job : Entry}

theorem Turned.idle {result : Except String ReplayOutcome}
    (skipped : (caught job result).status = .skipped)
    (unlisted : (caught job result).detail.any (startsWith · dryRunDetail) = false)
    (kept : replayable answers options job = false) : Turned answers options job result [] where
  acts := by simp [skipped, unlisted, kept]
  dry _ := ⟨rfl, skipped⟩
  real _ _ := by simp [kept]

theorem requeue_turned (plain : answers.Plain) (messageId : String) (outcome : ReplayOutcome)
    (fresh : outcome.status = .skipped ∧ outcome.detail = none) (real : options.dryRun = false)
    (judged : replayable answers options job = answers.letThrough messageId job.id) :
    let turn := requeue answers { deadLetters := [job], added := [] } job messageId job.id outcome
    Turned answers options job turn.1 turn.2.added := by
  have single : [job].find? (fun entry => entry.id == job.id) = some job :=
    List.find?_cons_of_pos (by simp)
  rw [Answers.letThrough] at judged
  simp only [requeue]
  split
  · rename_i message threw
    exact .idle rfl (by simp [caught, plain.stale _ _ threw]) (by simp [judged, threw])
  · rename_i message held
    have other := startsWith_append "main-queue job still held: " message 'm' _ rfl (by decide)
    exact .idle fresh.1 (by simp [caught, other]) (by simp [judged, held])
  · rename_i found unheld answered
    have free : (match answers.stale job.id with
        | .ok none | .ok (some (.ok ())) => true
        | _ => false) = true := by
      rw [answered]
      cases found with
      | none => rfl
      | some removed =>
          cases removed with
          | error message => exact (unheld message rfl).elim
          | ok done => rfl
    rw [free, Bool.true_and] at judged
    split
    · rename_i message threw
      exact .idle rfl (by simp [caught, plain.add _ _ threw])
        (by simp [judged, threw, Except.isOk, Except.toBool])
    · rename_i added
      have dry : options.dryRun ≠ true := by simp [real]
      split
      · rename_i message threw
        refine ⟨?_, fun listed => absurd listed dry, fun _ quiet => ?_⟩
        · simp [caught, judged, threw, plain.reread _ _ threw, Except.isOk, Except.toBool]
        · have answer := (quiet job.id).1
          simp [threw, Except.isOk, Except.toBool] at answer
      · rename_i reread
        simp only [single, Option.any_some, beq_self_eq_true, if_true]
        split
        · rename_i message threw
          refine ⟨?_, fun listed => absurd listed dry, fun _ quiet => ?_⟩
          · simp [caught, judged, threw, plain.removeDead _ _ threw, Except.isOk, Except.toBool]
          · have answer := (quiet job.id).2
            simp [threw, Except.isOk, Except.toBool] at answer
        · rename_i removed
          have through : replayable answers options job = true := by
            simp [judged, added, reread, removed, Except.isOk, Except.toBool]
          exact ⟨by simp [caught, through], fun listed => absurd listed dry,
            fun _ _ => by simp [through]⟩

/-- The turns that act are those of the entries that can be replayed. -/
theorem replayOne_turned (plain : answers.Plain)
    (slot : isWellFormedEnvelope job = true → ∀ outboxId, job.outboxId = some outboxId →
      job.id = jobIdFor outboxId) :
    let turn := replayOne answers options { deadLetters := [job], added := [] } job
    Turned answers options job turn.1 turn.2.added := by
  simp only [replayOne]
  split
  · rename_i outboxId named wellFormed
    have spelled : replayable answers options job =
        ((match answers.inboxLookup (toString outboxId) with
          | .ok none => true
          | _ => false) &&
        (!olderThanRetention answers options job (toString outboxId) || options.force) &&
        (options.dryRun || answers.letThrough (toString outboxId) job.id)) := by
      rw [replayable, wellFormed, named, slot wellFormed outboxId named]
      rfl
    rw [← slot wellFormed outboxId named]
    generalize toString outboxId = messageId at spelled ⊢
    split
    · rename_i message threw
      exact .idle rfl (by simp [caught, plain.inboxLookup _ _ threw]) (by simp [spelled, threw])
    · rename_i appliedAt claimed
      have other := startsWith_append "already applied at " (answers.toISOString appliedAt ++
        " — a replay would be a silent no-op (--force cannot override this)") 'a' _ rfl (by decide)
      rw [← String.append_assoc] at other
      exact .idle rfl (by simp [caught, other]) (by simp [spelled, claimed])
    · rename_i unclaimed
      rw [unclaimed, Bool.true_and] at spelled
      split
      · rename_i refused
        have other := startsWith_append "occurred " (job.occurredAt ++ " (last failed " ++
          job.failedAt ++ "), older than the " ++ toString (retentionDays options) ++
          "-day inbox retention — a claim from back then would " ++
          "already have been swept, so \"no claim\" cannot be told apart from " ++
          "\"applied and forgotten\" and replaying may apply the effect twice. Re-run " ++
          "with --force if you have confirmed it was never applied")
          'o' _ rfl (by decide)
        simp only [← String.append_assoc] at other
        refine .idle rfl (by simp only [caught, Option.any_some]; exact other) ?_
        simp_all
      · rename_i accepted
        have young : (!olderThanRetention answers options job messageId || options.force) =
            true := by
          cases old : olderThanRetention answers options job messageId <;>
            cases forced : options.force <;> simp_all
        rw [young, Bool.true_and] at spelled
        split
        · rename_i dry
          have listed (old : Prop) [Decidable old] : startsWith
              (if old then dryRunDetail ++ " (would be forced past the retention horizon)"
                else dryRunDetail) dryRunDetail = true := by
            split <;> simp [startsWith]
          rw [dry, Bool.true_or] at spelled
          refine ⟨?_, fun _ => ⟨rfl, rfl⟩, fun real => ?_⟩
          · simp [caught, spelled, listed]
          · rw [dry] at real
            cases real
        · rename_i real
          have real : options.dryRun = false := by simpa using real
          rw [real, Bool.false_or] at spelled
          exact requeue_turned plain messageId _ ⟨rfl, rfl⟩ real spelled
  · rename_i malformed
    have other := startsWith_append "malformed envelope, not replayable (fields: "
      (envelopeFields job ++ ") — inspect and delete it by hand") 'm' _ rfl (by decide)
    rw [← String.append_assoc] at other
    refine .idle rfl (by simp [caught, other]) ?_
    cases named : job.outboxId with
    | none => simp [replayable, named]
    | some outboxId =>
        have broken : isWellFormedEnvelope job ≠ true := fun well => malformed outboxId named well
        simp [replayable, broken]

theorem flatMap_chosen (jobs : List Entry) (adds : Entry → List String) (chosen : Entry → Bool)
    (each : ∀ job ∈ jobs, adds job = if chosen job then [job.id] else []) :
    jobs.flatMap adds = (jobs.filter chosen).map Entry.id := by
  induction jobs with
  | nil => rfl
  | cons job jobs ih =>
      have later := ih fun other member => each other (List.mem_cons_of_mem _ member)
      rw [List.flatMap_cons, each job List.mem_cons_self, later]
      cases picked : chosen job <;> simp [picked]

/-- More pages than the run reads change nothing. -/
theorem Pass.run_more (fuel more : Nat) (pass final : Pass)
    (ran : pass.run answers options fuel = some final) :
    pass.run answers options (fuel + more) = some final := by
  induction fuel generalizing pass with
  | zero => cases ran
  | succ fuel ih =>
      rw [Nat.add_right_comm]
      rw [Pass.run] at ran ⊢
      split at ran
      · rename_i room
        rw [if_pos room]
        dsimp only at ran ⊢
        split at ran
        · rename_i last
          rw [if_pos last]
          exact ran
        · rename_i onward
          rw [if_neg onward]
          exact ih _ ran
      · rename_i full
        rw [if_neg full]
        exact ran

/-- One run over a queue nothing else touches: it ends, it takes the entries in the queue's order,
each once, it acts on as many of those that can be replayed as there are up to the limit, and it
leaves the rest of the queue and every entry it did not replay. -/
theorem replay_exact (deadLetters : List Entry) (filed : Filed deadLetters) (plain : answers.Plain)
    (positive : 0 < options.limit) :
    ∃ final visited rest,
      (∀ fuel, deadLetters.length < fuel →
        replayDeadLetters answers options fuel deadLetters = some final) ∧
      deadLetters = visited ++ rest ∧
      final.outcomes = visited.map (verdict answers options) ∧
      (∀ job ∈ visited, acts answers options job = replayable answers options job) ∧
      visited.countP (acts answers options) =
        min options.limit (deadLetters.countP (replayable answers options)) ∧
      final.queues.deadLetters = visited.filter (stays answers options) ++ rest ∧
      (options.dryRun = true → final.queues = { deadLetters, added := [] }) ∧
      (options.dryRun = false →
        (∀ id, (answers.reread id).isOk = true ∧ (answers.removeDead id).isOk = true) →
        final.queues.added = (visited.filter (replayable answers options)).map Entry.id) := by
  have start : Books answers options
      { queues := { deadLetters, added := [] }, outcomes := [], seen := [], cursor := 0,
        actionable := 0 } [] deadLetters :=
    ⟨filed, rfl, rfl, rfl, fun id => Iff.rfl, rfl, rfl, Nat.zero_le _⟩
  obtain ⟨final, visited, rest, ran, split, books, ended⟩ :=
    start.run (deadLetters.length + 1) positive (Nat.lt_succ_self _)
  rw [List.nil_append] at books
  have turned (job : Entry) (member : job ∈ deadLetters) :=
    @replayOne_turned answers options job plain (filed.slot job member)
  have acted : ∀ job ∈ deadLetters, acts answers options job = replayable answers options job :=
    fun job member => (turned job member).acts
  have inside : ∀ job ∈ visited, job ∈ deadLetters := fun job member => by
    rw [split]
    exact List.mem_append_left _ member
  refine ⟨final, visited, rest, ?_, split, books.outcomes, ?_, ?_, books.deadLetters, ?_, ?_⟩
  · intro fuel enough
    obtain ⟨more, rfl⟩ := Nat.exists_eq_add_of_le (Nat.succ_le_of_lt enough)
    exact Pass.run_more _ more _ final ran
  · exact fun job member => acted job (inside job member)
  · have total : deadLetters.countP (replayable answers options) =
        visited.countP (acts answers options) + rest.countP (acts answers options) := by
      rw [← List.countP_append, ← split]
      exact (List.countP_congr fun job member => by rw [acted job member]).symm
    have bounded := books.bounded
    have counted := books.actionable
    rcases ended with rfl | full
    · rw [List.countP_nil] at total
      omega
    · omega
  · intro dry
    have idle (job : Entry) (member : job ∈ visited) := (turned job (inside job member)).dry dry
    have kept : visited.filter (stays answers options) = visited := by
      refine List.filter_eq_self.mpr fun job member => ?_
      have skipped := (idle job member).2
      simp only [stays, verdict, attempt, skipped]
      decide
    have none : visited.flatMap (addedBy answers options) = [] :=
      List.flatMap_eq_nil_iff.mpr fun job member => (idle job member).1
    have letters := books.deadLetters
    have added := books.added
    rw [kept, ← split] at letters
    rw [none] at added
    cases final with
    | mk queues =>
        cases queues
        simp only at letters added
        subst letters added
        rfl
  · intro real quiet
    rw [books.added]
    exact flatMap_chosen visited _ _ fun job member =>
      (turned job (inside job member)).real real quiet

def parkedEvent (outboxId : Nat) : Entry where
  id := jobIdFor outboxId
  fields := ["outboxId", "eventType", "occurredAt", "failedReason", "failedAt"]
  outboxId := some outboxId
  eventType := "payment.captured"
  occurredAt := "1970-01-01T00:00:00.000Z"
  occurredAtMs := some 0
  failedAt := "1970-01-01T00:00:01.000Z"
  failedReason := "handler failed"

def twoApplied : Answers where
  inboxLookup id := .ok (if id = toString 300020 ∨ id = toString 300021 then some 500 else none)
  now _ := 1000
  stale _ := .ok none
  add _ := .ok ()
  reread _ := .ok ()
  removeDead _ := .ok ()
  toISOString _ := "1970-01-01T00:00:00.500Z"

def realRun : Options where
  limit := 2
  dryRun := false
  inboxRetentionMs := 30 * 86_400_000
  force := false

/-- The replayable entries behind a page of skipped ones are reached. -/
theorem replay_exact_behind_skipped :
    ∃ final visited rest,
      replayDeadLetters twoApplied realRun 5 ([300020, 300021, 300022, 300023].map parkedEvent) =
        some final ∧
      [300020, 300021, 300022, 300023].map parkedEvent = visited ++ rest ∧
      visited.countP (acts twoApplied realRun) = 2 ∧
      final.queues.added = (visited.filter (replayable twoApplied realRun)).map Entry.id := by
  have slots : ∀ job ∈ [300020, 300021, 300022, 300023].map parkedEvent,
      isWellFormedEnvelope job = true →
      ∀ outboxId, job.outboxId = some outboxId → job.id = jobIdFor outboxId := by
    intro job member _ outboxId named
    obtain ⟨spelled, -, rfl⟩ := List.mem_map.mp member
    cases named
    rfl
  have plain : twoApplied.Plain := by
    constructor <;> intro id message threw <;> cases threw
  obtain ⟨final, visited, rest, ran, split, -, -, acted, -, -, added⟩ :=
    @replay_exact twoApplied realRun ([300020, 300021, 300022, 300023].map parkedEvent)
      ⟨by decide +kernel, slots⟩ plain (by decide)
  refine ⟨final, visited, rest, ran 5 (by decide), split, acted.trans ?_,
    added rfl fun _ => ⟨rfl, rfl⟩⟩
  decide +kernel

end Replayable

end Commerce.Messaging.Replaying
