import Commerce.Catalog.Books

/-!
# Reads after writes

A request that reads the generation after a write has returned finds it past
the bump of that write.  Whatever it then answers with, its own read, a shared
one, a stored one or a stale one, was read under that generation, after the
commit.
-/

set_option autoImplicit false

namespace Commerce.Catalog

open Runs

variable {α : Type} {hashing : Hashing}

/-! ## Shared reads -/

theorem readAt_le_commits (world : World α) (books : Books hashing world) (key : String) :
    Reflects hashing world key world.commits := by
  intro version query _ bump listed _
  exact (books.bumps bump listed).2

theorem setRead_kept (world : World α) (books : Books hashing world) (read : Nat)
    (shared : SharedRead α) (status : ReadStatus α) (found : world.reads read = some shared)
    (reflects : ∀ readAt, status.readAt = some readAt → Reflects hashing world shared.key readAt)
    (localReads : Nat → String → Option Nat)
    (fewer : ∀ server key id, localReads server key = some id →
      world.localReads server key = some id) :
    Kept hashing world { world with
      reads := Function.update world.reads read (some { shared with status := status })
      localReads := localReads } := by
  have here : Function.update world.reads read (some { shared with status := status }) read =
      some { shared with status := status } := Function.update_self _ _ _
  have later : Later world { world with
      reads := Function.update world.reads read (some { shared with status := status })
      localReads := localReads } := by
    refine ⟨Nat.le_refl _, Nat.le_refl _, fun _ listed => listed, fun _ listed => .inl listed, ?_⟩
    intro other before present
    by_cases same : other = read
    · cases same
      rw [found] at present
      cases present
      exact ⟨_, here, rfl⟩
    · exact ⟨before, (Function.update_of_ne same _ _).trans present, rfl⟩
  refine ⟨⟨books.counterKey, books.bumps, books.entries, ?_, ?_, ?_, books.returned, books.answers⟩,
    later, rfl⟩
  · intro other present there
    by_cases same : other = read
    · cases same
      dsimp only at there
      rw [here] at there
      cases there
      exact ⟨(books.reads read shared found).1, reflects⟩
    · exact books.reads other present ((Function.update_of_ne same _ _).symm.trans there)
  · intro other beyond
    have absent := books.fresh other beyond
    have apart : other ≠ read := by
      rintro rfl
      rw [absent] at found
      cases found
    exact (Function.update_of_ne apart _ _).trans absent
  · intro server key id running
    obtain ⟨present, there, sameKey⟩ := books.localReads server key id (fewer server key id running)
    obtain ⟨still, now, kept⟩ := later.reads id present there
    exact ⟨still, now, kept.trans sameKey⟩

theorem progress_kept (world next : World α) (books : Books hashing world) (read : Nat)
    (shared : SharedRead α) (choice : Choice α) (found : world.reads read = some shared)
    (moved : world.progress read shared choice = some next) : Kept hashing world next := by
  obtain ⟨dated, current⟩ := books.reads read shared found
  simp only [World.progress] at moved
  split at moved
  · cases moved
    refine setRead_kept world books read shared _ found ?_ _ (fun _ _ _ same => same)
    intro readAt begins
    cases begins
    exact readAt_le_commits world books shared.key
  · rename_i readAt status
    cases moved
    refine setRead_kept world books read shared _ found ?_ _ (fun _ _ _ same => same)
    intro settledAt settled
    have same : settledAt = readAt := by
      dsimp only [ReadStatus.readAt] at settled
      split at settled
      · cases settled
      · exact (Option.some.inj settled).symm
    rw [same]
    exact current readAt (by rw [status]; rfl)
  · rename_i result status
    cases moved
    refine setRead_kept world books read shared (.closed result) found ?_ _ ?_
    · intro readAt closed
      exact current readAt (by rw [status]; exact closed)
    · intro server key id running
      by_cases sameServer : server = shared.server
      · cases sameServer
        rw [Function.update_self] at running
        by_cases sameKey : key = shared.key
        · cases sameKey
          rw [Function.update_self] at running
          cases running
        · rwa [Function.update_of_ne sameKey] at running
      · rwa [Function.update_of_ne sameServer] at running
  · cases moved

/-! ## Requests -/

/-- What the phase of a request says about its key and what it carries. -/
def Holds (hashing : Hashing) (world : World α) (after : List Nat) : Phase α → Prop
  | .readingCounter => ∀ commit ∈ after, ∃ bump ∈ world.bumps, bump.commit = commit
  | .lookingUp key | .acquiring key | .rechecking key _ | .sharing key _ | .waiting key _
  | .checkingHolder key _ => Dated hashing world key ∧ Follows hashing world after key
  | .awaiting key read _ => (Dated hashing world key ∧ Follows hashing world after key) ∧
      ∃ shared, world.reads read = some shared ∧ shared.key = key
  | .refreshing key | .refreshRechecking key _ | .rebuilding key _ => Dated hashing world key
  | .fetching key _ readAt => Dated hashing world key ∧ Reflects hashing world key readAt
  | .storing key _ _ readAt answers =>
      (Dated hashing world key ∧ Reflects hashing world key readAt) ∧
        (answers = true → ∀ commit ∈ after, commit ≤ readAt)
  | .releasing key _ answer => Dated hashing world key ∧
      ∀ read, answer = some read → ∀ commit ∈ after, commit ≤ read.readAt
  | .answering read => ∀ commit ∈ after, commit ≤ read.readAt
  | .bumping commit => ∀ index, commit = some index → index ≤ world.commits
  | .writing | .finished | .failed => True

theorem Holds.later {world next : World α} {after : List Nat} {phase : Phase α}
    (holds : Holds hashing world after phase) (later : Later world next) :
    Holds hashing next after phase := by
  cases phase with
  | readingCounter =>
      intro commit member
      obtain ⟨bump, listed, same⟩ := holds commit member
      exact ⟨bump, later.kept bump listed, same⟩
  | lookingUp _ => exact ⟨holds.1.later later, holds.2.later later⟩
  | acquiring _ => exact ⟨holds.1.later later, holds.2.later later⟩
  | rechecking _ _ => exact ⟨holds.1.later later, holds.2.later later⟩
  | sharing _ _ => exact ⟨holds.1.later later, holds.2.later later⟩
  | waiting _ _ => exact ⟨holds.1.later later, holds.2.later later⟩
  | checkingHolder _ _ => exact ⟨holds.1.later later, holds.2.later later⟩
  | awaiting key read held =>
      obtain ⟨⟨dated, follows⟩, shared, found, sameKey⟩ := holds
      obtain ⟨still, there, kept⟩ := later.reads read shared found
      exact ⟨⟨dated.later later, follows.later later⟩, still, there, kept.trans sameKey⟩
  | refreshing _ => exact Dated.later holds later
  | refreshRechecking _ _ => exact Dated.later holds later
  | rebuilding _ _ => exact Dated.later holds later
  | fetching _ _ _ => exact ⟨holds.1.later later, holds.2.later holds.1 later⟩
  | storing _ _ _ _ _ =>
      exact ⟨⟨holds.1.1.later later, holds.1.2.later holds.1.1 later⟩, holds.2⟩
  | releasing _ _ _ => exact ⟨holds.1.later later, holds.2⟩
  | answering _ => exact holds
  | bumping _ =>
      intro index same
      exact Nat.le_trans (holds index same) later.commits
  | writing | finished | failed => trivial

def Proceeds (hashing : Hashing) (world : World α) (after : List Nat)
    (outcome : World α × Phase α) : Prop :=
  Kept hashing world outcome.1 ∧ Holds hashing outcome.1 after outcome.2

theorem proceeds_still (world : World α) (books : Books hashing world) (after : List Nat)
    (phase : Phase α) (holds : Holds hashing world after phase) :
    Proceeds hashing world after (world, phase) :=
  ⟨kept_refl world books, holds⟩

theorem found_reflects (world : World α) (books : Books hashing world) (key : String)
    (choice : Choice α) (envelope : CacheEnvelope α)
    (found : (world.get key).bind (toEnvelope choice) = some envelope) :
    Reflects hashing world key envelope.readAt := by
  obtain ⟨value, present, read⟩ := Option.bind_eq_some_iff.mp found
  cases value with
  | counter _ => cases read
  | token _ => cases read
  | envelope stored =>
      simp only [toEnvelope] at read
      split at read
      · cases read
        simp only [World.get] at present
        split at present
        · rename_i entry listed
          split at present
          · obtain ⟨value, expiresAt⟩ := entry
            cases present
            exact (books.entries key envelope expiresAt listed).2
          · cases present
        · cases present
      · cases read

/-- What follows a rebuild: the data is stored under the key it was read for. -/
theorem afterRebuild_holds (world : World α) (after : List Nat) (key : String) (token : Nat)
    (answers : Bool) (read : SourceRead α) (dated : Dated hashing world key)
    (reflects : Reflects hashing world key read.readAt)
    (covered : answers = true → ∀ commit ∈ after, commit ≤ read.readAt) :
    Holds hashing world after (afterRebuild key token answers read) := by
  unfold afterRebuild
  split
  · exact ⟨⟨dated, reflects⟩, covered⟩
  · refine ⟨dated, ?_⟩
    intro answered same
    split at same
    · rename_i answering
      cases same
      exact covered answering
    · cases same

section Turns

variable (policy : TtlPolicy) (world : World α) (server : Nat) (operation : Operation)
  (after : List Nat) (choice : Choice α)

/-- The generation is read after the bump of every write that had returned. -/
theorem turn_readingCounter (answers : choice.redisAnswers = true) (books : Books hashing world)
    (holds : Holds hashing world after (.readingCounter : Phase α)) (outcome : World α × Phase α)
    (turned : turn hashing policy world ⟨server, operation, after, .readingCounter⟩ choice =
      some outcome) : Proceeds hashing world after outcome := by
  cases operation with
  | write write => cases turned
  | read query =>
      simp only [turn, answers, if_true, Option.some.injEq] at turned
      subst turned
      have dated : Dated hashing world (productKey hashing world.counter query) :=
        ⟨world.counter, query, rfl, Nat.le_refl _⟩
      refine proceeds_still world books after _ ⟨dated, ?_⟩
      intro commit member
      obtain ⟨bump, listed, same⟩ := holds commit member
      refine ⟨bump, listed, same, ?_⟩
      intro version other spelled
      have equal := productKey_version hashing world.counter version query other spelled
      have reached := (books.bumps bump listed).1
      omega

theorem turn_lookingUp (key : String) (answers : choice.redisAnswers = true)
    (books : Books hashing world)
    (holds : Holds hashing world after (.lookingUp key : Phase α)) (outcome : World α × Phase α)
    (turned : turn hashing policy world ⟨server, operation, after, .lookingUp key⟩ choice =
      some outcome) : Proceeds hashing world after outcome := by
  obtain ⟨dated, follows⟩ := holds
  simp only [turn, answers, if_true] at turned
  split at turned
  · rename_i envelope found
    have reflects := found_reflects world books key choice envelope found
    have covered := follows.covered hashing dated reflects
    split at turned
    · cases turned
      exact proceeds_still world books after (.answering envelope.answer) covered
    · -- a stale hit answers and goes on refreshing
      cases turned
      have kept : Kept hashing world (world.answer ⟨server, operation, after, .lookingUp key⟩
          envelope.answer) := by
        refine record_kept world books world.commits (Nat.le_refl _) _ ?_
        intro answer listed
        rcases List.mem_cons.mp listed with rfl | old
        · exact covered
        · exact books.answers answer old
      exact ⟨kept, dated.later kept.later⟩
  · cases turned
    exact proceeds_still world books after (.acquiring key) ⟨dated, follows⟩

theorem turn_sharing (key : String) (held : Option Nat) (books : Books hashing world)
    (holds : Holds hashing world after (.sharing key held : Phase α)) (outcome : World α × Phase α)
    (turned : turn hashing policy world ⟨server, operation, after, .sharing key held⟩ choice =
      some outcome) : Proceeds hashing world after outcome := by
  obtain ⟨dated, follows⟩ := holds
  simp only [turn] at turned
  split at turned
  · rename_i read running
    cases turned
    obtain ⟨shared, found, sameKey⟩ := books.localReads server key read running
    exact proceeds_still world books after (.awaiting key read held)
      ⟨⟨dated, follows⟩, shared, found, sameKey⟩
  · cases turned
    have kept := beginRead_kept world books server key dated
    refine ⟨kept, ⟨dated.later kept.later, follows.later kept.later⟩,
      ⟨server, key, .begun⟩, ?_, rfl⟩
    exact Function.update_self _ _ _

theorem turn_awaiting (key : String) (read : Nat) (held : Option Nat) (books : Books hashing world)
    (holds : Holds hashing world after (.awaiting key read held : Phase α))
    (outcome : World α × Phase α)
    (turned : turn hashing policy world ⟨server, operation, after, .awaiting key read held⟩ choice =
      some outcome) : Proceeds hashing world after outcome := by
  obtain ⟨⟨dated, follows⟩, shared, found, rfl⟩ := holds
  have current := (books.reads read shared found).2
  simp only [turn, found] at turned
  split at turned
  · rename_i reader name result same
    cases same
    have reflects : Reflects hashing world name result.readAt := current result.readAt rfl
    have covered := follows.covered hashing dated reflects
    split at turned
    · rename_i token
      cases turned
      exact proceeds_still world books after _
        (afterRebuild_holds world after name token true result dated reflects fun _ => covered)
    · cases turned
      exact proceeds_still world books after (.answering result) covered
  · split at turned
    · rename_i token
      cases turned
      refine proceeds_still world books after _ ⟨dated, ?_⟩
      intro answered same
      cases same
    · cases turned
      exact proceeds_still world books after .failed trivial
  · cases turned

theorem turn_waiting (key : String) (deadline : Int) (answers : choice.redisAnswers = true)
    (books : Books hashing world)
    (holds : Holds hashing world after (.waiting key deadline : Phase α))
    (outcome : World α × Phase α)
    (turned : turn hashing policy world ⟨server, operation, after, .waiting key deadline⟩ choice =
      some outcome) : Proceeds hashing world after outcome := by
  obtain ⟨dated, follows⟩ := holds
  simp only [turn, answers, if_true] at turned
  split at turned
  · rename_i value present
    split at turned
    · rename_i envelope decoded
      cases turned
      have found : (world.get key).bind (toEnvelope choice) = some envelope := by
        rw [present]
        exact decoded
      exact proceeds_still world books after (.answering envelope.answer)
        (follows.covered hashing dated (found_reflects world books key choice envelope found))
    · cases turned
      exact proceeds_still world books after (.sharing key none) ⟨dated, follows⟩
  · cases turned
    exact proceeds_still world books after (.checkingHolder key deadline) ⟨dated, follows⟩

theorem readFreshEnvelope_found (key : String) (envelope : CacheEnvelope α)
    (found : world.readFreshEnvelope key choice = some envelope) :
    (world.get key).bind (toEnvelope choice) = some envelope := by
  simp only [World.readFreshEnvelope] at found
  split at found
  · exact (Option.filter_eq_some_iff.mp found).1
  · cases found

theorem turn_storing (key : String) (token : Nat) (data : α) (readAt : Nat) (answering : Bool)
    (books : Books hashing world)
    (holds : Holds hashing world after (.storing key token data readAt answering))
    (outcome : World α × Phase α)
    (turned : turn hashing policy world
      ⟨server, operation, after, .storing key token data readAt answering⟩ choice = some outcome) :
    Proceeds hashing world after outcome := by
  obtain ⟨⟨dated, reflects⟩, covered⟩ := holds
  have answered (next : World α) (still : Dated hashing next key) :
      Holds hashing next after (.releasing key token
        (if answering = true then some ⟨some data, readAt⟩ else none)) := by
    refine ⟨still, ?_⟩
    intro read same
    split at same
    · rename_i answers
      cases same
      exact covered answers
    · cases same
  simp only [turn] at turned
  split at turned
  · cases turned
    have kept := store_kept world books key ⟨data, readAt, choice.now + policy.softTtlMs⟩
      (computeHardTtlMs policy choice.draw) dated reflects
    exact ⟨kept, answered _ (dated.later kept.later)⟩
  · cases turned
    exact proceeds_still world books after _ (answered world dated)

theorem turn_releasing (key : String) (token : Nat) (answer : Option (SourceRead α))
    (books : Books hashing world)
    (holds : Holds hashing world after (.releasing key token answer)) (outcome : World α × Phase α)
    (turned : turn hashing policy world ⟨server, operation, after, .releasing key token answer⟩
      choice = some outcome) : Proceeds hashing world after outcome := by
  obtain ⟨dated, covered⟩ := holds
  have released := release_kept world books key token dated
  simp only [turn] at turned
  cases answer with
  | some read =>
      have answering := covered read rfl
      split at turned
      · cases turned
        exact ⟨released, answering⟩
      · cases turned
        exact ⟨kept_refl world books, answering⟩
  | none =>
      split at turned
      · cases turned
        exact ⟨released, trivial⟩
      · cases turned
        exact ⟨kept_refl world books, trivial⟩

/-- A write that commits goes on to the bump. -/
theorem turn_writing (books : Books hashing world) (outcome : World α × Phase α)
    (turned : turn hashing policy world ⟨server, operation, after, .writing⟩ choice =
      some outcome) : Proceeds hashing world after outcome := by
  cases operation with
  | read query => cases turned
  | write write =>
      simp only [turn] at turned
      split at turned
      · cases turned
        have kept := record_kept world books
          (world.commits + (if write.commits choice.rowFound = true then some (world.commits + 1)
            else none).toList.length) (Nat.le_add_right _ _) world.answers books.answers
        refine ⟨kept, ?_⟩
        intro index made
        split at made
        · rename_i committed
          cases made
          simp [committed]
        · cases made
      · rename_i unbumped
        have uncommitted : write.commits choice.rowFound = false := by
          cases committed : write.commits choice.rowFound with
          | false => rfl
          | true => exact absurd (invalidates_of_commits write choice.rowFound committed) unbumped
        cases turned
        simp only [uncommitted]
        exact proceeds_still world books after .finished trivial

theorem turn_proceeds (process : Process α) (answers : choice.redisAnswers = true)
    (books : Books hashing world) (holds : Holds hashing world process.after process.phase)
    (outcome : World α × Phase α)
    (turned : turn hashing policy world process choice = some outcome) :
    Proceeds hashing world process.after outcome := by
  obtain ⟨server, operation, after, phase⟩ := process
  dsimp only at holds
  cases phase with
  | readingCounter =>
      exact turn_readingCounter policy world server operation after choice answers books holds
        outcome turned
  | lookingUp key =>
      exact turn_lookingUp policy world server operation after choice key answers books holds
        outcome turned
  | acquiring key =>
      simp only [turn, answers, if_true] at turned
      split at turned
      · rename_i locked acquired
        cases turned
        have kept := acquire_kept policy world locked books key choice holds.1 acquired
        exact ⟨kept, holds.1.later kept.later, holds.2.later kept.later⟩
      · cases turned
        exact proceeds_still world books after (.waiting key (choice.now + policy.waitMs)) holds
  | rechecking key token =>
      obtain ⟨dated, follows⟩ := holds
      simp only [turn] at turned
      split at turned
      · rename_i envelope again
        cases turned
        have found := readFreshEnvelope_found world choice key envelope again
        have covered := follows.covered hashing dated
          (found_reflects world books key choice envelope found)
        refine proceeds_still world books after _ ⟨dated, ?_⟩
        intro read same
        cases same
        exact covered
      · cases turned
        exact proceeds_still world books after (.sharing key (some token)) ⟨dated, follows⟩
  | sharing key held =>
      exact turn_sharing policy world server operation after choice key held books holds outcome
        turned
  | awaiting key read held =>
      exact turn_awaiting policy world server operation after choice key read held books holds
        outcome turned
  | waiting key deadline =>
      exact turn_waiting policy world server operation after choice key deadline answers books
        holds outcome turned
  | checkingHolder key deadline =>
      simp only [turn] at turned
      split at turned
      · cases turned
        exact proceeds_still world books after (.waiting key deadline) holds
      · cases turned
        exact proceeds_still world books after (.sharing key none) holds
  | refreshing key =>
      simp only [turn, answers, if_true] at turned
      split at turned
      · rename_i locked acquired
        cases turned
        have kept := acquire_kept policy world locked books key choice holds acquired
        exact ⟨kept, Dated.later holds kept.later⟩
      · cases turned
        exact proceeds_still world books after .finished trivial
  | refreshRechecking key token =>
      simp only [turn] at turned
      split at turned
      · cases turned
        refine proceeds_still world books after (.releasing key token none) ⟨holds, ?_⟩
        intro read same
        cases same
      · cases turned
        exact proceeds_still world books after (.rebuilding key token) holds
  | rebuilding key token =>
      cases turned
      exact proceeds_still world books after (.fetching key token world.commits)
        ⟨holds, readAt_le_commits world books key⟩
  | fetching key token readAt =>
      obtain ⟨dated, reflects⟩ := holds
      simp only [turn] at turned
      split at turned
      · cases turned
        refine proceeds_still world books after (.releasing key token none) ⟨dated, ?_⟩
        intro read same
        cases same
      · cases turned
        refine proceeds_still world books after _
          (afterRebuild_holds world after key token false ⟨choice.found, readAt⟩ dated reflects ?_)
        intro answering
        cases answering
  | storing key token data readAt answering =>
      exact turn_storing policy world server operation after choice key token data readAt answering
        books holds outcome turned
  | releasing key token answer =>
      exact turn_releasing policy world server operation after choice key token answer books holds
        outcome turned
  | answering read =>
      cases turned
      refine ⟨record_kept world books world.commits (Nat.le_refl _) _ ?_, trivial⟩
      intro answer listed
      rcases List.mem_cons.mp listed with rfl | old
      · exact holds
      · exact books.answers answer old
  | writing => exact turn_writing policy world server operation after choice books outcome turned
  | bumping commit =>
      simp only [turn, answers, if_true] at turned
      cases turned
      exact ⟨bump_kept world books commit holds, trivial⟩
  | finished => cases turned
  | failed => cases turned

end Turns

/-! ## Runs -/

structure Sound (hashing : Hashing) (world : World α) : Prop where
  books : Books hashing world
  phases : ∀ slot process, world.requests slot = some process →
    Holds hashing world process.after process.phase

/-- Redis answers the calls of the step, and keeps the counter. -/
def Event.answered : Event α → Bool
  | .turn _ choice => choice.redisAnswers
  | .loseCounter => false
  | .arrive .. | .progress .. | .fail _ | .tick _ => true

theorem start_sound : Sound hashing (start : World α) := by
  refine ⟨start_books hashing, ?_⟩
  intro slot process serving
  cases serving

theorem Sound.goOn {world next : World α} (sound : Sound hashing world) (slot : Nat)
    (process : Process α) (phase : Phase α) (kept : Kept hashing world next)
    (holds : Holds hashing next process.after phase) :
    Sound hashing (next.goOn slot process phase) := by
  have books := kept.books
  have later : Later next (next.goOn slot process phase) :=
    ⟨Nat.le_refl _, Nat.le_refl _, fun _ listed => listed, fun _ listed => .inl listed,
      fun _ shared found => ⟨shared, found, rfl⟩⟩
  refine ⟨⟨books.counterKey, books.bumps, books.entries, books.reads, books.fresh,
    books.localReads, books.returned, books.answers⟩, ?_⟩
  intro holder other serving
  refine Holds.later ?_ later
  by_cases same : holder = slot
  · cases same
    simp only [World.goOn, Function.update_self, Option.some.injEq] at serving
    subst serving
    exact holds
  · simp only [World.goOn, Function.update_of_ne same, kept.requests] at serving
    exact (sound.phases holder other serving).later kept.later

/-- Time in Redis does not touch the counter, which has no expiry. -/
theorem Sound.tick {world : World α} (sound : Sound hashing world) (ms : Nat) :
    Sound hashing { world with redisNow := world.redisNow + ms } := by
  have books := sound.books
  have counter := counter_of_redis world
    { world with redisNow := world.redisNow + ms } rfl books
  have later : Later world { world with redisNow := world.redisNow + ms } :=
    ⟨Nat.le_of_eq counter.symm, Nat.le_refl _, fun _ listed => listed, fun _ listed => .inl listed,
      fun _ shared found => ⟨shared, found, rfl⟩⟩
  refine ⟨⟨books.counterKey, ?_, ?_, ?_, books.fresh, books.localReads, books.returned,
    books.answers⟩, ?_⟩
  · intro bump listed
    rw [counter]
    exact books.bumps bump listed
  · intro key envelope expiresAt present
    obtain ⟨dated, current⟩ := books.entries key envelope expiresAt present
    exact ⟨dated.later later, current.later dated later⟩
  · intro read shared found
    obtain ⟨dated, current⟩ := books.reads read shared found
    refine ⟨dated.later later, ?_⟩
    intro readAt here
    exact (current readAt here).later dated later
  · intro slot process serving
    exact (sound.phases slot process serving).later later

theorem step_sound (policy : TtlPolicy) (world next : World α) (event : Event α)
    (sound : Sound hashing world) (answered : event.answered = true)
    (stepped : step hashing policy world event = some next) : Sound hashing next := by
  have books := sound.books
  cases event with
  | arrive slot server operation =>
      simp only [step] at stepped
      split at stepped
      · cases stepped
        have holds : Holds hashing world world.returned (operation.first : Phase α) := by
          cases operation with
          | read _ => exact books.returned
          | write _ => trivial
        exact sound.goOn slot _ _ (kept_refl world books) holds
      · cases stepped
  | turn slot choice =>
      obtain ⟨process, serving, remaining⟩ := Option.bind_eq_some_iff.mp stepped
      obtain ⟨outcome, turned, same⟩ := Option.bind_eq_some_iff.mp remaining
      cases same
      obtain ⟨kept, holds⟩ := turn_proceeds policy world choice process answered books
        (sound.phases slot process serving) outcome turned
      exact sound.goOn slot process outcome.2 kept holds
  | progress read choice =>
      obtain ⟨shared, found, moved⟩ := Option.bind_eq_some_iff.mp stepped
      have kept := progress_kept world next books read shared choice found moved
      refine ⟨kept.books, ?_⟩
      intro slot process serving
      rw [kept.requests] at serving
      exact (sound.phases slot process serving).later kept.later
  | fail slot =>
      obtain ⟨process, serving, same⟩ := Option.bind_eq_some_iff.mp stepped
      cases same
      exact sound.goOn slot process .failed (kept_refl world books) trivial
  | tick ms =>
      cases stepped
      exact sound.tick ms
  | loseCounter => cases answered

/-- A read that starts after an admin write has returned answers with data read after the commit
of the write. -/
theorem reads_follow_writes (hashing : Hashing) (policy : TtlPolicy) (events : List (Event α))
    (final : World α) (answered : ∀ event ∈ events, event.answered = true)
    (success : run (step hashing policy) start events = some final) :
    ∀ answer ∈ final.answers, ∀ commit ∈ answer.after, commit ≤ answer.read.readAt := by
  have along : Along (step hashing policy) (fun _ event => event.answered = true) start events :=
    along_of_forall (step hashing policy) _ events start answered
  have sound := run_preserves_along (step hashing policy) (fun _ event => event.answered = true)
    (Sound hashing) (fun world event next sound met stepped =>
      step_sound policy world next event sound met stepped)
    events start final start_sound along success
  exact sound.books.answers

def answering (now : Int) (found : Nat) : Choice Nat :=
  ⟨true, now, some found, false, true, 7, 0, true, true⟩

/-- A product is renamed while a read of its old name is on the way into the cache; two later
reads rebuild it and hit the new entry. -/
def renamedWhileRead : List (Event Nat) :=
  [.arrive 0 0 (.read (.detail "tea"))] ++ List.replicate 5 (.turn 0 (answering 0 10)) ++
    [.progress 0 (answering 0 10)] ++
    [.arrive 1 1 (.write (.update .product [("name", some "green tea")])),
      .turn 1 (answering 1 0), .turn 1 (answering 1 0)] ++
    List.replicate 2 (.progress 0 (answering 2 10)) ++
    List.replicate 4 (.turn 0 (answering 3 0)) ++
    [.arrive 2 0 (.read (.detail "tea"))] ++ List.replicate 5 (.turn 2 (answering 4 20)) ++
    List.replicate 3 (.progress 1 (answering 5 20)) ++
    List.replicate 4 (.turn 2 (answering 6 0)) ++
    [.arrive 3 2 (.read (.detail "tea"))] ++ List.replicate 3 (.turn 3 (answering 7 0))

theorem reads_follow_writes_renamed :
    ∃ final, run (step ⟨fun _ => "", fun text => text⟩ ⟨1000, 500, 0, 100, 50⟩) start
        renamedWhileRead = some final ∧
      final.answers.map (fun answer => (answer.after, answer.read.value, answer.read.readAt)) =
        [([1], some 20, 1), ([1], some 20, 1), ([], some 10, 0)] ∧
      ∀ answer ∈ final.answers, ∀ commit ∈ answer.after, commit ≤ answer.read.readAt := by
  have answered : (run (step ⟨fun _ => "", fun text => text⟩ ⟨1000, 500, 0, 100, 50⟩) start
      renamedWhileRead).map (fun final =>
        final.answers.map fun answer => (answer.after, answer.read.value, answer.read.readAt)) =
      some [([1], some 20, 1), ([1], some 20, 1), ([], some 10, 0)] := by
    decide +kernel
  obtain ⟨final, success, answers⟩ := Option.map_eq_some_iff.mp answered
  exact ⟨final, success, answers, reads_follow_writes ⟨fun _ => "", fun text => text⟩
    ⟨1000, 500, 0, 100, 50⟩ renamedWhileRead final (by decide +kernel) success⟩

end Commerce.Catalog
