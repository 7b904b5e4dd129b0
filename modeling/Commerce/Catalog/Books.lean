import Commerce.Catalog.Generations

/-!
# What the cache holds

Every entry, every read under way and every request carries a generation that
has been reached, and data that reflects the commits of all bumps up to it.  A
new bump raises the counter past every key in use, so it asks nothing of them.
-/

set_option autoImplicit false

namespace Commerce.Catalog

variable {α : Type} (hashing : Hashing)

/-! ## Keys in use -/

/-- The key carries a generation the counter has reached. -/
def Dated (world : World α) (key : String) : Prop :=
  ∃ version query, key = productKey hashing version query ∧ version ≤ world.counter

/-- Data read with `readAt` commits made includes every commit bumped up to the key's
generation. -/
def Reflects (world : World α) (key : String) (readAt : Nat) : Prop :=
  ∀ version query, key = productKey hashing version query →
    ∀ bump ∈ world.bumps, bump.version ≤ version → bump.commit ≤ readAt

/-- The commits were bumped by the time the key's generation was read. -/
def Follows (world : World α) (after : List Nat) (key : String) : Prop :=
  ∀ commit ∈ after, ∃ bump ∈ world.bumps, bump.commit = commit ∧
    ∀ version query, key = productKey hashing version query → bump.version ≤ version

theorem Follows.covered {world : World α} {after : List Nat} {key : String} {readAt : Nat}
    (follows : Follows hashing world after key) (dated : Dated hashing world key)
    (reflects : Reflects hashing world key readAt) : ∀ commit ∈ after, commit ≤ readAt := by
  intro commit member
  obtain ⟨bump, listed, rfl, before⟩ := follows commit member
  obtain ⟨version, query, rfl, -⟩ := dated
  exact reflects version query rfl bump listed (before version query rfl)

/-! ## Invariant -/

def ReadStatus.readAt : ReadStatus α → Option Nat
  | .begun => none
  | .fetching readAt => some readAt
  | .settled result | .closed result => result.map (·.readAt)

structure Books (world : World α) : Prop where
  counterKey : ∀ stored, world.redis catalogCacheVersionKey = some stored →
    ∃ value, stored = ⟨.counter value, none⟩
  bumps : ∀ bump ∈ world.bumps, bump.version ≤ world.counter ∧ bump.commit ≤ world.commits
  entries : ∀ key envelope expiresAt, world.redis key = some ⟨.envelope envelope, expiresAt⟩ →
    Dated hashing world key ∧ Reflects hashing world key envelope.readAt
  reads : ∀ read shared, world.reads read = some shared → Dated hashing world shared.key ∧
    ∀ readAt, shared.status.readAt = some readAt → Reflects hashing world shared.key readAt
  fresh : ∀ read, world.nextRead ≤ read → world.reads read = none
  localReads : ∀ server key read, world.localReads server key = some read →
    ∃ shared, world.reads read = some shared ∧ shared.key = key
  returned : ∀ commit ∈ world.returned, ∃ bump ∈ world.bumps, bump.commit = commit
  answers : ∀ answer ∈ world.answers, ∀ commit ∈ answer.after, commit ≤ answer.read.readAt

theorem start_books : Books hashing (start : World α) := by
  constructor <;> simp [start]

structure Later (world next : World α) : Prop where
  counter : world.counter ≤ next.counter
  commits : world.commits ≤ next.commits
  kept : ∀ bump ∈ world.bumps, bump ∈ next.bumps
  bumps : ∀ bump ∈ next.bumps, bump ∈ world.bumps ∨ world.counter < bump.version
  reads : ∀ read shared, world.reads read = some shared →
    ∃ later, next.reads read = some later ∧ later.key = shared.key

variable {hashing}

theorem Dated.later {world next : World α} {key : String} (dated : Dated hashing world key)
    (later : Later world next) : Dated hashing next key := by
  obtain ⟨version, query, spelled, reached⟩ := dated
  exact ⟨version, query, spelled, Nat.le_trans reached later.counter⟩

theorem Reflects.later {world next : World α} {key : String} {readAt : Nat}
    (reflects : Reflects hashing world key readAt) (dated : Dated hashing world key)
    (later : Later world next) : Reflects hashing next key readAt := by
  intro version query spelled bump listed upTo
  rcases later.bumps bump listed with old | new
  · exact reflects version query spelled bump old upTo
  · -- a new bump is past every generation in use
    obtain ⟨used, other, same, reached⟩ := dated
    have equal := productKey_version hashing used version other query (same.symm.trans spelled)
    omega

theorem Follows.later {world next : World α} {after : List Nat} {key : String}
    (follows : Follows hashing world after key) (later : Later world next) :
    Follows hashing next after key := by
  intro commit member
  obtain ⟨bump, listed, same, before⟩ := follows commit member
  exact ⟨bump, later.kept bump listed, same, before⟩

theorem later_refl (world : World α) : Later world world :=
  ⟨Nat.le_refl _, Nat.le_refl _, fun _ listed => listed, fun _ listed => .inl listed,
    fun _ shared found => ⟨shared, found, rfl⟩⟩

/-! ## The counter -/

theorem counter_of_redis (world next : World α)
    (same : next.redis catalogCacheVersionKey = world.redis catalogCacheVersionKey)
    (books : Books hashing world) : next.counter = world.counter := by
  simp only [World.counter, World.get, same]
  cases found : world.redis catalogCacheVersionKey with
  | none => rfl
  | some stored =>
      obtain ⟨value, rfl⟩ := books.counterKey stored found
      rfl

theorem dated_ne_counterKey {world : World α} {key : String} (dated : Dated hashing world key) :
    key ≠ catalogCacheVersionKey ∧ lockKeyFor key ≠ catalogCacheVersionKey := by
  obtain ⟨version, query, rfl, -⟩ := dated
  exact ⟨productKey_ne_counterKey hashing version query,
    lockKey_ne_counterKey hashing version query⟩

/-! ## Writes of Redis -/

structure Kept (hashing : Hashing) (world next : World α) : Prop where
  books : Books hashing next
  later : Later world next
  requests : next.requests = world.requests

theorem kept_refl (world : World α) (books : Books hashing world) : Kept hashing world world :=
  ⟨books, later_refl world, rfl⟩

theorem update_kept (world : World α) (books : Books hashing world) (key : String)
    (stored : Option (Stored α)) (other : key ≠ catalogCacheVersionKey)
    (reflects : ∀ envelope expiresAt, stored = some ⟨.envelope envelope, expiresAt⟩ →
      Dated hashing world key ∧ Reflects hashing world key envelope.readAt) :
    Kept hashing world { world with redis := Function.update world.redis key stored } := by
  have still : (Function.update world.redis key stored) catalogCacheVersionKey =
      world.redis catalogCacheVersionKey := Function.update_of_ne other.symm _ _
  have counter := counter_of_redis world
    { world with redis := Function.update world.redis key stored } still books
  have later : Later world { world with redis := Function.update world.redis key stored } := by
    refine ⟨Nat.le_of_eq counter.symm, Nat.le_refl _, fun _ listed => listed,
      fun _ listed => .inl listed, fun _ shared found => ⟨shared, found, rfl⟩⟩
  refine ⟨⟨?_, ?_, ?_, ?_, books.fresh, books.localReads, books.returned, books.answers⟩, later,
    rfl⟩
  · intro found present
    dsimp only at present
    rw [still] at present
    exact books.counterKey found present
  · intro bump listed
    rw [counter]
    exact books.bumps bump listed
  · intro name envelope expiresAt present
    dsimp only at present
    by_cases same : name = key
    · cases same
      rw [Function.update_self] at present
      obtain ⟨dated, current⟩ := reflects envelope expiresAt present
      exact ⟨dated.later later, current.later dated later⟩
    · rw [Function.update_of_ne same] at present
      obtain ⟨dated, current⟩ := books.entries name envelope expiresAt present
      exact ⟨dated.later later, current.later dated later⟩
  · intro read shared found
    obtain ⟨dated, current⟩ := books.reads read shared found
    refine ⟨dated.later later, ?_⟩
    intro readAt here
    exact (current readAt here).later dated later

theorem store_kept (world : World α) (books : Books hashing world) (key : String)
    (envelope : CacheEnvelope α) (ttl : Nat) (dated : Dated hashing world key)
    (reflects : Reflects hashing world key envelope.readAt) :
    Kept hashing world (world.set key (.envelope envelope) ttl) := by
  refine update_kept world books key _ (dated_ne_counterKey dated).1 ?_
  intro other expiresAt same
  cases same
  exact ⟨dated, reflects⟩

theorem acquire_kept (policy : TtlPolicy) (world locked : World α) (books : Books hashing world)
    (key : String) (choice : Choice α) (dated : Dated hashing world key)
    (acquired : world.acquire policy key choice = some locked) : Kept hashing world locked := by
  simp only [World.acquire] at acquired
  split at acquired
  · cases acquired
  · cases acquired
    refine update_kept world books _ _ (dated_ne_counterKey dated).2 ?_
    intro envelope expiresAt same
    cases same

theorem release_kept (world : World α) (books : Books hashing world) (key : String) (token : Nat)
    (dated : Dated hashing world key) : Kept hashing world (world.release key token) := by
  unfold World.release
  split
  · split
    · refine update_kept world books _ none (dated_ne_counterKey dated).2 ?_
      intro envelope expiresAt same
      cases same
    · exact kept_refl world books
  · exact kept_refl world books

/-- The bump after a commit: the generation moves past every key in use. -/
theorem bump_kept (world : World α) (books : Books hashing world) (commit : Option Nat)
    (made : ∀ index, commit = some index → index ≤ world.commits) :
    Kept hashing world ((world.bump commit).returns commit) := by
  have counter : ((world.bump commit).returns commit).counter = world.counter + 1 := by
    simp [World.returns, World.bump, World.counter, World.get]
  have later : Later world ((world.bump commit).returns commit) := by
    refine ⟨?_, Nat.le_refl _, ?_, ?_, fun _ shared found => ⟨shared, found, rfl⟩⟩
    · rw [counter]
      exact Nat.le_succ _
    · intro bump listed
      exact List.mem_append_right _ listed
    · intro bump listed
      rcases List.mem_append.mp listed with new | old
      · obtain ⟨index, -, rfl⟩ := Option.map_eq_some_iff.mp (Option.mem_toList.mp new)
        exact .inr (Nat.lt_succ_self _)
      · exact .inl old
  refine ⟨⟨?_, ?_, ?_, ?_, books.fresh, books.localReads, ?_, books.answers⟩, later, rfl⟩
  · intro stored present
    simp only [World.returns, World.bump, Function.update_self, Option.some.injEq] at present
    exact ⟨world.counter + 1, present.symm⟩
  · intro bump listed
    rw [counter]
    rcases List.mem_append.mp listed with new | old
    · obtain ⟨index, same, rfl⟩ := Option.map_eq_some_iff.mp (Option.mem_toList.mp new)
      exact ⟨Nat.le_refl _, made index same⟩
    · have known := books.bumps bump old
      exact ⟨Nat.le_succ_of_le known.1, known.2⟩
  · intro key envelope expiresAt present
    have other : key ≠ catalogCacheVersionKey := by
      rintro rfl
      simp [World.returns, World.bump] at present
    simp only [World.returns, World.bump, Function.update_of_ne other] at present
    obtain ⟨dated, current⟩ := books.entries key envelope expiresAt present
    exact ⟨dated.later later, current.later dated later⟩
  · intro read shared found
    obtain ⟨dated, current⟩ := books.reads read shared found
    refine ⟨dated.later later, ?_⟩
    intro readAt here
    exact (current readAt here).later dated later
  · intro index listed
    rcases List.mem_append.mp listed with new | old
    · cases Option.mem_toList.mp new
      exact ⟨⟨index, world.counter + 1⟩, List.mem_append_left _ (by simp), rfl⟩
    · obtain ⟨bump, known, same⟩ := books.returned index old
      exact ⟨bump, List.mem_append_right _ known, same⟩

/-- A commit, or a step that answers: the keys are left alone. -/
theorem record_kept (world : World α) (books : Books hashing world) (commits : Nat)
    (more : world.commits ≤ commits) (answers : List (Answer α))
    (covered : ∀ answer ∈ answers, ∀ commit ∈ answer.after, commit ≤ answer.read.readAt) :
    Kept hashing world { world with commits := commits, answers := answers } := by
  have later : Later world { world with commits := commits, answers := answers } :=
    ⟨Nat.le_refl _, more, fun _ listed => listed, fun _ listed => .inl listed,
      fun _ shared found => ⟨shared, found, rfl⟩⟩
  refine ⟨⟨books.counterKey, ?_, books.entries, books.reads, books.fresh, books.localReads,
    books.returned, covered⟩, later, rfl⟩
  intro bump listed
  have known := books.bumps bump listed
  exact ⟨known.1, Nat.le_trans known.2 more⟩

theorem beginRead_kept (world : World α) (books : Books hashing world) (server : Nat)
    (key : String) (dated : Dated hashing world key) :
    Kept hashing world (world.beginRead server key) := by
  have absent := books.fresh world.nextRead (Nat.le_refl _)
  have later : Later world (world.beginRead server key) := by
    refine ⟨Nat.le_refl _, Nat.le_refl _, fun _ listed => listed, fun _ listed => .inl listed, ?_⟩
    intro read shared found
    have other : read ≠ world.nextRead := by
      rintro rfl
      rw [absent] at found
      cases found
    exact ⟨shared, (Function.update_of_ne other _ _).trans found, rfl⟩
  have begun : (world.beginRead server key).reads world.nextRead = some ⟨server, key, .begun⟩ :=
    Function.update_self _ _ _
  refine ⟨⟨books.counterKey, books.bumps, books.entries, ?_, ?_, ?_, books.returned, books.answers⟩,
    later, rfl⟩
  · intro read shared found
    by_cases same : read = world.nextRead
    · cases same
      rw [begun] at found
      cases found
      refine ⟨dated, ?_⟩
      intro readAt here
      cases here
    · exact books.reads read shared ((Function.update_of_ne same _ _).symm.trans found)
  · intro read beyond
    have above : world.nextRead + 1 ≤ read := beyond
    have other : read ≠ world.nextRead := by omega
    exact (Function.update_of_ne other _ _).trans (books.fresh read (by omega))
  · intro host name read running
    by_cases here : host = server ∧ name = key
    · obtain ⟨rfl, rfl⟩ := here
      simp only [World.beginRead, Function.update_self, Option.some.injEq] at running
      cases running
      exact ⟨_, begun, rfl⟩
    · have before : world.localReads host name = some read := by
        rw [← running]
        simp only [World.beginRead]
        by_cases sameHost : host = server
        · cases sameHost
          rw [Function.update_self, Function.update_of_ne]
          intro sameName
          exact here ⟨rfl, sameName⟩
        · rw [Function.update_of_ne sameHost]
      obtain ⟨shared, found, sameKey⟩ := books.localReads host name read before
      obtain ⟨still, there, kept⟩ := later.reads read shared found
      exact ⟨still, there, kept.trans sameKey⟩

end Commerce.Catalog
