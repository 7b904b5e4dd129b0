import Commerce.Search.Obligations

/-!
# The invariant of the search index

Every document in the index or on its way to it is one that the catalog showed
under that version, and what the index lacks is still owed.  Each transaction,
each turn of a delivery and each document applied keep this.
-/

set_option autoImplicit false

namespace Commerce.Listing

variable {marks later : Marks} {rows next : Rows} {world : World}

/-! ## The invariant -/

/-- The index lacks every version of the product from the marked one on. -/
def Lacks (marks : Marks) (world : World) (id : Nat) : Prop :=
  ∀ entry, world.index id = some entry → entry.version < marks.since id

def Brings (category : Option Nat) (id : Nat) (record : OutboxRecord) : Prop :=
  record = .productChanged id ∨ ∃ categoryId, category = some categoryId ∧
    record = .categoryRenamed categoryId

structure Tracks (marks : Marks) (world : World) : Prop where
  keyed : world.rows.Keyed
  events : ∀ delivery ∈ world.deliveries, delivery.event < world.outbox.length
  current : ∀ id state, world.rows.stateOf id = some state → marks.since id ≤ state.version
  indexed : ∀ id entry, world.index id = some entry →
    marks.Fits world.rows id entry.version entry.doc
  sent : ∀ delivery ∈ world.deliveries, ∀ write ∈ delivery.task.sent,
    marks.Fits world.rows write.id write.version write.doc
  loose : ∀ write ∈ world.loose, marks.Fits world.rows write.id write.version write.doc
  renamed : ∀ id, marks.stale id = true → ∃ categoryId,
    world.rows.categoryOf id = some categoryId ∧
      world.Due (· = .categoryRenamed categoryId) (·.Ahead categoryId id)
  behind : ∀ id, (world.rows.stateOf id).isSome → Lacks marks world id →
    world.Due (Brings (world.rows.categoryOf id) id)
      (·.Owes (world.rows.categoryOf id) id (marks.since id))

/-- Where every event is handled, the index has the products and their documents. -/
theorem Tracks.settled (tracks : Tracks marks world)
    (handled : ∀ entry ∈ world.outbox, entry.handled = true) (id : Nat) :
    (world.index id).map (·.doc) =
      (world.rows.stateOf id).map fun state => state.product.map toSearchableProduct := by
  have idle : ∀ records tasks, ¬ world.Due records tasks := by
    intro records tasks due
    obtain ⟨event, entry, stored, pending, -⟩ := due
    rw [handled entry (List.mem_of_getElem? stored)] at pending
    cases pending
  have fresh : marks.stale id = false := by
    cases stale : marks.stale id with
    | false => rfl
    | true =>
        obtain ⟨categoryId, -, due⟩ := tracks.renamed id stale
        exact absurd due (idle _ _)
  cases found : world.rows.stateOf id with
  | none =>
      cases stored : world.index id with
      | none => rfl
      | some entry =>
          obtain ⟨state, here, -⟩ := tracks.indexed id entry stored
          rw [found] at here
          cases here
  | some state =>
      have covered : ¬ Lacks marks world id := fun lacks =>
        idle _ _ (tracks.behind id (found ▸ rfl) lacks)
      rw [Lacks] at covered
      push Not at covered
      obtain ⟨entry, stored, marked⟩ := covered
      obtain ⟨other, here, -, named⟩ := tracks.indexed id entry stored
      rw [found] at here
      cases here
      rw [stored, Option.map_some, Option.map_some, named marked fresh]

/-! ## What the steps keep -/

theorem Tracks.commit (tracks : Tracks marks world) (keyed : next.Keyed)
    (moves : Moves marks later world.rows next) (appended : List OutboxRecord)
    (stales : ∀ id, later.stale id = true →
      marks.stale id = true ∧ next.categoryOf id = world.rows.categoryOf id ∨
        ∃ categoryId, next.categoryOf id = some categoryId ∧
          .categoryRenamed categoryId ∈ appended)
    (lacking : ∀ id, (next.stateOf id).isSome →
      (world.rows.stateOf id).isSome ∧ next.categoryOf id = world.rows.categoryOf id ∧
          (later.since id = marks.since id ∨ marks.stale id = true) ∨
        .productChanged id ∈ appended) :
    Tracks later { world with
      rows := next
      outbox := world.outbox ++ appended.map fun record => ⟨record, false⟩ } where
  keyed := keyed
  events := by
    intro delivery listed
    have known := tracks.events delivery listed
    simp only [List.length_append]
    omega
  current := moves.current
  indexed := fun id entry stored => (tracks.indexed id entry stored).moves moves
  sent := fun delivery listed write among => (tracks.sent delivery listed write among).moves moves
  loose := fun write listed => (tracks.loose write listed).moves moves
  renamed := by
    intro id stale
    rcases stales id stale with ⟨before, same⟩ | ⟨categoryId, filed, new⟩
    · obtain ⟨categoryId, filed, due⟩ := tracks.renamed id before
      exact ⟨categoryId, same.trans filed, due.append _ _⟩
    · exact ⟨categoryId, filed, due_of_new tracks.events _ _ _ new rfl⟩
  behind := by
    intro id known lacks
    rcases lacking id known with ⟨before, same, marked⟩ | new
    · dsimp only
      rw [same]
      by_cases stale : marks.stale id = true
      · obtain ⟨categoryId, filed, due⟩ := tracks.renamed id stale
        rw [filed]
        exact (due.append _ _).imp (fun record named => .inr ⟨categoryId, rfl, named⟩)
          fun task ahead => .inr ⟨categoryId, rfl, ahead⟩
      · have kept := marked.resolve_right stale
        rw [kept]
        exact (tracks.behind id before fun entry stored => kept ▸ lacks entry stored).append _ _
    · exact due_of_new tracks.events _ _ _ new (.inl rfl)

theorem Tracks.written (tracks : Tracks marks world) (write : SearchDocumentWrite)
    (fits : marks.Fits world.rows write.id write.version write.doc) :
    Tracks marks { world with index := world.index.write write } where
  keyed := tracks.keyed
  events := tracks.events
  current := tracks.current
  indexed := by
    intro id entry stored
    rcases write_cases world.index write id entry stored with old | ⟨rfl, rfl⟩
    · exact tracks.indexed id entry old
    · exact fits
  sent := tracks.sent
  loose := tracks.loose
  renamed := tracks.renamed
  behind := by
    intro id known lacks
    refine tracks.behind id known fun entry stored => ?_
    obtain ⟨now, found, risen⟩ := write_rises world.index write id entry stored
    exact Nat.lt_of_le_of_lt risen (lacks now found)

/-- A delivery goes on to a task that still brings what the last one did. -/
theorem Tracks.retask (tracks : Tracks marks world) (slot : Nat) (delivery : Delivery) (task : Task)
    (taken : world.deliveries[slot]? = some delivery)
    (fits : ∀ write ∈ task.sent, marks.Fits world.rows write.id write.version write.doc)
    (ahead : ∀ id categoryId, marks.stale id = true →
      world.rows.categoryOf id = some categoryId →
        delivery.task.Ahead categoryId id → task.Ahead categoryId id)
    (owes : ∀ id, (world.rows.stateOf id).isSome → Lacks marks world id →
      delivery.task.Owes (world.rows.categoryOf id) id (marks.since id) →
        task.Owes (world.rows.categoryOf id) id (marks.since id)) :
    Tracks marks (world.setTask slot delivery.event task) where
  keyed := tracks.keyed
  events := by
    intro other listed
    rcases List.mem_or_eq_of_mem_set listed with old | new
    · exact tracks.events other old
    · rw [new]
      exact tracks.events delivery (List.mem_of_getElem? taken)
  current := tracks.current
  indexed := tracks.indexed
  sent := by
    intro other listed
    rcases List.mem_or_eq_of_mem_set listed with old | new
    · exact tracks.sent other old
    · rw [new]
      exact fits
  loose := tracks.loose
  renamed := by
    intro id stale
    obtain ⟨categoryId, filed, due⟩ := tracks.renamed id stale
    exact ⟨categoryId, filed,
      due.setTask slot delivery task taken (ahead id categoryId stale filed)⟩
  behind := fun id known lacks =>
    (tracks.behind id known lacks).setTask slot delivery task taken (owes id known lacks)

theorem Tracks.finished (tracks : Tracks marks world) (slot : Nat) (delivery : Delivery)
    (taken : world.deliveries[slot]? = some delivery)
    (passed : ∀ id categoryId, world.rows.categoryOf id = some categoryId →
      ¬ delivery.task.Ahead categoryId id)
    (brought : ∀ id, (world.rows.stateOf id).isSome → ¬ delivery.task.Carries id (marks.since id)) :
    Tracks marks (world.finish slot delivery.event) where
  keyed := tracks.keyed
  events := by
    intro other listed
    have known := tracks.events other (List.mem_of_mem_eraseIdx listed)
    simpa [World.finish] using known
  current := tracks.current
  indexed := tracks.indexed
  sent := fun other listed => tracks.sent other (List.mem_of_mem_eraseIdx listed)
  loose := tracks.loose
  renamed := by
    intro id stale
    obtain ⟨categoryId, filed, due⟩ := tracks.renamed id stale
    exact ⟨categoryId, filed, due.finish slot delivery taken (passed id categoryId filed)⟩
  behind := by
    intro id known lacks
    refine (tracks.behind id known lacks).finish slot delivery taken fun owes => ?_
    rcases owes with carried | ⟨categoryId, filed, ahead⟩
    · exact brought id known carried
    · exact passed id categoryId filed ahead

theorem Tracks.failed (tracks : Tracks marks world) (slot : Nat) (delivery : Delivery)
    (taken : world.deliveries[slot]? = some delivery) :
    Tracks marks (world.fail slot delivery.task) where
  keyed := tracks.keyed
  events := fun other listed => tracks.events other (List.mem_of_mem_eraseIdx listed)
  current := tracks.current
  indexed := tracks.indexed
  sent := fun other listed => tracks.sent other (List.mem_of_mem_eraseIdx listed)
  loose := by
    intro write listed
    rcases List.mem_append.mp listed with old | new
    · exact tracks.loose write old
    · exact tracks.sent delivery (List.mem_of_getElem? taken) write new
  renamed := by
    intro id stale
    obtain ⟨categoryId, filed, due⟩ := tracks.renamed id stale
    exact ⟨categoryId, filed, due.fail slot delivery.task⟩
  behind := fun id known lacks => (tracks.behind id known lacks).fail slot delivery.task

theorem Tracks.delivered (tracks : Tracks marks world) (event : Nat) (entry : OutboxEntry)
    (stored : world.outbox[event]? = some entry) :
    Tracks marks { world with
      deliveries := world.deliveries ++ [⟨event, entry.record.task⟩] } where
  keyed := tracks.keyed
  events := by
    intro delivery listed
    rcases List.mem_append.mp listed with old | new
    · exact tracks.events delivery old
    · rw [List.mem_singleton.mp new]
      exact (List.getElem?_eq_some_iff.mp stored).1
  current := tracks.current
  indexed := tracks.indexed
  sent := by
    intro delivery listed
    rcases List.mem_append.mp listed with old | new
    · exact tracks.sent delivery old
    · rw [List.mem_singleton.mp new]
      cases entry.record <;> exact fun write among => absurd among List.not_mem_nil
  loose := tracks.loose
  renamed := by
    intro id stale
    obtain ⟨categoryId, filed, due⟩ := tracks.renamed id stale
    refine ⟨categoryId, filed, due.deliver event entry stored fun record named => ?_⟩
    rw [named]
    exact ⟨rfl, behind_none id⟩
  behind := by
    intro id known lacks
    refine (tracks.behind id known lacks).deliver event entry stored fun record named => ?_
    rcases named with rfl | ⟨categoryId, filed, rfl⟩
    · exact .inl rfl
    · exact .inr ⟨categoryId, filed, rfl, behind_none id⟩

theorem Tracks.loosened (tracks : Tracks marks world) (kept : List SearchDocumentWrite)
    (among : ∀ write ∈ kept, write ∈ world.loose) :
    Tracks marks { world with loose := kept } :=
  { tracks with loose := fun write listed => tracks.loose write (among write listed) }

theorem Tracks.archives (tracks : Tracks marks world) (archiving : List Nat) :
    Tracks marks { world with archiving := archiving } :=
  ⟨tracks.keyed, tracks.events, tracks.current, tracks.indexed, tracks.sent, tracks.loose,
    tracks.renamed, tracks.behind⟩

/-! ## The catalog moves on -/

theorem stateOf_isSome_iff (rows : Rows) (id : Nat) :
    (rows.stateOf id).isSome ↔ (rows.categoryOf id).isSome := by
  rw [Rows.stateOf, Rows.categoryOf, Option.isSome_map, Option.isSome_map]

/-- What one committed write did is what the marks and the outbox record. -/
theorem Tracks.effect (tracks : Tracks marks world) (keyed : next.Keyed)
    (appended : List OutboxRecord) (effect : Effect world.rows next appended) :
    ∃ later, Tracks later { world with
      rows := next
      outbox := world.outbox ++ appended.map fun record => ⟨record, false⟩ } := by
  cases effect with
  | quiet states categories =>
      refine ⟨marks, tracks.commit keyed ⟨?_, ?_⟩ [] ?_ ?_⟩
      · intro id state found
        refine ⟨state, (states id).trans found, Nat.le_refl _, fun version _ marked => ?_⟩
        exact ⟨marked, fun fresh => ⟨fresh, rfl⟩⟩
      · intro id state found
        exact tracks.current id state ((states id).symm.trans found)
      · exact fun id stale => .inl ⟨stale, categories id⟩
      · exact fun id known => .inl ⟨states id ▸ known, categories id, .inl rfl⟩
  | changed productId state now raised states categories =>
      refine ⟨marks.changed productId state.version, tracks.commit keyed ⟨?_, ?_⟩ _ ?_ ?_⟩
      · intro id before found
        by_cases same : id = productId
        · subst same
          have risen := raised before found
          refine ⟨state, now, Nat.le_of_lt risen, fun version bounded marked => ?_⟩
          rw [changed_since_self] at marked
          omega
        · refine ⟨before, (states id same).trans found, Nat.le_refl _, fun version _ marked => ?_⟩
          rw [changed_since_of_ne _ _ _ _ same] at marked
          rw [changed_stale_of_ne _ _ _ _ same]
          exact ⟨marked, fun fresh => ⟨fresh, rfl⟩⟩
      · intro id found here
        by_cases same : id = productId
        · subst same
          rw [now] at here
          cases here
          exact Nat.le_of_eq (changed_since_self ..)
        · rw [changed_since_of_ne _ _ _ _ same]
          exact tracks.current id found ((states id same).symm.trans here)
      · intro id stale
        by_cases same : id = productId
        · subst same
          rw [changed_stale_self] at stale
          cases stale
        · rw [changed_stale_of_ne _ _ _ _ same] at stale
          exact .inl ⟨stale, categories id same⟩
      · intro id known
        by_cases same : id = productId
        · exact .inr (same ▸ List.mem_singleton_self _)
        · exact .inl ⟨states id same ▸ known, categories id same,
            .inl (changed_since_of_ne _ _ _ _ same)⟩
  | renamed categoryId versions states categories =>
      refine ⟨marks.renamed fun id => decide (world.rows.categoryOf id = some categoryId),
        tracks.commit keyed ⟨?_, ?_⟩ _ ?_ ?_⟩
      · intro id before found
        have version := versions id
        rw [found, Option.map_some] at version
        obtain ⟨now, here, same⟩ := Option.map_eq_some_iff.mp version
        refine ⟨now, here, Nat.le_of_eq same.symm, fun version _ marked =>
          ⟨marked, fun fresh => ?_⟩⟩
        rw [Marks.renamed, Bool.or_eq_false_iff, decide_eq_false_iff_not] at fresh
        rw [states id fresh.1, found] at here
        cases here
        exact ⟨fresh.2, rfl⟩
      · intro id now here
        have version := versions id
        rw [here, Option.map_some] at version
        obtain ⟨before, found, same⟩ := Option.map_eq_some_iff.mp version.symm
        exact same ▸ tracks.current id before found
      · intro id stale
        by_cases filed : world.rows.categoryOf id = some categoryId
        · exact .inr ⟨categoryId, (categories id).trans filed, List.mem_singleton_self _⟩
        · rw [Marks.renamed, Bool.or_eq_true, decide_eq_true_eq] at stale
          exact .inl ⟨stale.resolve_left filed, categories id⟩
      · intro id known
        refine .inl ⟨?_, categories id, .inl rfl⟩
        rw [stateOf_isSome_iff] at known ⊢
        rwa [← categories id]

theorem Tracks.raised (tracks : Tracks marks world) (categoryId : Nat) (afterId : Option Nat)
    (limit : Nat) :
    Tracks (marks.raised (bumpCategoryProducts world.rows categoryId afterId limit).2
        (categoryPage world.rows categoryId afterId limit))
      { world with rows := (bumpCategoryProducts world.rows categoryId afterId limit).2 } := by
  have bumped := bump_state categoryId afterId limit world.rows
  generalize categoryPage world.rows categoryId afterId limit = page at bumped
  have keyed := bump_keyed categoryId afterId limit tracks.keyed
  generalize (bumpCategoryProducts world.rows categoryId afterId limit).2 = next at bumped keyed
  have moves : Moves marks (marks.raised next page) world.rows next := by
    refine ⟨fun id state found => ?_, fun id now here => ?_⟩
    · have here := (bumped id).1
      rw [found, Option.map_some] at here
      refine ⟨_, here, by split <;> simp, fun version bounded marked => ?_⟩
      by_cases listed : marks.stale id = true ∧ id ∈ page
      · rw [raised_since_of_stale marks page _ id listed.1 listed.2 here, if_pos listed.2] at marked
        simp only at marked
        omega
      · have kept : (marks.raised next page).since id = marks.since id := if_neg listed
        refine ⟨kept ▸ marked, fun fresh => ⟨?_, by split <;> rfl⟩⟩
        cases stale : marks.stale id with
        | false => rfl
        | true =>
            have raised := (raised_stale marks next page id).mpr
              ⟨stale, fun among => listed ⟨stale, among⟩⟩
            rw [raised] at fresh
            cases fresh
    · by_cases listed : marks.stale id = true ∧ id ∈ page
      · exact Nat.le_of_eq (raised_since_of_stale marks page now id listed.1 listed.2 here)
      · have kept : (marks.raised next page).since id = marks.since id := if_neg listed
        rw [kept]
        obtain ⟨before, found, same⟩ := Option.map_eq_some_iff.mp ((bumped id).1.symm.trans here)
        have marked := tracks.current id before found
        rw [← same]
        split
        · exact Nat.le_succ_of_le marked
        · exact marked
  have committed := tracks.commit keyed moves [] (fun id stale => ?_) fun id known => ?_
  · simpa using committed
  · exact .inl ⟨((raised_stale marks next page id).mp stale).1, (bumped id).2⟩
  · refine .inl ⟨?_, (bumped id).2, raised_since marks page id⟩
    rw [stateOf_isSome_iff] at known ⊢
    rwa [← (bumped id).2]

theorem answered {α : Type} (write : Except AdminError (Committed α)) (records : List OutboxRecord)
    (committed : (write.map fun done => (done.rows, done.records)) = .ok (next, records)) :
    ∃ done, write = .ok done ∧ done.rows = next ∧ done.records = records := by
  cases write with
  | error _ => cases committed
  | ok done =>
      cases committed
      exact ⟨done, rfl, rfl, rfl⟩

theorem commitWrite_effect (keyed : rows.Keyed) (write : AdminWrite)
    (records : List OutboxRecord) (committed : commitWrite rows write = .ok (next, records)) :
    next.Keyed ∧ Effect rows next records := by
  cases write with
  | createCategory id now data =>
      obtain ⟨done, made, rfl, rfl⟩ := answered _ _ committed
      exact createCategory_effect keyed id now data done made
  | updateCategory id data =>
      obtain ⟨done, made, rfl, rfl⟩ := answered _ _ committed
      exact updateCategory_effect keyed id data done made
  | createProduct id now data =>
      obtain ⟨done, made, rfl, rfl⟩ := answered _ _ committed
      exact createProduct_effect keyed id now data done made
  | updateProduct id data =>
      obtain ⟨done, made, rfl, rfl⟩ := answered _ _ committed
      exact updateProduct_effect keyed id data done made
  | archiveProduct id =>
      cases committed
      exact archiveProduct_effect keyed id
  | createSku id now productId data =>
      obtain ⟨done, made, rfl, rfl⟩ := answered _ _ committed
      exact createSku_effect keyed id now productId data done made
  | updateSku id data =>
      obtain ⟨done, made, rfl, rfl⟩ := answered _ _ committed
      exact updateSku_effect keyed id data done made
  | archiveSku id now =>
      cases committed
      exact archiveSku_effect keyed id now
  | setPrice id variantId data =>
      obtain ⟨done, made, rfl, rfl⟩ := answered _ _ committed
      exact setPrice_effect keyed id variantId data done made

/-! ## Deliveries take their steps -/

theorem stateOf_id (id : Nat) (state : ProductSearchState) (found : rows.stateOf id = some state) :
    state.id = id := by
  obtain ⟨row, stored, same⟩ := Option.map_eq_some_iff.mp found
  rw [← same]
  exact (find_stored id row stored).2

theorem findByIds_states (keyed : rows.Keyed) (ids : List Nat) :
    ∃ states, rows.findByIds ids = .ok states ∧
      (∀ state ∈ states, rows.stateOf state.id = some state) ∧
        ∀ id ∈ ids, ∀ state, rows.stateOf id = some state → state ∈ states := by
  refine ⟨_, findByIds_eq keyed ids, fun state read => ?_, fun id asked state found => ?_⟩
  · obtain ⟨row, among, same⟩ := List.mem_map.mp read
    have stored := (List.mem_filter.mp ((Sorting.mem_sortBy _ _ _).mp among)).1
    rw [← same]
    exact Option.map_eq_some_iff.mpr ⟨row, find_product keyed row stored, rfl⟩
  · obtain ⟨row, here, same⟩ := Option.map_eq_some_iff.mp found
    obtain ⟨stored, named⟩ := find_stored id row here
    rw [List.mem_map]
    refine ⟨row, (Sorting.mem_sortBy _ _ _).mpr (List.mem_filter.mpr ⟨stored, ?_⟩), same⟩
    rw [named]
    simpa using asked

theorem fits_read (states : List ProductSearchState)
    (read : ∀ state ∈ states, rows.stateOf state.id = some state) (write : SearchDocumentWrite)
    (listed : write ∈ states.map toSearchDocumentWrite) :
    marks.Fits rows write.id write.version write.doc := by
  obtain ⟨state, among, same⟩ := List.mem_map.mp listed
  rw [← same]
  exact fits_state state.id state (read state among)

theorem Tracks.carried (tracks : Tracks marks world) (states : List ProductSearchState) (id : Nat)
    (known : (world.rows.stateOf id).isSome)
    (read : ∀ state, world.rows.stateOf id = some state → state ∈ states)
    (page : Option (Nat × Option Nat)) :
    (Task.write (states.map toSearchDocumentWrite) page).Carries id (marks.since id) := by
  obtain ⟨state, found⟩ := Option.isSome_iff_exists.mp known
  exact ⟨toSearchDocumentWrite state, List.mem_map_of_mem (read state found),
    stateOf_id id state found, tracks.current id state found⟩

section Turns

variable {after : World} (tracks : Tracks marks world) (slot event : Nat)

include tracks

theorem Tracks.turn_readProduct (batchSize productId : Nat)
    (taken : world.deliveries[slot]? = some ⟨event, .readProduct productId⟩)
    (turned : world.turn batchSize slot event (.readProduct productId) = some after) :
    Tracks marks after := by
  obtain ⟨states, read, known, every⟩ := findByIds_states tracks.keyed [productId]
  simp only [World.turn, read] at turned
  cases states with
  | nil =>
      cases turned
      refine tracks.finished slot ⟨event, .readProduct productId⟩ taken (fun _ _ _ => id)
        fun id some carried => ?_
      obtain ⟨state, found⟩ := Option.isSome_iff_exists.mp some
      exact List.not_mem_nil (every id (List.mem_singleton.mpr carried.symm) state found)
  | cons state rest =>
      cases turned
      refine tracks.retask slot ⟨event, .readProduct productId⟩ _ taken
        (fits_read _ known) (fun _ _ _ _ => False.elim) fun id here _ owes => ?_
      rcases owes with carried | ⟨_, _, ahead⟩
      · exact .inl (tracks.carried _ id here
          (every id (List.mem_singleton.mpr carried.symm)) none)
      · exact ahead.elim

theorem Tracks.turn_readPage (batchSize categoryId : Nat) (ids : List Nat)
    (taken : world.deliveries[slot]? = some ⟨event, .readPage categoryId ids⟩)
    (turned : world.turn batchSize slot event (.readPage categoryId ids) = some after) :
    Tracks marks after := by
  obtain ⟨states, read, known, every⟩ := findByIds_states tracks.keyed ids
  simp only [World.turn, read] at turned
  cases turned
  have onward : ∀ id category, (Task.readPage categoryId ids).Ahead category id →
      (Task.write (states.map toSearchDocumentWrite)
        (some (categoryId, ids.getLast?))).Ahead category id := by
    intro id category ahead
    obtain ⟨rfl, behind⟩ := ahead
    exact ⟨_, rfl, behind⟩
  refine tracks.retask slot ⟨event, .readPage categoryId ids⟩ _ taken (fits_read _ known)
    (fun id category _ _ => onward id category) fun id here _ owes => ?_
  rcases owes with carried | ⟨category, filed, ahead⟩
  · exact .inl (tracks.carried _ id here (every id carried) _)
  · exact .inr ⟨category, filed, onward id category ahead⟩

theorem Tracks.turn_bumpPage (batchSize categoryId : Nat) (afterId : Option Nat)
    (positive : 0 < batchSize)
    (taken : world.deliveries[slot]? = some ⟨event, .bumpPage categoryId afterId⟩)
    (turned : world.turn batchSize slot event (.bumpPage categoryId afterId) = some after) :
    ∃ later, Tracks later after := by
  have onPage : ∀ id category, world.rows.categoryOf id = some category →
      (Task.bumpPage categoryId afterId).Ahead category id → categoryId = category ∧
        (id ∈ categoryPage world.rows categoryId afterId batchSize ∨ ∃ last,
          (categoryPage world.rows categoryId afterId batchSize).getLast? = some last ∧
            last < id) := by
    intro id category filed ahead
    obtain ⟨rfl, behind⟩ := ahead
    exact ⟨rfl, page_or_past _ _ _ tracks.keyed positive id filed behind⟩
  have raised := tracks.raised categoryId afterId batchSize
  have filing := fun id => (bump_state categoryId afterId batchSize world.rows id).2
  have listing : (bumpCategoryProducts world.rows categoryId afterId batchSize).1 =
      categoryPage world.rows categoryId afterId batchSize := rfl
  simp only [World.turn] at turned
  generalize categoryPage world.rows categoryId afterId batchSize = page at onPage raised listing
  cases bumped : bumpCategoryProducts world.rows categoryId afterId batchSize with
  | mk ids next =>
      simp only [bumped] at turned raised filing listing
      subst listing
      cases ids with
      | nil =>
          cases turned
          refine ⟨marks, tracks.finished slot ⟨event, .bumpPage categoryId afterId⟩ taken
            (fun id category filed ahead => ?_) fun _ _ => id⟩
          rcases (onPage id category filed ahead).2 with listed | ⟨last, ends, -⟩
          · cases listed
          · cases ends
      | cons first rest =>
          cases turned
          -- A product still to be raised is not on the page, so the page's end is before it.
          refine ⟨_, raised.retask slot ⟨event, .bumpPage categoryId afterId⟩ _ taken
            (fun write among => absurd among List.not_mem_nil)
            (fun id category stale filed ahead => ?_) fun id _ _ owes => ?_⟩
          · obtain ⟨same, placed⟩ := onPage id category ((filing id).symm.trans filed) ahead
            rcases placed with listed | ⟨last, ends, past⟩
            · exact absurd listed ((raised_stale marks _ _ id).mp stale).2
            · refine ⟨same, fun other equal => ?_⟩
              rw [ends] at equal
              cases equal
              exact past
          · rcases owes with carried | ⟨category, filed, ahead⟩
            · exact carried.elim
            · obtain ⟨same, placed⟩ := onPage id category ((filing id).symm.trans filed) ahead
              rcases placed with listed | ⟨last, ends, past⟩
              · exact .inl listed
              · refine .inr ⟨category, filed, same, fun other equal => ?_⟩
                rw [ends] at equal
                cases equal
                exact past

theorem Tracks.turned (batchSize : Nat) (positive : 0 < batchSize) (task : Task)
    (taken : world.deliveries[slot]? = some ⟨event, task⟩)
    (turned : world.turn batchSize slot event task = some after) :
    ∃ later, Tracks later after := by
  cases task with
  | readProduct productId =>
      exact ⟨marks, tracks.turn_readProduct slot event batchSize productId taken turned⟩
  | bumpPage categoryId afterId =>
      exact tracks.turn_bumpPage slot event batchSize categoryId afterId positive taken turned
  | readPage categoryId ids =>
      exact ⟨marks, tracks.turn_readPage slot event batchSize categoryId ids taken turned⟩
  | write unapplied page =>
      cases unapplied with
      | cons _ _ => cases turned
      | nil =>
          cases page with
          | none =>
              cases turned
              refine ⟨marks, tracks.finished slot ⟨event, .write [] none⟩ taken ?_ ?_⟩
              · intro id category _ ahead
                obtain ⟨_, none, -⟩ := ahead
                cases none
              · intro id _ carried
                obtain ⟨write, among, -⟩ := carried
                exact List.not_mem_nil among
          | some place =>
              obtain ⟨categoryId, afterId⟩ := place
              cases turned
              have onward : ∀ id category, (Task.write [] (some (categoryId, afterId))).Ahead
                  category id → (Task.bumpPage categoryId afterId).Ahead category id := by
                intro id category ahead
                obtain ⟨other, same, behind⟩ := ahead
                cases same
                exact ⟨rfl, behind⟩
              refine ⟨marks, tracks.retask slot ⟨event, .write [] (some (categoryId, afterId))⟩ _
                taken (fun write among => absurd among List.not_mem_nil)
                (fun id category _ _ => onward id category) fun id _ _ owes => ?_⟩
              rcases owes with ⟨write, among, -⟩ | ⟨category, filed, ahead⟩
              · exact absurd among List.not_mem_nil
              · exact .inr ⟨category, filed, onward id category ahead⟩

/-- The engine applies a document of a request. -/
theorem Tracks.applied (position : Nat) (unapplied : List SearchDocumentWrite)
    (page : Option (Nat × Option Nat)) (write : SearchDocumentWrite)
    (taken : world.deliveries[slot]? = some ⟨event, .write unapplied page⟩)
    (chosen : unapplied[position]? = some write) :
    Tracks marks ({ world with index := world.index.write write }.setTask slot event
      (.write (unapplied.eraseIdx position) page)) := by
  have sent := tracks.sent ⟨event, .write unapplied page⟩ (List.mem_of_getElem? taken)
  have stored := tracks.written write (sent write (List.mem_of_getElem? chosen))
  refine stored.retask slot ⟨event, .write unapplied page⟩ _ taken
    (fun other among => sent other (List.mem_of_mem_eraseIdx among))
    (fun _ _ _ _ => id) fun id _ lacks owes => ?_
  rcases owes with ⟨other, among, same, marked⟩ | ahead
  · obtain ⟨place, found⟩ := List.getElem?_of_mem among
    by_cases here : place = position
    · -- The document just applied is in the index, which then no longer lacks the version.
      subst here
      rw [chosen] at found
      cases found
      obtain ⟨entry, kept, above⟩ := write_stores world.index write
      have below := lacks entry (same ▸ kept)
      omega
    · exact .inl ⟨other, List.mem_eraseIdx_iff_getElem?.mpr ⟨place, here, found⟩, same, marked⟩
  · exact .inr ahead

end Turns

end Commerce.Listing
