import Commerce.Search.Sync

/-!
# What the index still owes

From the last write that changed a product on, a version of the product names one
document.  A rename of its category changes the document under the version it
has, until a page of the rename raises it.  What the index lacks of a product,
each delivery of some unhandled event is still to bring.
-/

set_option autoImplicit false

namespace Commerce.Listing

/-! ## Versions and documents -/

/-- The first version of a product that names one document, and whether a rename is to raise it. -/
structure Marks where
  since : Nat → Nat
  stale : Nat → Bool

variable {marks later : Marks} {rows next : Rows} {world : World}

def Marks.Fits (marks : Marks) (rows : Rows) (id version : Nat)
    (doc : Option SearchableProduct) : Prop :=
  ∃ state, rows.stateOf id = some state ∧ version ≤ state.version ∧
    (marks.since id ≤ version → marks.stale id = false →
      doc = state.product.map toSearchableProduct)

/-- The rows moved on: no version fell, and a version still marked names what it did. -/
structure Moves (marks later : Marks) (rows next : Rows) : Prop where
  states : ∀ id state, rows.stateOf id = some state → ∃ now, next.stateOf id = some now ∧
    state.version ≤ now.version ∧ ∀ version ≤ state.version, later.since id ≤ version →
      marks.since id ≤ version ∧
        (later.stale id = false → marks.stale id = false ∧ now.product = state.product)
  current : ∀ id state, next.stateOf id = some state → later.since id ≤ state.version

theorem Marks.Fits.moves {id version : Nat} {doc : Option SearchableProduct}
    (fits : marks.Fits rows id version doc) (moves : Moves marks later rows next) :
    later.Fits next id version doc := by
  obtain ⟨state, here, bounded, named⟩ := fits
  obtain ⟨now, found, risen, kept⟩ := moves.states id state here
  refine ⟨now, found, bounded.trans risen, fun marked fresh => ?_⟩
  obtain ⟨before, settled⟩ := kept version bounded marked
  obtain ⟨plain, same⟩ := settled fresh
  rw [same]
  exact named before plain

def Marks.changed (marks : Marks) (productId version : Nat) : Marks :=
  ⟨Function.update marks.since productId version, Function.update marks.stale productId false⟩

@[simp] theorem changed_since_self (marks : Marks) (id version : Nat) :
    (marks.changed id version).since id = version := Function.update_self ..

@[simp] theorem changed_stale_self (marks : Marks) (id version : Nat) :
    (marks.changed id version).stale id = false := Function.update_self ..

theorem changed_since_of_ne (marks : Marks) (productId version id : Nat) (apart : id ≠ productId) :
    (marks.changed productId version).since id = marks.since id := Function.update_of_ne apart ..

theorem changed_stale_of_ne (marks : Marks) (productId version id : Nat) (apart : id ≠ productId) :
    (marks.changed productId version).stale id = marks.stale id := Function.update_of_ne apart ..

def Marks.renamed (marks : Marks) (filed : Nat → Bool) : Marks :=
  ⟨marks.since, fun id => filed id || marks.stale id⟩

def Marks.raised (marks : Marks) (next : Rows) (page : List Nat) : Marks :=
  ⟨fun id => if marks.stale id = true ∧ id ∈ page then
      ((next.stateOf id).map (·.version)).getD 0 else marks.since id,
    fun id => marks.stale id && decide (id ∉ page)⟩

theorem raised_since (marks : Marks) (page : List Nat) (id : Nat) :
    (marks.raised next page).since id = marks.since id ∨ marks.stale id = true := by
  by_cases stale : marks.stale id = true
  · exact .inr stale
  · exact .inl (if_neg fun both => stale both.1)

theorem raised_since_of_stale (marks : Marks) (page : List Nat) (state : ProductSearchState)
    (id : Nat) (stale : marks.stale id = true) (listed : id ∈ page)
    (found : next.stateOf id = some state) :
    (marks.raised next page).since id = state.version := by
  simp only [Marks.raised, stale, listed, and_self, if_true, found, Option.map_some,
    Option.getD_some]

theorem raised_stale (marks : Marks) (next : Rows) (page : List Nat) (id : Nat) :
    (marks.raised next page).stale id = true ↔ marks.stale id = true ∧ id ∉ page := by
  simp [Marks.raised]

theorem fits_state (id : Nat) (state : ProductSearchState) (found : rows.stateOf id = some state) :
    marks.Fits rows id state.version (state.product.map toSearchableProduct) :=
  ⟨state, found, Nat.le_refl _, fun _ _ => rfl⟩

/-! ## The engine -/

section Engine

variable (index : SearchIndex) (write : SearchDocumentWrite)

/-- The index has the version of a document it was sent, or a later one. -/
theorem write_stores : ∃ entry, index.write write write.id = some entry ∧
    write.version ≤ entry.version := by
  unfold SearchIndex.write
  split
  · rename_i refused
    cases stored : index write.id with
    | none =>
        rw [stored] at refused
        cases refused
    | some entry =>
        rw [stored, Option.any_some, decide_eq_true_eq] at refused
        exact ⟨entry, rfl, refused⟩
  · exact ⟨_, Function.update_self .., Nat.le_refl _⟩

theorem write_cases (id : Nat) (entry : IndexEntry) (found : index.write write id = some entry) :
    index id = some entry ∨ id = write.id ∧ entry = ⟨write.version, write.doc⟩ := by
  unfold SearchIndex.write at found
  split at found
  · exact .inl found
  · by_cases same : id = write.id
    · subst same
      rw [Function.update_self] at found
      exact .inr ⟨rfl, (Option.some.inj found).symm⟩
    · rw [Function.update_of_ne same] at found
      exact .inl found

/-- Stored versions never fall. -/
theorem write_rises (id : Nat) (entry : IndexEntry) (found : index id = some entry) :
    ∃ now, index.write write id = some now ∧ entry.version ≤ now.version := by
  unfold SearchIndex.write
  split
  · exact ⟨entry, found, Nat.le_refl _⟩
  · rename_i accepted
    by_cases same : id = write.id
    · subst same
      rw [found, Option.any_some, decide_eq_true_eq] at accepted
      exact ⟨_, Function.update_self .., by simp only; omega⟩
    · rw [Function.update_of_ne same]
      exact ⟨entry, found, Nat.le_refl _⟩

end Engine

/-! ## What a delivery is still to do -/

def Behind (after : Option Nat) (id : Nat) : Prop := ∀ last, after = some last → last < id

theorem behind_none (id : Nat) : Behind none id := by
  intro last same
  cases same

def Task.Ahead (categoryId id : Nat) : Task → Prop
  | .readProduct _ => False
  | .bumpPage category after => category = categoryId ∧ Behind after id
  | .readPage category ids => category = categoryId ∧ Behind ids.getLast? id
  | .write _ page => ∃ after, page = some (categoryId, after) ∧ Behind after id

def Task.Carries (id since : Nat) : Task → Prop
  | .readProduct productId => productId = id
  | .bumpPage _ _ => False
  | .readPage _ ids => id ∈ ids
  | .write unapplied _ => ∃ write ∈ unapplied, write.id = id ∧ since ≤ write.version

def Task.Owes (category : Option Nat) (id since : Nat) (task : Task) : Prop :=
  task.Carries id since ∨ ∃ categoryId, category = some categoryId ∧ task.Ahead categoryId id

/-- An unhandled event whose deliveries are all at such tasks. -/
def World.Due (world : World) (records : OutboxRecord → Prop) (tasks : Task → Prop) : Prop :=
  ∃ event entry, world.outbox[event]? = some entry ∧ entry.handled = false ∧
    records entry.record ∧
    ∀ delivery ∈ world.deliveries, delivery.event = event → tasks delivery.task

section Due

variable {records records' : OutboxRecord → Prop} {tasks tasks' : Task → Prop}

theorem World.Due.imp (due : world.Due records tasks)
    (wider : ∀ record, records record → records' record)
    (weaker : ∀ task, tasks task → tasks' task) : world.Due records' tasks' := by
  obtain ⟨event, entry, stored, pending, named, each⟩ := due
  exact ⟨event, entry, stored, pending, wider _ named, fun delivery listed same =>
    weaker _ (each delivery listed same)⟩

theorem World.Due.append (due : world.Due records tasks) (rows : Rows) (more : List OutboxEntry) :
    World.Due { world with rows := rows, outbox := world.outbox ++ more } records tasks := by
  obtain ⟨event, entry, stored, pending, named, each⟩ := due
  refine ⟨event, entry, ?_, pending, named, each⟩
  obtain ⟨inside, -⟩ := List.getElem?_eq_some_iff.mp stored
  exact (List.getElem?_append_left inside).trans stored

theorem due_of_new (events : ∀ delivery ∈ world.deliveries, delivery.event < world.outbox.length)
    (rows : Rows) (appended : List OutboxRecord) (record : OutboxRecord)
    (new : record ∈ appended) (named : records record) :
    World.Due { world with
      rows := rows
      outbox := world.outbox ++ appended.map fun record => ⟨record, false⟩ } records tasks := by
  have listed : (⟨record, false⟩ : OutboxEntry) ∈
      appended.map fun record => (⟨record, false⟩ : OutboxEntry) := List.mem_map_of_mem new
  obtain ⟨place, found⟩ := List.getElem?_of_mem listed
  refine ⟨world.outbox.length + place, ⟨record, false⟩, ?_, rfl, named, ?_⟩
  · simpa [List.getElem?_append_right] using found
  · intro delivery among same
    have known := events delivery among
    omega

theorem World.Due.deliver (due : world.Due records tasks) (event : Nat) (entry : OutboxEntry)
    (stored : world.outbox[event]? = some entry)
    (starts : ∀ record, records record → tasks record.task) :
    World.Due { world with deliveries := world.deliveries ++ [⟨event, entry.record.task⟩] }
      records tasks := by
  obtain ⟨place, other, found, pending, named, each⟩ := due
  refine ⟨place, other, found, pending, named, fun delivery listed same => ?_⟩
  rcases List.mem_append.mp listed with old | new
  · exact each delivery old same
  · rw [List.mem_singleton.mp new] at same ⊢
    subst same
    rw [Option.some.inj (stored.symm.trans found)]
    exact starts _ named

theorem World.Due.setTask (due : world.Due records tasks) (slot : Nat) (delivery : Delivery)
    (task : Task) (taken : world.deliveries[slot]? = some delivery)
    (onward : tasks delivery.task → tasks task) :
    (world.setTask slot delivery.event task).Due records tasks := by
  obtain ⟨event, entry, stored, pending, named, each⟩ := due
  refine ⟨event, entry, stored, pending, named, fun other listed same => ?_⟩
  rcases List.mem_or_eq_of_mem_set listed with old | new
  · exact each other old same
  · rw [new] at same ⊢
    exact onward (each delivery (List.mem_of_getElem? taken) same)

theorem World.Due.fail (due : world.Due records tasks) (slot : Nat) (task : Task) :
    (world.fail slot task).Due records tasks := by
  obtain ⟨event, entry, stored, pending, named, each⟩ := due
  exact ⟨event, entry, stored, pending, named, fun delivery listed =>
    each delivery (List.mem_of_mem_eraseIdx listed)⟩

theorem World.Due.finish (due : world.Due records tasks) (slot : Nat) (delivery : Delivery)
    (taken : world.deliveries[slot]? = some delivery) (done : ¬ tasks delivery.task) :
    (world.finish slot delivery.event).Due records tasks := by
  obtain ⟨event, entry, stored, pending, named, each⟩ := due
  have apart : delivery.event ≠ event := fun same =>
    done (each delivery (List.mem_of_getElem? taken) same)
  refine ⟨event, entry, ?_, pending, named, fun other listed =>
    each other (List.mem_of_mem_eraseIdx listed)⟩
  exact (List.getElem?_modify_ne _ _ apart).trans stored

end Due

end Commerce.Listing
