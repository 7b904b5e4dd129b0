import Commerce.Search.Books
import Commerce.Lib.Runs

/-!
# Search keeps its index

Whatever replicas and operators interleave, one index at most holds the rebuild
alias, and the index behind search is the initial one or one that a fill went
through to its end.  A rebuild is told from another by the name of its index
alone: where a name recurs, a run promotes an index it has not filled.
-/

set_option autoImplicit false

namespace Commerce.Search

open Aliases Runs

/-! ## Sessions -/

def past (cursor : Option ProductId) (product : ProductId) : Prop :=
  ∀ last, cursor = some last → last < product

/-- The products not yet written while a page is written: the rest of the page, and what comes
after a page that is full. -/
def unwritten (fill : Fill) (page rest : List ProductId) (product : ProductId) : Prop :=
  product ∈ rest ∨ (¬ page.length < fill.pageSize ∧ past page.getLast? product)

/-- What a session knows in each of its phases. -/
def Holds (world : World) : Phase → Prop
  | .reading fill cursor =>
      (∀ product ∈ fill.products, product ∈ world.products) ∧ Reached world fill (past cursor)
  | .writing fill page rest =>
      (∀ product ∈ fill.products, product ∈ world.products) ∧
        Reached world fill (unwritten fill page rest)
  | .listing fill | .refreshing fill _ _ | .swapping fill _ _ => Complete world fill
  | .listingIdle _ => Served world
  | .deletingRetired doomed => ∀ name ∈ doomed, Retired world name
  | .deletingLocked name _ _ => Retired world name
  | _ => True

theorem Holds.later {world next : World} {phase : Phase} (holds : Holds world phase)
    (later : Later world next) : Holds next phase := by
  cases phase with
  | reading fill cursor =>
      exact ⟨fun product listed => later.products _ (holds.1 product listed), holds.2.later later⟩
  | writing fill page rest =>
      exact ⟨fun product listed => later.products _ (holds.1 product listed), holds.2.later later⟩
  | listing _ => exact Complete.later holds later
  | refreshing _ _ _ => exact Complete.later holds later
  | swapping _ _ _ => exact Complete.later holds later
  | listingIdle _ => exact later.served holds
  | deletingRetired _ => exact fun name listed => (holds name listed).later later
  | deletingLocked _ _ _ => exact Retired.later holds later
  | _ => trivial

theorem Holds.safe {world : World} {phase : Phase} (holds : Holds world phase) (call : Call)
    (sends : phase.call = some call) : Safe world call := by
  cases phase with
  | creatingInitial =>
      cases sends
      exact .inr ⟨rfl, rfl⟩
  | puttingAlias =>
      cases sends
      exact .inl rfl
  | creating _ _ =>
      cases sends
      exact .inl rfl
  | swapping fill serving _ =>
      cases sends
      exact .inr (.inr ⟨fill, serving, rfl, holds⟩)
  | deletingRetired doomed =>
      cases sends
      exact holds
  | releasing name _ _ =>
      cases sends
      exact .inr (.inl ⟨name, rfl⟩)
  | deletingLocked name _ _ =>
      cases sends
      intro other listed
      cases List.mem_singleton.mp listed
      exact holds
  | reading _ _ => cases sends
  | finished => cases sends
  | failed _ => cases sends
  | _ =>
      cases sends
      trivial

structure Sound (world : World) : Prop where
  books : Books world
  sessions : ∀ slot phase, world.sessions slot = some phase → Holds world phase
  transit : ∀ call ∈ world.transit, Safe world call

theorem initial_sound : Sound initial :=
  ⟨initial_books, fun _ _ none => (nomatch none), fun _ listed => (nomatch listed)⟩

theorem Kept.sound {world next : World} (kept : Kept world next) (sound : Sound world) :
    Sound next := by
  refine ⟨kept.books, fun slot phase found => ?_, fun call listed => ?_⟩
  · rw [kept.sessions] at found
    exact (sound.sessions slot phase found).later kept.later
  · rw [kept.transit] at listed
    exact (sound.transit call listed).later kept.later

/-! ## Steps -/

theorem enter_later (world : World) (slot : Nat) (phase : Phase) :
    Later world (world.enter slot phase) :=
  ⟨fun _ listed => listed, fun _ listed => List.mem_append_right _ listed,
    fun _ listed => listed, id, fun _ member _ => List.mem_map_of_mem member,
    fun _ retired => retired.2.1,
    fun index member _ entry => ⟨index, member, rfl, entry, fun _ listed => listed⟩⟩

theorem enter_sound (world : World) (sound : Sound world) (slot : Nat) (phase : Phase)
    (holds : Holds (world.enter slot phase) phase) : Sound (world.enter slot phase) := by
  have later := enter_later world slot phase
  have books := sound.books
  refine ⟨⟨books.names, books.clear, books.writes, books.named, books.initial, books.locks, ?_⟩,
    ?_, ?_⟩
  · intro index member entry
    rcases books.serves index member entry with first | ⟨fill, listed, named, every⟩
    · exact .inl first
    · exact .inr ⟨fill, later.filled fill listed, named, every⟩
  · intro other found present
    by_cases same : other = slot
    · cases same
      have here : Function.update world.sessions slot (some phase) slot = some phase :=
        Function.update_self _ _ _
      cases here.symm.trans present
      exact holds
    · have there := (Function.update_of_ne same _ _).symm.trans present
      exact (sound.sessions other found there).later later
  · exact fun call listed => (sound.transit call listed).later later

theorem enter_sound_of_holds (world : World) (sound : Sound world) (slot : Nat) (phase : Phase)
    (holds : Holds world phase) : Sound (world.enter slot phase) :=
  enter_sound world sound slot phase (holds.later (enter_later world slot phase))

theorem onward_holds (world : World) (onward : Onward) : Holds world onward.phase := by
  cases onward <;> trivial

theorem nextLocked_holds (world : World) (locked : List IndexName) (onward : Onward) :
    Holds world (nextLocked locked onward) := by
  cases locked with
  | nil => exact onward_holds world onward
  | cons name rest => trivial

theorem fails_holds (world : World) (phase : Phase) (failure : Failure) :
    Holds world (phase.fails failure) := by
  cases phase with
  | creatingInitial =>
      simp only [Phase.fails]
      split <;> trivial
  | releasing name rest onward =>
      simp only [Phase.fails]
      split
      · exact nextLocked_holds world rest onward
      · trivial
  | _ => trivial

theorem gotPage_sound (world : World) (sound : Sound world) (slot : Nat) (fill : Fill)
    (cursor : Option ProductId) (holds : Holds world (.reading fill cursor)) :
    Sound (world.enter slot
      (gotPage fill (findAfter world.products cursor fill.pageSize))) := by
  obtain ⟨present, known, reached⟩ := holds
  have onPage : ∀ product ∈ fill.products, past cursor product →
      unwritten fill (findAfter world.products cursor fill.pageSize)
        (findAfter world.products cursor fill.pageSize) product := by
    intro product listed beyond
    have chosen : cursor.all (· < product) = true := by
      cases cursor with
      | none => rfl
      | some last => exact decide_eq_true (beyond last rfl)
    by_cases short : (findAfter world.products cursor fill.pageSize).length < fill.pageSize
    · exact .inl (Pages.mem_page_of_short _ _ _ _ product short (present product listed) chosen)
    · by_cases member : product ∈ findAfter world.products cursor fill.pageSize
      · exact .inl member
      · refine .inr ⟨short, fun last ends => ?_⟩
        have after : product ∈ findAfter world.products cursor fill.pageSize ∨ last ≤ product :=
          Pages.mem_page_or_past _ _ _ world.products product last (present product listed) chosen
            ends
        have different : last ≠ product := by
          rintro rfl
          exact member (List.mem_of_getLast? ends)
        exact Nat.lt_of_le_of_ne (after.resolve_left member) different
  have written : Reached world fill (unwritten fill
      (findAfter world.products cursor fill.pageSize)
      (findAfter world.products cursor fill.pageSize)) := by
    refine ⟨known, fun index member same entry product listed => ?_⟩
    rcases reached index member same entry product listed with stored | beyond
    · exact .inl stored
    · exact .inr (onPage product listed beyond)
  simp only [gotPage]
  split
  · rename_i empty
    have nothing := List.isEmpty_iff.mp empty
    have complete : Reached world fill fun _ => False := by
      refine ⟨known, fun index member same entry product listed => ?_⟩
      refine (written.2 index member same entry product listed).imp_right ?_
      rintro (rest | ⟨full, -⟩)
      · rw [nothing] at rest
        cases rest
      · rw [nothing] at full
        exact full fill.pageSize.2
    refine enter_sound world sound slot _ ⟨List.mem_append_left _ List.mem_cons_self, ?_⟩
    exact complete.later (enter_later world slot _)
  · exact enter_sound_of_holds world sound slot _ ⟨present, written⟩

/-- A chunk that was written is no longer missing. -/
theorem chunk_reached (world : World) (fill : Fill) (page rest : List ProductId)
    (reached : Reached world fill (unwritten fill page rest)) (next : Indices)
    (applied : bulk rebuildAlias (rest.take writeChunk) world.indices = .ok next) :
    Reached (world.applied (.bulk rebuildAlias (rest.take writeChunk)) next) fill
      (unwritten fill page (rest.drop writeChunk)) := by
  refine ⟨reached.1, fun index member same entry product listed => ?_⟩
  have there : index ∈ world.indices.map (Index.write rebuildAlias (rest.take writeChunk)) :=
    bulk_ok _ _ _ next applied ▸ member
  obtain ⟨old, present, rfl⟩ := List.mem_map.mp there
  rw [write_name] at same
  rw [write_aliases] at entry
  rcases reached.2 old present same entry product listed with stored | rested | beyond
  · exact .inl (mem_write_of_mem _ _ old product stored)
  · rw [← List.take_append_drop writeChunk rest] at rested
    rcases List.mem_append.mp rested with now | yet
    · exact .inl (mem_write _ _ old product now entry)
    · exact .inr (.inl yet)
  · exact .inr (.inr beyond)

theorem wrote_sound (world : World) (sound : Sound world) (slot : Nat) (fill : Fill)
    (page rest : List ProductId) (holds : Holds world (.writing fill page rest)) :
    Sound (world.enter slot (if rest.isEmpty then afterPage fill page
      else .writing fill page rest)) := by
  obtain ⟨present, known, reached⟩ := holds
  split
  · rename_i empty
    have nothing := List.isEmpty_iff.mp empty
    have beyond : ∀ index ∈ world.indices, index.name = fill.index →
        (rebuildAlias, true) ∈ index.aliases → ∀ product ∈ fill.products,
        product ∈ index.documents ∨
          (¬ page.length < fill.pageSize ∧ past page.getLast? product) := by
      intro index member same entry product listed
      rcases reached index member same entry product listed with stored | rested | later
      · exact .inl stored
      · rw [nothing] at rested
        cases rested
      · exact .inr later
    simp only [afterPage]
    split
    · rename_i short
      have complete : Reached world fill fun _ => False := by
        refine ⟨known, fun index member same entry product listed => ?_⟩
        exact (beyond index member same entry product listed).imp_right fun full => full.1 short
      refine enter_sound world sound slot _ ⟨List.mem_append_left _ List.mem_cons_self, ?_⟩
      exact complete.later (enter_later world slot _)
    · refine enter_sound_of_holds world sound slot _ ⟨present, known, ?_⟩
      intro index member same entry product listed
      exact (beyond index member same entry product listed).imp_right And.right
  · exact enter_sound_of_holds world sound slot _ ⟨present, known, reached⟩

/-- An index that a listing shows without an alias is retired once search has one. -/
theorem idle_retired (world : World) (books : Books world) (served : Served world)
    (name : IndexName) (idle : name ∈ idleIn (Aliases.getAlias world.indices)) :
    Retired world name := by
  obtain ⟨entry, listed, same⟩ := List.mem_map.mp idle
  obtain ⟨member, empty⟩ := List.mem_filter.mp listed
  obtain ⟨index, there, rfl⟩ := List.mem_map.mp member
  have bare : index.aliases = [] := by simpa using empty
  have named : index.name = name := same
  refine ⟨named ▸ books.named index there, fun other present sameName => ?_, fun _ => served⟩
  rw [books.eq_of_name other index present there (sameName.trans named.symm)]
  exact bare

/-- A call that is answered leaves its session with what it needs next. -/
theorem answered_sound (world : World) (sound : Sound world) (slot : Nat) (phase : Phase)
    (now : Nat) (call : Call) (found : world.sessions slot = some phase)
    (sends : phase.call = some call) (fresh : Fresh world call) (next : Indices)
    (answer : Answer) (applied : call.apply world.indices = .ok (next, answer)) :
    Sound ((world.applied call next).enter slot (phase.answered now world.products answer)) := by
  have holds := sound.sessions slot phase found
  have safe := holds.safe call sends
  have kept := apply_kept world sound.books call safe fresh next answer applied
  have sound' := kept.sound sound
  have holds' := holds.later kept.later
  have acknowledged : ∀ result : Except Refusal Indices,
      acknowledge result = .ok (next, answer) → result = .ok next := by
    intro result same
    cases result with
    | error refusal => cases same
    | ok indices =>
        cases same
        rfl
  cases phase with
  | checkingProducts =>
      cases sends
      cases applied
      refine enter_sound_of_holds _ sound' slot _ ?_
      simp only [Phase.answered]
      split <;> trivial
  | creatingInitial => exact enter_sound_of_holds _ sound' slot .puttingAlias trivial
  | puttingAlias => exact enter_sound_of_holds _ sound' slot .puttingMapping trivial
  | puttingMapping => exact enter_sound_of_holds _ sound' slot .finished trivial
  | checkingLock pageSize =>
      cases sends
      cases applied
      refine enter_sound_of_holds _ sound' slot _ ?_
      simp only [Phase.answered]
      split <;> trivial
  | creating pageSize index =>
      cases sends
      refine enter_sound_of_holds _ sound' slot (.reading ⟨pageSize, index, world.products⟩ none) ?_
      refine ⟨fun _ listed => listed, List.mem_cons_self, fun _ _ _ _ _ _ => .inr ?_⟩
      intro last none
      cases none
  | recheckingLock failure =>
      cases sends
      cases applied
      refine enter_sound_of_holds _ sound' slot _ ?_
      simp only [Phase.answered]
      split <;> trivial
  | reading _ _ => cases sends
  | writing fill page rest =>
      cases sends
      have written := chunk_reached world fill page rest holds.2 next (acknowledged _ applied)
      exact wrote_sound _ sound' slot fill page (rest.drop writeChunk) ⟨holds.1, written⟩
  | listing fill =>
      cases sends
      cases applied
      refine enter_sound_of_holds _ sound' slot _ ?_
      simp only [Phase.answered]
      split
      · exact holds'
      · trivial
  | refreshing fill serving retired =>
      exact enter_sound_of_holds _ sound' slot (.swapping fill serving retired) holds'
  | swapping fill serving retired =>
      cases sends
      have updated := acknowledged _ applied
      obtain ⟨holder, there, -, -, serves, -⟩ :=
        swap_ok world sound.books fill.index serving next updated
      obtain ⟨-, same, -⟩ := updateAliases_ok _ world.indices next updated
      have listed : onAll (swap fill.index serving) holder ∈ next := by
        rw [same]
        exact List.mem_map_of_mem there
      exact enter_sound_of_holds _ sound' slot (.listingIdle retired) ⟨_, listed, serves⟩
  | listingIdle retired =>
      cases sends
      cases applied
      refine enter_sound_of_holds _ sound' slot _ ?_
      simp only [Phase.answered]
      split
      · trivial
      · intro name listed
        have idle := of_decide_eq_true (List.mem_filter.mp listed).2
        exact idle_retired _ sound'.books holds' name idle
  | deletingRetired doomed => exact enter_sound_of_holds _ sound' slot .finished trivial
  | listingLocked rebuild onward =>
      cases sends
      cases applied
      exact enter_sound_of_holds _ sound' slot _ (nextLocked_holds _ _ onward)
  | releasing name rest onward =>
      cases sends
      have retired := release_retires world sound.books name next (acknowledged _ applied)
      exact enter_sound_of_holds _ sound' slot (.deletingLocked name rest onward) retired
  | deletingLocked name rest onward =>
      exact enter_sound_of_holds _ sound' slot _ (nextLocked_holds _ rest onward)
  | finished => cases sends
  | failed _ => cases sends

theorem fresh_of_recreates (world : World) (event : Event) (call : Call)
    (sends : world.sends event = some call) (fresh : world.recreates event = false) :
    Fresh world call := by
  cases call with
  | create index aliases =>
      cases aliases with
      | nil => trivial
      | cons entry rest =>
          intro known
          simpa [World.recreates, sends, known] using fresh
  | _ => trivial

theorem settle_kept (world : World) (books : Books world) (call : Call) (safe : Safe world call)
    (fresh : Fresh world call) : Kept world (world.settle call) := by
  simp only [World.settle]
  split
  · exact kept_refl world books
  · rename_i next answer applied
    exact apply_kept world books call safe fresh next answer applied

theorem settle_bulk_names (world : World) (name : Alias) (documents : List ProductId) :
    (world.settle (.bulk name documents)).indices.map Index.name =
      world.indices.map Index.name := by
  simp only [World.settle, Call.apply, acknowledge, Aliases.bulk]
  split
  · rfl
  · rename_i next answer applied
    split at applied
    · cases applied
    · rename_i indices written
      cases applied
      split at written
      · cases written
        dsimp only [World.applied]
        rw [List.map_map]
        exact List.map_congr_left fun index _ => write_name name documents index
      · cases written

/-- What one step keeps: the invariant, that search has an index once it had one, and the index
it has before the step. -/
structure Stands (world next : World) : Prop where
  sound : Sound next
  served : Served world → Served next
  standing : ∀ index ∈ world.indices, (productsAlias, true) ∈ index.aliases →
    index.name ∈ next.indices.map Index.name

theorem stands_of_same (world next : World) (sound : Sound next)
    (same : next.indices = world.indices) : Stands world next := by
  refine ⟨sound, ?_, ?_⟩
  · rintro ⟨index, member, entry⟩
    exact ⟨index, same ▸ member, entry⟩
  · intro index member _
    rw [same]
    exact List.mem_map_of_mem member

theorem turn_of_call (world : World) (slot now : Nat) (phase : Phase) (call : Call)
    (calls : phase.call = some call) :
    world.turn slot now phase =
      match call.apply world.indices with
      | .error refusal => some (world.enter slot (phase.fails (.refused refusal)))
      | .ok (indices, answer) =>
          some ((world.applied call indices).enter slot
            (phase.answered now world.products answer)) := by
  cases phase with
  | reading _ _ => cases calls
  | finished => cases calls
  | failed _ => cases calls
  | _ =>
      cases calls
      rfl

theorem turn_stands (world : World) (sound : Sound world) (slot : Nat) (now : Nat) (phase : Phase)
    (found : world.sessions slot = some phase)
    (fresh : world.recreates (.turn slot now) = false) (next : World)
    (turned : world.turn slot now phase = some next) : Stands world next := by
  have sends : world.sends (.turn slot now) = phase.call := by
    simp only [World.sends, found, Option.bind_some]
  cases calls : phase.call with
  | none =>
      cases phase with
      | reading fill cursor =>
          cases turned
          have holds := sound.sessions slot (.reading fill cursor) found
          exact stands_of_same world _ (gotPage_sound world sound slot fill cursor holds) rfl
      | finished => cases turned
      | failed _ => cases turned
      | _ => cases calls
  | some call =>
      rw [turn_of_call world slot now phase call calls] at turned
      split at turned
      · rename_i refusal _
        cases turned
        exact stands_of_same world _ (enter_sound_of_holds world sound slot _
          (fails_holds world phase (.refused refusal))) rfl
      · rename_i indices answer applied
        cases turned
        have safe := (sound.sessions slot phase found).safe call calls
        have new := fresh_of_recreates world _ call (sends.trans calls) fresh
        have kept := apply_kept world sound.books call safe new indices answer applied
        refine ⟨answered_sound world sound slot phase now call found calls new indices answer
          applied, ?_, kept.later.standing⟩
        exact kept.later.served

theorem abandon_sound (world : World) (sound : Sound world) (slot : Nat) (phase : Phase)
    (found : world.sessions slot = some phase) (onward : Phase) (holds : Holds world onward) :
    Sound ((world.abandon phase).enter slot onward) := by
  have abandoned : Sound (world.abandon phase) := by
    have later : Later world (world.abandon phase) :=
      (later_refl world).elsewhere rfl rfl rfl rfl
    refine ⟨⟨sound.books.names, sound.books.clear, sound.books.writes, sound.books.named,
      sound.books.initial, sound.books.locks, sound.books.serves⟩, ?_, ?_⟩
    · exact fun other phase present => (sound.sessions other phase present).later later
    · intro call listed
      rcases List.mem_append.mp listed with sent | old
      · exact ((sound.sessions slot phase found).safe call (Option.mem_toList.mp sent)).later later
      · exact (sound.transit call old).later later
  have later : Later world (world.abandon phase) :=
    (later_refl world).elsewhere rfl rfl rfl rfl
  exact enter_sound_of_holds _ abandoned slot onward (holds.later later)

theorem step_stands (world : World) (event : Event) (next : World) (sound : Sound world)
    (fresh : world.recreates event = false) (stepped : step world event = some next) :
    Stands world next := by
  cases event with
  | start slot request =>
      simp only [step] at stepped
      split at stepped
      · cases stepped
      · cases stepped
        refine stands_of_same world _ (enter_sound_of_holds world sound slot _ ?_) rfl
        cases request <;> trivial
  | turn slot now =>
      simp only [step] at stepped
      split at stepped
      · cases stepped
      · rename_i phase found
        exact turn_stands world sound slot now phase found fresh next stepped
  | lapse slot =>
      simp only [step] at stepped
      split at stepped
      · cases stepped
      · rename_i phase found
        split at stepped
        · cases stepped
        · cases stepped
          exact stands_of_same world _ (abandon_sound world sound slot phase found _
            (fails_holds world phase .unanswered)) rfl
  | crash slot =>
      simp only [step] at stepped
      split at stepped
      · cases stepped
      · rename_i phase found
        split at stepped
        · cases stepped
        · cases stepped
          exact stands_of_same world _ (abandon_sound world sound slot phase found _ trivial) rfl
  | arrive position =>
      simp only [step] at stepped
      split at stepped
      · cases stepped
      · rename_i call there
        cases stepped
        have safe := sound.transit call (List.mem_of_getElem? there)
        have new := fresh_of_recreates world (.arrive position) call there fresh
        have kept := settle_kept world sound.books call safe new
        have settled := kept.sound sound
        have later : Later world
            { world.settle call with transit := world.transit.eraseIdx position } :=
          kept.later.elsewhere rfl rfl rfl rfl
        refine ⟨⟨⟨settled.books.names, settled.books.clear, settled.books.writes,
          settled.books.named, settled.books.initial, settled.books.locks, settled.books.serves⟩,
          ?_, ?_⟩, later.served, later.standing⟩
        · intro slot phase present
          have before : world.sessions slot = some phase := kept.sessions ▸ present
          exact (sound.sessions slot phase before).later later
        · intro other left
          exact (sound.transit other (List.mem_of_mem_eraseIdx left)).later later
  | insert product =>
      simp only [step] at stepped
      cases stepped
      have later : Later world { world with products := product :: world.products } :=
        { later_refl world with products := fun _ listed => List.mem_cons_of_mem _ listed }
      have kept : Kept world { world with products := product :: world.products } :=
        ⟨⟨sound.books.names, sound.books.clear, sound.books.writes, sound.books.named,
          sound.books.initial, sound.books.locks, sound.books.serves⟩, later, rfl, rfl⟩
      exact stands_of_same world _ (kept.sound sound) rfl
  | write documents =>
      simp only [step] at stepped
      cases stepped
      have first := settle_kept world sound.books (.bulk productsAlias documents) trivial trivial
      have second := settle_kept _ first.books (.bulk rebuildAlias documents) trivial trivial
      refine ⟨second.sound (first.sound sound),
        fun served => second.later.served (first.later.served served), ?_⟩
      intro index member entry
      rw [settle_bulk_names]
      exact first.later.standing index member entry

/-! ## Runs -/

/-- What is asked of the aliases in every state: one index at most has the rebuild alias, and
the index behind search is one, the initial one or one that was filled to its end. -/
structure OneIndex (world : World) : Prop where
  lock : ∀ first ∈ world.indices, ∀ second ∈ world.indices,
    first.carries rebuildAlias = true → second.carries rebuildAlias = true → first = second
  search : ∀ first ∈ world.indices, ∀ second ∈ world.indices,
    first.carries productsAlias = true → second.carries productsAlias = true → first = second
  filled : ∀ index ∈ world.indices, index.carries productsAlias = true →
    index.name = initialIndex ∨ FilledToEnd world index

theorem Sound.oneIndex {world : World} (sound : Sound world) : OneIndex world := by
  have books := sound.books
  refine ⟨?_, ?_, ?_⟩
  · intro first memFirst second memSecond carriesFirst carriesSecond
    exact carrier_unique world.indices books.clear books.writes rebuildAlias first second memFirst
      memSecond carriesFirst carriesSecond
  · intro first memFirst second memSecond carriesFirst carriesSecond
    exact carrier_unique world.indices books.clear books.writes productsAlias first second memFirst
      memSecond carriesFirst carriesSecond
  · intro index member carried
    exact books.serves index member ((books.carries_iff index member productsAlias).mp carried)

/-- No event of the run creates a rebuild's index under a name an index had. -/
def Unrepeated : World → List Event → Prop :=
  Along step fun world event => world.recreates event = false

instance (world : World) (events : List Event) : Decidable (Unrepeated world events) :=
  Along.decidable step (fun world event => world.recreates event = false) world events

theorem run_sound (world : World) (sound : Sound world) (events : List Event) (final : World)
    (unrepeated : Unrepeated world events) (ran : run step world events = some final) :
    Sound final ∧ (Served world → Served final) := by
  refine run_preserves_along step (fun world event => world.recreates event = false)
    (fun reached => Sound reached ∧ (Served world → Served reached)) ?_ events world final
    ⟨sound, id⟩ unrepeated ran
  intro reached event next inv fresh stepped
  have stands := step_stands reached event next inv.1 fresh stepped
  exact ⟨stands.sound, fun served => stands.served (inv.2 served)⟩

/-- In a run that repeats no name, every state has one index at most under each alias, that of
search a filled one; search never loses it, and no step deletes it. -/
theorem search_keeps_one_index (events later : List Event) (world final : World)
    (ran : run step initial events = some world) (went : run step world later = some final)
    (unrepeated : Unrepeated initial (events ++ later)) :
    OneIndex final ∧
      (existsAlias productsAlias world.indices = true →
        existsAlias productsAlias final.indices = true) ∧
      ∀ event next, final.recreates event = false → step final event = some next →
        ∀ index ∈ final.indices, index.carries productsAlias = true →
          hasIndex index.name next.indices = true := by
  obtain ⟨early, late⟩ := along_append step _ initial world events later ran unrepeated
  have middle := (run_sound initial initial_sound events world early ran).1
  obtain ⟨sound, served⟩ := run_sound world middle later final late went
  refine ⟨sound.oneIndex, ?_, ?_⟩
  · intro present
    exact sound.books.served_iff.mpr (served (middle.books.served_iff.mp present))
  · intro event next fresh stepped index member carried
    have stands := step_stands final event next sound fresh stepped
    have entry := (sound.books.carries_iff index member productsAlias).mp carried
    exact (hasIndex_iff index.name next.indices).mpr (stands.standing index member entry)

def onePerPage : PageSize := ⟨1, by decide⟩

def booted : List Event := [.start 0 .ensureIndex] ++ List.replicate 4 (.turn 0 5)

def rebuilt : List Event :=
  [.insert 7, .start 1 (.rebuildIndex onePerPage)] ++ List.replicate 10 (.turn 1 100)

theorem search_keeps_one_index_rebuilt :
    ∃ world final, run step initial booted = some world ∧ run step world rebuilt = some final ∧
      world.indices = [⟨0, [(.products, true)], []⟩] ∧
      final.indices = [⟨100, [(.products, true)], [7]⟩] ∧ OneIndex final ∧
      existsAlias productsAlias final.indices = true := by
  have before : (run step initial booted).map World.indices =
      some [⟨0, [(.products, true)], []⟩] := by
    decide +kernel
  have after : (run step initial (booted ++ rebuilt)).map World.indices =
      some [⟨100, [(.products, true)], [7]⟩] := by
    decide +kernel
  obtain ⟨world, ran, first⟩ := Option.map_eq_some_iff.mp before
  obtain ⟨final, whole, second⟩ := Option.map_eq_some_iff.mp after
  rw [run_append, ran] at whole
  have went : run step world rebuilt = some final := whole
  obtain ⟨one, stays, -⟩ := search_keeps_one_index booted rebuilt world final ran went
    (by decide +kernel)
  exact ⟨world, final, ran, went, first, second, one, stays (by rw [first]; decide)⟩

/-! ## A name that recurs -/

/-- A run fills its index and finds that it holds the lock; the index is cleared as stale, and the
clearing run, whose clock reads the same millisecond, makes another of that name; the first run
swaps. -/
def sameMillisecond : List Event :=
  booted ++ [.insert 7, .start 1 (.rebuildIndex onePerPage)] ++
    List.replicate 7 (.turn 1 100) ++
    [.start 2 (.clearStale onePerPage)] ++ List.replicate 5 (.turn 2 100) ++ [.turn 1 100]

theorem same_millisecond_promotes_unfilled :
    ∃ world, run step initial sameMillisecond = some world ∧
      world.indices = [⟨100, [(.products, true)], []⟩, ⟨0, [], []⟩] ∧ ¬ OneIndex world := by
  have reached : (run step initial sameMillisecond).map (fun world =>
      (world.indices, world.filled)) = some ([⟨100, [(.products, true)], []⟩, ⟨0, [], []⟩],
        [⟨onePerPage, 100, [7]⟩]) := by
    decide +kernel
  obtain ⟨world, ran, same⟩ := Option.map_eq_some_iff.mp reached
  obtain ⟨indices, filled⟩ := Prod.mk.inj same
  refine ⟨world, ran, indices, fun one => ?_⟩
  have search := one.filled ⟨100, [(.products, true)], []⟩
    (by rw [indices]; exact List.mem_cons_self) (by decide)
  rcases search with first | ⟨fill, listed, -, every⟩
  · exact absurd first (by decide)
  · rw [filled] at listed
    cases List.mem_singleton.mp listed
    cases every 7 List.mem_cons_self

end Commerce.Search
