import Commerce.Search.Rebuilds

/-!
# What the engine's aliases say

An index that carries the rebuild alias got it when it was created, and keeps
what its fill wrote for as long as it does.  An index that carries no alias gets
none later, but for the initial one, and that only while search has no index.
-/

set_option autoImplicit false

namespace Commerce.Search

open Aliases

/-! ## Invariant -/

/-- A fill of the index went through every page, and what it found is in the index. -/
def FilledToEnd (world : World) (index : Index IndexName Alias ProductId) : Prop :=
  ∃ fill ∈ world.filled, fill.index = index.name ∧
    ∀ product ∈ fill.products, product ∈ index.documents

structure Books (world : World) : Prop where
  names : (world.indices.map Index.name).Nodup
  clear : Unambiguous world.indices
  writes : ∀ index ∈ world.indices, ∀ entry ∈ index.aliases, entry.2 = true
  named : ∀ index ∈ world.indices, index.name ∈ world.named
  initial : initialIndex ∈ world.named
  locks : ∀ index ∈ world.indices, (rebuildAlias, true) ∈ index.aliases →
    index.name ≠ initialIndex ∧ (productsAlias, true) ∉ index.aliases
  serves : ∀ index ∈ world.indices, (productsAlias, true) ∈ index.aliases →
    index.name = initialIndex ∨ FilledToEnd world index

theorem initial_books : Books initial := by
  constructor <;> simp [initial, Unambiguous]

def Served (world : World) : Prop :=
  ∃ index ∈ world.indices, (productsAlias, true) ∈ index.aliases

def Retired (world : World) (name : IndexName) : Prop :=
  name ∈ world.named ∧ (∀ index ∈ world.indices, index.name = name → index.aliases = []) ∧
    (name = initialIndex → Served world)

/-- While the fill's index holds the lock it has the products of the fill, but for those still
missing. -/
def Reached (world : World) (fill : Fill) (missing : ProductId → Prop) : Prop :=
  fill.index ∈ world.named ∧
    ∀ index ∈ world.indices, index.name = fill.index → (rebuildAlias, true) ∈ index.aliases →
      ∀ product ∈ fill.products, product ∈ index.documents ∨ missing product

def Complete (world : World) (fill : Fill) : Prop :=
  fill ∈ world.filled ∧ Reached world fill fun _ => False

theorem Books.carries_iff {world : World} (books : Books world)
    (index : Index IndexName Alias ProductId) (member : index ∈ world.indices) (name : Alias) :
    index.carries name = true ↔ (name, true) ∈ index.aliases := by
  rw [Aliases.carries_iff]
  constructor
  · rintro ⟨isWriteIndex, entry⟩
    have writes : isWriteIndex = true := books.writes index member _ entry
    rwa [writes] at entry
  · intro entry
    exact ⟨true, entry⟩

theorem Books.served_iff {world : World} (books : Books world) :
    existsAlias productsAlias world.indices = true ↔ Served world := by
  rw [existsAlias_iff]
  constructor
  · rintro ⟨index, member, carried⟩
    exact ⟨index, member, (books.carries_iff index member _).mp carried⟩
  · rintro ⟨index, member, entry⟩
    exact ⟨index, member, (books.carries_iff index member _).mpr entry⟩

theorem Books.eq_of_name {world : World} (books : Books world)
    (first second : Index IndexName Alias ProductId) (memFirst : first ∈ world.indices)
    (memSecond : second ∈ world.indices) (same : first.name = second.name) : first = second :=
  List.inj_on_of_nodup_map books.names memFirst memSecond same

/-! ## What a step leaves to the others -/

structure Later (world next : World) : Prop where
  named : ∀ name ∈ world.named, name ∈ next.named
  filled : ∀ fill ∈ world.filled, fill ∈ next.filled
  products : ∀ product ∈ world.products, product ∈ next.products
  served : Served world → Served next
  /-- The index behind search is not deleted. -/
  standing : ∀ index ∈ world.indices, (productsAlias, true) ∈ index.aliases →
    index.name ∈ next.indices.map Index.name
  bare : ∀ name, Retired world name →
    ∀ index ∈ next.indices, index.name = name → index.aliases = []
  locked : ∀ index ∈ next.indices, index.name ∈ world.named →
    (rebuildAlias, true) ∈ index.aliases →
    ∃ before ∈ world.indices, before.name = index.name ∧
      (rebuildAlias, true) ∈ before.aliases ∧
      ∀ product ∈ before.documents, product ∈ index.documents

theorem later_refl (world : World) : Later world world :=
  ⟨fun _ listed => listed, fun _ listed => listed, fun _ listed => listed, id,
    fun _ member _ => List.mem_map_of_mem member, fun _ retired => retired.2.1,
    fun index member _ entry => ⟨index, member, rfl, entry, fun _ listed => listed⟩⟩

theorem Later.elsewhere {world middle next : World} (later : Later world middle)
    (indices : next.indices = middle.indices) (named : next.named = middle.named)
    (filled : next.filled = middle.filled) (products : next.products = middle.products) :
    Later world next := by
  cases middle
  cases next
  cases indices
  cases named
  cases filled
  cases products
  exact ⟨later.named, later.filled, later.products, later.served, later.standing, later.bare,
    later.locked⟩

theorem Retired.later {world next : World} {name : IndexName} (retired : Retired world name)
    (later : Later world next) : Retired next name :=
  ⟨later.named name retired.1, later.bare name retired,
    fun same => later.served (retired.2.2 same)⟩

theorem Reached.later {world next : World} {fill : Fill} {missing : ProductId → Prop}
    (reached : Reached world fill missing) (later : Later world next) :
    Reached next fill missing := by
  refine ⟨later.named _ reached.1, fun index member same entry product listed => ?_⟩
  have known : index.name ∈ world.named := same ▸ reached.1
  obtain ⟨before, there, sameName, locked, fewer⟩ := later.locked index member known entry
  rcases reached.2 before there (sameName.trans same) locked product listed with stored | missed
  · exact .inl (fewer product stored)
  · exact .inr missed

theorem Complete.later {world next : World} {fill : Fill} (complete : Complete world fill)
    (later : Later world next) : Complete next fill :=
  ⟨later.filled fill complete.1, complete.2.later later⟩

/-! ## Calls that keep the books -/

/-- What is known of a call that is sent, for as long as it is on its way. -/
def Safe (world : World) : Call → Prop
  | .create index aliases =>
      aliases = [(rebuildAlias, true)] ∨ (index = initialIndex ∧ aliases = [])
  | .updateAliases actions =>
      actions = [.add initialIndex productsAlias true] ∨ (∃ name, actions = release name) ∨
        ∃ fill serving, actions = swap fill.index serving ∧ Complete world fill
  | .delete names => ∀ name ∈ names, Retired world name
  | _ => True

theorem Safe.later {world next : World} {call : Call} (safe : Safe world call)
    (later : Later world next) : Safe next call := by
  cases call with
  | create index aliases => exact safe
  | updateAliases actions =>
      rcases safe with added | released | ⟨fill, serving, same, complete⟩
      · exact .inl added
      · exact .inr (.inl released)
      · exact .inr (.inr ⟨fill, serving, same, complete.later later⟩)
  | delete names => exact fun name listed => (safe name listed).later later
  | existsAlias _ => trivial
  | putMapping _ => trivial
  | getAlias => trivial
  | refresh _ => trivial
  | bulk _ _ => trivial

def Fresh (world : World) (call : Call) : Prop :=
  match call with
  | .create index (_ :: _) =>
      index ∈ world.named → hasIndex index world.indices = true
  | _ => True

structure Kept (world next : World) : Prop where
  books : Books next
  later : Later world next
  sessions : next.sessions = world.sessions
  transit : next.transit = world.transit

theorem kept_refl (world : World) (books : Books world) : Kept world world :=
  ⟨books, later_refl world, rfl, rfl⟩

theorem create_kept (world : World) (books : Books world) (name : IndexName)
    (aliases : List (Alias × Bool)) (safe : Safe world (.create name aliases))
    (fresh : Fresh world (.create name aliases)) (next : Indices)
    (created : create name aliases world.indices = .ok next) :
    Kept world (world.applied (.create name aliases) next) := by
  obtain ⟨rfl, absent, clear⟩ := create_ok name aliases world.indices next created
  have own : aliases = [] ∨ (aliases = [(rebuildAlias, true)] ∧ name ∉ world.named) := by
    rcases safe with rfl | ⟨-, rfl⟩
    · refine .inr ⟨rfl, fun known => absent ?_⟩
      exact (hasIndex_iff name world.indices).mp (fresh known)
    · exact .inl rfl
  have noProducts : (productsAlias, true) ∉ aliases := by
    rcases own with rfl | ⟨rfl, -⟩ <;> decide
  refine ⟨⟨?_, clear, ?_, ?_, ?_, ?_, ?_⟩, ⟨?_, ?_, ?_, ?_, ?_, ?_, ?_⟩, rfl, rfl⟩
  · exact List.nodup_cons.mpr ⟨absent, books.names⟩
  · intro index member entry listed
    rcases List.mem_cons.mp member with rfl | old
    · rcases own with rfl | ⟨rfl, -⟩
      · cases listed
      · cases List.mem_singleton.mp listed
        rfl
    · exact books.writes index old entry listed
  · intro index member
    rcases List.mem_cons.mp member with rfl | old
    · exact List.mem_cons_self
    · exact List.mem_cons_of_mem _ (books.named index old)
  · exact List.mem_cons_of_mem _ books.initial
  · intro index member entry
    rcases List.mem_cons.mp member with rfl | old
    · rcases own with rfl | ⟨-, unnamed⟩
      · cases entry
      · refine ⟨?_, noProducts⟩
        rintro rfl
        exact unnamed books.initial
    · exact books.locks index old entry
  · intro index member entry
    rcases List.mem_cons.mp member with rfl | old
    · exact absurd entry noProducts
    · exact books.serves index old entry
  · exact fun _ listed => List.mem_cons_of_mem _ listed
  · exact fun _ listed => listed
  · exact fun _ listed => listed
  · rintro ⟨index, member, entry⟩
    exact ⟨index, List.mem_cons_of_mem _ member, entry⟩
  · exact fun index member _ => List.mem_cons_of_mem _ (List.mem_map_of_mem member)
  · intro other retired index member same
    rcases List.mem_cons.mp member with rfl | old
    · rcases own with rfl | ⟨-, unnamed⟩
      · rfl
      · have known : name ∈ world.named := by
          rw [show name = other from same]
          exact retired.1
        exact absurd known unnamed
    · exact retired.2.1 index old same
  · intro index member known entry
    rcases List.mem_cons.mp member with rfl | old
    · rcases own with rfl | ⟨-, unnamed⟩
      · cases entry
      · exact absurd known unnamed
    · exact ⟨index, old, rfl, entry, fun _ listed => listed⟩

theorem delete_kept (world : World) (books : Books world) (names : List IndexName)
    (safe : ∀ name ∈ names, Retired world name) (next : Indices)
    (deleted : delete names world.indices = .ok next) :
    Kept world (world.applied (.delete names) next) := by
  have kept := delete_ok names world.indices next deleted
  have fewer : ∀ index ∈ next, index ∈ world.indices := by
    intro index member
    rw [kept] at member
    exact (List.mem_filter.mp member).1
  have stays : ∀ index ∈ world.indices, (productsAlias, true) ∈ index.aliases → index ∈ next := by
    intro index member entry
    have spared : index.name ∉ names := by
      intro listed
      rw [(safe index.name listed).2.1 index member rfl] at entry
      cases entry
    rw [kept]
    exact List.mem_filter.mpr ⟨member, decide_eq_true spared⟩
  refine ⟨⟨?_, ?_, ?_, ?_, ?_, ?_, ?_⟩, ⟨?_, ?_, ?_, ?_, ?_, ?_, ?_⟩, rfl, rfl⟩
  · have shorter : List.Sublist (next.map Index.name) (world.indices.map Index.name) := by
      rw [kept]
      exact List.filter_sublist.map _
    exact books.names.sublist shorter
  · have clear : Unambiguous next := by
      rw [kept]
      exact List.Pairwise.filter _ books.clear
    exact clear
  · exact fun index member => books.writes index (fewer index member)
  · exact fun index member => books.named index (fewer index member)
  · exact books.initial
  · exact fun index member => books.locks index (fewer index member)
  · exact fun index member => books.serves index (fewer index member)
  · exact fun _ listed => listed
  · exact fun _ listed => listed
  · exact fun _ listed => listed
  · rintro ⟨index, member, entry⟩
    exact ⟨index, stays index member entry, entry⟩
  · exact fun index member entry => List.mem_map_of_mem (stays index member entry)
  · exact fun name retired index member same => retired.2.1 index (fewer index member) same
  · exact fun index member _ entry =>
      ⟨index, fewer index member, rfl, entry, fun _ listed => listed⟩

theorem bulk_kept (world : World) (books : Books world) (name : Alias)
    (documents : List ProductId) (next : Indices)
    (written : bulk name documents world.indices = .ok next) :
    Kept world (world.applied (.bulk name documents) next) := by
  have same := bulk_ok name documents world.indices next written
  have before : ∀ index ∈ next, ∃ old ∈ world.indices, old.name = index.name ∧
      old.aliases = index.aliases ∧ ∀ product ∈ old.documents, product ∈ index.documents := by
    intro index member
    rw [same] at member
    obtain ⟨old, there, rfl⟩ := List.mem_map.mp member
    exact ⟨old, there, (write_name name documents old).symm,
      (write_aliases name documents old).symm,
      fun product => mem_write_of_mem name documents old product⟩
  have after : ∀ old ∈ world.indices, old.write name documents ∈ next := by
    intro old member
    rw [same]
    exact List.mem_map_of_mem member
  have sameNames : next.map Index.name = world.indices.map Index.name := by
    rw [same, List.map_map]
    exact List.map_congr_left fun index _ => write_name name documents index
  refine ⟨⟨?_, ?_, ?_, ?_, ?_, ?_, ?_⟩, ⟨?_, ?_, ?_, ?_, ?_, ?_, ?_⟩, rfl, rfl⟩
  · have nodup : (next.map Index.name).Nodup := sameNames ▸ books.names
    exact nodup
  · have clear : Unambiguous next := by
      rw [same]
      refine List.pairwise_map.mpr (books.clear.imp fun apart entry member writes other => ?_)
      rw [write_aliases] at member other
      exact apart entry member writes other
    exact clear
  · intro index member entry listed
    obtain ⟨old, there, -, sameAliases, -⟩ := before index member
    exact books.writes old there entry (sameAliases ▸ listed)
  · intro index member
    obtain ⟨old, there, sameName, -, -⟩ := before index member
    exact sameName ▸ books.named old there
  · exact books.initial
  · intro index member entry
    obtain ⟨old, there, sameName, sameAliases, -⟩ := before index member
    rw [← sameAliases] at entry ⊢
    exact sameName ▸ books.locks old there entry
  · intro index member entry
    obtain ⟨old, there, sameName, sameAliases, more⟩ := before index member
    rw [← sameAliases] at entry
    rcases books.serves old there entry with first | ⟨fill, listed, filled, every⟩
    · exact .inl (sameName ▸ first)
    · exact .inr ⟨fill, listed, filled.trans sameName,
        fun product wanted => more product (every product wanted)⟩
  · exact fun _ listed => listed
  · exact fun _ listed => listed
  · exact fun _ listed => listed
  · rintro ⟨index, member, entry⟩
    exact ⟨_, after index member, by rwa [write_aliases]⟩
  · intro index member _
    have still : index.name ∈ next.map Index.name := sameNames ▸ List.mem_map_of_mem member
    exact still
  · intro other retired index member sameName
    obtain ⟨old, there, oldName, sameAliases, -⟩ := before index member
    rw [← sameAliases]
    exact retired.2.1 old there (oldName.trans sameName)
  · intro index member _ entry
    obtain ⟨old, there, sameName, sameAliases, more⟩ := before index member
    exact ⟨old, there, sameName, sameAliases ▸ entry, more⟩

/-! ## Alias updates -/

structure Respects (world : World) (actions : List (Action IndexName Alias)) : Prop where
  adds : ∀ name added flag, .add name added flag ∈ actions → added = productsAlias ∧ flag = true
  serves : ∀ index ∈ world.indices, .add index.name productsAlias true ∈ actions →
    index.name = initialIndex ∨ FilledToEnd world index
  locks : ∀ index ∈ world.indices, .add index.name productsAlias true ∈ actions →
    (rebuildAlias, true) ∉ (onAll actions index).aliases
  served : Served world →
    ∃ index ∈ world.indices, (productsAlias, true) ∈ (onAll actions index).aliases
  bare : ∀ name, Retired world name → name ∈ world.indices.map Index.name →
    .add name productsAlias true ∉ actions

theorem update_kept (world : World) (books : Books world)
    (actions : List (Action IndexName Alias)) (next : Indices)
    (updated : updateAliases actions world.indices = .ok next)
    (respects : Respects world actions) :
    Kept world (world.applied (.updateAliases actions) next) := by
  obtain ⟨-, same, clear⟩ := updateAliases_ok actions world.indices next updated
  have before : ∀ index ∈ next, ∃ old ∈ world.indices, index = onAll actions old := by
    intro index member
    rw [same] at member
    obtain ⟨old, there, rfl⟩ := List.mem_map.mp member
    exact ⟨old, there, rfl⟩
  have lockedBefore : ∀ old : Index IndexName Alias ProductId,
      (rebuildAlias, true) ∈ (onAll actions old).aliases → (rebuildAlias, true) ∈ old.aliases := by
    intro old entry
    rcases mem_onAll actions old _ entry with there | added
    · exact there
    · cases (respects.adds _ _ _ added).1
  have sameNames : next.map Index.name = world.indices.map Index.name := by
    rw [same, List.map_map]
    exact List.map_congr_left fun index _ => onAll_name actions index
  refine ⟨⟨?_, clear, ?_, ?_, books.initial, ?_, ?_⟩, ⟨?_, ?_, ?_, ?_, ?_, ?_, ?_⟩, rfl, rfl⟩
  · have nodup : (next.map Index.name).Nodup := sameNames ▸ books.names
    exact nodup
  · intro index member entry listed
    obtain ⟨old, there, rfl⟩ := before index member
    rcases mem_onAll actions old entry listed with present | added
    · exact books.writes old there entry present
    · exact (respects.adds _ _ _ added).2
  · intro index member
    obtain ⟨old, there, rfl⟩ := before index member
    rw [onAll_name]
    exact books.named old there
  · intro index member entry
    obtain ⟨old, there, rfl⟩ := before index member
    have locks := books.locks old there (lockedBefore old entry)
    rw [onAll_name]
    refine ⟨locks.1, fun served => ?_⟩
    rcases mem_onAll actions old _ served with present | added
    · exact locks.2 present
    · exact respects.locks old there added entry
  · intro index member entry
    obtain ⟨old, there, rfl⟩ := before index member
    have filled : old.name = initialIndex ∨ FilledToEnd world old := by
      rcases mem_onAll actions old _ entry with present | added
      · exact books.serves old there present
      · exact respects.serves old there added
    rcases filled with first | ⟨fill, listed, named, every⟩
    · exact .inl ((onAll_name actions old).trans first)
    · refine .inr ⟨fill, listed, named.trans (onAll_name actions old).symm, ?_⟩
      intro product wanted
      rw [onAll_documents]
      exact every product wanted
  · exact fun _ listed => listed
  · exact fun _ listed => listed
  · exact fun _ listed => listed
  · intro served
    obtain ⟨index, member, entry⟩ := respects.served served
    refine ⟨onAll actions index, ?_, entry⟩
    have listed : onAll actions index ∈ next := by
      rw [same]
      exact List.mem_map_of_mem member
    exact listed
  · intro index member _
    have still : index.name ∈ next.map Index.name := sameNames ▸ List.mem_map_of_mem member
    exact still
  · intro name retired index member sameName
    obtain ⟨old, there, rfl⟩ := before index member
    rw [onAll_name] at sameName
    refine List.eq_nil_iff_forall_not_mem.mpr fun entry listed => ?_
    rcases mem_onAll actions old entry listed with present | added
    · rw [retired.2.1 old there sameName] at present
      cases present
    · obtain ⟨isSearch, writes⟩ := respects.adds _ _ _ added
      rw [isSearch, writes, sameName] at added
      exact respects.bare name retired (sameName ▸ List.mem_map_of_mem there) added
  · intro index member _ entry
    obtain ⟨old, there, rfl⟩ := before index member
    refine ⟨old, there, (onAll_name actions old).symm, lockedBefore old entry, ?_⟩
    intro product listed
    rwa [onAll_documents]

theorem initial_respects (world : World) (books : Books world) (next : Indices)
    (updated : updateAliases [.add initialIndex productsAlias true] world.indices = .ok next) :
    Respects world [.add initialIndex productsAlias true] := by
  obtain ⟨-, same, clear⟩ := updateAliases_ok _ world.indices next updated
  have holds : ∀ index : Index IndexName Alias ProductId,
      (productsAlias, true) ∈ index.aliases ∨ index.name = initialIndex →
      (productsAlias, true) ∈ (onAll [.add initialIndex productsAlias true] index).aliases := by
    intro index either
    rcases either with entry | here
    · exact mem_on_add_of_mem initialIndex productsAlias true index entry
    · exact mem_on_add initialIndex productsAlias true index here
  have isInitial : ∀ name,
      Action.add name productsAlias true ∈ [Action.add initialIndex productsAlias true] →
      name = initialIndex := by
    intro name added
    exact (Action.add.inj (List.mem_singleton.mp added)).1
  refine ⟨?_, ?_, ?_, ?_, ?_⟩
  · intro name added flag listed
    cases List.mem_singleton.mp listed
    exact ⟨rfl, rfl⟩
  · exact fun index _ added => .inl (isInitial index.name added)
  · intro index member added entry
    have old : (rebuildAlias, true) ∈ index.aliases := by
      rcases mem_onAll _ index _ entry with there | wrong
      · exact there
      · cases (Action.add.inj (List.mem_singleton.mp wrong)).2.1
    exact (books.locks index member old).1 (isInitial index.name added)
  · rintro ⟨index, member, entry⟩
    exact ⟨index, member, holds index (.inl entry)⟩
  · -- with an index behind search, the engine refuses the initial one
    intro name retired present added
    have first : name = initialIndex := isInitial name added
    obtain ⟨index, member, sameName⟩ := List.mem_map.mp present
    obtain ⟨holder, there, entry⟩ := retired.2.2 first
    have different : onAll [.add initialIndex productsAlias true] holder ≠
        onAll [.add initialIndex productsAlias true] index := by
      intro equal
      have names := congrArg Index.name equal
      rw [onAll_name, onAll_name] at names
      rw [retired.2.1 holder there (names.trans sameName)] at entry
      cases entry
    have apart : Apart (onAll [.add initialIndex productsAlias true] holder)
        (onAll [.add initialIndex productsAlias true] index) := by
      refine clear.forall ?_ ?_ different
      · rw [same]
        exact List.mem_map_of_mem there
      · rw [same]
        exact List.mem_map_of_mem member
    exact apart (productsAlias, true) (holds holder (.inl entry)) rfl
      (holds index (.inr (sameName.trans first)))

theorem release_respects (world : World) (name : IndexName) : Respects world (release name) := by
  have none : ∀ other added flag, Action.add other added flag ∉ release name := by
    intro other added flag listed
    cases List.mem_singleton.mp listed
  refine ⟨?_, ?_, ?_, ?_, ?_⟩
  · exact fun other added flag listed => absurd listed (none other added flag)
  · exact fun index _ added => absurd added (none _ _ _)
  · exact fun index _ added => absurd added (none _ _ _)
  · rintro ⟨index, member, entry⟩
    refine ⟨index, member, ?_⟩
    have other : ∀ found flag,
        Action.remove name rebuildAlias true ≠ .remove found productsAlias flag ∧
          Action.remove name rebuildAlias true ≠ .add found productsAlias flag := by
      intro found flag
      refine ⟨fun same => ?_, fun same => ?_⟩
      · cases (Action.remove.inj same).2.1
      · cases same
    exact mem_on_of_mem (.remove name rebuildAlias true) index _ entry other
  · exact fun other _ _ => none other productsAlias true

theorem release_retires (world : World) (books : Books world) (name : IndexName) (next : Indices)
    (updated : updateAliases (release name) world.indices = .ok next) :
    Retired (world.applied (.updateAliases (release name)) next) name := by
  obtain ⟨applied, same, -⟩ := updateAliases_ok _ world.indices next updated
  have found : ∃ index ∈ world.indices, index.name = name ∧ index.carries rebuildAlias = true := by
    simp only [release, applyAll] at applied
    split at applied
    · cases applied
    · rename_i here
      exact remove_ok name rebuildAlias world.indices _ here
  obtain ⟨holder, there, sameName, carried⟩ := found
  have entry := (books.carries_iff holder there rebuildAlias).mp carried
  obtain ⟨notInitial, noSearch⟩ := books.locks holder there entry
  refine ⟨sameName ▸ books.named holder there, ?_, fun first =>
    absurd (sameName.trans first) notInitial⟩
  intro index member named
  have listed : index ∈ world.indices.map (onAll (release name)) := same ▸ member
  obtain ⟨old, present, rfl⟩ := List.mem_map.mp listed
  rw [onAll_name] at named
  obtain rfl : old = holder := books.eq_of_name old holder present there (named.trans sameName.symm)
  rw [List.eq_nil_iff_forall_not_mem]
  rintro ⟨found, flag⟩ left
  have kept : (found, flag) ∈ old.aliases := by
    rcases mem_onAll (release name) old _ left with before | added
    · exact before
    · cases List.mem_singleton.mp added
  have writes : flag = true := books.writes old present _ kept
  cases found with
  | products => exact noSearch (writes ▸ kept)
  | productsRebuilding =>
      have released := remove_carries name rebuildAlias true old sameName
      have still := (Aliases.carries_iff (onAll (release name) old) rebuildAlias).mpr ⟨flag, left⟩
      exact Bool.noConfusion (released.symm.trans still)

theorem mem_swap_add (rebuild name : IndexName) (serving : List IndexName) (added : Alias)
    (flag : Bool) (listed : Action.add name added flag ∈ swap rebuild serving) :
    name = rebuild ∧ added = productsAlias ∧ flag = true := by
  rcases List.mem_append.mp listed with removed | last
  · obtain ⟨index, -, wrong⟩ := List.mem_map.mp removed
    cases wrong
  · rcases List.mem_cons.mp last with same | other
    · cases same
      exact ⟨rfl, rfl, rfl⟩
    · cases List.mem_singleton.mp other

/-- A swap that went through moved search onto the index that held the lock. -/
theorem swap_ok (world : World) (books : Books world) (rebuild : IndexName)
    (serving : List IndexName) (next : Indices)
    (updated : updateAliases (swap rebuild serving) world.indices = .ok next) :
    ∃ holder ∈ world.indices, holder.name = rebuild ∧ (rebuildAlias, true) ∈ holder.aliases ∧
      (productsAlias, true) ∈ (onAll (swap rebuild serving) holder).aliases ∧
      (rebuildAlias, true) ∉ (onAll (swap rebuild serving) holder).aliases := by
  obtain ⟨applied, -, -⟩ := updateAliases_ok _ world.indices next updated
  have split : swap rebuild serving =
      (serving.map (fun index => Action.remove index productsAlias true) ++
        [.add rebuild productsAlias true]) ++ [.remove rebuild rebuildAlias true] := by
    simp [swap]
  have onLast : ∀ index : Index IndexName Alias ProductId, onAll (swap rebuild serving) index =
      (Action.remove rebuild rebuildAlias true).on ((Action.add rebuild productsAlias true).on
        (onAll (serving.map fun name => Action.remove name productsAlias true) index)) := by
    intro index
    rw [split, onAll_append, onAll_append]
    rfl
  obtain ⟨middle, early, late⟩ := applyAll_append _ _ world.indices next (split ▸ applied)
  have found : ∃ index ∈ middle, index.name = rebuild ∧ index.carries rebuildAlias = true := by
    simp only [applyAll] at late
    revert late
    cases removed : (Action.remove rebuild rebuildAlias true).apply middle with
    | error refusal =>
        intro late
        cases late
    | ok _ =>
        intro _
        exact remove_ok rebuild rebuildAlias middle _ removed
  obtain ⟨index, member, sameName, carried⟩ := found
  rw [applyAll_ok _ world.indices middle early] at member
  obtain ⟨holder, there, rfl⟩ := List.mem_map.mp member
  rw [onAll_name] at sameName
  have entry : (rebuildAlias, true) ∈ holder.aliases := by
    obtain ⟨flag, listed⟩ := (Aliases.carries_iff _ rebuildAlias).mp carried
    rcases mem_onAll _ holder _ listed with before | added
    · have writes : flag = true := books.writes holder there _ before
      exact writes ▸ before
    · rcases List.mem_append.mp added with removed | last
      · obtain ⟨name, -, wrong⟩ := List.mem_map.mp removed
        cases wrong
      · cases List.mem_singleton.mp last
  refine ⟨holder, there, sameName, entry, ?_, ?_⟩
  · rw [onLast]
    refine mem_on_of_mem _ _ _ (mem_on_add rebuild productsAlias true _ ?_) fun name flag =>
      ⟨?_, ?_⟩
    · rw [onAll_name, sameName]
    · intro same
      cases (Action.remove.inj same).2.1
    · intro same
      cases same
  · rw [onLast]
    intro still
    have gone := remove_carries rebuild rebuildAlias true
      ((Action.add rebuild productsAlias true).on
      (onAll (serving.map fun name => Action.remove name productsAlias true) holder))
      (by rw [on_name, onAll_name, sameName])
    exact Bool.noConfusion (gone.symm.trans ((Aliases.carries_iff _ rebuildAlias).mpr
      ⟨true, still⟩))

theorem swap_respects (world : World) (books : Books world) (fill : Fill)
    (serving : List IndexName) (complete : Complete world fill) (next : Indices)
    (updated : updateAliases (swap fill.index serving) world.indices = .ok next) :
    Respects world (swap fill.index serving) := by
  obtain ⟨holder, there, sameName, entry, serves, released⟩ :=
    swap_ok world books fill.index serving next updated
  have isHolder : ∀ index ∈ world.indices,
      Action.add index.name productsAlias true ∈ swap fill.index serving → index = holder := by
    intro index member added
    have named := (mem_swap_add fill.index index.name serving _ _ added).1
    exact books.eq_of_name index holder member there (named.trans sameName.symm)
  refine ⟨?_, ?_, ?_, ?_, ?_⟩
  · exact fun name added flag listed => (mem_swap_add fill.index name serving added flag listed).2
  · intro index member added
    obtain rfl := isHolder index member added
    refine .inr ⟨fill, complete.1, sameName.symm, fun product listed => ?_⟩
    exact (complete.2.2 index member sameName entry product listed).resolve_right id
  · intro index member added
    obtain rfl := isHolder index member added
    exact released
  · exact fun _ => ⟨holder, there, serves⟩
  · intro name retired present added
    have named := (mem_swap_add fill.index name serving _ _ added).1
    rw [retired.2.1 holder there (sameName.trans named.symm)] at entry
    cases entry

/-- Every call that is sent keeps the books. -/
theorem apply_kept (world : World) (books : Books world) (call : Call) (safe : Safe world call)
    (fresh : Fresh world call) (next : Indices) (answer : Answer)
    (applied : call.apply world.indices = .ok (next, answer)) :
    Kept world (world.applied call next) := by
  have acknowledged : ∀ result : Except Refusal Indices,
      acknowledge result = .ok (next, answer) → result = .ok next := by
    intro result same
    cases result with
    | error refusal => cases same
    | ok indices =>
        cases same
        rfl
  have unchanged : next = world.indices → call.naming = [] →
      Kept world (world.applied call next) := by
    intro same silent
    have still : world.applied call next = world := by
      simp only [World.applied, same, silent, List.nil_append]
    rw [still]
    exact kept_refl world books
  cases call with
  | existsAlias name =>
      cases applied
      exact unchanged rfl rfl
  | create index aliases =>
      exact create_kept world books index aliases safe fresh next (acknowledged _ applied)
  | putMapping name =>
      simp only [Call.apply] at applied
      split at applied <;> cases applied
      exact unchanged rfl rfl
  | getAlias =>
      cases applied
      exact unchanged rfl rfl
  | refresh index =>
      simp only [Call.apply] at applied
      split at applied <;> cases applied
      exact unchanged rfl rfl
  | updateAliases actions =>
      have updated := acknowledged _ applied
      refine update_kept world books actions next updated ?_
      rcases safe with rfl | ⟨name, rfl⟩ | ⟨fill, serving, rfl, complete⟩
      · exact initial_respects world books next updated
      · exact release_respects world name
      · exact swap_respects world books fill serving complete next updated
  | delete names => exact delete_kept world books names safe next (acknowledged _ applied)
  | bulk name documents =>
      exact bulk_kept world books name documents next (acknowledged _ applied)

end Commerce.Search
