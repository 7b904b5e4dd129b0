import Commerce.Identity.Claiming
import Commerce.Identity.Lifting

/-!
# Lifts beside running replicas

However many lifts run beside the replicas, and whichever of them lose a race or
an answer, no id is returned twice.  Once a lift has written its marker, every
floor stays at or above it, and a node claimed after it mints above it only.
-/

set_option autoImplicit false

namespace Commerce.Identity

open Revisions
open Runs

def siteStart (origin : Origin) : Site := { world := start origin }

def LiftStage.pending : LiftStage → Option (List NodeEntry)
  | .settling entries | .raising entries => some entries
  | _ => none

/-- What a lift has read of the entries left to it is still worth comparing, and the other nodes
it has raised. -/
structure LiftRun.Raising (world : World) (options : LiftOptions) (entries : List NodeEntry) :
    Prop where
  distinct : (entries.map (·.nodeId)).Nodup
  seen : ∀ entry ∈ entries, Seen world.keyspace (.floor entry.nodeId) entry.floor
  done : ∀ nodeId ∈ leasedNodeIds, nodeId ∈ entries.map (·.nodeId) ∨
    ∃ since, since ≤ world.keyspace.revision ∧ Lifted world options.nowMs since nodeId

def LiftRun.Knows (world : World) (lift : LiftRun) : Prop :=
  ∀ entries, lift.stage.pending = some entries → LiftRun.Raising world lift.options entries

structure SiteInv (hosts : Nat → Host) (site : Site) : Prop where
  inner : Inv hosts site.world
  claimable : Claimable True site.world
  lifts : ∀ lift ∈ site.lifts, lift.Knows site.world
  marks : ∀ mark ∈ site.marks, mark.revision ≤ site.world.keyspace.revision ∧
    ∀ nodeId ∈ leasedNodeIds, ∃ since, since ≤ mark.revision ∧
      Lifted site.world mark.floorMs since nodeId

section Steps

variable {world next : World}

/-- A step that advances the keyspace and leaves lifted nodes lifted. -/
structure Leaves (world next : World) : Prop where
  advances : Advances world.keyspace next.keyspace
  lifted : ∀ floorMs since nodeId, since ≤ world.keyspace.revision →
    Lifted world floorMs since nodeId → Lifted next floorMs since nodeId

theorem LiftRun.Raising.leaves {options : LiftOptions} {entries : List NodeEntry}
    (raising : LiftRun.Raising world options entries) (leaves : Leaves world next) :
    LiftRun.Raising next options entries where
  distinct := raising.distinct
  seen := fun entry member =>
    seen_advances _ _ (.floor entry.nodeId) entry.floor leaves.advances
      (raising.seen entry member)
  done := by
    intro nodeId leased
    rcases raising.done nodeId leased with left | ⟨since, past, lifted⟩
    · exact .inl left
    · exact .inr ⟨since, past.trans leaves.advances.grows, leaves.lifted _ since nodeId past lifted⟩

theorem marks_leave (marks : List Marked) (leaves : Leaves world next)
    (known : ∀ mark ∈ marks, mark.revision ≤ world.keyspace.revision ∧
      ∀ nodeId ∈ leasedNodeIds, ∃ since, since ≤ mark.revision ∧
        Lifted world mark.floorMs since nodeId) :
    ∀ mark ∈ marks, mark.revision ≤ next.keyspace.revision ∧
      ∀ nodeId ∈ leasedNodeIds, ∃ since, since ≤ mark.revision ∧
        Lifted next mark.floorMs since nodeId := by
  intro mark member
  obtain ⟨past, each⟩ := known mark member
  refine ⟨past.trans leaves.advances.grows, fun nodeId leased => ?_⟩
  obtain ⟨since, before, lifted⟩ := each nodeId leased
  exact ⟨since, before, leaves.lifted _ since nodeId (before.trans past) lifted⟩

theorem leaves_raises {keyspace : Keyspace} (raises : Raises world.keyspace keyspace) :
    Leaves world { world with keyspace } :=
  ⟨raises.advances, fun _ _ _ _ lifted => lifted.raises raises⟩

theorem leaves_touches (touches : Touches world next) (inv : Tenures world) : Leaves world next :=
  ⟨touches.advances, fun floorMs since nodeId past lifted =>
    touches.lifted inv floorMs since nodeId past lifted⟩

theorem entries_named (keyspace : Keyspace) :
    (snapshot keyspace).entries.map (·.nodeId) = leasedNodeIds := by
  simp [snapshot, Function.comp_def, entryOf]

theorem raising_read (options : LiftOptions) (inv : Tenures world) :
    LiftRun.Raising world options (snapshot world.keyspace).entries where
  distinct := by
    rw [entries_named]
    exact List.nodup_range' ..
  seen := by
    intro entry member
    obtain ⟨nodeId, -, rfl⟩ := List.mem_map.mp member
    exact seen_read world.keyspace inv.sound (.floor nodeId)
  done := fun nodeId leased => .inl (by rwa [entries_named])

end Steps

/-! ## One call of a lift -/

/-- What a call of a lift leaves: floors moved up at most, and a stage the lift can go on from. -/
structure Called (world : World) (lift : LiftRun) (store : LiftStore) (stage : LiftStage) :
    Prop where
  raises : Raises world.keyspace store.keyspace
  stage : LiftRun.Knows { world with keyspace := store.keyspace } { lift with stage }
  marks : ∀ mark ∈ lift.marks { keyspace := world.keyspace, emptySinceMs := none },
    mark.revision ≤ store.keyspace.revision ∧
      ∀ nodeId ∈ leasedNodeIds, ∃ since, since ≤ mark.revision ∧
        Lifted { world with keyspace := store.keyspace } mark.floorMs since nodeId

section Call

variable {world : World} {lift : LiftRun} {store next : LiftStore} {stage : LiftStage}

theorem knows_ended (world : World) (options : LiftOptions)
    (result : Except LiftError LiftOutcome) :
    LiftRun.Knows world { options, stage := .ended result } := by
  intro entries pending
  cases pending

theorem begin_knows (inv : Tenures world) (options : LiftOptions) :
    LiftRun.Knows world { options, stage := options.begin (snapshot world.keyspace) } := by
  intro entries pending
  have read := raising_read options inv
  unfold LiftOptions.begin at pending
  split at pending
  · cases pending
  · simp only at pending
    split at pending
    · cases pending
    · split at pending <;> (cases pending; exact read)

theorem settled_knows (options : LiftOptions) (entries : List NodeEntry)
    (raising : LiftRun.Raising world options entries) (recordedMs : Option Int) :
    LiftRun.Knows world { options, stage := options.settled entries recordedMs } := by
  intro found pending
  cases recordedMs with
  | none => cases pending
  | some recordedMs =>
      simp only [LiftOptions.settled] at pending
      split at pending
      · cases pending
      · cases pending
        exact raising

/-- After a chunk the nodes it named are lifted since its own revision. -/
theorem chunk_lifted (inv : Tenures world) {keyspace : Keyspace} (nowMs : Int)
    (raises : Raises world.keyspace keyspace) (nodeId : Nat)
    (free : keyspace.cells (.owner nodeId) = none)
    (raised : ∃ cell : Cell Int, keyspace.cells (.floor nodeId) = some cell ∧ nowMs ≤ cell.value) :
    Lifted { world with keyspace } nowMs keyspace.revision nodeId := by
  refine ⟨⟨raised, fun claim member named after => ?_⟩, fun cell present => ?_⟩
  · have range := (inv.range claim member).2
    have grows := raises.advances.grows
    omega
  · cases free.symm.trans present

theorem chunk_called (inv : Tenures world) (options : LiftOptions) (entries : List NodeEntry)
    (raising : LiftRun.Raising world options entries) (emptySinceMs : Option Int)
    (after : LiftStore) (revision : Nat)
    (raised : LiftStore.raiseChunk { keyspace := world.keyspace, emptySinceMs } options
      (entries.take nodesPerTxn) = (after, .done true revision)) :
    Raises world.keyspace after.keyspace ∧
      LiftRun.Raising { world with keyspace := after.keyspace } options
        (entries.drop nodesPerTxn) := by
  generalize committed : world.keyspace.commit (chunkCompare (entries.take nodesPerTxn))
    (chunkSuccess options (entries.take nodesPerTxn)) = outcome at raised
  obtain ⟨keyspace, answer⟩ := outcome
  simp only [LiftStore.raiseChunk, committed, Prod.mk.injEq] at raised
  obtain ⟨rfl, rfl⟩ := raised
  have parted : (entries.take nodesPerTxn).map (·.nodeId) ++
      (entries.drop nodesPerTxn).map (·.nodeId) = entries.map (·.nodeId) := by
    rw [← List.map_append, List.take_append_drop]
  have distinct := raising.distinct
  rw [← parted] at distinct
  obtain ⟨first, rest, -⟩ := List.nodup_append.mp distinct
  obtain ⟨raises, each⟩ := chunk_raises inv.sound first
    (fun entry member => raising.seen entry (List.mem_of_mem_take member)) committed
  have carried := raising.leaves (leaves_raises raises)
  refine ⟨raises, rest, fun entry member => carried.seen entry (List.mem_of_mem_drop member),
    fun nodeId leased => ?_⟩
  rcases carried.done nodeId leased with left | lifted
  · rw [← parted] at left
    rcases List.mem_append.mp left with now | later
    · obtain ⟨entry, member, rfl⟩ := List.mem_map.mp now
      obtain ⟨free, put⟩ := each entry member
      exact .inr ⟨keyspace.revision, le_refl _,
        chunk_lifted inv options.nowMs raises entry.nodeId free put⟩
    · exact .inl later
  · exact .inr lifted

theorem chunk_refused (options : LiftOptions) (chunk : List NodeEntry) (after : LiftStore)
    (answer : Answer) (raised : store.raiseChunk options chunk = (after, answer))
    (refused : ∀ revision, answer ≠ .done true revision) : after = store := by
  generalize committed : store.keyspace.commit (chunkCompare chunk) (chunkSuccess options chunk) =
    outcome at raised
  obtain ⟨keyspace, reply⟩ := outcome
  simp only [LiftStore.raiseChunk, committed, Prod.mk.injEq] at raised
  obtain ⟨rfl, rfl⟩ := raised
  obtain rfl := commit_refused _ _ _ _ _ committed refused
  rfl

theorem call_called (inv : Tenures world) (emptySinceMs : Option Int)
    (knows : lift.Knows world)
    (called : lift.call { keyspace := world.keyspace, emptySinceMs } = some (next, stage)) :
    Called world lift next stage := by
  obtain ⟨options, before⟩ := lift
  unfold LiftRun.call at called
  split at called
  · -- The first read.
    rename_i reading
    cases called
    refine ⟨raises_refl _ inv.sound, begin_knows inv options, fun mark member => ?_⟩
    cases reading
    cases member
  · rename_i entries waiting
    cases called
    cases waiting
    refine ⟨raises_refl _ inv.sound, ?_, fun mark member => absurd member List.not_mem_nil⟩
    exact settled_knows options entries (knows entries rfl) emptySinceMs
  · rename_i settleMs recording
    cases called
    cases recording
    refine ⟨?_, knows_ended _ options _, fun mark member => absurd member List.not_mem_nil⟩
    cases emptySinceMs with
    | some recordedMs => exact raises_refl _ inv.sound
    | none => exact raises_elsewhere _ inv.sound
  · -- Every floor is raised: the marker.
    rename_i marking
    cases called
    cases marking
    have raises := mark_raises world.keyspace inv.sound
    have moved := (knows [] rfl).leaves (leaves_raises raises)
    refine ⟨raises, knows_ended _ options _, fun mark member => ?_⟩
    obtain rfl := List.mem_singleton.mp member
    refine ⟨le_refl _, fun nodeId leased => ?_⟩
    rcases moved.done nodeId leased with left | lifted
    · cases left
    · exact lifted
  · rename_i entry rest raising
    cases raising
    have known := knows (entry :: rest) rfl
    simp only at called
    split at called
    · rename_i after revision raised
      cases called
      obtain ⟨raises, left⟩ := chunk_called inv options (entry :: rest) known emptySinceMs next
        revision raised
      refine ⟨raises, fun entries pending => ?_, fun mark member => absurd member List.not_mem_nil⟩
      cases pending
      exact left
    · rename_i after answer unmet raised
      cases called
      obtain rfl := chunk_refused options _ next answer raised fun revision same =>
        unmet revision same
      exact ⟨raises_refl _ inv.sound, knows_ended _ options _,
        fun mark member => absurd member List.not_mem_nil⟩
  · cases called

end Call

/-! ## Whole runs -/

section Runs

variable {hosts : Nat → Host} {site : Site}

theorem site_move (inv : SiteInv hosts site) (slot : Nat) (lift : LiftRun)
    (store : LiftStore) (stage : LiftStage)
    (called : Called site.world lift store stage) :
    SiteInv hosts (site.move slot lift store stage) where
  inner := called.raises.inv inv.inner
  claimable := ⟨inv.claimable.replicas, inv.claimable.claims⟩
  lifts := by
    intro other member
    rcases List.mem_or_eq_of_mem_set member with old | rfl
    · exact fun entries pending =>
        (inv.lifts other old entries pending).leaves (leaves_raises called.raises)
    · exact called.stage
  marks := by
    intro mark member
    rcases List.mem_append.mp member with old | new
    · exact marks_leave site.marks (leaves_raises called.raises) inv.marks mark old
    · exact called.marks mark new

theorem site_step (inv : SiteInv hosts site) (event : SiteEvent) (next : Site)
    (ordered : SiteInOrder site event) (stepped : siteStep hosts site event = some next) :
    SiteInv hosts next := by
  cases event with
  | replicas event =>
      obtain ⟨world, moved, rfl⟩ := Option.map_eq_some_iff.mp stepped
      have leaves := leaves_touches (step_touches inv.inner event world moved) inv.inner.tenures
      refine ⟨inv_step inv.inner event world (inOrder_uncrossed _ event ordered) moved,
        (step_ready (fun _ => trivial) inv.claimable event world moved).1,
        fun lift member entries pending => ?_, marks_leave site.marks leaves inv.marks⟩
      exact (inv.lifts lift member entries pending).leaves leaves
  | start options =>
      cases stepped
      refine ⟨inv.inner, inv.claimable, fun lift member => ?_, inv.marks⟩
      rcases List.mem_append.mp member with old | new
      · exact inv.lifts lift old
      · obtain rfl := List.mem_singleton.mp new
        intro entries pending
        cases pending
  | lift slot =>
      simp only [siteStep] at stepped
      split at stepped
      · cases stepped
      · rename_i lift found
        obtain ⟨called, ran, rfl⟩ := Option.map_eq_some_iff.mp stepped
        exact site_move inv slot lift called.1 called.2 (call_called inv.inner.tenures
          site.emptySinceMs (inv.lifts lift (List.mem_of_getElem? found)) ran)
  | unanswered slot =>
      simp only [siteStep] at stepped
      split at stepped
      · cases stepped
      · rename_i lift found
        obtain ⟨called, ran, rfl⟩ := Option.map_eq_some_iff.mp stepped
        have answered := call_called inv.inner.tenures site.emptySinceMs
          (inv.lifts lift (List.mem_of_getElem? found)) ran
        exact site_move inv slot lift called.1 _
          ⟨answered.raises, knows_ended _ lift.options _, answered.marks⟩

theorem site_start (hosts : Nat → Host) (origin : Origin) :
    SiteInv hosts (siteStart origin) where
  inner := inv_start hosts origin
  claimable := claimable_start origin
  lifts := fun _ none => absurd none List.not_mem_nil
  marks := fun _ none => absurd none List.not_mem_nil

/-- An id of a tenure claimed after a marker lies above the lift. -/
theorem minted_above (inv : SiteInv hosts site) (mark : Marked) (member : mark ∈ site.marks)
    (minted : Minted) (returned : minted ∈ site.world.minted)
    (after : mark.revision < minted.generation) : mark.floorMs < minted.fields.tsMs := by
  have good := (inv.inner.sane minted.replica).minted minted returned rfl
  obtain ⟨claimFloorMs, ⟨leaseId, claim⟩, above⟩ := good.tenure
  have leased := inv.claimable.claims _ claim
  obtain ⟨since, before, lifted⟩ := (inv.marks mark member).2 _ leased
  obtain ⟨floorMs, recorded, under⟩ := lifted.covered.later _ claim rfl
    (lt_of_le_of_lt before after)
  dsimp only at recorded
  rw [recorded, Option.getD_some] at above
  omega

/-- In any run of replicas and lifts whose replicas' transactions apply in the order sent, no id
is returned twice; after a marker every leased node's floor is at or above the lift, and every id
of a later claim lies above it. -/
theorem lifts_beside_replicas (hosts : Nat → Host) (origin : Origin) (events : List SiteEvent)
    (final : Site) (ordered : Along (siteStep hosts) SiteInOrder (siteStart origin) events)
    (success : run (siteStep hosts) (siteStart origin) events = some final) :
    (final.world.minted.map (·.id)).Nodup ∧
      ∀ mark ∈ final.marks,
        (∀ nodeId ∈ leasedNodeIds, ∃ cell : Cell Int,
          final.world.keyspace.cells (.floor nodeId) = some cell ∧ mark.floorMs ≤ cell.value) ∧
        ∀ minted ∈ final.world.minted, mark.revision < minted.generation →
          mark.floorMs < minted.fields.tsMs := by
  have inv : SiteInv hosts final :=
    run_preserves_along (siteStep hosts) SiteInOrder (SiteInv hosts)
      (fun state event next kept met stepped => site_step kept event next met stepped) events
      (siteStart origin) final (site_start hosts origin) ordered success
  refine ⟨inv.inner.distinct, fun mark member => ⟨fun nodeId leased => ?_, ?_⟩⟩
  · obtain ⟨since, -, lifted⟩ := (inv.marks mark member).2 nodeId leased
    exact lifted.covered.stored
  · exact fun minted returned after => minted_above inv mark member minted returned after

end Runs

theorem lifts_ordered (hosts : Nat → Host) (events : List SiteEvent) (site : Site)
    (lifting : ∀ event ∈ events, ∀ inner, event ≠ .replicas inner) :
    Along (siteStep hosts) SiteInOrder site events := by
  induction events generalizing site with
  | nil => trivial
  | cons event rest ih =>
      refine ⟨?_, fun next _ => ih next fun later member =>
        lifting later (List.mem_cons_of_mem _ member)⟩
      cases event with
      | replicas inner => exact absurd rfl (lifting _ List.mem_cons_self inner)
      | start options => trivial
      | lift slot => trivial
      | unanswered slot => trivial

/-! A replica mints and releases its node, and then every floor is lifted. -/

def laterLift : LiftOptions :=
  { nowMs := epochMs + 5000, onlyIfUninitialized := false, settleMs := none }

def releasingRun : List SiteEvent :=
  ([.acquire 0, .serve 0, .proceed 0 0, .serve 0, .proceed 0 0, .serve 0, .proceed 0 0,
    .generate 0, .release 0, .serve 0, .proceed 0 0, .serve 0] : List Event).map .replicas

def liftingRun : List SiteEvent := .start laterLift :: List.replicate 8 (.lift 0)

set_option maxRecDepth 10000 in
theorem lifts_beside_replicas_marked :
    ∃ final, run (siteStep fun _ => steadyHost) (siteStart initializedOrigin)
        (releasingRun ++ liftingRun) = some final ∧
      (final.marks.length = 1 ∧ final.world.minted.length = 1) ∧
      ∀ mark ∈ final.marks, ∀ nodeId ∈ leasedNodeIds, ∃ cell : Cell Int,
        final.world.keyspace.cells (.floor nodeId) = some cell ∧ mark.floorMs ≤ cell.value := by
  have ordered : Along (siteStep fun _ => steadyHost) SiteInOrder (siteStart initializedOrigin)
      (releasingRun ++ liftingRun) := by
    apply along_concat
    · decide +kernel
    · intro middle _
      apply lifts_ordered
      intro event member inner same
      rcases List.mem_cons.mp member with rfl | member
      · cases same
      · cases (List.eq_of_mem_replicate member).symm.trans same
  have counted : (run (siteStep fun _ => steadyHost) (siteStart initializedOrigin)
      (releasingRun ++ liftingRun)).map
        (fun site => decide (site.marks.length = 1 ∧ site.world.minted.length = 1)) =
          some true := by decide +kernel
  obtain ⟨final, success, counts⟩ := Option.map_eq_some_iff.mp counted
  have lifted := (lifts_beside_replicas (fun _ => steadyHost) initializedOrigin
    (releasingRun ++ liftingRun) final ordered success).2
  exact ⟨final, success, of_decide_eq_true counts, fun mark member => (lifted mark member).1⟩

end Commerce.Identity
