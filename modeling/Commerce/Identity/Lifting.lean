import Commerce.Identity.FloorLift

/-!
# What a lift leaves to the replicas

A lift writes floors of nodes nobody holds, each only if it is still the floor
the lift has read, and never below it.  So it keeps every tenure and all that is
covered.  A node it has raised stays at or above the lift: the next claim reads
that floor, and a holder writes above what its claim has read.
-/

set_option autoImplicit false

namespace Commerce.Identity

open Revisions
open Runs

/-! ## One transaction of a lift -/

structure Raises (before after : Keyspace) : Prop where
  advances : Advances before after
  sound : Sound after
  granted : after.granted = before.granted
  owners : ∀ nodeId, after.cells (.owner nodeId) = before.cells (.owner nodeId)
  floors : ∀ nodeId (cell : Cell Int), before.cells (.floor nodeId) = some cell →
    ∃ moved : Cell Int, after.cells (.floor nodeId) = some moved ∧ cell.value ≤ moved.value
  unleased : ∀ nodeId cell, after.cells (.floor nodeId) = some cell →
    before.cells (.floor nodeId) = some cell ∨ cell.lease = none

theorem raises_refl (keyspace : Keyspace) (sound : Sound keyspace) : Raises keyspace keyspace where
  advances := advances_refl keyspace
  sound := sound
  granted := rfl
  owners := fun _ => rfl
  floors := fun _ cell stored => ⟨cell, stored, le_refl _⟩
  unleased := fun _ _ stored => .inl stored

theorem raises_elsewhere (keyspace : Keyspace) (sound : Sound keyspace) :
    Raises keyspace keyspace.elsewhere where
  advances := advances_elsewhere keyspace
  sound := sound_elsewhere keyspace sound
  granted := rfl
  owners := fun _ => rfl
  floors := fun _ cell stored => ⟨cell, stored, le_refl _⟩
  unleased := fun _ _ stored => .inl stored

theorem chunk_key (options : LiftOptions) (chunk : List NodeEntry) (op : Op Key Value)
    (member : op ∈ chunkSuccess options chunk) :
    ∃ entry ∈ chunk, op = .put (.floor entry.nodeId) (raisedFloor options entry) none := by
  obtain ⟨entry, present, same⟩ := List.mem_map.mp member
  exact ⟨entry, present, same.symm⟩

theorem chunk_floor (options : LiftOptions) (revision : Nat) (chunk : List NodeEntry)
    (cells : (key : Key) → Option (Cell (Value key))) (entry : NodeEntry)
    (member : entry ∈ chunk) (distinct : (chunk.map (·.nodeId)).Nodup) :
    ∃ cell : Cell Int,
      (chunkSuccess options chunk).foldl (fun cells op => op.write revision cells) cells
        (.floor entry.nodeId) = some cell ∧
      cell.value = raisedFloor options entry ∧ cell.lease = none := by
  induction chunk generalizing cells with
  | nil => cases member
  | cons head rest ih =>
      obtain ⟨fresh, distinct⟩ := List.nodup_cons.mp distinct
      rcases List.mem_cons.mp member with rfl | member
      · have untouched : ∀ op ∈ chunkSuccess options rest, op.key ≠ .floor entry.nodeId := by
          intro op present same
          obtain ⟨other, among, rfl⟩ := chunk_key options rest op present
          exact fresh (List.mem_map.mpr ⟨other, among, Key.floor.inj same⟩)
        have kept := write_other revision
          ((Op.put (.floor entry.nodeId) (raisedFloor options entry) none : Op Key Value).write
            revision cells) (chunkSuccess options rest) (.floor entry.nodeId) untouched
        refine ⟨_, kept.trans (Function.update_self _ _ _), rfl, rfl⟩
      · exact ih _ member distinct

theorem chunk_owner (options : LiftOptions) (revision : Nat) (chunk : List NodeEntry)
    (cells : (key : Key) → Option (Cell (Value key))) (nodeId : Nat) :
    (chunkSuccess options chunk).foldl (fun cells op => op.write revision cells) cells
      (.owner nodeId) = cells (.owner nodeId) := by
  apply write_other
  intro op member same
  obtain ⟨entry, -, rfl⟩ := chunk_key options chunk op member
  cases same

theorem chunk_unnamed (options : LiftOptions) (revision : Nat) (chunk : List NodeEntry)
    (cells : (key : Key) → Option (Cell (Value key))) (nodeId : Nat)
    (unnamed : nodeId ∉ chunk.map (·.nodeId)) :
    (chunkSuccess options chunk).foldl (fun cells op => op.write revision cells) cells
      (.floor nodeId) = cells (.floor nodeId) := by
  apply write_other
  intro op member same
  obtain ⟨entry, present, rfl⟩ := chunk_key options chunk op member
  exact unnamed (List.mem_map.mpr ⟨entry, present, Key.floor.inj same⟩)

/-- What a lift learned of an entry holds when its chunk goes through: the node is free and its
floor is the one read. -/
theorem chunk_read (keyspace : Keyspace) (chunk : List NodeEntry) (sound : Sound keyspace)
    (seen : ∀ entry ∈ chunk, Seen keyspace (.floor entry.nodeId) entry.floor)
    (met : ∀ compare ∈ chunkCompare chunk, compare.holds keyspace) (entry : NodeEntry)
    (member : entry ∈ chunk) :
    keyspace.cells (.owner entry.nodeId) = none ∧
      keyspace.cells (.floor entry.nodeId) = entry.floor := by
  have free : (Compare.created (.owner entry.nodeId) 0).holds keyspace :=
    met _ (List.mem_flatMap.mpr ⟨entry, member, by simp⟩)
  have read : (Compare.modified (.floor entry.nodeId) (modifiedAt entry.floor)).holds keyspace :=
    met _ (List.mem_flatMap.mpr ⟨entry, member, by simp⟩)
  exact ⟨absent_compared keyspace _ sound free,
    seen_compared keyspace (.floor entry.nodeId) entry.floor sound (seen entry member) read⟩

section Chunk

variable {options : LiftOptions} {chunk : List NodeEntry} {before after : Keyspace}
  {revision : Nat}

/-- A chunk that goes through raises free nodes to the lift. -/
theorem chunk_raises (sound : Sound before) (distinct : (chunk.map (·.nodeId)).Nodup)
    (seen : ∀ entry ∈ chunk, Seen before (.floor entry.nodeId) entry.floor)
    (committed : before.commit (chunkCompare chunk) (chunkSuccess options chunk) =
      (after, .done true revision)) :
    Raises before after ∧ ∀ entry ∈ chunk, after.cells (.owner entry.nodeId) = none ∧
      ∃ cell : Cell Int, after.cells (.floor entry.nodeId) = some cell ∧
        options.nowMs ≤ cell.value := by
  have advances := advances_commit before (chunkCompare chunk) (chunkSuccess options chunk)
  have kept := sound_commit before (chunkCompare chunk) (chunkSuccess options chunk) sound
  rw [committed] at advances kept
  obtain ⟨met, rfl, rfl⟩ := commit_done _ _ _ _ _ committed
  have read := chunk_read before chunk sound seen met
  have put := fun entry member =>
    chunk_floor options (before.revision + 1) chunk before.cells entry member distinct
  have owners := chunk_owner options (before.revision + 1) chunk before.cells
  refine ⟨⟨advances, kept, rfl, owners, ?_, ?_⟩, fun entry member => ⟨?_, ?_⟩⟩
  · intro nodeId cell stored
    by_cases named : nodeId ∈ chunk.map (·.nodeId)
    · obtain ⟨entry, member, rfl⟩ := List.mem_map.mp named
      obtain ⟨moved, now, value, -⟩ := put entry member
      refine ⟨moved, now, ?_⟩
      rw [value, raisedFloor, ← (read entry member).2, stored]
      exact le_max_left _ _
    · exact ⟨cell, (chunk_unnamed options _ chunk before.cells nodeId named).trans stored,
        le_refl _⟩
  · intro nodeId cell stored
    by_cases named : nodeId ∈ chunk.map (·.nodeId)
    · obtain ⟨entry, member, rfl⟩ := List.mem_map.mp named
      obtain ⟨moved, now, -, free⟩ := put entry member
      obtain rfl := Option.some.inj (now.symm.trans stored)
      exact .inr free
    · exact .inl ((chunk_unnamed options _ chunk before.cells nodeId named).symm.trans stored)
  · exact (owners entry.nodeId).trans (read entry member).1
  · obtain ⟨moved, now, value, -⟩ := put entry member
    refine ⟨moved, now, ?_⟩
    rw [value]
    exact le_max_right _ _

end Chunk

theorem mark_raises (keyspace : Keyspace) (sound : Sound keyspace) :
    Raises keyspace (keyspace.commit [] [.put .initialized () none]).1 := by
  have advances := advances_commit keyspace [] [Op.put (ν := Value) .initialized () none]
  have kept := sound_commit keyspace [] [Op.put (ν := Value) .initialized () none] sound
  refine ⟨advances, kept, rfl, fun nodeId => rfl, fun nodeId cell stored => ?_,
    fun nodeId cell stored => .inl stored⟩
  exact ⟨cell, stored, le_refl _⟩

/-! ## The tenures under a lift -/

section Raised

variable {world : World} {keyspace : Keyspace}

theorem Raises.covered (raises : Raises world.keyspace keyspace) (nodeId generation : Nat)
    (tsMs : Int) (covered : Covered world nodeId generation tsMs) :
    Covered { world with keyspace } nodeId generation tsMs := by
  obtain ⟨⟨cell, stored, below⟩, later⟩ := covered
  obtain ⟨moved, now, up⟩ := raises.floors nodeId cell stored
  exact ⟨⟨moved, now, below.trans up⟩, later⟩

theorem Raises.carries (raises : Raises world.keyspace keyspace) :
    Carries world { world with keyspace } :=
  ⟨raises.advances, fun _ _ => rfl, fun _ member => member⟩

theorem Raises.tenures (raises : Raises world.keyspace keyspace) (inv : Tenures world) :
    Tenures { world with keyspace } where
  sound := raises.sound
  unleased := by
    intro nodeId cell stored
    rcases raises.unleased nodeId cell stored with before | free
    · exact inv.unleased nodeId cell before
    · exact free
  range := by
    intro claim member
    have range := inv.range claim member
    exact ⟨range.1, Nat.le_trans range.2 raises.advances.grows⟩
  unique := inv.unique
  leased := fun claim member => raises.carries.leased _ _ (inv.leased claim member)
  covered := fun claim member => raises.covered _ _ _ (inv.covered claim member)
  owned := by
    intro nodeId cell present
    obtain ⟨id, leaseId, tenure, attached, leased⟩ :=
      inv.owned nodeId cell ((raises.owners nodeId).symm.trans present)
    exact ⟨id, leaseId, tenure, attached, raises.carries.leased id leaseId leased⟩
  latest := fun nodeId cell present =>
    inv.latest nodeId cell ((raises.owners nodeId).symm.trans present)

/-- No replica notices a lift. -/
theorem Raises.inv {hosts : Nat → Host} (raises : Raises world.keyspace keyspace)
    (inv : Inv hosts world) : Inv hosts { world with keyspace } :=
  (inv_unnoticed inv _ (raises.tenures inv.tenures) raises.carries rfl rfl raises.covered).1

end Raised

/-! ## A node at or above a lift -/

/-- Since this revision the node's floor has been at or above the lift, and whoever claimed it
later claimed it from such a floor. -/
structure Lifted (world : World) (floorMs : Int) (since nodeId : Nat) : Prop where
  covered : Covered world nodeId since floorMs
  owner : ∀ cell, world.keyspace.cells (.owner nodeId) = some cell → since < cell.createRevision

theorem Lifted.raises {world : World} {keyspace : Keyspace} {floorMs : Int} {since nodeId : Nat}
    (lifted : Lifted world floorMs since nodeId) (raises : Raises world.keyspace keyspace) :
    Lifted { world with keyspace } floorMs since nodeId :=
  ⟨raises.covered nodeId since floorMs lifted.covered, fun cell present =>
    lifted.owner cell ((raises.owners nodeId).symm.trans present)⟩

theorem lifted_apply (world : World) (id : Nat) (message : Message) (inv : Tenures world)
    (honest : message.Honest world id) (floorMs : Int) (since nodeId : Nat)
    (past : since ≤ world.keyspace.revision) (lifted : Lifted world floorMs since nodeId) :
    Lifted (world.apply id message).1 floorMs since nodeId := by
  obtain ⟨⟨⟨old, stored, below⟩, later⟩, owner⟩ := lifted
  generalize applied : world.apply id message = outcome
  obtain ⟨next, answer⟩ := outcome
  rcases apply_cases world next id message answer inv honest applied with
    ⟨rfl, -⟩ | ⟨revision, -, done,
      ⟨leaseId, claimFloorMs, cell, claim⟩ | ⟨claimFloorMs, cell, held⟩⟩
  · exact ⟨⟨⟨old, stored, below⟩, later⟩, owner⟩
  · -- A claim reads the lifted floor and writes above it.
    have fresh : since < revision := by
      have := claim.fresh
      omega
    by_cases same : message.nodeId = nodeId
    · subst same
      have read : claimFloorMs = some old.value := by rw [claim.read, stored]; rfl
      have above := claim.above
      rw [read, Option.getD_some] at above
      obtain ⟨written, now, value, -⟩ := done.writes.floor
      refine ⟨⟨⟨written, now, by omega⟩, fun other member named after => ?_⟩,
        fun found present => ?_⟩
      · rw [claim.claims, List.mem_append, List.mem_singleton] at member
        rcases member with before | rfl
        · exact later other before named after
        · exact ⟨old.value, read, below⟩
      · obtain rfl := Option.some.inj (claim.owner.symm.trans present)
        rw [claim.created.1]
        exact fresh
    · refine ⟨⟨⟨old, (done.writes.floors _ (Ne.symm same)).trans stored, below⟩,
        fun other member named after => ?_⟩, fun found present => ?_⟩
      · rw [claim.claims, List.mem_append, List.mem_singleton] at member
        rcases member with before | rfl
        · exact later other before named after
        · exact absurd named same
      · exact owner found ((done.writes.owners _ (Ne.symm same)).symm.trans present)
  · -- The holder claimed the node after the lift, and writes above its claim.
    by_cases same : message.nodeId = nodeId
    · subst same
      have after := owner cell held.owner
      obtain ⟨lease, tenure⟩ := held.tenure
      obtain ⟨readMs, recorded, under⟩ := later _ tenure rfl after
      have above := held.above
      simp only at recorded
      rw [recorded, Option.getD_some] at above
      obtain ⟨written, now, value, -⟩ := done.writes.floor
      refine ⟨⟨⟨written, now, by omega⟩, fun other member => later other (held.claims ▸ member)⟩,
        fun found present => ?_⟩
      rcases held.kept with kept | gone
      · obtain rfl := Option.some.inj (kept.symm.trans present)
        exact after
      · cases gone.symm.trans present
    · refine ⟨⟨⟨old, (done.writes.floors _ (Ne.symm same)).trans stored, below⟩,
        fun other member => later other (held.claims ▸ member)⟩, fun found present => ?_⟩
      exact owner found ((done.writes.owners _ (Ne.symm same)).symm.trans present)

/-! ## What a replica's step does to the keyspace -/

/-- A step of the replicas applies a transaction in flight, or writes no floor and makes no
claim. -/
inductive Touches (world next : World) : Prop where
  | applied (id : Nat) (message : Message) (flight : InFlight world id message)
      (keyspace : next.keyspace = (world.apply id message).1.keyspace)
      (claims : next.claims = (world.apply id message).1.claims)
  | unwritten (advances : Advances world.keyspace next.keyspace)
      (owners : ∀ nodeId cell, next.keyspace.cells (.owner nodeId) = some cell →
        world.keyspace.cells (.owner nodeId) = some cell)
      (floors : ∀ nodeId,
        next.keyspace.cells (.floor nodeId) = world.keyspace.cells (.floor nodeId))
      (marker : (next.keyspace.cells .initialized).isSome →
        (world.keyspace.cells .initialized).isSome)
      (claims : next.claims = world.claims)

theorem touches_none (world next : World) (keyspace : next.keyspace = world.keyspace)
    (claims : next.claims = world.claims) : Touches world next := by
  refine .unwritten ?_ ?_ ?_ ?_ claims
  · rw [keyspace]
    exact advances_refl _
  · rw [keyspace]
    exact fun _ _ present => present
  · rw [keyspace]
    exact fun _ => rfl
  · rw [keyspace]
    exact fun present => present

theorem touches_expire (world next : World) (leaseId : Nat) (inv : Tenures world)
    (keyspace : next.keyspace = world.keyspace.expire leaseId)
    (claims : next.claims = world.claims) : Touches world next := by
  refine .unwritten ?_ ?_ ?_ ?_ claims
  · rw [keyspace]
    exact advances_expire _ leaseId
  · rw [keyspace]
    exact filtered_owner _ leaseId
  · rw [keyspace]
    intro nodeId
    cases stored : world.keyspace.cells (.floor nodeId) with
    | none => simp [Store.expire, stored]
    | some cell => simp [Store.expire, stored, inv.unleased nodeId cell stored]
  · rw [keyspace]
    intro present
    obtain ⟨cell, stored⟩ := Option.isSome_iff_exists.mp present
    exact Option.isSome_iff_exists.mpr ⟨cell, (Option.filter_eq_some_iff.mp stored).1⟩

section Touching

variable {hosts : Nat → Host} {world : World}

theorem serve_touches (inv : Inv hosts world) (id : Nat) (awaiting : Awaiting) (call : Call)
    (now : (world.replicas id).operation = some (awaiting, .asked call)) (replica : Replica) :
    Touches world ((world.call id call).1.set id replica) := by
  cases call with
  | leaseGrant =>
      exact .unwritten (advances_grant _) (fun _ _ present => present) (fun _ => rfl)
        (fun present => present) rfl
  | keepAlive leaseId => exact touches_none _ _ rfl rfl
  | range => exact touches_none _ _ rfl rfl
  | readNode nodeId => exact touches_none _ _ rfl rfl
  | txn message =>
      have transits := (inv.operating id awaiting _ now).2
      have flight := transits_flight id awaiting _ transits message (List.mem_singleton.mpr rfl)
      exact .applied id message flight rfl rfl
  | leaseRevoke leaseId =>
      cases leaseId with
      | none => exact touches_none _ _ rfl rfl
      | some leaseId => exact touches_expire _ _ leaseId inv.tenures rfl rfl

theorem mint_keyspace (world : World) (id : Nat) (spelled : String) :
    (world.mint id spelled).keyspace = world.keyspace ∧
      (world.mint id spelled).claims = world.claims := by
  unfold World.mint
  split <;> exact ⟨rfl, rfl⟩

theorem act_touches (inv : Inv hosts world) (id : Nat) (event : Event) (next : World)
    (acted : world.act hosts id (world.replicas id) event = some next) : Touches world next := by
  unfold World.act at acted
  split at acted
  · split at acted <;> (cases acted; exact touches_none _ _ rfl rfl)
  · split at acted <;> (cases acted; exact touches_none _ _ rfl rfl)
  · cases acted
    exact touches_none _ _ rfl rfl
  · cases acted
    exact touches_none _ _ rfl rfl
  · split at acted
    · rename_i spelled replica called
      cases acted
      have same := mint_keyspace (world.set id replica) id spelled
      exact touches_none _ _ same.1 same.2
    · cases acted
      exact touches_none _ _ rfl rfl
  · split at acted
    · rename_i awaiting call now
      cases acted
      exact serve_touches inv id awaiting call now _
    · cases acted
  · split at acted
    · obtain ⟨replica, -, rfl⟩ := Option.map_eq_some_iff.mp acted
      exact touches_none _ _ rfl rfl
    · cases acted
  · obtain ⟨replica, -, rfl⟩ := Option.map_eq_some_iff.mp acted
    exact touches_none _ _ rfl rfl
  · cases acted
    exact touches_none _ _ rfl rfl
  · cases acted

theorem step_touches (inv : Inv hosts world) (event : Event) (next : World)
    (stepped : step hosts world event = some next) : Touches world next := by
  unfold step at stepped
  split at stepped
  · split at stepped
    · cases stepped
    · rename_i message found
      cases stepped
      exact .applied _ message ((inv.sane _).sent message (List.mem_of_getElem? found)) rfl rfl
  · split at stepped
    · cases stepped
      exact touches_none _ _ rfl rfl
    · cases stepped
  · cases stepped
    exact touches_expire _ _ _ inv.tenures rfl rfl
  · cases stepped
    exact .unwritten (advances_elsewhere _) (fun _ _ present => present) (fun _ => rfl)
      (fun present => present) rfl
  · split at stepped
    · cases stepped
    · split at stepped
      · exact act_touches inv _ event next stepped
      · cases stepped

theorem Touches.advances {next : World} (touches : Touches world next) :
    Advances world.keyspace next.keyspace := by
  cases touches with
  | applied id message flight keyspace claims =>
      rw [keyspace]
      exact advances_commit world.keyspace message.compare message.success
  | unwritten advances owners floors marker claims => exact advances

theorem Touches.lifted {next : World} (touches : Touches world next) (inv : Tenures world)
    (floorMs : Int) (since nodeId : Nat) (past : since ≤ world.keyspace.revision)
    (lifted : Lifted world floorMs since nodeId) : Lifted next floorMs since nodeId := by
  cases touches with
  | applied id message flight keyspace claims =>
      have kept := lifted_apply world id message inv flight.1 floorMs since nodeId past lifted
      exact ⟨⟨keyspace ▸ kept.covered.stored, claims ▸ kept.covered.later⟩, keyspace ▸ kept.owner⟩
  | unwritten advances owners floors marker claims =>
      obtain ⟨cell, stored, below⟩ := lifted.covered.stored
      exact ⟨⟨⟨cell, (floors nodeId).trans stored, below⟩, claims ▸ lifted.covered.later⟩,
        fun found present => lifted.owner found (owners nodeId found present)⟩

theorem message_marker (message : Message) (keyspace : Keyspace) :
    (message.commit keyspace).1.cells .initialized = keyspace.cells .initialized := by
  generalize committed : message.commit keyspace = outcome
  obtain ⟨next, answer⟩ := outcome
  by_cases success : ∃ revision, answer = .done true revision
  · obtain ⟨revision, rfl⟩ := success
    obtain ⟨-, -, rfl⟩ := commit_done _ _ _ _ _ committed
    apply write_other
    intro op member same
    have named : op.key = .owner message.nodeId ∨ op.key = .floor message.nodeId := by
      cases message <;> (simp [Message.success] at member; rcases member with rfl | rfl <;>
        simp [Message.nodeId, Op.key])
    rcases named with owned | floored
    · cases same.symm.trans owned
    · cases same.symm.trans floored
  · obtain rfl := commit_refused _ _ _ _ answer committed fun revision same =>
      success ⟨revision, same⟩
    rfl

theorem Touches.marker {next : World} (touches : Touches world next)
    (present : (next.keyspace.cells .initialized).isSome) :
    (world.keyspace.cells .initialized).isSome := by
  cases touches with
  | applied id message flight keyspace claims =>
      rw [keyspace] at present
      rw [← message_marker message world.keyspace]
      exact present
  | unwritten advances owners floors marker claims => exact marker present

end Touching

end Commerce.Identity
