import Commerce.Identity.NodeLease

/-!
# Tenures of a node

A tenure is a claim etcd has applied.  A timestamp is covered for a tenure when
the node's floor and every later claim's floor are at or above it.  What the
floor key holds may fall only by the hand of the tenure's own replica, and
every transaction it has in flight stays above what it has used.
-/

set_option autoImplicit false

namespace Commerce.Identity

open Revisions

/-- A claim of the replica, under this lease, that etcd has applied. -/
def TenureUnder (world : World) (id nodeId generation : Nat) (claimFloorMs : Option Int)
    (leaseId : Nat) : Prop :=
  { replica := id, nodeId, generation, claimFloorMs, leaseId } ∈ world.claims

def Tenure (world : World) (id nodeId generation : Nat) (claimFloorMs : Option Int) : Prop :=
  ∃ leaseId, TenureUnder world id nodeId generation claimFloorMs leaseId

/-- No later holder of the node starts at or below this timestamp. -/
structure Covered (world : World) (nodeId generation : Nat) (tsMs : Int) : Prop where
  stored : ∃ cell : Cell Int, world.keyspace.cells (.floor nodeId) = some cell ∧ tsMs ≤ cell.value
  later : ∀ claim ∈ world.claims, claim.nodeId = nodeId → generation < claim.generation →
    ∃ floorMs, claim.claimFloorMs = some floorMs ∧ tsMs ≤ floorMs

def Leased (world : World) (id leaseId : Nat) : Prop :=
  leaseId < world.keyspace.granted ∧ world.grantee leaseId = id

/-- What holds of the keyspace and the claims, whatever the replicas do. -/
structure Tenures (world : World) : Prop where
  sound : Sound world.keyspace
  unleased : ∀ nodeId cell, world.keyspace.cells (.floor nodeId) = some cell → cell.lease = none
  range : ∀ claim ∈ world.claims,
    0 < claim.generation ∧ claim.generation ≤ world.keyspace.revision
  unique : ∀ claim ∈ world.claims, ∀ other ∈ world.claims,
    claim.generation = other.generation → claim = other
  leased : ∀ claim ∈ world.claims, Leased world claim.replica claim.leaseId
  covered : ∀ claim ∈ world.claims,
    Covered world claim.nodeId claim.generation (claim.claimFloorMs.getD 0)
  owned : ∀ nodeId cell, world.keyspace.cells (.owner nodeId) = some cell →
    ∃ id leaseId,
      TenureUnder world id nodeId cell.createRevision cell.value.claimFloorMs leaseId ∧
        cell.lease = some leaseId ∧ Leased world id leaseId
  latest : ∀ nodeId cell, world.keyspace.cells (.owner nodeId) = some cell →
    ∀ claim ∈ world.claims, claim.nodeId = nodeId → claim.generation ≤ cell.createRevision

/-- The transaction agrees with what its replica has read and been granted. -/
def Message.Honest (world : World) (id : Nat) : Message → Prop
  | .claim nodeId _ leaseId floorMs floorRevision ceilingMs =>
      Leased world id leaseId ∧ floorMs.getD 0 ≤ ceilingMs ∧
        ∃ entry, floorMs = floorOf entry ∧ floorRevision = modifiedAt entry ∧
          Seen world.keyspace (.floor nodeId) entry
  | .raiseCeiling nodeId generation floorMs | .release nodeId generation floorMs =>
      ∃ claimFloorMs, Tenure world id nodeId generation claimFloorMs ∧
        claimFloorMs.getD 0 ≤ floorMs

theorem tenure_unique (world : World) (inv : Tenures world)
    (id other nodeId generation otherNode : Nat) (floorMs otherFloor : Option Int)
    (one : Tenure world id nodeId generation floorMs)
    (two : Tenure world other otherNode generation otherFloor) :
    other = id ∧ otherNode = nodeId ∧ otherFloor = floorMs := by
  obtain ⟨lease, one⟩ := one
  obtain ⟨otherLease, two⟩ := two
  have same := inv.unique _ one _ two rfl
  simp only [Claim.mk.injEq, true_and] at same
  exact ⟨same.1.symm, same.2.1.symm, same.2.2.1.symm⟩

/-! ## Applying a transaction -/

structure Applied (world next : World) (message : Message) : Prop where
  writes : WritesNode world.keyspace next.keyspace message.nodeId message.floorMs
  replicas : next.replicas = world.replicas
  grantee : next.grantee = world.grantee
  minted : next.minted = world.minted

structure ClaimApplied (world next : World) (id : Nat) (message : Message) (revision leaseId : Nat)
    (floorMs : Option Int) (cell : Cell OwnerRecord) : Prop where
  fresh : revision = world.keyspace.revision + 1
  read : floorMs = floorOf (world.keyspace.cells (.floor message.nodeId))
  above : floorMs.getD 0 ≤ message.floorMs
  leased : Leased world id leaseId
  free : world.keyspace.cells (.owner message.nodeId) = none
  owner : next.keyspace.cells (.owner message.nodeId) = some cell
  created : cell.createRevision = revision ∧ cell.value.claimFloorMs = floorMs ∧
    cell.lease = some leaseId
  claims : next.claims = world.claims ++
    [{ replica := id, nodeId := message.nodeId, generation := revision, claimFloorMs := floorMs,
       leaseId }]
  shape : ∃ holder floorRevision,
    message = .claim message.nodeId holder leaseId floorMs floorRevision message.floorMs

structure TenureApplied (world next : World) (id : Nat) (message : Message)
    (claimFloorMs : Option Int) (cell : Cell OwnerRecord) : Prop where
  owner : world.keyspace.cells (.owner message.nodeId) = some cell
  within : message.Within message.nodeId cell.createRevision
  tenure : Tenure world id message.nodeId cell.createRevision claimFloorMs
  above : claimFloorMs.getD 0 ≤ message.floorMs
  kept : next.keyspace.cells (.owner message.nodeId) = some cell ∨
    next.keyspace.cells (.owner message.nodeId) = none
  claims : next.claims = world.claims

theorem claim_applied (world : World) (id nodeId leaseId floorRevision revision : Nat)
    (holder : String) (floorMs : Option Int) (ceilingMs : Int) (keyspace : Keyspace)
    (inv : Tenures world)
    (honest : (Message.claim nodeId holder leaseId floorMs floorRevision ceilingMs).Honest world id)
    (committed : (Message.claim nodeId holder leaseId floorMs floorRevision ceilingMs).commit
      world.keyspace = (keyspace, .done true revision)) :
    ∃ cell, ClaimApplied world
      { world with
        keyspace
        claims := world.claims ++
          [{ replica := id, nodeId, generation := revision, claimFloorMs := floorMs, leaseId }] }
      id (.claim nodeId holder leaseId floorMs floorRevision ceilingMs) revision leaseId floorMs
      cell := by
  obtain ⟨leased, above, entry, rfl, rfl, seen⟩ := honest
  obtain ⟨free, compared, fresh, owner⟩ :=
    claim_done nodeId holder leaseId _ _ ceilingMs _ _ revision inv.sound committed
  have read := seen_compared world.keyspace (.floor nodeId) entry inv.sound seen compared
  exact ⟨_,
    { fresh
      read := congrArg floorOf read.symm
      above
      leased
      free
      owner
      created := ⟨rfl, rfl, rfl⟩
      claims := rfl
      shape := ⟨holder, _, rfl⟩ }⟩

/-- What a transaction did: nothing but answer, or a claim, or a write under its tenure. -/
theorem apply_cases (world next : World) (id : Nat) (message : Message) (answer : Answer)
    (inv : Tenures world) (honest : message.Honest world id)
    (applied : world.apply id message = (next, answer)) :
    (next = world ∧ ∀ revision, answer ≠ .done true revision) ∨
    ∃ revision, answer = .done true revision ∧ Applied world next message ∧
      ((∃ leaseId floorMs cell,
          ClaimApplied world next id message revision leaseId floorMs cell) ∨
        ∃ claimFloorMs cell, TenureApplied world next id message claimFloorMs cell) := by
  generalize committed : message.commit world.keyspace = outcome at applied
  obtain ⟨keyspace, reply⟩ := outcome
  simp only [World.apply, committed, Prod.mk.injEq] at applied
  obtain ⟨rfl, rfl⟩ := applied
  by_cases success : ∃ revision, reply = .done true revision
  · obtain ⟨revision, rfl⟩ := success
    have writes := message.commit_writes _ _ revision committed
    refine .inr ⟨revision, rfl, ⟨writes, rfl, rfl, rfl⟩, ?_⟩
    cases message with
    | claim nodeId holder leaseId floorMs floorRevision ceilingMs =>
        obtain ⟨cell, claimed⟩ := claim_applied world id nodeId leaseId floorRevision revision
          holder floorMs ceilingMs keyspace inv honest committed
        exact .inl ⟨leaseId, floorMs, cell, claimed⟩
    | raiseCeiling nodeId generation ceilingMs =>
        obtain ⟨claimFloorMs, ⟨leaseId, tenure⟩, above⟩ := honest
        obtain ⟨cell, owner, rfl⟩ := heldBy_done _ nodeId generation _ _ revision
          (inv.range _ tenure).1 (List.mem_singleton.mpr rfl) committed
        have kept := raise_owner nodeId _ ceilingMs _ _ revision committed
        exact .inr ⟨claimFloorMs, cell, owner, ⟨rfl, rfl⟩, ⟨leaseId, tenure⟩, above,
          .inl (kept.trans owner), List.append_nil _⟩
    | release nodeId generation floorMs =>
        obtain ⟨claimFloorMs, ⟨leaseId, tenure⟩, above⟩ := honest
        obtain ⟨cell, owner, rfl⟩ := heldBy_done _ nodeId generation _ _ revision
          (inv.range _ tenure).1 (List.mem_singleton.mpr rfl) committed
        have gone := release_owner nodeId _ floorMs _ _ revision committed
        exact .inr ⟨claimFloorMs, cell, owner, ⟨rfl, rfl⟩, ⟨leaseId, tenure⟩, above, .inr gone,
          List.append_nil _⟩
  · have refused : ∀ revision, reply ≠ .done true revision := fun revision same =>
      success ⟨revision, same⟩
    have kept := commit_refused _ _ _ _ reply committed refused
    refine .inl ⟨?_, refused⟩
    cases reply with
    | leaseNotFound => simp [kept]
    | done succeeded revision =>
        cases succeeded with
        | true => exact absurd rfl (refused revision)
        | false => simp [kept]

/-- Applying a transaction keeps what is covered, unless it writes lower under that very
tenure. -/
theorem covered_apply (world next : World) (id : Nat) (message : Message) (answer : Answer)
    (inv : Tenures world) (honest : message.Honest world id)
    (applied : world.apply id message = (next, answer)) (nodeId generation : Nat) (tsMs : Int)
    (known : ∃ claim ∈ world.claims, claim.nodeId = nodeId ∧ claim.generation = generation)
    (bounded : message.Within nodeId generation → tsMs ≤ message.floorMs)
    (covered : Covered world nodeId generation tsMs) : Covered next nodeId generation tsMs := by
  obtain ⟨⟨old, stored, below⟩, later⟩ := covered
  rcases apply_cases world next id message answer inv honest applied with
    ⟨rfl, -⟩ | ⟨revision, -, done, ⟨leaseId, floorMs, cell, claim⟩ | ⟨claimFloorMs, cell, held⟩⟩
  · exact ⟨⟨old, stored, below⟩, later⟩
  · by_cases same : message.nodeId = nodeId
    · subst same
      have read : floorMs = some old.value := by rw [claim.read, stored]; rfl
      have above := claim.above
      rw [read, Option.getD_some] at above
      obtain ⟨written, now, value, -⟩ := done.writes.floor
      refine ⟨⟨written, now, by omega⟩, fun other member named after => ?_⟩
      rw [claim.claims, List.mem_append, List.mem_singleton] at member
      rcases member with before | rfl
      · exact later other before named after
      · exact ⟨old.value, read, below⟩
    · refine ⟨⟨old, (done.writes.floors _ (Ne.symm same)).trans stored, below⟩,
        fun other member named after => ?_⟩
      rw [claim.claims, List.mem_append, List.mem_singleton] at member
      rcases member with before | rfl
      · exact later other before named after
      · exact absurd named same
  · refine ⟨?_, fun other member => later other (held.claims ▸ member)⟩
    by_cases same : message.nodeId = nodeId
    · subst same
      obtain ⟨written, now, value, -⟩ := done.writes.floor
      refine ⟨written, now, ?_⟩
      rw [value]
      obtain ⟨claim, member, named, rfl⟩ := known
      have newest := inv.latest _ cell held.owner claim member named
      by_cases own : claim.generation = cell.createRevision
      · exact bounded (own ▸ held.within)
      · -- An older tenure: the holder claimed above it, and writes above its claim.
        have older : claim.generation < cell.createRevision := by omega
        obtain ⟨lease, tenure⟩ := held.tenure
        obtain ⟨floorMs, recorded, under⟩ := later _ tenure rfl older
        have above := held.above
        simp only at recorded
        rw [recorded, Option.getD_some] at above
        omega
    · exact ⟨old, (done.writes.floors _ (Ne.symm same)).trans stored, below⟩

theorem unleased_apply (world next : World) (message : Message) (inv : Tenures world)
    (done : Applied world next message) (nodeId : Nat) (cell : Cell Int)
    (present : next.keyspace.cells (.floor nodeId) = some cell) : cell.lease = none := by
  by_cases same : nodeId = message.nodeId
  · subst same
    obtain ⟨written, now, -, free⟩ := done.writes.floor
    obtain rfl : written = cell := Option.some.inj (now.symm.trans present)
    exact free
  · exact inv.unleased nodeId cell ((done.writes.floors nodeId same).symm.trans present)

theorem tenures_claim (world next : World) (id : Nat) (message : Message) (revision leaseId : Nat)
    (floorMs : Option Int) (cell : Cell OwnerRecord) (inv : Tenures world)
    (honest : message.Honest world id)
    (applied : world.apply id message = (next, .done true revision))
    (done : Applied world next message)
    (claim : ClaimApplied world next id message revision leaseId floorMs cell) :
    Tenures next := by
  have grows : next.keyspace.revision = world.keyspace.revision + 1 := done.writes.revision
  obtain ⟨created, recorded, attached⟩ := claim.created
  have member : ∀ other, other ∈ next.claims ↔ other ∈ world.claims ∨ other =
      { replica := id, nodeId := message.nodeId, generation := revision,
        claimFloorMs := floorMs, leaseId } := by
    intro other
    rw [claim.claims, List.mem_append, List.mem_singleton]
  have leases : ∀ other lease, Leased world other lease → Leased next other lease := by
    intro other lease ⟨granted, named⟩
    exact ⟨done.writes.granted ▸ granted, done.grantee ▸ named⟩
  refine ⟨?_, unleased_apply world next message inv done, ?_, ?_, ?_, ?_, ?_, ?_⟩
  · have sound := sound_commit world.keyspace message.compare message.success inv.sound
    have same : (world.apply id message).1.keyspace = next.keyspace :=
      congrArg (fun result => result.1.keyspace) applied
    exact same ▸ sound
  · intro other present
    rcases (member other).mp present with before | rfl
    · have := inv.range other before
      omega
    · have := claim.fresh
      exact ⟨by dsimp only; omega, by dsimp only; omega⟩
  · intro one first two second same
    have fresh := claim.fresh
    rcases (member one).mp first with old | rfl <;> rcases (member two).mp second with old' | rfl
    · exact inv.unique one old two old' same
    · have := inv.range one old
      dsimp only at same
      omega
    · have := inv.range two old'
      dsimp only at same
      omega
    · rfl
  · intro other present
    rcases (member other).mp present with before | rfl
    · exact leases _ _ (inv.leased other before)
    · exact leases _ _ claim.leased
  · intro other present
    rcases (member other).mp present with before | rfl
    · refine covered_apply world next id message _ inv honest applied _ _ _
        ⟨other, before, rfl, rfl⟩ (fun within => ?_) (inv.covered other before)
      obtain ⟨holder, floorRevision, shape⟩ := claim.shape
      rw [shape] at within
      exact within.elim
    · obtain ⟨written, now, value, -⟩ := done.writes.floor
      refine ⟨⟨written, now, value ▸ claim.above⟩, fun other member' named after => ?_⟩
      have fresh := claim.fresh
      rcases (member other).mp member' with before | rfl
      · have := inv.range other before
        dsimp only at after
        omega
      · exact absurd after (Nat.lt_irrefl _)
  · intro nodeId held present
    by_cases same : nodeId = message.nodeId
    · subst same
      obtain rfl : cell = held := Option.some.inj (claim.owner.symm.trans present)
      refine ⟨id, leaseId, (member _).mpr (.inr ?_), attached, leases _ _ claim.leased⟩
      rw [created, recorded]
    · rw [done.writes.owners nodeId same] at present
      obtain ⟨owner, lease, tenure, attached, leased⟩ := inv.owned nodeId held present
      exact ⟨owner, lease, (member _).mpr (.inl tenure), attached, leases _ _ leased⟩
  · intro nodeId held present other known named
    by_cases same : nodeId = message.nodeId
    · subst same
      obtain rfl : cell = held := Option.some.inj (claim.owner.symm.trans present)
      have fresh := claim.fresh
      rcases (member other).mp known with before | rfl
      · have := inv.range other before
        omega
      · exact Nat.le_of_eq created.symm
    · rw [done.writes.owners nodeId same] at present
      rcases (member other).mp known with before | rfl
      · exact inv.latest nodeId held present other before named
      · exact absurd named.symm same

theorem tenures_write (world next : World) (id : Nat) (message : Message) (revision : Nat)
    (claimFloorMs : Option Int) (cell : Cell OwnerRecord) (inv : Tenures world)
    (honest : message.Honest world id)
    (applied : world.apply id message = (next, .done true revision))
    (done : Applied world next message)
    (write : TenureApplied world next id message claimFloorMs cell) : Tenures next := by
  have grows : next.keyspace.revision = world.keyspace.revision + 1 := done.writes.revision
  have leases : ∀ other lease, Leased world other lease → Leased next other lease := by
    intro other lease ⟨granted, named⟩
    exact ⟨done.writes.granted ▸ granted, done.grantee ▸ named⟩
  have owners : ∀ nodeId held, next.keyspace.cells (.owner nodeId) = some held →
      world.keyspace.cells (.owner nodeId) = some held := by
    intro nodeId held present
    by_cases same : nodeId = message.nodeId
    · subst same
      rcases write.kept with kept | gone
      · rw [write.owner, ← kept, present]
      · rw [gone] at present
        cases present
    · rw [← done.writes.owners nodeId same, present]
  refine ⟨?_, unleased_apply world next message inv done, ?_, ?_, ?_, ?_, ?_, ?_⟩
  · have sound := sound_commit world.keyspace message.compare message.success inv.sound
    have same : (world.apply id message).1.keyspace = next.keyspace :=
      congrArg (fun result => result.1.keyspace) applied
    exact same ▸ sound
  · intro other present
    have := inv.range other (write.claims ▸ present)
    omega
  · rw [write.claims]
    exact inv.unique
  · intro other present
    exact leases _ _ (inv.leased other (write.claims ▸ present))
  · intro other present
    have before : other ∈ world.claims := write.claims ▸ present
    refine covered_apply world next id message _ inv honest applied _ _ _
      ⟨other, before, rfl, rfl⟩ (fun within => ?_) (inv.covered other before)
    have own : ∃ floorMs, Tenure world id other.nodeId other.generation floorMs ∧
        floorMs.getD 0 ≤ message.floorMs := by
      cases message with
      | claim nodeId holder leaseId floorMs floorRevision ceilingMs => exact within.elim
      | raiseCeiling nodeId generation ceilingMs =>
          obtain ⟨rfl, rfl⟩ := within
          exact honest
      | release nodeId generation floorMs =>
          obtain ⟨rfl, rfl⟩ := within
          exact honest
    obtain ⟨floorMs, ⟨lease, tenure⟩, above⟩ := own
    have recorded := congrArg Claim.claimFloorMs (inv.unique _ before _ tenure rfl)
    exact recorded ▸ above
  · intro nodeId held present
    obtain ⟨owner, lease, tenure, attached, leased⟩ := inv.owned nodeId held (owners _ _ present)
    have kept : TenureUnder next owner nodeId held.createRevision held.value.claimFloorMs
        lease := by
      rw [TenureUnder, write.claims]
      exact tenure
    exact ⟨owner, lease, kept, attached, leases _ _ leased⟩
  · intro nodeId held present other known named
    exact inv.latest nodeId held (owners _ _ present) other (write.claims ▸ known) named

theorem tenures_apply (world next : World) (id : Nat) (message : Message) (answer : Answer)
    (inv : Tenures world) (honest : message.Honest world id)
    (applied : world.apply id message = (next, answer)) : Tenures next := by
  rcases apply_cases world next id message answer inv honest applied with
    ⟨rfl, -⟩ | ⟨revision, rfl, done, ⟨leaseId, floorMs, cell, claim⟩ | ⟨claimFloorMs, cell, write⟩⟩
  · exact inv
  · exact tenures_claim world next id message revision leaseId floorMs cell inv honest applied
      done claim
  · exact tenures_write world next id message revision claimFloorMs cell inv honest applied
      done write

/-! ## Steps of the keyspace alone -/

structure Carries (before after : World) : Prop where
  advances : Advances before.keyspace after.keyspace
  leases : ∀ leaseId, leaseId < before.keyspace.granted →
    after.grantee leaseId = before.grantee leaseId
  claims : ∀ claim ∈ before.claims, claim ∈ after.claims

theorem Carries.leased {before after : World} (carries : Carries before after) (id leaseId : Nat)
    (leased : Leased before id leaseId) : Leased after id leaseId :=
  ⟨Nat.lt_of_lt_of_le leased.1 carries.advances.granted,
    (carries.leases leaseId leased.1).trans leased.2⟩

theorem Carries.tenure {before after : World} (carries : Carries before after)
    (id nodeId generation : Nat) (floorMs : Option Int)
    (tenure : Tenure before id nodeId generation floorMs) :
    Tenure after id nodeId generation floorMs :=
  ⟨tenure.choose, carries.claims _ tenure.choose_spec⟩

theorem Carries.honest {before after : World} (carries : Carries before after) (id : Nat)
    (message : Message) (honest : message.Honest before id) : message.Honest after id := by
  cases message with
  | claim nodeId holder leaseId floorMs floorRevision ceilingMs =>
      obtain ⟨leased, above, entry, read, revision, seen⟩ := honest
      exact ⟨carries.leased id leaseId leased, above, entry, read, revision,
        seen_advances _ _ _ _ carries.advances seen⟩
  | raiseCeiling nodeId generation ceilingMs =>
      obtain ⟨floorMs, tenure, above⟩ := honest
      exact ⟨floorMs, carries.tenure id nodeId generation floorMs tenure, above⟩
  | release nodeId generation floorMs =>
      obtain ⟨claimFloorMs, tenure, above⟩ := honest
      exact ⟨claimFloorMs, carries.tenure id nodeId generation claimFloorMs tenure, above⟩

theorem carries_apply (world next : World) (id : Nat) (message : Message) (answer : Answer)
    (applied : world.apply id message = (next, answer)) : Carries world next := by
  have step := advances_commit world.keyspace message.compare message.success
  cases applied
  exact ⟨step, fun _ _ => rfl, fun claim member => List.mem_append_left _ member⟩

/-- A step of the keyspace that only ends owners keeps the tenures and what is covered. -/
theorem tenures_keyspace (world : World) (keyspace : Keyspace) (grantee : Nat → Nat)
    (inv : Tenures world) (sound : Sound keyspace)
    (carries : Carries world { world with keyspace, grantee })
    (owners : ∀ nodeId cell, keyspace.cells (.owner nodeId) = some cell →
      world.keyspace.cells (.owner nodeId) = some cell)
    (floors : ∀ nodeId, keyspace.cells (.floor nodeId) = world.keyspace.cells (.floor nodeId)) :
    Tenures { world with keyspace, grantee } ∧
      ∀ nodeId generation tsMs, Covered world nodeId generation tsMs →
        Covered { world with keyspace, grantee } nodeId generation tsMs := by
  have kept : ∀ nodeId generation tsMs, Covered world nodeId generation tsMs →
      Covered { world with keyspace, grantee } nodeId generation tsMs := by
    intro nodeId generation tsMs ⟨⟨cell, stored, below⟩, later⟩
    exact ⟨⟨cell, (floors nodeId).trans stored, below⟩, later⟩
  have unleased : ∀ nodeId cell, keyspace.cells (.floor nodeId) = some cell → cell.lease = none :=
    fun nodeId cell present => inv.unleased nodeId cell ((floors nodeId).symm.trans present)
  refine ⟨⟨sound, unleased, ?_, inv.unique, ?_, ?_, ?_, ?_⟩, kept⟩
  · intro claim member
    have range := inv.range claim member
    exact ⟨range.1, Nat.le_trans range.2 carries.advances.grows⟩
  · intro claim member
    exact carries.leased _ _ (inv.leased claim member)
  · intro claim member
    exact kept _ _ _ (inv.covered claim member)
  · intro nodeId cell present
    obtain ⟨id, leaseId, tenure, attached, leased⟩ := inv.owned nodeId cell (owners _ _ present)
    exact ⟨id, leaseId, tenure, attached, carries.leased id leaseId leased⟩
  · intro nodeId cell present
    exact inv.latest nodeId cell (owners _ _ present)

theorem filtered_owner (keyspace : Keyspace) (leaseId nodeId : Nat) (cell : Cell OwnerRecord)
    (present : (keyspace.expire leaseId).cells (.owner nodeId) = some cell) :
    keyspace.cells (.owner nodeId) = some cell :=
  (Option.filter_eq_some_iff.mp present).1

theorem tenures_expire (world : World) (leaseId : Nat) (inv : Tenures world) :
    Tenures { world with keyspace := world.keyspace.expire leaseId } ∧
      ∀ nodeId generation tsMs, Covered world nodeId generation tsMs →
        Covered { world with keyspace := world.keyspace.expire leaseId } nodeId generation
          tsMs := by
  refine tenures_keyspace world _ world.grantee inv (sound_expire _ leaseId inv.sound)
    ⟨advances_expire _ leaseId, fun _ _ => rfl, fun _ member => member⟩
    (filtered_owner _ leaseId) fun nodeId => ?_
  cases stored : world.keyspace.cells (.floor nodeId) with
  | none => simp [Store.expire, stored]
  | some cell =>
      have free := inv.unleased nodeId cell stored
      simp [Store.expire, stored, free]

theorem tenures_elsewhere (world : World) (inv : Tenures world) :
    Tenures { world with keyspace := world.keyspace.elsewhere } ∧
      ∀ nodeId generation tsMs, Covered world nodeId generation tsMs →
        Covered { world with keyspace := world.keyspace.elsewhere } nodeId generation tsMs :=
  tenures_keyspace world _ world.grantee inv (sound_elsewhere _ inv.sound)
    ⟨advances_elsewhere _, fun _ _ => rfl, fun _ member => member⟩
    (fun _ _ present => present) fun _ => rfl

theorem tenures_grant (world : World) (id : Nat) (inv : Tenures world) :
    Tenures
        { world with
          keyspace := world.keyspace.grant.1
          grantee := Function.update world.grantee world.keyspace.granted id } ∧
      ∀ nodeId generation tsMs, Covered world nodeId generation tsMs →
        Covered
          { world with
            keyspace := world.keyspace.grant.1
            grantee := Function.update world.grantee world.keyspace.granted id }
          nodeId generation tsMs :=
  tenures_keyspace world _ _ inv inv.sound
    ⟨advances_grant _, fun _ granted => Function.update_of_ne (Nat.ne_of_lt granted) _ _,
      fun _ member => member⟩
    (fun _ _ present => present) fun _ => rfl

end Commerce.Identity
