import Commerce.Lib.Runs
import Commerce.Identity.Minting

/-!
# Ids are unique

Every step keeps the tenures in order and every replica sane, so no two calls of
`generate` on any replicas return the same id, and every id lies between the
floor its tenure was claimed above and the floor its node has stored.
-/

set_option autoImplicit false

namespace Commerce.Identity

open Revisions
open Runs

structure Inv (hosts : Nat → Host) (world : World) : Prop where
  tenures : Tenures world
  sane : ∀ id, Sane (hosts id).clock world id
  operating : ∀ id, Operating world id
  distinct : (world.minted.map (·.id)).Nodup

section Steps

variable {hosts : Nat → Host} {world : World}

/-! ## Steps of the keyspace and of one replica -/

theorem inv_unnoticed (inv : Inv hosts world) (next : World) (tenures : Tenures next)
    (carries : Carries world next) (replicas : next.replicas = world.replicas)
    (minted : next.minted = world.minted)
    (covered : ∀ nodeId generation tsMs, Covered world nodeId generation tsMs →
      Covered next nodeId generation tsMs) :
    Inv hosts next ∧ ∀ id, Steady world next id := by
  have steady : ∀ id, Steady world next id := by
    intro id
    refine ⟨carries, by rw [replicas], by rw [replicas], fun found member _ => .inl ?_⟩
    exact minted ▸ member
  refine ⟨⟨tenures, fun id => ?_, fun id => ?_, minted ▸ inv.distinct⟩, steady⟩
  · exact (inv.sane id).stays (steady id) (by rw [replicas])
      (fun found member _ => minted ▸ member) (fun _ _ => covered _ _ _)
      fun _ _ _ => covered _ _ _
  · have same : next.replicas id = world.replicas id := by rw [replicas]
    exact (steady id).operating
      (fun _ _ _ _ _ clear known => ⟨clear_same same clear, covered _ _ _ known⟩) (by rw [same])
      (inv.operating id)

/-- A step of one replica that leaves it sane and its operation in order, whatever its
operation was. -/
theorem inv_own (id : Nat) (replica : Replica) (tenures : Tenures world)
    (sanes : ∀ other, Sane (hosts other).clock world other)
    (operatings : ∀ other, other ≠ id → Operating world other)
    (distinct : (world.minted.map (·.id)).Nodup)
    (sane : Sane (hosts id).clock (world.set id replica) id)
    (operating : Operating (world.set id replica) id) : Inv hosts (world.set id replica) := by
  have others : ∀ other, other ≠ id → Steady world (world.set id replica) other :=
    fun other different => steady_set world id other replica (fun same => absurd same different)
      fun same => absurd same different
  refine ⟨tenures_set id replica tenures, fun other => ?_, fun other => ?_, distinct⟩
  · by_cases same : other = id
    · exact same ▸ sane
    · exact (sanes other).stays (others other same) (set_others world id other replica same)
        (fun _ member _ => member) (fun _ _ => covered_set id replica)
        fun _ _ _ => covered_set id replica
  · by_cases same : other = id
    · exact same ▸ operating
    · have kept := set_others world id other replica same
      exact (others other same).operating
        (fun _ _ _ _ _ clear known => ⟨clear_same kept clear, covered_set id replica known⟩)
        (by rw [kept]) (operatings other same)

theorem inv_set (inv : Inv hosts world) (id : Nat) (replica : Replica)
    (kept : Sane (hosts id).clock (world.set id replica) id ∧
      Operating (world.set id replica) id) : Inv hosts (world.set id replica) :=
  inv_own id replica inv.tenures inv.sane (fun other _ => inv.operating other) inv.distinct
    kept.1 kept.2

/-! ## etcd applies a transaction -/

theorem steady_apply (world : World) (id other : Nat) (message : Message) :
    Steady world (world.apply id message).1 other :=
  ⟨carries_apply world _ id message _ rfl, rfl, rfl, fun _ member _ => .inl member⟩

theorem covered_others (inv : Tenures world) (id other : Nat) (message : Message)
    (honest : message.Honest world id) (different : other ≠ id)
    (nodeId generation : Nat) (floorMs : Option Int) (tsMs : Int)
    (tenure : Tenure world other nodeId generation floorMs)
    (covered : Covered world nodeId generation tsMs) :
    Covered (world.apply id message).1 nodeId generation tsMs := by
  obtain ⟨leaseId, claim⟩ := tenure
  refine covered_apply world (world.apply id message).1 id message (world.apply id message).2 inv
    honest rfl nodeId generation tsMs ⟨_, claim, rfl, rfl⟩ (fun within => ?_) covered
  have own : ∃ floorMs, Tenure world id nodeId generation floorMs := by
    cases message with
    | claim => exact within.elim
    | raiseCeiling node under ceilingMs =>
        obtain ⟨rfl, rfl⟩ := within
        exact ⟨honest.choose, honest.choose_spec.1⟩
    | release node under floorMs =>
        obtain ⟨rfl, rfl⟩ := within
        exact ⟨honest.choose, honest.choose_spec.1⟩
  obtain ⟨ownFloor, known⟩ := own
  exact absurd (tenure_unique world inv _ _ _ _ _ _ _ known ⟨leaseId, claim⟩).1 different

theorem covered_own (inv : Tenures world) (id : Nat) (message : Message)
    (flight : InFlight world id message) (nodeId generation : Nat) (floorMs : Option Int)
    (tsMs : Int) (tenure : Tenure world id nodeId generation floorMs)
    (used : ∀ high, Bounds world id nodeId generation high → tsMs ≤ high)
    (covered : Covered world nodeId generation tsMs) :
    Covered (world.apply id message).1 nodeId generation tsMs := by
  obtain ⟨leaseId, claim⟩ := tenure
  exact covered_apply world (world.apply id message).1 id message (world.apply id message).2 inv
    flight.1 rfl nodeId generation tsMs ⟨_, claim, rfl, rfl⟩
    (fun within => used _ (flight.2 nodeId generation within)) covered

theorem inv_apply (inv : Inv hosts world) (id : Nat) (message : Message)
    (flight : InFlight world id message) :
    Tenures (world.apply id message).1 ∧
      (∀ other, Sane (hosts other).clock (world.apply id message).1 other) ∧
      (∀ other, other ≠ id → Operating (world.apply id message).1 other) := by
  have sane : ∀ other, Sane (hosts other).clock (world.apply id message).1 other := by
    intro other
    have steady := steady_apply world id other message
    by_cases same : other = id
    · subst same
      refine (inv.sane other).stays steady rfl (fun _ member _ => member) ?_ ?_
      · intro held believed covered
        obtain ⟨claimFloorMs, _, believes⟩ := (inv.sane other).held held believed
        exact covered_own inv.tenures other message flight _ _ claimFloorMs _ believes.tenure
          (fun high bounds => bounds.held held believed rfl rfl) covered
      · intro minted member own covered
        obtain ⟨claimFloorMs, tenure, -⟩ := ((inv.sane other).minted minted member own).tenure
        rw [own] at tenure
        exact covered_own inv.tenures other message flight _ _ claimFloorMs _ tenure
          (fun high bounds => bounds.minted minted member own rfl rfl) covered
    · refine (inv.sane other).stays steady rfl (fun _ member _ => member) ?_ ?_
      · intro held believed covered
        obtain ⟨claimFloorMs, _, believes⟩ := (inv.sane other).held held believed
        exact covered_others inv.tenures id other message flight.1 same _ _ claimFloorMs _
          believes.tenure covered
      · intro minted member own covered
        obtain ⟨claimFloorMs, tenure, -⟩ := ((inv.sane other).minted minted member own).tenure
        rw [own] at tenure
        exact covered_others inv.tenures id other message flight.1 same _ _ claimFloorMs _ tenure
          covered
  refine ⟨tenures_apply world (world.apply id message).1 id message (world.apply id message).2
    inv.tenures flight.1 rfl, sane, ?_⟩
  intro other different
  refine (steady_apply world id other message).operating ?_ rfl (inv.operating other)
  exact fun nodeId generation floorMs tsMs tenure clear covered =>
    ⟨clear, covered_others inv.tenures id other message flight.1 different nodeId generation floorMs
      tsMs tenure covered⟩

/-- Once a write of a tenure has gone through, what it wrote is covered for the tenure. -/
theorem covered_written (inv : Tenures world) (id : Nat) (message : Message)
    (honest : message.Honest world id) (nodeId generation revision : Nat)
    (within : message.Within nodeId generation)
    (answered : (world.apply id message).2 = .done true revision) :
    Covered (world.apply id message).1 nodeId generation message.floorMs := by
  rcases apply_cases world (world.apply id message).1 id message (world.apply id message).2 inv
    honest rfl with
    ⟨-, refused⟩ | ⟨_, -, done, ⟨leaseId, floorMs, cell, claim⟩ | ⟨claimFloorMs, cell, write⟩⟩
  · exact absurd answered (refused revision)
  · obtain ⟨holder, floorRevision, shape⟩ := claim.shape
    rw [shape] at within
    exact within.elim
  · have named : message.nodeId = nodeId ∧ cell.createRevision = generation := by
      have own := write.within
      cases message with
      | claim => exact within.elim
      | raiseCeiling node under ceilingMs => exact ⟨within.1, own.2.symm.trans within.2⟩
      | release node under floorMs => exact ⟨within.1, own.2.symm.trans within.2⟩
    obtain ⟨rfl, rfl⟩ := named
    obtain ⟨written, now, value, -⟩ := done.writes.floor
    refine ⟨⟨written, now, le_of_eq value.symm⟩, fun other member node after => ?_⟩
    rw [write.claims] at member
    have newest := inv.latest _ cell write.owner other member node
    omega

theorem covered_claimed (inv : Tenures world) (id nodeId leaseId floorRevision revision : Nat)
    (holder : String) (floorMs : Option Int) (ceilingMs : Int)
    (honest : (Message.claim nodeId holder leaseId floorMs floorRevision ceilingMs).Honest world id)
    (answered : (world.apply id
      (.claim nodeId holder leaseId floorMs floorRevision ceilingMs)).2 = .done true revision) :
    TenureUnder (world.apply id
        (.claim nodeId holder leaseId floorMs floorRevision ceilingMs)).1 id nodeId revision
        floorMs leaseId ∧
      Covered (world.apply id
        (.claim nodeId holder leaseId floorMs floorRevision ceilingMs)).1 nodeId revision
        ceilingMs := by
  generalize same : world.apply id
    (.claim nodeId holder leaseId floorMs floorRevision ceilingMs) = outcome at answered
  obtain ⟨next, answer⟩ := outcome
  have tenures := tenures_apply world next id _ answer inv honest same
  rcases apply_cases world next id _ answer inv honest same with
    ⟨-, refused⟩ | ⟨_, rfl, done, ⟨lease, floor, cell, claim⟩ | ⟨claimFloorMs, cell, write⟩⟩
  · exact absurd answered (refused revision)
  · cases answered
    obtain ⟨_, _, shape⟩ := claim.shape
    simp only [Message.claim.injEq] at shape
    obtain ⟨-, -, rfl, rfl, -, -⟩ := shape
    obtain ⟨written, now, value, -⟩ := done.writes.floor
    refine ⟨?_, ⟨written, now, le_of_eq value.symm⟩, fun other member node after => ?_⟩
    · rw [TenureUnder, claim.claims]
      exact List.mem_append_right _ (List.mem_singleton.mpr rfl)
    · have newest := tenures.latest _ cell claim.owner other member node
      have created := claim.created.1
      omega
  · exact write.within.elim

/-! ## Calls reach etcd -/

theorem entry_seen (inv : Tenures world) (nodeId : Nat) :
    Seen world.keyspace (.floor nodeId) (entryOf world.keyspace nodeId).floor :=
  seen_read world.keyspace inv.sound (.floor nodeId)

/-- A held entry read from etcd: whose tenure it is, and what its floor is worth to that
replica. -/
theorem entry_owned (inv : Inv hosts world) (nodeId : Nat) (own : HeldEntry)
    (read : (entryOf world.keyspace nodeId).held = some own) :
    own.nodeId = nodeId ∧ ∃ id leaseId,
      TenureUnder world id nodeId own.owner.createRevision own.owner.value.claimFloorMs leaseId ∧
        own.owner.lease = some leaseId ∧ Leased world id leaseId ∧
        Bounds world id nodeId own.owner.createRevision ((floorOf own.floor).getD 0) := by
  obtain ⟨cell, stored, rfl⟩ := Option.map_eq_some_iff.mp read
  obtain ⟨id, leaseId, tenure, attached, leased⟩ := inv.tenures.owned nodeId cell stored
  refine ⟨rfl, id, leaseId, tenure, attached, leased, ?_⟩
  have worth : ∀ tsMs, Covered world nodeId cell.createRevision tsMs →
      tsMs ≤ (floorOf (world.keyspace.cells (.floor nodeId))).getD 0 := by
    intro tsMs covered
    obtain ⟨floor, present, below⟩ := covered.stored
    rw [present]
    exact below
  refine ⟨⟨_, ⟨leaseId, tenure⟩, worth _ (inv.tenures.covered _ tenure)⟩, ?_, ?_⟩
  · intro minted member own node under
    have good := ((inv.sane id).minted minted member own).covered
    rw [node, under] at good
    exact worth _ good
  · intro held believed node under
    obtain ⟨_, _, believes⟩ := (inv.sane id).held held believed
    have covered := believes.covered
    rw [node, under] at covered
    exact worth _ covered

theorem readNode_held (keyspace : Keyspace) (nodeId generation : Nat) (own : HeldEntry)
    (found : isHeldBy (readNode keyspace nodeId) generation = some own) :
    (entryOf keyspace nodeId).held = some own ∧ own.owner.createRevision = generation := by
  obtain ⟨held, named⟩ := Option.filter_eq_some_iff.mp found
  refine ⟨?_, by simpa using named⟩
  unfold readNode at held
  split at held
  · exact held
  · cases held

theorem ownedBy_held (keyspace : Keyspace) (leaseId : Nat) (own : HeldEntry)
    (found : (snapshot keyspace).ownedBy leaseId = some own) :
    ∃ nodeId, (entryOf keyspace nodeId).held = some own ∧ own.owner.lease = some leaseId := by
  obtain ⟨entry, member, filtered⟩ := List.exists_of_findSome?_eq_some found
  obtain ⟨nodeId, -, rfl⟩ := List.mem_map.mp member
  obtain ⟨held, attached⟩ := Option.filter_eq_some_iff.mp filtered
  exact ⟨nodeId, held, by simpa using attached⟩

theorem range_transits (inv : Inv hosts world) (id : Nat) (awaiting : Awaiting)
    (knows : awaiting.Knows world id) :
    awaiting.Transits world id (.answered (.range (snapshot world.keyspace))) := by
  cases awaiting with
  | acquireRange anchor leaseId =>
      obtain ⟨-, pending⟩ := knows
      refine ⟨fun entry member => ?_, fun own found => ?_⟩
      · obtain ⟨nodeId, -, rfl⟩ := List.mem_map.mp member
        exact entry_seen inv.tenures nodeId
      · obtain ⟨nodeId, held, attached⟩ := ownedBy_held _ leaseId own found
        obtain ⟨rfl, owner, lease, tenure, known, leased, bounds⟩ :=
          entry_owned inv nodeId own held
        obtain rfl : leaseId = lease := Option.some.inj (attached.symm.trans known)
        have mine := ((inv.sane id).pending leaseId pending).leased
        obtain rfl : id = owner := mine.2.symm.trans leased.2
        exact ⟨tenure, bounds⟩
  | _ => trivial

theorem node_transits (inv : Inv hosts world) (id nodeId : Nat) (awaiting : Awaiting)
    (knows : awaiting.Knows world id)
    (transits : awaiting.Transits world id (.asked (.readNode nodeId))) :
    awaiting.Transits world id (.answered (.node (readNode world.keyspace nodeId))) := by
  cases awaiting with
  | renewRead anchor node generation nowMs lastMs =>
      obtain rfl : nodeId = node := transits
      intro own found
      obtain ⟨held, rfl⟩ := readNode_held _ nodeId generation own found
      obtain ⟨rfl, owner, lease, tenure, -, -, bounds⟩ := entry_owned inv nodeId own held
      obtain ⟨believed, now, node, under⟩ := knows
      obtain ⟨_, _, believes⟩ := (inv.sane id).held believed now
      have mine := believes.tenure
      rw [node, under] at mine
      obtain ⟨rfl, -⟩ := tenure_unique world inv.tenures _ _ _ _ _ _ _ mine ⟨lease, tenure⟩
      exact ⟨rfl, bounds⟩
  | releaseRead node generation lastMs =>
      obtain rfl : nodeId = node := transits
      intro own found
      obtain ⟨held, rfl⟩ := readNode_held _ nodeId generation own found
      obtain ⟨rfl, owner, lease, tenure, -⟩ := entry_owned inv nodeId own held
      obtain ⟨-, ⟨claimFloorMs, mine⟩, -⟩ := knows
      obtain ⟨rfl, -⟩ := tenure_unique world inv.tenures _ _ _ _ _ _ _ mine ⟨lease, tenure⟩
      exact ⟨rfl, lease, tenure⟩
  | _ => trivial

theorem raise_held (id nodeId generation : Nat) (ceilingMs : Int) (revision : Nat)
    (answered : (world.apply id (.raiseCeiling nodeId generation ceilingMs)).2 =
      .done true revision) : (heldBy nodeId generation).holds world.keyspace := by
  obtain ⟨met, -, -⟩ := commit_done _ _ _ _ _
    (Prod.ext rfl answered : (Message.raiseCeiling nodeId generation ceilingMs).commit
      world.keyspace = (_, .done true revision))
  exact met _ (List.mem_singleton.mpr rfl)

/-- Nothing is in flight under a tenure that has only just been claimed. -/
theorem clear_claimed (inv : Inv hosts world) (id nodeId leaseId floorRevision revision : Nat)
    (holder : String) (floorMs : Option Int) (ceilingMs : Int)
    (honest : (Message.claim nodeId holder leaseId floorMs floorRevision ceilingMs).Honest world id)
    (answered : (world.apply id
      (.claim nodeId holder leaseId floorMs floorRevision ceilingMs)).2 = .done true revision) :
    Clear (world.apply id (.claim nodeId holder leaseId floorMs floorRevision ceilingMs)).1 id
      nodeId revision ceilingMs := by
  intro older member within
  have tenure : ∃ claimFloorMs, Tenure world id nodeId revision claimFloorMs := by
    have sent := ((inv.sane id).sent older member).1
    cases older with
    | claim => exact within.elim
    | raiseCeiling node under ceilingMs =>
        obtain ⟨rfl, rfl⟩ := within
        exact ⟨sent.choose, sent.choose_spec.1⟩
    | release node under floorMs =>
        obtain ⟨rfl, rfl⟩ := within
        exact ⟨sent.choose, sent.choose_spec.1⟩
  obtain ⟨claimFloorMs, lease, known⟩ := tenure
  have past := (inv.tenures.range _ known).2
  generalize same : world.apply id
    (.claim nodeId holder leaseId floorMs floorRevision ceilingMs) = outcome at answered
  obtain ⟨next, answer⟩ := outcome
  rcases apply_cases world next id _ answer inv.tenures honest same with
    ⟨-, refused⟩ | ⟨_, rfl, done, ⟨lease, floor, cell, claim⟩ | ⟨claimFloorMs, cell, write⟩⟩
  · exact absurd answered (refused revision)
  · cases answered
    have fresh := claim.fresh
    simp only at past
    omega
  · exact write.within.elim

/-- What an applied transaction's answer is worth to its replica. -/
theorem txn_transits (inv : Inv hosts world) (id : Nat) (awaiting : Awaiting) (message : Message)
    (transits : awaiting.Transits world id (.asked (.txn message)))
    (clear : ∀ nodeId generation ceilingMs, message = .raiseCeiling nodeId generation ceilingMs →
      (heldBy nodeId generation).holds world.keyspace →
      Clear world id nodeId generation ceilingMs) :
    awaiting.Transits (world.apply id message).1 id
      (.answered (.txn (world.apply id message).2)) := by
  have steady := steady_apply world id id message
  generalize answered : (world.apply id message).2 = answer
  cases answer with
  | leaseNotFound => cases awaiting <;> trivial
  | done succeeded revision =>
      cases succeeded with
      | false => cases awaiting <;> trivial
      | true =>
          cases awaiting with
          | acquireClaim anchor leaseId nodeId floorMs nowMs ceilingMs free =>
              obtain ⟨flight, holder, floorRevision, rfl⟩ := transits
              exact ⟨clear_claimed inv id nodeId leaseId floorRevision revision holder floorMs
                  ceilingMs flight.1 answered,
                covered_claimed inv.tenures id nodeId leaseId floorRevision revision
                  holder floorMs ceilingMs flight.1 answered⟩
          | acquireReadopt anchor own nowMs ceilingMs =>
              obtain ⟨flight, rfl⟩ := transits
              exact ⟨clear _ _ _ rfl (raise_held id _ _ _ revision answered),
                covered_written inv.tenures id _ flight.1 own.nodeId
                own.owner.createRevision revision ⟨rfl, rfl⟩ answered⟩
          | renewRaise anchor ceilingMs =>
              obtain ⟨flight, nodeId, generation, holds, rfl⟩ := transits
              obtain ⟨claimFloorMs, tenure, -⟩ := flight.1
              exact ⟨nodeId, generation,
                clear _ _ _ rfl (raise_held id _ _ _ revision answered), holds,
                ⟨claimFloorMs, steady.tenure _ _ _ _ tenure⟩,
                covered_written inv.tenures id _ flight.1 nodeId generation revision ⟨rfl, rfl⟩
                  answered⟩
          | releaseTxn leaseId => trivial
          | _ => exact transits.elim

theorem inOrder_uncrossed (world : World) (event : Event) (ordered : InOrder world event) :
    Uncrossed world event := by
  unfold Uncrossed
  split
  · rename_i id
    split
    · rename_i awaiting nodeId generation ceilingMs now
      have empty : (world.replicas id).abandoned = [] := by simpa [InOrder, now] using ordered
      rw [empty]
      exact fun _ _ none => absurd none List.not_mem_nil
    · trivial
  · trivial

theorem transits_flight (id : Nat) (awaiting : Awaiting) (transit : Transit)
    (transits : awaiting.Transits world id transit) :
    ∀ message ∈ transit.unfinished, InFlight world id message := by
  intro message member
  cases transit with
  | answered reply => cases member
  | asked call =>
      cases call with
      | txn sent =>
          obtain rfl := List.mem_singleton.mp member
          cases awaiting with
          | acquireClaim => exact transits.1
          | acquireReadopt => exact transits.1
          | renewRaise => exact transits.1
          | releaseTxn => exact transits
          | _ => exact transits.elim
      | _ => cases member

theorem inv_answer (id : Nat) (awaiting : Awaiting) (reply : Reply) (tenures : Tenures world)
    (sanes : ∀ other, Sane (hosts other).clock world other)
    (operatings : ∀ other, other ≠ id → Operating world other)
    (distinct : (world.minted.map (·.id)).Nodup)
    (knows : awaiting.Knows world id)
    (transits : awaiting.Transits world id (.answered reply)) :
    Inv hosts (world.set id
      { world.replicas id with operation := some (awaiting, .answered reply) }) := by
  have steady := steady_set world id id
    { world.replicas id with operation := some (awaiting, .answered reply) } (fun _ => rfl)
    fun _ => rfl
  have stays : StaysCovered world (world.set id
      { world.replicas id with operation := some (awaiting, .answered reply) }) id := by
    intro _ _ _ _ _ clear known
    exact ⟨clear_set id _ (fun _ member => member) clear, covered_set id _ known⟩
  exact inv_own id _ tenures sanes operatings distinct ((sanes id).turn _)
    (operating_at _ _ _ awaiting _ rfl (steady.knows awaiting knows)
      (steady.transits stays awaiting _ knows transits))

/-- A new lease is one its replica has minted nothing under. -/
theorem unused_granted (inv : Inv hosts world) (id : Nat) :
    Unused
      { world with
        keyspace := world.keyspace.grant.1
        grantee := Function.update world.grantee world.keyspace.granted id }
      id world.keyspace.granted := by
  refine ⟨⟨Nat.lt_succ_self _, Function.update_self ..⟩, fun minted member own => ?_⟩
  obtain ⟨claimFloorMs, ⟨leaseId, tenure⟩, -⟩ := ((inv.sane id).minted minted member own).tenure
  have older := (inv.tenures.leased _ tenure).1
  exact ⟨claimFloorMs, leaseId, Nat.ne_of_lt older, own ▸ tenure⟩

theorem inv_serve (inv : Inv hosts world) (id : Nat) (awaiting : Awaiting) (call : Call)
    (now : (world.replicas id).operation = some (awaiting, .asked call))
    (uncrossed : Uncrossed world (.serve id)) :
    Inv hosts ((world.call id call).1.set id { world.replicas id with
      operation := some (awaiting, .answered (world.call id call).2) }) := by
  obtain ⟨knows, transits⟩ := inv.operating id awaiting _ now
  cases call with
  | leaseGrant =>
      obtain ⟨tenures, covered⟩ := tenures_grant world id inv.tenures
      have carries : Carries world
          { world with
            keyspace := world.keyspace.grant.1
            grantee := Function.update world.grantee world.keyspace.granted id } :=
        ⟨advances_grant _, fun _ granted => Function.update_of_ne (Nat.ne_of_lt granted) _ _,
          fun _ member => member⟩
      obtain ⟨kept, steady⟩ := inv_unnoticed inv _ tenures carries rfl rfl covered
      refine inv_answer id awaiting _ kept.tenures kept.sane (fun other _ => kept.operating other)
        kept.distinct ((steady id).knows awaiting knows) ?_
      cases awaiting with
      | acquireGrant anchor => exact unused_granted inv id
      | _ => trivial
  | keepAlive leaseId =>
      refine inv_answer id awaiting _ inv.tenures inv.sane (fun other _ => inv.operating other)
        inv.distinct knows ?_
      cases awaiting <;> trivial
  | range =>
      exact inv_answer id awaiting _ inv.tenures inv.sane (fun other _ => inv.operating other)
        inv.distinct knows (range_transits inv id awaiting knows)
  | readNode nodeId =>
      exact inv_answer id awaiting _ inv.tenures inv.sane (fun other _ => inv.operating other)
        inv.distinct knows (node_transits inv id nodeId awaiting knows transits)
  | txn message =>
      have flight := transits_flight id awaiting _ transits message (List.mem_singleton.mpr rfl)
      obtain ⟨tenures, sanes, operatings⟩ := inv_apply inv id message flight
      have clear : ∀ nodeId generation ceilingMs,
          message = .raiseCeiling nodeId generation ceilingMs →
          (heldBy nodeId generation).holds world.keyspace →
          Clear world id nodeId generation ceilingMs := by
        rintro nodeId generation ceilingMs rfl
        simp only [Uncrossed, now] at uncrossed
        exact uncrossed
      exact inv_answer id awaiting _ tenures sanes operatings inv.distinct
        ((steady_apply world id id message).knows awaiting knows)
        (txn_transits inv id awaiting message transits clear)
  | leaseRevoke leaseId =>
      cases leaseId with
      | none =>
          refine inv_answer id awaiting _ inv.tenures inv.sane (fun other _ => inv.operating other)
            inv.distinct knows ?_
          cases awaiting <;> trivial
      | some leaseId =>
          obtain ⟨tenures, covered⟩ := tenures_expire world leaseId inv.tenures
          obtain ⟨kept, steady⟩ := inv_unnoticed inv _ tenures
            ⟨advances_expire _ leaseId, fun _ _ => rfl, fun _ member => member⟩ rfl rfl covered
          refine inv_answer id awaiting _ kept.tenures kept.sane
            (fun other _ => kept.operating other) kept.distinct
            ((steady id).knows awaiting knows) ?_
          cases awaiting <;> trivial

/-! ## Steps that answer nothing -/

theorem inv_fail (inv : Inv hosts world) (id : Nat) (next : Replica)
    (failed : (world.replicas id).fail = some next) : Inv hosts (world.set id next) := by
  have sane := inv.sane id
  unfold Replica.fail at failed
  split at failed
  · cases failed
  · rename_i transit now
    cases failed
    have unheld : (world.replicas id).held = none := (inv.operating id _ _ now).1
    exact inv_set inv id _ ⟨sane.set _ rfl (absurd unheld) rfl (fun alive => alive)
      (Nat.le_refl _) sane.unclaiming sane.pending sane.sent, operating_done _ _ _ rfl⟩
  · rename_i awaiting transit _ now
    cases failed
    have flights := transits_flight id awaiting transit (inv.operating id _ _ now).2
    have sent : ∀ message ∈ (world.replicas id).abandoned ++ transit.unfinished,
        InFlight world id message := by
      intro message member
      rcases List.mem_append.mp member with old | new
      · exact sane.sent message old
      · exact flights message new
    exact inv_set inv id _ ⟨sane.set _ rfl sane.phase rfl (fun alive => alive)
      (Nat.le_refl _) sane.unclaiming sane.pending sent, operating_done _ _ _ rfl⟩

theorem inv_crash (inv : Inv hosts world) (id : Nat) :
    Inv hosts (world.set id (world.replicas id).crash) := by
  have sane := inv.sane id
  have sent : ∀ message ∈ (world.replicas id).crash.abandoned, InFlight world id message := by
    intro message member
    rcases List.mem_append.mp member with old | new
    · exact sane.sent message old
    · cases now : (world.replicas id).operation with
      | none =>
          rw [now] at new
          cases new
      | some operation =>
          rw [now] at new
          exact transits_flight id operation.1 operation.2 (inv.operating id _ _ now).2 message new
  exact inv_set inv id _ ⟨sane.forget _ rfl (fun alive => nomatch alive) sane.pending sent,
    operating_done _ _ _ rfl⟩

theorem inv_forget (id position : Nat) (tenures : Tenures world)
    (sanes : ∀ other, Sane (hosts other).clock world other)
    (operatings : ∀ other, Operating world other)
    (distinct : (world.minted.map (·.id)).Nodup) :
    Inv hosts (world.set id
      { world.replicas id with
        abandoned := (world.replicas id).abandoned.eraseIdx position }) := by
  have sane := sanes id
  have steady := steady_set world id id
    { world.replicas id with abandoned := (world.replicas id).abandoned.eraseIdx position }
    (fun _ => rfl) fun _ => rfl
  refine inv_own id _ tenures sanes (fun other _ => operatings other) distinct
    (sane.set _ rfl sane.phase rfl (fun alive => alive) (Nat.le_refl _) sane.unclaiming
      sane.pending fun message member => sane.sent message (List.mem_of_mem_eraseIdx member))
    (steady.operating (fun _ _ _ _ _ clear known => ⟨?_, covered_set id _ known⟩)
      (by rw [set_replicas]) (operatings id))
  exact clear_set id _ (fun message member => List.mem_of_mem_eraseIdx member) clear

theorem inv_late (inv : Inv hosts world) (id position : Nat) (message : Message)
    (found : (world.replicas id).abandoned[position]? = some message) :
    Inv hosts ((world.apply id message).1.set id
      { world.replicas id with
        abandoned := (world.replicas id).abandoned.eraseIdx position }) := by
  have flight := (inv.sane id).sent message (List.mem_of_getElem? found)
  obtain ⟨tenures, sanes, operatings⟩ := inv_apply inv id message flight
  refine @inv_forget hosts (world.apply id message).1 id position tenures sanes
    (fun other => ?_) inv.distinct
  by_cases same : other = id
  · subst same
    refine (steady_apply world other other message).operating ?_ rfl (inv.operating other)
    rintro nodeId generation floorMs tsMs ⟨leaseId, claim⟩ clear covered
    -- what its operation was answered lies below all it gave up on, this message included
    exact ⟨clear, covered_apply world _ other message _ inv.tenures flight.1 rfl nodeId generation
      tsMs ⟨_, claim, rfl, rfl⟩ (clear message (List.mem_of_getElem? found)) covered⟩
  · exact operatings other same

/-! ## Minting -/

theorem inv_mint (inv : Inv hosts world) (id : Nat) (held : Held) (claimFloorMs : Option Int)
    (floorMs : Int) (spelled : String) (believed : (world.replicas id).held = some held)
    (believes : Believes (hosts id).clock world id held claimFloorMs floorMs)
    (fresh : floorMs < held.generator.lastMs)
    (bounded : held.generator.lastMs ≤ held.leaseUntilMs)
    (encoded : encode held.generator.fields = .ok spelled)
    (later : ∀ minted ∈ world.minted, minted.replica = id →
      minted.fields.stamp < held.generator.fields.stamp) :
    Inv hosts (world.mint id spelled) := by
  obtain ⟨sane, steady⟩ :=
    (inv.sane id).mint believed believes fresh bounded spelled encoded
  have shape : world.mint id spelled =
      { world with
        minted := world.minted ++
          [{ replica := id
             nodeId := held.nodeId
             generation := held.generation
             fields := held.generator.fields
             id := spelled }] } := by
    simp [World.mint, believed]
  have same : (world.mint id spelled).replicas = world.replicas := by rw [shape]
  have covers : ∀ nodeId generation tsMs, Covered world nodeId generation tsMs →
      Covered (world.mint id spelled) nodeId generation tsMs := by
    intro nodeId generation tsMs covered
    rw [shape]
    exact ⟨covered.stored, covered.later⟩
  have tenures : Tenures (world.mint id spelled) := by
    have known := inv.tenures
    rw [shape]
    exact ⟨known.sound, known.unleased, known.range, known.unique, known.leased,
      fun claim member => ⟨(known.covered claim member).stored, (known.covered claim member).later⟩,
      known.owned, known.latest⟩
  have others : ∀ other, other ≠ id → ∀ minted ∈ (world.mint id spelled).minted,
      minted.replica = other → minted ∈ world.minted := by
    rw [shape]
    intro other different minted member own
    rcases List.mem_append.mp member with old | new
    · exact old
    · obtain rfl := List.mem_singleton.mp new
      exact absurd own.symm different
  have stays : ∀ other, StaysCovered world (world.mint id spelled) other :=
    fun other _ _ _ _ _ clear known =>
      ⟨clear_same (congrFun same other) clear, covers _ _ _ known⟩
  have steadies : ∀ other, other ≠ id → Steady world (world.mint id spelled) other :=
    fun other different => ⟨steady.toCarries, by rw [same], by rw [same],
      fun minted member own => .inl (others other different minted member own)⟩
  refine ⟨tenures, fun other => ?_, fun other => ?_, ?_⟩
  · by_cases mine : other = id
    · exact mine ▸ sane
    · exact (inv.sane other).stays (steadies other mine) (by rw [same]) (others other mine)
        (fun _ _ => covers _ _ _) fun _ _ _ => covers _ _ _
  · by_cases mine : other = id
    · subst mine
      exact steady.operating (stays other) (by rw [same]) (inv.operating other)
    · exact (steadies other mine).operating (stays other) (by rw [same]) (inv.operating other)
  · have absent := mint_fresh (fun other => (hosts other).clock) world id inv.tenures inv.sane held
      claimFloorMs _ held.generator.fields spelled believes.tenure believes.covered
      (believes.claimed.trans_lt fresh) bounded believes.node encoded later
    rw [shape]
    simp only [List.map_append, List.map_cons, List.map_nil]
    exact List.nodup_append.mpr ⟨inv.distinct, List.nodup_singleton _,
      fun _ old _ new same => absent (by rw [List.mem_singleton.mp new] at same; exact same ▸ old)⟩

theorem inv_generate (inv : Inv hosts world) (id : Nat) (next : Replica)
    (result : Except GenerateError String)
    (called : (world.replicas id).generate (hosts id) = (result, next))
    (alive : (world.replicas id).alive) :
    Inv hosts (world.set id next) ∧
      ∀ spelled, result = .ok spelled → Inv hosts ((world.set id next).mint id spelled) := by
  have sane := inv.sane id
  rcases generate_cases (hosts id) _ next result called with
    ⟨tick, error, after, rfl, rfl⟩ |
    ⟨held, minted, generator, tick, later, believed, stamped, after, rfl, outcome⟩
  · refine ⟨inv_set inv id _ ⟨sane.set _ rfl sane.phase rfl (fun alive => alive) after
      sane.unclaiming sane.pending sane.sent, ?_⟩, fun _ same => nomatch same⟩
    exact operating_set (inv.operating id) _ rfl rfl rfl rfl
  · obtain ⟨claimFloorMs, floorMs, believes⟩ := sane.held held believed
    have law := held.generator.generate_minting (hosts id).clock ((world.replicas id).tick + 1)
      floorMs (believes.above.later _ (Nat.le_succ _))
    rw [stamped] at law
    obtain ⟨node, -, above, stamps⟩ := law
    have above := above.later later after
    have up : held.generator.stamp ≤ generator.stamp := by
      rcases stamps with ⟨kept, -⟩ | ⟨higher, -⟩
      · exact le_of_eq kept.symm
      · exact le_of_lt higher
    have moved := sane.move believed believes generator later node above up
    have turned := believes.turn generator later node above up
    have kept : Inv hosts (world.set id
        { world.replicas id with held := some { held with generator }, tick := later }) := by
      refine inv_set inv id _ ⟨moved, operating_set (inv.operating id) _ ?_ rfl rfl rfl⟩
      simp [Replica.belief, believed]
    refine ⟨kept, fun spelled same => ?_⟩
    rcases outcome with ⟨error, refused⟩ | ⟨answer, answered, minting, bounded⟩
    · rw [refused] at same
      cases same
    · rw [answered] at same
      cases same
      rcases stamps with ⟨-, reason, stalled⟩ | ⟨higher, fresh, encoding⟩
      · rw [minting] at stalled
        cases stalled
      · have encoded : encode generator.fields = .ok spelled := by
          rw [minting] at encoding
          cases known : encode generator.fields with
          | error message =>
              rw [known] at encoding
              cases encoding
          | ok id =>
              rw [known] at encoding
              cases encoding
              rfl
        refine inv_mint kept id { held with generator } claimFloorMs floorMs spelled
          (by rw [set_replicas]) turned fresh bounded encoded fun old member own => ?_
        rcases sane.past alive old member own with before | ⟨other, now, below⟩
        · have := believes.retired
          exact Prod.Lex.toLex_lt_toLex.mpr (.inl (lt_of_le_of_lt (before.trans this) fresh))
        · obtain rfl := Option.some.inj (believed.symm.trans now)
          exact lt_of_le_of_lt below higher

/-! ## Whole runs -/

theorem inv_act (inv : Inv hosts world) (id : Nat) (event : Event) (next : World)
    (alive : (world.replicas id).alive) (actor : event.actor = some id)
    (uncrossed : Uncrossed world event)
    (acted : world.act hosts id (world.replicas id) event = some next) : Inv hosts next := by
  have sane := inv.sane id
  unfold World.act at acted
  split at acted
  · split at acted
    · cases acted
      exact inv
    · rename_i started
      cases acted
      exact inv_set inv id _ (acquire_keeps (hosts id) world id _ sane started)
  · split at acted
    · cases acted
      exact inv
    · rename_i started
      cases acted
      exact inv_set inv id _ (renew_keeps (hosts id) world id _ sane started)
  · cases acted
    exact inv_set inv id _ (release_keeps (hosts id) world id sane alive (inv.operating id))
  · cases acted
    exact inv_set inv id _ ⟨sane.set _ rfl sane.phase rfl (fun alive => alive) (Nat.le_refl _)
      sane.unclaiming sane.pending sane.sent,
      operating_set (inv.operating id) _ rfl rfl rfl rfl⟩
  · split at acted
    · rename_i spelled replica called
      cases acted
      exact (inv_generate inv id replica _ called alive).2 spelled rfl
    · rename_i error replica called
      cases acted
      exact (inv_generate inv id replica _ called alive).1
  · split at acted
    · rename_i awaiting call now
      cases acted
      cases actor
      exact inv_serve inv id awaiting call now uncrossed
    · cases acted
  · split at acted
    · rename_i awaiting reply now
      obtain ⟨replica, gone, rfl⟩ := Option.map_eq_some_iff.mp acted
      exact inv_set inv id _ (proceed_keeps (hosts id) world id sane inv.tenures alive
        (inv.operating id) awaiting reply _ replica now gone)
    · cases acted
  · obtain ⟨replica, failed, rfl⟩ := Option.map_eq_some_iff.mp acted
    exact inv_fail inv id replica failed
  · cases acted
    exact inv_crash inv id
  · cases acted

theorem inv_step (inv : Inv hosts world) (event : Event) (next : World)
    (uncrossed : Uncrossed world event) (stepped : step hosts world event = some next) :
    Inv hosts next := by
  unfold step at stepped
  split at stepped
  · split at stepped
    · cases stepped
    · rename_i message found
      cases stepped
      exact inv_late inv _ _ message found
  · split at stepped
    · rename_i present
      cases stepped
      exact inv_forget _ _ inv.tenures inv.sane inv.operating inv.distinct
    · cases stepped
  · rename_i leaseId
    cases stepped
    obtain ⟨tenures, covered⟩ := tenures_expire world leaseId inv.tenures
    exact (inv_unnoticed inv _ tenures
      ⟨advances_expire _ leaseId, fun _ _ => rfl, fun _ member => member⟩ rfl rfl covered).1
  · cases stepped
    obtain ⟨tenures, covered⟩ := tenures_elsewhere world inv.tenures
    exact (inv_unnoticed inv _ tenures
      ⟨advances_elsewhere _, fun _ _ => rfl, fun _ member => member⟩ rfl rfl covered).1
  · split at stepped
    · cases stepped
    · rename_i id actor
      split at stepped
      · rename_i alive
        exact inv_act inv id event next alive actor uncrossed stepped
      · cases stepped

end Steps

theorem inv_start (hosts : Nat → Host) (origin : Origin) : Inv hosts (start origin) where
  tenures :=
    { sound := origin.sound
      unleased := origin.unleased
      range := fun _ none => absurd none List.not_mem_nil
      unique := fun _ none => absurd none List.not_mem_nil
      leased := fun _ none => absurd none List.not_mem_nil
      covered := fun _ none => absurd none List.not_mem_nil
      owned := fun nodeId _ present => nomatch (origin.unowned nodeId).symm.trans present
      latest := fun _ _ _ _ none => absurd none List.not_mem_nil }
  sane := fun _ =>
    { pending := fun _ none => nomatch none
      phase := fun believed => absurd rfl believed
      held := fun _ none => nomatch none
      minted := fun _ none => absurd none List.not_mem_nil
      past := fun _ _ none => absurd none List.not_mem_nil
      sent := fun _ none => absurd none List.not_mem_nil }
  operating := fun _ _ _ none => nomatch none
  distinct := List.nodup_nil

/-- In any run whose replicas' transactions apply in the order sent, no two calls of
`generate` return the same id, and every id lies above the floor its tenure's claim read and
at or below the floor its node has stored. -/
theorem ids_unique (hosts : Nat → Host) (origin : Origin) (events : List Event) (final : World)
    (ordered : Along (step hosts) InOrder (start origin) events)
    (success : run (step hosts) (start origin) events = some final) :
    (final.minted.map (·.id)).Nodup ∧
      ∀ minted ∈ final.minted,
        encode minted.fields = .ok minted.id ∧ minted.fields.nodeId = minted.nodeId ∧
        (∃ claim ∈ final.claims, claim.replica = minted.replica ∧
          claim.nodeId = minted.nodeId ∧ claim.generation = minted.generation ∧
          ∀ floorMs, claim.claimFloorMs = some floorMs → floorMs < minted.fields.tsMs) ∧
        ∃ cell : Cell Int, final.keyspace.cells (.floor minted.nodeId) = some cell ∧
          minted.fields.tsMs ≤ cell.value := by
  have inv : Inv hosts final :=
    run_preserves_along (step hosts) InOrder (Inv hosts)
      (fun state event next kept met stepped =>
        inv_step kept event next (inOrder_uncrossed state event met) stepped) events
      (start origin) final (inv_start hosts origin) ordered success
  refine ⟨inv.distinct, fun minted member => ?_⟩
  have good := (inv.sane minted.replica).minted minted member rfl
  obtain ⟨claimFloorMs, ⟨leaseId, tenure⟩, above⟩ := good.tenure
  refine ⟨good.spelled, good.node, ⟨_, tenure, rfl, rfl, rfl, ?_⟩, good.covered.stored⟩
  rintro floorMs rfl
  exact above

/-! A claim whose answer is lost, found again by the next acquire, and two ids. -/

def initializedKeyspace : Keyspace :=
  { revision := 1
    cells := fun key =>
      match key with
      | .initialized => some { value := (), createRevision := 1, modRevision := 1, lease := none }
      | _ => none
    granted := 0
    live := fun _ => false }

def initializedOrigin : Origin where
  keyspace := initializedKeyspace
  sound := by
    intro key cell present
    cases key with
    | initialized => cases present; decide
    | owner nodeId => cases present
    | floor nodeId => cases present
  unowned := fun _ => rfl
  unleased := fun _ _ present => nomatch present

def steadyHost : Host where
  options :=
    { holder := "local/host/1"
      ttlMs := 300000
      fenceMarginMs := 15000
      maxFloorAheadMs := 15000
      named := by decide
      ttl := by decide
      margin := by decide
      ahead := by decide }
  clock :=
    { reading := fun _ => { wallMs := epochMs + 1000, monotonicMs := 0, elapsedNs := 0 }
      steady := fun _ _ _ => Int.le_refl _ }

def readoptedRun : List Event :=
  [.acquire 0, .serve 0, .proceed 0 0, .serve 0, .proceed 0 0, .fail 0, .acquire 0, .serve 0,
    .proceed 0 0, .late 0 0, .serve 0, .proceed 0 0, .serve 0, .proceed 0 0, .generate 0,
    .generate 0]

theorem ids_unique_readopted :
    ∃ final, run (step fun _ => steadyHost) (start initializedOrigin) readoptedRun = some final ∧
      final.minted.length = 2 ∧ (final.minted.map (·.id)).Nodup := by
  have ordered : Along (step fun _ => steadyHost) InOrder (start initializedOrigin)
      readoptedRun := by decide +kernel
  have minted : (run (step fun _ => steadyHost) (start initializedOrigin) readoptedRun).map
      (·.minted.length) = some 2 := by decide +kernel
  obtain ⟨final, success, two⟩ := Option.map_eq_some_iff.mp minted
  exact ⟨final, success, two,
    (ids_unique (fun _ => steadyHost) initializedOrigin readoptedRun final ordered success).1⟩

end Commerce.Identity
