import Commerce.Identity.Minting

/-!
# What a claim needs

A replica claims a node only after it has read the keyspace with its marker, and
only one of the leased nodes.  So does every claim a replica has given up on.
-/

set_option autoImplicit false

namespace Commerce.Identity

open Revisions

/-- A claim in flight is of a leased node, and was sent once the keyspace was `ready`. -/
def Message.Ready (ready : Prop) : Message → Prop
  | .claim nodeId .. => nodeId ∈ leasedNodeIds ∧ ready
  | .raiseCeiling .. | .release .. => True

def Awaiting.Ready (ready : Prop) : Awaiting → Prop
  | .acquireClaim _ _ _ _ _ _ free => ready ∧ ∀ entry ∈ free, entry.nodeId ∈ leasedNodeIds
  | _ => True

def Transit.Ready (ready : Prop) : Transit → Prop
  | .asked (.txn message) => message.Ready ready
  | .answered (.range shot) =>
      (shot.initialized → ready) ∧ ∀ entry ∈ shot.entries, entry.nodeId ∈ leasedNodeIds
  | _ => True

structure Replica.Ready (ready : Prop) (replica : Replica) : Prop where
  operation : ∀ awaiting transit, replica.operation = some (awaiting, transit) →
    awaiting.Ready ready ∧ transit.Ready ready
  abandoned : ∀ message ∈ replica.abandoned, message.Ready ready

structure Claimable (ready : Prop) (world : World) : Prop where
  replicas : ∀ id, (world.replicas id).Ready ready
  claims : ∀ claim ∈ world.claims, claim.nodeId ∈ leasedNodeIds

section Mono

variable {ready later : Prop}

theorem Message.Ready.mono (implied : ready → later) (message : Message)
    (known : message.Ready ready) : message.Ready later := by
  cases message with
  | claim => exact ⟨known.1, implied known.2⟩
  | raiseCeiling => trivial
  | release => trivial

theorem Awaiting.Ready.mono (implied : ready → later) (awaiting : Awaiting)
    (known : awaiting.Ready ready) : awaiting.Ready later := by
  cases awaiting with
  | acquireClaim => exact ⟨implied known.1, known.2⟩
  | _ => trivial

theorem Transit.Ready.mono (implied : ready → later) (transit : Transit)
    (known : transit.Ready ready) : transit.Ready later := by
  cases transit with
  | asked call =>
      cases call with
      | txn message => exact Message.Ready.mono implied message known
      | _ => trivial
  | answered reply =>
      cases reply with
      | range shot => exact ⟨fun marked => implied (known.1 marked), known.2⟩
      | _ => trivial

theorem Claimable.mono {world : World} (implied : ready → later)
    (known : Claimable ready world) : Claimable later world where
  replicas := by
    intro id
    refine ⟨fun awaiting transit now => ?_, fun message member => ?_⟩
    · obtain ⟨knows, transits⟩ := (known.replicas id).operation awaiting transit now
      exact ⟨Awaiting.Ready.mono implied awaiting knows,
        Transit.Ready.mono implied transit transits⟩
    · exact Message.Ready.mono implied message ((known.replicas id).abandoned message member)
  claims := known.claims

end Mono

/-! ## Steps of one replica -/

section Replica

variable {ready : Prop} {host : Host} {replica next : Replica}

theorem Replica.Ready.idle (known : replica.Ready ready) (done : next.operation = none)
    (same : next.abandoned = replica.abandoned) : next.Ready ready := by
  refine ⟨fun awaiting transit now => ?_, same ▸ known.abandoned⟩
  cases done.symm.trans now

theorem Replica.Ready.at (known : replica.Ready ready) (awaiting : Awaiting) (transit : Transit)
    (now : next.operation = some (awaiting, transit)) (same : next.abandoned = replica.abandoned)
    (knows : awaiting.Ready ready) (transits : transit.Ready ready) : next.Ready ready := by
  refine ⟨fun other found present => ?_, same ▸ known.abandoned⟩
  cases now.symm.trans present
  exact ⟨knows, transits⟩

theorem Replica.Ready.kept (known : replica.Ready ready)
    (operation : next.operation = replica.operation)
    (same : next.abandoned = replica.abandoned) : next.Ready ready :=
  ⟨operation ▸ known.operation, same ▸ known.abandoned⟩

theorem ready_acquire (known : replica.Ready ready) (started : replica.acquire host = .ok next) :
    next.Ready ready := by
  obtain ⟨-, ⟨leaseId, -, rfl⟩ | rfl⟩ := acquire_cases host replica next started
  · exact known.at _ _ rfl rfl trivial trivial
  · exact known.at _ _ rfl rfl trivial trivial

theorem ready_renew (known : replica.Ready ready) (started : replica.renew host = .ok next) :
    next.Ready ready := by
  unfold Replica.renew at started
  split at started
  · cases started
  · split at started
    · cases started
    · cases started
      exact known.at _ _ rfl rfl trivial trivial

theorem ready_release (known : replica.Ready ready) : replica.release.Ready ready := by
  rcases release_cases replica with ⟨-, same⟩ | ⟨idle, -, same⟩ | ⟨held, -, same⟩
  · rw [same]
    exact known.kept rfl rfl
  · rw [same]
    exact known.idle idle rfl
  · rw [same]
    exact known.at _ _ rfl rfl trivial trivial

theorem ready_granted (known : replica.Ready ready) (anchor : Reading) (nodeId generation : Nat)
    (floorMs : Option Int) (leaseUntilMs nowMs : Int) :
    (replica.granted host anchor nodeId generation floorMs leaseUntilMs nowMs).Ready ready := by
  unfold Replica.granted
  split
  · exact known.at _ _ rfl rfl trivial trivial
  · split
    · exact known.idle rfl rfl
    · exact known.idle rfl rfl

theorem ready_claimNext (known : replica.Ready ready) (anchor : Reading) (leaseId : Nat)
    (free : List NodeEntry) (position : Nat) (marked : ready)
    (leased : ∀ entry ∈ free, entry.nodeId ∈ leasedNodeIds)
    (claimed : replica.claimNext host anchor leaseId free position = some next) :
    next.Ready ready := by
  unfold Replica.claimNext at claimed
  split at claimed
  · cases claimed
    exact known.at _ _ rfl rfl trivial trivial
  · obtain ⟨entry, found, rfl⟩ := Option.map_eq_some_iff.mp claimed
    have member := List.mem_of_getElem? found
    exact known.at _ _ rfl rfl
      ⟨marked, fun other among => leased other (List.mem_of_mem_eraseIdx among)⟩
      ⟨leased entry member, marked⟩

theorem ready_proceed (known : replica.Ready ready) (awaiting : Awaiting) (reply : Reply)
    (position : Nat) (now : replica.operation = some (awaiting, .answered reply))
    (gone : replica.proceed host position awaiting reply = some next) : next.Ready ready := by
  obtain ⟨knows, transits⟩ := known.operation awaiting _ now
  unfold Replica.proceed at gone
  split at gone
  · cases gone
    exact known.at _ _ rfl rfl trivial trivial
  · cases gone
    exact known.at _ _ rfl rfl trivial trivial
  · cases gone
    exact known.at _ _ rfl rfl trivial trivial
  · -- The keyspace is read: only its marker lets the claims begin.
    rename_i anchor leaseId shot
    obtain ⟨marked, leased⟩ := transits
    split at gone
    · cases gone
      exact known.idle rfl rfl
    · rename_i initialized
      split at gone
      · cases gone
        exact known.at _ _ rfl rfl trivial trivial
      · refine ready_claimNext known anchor leaseId _ 0 (marked ?_) (fun entry member => ?_) gone
        · simpa using initialized
        · exact leased entry (mem_freeOldestFirst shot entry member)
  · cases gone
    have own : Replica.Ready ready { replica with pendingLeaseId := none } := known.kept rfl rfl
    exact ready_granted own _ _ _ _ _ _
  · exact ready_claimNext known _ _ _ _ knows.1 knows.2 gone
  · cases gone
    exact known.idle rfl rfl
  · cases gone
    have own : Replica.Ready ready { replica with pendingLeaseId := none } := known.kept rfl rfl
    exact ready_granted own _ _ _ _ _ _
  · cases gone
    exact known.idle rfl rfl
  · cases gone
    exact known.idle rfl rfl
  · cases gone
    exact known.idle rfl rfl
  · split at gone
    · cases gone
      exact known.idle rfl rfl
    · cases gone
      exact known.at _ _ rfl rfl trivial trivial
  · cases gone
    exact known.idle rfl rfl
  · cases gone
    exact known.at _ _ rfl rfl trivial trivial
  · cases gone
    exact known.idle rfl rfl
  · cases gone
    exact known.idle rfl rfl
  · cases gone
    exact known.idle rfl rfl
  · split at gone
    · cases gone
      exact known.idle rfl rfl
    · cases gone
      exact known.at _ _ rfl rfl trivial trivial
  · cases gone
    exact known.at _ _ rfl rfl trivial trivial
  · cases gone
    exact known.idle rfl rfl
  · cases gone
    exact known.idle rfl rfl
  · cases gone

theorem ready_unfinished (awaiting : Awaiting) (transit : Transit)
    (known : replica.Ready ready) (now : replica.operation = some (awaiting, transit)) :
    ∀ message ∈ transit.unfinished, message.Ready ready := by
  intro message member
  have transits := (known.operation awaiting transit now).2
  cases transit with
  | answered reply => cases member
  | asked call =>
      cases call with
      | txn sent =>
          obtain rfl := List.mem_singleton.mp member
          exact transits
      | _ => cases member

theorem ready_fail (known : replica.Ready ready) (failed : replica.fail = some next) :
    next.Ready ready := by
  unfold Replica.fail at failed
  split at failed
  · cases failed
  · cases failed
    exact known.idle rfl rfl
  · rename_i awaiting transit _ now
    cases failed
    refine ⟨fun _ _ none => absurd none.symm (Option.some_ne_none _), fun message member => ?_⟩
    rcases List.mem_append.mp member with old | new
    · exact known.abandoned message old
    · exact ready_unfinished awaiting transit known now message new

theorem ready_crash (known : replica.Ready ready) : replica.crash.Ready ready := by
  refine ⟨fun _ _ none => absurd none.symm (Option.some_ne_none _), fun message member => ?_⟩
  rcases List.mem_append.mp member with old | new
  · exact known.abandoned message old
  · cases now : replica.operation with
    | none =>
        rw [now] at new
        cases new
    | some operation =>
        rw [now] at new
        exact ready_unfinished operation.1 operation.2 known now message new

end Replica

/-! ## Steps of the world -/

def ClaimsFrom (ready : Prop) (world next : World) : Prop :=
  ∀ claim ∈ next.claims, claim ∈ world.claims ∨
    ready ∧ claim.nodeId ∈ leasedNodeIds ∧ world.keyspace.revision < claim.generation

section World

variable {ready : Prop} {hosts : Nat → Host} {world : World}

theorem claimsFrom_same (next : World) (claims : next.claims = world.claims) :
    ClaimsFrom ready world next := fun _ member => .inl (claims ▸ member)

theorem Claimable.of {next : World} (known : Claimable ready world)
    (replicas : ∀ id, (next.replicas id).Ready ready) (claims : ClaimsFrom ready world next) :
    Claimable ready next := by
  refine ⟨replicas, fun claim member => ?_⟩
  rcases claims claim member with old | ⟨-, leased, -⟩
  · exact known.claims claim old
  · exact leased

theorem ready_set (known : Claimable ready world) (id : Nat) (replica : Replica)
    (own : replica.Ready ready) (other : Nat) :
    ((world.set id replica).replicas other).Ready ready := by
  by_cases same : other = id
  · subst same
    rw [set_replicas]
    exact own
  · rw [set_others world id other replica same]
    exact known.replicas other

theorem claims_apply (id : Nat) (message : Message) (fit : message.Ready ready) :
    ClaimsFrom ready world (world.apply id message).1 := by
  intro claim member
  generalize committed : message.commit world.keyspace = outcome
  obtain ⟨keyspace, answer⟩ := outcome
  simp only [World.apply, committed, List.mem_append] at member
  rcases member with old | new
  · exact .inl old
  · refine .inr ?_
    split at new
    · rename_i revision
      have fresh := (commit_done _ _ _ _ _ committed).2.1
      cases message with
      | claim nodeId holder leaseId floorMs floorRevision ceilingMs =>
          obtain rfl := List.mem_singleton.mp new
          exact ⟨fit.2, fit.1, by dsimp only; omega⟩
      | raiseCeiling => cases new
      | release => cases new
    · cases new

theorem snapshot_entries (keyspace : Keyspace) (entry : NodeEntry)
    (member : entry ∈ (snapshot keyspace).entries) : entry.nodeId ∈ leasedNodeIds := by
  obtain ⟨nodeId, leased, rfl⟩ := List.mem_map.mp member
  exact leased

theorem call_ready (marked : (world.keyspace.cells .initialized).isSome → ready) (id : Nat)
    (call : Call) (fit : (Transit.asked call).Ready ready) :
    (Transit.answered (world.call id call).2).Ready ready ∧
      (world.call id call).1.replicas = world.replicas ∧
      ClaimsFrom ready world (world.call id call).1 := by
  cases call with
  | leaseGrant => exact ⟨trivial, rfl, claimsFrom_same _ rfl⟩
  | keepAlive leaseId => exact ⟨trivial, rfl, claimsFrom_same _ rfl⟩
  | range => exact ⟨⟨marked, snapshot_entries world.keyspace⟩, rfl, claimsFrom_same _ rfl⟩
  | readNode nodeId => exact ⟨trivial, rfl, claimsFrom_same _ rfl⟩
  | txn message => exact ⟨trivial, rfl, claims_apply id message fit⟩
  | leaseRevoke leaseId =>
      cases leaseId with
      | none => exact ⟨trivial, rfl, claimsFrom_same _ rfl⟩
      | some leaseId => exact ⟨trivial, rfl, claimsFrom_same _ rfl⟩

theorem generate_ready (host : Host) (replica next : Replica)
    (result : Except GenerateError String) (known : replica.Ready ready)
    (called : replica.generate host = (result, next)) : next.Ready ready := by
  rcases generate_cases host replica next result called with
    ⟨tick, error, -, rfl, -⟩ | ⟨held, minted, generator, tick, later, -, -, -, rfl, -⟩
  · exact known.kept rfl rfl
  · exact known.kept rfl rfl

theorem act_ready (marked : (world.keyspace.cells .initialized).isSome → ready)
    (known : Claimable ready world) (id : Nat) (event : Event) (next : World)
    (acted : world.act hosts id (world.replicas id) event = some next) :
    Claimable ready next ∧ ClaimsFrom ready world next := by
  have own := known.replicas id
  have turn : ∀ replica : Replica, replica.Ready ready →
      Claimable ready (world.set id replica) ∧ ClaimsFrom ready world (world.set id replica) :=
    fun replica fit => ⟨known.of (ready_set known id replica fit) (claimsFrom_same _ rfl),
      claimsFrom_same _ rfl⟩
  unfold World.act at acted
  split at acted
  · split at acted
    · cases acted
      exact ⟨known, claimsFrom_same _ rfl⟩
    · rename_i started
      cases acted
      exact turn _ (ready_acquire own started)
  · split at acted
    · cases acted
      exact ⟨known, claimsFrom_same _ rfl⟩
    · rename_i started
      cases acted
      exact turn _ (ready_renew own started)
  · cases acted
    exact turn _ (ready_release own)
  · cases acted
    exact turn _ (own.kept rfl rfl)
  · split at acted
    · rename_i spelled replica called
      cases acted
      have kept := turn replica (generate_ready (hosts id) _ replica _ own called)
      have same : ((world.set id replica).mint id spelled).claims = world.claims ∧
          ((world.set id replica).mint id spelled).replicas = (world.set id replica).replicas := by
        unfold World.mint
        split <;> exact ⟨rfl, rfl⟩
      have claims : ClaimsFrom ready world _ := claimsFrom_same _ same.1
      refine ⟨known.of (fun other => ?_) claims, claims⟩
      rw [same.2]
      exact kept.1.replicas other
    · rename_i error replica called
      cases acted
      exact turn _ (generate_ready (hosts id) _ replica _ own called)
  · split at acted
    · rename_i awaiting call now
      cases acted
      obtain ⟨knows, transits⟩ := own.operation awaiting _ now
      obtain ⟨answered, same, claims⟩ := call_ready marked id call transits
      have kept : ∀ other,
          (((world.call id call).1.set id
            { world.replicas id with
              operation := some (awaiting, .answered (world.call id call).2) }).replicas
                other).Ready ready := by
        intro other
        by_cases this : other = id
        · subst this
          rw [set_replicas]
          exact own.at _ _ rfl rfl knows answered
        · rw [set_others _ id other _ this, same]
          exact known.replicas other
      exact ⟨known.of kept claims, claims⟩
    · cases acted
  · split at acted
    · rename_i awaiting reply now
      obtain ⟨replica, gone, rfl⟩ := Option.map_eq_some_iff.mp acted
      exact turn _ (ready_proceed own awaiting reply _ now gone)
    · cases acted
  · obtain ⟨replica, failed, rfl⟩ := Option.map_eq_some_iff.mp acted
    exact turn _ (ready_fail own failed)
  · cases acted
    exact turn _ (ready_crash own)
  · cases acted

theorem step_ready (marked : (world.keyspace.cells .initialized).isSome → ready)
    (known : Claimable ready world) (event : Event) (next : World)
    (stepped : step hosts world event = some next) :
    Claimable ready next ∧ ClaimsFrom ready world next := by
  have forget : ∀ id position, ({ world.replicas id with
      abandoned := (world.replicas id).abandoned.eraseIdx position } : Replica).Ready ready :=
    fun id position => ⟨(known.replicas id).operation, fun message member =>
      (known.replicas id).abandoned message (List.mem_of_mem_eraseIdx member)⟩
  unfold step at stepped
  split at stepped
  · split at stepped
    · cases stepped
    · rename_i id position _ message found
      cases stepped
      have fit := (known.replicas id).abandoned message (List.mem_of_getElem? found)
      have claims : ClaimsFrom ready world _ := claims_apply id message fit
      refine ⟨known.of (fun other => ?_) claims, claims⟩
      have kept : Claimable ready (world.apply id message).1 := known.of known.replicas claims
      exact ready_set kept id _ (forget id position) other
  · split at stepped
    · cases stepped
      exact ⟨known.of (ready_set known _ _ (forget _ _)) (claimsFrom_same _ rfl),
        claimsFrom_same _ rfl⟩
    · cases stepped
  · cases stepped
    exact ⟨known.of known.replicas (claimsFrom_same _ rfl), claimsFrom_same _ rfl⟩
  · cases stepped
    exact ⟨known.of known.replicas (claimsFrom_same _ rfl), claimsFrom_same _ rfl⟩
  · split at stepped
    · cases stepped
    · split at stepped
      · exact act_ready marked known _ event next stepped
      · cases stepped

theorem claimable_start (origin : Origin) : Claimable ready (start origin) where
  replicas := fun _ =>
    ⟨fun _ _ none => absurd none.symm (Option.some_ne_none _), fun _ none =>
      absurd none List.not_mem_nil⟩
  claims := fun _ none => absurd none List.not_mem_nil

end World

end Commerce.Identity
