import Commerce.Identity.Replicas

/-!
# A replica's own steps

Each store operation, from its first call to its last answer, leaves the replica
with a tenure it may go by or with none.
-/

set_option autoImplicit false

namespace Commerce.Identity

open Revisions

@[simp] theorem set_replicas (world : World) (id : Nat) (replica : Replica) :
    (world.set id replica).replicas id = replica := by
  simp [World.set]

theorem set_others (world : World) (id other : Nat) (replica : Replica) (different : other ≠ id) :
    (world.set id replica).replicas other = world.replicas other := by
  simp [World.set, different]

theorem carries_set (world : World) (id : Nat) (replica : Replica) :
    Carries world (world.set id replica) :=
  ⟨advances_refl _, fun _ _ => rfl, fun _ member => member⟩

theorem covered_set {world : World} {nodeId generation : Nat} {tsMs : Int} (id : Nat)
    (replica : Replica) (covered : Covered world nodeId generation tsMs) :
    Covered (world.set id replica) nodeId generation tsMs :=
  ⟨covered.stored, covered.later⟩

theorem clear_set {world : World} {nodeId generation : Nat} {ceilingMs : Int} (id : Nat)
    (replica : Replica)
    (fewer : ∀ message ∈ replica.abandoned, message ∈ (world.replicas id).abandoned)
    (clear : Clear world id nodeId generation ceilingMs) :
    Clear (world.set id replica) id nodeId generation ceilingMs := by
  intro message member within
  rw [set_replicas] at member
  exact clear message (fewer message member) within

theorem tenures_set {world : World} (id : Nat) (replica : Replica) (inv : Tenures world) :
    Tenures (world.set id replica) where
  sound := inv.sound
  unleased := inv.unleased
  range := inv.range
  unique := inv.unique
  leased := inv.leased
  covered := fun claim member => covered_set id replica (inv.covered claim member)
  owned := inv.owned
  latest := inv.latest

theorem steady_set (world : World) (id other : Nat) (replica : Replica)
    (belief : other = id → replica.belief = (world.replicas id).belief)
    (pending : other = id → replica.pendingLeaseId = (world.replicas id).pendingLeaseId) :
    Steady world (world.set id replica) other := by
  refine ⟨carries_set world id replica, ?_, ?_, fun minted member _ => .inl member⟩
  · by_cases same : other = id
    · subst same
      simpa using belief rfl
    · rw [set_others world id other replica same]
  · by_cases same : other = id
    · subst same
      simpa using pending rfl
    · rw [set_others world id other replica same]

theorem operating_done (world : World) (id : Nat) (replica : Replica)
    (done : replica.operation = none) : Operating (world.set id replica) id := by
  intro awaiting transit now
  rw [set_replicas, done] at now
  cases now

theorem operating_at (world : World) (id : Nat) (replica : Replica) (awaiting : Awaiting)
    (transit : Transit) (now : replica.operation = some (awaiting, transit))
    (knows : awaiting.Knows (world.set id replica) id)
    (transits : awaiting.Transits (world.set id replica) id transit) :
    Operating (world.set id replica) id := by
  intro other moved known
  rw [set_replicas, now] at known
  cases known
  exact ⟨knows, transits⟩

theorem operating_set {world : World} {id : Nat} (operating : Operating world id)
    (replica : Replica) (belief : replica.belief = (world.replicas id).belief)
    (pending : replica.pendingLeaseId = (world.replicas id).pendingLeaseId)
    (abandoned : replica.abandoned = (world.replicas id).abandoned)
    (operation : replica.operation = (world.replicas id).operation) :
    Operating (world.set id replica) id := by
  have steady := steady_set world id id replica (fun _ => belief) fun _ => pending
  refine steady.operating (fun _ _ _ _ _ clear covered => ?_) (by rw [set_replicas, operation])
    operating
  exact ⟨clear_set id replica (fun _ member => abandoned ▸ member) clear,
    covered_set id replica covered⟩

/-! ## Replicas that believe what they did -/

theorem Sane.set {clock : Clock} {world : World} {id : Nat} (sane : Sane clock world id)
    (replica : Replica) (held : replica.held = (world.replicas id).held)
    (phase : replica.held ≠ none → replica.phase = .held)
    (retired : replica.retiredLastMs = (world.replicas id).retiredLastMs)
    (alive : replica.alive → (world.replicas id).alive)
    (tick : (world.replicas id).tick ≤ replica.tick)
    (pending : replica.held ≠ none → replica.pendingLeaseId = none)
    (unused : ∀ leaseId, replica.pendingLeaseId = some leaseId → Unused world id leaseId)
    (sent : ∀ message ∈ replica.abandoned, InFlight world id message) :
    Sane clock (world.set id replica) id := by
  have belief : replica.belief = (world.replicas id).belief := congrArg (Option.map _) held
  have carries := carries_set world id replica
  have bounds : ∀ nodeId generation floorMs, Bounds world id nodeId generation floorMs →
      Bounds (world.set id replica) id nodeId generation floorMs := by
    intro nodeId generation floorMs known
    refine ⟨known.tenure, known.minted, ?_⟩
    rw [set_replicas, held]
    exact known.held
  refine ⟨?_, ?_, ?_, ?_, ?_, ?_⟩
  · rw [set_replicas]
    exact fun leaseId now => (unused leaseId now).carries carries fun _ member _ => member
  · rw [set_replicas]
    exact phase
  · intro believed now
    rw [set_replicas] at now
    obtain ⟨claimFloorMs, floorMs, believes⟩ := sane.held believed (held ▸ now)
    have moved : Believes clock (world.set id replica) id believed claimFloorMs floorMs := by
      refine ⟨?_, believes.tenure, covered_set id replica believes.covered, believes.claimed,
        ?_, ?_, believes.node, believes.minted⟩
      · rw [set_replicas]
        exact pending (by rw [now]; exact Option.some_ne_none _)
      · rw [set_replicas, retired]
        exact believes.retired
      · rw [set_replicas]
        exact believes.above.later replica.tick tick
    exact ⟨claimFloorMs, floorMs, moved⟩
  · exact fun minted member own =>
      (sane.minted minted member own).carries carries (covered_set id replica)
  · intro living minted member own
    rw [set_replicas] at living ⊢
    simpa [Replica.Past, held, retired] using sane.past (alive living) minted member own
  · intro message member
    rw [set_replicas] at member
    obtain ⟨honest, within⟩ := sent message member
    exact ⟨carries.honest id message honest, fun nodeId generation inside =>
      bounds _ _ _ (within nodeId generation inside)⟩

theorem Sane.forget {clock : Clock} {world : World} {id : Nat} (sane : Sane clock world id)
    (replica : Replica) (held : replica.held = none)
    (past : replica.alive → ∀ minted ∈ world.minted, minted.replica = id →
      minted.fields.tsMs ≤ replica.retiredLastMs)
    (unused : ∀ leaseId, replica.pendingLeaseId = some leaseId → Unused world id leaseId)
    (sent : ∀ message ∈ replica.abandoned, InFlight world id message) :
    Sane clock (world.set id replica) id := by
  have carries := carries_set world id replica
  refine ⟨?_, ?_, ?_, ?_, ?_, ?_⟩
  · rw [set_replicas]
    exact fun leaseId now => (unused leaseId now).carries carries fun _ member _ => member
  · rw [set_replicas]
    exact fun believed => absurd held believed
  · intro believed now
    rw [set_replicas, held] at now
    cases now
  · exact fun minted member own =>
      (sane.minted minted member own).carries carries (covered_set id replica)
  · intro living minted member own
    rw [set_replicas] at living ⊢
    exact .inl (past living minted member own)
  · intro message member
    rw [set_replicas] at member
    obtain ⟨honest, within⟩ := sent message member
    refine ⟨carries.honest id message honest, fun nodeId generation inside => ?_⟩
    obtain ⟨tenure, minted, -⟩ := within nodeId generation inside
    refine ⟨tenure, minted, fun believed now => ?_⟩
    rw [set_replicas, held] at now
    cases now

theorem stamp_le_ts {fields : SnowflakeFields} {gen : Generator}
    (below : fields.stamp ≤ gen.stamp) : fields.tsMs ≤ gen.lastMs := by
  rcases Prod.Lex.toLex_le_toLex.mp below with less | ⟨same, -⟩
  · exact le_of_lt less
  · exact le_of_eq same

theorem Sane.retired {clock : Clock} {world : World} {id : Nat} (sane : Sane clock world id)
    (alive : (world.replicas id).alive) (phase : Phase) :
    ∀ minted ∈ world.minted, minted.replica = id →
      minted.fields.tsMs ≤ ((world.replicas id).retire phase).retiredLastMs := by
  intro minted member own
  simp only [Replica.retire]
  rcases sane.past alive minted member own with before | ⟨held, believed, below⟩
  · cases believed : (world.replicas id).held with
    | none => exact before
    | some held => exact before.trans (le_max_left _ _)
  · rw [believed]
    exact (stamp_le_ts below).trans (le_max_right _ _)

theorem Sane.unclaiming {clock : Clock} {world : World} {id : Nat} (sane : Sane clock world id)
    (believed : (world.replicas id).held ≠ none) : (world.replicas id).pendingLeaseId = none := by
  obtain ⟨held, now⟩ := Option.ne_none_iff_exists'.mp believed
  obtain ⟨_, _, believes⟩ := sane.held held now
  exact believes.unclaiming

/-! ## Starting an operation -/

theorem Sane.unbelieving {clock : Clock} {world : World} {id : Nat} (sane : Sane clock world id)
    (phase : (world.replicas id).phase ≠ .held) : (world.replicas id).held = none := by
  by_contra believed
  exact phase (sane.phase believed)

theorem acquire_cases (host : Host) (replica next : Replica)
    (started : replica.acquire host = .ok next) :
    replica.phase ≠ .held ∧
      ((∃ leaseId, replica.pendingLeaseId = some leaseId ∧
        next = ({ replica with phase := .acquiring }).look.ask (.keepAlive (some leaseId))
          (.acquireAlive (replica.reading host) leaseId)) ∨
      next = ({ replica with phase := .acquiring }).look.ask .leaseGrant
        (.acquireGrant (replica.reading host))) := by
  unfold Replica.acquire at started
  split at started
  · cases started
  split at started
  · cases started
  rename_i free
  split at started
  · cases started
  cases started
  refine ⟨fun same => free (.inl same), ?_⟩
  rcases replica with ⟨alive, phase, held, draining, retiredLastMs, pendingLeaseId, tick,
    operation, abandoned⟩
  cases pendingLeaseId with
  | some leaseId => exact .inl ⟨leaseId, rfl, rfl⟩
  | none => exact .inr rfl

theorem acquire_keeps (host : Host) (world : World) (id : Nat) (next : Replica)
    (sane : Sane host.clock world id)
    (started : (world.replicas id).acquire host = .ok next) :
    Sane host.clock (world.set id next) id ∧ Operating (world.set id next) id := by
  obtain ⟨free, shape⟩ := acquire_cases host (world.replicas id) next started
  have unheld := sane.unbelieving free
  rcases shape with ⟨leaseId, pending, rfl⟩ | rfl
  · refine ⟨sane.set _ rfl (absurd unheld) rfl (fun alive => alive) (Nat.le_succ _)
      (absurd unheld) sane.pending sane.sent, ?_⟩
    refine operating_at _ _ _ _ _ rfl ⟨?_, ?_⟩ trivial <;> rw [set_replicas]
    · exact unheld
    · exact pending
  · refine ⟨sane.set _ rfl (absurd unheld) rfl (fun alive => alive) (Nat.le_succ _)
      (absurd unheld) sane.pending sane.sent, ?_⟩
    refine operating_at _ _ _ _ _ rfl ?_ trivial
    rw [Awaiting.Knows, set_replicas]
    exact unheld

theorem renew_keeps (host : Host) (world : World) (id : Nat) (next : Replica)
    (sane : Sane host.clock world id)
    (started : (world.replicas id).renew host = .ok next) :
    Sane host.clock (world.set id next) id ∧ Operating (world.set id next) id := by
  unfold Replica.renew at started
  split at started
  · cases started
  rename_i held believed
  split at started
  · cases started
  cases started
  have present : (world.replicas id).held ≠ none := by
    rw [believed]
    exact Option.some_ne_none _
  refine ⟨sane.set _ rfl (fun _ => sane.phase present) rfl (fun alive => alive)
    (Nat.le_add_right _ 2) sane.unclaiming sane.pending sane.sent, ?_⟩
  refine operating_at _ _ _ _ _ rfl ?_ rfl
  rw [Awaiting.Knows, set_replicas]
  exact ⟨held, believed, rfl, rfl⟩

theorem release_cases (replica : Replica) :
    (replica.operation ≠ none ∧ replica.release = { replica with draining := true }) ∨
    (replica.operation = none ∧ replica.held = none ∧
      replica.release = ({ replica with draining := true }).retire .released) ∨
    ∃ held, replica.held = some held ∧ replica.release =
      (({ replica with draining := true }).retire .released).ask (.readNode held.nodeId)
        (.releaseRead held.nodeId held.generation
          (if held.generator.lastMs = 0 then none else some held.generator.lastMs)) := by
  rcases replica with ⟨alive, phase, held, draining, retiredLastMs, pendingLeaseId, tick,
    operation, abandoned⟩
  cases operation with
  | some operation => exact .inl ⟨Option.some_ne_none _, rfl⟩
  | none =>
      cases held with
      | none => exact .inr (.inl ⟨rfl, rfl, rfl⟩)
      | some held => exact .inr (.inr ⟨held, rfl, rfl⟩)

theorem release_keeps (host : Host) (world : World) (id : Nat) (sane : Sane host.clock world id)
    (alive : (world.replicas id).alive) (operating : Operating world id) :
    Sane host.clock (world.set id (world.replicas id).release) id ∧
      Operating (world.set id (world.replicas id).release) id := by
  have past := sane.retired alive .released
  rcases release_cases (world.replicas id) with
    ⟨-, same⟩ | ⟨idle, unheld, same⟩ | ⟨held, believed, same⟩
  · rw [same]
    exact ⟨sane.set _ rfl sane.phase rfl (fun alive => alive) (Nat.le_refl _) sane.unclaiming
      sane.pending sane.sent, operating_set operating _ rfl rfl rfl rfl⟩
  · rw [same]
    exact ⟨sane.forget _ rfl (fun _ => past) sane.pending sane.sent,
      operating_done _ _ _ idle⟩
  · rw [same]
    obtain ⟨claimFloorMs, floorMs, believes⟩ := sane.held held believed
    refine ⟨sane.forget _ rfl (fun _ => past) sane.pending sane.sent, ?_⟩
    refine operating_at _ _ _ _ _ rfl ⟨?_, ⟨claimFloorMs, believes.tenure⟩, ?_⟩ rfl
    · rw [set_replicas]
      rfl
    · -- The timestamp recorded is the generator's last, zero before the first.
      intro minted member own node under
      have last := stamp_le_ts (believes.minted minted member own node under)
      split
      · rename_i zero
        rw [Option.getD_none, ← zero]
        exact last
      · exact last

/-! ## Going on after an answer -/

theorem Sane.turn {clock : Clock} {world : World} {id : Nat} (sane : Sane clock world id)
    (operation : Option (Awaiting × Transit)) :
    Sane clock (world.set id { world.replicas id with operation }) id :=
  sane.set _ rfl sane.phase rfl (fun alive => alive) (Nat.le_refl _) sane.unclaiming sane.pending
    sane.sent

theorem Unused.none_minted {world : World} {id leaseId nodeId generation : Nat}
    {claimFloorMs : Option Int} (unused : Unused world id leaseId) (inv : Tenures world)
    (tenure : TenureUnder world id nodeId generation claimFloorMs leaseId) :
    ∀ minted ∈ world.minted, minted.replica = id → minted.nodeId = nodeId →
      minted.generation ≠ generation := by
  intro minted member own _ under
  obtain ⟨floorMs, other, different, known⟩ := unused.unused minted member own
  have same := inv.unique _ known _ tenure under
  exact different (congrArg Claim.leaseId same)

/-- What the replica gave up on stays good for a bound it is clear of. -/
theorem flight_clear {world : World} {id : Nat} (replica : Replica) (held : Held)
    (now : replica.held = some held)
    (clear : Clear world id held.nodeId held.generation held.leaseUntilMs)
    (abandoned : replica.abandoned = (world.replicas id).abandoned)
    (sent : ∀ message ∈ (world.replicas id).abandoned, InFlight world id message) :
    ∀ message ∈ replica.abandoned, InFlight (world.set id replica) id message := by
  intro message member
  rw [abandoned] at member
  obtain ⟨honest, within⟩ := sent message member
  refine ⟨(carries_set world id replica).honest id message honest,
    fun nodeId generation inside => ?_⟩
  obtain ⟨tenure, minted, -⟩ := within nodeId generation inside
  refine ⟨tenure, minted, fun other same node under => ?_⟩
  rw [set_replicas, now] at same
  obtain rfl := Option.some.inj same
  subst node under
  exact clear message member inside

theorem Sane.believe {clock : Clock} {world : World} {id : Nat} (sane : Sane clock world id)
    (replica : Replica) (held : Held) (claimFloorMs : Option Int) (floorMs : Int)
    (now : replica.held = some held) (phase : replica.phase = .held)
    (believes : Believes clock (world.set id replica) id held claimFloorMs floorMs)
    (past : replica.alive → ∀ minted ∈ world.minted, minted.replica = id →
      replica.Past minted.fields)
    (sent : ∀ message ∈ replica.abandoned, InFlight (world.set id replica) id message) :
    Sane clock (world.set id replica) id := by
  refine ⟨?_, ?_, ?_, ?_, ?_, ?_⟩
  · rw [believes.unclaiming]
    exact fun _ none => absurd none.symm (Option.some_ne_none _)
  · rw [set_replicas]
    exact fun _ => phase
  · intro other same
    rw [set_replicas] at same
    obtain rfl := Option.some.inj (now.symm.trans same)
    exact ⟨claimFloorMs, floorMs, believes⟩
  · exact fun minted member own =>
      (sane.minted minted member own).carries (carries_set world id _) (covered_set id _)
  · rw [set_replicas]
    exact past
  · rw [set_replicas]
    exact sent

/-- The store's grant is taken: the replica believes it, hands it back, or fails. -/
theorem granted_keeps (host : Host) (world : World) (id : Nat) (sane : Sane host.clock world id)
    (inv : Tenures world) (anchor : Reading) (nodeId generation leaseId : Nat)
    (floorMs : Option Int) (leaseUntilMs nowMs : Int) (unheld : (world.replicas id).held = none)
    (pending : (world.replicas id).pendingLeaseId = some leaseId)
    (tenure : TenureUnder world id nodeId generation floorMs leaseId)
    (covered : Covered world nodeId generation leaseUntilMs)
    (clear : Clear world id nodeId generation leaseUntilMs) (next : Replica)
    (granted : next = ({ world.replicas id with pendingLeaseId := none }).granted host anchor
      nodeId generation floorMs leaseUntilMs nowMs) :
    Sane host.clock (world.set id next) id ∧ Operating (world.set id next) id := by
  have fresh := (sane.pending leaseId pending).none_minted inv tenure
  have confirmed : ∀ operation, Sane host.clock (world.set id
      { world.replicas id with pendingLeaseId := none, operation }) id := fun operation =>
    sane.set _ rfl sane.phase rfl (fun alive => alive) (Nat.le_refl _) (fun _ => rfl)
      (fun _ none => absurd none.symm (Option.some_ne_none _)) sane.sent
  unfold Replica.granted at granted
  split at granted
  · rw [granted]
    refine ⟨confirmed _, operating_at _ _ _ _ _ rfl ⟨?_, ⟨floorMs, leaseId, tenure⟩, ?_⟩ rfl⟩
    · rw [set_replicas]
      exact unheld
    · exact fun minted member own node under => absurd under (fresh minted member own node)
  · split at granted
    · rw [granted]
      exact ⟨confirmed _, operating_done _ _ _ rfl⟩
    · rename_i generator created
      obtain ⟨above, node, -, -, -⟩ := Generator.create_above host.clock _ _ _ generator created
      have past : next.alive → ∀ minted ∈ world.minted, minted.replica = id →
          next.Past minted.fields := by
        intro alive minted member own
        rw [granted] at alive ⊢
        rcases sane.past alive minted member own with before | ⟨held, believed, -⟩
        · exact .inl before
        · rw [unheld] at believed
          cases believed
      have believes : Believes host.clock (world.set id next) id
          { nodeId, generation, generator, anchor, leaseUntilMs } floorMs
          (max (floorMs.getD 0) (world.replicas id).retiredLastMs) := by
        refine ⟨?_, ⟨leaseId, tenure⟩, covered_set id _ covered, le_max_left _ _, ?_, ?_, node, ?_⟩
        · rw [set_replicas, granted]
        · rw [set_replicas, granted]
          exact le_max_right _ _
        · rw [set_replicas, granted]
          exact above.later _ (Nat.le_succ _)
        · exact fun minted member own node under =>
            absurd under (fresh minted member own node)
      have now : next.held = some { nodeId, generation, generator, anchor, leaseUntilMs } := by
        rw [granted]
      have sent := flight_clear next _ now clear (by rw [granted]) sane.sent
      have done : next.operation = none := by rw [granted]
      exact ⟨sane.believe next _ floorMs _ now (by rw [granted]) believes past sent,
        operating_done _ _ _ done⟩

theorem confirm_keeps (host : Host) (world : World) (id : Nat) (sane : Sane host.clock world id)
    (anchor : Reading) (nodeId generation : Nat) (leaseUntilMs : Int)
    (holds : (world.replicas id).Holds nodeId generation)
    (covered : Covered world nodeId generation leaseUntilMs)
    (clear : Clear world id nodeId generation leaseUntilMs) (next : Replica)
    (confirmed : next = ((world.replicas id).confirm anchor leaseUntilMs).done) :
    Sane host.clock (world.set id next) id ∧ Operating (world.set id next) id := by
  obtain ⟨held, believed, rfl, rfl⟩ := holds
  obtain ⟨claimFloorMs, floorMs, believes⟩ := sane.held held believed
  have now : next.held = some { held with anchor, leaseUntilMs } := by
    rw [confirmed]
    simp [Replica.confirm, Replica.done, believed]
  have phase : next.phase = .held := by
    rw [confirmed]
    exact sane.phase (by rw [believed]; exact Option.some_ne_none _)
  have moved : Believes host.clock (world.set id next) id { held with anchor, leaseUntilMs }
      claimFloorMs floorMs := by
    refine ⟨?_, believes.tenure, covered_set id _ covered, believes.claimed, ?_, ?_,
      believes.node, believes.minted⟩ <;> rw [set_replicas, confirmed]
    · exact believes.unclaiming
    · exact believes.retired
    · exact believes.above
  have past : next.alive → ∀ minted ∈ world.minted, minted.replica = id →
      next.Past minted.fields := by
    intro alive minted member own
    rw [confirmed] at alive
    rcases sane.past alive minted member own with before | ⟨other, same, below⟩
    · rw [confirmed]
      exact .inl before
    · obtain rfl := Option.some.inj (believed.symm.trans same)
      exact .inr ⟨_, now, below⟩
  have sent := flight_clear next _ now clear (by rw [confirmed]; rfl) sane.sent
  have done : next.operation = none := by rw [confirmed]; rfl
  exact ⟨sane.believe next _ claimFloorMs floorMs now phase moved past sent,
    operating_done _ _ _ done⟩

theorem Bounds.mono {world : World} {id nodeId generation : Nat} {low high : Int}
    (bounds : Bounds world id nodeId generation low) (above : low ≤ high) :
    Bounds world id nodeId generation high := by
  obtain ⟨claimFloorMs, tenure, below⟩ := bounds.tenure
  exact ⟨⟨claimFloorMs, tenure, below.trans above⟩,
    fun minted member own node under => (bounds.minted minted member own node under).trans above,
    fun held believed node under => (bounds.held held believed node under).trans above⟩

theorem claim_keeps (host : Host) (world : World) (id : Nat) (sane : Sane host.clock world id)
    (anchor : Reading) (leaseId : Nat) (entry : NodeEntry) (free : List NodeEntry)
    (unheld : (world.replicas id).held = none)
    (pending : (world.replicas id).pendingLeaseId = some leaseId)
    (read : Seen world.keyspace (.floor entry.nodeId) entry.floor)
    (seen : ∀ entry ∈ free, Seen world.keyspace (.floor entry.nodeId) entry.floor) :
    Sane host.clock
        (world.set id ((world.replicas id).claim host anchor leaseId entry free)) id ∧
      Operating (world.set id ((world.replicas id).claim host anchor leaseId entry free)) id := by
  have above : (floorOf entry.floor).getD 0 ≤
      max ((world.replicas id).reading host).wallMs ((floorOf entry.floor).getD 0) +
        host.options.ttlMs := by
    have := host.options.ttl
    have := le_max_right ((world.replicas id).reading host).wallMs ((floorOf entry.floor).getD 0)
    omega
  have leased := (sane.pending leaseId pending).leased
  refine ⟨sane.set _ rfl sane.phase rfl (fun alive => alive) (Nat.le_succ _) sane.unclaiming
    sane.pending sane.sent, operating_at _ _ _ _ _ rfl ⟨?_, ?_, above, seen⟩ ⟨?_, ?_⟩⟩
  · rw [set_replicas]
    exact unheld
  · rw [set_replicas]
    exact pending
  · exact ⟨⟨leased, above, entry.floor, rfl, rfl, read⟩, fun _ _ within => within.elim⟩
  · exact ⟨_, _, rfl⟩

theorem claimNext_keeps (host : Host) (world : World) (id : Nat) (sane : Sane host.clock world id)
    (anchor : Reading) (leaseId : Nat) (free : List NodeEntry) (position : Nat) (next : Replica)
    (unheld : (world.replicas id).held = none)
    (pending : (world.replicas id).pendingLeaseId = some leaseId)
    (seen : ∀ entry ∈ free, Seen world.keyspace (.floor entry.nodeId) entry.floor)
    (turned : (world.replicas id).claimNext host anchor leaseId free position = some next) :
    Sane host.clock (world.set id next) id ∧ Operating (world.set id next) id := by
  unfold Replica.claimNext at turned
  split at turned
  · cases turned
    refine ⟨sane.set _ rfl sane.phase rfl (fun alive => alive) (Nat.le_refl _) (fun _ => rfl)
      (fun _ none => absurd none.symm (Option.some_ne_none _)) sane.sent,
      operating_at _ _ _ _ _ rfl ?_ trivial⟩
    rw [Awaiting.Knows, set_replicas]
    exact unheld
  · obtain ⟨entry, found, rfl⟩ := Option.map_eq_some_iff.mp turned
    exact claim_keeps host world id sane anchor leaseId entry _ unheld pending
      (seen entry (List.mem_of_getElem? found))
      fun other member => seen other (List.mem_of_mem_eraseIdx member)

/-- A raise is sent for an entry of a tenure of the replica's own. -/
theorem raise_flight (host : Host) (world : World) (id nodeId generation : Nat)
    (floor : Option (Cell Int)) (stampedMs : Int)
    (bounds : Bounds world id nodeId generation ((floorOf floor).getD 0)) :
    InFlight world id
      (.raiseCeiling nodeId generation (raisedCeiling host.options floor stampedMs)) := by
  have raised := bounds.mono (le_max_left _ (stampedMs + host.options.ttlMs))
  refine ⟨raised.tenure, fun node tenure within => ?_⟩
  obtain ⟨rfl, rfl⟩ := within
  exact raised

theorem readopt_keeps (host : Host) (world : World) (id : Nat) (sane : Sane host.clock world id)
    (anchor : Reading) (leaseId : Nat) (own : HeldEntry)
    (unheld : (world.replicas id).held = none)
    (pending : (world.replicas id).pendingLeaseId = some leaseId)
    (tenure : TenureUnder world id own.nodeId own.owner.createRevision
      own.owner.value.claimFloorMs leaseId)
    (bounds : Bounds world id own.nodeId own.owner.createRevision
      ((floorOf own.floor).getD 0)) :
    Sane host.clock (world.set id ((world.replicas id).readopt host anchor own)) id ∧
      Operating (world.set id ((world.replicas id).readopt host anchor own)) id := by
  have flight := raise_flight host world id own.nodeId own.owner.createRevision own.floor
    ((world.replicas id).reading host).wallMs bounds
  have steady := steady_set world id id ((world.replicas id).readopt host anchor own)
    (fun _ => rfl) fun _ => rfl
  refine ⟨sane.set _ rfl sane.phase rfl (fun alive => alive) (Nat.le_succ _) sane.unclaiming
    sane.pending sane.sent, operating_at _ _ _ _ _ rfl ⟨?_, leaseId, ?_, tenure⟩ ⟨?_, rfl⟩⟩
  · rw [set_replicas]
    exact unheld
  · rw [set_replicas]
    exact pending
  · exact steady.flight flight

/-- The replica retires for good what it believed, and stops. -/
theorem lost_keeps (host : Host) (world : World) (id : Nat) (sane : Sane host.clock world id)
    (alive : (world.replicas id).alive) :
    Sane host.clock (world.set id ((world.replicas id).retire .lost).done) id ∧
      Operating (world.set id ((world.replicas id).retire .lost).done) id :=
  ⟨sane.forget _ rfl (fun _ => sane.retired alive .lost) sane.pending sane.sent,
    operating_done _ _ _ rfl⟩

theorem mem_freeOldestFirst (shot : KeyspaceSnapshot) (entry : NodeEntry)
    (member : entry ∈ shot.freeOldestFirst) : entry ∈ shot.entries := by
  rw [KeyspaceSnapshot.freeOldestFirst, List.mem_insertionSort] at member
  exact (List.mem_filter.mp member).1

/-- Going on after an answer keeps a replica sane and its next call in order. -/
theorem proceed_keeps (host : Host) (world : World) (id : Nat) (sane : Sane host.clock world id)
    (inv : Tenures world) (alive : (world.replicas id).alive) (operating : Operating world id)
    (awaiting : Awaiting) (reply : Reply) (position : Nat) (next : Replica)
    (now : (world.replicas id).operation = some (awaiting, .answered reply))
    (gone : (world.replicas id).proceed host position awaiting reply = some next) :
    Sane host.clock (world.set id next) id ∧ Operating (world.set id next) id := by
  obtain ⟨knows, transits⟩ := operating awaiting _ now
  unfold Replica.proceed at gone
  split at gone
  · -- The pending lease is alive.
    cases gone
    refine ⟨sane.turn _, operating_at _ _ _ _ _ rfl ⟨?_, ?_⟩ trivial⟩ <;> rw [set_replicas]
    · exact knows.1
    · exact knows.2
  · cases gone
    refine ⟨sane.turn _, operating_at _ _ _ _ _ rfl ?_ trivial⟩
    rw [Awaiting.Knows, set_replicas]
    exact knows.1
  · -- A lease is granted.
    rename_i anchor leaseId
    cases gone
    have unused : Unused world id leaseId := transits
    refine ⟨sane.set _ rfl sane.phase rfl (fun alive => alive) (Nat.le_refl _)
      (fun believed => absurd knows believed) ?_ sane.sent,
      operating_at _ _ _ _ _ rfl ⟨?_, ?_⟩ trivial⟩
    · intro other same
      cases same
      exact unused
    · rw [set_replicas]
      exact knows
    · rw [set_replicas]
      rfl
  · -- The keyspace is read.
    rename_i anchor leaseId shot
    obtain ⟨unheld, pending⟩ := knows
    obtain ⟨seen, owned⟩ := transits
    split at gone
    · cases gone
      exact ⟨sane.turn _, operating_done _ _ _ rfl⟩
    · split at gone
      · rename_i own found
        cases gone
        obtain ⟨tenure, bounds⟩ := owned own found
        exact readopt_keeps host world id sane anchor leaseId own unheld pending tenure bounds
      · exact claimNext_keeps host world id sane anchor leaseId _ _ next unheld pending
          (fun entry member => seen entry (mem_freeOldestFirst shot entry member)) gone
  · -- A claim went through.
    rename_i anchor leaseId nodeId floorMs nowMs ceilingMs free revision
    cases gone
    obtain ⟨unheld, pending, -, -⟩ := knows
    obtain ⟨clear, tenure, covered⟩ := transits
    exact granted_keeps host world id sane inv anchor nodeId revision leaseId floorMs ceilingMs
      nowMs unheld pending tenure covered clear _ rfl
  · -- A claim lost the race.
    obtain ⟨unheld, pending, -, seen⟩ := knows
    exact claimNext_keeps host world id sane _ _ _ _ next unheld pending seen gone
  · cases gone
    exact ⟨sane.set _ rfl sane.phase rfl (fun alive => alive) (Nat.le_refl _) (fun _ => rfl)
      (fun _ none => absurd none.symm (Option.some_ne_none _)) sane.sent, operating_done _ _ _ rfl⟩
  · -- A re-adoption went through.
    rename_i anchor own nowMs ceilingMs revision
    cases gone
    obtain ⟨unheld, leaseId, pending, tenure⟩ := knows
    obtain ⟨clear, covered⟩ := transits
    exact granted_keeps host world id sane inv anchor own.nodeId own.owner.createRevision leaseId
      own.owner.value.claimFloorMs ceilingMs nowMs unheld pending tenure covered clear _ rfl
  · cases gone
    exact ⟨sane.turn _, operating_done _ _ _ rfl⟩
  · cases gone
    exact ⟨sane.set _ rfl sane.phase rfl (fun alive => alive) (Nat.le_refl _) (fun _ => rfl)
      (fun _ none => absurd none.symm (Option.some_ne_none _)) sane.sent, operating_done _ _ _ rfl⟩
  · -- No node is free.
    cases gone
    have unheld : (world.replicas id).held = none := knows
    exact ⟨sane.set _ rfl (absurd unheld) rfl (fun alive => alive) (Nat.le_refl _)
      sane.unclaiming sane.pending sane.sent, operating_done _ _ _ rfl⟩
  · -- A renewal has read the node.
    rename_i anchor nodeId generation nowMs lastMs entry
    split at gone
    · cases gone
      exact lost_keeps host world id sane alive
    · rename_i own found
      cases gone
      obtain ⟨rfl, bounds⟩ := transits own found
      have steady := steady_set world id id
        ((world.replicas id).ask (.keepAlive own.owner.lease)
          (.renewAlive anchor own generation nowMs lastMs)) (fun _ => rfl) fun _ => rfl
      exact ⟨sane.turn _, operating_at _ _ _ _ _ rfl
        ⟨steady.holds knows, steady.bounds bounds⟩ trivial⟩
  · cases gone
    exact lost_keeps host world id sane alive
  · -- A renewal raises the ceiling.
    rename_i anchor entry generation nowMs lastMs
    cases gone
    obtain ⟨holds, bounds⟩ := knows
    have flight := raise_flight host world id entry.nodeId generation entry.floor
      (max nowMs lastMs) bounds
    have steady := steady_set world id id
      ((world.replicas id).ask (.txn (.raiseCeiling entry.nodeId generation
        (raisedCeiling host.options entry.floor (max nowMs lastMs))))
        (.renewRaise anchor (raisedCeiling host.options entry.floor (max nowMs lastMs))))
      (fun _ => rfl) fun _ => rfl
    exact ⟨sane.turn _, operating_at _ _ _ _ _ rfl trivial
      ⟨steady.flight flight, entry.nodeId, generation, steady.holds holds, rfl⟩⟩
  · -- A renewal went through.
    cases gone
    obtain ⟨nodeId, generation, clear, holds, -, covered⟩ := transits
    exact confirm_keeps host world id sane _ nodeId generation _ holds covered clear _ rfl
  · cases gone
    exact lost_keeps host world id sane alive
  · cases gone
    exact ⟨sane.turn _, operating_done _ _ _ rfl⟩
  · -- A release has read the node.
    rename_i nodeId generation lastMs entry
    split at gone
    · cases gone
      exact ⟨sane.turn _, operating_done _ _ _ rfl⟩
    · rename_i own found
      cases gone
      obtain ⟨unheld, -, below⟩ := knows
      obtain ⟨rfl, tenure⟩ := transits own found
      have bounds : Bounds world id own.nodeId generation
          (max (own.owner.value.claimFloorMs.getD 0) (lastMs.getD 0)) := by
        refine ⟨⟨_, tenure, le_max_left _ _⟩, fun minted member same node under =>
          (below minted member same node under).trans (le_max_right _ _), ?_⟩
        rw [unheld]
        exact fun _ none => absurd none.symm (Option.some_ne_none _)
      have flight : InFlight world id (.release own.nodeId generation
          (max (own.owner.value.claimFloorMs.getD 0) (lastMs.getD 0))) := by
        refine ⟨bounds.tenure, fun node under within => ?_⟩
        obtain ⟨rfl, rfl⟩ := within
        exact bounds
      have steady := steady_set world id id
        ((world.replicas id).ask (.txn (.release own.nodeId generation
          (max (own.owner.value.claimFloorMs.getD 0) (lastMs.getD 0))))
          (.releaseTxn own.owner.lease)) (fun _ => rfl) fun _ => rfl
      exact ⟨sane.turn _, operating_at _ _ _ _ _ rfl trivial (steady.flight flight)⟩
  · cases gone
    exact ⟨sane.turn _, operating_at _ _ _ _ _ rfl trivial trivial⟩
  · cases gone
    exact ⟨sane.turn _, operating_done _ _ _ rfl⟩
  · cases gone
    exact ⟨sane.turn _, operating_done _ _ _ rfl⟩
  · cases gone

end Commerce.Identity
