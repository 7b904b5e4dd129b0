import Commerce.Identity.CutOff
import Commerce.Identity.LiftedIds

/-!
# A settled lift never reissues an id

A lift that starts after the loss of a keyspace first waits a lease's length from
the instant the new one was seen empty.  So everything the replicas of the lost
keyspace can stamp lies at or below the lifted floors, and everything minted on
the new one above.
-/

set_option autoImplicit false

namespace Commerce.Identity

open Revisions
open Runs

/-- Every lift waits out the lease and reads its clock after the loss. -/
def Waits (ttlMs lostAtMs : Int) : SiteEvent → Prop
  | .start options => options.settleMs = some ttlMs ∧ lostAtMs ≤ options.nowMs
  | _ => True

/-- The new keyspace: nothing is claimed before a marker, and no marker is written before the
wait is over. -/
structure Settling (ttlMs lostAtMs : Int) (site : Site) : Prop where
  marked : (site.world.keyspace.cells .initialized).isSome → site.marks ≠ []
  claimable : Claimable (site.marks ≠ []) site.world
  claims : ∀ claim ∈ site.world.claims, ∃ mark ∈ site.marks, mark.revision < claim.generation
  options : ∀ lift ∈ site.lifts,
    lift.options.settleMs = some ttlMs ∧ lostAtMs ≤ lift.options.nowMs
  recorded : ∀ ms, site.emptySinceMs = some ms → lostAtMs ≤ ms
  raising : ∀ lift ∈ site.lifts, ∀ entries, lift.stage = .raising entries →
    lostAtMs + ttlMs ≤ lift.options.nowMs
  marks : ∀ mark ∈ site.marks, lostAtMs + ttlMs ≤ mark.floorMs

/-! ## One call of a lift -/

section Call

variable {ttlMs lostAtMs : Int} {lift : LiftRun} {store next : LiftStore} {stage : LiftStage}

theorem chunk_marker (store : LiftStore) (options : LiftOptions) (chunk : List NodeEntry) :
    (store.raiseChunk options chunk).1.keyspace.cells .initialized =
      store.keyspace.cells .initialized ∧
    (store.raiseChunk options chunk).1.emptySinceMs = store.emptySinceMs := by
  generalize committed : store.keyspace.commit (chunkCompare chunk) (chunkSuccess options chunk) =
    outcome
  obtain ⟨keyspace, answer⟩ := outcome
  simp only [LiftStore.raiseChunk, committed, and_true]
  by_cases success : ∃ revision, answer = .done true revision
  · obtain ⟨revision, rfl⟩ := success
    obtain ⟨-, -, rfl⟩ := commit_done _ _ _ _ _ committed
    apply write_other
    intro op member same
    obtain ⟨entry, -, rfl⟩ := chunk_key options chunk op member
    cases same
  · obtain rfl := commit_refused _ _ _ _ answer committed fun revision same =>
      success ⟨revision, same⟩
    rfl

structure Waited (ttlMs lostAtMs : Int) (lift : LiftRun) (store next : LiftStore)
    (stage : LiftStage) : Prop where
  marker : (next.keyspace.cells .initialized).isSome →
    (store.keyspace.cells .initialized).isSome ∨ lift.marks store ≠ []
  recorded : ∀ ms, next.emptySinceMs = some ms → lostAtMs ≤ ms
  raising : ∀ entries, stage = .raising entries → lostAtMs + ttlMs ≤ lift.options.nowMs
  marks : ∀ mark ∈ lift.marks store, lostAtMs + ttlMs ≤ mark.floorMs

theorem begin_waits (options : LiftOptions) (shot : KeyspaceSnapshot) (positive : 0 < ttlMs)
    (settle : options.settleMs = some ttlMs) (entries : List NodeEntry) :
    options.begin shot ≠ .raising entries := by
  have waiting : options.settleMs.any (· > 0) := by simp [settle, positive]
  intro same
  unfold LiftOptions.begin at same
  split at same
  · cases same
  · simp only at same
    -- the wait is asked for, so the second test never lets the lift past it
    split at same <;> cases same

/-- `requireSettled` lets a lift go on only when a lease's length has passed. -/
theorem settled_waits (options : LiftOptions) (entries rest : List NodeEntry)
    (recordedMs : Option Int) (settle : options.settleMs = some ttlMs)
    (recorded : ∀ ms, recordedMs = some ms → lostAtMs ≤ ms)
    (went : options.settled entries recordedMs = .raising rest) :
    lostAtMs + ttlMs ≤ options.nowMs := by
  cases recordedMs with
  | none => cases went
  | some recordedMs =>
      have after := recorded recordedMs rfl
      simp only [LiftOptions.settled, settle, Option.getD_some] at went
      split at went
      · cases went
      · omega

theorem call_waited (positive : 0 < ttlMs)
    (options : lift.options.settleMs = some ttlMs ∧ lostAtMs ≤ lift.options.nowMs)
    (recorded : ∀ ms, store.emptySinceMs = some ms → lostAtMs ≤ ms)
    (raising : ∀ entries, lift.stage = .raising entries → lostAtMs + ttlMs ≤ lift.options.nowMs)
    (called : lift.call store = some (next, stage)) :
    Waited ttlMs lostAtMs lift store next stage := by
  obtain ⟨settle, started⟩ := options
  obtain ⟨given, before⟩ := lift
  unfold LiftRun.call at called
  split at called
  · rename_i reading
    cases called
    cases reading
    exact ⟨.inl, recorded, fun entries same =>
      absurd same (begin_waits given _ positive settle entries),
      fun mark member => absurd member List.not_mem_nil⟩
  · rename_i entries waiting
    cases called
    cases waiting
    exact ⟨.inl, recorded, fun rest went =>
      settled_waits given entries rest _ settle recorded went,
      fun mark member => absurd member List.not_mem_nil⟩
  · -- The first sight of the empty keyspace.
    rename_i settleMs recording
    cases called
    cases recording
    refine ⟨?_, ?_, fun entries same => (by cases same),
      fun mark member => absurd member List.not_mem_nil⟩
    · unfold LiftStore.record
      split <;> exact .inl
    · unfold LiftStore.record
      split
      · exact recorded
      · intro ms same
        cases same
        exact started
  · rename_i marking
    cases called
    cases marking
    refine ⟨fun _ => .inr (List.cons_ne_nil _ _), fun ms none => (by cases none),
      fun entries same => (by cases same), fun mark member => ?_⟩
    obtain rfl := List.mem_singleton.mp member
    exact raising [] rfl
  · rename_i entry rest going
    cases going
    have marker := chunk_marker store given (List.take nodesPerTxn (entry :: rest))
    simp only at called
    split at called
    · rename_i after revision raised
      cases called
      rw [raised] at marker
      refine ⟨fun present => .inl (marker.1 ▸ present), marker.2 ▸ recorded,
        fun entries _ => raising (entry :: rest) rfl,
        fun mark member => absurd member List.not_mem_nil⟩
    · rename_i after answer unmet raised
      cases called
      rw [raised] at marker
      refine ⟨fun present => .inl (marker.1 ▸ present), marker.2 ▸ recorded,
        fun entries same => (by cases same), fun mark member => absurd member List.not_mem_nil⟩
  · cases called

end Call

/-! ## Whole runs -/

section Runs

variable {hosts : Nat → Host} {ttlMs lostAtMs : Int} {site : Site}

theorem settling_move (inv : Settling ttlMs lostAtMs site) (slot : Nat) (lift : LiftRun)
    (present : lift ∈ site.lifts) (store : LiftStore) (stage : LiftStage)
    (waited : Waited ttlMs lostAtMs lift site.store store stage) :
    Settling ttlMs lostAtMs (site.move slot lift store stage) where
  marked := by
    intro initialized
    rcases waited.marker initialized with before | now
    · exact fun none => inv.marked before (List.append_eq_nil_iff.mp none).1
    · exact fun none => now (List.append_eq_nil_iff.mp none).2
  claimable := by
    have kept : Claimable (site.marks ≠ []) (site.move slot lift store stage).world :=
      ⟨inv.claimable.replicas, inv.claimable.claims⟩
    exact kept.mono fun held clear => held (List.append_eq_nil_iff.mp clear).1
  claims := by
    intro claim member
    obtain ⟨mark, among, after⟩ := inv.claims claim member
    exact ⟨mark, List.mem_append_left _ among, after⟩
  options := by
    intro other member
    rcases List.mem_or_eq_of_mem_set member with old | rfl
    · exact inv.options other old
    · exact inv.options lift present
  recorded := waited.recorded
  raising := by
    intro other member
    rcases List.mem_or_eq_of_mem_set member with old | rfl
    · exact inv.raising other old
    · exact waited.raising
  marks := by
    intro mark member
    rcases List.mem_append.mp member with old | new
    · exact inv.marks mark old
    · exact waited.marks mark new

theorem claims_after (known : SiteInv hosts site) (inv : Settling ttlMs lostAtMs site)
    (next : World) (claims : ClaimsFrom (site.marks ≠ []) site.world next) :
    ∀ claim ∈ next.claims, ∃ mark ∈ site.marks, mark.revision < claim.generation := by
  intro claim member
  rcases claims claim member with old | ⟨marked, -, fresh⟩
  · exact inv.claims claim old
  · obtain ⟨mark, among⟩ := List.exists_mem_of_ne_nil _ marked
    exact ⟨mark, among, (known.marks mark among).1.trans_lt fresh⟩

theorem settling_step (positive : 0 < ttlMs) (known : SiteInv hosts site)
    (inv : Settling ttlMs lostAtMs site) (event : SiteEvent) (next : Site)
    (waits : Waits ttlMs lostAtMs event) (stepped : siteStep hosts site event = some next) :
    Settling ttlMs lostAtMs next := by
  cases event with
  | replicas event =>
      obtain ⟨world, moved, rfl⟩ := Option.map_eq_some_iff.mp stepped
      have touches := step_touches known.inner event world moved
      obtain ⟨claimable, claims⟩ := step_ready inv.marked inv.claimable event world moved
      exact ⟨fun present => inv.marked (touches.marker present), claimable,
        claims_after known inv world claims, inv.options, inv.recorded, inv.raising, inv.marks⟩
  | start options =>
      cases stepped
      refine ⟨inv.marked, inv.claimable, inv.claims, fun lift member => ?_, inv.recorded,
        fun lift member => ?_, inv.marks⟩
      · rcases List.mem_append.mp member with old | new
        · exact inv.options lift old
        · obtain rfl := List.mem_singleton.mp new
          exact waits
      · rcases List.mem_append.mp member with old | new
        · exact inv.raising lift old
        · obtain rfl := List.mem_singleton.mp new
          intro entries same
          cases same
  | lift slot =>
      simp only [siteStep] at stepped
      split at stepped
      · cases stepped
      · rename_i lift found
        obtain ⟨called, ran, rfl⟩ := Option.map_eq_some_iff.mp stepped
        have present := List.mem_of_getElem? found
        exact settling_move inv slot lift present called.1 called.2 (call_waited positive
          (inv.options lift present) inv.recorded (inv.raising lift present) ran)
  | unanswered slot =>
      simp only [siteStep] at stepped
      split at stepped
      · cases stepped
      · rename_i lift found
        obtain ⟨called, ran, rfl⟩ := Option.map_eq_some_iff.mp stepped
        have present := List.mem_of_getElem? found
        have waited := call_waited positive (inv.options lift present) inv.recorded
          (inv.raising lift present) ran
        refine settling_move inv slot lift present called.1 _
          ⟨waited.marker, waited.recorded, fun entries same => ?_, waited.marks⟩
        cases same

theorem settling_start (ttlMs lostAtMs : Int) (origin : Origin)
    (empty : ∀ key, origin.keyspace.cells key = none) :
    Settling ttlMs lostAtMs (siteStart origin) where
  marked := fun present => by
    have none : (siteStart origin).world.keyspace.cells .initialized = none := empty .initialized
    rw [none] at present
    cases present
  claimable := claimable_start origin
  claims := fun _ none => absurd none List.not_mem_nil
  options := fun _ none => absurd none List.not_mem_nil
  recorded := fun _ none => absurd none.symm (Option.some_ne_none _)
  raising := fun _ none => absurd none List.not_mem_nil
  marks := fun _ none => absurd none List.not_mem_nil

end Runs

/-- What replicas returned before the loss and after it lies within a lease's length of it. -/
theorem old_bounded (hosts : Nat → Host) (ttlMs lostAtMs : Int) (agreeing : Agreeing hosts ttlMs)
    (origin : Origin) (before after : List Event) (atLoss old : World)
    (regular : Along (step hosts)
      (fun world event => InOrder world event ∧ CaughtUp hosts world event) (start origin) before)
    (lived : run (step hosts) (start origin) before = some atLoss)
    (known : ∀ id look, look < (atLoss.replicas id).tick →
      ((hosts id).clock.reading look).wallMs ≤ lostAtMs)
    (cut : Along (step hosts) (fun world event =>
      event.CutOff ∧ InOrder world event ∧ CaughtUp hosts world event) atLoss after)
    (survived : run (step hosts) atLoss after = some old) :
    CutOff hosts ttlMs lostAtMs old := by
  obtain ⟨inner, punctual⟩ : Inv hosts atLoss ∧ Punctual hosts ttlMs atLoss :=
    run_preserves_along (step hosts) _ (fun world => Inv hosts world ∧ Punctual hosts ttlMs world)
      (fun state event next kept met stepped =>
        ⟨inv_step kept.1 event next (inOrder_uncrossed state event met.1) stepped,
          punctual_step agreeing kept.2 event next met.2 stepped⟩)
      before (start origin) atLoss ⟨inv_start hosts origin, punctual_start hosts ttlMs origin⟩
      regular lived
  exact run_preserves_along (step hosts) _ (CutOff hosts ttlMs lostAtMs)
    (fun state event next kept met stepped =>
      cut_step agreeing kept event next met.1 (inOrder_uncrossed state event met.2.1) met.2.2
        stepped)
    after atLoss old (cut_of_lost inner punctual known) cut survived

/-- Replicas that held nodes of the lost keyspace have returned, before the loss and cut off from
it, nothing above a lift of the new keyspace that waited out their lease; and no id of theirs is
one that any replica of the new keyspace returns. -/
theorem settled_lift_reissues_nothing (hosts : Nat → Host) (ttlMs lostAtMs : Int)
    (agreeing : Agreeing hosts ttlMs) (origin : Origin) (before after : List Event)
    (atLoss old : World)
    (regular : Along (step hosts)
      (fun world event => InOrder world event ∧ CaughtUp hosts world event) (start origin) before)
    (lived : run (step hosts) (start origin) before = some atLoss)
    (known : ∀ id look, look < (atLoss.replicas id).tick →
      ((hosts id).clock.reading look).wallMs ≤ lostAtMs)
    (cut : Along (step hosts) (fun world event =>
      event.CutOff ∧ InOrder world event ∧ CaughtUp hosts world event) atLoss after)
    (survived : run (step hosts) atLoss after = some old)
    (newHosts : Nat → Host) (empty : Origin) (cleared : ∀ key, empty.keyspace.cells key = none)
    (events : List SiteEvent) (final : Site)
    (waits : Along (siteStep newHosts)
      (fun site event => SiteInOrder site event ∧ Waits ttlMs lostAtMs event) (siteStart empty)
      events)
    (success : run (siteStep newHosts) (siteStart empty) events = some final) :
    (∀ mark ∈ final.marks, ∀ minted ∈ old.minted, minted.fields.tsMs ≤ mark.floorMs) ∧
      ((old.minted ++ final.world.minted).map (·.id)).Nodup := by
  have bounded := old_bounded hosts ttlMs lostAtMs agreeing origin before after atLoss old regular
    lived known cut survived
  have positive : 0 < ttlMs := agreeing.ttl 0 ▸ (hosts 0).options.ttl
  obtain ⟨inv, settling⟩ : SiteInv newHosts final ∧ Settling ttlMs lostAtMs final :=
    run_preserves_along (siteStep newHosts) _
      (fun site => SiteInv newHosts site ∧ Settling ttlMs lostAtMs site)
      (fun state event next kept met stepped =>
        ⟨site_step kept.1 event next met.1 stepped,
          settling_step positive kept.1 kept.2 event next met.2 stepped⟩)
      events (siteStart empty) final
      ⟨site_start newHosts empty, settling_start ttlMs lostAtMs empty cleared⟩ waits success
  have below : ∀ mark ∈ final.marks, ∀ minted ∈ old.minted,
      minted.fields.tsMs ≤ mark.floorMs := fun mark among minted member =>
    (bounded.minted minted member).trans (settling.marks mark among)
  refine ⟨below, ?_⟩
  rw [List.map_append, List.nodup_append]
  refine ⟨bounded.inner.distinct, inv.inner.distinct, ?_⟩
  intro id early other late same
  subst same
  obtain ⟨stale, was, rfl⟩ := List.mem_map.mp early
  obtain ⟨fresh, now, same⟩ := List.mem_map.mp late
  have spelled := ((bounded.inner.sane stale.replica).minted stale was rfl).spelled
  have good := (inv.inner.sane fresh.replica).minted fresh now rfl
  -- one id, so one timestamp: at or below every lift, and above the one its claim came after
  have equal : fresh.fields = stale.fields :=
    encode_injective _ _ stale.id (same ▸ good.spelled) spelled
  obtain ⟨claimFloorMs, ⟨leaseId, claim⟩, -⟩ := good.tenure
  obtain ⟨mark, among, after⟩ := settling.claims _ claim
  have under := below mark among stale was
  have above := minted_above inv mark among fresh now after
  rw [equal] at above
  omega

/-! A replica mints twice, once after the loss; a lift waits its lease out, and a second one
lifts every floor. -/

def agreedHost : Host where
  options := steadyHost.options
  clock :=
    { reading := fun tick =>
        { wallMs := epochMs + 1000 * min tick 20, monotonicMs := 1000 * min tick 20,
          elapsedNs := 0 }
      steady := by
        intro early late before
        simp only
        omega }

theorem agreedHost_agreeing : Agreeing (fun _ => agreedHost) 300000 where
  clocks := fun _ =>
    { together := by
        intro early late
        simp only [agreedHost]
        omega
      unix := by
        intro look
        simp only [agreedHost, epochMs]
        omega }
  ttl := fun _ => rfl
  ahead := fun _ => le_refl _

def emptyKeyspace : Keyspace :=
  { revision := 0, cells := fun _ => none, granted := 0, live := fun _ => false }

def emptyOrigin : Origin where
  keyspace := emptyKeyspace
  sound := fun _ _ none => absurd none.symm (Option.some_ne_none _)
  unowned := fun _ => rfl
  unleased := fun _ _ none => absurd none.symm (Option.some_ne_none _)

def mintedBefore : List Event :=
  [.acquire 0, .serve 0, .proceed 0 0, .serve 0, .proceed 0 0, .serve 0, .proceed 0 0, .generate 0]

/-- Read, recorded and refused; then read again, allowed, raised in six chunks and marked. -/
def waitedLift : List SiteEvent :=
  [.start { nowMs := epochMs + 21000, onlyIfUninitialized := true, settleMs := some 300000 }] ++
    List.replicate 3 (.lift 0) ++
    [.start { nowMs := epochMs + 321000, onlyIfUninitialized := true, settleMs := some 300000 }] ++
    List.replicate 9 (.lift 1)

set_option maxRecDepth 10000 in
theorem settled_lift_reissues_nothing_waited :
    ∃ atLoss old final,
      run (step fun _ => agreedHost) (start initializedOrigin) mintedBefore = some atLoss ∧
      run (step fun _ => agreedHost) atLoss [.generate 0] = some old ∧
      run (siteStep fun _ => agreedHost) (siteStart emptyOrigin) waitedLift = some final ∧
      (old.minted.length = 2 ∧ final.marks.map (·.floorMs) = [epochMs + 321000]) ∧
      ∀ mark ∈ final.marks, ∀ minted ∈ old.minted, minted.fields.tsMs ≤ mark.floorMs := by
  have regular : Along (step fun _ => agreedHost)
      (fun world event => InOrder world event ∧ CaughtUp (fun _ => agreedHost) world event)
      (start initializedOrigin) (mintedBefore ++ [.generate 0]) := by decide +kernel
  have minted : ((run (step fun _ => agreedHost) (start initializedOrigin) mintedBefore).bind
      fun atLoss => (run (step fun _ => agreedHost) atLoss [.generate 0]).map
        (·.minted.length)) = some 2 := by decide +kernel
  have lifted : (run (siteStep fun _ => agreedHost) (siteStart emptyOrigin) waitedLift).map
      (fun site => site.marks.map (·.floorMs)) = some [epochMs + 321000] := by decide +kernel
  obtain ⟨atLoss, lived, two⟩ := Option.bind_eq_some_iff.mp minted
  obtain ⟨old, survived, two⟩ := Option.map_eq_some_iff.mp two
  obtain ⟨final, success, marks⟩ := Option.map_eq_some_iff.mp lifted
  obtain ⟨early, late⟩ := along_append _ _ _ atLoss mintedBefore [.generate 0] lived regular
  have waits : ∀ event ∈ waitedLift, Waits 300000 (epochMs + 20000) event ∧
      ∀ inner, event ≠ .replicas inner := by
    intro event member
    simp only [waitedLift, List.mem_append, List.mem_singleton, List.mem_replicate] at member
    rcases member with ((rfl | ⟨-, rfl⟩) | rfl) | ⟨-, rfl⟩ <;> simp [Waits]
  refine ⟨atLoss, old, final, lived, survived, success, ⟨two, marks⟩, ?_⟩
  refine (settled_lift_reissues_nothing (fun _ => agreedHost) 300000 (epochMs + 20000)
    agreedHost_agreeing initializedOrigin mintedBefore [.generate 0] atLoss old early lived
    ?_ ⟨⟨trivial, late.1⟩, fun _ _ => trivial⟩ survived (fun _ => agreedHost) emptyOrigin
    (fun _ => rfl) waitedLift final ?_ success).1
  · intro id look _
    simp only [agreedHost]
    omega
  · exact along_and _ _ _ _ _ (lifts_ordered _ _ _ fun event member => (waits event member).2)
      (along_of_forall _ _ _ _ fun event member => (waits event member).1)

end Commerce.Identity
