import Commerce.Identity.Uniqueness

/-!
# How far a replica stamps ahead of the clock

Where the clocks of a host agree and do not step, a generator reads the wall
clock plus a lift it got at its construction.  The floor check bounds that lift,
the fence bounds the wall clock, and so no id is returned whose timestamp passes
the wall clock of its lease's anchor by more than the lease's length.
-/

set_option autoImplicit false

namespace Commerce.Identity

open Revisions
open Runs

/-- The wall clock runs with the monotonic one and has passed the Unix epoch. -/
structure Clock.Agreed (clock : Clock) : Prop where
  together : ∀ early late,
    (clock.reading late).wallMs - (clock.reading early).wallMs =
      (clock.reading late).monotonicMs - (clock.reading early).monotonicMs
  unix : ∀ look, 0 ≤ (clock.reading look).wallMs

theorem Clock.Agreed.wall {clock : Clock} (agreed : clock.Agreed) (early late : Nat)
    (before : early ≤ late) :
    (clock.reading early).wallMs ≤ (clock.reading late).wallMs := by
  have together := agreed.together early late
  have steady := clock.steady early late before
  omega

def Looked (clock : Clock) (tick : Nat) (ms : Int) : Prop :=
  ∃ look, look < tick ∧ ms ≤ (clock.reading look).wallMs

section Looked

variable {clock : Clock} {tick : Nat} {ms : Int}

theorem looked_now (clock : Clock) (tick late : Nat) (before : tick < late) :
    Looked clock late (clock.reading tick).wallMs :=
  ⟨tick, before, le_refl _⟩

theorem Looked.later (looked : Looked clock tick ms) {late : Nat} (after : tick ≤ late) :
    Looked clock late ms := by
  obtain ⟨look, before, past⟩ := looked
  exact ⟨look, before.trans_le after, past⟩

theorem Looked.mono {low : Int} (looked : Looked clock tick ms) (below : low ≤ ms) :
    Looked clock tick low := by
  obtain ⟨look, before, past⟩ := looked
  exact ⟨look, before, below.trans past⟩

theorem Looked.reading (looked : Looked clock tick ms) (agreed : clock.Agreed) (late : Nat)
    (after : tick ≤ late + 1) : ms ≤ (clock.reading late).wallMs := by
  obtain ⟨look, before, past⟩ := looked
  exact past.trans (agreed.wall look late (by omega))

end Looked

/-! ## The generator -/

/-- The generator reads the wall clock plus its lift, and has stamped no further. -/
structure Generator.OnTime (clock : Clock) (tick : Nat) (gen : Generator) : Prop where
  offset : gen.offsetMs = 0
  origin : ∃ look, gen.originWallMs = (clock.reading look).wallMs ∧
    gen.originMonotonicMs = (clock.reading look).monotonicMs
  lift : 0 ≤ gen.liftMs
  stamped : Looked clock tick (gen.lastMs - gen.liftMs)

section OnTime

variable {clock : Clock} {tick : Nat} {gen : Generator}

theorem Generator.OnTime.now (onTime : gen.OnTime clock tick) (agreed : clock.Agreed)
    (look : Nat) :
    (gen.now clock.reading look).1 = (clock.reading look).wallMs + gen.liftMs ∧
      (gen.now clock.reading look).2 = gen := by
  obtain ⟨origin, wall, monotonic⟩ := onTime.origin
  have together := agreed.together origin look
  have offset := onTime.offset
  have lift := onTime.lift
  have behind : ¬ (clock.reading look).wallMs - (gen.originWallMs + gen.liftMs +
      ((clock.reading look).monotonicMs - gen.originMonotonicMs) + gen.offsetMs) > 0 := by omega
  simp only [Generator.now, if_neg behind, and_true]
  omega

theorem Generator.OnTime.later (onTime : gen.OnTime clock tick) {late : Nat}
    (after : tick ≤ late) : gen.OnTime clock late :=
  ⟨onTime.offset, onTime.origin, onTime.lift, onTime.stamped.later after⟩

theorem Generator.OnTime.stalled (onTime : gen.OnTime clock tick) (stalledAtMs : Int)
    (stalls : Nat) : ({ gen with stalledAtMs, stalls } : Generator).OnTime clock tick :=
  ⟨onTime.offset, onTime.origin, onTime.lift, onTime.stamped⟩

theorem Generator.OnTime.stamp (onTime : gen.OnTime clock tick) (tsMs sequence : Int) (late : Nat)
    (read : Looked clock late (tsMs - gen.liftMs)) :
    (gen.stampAt tsMs sequence).2.OnTime clock late :=
  ⟨onTime.offset, onTime.origin, onTime.lift, read⟩

/-- A spin ends on a timestamp it has read. -/
theorem Generator.spin_onTime (agreed : clock.Agreed) (ms deadlineNs : Int)
    (remaining look : Nat) (gen : Generator) (result : Except ClockStallReason Int)
    (next : Generator) (later : Nat) (onTime : gen.OnTime clock tick)
    (spun : Generator.spin clock.reading ms deadlineNs remaining look gen =
      (result, next, later)) :
    look ≤ later ∧ next.OnTime clock tick ∧ next.liftMs = gen.liftMs ∧
      next.lastMs = gen.lastMs ∧
      ∀ tsMs, result = .ok tsMs → Looked clock later (tsMs - gen.liftMs) := by
  induction remaining generalizing look with
  | zero =>
      cases spun
      exact ⟨le_refl _, onTime.stalled _ _, rfl, rfl, fun _ none => by cases none⟩
  | succ remaining ih =>
      obtain ⟨first, same⟩ := onTime.now agreed look
      obtain ⟨second, again⟩ := onTime.now agreed (look + 2)
      simp only [Generator.spin, first, same, second, again] at spun
      split at spun
      · cases spun
        refine ⟨Nat.le_succ _, onTime.stalled _ _, rfl, rfl, fun tsMs read => ?_⟩
        cases read
        exact (looked_now clock look (look + 1) (Nat.lt_succ_self _)).mono (by omega)
      · split at spun
        · split at spun
          · cases spun
            exact ⟨by omega, onTime.stalled _ _, rfl, rfl, fun _ none => by cases none⟩
          · obtain ⟨after, rest⟩ := ih _ spun
            exact ⟨by omega, rest⟩
        · obtain ⟨after, rest⟩ := ih _ spun
          exact ⟨by omega, rest⟩

/-- A call keeps the generator on time. -/
theorem Generator.generate_onTime (agreed : clock.Agreed) (look : Nat) (gen : Generator)
    (onTime : gen.OnTime clock tick) (after : tick ≤ look) :
    look ≤ (gen.generate clock.reading look).2.2 ∧
      (gen.generate clock.reading look).2.1.liftMs = gen.liftMs ∧
      (gen.generate clock.reading look).2.1.OnTime clock
        (gen.generate clock.reading look).2.2 := by
  obtain ⟨first, same⟩ := onTime.now agreed look
  simp only [Generator.generate, first, same]
  split
  · split
    · generalize spun : gen.spinPast clock.reading (look + 1) gen.lastMs = outcome
      obtain ⟨result, next, later⟩ := outcome
      obtain ⟨past, spinning, lift, last, read⟩ :=
        Generator.spin_onTime agreed _ _ _ (look + 2) gen result next later onTime spun
      cases result with
      | ok tsMs =>
          refine ⟨by dsimp only; omega, lift, spinning.stamp tsMs 0 later ?_⟩
          rw [lift]
          exact read tsMs rfl
      | error reason =>
          have reached : tick ≤ later := by omega
          exact ⟨by dsimp only; omega, lift, spinning.later reached⟩
    · refine ⟨Nat.le_succ _, rfl, onTime.stamp _ _ (look + 1) ?_⟩
      exact onTime.stamped.later (Nat.le_succ_of_le after)
  · refine ⟨Nat.le_succ _, rfl, onTime.stamp _ _ (look + 1) ?_⟩
    exact (looked_now clock look (look + 1) (Nat.lt_succ_self _)).mono (by omega)

theorem Generator.create_onTime (agreed : clock.Agreed) (tick : Nat) (nodeId floorMs aheadMs : Int)
    (gen : Generator)
    (created : Generator.create clock.reading tick nodeId (some floorMs) = .ok gen)
    (positive : 0 ≤ aheadMs) (ahead : floorMs - (clock.reading tick).wallMs ≤ aheadMs) :
    gen.OnTime clock (tick + 1) ∧ gen.liftMs ≤ aheadMs + 1 := by
  have unix := agreed.unix tick
  unfold Generator.create at created
  split at created
  · cases created
  · split at created
    · cases created
    · cases created
      have lift : ((some floorMs).map fun floorMs : Int =>
          max 0 (floorMs + 1 - (clock.reading tick).wallMs)).getD 0 =
            max 0 (floorMs + 1 - (clock.reading tick).wallMs) := rfl
      refine ⟨⟨rfl, ⟨tick, rfl, rfl⟩, ?_, ?_⟩, ?_⟩
      · exact le_max_left _ _
      · exact (looked_now clock tick (tick + 1) (Nat.lt_succ_self _)).mono (by
          simp only [lift]
          omega)
      · simp only [lift]
        omega

end OnTime

/-! ## A replica -/

def Awaiting.anchor : Awaiting → Option Reading
  | .acquireAlive anchor _ | .acquireGrant anchor | .acquireRange anchor _
  | .acquireClaim anchor .. | .acquireReadopt anchor .. | .renewRead anchor ..
  | .renewAlive anchor .. | .renewRaise anchor _ => some anchor
  | .acquireRevoke | .releaseRead .. | .releaseTxn _ | .releaseRevoke => none

def Awaiting.checkedAt : Awaiting → Option Int
  | .acquireClaim _ _ _ _ nowMs _ _ | .acquireReadopt _ _ nowMs _ => some nowMs
  | _ => none

/-- What an operation goes on with are instants the replica has looked at. -/
structure Awaiting.Timely (clock : Clock) (tick : Nat) (awaiting : Awaiting) : Prop where
  anchor : ∀ anchor, awaiting.anchor = some anchor → Looked clock tick anchor.wallMs
  checked : ∀ nowMs, awaiting.checkedAt = some nowMs → Looked clock tick nowMs

structure Held.Timely (host : Host) (tick : Nat) (held : Held) : Prop where
  onTime : held.generator.OnTime host.clock tick
  lift : held.generator.liftMs ≤ host.options.maxFloorAheadMs + 1
  anchor : Looked host.clock tick held.anchor.wallMs

/-- `since` is a number of looks the replica has taken at least. -/
structure Replica.Timely (host : Host) (since : Nat) (replica : Replica) : Prop where
  reached : since ≤ replica.tick
  held : ∀ held, replica.held = some held → held.Timely host replica.tick
  retired : replica.retiredLastMs = 0 ∨
    Looked host.clock replica.tick (replica.retiredLastMs - (host.options.maxFloorAheadMs + 1))
  operation : ∀ awaiting transit, replica.operation = some (awaiting, transit) →
    awaiting.Timely host.clock replica.tick

theorem Awaiting.Timely.later {clock : Clock} {tick late : Nat} {awaiting : Awaiting}
    (timely : awaiting.Timely clock tick) (after : tick ≤ late) : awaiting.Timely clock late :=
  ⟨fun anchor same => (timely.anchor anchor same).later after, fun nowMs same =>
    (timely.checked nowMs same).later after⟩

theorem Held.Timely.later {host : Host} {tick late : Nat} {held : Held}
    (timely : held.Timely host tick) (after : tick ≤ late) : held.Timely host late :=
  ⟨timely.onTime.later after, timely.lift, timely.anchor.later after⟩

section Replica

variable {host : Host} {replica next : Replica} {since : Nat}

theorem Replica.Timely.move (timely : replica.Timely host since)
    (after : replica.tick ≤ next.tick) (held : next.held = replica.held)
    (retired : next.retiredLastMs = replica.retiredLastMs)
    (operation : ∀ awaiting transit, next.operation = some (awaiting, transit) →
      awaiting.Timely host.clock next.tick) : next.Timely host since where
  reached := timely.reached.trans after
  held := fun found same => (timely.held found (held ▸ same)).later after
  retired := by
    rw [retired]
    rcases timely.retired with none | past
    · exact .inl none
    · exact .inr (past.later after)
  operation := operation

theorem Replica.Timely.idle (timely : replica.Timely host since)
    (after : replica.tick ≤ next.tick) (held : next.held = replica.held)
    (retired : next.retiredLastMs = replica.retiredLastMs)
    (done : next.operation = none) : next.Timely host since :=
  timely.move after held retired fun _ _ now => by cases done.symm.trans now

theorem Replica.Timely.ask (timely : replica.Timely host since) (call : Call) (awaiting : Awaiting)
    (known : awaiting.Timely host.clock replica.tick) :
    (replica.ask call awaiting).Timely host since :=
  timely.move (le_refl _) rfl rfl fun _ _ now => by cases now; exact known

/-- What a replica stops minting at lies behind the clock plus the lift it had. -/
theorem Replica.Timely.retire (timely : replica.Timely host since) (phase : Phase) :
    (replica.retire phase).Timely host since where
  reached := timely.reached
  held := fun _ none => absurd none.symm (Option.some_ne_none _)
  operation := timely.operation
  retired := by
    unfold Replica.retire
    cases believed : replica.held with
    | none => exact timely.retired
    | some held =>
        have own := timely.held held believed
        have stamped := own.onTime.stamped.mono
          (show held.generator.lastMs - (host.options.maxFloorAheadMs + 1) ≤
            held.generator.lastMs - held.generator.liftMs from by
              have := own.lift
              omega)
        simp only
        rcases le_total replica.retiredLastMs held.generator.lastMs with below | above
        · rw [max_eq_right below]
          exact .inr stamped
        · rw [max_eq_left above]
          exact timely.retired

theorem Replica.Timely.pending (timely : replica.Timely host since) (pendingLeaseId : Option Nat) :
    ({ replica with pendingLeaseId } : Replica).Timely host since :=
  ⟨timely.reached, timely.held, timely.retired, timely.operation⟩

theorem anchored_timely (clock : Clock) (tick : Nat) (awaiting : Awaiting) (anchor : Reading)
    (same : awaiting.anchor = some anchor) (unchecked : awaiting.checkedAt = none)
    (looked : Looked clock tick anchor.wallMs) : awaiting.Timely clock tick := by
  refine ⟨fun other found => ?_, fun nowMs found => ?_⟩
  · cases same.symm.trans found
    exact looked
  · cases unchecked.symm.trans found

theorem unanchored_timely (clock : Clock) (tick : Nat) (awaiting : Awaiting)
    (anchor : awaiting.anchor = none) (unchecked : awaiting.checkedAt = none) :
    awaiting.Timely clock tick := by
  refine ⟨fun other found => ?_, fun nowMs found => ?_⟩
  · cases anchor.symm.trans found
  · cases unchecked.symm.trans found

theorem acquire_timely (timely : replica.Timely host since)
    (started : replica.acquire host = .ok next) : next.Timely host since := by
  have looked : Looked host.clock (replica.tick + 1) (replica.reading host).wallMs :=
    looked_now host.clock replica.tick _ (Nat.lt_succ_self _)
  obtain ⟨-, ⟨leaseId, -, rfl⟩ | rfl⟩ := acquire_cases host replica next started
  · refine timely.move (Nat.le_succ _) rfl rfl fun awaiting transit now => ?_
    cases now
    exact anchored_timely _ _ _ _ rfl rfl looked
  · refine timely.move (Nat.le_succ _) rfl rfl fun awaiting transit now => ?_
    cases now
    exact anchored_timely _ _ _ _ rfl rfl looked

theorem renew_timely (timely : replica.Timely host since)
    (started : replica.renew host = .ok next) : next.Timely host since := by
  unfold Replica.renew at started
  split at started
  · cases started
  · split at started
    · cases started
    · cases started
      refine timely.move (Nat.le_add_right _ 2) rfl rfl fun awaiting transit now => ?_
      cases now
      have looked : Looked host.clock (replica.tick + 2) (replica.reading host).wallMs :=
        looked_now host.clock replica.tick _ (by omega)
      exact anchored_timely _ _ _ _ rfl rfl looked

theorem release_timely (timely : replica.Timely host since) :
    replica.release.Timely host since := by
  have draining : ({ replica with draining := true } : Replica).Timely host since :=
    ⟨timely.reached, timely.held, timely.retired, timely.operation⟩
  rcases release_cases replica with ⟨-, same⟩ | ⟨-, -, same⟩ | ⟨held, -, same⟩
  · rw [same]
    exact draining
  · rw [same]
    exact draining.retire .released
  · rw [same]
    exact (draining.retire .released).ask _ _ (unanchored_timely _ _ _ rfl rfl)

/-- What the replica last returned is no further ahead of its clock than a floor may be. -/
def Replica.CaughtUp (host : Host) (replica : Replica) : Prop :=
  replica.retiredLastMs - (replica.reading host).wallMs ≤ host.options.maxFloorAheadMs

instance (host : Host) (replica : Replica) : Decidable (replica.CaughtUp host) :=
  inferInstanceAs (Decidable (_ ≤ _))

/-- A grant starts a generator no further ahead than the floor check allows. -/
theorem granted_timely (agreed : host.clock.Agreed) (timely : replica.Timely host since)
    (caughtUp : replica.CaughtUp host) (anchor : Reading) (nodeId generation : Nat)
    (floorMs : Option Int) (leaseUntilMs nowMs : Int)
    (looked : Looked host.clock replica.tick anchor.wallMs)
    (checked : Looked host.clock replica.tick nowMs) :
    (replica.granted host anchor nodeId generation floorMs leaseUntilMs nowMs).Timely host
      since := by
  have ahead := host.options.ahead
  unfold Replica.granted
  split
  · exact timely.ask _ _ (unanchored_timely _ _ _ rfl rfl)
  · rename_i within
    split
    · exact timely.idle (le_refl _) rfl rfl rfl
    · rename_i generator created
      have now := checked.reading agreed replica.tick (Nat.le_succ _)
      have unix := agreed.unix replica.tick
      have floor : floorMs.getD 0 - (host.clock.reading replica.tick).wallMs ≤
          host.options.maxFloorAheadMs := by
        cases floorMs with
        | none =>
            rw [Option.getD_none]
            omega
        | some floorMs =>
            simp only [Option.any_some, decide_eq_true_eq, gt_iff_lt, not_lt] at within
            rw [Option.getD_some]
            omega
      have retired : replica.retiredLastMs - (host.clock.reading replica.tick).wallMs ≤
          host.options.maxFloorAheadMs := caughtUp
      obtain ⟨onTime, lift⟩ := Generator.create_onTime agreed replica.tick nodeId
        (max (floorMs.getD 0) replica.retiredLastMs) host.options.maxFloorAheadMs generator created
        ahead (by omega)
      refine ⟨Nat.le_succ_of_le timely.reached, fun held same => ?_, ?_,
        fun _ _ none => absurd none.symm (Option.some_ne_none _)⟩
      · cases same
        exact ⟨onTime, lift, looked.later (Nat.le_succ _)⟩
      · rcases timely.retired with none | past
        · exact .inl none
        · exact .inr (past.later (Nat.le_succ _))

theorem looked_checked (anchor : Reading) (looked : Looked host.clock replica.tick anchor.wallMs)
    (awaiting : Awaiting) (same : awaiting.anchor = some anchor)
    (checked : awaiting.checkedAt = some (replica.reading host).wallMs) :
    awaiting.Timely host.clock (replica.tick + 1) := by
  refine ⟨fun other found => ?_, fun nowMs found => ?_⟩
  · cases same.symm.trans found
    exact looked.later (Nat.le_succ _)
  · cases checked.symm.trans found
    exact looked_now host.clock replica.tick _ (Nat.lt_succ_self _)

theorem claimNext_timely (timely : replica.Timely host since) (anchor : Reading) (leaseId : Nat)
    (free : List NodeEntry) (position : Nat)
    (looked : Looked host.clock replica.tick anchor.wallMs)
    (claimed : replica.claimNext host anchor leaseId free position = some next) :
    next.Timely host since := by
  unfold Replica.claimNext at claimed
  split at claimed
  · cases claimed
    exact (timely.pending none).ask _ _ (unanchored_timely _ _ _ rfl rfl)
  · obtain ⟨entry, -, rfl⟩ := Option.map_eq_some_iff.mp claimed
    refine timely.move (Nat.le_succ _) rfl rfl fun awaiting transit now => ?_
    cases now
    exact looked_checked anchor looked _ rfl rfl

theorem readopt_timely (timely : replica.Timely host since) (anchor : Reading) (own : HeldEntry)
    (looked : Looked host.clock replica.tick anchor.wallMs) :
    (replica.readopt host anchor own).Timely host since := by
  refine timely.move (Nat.le_succ _) rfl rfl fun awaiting transit now => ?_
  cases now
  exact looked_checked anchor looked _ rfl rfl

theorem confirm_timely (timely : replica.Timely host since) (anchor : Reading) (leaseUntilMs : Int)
    (looked : Looked host.clock replica.tick anchor.wallMs) :
    (replica.confirm anchor leaseUntilMs).Timely host since where
  reached := timely.reached
  held := by
    intro held same
    obtain ⟨before, believed, rfl⟩ := Option.map_eq_some_iff.mp same
    have own := timely.held before believed
    exact ⟨own.onTime, own.lift, looked⟩
  retired := timely.retired
  operation := timely.operation

theorem proceed_timely (agreed : host.clock.Agreed) (timely : replica.Timely host since)
    (awaiting : Awaiting) (transit : Transit) (reply : Reply) (position : Nat)
    (now : replica.operation = some (awaiting, transit))
    (caughtUp : awaiting.checkedAt.isSome = true → replica.CaughtUp host)
    (gone : replica.proceed host position awaiting reply = some next) :
    next.Timely host since := by
  have known := timely.operation awaiting transit now
  have done : replica.done.Timely host since := timely.idle (le_refl _) rfl rfl rfl
  have lost : (replica.retire .lost).done.Timely host since :=
    (timely.retire .lost).idle (le_refl _) rfl rfl rfl
  have unclaiming : ({ replica with pendingLeaseId := none, operation := none } : Replica).Timely
      host since := timely.idle (le_refl _) rfl rfl rfl
  have on : ∀ call (next : Awaiting) anchor, awaiting.anchor = some anchor →
      next.anchor = some anchor → next.checkedAt = none →
        (replica.ask call next).Timely host since :=
    fun call next anchor same kept unchecked => timely.ask call next
      (anchored_timely _ _ _ anchor kept unchecked (known.anchor anchor same))
  unfold Replica.proceed at gone
  split at gone
  · cases gone
    exact on _ _ _ rfl rfl rfl
  · cases gone
    exact on _ _ _ rfl rfl rfl
  · cases gone
    exact (on .range _ _ rfl rfl rfl).pending _
  · split at gone
    · cases gone
      exact done
    · split at gone
      · cases gone
        exact readopt_timely timely _ _ (known.anchor _ rfl)
      · exact claimNext_timely timely _ _ _ _ (known.anchor _ rfl) gone
  · -- A claim went through.
    cases gone
    exact granted_timely agreed (timely.pending none) (caughtUp rfl) _ _ _ _ _ _
      (known.anchor _ rfl) (known.checked _ rfl)
  · exact claimNext_timely timely _ _ _ _ (known.anchor _ rfl) gone
  · cases gone
    exact unclaiming
  · -- A re-adoption went through.
    cases gone
    exact granted_timely agreed (timely.pending none) (caughtUp rfl) _ _ _ _ _ _
      (known.anchor _ rfl) (known.checked _ rfl)
  · cases gone
    exact done
  · cases gone
    exact unclaiming
  · cases gone
    exact timely.idle (le_refl _) rfl rfl rfl
  · split at gone
    · cases gone
      exact lost
    · cases gone
      exact on _ _ _ rfl rfl rfl
  · cases gone
    exact lost
  · cases gone
    exact on _ _ _ rfl rfl rfl
  · -- A renewal moves the anchor to the look it began with.
    cases gone
    exact (confirm_timely timely _ _ (known.anchor _ rfl)).idle (le_refl _) rfl rfl rfl
  · cases gone
    exact lost
  · cases gone
    exact done
  · split at gone
    · cases gone
      exact done
    · cases gone
      exact timely.ask _ _ (unanchored_timely _ _ _ rfl rfl)
  · cases gone
    exact timely.ask _ _ (unanchored_timely _ _ _ rfl rfl)
  · cases gone
    exact done
  · cases gone
    exact done
  · cases gone

theorem fail_timely (timely : replica.Timely host since) (failed : replica.fail = some next) :
    next.Timely host since := by
  unfold Replica.fail at failed
  split at failed
  · cases failed
  · cases failed
    exact timely.idle (le_refl _) rfl rfl rfl
  · cases failed
    exact timely.idle (le_refl _) rfl rfl rfl

theorem crash_timely (timely : replica.Timely host since) : replica.crash.Timely host since where
  reached := timely.reached
  held := fun _ none => absurd none.symm (Option.some_ne_none _)
  retired := timely.retired
  operation := fun _ _ none => absurd none.symm (Option.some_ne_none _)

/-! ## Minting -/

/-- A call that returns an id leaves its timestamp within a lease's length of the anchor. -/
theorem generate_timely (agreed : host.clock.Agreed)
    (ahead : host.options.maxFloorAheadMs ≤ host.options.fenceMarginMs)
    (timely : replica.Timely host since) (result : Except GenerateError String)
    (called : replica.generate host = (result, next)) :
    next.Timely host since ∧ ∀ spelled, result = .ok spelled →
      ∃ before held, replica.held = some before ∧ next.held = some held ∧
        held.anchor = before.anchor ∧
        held.generator.lastMs ≤ held.anchor.wallMs + host.options.ttlMs := by
  unfold Replica.generate at called
  split at called
  · cases called
    exact ⟨timely, fun _ none => by cases none⟩
  · rename_i held believed
    have own := timely.held held believed
    split at called
    · cases called
      refine ⟨timely.move (Nat.le_add_right _ 2) rfl rfl fun awaiting transit now => ?_,
        fun _ none => by cases none⟩
      exact (timely.operation awaiting transit now).later (Nat.le_add_right _ 2)
    · have minting := Generator.generate_onTime agreed (replica.tick + 1) held.generator own.onTime
        (Nat.le_succ _)
      generalize held.generator.generate host.clock.reading (replica.tick + 1) = outcome
        at called minting
      obtain ⟨minted, generator, tick⟩ := outcome
      obtain ⟨after, lift, onTime⟩ := minting
      have past : replica.tick ≤ tick := Nat.le_of_succ_le after
      have moved : Held.Timely host tick { held with generator } :=
        ⟨onTime, lift ▸ own.lift, own.anchor.later past⟩
      have later : ∀ late, tick ≤ late →
          Replica.Timely host since
            { replica with held := some { held with generator }, tick := late } := by
        intro late reached
        refine ⟨timely.reached.trans (past.trans reached), fun other same => ?_, ?_,
          fun awaiting transit now => ?_⟩
        · cases same
          exact moved.later reached
        · rcases timely.retired with none | looked
          · exact .inl none
          · exact .inr (looked.later (past.trans reached))
        · exact (timely.operation awaiting transit now).later (past.trans reached)
      cases minted with
      | error error =>
          cases called
          exact ⟨later tick (le_refl _), fun _ none => by cases none⟩
      | ok spelled =>
          simp only at called
          split at called
          · cases called
            exact ⟨later (tick + 2) (Nat.le_add_right _ 2), fun _ none => by cases none⟩
          · rename_i unfenced
            cases called
            refine ⟨later (tick + 1) (Nat.le_succ _), fun same _ =>
              ⟨held, { held with generator }, believed, rfl, rfl, ?_⟩⟩
            -- The look after the stamp bounds the wall clock, and with it the stamp.
            have wall := onTime.stamped.reading agreed tick (Nat.le_succ _)
            have lifted := moved.lift
            simp only [fenced, Bool.or_eq_true, decide_eq_true_eq, not_or, ge_iff_le, not_le,
              Replica.reading] at unfenced
            have elapsed := lt_of_le_of_lt (le_max_right _ _) unfenced.1.1
            dsimp only at wall lifted ⊢
            omega

end Replica

end Commerce.Identity
