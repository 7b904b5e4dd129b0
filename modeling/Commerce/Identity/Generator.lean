import Mathlib.Data.Prod.Lex
import Mathlib.Order.Basic
import Commerce.Identity.Codec

/-!
# Snowflake generator

A generator stamps ids from a monotonic base that starts above its floor and
only catches up with the wall clock, never falls back.  Its law says that each
call moves the pair (timestamp, sequence) up, or refuses and leaves it alone.
-/

set_option autoImplicit false

namespace Commerce.Identity

structure Reading where
  wallMs : Int
  monotonicMs : Int
  elapsedNs : Int

/-- A process's clocks, look by look.  The wall clock may step in either direction. -/
structure Clock where
  reading : Nat → Reading
  steady : ∀ early late, early ≤ late →
    (reading early).monotonicMs ≤ (reading late).monotonicMs

def spinDeadlineNs : Int := 10 * 1000000
def spinLoopCap : Nat := 40000
def noStall : Int := -1

inductive ClockStallReason where
  | deadline
  | loopCap
  deriving DecidableEq

inductive MintError where
  | clockStalled (reason : ClockStallReason)
  | range (message : String)
  deriving DecidableEq

structure Generator where
  nodeId : Int
  lastMs : Int := 0
  sequence : Int := 0
  offsetMs : Int := 0
  stalls : Nat := 0
  stalledAtMs : Int := noStall
  originWallMs : Int
  originMonotonicMs : Int
  liftMs : Int

/-- `floorMs`: the last timestamp a previous holder of this node id may have minted at. -/
def Generator.create (clock : Nat → Reading) (tick : Nat) (nodeId : Int) (floorMs : Option Int) :
    Except String Generator :=
  if nodeId < 0 ∨ nodeId ≥ nodeCount then
    .error s!"Snowflake nodeId must be an integer in [0, {nodeCount - 1}]"
  else if floorMs.any fun floorMs => floorMs < 0 ∨ floorMs ≥ maxTimestampMs then
    .error s!"Snowflake floorMs must be an integer in [0, {maxTimestampMs - 1}]"
  else
    .ok
      { nodeId
        originWallMs := (clock tick).wallMs
        originMonotonicMs := (clock tick).monotonicMs
        liftMs := (floorMs.map fun floorMs => max 0 (floorMs + 1 - (clock tick).wallMs)).getD 0 }

/-- Monotonic base plus an offset that only grows, so the result cannot go backwards. -/
def Generator.now (clock : Nat → Reading) (tick : Nat) (gen : Generator) : Int × Generator :=
  let monotonic :=
    gen.originWallMs + gen.liftMs + ((clock tick).monotonicMs - gen.originMonotonicMs)
  let behind := (clock tick).wallMs - (monotonic + gen.offsetMs)
  let offsetMs := if behind > 0 then gen.offsetMs + behind else gen.offsetMs
  (monotonic + offsetMs, { gen with offsetMs })

def Generator.stall (gen : Generator) (ms : Int) : Generator :=
  { gen with stalledAtMs := ms, stalls := gen.stalls + 1 }

/-- The loop of `spinPast`, with the iterations its cap leaves. -/
def Generator.spin (clock : Nat → Reading) (ms deadlineNs : Int) :
    Nat → Nat → Generator → Except ClockStallReason Int × Generator × Nat
  | 0, tick, gen => (.error .loopCap, gen.stall ms, tick)
  | remaining + 1, tick, gen =>
      let (tsMs, gen) := gen.now clock tick
      if tsMs > ms then (.ok tsMs, { gen with stalledAtMs := noStall }, tick + 1)
      else if (clock (tick + 1)).elapsedNs > deadlineNs then
        -- Read again: a deschedule between the two readings is no stall.
        let (tsMs, gen) := gen.now clock (tick + 2)
        if tsMs ≤ ms then (.error .deadline, gen.stall ms, tick + 3)
        else spin clock ms deadlineNs remaining (tick + 3) gen
      else spin clock ms deadlineNs remaining (tick + 2) gen

def Generator.spinPast (clock : Nat → Reading) (tick : Nat) (gen : Generator) (ms : Int) :
    Except ClockStallReason Int × Generator × Nat :=
  let deadlineNs := (clock tick).elapsedNs + spinDeadlineNs
  let cap := if gen.stalledAtMs = ms then 1 else spinLoopCap
  Generator.spin clock ms deadlineNs cap (tick + 1) gen

def Generator.fields (gen : Generator) : SnowflakeFields :=
  { tsMs := gen.lastMs, nodeId := gen.nodeId, sequence := gen.sequence }

/-- `encode` runs after the timestamp is recorded, so a refusal there still spends it. -/
def Generator.stampAt (gen : Generator) (tsMs sequence : Int) :
    Except MintError String × Generator :=
  let gen := { gen with lastMs := tsMs, sequence }
  ((encode gen.fields).mapError .range, gen)

def Generator.generate (clock : Nat → Reading) (tick : Nat) (gen : Generator) :
    Except MintError String × Generator × Nat :=
  let (tsMs, gen) := gen.now clock tick
  if tsMs ≤ gen.lastMs then
    if gen.sequence = sequenceCount - 1 then
      match gen.spinPast clock (tick + 1) gen.lastMs with
      | (.ok tsMs, gen, later) =>
          let (result, gen) := gen.stampAt tsMs 0
          (result, gen, later)
      | (.error reason, gen, later) => (.error (.clockStalled reason), gen, later)
    else
      let (result, gen) := gen.stampAt gen.lastMs (gen.sequence + 1)
      (result, gen, tick + 1)
  else
    let (result, gen) := gen.stampAt tsMs 0
    (result, gen, tick + 1)

/-! ## The generator's law -/

def Generator.stamp (gen : Generator) : Int ×ₗ Int := toLex (gen.lastMs, gen.sequence)

/-- The clock base of a generator is above its floor, from this look on. -/
structure Generator.Above (clock : Clock) (tick : Nat) (floorMs : Int) (gen : Generator) :
    Prop where
  base : floorMs < gen.originWallMs + gen.liftMs
  offset : 0 ≤ gen.offsetMs
  started : gen.originMonotonicMs ≤ (clock.reading tick).monotonicMs

/-- Nothing but the drift and the stall marks has changed. -/
structure Generator.Ticked (gen next : Generator) : Prop where
  node : next.nodeId = gen.nodeId
  last : next.lastMs = gen.lastMs
  sequence : next.sequence = gen.sequence
  wall : next.originWallMs = gen.originWallMs
  monotonic : next.originMonotonicMs = gen.originMonotonicMs
  lift : next.liftMs = gen.liftMs
  offset : gen.offsetMs ≤ next.offsetMs

theorem Generator.Ticked.trans {first second third : Generator} (one : first.Ticked second)
    (two : second.Ticked third) : first.Ticked third where
  node := two.node.trans one.node
  last := two.last.trans one.last
  sequence := two.sequence.trans one.sequence
  wall := two.wall.trans one.wall
  monotonic := two.monotonic.trans one.monotonic
  lift := two.lift.trans one.lift
  offset := one.offset.trans two.offset

theorem Generator.Ticked.above (clock : Clock) (tick later : Nat) (floorMs : Int)
    (gen next : Generator) (ticked : gen.Ticked next) (after : tick ≤ later)
    (above : gen.Above clock tick floorMs) : next.Above clock later floorMs where
  base := by
    have := above.base
    rw [ticked.wall, ticked.lift]
    exact this
  offset := above.offset.trans ticked.offset
  started := by
    rw [ticked.monotonic]
    exact above.started.trans (clock.steady tick later after)

theorem Generator.Above.later {clock : Clock} {tick : Nat} {floorMs : Int} {gen : Generator}
    (later : Nat) (after : tick ≤ later) (above : gen.Above clock tick floorMs) :
    gen.Above clock later floorMs where
  base := above.base
  offset := above.offset
  started := above.started.trans (clock.steady tick later after)

theorem Generator.ticked_stall (gen : Generator) (ms : Int) : gen.Ticked (gen.stall ms) :=
  ⟨rfl, rfl, rfl, rfl, rfl, rfl, le_refl _⟩

theorem Generator.ticked_now (clock : Nat → Reading) (tick : Nat) (gen : Generator) :
    gen.Ticked (gen.now clock tick).2 := by
  refine ⟨rfl, rfl, rfl, rfl, rfl, rfl, ?_⟩
  simp only [Generator.now]
  split <;> omega

/-- The clock never reads at or below the floor. -/
theorem Generator.now_above (clock : Clock) (tick : Nat) (floorMs : Int) (gen : Generator)
    (above : gen.Above clock tick floorMs) : floorMs < (gen.now clock.reading tick).1 := by
  obtain ⟨base, offset, started⟩ := above
  simp only [Generator.now]
  split <;> omega

theorem Generator.spin_law (clock : Nat → Reading) (ms deadlineNs : Int) (remaining tick : Nat)
    (gen : Generator) (result : Except ClockStallReason Int) (next : Generator) (later : Nat)
    (spun : Generator.spin clock ms deadlineNs remaining tick gen = (result, next, later)) :
    gen.Ticked next ∧ tick ≤ later ∧ ∀ tsMs, result = .ok tsMs → ms < tsMs := by
  induction remaining generalizing tick gen with
  | zero =>
      cases spun
      exact ⟨gen.ticked_stall ms, le_refl _, by simp⟩
  | succ remaining ih =>
      have first := gen.ticked_now clock tick
      simp only [Generator.spin] at spun
      split at spun
      · rename_i past
        cases spun
        refine ⟨?_, Nat.le_succ _, fun tsMs same => ?_⟩
        · exact ⟨first.node, first.last, first.sequence, first.wall, first.monotonic, first.lift,
            first.offset⟩
        · cases same
          exact past
      · split at spun
        · have second := (gen.now clock tick).2.ticked_now clock (tick + 2)
          have both := first.trans second
          split at spun
          · cases spun
            exact ⟨both.trans (Generator.ticked_stall _ ms), by omega, by simp⟩
          · obtain ⟨ticked, after, past⟩ := ih _ _ spun
            exact ⟨both.trans ticked, by omega, past⟩
        · obtain ⟨ticked, after, past⟩ := ih _ _ spun
          exact ⟨first.trans ticked, by omega, past⟩

/-- How a call ends: stalled with the stamp it had, or stamping at or past the clock's reading. -/
inductive Generator.Ended (readings : Nat → Reading) (tick : Nat) (gen : Generator) :
    Except MintError String → Generator → Prop where
  | stalled (next : Generator) (reason : ClockStallReason) (ticked : gen.Ticked next) :
      Generator.Ended readings tick gen (.error (.clockStalled reason)) next
  | stamped (read : Generator) (tsMs sequence : Int) (ticked : gen.Ticked read)
      (reached : (gen.now readings tick).1 ≤ tsMs)
      (up : gen.lastMs < tsMs ∨ gen.lastMs = tsMs ∧ gen.sequence < sequence) :
      Generator.Ended readings tick gen (read.stampAt tsMs sequence).1
        (read.stampAt tsMs sequence).2

theorem Generator.generate_ended (readings : Nat → Reading) (tick : Nat) (gen : Generator) :
    gen.Ended readings tick (gen.generate readings tick).1 (gen.generate readings tick).2.1 ∧
      tick ≤ (gen.generate readings tick).2.2 := by
  have read := gen.ticked_now readings tick
  have last : (gen.now readings tick).2.lastMs = gen.lastMs := rfl
  simp only [Generator.generate]
  split
  · rename_i behind
    split
    · generalize spun : (gen.now readings tick).2.spinPast readings (tick + 1)
        (gen.now readings tick).2.lastMs = outcome
      obtain ⟨result, next, later⟩ := outcome
      obtain ⟨spinning, after, ended⟩ := Generator.spin_law _ _ _ _ _ _ _ _ _ spun
      have ticked := read.trans spinning
      cases result with
      | ok tsMs =>
          have past := ended tsMs rfl
          exact ⟨.stamped next tsMs 0 ticked (by omega) (.inl (by omega)), by dsimp only; omega⟩
      | error reason => exact ⟨.stalled next reason ticked, by dsimp only; omega⟩
    · exact ⟨.stamped _ _ _ read (by omega) (.inr ⟨rfl, Int.lt_succ _⟩), Nat.le_succ _⟩
  · exact ⟨.stamped _ _ 0 read (le_refl _) (.inl (by omega)), Nat.le_succ _⟩

/-- What a call of `generate` did: refused for a stalled clock and changed no stamp, or moved
the stamp up and answered with its encoding. -/
structure Generator.Minting (clock : Clock) (tick : Nat) (floorMs : Int) (gen : Generator)
    (result : Except MintError String) (next : Generator) (later : Nat) : Prop where
  node : next.nodeId = gen.nodeId
  after : tick ≤ later
  above : next.Above clock later floorMs
  outcome : (next.stamp = gen.stamp ∧ ∃ reason, result = .error (.clockStalled reason)) ∨
    (gen.stamp < next.stamp ∧ floorMs < next.lastMs ∧
      result = (encode next.fields).mapError .range)

theorem Generator.stamp_minting (clock : Clock) (tick later : Nat) (floorMs : Int)
    (gen read : Generator) (tsMs sequence : Int) (above : gen.Above clock tick floorMs)
    (ticked : gen.Ticked read) (after : tick ≤ later) (past : floorMs < tsMs)
    (up : gen.lastMs < tsMs ∨ gen.lastMs = tsMs ∧ gen.sequence < sequence) :
    gen.Minting clock tick floorMs (read.stampAt tsMs sequence).1 (read.stampAt tsMs sequence).2
      later where
  node := ticked.node
  after := after
  above := ⟨(ticked.above clock tick later floorMs gen read after above).base,
    (ticked.above clock tick later floorMs gen read after above).offset,
    (ticked.above clock tick later floorMs gen read after above).started⟩
  outcome := .inr ⟨Prod.Lex.toLex_lt_toLex.mpr up, past, rfl⟩

/-- Whatever the clocks read, a call moves the stamp up or refuses. -/
theorem Generator.generate_minting (clock : Clock) (tick : Nat) (floorMs : Int)
    (gen : Generator) (above : gen.Above clock tick floorMs) :
    gen.Minting clock tick floorMs (gen.generate clock.reading tick).1
      (gen.generate clock.reading tick).2.1 (gen.generate clock.reading tick).2.2 := by
  have past := gen.now_above clock tick floorMs above
  obtain ⟨ended, after⟩ := gen.generate_ended clock.reading tick
  generalize (gen.generate clock.reading tick).1 = result at ended ⊢
  generalize (gen.generate clock.reading tick).2.1 = next at ended ⊢
  cases ended with
  | stalled next reason ticked =>
      refine ⟨ticked.node, after, ticked.above clock tick _ floorMs gen next after above,
        .inl ⟨?_, reason, rfl⟩⟩
      simp only [Generator.stamp]
      rw [ticked.last, ticked.sequence]
  | stamped read tsMs sequence ticked reached up =>
      have higher : floorMs < tsMs := past.trans_le reached
      exact Generator.stamp_minting clock tick _ floorMs gen read tsMs sequence above ticked after
        higher up

/-- A generator starts above the floor it was constructed with. -/
theorem Generator.create_above (clock : Clock) (tick : Nat) (nodeId floorMs : Int)
    (gen : Generator)
    (created : Generator.create clock.reading tick nodeId (some floorMs) = .ok gen) :
    gen.Above clock tick floorMs ∧ gen.nodeId = nodeId ∧ gen.lastMs = 0 ∧ gen.sequence = 0 ∧
      0 ≤ floorMs := by
  unfold Generator.create at created
  split at created
  · cases created
  · split at created
    · cases created
    · rename_i inRange
      cases created
      simp only [Option.any_some, decide_eq_true_eq, not_or, not_lt, ge_iff_le, not_le] at inRange
      refine ⟨⟨?_, le_refl _, le_refl _⟩, rfl, rfl, rfl, inRange.1⟩
      simp only [Option.map_some, Option.getD_some]
      omega

end Commerce.Identity
