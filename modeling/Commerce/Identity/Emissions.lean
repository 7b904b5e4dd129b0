import Commerce.Identity.Generator

/-!
# The ids of one generator

The calls one generator answers, whatever its clocks read.  Each call either
leaves the stamp alone and refuses, or moves it up, so the ids it returns come
in order across calls that refused.  The floor is kept by clocks whose steady
reading does not fall below the one the generator was constructed with.
-/

set_option autoImplicit false

namespace Commerce.Identity

structure MintCall where
  result : Except MintError String
  gen : Generator

def Generator.calls (readings : Nat → Reading) : Nat → Nat → Generator → List MintCall
  | 0, _, _ => []
  | more + 1, tick, gen =>
      let (result, next, later) := gen.generate readings tick
      { result, gen := next } :: Generator.calls readings more later next

/-- The call has returned this id, the spelling of the stamp it left on the generator. -/
def MintCall.Returned (call : MintCall) (id : String) : Prop :=
  call.result = .ok id ∧ encode call.gen.fields = .ok id

def MintCall.Below (early late : MintCall) : Prop :=
  ∀ first second, early.result = .ok first → late.result = .ok second →
    early.Returned first ∧ late.Returned second ∧ early.gen.stamp < late.gen.stamp ∧
      early.gen.fields.value < late.gen.fields.value

/-! ## One call -/

section Ended

variable {readings : Nat → Reading} {tick : Nat} {gen next : Generator}
  {result : Except MintError String}

theorem Generator.Ended.node (ended : gen.Ended readings tick result next) :
    next.nodeId = gen.nodeId := by
  cases ended with
  | stalled next reason ticked => exact ticked.node
  | stamped read tsMs sequence ticked => exact ticked.node

theorem Generator.Ended.stamp_le (ended : gen.Ended readings tick result next) :
    gen.stamp ≤ next.stamp := by
  cases ended with
  | stalled next reason ticked =>
      simp only [Generator.stamp]
      rw [ticked.last, ticked.sequence]
  | stamped read tsMs sequence ticked reached up => exact (Prod.Lex.toLex_lt_toLex.mpr up).le

theorem Generator.Ended.returned (ended : gen.Ended readings tick result next) (id : String)
    (ok : result = .ok id) : gen.stamp < next.stamp ∧ encode next.fields = .ok id := by
  cases ended with
  | stalled next reason ticked => cases ok
  | stamped read tsMs sequence ticked reached up =>
      refine ⟨Prod.Lex.toLex_lt_toLex.mpr up, ?_⟩
      exact Results.mapError_eq_ok.mp ok

end Ended

/-! ## The floor -/

/-- The clock base is above the floor, and the steady reading stays at or above its origin. -/
structure Generator.Lifted (readings : Nat → Reading) (tick : Nat) (floorMs : Int)
    (gen : Generator) : Prop where
  base : floorMs < gen.originWallMs + gen.liftMs
  offset : 0 ≤ gen.offsetMs
  steady : ∀ look, tick ≤ look → gen.originMonotonicMs ≤ (readings look).monotonicMs

theorem Generator.Lifted.past {readings : Nat → Reading} {tick : Nat} {floorMs : Int}
    {gen : Generator} (lifted : gen.Lifted readings tick floorMs) :
    floorMs < (gen.now readings tick).1 := by
  have base := lifted.base
  have offset := lifted.offset
  have here := lifted.steady tick (Nat.le_refl tick)
  simp only [Generator.now]
  split <;> omega

theorem Generator.Lifted.ticked {readings : Nat → Reading} {tick later : Nat} {floorMs : Int}
    {gen next : Generator} (lifted : gen.Lifted readings tick floorMs) (after : tick ≤ later)
    (ticked : gen.Ticked next) : next.Lifted readings later floorMs where
  base := by
    rw [ticked.wall, ticked.lift]
    exact lifted.base
  offset := lifted.offset.trans ticked.offset
  steady look from' := by
    rw [ticked.monotonic]
    exact lifted.steady look (after.trans from')

/-- A call keeps the base above the floor, and stamps only above it. -/
theorem Generator.Lifted.ended {readings : Nat → Reading} {tick later : Nat} {floorMs : Int}
    {gen next : Generator} {result : Except MintError String}
    (lifted : gen.Lifted readings tick floorMs) (after : tick ≤ later)
    (ended : gen.Ended readings tick result next) :
    next.Lifted readings later floorMs ∧ ∀ id, result = .ok id → floorMs < next.lastMs := by
  cases ended with
  | stalled next reason ticked => exact ⟨lifted.ticked after ticked, fun id ok => by cases ok⟩
  | stamped read tsMs sequence ticked reached up =>
      have still := lifted.ticked after ticked
      exact ⟨⟨still.base, still.offset, still.steady⟩, fun id ok => lifted.past.trans_le reached⟩

/-! ## All calls -/

theorem Generator.calls_from (readings : Nat → Reading) (count tick : Nat) (gen : Generator) :
    ∀ call ∈ gen.calls readings count tick, call.gen.nodeId = gen.nodeId ∧
      gen.stamp ≤ call.gen.stamp ∧
      ∀ id, call.result = .ok id → call.Returned id ∧ gen.stamp < call.gen.stamp := by
  induction count generalizing tick gen with
  | zero =>
      intro call member
      cases member
  | succ more ih =>
      obtain ⟨ended, -⟩ := gen.generate_ended readings tick
      intro call member
      rcases List.mem_cons.mp member with rfl | later
      · refine ⟨ended.node, ended.stamp_le, fun id ok => ?_⟩
        obtain ⟨up, encoded⟩ := ended.returned id ok
        exact ⟨⟨ok, encoded⟩, up⟩
      · obtain ⟨node, up, returned⟩ := ih _ _ call later
        refine ⟨node.trans ended.node, ended.stamp_le.trans up, fun id ok => ?_⟩
        obtain ⟨spelled, above⟩ := returned id ok
        exact ⟨spelled, ended.stamp_le.trans_lt above⟩

theorem value_lt_of_stamp_lt (early late : Generator) (first second : String)
    (node : early.nodeId = late.nodeId) (up : early.stamp < late.stamp)
    (one : encode early.fields = .ok first) (other : encode late.fields = .ok second) :
    early.fields.value < late.fields.value := by
  obtain ⟨low, -⟩ := (encode_ok _ _).mp one
  obtain ⟨high, -⟩ := (encode_ok _ _).mp other
  have lowValue := value_eq _ low
  have highValue := value_eq _ high
  have lowSequence := low.sequence
  have highSequence := high.sequence
  have ordered := Prod.Lex.toLex_lt_toLex.mp up
  simp only [Generator.fields, sequenceCount, sequenceBits] at *
  rcases ordered with later | ⟨same, after⟩ <;> omega

/-- Across all calls of a generator, those that refused included, its ids only go up. -/
theorem Generator.calls_pairwise (readings : Nat → Reading) (count tick : Nat)
    (gen : Generator) : (gen.calls readings count tick).Pairwise MintCall.Below := by
  induction count generalizing tick gen with
  | zero => exact .nil
  | succ more ih =>
      obtain ⟨ended, -⟩ := gen.generate_ended readings tick
      refine List.pairwise_cons.mpr ⟨?_, ih _ _⟩
      intro late member first second one other
      obtain ⟨node, -, returned⟩ := Generator.calls_from _ _ _ _ late member
      obtain ⟨spelled, up⟩ := returned second other
      have encoded := (ended.returned first one).2
      exact ⟨⟨one, encoded⟩, spelled, up,
        value_lt_of_stamp_lt _ _ first second node.symm up encoded spelled.2⟩

theorem Generator.calls_lifted (readings : Nat → Reading) (floorMs : Int) (count tick : Nat)
    (gen : Generator) (lifted : gen.Lifted readings tick floorMs) :
    ∀ call ∈ gen.calls readings count tick, ∀ id, call.result = .ok id →
      floorMs < call.gen.lastMs := by
  induction count generalizing tick gen with
  | zero =>
      intro call member
      cases member
  | succ more ih =>
      obtain ⟨ended, after⟩ := gen.generate_ended readings tick
      obtain ⟨still, past⟩ := lifted.ended after ended
      intro call member
      rcases List.mem_cons.mp member with rfl | later
      · exact past
      · exact ih _ _ still call later

theorem Generator.create_lifted (readings : Nat → Reading) (tick : Nat) (nodeId floorMs : Int)
    (gen : Generator) (created : Generator.create readings tick nodeId (some floorMs) = .ok gen)
    (steady : ∀ look, tick ≤ look → (readings tick).monotonicMs ≤ (readings look).monotonicMs) :
    gen.Lifted readings tick floorMs := by
  rw [Generator.create] at created
  split at created
  · cases created
  · split at created
    · cases created
    · cases created
      refine ⟨?_, le_refl _, steady⟩
      simp only [Option.map_some, Option.getD_some]
      omega

theorem Generator.create_node (readings : Nat → Reading) (tick : Nat) (nodeId : Int)
    (floorMs : Option Int) (gen : Generator)
    (created : Generator.create readings tick nodeId floorMs = .ok gen) : gen.nodeId = nodeId := by
  rw [Generator.create] at created
  split at created
  · cases created
  · split at created
    · cases created
    · cases created
      rfl

/-- Whatever the clocks read, a generator's ids spell its node and stamps in order, none twice;
a call that refuses stays between the ids before and after it; and no stamp is at or under the
floor while the steady clock has not fallen below its first reading. -/
theorem emitted_in_order (readings : Nat → Reading) (tick : Nat) (nodeId : Int)
    (floorMs : Option Int) (gen : Generator)
    (created : Generator.create readings tick nodeId floorMs = .ok gen) (count : Nat) :
    (gen.calls readings count (tick + 1)).Pairwise MintCall.Below ∧
      (∀ call ∈ gen.calls readings count (tick + 1), ∀ id, call.result = .ok id →
        call.Returned id ∧ call.gen.nodeId = nodeId) ∧
      (∀ before refused after error,
        gen.calls readings count (tick + 1) = before ++ refused :: after →
        refused.result = .error error →
        ∀ early ∈ before, ∀ late ∈ after, early.Below late) ∧
      ∀ floor, floorMs = some floor →
        (∀ look, tick ≤ look → (readings tick).monotonicMs ≤ (readings look).monotonicMs) →
        ∀ call ∈ gen.calls readings count (tick + 1), ∀ id, call.result = .ok id →
          floor < call.gen.lastMs := by
  have ordered := gen.calls_pairwise readings count (tick + 1)
  refine ⟨ordered, ?_, ?_, ?_⟩
  · intro call member id ok
    obtain ⟨node, -, returned⟩ := Generator.calls_from _ _ _ _ call member
    exact ⟨(returned id ok).1, node.trans (Generator.create_node _ _ _ _ _ created)⟩
  · intro before refused after error split _ early first late last
    rw [split] at ordered
    exact (List.pairwise_append.mp ordered).2.2 early first late (List.mem_cons_of_mem _ last)
  · intro floor given steady
    rw [given] at created
    have lifted := Generator.create_lifted readings tick nodeId floor gen created steady
    exact gen.calls_lifted readings floor count (tick + 1)
      ⟨lifted.base, lifted.offset, fun look from' => lifted.steady look (by omega)⟩

def evenReadings (look : Nat) : Reading :=
  { wallMs := epochMs + 1000 + look
    monotonicMs := 500 + look
    elapsedNs := look * 1000000 }

theorem emitted_in_order_lifted :
    ∃ gen, Generator.create evenReadings 0 7 (some (epochMs + 5000)) = .ok gen ∧
      (gen.calls evenReadings 3 1).map (·.result.toOption) =
        [some "1311251456", some "1311513600", some "1311775744"] ∧
      (gen.calls evenReadings 3 1).Pairwise MintCall.Below ∧
      ∀ call ∈ gen.calls evenReadings 3 1, ∀ id, call.result = .ok id →
        epochMs + 5000 < call.gen.lastMs := by
  have steady : ∀ look, 0 ≤ look →
      (evenReadings 0).monotonicMs ≤ (evenReadings look).monotonicMs := by
    intro look _
    simp only [evenReadings]
    omega
  obtain ⟨ordered, -, -, above⟩ := emitted_in_order evenReadings 0 7 (some (epochMs + 5000)) _ rfl 3
  exact ⟨_, rfl, by decide +kernel, ordered, above (epochMs + 5000) rfl steady⟩

/-- A steady clock that falls ten milliseconds below its first reading, the wall clock behind. -/
def fallingReadings (look : Nat) : Reading :=
  { wallMs := epochMs + 1
    monotonicMs := if look = 0 then 1000 else 990
    elapsedNs := 0 }

/-- The floor is not kept by every sequence of readings: this generator's first id is under it. -/
theorem fallen_clock_stamps_under_floor :
    (Generator.create fallingReadings 0 7 (some (epochMs + 5000))).toOption.map
        (fun gen => (gen.calls fallingReadings 1 1).map
          fun call => (call.result.toOption, call.gen.lastMs)) =
      some [(some "1308367872", epochMs + 4991)] ∧ epochMs + 4991 ≤ epochMs + 5000 := by
  decide +kernel

end Commerce.Identity
