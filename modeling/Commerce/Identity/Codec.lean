import Mathlib.Algebra.Ring.Int.Defs
import Mathlib.Tactic.Common
import Mathlib.Data.Nat.Bits
import Commerce.Lib.Decimals
import Commerce.Lib.Results

/-!
# Snowflake codec

An id is the decimal spelling of 45 bits of time, 8 bits of node and 10 bits of
sequence.  Fields out of range are refused, so spellings determine the fields.
-/

set_option autoImplicit false

namespace Commerce.Identity

open Results

def epochMs : Int := 1767225600000

def timestampBits : Nat := 45
def nodeBits : Nat := 8
def sequenceBits : Nat := 10

def nodeCount : Int := 2 ^ nodeBits
def sequenceCount : Int := 2 ^ sequenceBits

def maxTimestampMs : Int := epochMs + 2 ^ timestampBits - 1
/-- The epoch millisecond itself is not encodable. -/
def minTimestampMs : Int := epochMs + 1

structure SnowflakeFields where
  tsMs : Int
  nodeId : Int
  sequence : Int
  deriving DecidableEq

def assertField (name : String) (value min max : Int) : Except String Unit :=
  if value < min ∨ value > max then
    .error s!"Snowflake {name} must be an integer in [{min}, {max}]"
  else .ok ()

def SnowflakeFields.value (fields : SnowflakeFields) : Nat :=
  ((fields.tsMs - epochMs).toNat <<< (sequenceBits + nodeBits)) |||
    (fields.nodeId.toNat <<< sequenceBits) ||| (fields.sequence.toNat <<< 0)

def encode (fields : SnowflakeFields) : Except String String := do
  assertField "tsMs" fields.tsMs minTimestampMs maxTimestampMs
  assertField "nodeId" fields.nodeId 0 (nodeCount - 1)
  assertField "sequence" fields.sequence 0 (sequenceCount - 1)
  .ok (toString fields.value)

structure SnowflakeFields.InRange (fields : SnowflakeFields) : Prop where
  ts : minTimestampMs ≤ fields.tsMs ∧ fields.tsMs ≤ maxTimestampMs
  node : 0 ≤ fields.nodeId ∧ fields.nodeId < nodeCount
  sequence : 0 ≤ fields.sequence ∧ fields.sequence < sequenceCount

theorem assertField_ok (name : String) (value min max : Int) (done : Unit) :
    assertField name value min max = .ok done ↔ min ≤ value ∧ value ≤ max := by
  rw [assertField]
  split
  · refine iff_of_false (by simp) ?_
    omega
  · exact iff_of_true rfl (by omega)

theorem encode_ok (fields : SnowflakeFields) (id : String) :
    encode fields = .ok id ↔ fields.InRange ∧ id = toString fields.value := by
  simp only [encode, bind_eq_ok, assertField_ok, exists_const]
  constructor
  · rintro ⟨ts, node, sequence, same⟩
    exact ⟨⟨ts, by omega, by omega⟩, (Except.ok.inj same).symm⟩
  · rintro ⟨⟨ts, node, sequence⟩, rfl⟩
    exact ⟨ts, by omega, by omega, rfl⟩

/-- In range the three fields do not overlap. -/
theorem value_eq (fields : SnowflakeFields) (inRange : fields.InRange) :
    (fields.value : Int) =
      (fields.tsMs - epochMs) * 2 ^ 18 + fields.nodeId * 2 ^ 10 + fields.sequence := by
  obtain ⟨ts, node, sequence⟩ := inRange
  simp only [minTimestampMs, nodeCount, sequenceCount, nodeBits, sequenceBits] at ts node sequence
  have low : fields.sequence.toNat <<< 0 < 2 ^ 10 := by
    rw [Nat.shiftLeft_zero]
    omega
  have middle : fields.nodeId.toNat <<< 10 ||| fields.sequence.toNat <<< 0 =
      fields.nodeId.toNat * 2 ^ 10 + fields.sequence.toNat := by
    rw [← Nat.shiftLeft_add_eq_or_of_lt low, Nat.shiftLeft_eq, Nat.shiftLeft_zero]
  have high : fields.nodeId.toNat * 2 ^ 10 + fields.sequence.toNat < 2 ^ 18 := by omega
  rw [SnowflakeFields.value, Nat.or_assoc, sequenceBits, nodeBits, middle,
    ← Nat.shiftLeft_add_eq_or_of_lt high, Nat.shiftLeft_eq]
  omega

/-- Two encodings are equal only when their fields are. -/
theorem encode_injective (first second : SnowflakeFields) (id : String)
    (one : encode first = .ok id) (other : encode second = .ok id) : first = second := by
  obtain ⟨firstRange, rfl⟩ := (encode_ok first id).mp one
  obtain ⟨secondRange, spelled⟩ := (encode_ok second _).mp other
  have same := Decimals.toString_inj _ _ spelled
  have one := value_eq first firstRange
  have other := value_eq second secondRange
  obtain ⟨ts, node, sequence⟩ := firstRange
  obtain ⟨ts', node', sequence'⟩ := secondRange
  simp only [nodeCount, sequenceCount, nodeBits, sequenceBits] at node sequence node' sequence'
  rw [same] at one
  have : first.tsMs = second.tsMs ∧ first.nodeId = second.nodeId ∧
      first.sequence = second.sequence := by
    refine ⟨?_, ?_, ?_⟩ <;> omega
  rcases first with ⟨firstTs, firstNode, firstSequence⟩
  simp only at this
  obtain ⟨rfl, rfl, rfl⟩ := this
  rfl

end Commerce.Identity
