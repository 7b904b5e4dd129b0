import Mathlib.Data.Nat.Bitwise
import Commerce.Identity.Codec

/-!
# Reading a routable id

`toRoutable` accepts canonical decimals in [2^18, 2^63) and nothing else.  On them `decode`
takes apart what `encode` put together, so every such value is the id of exactly one
triple of fields and has exactly one spelling.
-/

set_option autoImplicit false

namespace Commerce.Identity

open Results

def timestampShift : Nat := sequenceBits + nodeBits
def nodeShift : Nat := sequenceBits
def sequenceShift : Nat := 0

def nodeMask : Nat := 2 ^ nodeBits - 1
def sequenceMask : Nat := 2 ^ sequenceBits - 1

def minRoutableId : Nat := 1 <<< timestampShift
def maxValue : Nat := (1 <<< 63) - 1

/-- `CANONICAL_DECIMAL.test`: a digit from one to nine, then at most 18 digits. -/
def canonicalDecimal (value : String) : Bool :=
  match value.toList with
  | [] => false
  | first :: rest =>
      first.isDigit && first != '0' && rest.length ≤ 18 && rest.all Char.isDigit

def bigInt (digits : String) : Nat := Decimals.value digits.toList

/-- Whatever is no string is refused as well. -/
def toRoutable (value : String) : Option Nat :=
  if !canonicalDecimal value then none
  else
    let parsed := bigInt value
    if parsed ≥ minRoutableId ∧ parsed ≤ maxValue then some parsed else none

def fieldsOf (value : Nat) : SnowflakeFields where
  tsMs := (value >>> timestampShift : Nat) + epochMs
  nodeId := ((value >>> nodeShift) &&& nodeMask : Nat)
  sequence := ((value >>> sequenceShift) &&& sequenceMask : Nat)

def decode (id : String) : Except String SnowflakeFields :=
  match toRoutable id with
  | none => .error "Not a routable id: expected a canonical decimal integer in [2^18, 2^63)"
  | some value => .ok (fieldsOf value)

def isRoutableId (value : String) : Bool := (toRoutable value).isSome

/-! ## Values and their fields -/

theorem fieldsOf_eq (value : Nat) :
    fieldsOf value = ⟨(value / 2 ^ 18 : Nat) + epochMs, (value / 2 ^ 10 % 2 ^ 8 : Nat),
      (value % 2 ^ 10 : Nat)⟩ := by
  have node : (value >>> nodeShift) &&& nodeMask = value / 2 ^ 10 % 2 ^ 8 := by
    rw [nodeMask, Nat.and_two_pow_sub_one_eq_mod, Nat.shiftRight_eq_div_pow]
    rfl
  have sequence : (value >>> sequenceShift) &&& sequenceMask = value % 2 ^ 10 := by
    rw [sequenceMask, Nat.and_two_pow_sub_one_eq_mod]
    rfl
  rw [fieldsOf, node, sequence, Nat.shiftRight_eq_div_pow]
  rfl

theorem fieldsOf_value (fields : SnowflakeFields) (inRange : fields.InRange) :
    fieldsOf fields.value = fields := by
  have packed := value_eq fields inRange
  obtain ⟨ts, node, sequence⟩ := inRange
  simp only [minTimestampMs, nodeCount, sequenceCount, nodeBits, sequenceBits] at ts node sequence
  rw [fieldsOf_eq]
  rcases fields with ⟨tsMs, nodeId, sequenceNumber⟩
  simp only at packed ts node sequence
  rw [SnowflakeFields.mk.injEq]
  refine ⟨?_, ?_, ?_⟩ <;> omega

def Routable (value : Nat) : Prop := minRoutableId ≤ value ∧ value ≤ maxValue

theorem routable_iff (value : Nat) : Routable value ↔ 2 ^ 18 ≤ value ∧ value < 2 ^ 63 := by
  unfold Routable
  have least : minRoutableId = 2 ^ 18 := rfl
  have greatest : maxValue = 2 ^ 63 - 1 := rfl
  rw [least, greatest]
  omega

/-- A value is an id's exactly when it packs fields in range. -/
theorem routable_value (fields : SnowflakeFields) (inRange : fields.InRange) :
    Routable fields.value := by
  have packed := value_eq fields inRange
  obtain ⟨ts, node, sequence⟩ := inRange
  simp only [minTimestampMs, maxTimestampMs, timestampBits, nodeCount, sequenceCount, nodeBits,
    sequenceBits] at ts node sequence
  rw [routable_iff]
  omega

theorem inRange_fieldsOf (value : Nat) (routable : Routable value) : (fieldsOf value).InRange := by
  obtain ⟨least, greatest⟩ := (routable_iff value).mp routable
  rw [fieldsOf_eq]
  constructor
  · simp only [minTimestampMs, maxTimestampMs, timestampBits]
    omega
  · simp only [nodeCount, nodeBits]
    omega
  · simp only [sequenceCount, sequenceBits]
    omega

/-- Putting the fields of a value together gives the value back. -/
theorem value_fieldsOf (value : Nat) (routable : Routable value) :
    (fieldsOf value).value = value := by
  have packed := value_eq (fieldsOf value) (inRange_fieldsOf value routable)
  rw [fieldsOf_eq] at packed ⊢
  simp only at packed
  omega

/-! ## Spellings -/

theorem canonicalDecimal_iff (text : String) :
    canonicalDecimal text = true ↔ Decimals.Canonical text.toList ∧ text.toList.length ≤ 19 := by
  unfold canonicalDecimal
  cases spelled : text.toList with
  | nil =>
      constructor
      · intro accepted
        cases accepted
      · rintro ⟨⟨-, first, rest, same, -⟩, -⟩
        cases same
  | cons first rest =>
      simp only [Bool.and_eq_true, bne_iff_ne, decide_eq_true_eq, List.all_eq_true,
        List.length_cons]
      constructor
      · rintro ⟨⟨⟨digit, nonzero⟩, short⟩, digits⟩
        refine ⟨⟨?_, first, rest, rfl, nonzero⟩, by omega⟩
        intro other member
        rcases List.mem_cons.mp member with rfl | later
        · exact digit
        · exact digits other later
      · rintro ⟨⟨digits, head, tail, same, nonzero⟩, short⟩
        obtain ⟨rfl, -⟩ := List.cons.inj same
        refine ⟨⟨⟨digits first (by simp), nonzero⟩, by omega⟩, ?_⟩
        intro other later
        exact digits other (List.mem_cons_of_mem first later)

/-- An accepted string is the decimal spelling of a value in range, and every such spelling
is accepted. -/
theorem toRoutable_eq_some (text : String) (value : Nat) :
    toRoutable text = some value ↔ Routable value ∧ text = toString value := by
  unfold toRoutable
  constructor
  · intro accepted
    split at accepted
    · cases accepted
    · rename_i canonical
      dsimp only at accepted
      split at accepted
      · rename_i within
        have same := Option.some.inj accepted
        rw [Bool.not_eq_true', Bool.not_eq_false] at canonical
        obtain ⟨digits, -⟩ := (canonicalDecimal_iff text).mp canonical
        rw [← same]
        exact ⟨within, (Decimals.toString_value text digits).symm⟩
      · cases accepted
  · rintro ⟨routable, rfl⟩
    obtain ⟨least, greatest⟩ := (routable_iff value).mp routable
    have short : (toString value).toList.length ≤ 19 :=
      (Decimals.length_toString value 19 (by decide)).mpr (by omega)
    have canonical : canonicalDecimal (toString value) = true :=
      (canonicalDecimal_iff _).mpr ⟨Decimals.canonical_toString value (by omega), short⟩
    have parsed : bigInt (toString value) = value := Decimals.value_toString value
    rw [canonical, parsed]
    exact if_pos routable

theorem decode_ok (id : String) (fields : SnowflakeFields) :
    decode id = .ok fields ↔ ∃ value, toRoutable id = some value ∧ fields = fieldsOf value := by
  unfold decode
  cases toRoutable id with
  | none => simp
  | some value => simp [eq_comm]

/-! ## The codec -/

def SnowflakeFields.Before (first second : SnowflakeFields) : Prop :=
  first.tsMs < second.tsMs ∨ first.tsMs = second.tsMs ∧
    (first.nodeId < second.nodeId ∨ first.nodeId = second.nodeId ∧ first.sequence < second.sequence)

theorem value_lt_iff (first second : SnowflakeFields) (firstRange : first.InRange)
    (secondRange : second.InRange) : first.value < second.value ↔ first.Before second := by
  have one := value_eq first firstRange
  have other := value_eq second secondRange
  obtain ⟨-, node, sequence⟩ := firstRange
  obtain ⟨-, node', sequence'⟩ := secondRange
  simp only [nodeCount, sequenceCount, nodeBits, sequenceBits] at node sequence node' sequence'
  unfold SnowflakeFields.Before
  omega

/-- What is encoded is read back, what is accepted is spelled back, ids sort as their fields
do, and a value has one accepted spelling. -/
structure CodecLaw : Prop where
  encodes : ∀ fields : SnowflakeFields, (∃ id, encode fields = .ok id) ↔ fields.InRange
  readBack : ∀ fields id, encode fields = .ok id → decode id = .ok fields
  accepts : ∀ id, isRoutableId id = true ↔ ∃ fields, decode id = .ok fields
  spelledBack : ∀ id fields, decode id = .ok fields → encode fields = .ok id
  ordered : ∀ first second one other, encode first = .ok one → encode second = .ok other →
    (bigInt one < bigInt other ↔ first.Before second)
  oneSpelling : ∀ value, 2 ^ 18 ≤ value → value < 2 ^ 63 → ∃! id, toRoutable id = some value
  inRange : ∀ id value, toRoutable id = some value →
    2 ^ 18 ≤ value ∧ value < 2 ^ 63 ∧ bigInt id = value

theorem routable_id_codec : CodecLaw where
  encodes := by
    intro fields
    constructor
    · rintro ⟨id, encoded⟩
      exact ((encode_ok fields id).mp encoded).1
    · intro inRange
      exact ⟨toString fields.value, (encode_ok fields _).mpr ⟨inRange, rfl⟩⟩
  readBack := by
    intro fields id encoded
    obtain ⟨inRange, spelled⟩ := (encode_ok fields id).mp encoded
    have accepted := (toRoutable_eq_some id fields.value).mpr
      ⟨routable_value fields inRange, spelled⟩
    exact (decode_ok id fields).mpr ⟨fields.value, accepted, (fieldsOf_value fields inRange).symm⟩
  accepts := by
    intro id
    rw [isRoutableId, Option.isSome_iff_exists]
    constructor
    · rintro ⟨value, accepted⟩
      exact ⟨fieldsOf value, (decode_ok id _).mpr ⟨value, accepted, rfl⟩⟩
    · rintro ⟨fields, decoded⟩
      obtain ⟨value, accepted, -⟩ := (decode_ok id fields).mp decoded
      exact ⟨value, accepted⟩
  spelledBack := by
    intro id fields decoded
    obtain ⟨value, accepted, rfl⟩ := (decode_ok id fields).mp decoded
    obtain ⟨routable, spelled⟩ := (toRoutable_eq_some id value).mp accepted
    apply (encode_ok _ id).mpr
    rw [value_fieldsOf value routable]
    exact ⟨inRange_fieldsOf value routable, spelled⟩
  ordered := by
    intro first second one other firstEncoded secondEncoded
    obtain ⟨firstRange, rfl⟩ := (encode_ok first one).mp firstEncoded
    obtain ⟨secondRange, rfl⟩ := (encode_ok second other).mp secondEncoded
    rw [bigInt, bigInt, Decimals.value_toString, Decimals.value_toString]
    exact value_lt_iff first second firstRange secondRange
  oneSpelling := by
    intro value least greatest
    have routable := (routable_iff value).mpr ⟨least, greatest⟩
    refine ⟨toString value, (toRoutable_eq_some _ value).mpr ⟨routable, rfl⟩, ?_⟩
    intro id accepted
    exact ((toRoutable_eq_some id value).mp accepted).2
  inRange := by
    intro id value accepted
    obtain ⟨routable, rfl⟩ := (toRoutable_eq_some id value).mp accepted
    obtain ⟨least, greatest⟩ := (routable_iff value).mp routable
    exact ⟨least, greatest, Decimals.value_toString value⟩

/-- The frozen wire format. -/
example : (encode ⟨1800000000000, 173, 731⟩).toOption = some "8591612313777883" ∧
    (decode "8591612313777883").toOption = some ⟨1800000000000, 173, 731⟩ := by
  decide +kernel

end Commerce.Identity
