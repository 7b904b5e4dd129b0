import Commerce.Lib.JsonText

/-!
# JSON values and their texts

A JSON value is read off the front of a text in one way, once infinite numbers
are read as `null` and both zeros as zero: that is all printing forgets.
-/

set_option autoImplicit false

namespace JsonText

inductive Json where
  | null
  | bool (value : Bool)
  | number (value : Number)
  | string (value : Text)
  | array (items : List Json)
  | object (members : List (Text × Json))

def comma : CodeUnit := 0x2c
def colon : CodeUnit := 0x3a
def openBracket : CodeUnit := 0x5b
def closeBracket : CodeUnit := 0x5d
def openBrace : CodeUnit := 0x7b
def closeBrace : CodeUnit := 0x7d

mutual

def Json.print : Json → Text
  | .null => ascii "null"
  | .bool true => ascii "true"
  | .bool false => ascii "false"
  | .number (.infinite _) => ascii "null"
  | .number value => value.spell
  | .string value => quote value
  | .array [] => [openBracket, closeBracket]
  | .array (item :: items) => openBracket :: (item.print ++ printItems items)
  | .object [] => [openBrace, closeBrace]
  | .object ((key, value) :: members) =>
      openBrace :: (quote key ++ colon :: (value.print ++ printMembers members))

def printItems : List Json → Text
  | [] => [closeBracket]
  | item :: items => comma :: (item.print ++ printItems items)

def printMembers : List (Text × Json) → Text
  | [] => [closeBrace]
  | (key, value) :: members =>
      comma :: (quote key ++ colon :: (value.print ++ printMembers members))

end

mutual

/-- What printing keeps of a value. -/
def Json.plain : Json → Json
  | .number (.infinite _) => .null
  | .number value => .number value.plain
  | .array items => .array (plainItems items)
  | .object members => .object (plainMembers members)
  | value => value

def plainItems : List Json → List Json
  | [] => []
  | item :: items => item.plain :: plainItems items

def plainMembers : List (Text × Json) → List (Text × Json)
  | [] => []
  | (key, value) :: members => (key, value.plain) :: plainMembers members

end

/-- The kinds of values that differ in the first code unit of their texts. -/
inductive Shape where
  | null
  | yes
  | no
  | number
  | string
  | array
  | object
  | none
  deriving DecidableEq

def Json.shape : Json → Shape
  | .null => .null
  | .bool true => .yes
  | .bool false => .no
  | .number (.infinite _) => .null
  | .number (.zero _) => .number
  | .number (.finite _ _) => .number
  | .string _ => .string
  | .array _ => .array
  | .object _ => .object

def unitShape (unit : CodeUnit) : Shape :=
  if isNumberUnit unit then .number
  else if unit = 0x6e then .null
  else if unit = 0x74 then .yes
  else if unit = 0x66 then .no
  else if unit = quotationMark then .string
  else if unit = openBracket then .array
  else if unit = openBrace then .object
  else .none

theorem Json.print_cons (value : Json) :
    ∃ unit rest, value.print = unit :: rest ∧ unitShape unit = value.shape := by
  cases value with
  | null => exact ⟨_, _, rfl, rfl⟩
  | bool value => cases value <;> exact ⟨_, _, rfl, rfl⟩
  | string value => exact ⟨quotationMark, _, by rw [Json.print, quote], rfl⟩
  | number value =>
      cases value with
      | infinite negative => exact ⟨_, _, by simp only [Json.print]; rfl, rfl⟩
      | zero negative => exact ⟨_, _, by simp only [Json.print]; rfl, rfl⟩
      | finite negative size =>
          cases spelled : (Number.finite negative size).spell with
          | nil =>
              obtain ⟨digit, rest, text⟩ := size.parts_text_cons
              simp [Number.spell, text] at spelled
          | cons unit rest =>
              have member := (Number.finite negative size).isNumberUnit_spell rfl unit
                (by rw [spelled]; exact List.mem_cons_self)
              exact ⟨unit, rest, by rw [Json.print, spelled]; simp, by
                rw [unitShape, if_pos member, Json.shape]⟩
  | array items =>
      cases items with
      | nil => exact ⟨_, _, by rw [Json.print], rfl⟩
      | cons item items => exact ⟨_, _, by rw [Json.print], rfl⟩
  | object members =>
      cases members with
      | nil => exact ⟨_, _, by rw [Json.print], rfl⟩
      | cons member members => exact ⟨_, _, by rw [Json.print], rfl⟩

theorem Json.shape_eq (first second : Json) (rest tail : Text)
    (same : first.print ++ rest = second.print ++ tail) : first.shape = second.shape := by
  obtain ⟨unit, behind, printed, shape⟩ := first.print_cons
  obtain ⟨other, otherBehind, otherPrinted, otherShape⟩ := second.print_cons
  rw [printed, otherPrinted] at same
  rw [← shape, ← otherShape, (List.cons.inj same).1]

def Shape.Of : Shape → Json → Prop
  | .null, value => value.plain = .null ∧ value.print = ascii "null"
  | .yes, value => value = .bool true
  | .no, value => value = .bool false
  | .number, value => ∃ number, value = .number number ∧ number.isFinite = true
  | .string, value => ∃ text, value = .string text
  | .array, value => ∃ items, value = .array items
  | .object, value => ∃ members, value = .object members
  | .none, _ => False

theorem Json.shape_of (value : Json) : value.shape.Of value := by
  cases value with
  | null => exact ⟨by rw [Json.plain] <;> simp, by rw [Json.print]⟩
  | bool value => cases value <;> rfl
  | number value =>
      cases value with
      | infinite negative => exact ⟨by rw [Json.plain], by rw [Json.print]⟩
      | zero negative => exact ⟨_, rfl, rfl⟩
      | finite negative size => exact ⟨_, rfl, rfl⟩
  | string text => exact ⟨text, rfl⟩
  | array items => exact ⟨items, rfl⟩
  | object members => exact ⟨members, rfl⟩

theorem Json.print_finite (number : Number) (finite : number.isFinite = true) :
    (Json.number number).print = number.spell ∧
      (Json.number number).plain = .number number.plain := by
  cases number with
  | infinite negative => cases finite
  | zero negative => exact ⟨by rw [Json.print]; simp, by rw [Json.plain]; simp⟩
  | finite negative size => exact ⟨by rw [Json.print]; simp, by rw [Json.plain]; simp⟩

theorem Json.print_number_inj (first second : Number) (rest tail : Text)
    (firstFinite : first.isFinite = true) (secondFinite : second.isFinite = true)
    (restFollows : Follows rest) (tailFollows : Follows tail)
    (same : (Json.number first).print ++ rest = (Json.number second).print ++ tail) :
    (Json.number first).plain = (Json.number second).plain ∧ rest = tail := by
  obtain ⟨printed, plain⟩ := Json.print_finite first firstFinite
  obtain ⟨otherPrinted, otherPlain⟩ := Json.print_finite second secondFinite
  rw [printed, otherPrinted] at same
  obtain ⟨value, behind⟩ := Number.spell_append_inj first second rest tail firstFinite secondFinite
    restFollows tailFollows same
  exact ⟨by rw [plain, otherPlain, value], behind⟩

theorem Json.print_ne_close (value : Json) (rest tail : Text)
    (same : closeBracket :: rest = value.print ++ tail) : False := by
  obtain ⟨unit, behind, printed, shape⟩ := value.print_cons
  have known := value.shape_of
  rw [printed] at same
  rw [← shape, ← (List.cons.inj same).1] at known
  exact known

theorem printItems_follows (items : List Json) (rest : Text) :
    Follows (printItems items ++ rest) := by
  intro unit member
  cases items with
  | nil =>
      rw [printItems] at member
      obtain rfl : closeBracket = unit := by simpa using member
      rfl
  | cons item items =>
      rw [printItems] at member
      obtain rfl : comma = unit := by simpa using member
      rfl

theorem printMembers_follows (members : List (Text × Json)) (rest : Text) :
    Follows (printMembers members ++ rest) := by
  intro unit member
  cases members with
  | nil =>
      rw [printMembers] at member
      obtain rfl : closeBrace = unit := by simpa using member
      rfl
  | cons first members =>
      rw [printMembers] at member
      obtain rfl : comma = unit := by simpa using member
      rfl

mutual

/-- A printed value is read off the front of a text in one way. -/
theorem Json.print_append_inj : ∀ (first second : Json) (rest tail : Text), Follows rest →
    Follows tail → first.print ++ rest = second.print ++ tail →
    first.plain = second.plain ∧ rest = tail
  | .null, second, rest, tail, _, _, same => by
      have known := second.shape_of
      rw [← Json.shape_eq _ second rest tail same] at known
      obtain ⟨plain, printed⟩ := known
      rw [printed, Json.print] at same
      exact ⟨by rw [plain, Json.plain] <;> simp, List.append_cancel_left same⟩
  | .bool value, second, rest, tail, _, _, same => by
      have known := second.shape_of
      rw [← Json.shape_eq _ second rest tail same] at known
      cases value <;> obtain rfl := known <;> exact ⟨rfl, List.append_cancel_left same⟩
  | .number value, second, rest, tail, restFollows, tailFollows, same => by
      have known := second.shape_of
      rw [← Json.shape_eq _ second rest tail same] at known
      cases value with
      | infinite negative =>
          obtain ⟨plain, printed⟩ := known
          rw [printed, Json.print] at same
          exact ⟨by rw [plain, Json.plain], List.append_cancel_left same⟩
      | zero negative =>
          obtain ⟨other, rfl, finite⟩ := known
          exact Json.print_number_inj _ other rest tail rfl finite restFollows tailFollows same
      | finite negative size =>
          obtain ⟨other, rfl, finite⟩ := known
          exact Json.print_number_inj _ other rest tail rfl finite restFollows tailFollows same
  | .string value, second, rest, tail, _, _, same => by
      have known := second.shape_of
      rw [← Json.shape_eq _ second rest tail same] at known
      obtain ⟨other, rfl⟩ := known
      rw [Json.print, Json.print] at same
      obtain ⟨rfl, behind⟩ := quote_append_inj _ _ _ _ same
      exact ⟨rfl, behind⟩
  | .array [], second, rest, tail, _, _, same => by
      have known := second.shape_of
      rw [← Json.shape_eq _ second rest tail same] at known
      obtain ⟨others, rfl⟩ := known
      cases others with
      | nil => exact ⟨rfl, List.append_cancel_left same⟩
      | cons other others =>
          simp only [Json.print, List.cons_append, List.append_assoc] at same
          exact (other.print_ne_close _ _ (List.cons.inj same).2).elim
  | .array (item :: items), second, rest, tail, _, _, same => by
      have known := second.shape_of
      rw [← Json.shape_eq _ second rest tail same] at known
      obtain ⟨others, rfl⟩ := known
      cases others with
      | nil =>
          simp only [Json.print, List.cons_append, List.append_assoc] at same
          exact (item.print_ne_close _ _ (List.cons.inj same).2.symm).elim
      | cons other others =>
          rw [Json.print, Json.print, List.cons_append, List.cons_append, List.append_assoc,
            List.append_assoc] at same
          obtain ⟨head, behind⟩ := Json.print_append_inj item other _ _
            (printItems_follows items rest) (printItems_follows others tail) (List.cons.inj same).2
          obtain ⟨later, after⟩ := printItems_append_inj items others rest tail behind
          exact ⟨by rw [Json.plain, Json.plain, plainItems, plainItems, head, later], after⟩
  | .object [], second, rest, tail, _, _, same => by
      have known := second.shape_of
      rw [← Json.shape_eq _ second rest tail same] at known
      obtain ⟨others, rfl⟩ := known
      cases others with
      | nil => exact ⟨rfl, List.append_cancel_left same⟩
      | cons other others =>
          rw [Json.print, Json.print, quote] at same
          exact absurd (List.cons.inj (List.cons.inj same).2).1 (by decide)
  | .object ((key, value) :: members), second, rest, tail, _, _, same => by
      have known := second.shape_of
      rw [← Json.shape_eq _ second rest tail same] at known
      obtain ⟨others, rfl⟩ := known
      cases others with
      | nil =>
          rw [Json.print, Json.print, quote] at same
          exact absurd (List.cons.inj (List.cons.inj same).2).1 (by decide)
      | cons other others =>
          obtain ⟨otherKey, otherValue⟩ := other
          rw [Json.print, Json.print, List.cons_append, List.cons_append, List.append_assoc,
            List.append_assoc] at same
          obtain ⟨keys, behind⟩ := quote_append_inj _ _ _ _ (List.cons.inj same).2
          rw [List.cons_append, List.cons_append, List.append_assoc, List.append_assoc] at behind
          obtain ⟨head, behind⟩ := Json.print_append_inj value otherValue _ _
            (printMembers_follows members rest) (printMembers_follows others tail)
            (List.cons.inj behind).2
          obtain ⟨later, after⟩ := printMembers_append_inj members others rest tail behind
          exact ⟨by rw [Json.plain, Json.plain, plainMembers, plainMembers, keys, head, later],
            after⟩

theorem printItems_append_inj : ∀ (items others : List Json) (rest tail : Text),
    printItems items ++ rest = printItems others ++ tail →
    plainItems items = plainItems others ∧ rest = tail
  | [], others, rest, tail, same => by
      cases others with
      | nil =>
          rw [printItems] at same
          exact ⟨rfl, (List.cons.inj same).2⟩
      | cons other others =>
          rw [printItems, printItems] at same
          exact absurd (List.cons.inj same).1 (by decide)
  | item :: items, others, rest, tail, same => by
      cases others with
      | nil =>
          rw [printItems, printItems] at same
          exact absurd (List.cons.inj same).1 (by decide)
      | cons other others =>
          rw [printItems, printItems, List.cons_append, List.cons_append, List.append_assoc,
            List.append_assoc] at same
          obtain ⟨head, behind⟩ := Json.print_append_inj item other _ _
            (printItems_follows items rest) (printItems_follows others tail) (List.cons.inj same).2
          obtain ⟨later, after⟩ := printItems_append_inj items others rest tail behind
          exact ⟨by rw [plainItems, plainItems, head, later], after⟩

theorem printMembers_append_inj : ∀ (members others : List (Text × Json)) (rest tail : Text),
    printMembers members ++ rest = printMembers others ++ tail →
    plainMembers members = plainMembers others ∧ rest = tail
  | [], others, rest, tail, same => by
      cases others with
      | nil =>
          rw [printMembers] at same
          exact ⟨rfl, (List.cons.inj same).2⟩
      | cons other others =>
          rw [printMembers, printMembers] at same
          exact absurd (List.cons.inj same).1 (by decide)
  | (key, value) :: members, others, rest, tail, same => by
      cases others with
      | nil =>
          rw [printMembers, printMembers] at same
          exact absurd (List.cons.inj same).1 (by decide)
      | cons other others =>
          obtain ⟨otherKey, otherValue⟩ := other
          rw [printMembers, printMembers, List.cons_append, List.cons_append, List.append_assoc,
            List.append_assoc] at same
          obtain ⟨keys, behind⟩ := quote_append_inj _ _ _ _ (List.cons.inj same).2
          rw [List.cons_append, List.cons_append, List.append_assoc, List.append_assoc] at behind
          obtain ⟨head, behind⟩ := Json.print_append_inj value otherValue _ _
            (printMembers_follows members rest) (printMembers_follows others tail)
            (List.cons.inj behind).2
          obtain ⟨later, after⟩ := printMembers_append_inj members others rest tail behind
          exact ⟨by rw [plainMembers, plainMembers, keys, head, later], after⟩

end

mutual

/-- Printing sees only what it keeps. -/
theorem Json.print_plain : ∀ value : Json, value.plain.print = value.print
  | .null => by rw [Json.plain] <;> simp
  | .bool value => by rw [Json.plain] <;> simp
  | .string value => by rw [Json.plain] <;> simp
  | .number (.zero negative) => rfl
  | .number (.finite negative size) => rfl
  | .number (.infinite negative) => rfl
  | .array [] => rfl
  | .array (item :: items) => by
      rw [Json.plain, plainItems, Json.print, Json.print, Json.print_plain item,
        printItems_plain items]
  | .object [] => rfl
  | .object ((key, value) :: members) => by
      rw [Json.plain, plainMembers, Json.print, Json.print, Json.print_plain value,
        printMembers_plain members]

theorem printItems_plain : ∀ items : List Json, printItems (plainItems items) = printItems items
  | [] => rfl
  | item :: items => by
      rw [plainItems, printItems, printItems, Json.print_plain item, printItems_plain items]

theorem printMembers_plain : ∀ members : List (Text × Json),
    printMembers (plainMembers members) = printMembers members
  | [] => rfl
  | (key, value) :: members => by
      rw [plainMembers, printMembers, printMembers, Json.print_plain value,
        printMembers_plain members]

end

/-! ## Values up to the order of their keys -/

mutual

/-- Equal up to the order of object keys at every depth.  Numbers are compared as `===` does. -/
def Json.Same : Json → Json → Prop
  | .null, .null => True
  | .bool value, .bool other => value = other
  | .number value, .number other => value.plain = other.plain
  | .string value, .string other => value = other
  | .array items, .array others => SameItems items others
  | .object members, .object others => SameMembers members others
  | _, _ => False

def SameItems : List Json → List Json → Prop
  | [], others => others = []
  | item :: items, others =>
      ∃ other rest, others = other :: rest ∧ item.Same other ∧ SameItems items rest

def SameMembers : List (Text × Json) → List (Text × Json) → Prop
  | [], others => others = []
  | (key, value) :: members, others =>
      ∃ before other after, others = before ++ (key, other) :: after ∧ value.Same other ∧
        SameMembers members (before ++ after)

end

mutual

def Json.WellFormed : Json → Prop
  | .array items => WellFormedItems items
  | .object members => (members.map Prod.fst).Nodup ∧ WellFormedMembers members
  | _ => True

def WellFormedItems : List Json → Prop
  | [] => True
  | item :: items => item.WellFormed ∧ WellFormedItems items

def WellFormedMembers : List (Text × Json) → Prop
  | [] => True
  | (_, value) :: members => value.WellFormed ∧ WellFormedMembers members

end

theorem plainMembers_eq (members : List (Text × Json)) :
    plainMembers members = members.map (Prod.map id Json.plain) := by
  induction members with
  | nil => rfl
  | cons member members ih =>
      rw [plainMembers, ih]
      rfl

theorem wellFormedMembers_iff (members : List (Text × Json)) :
    WellFormedMembers members ↔ ∀ member ∈ members, member.2.WellFormed := by
  induction members with
  | nil => simp [WellFormedMembers]
  | cons member members ih => simp [WellFormedMembers, ih]

end JsonText
