import Mathlib.Data.List.Lex
import Mathlib.Data.Nat.Digits.Lemmas
import Mathlib.Order.Fin.Basic
import Mathlib.Tactic.Common

/-!
# The texts of JSON strings and numbers

Texts are sequences of UTF-16 code units, lone surrogates included.  Strings
are quoted as `QuoteJSONString` does and numbers spelled as `Number::toString`
does.  Either is read off the front of a longer text in one way only.
-/

set_option autoImplicit false

namespace JsonText

abbrev CodeUnit := Fin 65536

instance neZero_codeUnits : NeZero 65536 := ⟨by decide⟩

instance neZero_digits : NeZero 10 := ⟨by decide⟩

abbrev Text := List CodeUnit

def ascii (spelled : String) : Text := spelled.toList.map fun char => Fin.ofNat 65536 char.toNat

theorem span_inj {α : Type} (kind : α → Bool) (front other rest tail : List α)
    (frontKind : ∀ unit ∈ front, kind unit = true) (otherKind : ∀ unit ∈ other, kind unit = true)
    (restStops : ∀ unit ∈ rest.head?, kind unit = false)
    (tailStops : ∀ unit ∈ tail.head?, kind unit = false)
    (same : front ++ rest = other ++ tail) : front = other ∧ rest = tail := by
  have taken (front rest : List α) (frontKind : ∀ unit ∈ front, kind unit = true)
      (stops : ∀ unit ∈ rest.head?, kind unit = false) :
      (front ++ rest).takeWhile kind = front := by
    rw [List.takeWhile_append_of_pos frontKind]
    cases rest with
    | nil => exact List.append_nil _
    | cons unit rest =>
        rw [List.takeWhile_cons, stops unit rfl]
        exact List.append_nil _
  have fronts := congrArg (List.takeWhile kind) same
  rw [taken front rest frontKind restStops, taken other tail otherKind tailStops] at fronts
  subst fronts
  exact ⟨rfl, List.append_cancel_left same⟩

/-! ## Strings -/

def quotationMark : CodeUnit := 0x22
def backslash : CodeUnit := 0x5c

def isLead (unit : CodeUnit) : Bool := decide (0xd800 ≤ unit ∧ unit ≤ 0xdbff)
def isTrail (unit : CodeUnit) : Bool := decide (0xdc00 ≤ unit ∧ unit ≤ 0xdfff)

def shortEscapes : List (CodeUnit × CodeUnit) :=
  [(0x08, 0x62), (0x09, 0x74), (0x0a, 0x6e), (0x0c, 0x66), (0x0d, 0x72),
    (quotationMark, quotationMark), (backslash, backslash)]

def hexDigit (digit : Nat) : CodeUnit :=
  Fin.ofNat 65536 (if digit < 10 then 0x30 + digit else 0x57 + digit)

def hexValue (unit : CodeUnit) : Nat := if unit.val < 0x40 then unit.val - 0x30 else unit.val - 0x57

def unicodeEscape (unit : CodeUnit) : Text :=
  [backslash, 0x75, hexDigit (unit.val / 4096), hexDigit (unit.val / 256 % 16),
    hexDigit (unit.val / 16 % 16), hexDigit (unit.val % 16)]

/-- One code unit that is no half of a surrogate pair. -/
def escapeUnit (unit : CodeUnit) : Text :=
  match shortEscapes.find? fun entry => entry.1 == unit with
  | some entry => [backslash, entry.2]
  | none =>
      if unit < 0x20 || isLead unit || isTrail unit then unicodeEscape unit else [unit]

def quoteUnits : Text → Text
  | [] => []
  | [unit] => escapeUnit unit
  | lead :: trail :: rest =>
      if isLead lead && isTrail trail then lead :: trail :: quoteUnits rest
      else escapeUnit lead ++ quoteUnits (trail :: rest)

def quote (value : Text) : Text := quotationMark :: (quoteUnits value ++ [quotationMark])

/-- The code unit a quoted text starts with, and what follows it. -/
def readUnit : Text → Option (CodeUnit × Text)
  | [] => none
  | unit :: rest =>
      if unit = quotationMark then none
      else if unit = backslash then
        match rest with
        | [] => none
        | letter :: rest =>
            if letter = 0x75 then
              match rest with
              | first :: second :: third :: fourth :: rest =>
                  some
                    (Fin.ofNat 65536 (hexValue first * 4096 + hexValue second * 256 +
                      hexValue third * 16 + hexValue fourth), rest)
              | _ => none
            else
              (shortEscapes.find? fun entry => entry.2 == letter).map fun entry => (entry.1, rest)
      else some (unit, rest)

theorem hexValue_hexDigit (digit : Nat) (small : digit < 16) :
    hexValue (hexDigit digit) = digit := by
  interval_cases digit <;> rfl

theorem readUnit_unicodeEscape (unit : CodeUnit) (rest : Text) :
    readUnit (unicodeEscape unit ++ rest) = some (unit, rest) := by
  have bound := unit.isLt
  have value : hexValue (hexDigit (unit.val / 4096)) * 4096 +
      hexValue (hexDigit (unit.val / 256 % 16)) * 256 +
      hexValue (hexDigit (unit.val / 16 % 16)) * 16 + hexValue (hexDigit (unit.val % 16)) =
        unit.val := by
    rw [hexValue_hexDigit _ (by omega), hexValue_hexDigit _ (by omega),
      hexValue_hexDigit _ (by omega), hexValue_hexDigit _ (by omega)]
    omega
  have mark : backslash ≠ quotationMark := by decide
  simp only [unicodeEscape, List.cons_append, List.nil_append, readUnit, mark, if_true, if_false]
  rw [value, Fin.ofNat_eq_cast, Fin.cast_val_eq_self]

theorem readUnit_raw (unit : CodeUnit) (rest : Text) (notMark : unit ≠ quotationMark)
    (notBackslash : unit ≠ backslash) : readUnit (unit :: rest) = some (unit, rest) := by
  simp [readUnit, notMark, notBackslash]

theorem readUnit_escapeUnit (unit : CodeUnit) (rest : Text) :
    readUnit (escapeUnit unit ++ rest) = some (unit, rest) := by
  have letters : ∀ entry ∈ shortEscapes, ∀ rest : Text,
      readUnit (backslash :: entry.2 :: rest) = some (entry.1, rest) := by
    intro entry member rest
    simp only [shortEscapes, List.mem_cons, List.not_mem_nil, or_false] at member
    rcases member with rfl | rfl | rfl | rfl | rfl | rfl | rfl <;> rfl
  simp only [escapeUnit]
  split
  · rename_i entry found
    have read := letters entry (List.mem_of_find?_eq_some found) rest
    have same : entry.1 = unit := by simpa using List.find?_some found
    rw [same] at read
    exact read
  · rename_i absent
    split
    · exact readUnit_unicodeEscape unit rest
    · refine readUnit_raw unit rest ?_ ?_ <;> rintro rfl <;> simp [shortEscapes] at absent

inductive Reads : Text → Text → Text → Prop where
  | stop (rest : Text) : Reads (quotationMark :: rest) [] rest
  | unit (spelled next value rest : Text) (unit : CodeUnit)
      (read : readUnit spelled = some (unit, next)) (reads : Reads next value rest) :
      Reads spelled (unit :: value) rest

theorem Reads.unique {spelled value other rest tail : Text} (one : Reads spelled value rest)
    (two : Reads spelled other tail) : value = other ∧ rest = tail := by
  induction one generalizing other with
  | stop rest =>
      cases two with
      | stop => exact ⟨rfl, rfl⟩
      | unit spelled next value rest unit read => simp [readUnit] at read
  | unit spelled next value rest unit read reads ih =>
      cases two with
      | stop => simp [readUnit] at read
      | unit spelled later found tail unit again readsLater =>
          cases Option.some.inj (read.symm.trans again)
          obtain ⟨rfl, rfl⟩ := ih readsLater
          exact ⟨rfl, rfl⟩

theorem reads_quoteUnits (value rest : Text) :
    Reads (quoteUnits value ++ quotationMark :: rest) value rest := by
  induction value using quoteUnits.induct with
  | case1 => exact .stop rest
  | case2 unit => exact .unit _ _ _ _ unit (readUnit_escapeUnit unit _) (.stop rest)
  | case3 lead trail behind paired ih =>
      have halves := paired
      simp only [Bool.and_eq_true, isLead, isTrail, decide_eq_true_eq] at halves
      obtain ⟨⟨leadLow, -⟩, trailLow, -⟩ := halves
      have raw (unit : CodeUnit) (rest : Text) (high : 0xd800 ≤ unit) :
          readUnit (unit :: rest) = some (unit, rest) := by
        refine readUnit_raw unit rest ?_ ?_ <;> rintro rfl <;> exact absurd high (by decide)
      rw [quoteUnits, if_pos paired]
      refine .unit _ _ _ _ lead (raw lead _ leadLow) ?_
      exact .unit _ _ _ _ trail (raw trail _ (le_trans (by decide) trailLow)) ih
  | case4 lead trail behind unpaired ih =>
      rw [quoteUnits, if_neg unpaired, List.append_assoc]
      exact .unit _ _ _ _ lead (readUnit_escapeUnit lead _) ih

/-- A quoted string is read off the front of a text in one way. -/
theorem quote_append_inj (value other rest tail : Text)
    (same : quote value ++ rest = quote other ++ tail) : value = other ∧ rest = tail := by
  simp only [quote, List.cons_append, List.cons.injEq, true_and, List.append_assoc,
    List.nil_append] at same
  have reads := reads_quoteUnits other tail
  rw [← same] at reads
  exact (reads_quoteUnits value rest).unique reads

/-! ## Numbers -/

def digitUnit (digit : Fin 10) : CodeUnit := Fin.ofNat 65536 (0x30 + digit.val)

def digitsText (digits : List (Fin 10)) : Text := digits.map digitUnit

def point : CodeUnit := 0x2e
def exponentMark : CodeUnit := 0x65
def plus : CodeUnit := 0x2b
def minus : CodeUnit := 0x2d

/-- The size of a finite number that is not zero: `0.d₁d₂…` times ten to the `point`.  The digits
are the `k` digits `Number::toString` picks, so they neither start nor end with a zero. -/
structure Decimal where
  digits : List (Fin 10)
  point : Int
  present : digits ≠ []
  leads : digits.head? ≠ some 0
  ends : digits.getLast? ≠ some 0
  deriving DecidableEq

inductive Number where
  | zero (negative : Bool)
  | finite (negative : Bool) (size : Decimal)
  | infinite (negative : Bool)
  deriving DecidableEq

structure Parts where
  whole : List (Fin 10)
  fraction : List (Fin 10)
  exponent : Option Int
  deriving DecidableEq

/-- Steps 6 to 10 of `Number::toString`. -/
def Decimal.parts (size : Decimal) : Parts :=
  let count : Int := size.digits.length
  if count ≤ size.point ∧ size.point ≤ 21 then
    { whole := size.digits ++ List.replicate (size.point - count).toNat 0
      fraction := []
      exponent := none }
  else if 0 < size.point ∧ size.point ≤ 21 then
    { whole := size.digits.take size.point.toNat
      fraction := size.digits.drop size.point.toNat
      exponent := none }
  else if -6 < size.point ∧ size.point ≤ 0 then
    { whole := [0]
      fraction := List.replicate (-size.point).toNat 0 ++ size.digits
      exponent := none }
  else
    { whole := size.digits.take 1
      fraction := size.digits.drop 1
      exponent := some (size.point - 1) }

def naturalText (number : Nat) : Text :=
  ((Nat.digits 10 number).map fun digit => digitUnit (Fin.ofNat 10 digit)).reverse

def fractionText (fraction : List (Fin 10)) : Text :=
  if fraction = [] then [] else point :: digitsText fraction

def exponentText : Option Int → Text
  | none => []
  | some exponent =>
      exponentMark :: (if 0 < exponent then plus else minus) :: naturalText exponent.natAbs

def Parts.text (parts : Parts) : Text :=
  digitsText parts.whole ++ fractionText parts.fraction ++ exponentText parts.exponent

def Number.spell : Number → Text
  | .zero _ => digitsText [0]
  | .finite negative size => (if negative then [minus] else []) ++ size.parts.text
  | .infinite negative => (if negative then [minus] else []) ++ ascii "Infinity"

theorem digitUnit_inj (first second : Fin 10) (same : digitUnit first = digitUnit second) :
    first = second := by
  revert first second
  decide

theorem digitsText_inj (first second : List (Fin 10))
    (same : digitsText first = digitsText second) : first = second :=
  List.map_injective_iff.mpr digitUnit_inj same

theorem naturalText_inj (first second : Nat) (same : naturalText first = naturalText second) :
    first = second := by
  have back (number : Nat) :
      (naturalText number).reverse.map (fun unit => unit.val - 0x30) = Nat.digits 10 number := by
    rw [naturalText, List.reverse_reverse, List.map_map]
    refine (List.map_congr_left ?_).trans (List.map_id _)
    intro digit member
    have small : digit < 10 := Nat.digits_lt_base (by decide) member
    interval_cases digit <;> rfl
  have digits : Nat.digits 10 first = Nat.digits 10 second := by
    rw [← back first, ← back second, same]
  exact Nat.digits_inj_iff.mp digits

/-! ### The parts determine the number -/

/-- The digits between the zeros at the ends, and where the point is before them. -/
def Parts.read (parts : Parts) : List (Fin 10) × Int :=
  let all := parts.whole ++ parts.fraction
  let zeros : Int := (all.takeWhile (· == 0)).length
  (((all.dropWhile (· == 0)).reverse.dropWhile (· == 0)).reverse,
    parts.exponent.getD 0 + parts.whole.length - zeros)

theorem span_zeros (count : Nat) (digits : List (Fin 10)) (leads : digits.head? ≠ some 0) :
    (List.replicate count 0 ++ digits).takeWhile (· == 0) = List.replicate count 0 ∧
      (List.replicate count 0 ++ digits).dropWhile (· == 0) = digits := by
  have zeros : ∀ digit ∈ List.replicate count (0 : Fin 10), (digit == 0) = true := by
    intro digit member
    simp [List.eq_of_mem_replicate member]
  rw [List.takeWhile_append_of_pos zeros, List.dropWhile_append_of_pos zeros]
  cases digits with
  | nil => simp
  | cons digit digits =>
      have nonzero : (digit == 0) = false := by simpa using leads
      simp [nonzero]

theorem Parts.read_eq (parts : Parts) (size : Decimal) (before after : Nat)
    (all : parts.whole ++ parts.fraction =
      List.replicate before 0 ++ (size.digits ++ List.replicate after 0))
    (place : parts.exponent.getD 0 + parts.whole.length - before = size.point) :
    parts.read = (size.digits, size.point) := by
  have leads : (size.digits ++ List.replicate after 0).head? ≠ some 0 := by
    have leads := size.leads
    cases split : size.digits with
    | nil => exact absurd split size.present
    | cons digit digits =>
        rw [split] at leads
        exact leads
  have ends : size.digits.reverse.head? ≠ some 0 := by
    rw [List.head?_reverse]
    exact size.ends
  obtain ⟨taken, dropped⟩ := span_zeros before _ leads
  obtain ⟨-, stripped⟩ := span_zeros after _ ends
  simp only [Parts.read, all, taken, dropped, List.reverse_append, List.reverse_replicate, stripped,
    List.reverse_reverse, List.length_replicate, place]

/-- The parts of a number tell its digits and its point. -/
theorem Decimal.read_parts (size : Decimal) : size.parts.read = (size.digits, size.point) := by
  have present : 0 < size.digits.length := List.length_pos_iff.mpr size.present
  simp only [Decimal.parts]
  split
  · rename_i integer
    refine Parts.read_eq _ size 0 (size.point - size.digits.length).toNat (by simp) ?_
    simp only [Option.getD_none, List.length_append, List.length_replicate]
    omega
  · rename_i notInteger
    split
    · rename_i inside
      refine Parts.read_eq _ size 0 0 (by simp) ?_
      simp only [Option.getD_none, List.length_take]
      omega
    · rename_i notInside
      split
      · rename_i small
        refine Parts.read_eq _ size ((-size.point).toNat + 1) 0 ?_ ?_
        · simp [List.replicate_succ]
        · simp only [Option.getD_none, List.length_singleton]
          omega
      · refine Parts.read_eq _ size 0 0 ?_ ?_
        · simp only [List.take_append_drop, List.replicate_zero, List.nil_append, List.append_nil]
        · simp only [Option.getD_some, List.length_take]
          omega

theorem Decimal.parts_inj (first second : Decimal) (same : first.parts = second.parts) :
    first = second := by
  have read := first.read_parts
  rw [same, second.read_parts] at read
  obtain ⟨digits, point⟩ := Prod.mk.inj read
  cases first
  cases second
  simp only at digits point
  subst digits point
  rfl

/-! ### The text determines the parts -/

def isDigitUnit (unit : CodeUnit) : Bool := decide (0x30 ≤ unit ∧ unit ≤ 0x39)

theorem isDigitUnit_digitsText (digits : List (Fin 10)) :
    ∀ unit ∈ digitsText digits, isDigitUnit unit = true := by
  intro unit member
  obtain ⟨digit, -, rfl⟩ := List.mem_map.mp member
  clear member
  revert digit
  decide

theorem exponentText_stops (exponent : Option Int) :
    ∀ unit ∈ (exponentText exponent).head?, isDigitUnit unit = false := by
  intro unit member
  cases exponent with
  | none => simp [exponentText] at member
  | some exponent =>
      obtain rfl : exponentMark = unit := by simpa [exponentText] using member
      rfl

theorem fractionText_stops (fraction : List (Fin 10)) (exponent : Option Int) :
    ∀ unit ∈ (fractionText fraction ++ exponentText exponent).head?,
      isDigitUnit unit = false := by
  intro unit member
  rw [fractionText] at member
  split at member
  · exact exponentText_stops exponent unit member
  · obtain rfl : point = unit := by simpa using member
    rfl

theorem exponentText_inj (first second : Option Int) (firstMoves : first ≠ some 0)
    (secondMoves : second ≠ some 0) (same : exponentText first = exponentText second) :
    first = second := by
  cases first with
  | none =>
      cases second with
      | none => rfl
      | some other => simp [exponentText] at same
  | some exponent =>
      cases second with
      | none => simp [exponentText] at same
      | some other =>
          obtain ⟨-, tail⟩ := List.cons.inj same
          obtain ⟨sign, digits⟩ := List.cons.inj tail
          have size := naturalText_inj _ _ digits
          have one : exponent ≠ 0 := fun zero => firstMoves (congrArg some zero)
          have two : other ≠ 0 := fun zero => secondMoves (congrArg some zero)
          have marks : plus ≠ minus := by decide
          have signs : 0 < exponent ↔ 0 < other := by
            by_cases up : 0 < exponent
            · by_cases upOther : 0 < other
              · exact iff_of_true up upOther
              · simp [up, upOther, marks] at sign
            · by_cases upOther : 0 < other
              · simp [up, upOther, marks.symm] at sign
              · exact iff_of_false up upOther
          exact congrArg some (by omega)

theorem Parts.text_inj (first second : Parts) (firstMoves : first.exponent ≠ some 0)
    (secondMoves : second.exponent ≠ some 0) (same : first.text = second.text) :
    first = second := by
  simp only [Parts.text, List.append_assoc] at same
  obtain ⟨whole, behind⟩ := span_inj isDigitUnit _ _ _ _ (isDigitUnit_digitsText _)
    (isDigitUnit_digitsText _) (fractionText_stops _ _) (fractionText_stops _ _) same
  have marks : point ≠ exponentMark := by decide
  have fractions : first.fraction = second.fraction ∧
      exponentText first.exponent = exponentText second.exponent := by
    simp only [fractionText] at behind
    split at behind
    · rename_i empty
      split at behind
      · rename_i emptyToo
        exact ⟨empty.trans emptyToo.symm, behind⟩
      · cases moved : first.exponent <;> simp [moved, exponentText, marks.symm] at behind
    · split at behind
      · cases moved : second.exponent <;> simp [moved, exponentText, marks] at behind
      · obtain ⟨-, behind⟩ := List.cons.inj behind
        obtain ⟨fraction, exponent⟩ := span_inj isDigitUnit _ _ _ _ (isDigitUnit_digitsText _)
          (isDigitUnit_digitsText _) (exponentText_stops _) (exponentText_stops _) behind
        exact ⟨digitsText_inj _ _ fraction, exponent⟩
  have exponent := exponentText_inj _ _ firstMoves secondMoves fractions.2
  have wholes := digitsText_inj _ _ whole
  cases first
  cases second
  simp only at wholes exponent fractions
  rw [wholes, exponent, fractions.1]

/-! ### The text determines the number -/

theorem Decimal.parts_moves (size : Decimal) : size.parts.exponent ≠ some 0 := by
  simp only [Decimal.parts]
  split
  · simp
  · split
    · simp
    · split
      · simp
      · intro zero
        have := Option.some.inj zero
        omega

theorem Decimal.parts_text_cons (size : Decimal) :
    ∃ digit rest, size.parts.text = digitUnit digit :: rest := by
  have whole : size.parts.whole ≠ [] := by
    have present := size.present
    simp only [Decimal.parts]
    split
    · simp [present]
    · split
      · rename_i inside
        simp only [ne_eq, List.take_eq_nil_iff, present, or_false]
        omega
      · split <;> simp [present]
  obtain ⟨digit, digits, split⟩ := List.exists_cons_of_ne_nil whole
  exact ⟨digit, _, by rw [Parts.text, split, digitsText, List.map_cons, List.cons_append,
    List.cons_append]⟩

/-- The value of a number, zero having one. -/
def Number.plain : Number → Number
  | .zero _ => .zero false
  | number => number

def Number.isFinite : Number → Bool
  | .infinite _ => false
  | _ => true

theorem digitUnit_ne_minus (digit : Fin 10) : digitUnit digit ≠ minus := by
  revert digit
  decide

theorem Number.spell_inj (first second : Number) (firstFinite : first.isFinite = true)
    (secondFinite : second.isFinite = true) (same : first.spell = second.spell) :
    first.plain = second.plain := by
  have notZero (negative : Bool) (size : Decimal)
      (same : digitsText [0] = (if negative then [minus] else []) ++ size.parts.text) : False := by
    cases negative with
    | true => exact digitUnit_ne_minus 0 (List.cons.inj same).1
    | false =>
        have parts := Parts.text_inj { whole := [0], fraction := [], exponent := none } size.parts
          (by simp) size.parts_moves same
        have read := size.read_parts
        rw [← parts] at read
        exact size.present (Prod.mk.inj read).1.symm
  cases first with
  | infinite negative => cases firstFinite
  | zero negative =>
      cases second with
      | infinite other => cases secondFinite
      | zero other => rfl
      | finite other size => exact (notZero other size same).elim
  | finite negative size =>
      cases second with
      | infinite other => cases secondFinite
      | zero other => exact (notZero negative size same.symm).elim
      | finite other otherSize =>
          obtain ⟨digit, rest, spelled⟩ := size.parts_text_cons
          obtain ⟨otherDigit, otherRest, otherSpelled⟩ := otherSize.parts_text_cons
          have signs : negative = other ∧ size.parts.text = otherSize.parts.text := by
            simp only [Number.spell] at same
            cases negative <;> cases other
            · exact ⟨rfl, same⟩
            · rw [spelled] at same
              exact (digitUnit_ne_minus digit (List.cons.inj same).1).elim
            · rw [otherSpelled] at same
              exact (digitUnit_ne_minus otherDigit (List.cons.inj same).1.symm).elim
            · exact ⟨rfl, (List.cons.inj same).2⟩
          have parts := Parts.text_inj _ _ size.parts_moves otherSize.parts_moves signs.2
          rw [signs.1, Decimal.parts_inj _ _ parts]

def isNumberUnit (unit : CodeUnit) : Bool :=
  isDigitUnit unit || unit == point || unit == exponentMark || unit == plus || unit == minus

def Follows (rest : Text) : Prop := ∀ unit ∈ rest.head?, isNumberUnit unit = false

theorem isNumberUnit_digitsText (digits : List (Fin 10)) :
    ∀ unit ∈ digitsText digits, isNumberUnit unit = true := by
  intro unit member
  rw [isNumberUnit, isDigitUnit_digitsText digits unit member]
  rfl

theorem isNumberUnit_parts (parts : Parts) :
    ∀ unit ∈ parts.text, isNumberUnit unit = true := by
  intro unit member
  rw [Parts.text, List.mem_append, List.mem_append] at member
  rcases member with (whole | fraction) | exponent
  · exact isNumberUnit_digitsText _ unit whole
  · rw [fractionText] at fraction
    split at fraction
    · cases fraction
    · rcases List.mem_cons.mp fraction with rfl | digits
      · rfl
      · exact isNumberUnit_digitsText _ unit digits
  · cases moved : parts.exponent with
    | none =>
        rw [moved] at exponent
        cases exponent
    | some shift =>
        rw [moved] at exponent
        rcases List.mem_cons.mp exponent with rfl | behind
        · rfl
        · rcases List.mem_cons.mp behind with rfl | digits
          · split <;> rfl
          · rw [naturalText, List.mem_reverse, List.mem_map] at digits
            obtain ⟨digit, -, rfl⟩ := digits
            exact isNumberUnit_digitsText [Fin.ofNat 10 digit] _ List.mem_cons_self

theorem Number.isNumberUnit_spell (number : Number) (finite : number.isFinite = true) :
    ∀ unit ∈ number.spell, isNumberUnit unit = true := by
  intro unit member
  cases number with
  | infinite negative => cases finite
  | zero negative => exact isNumberUnit_digitsText _ unit member
  | finite negative size =>
      rcases List.mem_append.mp member with sign | body
      · cases negative with
        | false => cases sign
        | true =>
            obtain rfl := List.mem_singleton.mp sign
            rfl
      · exact isNumberUnit_parts _ unit body

/-- A spelled number is read off the front of a text in one way. -/
theorem Number.spell_append_inj (first second : Number) (rest tail : Text)
    (firstFinite : first.isFinite = true) (secondFinite : second.isFinite = true)
    (restFollows : Follows rest) (tailFollows : Follows tail)
    (same : first.spell ++ rest = second.spell ++ tail) :
    first.plain = second.plain ∧ rest = tail := by
  obtain ⟨spelled, behind⟩ := span_inj isNumberUnit _ _ _ _
    (first.isNumberUnit_spell firstFinite) (second.isNumberUnit_spell secondFinite) restFollows
    tailFollows same
  exact ⟨Number.spell_inj first second firstFinite secondFinite spelled, behind⟩

end JsonText
