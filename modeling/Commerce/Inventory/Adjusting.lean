import Commerce.Inventory.OrderEffect

/-!
# Adjusting a stock level

The statement of `adjust` adds the delta to the level in its own condition, before the
ceiling can refuse it.  A restock may have lifted the level past that ceiling, up to the
column's limit, and from there the sum can leave the column.
-/

set_option autoImplicit false

namespace Commerce.Inventory

open Results
open Runs (run run_preserves)
open Tables (mem_update update)

/-! ## What the column holds -/

def Stored (stock : Stock) : Prop := ∀ level ∈ stock.levels, checkLevel level = .ok level

def Accepted (stock next : Stock) : Prop :=
  ∀ level ∈ next.levels, level ∈ stock.levels ∨ checkLevel level = .ok level

theorem accepted_same (stock next : Stock) (same : next.levels = stock.levels) :
    Accepted stock next := by
  intro level member
  rw [same] at member
  exact .inl member

theorem Accepted.trans {stock middle next : Stock} (first : Accepted stock middle)
    (second : Accepted middle next) : Accepted stock next := by
  intro level member
  rcases second level member with old | checked
  · exact first level old
  · exact .inr checked

theorem Accepted.stored {stock next : Stock} (accepted : Accepted stock next)
    (stored : Stored stock) : Stored next := by
  intro level member
  rcases accepted level member with old | checked
  · exact stored level old
  · exact checked

theorem updateLevel_accepted (stock next : Stock) (variantId : Nat) (set : StockLevel → StockLevel)
    (success : stock.updateLevel variantId set = .ok next) : Accepted stock next := by
  unfold Stock.updateLevel at success
  split at success
  · cases success
    exact accepted_same stock stock rfl
  · rename_i level found
    obtain ⟨written, checked, same⟩ := (bind_eq_ok _ _ _).mp success
    obtain ⟨shape, -, -⟩ := checkLevel_ok _ written checked
    cases same
    intro row member
    obtain ⟨before, old, here⟩ := (mem_update _ _ _ _ _).mp member
    split at here
    · right
      rw [← here]
      rw [← shape] at checked
      exact checked
    · left
      rw [← here]
      exact old

theorem insertHold_accepted (stock next : Stock) (id orderId variantId : Nat)
    (quantity expiresAt : Int)
    (success : stock.insertHold id orderId variantId quantity expiresAt = .ok next) :
    Accepted stock next := by
  unfold Stock.insertHold at success
  split_ifs at success <;> cases success <;> exact accepted_same stock _ rfl

theorem reserveLine_accepted (stock next : Stock) (orderId id : Nat) (line : ReservationLine)
    (expiresAt : Int) (success : reserveLine stock orderId line id expiresAt = .ok next) :
    Accepted stock next := by
  unfold reserveLine at success
  split at success
  · cases success
  · split_ifs at success with held
    · cases success
      exact accepted_same stock stock rfl
    · dsimp only at success
      split_ifs at success
      obtain ⟨raised, raise, hold⟩ := (bind_eq_ok _ _ _).mp success
      exact (updateLevel_accepted stock raised _ _ raise).trans
        (insertHold_accepted raised next _ _ _ _ _ hold)

theorem reservePessimistic_accepted (stock next : Stock) (orderId : Nat) (expiresAt : Int)
    (lines : List ReservationLine) (ids : List Nat)
    (success : reservePessimistic stock orderId expiresAt lines ids = .ok next) :
    Accepted stock next := by
  induction lines generalizing stock ids with
  | nil =>
      cases success
      exact accepted_same next next rfl
  | cons line rest ih =>
      cases ids with
      | nil => cases success
      | cons id ids =>
          obtain ⟨middle, held, success⟩ := (bind_eq_ok _ _ _).mp success
          exact (reserveLine_accepted stock middle orderId id line expiresAt held).trans
            (ih middle ids success)

theorem reserveOptimistic_accepted (maxRetries : Nat) (stock next : Stock) (orderId : Nat)
    (expiresAt : Int) (lines : List ReservationLine) (ids : List Nat)
    (reads : List (List (Option LevelRead)))
    (success : reserveOptimistic maxRetries stock orderId expiresAt lines ids reads = .ok next) :
    Accepted stock next := by
  induction lines generalizing stock ids reads with
  | nil =>
      cases success
      exact accepted_same next next rfl
  | cons line rest ih =>
      cases ids with
      | nil => cases success
      | cons id ids =>
          cases reads with
          | nil => cases success
          | cons lineReads reads =>
              obtain ⟨swapped, cas, success⟩ := (bind_eq_ok _ _ _).mp success
              cases swapped with
              | none => exact ih stock ids reads success
              | some raised =>
                  obtain ⟨middle, hold, success⟩ := (bind_eq_ok _ _ _).mp success
                  obtain ⟨-, -, raise⟩ :=
                    casReserve_ok maxRetries stock orderId _ _ 0 lineReads raised cas
                  exact ((updateLevel_accepted stock raised _ _ raise).trans
                    (insertHold_accepted raised middle _ _ _ _ _ hold)).trans
                    (ih middle ids reads success)

theorem reserveLines_accepted (strategy : LockStrategy) (maxRetries : Nat) (opened next : Stock)
    (input : TryInput) (success : reserveLines strategy maxRetries opened input = .ok next) :
    Accepted opened next := by
  cases strategy with
  | optimistic => exact reserveOptimistic_accepted maxRetries opened next _ _ _ _ _ success
  | pessimistic => exact reservePessimistic_accepted opened next _ _ _ _ success

theorem insertHeaderRow_levels (stock : Stock) (row : ReservationOrder) :
    (stock.insertHeaderRow row).2.levels = stock.levels := by
  unfold Stock.insertHeaderRow
  split <;> rfl

theorem tryTransaction_accepted (strategy : LockStrategy) (maxRetries : Nat) (stock next : Stock)
    (input : TryInput) (outcome : TryReserveOutcome)
    (success : tryTransaction strategy maxRetries stock input = .ok (outcome, next)) :
    Accepted stock next := by
  have levels := insertHeaderRow_levels stock ⟨input.orderId, .held, some input.holdUntil⟩
  unfold tryTransaction at success
  split at success
  · rename_i opened inserted
    have same : opened.levels = stock.levels := by
      rw [← levels]
      exact congrArg (·.2.levels) inserted.symm
    obtain ⟨reserved, held, same'⟩ := (bind_eq_ok _ _ _).mp success
    cases same'
    exact (accepted_same stock opened same).trans
      (reserveLines_accepted strategy maxRetries opened next input held)
  · split at success <;> cases success <;> exact accepted_same stock stock rfl

theorem tryReserve_accepted (strategy : LockStrategy) (maxRetries : Nat) (stock : Stock)
    (input : TryInput) : Accepted stock (tryReserve strategy maxRetries stock input).2 := by
  unfold tryReserve
  split
  · rename_i outcome next success
    exact tryTransaction_accepted strategy maxRetries stock next input outcome success
  all_goals exact accepted_same stock stock rfl

theorem moveLine_accepted (stock next : Stock) (orderId : Nat) (transition : LineTransition)
    (line : Reservation) (success : moveLine orderId transition stock line = .ok next) :
    Accepted stock next := by
  unfold moveLine at success
  split_ifs at success with pending
  · let flipped : Stock := { stock with
      reservations := update (·.key) (orderId, line.variantId) (flip transition)
        stock.reservations }
    exact (accepted_same stock flipped rfl).trans
      (updateLevel_accepted flipped next line.variantId _ success)
  · cases success
    exact accepted_same stock stock rfl

theorem moveLine_fold_accepted (orderId : Nat) (transition : LineTransition)
    (lines : List Reservation) (stock next : Stock)
    (success : lines.foldlM (moveLine orderId transition) stock = .ok next) :
    Accepted stock next := by
  induction lines generalizing stock with
  | nil =>
      cases success
      exact accepted_same next next rfl
  | cons line rest ih =>
      rw [List.foldlM_cons] at success
      obtain ⟨middle, moved, success⟩ := (bind_eq_ok _ _ _).mp success
      exact (moveLine_accepted stock middle orderId transition line moved).trans (ih middle success)

theorem moveLines_accepted (stock next : Stock) (orderId : Nat) (transition : LineTransition)
    (success : moveLines stock orderId transition = .ok next) : Accepted stock next :=
  moveLine_fold_accepted orderId transition _ stock next success

theorem command_accepted (stock next : Stock) (command : LineTransition) (orderId : Nat)
    (outcome : ParticipantCommandOutcome)
    (success : commandTransaction stock command orderId = .ok (outcome, next)) :
    Accepted stock next := by
  unfold commandTransaction at success
  split at success
  · split_ifs at success
    · cases success
      exact accepted_same stock _ (insertHeaderRow_levels stock _)
    · split at success <;> cases success <;> exact accepted_same stock stock rfl
  · split at success
    · obtain ⟨moved, resolved, same⟩ := (bind_eq_ok _ _ _).mp success
      cases same
      exact (moveLines_accepted stock moved orderId command resolved).trans
        (accepted_same moved _ rfl)
    all_goals
      cases success
      exact accepted_same stock stock rfl

theorem sweep_accepted (stock next : Stock) (orderId : Nat) (now : Int) (released : Bool)
    (success : sweepTransaction stock orderId now = .ok (released, next)) :
    Accepted stock next := by
  unfold sweepTransaction at success
  split at success
  · cases success
    exact accepted_same stock stock rfl
  · split_ifs at success
    · obtain ⟨moved, resolved, same⟩ := (bind_eq_ok _ _ _).mp success
      cases same
      exact (moveLines_accepted stock moved orderId .release resolved).trans
        (accepted_same moved _ rfl)
    · cases success
      exact accepted_same stock stock rfl

theorem setOnHand_accepted (stock next : Stock) (variantId : Nat) (quantity : Int)
    (success : setOnHand stock variantId quantity = .ok next) : Accepted stock next := by
  unfold setOnHand at success
  split at success
  · exact updateLevel_accepted stock next variantId _ success
  · obtain ⟨level, checked, same⟩ := (bind_eq_ok _ _ _).mp success
    obtain ⟨shape, -, -⟩ := checkLevel_ok _ level checked
    cases same
    intro row member
    rcases List.mem_append.mp member with old | added
    · exact .inl old
    · right
      rw [List.mem_singleton.mp added]
      rw [← shape] at checked
      exact checked

theorem adjust_accepted (stock next : Stock) (variantId : Nat) (delta : Int)
    (success : adjust stock variantId delta = .ok (some next)) : Accepted stock next := by
  unfold adjust at success
  split at success
  · cases success
  · split_ifs at success
    obtain ⟨written, update, same⟩ := (bind_eq_ok _ _ _).mp success
    cases same
    exact updateLevel_accepted stock next variantId _ update

theorem perform_accepted (maxRetries : Nat) (stock : Stock) (operation : Operation) :
    Accepted stock (perform maxRetries stock operation) := by
  cases operation with
  | tryReserve strategy input => exact tryReserve_accepted strategy maxRetries stock input
  | command command orderId =>
      simp only [perform]
      split
      · rename_i outcome next success
        exact command_accepted stock next command orderId outcome success
      · exact accepted_same stock stock rfl
  | sweep orderId now =>
      simp only [perform]
      split
      · rename_i released next success
        exact sweep_accepted stock next orderId now released success
      · exact accepted_same stock stock rfl
  | setOnHand variantId quantity =>
      simp only [perform]
      split
      · rename_i next success
        exact setOnHand_accepted stock next variantId quantity success
      · exact accepted_same stock stock rfl
  | adjust variantId delta =>
      simp only [perform]
      split
      · rename_i next success
        exact adjust_accepted stock next variantId delta success
      · exact accepted_same stock stock rfl

theorem step_stored (maxRetries : Nat) (stock : Stock) (execution : Execution) (next : Stock)
    (stored : Stored stock) (stepped : step maxRetries stock execution = some next) :
    Stored next := by
  cases Option.some.inj stepped
  split
  · exact stored
  · exact (perform_accepted maxRetries stock execution.operation).stored stored

theorem stored_of_run (maxRetries : Nat) (executions : List Execution) (stock : Stock)
    (ran : run (step maxRetries) emptyStock executions = some stock) : Stored stock := by
  refine run_preserves (step maxRetries) Stored (step_stored maxRetries) executions emptyStock
    stock ?_ ran
  intro level member
  cases member

/-! ## The answer of an adjustment -/

def AdjustDto (delta : Int) : Prop :=
  -maxStockOnHand ≤ delta ∧ delta ≤ maxStockOnHand ∧ delta ≠ 0

instance (delta : Int) : Decidable (AdjustDto delta) := by
  unfold AdjustDto
  infer_instance

/-- The `ConflictException` an operator gets; any other error reaches him as a 500. -/
def conflictMessage : StockError → Option String
  | .ceiling => some ("Stock level must stay at or below " ++ toString maxStockOnHand)
  | .checkViolation constraint =>
      if constraint = "ck_stock_no_oversell" then
        some "Stock level must stay at or above zero and at or above the quantity reserved"
      else if constraint = "ck_stock_on_hand_nonneg" then some "Stock level would fall below zero"
      else none
  | _ => none

/-- The sum stays in the column, and the adjustment applies within the ceiling or is refused
as a conflict. -/
structure AdjustMeets (stock : Stock) (variantId : Nat) (level : StockLevel) (delta : Int) :
    Prop where
  sum : fitsInt4 (level.quantityOnHand + delta) = true
  answer : (∃ next adjusted, adjust stock variantId delta = .ok (some next) ∧
      next.findLevel variantId = some adjusted ∧
      adjusted.quantityOnHand = level.quantityOnHand + delta ∧
      0 ≤ adjusted.quantityOnHand ∧ adjusted.quantityOnHand ≤ maxStockOnHand) ∨
    ∃ error, adjust stock variantId delta = .error error ∧ (conflictMessage error).isSome = true

theorem fitsInt4_iff (value : Int) :
    fitsInt4 value = true ↔ -int4Max - 1 ≤ value ∧ value ≤ int4Max := by
  simp [fitsInt4]

structure InColumns (level : StockLevel) : Prop where
  onHand : level.quantityReserved ≤ level.quantityOnHand ∧ level.quantityOnHand ≤ int4Max
  reserved : 0 ≤ level.quantityReserved
  version : -int4Max - 1 ≤ level.version ∧ level.version ≤ int4Max

theorem inColumns_of_checked (level : StockLevel) (checked : checkLevel level = .ok level) :
    InColumns level := by
  unfold checkLevel at checked
  split_ifs at checked with range oversold negative unreserved
  simp only [Bool.not_eq_true', Bool.not_eq_false, Bool.and_eq_true, fitsInt4_iff] at range
  obtain ⟨⟨onHand, reserved⟩, version⟩ := range
  exact ⟨⟨by omega, onHand.2⟩, by omega, version⟩

def adjustedLevel (level : StockLevel) (delta : Int) : StockLevel :=
  { level with
    quantityOnHand := level.quantityOnHand + delta
    version := level.version + 1 }

theorem checkLevel_eq (row : StockLevel) (onHand : fitsInt4 row.quantityOnHand = true)
    (reserved : fitsInt4 row.quantityReserved = true) (nonneg : 0 ≤ row.quantityReserved) :
    checkLevel row =
      if !fitsInt4 row.version then .error .outOfRange
      else if row.quantityReserved > row.quantityOnHand then
        .error (.checkViolation "ck_stock_no_oversell")
      else .ok row := by
  unfold checkLevel
  rw [onHand, reserved, Bool.true_and, Bool.true_and]
  split_ifs <;> first | rfl | omega

theorem checkLevel_adjusted (level : StockLevel) (delta : Int) (columns : InColumns level)
    (fits : fitsInt4 (level.quantityOnHand + delta) = true) :
    checkLevel (adjustedLevel level delta) =
      if level.version = int4Max then .error .outOfRange
      else if level.quantityReserved > level.quantityOnHand + delta then
        .error (.checkViolation "ck_stock_no_oversell")
      else .ok (adjustedLevel level delta) := by
  obtain ⟨⟨covered, bounded⟩, reserved, low, high⟩ := columns
  have reservedFits : fitsInt4 level.quantityReserved = true := by
    rw [fitsInt4_iff]
    simp only [int4Max] at bounded ⊢
    omega
  rw [checkLevel_eq (adjustedLevel level delta) fits reservedFits reserved]
  by_cases last : level.version = int4Max
  · have full : fitsInt4 (level.version + 1) = false := by
      rw [last]
      rfl
    rw [if_pos last]
    exact if_pos (by simp [adjustedLevel, full])
  · have room : fitsInt4 (level.version + 1) = true := by
      rw [fitsInt4_iff]
      omega
    rw [if_neg last]
    exact if_neg (by simp [adjustedLevel, room])

theorem adjust_found (stock : Stock) (variantId : Nat) (level : StockLevel) (delta : Int)
    (found : stock.findLevel variantId = some level) :
    adjust stock variantId delta =
      if !fitsInt4 (level.quantityOnHand + delta) then .error .outOfRange
      else if level.quantityOnHand + delta ≤ maxStockOnHand then
        (checkLevel (adjustedLevel level delta)).map fun written =>
          some { stock with
            levels := update (·.variantId) variantId (fun _ => written) stock.levels }
      else .error .ceiling := by
  unfold adjust
  rw [found]
  simp only [Stock.updateLevel, found]
  split_ifs
  · rfl
  · change (checkLevel (adjustedLevel level delta) >>= _) >>= _ = _
    cases checkLevel (adjustedLevel level delta) <;> rfl
  · rfl

/-- In every stock the transactions can reach, an adjustment the DTO admits does what it
promises exactly when the sum stays in the column and, unless the ceiling refuses it, the
version still has room. -/
theorem adjust_meets_iff (maxRetries : Nat) (executions : List Execution) (stock : Stock)
    (ran : run (step maxRetries) emptyStock executions = some stock) (variantId : Nat)
    (level : StockLevel) (found : stock.findLevel variantId = some level) (delta : Int)
    (admitted : AdjustDto delta) :
    AdjustMeets stock variantId level delta ↔
      level.quantityOnHand + delta ≤ int4Max ∧
        (level.quantityOnHand + delta ≤ maxStockOnHand → level.version < int4Max) := by
  obtain ⟨member, named⟩ := findLevel_some stock variantId level found
  have columns := inColumns_of_checked level
    (stored_of_run maxRetries executions stock ran level member)
  have answer := adjust_found stock variantId level delta found
  have fits : fitsInt4 (level.quantityOnHand + delta) = true ↔
      level.quantityOnHand + delta ≤ int4Max := by
    obtain ⟨⟨covered, -⟩, reserved, -⟩ := columns
    obtain ⟨least, -⟩ := admitted
    simp only [maxStockOnHand] at least
    rw [fitsInt4_iff]
    simp only [int4Max]
    omega
  constructor
  · intro meets
    refine ⟨fits.mp meets.sum, ?_⟩
    intro below
    by_contra full
    have last : level.version = int4Max := by
      obtain ⟨-, high⟩ := columns.version
      omega
    have refused : adjust stock variantId delta = .error .outOfRange := by
      rw [answer, meets.sum, checkLevel_adjusted level delta columns meets.sum, if_pos last,
        if_pos below]
      rfl
    rcases meets.answer with ⟨next, adjusted, applied, -⟩ | ⟨error, thrown, conflict⟩
    · rw [refused] at applied
      cases applied
    · rw [refused] at thrown
      cases thrown
      cases conflict
  · rintro ⟨bounded, room⟩
    have inside := fits.mpr bounded
    refine ⟨inside, ?_⟩
    rw [answer, inside]
    by_cases below : level.quantityOnHand + delta ≤ maxStockOnHand
    · have free : level.version ≠ int4Max := by
        have room := room below
        omega
      rw [if_pos below, checkLevel_adjusted level delta columns inside, if_neg free]
      by_cases oversold : level.quantityReserved > level.quantityOnHand + delta
      · right
        rw [if_pos oversold]
        exact ⟨.checkViolation "ck_stock_no_oversell", rfl, rfl⟩
      · left
        rw [if_neg oversold]
        refine ⟨_, adjustedLevel level delta, rfl, ?_, rfl, ?_, below⟩
        · rw [findLevel_update stock variantId variantId (adjustedLevel level delta) named, found]
          simp
        · have reserved := columns.reserved
          change 0 ≤ level.quantityOnHand + delta
          omega
    · right
      rw [if_neg below]
      exact ⟨.ceiling, rfl, rfl⟩

/-- Two hundred million units sold, the level set back to the ceiling, and the sale restocked. -/
def liftedExecutions : List Execution :=
  [ ⟨.setOnHand 5 1000000000, false⟩,
    ⟨.tryReserve .pessimistic ⟨1, [⟨5, 200000000⟩], 100, [20], []⟩, false⟩,
    ⟨.command .commit 1, false⟩, ⟨.setOnHand 5 1000000000, false⟩,
    ⟨.command .restock 1, false⟩ ]

def liftedStock : Stock :=
  ⟨[⟨5, 1200000000, 0, 4⟩], [⟨20, 1, 5, 200000000, .restocked, 100⟩], [⟨1, .restocked, some 100⟩]⟩

theorem adjust_meets_iff_lifted :
    run (step 3) emptyStock liftedExecutions = some liftedStock ∧
      AdjustMeets liftedStock 5 ⟨5, 1200000000, 0, 4⟩ (-300000000) := by
  refine ⟨by decide +kernel, ?_⟩
  exact (adjust_meets_iff 3 liftedExecutions liftedStock (by decide +kernel) 5 _ rfl (-300000000)
    (by decide)).mpr (by decide)

/-- From there an admitted delta makes the statement itself overflow. -/
theorem adjustment_overflows :
    ∃ executions stock level delta, run (step 3) emptyStock executions = some stock ∧
      stock.findLevel 5 = some level ∧ AdjustDto delta ∧
      fitsInt4 (level.quantityOnHand + delta) = false ∧
      adjust stock 5 delta = .error .outOfRange ∧ ¬ AdjustMeets stock 5 level delta := by
  refine ⟨liftedExecutions, liftedStock, ⟨5, 1200000000, 0, 4⟩, 1000000000, by decide +kernel, rfl,
    by decide, by decide, by decide +kernel, ?_⟩
  rintro ⟨sum, -⟩
  cases sum

end Commerce.Inventory
