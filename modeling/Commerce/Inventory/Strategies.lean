import Commerce.Inventory.Ledger

/-!
# The two reservation strategies

A Try that runs alone reads each level as its transaction has left it.  Its
first compare-and-swap of a line then decides the line, the way the locked read
of the pessimistic path does.
-/

set_option autoImplicit false

namespace Commerce.Inventory.Strategies

open Results
open Runs

/-! ## A line of the optimistic path -/

def readOf (stock : Stock) (variantId : Nat) : Option LevelRead :=
  (stock.findLevel variantId).map fun level =>
    ⟨level.quantityOnHand, level.quantityReserved, level.version⟩

def swapLine (maxRetries : Nat) (stock : Stock) (orderId : Nat) (line : ReservationLine) (id : Nat)
    (expiresAt : Int) (reads : List (Option LevelRead)) : Except StockError Stock := do
  match ← casReserve maxRetries stock orderId line.variantId line.quantity 0 reads with
  | none => .ok stock
  | some raised => raised.insertHold id orderId line.variantId line.quantity expiresAt

theorem reserveOptimistic_cons (maxRetries : Nat) (stock : Stock) (orderId : Nat) (expiresAt : Int)
    (line : ReservationLine) (lines : List ReservationLine) (id : Nat) (ids : List Nat)
    (reads : List (Option LevelRead)) (rest : List (List (Option LevelRead))) :
    reserveOptimistic maxRetries stock orderId expiresAt (line :: lines) (id :: ids)
        (reads :: rest) =
      (do
        let next ← swapLine maxRetries stock orderId line id expiresAt reads
        reserveOptimistic maxRetries next orderId expiresAt lines ids rest) := by
  rw [reserveOptimistic, swapLine]
  cases casReserve maxRetries stock orderId line.variantId line.quantity 0 reads with
  | error error => rfl
  | ok swapped =>
      cases swapped with
      | none => rfl
      | some raised =>
          cases raised.insertHold id orderId line.variantId line.quantity expiresAt <;> rfl

/-- Where a held line has its level, both paths do the same to a line. -/
theorem swapLine_eq (maxRetries : Nat) (stock : Stock) (orderId : Nat) (line : ReservationLine)
    (id : Nat) (expiresAt : Int) (more : List (Option LevelRead)) (inv : Ledger stock) :
    swapLine maxRetries stock orderId line id expiresAt (readOf stock line.variantId :: more) =
      reserveLine stock orderId line id expiresAt := by
  simp only [swapLine, casReserve, reserveLine, readOf]
  cases held : stock.isHeld orderId line.variantId with
  | true =>
      obtain ⟨row, listed, both⟩ := List.any_eq_true.mp held
      obtain ⟨level, levelListed, named⟩ := inv.covered row listed
      have sameVariant : row.variantId = line.variantId := by
        simpa using (Bool.and_eq_true_iff.mp both).2
      cases found : stock.findLevel line.variantId with
      | none =>
          exact absurd (named.trans sameVariant)
            (findLevel_none stock _ found level levelListed)
      | some level => rfl
  | false =>
      cases found : stock.findLevel line.variantId with
      | none => rfl
      | some level =>
          dsimp only [Option.map_some]
          by_cases short : level.quantityOnHand - level.quantityReserved < line.quantity
          · rw [if_neg (by decide), if_pos short, if_neg (by decide), if_pos short]
            rfl
          · have swaps : casHolds stock orderId line.variantId line.quantity
                ⟨level.quantityOnHand, level.quantityReserved, level.version⟩ = true := by
              simp only [casHolds, found, held, beq_self_eq_true, Bool.true_and, Bool.not_false,
                Bool.and_true, decide_eq_true_eq]
              omega
            rw [if_neg (by decide), if_neg short, if_neg (Nat.not_lt_zero _), if_pos swaps,
              if_neg (by decide), if_neg short]
            cases stock.updateLevel line.variantId (raiseReserved line.quantity) <;> rfl

/-! ## The whole list -/

/-- The reads of a Try that nobody writes beside: as many as it makes, each of the level as it is by
then. -/
def SeesOwn (maxRetries orderId : Nat) (expiresAt : Int) :
    Stock → List ReservationLine → List Nat → List (List (Option LevelRead)) → Prop
  | stock, line :: lines, id :: ids, reads :: rest =>
      reads ≠ [] ∧ (∀ read ∈ reads, read = readOf stock line.variantId) ∧
        ∀ next, swapLine maxRetries stock orderId line id expiresAt reads = .ok next →
          SeesOwn maxRetries orderId expiresAt next lines ids rest
  | _, _ :: _, _ :: _, [] => False
  | _, _, _, _ => True

theorem reserveLines_agree (maxRetries : Nat) (stock : Stock) (orderId : Nat) (expiresAt : Int)
    (lines : List ReservationLine) (ids : List Nat) (reads : List (List (Option LevelRead)))
    (inv : Ledger stock)
    (opened : ∃ header ∈ stock.headers, header.orderId = orderId ∧ header.status = .held)
    (alone : SeesOwn maxRetries orderId expiresAt stock lines ids reads) :
    reserveOptimistic maxRetries stock orderId expiresAt lines ids reads =
      reservePessimistic stock orderId expiresAt lines ids := by
  induction lines generalizing stock ids reads with
  | nil => rfl
  | cons line rest ih =>
      cases ids with
      | nil => rfl
      | cons id ids =>
          cases reads with
          | nil => exact alone.elim
          | cons lineReads reads =>
              obtain ⟨read, more, rfl⟩ := List.exists_cons_of_ne_nil alone.1
              obtain ⟨-, own, later⟩ := alone
              obtain rfl := own read List.mem_cons_self
              rw [swapLine_eq maxRetries stock orderId line id expiresAt more inv] at later
              rw [reserveOptimistic_cons, reservePessimistic,
                swapLine_eq maxRetries stock orderId line id expiresAt more inv]
              cases held : reserveLine stock orderId line id expiresAt with
              | error error => rfl
              | ok next =>
                  obtain ⟨kept, headers⟩ :=
                    reserveLine_ledger stock next orderId id line expiresAt inv opened held
                  exact ih next ids reads kept (headers ▸ opened) (later next held)

def Alone (maxRetries : Nat) (stock : Stock) (input : TryInput) : Prop :=
  ∀ opened, stock.insertHeader input.orderId input.holdUntil = (true, opened) →
    SeesOwn maxRetries input.orderId input.holdUntil opened (sortLines input.lines)
      input.reservationIds input.reads

def ownReads (maxRetries orderId : Nat) (expiresAt : Int) :
    Stock → List ReservationLine → List Nat → List (List (Option LevelRead))
  | stock, line :: lines, id :: ids =>
      let reads := [readOf stock line.variantId]
      reads ::
        match swapLine maxRetries stock orderId line id expiresAt reads with
        | .ok next => ownReads maxRetries orderId expiresAt next lines ids
        | .error _ => []
  | _, _, _ => []

theorem seesOwn_ownReads (maxRetries orderId : Nat) (expiresAt : Int) (stock : Stock)
    (lines : List ReservationLine) (ids : List Nat) :
    SeesOwn maxRetries orderId expiresAt stock lines ids
      (ownReads maxRetries orderId expiresAt stock lines ids) := by
  induction lines generalizing stock ids with
  | nil => trivial
  | cons line rest ih =>
      cases ids with
      | nil => trivial
      | cons id ids =>
          rw [ownReads]
          refine ⟨List.cons_ne_nil _ _, fun read only => List.mem_singleton.mp only, ?_⟩
          intro next swapped
          rw [swapped]
          exact ih next ids

theorem alone_ownReads (maxRetries : Nat) (stock : Stock) (input : TryInput) :
    Alone maxRetries stock { input with
      reads := ownReads maxRetries input.orderId input.holdUntil
        (stock.insertHeader input.orderId input.holdUntil).2 (sortLines input.lines)
        input.reservationIds } := by
  intro opened inserted
  dsimp only at inserted ⊢
  rw [inserted]
  exact seesOwn_ownReads maxRetries input.orderId input.holdUntil opened _ _

/-! ## The two strategies -/

/-- On every stock that committed transactions lead to, a Try that runs alone ends the same way
under both strategies: with the same rows, or refused over the same variant and amounts. -/
theorem strategies_agree (maxRetries : Nat) (executions : List Execution) (stock : Stock)
    (ran : run (step maxRetries) emptyStock executions = some stock) (input : TryInput)
    (alone : Alone maxRetries stock input) :
    tryTransaction .optimistic maxRetries stock input =
        tryTransaction .pessimistic maxRetries stock input ∧
      tryReserve .optimistic maxRetries stock input =
        tryReserve .pessimistic maxRetries stock input := by
  have inv : Ledger stock := run_preserves (step maxRetries) Ledger (step_ledger maxRetries)
    executions emptyStock stock emptyStock_ledger ran
  have same : tryTransaction .optimistic maxRetries stock input =
      tryTransaction .pessimistic maxRetries stock input := by
    rw [tryTransaction, tryTransaction]
    cases inserted : stock.insertHeader input.orderId input.holdUntil with
    | mk isNew opened =>
        cases isNew with
        | false => rfl
        | true =>
            obtain ⟨kept, listed⟩ := insertHeaderRow_ledger stock opened _ inv inserted
            dsimp only [reserveLines]
            rw [reserveLines_agree maxRetries opened input.orderId input.holdUntil _ _ input.reads
              kept ⟨_, listed, rfl, rfl⟩ (alone opened inserted)]
  exact ⟨same, by rw [tryReserve, tryReserve, same]⟩

/-- Two orders over variant 5: a repeated line is held once, and a missing variant is named. -/
def repeatedLine : TryInput where
  orderId := 1
  lines := [⟨5, 4⟩, ⟨5, 2⟩]
  holdUntil := 100
  reservationIds := [20, 21]
  reads := [[some ⟨10, 0, 0⟩], [some ⟨10, 4, 1⟩]]

def missingVariant : TryInput where
  orderId := 2
  lines := [⟨6, 1⟩, ⟨5, 3⟩]
  holdUntil := 100
  reservationIds := [22, 23]
  reads := [[some ⟨10, 4, 1⟩], [none]]

theorem strategies_agree_on_both :
    ∃ opened held,
      run (step 3) emptyStock [⟨.setOnHand 5 10, false⟩] = some opened ∧
      tryReserve .pessimistic 3 opened repeatedLine = (.ok .reserved, held) ∧
      tryReserve .optimistic 3 opened repeatedLine = (.ok .reserved, held) ∧
      held.reservations.length = 1 ∧
      tryTransaction .pessimistic 3 held missingVariant = .error (.insufficientStock 6 1 0) ∧
      tryTransaction .optimistic 3 held missingVariant = .error (.insufficientStock 6 1 0) := by
  refine ⟨_, (tryReserve .pessimistic 3 ⟨[⟨5, 10, 0, 0⟩], [], []⟩ repeatedLine).2, rfl, rfl, ?_,
    rfl,
    rfl, ?_⟩
  · exact (strategies_agree 3 [⟨.setOnHand 5 10, false⟩] _ rfl repeatedLine
      (alone_ownReads 3 _ repeatedLine)).2
  · exact (strategies_agree 3
      [⟨.setOnHand 5 10, false⟩, ⟨.tryReserve .pessimistic repeatedLine, false⟩] _ rfl
      missingVariant
      (alone_ownReads 3 _ missingVariant)).1

end Commerce.Inventory.Strategies
