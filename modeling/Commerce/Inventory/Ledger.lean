import Commerce.Lib.Results
import Commerce.Lib.Runs
import Commerce.Inventory.Stock

/-!
# The stock ledger

For every variant the reserved quantity is the sum of its held lines, and every
line's status is its header's.  Each operation restores both before it commits,
or leaves nothing behind.
-/

set_option autoImplicit false

namespace Commerce.Inventory

open Tables
open Results
open Runs

def heldAmount (variantId : Nat) (row : Reservation) : Int :=
  if row.variantId = variantId ∧ row.status = .held then row.quantity else 0

def Stock.heldQuantity (stock : Stock) (variantId : Nat) : Int :=
  tally (heldAmount variantId) stock.reservations

def ReservationStatus.header : ReservationStatus → ReservationOrderStatus
  | .held => .held
  | .released => .released
  | .committed => .committed
  | .restocked => .restocked

/-- Levels and lines agree: the part of the ledger that single lines keep. -/
structure Balanced (stock : Stock) : Prop where
  levelsKeyed : (stock.levels.map (·.variantId)).Nodup
  holdsKeyed : (stock.reservations.map (·.key)).Nodup
  covered : ∀ row ∈ stock.reservations, ∃ level ∈ stock.levels, level.variantId = row.variantId
  balance : ∀ level ∈ stock.levels, level.quantityReserved = stock.heldQuantity level.variantId
  bounds : ∀ level ∈ stock.levels,
    0 ≤ level.quantityReserved ∧ level.quantityReserved ≤ level.quantityOnHand

structure Ledger (stock : Stock) : Prop extends Balanced stock where
  headersKeyed : (stock.headers.map (·.orderId)).Nodup
  agree : ∀ row ∈ stock.reservations, ∃ header ∈ stock.headers,
    header.orderId = row.orderId ∧ header.status = row.status.header

/-! ## Statements on one level -/

theorem checkLevel_ok (level next : StockLevel) (success : checkLevel level = .ok next) :
    next = level ∧ 0 ≤ level.quantityReserved ∧
      level.quantityReserved ≤ level.quantityOnHand := by
  unfold checkLevel at success
  split_ifs at success with range oversold negative unreserved
  cases success
  exact ⟨rfl, by omega, by omega⟩

theorem findLevel_some (stock : Stock) (variantId : Nat) (level : StockLevel)
    (found : stock.findLevel variantId = some level) :
    level ∈ stock.levels ∧ level.variantId = variantId :=
  ⟨List.mem_of_find?_eq_some found, by simpa using List.find?_some found⟩

theorem findLevel_none (stock : Stock) (variantId : Nat)
    (absent : stock.findLevel variantId = none) :
    ∀ level ∈ stock.levels, level.variantId ≠ variantId := by
  simpa [Stock.findLevel] using absent

/-- An accepted update of a level writes one row within its bounds. -/
theorem updateLevel_ok (stock next : Stock) (variantId : Nat) (set : StockLevel → StockLevel)
    (level : StockLevel) (found : stock.findLevel variantId = some level)
    (success : stock.updateLevel variantId set = .ok next) :
    ∃ written : StockLevel,
      written = { set level with version := level.version + 1 } ∧
      0 ≤ written.quantityReserved ∧ written.quantityReserved ≤ written.quantityOnHand ∧
      next = { stock with
        levels := update (·.variantId) variantId (fun _ => written) stock.levels } := by
  simp only [Stock.updateLevel, found, bind_eq_ok] at success
  obtain ⟨written, checked, same⟩ := success
  obtain ⟨rfl, nonneg, covered⟩ := checkLevel_ok _ written checked
  cases same
  exact ⟨_, rfl, nonneg, covered, rfl⟩

/-- Replacing the one level of a variant together with the lines keeps the balance when the
new level counts the new lines and no other variant's held lines have changed. -/
theorem balanced_replace (stock next : Stock) (variantId : Nat) (level written : StockLevel)
    (inv : Balanced stock) (found : stock.findLevel variantId = some level)
    (named : written.variantId = variantId) (nonneg : 0 ≤ written.quantityReserved)
    (bounded : written.quantityReserved ≤ written.quantityOnHand)
    (levels : next.levels = update (·.variantId) variantId (fun _ => written) stock.levels)
    (keyed : (next.reservations.map (·.key)).Nodup)
    (known : ∀ row ∈ next.reservations,
      row.variantId = variantId ∨ ∃ old ∈ stock.reservations, old.variantId = row.variantId)
    (counted : written.quantityReserved = next.heldQuantity variantId)
    (others : ∀ other, other ≠ variantId → next.heldQuantity other = stock.heldQuantity other) :
    Balanced next := by
  obtain ⟨member, levelNamed⟩ := findLevel_some stock variantId level found
  have names : next.levels.map (·.variantId) = stock.levels.map (·.variantId) := by
    rw [levels, update, List.map_map]
    refine List.map_congr_left fun row _ => ?_
    simp only [Function.comp_apply]
    split <;> rename_i same <;> simp [named, same]
  have rows : ∀ row ∈ next.levels,
      row = written ∨ row ∈ stock.levels ∧ row.variantId ≠ variantId := by
    intro row present
    rw [levels, mem_update] at present
    obtain ⟨before, old, same⟩ := present
    split at same
    · exact .inl same.symm
    · exact .inr ⟨same ▸ old, same ▸ ‹_›⟩
  refine ⟨names ▸ inv.levelsKeyed, keyed, ?_, ?_, ?_⟩
  · intro row present
    have listed : row.variantId ∈ stock.levels.map (·.variantId) := by
      obtain here | ⟨old, oldMember, same⟩ := known row present
      · exact List.mem_map.mpr ⟨level, member, levelNamed.trans here.symm⟩
      · obtain ⟨covering, coveringMember, coveringNamed⟩ := inv.covered old oldMember
        exact List.mem_map.mpr ⟨covering, coveringMember, coveringNamed.trans same⟩
    rw [← names] at listed
    exact List.mem_map.mp listed
  · intro row present
    obtain rfl | ⟨old, different⟩ := rows row present
    · rw [named, counted]
    · rw [inv.balance row old, others row.variantId different]
  · intro row present
    obtain rfl | ⟨old, -⟩ := rows row present
    · exact ⟨nonneg, bounded⟩
    · exact inv.bounds row old

/-! ## Holding a line -/

theorem hold_ledger (stock raised next : Stock) (orderId id : Nat) (line : ReservationLine)
    (expiresAt : Int) (inv : Ledger stock)
    (opened : ∃ header ∈ stock.headers, header.orderId = orderId ∧ header.status = .held)
    (free : stock.isHeld orderId line.variantId = false) (level : StockLevel)
    (found : stock.findLevel line.variantId = some level)
    (raise : stock.updateLevel line.variantId (raiseReserved line.quantity) = .ok raised)
    (hold : raised.insertHold id orderId line.variantId line.quantity expiresAt = .ok next) :
    Ledger next ∧ next.headers = stock.headers := by
  obtain ⟨written, shape, nonneg, bounded, rfl⟩ :=
    updateLevel_ok stock raised line.variantId _ level found raise
  obtain ⟨member, named⟩ := findLevel_some stock line.variantId level found
  have unheld : ∀ row ∈ stock.reservations, row.key ≠ (orderId, line.variantId) := by
    intro row present same
    simp only [Reservation.key, Prod.mk.injEq] at same
    simp only [Stock.isHeld, List.any_eq_false] at free
    exact free row present (by simp [same.1, same.2])
  simp only [Stock.insertHold, Stock.isHeld] at hold
  rw [Stock.isHeld] at free
  rw [if_neg (by simp [free])] at hold
  split_ifs at hold with taken range
  cases hold
  have fresh : (orderId, line.variantId) ∉ stock.reservations.map (·.key) := by
    intro present
    obtain ⟨row, rowMember, same⟩ := List.mem_map.mp present
    exact unheld row rowMember same
  refine ⟨{ toBalanced := ?_, headersKeyed := inv.headersKeyed, agree := ?_ }, rfl⟩
  · refine balanced_replace stock _ line.variantId level written inv.toBalanced found
      (by simp [shape, raiseReserved, named]) nonneg bounded rfl ?_ ?_ ?_ ?_
    · simp only [List.map_append, List.map_cons, List.map_nil]
      exact List.nodup_append.mpr ⟨inv.holdsKeyed, List.nodup_singleton _, by
        rintro key present other alone rfl
        simp only [Reservation.key, List.mem_singleton] at alone
        exact fresh (alone ▸ present)⟩
    · intro row present
      rcases List.mem_append.mp present with old | new
      · exact .inr ⟨row, old, rfl⟩
      · exact .inl (by simp [List.mem_singleton.mp new])
    · simp [Stock.heldQuantity, heldAmount, shape, raiseReserved, inv.balance level member, named]
    · intro other different
      simp [Stock.heldQuantity, heldAmount, Ne.symm different]
  · intro row present
    rcases List.mem_append.mp present with old | new
    · exact inv.agree row old
    · obtain ⟨header, listed, about, held⟩ := opened
      exact ⟨header, listed, by simp [List.mem_singleton.mp new, about],
        by simp [List.mem_singleton.mp new, held, ReservationStatus.header]⟩

theorem reserveLine_ledger (stock next : Stock) (orderId id : Nat) (line : ReservationLine)
    (expiresAt : Int) (inv : Ledger stock)
    (opened : ∃ header ∈ stock.headers, header.orderId = orderId ∧ header.status = .held)
    (success : reserveLine stock orderId line id expiresAt = .ok next) :
    Ledger next ∧ next.headers = stock.headers := by
  unfold reserveLine at success
  cases found : stock.findLevel line.variantId with
  | none => simp [found] at success
  | some level =>
      simp only [found] at success
      split_ifs at success with held short
      · cases success
        exact ⟨inv, rfl⟩
      · obtain ⟨raised, raise, hold⟩ := (bind_eq_ok _ _ _).mp success
        exact hold_ledger stock raised next orderId id line expiresAt inv opened
          (by simpa using held)
          level found raise hold

theorem reservePessimistic_ledger (stock next : Stock) (orderId : Nat) (expiresAt : Int)
    (lines : List ReservationLine) (ids : List Nat) (inv : Ledger stock)
    (opened : ∃ header ∈ stock.headers, header.orderId = orderId ∧ header.status = .held)
    (success : reservePessimistic stock orderId expiresAt lines ids = .ok next) :
    Ledger next := by
  induction lines generalizing stock ids with
  | nil =>
      cases success
      exact inv
  | cons line rest ih =>
      cases ids with
      | nil => cases success
      | cons id ids =>
          obtain ⟨middle, held, success⟩ := (bind_eq_ok _ _ _).mp success
          obtain ⟨kept, headers⟩ :=
            reserveLine_ledger stock middle orderId id line expiresAt inv opened held
          exact ih middle ids kept (headers ▸ opened) success

theorem casReserve_ok (maxRetries : Nat) (stock : Stock) (orderId variantId : Nat)
    (quantity : Int) (attempt : Nat) (reads : List (Option LevelRead)) (raised : Stock)
    (success : casReserve maxRetries stock orderId variantId quantity attempt reads =
      .ok (some raised)) :
    stock.isHeld orderId variantId = false ∧ (∃ level, stock.findLevel variantId = some level) ∧
      stock.updateLevel variantId (raiseReserved quantity) = .ok raised := by
  induction reads generalizing attempt with
  | nil => cases success
  | cons read reads ih =>
      unfold casReserve at success
      split at success
      · cases success
      · rename_i free
        cases read with
        | none => cases success
        | some row =>
            simp only at success
            split_ifs at success with short exhausted holds
            · obtain ⟨level, raise, same⟩ := (bind_eq_ok _ _ _).mp success
              cases same
              refine ⟨by simpa using free, ?_, raise⟩
              unfold casHolds at holds
              cases found : stock.findLevel variantId with
              | none => simp [found] at holds
              | some level => exact ⟨level, rfl⟩
            · exact ih (attempt + 1) success

theorem reserveOptimistic_ledger (maxRetries : Nat) (stock next : Stock) (orderId : Nat)
    (expiresAt : Int) (lines : List ReservationLine) (ids : List Nat)
    (reads : List (List (Option LevelRead))) (inv : Ledger stock)
    (opened : ∃ header ∈ stock.headers, header.orderId = orderId ∧ header.status = .held)
    (success : reserveOptimistic maxRetries stock orderId expiresAt lines ids reads = .ok next) :
    Ledger next := by
  induction lines generalizing stock ids reads with
  | nil =>
      cases success
      exact inv
  | cons line rest ih =>
      cases ids with
      | nil => cases success
      | cons id ids =>
          cases reads with
          | nil => cases success
          | cons lineReads reads =>
              obtain ⟨swapped, cas, success⟩ := (bind_eq_ok _ _ _).mp success
              cases swapped with
              | none => exact ih stock ids reads inv opened success
              | some raised =>
                  obtain ⟨middle, hold, success⟩ := (bind_eq_ok _ _ _).mp success
                  obtain ⟨free, ⟨level, found⟩, raise⟩ :=
                    casReserve_ok maxRetries stock orderId _ _ 0 lineReads raised cas
                  obtain ⟨kept, headers⟩ := hold_ledger stock raised middle orderId id line
                    expiresAt inv opened free level found raise hold
                  exact ih middle ids reads kept (headers ▸ opened) success

/-! ## Resolving lines -/

@[simp] theorem flip_key (transition : LineTransition) (row : Reservation) :
    (flip transition row).key = row.key := by
  unfold flip
  split <;> rfl

@[simp] theorem flip_orderId (transition : LineTransition) (row : Reservation) :
    (flip transition row).orderId = row.orderId := by
  unfold flip
  split <;> rfl

@[simp] theorem flip_variantId (transition : LineTransition) (row : Reservation) :
    (flip transition row).variantId = row.variantId := by
  unfold flip
  split <;> rfl

@[simp] theorem flip_quantity (transition : LineTransition) (row : Reservation) :
    (flip transition row).quantity = row.quantity := by
  unfold flip
  split <;> rfl

theorem flip_of_source (transition : LineTransition) (row : Reservation)
    (pending : row.status = transition.source) :
    flip transition row = { row with status := transition.target } :=
  if_pos pending

theorem flip_of_not_source (transition : LineTransition) (row : Reservation)
    (settled : row.status ≠ transition.source) : flip transition row = row :=
  if_neg settled

theorem flip_flip (transition : LineTransition) (row : Reservation) :
    flip transition (flip transition row) = flip transition row := by
  by_cases pending : row.status = transition.source
  · rw [flip_of_source transition row pending]
    exact flip_of_not_source transition _ (by cases transition <;> simp [LineTransition.source,
      LineTransition.target])
  · rw [flip_of_not_source transition row pending, flip_of_not_source transition row pending]

/-- Flipping a pending line and moving its stock cancel out in the balance of the variant. -/
theorem stockDelta_counts (transition : LineTransition) (row : Reservation) (level : StockLevel)
    (pending : row.status = transition.source) :
    (stockDelta transition row.quantity level).quantityReserved =
      level.quantityReserved - heldAmount row.variantId row +
        heldAmount row.variantId (flip transition row) := by
  rw [flip_of_source transition row pending]
  cases transition <;>
    simp_all [stockDelta, heldAmount, LineTransition.source, LineTransition.target]

theorem heldAmount_other (variantId : Nat) (row : Reservation) (other : row.variantId ≠ variantId) :
    heldAmount variantId row = 0 := by
  simp [heldAmount, other]

theorem moveLine_balanced (stock next : Stock) (orderId : Nat) (transition : LineTransition)
    (line : Reservation) (inv : Balanced stock)
    (sized : ∀ row ∈ stock.reservations, row.key = (orderId, line.variantId) →
      row.quantity = line.quantity)
    (success : moveLine orderId transition stock line = .ok next) :
    Balanced next ∧ next.headers = stock.headers ∧
      next.reservations =
        update (·.key) (orderId, line.variantId) (flip transition) stock.reservations := by
  unfold moveLine at success
  split at success
  · rename_i present
    obtain ⟨row, member, matching⟩ := List.any_eq_true.mp present
    simp only [Bool.and_eq_true, beq_iff_eq] at matching
    obtain ⟨keyed, pending⟩ := matching
    have variant : row.variantId = line.variantId := congrArg Prod.snd keyed
    obtain ⟨covering, coveringMember, coveringNamed⟩ := inv.covered row member
    cases found : stock.findLevel line.variantId with
    | none =>
        exact absurd (coveringNamed.trans variant)
          (findLevel_none stock line.variantId found covering coveringMember)
    | some level =>
        obtain ⟨levelMember, named⟩ := findLevel_some stock line.variantId level found
        obtain ⟨written, shape, nonneg, bounded, rfl⟩ := updateLevel_ok
          { stock with
            reservations :=
              update (·.key) (orderId, line.variantId) (flip transition) stock.reservations }
          next line.variantId _ level found success
        have tallied := fun variantId => tally_update (·.key) (heldAmount variantId)
          (flip transition) stock.reservations row inv.holdsKeyed member
        rw [keyed] at tallied
        refine ⟨?_, rfl, rfl⟩
        refine balanced_replace stock _ line.variantId level written inv found ?_ nonneg bounded
          rfl ?_ ?_ ?_ ?_
        · rw [shape]
          cases transition <;> simp [stockDelta, named]
        · have keys := map_key_update (·.key) (orderId, line.variantId) (flip transition)
            stock.reservations (flip_key transition)
          exact (congrArg List.Nodup keys).mpr inv.holdsKeyed
        · intro flipped present
          obtain ⟨before, old, same⟩ := (mem_update _ _ _ _ _).mp present
          refine .inr ⟨before, old, ?_⟩
          rw [← same]
          split <;> simp
        · have counts := stockDelta_counts transition row level pending
          rw [variant, sized row member keyed] at counts
          rw [Stock.heldQuantity, tallied, shape]
          simp only [counts, inv.balance level levelMember, named, Stock.heldQuantity]
        · intro other different
          rw [Stock.heldQuantity, tallied, heldAmount_other other row (variant ▸ Ne.symm different),
            heldAmount_other other _ (by simpa [variant] using Ne.symm different)]
          simp [Stock.heldQuantity]
  · rename_i noPending
    cases success
    refine ⟨inv, rfl, ?_⟩
    have same : ∀ row ∈ stock.reservations,
        (if row.key = (orderId, line.variantId) then flip transition row else row) = id row := by
      intro row member
      split
      · rename_i keyed
        refine flip_of_not_source transition row fun pending => noPending ?_
        exact List.any_eq_true.mpr ⟨row, member, by simp [keyed, pending]⟩
      · rfl
    rw [update, List.map_congr_left same, List.map_id]

theorem moveLine_fold (orderId : Nat) (transition : LineTransition) (lines : List Reservation)
    (stock next : Stock) (inv : Balanced stock)
    (sized : ∀ line ∈ lines, ∀ row ∈ stock.reservations,
      row.key = (orderId, line.variantId) → row.quantity = line.quantity)
    (success : lines.foldlM (moveLine orderId transition) stock = .ok next) :
    Balanced next ∧ next.headers = stock.headers ∧
      next.reservations = stock.reservations.map fun row =>
        if row.orderId = orderId ∧ row.variantId ∈ lines.map (·.variantId) then flip transition row
        else row := by
  induction lines generalizing stock with
  | nil =>
      cases success
      simp [inv]
  | cons line rest ih =>
      rw [List.foldlM_cons] at success
      obtain ⟨middle, moved, success⟩ := (bind_eq_ok _ _ _).mp success
      obtain ⟨balanced, headers, rows⟩ := moveLine_balanced stock middle orderId transition line inv
        (sized line List.mem_cons_self) moved
      have sizedRest : ∀ other ∈ rest, ∀ row ∈ middle.reservations,
          row.key = (orderId, other.variantId) → row.quantity = other.quantity := by
        intro other member row present keyed
        rw [rows, mem_update] at present
        obtain ⟨before, old, rfl⟩ := present
        have same := sized other (List.mem_cons_of_mem _ member) before old
        split at keyed <;> split <;> simp_all
      obtain ⟨final, headersFinal, rowsFinal⟩ := ih middle balanced sizedRest success
      refine ⟨final, headersFinal.trans headers, ?_⟩
      rw [rowsFinal, rows, update, List.map_map]
      refine List.map_congr_left fun row _ => ?_
      simp only [Function.comp_apply, Reservation.key, Prod.mk.injEq, List.map_cons,
        List.mem_cons]
      by_cases about : row.orderId = orderId
      · by_cases here : row.variantId = line.variantId <;>
          by_cases later : row.variantId ∈ rest.map (·.variantId) <;>
          simp_all [flip_flip]
      · simp [about]

/-- Resolving an order flips every one of its lines that is in the source status. -/
theorem moveLines_ok (stock next : Stock) (orderId : Nat) (transition : LineTransition)
    (inv : Balanced stock) (success : moveLines stock orderId transition = .ok next) :
    Balanced next ∧ next.headers = stock.headers ∧
      next.reservations = stock.reservations.map fun row =>
        if row.orderId = orderId then flip transition row else row := by
  have listed : ∀ line, line ∈ (stock.reservations.filter fun row =>
      row.orderId == orderId && row.status == transition.source).insertionSort
        (fun a b => idLe a.variantId b.variantId) ↔
      line ∈ stock.reservations ∧ line.orderId = orderId ∧ line.status = transition.source := by
    intro line
    rw [List.mem_insertionSort]
    simp
  obtain ⟨balanced, headers, rows⟩ := moveLine_fold orderId transition _ stock next inv
    (by
      intro line member row present keyed
      obtain ⟨old, about, -⟩ := (listed line).mp member
      have same : row = line := eq_of_key (·.key) stock.reservations row line inv.holdsKeyed present
        old (by rw [keyed]; simp [Reservation.key, about])
      rw [same]) success
  refine ⟨balanced, headers, rows.trans ?_⟩
  refine List.map_congr_left fun row member => ?_
  by_cases about : row.orderId = orderId
  · by_cases pending : row.status = transition.source
    · have named := List.mem_map_of_mem (f := (·.variantId))
        ((listed row).mpr ⟨member, about, pending⟩)
      rw [if_pos ⟨about, named⟩, if_pos about]
    · rw [flip_of_not_source transition row pending]
      simp
  · rw [if_neg (fun both => about both.1), if_neg about]

/-! ## Whole transactions -/

theorem findHeader_some (stock : Stock) (orderId : Nat) (header : ReservationOrder)
    (found : stock.findHeader orderId = some header) :
    header ∈ stock.headers ∧ header.orderId = orderId :=
  ⟨List.mem_of_find?_eq_some found, by simpa using List.find?_some found⟩

theorem findHeader_none (stock : Stock) (orderId : Nat)
    (absent : stock.findHeader orderId = none) :
    ∀ header ∈ stock.headers, header.orderId ≠ orderId := by
  simpa [Stock.findHeader] using absent

/-- Moving an order's lines and then its header keeps the ledger. -/
theorem resolve_ledger (stock moved : Stock) (orderId : Nat) (transition : LineTransition)
    (header : ReservationOrder) (inv : Ledger stock)
    (found : stock.findHeader orderId = some header)
    (source : header.status = transition.source.header)
    (success : moveLines stock orderId transition = .ok moved) :
    Ledger (moved.setHeaderStatus orderId transition.target.header) := by
  obtain ⟨balanced, headers, rows⟩ := moveLines_ok stock moved orderId transition
    inv.toBalanced success
  obtain ⟨member, named⟩ := findHeader_some stock orderId header found
  refine { toBalanced := ?_, headersKeyed := ?_, agree := ?_ }
  · exact ⟨balanced.levelsKeyed, balanced.holdsKeyed, balanced.covered, balanced.balance,
      balanced.bounds⟩
  · have keys := map_key_update (·.orderId) orderId
      (fun row : ReservationOrder => { row with status := transition.target.header })
      moved.headers (fun _ => rfl)
    rw [headers] at keys
    simp only [Stock.setHeaderStatus, headers]
    exact (congrArg List.Nodup keys).mpr inv.headersKeyed
  · intro row present
    change row ∈ moved.reservations at present
    rw [rows] at present
    obtain ⟨before, old, same⟩ := List.mem_map.mp present
    obtain ⟨owner, ownerMember, owns, status⟩ := inv.agree before old
    by_cases about : before.orderId = orderId
    · have owner_eq : owner = header := eq_of_key (·.orderId) stock.headers owner header
        inv.headersKeyed ownerMember member (by rw [owns, about, named])
      have pending : before.status = transition.source := by
        rw [owner_eq, source] at status
        cases transition <;> cases known : before.status <;>
          simp_all [LineTransition.source, ReservationStatus.header]
      rw [if_pos about, flip_of_source transition before pending] at same
      refine ⟨{ header with status := transition.target.header }, ?_, ?_, ?_⟩
      · simp only [Stock.setHeaderStatus, headers]
        exact (mem_update _ _ _ _ _).mpr ⟨header, member, by rw [if_pos named]⟩
      · simp [← same, named, about]
      · simp [← same]
    · rw [if_neg about] at same
      refine ⟨owner, ?_, same ▸ owns, same ▸ status⟩
      simp only [Stock.setHeaderStatus, headers]
      exact (mem_update _ _ _ _ _).mpr ⟨owner, ownerMember, by rw [if_neg (owns ▸ about)]⟩

theorem insertHeaderRow_ledger (stock opened : Stock) (header : ReservationOrder)
    (inv : Ledger stock) (inserted : stock.insertHeaderRow header = (true, opened)) :
    Ledger opened ∧ header ∈ opened.headers := by
  unfold Stock.insertHeaderRow at inserted
  split at inserted
  · cases inserted
  · rename_i absent
    cases inserted
    refine ⟨{ toBalanced := ?_, headersKeyed := ?_, agree := ?_ }, by simp⟩
    · exact ⟨inv.levelsKeyed, inv.holdsKeyed, inv.covered, inv.balance, inv.bounds⟩
    · simp only [List.map_append, List.map_cons, List.map_nil]
      refine List.nodup_append.mpr ⟨inv.headersKeyed, List.nodup_singleton _, ?_⟩
      rintro orderId listed other alone rfl
      obtain ⟨owner, member, named⟩ := List.mem_map.mp listed
      exact findHeader_none stock header.orderId absent owner member
        (named.trans (List.mem_singleton.mp alone))
    · intro row present
      obtain ⟨owner, member, agrees⟩ := inv.agree row present
      exact ⟨owner, List.mem_append_left _ member, agrees⟩

theorem tryTransaction_ledger (strategy : LockStrategy) (maxRetries : Nat) (stock next : Stock)
    (input : TryInput) (outcome : TryReserveOutcome) (inv : Ledger stock)
    (success : tryTransaction strategy maxRetries stock input = .ok (outcome, next)) :
    Ledger next ∧ (outcome ≠ .reserved → next = stock) := by
  unfold tryTransaction at success
  split at success
  · rename_i opened inserted
    obtain ⟨kept, listed⟩ := insertHeaderRow_ledger stock opened _ inv inserted
    have held : ∃ header ∈ opened.headers,
        header.orderId = input.orderId ∧ header.status = .held := ⟨_, listed, rfl, rfl⟩
    obtain ⟨final, reserved, same⟩ := (bind_eq_ok _ _ _).mp success
    cases same
    refine ⟨?_, fun refused => absurd rfl refused⟩
    cases strategy with
    | pessimistic => exact reservePessimistic_ledger opened _ _ _ _ _ kept held reserved
    | optimistic => exact reserveOptimistic_ledger maxRetries opened _ _ _ _ _ _ kept held reserved
  · split at success <;> cases success <;> exact ⟨inv, fun _ => rfl⟩

theorem tryReserve_ledger (strategy : LockStrategy) (maxRetries : Nat) (stock : Stock)
    (input : TryInput) (inv : Ledger stock) :
    Ledger (tryReserve strategy maxRetries stock input).2 ∧
      ((tryReserve strategy maxRetries stock input).1 ≠ .ok .reserved →
        (tryReserve strategy maxRetries stock input).2 = stock) := by
  unfold tryReserve
  split
  · rename_i outcome next success
    obtain ⟨kept, refused⟩ :=
      tryTransaction_ledger strategy maxRetries stock next input outcome inv success
    exact ⟨kept, fun other => refused fun same => other (congrArg Except.ok same)⟩
  all_goals exact ⟨inv, fun _ => rfl⟩

/-- The fence lets a command through exactly when the header is where its lines are. -/
theorem fence_apply (command : LineTransition) (status next : ReservationOrderStatus)
    (applies : decideReservationFence command.op (some status) = .apply next) :
    status = command.source.header ∧ next = command.target.header := by
  cases command <;> cases status <;> cases applies <;> exact ⟨rfl, rfl⟩

theorem command_ledger (stock next : Stock) (command : LineTransition) (orderId : Nat)
    (outcome : ParticipantCommandOutcome) (inv : Ledger stock)
    (success : commandTransaction stock command orderId = .ok (outcome, next)) :
    Ledger next := by
  unfold commandTransaction at success
  split at success
  · rename_i absent
    split_ifs at success with releasing
    · cases success
      exact (insertHeaderRow_ledger stock _ ⟨orderId, .fenced, none⟩ inv
        (by simp [Stock.insertFencedHeader, Stock.insertHeaderRow, absent])).1
    · split at success <;> cases success <;> exact inv
  · rename_i header found
    split at success
    · rename_i status applies
      obtain ⟨moved, resolved, same⟩ := (bind_eq_ok _ _ _).mp success
      cases same
      obtain ⟨source, rfl⟩ := fence_apply command header.status status applies
      exact resolve_ledger stock moved orderId command header inv found source resolved
    · cases success
      exact inv
    · cases success
      exact inv

theorem sweep_ledger (stock next : Stock) (orderId : Nat) (now : Int) (released : Bool)
    (inv : Ledger stock) (success : sweepTransaction stock orderId now = .ok (released, next)) :
    Ledger next := by
  unfold sweepTransaction at success
  split at success
  · cases success
    exact inv
  · rename_i header found
    split_ifs at success with lapsed
    · obtain ⟨moved, resolved, same⟩ := (bind_eq_ok _ _ _).mp success
      cases same
      exact resolve_ledger stock moved orderId .release header inv found lapsed.1 resolved
    · cases success
      exact inv

theorem onHand_ledger (stock next : Stock) (variantId : Nat) (level : StockLevel)
    (set : StockLevel → StockLevel) (inv : Ledger stock)
    (found : stock.findLevel variantId = some level)
    (named : (set level).variantId = level.variantId)
    (reserved : (set level).quantityReserved = level.quantityReserved)
    (success : stock.updateLevel variantId set = .ok next) : Ledger next := by
  obtain ⟨written, shape, nonneg, bounded, rfl⟩ :=
    updateLevel_ok stock next variantId set level found success
  obtain ⟨member, about⟩ := findLevel_some stock variantId level found
  refine { toBalanced := ?_, headersKeyed := inv.headersKeyed, agree := inv.agree }
  refine balanced_replace stock _ variantId level written inv.toBalanced found
    (by rw [shape]; exact named.trans about) nonneg bounded rfl inv.holdsKeyed
    (fun row present => .inr ⟨row, present, rfl⟩) ?_ (fun _ _ => rfl)
  rw [shape]
  exact reserved.trans (about ▸ inv.balance level member)

theorem setOnHand_ledger (stock next : Stock) (variantId : Nat) (quantity : Int)
    (inv : Ledger stock) (success : setOnHand stock variantId quantity = .ok next) :
    Ledger next := by
  unfold setOnHand at success
  split at success
  · rename_i level found
    exact onHand_ledger stock next variantId level _ inv found rfl rfl success
  · rename_i absent
    obtain ⟨level, checked, same⟩ := (bind_eq_ok _ _ _).mp success
    cases same
    obtain ⟨rfl, nonneg, bounded⟩ := checkLevel_ok _ level checked
    have unnamed := findLevel_none stock variantId absent
    have unheld : stock.heldQuantity variantId = 0 := by
      refine tally_eq_zero _ _ fun row member => heldAmount_other variantId row ?_
      intro same
      obtain ⟨covering, coveringMember, coveringNamed⟩ := inv.covered row member
      exact unnamed covering coveringMember (coveringNamed.trans same)
    refine { levelsKeyed := ?_, holdsKeyed := inv.holdsKeyed, covered := ?_, balance := ?_,
             bounds := ?_, headersKeyed := inv.headersKeyed, agree := inv.agree }
    · simp only [List.map_append, List.map_cons, List.map_nil]
      refine List.nodup_append.mpr ⟨inv.levelsKeyed, List.nodup_singleton _, ?_⟩
      rintro named listed other alone rfl
      obtain ⟨level, member, same⟩ := List.mem_map.mp listed
      exact unnamed level member (same.trans (List.mem_singleton.mp alone))
    · intro row present
      obtain ⟨covering, coveringMember, coveringNamed⟩ := inv.covered row present
      exact ⟨covering, List.mem_append_left _ coveringMember, coveringNamed⟩
    · intro level present
      rcases List.mem_append.mp present with old | new
      · exact inv.balance level old
      · obtain rfl := List.mem_singleton.mp new
        exact unheld.symm
    · intro level present
      rcases List.mem_append.mp present with old | new
      · exact inv.bounds level old
      · obtain rfl := List.mem_singleton.mp new
        exact ⟨nonneg, bounded⟩

theorem adjust_ledger (stock next : Stock) (variantId : Nat) (delta : Int) (inv : Ledger stock)
    (success : adjust stock variantId delta = .ok (some next)) : Ledger next := by
  unfold adjust at success
  split at success
  · cases success
  · rename_i level found
    split_ifs at success with range below
    obtain ⟨written, update, same⟩ := (bind_eq_ok _ _ _).mp success
    cases same
    exact onHand_ledger stock _ variantId level _ inv found rfl rfl update

/-! ## Runs of committed transactions -/

inductive Operation where
  | tryReserve (strategy : LockStrategy) (input : TryInput)
  | command (command : LineTransition) (orderId : Nat)
  | sweep (orderId : Nat) (now : Int)
  | setOnHand (variantId : Nat) (quantity : Int)
  | adjust (variantId : Nat) (delta : Int)
  deriving DecidableEq, Repr

/-- One execution of an operation, cut off before its commit by its deadline or a crash, or not. -/
structure Execution where
  operation : Operation
  cutOff : Bool
  deriving DecidableEq, Repr

def perform (maxRetries : Nat) (stock : Stock) : Operation → Stock
  | .tryReserve strategy input => (tryReserve strategy maxRetries stock input).2
  | .command command orderId =>
      match commandTransaction stock command orderId with
      | .ok (_, next) => next
      | .error _ => stock
  | .sweep orderId now =>
      match sweepTransaction stock orderId now with
      | .ok (_, next) => next
      | .error _ => stock
  | .setOnHand variantId quantity =>
      match setOnHand stock variantId quantity with
      | .ok next => next
      | .error _ => stock
  | .adjust variantId delta =>
      match adjust stock variantId delta with
      | .ok (some next) => next
      | _ => stock

def step (maxRetries : Nat) (stock : Stock) (execution : Execution) : Option Stock :=
  some (if execution.cutOff then stock else perform maxRetries stock execution.operation)

theorem perform_ledger (maxRetries : Nat) (stock : Stock) (operation : Operation)
    (inv : Ledger stock) : Ledger (perform maxRetries stock operation) := by
  cases operation with
  | tryReserve strategy input => exact (tryReserve_ledger strategy maxRetries stock input inv).1
  | command command orderId =>
      simp only [perform]
      split
      · rename_i outcome next success
        exact command_ledger stock next command orderId outcome inv success
      · exact inv
  | sweep orderId now =>
      simp only [perform]
      split
      · rename_i released next success
        exact sweep_ledger stock next orderId now released inv success
      · exact inv
  | setOnHand variantId quantity =>
      simp only [perform]
      split
      · rename_i next success
        exact setOnHand_ledger stock next variantId quantity inv success
      · exact inv
  | adjust variantId delta =>
      simp only [perform]
      split
      · rename_i next success
        exact adjust_ledger stock next variantId delta inv success
      · exact inv

theorem step_ledger (maxRetries : Nat) (stock : Stock) (execution : Execution) (next : Stock)
    (inv : Ledger stock) (stepped : step maxRetries stock execution = some next) :
    Ledger next := by
  cases Option.some.inj stepped
  split
  · exact inv
  · exact perform_ledger maxRetries stock execution.operation inv

def emptyStock : Stock := ⟨[], [], []⟩

theorem emptyStock_ledger : Ledger emptyStock := by
  constructor
  · constructor <;> simp [emptyStock]
  · simp [emptyStock]
  · simp [emptyStock]

/-- After any committed transactions, in any order: every level's reserved quantity is the
sum of its variant's held lines and lies between zero and the on-hand quantity, every line
has its header's status, and a Try that is not answered `reserved` has changed nothing. -/
theorem stock_ledger (maxRetries : Nat) (executions : List Execution) (stock : Stock)
    (ran : run (step maxRetries) emptyStock executions = some stock) :
    (∀ level ∈ stock.levels, level.quantityReserved = stock.heldQuantity level.variantId ∧
      0 ≤ level.quantityReserved ∧ level.quantityReserved ≤ level.quantityOnHand) ∧
    (∀ variantId, (∀ level ∈ stock.levels, level.variantId ≠ variantId) →
      stock.heldQuantity variantId = 0) ∧
    (∀ row ∈ stock.reservations, (∃ header ∈ stock.headers, header.orderId = row.orderId) ∧
      ∀ header ∈ stock.headers, header.orderId = row.orderId →
        header.status = row.status.header) ∧
    (∀ header ∈ stock.headers, header.status = .fenced →
      ∀ row ∈ stock.reservations, row.orderId ≠ header.orderId) ∧
    ∀ strategy input, (tryReserve strategy maxRetries stock input).1 ≠ .ok .reserved →
      (tryReserve strategy maxRetries stock input).2.levels = stock.levels ∧
        (tryReserve strategy maxRetries stock input).2.reservations = stock.reservations := by
  have inv : Ledger stock := run_preserves (step maxRetries) Ledger (step_ledger maxRetries)
    executions emptyStock stock emptyStock_ledger ran
  have agrees : ∀ row ∈ stock.reservations, ∀ header ∈ stock.headers,
      header.orderId = row.orderId → header.status = row.status.header := by
    intro row member header listed about
    obtain ⟨owner, ownerListed, owns, status⟩ := inv.agree row member
    have same : header = owner := eq_of_key (·.orderId) stock.headers header owner
      inv.headersKeyed listed ownerListed (about.trans owns.symm)
    exact same ▸ status
  refine ⟨?_, ?_, ?_, ?_, ?_⟩
  · exact fun level member => ⟨inv.balance level member, inv.bounds level member⟩
  · intro variantId unnamed
    refine tally_eq_zero _ _ fun row member => heldAmount_other variantId row ?_
    intro same
    obtain ⟨covering, coveringMember, coveringNamed⟩ := inv.covered row member
    exact unnamed covering coveringMember (coveringNamed.trans same)
  · intro row member
    obtain ⟨owner, listed, owns, -⟩ := inv.agree row member
    exact ⟨⟨owner, listed, owns⟩, agrees row member⟩
  · intro header listed fenced row member about
    have status := agrees row member header listed about.symm
    rw [fenced] at status
    cases known : row.status <;> simp [known, ReservationStatus.header] at status
  · intro strategy input refused
    rw [(tryReserve_ledger strategy maxRetries stock input inv).2 refused]
    exact ⟨rfl, rfl⟩

/-- Two orders over one variant: a duplicate line, a refused Try, a refused lowering of the
on-hand quantity, a commit with its restock, and a lapsed hold. -/
def ledgerExecutions : List Execution :=
  [ ⟨.setOnHand 5 10, false⟩,
    ⟨.tryReserve .pessimistic ⟨1, [⟨5, 4⟩, ⟨5, 2⟩], 100, [20, 21], []⟩, false⟩,
    ⟨.tryReserve .optimistic ⟨2, [⟨5, 7⟩], 100, [22], [[some ⟨10, 4, 1⟩]]⟩, false⟩,
    ⟨.tryReserve .optimistic ⟨3, [⟨5, 5⟩], 100, [23],
      [[some ⟨10, 0, 0⟩, some ⟨10, 4, 1⟩]]⟩, false⟩,
    ⟨.setOnHand 5 3, false⟩, ⟨.command .commit 1, true⟩, ⟨.command .commit 1, false⟩,
    ⟨.command .restock 1, false⟩, ⟨.command .release 4, false⟩, ⟨.sweep 3 101, false⟩ ]

theorem stock_ledger_settled :
    ∃ stock, run (step 3) emptyStock ledgerExecutions = some stock ∧
      stock.levels.map (fun level => (level.quantityOnHand, level.quantityReserved)) =
        [(10, 0)] ∧
      stock.headers.map (·.status) = [.restocked, .released, .fenced] ∧
      ∀ level ∈ stock.levels, level.quantityReserved = stock.heldQuantity level.variantId := by
  refine ⟨_, rfl, by decide, by decide, ?_⟩
  intro level member
  exact ((stock_ledger 3 ledgerExecutions _ rfl).1 level member).1

end Commerce.Inventory
