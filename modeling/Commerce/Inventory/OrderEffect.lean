import Commerce.Inventory.Ledger

/-!
# What one order does to the stock

The steps of one order, whatever they are and however often they are repeated,
move the levels by what its header says: the reserved quantity while it is held,
the on-hand quantity while it is committed, and nothing otherwise.  Other
orders and the operator may act in between; what they move is not the order's.
-/

set_option autoImplicit false

namespace Commerce.Inventory

open Tables
open Results
open Runs

namespace Stock

def onHand (stock : Stock) (variantId : Nat) : Int :=
  ((stock.findLevel variantId).map (·.quantityOnHand)).getD 0

def reserved (stock : Stock) (variantId : Nat) : Int :=
  ((stock.findLevel variantId).map (·.quantityReserved)).getD 0

def statusOf (stock : Stock) (orderId : Nat) : Option ReservationOrderStatus :=
  (stock.findHeader orderId).map (·.status)

end Stock

def lineAmount (orderId variantId : Nat) (row : Reservation) : Int :=
  if row.orderId = orderId ∧ row.variantId = variantId then row.quantity else 0

def amountIn (status : ReservationStatus) (orderId variantId : Nat) (row : Reservation) : Int :=
  if row.status = status then lineAmount orderId variantId row else 0

def Stock.quantityOf (stock : Stock) (orderId variantId : Nat) : Int :=
  tally (lineAmount orderId variantId) stock.reservations

def Stock.quantityIn (stock : Stock) (status : ReservationStatus) (orderId variantId : Nat) : Int :=
  tally (amountIn status orderId variantId) stock.reservations

/-- What the clamp of a restock keeps back: only what would not fit the column. -/
def clampedAmount (stock : Stock) (orderId variantId : Nat) (row : Reservation) : Int :=
  if row.status = .committed ∧ row.orderId = orderId ∧ row.variantId = variantId then
    max 0 (stock.onHand variantId + row.quantity - int4Max)
  else 0

def Stock.clamped (stock : Stock) (orderId variantId : Nat) : Int :=
  tally (clampedAmount stock orderId variantId) stock.reservations

/-! ## The lines and their header -/

/-- The order's lines are all in the status its header says. -/
theorem quantityIn_of_ledger (stock : Stock) (orderId variantId : Nat) (status : ReservationStatus)
    (inv : Ledger stock) :
    stock.quantityIn status orderId variantId =
      if stock.statusOf orderId = some status.header then stock.quantityOf orderId variantId
        else 0 := by
  have own : ∀ row ∈ stock.reservations, row.orderId = orderId →
      stock.statusOf orderId = some row.status.header := by
    rintro row listed rfl
    obtain ⟨header, present, about, agrees⟩ := inv.agree row listed
    cases found : stock.findHeader row.orderId with
    | none => exact absurd about (findHeader_none stock row.orderId found header present)
    | some other =>
        obtain ⟨otherListed, otherAbout⟩ := findHeader_some stock row.orderId other found
        have same : other = header := eq_of_key (·.orderId) stock.headers other header
          inv.headersKeyed otherListed present (otherAbout.trans about.symm)
        simp [Stock.statusOf, found, same, agrees]
  have injective : ∀ one two : ReservationStatus, one.header = two.header → one = two := by
    intro one two same
    cases one <;> cases two <;> first | rfl | cases same
  split
  · rename_i current
    refine congrArg List.sum (List.map_congr_left fun row listed => ?_)
    by_cases about : row.orderId = orderId
    · have status' := injective _ _ (Option.some.inj ((own row listed about).symm.trans current))
      simp [amountIn, status']
    · simp [amountIn, lineAmount, about]
  · rename_i other
    refine tally_eq_zero _ _ fun row listed => ?_
    by_cases about : row.orderId = orderId
    · have differs : row.status ≠ status := by
        rintro rfl
        exact other (own row listed about)
      simp [amountIn, differs]
    · simp [amountIn, lineAmount, about]

theorem reserved_of_ledger (stock : Stock) (variantId : Nat) (inv : Ledger stock) :
    stock.reserved variantId = stock.heldQuantity variantId := by
  cases found : stock.findLevel variantId with
  | some level =>
      obtain ⟨listed, named⟩ := findLevel_some stock variantId level found
      simp [Stock.reserved, found, inv.balance level listed, named]
  | none =>
      have unheld : stock.heldQuantity variantId = 0 := by
        refine tally_eq_zero _ _ fun row member => heldAmount_other variantId row ?_
        intro same
        obtain ⟨covering, listed, named⟩ := inv.covered row member
        exact findLevel_none stock variantId found covering listed (named.trans same)
      simp [Stock.reserved, found, unheld]

/-! ## What one step of an order does -/

/-- Writes of the order's lines: they touch no header and no other order's lines, and move the
on-hand quantities by what was sold and what came back, less what the clamp kept. -/
structure OwnStep (stock next : Stock) (orderId : Nat) (clamped : Nat → Int) : Prop where
  headers : next.headers = stock.headers
  others : next.reservations.filter (·.orderId ≠ orderId) =
    stock.reservations.filter (·.orderId ≠ orderId)
  onHand : ∀ variantId, next.onHand variantId + next.quantityIn .committed orderId variantId =
    stock.onHand variantId + stock.quantityIn .committed orderId variantId - clamped variantId

theorem OwnStep.refl (stock : Stock) (orderId : Nat) : OwnStep stock stock orderId fun _ => 0 :=
  ⟨rfl, rfl, fun _ => by simp⟩

theorem OwnStep.trans (stock middle next : Stock) (orderId : Nat)
    (first : OwnStep stock middle orderId fun _ => 0)
    (second : OwnStep middle next orderId fun _ => 0) : OwnStep stock next orderId fun _ => 0 := by
  refine ⟨second.headers.trans first.headers, second.others.trans first.others,
    fun variantId => ?_⟩
  have one := first.onHand variantId
  have two := second.onHand variantId
  omega

/-! ## The statements -/

theorem findLevel_update (stock : Stock) (variantId other : Nat) (written : StockLevel)
    (named : written.variantId = variantId) :
    Stock.findLevel { stock with
      levels := update (·.variantId) variantId (fun _ => written) stock.levels } other =
      (stock.findLevel other).map fun level => if other = variantId then written else level := by
  simp only [Stock.findLevel, update, List.find?_map]
  have same : ((fun level : StockLevel => level.variantId == other) ∘ fun row =>
      if row.variantId = variantId then written else row) = fun level =>
          level.variantId == other := by
    funext row
    simp only [Function.comp_apply]
    split
    · rename_i here
      rw [named, here]
    · rfl
  rw [same]
  cases found : stock.levels.find? fun level => level.variantId == other with
  | none => rfl
  | some level =>
      have about : level.variantId = other := by simpa using List.find?_some found
      simp [about]

theorem updateLevel_onHand (stock next : Stock) (variantId : Nat) (set : StockLevel → StockLevel)
    (level : StockLevel) (found : stock.findLevel variantId = some level)
    (named : (set level).variantId = level.variantId)
    (success : stock.updateLevel variantId set = .ok next) :
    next.reservations = stock.reservations ∧ next.headers = stock.headers ∧
      ∀ other, next.onHand other =
        if other = variantId then (set level).quantityOnHand else stock.onHand other := by
  obtain ⟨written, shape, -, -, rfl⟩ := updateLevel_ok stock next variantId set level found success
  obtain ⟨-, about⟩ := findLevel_some stock variantId level found
  have writtenNamed : written.variantId = variantId := by rw [shape]; exact named.trans about
  refine ⟨rfl, rfl, fun other => ?_⟩
  rw [Stock.onHand, findLevel_update stock variantId other written writtenNamed]
  by_cases here : other = variantId
  · subst here
    simp [found, shape]
  · simp [here, Stock.onHand]

theorem insertHold_ok (stock next : Stock) (id orderId variantId : Nat) (quantity expiresAt : Int)
    (success : stock.insertHold id orderId variantId quantity expiresAt = .ok next) :
    next = stock ∨ next = { stock with
      reservations :=
        stock.reservations ++ [⟨id, orderId, variantId, quantity, .held, expiresAt⟩] } := by
  unfold Stock.insertHold at success
  split_ifs at success <;> cases success
  · exact .inl rfl
  · exact .inr rfl

/-! ## A Try -/

theorem hold_own (stock raised next : Stock) (orderId id : Nat) (line : ReservationLine)
    (expiresAt : Int) (level : StockLevel) (found : stock.findLevel line.variantId = some level)
    (raise : stock.updateLevel line.variantId (raiseReserved line.quantity) = .ok raised)
    (hold : raised.insertHold id orderId line.variantId line.quantity expiresAt = .ok next) :
    OwnStep stock next orderId fun _ => 0 := by
  obtain ⟨lines, headers, onHand⟩ := updateLevel_onHand stock raised line.variantId _ level found
    rfl raise
  have unsold : ∀ variantId, raised.onHand variantId = stock.onHand variantId := by
    intro variantId
    rw [onHand]
    split
    · rename_i here
      simp [here, Stock.onHand, found, raiseReserved]
    · rfl
  rcases insertHold_ok raised next id orderId line.variantId line.quantity expiresAt hold with
    rfl | rfl
  · refine ⟨headers, by rw [lines], fun variantId => ?_⟩
    rw [unsold, Stock.quantityIn, lines]
    exact (Int.sub_zero _).symm
  · refine ⟨headers, by simp [lines], fun variantId => ?_⟩
    have sameOnHand : Stock.onHand { raised with
        reservations := raised.reservations ++
          [⟨id, orderId, line.variantId, line.quantity, .held, expiresAt⟩] } variantId =
        raised.onHand variantId := rfl
    rw [sameOnHand, unsold, Stock.quantityIn, Stock.quantityIn, lines]
    simp [amountIn]

theorem reserveLine_own (stock next : Stock) (orderId id : Nat) (line : ReservationLine)
    (expiresAt : Int) (success : reserveLine stock orderId line id expiresAt = .ok next) :
    OwnStep stock next orderId fun _ => 0 := by
  unfold reserveLine at success
  cases found : stock.findLevel line.variantId with
  | none => simp [found] at success
  | some level =>
      simp only [found] at success
      split_ifs at success with held short
      · cases success
        exact OwnStep.refl stock orderId
      · obtain ⟨raised, raise, hold⟩ := (bind_eq_ok _ _ _).mp success
        exact hold_own stock raised next orderId id line expiresAt level found raise hold

theorem reservePessimistic_own (stock next : Stock) (orderId : Nat) (expiresAt : Int)
    (lines : List ReservationLine) (ids : List Nat)
    (success : reservePessimistic stock orderId expiresAt lines ids = .ok next) :
    OwnStep stock next orderId fun _ => 0 := by
  induction lines generalizing stock ids with
  | nil =>
      cases success
      exact OwnStep.refl _ orderId
  | cons line rest ih =>
      cases ids with
      | nil => cases success
      | cons id ids =>
          obtain ⟨middle, held, success⟩ := (bind_eq_ok _ _ _).mp success
          exact OwnStep.trans stock middle next orderId
            (reserveLine_own stock middle orderId id line expiresAt held) (ih middle ids success)

theorem reserveOptimistic_own (maxRetries : Nat) (stock next : Stock) (orderId : Nat)
    (expiresAt : Int) (lines : List ReservationLine) (ids : List Nat)
    (reads : List (List (Option LevelRead)))
    (success : reserveOptimistic maxRetries stock orderId expiresAt lines ids reads = .ok next) :
    OwnStep stock next orderId fun _ => 0 := by
  induction lines generalizing stock ids reads with
  | nil =>
      cases success
      exact OwnStep.refl _ orderId
  | cons line rest ih =>
      cases ids with
      | nil => cases success
      | cons id ids =>
          cases reads with
          | nil => cases success
          | cons lineReads reads =>
              obtain ⟨swapped, cas, success⟩ := (bind_eq_ok _ _ _).mp success
              cases swapped with
              | none => exact ih stock ids reads success
              | some raised =>
                  obtain ⟨middle, hold, success⟩ := (bind_eq_ok _ _ _).mp success
                  obtain ⟨-, ⟨level, found⟩, raise⟩ :=
                    casReserve_ok maxRetries stock orderId _ _ 0 lineReads raised cas
                  exact OwnStep.trans stock middle next orderId
                    (hold_own stock raised middle orderId id line expiresAt level found raise hold)
                    (ih middle ids reads success)

/-! ## Resolving the lines -/

def LineTransition.onHand (transition : LineTransition) (quantity onHand : Int) : Int :=
  match transition with
  | .commit => onHand - quantity
  | .release => onHand
  | .restock => min (onHand + quantity) int4Max

theorem stockDelta_onHand (transition : LineTransition) (quantity : Int) (level : StockLevel) :
    (stockDelta transition quantity level).quantityOnHand =
      transition.onHand quantity level.quantityOnHand ∧
      (stockDelta transition quantity level).variantId = level.variantId := by
  cases transition <;> exact ⟨rfl, rfl⟩

theorem moveLine_onHand (stock next : Stock) (orderId : Nat) (transition : LineTransition)
    (line row : Reservation) (inv : Balanced stock) (listed : row ∈ stock.reservations)
    (keyed : row.key = (orderId, line.variantId)) (pending : row.status = transition.source)
    (success : moveLine orderId transition stock line = .ok next) :
    next.reservations = update (·.key) (orderId, line.variantId) (flip transition)
      stock.reservations ∧
    ∀ other, next.onHand other =
      if other = line.variantId then transition.onHand line.quantity (stock.onHand other)
      else stock.onHand other := by
  unfold moveLine at success
  rw [if_pos (List.any_eq_true.mpr ⟨row, listed, by simp [keyed, pending]⟩)] at success
  obtain ⟨covering, coveringListed, coveringNamed⟩ := inv.covered row listed
  have variant : row.variantId = line.variantId := congrArg Prod.snd keyed
  cases found : stock.findLevel line.variantId with
  | none =>
      exact absurd (coveringNamed.trans variant)
        (findLevel_none stock line.variantId found covering coveringListed)
  | some level =>
      obtain ⟨rows, -, onHand⟩ := updateLevel_onHand
        { stock with
          reservations :=
            update (·.key) (orderId, line.variantId) (flip transition) stock.reservations }
        next line.variantId _ level found (stockDelta_onHand transition line.quantity level).2
          success
      refine ⟨rows, fun other => (onHand other).trans ?_⟩
      split
      · rename_i here
        rw [(stockDelta_onHand transition line.quantity level).1, here, Stock.onHand, found]
        rfl
      · rfl

theorem moveLine_fold_onHand (orderId : Nat) (transition : LineTransition)
    (lines : List Reservation) (stock next : Stock) (inv : Balanced stock)
    (pending : ∀ line ∈ lines, line ∈ stock.reservations ∧ line.orderId = orderId ∧
      line.status = transition.source)
    (apart : (lines.map (·.variantId)).Nodup)
    (success : lines.foldlM (moveLine orderId transition) stock = .ok next) :
    (∀ line ∈ lines, next.onHand line.variantId =
      transition.onHand line.quantity (stock.onHand line.variantId)) ∧
    ∀ other, other ∉ lines.map (·.variantId) → next.onHand other = stock.onHand other := by
  induction lines generalizing stock with
  | nil =>
      cases success
      exact ⟨fun _ absent => (nomatch absent), fun _ _ => rfl⟩
  | cons line rest ih =>
      rw [List.foldlM_cons] at success
      obtain ⟨middle, moved, success⟩ := (bind_eq_ok _ _ _).mp success
      obtain ⟨listed, about, waiting⟩ := pending line List.mem_cons_self
      have keyed : line.key = (orderId, line.variantId) := by rw [← about]; rfl
      obtain ⟨fresh, apartRest⟩ := List.nodup_cons.mp apart
      obtain ⟨rows, onHand⟩ :=
        moveLine_onHand stock middle orderId transition line line inv listed keyed waiting moved
      have sized : ∀ row ∈ stock.reservations, row.key = (orderId, line.variantId) →
          row.quantity = line.quantity := by
        intro row present same
        rw [eq_of_key (·.key) stock.reservations row line inv.holdsKeyed present listed
          (same.trans keyed.symm)]
      obtain ⟨balanced, -, -⟩ :=
        moveLine_balanced stock middle orderId transition line inv sized moved
      have stillPending : ∀ other ∈ rest, other ∈ middle.reservations ∧ other.orderId = orderId ∧
          other.status = transition.source := by
        intro other member
        obtain ⟨present, own, waits⟩ := pending other (List.mem_cons_of_mem _ member)
        refine ⟨?_, own, waits⟩
        rw [rows, mem_update]
        refine ⟨other, present, if_neg fun same => fresh ?_⟩
        exact List.mem_map.mpr ⟨other, member, congrArg Prod.snd same⟩
      obtain ⟨later, untouched⟩ := ih middle balanced stillPending apartRest success
      refine ⟨fun other member => ?_, fun other absent => ?_⟩
      · rcases List.mem_cons.mp member with rfl | behind
        · rw [untouched _ fresh, onHand, if_pos rfl]
        · have different : other.variantId ≠ line.variantId := fun same =>
            fresh (List.mem_map.mpr ⟨other, behind, same⟩)
          rw [later other behind, onHand, if_neg different]
      · rw [List.map_cons, List.mem_cons, not_or] at absent
        rw [untouched other absent.2, onHand, if_neg absent.1]

theorem moveLines_onHand (stock next : Stock) (orderId : Nat) (transition : LineTransition)
    (inv : Balanced stock) (success : moveLines stock orderId transition = .ok next) :
    (∀ row ∈ stock.reservations, row.orderId = orderId → row.status = transition.source →
      next.onHand row.variantId = transition.onHand row.quantity (stock.onHand row.variantId)) ∧
    ∀ variantId, (∀ row ∈ stock.reservations, row.orderId = orderId →
      row.status = transition.source → row.variantId ≠ variantId) →
        next.onHand variantId = stock.onHand variantId := by
  have listed : ∀ line, line ∈ (stock.reservations.filter fun row =>
      row.orderId == orderId && row.status == transition.source).insertionSort
        (fun a b => idLe a.variantId b.variantId) ↔
      line ∈ stock.reservations ∧ line.orderId = orderId ∧ line.status = transition.source := by
    intro line
    rw [List.mem_insertionSort]
    simp
  have apart : (((stock.reservations.filter fun row =>
      row.orderId == orderId && row.status == transition.source).insertionSort
        (fun a b => idLe a.variantId b.variantId)).map (·.variantId)).Nodup := by
    have order := List.perm_insertionSort (fun a b : Reservation => idLe a.variantId b.variantId)
      (stock.reservations.filter fun row =>
        row.orderId == orderId && row.status == transition.source)
    refine (order.map _).nodup_iff.mpr (List.Nodup.map_on ?_
      ((List.Nodup.of_map _ inv.holdsKeyed).filter _))
    intro one memberOne two memberTwo same
    simp only [List.mem_filter, Bool.and_eq_true, beq_iff_eq] at memberOne memberTwo
    exact eq_of_key (·.key) stock.reservations one two inv.holdsKeyed memberOne.1 memberTwo.1
      (by simp [Reservation.key, memberOne.2.1, memberTwo.2.1, same])
  obtain ⟨moved, untouched⟩ := moveLine_fold_onHand orderId transition _ stock next inv
    (fun line member => (listed line).mp member) apart success
  refine ⟨fun row member about pending => moved row ((listed row).mpr ⟨member, about, pending⟩),
    fun variantId none => untouched variantId fun named => ?_⟩
  obtain ⟨row, member, same⟩ := List.mem_map.mp named
  obtain ⟨present, about, pending⟩ := (listed row).mp member
  exact none row present about pending same

theorem amountIn_other (status : ReservationStatus) (orderId variantId : Nat) (row : Reservation)
    (other : row.key ≠ (orderId, variantId)) : amountIn status orderId variantId row = 0 := by
  unfold amountIn lineAmount
  split
  · exact if_neg fun both => other (by simp [Reservation.key, both.1, both.2])
  · rfl

def LineTransition.clamped (transition : LineTransition) (stock : Stock) (orderId variantId : Nat) :
    Int :=
  if transition = .restock then stock.clamped orderId variantId else 0

/-- A pending line gives its variant what its transition says, up to the clamp. -/
theorem onHand_of_pending (transition : LineTransition) (stock : Stock) (orderId variantId : Nat)
    (row : Reservation) (keyed : row.key = (orderId, variantId))
    (pending : row.status = transition.source) (clamped : Int)
    (kept : clamped = if transition = .restock then
      max 0 (stock.onHand variantId + row.quantity - int4Max) else 0) :
    transition.onHand row.quantity (stock.onHand variantId) +
        amountIn .committed orderId variantId (flip transition row) =
      stock.onHand variantId + amountIn .committed orderId variantId row - clamped := by
  obtain ⟨about, variant⟩ := Prod.mk.inj keyed
  rw [flip_of_source transition row pending]
  cases transition <;>
    simp only [LineTransition.onHand, LineTransition.source, LineTransition.target, amountIn,
      lineAmount, pending, about, variant, reduceCtorEq, if_true, if_false, and_self] at kept ⊢ <;>
    omega

theorem moveLines_own (stock moved : Stock) (orderId : Nat) (transition : LineTransition)
    (inv : Balanced stock) (success : moveLines stock orderId transition = .ok moved) :
    OwnStep stock moved orderId (transition.clamped stock orderId) := by
  obtain ⟨balanced, headers, rows⟩ := moveLines_ok stock moved orderId transition inv success
  obtain ⟨moves, untouched⟩ := moveLines_onHand stock moved orderId transition inv success
  refine ⟨headers, ?_, fun variantId => ?_⟩
  · rw [rows]
    refine filter_map_of_kept _ _ _ (fun row => ?_) fun row other => ?_
    · split <;> simp
    · rw [if_neg (by simpa using other)]
  by_cases waiting : ∃ row ∈ stock.reservations, row.orderId = orderId ∧
      row.status = transition.source ∧ row.variantId = variantId
  · obtain ⟨row, listed, about, pending, variant⟩ := waiting
    have keyed : row.key = (orderId, variantId) := by simp [Reservation.key, about, variant]
    have before : stock.quantityIn .committed orderId variantId =
        amountIn .committed orderId variantId row :=
      tally_single (·.key) _ _ row inv.holdsKeyed listed fun other _ different =>
        amountIn_other _ _ _ other (keyed ▸ different)
    have flipped : flip transition row ∈ moved.reservations := by
      rw [rows]
      exact List.mem_map.mpr ⟨row, listed, if_pos about⟩
    have after : moved.quantityIn .committed orderId variantId =
        amountIn .committed orderId variantId (flip transition row) :=
      tally_single (·.key) _ _ _ balanced.holdsKeyed flipped fun other _ different =>
        amountIn_other _ _ _ other (by rwa [flip_key, keyed] at different)
    have kept : transition.clamped stock orderId variantId = if transition = .restock then
        max 0 (stock.onHand variantId + row.quantity - int4Max) else 0 := by
      unfold LineTransition.clamped
      split
      · rename_i restock
        have committed : row.status = .committed := by rw [pending, restock]; rfl
        refine (tally_single (·.key) _ _ row inv.holdsKeyed listed fun other _ different =>
          ?_).trans
          (if_pos ⟨committed, about, variant⟩)
        exact if_neg fun both => different ((Prod.ext both.2.1 both.2.2).trans keyed.symm)
      · rfl
    have moved' := moves row listed about pending
    rw [variant] at moved'
    rw [moved', before, after]
    exact onHand_of_pending transition stock orderId variantId row keyed pending _ kept
  · have settled : ∀ row ∈ stock.reservations, row.orderId = orderId →
        row.status = transition.source → row.variantId ≠ variantId :=
      fun row listed about pending variant => waiting ⟨row, listed, about, pending, variant⟩
    have same : moved.quantityIn .committed orderId variantId =
        stock.quantityIn .committed orderId variantId := by
      rw [Stock.quantityIn, Stock.quantityIn, rows]
      refine tally_map _ _ _ fun row listed => ?_
      split
      · rename_i about
        by_cases pending : row.status = transition.source
        · have other := settled row listed about pending
          rw [amountIn_other _ _ _ row (by simp [Reservation.key, other]),
            amountIn_other _ _ _ _ (by simp [Reservation.key, other])]
        · rw [flip_of_not_source transition row pending]
      · rfl
    have unclamped : transition.clamped stock orderId variantId = 0 := by
      unfold LineTransition.clamped
      split
      · rename_i restock
        refine tally_eq_zero _ _ fun row listed => if_neg fun both => ?_
        exact settled row listed both.2.1 (by rw [both.1, restock]; rfl) both.2.2
      · rfl
    rw [untouched variantId settled, same, unclamped, Int.sub_zero]

/-! ## The order's header -/

/-- Where a header may go in one step. -/
def HeaderEdge : Option ReservationOrderStatus → Option ReservationOrderStatus → Prop
  | none, some .held | none, some .fenced | some .held, some .committed
  | some .held, some .released | some .committed, some .restocked => True
  | before, after => before = after

theorem statusOf_setHeaderStatus (stock : Stock) (orderId other : Nat)
    (status : ReservationOrderStatus) :
    (stock.setHeaderStatus orderId status).statusOf other =
      (stock.statusOf other).map fun current => if other = orderId then status else current := by
  simp only [Stock.statusOf, Stock.findHeader, Stock.setHeaderStatus, update, List.find?_map]
  have same : ((fun header : ReservationOrder => header.orderId == other) ∘ fun row =>
      if row.orderId = orderId then { row with status := status } else row) =
      fun header => header.orderId == other := by
    funext row
    simp only [Function.comp_apply]
    split <;> rfl
  rw [same]
  cases found : stock.headers.find? fun header => header.orderId == other with
  | none => rfl
  | some header =>
      have about : header.orderId = other := by simpa using List.find?_some found
      by_cases here : other = orderId <;> simp [about, here]

theorem statusOf_insertHeaderRow (stock opened : Stock) (header : ReservationOrder) (other : Nat)
    (inserted : stock.insertHeaderRow header = (true, opened)) :
    stock.statusOf header.orderId = none ∧ opened.statusOf other =
      if other = header.orderId then some header.status else stock.statusOf other := by
  unfold Stock.insertHeaderRow at inserted
  split at inserted
  · cases inserted
  rename_i absent
  cases inserted
  refine ⟨by simp [Stock.statusOf, absent], ?_⟩
  simp only [Stock.statusOf, Stock.findHeader, List.find?_append] at absent ⊢
  by_cases here : other = header.orderId
  · subst here
    simp [absent]
  · cases found : stock.headers.find? fun row => row.orderId == other <;>
      simp [here, Ne.symm here]

structure OwnHeader (stock next : Stock) (orderId : Nat) : Prop where
  edge : HeaderEdge (stock.statusOf orderId) (next.statusOf orderId)
  others : ∀ other, other ≠ orderId → next.statusOf other = stock.statusOf other

theorem HeaderEdge.refl (status : Option ReservationOrderStatus) : HeaderEdge status status := by
  cases status with
  | none => rfl
  | some status => cases status <;> rfl

theorem OwnHeader.refl (stock : Stock) (orderId : Nat) : OwnHeader stock stock orderId :=
  ⟨HeaderEdge.refl _, fun _ _ => rfl⟩

theorem statusOf_of_headers (stock next : Stock) (same : next.headers = stock.headers)
    (orderId : Nat) : next.statusOf orderId = stock.statusOf orderId := by
  simp [Stock.statusOf, Stock.findHeader, same]

theorem ownHeader_insert (stock opened next : Stock) (header : ReservationOrder)
    (status : header.status = .held ∨ header.status = .fenced)
    (inserted : stock.insertHeaderRow header = (true, opened))
    (headers : next.headers = opened.headers) : OwnHeader stock next header.orderId := by
  refine ⟨?_, fun other different => ?_⟩
  · obtain ⟨absent, present⟩ :=
      statusOf_insertHeaderRow stock opened header header.orderId inserted
    rw [statusOf_of_headers opened next headers, absent, present, if_pos rfl]
    rcases status with held | fenced
    · rw [held]; trivial
    · rw [fenced]; trivial
  · rw [statusOf_of_headers opened next headers,
      (statusOf_insertHeaderRow stock opened header other inserted).2, if_neg different]

theorem ownHeader_resolve (stock moved : Stock) (orderId : Nat) (transition : LineTransition)
    (header : ReservationOrder) (found : stock.findHeader orderId = some header)
    (source : header.status = transition.source.header) (headers : moved.headers = stock.headers) :
    OwnHeader stock (moved.setHeaderStatus orderId transition.target.header) orderId := by
  have current : stock.statusOf orderId = some transition.source.header := by
    simp [Stock.statusOf, found, source]
  refine ⟨?_, fun other different => ?_⟩
  · rw [statusOf_setHeaderStatus, statusOf_of_headers stock moved headers, current, Option.map_some,
      if_pos rfl]
    cases transition <;> trivial
  · rw [statusOf_setHeaderStatus, statusOf_of_headers stock moved headers]
    simp [different]

/-! ## One step -/

/-- Everything one step of the order does: to its lines and levels, and to its header. -/
structure OrderStep (stock next : Stock) (orderId : Nat) (clamped : Nat → Int) : Prop where
  others : next.reservations.filter (·.orderId ≠ orderId) =
    stock.reservations.filter (·.orderId ≠ orderId)
  onHand : ∀ variantId, next.onHand variantId + next.quantityIn .committed orderId variantId =
    stock.onHand variantId + stock.quantityIn .committed orderId variantId - clamped variantId
  header : OwnHeader stock next orderId

theorem OrderStep.refl (stock : Stock) (orderId : Nat) : OrderStep stock stock orderId fun _ => 0 :=
  ⟨rfl, fun _ => by simp, OwnHeader.refl stock orderId⟩

theorem tryReserve_step (strategy : LockStrategy) (maxRetries : Nat) (stock : Stock)
    (input : TryInput) :
    OrderStep stock (tryReserve strategy maxRetries stock input).2 input.orderId fun _ => 0 := by
  have unchanged := OrderStep.refl stock input.orderId
  unfold tryReserve
  split
  · rename_i outcome next success
    unfold tryTransaction at success
    split at success
    · rename_i opened inserted
      obtain ⟨final, reserved, same⟩ := (bind_eq_ok _ _ _).mp success
      cases same
      have sameTables : opened.levels = stock.levels ∧ opened.reservations =
          stock.reservations := by
        unfold Stock.insertHeader Stock.insertHeaderRow at inserted
        split at inserted <;> cases inserted
        exact ⟨rfl, rfl⟩
      have own : OwnStep opened next input.orderId fun _ => 0 := by
        cases strategy with
        | pessimistic => exact reservePessimistic_own opened next _ _ _ _ reserved
        | optimistic => exact reserveOptimistic_own maxRetries opened next _ _ _ _ _ reserved
      refine ⟨by rw [own.others, sameTables.2], fun variantId => ?_,
        ownHeader_insert stock opened next _ (.inl rfl) inserted own.headers⟩
      rw [own.onHand]
      simp [Stock.onHand, Stock.findLevel, Stock.quantityIn, sameTables]
    · split at success <;> cases success <;> exact unchanged
  all_goals exact unchanged

theorem resolve_step (stock moved : Stock) (orderId : Nat) (transition : LineTransition)
    (header : ReservationOrder) (inv : Ledger stock)
    (found : stock.findHeader orderId = some header)
    (source : header.status = transition.source.header)
    (success : moveLines stock orderId transition = .ok moved) :
    OrderStep stock (moved.setHeaderStatus orderId transition.target.header) orderId
      (transition.clamped stock orderId) := by
  have own := moveLines_own stock moved orderId transition inv.toBalanced success
  exact ⟨own.others, own.onHand,
    ownHeader_resolve stock moved orderId transition header found source own.headers⟩

/-- What the clamp keeps back in an operation: only a restock that is applied meets it. -/
def clampedBy (stock : Stock) (operation : Operation) (variantId : Nat) : Int :=
  match operation with
  | .command command orderId =>
      match commandTransaction stock command orderId with
      | .ok (.applied, _) => command.clamped stock orderId variantId
      | _ => 0
  | _ => 0

/-- The order an operation is about; the operator's writes are about none. -/
def Operation.about : Operation → Option Nat
  | .tryReserve _ input => some input.orderId
  | .command _ orderId | .sweep orderId _ => some orderId
  | .setOnHand .. | .adjust .. => none

theorem command_step (stock next : Stock) (command : LineTransition) (orderId : Nat)
    (outcome : ParticipantCommandOutcome) (inv : Ledger stock)
    (success : commandTransaction stock command orderId = .ok (outcome, next)) :
    OrderStep stock next orderId fun variantId =>
      if outcome = .applied then command.clamped stock orderId variantId else 0 := by
  unfold commandTransaction at success
  split at success
  · rename_i absent
    split_ifs at success with releasing
    · cases success
      have inserted : stock.insertHeaderRow ⟨orderId, .fenced, none⟩ =
          (true, (stock.insertFencedHeader orderId).2) := by
        simp [Stock.insertFencedHeader, Stock.insertHeaderRow, absent]
      have sameTables : (stock.insertFencedHeader orderId).2.levels = stock.levels ∧
          (stock.insertFencedHeader orderId).2.reservations = stock.reservations := by
        simp [Stock.insertFencedHeader, Stock.insertHeaderRow, absent]
      refine ⟨by rw [sameTables.2], fun variantId => ?_,
        ownHeader_insert stock _ _ ⟨orderId, .fenced, none⟩ (.inr rfl) inserted rfl⟩
      simp [Stock.onHand, Stock.findLevel, Stock.quantityIn, sameTables, releasing,
        LineTransition.clamped]
    · split at success <;> cases success <;> exact OrderStep.refl stock orderId
  · rename_i header found
    split at success
    · rename_i status applies
      obtain ⟨moved, resolved, same⟩ := (bind_eq_ok _ _ _).mp success
      cases same
      obtain ⟨source, rfl⟩ := fence_apply command header.status status applies
      simpa using resolve_step stock moved orderId command header inv found source resolved
    · cases success
      exact OrderStep.refl stock orderId
    · cases success
      exact OrderStep.refl stock orderId

theorem sweep_step (stock next : Stock) (orderId : Nat) (now : Int) (released : Bool)
    (inv : Ledger stock) (success : sweepTransaction stock orderId now = .ok (released, next)) :
    OrderStep stock next orderId fun _ => 0 := by
  unfold sweepTransaction at success
  split at success
  · cases success
    exact OrderStep.refl stock orderId
  · rename_i header found
    split_ifs at success with lapsed
    · obtain ⟨moved, resolved, same⟩ := (bind_eq_ok _ _ _).mp success
      cases same
      exact resolve_step stock moved orderId .release header inv found lapsed.1 resolved
    · cases success
      exact OrderStep.refl stock orderId

theorem perform_step (maxRetries : Nat) (stock : Stock) (operation : Operation) (orderId : Nat)
    (inv : Ledger stock) (about : operation.about = some orderId) :
    OrderStep stock (perform maxRetries stock operation) orderId (clampedBy stock operation) := by
  cases operation with
  | tryReserve strategy input =>
      cases about
      exact tryReserve_step strategy maxRetries stock input
  | command command other =>
      cases about
      cases success : commandTransaction stock command orderId with
      | error error =>
          have unclamped : clampedBy stock (.command command orderId) = fun _ => 0 := by
            funext variantId
            simp [clampedBy, success]
          simpa only [perform, success, unclamped] using OrderStep.refl stock orderId
      | ok answer =>
          obtain ⟨outcome, next⟩ := answer
          have clamps : clampedBy stock (.command command orderId) = fun variantId =>
              if outcome = .applied then command.clamped stock orderId variantId else 0 := by
            funext variantId
            cases outcome <;> simp [clampedBy, success]
          simpa only [perform, success, clamps] using
            command_step stock next command orderId outcome inv success
  | sweep other now =>
      cases about
      simp only [perform]
      cases success : sweepTransaction stock orderId now with
      | error error => exact OrderStep.refl stock orderId
      | ok answer => exact sweep_step stock _ orderId now answer.1 inv success
  | setOnHand => cases about
  | adjust => cases about

theorem updateLevel_tables (stock next : Stock) (variantId : Nat) (set : StockLevel → StockLevel)
    (success : stock.updateLevel variantId set = .ok next) :
    next.reservations = stock.reservations ∧ next.headers = stock.headers := by
  unfold Stock.updateLevel at success
  split at success
  · cases success
    exact ⟨rfl, rfl⟩
  · obtain ⟨written, -, same⟩ := (bind_eq_ok _ _ _).mp success
    cases same
    exact ⟨rfl, rfl⟩

theorem setOnHand_tables (stock next : Stock) (variantId : Nat) (quantity : Int)
    (success : setOnHand stock variantId quantity = .ok next) :
    next.reservations = stock.reservations ∧ next.headers = stock.headers := by
  unfold setOnHand at success
  split at success
  · exact updateLevel_tables stock next variantId _ success
  · obtain ⟨level, -, same⟩ := (bind_eq_ok _ _ _).mp success
    cases same
    exact ⟨rfl, rfl⟩

theorem adjust_tables (stock next : Stock) (variantId : Nat) (delta : Int)
    (success : adjust stock variantId delta = .ok (some next)) :
    next.reservations = stock.reservations ∧ next.headers = stock.headers := by
  unfold adjust at success
  split at success
  · cases success
  · split_ifs at success
    obtain ⟨written, update, same⟩ := (bind_eq_ok _ _ _).mp success
    cases same
    exact updateLevel_tables stock _ variantId _ update

/-- A step that is not about the order leaves its lines and its header alone. -/
theorem perform_other (maxRetries : Nat) (stock : Stock) (operation : Operation) (orderId : Nat)
    (inv : Ledger stock) (other : operation.about ≠ some orderId) :
    (perform maxRetries stock operation).statusOf orderId = stock.statusOf orderId ∧
      ∀ status variantId, (perform maxRetries stock operation).quantityIn status orderId variantId =
        stock.quantityIn status orderId variantId := by
  cases about : operation.about with
  | some own =>
      have different : orderId ≠ own := by
        rintro rfl
        exact other about
      have step := perform_step maxRetries stock operation own inv about
      refine ⟨step.header.others orderId different, fun status variantId => ?_⟩
      have counted : ∀ rows : List Reservation, tally (amountIn status orderId variantId) rows =
          tally (amountIn status orderId variantId) (rows.filter (·.orderId ≠ own)) := by
        intro rows
        refine tally_filter _ _ rows fun row _ foreign => amountIn_other _ _ _ row ?_
        have owned : row.orderId = own := by simpa using foreign
        simp [Reservation.key, owned, Ne.symm different]
      rw [Stock.quantityIn, Stock.quantityIn, counted, counted stock.reservations, step.others]
  | none =>
      have same : (perform maxRetries stock operation).reservations = stock.reservations ∧
          (perform maxRetries stock operation).headers = stock.headers := by
        cases operation with
        | tryReserve => cases about
        | command => cases about
        | sweep => cases about
        | setOnHand variantId quantity =>
            simp only [perform]
            split
            · rename_i next success
              exact setOnHand_tables stock next variantId quantity success
            · exact ⟨rfl, rfl⟩
        | adjust variantId delta =>
            simp only [perform]
            split
            · rename_i next success
              exact adjust_tables stock next variantId delta success
            · exact ⟨rfl, rfl⟩
      exact ⟨statusOf_of_headers stock _ same.2 orderId, fun status variantId => by
        rw [Stock.quantityIn, Stock.quantityIn, same.1]⟩

/-! ## Whole runs -/

def after (maxRetries : Nat) (stock : Stock) (execution : Execution) : Stock :=
  if execution.cutOff then stock else perform maxRetries stock execution.operation

/-- What the order's own steps add up to on one quantity of the stock. -/
def ownEffect (quantity : Stock → Int) (maxRetries orderId : Nat) : Stock → List Execution → Int
  | _, [] => 0
  | stock, execution :: rest =>
      (if execution.operation.about = some orderId then
        quantity (after maxRetries stock execution) - quantity stock else 0) +
        ownEffect quantity maxRetries orderId (after maxRetries stock execution) rest

def ownClamped (maxRetries orderId variantId : Nat) : Stock → List Execution → Int
  | _, [] => 0
  | stock, execution :: rest =>
      (if execution.operation.about = some orderId ∧ execution.cutOff = false then
        clampedBy stock execution.operation variantId else 0) +
        ownClamped maxRetries orderId variantId (after maxRetries stock execution) rest

theorem step_after (maxRetries : Nat) (stock next : Stock) (execution : Execution)
    (stepped : step maxRetries stock execution = some next) :
    next = after maxRetries stock execution := (Option.some.inj stepped).symm

theorem after_ledger (maxRetries : Nat) (stock : Stock) (execution : Execution)
    (inv : Ledger stock) : Ledger (after maxRetries stock execution) :=
  step_ledger maxRetries stock execution _ inv rfl

theorem OrderStep.reserved (stock next : Stock) (orderId variantId : Nat) (clamped : Nat → Int)
    (inv : Ledger stock) (inv' : Ledger next) (step : OrderStep stock next orderId clamped) :
    next.reserved variantId - stock.reserved variantId =
      next.quantityIn .held orderId variantId - stock.quantityIn .held orderId variantId := by
  have split : ∀ rows : List Reservation, tally (heldAmount variantId) rows =
      tally (amountIn .held orderId variantId) rows +
        tally (heldAmount variantId) (rows.filter (·.orderId ≠ orderId)) := by
    intro rows
    induction rows with
    | nil => rfl
    | cons row rest ih =>
        rw [tally_cons, tally_cons, ih, List.filter_cons]
        by_cases own : row.orderId = orderId
        · have same : amountIn .held orderId variantId row = heldAmount variantId row := by
            by_cases held : row.status = .held <;> by_cases here : row.variantId = variantId <;>
              simp [amountIn, lineAmount, heldAmount, own, held, here]
          simp [own, same, Int.add_assoc]
        · have foreign : amountIn .held orderId variantId row = 0 :=
            amountIn_other _ _ _ row fun keyed => own (congrArg Prod.fst keyed)
          simp [own, foreign]
          omega
  have before := split stock.reservations
  have later := split next.reservations
  rw [step.others] at later
  rw [reserved_of_ledger next variantId inv', reserved_of_ledger stock variantId inv]
  simp only [Stock.heldQuantity, Stock.quantityIn]
  omega

/-- The order's own steps move the quantities exactly with its lines. -/
theorem ownEffect_of_run (maxRetries orderId variantId : Nat) (executions : List Execution)
    (stock final : Stock) (inv : Ledger stock)
    (ran : run (step maxRetries) stock executions = some final) :
    ownEffect (·.reserved variantId) maxRetries orderId stock executions =
        final.quantityIn .held orderId variantId - stock.quantityIn .held orderId variantId ∧
      ownEffect (·.onHand variantId) maxRetries orderId stock executions =
        stock.quantityIn .committed orderId variantId -
          final.quantityIn .committed orderId variantId -
            ownClamped maxRetries orderId variantId stock executions := by
  induction executions generalizing stock with
  | nil =>
      cases Option.some.inj ran
      simp [ownEffect, ownClamped]
  | cons execution rest ih =>
      obtain ⟨next, stepped, remaining⟩ := run_cons_eq_some _ stock final execution rest ran
      cases step_after maxRetries stock next execution stepped
      have inv' := after_ledger maxRetries stock execution inv
      obtain ⟨reservedRest, onHandRest⟩ := ih _ inv' remaining
      rw [ownEffect, ownEffect, ownClamped, reservedRest, onHandRest]
      by_cases about : execution.operation.about = some orderId
      · rw [if_pos about, if_pos about]
        cases cut : execution.cutOff with
        | true => simp [after, cut]
        | false =>
            have own := perform_step maxRetries stock execution.operation orderId inv about
            have done : after maxRetries stock execution =
                perform maxRetries stock execution.operation := by simp [after, cut]
            rw [done] at inv' ⊢
            have reserved := own.reserved _ _ _ variantId _ inv inv'
            have onHand := own.onHand variantId
            rw [if_pos ⟨about, rfl⟩]
            constructor <;> omega
      · rw [if_neg about, if_neg about, if_neg fun both => about both.1]
        cases cut : execution.cutOff with
        | true => simp [after, cut]
        | false =>
            have other :=
              (perform_other maxRetries stock execution.operation orderId inv about).2
            have done : after maxRetries stock execution =
                perform maxRetries stock execution.operation := by simp [after, cut]
            rw [done, other, other]
            constructor <;> omega

theorem after_header (maxRetries : Nat) (stock : Stock) (execution : Execution) (orderId : Nat)
    (inv : Ledger stock) :
    HeaderEdge (stock.statusOf orderId) ((after maxRetries stock execution).statusOf orderId) := by
  cases cut : execution.cutOff with
  | true =>
      simp only [after, cut, if_true]
      exact HeaderEdge.refl _
  | false =>
      simp only [after, cut, Bool.false_eq_true, if_false]
      by_cases about : execution.operation.about = some orderId
      · exact (perform_step maxRetries stock execution.operation orderId inv about).header.edge
      · rw [(perform_other maxRetries stock execution.operation orderId inv about).1]
        exact HeaderEdge.refl _

/-- Statuses that no edge leaves, no run leaves. -/
theorem status_within (maxRetries orderId : Nat) (Within : Option ReservationOrderStatus → Prop)
    (closed : ∀ status next, Within status → HeaderEdge status next → Within next)
    (executions : List Execution) (stock final : Stock) (inv : Ledger stock)
    (current : Within (stock.statusOf orderId))
    (ran : run (step maxRetries) stock executions = some final) :
    Within (final.statusOf orderId) := by
  refine (run_preserves (step maxRetries)
    (fun now => Ledger now ∧ Within (now.statusOf orderId)) ?_ executions stock final
    ⟨inv, current⟩ ran).2
  rintro now execution next ⟨nowInv, here⟩ stepped
  cases step_after maxRetries now next execution stepped
  have edge := after_header maxRetries now execution orderId nowInv
  exact ⟨after_ledger maxRetries now execution nowInv, closed _ _ here edge⟩

end Commerce.Inventory
