import Commerce.Lib.Pages
import Commerce.Messaging.Delivery
import Commerce.Orders.Repository

/-!
# The checkout invariant check

A run of the checker pages through the orders settled in its window and judges
each against what stock and payment hold for it.  The settle stamps have
microseconds, the cursor only milliseconds.
-/

set_option autoImplicit false

namespace Commerce.Orders.InvariantScan

open Messaging (isRoutableId)

/-! ## The invariants -/

inductive CheckoutInvariantKind where
  | capturedWithoutPaid
  | paidWithoutCapture
  | paidWithoutCommit
  | orphanHold
  | authorizedOnDeadOrder
  deriving DecidableEq, Repr

def checkoutInvariantKinds : List CheckoutInvariantKind :=
  [.capturedWithoutPaid, .paidWithoutCapture, .paidWithoutCommit, .orphanHold,
    .authorizedOnDeadOrder]

def terminalSagaStatuses : List OrderStatus := [.paid, .failed, .expired, .cancelled, .rejected]

inductive StockStanding where
  | held
  | committed
  | released
  | fenced
  | restocked
  deriving DecidableEq, Repr

inductive PaymentHeader where
  | opened
  | authorized
  | captured
  | cancelled
  | fenced
  deriving DecidableEq, Repr

structure PaymentStanding where
  header : Option PaymentHeader
  /-- Any attempt still holding money, whatever the header says. -/
  hasAuthorizedAttempt : Bool
  hasSucceededAttempt : Bool
  deriving DecidableEq, Repr

def noPayment : PaymentStanding := ⟨none, false, false⟩

def evaluateCheckoutInvariants (status : OrderStatus) (stock : Option StockStanding)
    (payment : PaymentStanding) : Except String (List CheckoutInvariantKind) :=
  if ¬ terminalSagaStatuses.contains status then
    .error ("Checkout invariants apply to settled orders, not " ++ status.label)
  else
    let paid := status == .paid
    .ok <|
      (if !paid && (payment.header == some .captured || payment.hasSucceededAttempt) then
        [.capturedWithoutPaid] else []) ++
      (if paid && payment.header != some .captured then [.paidWithoutCapture] else []) ++
      (if paid && stock != some .committed then [.paidWithoutCommit] else []) ++
      (if !paid && stock == some .held then [.orphanHold] else []) ++
      (if !paid && payment.hasAuthorizedAttempt then [.authorizedOnDeadOrder] else [])

/-! ## The pages -/

/-- Milliseconds, both ends inside. -/
structure Window where
  fromMs : Int
  toMs : Int
  deriving DecidableEq, Repr

structure SettledSagaOrder where
  id : Nat
  status : OrderStatus
  /-- Milliseconds. -/
  finalizedAt : Int
  deriving DecidableEq, Repr

structure SettledSagaOrderCursor where
  id : Nat
  finalizedAt : Int
  deriving DecidableEq, Repr

/-- `date_trunc('milliseconds', finalized_at)`; the stamp counts microseconds. -/
def finalizedMs (row : OrderRow) : Int := row.finalizedAt.getD 0 / 1000

def settled (row : OrderRow) : SettledSagaOrder := ⟨row.id, row.status, finalizedMs row⟩

def inWindow (window : Window) (row : OrderRow) : Bool :=
  terminalSagaStatuses.contains row.status && row.paymentDeadlineAt.isSome &&
    row.finalizedAt.any fun stamp =>
      decide (window.fromMs * 1000 ≤ stamp) && decide (stamp ≤ window.toMs * 1000)

/-- Row comparison of `(finalized_ms, id)` with the cursor. -/
def past (after : Option SettledSagaOrderCursor) (row : OrderRow) : Bool :=
  match after with
  | none => true
  | some cursor =>
      decide (cursor.finalizedAt < finalizedMs row ∨
        cursor.finalizedAt = finalizedMs row ∧ cursor.id < row.id)

def upTo (one other : OrderRow) : Prop :=
  finalizedMs one < finalizedMs other ∨ finalizedMs one = finalizedMs other ∧ one.id ≤ other.id

instance : DecidableRel upTo := fun _ _ => inferInstanceAs (Decidable (_ ∨ _ ∧ _))

def findTerminalSagaOrdersInWindow (db : Db) (window : Window)
    (after : Option SettledSagaOrderCursor) (limit : Nat) : List SettledSagaOrder :=
  (Pages.page upTo (fun row => inWindow window row && past after row) limit db.orders).map settled

/-! ## The run -/

def maxVisibilityIds : Nat := 200

/-- What the saga engine's visibility store and the two participants answer. -/
structure Ports where
  /-- The orders among these that have a running workflow. -/
  listRunning : List Nat → Except String (List Nat)
  stockStatusOf : List Nat → Except String (Nat → Option StockStanding)
  paymentStatusOf : List Nat → Except String (Nat → Option PaymentStanding)

def Ports.runningOrderIds (ports : Ports) (orderIds : List Nat) : Except String (List Nat) :=
  if orderIds = [] then .ok []
  else if orderIds.length > maxVisibilityIds then
    .error s!"at most {maxVisibilityIds} order ids per visibility query, got {orderIds.length}"
  else
    match orderIds.find? fun orderId => !isRoutableId orderId with
    | some stray => .error s!"\"{stray}\" is not an order id"
    | none => ports.listRunning orderIds

structure Settings where
  windowSec : Int
  settleSec : Int
  batchSize : Nat
  /-- Milliseconds. -/
  notBefore : Option Int

def Settings.window (settings : Settings) (now : Int) : Window where
  fromMs := match settings.notBefore with
    | none => now - settings.windowSec * 1000
    | some notBefore => max (now - settings.windowSec * 1000) notBefore
  toMs := now - settings.settleSec * 1000

abbrev Counts := CheckoutInvariantKind → Nat

def addBroken (violations : Counts) (broken : List CheckoutInvariantKind) : Counts :=
  broken.foldl (fun violations kind => Function.update violations kind (violations kind + 1))
    violations

def judge (stock : Nat → Option StockStanding) (payment : Nat → Option PaymentStanding) :
    Counts → List SettledSagaOrder → Except String Counts
  | violations, [] => .ok violations
  | violations, order :: rest => do
      let broken ← evaluateCheckoutInvariants order.status (stock order.id)
        ((payment order.id).getD noPayment)
      judge stock payment (addBroken violations broken) rest

def check (ports : Ports) (violations : Counts) (batch : List SettledSagaOrder) :
    Except String (List SettledSagaOrder × Counts) :=
  if batch = [] then .ok ([], violations)
  else do
    let running ← ports.runningOrderIds (batch.map (·.id))
    let settled := batch.filter fun order => !running.contains order.id
    if settled = [] then .ok ([], violations)
    else
      let ids := settled.map (·.id)
      let stock ← ports.stockStatusOf ids
      let payment ← ports.paymentStatusOf ids
      let violations ← judge stock payment violations settled
      .ok (settled, violations)

structure Scan where
  after : Option SettledSagaOrderCursor
  violations : Counts
  /-- The orders judged so far; `checked` is their number. -/
  judged : List SettledSagaOrder

def Scan.settle (scan : Scan) (batch judged : List SettledSagaOrder) (violations : Counts) :
    Scan where
  after := match batch.getLast? with
    | some last => some ⟨last.id, last.finalizedAt⟩
    | none => scan.after
  violations := violations
  judged := scan.judged ++ judged

/-- The `do` loop, for at most `fuel` batches.  A call that throws leaves the number checked. -/
def Scan.run (ports : Ports) (db : Db) (window : Window) (batchSize : Nat) :
    Nat → Scan → Option (Except Nat Scan)
  | 0, _ => none
  | fuel + 1, scan =>
      let batch := findTerminalSagaOrdersInWindow db window scan.after batchSize
      match check ports scan.violations batch with
      | .error _ => some (.error scan.judged.length)
      | .ok (judged, violations) =>
          let next := scan.settle batch judged violations
          if batch.length = batchSize then Scan.run ports db window batchSize fuel next
          else some (.ok next)

inductive CheckoutInvariantRun where
  | ok (checked : Nat) (violations : Counts)
  | violations (checked : Nat) (violations : Counts)
  | error (checked : Nat)

def Scan.start : Scan := { after := none, violations := fun _ => 0, judged := [] }

def Scan.result : Except Nat Scan → CheckoutInvariantRun
  | .error checked => .error checked
  | .ok scan =>
      if checkoutInvariantKinds.any fun kind => decide (0 < scan.violations kind) then
        .violations scan.judged.length scan.violations
      else .ok scan.judged.length scan.violations

def execute (ports : Ports) (db : Db) (settings : Settings) (now : Int) (fuel : Nat) :
    Option CheckoutInvariantRun :=
  (Scan.run ports db (settings.window now) settings.batchSize fuel .start).map Scan.result

/-! ## One batch -/

section Batch

variable (stockOf : Nat → Option StockStanding) (paymentOf : Nat → Option PaymentStanding)

/-- No saga of these orders is open, and both participants answer with what they hold. -/
structure Ports.Quiet (ports : Ports) : Prop where
  running : ∀ ids, ids.length ≤ maxVisibilityIds →
    ∃ running, ports.listRunning ids = .ok running ∧ ∀ id ∈ ids, id ∉ running
  stock : ∀ ids, ids.length ≤ maxVisibilityIds →
    ∃ answer, ports.stockStatusOf ids = .ok answer ∧ ∀ id ∈ ids, answer id = stockOf id
  payment : ∀ ids, ids.length ≤ maxVisibilityIds →
    ∃ answer, ports.paymentStatusOf ids = .ok answer ∧ ∀ id ∈ ids, answer id = paymentOf id

def brokenBy (order : SettledSagaOrder) : List CheckoutInvariantKind :=
  (evaluateCheckoutInvariants order.status (stockOf order.id)
    ((paymentOf order.id).getD noPayment)).toOption.getD []

def timesBroken (kind : CheckoutInvariantKind) (orders : List SettledSagaOrder) : Nat :=
  (orders.map fun order => (brokenBy stockOf paymentOf order).count kind).sum

theorem evaluate_terminal (status : OrderStatus) (stock : Option StockStanding)
    (payment : PaymentStanding) (terminal : status ∈ terminalSagaStatuses) :
    ∃ broken, evaluateCheckoutInvariants status stock payment = .ok broken := by
  have contained : terminalSagaStatuses.contains status = true := by simpa using terminal
  rw [evaluateCheckoutInvariants, if_neg (not_not.mpr contained)]
  exact ⟨_, rfl⟩

theorem addBroken_count (violations : Counts) (broken : List CheckoutInvariantKind)
    (kind : CheckoutInvariantKind) :
    addBroken violations broken kind = violations kind + broken.count kind := by
  induction broken generalizing violations with
  | nil => rfl
  | cons first broken ih =>
      have step : addBroken violations (first :: broken) =
          addBroken (Function.update violations first (violations first + 1)) broken := rfl
      rw [step, ih]
      by_cases same : kind = first
      · subst same
        rw [Function.update_self, List.count_cons_self]
        omega
      · rw [Function.update_of_ne same, List.count_cons_of_ne (Ne.symm same)]

theorem judge_counts (stock : Nat → Option StockStanding)
    (payment : Nat → Option PaymentStanding) (violations : Counts) (orders : List SettledSagaOrder)
    (terminal : ∀ order ∈ orders, order.status ∈ terminalSagaStatuses)
    (stockAnswers : ∀ order ∈ orders, stock order.id = stockOf order.id)
    (paymentAnswers : ∀ order ∈ orders, payment order.id = paymentOf order.id) :
    ∃ counts, judge stock payment violations orders = .ok counts ∧
      ∀ kind, counts kind = violations kind + timesBroken stockOf paymentOf kind orders := by
  induction orders generalizing violations with
  | nil => exact ⟨violations, rfl, fun _ => rfl⟩
  | cons order rest ih =>
      obtain ⟨broken, evaluated⟩ := evaluate_terminal order.status (stock order.id)
        ((payment order.id).getD noPayment) (terminal order List.mem_cons_self)
      obtain ⟨counts, judged, total⟩ := ih (addBroken violations broken)
        (fun other member => terminal other (List.mem_cons_of_mem _ member))
        (fun other member => stockAnswers other (List.mem_cons_of_mem _ member))
        (fun other member => paymentAnswers other (List.mem_cons_of_mem _ member))
      have named : brokenBy stockOf paymentOf order = broken := by
        rw [brokenBy, ← stockAnswers order List.mem_cons_self,
          ← paymentAnswers order List.mem_cons_self, evaluated]
        rfl
      refine ⟨counts, ?_, fun kind => ?_⟩
      · rw [judge, evaluated]
        exact judged
      · have parts : timesBroken stockOf paymentOf kind (order :: rest) =
            broken.count kind + timesBroken stockOf paymentOf kind rest := by
          rw [timesBroken, List.map_cons, List.sum_cons, named]
          rfl
        rw [total, addBroken_count, parts]
        omega

theorem check_quiet (ports : Ports) (quiet : ports.Quiet stockOf paymentOf) (violations : Counts)
    (batch : List SettledSagaOrder) (small : batch.length ≤ maxVisibilityIds)
    (routable : ∀ order ∈ batch, isRoutableId order.id = true)
    (terminal : ∀ order ∈ batch, order.status ∈ terminalSagaStatuses) :
    ∃ counts, check ports violations batch = .ok (batch, counts) ∧
      ∀ kind, counts kind = violations kind + timesBroken stockOf paymentOf kind batch := by
  by_cases empty : batch = []
  · subst empty
    exact ⟨violations, rfl, fun _ => rfl⟩
  · have length : (batch.map (·.id)).length ≤ maxVisibilityIds := by
      rw [List.length_map]
      exact small
    obtain ⟨running, listed, idle⟩ := quiet.running _ length
    obtain ⟨stock, stocked, stockAnswers⟩ := quiet.stock _ length
    obtain ⟨payment, paid, paymentAnswers⟩ := quiet.payment _ length
    obtain ⟨counts, judged, total⟩ := judge_counts stockOf paymentOf stock payment violations batch
      terminal (fun order member => stockAnswers _ (List.mem_map_of_mem member))
      (fun order member => paymentAnswers _ (List.mem_map_of_mem member))
    have asked : ports.runningOrderIds (batch.map (·.id)) = .ok running := by
      have stray : (batch.map (·.id)).find? (fun orderId => !isRoutableId orderId) = none := by
        rw [List.find?_eq_none]
        intro id member
        obtain ⟨order, listed, rfl⟩ := List.mem_map.mp member
        simp [routable order listed]
      rw [Ports.runningOrderIds, if_neg (by simpa using empty), if_neg (by omega), stray]
      exact listed
    have all : batch.filter (fun order => !running.contains order.id) = batch := by
      refine List.filter_eq_self.mpr fun order member => ?_
      simpa using idle order.id (List.mem_map_of_mem member)
    refine ⟨counts, ?_, total⟩
    simp only [check, if_neg empty, asked, all, stocked, paid, judged, bind, Except.bind]

end Batch

/-! ## All batches -/

def candidates (db : Db) (window : Window) : List OrderRow := db.orders.filter (inWindow window)

instance : Std.Total upTo where
  total one other := by
    simp only [upTo]
    omega

instance : IsTrans OrderRow upTo where
  trans one two three first second := by
    simp only [upTo] at *
    omega

/-- The scan has judged the orders up to its cursor, each once. -/
structure Books (stockOf : Nat → Option StockStanding) (paymentOf : Nat → Option PaymentStanding)
    (db : Db) (window : Window) (scan : Scan) (rows : List OrderRow) : Prop where
  judged : scan.judged = rows.map settled
  distinct : rows.Nodup
  members : ∀ row, row ∈ rows ↔ row ∈ candidates db window ∧ past scan.after row = false
  counts : ∀ kind, scan.violations kind = timesBroken stockOf paymentOf kind scan.judged

theorem timesBroken_append (stockOf : Nat → Option StockStanding)
    (paymentOf : Nat → Option PaymentStanding) (kind : CheckoutInvariantKind)
    (first second : List SettledSagaOrder) :
    timesBroken stockOf paymentOf kind (first ++ second) =
      timesBroken stockOf paymentOf kind first + timesBroken stockOf paymentOf kind second := by
  simp [timesBroken]

theorem eq_of_row_id {rows : List OrderRow} (keyed : (rows.map (·.id)).Nodup)
    {one other : OrderRow} (member : one ∈ rows) (listed : other ∈ rows)
    (same : one.id = other.id) : one = other :=
  List.inj_on_of_nodup_map keyed member listed same

/-- The page after a cursor takes the cursor over its rows and over none else. -/
theorem past_page (db : Db) (window : Window) (after : Option SettledSagaOrderCursor) (limit : Nat)
    (keyed : (db.orders.map (·.id)).Nodup) (last row : OrderRow)
    (ends : (Pages.page upTo (fun row => inWindow window row && past after row) limit
      db.orders).getLast? = some last) (candidate : row ∈ candidates db window) :
    past (some ⟨last.id, finalizedMs last⟩) row = false ↔
      past after row = false ∨
        row ∈ Pages.page upTo (fun row => inWindow window row && past after row) limit
          db.orders := by
  obtain ⟨stored, inside⟩ := List.mem_filter.mp candidate
  obtain ⟨lastStored, lastChosen⟩ := Pages.mem_page upTo _ limit _ last (List.mem_of_getLast? ends)
  rw [Bool.and_eq_true] at lastChosen
  have order : past (some ⟨last.id, finalizedMs last⟩) row = false ↔ upTo row last := by
    simp only [past, upTo, decide_eq_false_iff_not]
    omega
  rw [order]
  constructor
  · intro before
    by_cases beyond : past after row = true
    · right
      have chosen : (inWindow window row && past after row) = true := by rw [inside, beyond]; rfl
      rcases Pages.mem_page_or_past upTo _ limit _ row last stored chosen ends with here | behind
      · exact here
      · have same : row = last := by
          refine eq_of_row_id keyed stored lastStored ?_
          simp only [upTo] at before behind
          omega
        rw [same]
        exact List.mem_of_getLast? ends
    · left
      simpa using beyond
  · rintro (before | here)
    · -- What an earlier cursor passed comes before the rows past it.
      have beyond := lastChosen.2
      cases after with
      | none => cases before
      | some cursor =>
          simp only [past, decide_eq_true_eq, decide_eq_false_iff_not] at before beyond
          simp only [upTo]
          omega
    · exact Pages.page_le_last upTo _ limit _ row last here ends

section Scan

variable {stockOf : Nat → Option StockStanding} {paymentOf : Nat → Option PaymentStanding}
  {db : Db} {window : Window} {scan : Scan} {rows : List OrderRow}

/-- One batch judges its page and moves the cursor over it. -/
theorem Books.batch (books : Books stockOf paymentOf db window scan rows) (ports : Ports)
    (quiet : ports.Quiet stockOf paymentOf) (keyed : (db.orders.map (·.id)).Nodup)
    (routable : ∀ row ∈ db.orders, isRoutableId row.id = true) (batchSize : Nat)
    (small : batchSize ≤ maxVisibilityIds) :
    ∃ page next, page.length ≤ batchSize ∧
      (∀ fuel, Scan.run ports db window batchSize (fuel + 1) scan =
        if page.length = batchSize then Scan.run ports db window batchSize fuel next
        else some (.ok next)) ∧
      Books stockOf paymentOf db window next (rows ++ page) ∧
      (page.length < batchSize → ∀ row ∈ candidates db window, row ∈ rows ++ page) := by
  generalize paged : Pages.page upTo (fun row => inWindow window row && past scan.after row)
    batchSize db.orders = page
  have chosen : ∀ row ∈ page, row ∈ candidates db window ∧ past scan.after row = true := by
    intro row member
    rw [← paged] at member
    obtain ⟨stored, picked⟩ := Pages.mem_page upTo _ batchSize _ row member
    rw [Bool.and_eq_true] at picked
    exact ⟨List.mem_filter.mpr ⟨stored, picked.1⟩, picked.2⟩
  have length : page.length ≤ batchSize := by
    rw [← paged]
    exact Pages.length_page_le upTo _ batchSize _
  have batched : findTerminalSagaOrdersInWindow db window scan.after batchSize =
      page.map settled := by
    rw [findTerminalSagaOrdersInWindow, paged]
  obtain ⟨counts, checked, total⟩ := check_quiet stockOf paymentOf ports quiet scan.violations
    (page.map settled) (by rw [List.length_map]; omega)
    (by
      intro order member
      obtain ⟨row, listed, rfl⟩ := List.mem_map.mp member
      exact routable row (List.mem_filter.mp (chosen row listed).1).1)
    (by
      intro order member
      obtain ⟨row, listed, rfl⟩ := List.mem_map.mp member
      have inside := (List.mem_filter.mp (chosen row listed).1).2
      simp only [inWindow, Bool.and_eq_true] at inside
      simpa [settled] using inside.1.1)
  refine ⟨page, scan.settle (page.map settled) (page.map settled) counts, length, fun fuel => ?_,
    ?_, ?_⟩
  · rw [Scan.run]
    simp only [batched, checked, List.length_map]
  · have distinct : (rows ++ page).Nodup := by
      refine List.nodup_append.mpr ⟨books.distinct, ?_, ?_⟩
      · rw [← paged]
        exact Pages.nodup_page upTo _ batchSize _ (List.Nodup.of_map _ keyed)
      · rintro row old _ new rfl
        have before := ((books.members row).mp old).2
        rw [(chosen row new).2] at before
        cases before
    refine ⟨?_, distinct, fun row => ?_, fun kind => ?_⟩
    · rw [Scan.settle, books.judged, List.map_append]
    · rw [List.mem_append, books.members, Scan.settle]
      cases ends : page.getLast? with
      | none =>
          rw [List.getLast?_eq_none_iff] at ends
          simp [ends]
      | some last =>
          rw [List.getLast?_map, ends]
          dsimp only [Option.map_some]
          constructor
          · rintro (⟨candidate, before⟩ | here)
            · exact ⟨candidate, (past_page db window scan.after batchSize keyed last row
                (by rw [paged]; exact ends) candidate).mpr (.inl before)⟩
            · exact ⟨(chosen row here).1, (past_page db window scan.after batchSize keyed last row
                (by rw [paged]; exact ends) (chosen row here).1).mpr
                (.inr (by rw [paged]; exact here))⟩
          · rintro ⟨candidate, before⟩
            rcases (past_page db window scan.after batchSize keyed last row
              (by rw [paged]; exact ends) candidate).mp before with old | here
            · exact .inl ⟨candidate, old⟩
            · rw [paged] at here
              exact .inr here
    · rw [Scan.settle, timesBroken_append, ← books.counts]
      exact total kind
  · intro short row candidate
    rw [List.mem_append, books.members]
    by_cases beyond : past scan.after row = true
    · right
      obtain ⟨stored, inside⟩ := List.mem_filter.mp candidate
      rw [← paged] at short ⊢
      exact Pages.mem_page_of_short upTo _ batchSize _ row short stored
        (by rw [inside, beyond]; rfl)
    · exact .inl ⟨candidate, by simpa using beyond⟩

theorem Books.run (books : Books stockOf paymentOf db window scan rows) (ports : Ports)
    (quiet : ports.Quiet stockOf paymentOf) (keyed : (db.orders.map (·.id)).Nodup)
    (routable : ∀ row ∈ db.orders, isRoutableId row.id = true) (batchSize : Nat)
    (positive : 1 ≤ batchSize) (small : batchSize ≤ maxVisibilityIds) (fuel : Nat)
    (enough : (candidates db window).length < rows.length + fuel) :
    ∃ final all, Scan.run ports db window batchSize fuel scan = some (.ok final) ∧
      Books stockOf paymentOf db window final all ∧ ∀ row ∈ candidates db window, row ∈ all := by
  induction fuel generalizing scan rows with
  | zero =>
      have inside : rows ⊆ candidates db window := fun row member =>
        ((books.members row).mp member).1
      have few := (List.subperm_of_subset books.distinct inside).length_le
      omega
  | succ fuel ih =>
      obtain ⟨page, next, length, steps, after, complete⟩ :=
        books.batch ports quiet keyed routable batchSize small
      rw [steps]
      split
      · rename_i full
        refine ih after ?_
        rw [List.length_append]
        omega
      · rename_i partly
        exact ⟨next, rows ++ page, rfl, after, complete (by omega)⟩

end Scan

/-- With no writes and no open saga while it runs, the check ends, judges every order settled in
its window exactly once, and counts what they break. -/
theorem execute_complete (db : Db) (keyed : (db.orders.map (·.id)).Nodup)
    (routable : ∀ row ∈ db.orders, isRoutableId row.id = true) (settings : Settings)
    (positive : 1 ≤ settings.batchSize) (small : settings.batchSize ≤ maxVisibilityIds) (now : Int)
    (ports : Ports) (stockOf : Nat → Option StockStanding)
    (paymentOf : Nat → Option PaymentStanding) (quiet : ports.Quiet stockOf paymentOf) (fuel : Nat)
    (enough : db.orders.length < fuel) :
    ∃ final : Scan,
      Scan.run ports db (settings.window now) settings.batchSize fuel .start = some (.ok final) ∧
      execute ports db settings now fuel = some (Scan.result (.ok final)) ∧
      final.judged.Perm ((candidates db (settings.window now)).map settled) ∧
      ∀ kind, final.violations kind = timesBroken stockOf paymentOf kind
        ((candidates db (settings.window now)).map settled) := by
  have start : Books stockOf paymentOf db (settings.window now) .start [] := by
    refine ⟨rfl, .nil, fun row => ?_, fun kind => rfl⟩
    simp [Scan.start, past]
  have few : (candidates db (settings.window now)).length ≤ db.orders.length :=
    List.length_filter_le _ _
  obtain ⟨final, rows, ran, books, complete⟩ := start.run ports quiet keyed routable
    settings.batchSize positive small fuel (by rw [List.length_nil]; omega)
  have candidatesOnce : (candidates db (settings.window now)).Nodup :=
    (List.Nodup.of_map _ keyed).sublist List.filter_sublist
  have all : rows.Perm (candidates db (settings.window now)) := by
    rw [List.perm_ext_iff_of_nodup books.distinct candidatesOnce]
    exact fun row => ⟨fun member => ((books.members row).mp member).1, complete row⟩
  have judged : final.judged.Perm ((candidates db (settings.window now)).map settled) := by
    rw [books.judged]
    exact all.map settled
  refine ⟨final, ran, ?_, judged, fun kind => ?_⟩
  · rw [execute, ran]
    rfl
  · rw [books.counts, timesBroken, timesBroken]
    exact (judged.map _).sum_nat

/-- Five orders settled at one millisecond, three of them at one microsecond. -/
def settledTogether : Db where
  orders := [300001, 300002, 300003, 300004, 300005].map fun id =>
    { id
      userId := 300100
      status := if id = 300004 then .cancelled else .paid
      currency := "VND"
      totalAmount := 1000
      idempotencyKey := none
      placedAt := some 1
      finalizedAt := some (5000000 + (if id % 2 = 0 then 17 else 400))
      finalizeReason := none
      paymentRef := none
      paymentDeadlineAt := some 9 }
  items := []
  outbox := []
  idempotencyKeys := []

def quietPorts : Ports where
  listRunning _ := .ok []
  stockStatusOf _ := .ok fun _ => none
  paymentStatusOf _ := .ok fun _ => none

theorem quietPorts_quiet : quietPorts.Quiet (fun _ => none) fun _ => none where
  running _ _ := ⟨[], rfl, fun _ _ => List.not_mem_nil⟩
  stock _ _ := ⟨fun _ => none, rfl, fun _ _ => rfl⟩
  payment _ _ := ⟨fun _ => none, rfl, fun _ _ => rfl⟩

def byTwos (batchSize : Nat) : Settings where
  windowSec := 3600
  settleSec := 60
  batchSize := batchSize
  notBefore := none

theorem execute_complete_together :
    ∃ final : Scan,
      execute quietPorts settledTogether (byTwos 2) 100000 6 = some (Scan.result (.ok final)) ∧
      final.judged.Perm
        ((candidates settledTogether ((byTwos 2).window 100000)).map settled) ∧
      final.violations .paidWithoutCapture = 4 := by
  obtain ⟨final, -, ran, judged, counts⟩ := execute_complete settledTogether (by decide +kernel)
    (by decide +kernel) (byTwos 2) (by decide) (by decide) 100000 quietPorts _ _ quietPorts_quiet 6
    (by decide)
  exact ⟨final, ran, judged, (counts .paidWithoutCapture).trans (by decide +kernel)⟩

def manySettled : Db where
  orders := (List.range 201).map fun index =>
    { id := 300001 + index
      userId := 300100
      status := .paid
      currency := "VND"
      totalAmount := 1000
      idempotencyKey := none
      placedAt := some 1
      finalizedAt := some 5000000
      finalizeReason := none
      paymentRef := none
      paymentDeadlineAt := some 9 }
  items := []
  outbox := []
  idempotencyKeys := []

/-- A batch of 201 is not judged: the engine refuses the query for its runs. -/
theorem large_batch_unjudged :
    (candidates manySettled ((byTwos 201).window 100000)).length = 201 ∧
      (Scan.run quietPorts manySettled ((byTwos 201).window 100000) 201 202 .start).map
        (fun result => match result with
          | .ok _ => none
          | .error checked => some checked) = some (some 0) := by
  decide +kernel

end Commerce.Orders.InvariantScan
