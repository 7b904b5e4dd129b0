import Commerce.Inventory.Stock
import Commerce.Lib.Locks
import Mathlib.Data.List.Lex

/-!
# The locks of the stock transactions

Every transaction that writes the stock tables, statement by statement, with
the row each statement locks: the order's header first, then the levels of its
lines in one order everywhere.  What a statement answers is left open as far
as the locks do not decide it.  A reservation row is written only under the
lock of its order's header.
-/

set_option autoImplicit false

namespace Commerce.Inventory.Locking

open Locks
open Locks.Transaction

/-! ## Rows and statements -/

inductive StockRow where
  | header (orderId : Nat)
  | level (variantId : Nat)
  | reservation (orderId variantId : Nat)
  deriving DecidableEq, Repr

inductive Statement where
  | insertHeader (orderId : Nat)
  | findHeaderForUpdate (orderId : Nat)
  | lockLapsedHeader (orderId : Nat)
  | setHeaderStatus (orderId : Nat)
  | selectLevel (variantId : Nat)
  | lockLevel (variantId : Nat)
  | updateLevel (variantId : Nat)
  | upsertLevel (variantId : Nat)
  | isHeld (orderId variantId : Nat)
  | insertHold (orderId variantId : Nat)
  | selectLines (orderId : Nat)
  | flipLine (orderId variantId : Nat)
  deriving DecidableEq, Repr

/-- An insert and an update answer whether they wrote a row. -/
@[reducible] def Statement.Answer : Statement → Type
  | .insertHeader _ | .lockLapsedHeader _ | .setHeaderStatus _ | .updateLevel _ => Bool
  | .upsertLevel _ | .isHeld .. | .insertHold .. | .flipLine .. => Bool
  | .findHeaderForUpdate _ => Option ReservationOrderStatus
  | .selectLevel _ | .lockLevel _ => Option LevelRead
  | .selectLines _ => List Reservation

def Statement.row : Statement → Option StockRow
  | .insertHeader orderId | .findHeaderForUpdate orderId | .lockLapsedHeader orderId
  | .setHeaderStatus orderId => some (.header orderId)
  | .lockLevel variantId | .updateLevel variantId | .upsertLevel variantId =>
      some (.level variantId)
  | .insertHold orderId variantId | .flipLine orderId variantId =>
      some (.reservation orderId variantId)
  | .selectLevel _ | .isHeld .. | .selectLines _ => none

/-- Only the sweep skips a locked row; a plain read never waits. -/
def Statement.waits : Statement → Bool
  | .lockLapsedHeader _ | .selectLevel _ | .isHeld .. | .selectLines _ => false
  | _ => true

/-- An insert that writes found no row and locks its own; one that does nothing found a
committed row and locks nothing.  `FOR UPDATE` locks the row it answers.  An update locks the
row it writes, and may have locked a row it then found not to match. -/
def Statement.permits : (statement : Statement) → statement.Answer → Bool → Bool → Bool
  | .insertHeader _, answer, present, locked | .insertHold .., answer, present, locked =>
      bif answer then !present && locked else present && !locked
  | .findHeaderForUpdate _, answer, present, locked => answer.isSome == present && locked == present
  | .lockLevel _, answer, present, locked => answer.isSome == present && locked == present
  | .lockLapsedHeader _, answer, present, locked => answer == locked && (!locked || present)
  | .setHeaderStatus _, answer, present, locked | .updateLevel _, answer, present, locked
  | .flipLine .., answer, present, locked => (!answer || locked) && (!locked || present)
  | .upsertLevel _, answer, _, locked => answer && locked
  | .selectLevel _, _, _, locked => !locked
  | .isHeld .., _, _, locked => !locked
  | .selectLines _, _, _, locked => !locked

def database : Database Statement Statement.Answer StockRow :=
  ⟨Statement.row, Statement.waits, Statement.permits⟩

abbrev Tx (α : Type) : Type := Transaction Statement Statement.Answer α

/-! ## The statements under the repository's names -/

def insertHeader (orderId : Nat) : Tx Bool := query (Statement.insertHeader orderId)

def findHeaderForUpdate (orderId : Nat) : Tx (Option ReservationOrderStatus) :=
  query (Statement.findHeaderForUpdate orderId)

def lockLapsedHeader (orderId : Nat) : Tx Bool := query (Statement.lockLapsedHeader orderId)

def setHeaderStatus (orderId : Nat) : Tx Bool := query (Statement.setHeaderStatus orderId)

def isHeld (orderId variantId : Nat) : Tx Bool := query (Statement.isHeld orderId variantId)

def insertHold (orderId variantId : Nat) : Tx Bool := query (Statement.insertHold orderId variantId)

def selectLevel (variantId : Nat) : Tx (Option LevelRead) := query (Statement.selectLevel variantId)

def lockLevel (variantId : Nat) : Tx (Option LevelRead) := query (Statement.lockLevel variantId)

def updateLevel (variantId : Nat) : Tx Bool := query (Statement.updateLevel variantId)

def selectLines (orderId : Nat) : Tx (List Reservation) := query (Statement.selectLines orderId)

def flipLine (orderId variantId : Nat) : Tx Bool := query (Statement.flipLine orderId variantId)

/-! ## The repository -/

def reserveLine (orderId : Nat) (line : ReservationLine) : Tx Unit := do
  match ← lockLevel line.variantId with
  | none => .failed
  | some stock =>
      if ← isHeld orderId line.variantId then pure ()
      else if stock.onHand - stock.reserved < line.quantity then .failed
      else do
        let _ ← updateLevel line.variantId
        let _ ← insertHold orderId line.variantId

def reserveLinesPessimistic (orderId : Nat) : List ReservationLine → Tx Unit
  | [] => pure ()
  | line :: lines => do
      reserveLine orderId line
      reserveLinesPessimistic orderId lines

def reservePessimistic (orderId : Nat) (lines : List ReservationLine) : Tx Unit :=
  reserveLinesPessimistic orderId (sortLines lines)

def casAttempt (orderId : Nat) (line : ReservationLine) (swap : Tx Bool) : Tx Bool := do
  if ← isHeld orderId line.variantId then pure false
  else
    match ← selectLevel line.variantId with
    | none => .failed
    | some row => if row.onHand - row.reserved < line.quantity then .failed else swap

/-- `remaining` is the number of swaps the budget still allows. -/
def casReserve (orderId : Nat) (line : ReservationLine) : Nat → Tx Bool
  | 0 => casAttempt orderId line .failed
  | remaining + 1 => casAttempt orderId line do
      if ← updateLevel line.variantId then pure true else casReserve orderId line remaining

def reserveLinesOptimistic (maxRetries orderId : Nat) : List ReservationLine → Tx Unit
  | [] => pure ()
  | line :: lines => do
      if ← casReserve orderId line (maxRetries + 1) then
        let _ ← insertHold orderId line.variantId
        reserveLinesOptimistic maxRetries orderId lines
      else reserveLinesOptimistic maxRetries orderId lines

def reserveOptimistic (maxRetries orderId : Nat) (lines : List ReservationLine) : Tx Unit :=
  reserveLinesOptimistic maxRetries orderId (sortLines lines)

def moveLine (orderId variantId : Nat) : Tx Unit := do
  if ← flipLine orderId variantId then
    let _ ← updateLevel variantId

def movePending (orderId : Nat) : List Reservation → Tx Unit
  | [] => pure ()
  | line :: lines => do
      moveLine orderId line.variantId
      movePending orderId lines

def pendingLines (transition : LineTransition) (rows : List Reservation) : List Reservation :=
  (rows.filter fun row => row.status == transition.source).insertionSort fun a b =>
    idLe a.variantId b.variantId

def moveLines (orderId : Nat) (transition : LineTransition) : Tx Unit := do
  let rows ← selectLines orderId
  movePending orderId (pendingLines transition rows)

/-! ## The transactions -/

def tryReserve (strategy : LockStrategy) (maxRetries orderId : Nat) (lines : List ReservationLine) :
    Tx Unit := do
  if ← insertHeader orderId then
    match strategy with
    | .optimistic => reserveOptimistic maxRetries orderId lines
    | .pessimistic => reservePessimistic orderId lines
  else
    -- whatever the header says, the answer takes no further lock
    match ← findHeaderForUpdate orderId with
    | none => .failed
    | some _ => pure ()

def resolve (command : LineTransition) (orderId : Nat) (header : Option ReservationOrderStatus) :
    Tx Unit :=
  match decideReservationFence command.op header with
  | .apply _ => do
      moveLines orderId command
      let _ ← setHeaderStatus orderId
  | .idempotent | .conflict => pure ()

def runCommand (command : LineTransition) (orderId : Nat) : Tx Unit := do
  match ← findHeaderForUpdate orderId with
  | some status => resolve command orderId (some status)
  | none =>
      if command = .release then
        if ← insertHeader orderId then pure ()
        else do
          let header ← findHeaderForUpdate orderId
          resolve command orderId header
      else resolve command orderId none

def releaseLapsedHold (orderId : Nat) : Tx Unit := do
  if ← lockLapsedHeader orderId then
    moveLines orderId .release
    let _ ← setHeaderStatus orderId

def setOnHand (variantId : Nat) : Tx Unit := do
  let _ ← query (Statement.upsertLevel variantId)

def adjust (variantId : Nat) : Tx Unit := do
  let _ ← updateLevel variantId

inductive StockRequest where
  | tryReserve (strategy : LockStrategy) (orderId : Nat) (lines : List ReservationLine)
  | command (command : LineTransition) (orderId : Nat)
  | sweep (orderId : Nat)
  | setOnHand (variantId : Nat)
  | adjust (variantId : Nat)
  deriving DecidableEq, Repr

def transaction (maxRetries : Nat) : StockRequest → Tx Unit
  | .tryReserve strategy orderId lines => tryReserve strategy maxRetries orderId lines
  | .command command orderId => runCommand command orderId
  | .sweep orderId => releaseLapsedHold orderId
  | .setOnHand variantId => setOnHand variantId
  | .adjust variantId => adjust variantId

/-! ## The order of the locks -/

abbrev CodesLt : List Char → List Char → Prop := List.Lex fun c d => c.toNat < d.toNat

instance codesTotal : IsStrictTotalOrder Char fun c d => c.toNat < d.toNat where
  trichotomous c d first second := by
    have same : c.toNat = d.toNat := by omega
    exact Char.toNat_inj.mp same
  irrefl c := Nat.lt_irrefl _
  trans _ _ _ := Nat.lt_trans

theorem idLe_iff (a b : Nat) :
    idLe a b = true ↔ ¬ CodesLt (Nat.toDigits 10 b) (Nat.toDigits 10 a) := by
  simp [idLe, List.lex_eq_decide_lex]

theorem idLe_total (a b : Nat) : idLe a b = true ∨ idLe b a = true := by
  rw [idLe_iff, idLe_iff]
  by_cases below : CodesLt (Nat.toDigits 10 b) (Nat.toDigits 10 a)
  · exact .inr (asymm_of CodesLt below)
  · exact .inl below

theorem idLe_trans (a b c : Nat) (first : idLe a b = true) (second : idLe b c = true) :
    idLe a c = true := by
  rw [idLe_iff] at first second ⊢
  exact IsOrderConnected.neg_trans second first

theorem toDigits_injective (a b : Nat) (same : Nat.toDigits 10 a = Nat.toDigits 10 b) : a = b := by
  have left := Nat.ofDigitChars_ten_toDigits (n := a)
  rw [same] at left
  exact left.symm.trans Nat.ofDigitChars_ten_toDigits

theorem idLe_antisymm (a b : Nat) (first : idLe a b = true) (second : idLe b a = true) : a = b := by
  rw [idLe_iff] at first second
  rcases trichotomous_of CodesLt (Nat.toDigits 10 a) (Nat.toDigits 10 b) with below | same | above
  · exact absurd below second
  · exact toDigits_injective a b same
  · exact absurd above first

/-- Headers come before levels, and levels as the comparator has their variants. -/
def rowBefore : StockRow → StockRow → Prop
  | .header _, .level _ => True
  | .level a, .level b => idLe a b = true ∧ a ≠ b
  | _, _ => False

theorem rowBefore_trans (one two three : StockRow) (first : rowBefore one two)
    (second : rowBefore two three) : rowBefore one three := by
  cases one <;> cases two <;> cases three <;> try trivial
  rename_i a b c
  refine ⟨idLe_trans a b c first.1 second.1, ?_⟩
  rintro rfl
  exact first.2 (idLe_antisymm _ _ first.1 second.1)

theorem rowBefore_irrefl (row : StockRow) : ¬ rowBefore row row := by
  cases row with
  | level variantId => exact fun before => before.2 rfl
  | header => exact id
  | reservation => exact id

def lockOrder : LockOrder StockRow where
  before := rowBefore
  before_trans := rowBefore_trans
  before_irrefl := rowBefore_irrefl
  gate
    | .reservation orderId _ => some (.header orderId)
    | .header _ | .level _ => none

/-! ## Every transaction keeps the order -/

/-- The order's header is held, and the levels held come no later than those still to come. -/
structure Ready (orderId : Nat) (coming : List Nat) (view : View StockRow) : Prop where
  header : view.held (.header orderId)
  passed : ∀ variantId, view.held (.level variantId) → ∀ later ∈ coming, idLe variantId later = true

section Steps

variable (orderId variantId : Nat) (coming : List Nat) (view : View StockRow)

theorem ready_tail (ready : Ready orderId (variantId :: coming) view) : Ready orderId coming view :=
  ⟨ready.header, fun held holds later listed => ready.passed held holds later (.tail _ listed)⟩

theorem ready_level (present locked : Bool) (ready : Ready orderId coming view)
    (below : ∀ later ∈ coming, idLe variantId later = true) :
    Ready orderId coming (view.learn (some (.level variantId)) present locked) := by
  refine ⟨.inr ready.header, fun held holds later listed => ?_⟩
  rcases holds with ⟨-, same⟩ | before
  · cases same
    exact below later listed
  · exact ready.passed held before later listed

theorem ready_reservation (present locked : Bool) (ready : Ready orderId coming view) :
    Ready orderId coming (view.learn (some (.reservation orderId variantId)) present locked) := by
  refine ⟨.inr ready.header, fun held holds later listed => ?_⟩
  rcases holds with ⟨-, other⟩ | before
  · cases other
  · exact ready.passed held before later listed

theorem allowed_level (ready : Ready orderId (variantId :: coming) view) :
    Allowed lockOrder view (.level variantId) := by
  refine ⟨fun gate behind => (nomatch behind), fun _ => ?_⟩
  by_cases own : view.held (.level variantId)
  · exact .inl own
  · refine .inr fun other held ungated => ?_
    cases other with
    | header orderId => trivial
    | level earlier =>
        refine ⟨ready.passed earlier held variantId (.head _), ?_⟩
        rintro rfl
        exact own held
    | reservation => cases ungated

theorem allowed_reservation (held : view.held (.header orderId)) :
    Allowed lockOrder view (.reservation orderId variantId) :=
  ⟨fun _ behind => Option.some.inj behind ▸ held, fun ungated => nomatch ungated⟩

theorem allowed_header (free : ∀ row, ¬ view.held row) :
    Allowed lockOrder view (.header orderId) :=
  ⟨fun _ behind => (nomatch behind), fun _ => .inr fun other held _ => absurd held (free other)⟩

theorem allowed_own (held : view.held (.header orderId)) :
    Allowed lockOrder view (.header orderId) :=
  ⟨fun _ behind => (nomatch behind), fun _ => .inl held⟩

end Steps

theorem idLe_refl (a : Nat) : idLe a a = true := (idLe_total a a).elim id id

theorem updateLevel_obeys (orderId variantId : Nat) (coming : List Nat) (view : View StockRow)
    (returns : Bool → View StockRow → Prop) (ready : Ready orderId (variantId :: coming) view)
    (sorted : ∀ later ∈ coming, idLe variantId later = true)
    (returned : ∀ answer later, Ready orderId (variantId :: coming) later → returns answer later) :
    Obeys database lockOrder view (updateLevel variantId) returns := by
  have below : ∀ later ∈ variantId :: coming, idLe variantId later = true := by
    intro later listed
    rcases List.mem_cons.mp listed with rfl | rest
    · exact idLe_refl later
    · exact sorted later rest
  refine obeys_query (Statement.updateLevel variantId) view (.level variantId) _ rfl
    (allowed_level orderId variantId coming view ready) fun answer present locked _ _ => ?_
  exact returned answer _ (ready_level orderId variantId _ view present locked ready below)

theorem insertHold_obeys (orderId variantId : Nat) (coming : List Nat) (view : View StockRow)
    (returns : Bool → View StockRow → Prop) (ready : Ready orderId coming view)
    (returned : ∀ answer later, Ready orderId coming later → returns answer later) :
    Obeys database lockOrder view (insertHold orderId variantId) returns := by
  refine obeys_query (Statement.insertHold orderId variantId) view (.reservation orderId variantId)
    _ rfl (allowed_reservation orderId variantId view ready.header)
    fun answer present locked _ _ => ?_
  exact returned answer _ (ready_reservation orderId variantId coming view present locked ready)

theorem reserveLine_obeys (orderId : Nat) (line : ReservationLine) (coming : List Nat)
    (view : View StockRow) (ready : Ready orderId (line.variantId :: coming) view)
    (sorted : ∀ later ∈ coming, idLe line.variantId later = true) :
    Obeys database lockOrder view (reserveLine orderId line) fun _ later =>
      Ready orderId coming later := by
  have below : ∀ later ∈ line.variantId :: coming, idLe line.variantId later = true := by
    intro later listed
    rcases List.mem_cons.mp listed with rfl | rest
    · exact idLe_refl _
    · exact sorted later rest
  refine obeys_bind _ _ view _ ?_
  refine obeys_query (Statement.lockLevel line.variantId) view (.level line.variantId) _ rfl
    (allowed_level orderId line.variantId coming view ready) fun answer present locked _ _ => ?_
  have locks := ready_level orderId line.variantId _ view present locked ready below
  cases answer with
  | none => trivial
  | some stock =>
      refine obeys_bind _ _ _ _ ?_
      refine obeys_read (Statement.isHeld orderId line.variantId) _ _ rfl fun held => ?_
      split
      · exact ready_tail orderId line.variantId coming _ locks
      · split
        · trivial
        · refine obeys_bind _ _ _ _ ?_
          refine updateLevel_obeys orderId line.variantId coming _ _ locks sorted
            fun _ written ready' => ?_
          refine obeys_bind _ _ _ _ ?_
          exact insertHold_obeys orderId line.variantId _ written _ ready' fun _ final ready'' =>
            ready_tail orderId line.variantId coming final ready''

theorem reserveLinesPessimistic_obeys (orderId : Nat) (lines : List ReservationLine)
    (view : View StockRow) (ready : Ready orderId (lines.map (·.variantId)) view)
    (sorted : (lines.map (·.variantId)).Pairwise fun a b => idLe a b = true) :
    Obeys database lockOrder view (reserveLinesPessimistic orderId lines) fun _ _ => True := by
  induction lines generalizing view with
  | nil => trivial
  | cons line rest ih =>
      obtain ⟨first, others⟩ := List.pairwise_cons.mp sorted
      refine obeys_bind _ _ view _ ?_
      refine obeys_mono _ view _ _ (reserveLine_obeys orderId line _ view ready first) ?_
      exact fun _ later ready' => ih later ready' others

theorem casAttempt_obeys (orderId : Nat) (line : ReservationLine) (swap : Tx Bool)
    (view : View StockRow) (returns : Bool → View StockRow → Prop) (unheld : returns false view)
    (swaps : Obeys database lockOrder view swap returns) :
    Obeys database lockOrder view (casAttempt orderId line swap) returns := by
  refine obeys_bind _ _ view _ ?_
  refine obeys_read (Statement.isHeld orderId line.variantId) view _ rfl fun held => ?_
  split
  · exact unheld
  · refine obeys_bind _ _ view _ ?_
    refine obeys_read (Statement.selectLevel line.variantId) view _ rfl fun row => ?_
    cases row with
    | none => trivial
    | some row =>
        dsimp only
        split
        · trivial
        · exact swaps

/-- However often the swap is retried, it locks the one level. -/
theorem casReserve_obeys (orderId : Nat) (line : ReservationLine) (coming : List Nat)
    (remaining : Nat) (view : View StockRow)
    (ready : Ready orderId (line.variantId :: coming) view)
    (sorted : ∀ later ∈ coming, idLe line.variantId later = true) :
    Obeys database lockOrder view (casReserve orderId line remaining) fun _ later =>
      Ready orderId (line.variantId :: coming) later := by
  induction remaining generalizing view with
  | zero => exact casAttempt_obeys orderId line _ view _ ready trivial
  | succ remaining ih =>
      refine casAttempt_obeys orderId line _ view _ ready ?_
      refine obeys_bind _ _ view _ ?_
      refine updateLevel_obeys orderId line.variantId coming view _ ready sorted
        fun won later ready' => ?_
      split
      · exact ready'
      · exact ih later ready'

theorem reserveLinesOptimistic_obeys (maxRetries orderId : Nat) (lines : List ReservationLine)
    (view : View StockRow) (ready : Ready orderId (lines.map (·.variantId)) view)
    (sorted : (lines.map (·.variantId)).Pairwise fun a b => idLe a b = true) :
    Obeys database lockOrder view (reserveLinesOptimistic maxRetries orderId lines)
      fun _ _ => True := by
  induction lines generalizing view with
  | nil => trivial
  | cons line rest ih =>
      obtain ⟨first, others⟩ := List.pairwise_cons.mp sorted
      refine obeys_bind _ _ view _ ?_
      refine obeys_mono _ view _ _ (casReserve_obeys orderId line _ _ view ready first) ?_
      intro raised later ready'
      have onward := ready_tail orderId line.variantId _ later ready'
      split
      · refine obeys_bind _ _ later _ ?_
        exact insertHold_obeys orderId line.variantId _ later _ onward fun _ held ready'' =>
          ih held ready'' others
      · exact ih later onward others

theorem moveLine_obeys (orderId variantId : Nat) (coming : List Nat) (view : View StockRow)
    (ready : Ready orderId (variantId :: coming) view)
    (sorted : ∀ later ∈ coming, idLe variantId later = true) :
    Obeys database lockOrder view (moveLine orderId variantId) fun _ later =>
      Ready orderId coming later := by
  refine obeys_bind _ _ view _ ?_
  refine obeys_query (Statement.flipLine orderId variantId) view
    (.reservation orderId variantId) _ rfl
    (allowed_reservation orderId variantId view ready.header) fun flipped present locked _ _ => ?_
  have flips := ready_reservation orderId variantId _ view present locked ready
  split
  · refine obeys_bind _ _ _ _ ?_
    exact updateLevel_obeys orderId variantId coming _ _ flips sorted fun _ later ready' =>
      ready_tail orderId variantId coming later ready'
  · exact ready_tail orderId variantId coming _ flips

theorem movePending_obeys (orderId : Nat) (lines : List Reservation) (view : View StockRow)
    (ready : Ready orderId (lines.map (·.variantId)) view)
    (sorted : (lines.map (·.variantId)).Pairwise fun a b => idLe a b = true) :
    Obeys database lockOrder view (movePending orderId lines) fun _ later =>
      later.held (.header orderId) := by
  induction lines generalizing view with
  | nil => exact ready.header
  | cons line rest ih =>
      obtain ⟨first, others⟩ := List.pairwise_cons.mp sorted
      refine obeys_bind _ _ view _ ?_
      refine obeys_mono _ view _ _ (moveLine_obeys orderId line.variantId _ view ready first) ?_
      exact fun _ later ready' => ih later ready' others

/-! ## The transactions keep the order -/

theorem sorted_variants {α : Type} (variantId : α → Nat) (rows : List α) :
    ((rows.insertionSort fun a b => idLe (variantId a) (variantId b)).map variantId).Pairwise
      fun a b => idLe a b = true := by
  have total : Std.Total fun a b : α => idLe (variantId a) (variantId b) = true :=
    ⟨fun a b => idLe_total (variantId a) (variantId b)⟩
  have trans : IsTrans α fun a b => idLe (variantId a) (variantId b) = true :=
    ⟨fun a b c => idLe_trans (variantId a) (variantId b) (variantId c)⟩
  exact List.pairwise_map.mpr (List.pairwise_insertionSort _ rows)

/-- Under the order's header and before its first level, any lines may come. -/
structure Opened (orderId : Nat) (view : View StockRow) : Prop where
  header : view.held (.header orderId)
  levels : ∀ variantId, ¬ view.held (.level variantId)

theorem opened_ready (orderId : Nat) (coming : List Nat) (view : View StockRow)
    (opened : Opened orderId view) : Ready orderId coming view :=
  ⟨opened.header, fun variantId held => absurd held (opened.levels variantId)⟩

theorem learn_opened (orderId : Nat) (view : View StockRow) (present : Bool)
    (free : ∀ row, ¬ view.held row) :
    Opened orderId (view.learn (some (.header orderId)) present true) := by
  refine ⟨.inl ⟨rfl, rfl⟩, fun variantId held => ?_⟩
  rcases held with ⟨-, other⟩ | before
  · cases other
  · exact free _ before

theorem learn_free (view : View StockRow) (row : Option StockRow) (present : Bool)
    (free : ∀ row, ¬ view.held row) : ∀ other, ¬ (view.learn row present false).held other := by
  rintro other (⟨locked, -⟩ | before)
  · cases locked
  · exact free other before

theorem moveLines_obeys (orderId : Nat) (transition : LineTransition) (view : View StockRow)
    (opened : Opened orderId view) :
    Obeys database lockOrder view (moveLines orderId transition) fun _ later =>
      later.held (.header orderId) := by
  refine obeys_bind _ _ view _ ?_
  refine obeys_read (Statement.selectLines orderId) view _ rfl fun rows => ?_
  exact movePending_obeys orderId _ view (opened_ready orderId _ view opened)
    (sorted_variants Reservation.variantId _)

/-- The lines of the order move and its header follows, which is locked already. -/
theorem moveOrder_obeys (orderId : Nat) (transition : LineTransition) (view : View StockRow)
    (opened : Opened orderId view) :
    Obeys database lockOrder view (do
      moveLines orderId transition
      let _ ← setHeaderStatus orderId) fun _ _ => True := by
  refine obeys_bind _ _ view _ ?_
  refine obeys_mono _ view _ _ (moveLines_obeys orderId transition view opened) ?_
  intro _ later held
  refine obeys_bind _ _ later _ ?_
  exact obeys_query (Statement.setHeaderStatus orderId) later (.header orderId) _ rfl
    (allowed_own orderId later held) fun _ _ _ _ _ => trivial

theorem resolve_obeys (command : LineTransition) (orderId : Nat)
    (header : Option ReservationOrderStatus) (view : View StockRow)
    (opened : Opened orderId view) :
    Obeys database lockOrder view (resolve command orderId header) fun _ _ => True := by
  unfold resolve
  split
  · exact moveOrder_obeys orderId command view opened
  · trivial
  · trivial

theorem findHeader_obeys (orderId : Nat) (view : View StockRow)
    (returns : Option ReservationOrderStatus → View StockRow → Prop)
    (free : ∀ row, ¬ view.held row)
    (found : ∀ status later, Opened orderId later → returns (some status) later)
    (missed : ¬ view.present (.header orderId) → ∀ later, (∀ row, ¬ later.held row) →
      returns none later) :
    Obeys database lockOrder view (findHeaderForUpdate orderId) returns := by
  refine obeys_query (Statement.findHeaderForUpdate orderId) view (.header orderId) _ rfl
    (allowed_header orderId view free) fun answer present locked permitted known => ?_
  have told : answer.isSome = present ∧ locked = present := by
    simpa [database, Statement.permits] using permitted
  obtain ⟨rfl, rfl⟩ := told
  cases answer with
  | some status => exact found status _ (learn_opened orderId view true free)
  | none =>
      refine missed (fun seen => ?_) _ (learn_free view _ false free)
      exact Bool.false_ne_true (known seen)

/-- The header is inserted while nothing is held: it is locked, or it was there before. -/
theorem insertHeader_obeys (orderId : Nat) (view : View StockRow)
    (returns : Bool → View StockRow → Prop) (free : ∀ row, ¬ view.held row)
    (inserted : ∀ later, Opened orderId later → returns true later)
    (refused : ∀ later, later.present (.header orderId) → (∀ row, ¬ later.held row) →
      returns false later) :
    Obeys database lockOrder view (insertHeader orderId) returns := by
  refine obeys_query (Statement.insertHeader orderId) view (.header orderId) _ rfl
    (allowed_header orderId view free) fun answer present locked permitted _ => ?_
  cases answer with
  | true =>
      have told : present = false ∧ locked = true := by
        simpa [database, Statement.permits] using permitted
      obtain ⟨rfl, rfl⟩ := told
      exact inserted _ (learn_opened orderId view false free)
  | false =>
      have told : present = true ∧ locked = false := by
        simpa [database, Statement.permits] using permitted
      obtain ⟨rfl, rfl⟩ := told
      exact refused _ (.inl ⟨rfl, rfl⟩) (learn_free view _ true free)

theorem tryReserve_obeys (strategy : LockStrategy) (maxRetries orderId : Nat)
    (lines : List ReservationLine) (view : View StockRow) (free : ∀ row, ¬ view.held row) :
    Obeys database lockOrder view (tryReserve strategy maxRetries orderId lines)
      fun _ _ => True := by
  refine obeys_bind _ _ view _ ?_
  refine insertHeader_obeys orderId view _ free (fun later opened => ?_) fun later _ free' => ?_
  · have ready := opened_ready orderId ((sortLines lines).map (·.variantId)) later opened
    have sorted := sorted_variants ReservationLine.variantId lines
    cases strategy with
    | pessimistic => exact reserveLinesPessimistic_obeys orderId _ later ready sorted
    | optimistic => exact reserveLinesOptimistic_obeys maxRetries orderId _ later ready sorted
  · refine obeys_bind _ _ later _ ?_
    exact findHeader_obeys orderId later _ free' (fun _ _ _ => trivial) fun _ _ _ => trivial

theorem runCommand_obeys (command : LineTransition) (orderId : Nat) (view : View StockRow)
    (free : ∀ row, ¬ view.held row) :
    Obeys database lockOrder view (runCommand command orderId) fun _ _ => True := by
  refine obeys_bind _ _ view _ ?_
  refine findHeader_obeys orderId view _ free (fun status later opened => ?_)
    fun _ later free' => ?_
  · exact resolve_obeys command orderId (some status) later opened
  dsimp only
  split
  · refine obeys_bind _ _ later _ ?_
    refine insertHeader_obeys orderId later _ free' (fun _ _ => trivial) fun again seen free'' => ?_
    refine obeys_bind _ _ again _ ?_
    refine findHeader_obeys orderId again _ free'' (fun status final opened => ?_)
      fun unseen => absurd seen unseen
    exact resolve_obeys command orderId (some status) final opened
  · rename_i other
    unfold resolve
    cases command with
    | release => exact absurd rfl other
    | commit => trivial
    | restock => trivial

/-- The sweep never waits for a header. -/
theorem releaseLapsedHold_obeys (orderId : Nat) (view : View StockRow)
    (free : ∀ row, ¬ view.held row) :
    Obeys database lockOrder view (releaseLapsedHold orderId) fun _ _ => True := by
  refine obeys_bind _ _ view _ ?_
  refine obeys_query (Statement.lockLapsedHeader orderId) view (.header orderId) _ rfl
    (allowed_header orderId view free) fun answer present locked permitted _ => ?_
  have told : answer = locked := by
    have both : answer = locked ∧ (locked = false ∨ present = true) := by
      simpa [database, Statement.permits] using permitted
    exact both.1
  subst told
  cases answer with
  | true => exact moveOrder_obeys orderId .release _ (learn_opened orderId view present free)
  | false => trivial

theorem allowed_single (variantId : Nat) (view : View StockRow) (free : ∀ row, ¬ view.held row) :
    Allowed lockOrder view (.level variantId) :=
  ⟨fun _ behind => (nomatch behind), fun _ => .inr fun other held _ => absurd held (free other)⟩

theorem transaction_obeys (maxRetries : Nat) (request : StockRequest) :
    Obeys database lockOrder View.start (transaction maxRetries request) fun _ _ => True := by
  have free : ∀ row : StockRow, ¬ View.start.held row := fun _ => id
  cases request with
  | tryReserve strategy orderId lines =>
      exact tryReserve_obeys strategy maxRetries orderId lines _ free
  | command command orderId => exact runCommand_obeys command orderId _ free
  | sweep orderId => exact releaseLapsedHold_obeys orderId _ free
  | setOnHand variantId =>
      refine obeys_bind _ _ _ _ ?_
      exact obeys_query (Statement.upsertLevel variantId) _ (.level variantId) _ rfl
        (allowed_single variantId _ free) fun _ _ _ _ _ => trivial
  | adjust variantId =>
      refine obeys_bind _ _ _ _ ?_
      exact obeys_query (Statement.updateLevel variantId) _ (.level variantId) _ rfl
        (allowed_single variantId _ free) fun _ _ _ _ _ => trivial

/-! ## No deadlock -/

abbrev LockState : Type := State Statement Statement.Answer StockRow Nat Unit

/-- Whatever the tables hold, however many transactions run and in whatever order: no cycle of
transactions waiting for one another's rows is reached. -/
theorem stock_transactions_never_deadlock (maxRetries : Nat) (present : StockRow → Bool)
    (events : List (Event Statement Statement.Answer Nat StockRequest)) (state : LockState)
    (ran : Runs.run (Locks.step database (transaction maxRetries)) (idle present) events =
      some state)
    (slot : Nat) : ¬ Relation.TransGen (WaitsFor database state) slot slot :=
  run_no_wait_cycle (transaction_obeys maxRetries) present events state ran slot

/-- Two Tries over the same two variants, given in opposite orders: the second waits for the
first at the variant both come to first. -/
def contendedEvents : List (Event Statement Statement.Answer Nat StockRequest) :=
  [ .begin 1 (.tryReserve .pessimistic 10 [⟨7, 1⟩, ⟨6, 1⟩]),
    .begin 2 (.tryReserve .optimistic 11 [⟨6, 1⟩, ⟨7, 1⟩]),
    .answer 1 (.insertHeader 10) true true,
    .answer 2 (.insertHeader 11) true true,
    .answer 1 (.lockLevel 6) (some ⟨5, 0, 0⟩) true,
    .answer 2 (.isHeld 11 6) false false,
    .answer 2 (.selectLevel 6) (some ⟨5, 0, 0⟩) false ]

def stockedRows (row : StockRow) : Bool := row = .level 6 || row = .level 7

theorem contended_tries_never_deadlock :
    ∃ state : LockState,
      Runs.run (Locks.step database (transaction 3)) (idle stockedRows) contendedEvents =
      some state ∧
      WaitsFor database state 2 1 ∧ ¬ Relation.TransGen (WaitsFor database state) 2 2 := by
  refine ⟨_, rfl, ⟨by decide, .level 6, rfl, rfl⟩, ?_⟩
  exact stock_transactions_never_deadlock 3 stockedRows contendedEvents _ rfl 2

end Commerce.Inventory.Locking
