import Commerce.Lib.Pages
import Commerce.Lib.Tables
import Commerce.Payments.UseCases

/-!
# The reconciler over a backlog

The participant's tables hold the attempts of every order.  A tick examines the
stalest of them, one after the other, and only the tick writes.  Every update
of an attempt stamps it anew.
-/

set_option autoImplicit false

namespace Commerce.Payments.Backlog

open Programs (Program Safe)

/-! ## The tables -/

/-- Times are microseconds. -/
structure Row extends PaymentRow where
  orderId : Nat
  stripeKeyGen : Nat
  updatedAt : Int
  deriving DecidableEq, Repr

structure OutboxRow extends AuthorizedRecord where
  orderId : Nat
  deriving DecidableEq, Repr

structure Db where
  headers : Nat → Option PaymentOrderHeader
  payments : List Row
  outbox : List OutboxRow

namespace Db

def insertFenced (db : Db) (orderId : Nat) : Bool × Db :=
  match db.headers orderId with
  | none =>
      (true, { db with
        headers := Function.update db.headers orderId (some ⟨.fenced, none, none, none⟩) })
  | some _ => (false, db)

def updateHeader (db : Db) (orderId : Nat) (change : PaymentOrderHeader → PaymentOrderHeader) :
    Except Fault Db :=
  match db.headers orderId with
  | none => .ok db
  | some header =>
      if Payments.Db.chargeWhenNotFenced (change header) then
        .ok { db with headers := Function.update db.headers orderId (some (change header)) }
      else .error .database

def newerFirst (one other : Row) : Prop :=
  other.createdAt < one.createdAt ∨ (one.createdAt = other.createdAt ∧ other.id ≤ one.id)

instance : DecidableRel newerFirst := fun _ _ => inferInstanceAs (Decidable (_ ∨ _ ∧ _))

def findByProviderSessionId (db : Db) (providerSessionId : Nat) : Option Row :=
  (Pages.page newerFirst (fun row => row.providerSessionId == providerSessionId) 1
    db.payments).head?

def findActiveByOrderIdForUpdate (db : Db) (orderId : Nat) : Option Row :=
  db.payments.find? fun row => row.orderId == orderId && !row.status.retired

/-- An update of the rows its predicate picks; `now` is what `$onUpdate` stamps them with. -/
def update (db : Db) (now : Int) (picks : Row → Bool) (change : Row → Row) : Db :=
  { db with
    payments := db.payments.map fun row =>
      if picks row then { change row with updatedAt := now } else row }

/-- An absent intent is not patched. -/
def updateStatus (db : Db) (now : Int) (id : Nat) (status : PaymentStatus)
    (providerIntentId : Option Nat) (expectedStatus : Option PaymentStatus) : Db :=
  db.update now (fun row => row.id == id && expectedStatus.all (row.status == ·)) fun row =>
    { row with
      status := status
      providerIntentId := providerIntentId.or row.providerIntentId }

def bumpUpdatedAt (db : Db) (now : Int) (id : Nat) (expectedStatus : PaymentStatus) : Db :=
  db.update now (fun row => row.id == id && row.status == expectedStatus) fun row => row

def incrementKeyGen (db : Db) (now : Int) (id expectedGen : Nat) : Db :=
  db.update now (fun row => row.id == id && row.stripeKeyGen == expectedGen) fun row =>
    { row with stripeKeyGen := expectedGen + 1 }

def append (db : Db) (record : OutboxRow) : Db := { db with outbox := db.outbox ++ [record] }

/-- A participant's attempt that is pending, or a hold left under a header that will not capture
it. -/
def reconcilable (db : Db) (row : Row) : Bool :=
  match db.headers row.orderId with
  | none => false
  | some header =>
      row.status == .pending ||
        (row.status == .authorized && (header.status == .cancelled || header.status == .fenced))

def stale (db : Db) (updatedBefore : Int) (row : Row) : Bool :=
  decide (row.updatedAt < updatedBefore) && db.reconcilable row

def upTo (one other : Row) : Prop :=
  one.updatedAt < other.updatedAt ∨ (one.updatedAt = other.updatedAt ∧ one.id ≤ other.id)

instance : DecidableRel upTo := fun _ _ => inferInstanceAs (Decidable (_ ∨ _ ∧ _))

instance : Std.Total upTo where
  total one other := by
    simp only [upTo]
    omega

instance : IsTrans Row upTo where
  trans one other third := by
    simp only [upTo]
    omega

def findStaleTcc (db : Db) (updatedBefore : Int) (limit : Nat) : List Row :=
  Pages.page upTo (db.stale updatedBefore) limit db.payments

end Db

/-! ## What a tick may meet -/

/-- An error of a call to Stripe; one of any other class never asks for a fresh key. -/
structure GatewayFailure where
  retryWithFreshKey : Bool
  deriving DecidableEq, Repr

structure IntentKey where
  paymentId : Nat
  gen : Nat
  deriving DecidableEq, Repr

structure Choice where
  /-- The time since the action before. -/
  elapsed : Nat := 0
  /-- Stripe's answers, by session. -/
  authorization : Nat → Except GatewayFailure SessionAuthorization := fun _ => .error ⟨false⟩
  expiry : Nat → Except GatewayFailure ExpireSessionOutcome := fun _ => .error ⟨false⟩
  /-- Stripe's answer, by intent and key. -/
  voiding : Option Nat → IntentKey → Except GatewayFailure VoidIntentOutcome :=
    fun _ _ => .error ⟨false⟩
  /-- The id the identity service mints. -/
  minted : Option Nat := none

structure World where
  db : Db
  clock : Int

abbrev Handler (α : Type) := Program World Choice Fault α

def World.reads (world : World) (choice : Choice) : Int := world.clock + choice.elapsed

def World.later (world : World) (choice : Choice) : World :=
  { world with clock := world.reads choice }

def transaction {α : Type} (body : Int → Db → Except Fault (α × Db)) : Handler α :=
  .atomic fun world choice =>
    match body (world.reads choice) world.db with
    | .error fault => (.error fault, world.later choice)
    | .ok (result, db) => (.ok result, { world.later choice with db })

def query {α : Type} (read : Db → α) : Handler α :=
  .atomic fun world choice => (.ok (read world.db), world.later choice)

def call {α : Type} (answer : Choice → Except GatewayFailure α) :
    Handler (Except GatewayFailure α) :=
  .atomic fun world choice => (.ok (answer choice), world.later choice)

def now : Handler Int :=
  .atomic fun world choice => (.ok (world.reads choice), world.later choice)

def mintOne : Handler Nat :=
  .atomic fun world choice =>
    match choice.minted with
    | some id => (.ok id, world.later choice)
    | none => (.error .identity, world.later choice)

def raised {α : Type} : Except GatewayFailure α → Handler α
  | .ok answer => pure answer
  | .error _ => .failed .gateway

def retrieveAuthorization (session : Nat) : Handler SessionAuthorization := do
  let answer ← call fun choice => choice.authorization session
  raised answer

def expireSession (session : Nat) : Handler ExpireSessionOutcome := do
  let answer ← call fun choice => choice.expiry session
  raised answer

/-- The key's generation moves only when Stripe provably did not apply the call. -/
def withIntentKey {α : Type} (payment : Row)
    (request : IntentKey → Choice → Except GatewayFailure α) : Handler α := do
  let answer ← call (request ⟨payment.id, payment.stripeKeyGen⟩)
  match answer with
  | .ok settled => pure settled
  | .error failure => do
      if failure.retryWithFreshKey then
        transaction fun now db => .ok ((), db.incrementKeyGen now payment.id payment.stripeKeyGen)
      .failed .gateway

def voidIntent (payment : Row) (intentId : Option Nat) : Handler VoidIntentOutcome :=
  withIntentKey payment fun key choice => choice.voiding intentId key

/-! ## Recording an authorization -/

structure Prepared extends PreparedAuthorization where
  orderId : Nat
  deriving DecidableEq, Repr

/-- Whatever the void answers, the stray hold is accounted for. -/
def voidStray (payment : Row) (intentId : Nat) : Handler Unit := do
  let _ ← voidIntent payment (some intentId)
  pure ()

/-- The header is read before the payment: `apply` commits both together. -/
def prepare (read : Row) (hold : HeldCharge) (authorizedAt : Int) : Handler Prepared := do
  let header ← query fun db => db.headers read.orderId
  let payment ← query fun db => db.findByProviderSessionId read.providerSessionId
  match header, payment with
  | some header, some payment =>
      if payment.id ≠ read.id then
        .failed (.broken "payment or its payment_orders header is missing")
      else
        let prepared : Prepared :=
          ⟨⟨payment.id, payment.providerSessionId, hold, authorizedAt, false, none⟩,
            payment.orderId⟩
        match decideAuthorization payment.toPayment header hold with
        | .stray => do
            voidStray payment hold.intentId
            pure { prepared with strayVoided := true }
        | .record | .recordLate => do
            let outboxId ← mintOne
            pure { prepared with outboxId := some outboxId }
        | .alreadyRecorded | .amountMismatch => pure prepared
  | _, _ => .failed (.broken "payment or its payment_orders header is missing")

def Db.recordAuthorization (db : Db) (now : Int) (payment : Row) (prepared : Prepared)
    (outboxId : Nat) (outcome : AuthorizationOutcome) : Except Fault (AuthorizationOutcome × Db) :=
  match payment.toPayment.markAuthorized prepared.hold.intentId with
  | .error message => .error (.broken message)
  | .ok authorized =>
      let updated := db.updateStatus now prepared.paymentId authorized.status
        authorized.providerIntentId (some .pending)
      -- A cancelled header stays cancelled: a late hold never revives the order.
      match updated.updateHeader prepared.orderId fun header =>
          { header with
            status := if outcome = .recorded then .authorized else header.status
            authorizedAt := some prepared.authorizedAt } with
      | .error fault => .error fault
      | .ok stamped =>
          .ok (outcome, stamped.append
            ⟨⟨outboxId, prepared.paymentId, payment.amountMinor, payment.currency,
              prepared.authorizedAt⟩, prepared.orderId⟩)

def Db.apply (prepared : Prepared) (now : Int) (db : Db) :
    Except Fault (AuthorizationOutcome × Db) :=
  match db.headers prepared.orderId, db.findByProviderSessionId prepared.providerSessionId with
  | some header, some payment =>
      if payment.id ≠ prepared.paymentId then
        .error (.broken "payment or its header vanished under the lock")
      else
        match decideAuthorization payment.toPayment header prepared.hold, prepared.outboxId with
        | .alreadyRecorded, _ => .ok (.alreadyRecorded, db)
        | .amountMismatch, _ => .ok (.amountMismatch, db)
        | .stray, _ =>
            if prepared.strayVoided then .ok (.strayVoided, db) else .error .webhookRetryLater
        | .record, some outboxId =>
            db.recordAuthorization now payment prepared outboxId .recorded
        | .recordLate, some outboxId =>
            db.recordAuthorization now payment prepared outboxId .recordedLate
        | .record, none | .recordLate, none => .error .webhookRetryLater
  | _, _ => .error (.broken "payment or its header vanished under the lock")

def record (payment : Row) (hold : HeldCharge) (authorizedAt : Int) :
    Handler AuthorizationOutcome := do
  let prepared ← prepare payment hold authorizedAt
  transaction (Db.apply prepared)

/-! ## Cancelling -/

def Db.releasable (db : Db) (orderId : Nat) : Option Row :=
  (db.findActiveByOrderIdForUpdate orderId).filter fun active =>
    active.status == .pending || active.status == .authorized

def Db.moveHeader {α : Type} (db : Db) (orderId : Nat) (status : PaymentOrderStatus) (answer : α) :
    Except Fault (α × Db) :=
  match db.updateHeader orderId fun header => { header with status := status } with
  | .error fault => .error fault
  | .ok moved => .ok (answer, moved)

/-- The first transaction of a cancel: the header is flipped or fenced. -/
def Db.flip (orderId : Nat) (db : Db) : Except Fault ((CancelOutcome × Option Row) × Db) :=
  let fenced := (db.headers orderId).isNone
  let locked := if fenced then (db.insertFenced orderId).2 else db
  match locked.headers orderId with
  | none => .error (.broken "payment_orders header lost an insert race yet cannot be read")
  | some header =>
      match decideCancel (some header.status) with
      | .capturedConflict => .ok ((.capturedConflict, none), locked)
      | .cancel =>
          -- The attempts are read after the flip, which does not touch them.
          locked.moveHeader orderId .cancelled (.cancelled, locked.releasable orderId)
      | .fence | .rescan =>
          .ok ((if fenced then .fenced else .idempotent, locked.releasable orderId), locked)

def voidHold (attempt : Row) (intentId : Option Nat) : Handler Released := do
  let outcome ← voidIntent attempt intentId
  pure (if outcome = .alreadyCaptured then .captured else .voided intentId)

def release (attempt : Row) : Handler Released :=
  if attempt.status = .authorized then voidHold attempt attempt.providerIntentId
  else do
    let closing ← expireSession attempt.providerSessionId
    if closing ≠ .alreadyCompleted then pure .expired
    else
      let authorization ← retrieveAuthorization attempt.providerSessionId
      match authorization.intentStatus with
      | some .requiresCapture => voidHold attempt authorization.intentId
      | some .canceled => pure (.voided authorization.intentId)
      | some .succeeded => pure .captured
      | _ => .failed (.broken "session completed but its intent reads otherwise")

def Db.recordReleased (attempt : Row) (released : Released) (now : Int) (db : Db) :
    Except Fault (Bool × Db) :=
  match db.findByProviderSessionId attempt.providerSessionId with
  | none => .error (.broken "payment vanished under the lock")
  | some payment =>
      let unsettled := payment.status = .pending ∨ payment.status = .authorized
      match released with
      | .expired => .ok (false, db.updateStatus now payment.id .expired none (some .pending))
      | .voided intentId =>
          if unsettled then
            .ok (false, db.updateStatus now payment.id .voided intentId (some payment.status))
          else .ok (false, db)
      | .captured =>
          let settled :=
            if unsettled then
              db.updateStatus now payment.id .succeeded none (some payment.status)
            else db
          settled.moveHeader attempt.orderId .captured true

def cancelPayment (orderId : Nat) : Handler CancelOutcome := do
  let (outcome, attempt) ← transaction fun _ => Db.flip orderId
  match attempt with
  | none => pure outcome
  | some attempt => do
      let released ← release attempt
      let conflict ← transaction (Db.recordReleased attempt released)
      pure (if conflict then .capturedConflict else outcome)

/-! ## A tick -/

def bumpUpdatedAt (id : Nat) (expectedStatus : PaymentStatus) : Handler Unit :=
  transaction fun now db => .ok ((), db.bumpUpdatedAt now id expectedStatus)

def updateStatus (id : Nat) (status : PaymentStatus) (providerIntentId : Option Nat)
    (expectedStatus : PaymentStatus) : Handler Unit :=
  transaction fun now db =>
    .ok ((), db.updateStatus now id status providerIntentId (some expectedStatus))

def reconcile (payment : Row) : Handler ReconcileOutcome :=
  if payment.status = .authorized then do
    let _ ← cancelPayment payment.orderId
    pure .voided
  else do
    let authorization ← retrieveAuthorization payment.providerSessionId
    match heldCharge authorization with
    | some hold => do
        let authorizedAt ← now
        let outcome ← record payment hold authorizedAt
        if outcome = .recorded ∨ outcome = .recordedLate then pure .recorded
        else do
          bumpUpdatedAt payment.id .pending
          pure .deferred
    | none =>
        if authorization.sessionStatus = some .expired then do
          updateStatus payment.id .expired none .pending
          pure .expired
        else if authorization.sessionStatus = some .complete
            ∧ authorization.intentStatus = some .canceled then do
          updateStatus payment.id .voided authorization.intentId .pending
          pure .voided
        else do
          bumpUpdatedAt payment.id .pending
          pure .deferred

structure ReconcileTccSummary where
  scanned : Nat
  errors : Nat := 0
  recorded : Nat := 0
  expired : Nat := 0
  voided : Nat := 0
  deferred : Nat := 0
  deriving DecidableEq, Repr

def ReconcileTccSummary.count (summary : ReconcileTccSummary) :
    ReconcileOutcome → ReconcileTccSummary
  | .recorded => { summary with recorded := summary.recorded + 1 }
  | .expired => { summary with expired := summary.expired + 1 }
  | .voided => { summary with voided := summary.voided + 1 }
  | .deferred => { summary with deferred := summary.deferred + 1 }
  | .failed => { summary with errors := summary.errors + 1 }

def sendToBackOfQueue (payment : Row) : Handler Unit :=
  (bumpUpdatedAt payment.id payment.status).orElse fun _ => pure ()

/-- One payment of the batch; an error is counted and never stops the batch. -/
def examine (payment : Row) : Handler ReconcileOutcome :=
  (reconcile payment).orElse fun _ => do
    sendToBackOfQueue payment
    pure .failed

def sweep : ReconcileTccSummary → List Row → Handler ReconcileTccSummary
  | summary, [] => pure summary
  | summary, payment :: rest => do
      let outcome ← examine payment
      sweep (summary.count outcome) rest

structure ReconcileTccInput where
  staleAfterSec : Int
  batchSize : Nat
  deriving DecidableEq, Repr

/-- Rows stamped before this are stale. -/
def ReconcileTccInput.updatedBefore (input : ReconcileTccInput) (now : Int) : Int :=
  now - input.staleAfterSec * 1000000

def execute (input : ReconcileTccInput) : Handler ReconcileTccSummary := do
  let clock ← now
  let stale ← query fun db => db.findStaleTcc (input.updatedBefore clock) input.batchSize
  sweep { scanned := stale.length } stale

end Commerce.Payments.Backlog
