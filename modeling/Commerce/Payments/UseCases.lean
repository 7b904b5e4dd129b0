import Commerce.Lib.Programs
import Commerce.Payments.Store

/-!
# The payment participant's commands

Every command is a program of atomic actions: one database transaction, one
unlocked read or one call to Stripe each.  Anything may happen to the order
between two actions, and any action may fail before or after it took effect.
-/

set_option autoImplicit false

namespace Commerce.Payments

open Programs (Program)

/-! ## What a command may meet -/

inductive WebhookType where
  | completed
  | expired
  | other
  deriving DecidableEq, Repr

/-- A verified event; `sessionId` is what its payload reads as. -/
structure ValidEvent where
  providerEventId : Nat
  type : WebhookType
  sessionId : Option Nat
  deriving DecidableEq, Repr

inductive Request where
  | openSession (amountMinor : Int) (currency : String) (expiresAt : Int)
  | capture
  | cancel
  | webhook (event : ValidEvent)
  | reconcile
  deriving DecidableEq, Repr

structure Shared where
  db : Db
  stripe : Stripe

/-- Whether an action takes effect and whether its answer comes back. -/
inductive Delivery where
  | answered
  | refused
  | lost
  deriving DecidableEq, Repr

structure Choice where
  delivery : Delivery := .answered
  /-- The process's clock. -/
  now : Int := 0
  /-- The id the identity service mints. -/
  id : Nat := 0
  /-- The rows that are stale by now and fit the batch. -/
  stale : List Nat := []
  deriving DecidableEq, Repr

abbrev Handler (α : Type) := Program Shared Choice Fault α

def transaction {α : Type} (body : Db → Except Fault (α × Db)) : Handler α :=
  .atomic fun shared choice =>
    match choice.delivery, body shared.db with
    | .refused, _ => (.error .database, shared)
    | _, .error fault => (.error fault, shared)
    | .answered, .ok (result, db) => (.ok result, { shared with db })
    | .lost, .ok (_, db) => (.error .database, { shared with db })

def query {α : Type} (read : Db → Choice → α) : Handler α :=
  .atomic fun shared choice =>
    match choice.delivery with
    | .answered => (.ok (read shared.db choice), shared)
    | .refused | .lost => (.error .database, shared)

/-- A call to Stripe; a call that timed out may have taken effect. -/
def call {α : Type} (request : Stripe → Except Fault α × Stripe) : Handler α :=
  .atomic fun shared choice =>
    match choice.delivery with
    | .answered => ((request shared.stripe).1, { shared with stripe := (request shared.stripe).2 })
    | .refused => (.error .gateway, shared)
    | .lost => (.error .gateway, { shared with stripe := (request shared.stripe).2 })

def mintOne : Handler Nat :=
  .atomic fun shared choice =>
    match choice.delivery with
    | .answered => (.ok choice.id, shared)
    | .refused | .lost => (.error .identity, shared)

def now : Handler Int := .atomic fun shared choice => (.ok choice.now, shared)

def retrieveAuthorization (ref : Nat) : Handler SessionAuthorization :=
  call fun stripe => (.ok (stripe.retrieveAuthorization ref), stripe)

/-! ## Recording an authorization -/

inductive AuthorizationOutcome where
  | recorded
  | recordedLate
  | alreadyRecorded
  | amountMismatch
  | strayVoided
  deriving DecidableEq, Repr

structure PreparedAuthorization where
  paymentId : Nat
  providerSessionId : Nat
  hold : HeldCharge
  authorizedAt : Int
  strayVoided : Bool
  outboxId : Option Nat
  deriving DecidableEq, Repr

def heldCharge (authorization : SessionAuthorization) : Option HeldCharge :=
  if authorization.sessionStatus ≠ some .complete
      ∨ authorization.intentStatus ≠ some .requiresCapture then none
  else
    authorization.intentId.map fun intentId =>
      ⟨intentId, authorization.amountCapturableMinor, authorization.currency⟩

def voidIntent (intentId : Nat) : Handler VoidIntentOutcome := call (Stripe.voidIntent intentId)

/-- Whatever the void answers, the stray hold is accounted for. -/
def voidStray (intentId : Nat) : Handler Unit := do
  let _ ← voidIntent intentId
  pure ()

/-- The header is read before the payment: `apply` commits both together. -/
def prepare (read : PaymentRow) (hold : HeldCharge) (authorizedAt : Int) :
    Handler PreparedAuthorization := do
  let header ← query fun db _ => db.header
  let payment ← query fun db _ => db.findByProviderSessionId read.providerSessionId
  match header, payment with
  | some header, some payment =>
      if payment.id ≠ read.id then
        .failed (.broken "payment or its payment_orders header is missing")
      else
        let prepared : PreparedAuthorization :=
          ⟨payment.id, payment.providerSessionId, hold, authorizedAt, false, none⟩
        match decideAuthorization payment.toPayment header hold with
        | .stray => do
            voidStray hold.intentId
            pure { prepared with strayVoided := true }
        | .record | .recordLate => do
            let outboxId ← mintOne
            pure { prepared with outboxId := some outboxId }
        | .alreadyRecorded | .amountMismatch => pure prepared
  | _, _ => .failed (.broken "payment or its payment_orders header is missing")

def Db.recordAuthorization (db : Db) (payment : PaymentRow) (prepared : PreparedAuthorization)
    (outboxId : Nat) (outcome : AuthorizationOutcome) : Except Fault (AuthorizationOutcome × Db) :=
  match payment.toPayment.markAuthorized prepared.hold.intentId with
  | .error message => .error (.broken message)
  | .ok authorized =>
      let updated := (db.updateStatus prepared.paymentId authorized.status
        authorized.providerIntentId (some .pending)).2
      -- A cancelled header stays cancelled: a late hold never revives the order.
      match updated.updateHeader fun header =>
          { header with
            status := if outcome = .recorded then .authorized else header.status
            authorizedAt := some prepared.authorizedAt } with
      | .error fault => .error fault
      | .ok stamped =>
          .ok (outcome, stamped.append
            ⟨outboxId, prepared.paymentId, payment.amountMinor, payment.currency,
              prepared.authorizedAt⟩)

def Db.apply (prepared : PreparedAuthorization) (db : Db) :
    Except Fault (AuthorizationOutcome × Db) :=
  match db.header, db.findByProviderSessionId prepared.providerSessionId with
  | some header, some payment =>
      if payment.id ≠ prepared.paymentId then
        .error (.broken "payment or its header vanished under the lock")
      else
        match decideAuthorization payment.toPayment header prepared.hold, prepared.outboxId with
        | .alreadyRecorded, _ => .ok (.alreadyRecorded, db)
        | .amountMismatch, _ => .ok (.amountMismatch, db)
        | .stray, _ =>
            if prepared.strayVoided then .ok (.strayVoided, db) else .error .webhookRetryLater
        | .record, some outboxId => db.recordAuthorization payment prepared outboxId .recorded
        | .recordLate, some outboxId =>
            db.recordAuthorization payment prepared outboxId .recordedLate
        | .record, none | .recordLate, none => .error .webhookRetryLater
  | _, _ => .error (.broken "payment or its header vanished under the lock")

def record (payment : PaymentRow) (hold : HeldCharge) (authorizedAt : Int) :
    Handler AuthorizationOutcome := do
  let prepared ← prepare payment hold authorizedAt
  transaction (Db.apply prepared)

/-! ## Opening a session -/

inductive OpenSessionResult where
  | opened (paymentId providerSessionId : Nat)
  | closed
  deriving DecidableEq, Repr

inductive Probe where
  | result (answer : OpenSessionResult)
  | retiring (payment : Option PaymentRow)
  deriving DecidableEq, Repr

/-- The first transaction of an open; `none` closes the session. -/
def Db.claimHeader (amountMinor : Int) (currency : String) (db : Db) :
    Except Fault (Option (Option PaymentRow) × Db) :=
  let claimed := (db.insertOpen amountMinor currency).2
  match claimed.header with
  | none => .ok (none, claimed)
  | some header =>
      if decideOpenSession (some header.status) = .closed then .ok (none, claimed)
      else if header.amountMinor ≠ some amountMinor
          ∨ header.currency.map toUpperCase ≠ some currency then
        .ok (none, claimed)
      else .ok (some claimed.findActiveByOrderIdForUpdate, claimed)

/-- Whether the current attempt is reused, replaced, or leaves nothing to open. -/
def probe : Option PaymentRow → Handler Probe
  | none => pure (.retiring none)
  | some active =>
      if active.status ≠ .pending then pure (.result .closed)
      else do
        let authorization ← retrieveAuthorization active.providerSessionId
        match authorization.sessionStatus with
        | some .opened => pure (.result (.opened active.id active.providerSessionId))
        | some .expired => pure (.retiring (some active))
        | some .complete =>
            match heldCharge authorization with
            | some hold => do
                let authorizedAt ← now
                let _ ← record active hold authorizedAt
                pure (.result .closed)
            | none => pure (.result .closed)
        | none => pure (.result .closed)

def Db.insertAttempt (before : Db) (amountMinor : Int) (currency : String) (session paymentId : Nat)
    (db : Db) : Except Fault (Option PaymentRow × Db) :=
  match Payment.create session amountMinor currency with
  | .error message => .error (.broken message)
  | .ok payment =>
      match db.create payment paymentId with
      | .ok (row, inserted) => .ok (some row, inserted)
      | .error .duplicateActive => .ok (none, before)
      | .error .duplicateKey => .error .database

/-- The second transaction: the attempt goes in only if nothing moved under the header. -/
def Db.insertIfStillOpen (amountMinor : Int) (currency : String) (session paymentId : Nat)
    (retiring : Option PaymentRow) (db : Db) : Except Fault (Option PaymentRow × Db) :=
  if db.header.map (·.status) ≠ some .opened then .ok (none, db)
  else
    match db.findActiveByOrderIdForUpdate with
    | none => db.insertAttempt amountMinor currency session paymentId db
    | some active =>
        if retiring.map (·.id) ≠ some active.id then .ok (none, db)
        else
          match db.updateStatus active.id .expired none (some .pending) with
          | (false, _) => .ok (none, db)
          | (true, retired) => db.insertAttempt amountMinor currency session paymentId retired

/-- `minLeadMs` is the configured lifetime floor with its margin, `key` the fresh uuid. -/
def openPaymentSession (minLeadMs : Int) (key : Nat) (amountMinor : Int) (asked : String)
    (expiresAt : Int) : Handler OpenSessionResult := do
  let clock ← now
  if expiresAt < clock + minLeadMs then pure .closed
  else
    let currency := toUpperCase asked
    let current ← transaction (Db.claimHeader amountMinor currency)
    match current with
    | none => pure .closed
    | some active => do
        let probed ← probe active
        match probed with
        | .result answer => pure answer
        | .retiring retiring => do
            let paymentId ← mintOne
            let session ← call (Stripe.createSession key)
            let created ← transaction
              (Db.insertIfStillOpen amountMinor currency session paymentId retiring)
            match created with
            | some row => pure (.opened row.id session)
            | none => do
                -- The URL never left: a session that cannot be closed is unreachable anyway.
                (do let _ ← call (Stripe.expireSession session)
                    pure ()).orElse fun _ => pure ()
                pure .closed

/-! ## Cancelling -/

inductive CancelOutcome where
  | cancelled
  | fenced
  | idempotent
  | capturedConflict
  deriving DecidableEq, Repr

inductive Released where
  | expired
  | voided (intentId : Option Nat)
  | captured
  deriving DecidableEq, Repr

def Db.releasable (db : Db) : Option PaymentRow :=
  db.findActiveByOrderIdForUpdate.filter fun active =>
    active.status == .pending || active.status == .authorized

def Db.moveHeader {α : Type} (db : Db) (status : PaymentOrderStatus) (answer : α) :
    Except Fault (α × Db) :=
  match db.updateHeader fun header => { header with status := status } with
  | .error fault => .error fault
  | .ok moved => .ok (answer, moved)

/-- The first transaction of a cancel: the header is flipped or fenced. -/
def Db.flip (db : Db) : Except Fault ((CancelOutcome × Option PaymentRow) × Db) :=
  let fenced := db.header.isNone
  let locked := if fenced then db.insertFenced.2 else db
  match locked.header with
  | none => .error (.broken "payment_orders header lost an insert race yet cannot be read")
  | some header =>
      match decideCancel (some header.status) with
      | .capturedConflict => .ok ((.capturedConflict, none), locked)
      | .cancel =>
          -- The attempts are read after the flip, which does not touch them.
          locked.moveHeader .cancelled (.cancelled, locked.releasable)
      | .fence | .rescan =>
          .ok ((if fenced then .fenced else .idempotent, locked.releasable), locked)

def voidHold (intentId : Nat) : Handler Released := do
  let outcome ← voidIntent intentId
  pure (if outcome = .alreadyCaptured then .captured else .voided (some intentId))

def release (attempt : PaymentRow) : Handler Released :=
  if attempt.status = .authorized then
    match attempt.providerIntentId with
    | some intentId => voidHold intentId
    | none => .failed .gateway
  else do
    let closing ← call (Stripe.expireSession attempt.providerSessionId)
    if closing ≠ .alreadyCompleted then pure .expired
    else
      let authorization ← retrieveAuthorization attempt.providerSessionId
      match authorization.intentStatus, authorization.intentId with
      | some .requiresCapture, some intentId => voidHold intentId
      | some .canceled, intentId => pure (.voided intentId)
      | some .succeeded, _ => pure .captured
      | _, _ => .failed (.broken "session completed but its intent reads otherwise")

/-- The last transaction of a cancel; true when the money turned out to be captured. -/
def Db.recordReleased (attempt : PaymentRow) (released : Released) (db : Db) :
    Except Fault (Bool × Db) :=
  match db.findByProviderSessionId attempt.providerSessionId with
  | none => .error (.broken "payment vanished under the lock")
  | some payment =>
      let unsettled := payment.status = .pending ∨ payment.status = .authorized
      match released with
      | .expired => .ok (false, (db.updateStatus payment.id .expired none (some .pending)).2)
      | .voided intentId =>
          if unsettled then
            .ok (false, (db.updateStatus payment.id .voided intentId (some payment.status)).2)
          else .ok (false, db)
      | .captured =>
          let settled :=
            if unsettled then (db.updateStatus payment.id .succeeded none (some payment.status)).2
            else db
          settled.moveHeader .captured true

def cancelPayment : Handler CancelOutcome := do
  let (outcome, attempt) ← transaction Db.flip
  match attempt with
  | none => pure outcome
  | some attempt => do
      let released ← release attempt
      let conflict ← transaction (Db.recordReleased attempt released)
      pure (if conflict then .capturedConflict else outcome)

/-! ## Capturing -/

inductive CaptureOutcome where
  | captured
  | idempotent
  | notCapturable
  | conflict
  deriving DecidableEq, Repr

def Db.settle (read : PaymentRow) (result : CaptureIntentResult) (db : Db) :
    Except Fault (CaptureOutcome × Db) :=
  match db.header, db.findByProviderSessionId read.providerSessionId with
  | some _, some payment =>
      match result with
      | .notCapturable =>
          if payment.status = .authorized then
            match payment.toPayment.markFailed with
            | .error message => .error (.broken message)
            | .ok failed =>
                (db.updateStatus read.id failed.status none none).2.moveHeader .cancelled
                  .notCapturable
          else db.moveHeader .cancelled .notCapturable
      | .captured =>
          if payment.status = .succeeded then .ok (.idempotent, db)
          else
            -- Money captured on an order cancelled meanwhile is reported, and still recorded.
            match payment.toPayment.markCaptured with
            | .error message => .error (.broken message)
            | .ok captured =>
                (db.updateStatus read.id captured.status none none).2.moveHeader .captured .captured
  | _, _ => .error (.broken "payment or its header vanished under the lock")

def capturePayment : Handler CaptureOutcome := do
  let header ← query fun db _ => db.header
  match decideCapture (header.map (·.status)) with
  | .idempotent => pure .idempotent
  | .notCapturable => pure .notCapturable
  | .conflict => pure .conflict
  | .capture => do
      let payment ← query fun db _ => db.findByOrderId
      match payment with
      | none => .failed (.broken "order reads AUTHORIZED but has no authorized payment")
      | some payment =>
          match payment.status, payment.providerIntentId with
          | .authorized, some intentId => do
              let result ← call (Stripe.captureIntent intentId)
              transaction (Db.settle payment result)
          | _, _ => .failed (.broken "order reads AUTHORIZED but has no authorized payment")

/-! ## Webhooks -/

inductive WebhookOutcome where
  | duplicate
  | skipped
  | processed
  deriving DecidableEq, Repr

/-- Logs the event and applies it in one transaction; a duplicate delivery applies nothing. -/
def Db.logged (event : ValidEvent) (apply : Db → Except Fault (WebhookOutcome × Db)) (db : Db) :
    Except Fault (WebhookOutcome × Db) :=
  match db.insertEvent event.providerEventId with
  | (false, _) => .ok (.duplicate, db)
  | (true, inserted) => apply inserted

def Db.applyWebhook (prepared : PreparedAuthorization) (db : Db) :
    Except Fault (WebhookOutcome × Db) :=
  match db.apply prepared with
  | .error fault => .error fault
  | .ok (.recorded, after) | .ok (.recordedLate, after) => .ok (.processed, after)
  | .ok (_, after) => .ok (.skipped, after)

/-- An expired session retires its attempt, unless something settled it first. -/
def Db.applyExpired (paymentId : Nat) (db : Db) : Except Fault (WebhookOutcome × Db) :=
  match db.updateStatus paymentId .expired none (some .pending) with
  | (true, after) => .ok (.processed, after)
  | (false, _) => .ok (.skipped, db)

def completed (event : ValidEvent) (payment : PaymentRow) : Handler WebhookOutcome := do
  let authorization ← retrieveAuthorization payment.providerSessionId
  match heldCharge authorization with
  | none => do
      let _ ← mintOne
      transaction (Db.logged event fun db => .ok (.skipped, db))
  | some hold => do
      let authorizedAt ← now
      let prepared ← prepare payment hold authorizedAt
      let _ ← mintOne
      transaction (Db.logged event (Db.applyWebhook prepared))

def expired (event : ValidEvent) (payment : PaymentRow) : Handler WebhookOutcome := do
  let _ ← mintOne
  transaction (Db.logged event (Db.applyExpired payment.id))

/-- Anything that is not about a participant payment is only logged. -/
def logOnly (event : ValidEvent) : Handler WebhookOutcome := do
  let _ ← mintOne
  transaction (Db.logged event fun db => .ok (.skipped, db))

def processWebhookEvent (event : ValidEvent) : Handler WebhookOutcome :=
  match event.type, event.sessionId with
  | .other, _ | _, none => logOnly event
  | type, some sessionId => do
      let payment ← query fun db _ => db.findByProviderSessionId sessionId
      match payment with
      | none => logOnly event
      | some payment => do
          let header ← query fun db _ => db.header
          if header.isNone then logOnly event
          else if type = .completed then completed event payment
          else expired event payment

/-! ## Reconciliation -/

inductive ReconcileOutcome where
  | recorded
  | expired
  | voided
  | deferred
  | failed
  deriving DecidableEq, Repr

/-- Only `updated_at` moves, which nothing here reads. -/
def bumpUpdatedAt : Handler Unit := transaction fun db => .ok ((), db)

/-- A pending attempt, or a hold left under a header that will not capture it. -/
def Db.isStale (db : Db) (row : PaymentRow) : Bool :=
  row.status == .pending ||
    (row.status == .authorized &&
      (db.header.map (·.status) == some .cancelled || db.header.map (·.status) == some .fenced))

def Db.findStaleTcc (db : Db) (choice : Choice) : List PaymentRow :=
  db.payments.filter fun row => db.isStale row && choice.stale.contains row.id

def reconcile (payment : PaymentRow) : Handler ReconcileOutcome :=
  if payment.status = .authorized then do
    let _ ← cancelPayment
    pure .voided
  else do
    let authorization ← retrieveAuthorization payment.providerSessionId
    match heldCharge authorization with
    | some hold => do
        let authorizedAt ← now
        let outcome ← record payment hold authorizedAt
        if outcome = .recorded ∨ outcome = .recordedLate then pure .recorded
        else do
          bumpUpdatedAt
          pure .deferred
    | none =>
        if authorization.sessionStatus = some .expired then do
          transaction fun db => .ok ((), (db.updateStatus payment.id .expired none
            (some .pending)).2)
          pure .expired
        else if authorization.sessionStatus = some .complete
            ∧ authorization.intentStatus = some .canceled then do
          transaction fun db => .ok ((),
            (db.updateStatus payment.id .voided authorization.intentId (some .pending)).2)
          pure .voided
        else do
          bumpUpdatedAt
          pure .deferred

def reconcileAll : List PaymentRow → Handler (List ReconcileOutcome)
  | [] => pure []
  | payment :: rest => do
      let outcome ← (reconcile payment).orElse fun _ => do
        bumpUpdatedAt.orElse fun _ => pure ()
        pure .failed
      let outcomes ← reconcileAll rest
      pure (outcome :: outcomes)

def reconcileTccPayments : Handler (List ReconcileOutcome) := do
  let stale ← query Db.findStaleTcc
  reconcileAll stale

/-! ## The participant -/

inductive Reply where
  | session (result : OpenSessionResult)
  | captured (outcome : CaptureOutcome)
  | cancelled (outcome : CancelOutcome)
  | event (outcome : WebhookOutcome)
  | reconciled (outcomes : List ReconcileOutcome)
  deriving DecidableEq, Repr

def answer : OpenSessionResult → Handler Reply
  | .closed => pure (.session .closed)
  | .opened paymentId session =>
      .atomic fun shared _ =>
        (.ok (.session (.opened paymentId session)),
          { shared with stripe := shared.stripe.handOut session })

/-- The program of a request; the slot doubles as the uuid of its Stripe call. -/
def participant (minLeadMs : Int) (slot : Nat) : Request → Handler Reply
  | .openSession amountMinor currency expiresAt => do
      let result ← openPaymentSession minLeadMs slot amountMinor currency expiresAt
      answer result
  | .capture => do
      let outcome ← capturePayment
      pure (.captured outcome)
  | .cancel => do
      let outcome ← cancelPayment
      pure (.cancelled outcome)
  | .webhook event => do
      let outcome ← processWebhookEvent event
      pure (.event outcome)
  | .reconcile => do
      let outcomes ← reconcileTccPayments
      pure (.reconciled outcomes)

/-- An event is delivered only for what happened to its session. -/
def authentic (stripe : Stripe) (event : ValidEvent) : Bool :=
  match event.type, event.sessionId with
  | .completed, some ref => (stripe.sessions ref).map (·.status) == some .complete
  | .expired, some ref => (stripe.sessions ref).map (·.status) == some .expired
  | _, _ => true

def admits (shared : Shared) : Request → Bool
  | .webhook event => authentic shared.stripe event
  | _ => true

/-- The participant and Stripe: any number of requests at once, in any order. -/
def system (minLeadMs : Int) :
    Programs.System Shared Choice Fault Reply Nat Request StripeMove where
  program := participant minLeadMs
  admits := admits
  move shared change := (shared.stripe.move change).map fun stripe => { shared with stripe }

def start : Shared := ⟨.empty, ⟨fun _ => none, fun _ => none, 0, 0⟩⟩

end Commerce.Payments
