import Commerce.Lib.Results
import Commerce.Orders.Entity

/-!
# The payment domain

The statuses of a payment attempt and of an order's payment header, the
transition table of an attempt, the fence table of the header, and what to do
with a hold Stripe reports.
-/

set_option autoImplicit false

namespace Commerce.Payments

open Commerce.Orders (Money assertPositive)

inductive PaymentStatus where
  | pending
  | succeeded
  | failed
  | expired
  | authorized
  | voided
  deriving DecidableEq, Repr, Inhabited

def PaymentStatus.label : PaymentStatus → String
  | .pending => "PENDING"
  | .succeeded => "SUCCEEDED"
  | .failed => "FAILED"
  | .expired => "EXPIRED"
  | .authorized => "AUTHORIZED"
  | .voided => "VOIDED"

/-- `opened` is the source's `OPEN`. -/
inductive PaymentOrderStatus where
  | opened
  | authorized
  | captured
  | cancelled
  | fenced
  deriving DecidableEq, Repr, Inhabited

/-! ## The state machine of an attempt -/

structure Transition where
  source : PaymentStatus
  target : PaymentStatus
  wired : Bool
  deriving DecidableEq, Repr

def transitions : List Transition :=
  [ ⟨.pending, .succeeded, true⟩,
    ⟨.pending, .failed, true⟩,
    ⟨.pending, .expired, true⟩,
    ⟨.pending, .authorized, true⟩,
    ⟨.pending, .voided, true⟩,
    ⟨.authorized, .succeeded, true⟩,
    ⟨.authorized, .voided, true⟩,
    ⟨.authorized, .failed, true⟩ ]

def canTransition (source target : PaymentStatus) : Bool :=
  transitions.any fun t => t.source == source && t.target == target && t.wired

def assertTransition (source target : PaymentStatus) : Except String Unit :=
  if canTransition source target then .ok ()
  else .error ("Illegal payment transition: " ++ source.label ++ " -> " ++ target.label)

/-! ## The payment entity -/

/-- An attempt of the order to get paid; the sessions and intents are Stripe's handles. -/
structure Payment where
  providerSessionId : Nat
  providerIntentId : Option Nat
  amountMinor : Int
  currency : String
  status : PaymentStatus
  deriving DecidableEq, Repr

namespace Payment

/-- The order and provider are constant here, so their own emptiness checks cannot fail. -/
def create (providerSessionId : Nat) (amountMinor : Int) (currency : String) :
    Except String Payment := do
  assertPositive amountMinor "Payment.amountMinor"
  let money ← Money.of amountMinor currency
  .ok ⟨providerSessionId, none, money.amountMinor, money.currency, .pending⟩

/-- An absent intent keeps the one recorded before. -/
def withStatus (payment : Payment) (status : PaymentStatus)
    (providerIntentId : Option Nat := none) : Payment :=
  { payment with
    status := status
    providerIntentId := providerIntentId.or payment.providerIntentId }

def markFailed (payment : Payment) : Except String Payment := do
  assertTransition payment.status .failed
  .ok (payment.withStatus .failed)

def markAuthorized (payment : Payment) (providerIntentId : Nat) : Except String Payment := do
  assertTransition payment.status .authorized
  .ok (payment.withStatus .authorized (some providerIntentId))

def markCaptured (payment : Payment) : Except String Payment :=
  if payment.status ≠ .authorized then
    .error ("Illegal payment transition: " ++ payment.status.label ++ " -> SUCCEEDED")
  else .ok (payment.withStatus .succeeded)

end Payment

/-! ## The header and its fence -/

structure PaymentOrderHeader where
  status : PaymentOrderStatus
  amountMinor : Option Int
  currency : Option String
  authorizedAt : Option Int
  deriving DecidableEq, Repr

inductive OpenSessionDecision where
  | opened
  | closed
  deriving DecidableEq, Repr

inductive CaptureDecision where
  | capture
  | idempotent
  | notCapturable
  | conflict
  deriving DecidableEq, Repr

inductive CancelDecision where
  | fence
  | cancel
  | rescan
  | capturedConflict
  deriving DecidableEq, Repr

/-- The `open_session` row of the fence table; `none` is its `NONE` column. -/
def decideOpenSession : Option PaymentOrderStatus → OpenSessionDecision
  | none | some .opened => .opened
  | some .authorized | some .captured | some .cancelled | some .fenced => .closed

def decideCapture : Option PaymentOrderStatus → CaptureDecision
  | none | some .opened => .conflict
  | some .authorized => .capture
  | some .captured => .idempotent
  | some .cancelled | some .fenced => .notCapturable

def decideCancel : Option PaymentOrderStatus → CancelDecision
  | none => .fence
  | some .opened | some .authorized => .cancel
  | some .captured => .capturedConflict
  | some .cancelled | some .fenced => .rescan

/-! ## A hold Stripe reports -/

inductive AuthorizationDecision where
  | record
  | recordLate
  | alreadyRecorded
  | stray
  | amountMismatch
  deriving DecidableEq, Repr

structure HeldCharge where
  intentId : Nat
  amountMinor : Option Int
  currency : Option String
  deriving DecidableEq, Repr

/-- Upper case of the letters from A to Z, which is all that currencies are admitted with. -/
def toUpperCase (text : String) : String := String.ofList (text.toList.map Char.toUpper)

def chargeMatches (amountMinor : Option Int) (currency : Option String) (charge : HeldCharge) :
    Bool :=
  match amountMinor, currency with
  | some amount, some code =>
      charge.amountMinor == some amount &&
        charge.currency.map toUpperCase == some (toUpperCase code)
  | _, _ => false

def PaymentStatus.recorded (status : PaymentStatus) : Bool :=
  [.authorized, .succeeded, .voided].contains status

/-- `RETIRED` of the source, and the complement of the active-payment index's predicate. -/
def PaymentStatus.retired (status : PaymentStatus) : Bool := [.expired, .failed].contains status

def PaymentOrderStatus.holds (status : PaymentOrderStatus) : Bool :=
  [.authorized, .captured].contains status

def decideAuthorization (payment : Payment) (header : PaymentOrderHeader) (charge : HeldCharge) :
    AuthorizationDecision :=
  if payment.status.recorded then .alreadyRecorded
  else if payment.status.retired || header.authorizedAt.isSome || header.status.holds then .stray
  else if !chargeMatches header.amountMinor header.currency charge
      || !chargeMatches (some payment.amountMinor) (some payment.currency) charge then
    .amountMismatch
  else if header.status = .cancelled then .recordLate else .record

theorem toUpperCase_idempotent (text : String) :
    toUpperCase (toUpperCase text) = toUpperCase text := by
  rw [toUpperCase, toUpperCase, String.toList_ofList, Orders.upper_again]

theorem Money.of_upper (amountMinor : Int) (currency : String) (money : Money)
    (valid : Money.of amountMinor currency = .ok money) :
    toUpperCase money.currency = money.currency := by
  obtain ⟨-, -, valid⟩ := (Results.bind_eq_ok _ _ _).mp valid
  obtain ⟨code, normal, valid⟩ := (Results.bind_eq_ok _ _ _).mp valid
  cases valid
  obtain ⟨-, -, normal⟩ := (Results.bind_eq_ok _ _ _).mp normal
  dsimp only at normal
  split at normal
  · cases normal
  · cases normal
    rw [toUpperCase, String.toList_ofList, Orders.upper_again]

theorem chargeMatches_iff (amountMinor : Option Int) (currency : Option String)
    (charge : HeldCharge) :
    chargeMatches amountMinor currency charge = true ↔ ∃ amount code,
      amountMinor = some amount ∧ currency = some code ∧ charge.amountMinor = some amount ∧
        charge.currency.map toUpperCase = some (toUpperCase code) := by
  cases amountMinor <;> cases currency <;> simp [chargeMatches]

/-- A hold is only recorded on a pending attempt, under a header that recorded none, for the
charge both were opened with. -/
theorem decideAuthorization_record (payment : Payment) (header : PaymentOrderHeader)
    (charge : HeldCharge) (decision : AuthorizationDecision)
    (decided : decideAuthorization payment header charge = decision)
    (records : decision = .record ∨ decision = .recordLate) :
    payment.status = .pending ∧ header.authorizedAt = none ∧ header.status.holds = false ∧
      header.amountMinor = some payment.amountMinor ∧
      header.currency.map toUpperCase = some (toUpperCase payment.currency) ∧
      (decision = .recordLate ↔ header.status = .cancelled) ∧
      charge.amountMinor = some payment.amountMinor ∧
      charge.currency.map toUpperCase = some (toUpperCase payment.currency) := by
  unfold decideAuthorization at decided
  split at decided
  · rcases records with rfl | rfl <;> cases decided
  split at decided
  · rcases records with rfl | rfl <;> cases decided
  split at decided
  · rcases records with rfl | rfl <;> cases decided
  rename_i fresh current matched
  have pending : payment.status = .pending := by
    cases same : payment.status <;>
      simp_all [PaymentStatus.recorded, PaymentStatus.retired]
  simp only [Bool.or_eq_true, not_or, Bool.not_eq_true, Bool.not_eq_false'] at current matched
  obtain ⟨⟨-, unstamped⟩, free⟩ := current
  obtain ⟨amount, code, asked, askedCode, held, heldCode⟩ :=
    (chargeMatches_iff _ _ _).mp (by simpa using matched.1)
  obtain ⟨own, ownCode, ownAmount, ownCurrency, ownHeld, ownHeldCode⟩ :=
    (chargeMatches_iff _ _ _).mp (by simpa using matched.2)
  cases ownAmount
  cases ownCurrency
  refine ⟨pending, by simpa using unstamped, free, ?_, ?_, ?_, ownHeld, ownHeldCode⟩
  · rw [asked, ← held, ownHeld]
  · rw [askedCode, Option.map_some, ← heldCode, ownHeldCode]
  · split at decided <;> subst decided <;> simp_all

end Commerce.Payments
