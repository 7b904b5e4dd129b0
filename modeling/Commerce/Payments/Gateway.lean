import Commerce.Payments.Domain
import Mathlib.Logic.Function.Basic

/-!
# Stripe as the payment service sees it

The gateway is code outside the repository.  It is modelled by what it
documents: a checkout session is open until it completes or expires, for good;
a session completes with one manual-capture intent; the intent's hold ends
captured or canceled, and only a capture request captures it.  A session whose
URL was never handed out is never paid.

The adapter's functions follow the answers the adapter derives from Stripe's,
read-back included.  Which of a resend's idempotency keys is in use is not
modelled: a replayed success is the answer of the state, and a replayed server
error is a fault.
-/

set_option autoImplicit false

namespace Commerce.Payments

inductive SessionStatus where
  | opened
  | complete
  | expired
  deriving DecidableEq, Repr, Inhabited

inductive IntentStatus where
  | requiresCapture
  | succeeded
  | canceled
  | processing
  | requiresPaymentMethod
  | other
  deriving DecidableEq, Repr, Inhabited

structure CheckoutSession where
  idempotencyKey : Nat
  status : SessionStatus
  /-- The URL left the payment service in an answer. -/
  returned : Bool
  intentId : Option Nat
  deriving DecidableEq, Repr

structure PaymentIntent where
  status : IntentStatus
  /-- What the shopper's card was authorized for. -/
  amount : Int
  currency : String
  deriving DecidableEq, Repr

/-- `amount_capturable`: what a capture would still take. -/
def PaymentIntent.amountCapturable (intent : PaymentIntent) : Int :=
  if intent.status = .requiresCapture then intent.amount else 0

structure Stripe where
  sessions : Nat → Option CheckoutSession
  intents : Nat → Option PaymentIntent
  nextSession : Nat
  nextIntent : Nat

inductive Fault where
  | gateway
  | database
  | identity
  | webhookRetryLater
  | broken (message : String)
  deriving DecidableEq, Repr

/-- `none` is the answer for a handle the gateway never issued. -/
structure SessionAuthorization where
  sessionStatus : Option SessionStatus
  intentId : Option Nat
  intentStatus : Option IntentStatus
  amountCapturableMinor : Option Int
  currency : Option String
  deriving DecidableEq, Repr

inductive ExpireSessionOutcome where
  | expired
  | alreadyClosed
  | alreadyCompleted
  deriving DecidableEq, Repr

inductive CaptureIntentResult where
  | captured
  | notCapturable
  deriving DecidableEq, Repr

inductive VoidIntentOutcome where
  | voided
  | alreadyCanceled
  | alreadyCaptured
  deriving DecidableEq, Repr

namespace Stripe

def putSession (stripe : Stripe) (ref : Nat) (session : CheckoutSession) : Stripe :=
  { stripe with sessions := Function.update stripe.sessions ref (some session) }

def putIntent (stripe : Stripe) (intentId : Nat) (intent : PaymentIntent) : Stripe :=
  { stripe with intents := Function.update stripe.intents intentId (some intent) }

/-! ## The adapter -/

def createSession (idempotencyKey : Nat) (stripe : Stripe) : Except Fault Nat × Stripe :=
  (.ok stripe.nextSession,
    { stripe.putSession stripe.nextSession ⟨idempotencyKey, .opened, false, none⟩ with
      nextSession := stripe.nextSession + 1 })

def expireSession (ref : Nat) (stripe : Stripe) : Except Fault ExpireSessionOutcome × Stripe :=
  match stripe.sessions ref with
  | none => (.ok .alreadyClosed, stripe)
  | some session =>
      match session.status with
      | .opened => (.ok .expired, stripe.putSession ref { session with status := .expired })
      | .complete => (.ok .alreadyCompleted, stripe)
      | .expired => (.ok .alreadyClosed, stripe)

def retrieveAuthorization (ref : Nat) (stripe : Stripe) : SessionAuthorization :=
  match stripe.sessions ref with
  | none => ⟨none, none, none, none, none⟩
  | some session =>
      let intent := session.intentId.bind stripe.intents
      ⟨some session.status, session.intentId, intent.map (·.status),
        intent.map PaymentIntent.amountCapturable, intent.map (·.currency)⟩

def captureIntent (intentId : Nat) (stripe : Stripe) : Except Fault CaptureIntentResult × Stripe :=
  match stripe.intents intentId with
  | none => (.error .gateway, stripe)
  | some intent =>
      match intent.status with
      | .requiresCapture =>
          (.ok .captured, stripe.putIntent intentId { intent with status := .succeeded })
      | .succeeded => (.ok .captured, stripe)
      | .canceled | .requiresPaymentMethod => (.ok .notCapturable, stripe)
      | .processing | .other => (.error .gateway, stripe)

def voidIntent (intentId : Nat) (stripe : Stripe) : Except Fault VoidIntentOutcome × Stripe :=
  match stripe.intents intentId with
  | none => (.error .gateway, stripe)
  | some intent =>
      match intent.status with
      | .requiresCapture | .requiresPaymentMethod =>
          (.ok .voided, stripe.putIntent intentId { intent with status := .canceled })
      | .canceled => (.ok .alreadyCanceled, stripe)
      | .succeeded => (.ok .alreadyCaptured, stripe)
      | .processing | .other => (.error .gateway, stripe)

/-- The session's URL leaves in an answer. -/
def handOut (ref : Nat) (stripe : Stripe) : Stripe :=
  match stripe.sessions ref with
  | none => stripe
  | some session => stripe.putSession ref { session with returned := true }

end Stripe

/-! ## What Stripe does on its own -/

inductive StripeMove where
  /-- The shopper checks out; the card holds whatever the intent says. -/
  | checkout (ref : Nat) (intent : PaymentIntent)
  /-- The session reaches its `expires_at`. -/
  | lapse (ref : Nat)
  /-- A hold is approved, lapses or is declined. -/
  | settle (intentId : Nat) (status : IntentStatus)
  deriving DecidableEq, Repr

/-- The ways an intent changes without a request of this service. -/
def IntentStatus.mayBecome : IntentStatus → IntentStatus → Bool
  | .processing, status | .other, status => status != .succeeded
  | .requiresCapture, status => status == .canceled || status == .requiresPaymentMethod
  | .requiresPaymentMethod, status => status == .canceled
  | .succeeded, _ | .canceled, _ => false

namespace Stripe

def move (stripe : Stripe) : StripeMove → Option Stripe
  | .checkout ref intent =>
      match stripe.sessions ref with
      | some ⟨key, .opened, true, _⟩ =>
          if intent.status = .succeeded then none
          else
            some { (stripe.putSession ref ⟨key, .complete, true, some stripe.nextIntent⟩).putIntent
              stripe.nextIntent intent with nextIntent := stripe.nextIntent + 1 }
      | _ => none
  | .lapse ref =>
      match stripe.sessions ref with
      | some ⟨key, .opened, returned, intentId⟩ =>
          some (stripe.putSession ref ⟨key, .expired, returned, intentId⟩)
      | _ => none
  | .settle intentId status =>
      match stripe.intents intentId with
      | some intent =>
          if intent.status.mayBecome status then
            some (stripe.putIntent intentId { intent with status := status })
          else none
      | none => none

end Stripe

/-! ## What no request and no move undoes -/

/-- `not_capturable` of the adapter: the hold is gone. -/
def IntentStatus.gone : IntentStatus → Bool
  | .canceled | .requiresPaymentMethod => true
  | .requiresCapture | .succeeded | .processing | .other => false

namespace Stripe

/-- Closed sessions and ended intents stay as they are, and no session changes its key. -/
structure Evolves (earlier later : Stripe) : Prop where
  session : ∀ ref session, earlier.sessions ref = some session →
    ∃ found, later.sessions ref = some found ∧ found.idempotencyKey = session.idempotencyKey ∧
      (session.status ≠ .opened → found.status = session.status ∧ found.intentId = session.intentId)
  intent : ∀ intentId intent, earlier.intents intentId = some intent →
    ∃ found, later.intents intentId = some found ∧
      (intent.status.gone = true → found.status.gone = true) ∧
      (intent.status = .succeeded → found.status = .succeeded) ∧
      found.amount = intent.amount ∧ found.currency = intent.currency

theorem Evolves.refl (stripe : Stripe) : Evolves stripe stripe :=
  ⟨fun _ session known => ⟨session, known, rfl, fun _ => ⟨rfl, rfl⟩⟩,
    fun _ intent known => ⟨intent, known, id, id, rfl, rfl⟩⟩

theorem Evolves.trans (past now later : Stripe) (first : Evolves past now)
    (second : Evolves now later) : Evolves past later := by
  constructor
  · intro ref session known
    obtain ⟨middle, knownNow, sameKey, closed⟩ := first.session ref session known
    obtain ⟨found, knownLater, sameKey', closed'⟩ := second.session ref middle knownNow
    refine ⟨found, knownLater, sameKey'.trans sameKey, fun ended => ?_⟩
    obtain ⟨status, intentId⟩ := closed ended
    obtain ⟨status', intentId'⟩ := closed' (status ▸ ended)
    exact ⟨status'.trans status, intentId'.trans intentId⟩
  · intro intentId intent known
    obtain ⟨middle, knownNow, gone, captured, amount, currency⟩ :=
      first.intent intentId intent known
    obtain ⟨found, knownLater, gone', captured', amount', currency'⟩ :=
      second.intent intentId middle knownNow
    exact ⟨found, knownLater, gone' ∘ gone, captured' ∘ captured, amount'.trans amount,
      currency'.trans currency⟩

/-- Handles are issued in order; exactly a completed session has an intent, and its URL was out. -/
structure Sane (stripe : Stripe) : Prop where
  sessions : ∀ ref, stripe.nextSession ≤ ref → stripe.sessions ref = none
  intents : ∀ intentId, stripe.nextIntent ≤ intentId → stripe.intents intentId = none
  complete : ∀ ref session, stripe.sessions ref = some session → session.status = .complete →
    session.returned = true ∧ ∃ intentId intent, session.intentId = some intentId ∧
      stripe.intents intentId = some intent
  without : ∀ ref session, stripe.sessions ref = some session → session.status ≠ .complete →
    session.intentId = none
  distinct : ∀ ref other session found intentId, stripe.sessions ref = some session →
    stripe.sessions other = some found → session.intentId = some intentId →
      found.intentId = some intentId → ref = other
  owned : ∀ intentId intent, stripe.intents intentId = some intent →
    ∃ ref session, stripe.sessions ref = some session ∧ session.intentId = some intentId

theorem evolves_putSession (stripe : Stripe) (ref : Nat) (session changed : CheckoutSession)
    (known : stripe.sessions ref = some session)
    (sameKey : changed.idempotencyKey = session.idempotencyKey)
    (closed : session.status ≠ .opened →
      changed.status = session.status ∧ changed.intentId = session.intentId) :
    Evolves stripe (stripe.putSession ref changed) := by
  refine ⟨fun other found knownOther => ?_, fun _ intent known => ⟨intent, known, id, id, rfl, rfl⟩⟩
  by_cases same : other = ref
  · subst same
    cases known.symm.trans knownOther
    exact ⟨changed, Function.update_self .., sameKey, closed⟩
  · exact ⟨found, (Function.update_of_ne same ..).trans knownOther, rfl, fun _ => ⟨rfl, rfl⟩⟩

theorem evolves_putIntent (stripe : Stripe) (intentId : Nat) (intent changed : PaymentIntent)
    (known : stripe.intents intentId = some intent)
    (gone : intent.status.gone = true → changed.status.gone = true)
    (captured : intent.status = .succeeded → changed.status = .succeeded)
    (amount : changed.amount = intent.amount) (currency : changed.currency = intent.currency) :
    Evolves stripe (stripe.putIntent intentId changed) := by
  refine ⟨fun _ session known => ⟨session, known, rfl, fun _ => ⟨rfl, rfl⟩⟩,
    fun other found knownOther => ?_⟩
  by_cases same : other = intentId
  · subst same
    cases known.symm.trans knownOther
    exact ⟨changed, Function.update_self .., gone, captured, amount, currency⟩
  · exact ⟨found, (Function.update_of_ne same ..).trans knownOther, id, id, rfl, rfl⟩

theorem sane_putIntent (stripe : Stripe) (intentId : Nat) (intent changed : PaymentIntent)
    (known : stripe.intents intentId = some intent) (sane : stripe.Sane) :
    (stripe.putIntent intentId changed).Sane := by
  refine ⟨sane.sessions, fun other fresh => ?_, fun ref session knownSession complete => ?_,
    sane.without, sane.distinct, fun other found present => ?_⟩
  · have other_ne : other ≠ intentId := by
      rintro rfl
      rw [sane.intents other fresh] at known
      cases known
    exact (Function.update_of_ne other_ne ..).trans (sane.intents other fresh)
  · obtain ⟨returned, own, held, linked, present⟩ := sane.complete ref session knownSession complete
    refine ⟨returned, own, ?_⟩
    by_cases same : own = intentId
    · subst same
      exact ⟨changed, linked, Function.update_self ..⟩
    · exact ⟨held, linked, (Function.update_of_ne same ..).trans present⟩
  · by_cases same : other = intentId
    · subst same
      exact sane.owned other intent known
    · exact sane.owned other found ((Function.update_of_ne same ..).symm.trans present)

theorem sane_putSession (stripe : Stripe) (ref : Nat) (session changed : CheckoutSession)
    (known : stripe.sessions ref = some session)
    (complete : changed.status = .complete →
      changed.returned = true ∧ ∃ intentId intent, changed.intentId = some intentId ∧
        stripe.intents intentId = some intent)
    (without : changed.status ≠ .complete → changed.intentId = none)
    (linked : changed.intentId = session.intentId) (sane : stripe.Sane) :
    (stripe.putSession ref changed).Sane := by
  have before : ∀ other found, (stripe.putSession ref changed).sessions other = some found →
      ∃ old, stripe.sessions other = some old ∧ old.intentId = found.intentId := by
    intro other found present
    by_cases same : other = ref
    · subst same
      cases (Function.update_self other _ stripe.sessions).symm.trans present
      exact ⟨session, known, linked.symm⟩
    · exact ⟨found, (Function.update_of_ne same ..).symm.trans present, rfl⟩
  refine ⟨fun other fresh => ?_, sane.intents, fun other found knownOther => ?_,
    fun other found knownOther => ?_, fun first second one two intentId knownOne knownTwo => ?_,
    fun intentId intent present => ?_⟩
  · have other_ne : other ≠ ref := by
      rintro rfl
      rw [sane.sessions other fresh] at known
      cases known
    exact (Function.update_of_ne other_ne ..).trans (sane.sessions other fresh)
  · by_cases same : other = ref
    · subst same
      cases (Function.update_self other _ stripe.sessions).symm.trans knownOther
      exact complete
    · exact sane.complete other found ((Function.update_of_ne same ..).symm.trans knownOther)
  · by_cases same : other = ref
    · subst same
      cases (Function.update_self other _ stripe.sessions).symm.trans knownOther
      exact without
    · exact sane.without other found ((Function.update_of_ne same ..).symm.trans knownOther)
  · obtain ⟨oldOne, presentOne, sameOne⟩ := before first one knownOne
    obtain ⟨oldTwo, presentTwo, sameTwo⟩ := before second two knownTwo
    rw [← sameOne, ← sameTwo]
    exact sane.distinct first second oldOne oldTwo intentId presentOne presentTwo
  · obtain ⟨owner, old, knownOwner, own⟩ := sane.owned intentId intent present
    by_cases same : owner = ref
    · subst same
      cases known.symm.trans knownOwner
      exact ⟨owner, changed, Function.update_self .., linked.trans own⟩
    · exact ⟨owner, old, (Function.update_of_ne same ..).trans knownOwner, own⟩

/-! ## Facts about a session that last -/

def Expired (stripe : Stripe) (ref : Nat) : Prop :=
  ∃ session, stripe.sessions ref = some session ∧ session.status = .expired

def IntentOf (stripe : Stripe) (ref intentId : Nat) : Prop :=
  ∃ session, stripe.sessions ref = some session ∧ session.status = .complete ∧
    session.intentId = some intentId

def IntentGone (stripe : Stripe) (intentId : Nat) : Prop :=
  ∃ intent, stripe.intents intentId = some intent ∧ intent.status.gone = true

def IntentCaptured (stripe : Stripe) (intentId : Nat) : Prop :=
  ∃ intent, stripe.intents intentId = some intent ∧ intent.status = .succeeded

/-- The intent was authorized for this amount, in this currency up to case. -/
def IntentCharge (stripe : Stripe) (intentId : Nat) (amount : Int) (currency : String) : Prop :=
  ∃ intent, stripe.intents intentId = some intent ∧ intent.amount = amount ∧
    toUpperCase intent.currency = currency

def HoldGone (stripe : Stripe) (ref : Nat) : Prop :=
  ∃ intentId, stripe.IntentOf ref intentId ∧ stripe.IntentGone intentId

def Captured (stripe : Stripe) (ref : Nat) : Prop :=
  ∃ intentId, stripe.IntentOf ref intentId ∧ stripe.IntentCaptured intentId

def HandedOut (stripe : Stripe) (ref : Nat) : Prop :=
  ∃ session, stripe.sessions ref = some session ∧ session.returned = true

/-- No money is held or taken through the session, and none ever will be. -/
def Released (stripe : Stripe) (ref : Nat) : Prop := stripe.Expired ref ∨ stripe.HoldGone ref

section Lasting

variable (earlier later : Stripe) (evolved : Evolves earlier later)

include evolved

theorem Evolves.expired (ref : Nat) (expired : earlier.Expired ref) : later.Expired ref := by
  obtain ⟨session, known, status⟩ := expired
  obtain ⟨found, knownLater, -, closed⟩ := evolved.session ref session known
  exact ⟨found, knownLater, (closed (by simp [status])).1.trans status⟩

theorem Evolves.intentOf (ref intentId : Nat) (completed : earlier.IntentOf ref intentId) :
    later.IntentOf ref intentId := by
  obtain ⟨session, known, status, linked⟩ := completed
  obtain ⟨found, knownLater, -, closed⟩ := evolved.session ref session known
  obtain ⟨sameStatus, sameIntent⟩ := closed (by simp [status])
  exact ⟨found, knownLater, sameStatus.trans status, sameIntent.trans linked⟩

theorem Evolves.intentGone (intentId : Nat) (gone : earlier.IntentGone intentId) :
    later.IntentGone intentId := by
  obtain ⟨intent, known, status⟩ := gone
  obtain ⟨found, knownLater, kept, -, -, -⟩ := evolved.intent intentId intent known
  exact ⟨found, knownLater, kept status⟩

theorem Evolves.intentCaptured (intentId : Nat) (captured : earlier.IntentCaptured intentId) :
    later.IntentCaptured intentId := by
  obtain ⟨intent, known, status⟩ := captured
  obtain ⟨found, knownLater, -, kept, -, -⟩ := evolved.intent intentId intent known
  exact ⟨found, knownLater, kept status⟩

theorem Evolves.intentCharge (intentId : Nat) (amount : Int) (currency : String)
    (charge : earlier.IntentCharge intentId amount currency) :
    later.IntentCharge intentId amount currency := by
  obtain ⟨intent, known, held, code⟩ := charge
  obtain ⟨found, knownLater, -, -, sameAmount, sameCurrency⟩ := evolved.intent intentId intent known
  exact ⟨found, knownLater, sameAmount.trans held, sameCurrency ▸ code⟩

theorem Evolves.holdGone (ref : Nat) (gone : earlier.HoldGone ref) : later.HoldGone ref := by
  obtain ⟨intentId, completed, ended⟩ := gone
  exact ⟨intentId, evolved.intentOf earlier later ref intentId completed,
    evolved.intentGone earlier later intentId ended⟩

theorem Evolves.captured (ref : Nat) (captured : earlier.Captured ref) : later.Captured ref := by
  obtain ⟨intentId, completed, taken⟩ := captured
  exact ⟨intentId, evolved.intentOf earlier later ref intentId completed,
    evolved.intentCaptured earlier later intentId taken⟩

theorem Evolves.released (ref : Nat) (released : earlier.Released ref) : later.Released ref :=
  released.imp (evolved.expired earlier later ref) (evolved.holdGone earlier later ref)

end Lasting

theorem Sane.intentOf (stripe : Stripe) (sane : stripe.Sane) (intentId : Nat)
    (intent : PaymentIntent) (known : stripe.intents intentId = some intent) :
    ∃ ref, stripe.IntentOf ref intentId := by
  obtain ⟨ref, session, present, linked⟩ := sane.owned intentId intent known
  refine ⟨ref, session, present, ?_, linked⟩
  by_contra incomplete
  rw [sane.without ref session present incomplete] at linked
  cases linked

theorem intentOf_unique (stripe : Stripe) (ref first second : Nat)
    (one : stripe.IntentOf ref first) (other : stripe.IntentOf ref second) : first = second := by
  obtain ⟨session, known, -, linked⟩ := one
  obtain ⟨found, knownToo, -, linkedToo⟩ := other
  cases known.symm.trans knownToo
  exact Option.some.inj (linked.symm.trans linkedToo)

/-- A released session was not captured. -/
theorem Released.not_captured (stripe : Stripe) (ref : Nat) (released : stripe.Released ref) :
    ¬ stripe.Captured ref := by
  rintro ⟨intentId, completed, intent, known, succeeded⟩
  rcases released with ⟨session, knownSession, expired⟩ |
    ⟨other, completedToo, found, knownToo, gone⟩
  · obtain ⟨found, knownToo, complete, -⟩ := completed
    cases knownSession.symm.trans knownToo
    simp [expired] at complete
  · cases intentOf_unique stripe ref intentId other completed completedToo
    cases known.symm.trans knownToo
    simp [succeeded, IntentStatus.gone] at gone

/-! ## What each request and each move leaves -/

/-- The change keeps Stripe sane and undoes nothing; it captures nothing and hands nothing out. -/
structure Quiet (before after : Stripe) : Prop where
  sane : after.Sane
  evolves : Evolves before after
  captures : ∀ ref, after.Captured ref → before.Captured ref
  hands : ∀ ref, after.HandedOut ref → before.HandedOut ref

theorem Quiet.refl (stripe : Stripe) (sane : stripe.Sane) : Quiet stripe stripe :=
  ⟨sane, Evolves.refl stripe, fun _ taken => taken, fun _ out => out⟩

theorem hands_putSession (stripe : Stripe) (ref : Nat) (session changed : CheckoutSession)
    (known : stripe.sessions ref = some session)
    (out : changed.returned = true → session.returned = true) (other : Nat)
    (after : (stripe.putSession ref changed).HandedOut other) : stripe.HandedOut other := by
  obtain ⟨found, present, returned⟩ := after
  by_cases same : other = ref
  · subst same
    cases (Function.update_self other _ stripe.sessions).symm.trans present
    exact ⟨session, known, out returned⟩
  · exact ⟨found, (Function.update_of_ne same ..).symm.trans present, returned⟩

theorem captures_putSession (stripe : Stripe) (ref : Nat) (changed : CheckoutSession)
    (incomplete : changed.status ≠ .complete) (other : Nat)
    (after : (stripe.putSession ref changed).Captured other) : stripe.Captured other := by
  obtain ⟨intentId, ⟨found, present, complete, linked⟩, taken⟩ := after
  by_cases same : other = ref
  · subst same
    cases (Function.update_self other _ stripe.sessions).symm.trans present
    exact absurd complete incomplete
  · exact ⟨intentId, ⟨found, (Function.update_of_ne same ..).symm.trans present, complete, linked⟩,
      taken⟩

theorem quiet_putIntent (stripe : Stripe) (intentId : Nat) (intent changed : PaymentIntent)
    (known : stripe.intents intentId = some intent)
    (gone : intent.status.gone = true → changed.status.gone = true)
    (uncaptured : intent.status ≠ .succeeded) (still : changed.status ≠ .succeeded)
    (amount : changed.amount = intent.amount) (currency : changed.currency = intent.currency)
    (sane : stripe.Sane) : Quiet stripe (stripe.putIntent intentId changed) := by
  refine ⟨sane_putIntent stripe intentId intent changed known sane,
    evolves_putIntent stripe intentId intent changed known gone
      (fun taken => absurd taken uncaptured) amount currency,
    ?_, fun _ out => out⟩
  rintro ref ⟨other, completed, found, knownAfter, taken⟩
  by_cases same : other = intentId
  · subst same
    cases (Function.update_self other _ stripe.intents).symm.trans knownAfter
    exact absurd taken still
  · exact ⟨other, completed, found, (Function.update_of_ne same ..).symm.trans knownAfter, taken⟩

theorem createSession_spec (key : Nat) (stripe : Stripe) (sane : stripe.Sane) :
    ∃ after, stripe.createSession key = (.ok stripe.nextSession, after) ∧ Quiet stripe after ∧
      after.sessions stripe.nextSession = some ⟨key, .opened, false, none⟩ := by
  refine ⟨_, rfl, ⟨⟨fun ref fresh => ?_, sane.intents, fun ref session known => ?_,
    fun ref session known => ?_, fun ref other session found intentId known knownToo => ?_,
    fun intentId intent present => ?_⟩, ⟨fun ref session known => ?_, fun _ intent known =>
      ⟨intent, known, id, id, rfl, rfl⟩⟩, captures_putSession stripe _ _ (by simp),
      fun ref out => ?_⟩, Function.update_self ..⟩
  · have later : stripe.nextSession + 1 ≤ ref := fresh
    have other : ref ≠ stripe.nextSession := by omega
    exact (Function.update_of_ne other ..).trans (sane.sessions ref (by omega))
  · intro complete
    by_cases same : ref = stripe.nextSession
    · subst same
      cases (Function.update_self stripe.nextSession _ stripe.sessions).symm.trans known
      cases complete
    · exact sane.complete ref session ((Function.update_of_ne same ..).symm.trans known) complete
  · intro incomplete
    by_cases same : ref = stripe.nextSession
    · subst same
      cases (Function.update_self stripe.nextSession _ stripe.sessions).symm.trans known
      rfl
    · exact sane.without ref session ((Function.update_of_ne same ..).symm.trans known) incomplete
  · intro linked linkedToo
    by_cases same : ref = stripe.nextSession
    · subst same
      cases (Function.update_self stripe.nextSession _ stripe.sessions).symm.trans known
      cases linked
    by_cases sameToo : other = stripe.nextSession
    · subst sameToo
      cases (Function.update_self stripe.nextSession _ stripe.sessions).symm.trans knownToo
      cases linkedToo
    exact sane.distinct ref other session found intentId
      ((Function.update_of_ne same ..).symm.trans known)
      ((Function.update_of_ne sameToo ..).symm.trans knownToo) linked linkedToo
  · obtain ⟨owner, session, known, own⟩ := sane.owned intentId intent present
    have other : owner ≠ stripe.nextSession := by
      rintro rfl
      rw [sane.sessions _ (Nat.le_refl _)] at known
      cases known
    exact ⟨owner, session, (Function.update_of_ne other ..).trans known, own⟩
  · have other : ref ≠ stripe.nextSession := by
      rintro rfl
      rw [sane.sessions _ (Nat.le_refl _)] at known
      cases known
    exact ⟨session, (Function.update_of_ne other ..).trans known, rfl, fun _ => ⟨rfl, rfl⟩⟩
  · obtain ⟨session, known, returned⟩ := out
    by_cases same : ref = stripe.nextSession
    · subst same
      cases (Function.update_self stripe.nextSession _ stripe.sessions).symm.trans known
      cases returned
    · exact ⟨session, (Function.update_of_ne same ..).symm.trans known, returned⟩

theorem expireSession_spec (ref : Nat) (stripe : Stripe) (sane : stripe.Sane) :
    ∃ outcome after, stripe.expireSession ref = (.ok outcome, after) ∧ Quiet stripe after ∧
      (outcome ≠ .alreadyCompleted → stripe.sessions ref ≠ none → after.Expired ref) := by
  unfold expireSession
  split
  · exact ⟨_, _, rfl, Quiet.refl stripe sane, fun _ absurdity => absurd ‹_› absurdity⟩
  rename_i session known
  split
  · rename_i opened
    have without := sane.without ref session known (by simp [opened])
    exact ⟨_, _, rfl, ⟨sane_putSession stripe ref session _ known (by simp)
      (fun _ => without) rfl sane,
      evolves_putSession stripe ref session _ known rfl (by simp [opened]),
      captures_putSession stripe ref _ (by simp),
      hands_putSession stripe ref session _ known id⟩,
      fun _ _ => ⟨_, Function.update_self .., rfl⟩⟩
  · exact ⟨_, _, rfl, Quiet.refl stripe sane, by simp⟩
  · rename_i expired
    exact ⟨_, _, rfl, Quiet.refl stripe sane, fun _ _ => ⟨session, known, expired⟩⟩

theorem captureIntent_spec (intentId : Nat) (stripe : Stripe) (sane : stripe.Sane) :
    (stripe.captureIntent intentId).2.Sane ∧ Evolves stripe (stripe.captureIntent intentId).2 ∧
      (stripe.captureIntent intentId).2.sessions = stripe.sessions ∧
      ((stripe.captureIntent intentId).1 = .ok .captured →
        (stripe.captureIntent intentId).2.IntentCaptured intentId) ∧
      ((stripe.captureIntent intentId).1 = .ok .notCapturable →
        (stripe.captureIntent intentId).2.IntentGone intentId) := by
  unfold captureIntent
  split
  · simp [sane, Evolves.refl]
  rename_i intent known
  split
  · rename_i held
    refine ⟨sane_putIntent stripe intentId intent _ known sane,
      evolves_putIntent stripe intentId intent _ known ?_ (fun _ => rfl) rfl rfl, rfl,
      fun _ => ⟨_, Function.update_self .., rfl⟩, by simp⟩
    simp [held, IntentStatus.gone]
  · rename_i taken
    exact ⟨sane, Evolves.refl stripe, rfl, fun _ => ⟨intent, known, taken⟩, by simp⟩
  · rename_i canceled
    exact ⟨sane, Evolves.refl stripe, rfl, by simp, fun _ =>
      ⟨intent, known, by simp [canceled, IntentStatus.gone]⟩⟩
  · rename_i declined
    exact ⟨sane, Evolves.refl stripe, rfl, by simp, fun _ =>
      ⟨intent, known, by simp [declined, IntentStatus.gone]⟩⟩
  · simp [sane, Evolves.refl]
  · simp [sane, Evolves.refl]

/-- A capture request captures only the hold of its own intent. -/
theorem captureIntent_captures (intentId : Nat) (stripe : Stripe) (ref : Nat)
    (captured : (stripe.captureIntent intentId).2.Captured ref) :
    stripe.Captured ref ∨ stripe.IntentOf ref intentId ∧ ¬ stripe.IntentGone intentId := by
  unfold captureIntent at captured
  split at captured
  · exact .inl captured
  rename_i intent known
  split at captured
  · rename_i held
    obtain ⟨other, completed, found, present, taken⟩ := captured
    by_cases same : other = intentId
    · subst same
      refine .inr ⟨completed, ?_⟩
      rintro ⟨gone, knownGone, ended⟩
      cases known.symm.trans knownGone
      simp [held, IntentStatus.gone] at ended
    · exact .inl ⟨other, completed, found, (Function.update_of_ne same ..).symm.trans present,
        taken⟩
  all_goals exact .inl captured

theorem voidIntent_spec (intentId : Nat) (stripe : Stripe) (sane : stripe.Sane) :
    Quiet stripe (stripe.voidIntent intentId).2 ∧
      ((stripe.voidIntent intentId).1 = .ok .voided ∨
        (stripe.voidIntent intentId).1 = .ok .alreadyCanceled →
          (stripe.voidIntent intentId).2.IntentGone intentId) ∧
      ((stripe.voidIntent intentId).1 = .ok .alreadyCaptured →
        (stripe.voidIntent intentId).2.IntentCaptured intentId) := by
  have unchanged := Quiet.refl stripe sane
  unfold voidIntent
  split
  · simp [unchanged]
  rename_i intent known
  split
  · rename_i held
    refine ⟨quiet_putIntent stripe intentId intent _ known ?_ ?_ ?_ rfl rfl sane,
      fun _ => ⟨_, Function.update_self .., rfl⟩, by simp⟩ <;> simp [held, IntentStatus.gone]
  · rename_i declined
    refine ⟨quiet_putIntent stripe intentId intent _ known ?_ ?_ ?_ rfl rfl sane,
      fun _ => ⟨_, Function.update_self .., rfl⟩, by simp⟩ <;> simp [declined, IntentStatus.gone]
  · rename_i canceled
    exact ⟨unchanged, fun _ => ⟨intent, known, by simp [canceled, IntentStatus.gone]⟩, by simp⟩
  · rename_i taken
    exact ⟨unchanged, by simp, fun _ => ⟨intent, known, taken⟩⟩
  · simp [unchanged]
  · simp [unchanged]

theorem handOut_spec (ref : Nat) (stripe : Stripe) (sane : stripe.Sane) :
    (stripe.handOut ref).Sane ∧ Evolves stripe (stripe.handOut ref) ∧
      (∀ other, (stripe.handOut ref).Captured other → stripe.Captured other) ∧
      ∀ other, (stripe.handOut ref).HandedOut other → stripe.HandedOut other ∨ other = ref := by
  unfold handOut
  split
  · exact ⟨sane, Evolves.refl stripe, fun _ => id, fun _ => .inl⟩
  rename_i session known
  refine ⟨sane_putSession stripe ref session _ known
      (fun complete => ⟨rfl, (sane.complete ref session known complete).2⟩)
      (sane.without ref session known) rfl sane,
    evolves_putSession stripe ref session _ known rfl fun _ => ⟨rfl, rfl⟩, ?_, ?_⟩
  · rintro other ⟨intentId, ⟨found, present, complete, linked⟩, taken⟩
    by_cases same : other = ref
    · subst same
      cases (Function.update_self other _ stripe.sessions).symm.trans present
      exact ⟨intentId, ⟨session, known, complete, linked⟩, taken⟩
    · exact ⟨intentId, ⟨found, (Function.update_of_ne same ..).symm.trans present, complete,
        linked⟩,
        taken⟩
  · rintro other ⟨found, present, returned⟩
    by_cases same : other = ref
    · exact .inr same
    · exact .inl ⟨found, (Function.update_of_ne same ..).symm.trans present, returned⟩

theorem move_checkout (stripe after : Stripe) (ref : Nat) (intent : PaymentIntent)
    (moved : stripe.move (.checkout ref intent) = some after) :
    ∃ key intentId, stripe.sessions ref = some ⟨key, .opened, true, intentId⟩ ∧
      intent.status ≠ .succeeded ∧
      after = { (stripe.putSession ref ⟨key, .complete, true, some stripe.nextIntent⟩).putIntent
        stripe.nextIntent intent with nextIntent := stripe.nextIntent + 1 } := by
  simp only [move] at moved
  split at moved
  · rename_i key intentId known
    split at moved
    · cases moved
    · exact ⟨key, intentId, known, ‹_›, (Option.some.inj moved).symm⟩
  · cases moved

theorem checkout_quiet (stripe : Stripe) (ref key : Nat) (intentId : Option Nat)
    (intent : PaymentIntent) (known : stripe.sessions ref = some ⟨key, .opened, true, intentId⟩)
    (uncaptured : intent.status ≠ .succeeded) (sane : stripe.Sane) :
    Quiet stripe
      { (stripe.putSession ref ⟨key, .complete, true, some stripe.nextIntent⟩).putIntent
        stripe.nextIntent intent with nextIntent := stripe.nextIntent + 1 } := by
  have fresh := sane.intents stripe.nextIntent (Nat.le_refl _)
  have otherIntent : ∀ other found, stripe.intents other = some found →
      other ≠ stripe.nextIntent := by
    rintro other found present rfl
    rw [fresh] at present
    cases present
  refine ⟨⟨fun other late => ?_, fun other late => ?_, fun other session present complete => ?_,
    fun other session present incomplete => ?_, fun one two session found own present presentToo
      linked linkedToo => ?_, fun own held present => ?_⟩, ⟨fun other session present => ?_,
    fun other found present => ?_⟩, ?_, hands_putSession stripe ref _ _ known fun _ => rfl⟩
  · have otherRef : other ≠ ref := by
      rintro rfl
      rw [sane.sessions other late] at known
      cases known
    exact (Function.update_of_ne otherRef ..).trans (sane.sessions other late)
  · have later : stripe.nextIntent + 1 ≤ other := late
    exact (Function.update_of_ne (by omega : other ≠ stripe.nextIntent) ..).trans
      (sane.intents other (by omega))
  · by_cases same : other = ref
    · subst same
      cases (Function.update_self other _ stripe.sessions).symm.trans present
      exact ⟨rfl, stripe.nextIntent, intent, rfl, Function.update_self ..⟩
    · obtain ⟨returned, own, held, linked, stored⟩ := sane.complete other session
        ((Function.update_of_ne same ..).symm.trans present) complete
      exact ⟨returned, own, held, linked,
        (Function.update_of_ne (otherIntent own held stored) ..).trans stored⟩
  · by_cases same : other = ref
    · subst same
      cases (Function.update_self other _ stripe.sessions).symm.trans present
      exact absurd rfl incomplete
    · exact sane.without other session ((Function.update_of_ne same ..).symm.trans present)
        incomplete
  · have old : ∀ other session, other ≠ ref → (stripe.putSession ref ⟨key, .complete, true,
        some stripe.nextIntent⟩).sessions other = some session → session.intentId = some own →
          stripe.sessions other = some session ∧ own ≠ stripe.nextIntent := by
      intro other session different here has
      have there := (Function.update_of_ne different ..).symm.trans here
      refine ⟨there, ?_⟩
      by_cases complete : session.status = .complete
      · obtain ⟨-, mine, held, linkedMine, stored⟩ := sane.complete other session there complete
        cases linkedMine.symm.trans has
        exact otherIntent own held stored
      · rw [sane.without other session there complete] at has
        cases has
    by_cases sameOne : one = ref <;> by_cases sameTwo : two = ref
    · exact sameOne.trans sameTwo.symm
    · subst sameOne
      cases (Function.update_self one _ stripe.sessions).symm.trans present
      cases linked
      exact absurd rfl (old two found sameTwo presentToo linkedToo).2
    · subst sameTwo
      cases (Function.update_self two _ stripe.sessions).symm.trans presentToo
      cases linkedToo
      exact absurd rfl (old one session sameOne present linked).2
    · exact sane.distinct one two session found own (old one session sameOne present linked).1
        (old two found sameTwo presentToo linkedToo).1 linked linkedToo
  · by_cases mine : own = stripe.nextIntent
    · subst mine
      exact ⟨ref, _, Function.update_self .., rfl⟩
    · obtain ⟨owner, session, knownOwner, has⟩ :=
        sane.owned own held ((Function.update_of_ne mine ..).symm.trans present)
      have otherRef : owner ≠ ref := by
        rintro rfl
        cases known.symm.trans knownOwner
        rw [sane.without owner _ known (by simp)] at has
        cases has
      exact ⟨owner, session, (Function.update_of_ne otherRef ..).trans knownOwner, has⟩
  · by_cases same : other = ref
    · subst same
      cases known.symm.trans present
      exact ⟨_, Function.update_self .., rfl, fun ended => absurd rfl ended⟩
    · exact ⟨session, (Function.update_of_ne same ..).trans present, rfl, fun _ => ⟨rfl, rfl⟩⟩
  · exact ⟨found, (Function.update_of_ne (otherIntent other found present) ..).trans present, id,
      id,
      rfl, rfl⟩
  · rintro other ⟨own, ⟨session, knownSession, complete, linked⟩, found, present, taken⟩
    by_cases same : own = stripe.nextIntent
    · subst same
      cases (Function.update_self stripe.nextIntent _ stripe.intents).symm.trans present
      exact absurd taken uncaptured
    have different : other ≠ ref := by
      rintro rfl
      cases (Function.update_self other _ stripe.sessions).symm.trans knownSession
      exact same (Option.some.inj linked).symm
    exact ⟨own, ⟨session, (Function.update_of_ne different ..).symm.trans knownSession, complete,
      linked⟩, found, (Function.update_of_ne same ..).symm.trans present, taken⟩

theorem move_spec (stripe after : Stripe) (change : StripeMove) (sane : stripe.Sane)
    (moved : stripe.move change = some after) : Quiet stripe after := by
  cases change with
  | checkout ref intent =>
      obtain ⟨key, intentId, known, uncaptured, rfl⟩ := move_checkout stripe after ref intent moved
      exact checkout_quiet stripe ref key intentId intent known uncaptured sane
  | lapse ref =>
      simp only [move] at moved
      split at moved
      · rename_i key returned intentId known
        cases moved
        have without := sane.without ref _ known (by simp)
        exact ⟨sane_putSession stripe ref _ _ known (by simp) (fun _ => without) rfl sane,
          evolves_putSession stripe ref _ _ known rfl (by simp),
          captures_putSession stripe ref _ (by simp),
          hands_putSession stripe ref _ _ known id⟩
      · cases moved
  | settle intentId status =>
      simp only [move] at moved
      split at moved
      · rename_i intent known
        split at moved
        · rename_i allowed
          cases moved
          refine quiet_putIntent stripe intentId intent _ known ?_ ?_ ?_ rfl rfl sane <;>
            revert allowed <;> cases intent.status <;> cases status <;>
            simp [IntentStatus.mayBecome, IntentStatus.gone]
        · cases moved
      · cases moved

end Stripe

end Commerce.Payments
