import Commerce.Lib.Decimals
import Commerce.Lib.Runs
import Commerce.Payments.Gateway

/-!
# The idempotency keys of capture and void

Any number of calls capture and void one hold.  Stripe answers every resend of
a key with the first response it stored, a server error included, so a key is
left for the next generation once its request is known not to have applied.
-/

set_option autoImplicit false

namespace Commerce.Payments.IntentKeys

open Runs

/-! ## Keys and errors -/

inductive IntentOp where
  | capture
  | void
  deriving DecidableEq, Repr

def IntentOp.label : IntentOp → String
  | .capture => "capture"
  | .void => "void"

/-- `{op}:{paymentId}:{gen}`. -/
def intentKey (op : IntentOp) (paymentId gen : Nat) : String :=
  op.label ++ ":" ++ toString paymentId ++ ":" ++ toString gen

theorem intentKey_inj (op other : IntentOp) (paymentId gen otherGen : Nat)
    (same : intentKey op paymentId gen = intentKey other paymentId otherGen) :
    op = other ∧ gen = otherGen := by
  have sameOp : op = other := by
    have firsts := congrArg (fun key => key.toList.head?) same
    cases op <;> cases other <;> first | rfl | simp [intentKey, IntentOp.label] at firsts
  subst sameOp
  exact ⟨rfl, Decimals.toString_inj gen otherGen (String.append_right_inj _ |>.mp same)⟩

structure StripeError where
  type : String
  message : String
  /-- A transport failure has none. -/
  statusCode : Option Nat
  code : Option String
  deriving DecidableEq, Repr

def describe (error : StripeError) : String := error.type ++ ": " ++ error.message

def isStripeServerError (error : StripeError) : Bool := 500 ≤ error.statusCode.getD 0

def isUnexpectedIntentState (error : StripeError) : Bool :=
  error.code == some "payment_intent_unexpected_state"

structure PaymentGatewayError where
  message : String
  retryWithFreshKey : Bool
  deriving DecidableEq, Repr

/-! ## The adapter -/

def statusLabel : IntentStatus → String
  | .requiresCapture => "requires_capture"
  | .succeeded => "succeeded"
  | .canceled => "canceled"
  | .processing => "processing"
  | .requiresPaymentMethod => "requires_payment_method"
  | .other => "other"

/-- What `captureIntent` or `voidIntent` resolves with. -/
inductive Settled where
  | captured
  | notCapturable (intentStatus : IntentStatus)
  | voided
  | alreadyCanceled
  | alreadyCaptured
  deriving DecidableEq, Repr

def IntentOp.done : IntentOp → Settled
  | .capture => .captured
  | .void => .voided

/-- What the status read back after an error says about the call, if it says anything. -/
def settledBy : IntentOp → IntentStatus → Option Settled
  | .capture, .succeeded => some .captured
  | .capture, .canceled => some (.notCapturable .canceled)
  | .capture, .requiresPaymentMethod => some (.notCapturable .requiresPaymentMethod)
  | .void, .canceled => some .alreadyCanceled
  | .void, .succeeded => some .alreadyCaptured
  | _, _ => none

/-- `readIntentAfter` reads back only after a server error or a refusal over the state. -/
def worthReading (error : StripeError) : Bool :=
  isStripeServerError error || isUnexpectedIntentState error

def failed (op : IntentOp) (error : StripeError) : PaymentGatewayError where
  message := s!"Stripe {op.label} failed ({describe error})"
  retryWithFreshKey := false

def unread (op : IntentOp) (error readError : StripeError) : PaymentGatewayError where
  message :=
    s!"Stripe {op.label} failed ({describe error}) and the intent could not be read back " ++
      s!"({describe readError})"
  retryWithFreshKey := false

def unresolved (op : IntentOp) (status : IntentStatus) (error : StripeError) :
    PaymentGatewayError where
  message := s!"Stripe {op.label} failed with the intent {statusLabel status} ({describe error})"
  retryWithFreshKey := status == .requiresCapture && isStripeServerError error

/-! ## Stripe -/

/-- The first response to a key, and whether its request took effect. -/
structure StoredResponse where
  reply : Except StripeError Unit
  applied : Bool

structure StripeIntent where
  status : IntentStatus
  stored : String → Option StoredResponse
  /-- How often the hold was captured. -/
  captures : Nat

def IntentOp.takes : IntentOp → IntentStatus → Bool
  | .capture, status => status == .requiresCapture
  | .void, status => status != .succeeded && status != .canceled

def IntentOp.target : IntentOp → IntentStatus
  | .capture => .succeeded
  | .void => .canceled

/-- A request answered with success has applied, and one refused has not; a server error says
nothing.  The state is given as the reason only where it is one. -/
def mayAnswer (op : IntentOp) (status : IntentStatus) (response : StoredResponse) : Bool :=
  match response.reply with
  | .ok _ => response.applied && op.takes status
  | .error error =>
      if response.applied then op.takes status && isStripeServerError error
      else !(isUnexpectedIntentState error && op.takes status)

def StripeIntent.execute (stripe : StripeIntent) (op : IntentOp) (key : String)
    (response : StoredResponse) : StripeIntent where
  status := if response.applied then op.target else stripe.status
  stored := Function.update stripe.stored key (some response)
  captures :=
    if response.applied && op == .capture then stripe.captures + 1 else stripe.captures

/-! ## The calls -/

inductive Phase where
  | waiting
  | reading (error : StripeError)
  /-- `incrementKeyGen` is on its way. -/
  | advancing (failure : PaymentGatewayError)
  | returned (settled : Settled)
  | threw (failure : PaymentGatewayError)
  | stopped
  deriving DecidableEq, Repr

/-- One `withIntentKey`, with the generation of the payment it read. -/
structure Call where
  op : IntentOp
  gen : Nat
  phase : Phase
  deriving DecidableEq, Repr

structure World where
  /-- `payments.stripe_key_gen`. -/
  keyGen : Nat
  stripe : StripeIntent
  calls : List Call

def start : World := ⟨0, ⟨.requiresCapture, fun _ => none, 0⟩, []⟩

inductive CallEvent where
  /-- The first request under its key reaches Stripe, by then in flight or given up. -/
  | execute (response : StoredResponse)
  | answer
  /-- A timeout, a 409 for a key in flight, a 429: nothing Stripe stored. -/
  | lose (error : StripeError)
  | read
  | readFails (error : StripeError)
  | advance
  /-- The process or its database call dies. -/
  | crash

inductive Event where
  | begin (op : IntentOp)
  /-- The intent moves on its own. -/
  | settle (status : IntentStatus)
  | call (slot : Nat) (event : CallEvent)

def World.put (world : World) (slot : Nat) (call : Call) (phase : Phase) : World :=
  { world with calls := world.calls.set slot { call with phase := phase } }

def Call.key (paymentId : Nat) (call : Call) : String := intentKey call.op paymentId call.gen

def afterError (op : IntentOp) (error : StripeError) : Phase :=
  if worthReading error then .reading error else .threw (failed op error)

def afterRead (op : IntentOp) (status : IntentStatus) (error : StripeError) : Phase :=
  match settledBy op status with
  | some settled => .returned settled
  | none =>
      let failure := unresolved op status error
      if failure.retryWithFreshKey then .advancing failure else .threw failure

/-- `UPDATE ... WHERE stripe_key_gen = expectedGen`. -/
def incrementKeyGen (keyGen expectedGen : Nat) : Nat :=
  if keyGen = expectedGen then expectedGen + 1 else keyGen

def callStep (paymentId slot : Nat) (world : World) (call : Call) : CallEvent → Option World
  | .execute response =>
      if (world.stripe.stored (call.key paymentId)).isSome ||
          !mayAnswer call.op world.stripe.status response then none
      else
        some { world with
          stripe := world.stripe.execute call.op (call.key paymentId) response }
  | .answer =>
      match call.phase, world.stripe.stored (call.key paymentId) with
      | .waiting, some ⟨.ok _, _⟩ => some (world.put slot call (.returned call.op.done))
      | .waiting, some ⟨.error error, _⟩ => some (world.put slot call (afterError call.op error))
      | _, _ => none
  | .lose error =>
      if call.phase = .waiting ∧ worthReading error = false then
        some (world.put slot call (.threw (failed call.op error)))
      else none
  | .read =>
      match call.phase with
      | .reading error => some (world.put slot call (afterRead call.op world.stripe.status error))
      | _ => none
  | .readFails readError =>
      match call.phase with
      | .reading error => some (world.put slot call (.threw (unread call.op error readError)))
      | _ => none
  | .advance =>
      match call.phase with
      | .advancing failure =>
          some { world.put slot call (.threw failure) with
            keyGen := incrementKeyGen world.keyGen call.gen }
      | _ => none
  | .crash =>
      match call.phase with
      | .waiting | .reading _ | .advancing _ => some (world.put slot call .stopped)
      | .returned _ | .threw _ | .stopped => none

def step (paymentId : Nat) (world : World) : Event → Option World
  | .begin op => some { world with calls := world.calls ++ [⟨op, world.keyGen, .waiting⟩] }
  | .settle status =>
      if world.stripe.status.mayBecome status then
        some { world with stripe := { world.stripe with status := status } }
      else none
  | .call slot event =>
      match world.calls[slot]? with
      | some call => callStep paymentId slot world call event
      | none => none

/-! ## What a step does -/

/-- Why a call may be in a phase it has just reached. -/
def Justified (paymentId : Nat) (stripe : StripeIntent) (call : Call) : Phase → Prop
  | .reading error => ∃ applied, stripe.stored (call.key paymentId) = some ⟨.error error, applied⟩
  | .advancing _ =>
      ∃ error, call.phase = .reading error ∧ stripe.status = .requiresCapture ∧
        isStripeServerError error = true
  | .waiting => False
  | .returned _ | .threw _ | .stopped => True

inductive Moved (paymentId : Nat) (world : World) : Event → World → Prop where
  | began (event : Event) (op : IntentOp) :
      Moved paymentId world event
        { world with calls := world.calls ++ [⟨op, world.keyGen, .waiting⟩] }
  | settled (event : Event) (status : IntentStatus)
      (allowed : world.stripe.status.mayBecome status = true) :
      Moved paymentId world event { world with stripe := { world.stripe with status := status } }
  | executed (event : Event) (slot : Nat) (call : Call) (response : StoredResponse)
      (found : world.calls[slot]? = some call)
      (fresh : world.stripe.stored (call.key paymentId) = none)
      (allowed : mayAnswer call.op world.stripe.status response = true) :
      Moved paymentId world event
        { world with stripe := world.stripe.execute call.op (call.key paymentId) response }
  | went (event : Event) (slot : Nat) (call : Call) (phase : Phase)
      (found : world.calls[slot]? = some call)
      (justified : Justified paymentId world.stripe call phase) :
      Moved paymentId world event (world.put slot call phase)
  | advanced (slot : Nat) (call : Call) (failure : PaymentGatewayError)
      (found : world.calls[slot]? = some call) (phase : call.phase = .advancing failure) :
      Moved paymentId world (.call slot .advance)
        { world.put slot call (.threw failure) with
          keyGen := incrementKeyGen world.keyGen call.gen }

theorem afterRead_justified (paymentId : Nat) (stripe : StripeIntent) (call : Call)
    (error : StripeError) (phase : call.phase = .reading error) :
    Justified paymentId stripe call (afterRead call.op stripe.status error) := by
  rw [afterRead]
  split
  · trivial
  · dsimp only
    split
    · next fresh =>
        simp only [unresolved, Bool.and_eq_true, beq_iff_eq] at fresh
        exact ⟨error, phase, fresh.1, fresh.2⟩
    · trivial

theorem afterError_justified (paymentId : Nat) (stripe : StripeIntent) (call : Call)
    (error : StripeError) (applied : Bool)
    (stored : stripe.stored (call.key paymentId) = some ⟨.error error, applied⟩) :
    Justified paymentId stripe call (afterError call.op error) := by
  rw [afterError]
  split
  · exact ⟨applied, stored⟩
  · trivial

theorem callStep_moved (paymentId slot : Nat) (world next : World) (call : Call)
    (event : CallEvent) (found : world.calls[slot]? = some call)
    (stepped : callStep paymentId slot world call event = some next) :
    Moved paymentId world (.call slot event) next := by
  cases event with
  | execute response =>
      rw [callStep] at stepped
      split at stepped
      · cases stepped
      · next allowed =>
          cases Option.some.inj stepped
          simp only [Bool.or_eq_true, not_or, Bool.not_eq_true, Bool.not_eq_false',
            Option.isSome_eq_false_iff, Option.isNone_iff_eq_none] at allowed
          exact .executed _ slot call response found allowed.1 allowed.2
  | answer =>
      rw [callStep] at stepped
      split at stepped
      · cases Option.some.inj stepped
        exact .went _ slot call _ found trivial
      · next error applied _ stored =>
          cases Option.some.inj stepped
          exact .went _ slot call _ found (afterError_justified paymentId _ call error applied
            stored)
      · cases stepped
  | lose error =>
      rw [callStep] at stepped
      split at stepped
      · cases Option.some.inj stepped
        exact .went _ slot call _ found trivial
      · cases stepped
  | read =>
      rw [callStep] at stepped
      split at stepped
      · next error phase =>
          cases Option.some.inj stepped
          exact .went _ slot call _ found (afterRead_justified paymentId _ call error phase)
      · cases stepped
  | readFails readError =>
      rw [callStep] at stepped
      split at stepped
      · cases Option.some.inj stepped
        exact .went _ slot call _ found trivial
      · cases stepped
  | advance =>
      rw [callStep] at stepped
      split at stepped
      · next failure phase =>
          cases Option.some.inj stepped
          exact .advanced slot call failure found phase
      · cases stepped
  | crash =>
      rw [callStep] at stepped
      split at stepped
      · cases Option.some.inj stepped
        exact .went _ slot call _ found trivial
      · cases Option.some.inj stepped
        exact .went _ slot call _ found trivial
      · cases Option.some.inj stepped
        exact .went _ slot call _ found trivial
      all_goals cases stepped

theorem step_moved (paymentId : Nat) (world next : World) (event : Event)
    (stepped : step paymentId world event = some next) : Moved paymentId world event next := by
  cases event with
  | begin op =>
      cases Option.some.inj stepped
      exact .began _ op
  | settle status =>
      rw [step] at stepped
      split at stepped
      · next allowed =>
          cases Option.some.inj stepped
          exact .settled _ status allowed
      · cases stepped
  | call slot event =>
      rw [step] at stepped
      split at stepped
      · next call found => exact callStep_moved paymentId slot world next call event found stepped
      · cases stepped

/-! ## The books -/

structure Books (paymentId : Nat) (world : World) : Prop where
  /-- No call has a generation yet to come, so nothing is stored under its keys. -/
  past : ∀ call ∈ world.calls, call.gen ≤ world.keyGen
  fresh : ∀ op gen, world.keyGen < gen → world.stripe.stored (intentKey op paymentId gen) = none
  /-- A request that applied has ended the hold. -/
  ended : ∀ key response, world.stripe.stored key = some response → response.applied = true →
    world.stripe.status = .succeeded ∨ world.stripe.status = .canceled
  once : world.stripe.captures ≤ 1
  captured : 0 < world.stripe.captures → world.stripe.status = .succeeded
  reading : ∀ call ∈ world.calls, ∀ error, call.phase = .reading error →
    ∃ applied, world.stripe.stored (call.key paymentId) = some ⟨.error error, applied⟩
  /-- A call that moves the generation on has a server error for a request that has not applied. -/
  advancing : ∀ call ∈ world.calls, ∀ failure, call.phase = .advancing failure →
    ∃ error, world.stripe.stored (call.key paymentId) = some ⟨.error error, false⟩ ∧
      isStripeServerError error = true

theorem start_books (paymentId : Nat) : Books paymentId start := by
  constructor <;> simp [start]

theorem mem_put {world : World} {slot : Nat} {call other : Call} {phase : Phase}
    (member : other ∈ (world.put slot call phase).calls) :
    other ∈ world.calls ∨ other = { call with phase := phase } :=
  List.mem_or_eq_of_mem_set member

theorem went_books (paymentId : Nat) (world : World) (slot : Nat) (call : Call) (phase : Phase)
    (books : Books paymentId world) (found : world.calls[slot]? = some call)
    (justified : Justified paymentId world.stripe call phase) :
    Books paymentId (world.put slot call phase) := by
  have listed : call ∈ world.calls := List.mem_of_getElem? found
  refine ⟨?_, books.fresh, books.ended, books.once, books.captured, ?_, ?_⟩
  · intro other member
    rcases mem_put member with known | rfl
    · exact books.past other known
    · exact books.past call listed
  · intro other member error isReading
    rcases mem_put member with known | rfl
    · exact books.reading other known error isReading
    · cases isReading
      exact justified
  · intro other member failure isAdvancing
    rcases mem_put member with known | rfl
    · exact books.advancing other known failure isAdvancing
    · cases isAdvancing
      obtain ⟨error, phase, status, isServer⟩ := justified
      obtain ⟨applied, stored⟩ := books.reading call listed error phase
      refine ⟨error, ?_, isServer⟩
      cases applied with
      | false => exact stored
      | true =>
          rcases books.ended _ _ stored rfl with ended | ended <;>
            · rw [status] at ended
              cases ended

theorem stored_execute (stripe : StripeIntent) (op : IntentOp) (key other : String)
    (response known : StoredResponse) (fresh : stripe.stored key = none)
    (stored : stripe.stored other = some known) :
    (stripe.execute op key response).stored other = some known := by
  have different : other ≠ key := by
    rintro rfl
    rw [fresh] at stored
    cases stored
  exact (Function.update_of_ne different ..).trans stored

theorem executed_books (paymentId : Nat) (world : World) (slot : Nat) (call : Call)
    (response : StoredResponse) (books : Books paymentId world)
    (found : world.calls[slot]? = some call)
    (fresh : world.stripe.stored (call.key paymentId) = none)
    (allowed : mayAnswer call.op world.stripe.status response = true) :
    Books paymentId
      { world with stripe := world.stripe.execute call.op (call.key paymentId) response } := by
  have listed : call ∈ world.calls := List.mem_of_getElem? found
  have takes : response.applied = true → call.op.takes world.stripe.status = true := by
    intro applied
    rw [mayAnswer] at allowed
    split at allowed
    · exact (Bool.and_eq_true_iff.mp allowed).2
    · rw [if_pos applied] at allowed
      exact (Bool.and_eq_true_iff.mp allowed).1
  have notEnded : response.applied = true →
      world.stripe.status ≠ .succeeded ∧ world.stripe.status ≠ .canceled := by
    intro applied
    have taken := takes applied
    cases op : call.op <;> rw [op] at taken <;> constructor <;> intro status <;>
      rw [status] at taken <;> cases taken
  have uncaptured : response.applied = true → world.stripe.captures = 0 := by
    intro applied
    by_contra positive
    exact (notEnded applied).1 (books.captured (Nat.pos_of_ne_zero positive))
  refine ⟨books.past, ?_, ?_, ?_, ?_, ?_, ?_⟩
  · intro op gen ahead
    have different : intentKey op paymentId gen ≠ call.key paymentId := by
      intro same
      obtain ⟨-, rfl⟩ := intentKey_inj _ _ _ _ _ same
      exact absurd (books.past call listed) (Nat.not_le.mpr ahead)
    exact (Function.update_of_ne different ..).trans (books.fresh op gen ahead)
  · intro key known stored applied
    dsimp only [StripeIntent.execute] at stored ⊢
    by_cases own : key = call.key paymentId
    · subst own
      rw [Function.update_self] at stored
      cases Option.some.inj stored
      rw [if_pos applied]
      cases call.op with
      | capture => exact .inl rfl
      | void => exact .inr rfl
    · rw [Function.update_of_ne own] at stored
      have before := books.ended key known stored applied
      cases now : response.applied with
      | false => exact before
      | true =>
          obtain ⟨notSucceeded, notCanceled⟩ := notEnded now
          exact (before.elim notSucceeded notCanceled).elim
  · dsimp only [StripeIntent.execute]
    split
    · next both =>
        have zero := uncaptured (Bool.and_eq_true_iff.mp both).1
        omega
    · exact books.once
  · intro positive
    dsimp only [StripeIntent.execute] at positive ⊢
    split at positive
    · next both =>
        obtain ⟨applied, isCapture⟩ := Bool.and_eq_true_iff.mp both
        rw [if_pos applied, eq_of_beq isCapture]
        rfl
    · next neither =>
        have before := books.captured positive
        cases now : response.applied with
        | false => exact before
        | true => exact absurd before (notEnded now).1
  · intro other member error isReading
    obtain ⟨applied, stored⟩ := books.reading other member error isReading
    exact ⟨applied, stored_execute _ _ _ _ _ _ fresh stored⟩
  · intro other member failure isAdvancing
    obtain ⟨error, stored, isServer⟩ := books.advancing other member failure isAdvancing
    exact ⟨error, stored_execute _ _ _ _ _ _ fresh stored, isServer⟩

theorem keyGen_le_increment (keyGen expectedGen : Nat) :
    keyGen ≤ incrementKeyGen keyGen expectedGen := by
  rw [incrementKeyGen]
  split <;> omega

theorem step_books (paymentId : Nat) (world : World) (event : Event) (next : World)
    (books : Books paymentId world) (stepped : step paymentId world event = some next) :
    Books paymentId next := by
  cases step_moved paymentId world next event stepped with
  | began event op =>
      refine ⟨?_, books.fresh, books.ended, books.once, books.captured, ?_, ?_⟩
      · intro call member
        rcases List.mem_append.mp member with known | fresh
        · exact books.past call known
        · obtain rfl := List.mem_singleton.mp fresh
          exact Nat.le_refl _
      · intro call member error isReading
        rcases List.mem_append.mp member with known | fresh
        · exact books.reading call known error isReading
        · rw [List.mem_singleton.mp fresh] at isReading
          cases isReading
      · intro call member failure isAdvancing
        rcases List.mem_append.mp member with known | fresh
        · exact books.advancing call known failure isAdvancing
        · rw [List.mem_singleton.mp fresh] at isAdvancing
          cases isAdvancing
  | settled event status allowed =>
      refine ⟨books.past, books.fresh, ?_, books.once, ?_, books.reading, books.advancing⟩
      · intro key response stored applied
        rcases books.ended key response stored applied with ended | ended <;>
          · rw [ended] at allowed
            cases allowed
      · intro positive
        rw [books.captured positive] at allowed
        cases allowed
  | executed event slot call response found fresh allowed =>
      exact executed_books paymentId world slot call response books found fresh allowed
  | went event slot call phase found justified =>
      exact went_books paymentId world slot call phase books found justified
  | advanced slot call failure found phase =>
      have moved := went_books paymentId world slot call (.threw failure) books found trivial
      have later := keyGen_le_increment world.keyGen call.gen
      exact ⟨fun other member => Nat.le_trans (moved.past other member) later,
        fun op gen ahead => books.fresh op gen (by dsimp only at ahead; omega), books.ended,
        books.once, books.captured, moved.reading, moved.advancing⟩

theorem run_books (paymentId : Nat) (events : List Event) (final : World)
    (ran : run (step paymentId) start events = some final) : Books paymentId final :=
  run_preserves (step paymentId) (Books paymentId)
    (fun world event next books stepped => step_books paymentId world event next books stepped)
    events start final (start_books paymentId) ran

/-! ## The generations of a run -/

theorem step_stored (paymentId : Nat) (world : World) (event : Event) (next : World)
    (stepped : step paymentId world event = some next) (key : String) (response : StoredResponse)
    (stored : world.stripe.stored key = some response) :
    next.stripe.stored key = some response := by
  cases step_moved paymentId world next event stepped with
  | began event op => exact stored
  | settled event status allowed => exact stored
  | executed event slot call answered found fresh allowed =>
      exact stored_execute _ _ _ _ _ _ fresh stored
  | went event slot call phase found justified => exact stored
  | advanced slot call failure found phase => exact stored

theorem run_stored (paymentId : Nat) (events : List Event) (world final : World)
    (ran : run (step paymentId) world events = some final) (key : String)
    (response : StoredResponse) (stored : world.stripe.stored key = some response) :
    final.stripe.stored key = some response :=
  run_preserves (step paymentId) (fun now => now.stripe.stored key = some response)
    (fun now event next before stepped => step_stored paymentId now event next stepped key response
      before)
    events world final stored ran

/-- A step that moves the generation on is the increment of a call that has it, after a server error
for a request that has not applied. -/
theorem step_advances (paymentId : Nat) (world : World) (event : Event) (next : World)
    (books : Books paymentId world) (stepped : step paymentId world event = some next)
    (moves : next.keyGen ≠ world.keyGen) :
    next.keyGen = world.keyGen + 1 ∧ ∃ slot call error,
      event = .call slot .advance ∧ world.calls[slot]? = some call ∧ call.gen = world.keyGen ∧
        isStripeServerError error = true ∧
        world.stripe.stored (call.key paymentId) = some ⟨.error error, false⟩ := by
  cases step_moved paymentId world next event stepped with
  | began event op => exact absurd rfl moves
  | settled event status allowed => exact absurd rfl moves
  | executed event slot call response found fresh allowed => exact absurd rfl moves
  | went event slot call phase found justified => exact absurd rfl moves
  | advanced slot call failure found phase =>
      dsimp only [incrementKeyGen] at moves ⊢
      by_cases current : world.keyGen = call.gen
      · obtain ⟨error, stored, isServer⟩ :=
          books.advancing call (List.mem_of_getElem? found) failure phase
        rw [if_pos current, current]
        exact ⟨rfl, slot, call, error, rfl, found, rfl, isServer, stored⟩
      · rw [if_neg current] at moves
        exact absurd rfl moves

theorem run_changes (paymentId : Nat) (events : List Event) (world final : World)
    (books : Books paymentId world) (ran : run (step paymentId) world events = some final) :
    world.keyGen ≤ final.keyGen ∧
      changes (step paymentId) World.keyGen world events =
        List.range' (world.keyGen + 1) (final.keyGen - world.keyGen) := by
  induction events generalizing world with
  | nil =>
      cases Option.some.inj ran
      rw [Nat.sub_self]
      exact ⟨Nat.le_refl _, rfl⟩
  | cons event rest ih =>
      obtain ⟨next, stepped, remaining⟩ := run_cons_eq_some
        (step paymentId) world final event rest ran
      obtain ⟨later, tail⟩ := ih next (step_books paymentId world event next books stepped)
        remaining
      rw [changes, stepped]
      dsimp only
      by_cases still : next.keyGen = world.keyGen
      · rw [if_pos still, tail, still]
        exact ⟨still ▸ later, rfl⟩
      · obtain ⟨one, -⟩ := step_advances paymentId world event next books stepped still
        rw [if_neg still, tail, one]
        rw [one] at later
        refine ⟨by omega, ?_⟩
        have more : final.keyGen - world.keyGen = final.keyGen - (world.keyGen + 1) + 1 := by omega
        rw [more, List.range'_succ]

/-! ## A retry -/

def retry (slot : Nat) (op : IntentOp) : List Event :=
  [.begin op, .call slot .answer, .call slot .read, .call slot .advance]

/-- While the hold can be captured, a retry under a key with a stored server error leaves the key
for one nothing is stored under. -/
theorem retry_leaves_key (paymentId : Nat) (world : World) (books : Books paymentId world)
    (op : IntentOp) (holds : world.stripe.status = .requiresCapture) (error : StripeError)
    (applied : Bool)
    (stored : world.stripe.stored (intentKey op paymentId world.keyGen) =
      some ⟨.error error, applied⟩)
    (isServer : isStripeServerError error = true) :
    ∃ next, run (step paymentId) world (retry world.calls.length op) = some next ∧
      next.keyGen = world.keyGen + 1 ∧ next.stripe = world.stripe ∧
      next.stripe.stored (intentKey op paymentId next.keyGen) = none := by
  have reads : afterError op error = .reading error := by
    rw [afterError, worthReading, isServer]
    rfl
  have fresh : afterRead op world.stripe.status error =
      .advancing (unresolved op .requiresCapture error) := by
    rw [afterRead, holds]
    cases op <;> simp [settledBy, unresolved, isServer]
  have key : ∀ phase, Call.key paymentId ⟨op, world.keyGen, phase⟩ =
      intentKey op paymentId world.keyGen := fun _ => rfl
  refine ⟨⟨world.keyGen + 1, world.stripe, world.calls ++
    [⟨op, world.keyGen, .threw (unresolved op .requiresCapture error)⟩]⟩, ?_, rfl, rfl,
    books.fresh op _ (Nat.lt_succ_self _)⟩
  simp [retry, run, step, callStep, World.put, key, stored, reads, fresh, incrementKeyGen]

/-- Captures and voids of one hold, in any number and order.  The generation moves on by one, each
time by the increment of a call under it whose request has been answered with a server error and
never applies; the hold is captured at most once; an increment leaves the call's key behind; and
while the hold can be captured a retry under a stored server error reaches a key without one. -/
theorem intent_keys_sound (paymentId : Nat) (events : List Event) (final : World)
    (ran : run (step paymentId) start events = some final) :
    (∀ before event after earlier later, events = before ++ event :: after →
      run (step paymentId) start before = some earlier →
      step paymentId earlier event = some later → later.keyGen ≠ earlier.keyGen →
      later.keyGen = earlier.keyGen + 1 ∧ ∃ slot call error,
        event = .call slot .advance ∧ earlier.calls[slot]? = some call ∧
        call.gen = earlier.keyGen ∧ isStripeServerError error = true ∧
        final.stripe.stored (call.key paymentId) = some ⟨.error error, false⟩) ∧
    changes (step paymentId) World.keyGen start events = List.range' 1 final.keyGen ∧
    final.stripe.captures ≤ 1 ∧
    (∀ slot call next, final.calls[slot]? = some call →
      step paymentId final (.call slot .advance) = some next → call.gen < next.keyGen) ∧
    ∀ op error applied, final.stripe.status = .requiresCapture →
      final.stripe.stored (intentKey op paymentId final.keyGen) = some ⟨.error error, applied⟩ →
      isStripeServerError error = true →
      ∃ next, run (step paymentId) final (retry final.calls.length op) = some next ∧
        next.keyGen = final.keyGen + 1 ∧ next.stripe = final.stripe ∧
        next.stripe.stored (intentKey op paymentId next.keyGen) = none := by
  have books := run_books paymentId events final ran
  refine ⟨?_, ?_, books.once, ?_, ?_⟩
  · intro before event after earlier later split reached stepped moves
    have booksThen := run_books paymentId before earlier reached
    obtain ⟨one, slot, call, error, isAdvance, found, gen, isServer, stored⟩ :=
      step_advances paymentId earlier event later booksThen stepped moves
    rw [split, run_append, reached, Option.bind_some] at ran
    exact ⟨one, slot, call, error, isAdvance, found, gen, isServer,
      run_stored paymentId (event :: after) earlier final ran _ _ stored⟩
  · exact (run_changes paymentId events start final (start_books paymentId) ran).2
  · intro slot call next found stepped
    have old := books.past call (List.mem_of_getElem? found)
    rw [step, found] at stepped
    dsimp only [callStep] at stepped
    split at stepped
    · cases Option.some.inj stepped
      dsimp only [incrementKeyGen]
      split <;> omega
    · cases stepped
  · intro op error applied holds stored isServer
    exact retry_leaves_key paymentId final books op holds error applied stored isServer

def stored500 : StripeError := ⟨"api_error", "An error occurred.", some 500, none⟩

/-- Two captures under one key, and a third once the first has moved the generation on. -/
def overlappingCaptures : List Event :=
  [ .begin .capture, .begin .capture, .call 0 (.execute ⟨.error stored500, false⟩), .call 0 .answer,
    .call 0 .read, .call 0 .advance, .begin .capture, .call 2 (.execute ⟨.ok (), true⟩),
    .call 1 .answer, .call 1 .read, .call 2 .answer ]

theorem intent_keys_sound_overlapping :
    ∃ final, run (step 7) start overlappingCaptures = some final ∧
      final.calls.map (·.phase) =
        [.threw (unresolved .capture .requiresCapture stored500), .returned .captured,
          .returned .captured] ∧
      changes (step 7) World.keyGen start overlappingCaptures = [1] ∧
      final.stripe.captures ≤ 1 := by
  have ran : ∃ final, run (step 7) start overlappingCaptures = some final ∧ final.keyGen = 1 ∧
      final.calls.map (·.phase) =
        [.threw (unresolved .capture .requiresCapture stored500), .returned .captured,
          .returned .captured] :=
    ⟨_, rfl, rfl, rfl⟩
  obtain ⟨final, ran, gen, phases⟩ := ran
  obtain ⟨-, changed, once, -⟩ := intent_keys_sound 7 overlappingCaptures final ran
  exact ⟨final, ran, phases, by rw [changed, gen]; rfl, once⟩

end Commerce.Payments.IntentKeys
