import Commerce.Orders.History
import Commerce.Payments.Outcomes
import Commerce.Saga.Pending

/-!
# The charge from the order to the capture

One order's row, its payment header, attempts and holds at Stripe, and its
workflow run.  `PayOrder` is the only caller that opens sessions; signals come
from anywhere, with any payload.
-/

set_option autoImplicit false

namespace Commerce.Checkout

open Commerce.Orders (Order OrderItem OrderRow OrderStatus)
open Commerce.Payments (toUpperCase)
open Commerce.Saga (CheckoutSagaInput CheckoutSagaMode PaymentAuthorization onAuthorized)

structure World where
  orders : Orders.Db
  payment : Payments.World
  /-- The workflow run of the order, open or closed; none before its first. -/
  run : Option Saga.Run

structure Settings where
  orderId : Nat
  payCutoffMs : Int
  minLeadMs : Int
  tryTimeoutMs : Int
  deriving DecidableEq, Repr

/-! ## Paying -/

def hiddenFromBuyer : List OrderStatus := [.reserving, .rejected]

def findForUser (db : Orders.Db) (orderId userId : Nat) : Except String (Option Order) :=
  match db.findOrder orderId with
  | none => .ok none
  | some row =>
      if row.userId ≠ userId ∨ hiddenFromBuyer.contains row.status then .ok none
      else (Orders.toDomainOrder row (db.itemRowsOf orderId)).map some

/-- What `PayOrder` asks the payment service for; a refusal is its message. -/
def payOrder (settings : Settings) (db : Orders.Db) (userId : Nat) (nowMs : Int) :
    Except String Payments.Request :=
  match findForUser db settings.orderId userId with
  | .error message => .error message
  | .ok none => .error ("Order not found: " ++ toString settings.orderId)
  | .ok (some order) =>
      if order.status ≠ .pending then
        .error ("Order is not payable in status " ++ order.status.label)
      else
        match order.paymentDeadlineAt with
        | none => .error "Payment window for this order has closed"
        | some deadline =>
            if deadline - nowMs < settings.payCutoffMs then
              .error "Payment window for this order has closed"
            else .ok (.openSession order.totalAmountMinor order.currency deadline)

/-! ## Starting a run -/

/-- `toCheckoutSagaStart`, on the saved row: every input of the run comes from it. -/
def toCheckoutSagaStart (settings : Settings) (row : OrderRow) (mode : CheckoutSagaMode)
    (tryStartedAt : Option Int) : Except String CheckoutSagaInput :=
  match row.placedAt, row.paymentDeadlineAt with
  | some placedAt, some _ =>
      .ok
        { mode := mode
          placedAt := placedAt
          tryStartedAt := tryStartedAt
          totalMinor := row.totalAmount
          currency := row.currency
          tryTimeoutMs := settings.tryTimeoutMs }
  | _, _ => .error ("Order " ++ toString row.id ++ " was not placed through the checkout saga")

/-! ## Events -/

inductive Event where
  /-- A checkout of any user's cart; the id is the one minted for its order. -/
  | checkout (userId : Nat) (currency : String) (items : List OrderItem)
      (now paymentDeadlineAt : Int) (key : String) (orderId : Nat) (itemIds : List Nat)
  /-- A repository call of the saga's activities, on any order. -/
  | write (call : Orders.Call)
  | pay (slot userId : Nat) (nowMs : Int)
  /-- Anything that happens to the payment service but a session request. -/
  | payment (happening : Payments.Happening)
  | startRun (mode : CheckoutSagaMode) (tryStartedAt : Option Int) (firstSeq : Nat) (nowMs : Int)
  /-- Anything the engine may deliver to the run, forged signals included. -/
  | saga (event : Saga.Event)

def payments (settings : Settings) (world : World) (happening : Payments.Happening) :
    Option World :=
  ((Payments.system settings.minLeadMs).step world.payment happening).map fun payment =>
    { world with payment }

def asksSession : Payments.Happening → Bool
  | .start _ (.openSession ..) => true
  | _ => false

def step (settings : Settings) (world : World) : Event → Option World
  | .checkout userId currency items now paymentDeadlineAt key orderId itemIds =>
      match Orders.Order.create userId currency items with
      | .error _ => none
      | .ok draft =>
          some { world with
            orders := Orders.perform world.orders
              (.createReserving draft now paymentDeadlineAt (some key) orderId itemIds) }
  | .write (.createReserving ..) => none
  | .write call => some { world with orders := Orders.perform world.orders call }
  | .pay slot userId nowMs =>
      match payOrder settings world.orders userId nowMs with
      | .error _ => none
      | .ok request => payments settings world (.start slot request)
  | .payment happening =>
      if asksSession happening then none else payments settings world happening
  | .startRun mode tryStartedAt firstSeq nowMs =>
      if world.run.any fun run => run.body ≠ .closed then none
      else
        match world.orders.findOrder settings.orderId with
        | none => none
        | some row =>
            match toCheckoutSagaStart settings row mode tryStartedAt with
            | .error _ => none
            | .ok input => some { world with run := some (Saga.checkoutSaga input firstSeq nowMs) }
  | .saga event =>
      match world.run with
      | none => none
      | some run => (Saga.deliver run event).map fun next => { world with run := some next }

def start : World := ⟨⟨[], [], [], []⟩, Programs.System.idle Payments.start, none⟩

def Reaches (settings : Settings) (events : List Event) (world : World) : Prop :=
  Runs.run (step settings) start events = some world

/-! ## The invariant -/

def IsTotal (settings : Settings) (db : Orders.Db) (amountMinor : Int) (currency : String) : Prop :=
  ∃ row, db.findOrder settings.orderId = some row ∧ row.totalAmount = amountMinor ∧
    row.currency = currency

/-- The charge a session is asked for, or the input a run compares with, is the order's total. -/
structure ChargeInv (settings : Settings) (world : World) : Prop where
  sound : Payments.Sound world.payment
  upper : ∀ row ∈ world.orders.orders, toUpperCase row.currency = row.currency
  asked : ∀ slot thread amountMinor currency expiresAt, world.payment.threads slot = some thread →
    thread.request = .openSession amountMinor currency expiresAt →
      IsTotal settings world.orders amountMinor currency
  header : ∀ header amountMinor, world.payment.shared.db.header = some header →
    header.amountMinor = some amountMinor → ∃ currency, header.currency = some currency ∧
      IsTotal settings world.orders amountMinor currency
  run : ∀ run, world.run = some run →
    IsTotal settings world.orders run.input.totalMinor run.input.currency

theorem IsTotal.perform (settings : Settings) (db : Orders.Db) (call : Orders.Call)
    (amountMinor : Int) (currency : String) (total : IsTotal settings db amountMinor currency) :
    IsTotal settings (Orders.perform db call) amountMinor currency := by
  obtain ⟨row, found, amount, code⟩ := total
  obtain ⟨added, keeps, -⟩ := Orders.perform_keeps db call
  obtain ⟨later, foundLater, sameAmount, sameCode⟩ := keeps.findOrder _ _ _ _ row found
  exact ⟨later, foundLater, sameAmount.trans amount, sameCode.trans code⟩

theorem upper_perform (db : Orders.Db) (call : Orders.Call)
    (upper : ∀ row ∈ db.orders, toUpperCase row.currency = row.currency)
    (draft : ∀ draft now deadline key orderId itemIds,
      call = .createReserving draft now deadline key orderId itemIds →
        toUpperCase draft.currency = draft.currency) :
    ∀ row ∈ (Orders.perform db call).orders, toUpperCase row.currency = row.currency := by
  obtain ⟨added, ⟨set, orders, kept⟩, fresh⟩ := Orders.perform_keeps db call
  intro row listed
  rw [orders] at listed
  rcases List.mem_append.mp listed with moved | new
  · obtain ⟨before, present, rfl⟩ := List.mem_map.mp moved
    rw [(kept before).2.2]
    exact upper before present
  · obtain ⟨source, now, deadline, key, orderId, itemIds, same, named⟩ := fresh row new
    rw [named]
    exact draft source now deadline key orderId itemIds same

theorem create_upper (userId : Nat) (currency : String) (items : List OrderItem) (draft : Order)
    (created : Order.create userId currency items = .ok draft) :
    toUpperCase draft.currency = draft.currency := by
  unfold Order.create at created
  split at created
  · cases created
  split at created
  · cases created
  obtain ⟨zero, valid, rest⟩ := (Results.bind_eq_ok _ _ _).mp created
  obtain ⟨total, -, rest⟩ := (Results.bind_eq_ok _ _ _).mp rest
  cases rest
  exact Payments.Money.of_upper 0 currency zero valid

theorem payOrder_total (settings : Settings) (db : Orders.Db) (userId : Nat) (nowMs : Int)
    (request : Payments.Request) (asked : payOrder settings db userId nowMs = .ok request) :
    ∃ amountMinor currency deadline, request = .openSession amountMinor currency deadline ∧
      IsTotal settings db amountMinor currency := by
  unfold payOrder at asked
  split at asked
  · cases asked
  · cases asked
  rename_i order found
  unfold findForUser at found
  split at found
  · cases found
  rename_i row known
  split at found
  · cases found
  unfold Orders.toDomainOrder at found
  cases made : (db.itemRowsOf settings.orderId).mapM Orders.toDomainItem with
  | error message =>
      rw [made] at found
      cases found
  | ok items =>
      rw [made] at found
      cases found
      split at asked
      · cases asked
      split at asked
      · cases asked
      split at asked
      · cases asked
      · cases asked
        exact ⟨_, _, _, rfl, row, known, rfl, rfl⟩

/-! ## One step -/

theorem chargeInv_orders (settings : Settings) (world : World) (call : Orders.Call)
    (inv : ChargeInv settings world)
    (draft : ∀ draft now deadline key orderId itemIds,
      call = .createReserving draft now deadline key orderId itemIds →
        toUpperCase draft.currency = draft.currency) :
    ChargeInv settings { world with orders := Orders.perform world.orders call } := by
  refine ⟨inv.sound, upper_perform world.orders call inv.upper draft, ?_, ?_, ?_⟩
  · intro slot thread amountMinor currency expiresAt present asked
    exact (inv.asked slot thread _ _ _ present asked).perform settings _ call
  · intro header amountMinor known charge
    obtain ⟨currency, named, total⟩ := inv.header header amountMinor known charge
    exact ⟨currency, named, total.perform settings _ call⟩
  · intro run present
    exact (inv.run run present).perform settings _ call

theorem header_step (settings : Settings) (world : World) (payment : Payments.World)
    (happening : Payments.Happening) (inv : ChargeInv settings world)
    (stepped : (Payments.system settings.minLeadMs).step world.payment happening = some payment) :
    ∀ header amountMinor, payment.shared.db.header = some header →
      header.amountMinor = some amountMinor → ∃ currency, header.currency = some currency ∧
        IsTotal settings world.orders amountMinor currency := by
  intro header amountMinor known charge
  have verified := Payments.verified settings.minLeadMs
  obtain ⟨-, evolved⟩ := verified.step_sound world.payment happening payment inv.sound stepped
  cases before : world.payment.shared.db.header with
  | some opened =>
      obtain ⟨found, same, amount, currency⟩ := evolved.charge opened before
      cases same.symm.trans known
      obtain ⟨code, named, total⟩ := inv.header opened amountMinor before (amount.symm.trans charge)
      exact ⟨code, currency.trans named, total⟩
  | none =>
      cases happening with
      | start slot request =>
          obtain ⟨-, -, rfl⟩ := Programs.System.step_start _ _ _ _ _ stepped
          cases before.symm.trans known
      | move change =>
          obtain ⟨shared, moved, rfl⟩ := Programs.System.step_move _ _ _ _ stepped
          obtain ⟨stripe, -, rfl⟩ := Option.map_eq_some_iff.mp moved
          cases before.symm.trans known
      | step slot choice =>
          obtain ⟨request, since, effect, after, busy, rfl⟩ :=
            Programs.System.step_step _ _ _ _ _ stepped
          obtain ⟨-, guaranteed, -⟩ := verified.acted since world.payment.shared slot request since
            effect after choice inv.sound.holds (inv.sound.ready slot _ busy)
          obtain ⟨currency, expiresAt, asked, named⟩ :=
            guaranteed.opens header amountMinor before known charge
          obtain ⟨row, found, amount, code⟩ := inv.asked slot _ _ _ _ busy asked
          have listed : row ∈ world.orders.orders := List.mem_of_find?_eq_some found
          refine ⟨_, named, row, found, amount, ?_⟩
          rw [← code]
          exact (inv.upper row listed).symm

theorem chargeInv_payments (settings : Settings) (world next : World)
    (happening : Payments.Happening) (inv : ChargeInv settings world)
    (asks : ∀ slot amountMinor currency expiresAt,
      happening = .start slot (.openSession amountMinor currency expiresAt) →
        IsTotal settings world.orders amountMinor currency)
    (stepped : payments settings world happening = some next) : ChargeInv settings next := by
  obtain ⟨payment, moved, rfl⟩ := Option.map_eq_some_iff.mp stepped
  obtain ⟨sound, -⟩ := (Payments.verified settings.minLeadMs).step_sound world.payment happening
    payment inv.sound moved
  refine ⟨sound, inv.upper, ?_, header_step settings world payment happening inv moved, inv.run⟩
  intro slot thread amountMinor currency expiresAt present asked
  cases happening with
  | start other request =>
      obtain ⟨-, -, rfl⟩ := Programs.System.step_start _ _ _ _ _ moved
      by_cases same : slot = other
      · subst same
        cases (Function.update_self slot _ world.payment.threads).symm.trans present
        exact asks slot amountMinor currency expiresAt (congrArg _ asked)
      · exact inv.asked slot thread _ _ _ ((Function.update_of_ne same ..).symm.trans present) asked
  | step other choice =>
      obtain ⟨request, since, effect, after, busy, rfl⟩ :=
        Programs.System.step_step _ _ _ _ _ moved
      by_cases same : slot = other
      · subst same
        cases (Function.update_self slot _ world.payment.threads).symm.trans present
        exact inv.asked slot _ _ _ _ busy asked
      · exact inv.asked slot thread _ _ _ ((Function.update_of_ne same ..).symm.trans present) asked
  | move change =>
      obtain ⟨shared, -, rfl⟩ := Programs.System.step_move _ _ _ _ moved
      exact inv.asked slot thread _ _ _ present asked

theorem chargeInv_step (settings : Settings) (world : World) (event : Event) (next : World)
    (inv : ChargeInv settings world) (stepped : step settings world event = some next) :
    ChargeInv settings next := by
  cases event with
  | checkout userId currency items now deadline key orderId itemIds =>
      simp only [step] at stepped
      split at stepped
      · cases stepped
      rename_i draft created
      cases stepped
      refine chargeInv_orders settings world _ inv fun source _ _ _ _ _ same => ?_
      cases same
      exact create_upper userId currency items draft created
  | write call =>
      cases call with
      | createReserving => cases stepped
      | applyTryResult | applyOrderChange =>
          cases stepped
          exact chargeInv_orders settings world _ inv fun _ _ _ _ _ _ same => nomatch same
  | pay slot userId nowMs =>
      simp only [step] at stepped
      split at stepped
      · cases stepped
      rename_i request asked
      refine chargeInv_payments settings world next _ inv ?_ stepped
      rintro other amountMinor currency expiresAt ⟨⟩
      obtain ⟨amount, code, deadline, same, total⟩ := payOrder_total settings _ _ _ _ asked
      cases same
      exact total
  | payment happening =>
      simp only [step] at stepped
      split at stepped
      · cases stepped
      rename_i other
      refine chargeInv_payments settings world next happening inv ?_ stepped
      rintro slot amountMinor currency expiresAt rfl
      exact absurd rfl other
  | startRun mode tryStartedAt firstSeq nowMs =>
      simp only [step] at stepped
      split at stepped
      · cases stepped
      split at stepped
      · cases stepped
      rename_i row found
      split at stepped
      · cases stepped
      rename_i input started
      cases stepped
      refine ⟨inv.sound, inv.upper, inv.asked, inv.header, ?_⟩
      rintro run ⟨⟩
      rw [Saga.checkoutSaga_input]
      unfold toCheckoutSagaStart at started
      split at started <;> cases started
      exact ⟨row, found, rfl, rfl⟩
  | saga event =>
      simp only [step] at stepped
      split at stepped
      · cases stepped
      rename_i run present
      obtain ⟨after, delivered, rfl⟩ := Option.map_eq_some_iff.mp stepped
      refine ⟨inv.sound, inv.upper, inv.asked, inv.header, ?_⟩
      rintro later ⟨⟩
      rw [Saga.deliver_input run after event delivered]
      exact inv.run run present

/-! ## Whole runs -/

theorem chargeInv_start (settings : Settings) : ChargeInv settings start := by
  refine ⟨Payments.sound_start, ?_, ?_, ?_, ?_⟩
  · intro row listed
    cases listed
  · intro slot thread amountMinor currency expiresAt present
    cases present
  · intro header amountMinor known
    cases known
  · intro run present
    cases present

theorem chargeInv_reaches (settings : Settings) (events : List Event) (world : World)
    (success : Reaches settings events world) : ChargeInv settings world :=
  Runs.run_preserves (step settings) (ChargeInv settings)
    (chargeInv_step settings) events start world
    (chargeInv_start settings) success

/-- The signal the outbox record of an authorization becomes. -/
def signalOf (record : Payments.AuthorizedRecord) : PaymentAuthorization :=
  ⟨record.paymentId, record.amountMinor, record.currency, record.authorizedAt⟩

structure ChargesTheTotal (settings : Settings) (world : World) : Prop where
  captured : ∀ intentId, world.payment.shared.stripe.IntentCaptured intentId →
    ∃ order attempt header, world.orders.findOrder settings.orderId = some order ∧
      attempt ∈ world.payment.shared.db.payments ∧
      world.payment.shared.stripe.IntentOf attempt.providerSessionId intentId ∧
      world.payment.shared.db.header = some header ∧
      world.payment.shared.stripe.IntentCharge intentId order.totalAmount order.currency ∧
      attempt.amountMinor = order.totalAmount ∧ attempt.currency = order.currency ∧
      header.amountMinor = some order.totalAmount ∧ header.currency = some order.currency
  announced : ∀ record ∈ world.payment.shared.db.outbox, ∀ run, world.run = some run →
    (onAuthorized run.saga (signalOf record) run.input.totalMinor run.input.currency).ignored ≠
      some .amountMismatch

theorem onAuthorized_matching (state : Saga.CheckoutSagaState)
    (authorization : PaymentAuthorization) :
    (onAuthorized state authorization authorization.amountMinor authorization.currency).ignored ≠
      some .amountMismatch := by
  unfold onAuthorized
  dsimp only
  split
  · split
    · simp [Saga.ignored]
    · split <;> simp [Saga.ignored]
  · split
    · simp [Saga.ignored]
    · rw [if_neg (by simp)]
      split <;> simp [Saga.ignored]

/-- The header of an order some attempt of which holds money carries that attempt's charge. -/
theorem header_of_held (world : World) (inv : Payments.Inv world.payment.shared)
    (row : Payments.PaymentRow) (listed : row ∈ world.payment.shared.db.payments)
    (held : row.status = .authorized ∨ row.status = .succeeded) :
    ∃ header, world.payment.shared.db.header = some header ∧
      header.amountMinor = some row.amountMinor ∧ header.currency = some row.currency := by
  cases known : world.payment.shared.db.header with
  | none => simp [(inv.header.absent known).1] at listed
  | some header => exact ⟨header, rfl, inv.header.held header row known listed held⟩

theorem chargesTheTotal_of (settings : Settings) (world : World) (inv : ChargeInv settings world) :
    ChargesTheTotal settings world := by
  have holds := inv.sound.holds
  constructor
  · intro intentId taken
    have ⟨intent, known, _⟩ := taken
    obtain ⟨ref, completed⟩ := holds.sane.intentOf _ intentId intent known
    obtain ⟨row, listed, rfl⟩ := Payments.listed_of_intent _ holds ref intentId completed
    have held := holds.captured row listed ⟨intentId, completed, taken⟩
    have charge : world.payment.shared.stripe.IntentCharge intentId row.amountMinor
        row.currency := by
      have backed := holds.backed row listed
      rcases held with authorized | succeeded
      · rw [Payments.Backed, authorized] at backed
        obtain ⟨own, -, completedOwn, charge⟩ := backed
        rwa [Payments.Stripe.intentOf_unique _ _ _ _ completed completedOwn]
      · rw [Payments.Backed, succeeded] at backed
        obtain ⟨-, own, completedOwn, charge⟩ := backed
        rwa [Payments.Stripe.intentOf_unique _ _ _ _ completed completedOwn]
    obtain ⟨header, present, amount, code⟩ := header_of_held world holds row listed held
    obtain ⟨currency, named, order, found, total, sameCode⟩ := inv.header header _ present amount
    cases named.symm.trans code
    refine ⟨order, row, header, found, listed, completed, present, ?_⟩
    rw [total, sameCode]
    exact ⟨charge, rfl, rfl, amount, code⟩
  · intro record written run present
    have agree := Payments.recordsAgree_of_inv _ holds
    have nonempty : world.payment.shared.db.outbox ≠ [] := List.ne_nil_of_mem written
    obtain ⟨header, known, -⟩ := agree.stamped.mpr nonempty
    obtain ⟨-, amount, code⟩ := agree.charged header record known written
    obtain ⟨currency, named, order, found, total, sameCode⟩ := inv.header header _ known amount
    cases named.symm.trans code
    obtain ⟨own, foundOwn, ownTotal, ownCode⟩ := inv.run run present
    cases found.symm.trans foundOwn
    have matching := onAuthorized_matching run.saga (signalOf record)
    have sameAmount : (signalOf record).amountMinor = run.input.totalMinor :=
      total.symm.trans ownTotal
    have sameCurrency : (signalOf record).currency = run.input.currency :=
      sameCode.symm.trans ownCode
    rwa [sameAmount, sameCurrency] at matching

theorem payments_orders (settings : Settings) (world next : World)
    (happening : Payments.Happening) (stepped : payments settings world happening = some next) :
    next.orders = world.orders := by
  obtain ⟨payment, -, rfl⟩ := Option.map_eq_some_iff.mp stepped
  rfl

theorem step_orders (settings : Settings) (world next : World) (event : Event)
    (stepped : step settings world event = some next) :
    next.orders = world.orders ∨ ∃ call, next.orders = Orders.perform world.orders call := by
  cases event with
  | checkout =>
      simp only [step] at stepped
      split at stepped <;> cases stepped
      exact .inr ⟨_, rfl⟩
  | write call =>
      cases call <;> cases stepped
      all_goals exact .inr ⟨_, rfl⟩
  | pay slot userId nowMs =>
      simp only [step] at stepped
      split at stepped
      · cases stepped
      · exact .inl (payments_orders settings world next _ stepped)
  | payment happening =>
      simp only [step] at stepped
      split at stepped
      · cases stepped
      · exact .inl (payments_orders settings world next happening stepped)
  | startRun =>
      simp only [step] at stepped
      split at stepped
      · cases stepped
      split at stepped
      · cases stepped
      split at stepped <;> cases stepped
      exact .inl rfl
  | saga =>
      simp only [step] at stepped
      split at stepped
      · cases stepped
      obtain ⟨after, -, rfl⟩ := Option.map_eq_some_iff.mp stepped
      exact .inl rfl

theorem order_charge_frozen (settings : Settings) (events : List Event) (world final : World)
    (amountMinor : Int) (currency : String)
    (total : IsTotal settings world.orders amountMinor currency)
    (success : Runs.run (step settings) world events = some final) :
    IsTotal settings final.orders amountMinor currency := by
  refine Runs.run_preserves (step settings)
    (fun now => IsTotal settings now.orders amountMinor currency) ?_ events world final total
    success
  intro now event next still stepped
  rcases step_orders settings now next event stepped with same | ⟨call, written⟩
  · rwa [same]
  · rw [written]
    exact still.perform settings _ call

/-- In every run, whatever is captured is the order's total, which never changes. -/
theorem captured_is_total (settings : Settings) (events more : List Event) (world final : World)
    (success : Reaches settings events world)
    (later : Runs.run (step settings) world more = some final) :
    ChargesTheTotal settings world ∧ ∀ order, world.orders.findOrder settings.orderId = some order →
      IsTotal settings final.orders order.totalAmount order.currency :=
  ⟨chargesTheTotal_of settings world (chargeInv_reaches settings events world success),
    fun order found => order_charge_frozen settings more world final _ _
      ⟨order, found, rfl, rfl⟩ later⟩

/-- Checked out, paid under a forged signal, announced and captured. -/
def teaBought : List Event :=
  [.checkout 3 "usd" [⟨7, "tea", 250, 2⟩] 0 100 "key" 1 [2], .startRun .checkout none 0 0,
      .write (.applyTryResult 1 .held "" 5 1), .pay 0 3 1] ++
    List.replicate 6 (.payment (.step 0 { id := 7 })) ++
    [.payment (.move (.checkout 0 ⟨.requiresCapture, 500, "usd"⟩)),
      .payment (.start 1 (.webhook ⟨1, .completed, some 0⟩))] ++
    List.replicate 9 (.payment (.step 1 { id := 9 })) ++
    [.saga (.paymentAuthorized ⟨9, 1, "EUR", 0⟩), .payment (.start 2 .capture)] ++
    List.replicate 4 (.payment (.step 2 {}))

theorem captured_is_total_tea : ∃ world, Reaches ⟨1, 5, 10, 1000⟩ teaBought world ∧
    (world.payment.shared.stripe.intents 0).map (·.status) = some .succeeded ∧
    ChargesTheTotal ⟨1, 5, 10, 1000⟩ world := by
  have view : (Runs.run (step ⟨1, 5, 10, 1000⟩) start teaBought).map
      (fun world => (world.payment.shared.stripe.intents 0).map (·.status)) =
      some (some .succeeded) := by decide +kernel
  obtain ⟨world, reached, taken⟩ := Option.map_eq_some_iff.mp view
  exact ⟨world, reached, taken, (captured_is_total _ teaBought [] world world reached rfl).1⟩

end Commerce.Checkout
