import Mathlib.Algebra.Ring.Int.Defs
import Commerce.Checkout.Charge
import Commerce.Placing.Requests

/-!
# Whether an order can be paid

The price column, the order line, the order's total and the body of a session
request each bound the same amount.  The bounds agree at the upper end; at the
lower one the catalog sells at a price of zero and the payment service takes no
charge of zero.
-/

set_option autoImplicit false

namespace Commerce.Checkout

open Commerce.Orders (Money Order OrderItem maxQuantityPerOrderLine maxSafeInteger)
open Commerce.Payments (toUpperCase)
open Commerce.Placing (OrderCartLine OrderSkuView snapshotCart snapshotLine viewBySku)
open Results (bind_eq_ok)

/-! ## The checks at both ends -/

/-- The ceiling of the int4 column of a price. -/
def maxAmountMinor : Int := 2147483647

/-- `SetPriceDto`; an absent currency becomes `VND` before it is stored. -/
def setPriceDtoAdmits (amountMinor : Int) (currency : String) : Bool :=
  decide (0 ≤ amountMinor) && decide (amountMinor ≤ maxAmountMinor) &&
    (currency.toList.length == 3 && currency.toList.all Char.isUpper)

/-- `OpenSessionDto`; the deadline travels as the ISO text of a `Date`, which it takes. -/
def openSessionDtoAccepts (amountMinor : Int) (currency : String) : Bool :=
  decide (1 ≤ amountMinor) && (currency.toList.length == 3 && currency.toList.all Char.isAlpha)

def isOk {α : Type} : Except String α → Bool
  | .ok _ => true
  | .error _ => false

/-- The request passes the controller's body check, and the attempt can be created. -/
def opens (session : Nat) : Payments.Request → Bool
  | .openSession amountMinor currency _ =>
      openSessionDtoAccepts amountMinor currency &&
        isOk (Payments.Payment.create session amountMinor (toUpperCase currency))
  | _ => false

def sessionRequest (order : Order) (deadline : Int) : Payments.Request :=
  .openSession order.totalAmountMinor order.currency deadline

def unitPrice (views : List OrderSkuView) (line : OrderCartLine) : Int :=
  ((viewBySku views line.skuId).bind OrderSkuView.unitPriceMinor).getD 0

/-- What is asked of an order that the checkout accepts. -/
structure Payable (views : List OrderSkuView) (lines : List OrderCartLine) (order : Order) :
    Prop where
  total : order.totalAmountMinor =
    (lines.map fun line => unitPrice views line * line.quantity).sum
  safe : -maxSafeInteger ≤ order.totalAmountMinor ∧ order.totalAmountMinor ≤ maxSafeInteger
  session : ∀ session deadline, opens session (sessionRequest order deadline) = true

/-! ## The total -/

theorem assertInteger_ok (value : Int) (label : String) (answer : Unit)
    (checked : Orders.assertInteger value label = .ok answer) :
    -maxSafeInteger ≤ value ∧ value ≤ maxSafeInteger := by
  unfold Orders.assertInteger at checked
  split at checked
  · assumption
  · cases checked

theorem money_of_ok (amountMinor : Int) (currency : String) (money : Money)
    (made : Money.of amountMinor currency = .ok money) :
    (-maxSafeInteger ≤ amountMinor ∧ amountMinor ≤ maxSafeInteger) ∧
      money.amountMinor = amountMinor ∧ Money.normalizeCurrency currency = .ok money.currency := by
  obtain ⟨answer, safe, rest⟩ := (bind_eq_ok _ _ _).mp made
  obtain ⟨code, normal, rest⟩ := (bind_eq_ok _ _ _).mp rest
  cases rest
  exact ⟨assertInteger_ok _ _ answer safe, rfl, normal⟩

theorem lineTotal_ok (item : OrderItem) (currency : String) (money : Money)
    (made : item.lineTotal currency = .ok money) :
    money.amountMinor = item.unitPriceMinor * item.quantity := by
  obtain ⟨_, priced, rest⟩ := (bind_eq_ok _ _ _).mp made
  obtain ⟨_, -, multiplied⟩ := (bind_eq_ok _ _ _).mp rest
  obtain ⟨-, price, -⟩ := money_of_ok _ _ _ priced
  obtain ⟨-, amount, -⟩ := money_of_ok _ _ _ multiplied
  rw [amount, price]

theorem add_ok (money other sum : Money) (added : money.add other = .ok sum) :
    sum.amountMinor = money.amountMinor + other.amountMinor ∧
      -maxSafeInteger ≤ sum.amountMinor ∧ sum.amountMinor ≤ maxSafeInteger := by
  unfold Money.add at added
  split at added
  · cases added
  · obtain ⟨safe, amount, -⟩ := money_of_ok _ _ _ added
    rw [amount]
    exact ⟨rfl, safe⟩

/-- The running total is exact, and each of its values is a safe integer. -/
theorem foldlM_total (currency : String) (items : List OrderItem) (sum total : Money)
    (safe : -maxSafeInteger ≤ sum.amountMinor ∧ sum.amountMinor ≤ maxSafeInteger)
    (folded : items.foldlM (fun sum item => do
      let lineTotal ← item.lineTotal currency
      sum.add lineTotal) sum = (.ok total : Except String Money)) :
    total.amountMinor = sum.amountMinor +
        (items.map fun item => item.unitPriceMinor * item.quantity).sum ∧
      -maxSafeInteger ≤ total.amountMinor ∧ total.amountMinor ≤ maxSafeInteger := by
  induction items generalizing sum with
  | nil =>
      cases folded
      simpa using safe
  | cons item rest ih =>
      rw [List.foldlM_cons] at folded
      obtain ⟨next, stepped, remaining⟩ := (bind_eq_ok _ _ _).mp folded
      obtain ⟨lineTotal, made, added⟩ := (bind_eq_ok _ _ _).mp stepped
      obtain ⟨amount, still⟩ := add_ok sum lineTotal next added
      obtain ⟨whole, bounded⟩ := ih next still remaining
      refine ⟨?_, bounded⟩
      rw [whole, amount, lineTotal_ok item currency lineTotal made, List.map_cons, List.sum_cons,
        Int.add_assoc]

theorem create_total (userId : Nat) (currency : String) (items : List OrderItem) (order : Order)
    (created : Order.create userId currency items = .ok order) :
    order.totalAmountMinor = (items.map fun item => item.unitPriceMinor * item.quantity).sum ∧
      (-maxSafeInteger ≤ order.totalAmountMinor ∧ order.totalAmountMinor ≤ maxSafeInteger) ∧
      Money.normalizeCurrency currency = .ok order.currency := by
  unfold Order.create at created
  split at created
  · cases created
  split at created
  · cases created
  obtain ⟨zero, made, rest⟩ := (bind_eq_ok _ _ _).mp created
  obtain ⟨total, folded, rest⟩ := (bind_eq_ok _ _ _).mp rest
  cases rest
  obtain ⟨safe, nothing, normal⟩ := money_of_ok 0 currency zero made
  have start : -maxSafeInteger ≤ zero.amountMinor ∧ zero.amountMinor ≤ maxSafeInteger := by
    rw [nothing]
    exact safe
  obtain ⟨whole, bounded⟩ := foldlM_total _ items zero total start folded
  rw [nothing, Int.zero_add] at whole
  exact ⟨whole, bounded, normal⟩

/-! ## The snapshot -/

theorem orderItem_of_ok (skuId : Nat) (productName : String) (unitPriceMinor quantity : Int)
    (item : OrderItem) (made : OrderItem.of skuId productName unitPriceMinor quantity = .ok item) :
    item = ⟨skuId, productName, unitPriceMinor, quantity⟩ ∧ 0 ≤ unitPriceMinor ∧ 0 < quantity := by
  obtain ⟨_, -, rest⟩ := (bind_eq_ok _ _ _).mp made
  obtain ⟨_, -, rest⟩ := (bind_eq_ok _ _ _).mp rest
  split at rest
  · cases rest
  rename_i notNegative
  obtain ⟨_, -, rest⟩ := (bind_eq_ok _ _ _).mp rest
  obtain ⟨_, positive, rest⟩ := (bind_eq_ok _ _ _).mp rest
  cases rest
  unfold Orders.assertPositive at positive
  split at positive
  · rename_i above
    exact ⟨rfl, by omega, above⟩
  · cases positive

structure Snapshot (views : List OrderSkuView) (currency : String) (line : OrderCartLine)
    (item : OrderItem) : Prop where
  price : item.unitPriceMinor = unitPrice views line
  quantity : item.quantity = line.quantity
  free : 0 ≤ item.unitPriceMinor
  counted : 0 < item.quantity
  view : ∃ view amount, viewBySku views line.skuId = some view ∧
    view.unitPriceMinor = some amount ∧ view.currency = currency

theorem snapshotLine_ok (views : List OrderSkuView) (currency : String) (line : OrderCartLine)
    (item : OrderItem) (snapped : snapshotLine views currency line = .ok item) :
    Snapshot views currency line item := by
  unfold snapshotLine at snapped
  split at snapped
  · cases snapped
  rename_i view found
  split at snapped
  · cases snapped
  split at snapped
  · cases snapped
  rename_i amount priced
  split at snapped
  · cases snapped
  split at snapped
  · cases snapped
  rename_i sameCurrency
  cases made : OrderItem.of line.skuId view.productName amount line.quantity with
  | error message =>
      rw [made] at snapped
      cases snapped
  | ok built =>
      rw [made] at snapped
      cases snapped
      obtain ⟨rfl, free, counted⟩ := orderItem_of_ok _ _ _ _ _ made
      have price : unitPrice views line = amount := by
        simp only [unitPrice, found, Option.bind_some, priced, Option.getD_some]
      exact ⟨price.symm, rfl, free, counted, view, amount, found, priced, not_not.mp sameCurrency⟩

theorem mapM_snapshot (views : List OrderSkuView) (currency : String)
    (lines : List OrderCartLine) (items : List OrderItem)
    (snapped : lines.mapM (snapshotLine views currency) = .ok items) :
    List.Forall₂ (Snapshot views currency) lines items := by
  induction lines generalizing items with
  | nil =>
      cases snapped
      exact .nil
  | cons line rest ih =>
      rw [List.mapM_cons] at snapped
      obtain ⟨item, first, remaining⟩ := (bind_eq_ok _ _ _).mp snapped
      obtain ⟨others, later, same⟩ := (bind_eq_ok _ _ _).mp remaining
      cases same
      exact .cons (snapshotLine_ok views currency line item first) (ih others later)

theorem snapshotCart_ok (lines : List OrderCartLine) (views : List OrderSkuView)
    (currency : String) (items : List OrderItem)
    (snapped : snapshotCart lines views = .ok (currency, items)) :
    lines ≠ [] ∧ List.Forall₂ (Snapshot views currency) lines items := by
  unfold snapshotCart at snapped
  split at snapped
  · cases snapped
  rename_i filled
  split at snapped
  · cases snapped
  split at snapped
  · cases snapped
  obtain ⟨found, mapped, same⟩ := (bind_eq_ok _ _ _).mp snapped
  cases same
  refine ⟨?_, mapM_snapshot views _ lines items mapped⟩
  rintro rfl
  exact filled rfl

theorem snapshot_sum (views : List OrderSkuView) (currency : String) (lines : List OrderCartLine)
    (items : List OrderItem) (snapped : List.Forall₂ (Snapshot views currency) lines items) :
    (items.map fun item => item.unitPriceMinor * item.quantity).sum =
      (lines.map fun line => unitPrice views line * line.quantity).sum := by
  induction snapped with
  | nil => rfl
  | cons first _ ih =>
      simp only [List.map_cons, List.sum_cons]
      rw [ih, first.price, first.quantity]

/-- The amounts are not negative, so they add up to zero only where each is. -/
theorem snapshot_positive (views : List OrderSkuView) (currency : String)
    (lines : List OrderCartLine) (items : List OrderItem)
    (snapped : List.Forall₂ (Snapshot views currency) lines items) :
    0 ≤ (lines.map fun line => unitPrice views line * line.quantity).sum ∧
      (1 ≤ (lines.map fun line => unitPrice views line * line.quantity).sum ↔
        ∃ line ∈ lines, unitPrice views line ≠ 0) := by
  induction snapped with
  | nil => simp
  | @cons line item lines items first _ ih =>
      obtain ⟨bounded, positive⟩ := ih
      have free : 0 ≤ unitPrice views line := first.price ▸ first.free
      have counted : 0 < line.quantity := first.quantity ▸ first.counted
      have amount : 0 ≤ unitPrice views line * line.quantity :=
        Int.mul_nonneg free (Int.le_of_lt counted)
      simp only [List.map_cons, List.sum_cons, List.exists_mem_cons_iff]
      refine ⟨by omega, ?_⟩
      rw [← positive]
      by_cases zero : unitPrice views line = 0
      · simp [zero]
      · have above : 0 < unitPrice views line * line.quantity :=
          Int.mul_pos (by omega) counted
        constructor
        · intro _
          exact .inl zero
        · intro _
          omega

/-! ## The currency -/

theorem upper_plain (c : Char) (upper : c.isUpper = true) :
    Orders.isSpace c = false ∧ c.toUpper = c ∧ c.isAlpha = true := by
  have range : 65 ≤ c.toNat ∧ c.toNat ≤ 90 := by
    have bounds : 'A'.val ≤ c.val ∧ c.val ≤ 'Z'.val := of_decide_eq_true upper
    exact bounds
  refine ⟨?_, ?_, ?_⟩
  · have beside : ∀ code ∈ [0x09, 0x0a, 0x0b, 0x0c, 0x0d, 0x20, 0xa0, 0x1680, 0x2028, 0x2029,
        0x202f, 0x205f, 0x3000, 0xfeff], code < 65 ∨ 90 < code := by
      decide
    refine Bool.eq_false_iff.mpr fun space => ?_
    rw [Orders.isSpace, Bool.or_eq_true, Bool.and_eq_true, decide_eq_true_eq,
      decide_eq_true_eq] at space
    rcases space with listed | ⟨above, -⟩
    · have outside := beside c.toNat (by simpa using listed)
      omega
    · omega
  · have notLower : ¬ ('a'.val ≤ c.val ∧ c.val ≤ 'z'.val) := by
      rintro ⟨above, -⟩
      have least : 97 ≤ c.toNat := above
      omega
    exact dif_neg notLower
  · exact (Bool.or_eq_true _ _).mpr (.inl upper)

theorem dropWhile_none (p : Char → Bool) (chars : List Char) (none : ∀ c ∈ chars, p c = false) :
    chars.dropWhile p = chars := by
  cases chars with
  | nil => rfl
  | cons c rest => rw [List.dropWhile_cons, none c List.mem_cons_self, if_neg Bool.false_ne_true]

theorem trim_upper (currency : String) (upper : ∀ c ∈ currency.toList, c.isUpper = true) :
    Orders.trim currency = currency.toList := by
  have plain : ∀ c ∈ currency.toList, Orders.isSpace c = false :=
    fun c member => (upper_plain c (upper c member)).1
  rw [Orders.trim, dropWhile_none _ _ plain, dropWhile_none, List.reverse_reverse]
  intro c member
  exact plain c (List.mem_reverse.mp member)

theorem normalizeCurrency_upper (currency : String)
    (upper : ∀ c ∈ currency.toList, c.isUpper = true) (three : currency.toList.length = 3) :
    Money.normalizeCurrency currency = .ok currency := by
  have same : currency.toList.map Char.toUpper = currency.toList := by
    conv_rhs => rw [← List.map_id currency.toList]
    exact List.map_congr_left fun c member => (upper_plain c (upper c member)).2.1
  have nonempty : Orders.assertNonEmpty currency "Money.currency" = .ok () := by
    rw [Orders.assertNonEmpty, trim_upper currency upper, three]
    rfl
  simp only [Money.normalizeCurrency, nonempty, trim_upper currency upper, same, three]
  simp [bind, Except.bind]

theorem toUpperCase_upper (currency : String)
    (upper : ∀ c ∈ currency.toList, c.isUpper = true) : toUpperCase currency = currency := by
  have same : currency.toList.map Char.toUpper = currency.toList := by
    conv_rhs => rw [← List.map_id currency.toList]
    exact List.map_congr_left fun c member => (upper_plain c (upper c member)).2.1
  rw [toUpperCase, same, String.ofList_toList]

/-- A charge of an admitted currency and a safe amount opens a session when it is not zero. -/
theorem opens_iff (session : Nat) (amountMinor : Int) (currency : String) (deadline : Int)
    (upper : ∀ c ∈ currency.toList, c.isUpper = true) (three : currency.toList.length = 3)
    (safe : -maxSafeInteger ≤ amountMinor ∧ amountMinor ≤ maxSafeInteger) :
    opens session (.openSession amountMinor currency deadline) = true ↔ 1 ≤ amountMinor := by
  have letters : currency.toList.all Char.isAlpha = true :=
    List.all_eq_true.mpr fun c member => (upper_plain c (upper c member)).2.2
  constructor
  · intro opened
    simp only [opens, openSessionDtoAccepts, Bool.and_eq_true, decide_eq_true_eq] at opened
    exact opened.1.1
  · intro charged
    have positive : Orders.assertPositive amountMinor "Payment.amountMinor" = .ok () :=
      if_pos (by omega)
    have integer : Orders.assertInteger amountMinor "Money.amountMinor" = .ok () := if_pos safe
    have money : Money.of amountMinor currency = .ok ⟨amountMinor, currency⟩ := by
      simp only [Money.of, integer, normalizeCurrency_upper currency upper three]
      rfl
    have created : Payments.Payment.create session amountMinor (toUpperCase currency) =
        .ok ⟨session, none, amountMinor, currency, .pending⟩ := by
      rw [toUpperCase_upper currency upper]
      simp only [Payments.Payment.create, positive, money]
      rfl
    simp [opens, openSessionDtoAccepts, charged, three, letters, created, isOk]

/-! ## Orders that can be paid -/

/-- An order the checkout accepts can be paid exactly when one of its lines has a price other than
zero; its total is exact and safe either way. -/
theorem payable_iff_priced (lines : List OrderCartLine) (views : List OrderSkuView)
    (userId : Nat) (currency : String) (items : List OrderItem) (order : Order)
    (admitted : ∀ view ∈ views, ∀ amount, view.unitPriceMinor = some amount →
      setPriceDtoAdmits amount view.currency = true)
    (snapped : snapshotCart lines views = .ok (currency, items))
    (created : Order.create userId currency items = .ok order) :
    Payable views lines order ↔ ∃ line ∈ lines, unitPrice views line ≠ 0 := by
  obtain ⟨filled, snapshot⟩ := snapshotCart_ok lines views currency items snapped
  obtain ⟨total, safe, normal⟩ := create_total userId currency items order created
  obtain ⟨-, positive⟩ := snapshot_positive views currency lines items snapshot
  rw [snapshot_sum views currency lines items snapshot] at total
  have code : (∀ c ∈ currency.toList, c.isUpper = true) ∧ currency.toList.length = 3 := by
    cases snapshot with
    | nil => exact absurd rfl filled
    | cons first _ =>
        obtain ⟨view, amount, found, priced, same⟩ := first.view
        have listed : view ∈ views := List.mem_reverse.mp (List.mem_of_find?_eq_some found)
        have checked := admitted view listed amount priced
        simp only [setPriceDtoAdmits, Bool.and_eq_true, beq_iff_eq, List.all_eq_true] at checked
        rw [same] at checked
        exact ⟨checked.2.2, checked.2.1⟩
  have sameCurrency : order.currency = currency := by
    rw [normalizeCurrency_upper currency code.1 code.2] at normal
    exact (Except.ok.inj normal).symm
  have opened : ∀ session deadline, opens session (sessionRequest order deadline) = true ↔
      1 ≤ order.totalAmountMinor := by
    intro session deadline
    rw [sessionRequest, sameCurrency]
    exact opens_iff session _ currency deadline code.1 code.2 safe
  rw [← positive, ← total]
  constructor
  · intro payable
    exact (opened 0 0).mp (payable.session 0 0)
  · intro charged
    exact ⟨total, safe, fun session deadline => (opened session deadline).mpr charged⟩

def giftView : OrderSkuView := ⟨1, "gift card holder", some 0, "VND", true⟩

def teaView : OrderSkuView := ⟨2, "tea", some 49000, "VND", true⟩

theorem payable_iff_priced_tea :
    Payable [giftView, teaView] [⟨1, 2⟩, ⟨2, 3⟩]
      ⟨none, 7, .draft, "VND", [⟨1, "gift card holder", 0, 2⟩, ⟨2, "tea", 49000, 3⟩], 147000, none,
        none, none, none, none⟩ := by
  refine (payable_iff_priced [⟨1, 2⟩, ⟨2, 3⟩] [giftView, teaView] 7 "VND"
    [⟨1, "gift card holder", 0, 2⟩, ⟨2, "tea", 49000, 3⟩] _ ?_ (by decide +kernel)
    (by decide +kernel)).mpr ⟨⟨2, 3⟩, by decide, by decide⟩
  decide +kernel

/-- A cart of one line at the price of zero: the order is accepted and nobody can pay it. -/
theorem free_order_unpayable :
    ∃ order, snapshotCart [⟨1, 2⟩] [giftView] = .ok ("VND", [⟨1, "gift card holder", 0, 2⟩]) ∧
      Order.create 7 "VND" [⟨1, "gift card holder", 0, 2⟩] = .ok order ∧
      setPriceDtoAdmits 0 "VND" = true ∧ order.totalAmountMinor = 0 ∧
      ¬ Payable [giftView] [⟨1, 2⟩] order := by
  refine ⟨⟨none, 7, .draft, "VND", [⟨1, "gift card holder", 0, 2⟩], 0, none, none, none, none,
    none⟩, by decide +kernel, by decide +kernel, by decide, rfl, fun payable => ?_⟩
  have refused := payable.session 0 0
  exact absurd refused (by decide)

end Commerce.Checkout
