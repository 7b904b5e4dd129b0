import Commerce.Payments.Transactions

/-!
# The participant keeps its invariant

Each program of the participant, action by action, under any interference the
other programs and Stripe may cause.
-/

set_option autoImplicit false

namespace Commerce.Payments

open Programs (Program Safe)
open Stripe (Quiet)

/-- The program may go on from any state `past` evolved into. -/
abbrev Goes {α : Type} (slot : Nat) (request : Request) (past : Shared) (program : Handler α)
    (returns : α → Shared → Prop) : Prop :=
  Safe Inv (Rely slot) (Guarantee slot request) past program returns fun _ _ => True

/-! ## The actions -/

section Actions

variable {α β : Type} (slot : Nat) (request : Request) (past : Shared)

theorem goes_bind (first : Handler α) (rest : α → Handler β) (returns : β → Shared → Prop)
    (goes : Goes slot request past first fun result now =>
      Goes slot request now (rest result) returns) :
    Goes slot request past (first >>= rest) returns :=
  Programs.safe_bind first rest past returns _ goes

theorem goes_mono (program : Handler α) (returns returns' : α → Shared → Prop)
    (goes : Goes slot request past program returns)
    (weaker : ∀ result now, returns result now → returns' result now) :
    Goes slot request past program returns' :=
  Programs.safe_mono program past returns returns' _ _ goes weaker fun _ _ => id

theorem goes_since (origin : Shared) (program : Handler α) (returns : α → Shared → Prop)
    (began : Evolves origin past) (goes : Goes slot request past program returns) :
    Safe Inv (Rely slot) (Guarantee slot request) past program
      (fun result now => returns result now ∧ Evolves origin now)
      (fun _ now => True ∧ Evolves origin now) :=
  Programs.safe_since Evolves Evolves.trans (fun _ _ relied => relied.evolves)
    (fun _ _ kept => kept.evolves) program origin past began returns _ goes

theorem goes_orElse (body : Handler α) (handler : Fault → Handler α) (returns : α → Shared → Prop)
    (goes : Goes slot request past body returns)
    (handled : ∀ fault now, Goes slot request now (handler fault) returns) :
    Goes slot request past (body.orElse handler) returns :=
  Programs.safe_orElse body handler past returns _
    (Programs.safe_mono body past returns returns _ _ goes (fun _ _ => id)
      fun fault now _ => handled fault now)

theorem goes_transaction (body : Db → Except Fault (α × Db)) (returns : α → Shared → Prop)
    (spec : ∀ now result after, Inv now → Rely slot past now → body now.db = .ok (result, after) →
      Inv { now with db := after } ∧ Guarantee slot request now { now with db := after } ∧
        returns result { now with db := after }) :
    Goes slot request past (transaction body) returns := by
  refine Programs.safe_atomic _ past returns _ fun now choice answer after inv relied acted => ?_
  have stays : Inv now ∧ Guarantee slot request now now := ⟨inv, Guarantee.refl slot request now⟩
  split at acted
  · cases acted
    exact ⟨stays.1, stays.2, trivial⟩
  · cases acted
    exact ⟨stays.1, stays.2, trivial⟩
  · rename_i result db _ written
    cases acted
    obtain ⟨kept, guaranteed, meets⟩ := spec now result db inv relied written
    exact ⟨kept, guaranteed, meets⟩
  · rename_i result db _ written
    cases acted
    obtain ⟨kept, guaranteed, -⟩ := spec now result db inv relied written
    exact ⟨kept, guaranteed, trivial⟩

theorem goes_query (read : Db → Choice → α) (returns : α → Shared → Prop)
    (spec : ∀ now choice, Inv now → Rely slot past now → returns (read now.db choice) now) :
    Goes slot request past (query read) returns := by
  refine Programs.safe_atomic _ past returns _ fun now choice answer after inv relied acted => ?_
  have stays : Inv now ∧ Guarantee slot request now now := ⟨inv, Guarantee.refl slot request now⟩
  split at acted <;> cases acted
  · exact ⟨stays.1, stays.2, spec now choice inv relied⟩
  · exact ⟨stays.1, stays.2, trivial⟩
  · exact ⟨stays.1, stays.2, trivial⟩

theorem goes_call (ask : Stripe → Except Fault α × Stripe) (returns : α → Shared → Prop)
    (spec : ∀ now, Inv now → Rely slot past now →
      Inv { now with stripe := (ask now.stripe).2 } ∧
        Guarantee slot request now { now with stripe := (ask now.stripe).2 } ∧
        ∀ result, (ask now.stripe).1 = .ok result →
          returns result { now with stripe := (ask now.stripe).2 }) :
    Goes slot request past (call ask) returns := by
  refine Programs.safe_atomic _ past returns _ fun now choice answer after inv relied acted => ?_
  obtain ⟨kept, guaranteed, meets⟩ := spec now inv relied
  split at acted
  · cases acted
    refine ⟨kept, guaranteed, ?_⟩
    cases answered : (ask now.stripe).1 with
    | ok result => exact meets result answered
    | error fault => trivial
  · cases acted
    exact ⟨inv, Guarantee.refl slot request now, trivial⟩
  · cases acted
    exact ⟨kept, guaranteed, trivial⟩

theorem goes_mintOne (returns : Nat → Shared → Prop)
    (spec : ∀ now id, Inv now → Rely slot past now → returns id now) :
    Goes slot request past mintOne returns := by
  refine Programs.safe_atomic _ past returns _ fun now choice answer after inv relied acted => ?_
  have stays : Inv now ∧ Guarantee slot request now now := ⟨inv, Guarantee.refl slot request now⟩
  split at acted <;> cases acted
  · exact ⟨stays.1, stays.2, spec now choice.id inv relied⟩
  · exact ⟨stays.1, stays.2, trivial⟩
  · exact ⟨stays.1, stays.2, trivial⟩

theorem goes_now (returns : Int → Shared → Prop)
    (spec : ∀ now clock, Inv now → Rely slot past now → returns clock now) :
    Goes slot request past now returns := by
  refine Programs.safe_atomic _ past returns _ fun now choice answer after inv relied acted => ?_
  cases acted
  exact ⟨inv, Guarantee.refl slot request now, spec now choice.now inv relied⟩

theorem goes_quiet (ask : Stripe → Except Fault α × Stripe) (returns : α → Shared → Prop)
    (quiet : ∀ stripe, stripe.Sane → Quiet stripe (ask stripe).2)
    (spec : ∀ now result, Inv now → Rely slot past now → (ask now.stripe).1 = .ok result →
      returns result { now with stripe := (ask now.stripe).2 }) :
    Goes slot request past (call ask) returns :=
  goes_call slot request past ask returns fun now inv relied =>
    ⟨inv_quiet now _ inv (quiet _ inv.sane), guarantee_quiet slot request now _ (quiet _ inv.sane),
      fun result answered => spec now result inv relied answered⟩

end Actions

/-! ## What reading a session at Stripe says -/

theorem retrieve_intent (stripe : Stripe) (sane : stripe.Sane) (ref intentId : Nat)
    (linked : (stripe.retrieveAuthorization ref).intentId = some intentId) :
    stripe.IntentOf ref intentId ∧ ∃ intent, stripe.intents intentId = some intent ∧
      (stripe.retrieveAuthorization ref).intentStatus = some intent.status ∧
      (stripe.retrieveAuthorization ref).amountCapturableMinor = some intent.amountCapturable ∧
      (stripe.retrieveAuthorization ref).currency = some intent.currency := by
  unfold Stripe.retrieveAuthorization at linked ⊢
  cases known : stripe.sessions ref with
  | none => simp [known] at linked
  | some session =>
      simp only [known] at linked ⊢
      have complete : session.status = .complete := by
        by_contra incomplete
        rw [sane.without ref session known incomplete] at linked
        cases linked
      obtain ⟨-, other, intent, linkedToo, present⟩ := sane.complete ref session known complete
      cases linkedToo.symm.trans linked
      exact ⟨⟨session, known, complete, linked⟩, intent, present, by simp [linked, present],
        by simp [linked, present], by simp [linked, present]⟩

theorem retrieve_expired (stripe : Stripe) (ref : Nat)
    (expired : (stripe.retrieveAuthorization ref).sessionStatus = some .expired) :
    stripe.Expired ref := by
  unfold Stripe.retrieveAuthorization at expired
  cases known : stripe.sessions ref with
  | none => simp [known] at expired
  | some session =>
      simp only [known] at expired
      exact ⟨session, known, Option.some.inj expired⟩

theorem heldCharge_known (stripe : Stripe) (sane : stripe.Sane) (ref : Nat) (hold : HeldCharge)
    (held : heldCharge (stripe.retrieveAuthorization ref) = some hold) :
    HoldKnown stripe ref hold := by
  unfold heldCharge at held
  split at held
  · cases held
  rename_i ready
  obtain ⟨intentId, linked, rfl⟩ := Option.map_eq_some_iff.mp held
  obtain ⟨completed, intent, present, status, amount, currency⟩ :=
    retrieve_intent stripe sane ref intentId linked
  have waiting : intent.status = .requiresCapture := by
    rw [status] at ready
    simpa using ready ∘ Or.inr
  refine ⟨completed, intent.amount, intent.currency, ?_, currency, intent, present, rfl, rfl⟩
  rw [amount, PaymentIntent.amountCapturable, if_pos waiting]

/-- An intent read as canceled is gone, and one read as succeeded is captured. -/
theorem retrieve_status (stripe : Stripe) (sane : stripe.Sane) (ref : Nat) (status : IntentStatus)
    (read : (stripe.retrieveAuthorization ref).intentStatus = some status) :
    ∃ intentId intent, stripe.IntentOf ref intentId ∧ stripe.intents intentId = some intent ∧
      intent.status = status ∧ (stripe.retrieveAuthorization ref).intentId = some intentId := by
  cases linked : (stripe.retrieveAuthorization ref).intentId with
  | none =>
      unfold Stripe.retrieveAuthorization at linked read
      cases known : stripe.sessions ref <;> simp [known] at linked read
      simp [linked] at read
  | some intentId =>
      obtain ⟨completed, intent, present, same, -, -⟩ :=
        retrieve_intent stripe sane ref intentId linked
      rw [same] at read
      exact ⟨intentId, intent, completed, present, Option.some.inj read, rfl⟩

theorem goes_retrieve (slot : Nat) (request : Request) (past : Shared) (ref : Nat)
    (returns : SessionAuthorization → Shared → Prop)
    (spec : ∀ now, Inv now → Rely slot past now →
      returns (now.stripe.retrieveAuthorization ref) now) :
    Goes slot request past (retrieveAuthorization ref) returns :=
  goes_quiet slot request past _ returns (fun stripe sane => Quiet.refl stripe sane)
    fun now result inv relied answered => by
      cases answered
      exact spec now inv relied

/-! ## Recording -/

def Listed (shared : Shared) (row : PaymentRow) : Prop :=
  ∃ found ∈ shared.db.payments, found.id = row.id ∧
    found.providerSessionId = row.providerSessionId

theorem Listed.lasts (earlier later : Shared) (row : PaymentRow) (evolved : Evolves earlier later)
    (listed : Listed earlier row) : Listed later row := by
  obtain ⟨found, present, id, session⟩ := listed
  obtain ⟨moved, still, became⟩ := evolved.row earlier later found present
  exact ⟨moved, still, became.id.trans id, became.session.trans session⟩

theorem Listed.of_mem (shared : Shared) (row : PaymentRow) (listed : row ∈ shared.db.payments) :
    Listed shared row := ⟨row, listed, rfl, rfl⟩

theorem Listed.session (shared : Shared) (row other : PaymentRow) (rows : Rows shared.db)
    (listed : Listed shared row) (present : other ∈ shared.db.payments) (same : other.id = row.id) :
    other.providerSessionId = row.providerSessionId := by
  obtain ⟨found, here, id, session⟩ := listed
  cases Db.eq_of_id shared.db rows other found present here (same.trans id.symm)
  exact session

section Programs

variable (slot : Nat) (request : Request) (past : Shared)

theorem goes_voidIntent (intentId : Nat) (returns : VoidIntentOutcome → Shared → Prop)
    (spec : ∀ now outcome, (outcome = .alreadyCaptured → now.stripe.IntentCaptured intentId) →
      (outcome ≠ .alreadyCaptured → now.stripe.IntentGone intentId) → Rely slot past now →
        returns outcome now) :
    Goes slot request past (voidIntent intentId) returns := by
  refine goes_call slot request past _ returns fun now inv relied => ?_
  obtain ⟨quiet, gone, captured⟩ := Stripe.voidIntent_spec intentId now.stripe inv.sane
  have guaranteed := guarantee_quiet slot request now _ quiet
  refine ⟨inv_quiet now _ inv quiet, guaranteed, fun outcome answered => ?_⟩
  refine spec _ outcome (fun same => captured (same ▸ answered)) (fun other => gone ?_)
    ⟨Evolves.trans _ _ _ relied.evolves guaranteed.evolves, relied.own⟩
  cases outcome with
  | voided => exact .inl answered
  | alreadyCanceled => exact .inr answered
  | alreadyCaptured => exact absurd rfl other

theorem goes_voidStray (intentId : Nat) :
    Goes slot request past (voidStray intentId) fun _ now => Rely slot past now :=
  goes_bind slot request past _ _ _
    (goes_voidIntent slot request past intentId _ fun _ _ _ _ relied => relied)

theorem goes_prepare (read : PaymentRow) (hold : HeldCharge) (authorizedAt : Int) :
    Goes slot request past (prepare read hold authorizedAt) fun prepared now =>
      prepared.hold = hold ∧ prepared.providerSessionId = read.providerSessionId ∧
        Rely slot past now := by
  refine goes_bind slot request past _ _ _ (goes_query slot request past _ _
    fun first choice _ toFirst => ?_)
  refine goes_bind slot request first _ _ _ (goes_query slot request first _ _
    fun second choice' _ toSecond => ?_)
  have relied := Rely.trans slot past first second toFirst toSecond
  cases first.db.header with
  | none => trivial
  | some header =>
      cases found : second.db.findByProviderSessionId read.providerSessionId with
      | none => trivial
      | some payment =>
          have session := (Db.findByProviderSessionId_some second.db _ payment found).2
          dsimp only
          split
          · trivial
          cases decideAuthorization payment.toPayment header hold with
          | stray =>
              exact goes_bind slot request second _ _ _ (goes_mono slot request second _ _ _
                (goes_voidStray slot request second hold.intentId)
                fun _ now voided => ⟨rfl, session, Rely.trans slot past second now relied voided⟩)
          | record =>
              exact goes_bind slot request second _ _ _ (goes_mintOne slot request second _
                fun now _ _ minted => ⟨rfl, session, Rely.trans slot past second now relied minted⟩)
          | recordLate =>
              exact goes_bind slot request second _ _ _ (goes_mintOne slot request second _
                fun now _ _ minted => ⟨rfl, session, Rely.trans slot past second now relied minted⟩)
          | alreadyRecorded => exact ⟨rfl, session, relied⟩
          | amountMismatch => exact ⟨rfl, session, relied⟩

theorem goes_record (payment : PaymentRow) (hold : HeldCharge) (authorizedAt : Int)
    (held : HoldKnown past.stripe payment.providerSessionId hold) :
    Goes slot request past (record payment hold authorizedAt) fun _ _ => True := by
  refine goes_bind slot request past _ _ _ (goes_mono slot request past _ _ _
    (goes_prepare slot request past payment hold authorizedAt) ?_)
  rintro prepared now ⟨sameHold, session, relied⟩
  refine goes_transaction slot request now _ _ fun later outcome after inv toLater applied => ?_
  have evolved := Evolves.trans _ _ _ relied.evolves toLater.evolves
  obtain ⟨kept, guaranteed⟩ := apply_spec slot request later after prepared outcome inv
    (by rw [session, sameHold]; exact held.lasts _ _ _ _ evolved.stripe) applied
  exact ⟨kept, guaranteed, trivial⟩

/-! ## Opening -/

theorem backed_known (stripe : Stripe) (row : PaymentRow) (backed : Backed stripe row) :
    stripe.sessions row.providerSessionId ≠ none := by
  unfold Backed at backed
  cases status : row.status <;> rw [status] at backed
  case pending => exact backed
  case expired =>
    obtain ⟨session, known, -⟩ := backed
    simp [known]
  case succeeded =>
    obtain ⟨-, -, ⟨session, known, -⟩, -⟩ := backed
    simp [known]
  case authorized =>
    obtain ⟨-, -, ⟨session, known, -⟩, -⟩ := backed
    simp [known]
  all_goals
    obtain ⟨-, ⟨session, known, -⟩, -⟩ := backed
    simp [known]

/-- What a probe leaves: the attempt to reuse is listed, and the one to retire has expired. -/
def ProbeMeets (found : Probe) (now : Shared) : Prop :=
  match found with
  | .result .closed => True
  | .result (.opened _ session) => ∃ row ∈ now.db.payments, row.providerSessionId = session
  | .retiring retiring => ∀ row, retiring = some row →
      Listed now row ∧ now.stripe.Expired row.providerSessionId

theorem goes_probe (active : Option PaymentRow)
    (listed : ∀ row, active = some row → row ∈ past.db.payments) :
    Goes slot request past (probe active) ProbeMeets := by
  cases active with
  | none => exact fun row isNone => nomatch isNone
  | some active =>
      have here := Listed.of_mem past active (listed active rfl)
      unfold probe
      dsimp only
      split
      · trivial
      refine goes_bind slot request past _ _ _ (goes_retrieve slot request past _ _
        fun now inv relied => ?_)
      have still := here.lasts past now active relied.evolves
      cases status : (now.stripe.retrieveAuthorization active.providerSessionId).sessionStatus with
      | none => trivial
      | some reached =>
          cases reached with
          | opened =>
              obtain ⟨found, present, -, session⟩ := still
              exact ⟨found, present, session⟩
          | expired =>
              rintro row ⟨⟩
              exact ⟨still, retrieve_expired _ _ status⟩
          | complete =>
              dsimp only
              cases held : heldCharge (now.stripe.retrieveAuthorization
                active.providerSessionId) with
              | none => trivial
              | some hold =>
                  have known := heldCharge_known now.stripe inv.sane _ hold held
                  refine goes_bind slot request now _ _ _ (goes_now slot request now _
                    fun later clock _ toLater => ?_)
                  exact goes_bind slot request later _ _ _ (goes_mono slot request later _ _ _
                    (goes_record slot request later active hold clock
                      (known.lasts _ _ _ _ toLater.evolves.stripe)) fun _ _ _ => trivial)

/-- An open answers with a session of the order, and only if the header was still open. -/
theorem goes_openPaymentSession (minLeadMs amountMinor expiresAt : Int) (asked : String)
    (opens : request = .openSession amountMinor asked expiresAt) :
    Goes slot request past (openPaymentSession minLeadMs slot amountMinor asked expiresAt)
      fun result now => match result with
        | .closed => True
        | .opened _ session => ¬ past.db.shut ∧
            ∃ row ∈ now.db.payments, row.providerSessionId = session := by
  refine goes_bind slot request past _ _ _ (goes_now slot request past _ fun now clock _ toNow =>
    ?_)
  split
  · trivial
  refine goes_bind slot request now _ _ _ (goes_transaction slot request now _ _
    fun claiming claimed after inv toClaim answered => ?_)
  obtain ⟨kept, guaranteed, closes, listed⟩ :=
    claimHeader_spec slot request claiming after amountMinor
    expiresAt asked (toUpperCase asked) claimed inv opens rfl answered
  refine ⟨kept, guaranteed, ?_⟩
  cases claimed with
  | none => trivial
  | some active =>
      have wasOpen : ¬ past.db.shut := fun shut =>
        nomatch closes (toClaim.evolves.shut (toNow.evolves.shut shut))
      refine goes_bind slot request _ _ _ _ (goes_mono slot request _ _ _ _
        (goes_probe slot request { claiming with db := after } active
          fun row same => listed row (by rw [same])) ?_)
      intro found probed meets
      cases found with
      | result answer =>
          cases answer with
          | closed => trivial
          | opened paymentId session => exact ⟨wasOpen, meets⟩
      | retiring retiring =>
          refine goes_bind slot request probed _ _ _ (goes_mintOne slot request probed _
            fun minted paymentId _ toMinted => ?_)
          refine goes_bind slot request minted _ _ _ (goes_call slot request minted _ _
            fun creating inv toCreate => ?_)
          obtain ⟨stripe, created, quiet, session⟩ :=
            Stripe.createSession_spec slot creating.stripe inv.sane
          rw [created]
          refine ⟨inv_quiet creating _ inv quiet, guarantee_quiet slot request creating _ quiet, ?_⟩
          rintro ref ⟨⟩
          have unlisted : Unlisted { creating with stripe } creating.stripe.nextSession := by
            intro row present same
            have known := backed_known creating.stripe row (inv.backed row present)
            rw [same, inv.sane.sessions _ (Nat.le_refl _)] at known
            exact known rfl
          have toCreated : Evolves probed { creating with stripe } :=
            Evolves.trans _ _ _ (Evolves.trans _ _ _ toMinted.evolves toCreate.evolves)
              (evolves_stripe creating stripe quiet.evolves)
          refine goes_bind slot request _ _ _ _ (goes_transaction slot request _ _ _
            fun inserting inserted after inv toInsert answered => ?_)
          obtain ⟨found, known, sameKey, -⟩ := toInsert.evolves.stripe.session _ _ session
          have stillUnlisted := toInsert.own _ _ session rfl unlisted
          have toInserting := Evolves.trans _ _ _ toCreated toInsert.evolves
          obtain ⟨kept, guaranteed, rows⟩ := insertIfStillOpen_spec slot request inserting after
            amountMinor (toUpperCase asked) _ paymentId found retiring inserted inv known sameKey
            stillUnlisted (fun retired isRetired row present same => by
              obtain ⟨listed, expired⟩ := meets retired isRetired
              rw [Listed.session inserting retired row inv.rows
                (listed.lasts _ _ _ toInserting) present same]
              exact toInserting.stripe.expired _ _ _ expired) answered
          refine ⟨kept, guaranteed, ?_⟩
          cases inserted with
          | some row =>
              obtain ⟨present, same⟩ := rows row rfl
              exact ⟨wasOpen, row, present, same⟩
          | none =>
              refine goes_bind slot request _ _ _ _ (goes_orElse slot request _ _ _ _ ?_
                fun _ _ => trivial)
              refine goes_bind slot request _ _ _ _ (goes_quiet slot request _ _ _ ?_
                fun _ _ _ _ _ => trivial)
              intro stripe sane
              obtain ⟨outcome, closed, expired, quiet, -⟩ := Stripe.expireSession_spec
                creating.stripe.nextSession stripe sane
              rw [expired]
              exact quiet

/-! ## Cancelling -/

theorem goes_voidHold (ref intentId : Nat) (completed : past.stripe.IntentOf ref intentId) :
    Goes slot request past (voidHold intentId) fun released now =>
      ReleasedKnown now.stripe ref released ∧ Evolves past now := by
  refine goes_bind slot request past _ _ _ (goes_voidIntent slot request past intentId _
    fun now outcome captured gone relied => ?_)
  have still := relied.evolves.stripe.intentOf _ _ _ _ completed
  by_cases taken : outcome = .alreadyCaptured
  · rw [if_pos taken]
    exact ⟨⟨intentId, still, captured taken⟩, relied.evolves⟩
  · rw [if_neg taken]
    exact ⟨⟨intentId, still, gone taken⟩, relied.evolves⟩

theorem goes_release (attempt : PaymentRow)
    (known : past.stripe.sessions attempt.providerSessionId ≠ none)
    (held : attempt.status = .authorized → ∀ intentId, attempt.providerIntentId = some intentId →
      past.stripe.IntentOf attempt.providerSessionId intentId) :
    Goes slot request past (release attempt) fun released now =>
      ReleasedKnown now.stripe attempt.providerSessionId released ∧ Evolves past now := by
  unfold release
  split
  · rename_i authorized
    split
    · rename_i intentId linked
      exact goes_voidHold slot request past _ intentId (held authorized intentId linked)
    · trivial
  refine goes_bind slot request past _ _ _ (goes_call slot request past _ _ fun now inv relied =>
    ?_)
  obtain ⟨outcome, stripe, closed, quiet, expired⟩ :=
    Stripe.expireSession_spec attempt.providerSessionId now.stripe inv.sane
  rw [closed]
  refine ⟨inv_quiet now _ inv quiet, guarantee_quiet slot request now _ quiet, ?_⟩
  rintro answered ⟨⟩
  have toClosed : Evolves past { now with stripe } :=
    Evolves.trans _ _ _ relied.evolves (evolves_stripe now stripe quiet.evolves)
  split
  · rename_i unpaid
    obtain ⟨session, present⟩ := Option.ne_none_iff_exists'.mp known
    obtain ⟨found, presentNow, -⟩ := relied.evolves.stripe.session _ session present
    exact ⟨expired unpaid (by simp [presentNow]), toClosed⟩
  refine goes_bind slot request _ _ _ _ (goes_retrieve slot request _ _ _ fun later inv toLater =>
    ?_)
  have evolved := Evolves.trans _ _ _ toClosed toLater.evolves
  have read := retrieve_status later.stripe inv.sane attempt.providerSessionId
  cases status : (later.stripe.retrieveAuthorization attempt.providerSessionId).intentStatus with
  | none => trivial
  | some reached =>
      obtain ⟨intentId, intent, completed, present, same, linked⟩ := read reached status
      rw [linked]
      cases reached with
      | requiresCapture =>
          exact goes_mono slot request later _ _ _
            (goes_voidHold slot request later _ intentId completed)
            fun released now meets => ⟨meets.1, Evolves.trans _ _ _ evolved meets.2⟩
      | canceled =>
          exact ⟨⟨intentId, completed, intent, present, by rw [same]; rfl⟩, evolved⟩
      | succeeded => exact ⟨⟨intentId, completed, intent, present, same⟩, evolved⟩
      | processing => trivial
      | requiresPaymentMethod => trivial
      | other => trivial

/-- Once a cancel has answered, the order's header is final and, short of a capture, every attempt
of it is released. -/
theorem goes_cancelPayment (allowed : request = .cancel ∨ past.db.concluded) :
    Goes slot request past cancelPayment CancelMeets := by
  refine goes_bind slot request past _ _ _ (goes_transaction slot request past _ _
    fun now flipped after inv toNow answered => ?_)
  obtain ⟨outcome, attempt⟩ := flipped
  obtain ⟨kept, guaranteed, meets⟩ := flip_spec slot request now after outcome attempt inv
    (allowed.imp id toNow.evolves.concluded) answered
  refine ⟨kept, guaranteed, ?_⟩
  unfold FlipMeets at meets
  by_cases conflict : outcome = .capturedConflict
  · rw [if_pos conflict] at meets
    obtain ⟨rfl, taken⟩ := meets
    change CancelMeets outcome _
    rw [CancelMeets, if_pos conflict]
    exact taken
  rw [if_neg conflict] at meets
  obtain ⟨concluded, meets⟩ := meets
  cases attempt with
  | none =>
      change CancelMeets outcome _
      rw [CancelMeets, if_neg conflict]
      exact ⟨concluded, meets⟩
  | some attempt =>
      obtain ⟨⟨rest, shape⟩, status⟩ := meets
      have present : after.payments = attempt :: rest := shape
      have backed := kept.backed attempt (by simp [present])
      refine goes_bind slot request _ _ _ _ (goes_mono slot request _ _ _ _
        (goes_release slot request { now with db := after } attempt
          (backed_known _ attempt backed) ?_) ?_)
      · intro authorized intentId linked
        rw [Backed, authorized] at backed
        obtain ⟨own, linkedOwn, completed, -⟩ := backed
        cases linkedOwn.symm.trans linked
        exact completed
      rintro released letGo ⟨known, toReleased⟩
      refine goes_bind slot request _ _ _ _ (goes_transaction slot request letGo _ _
        fun recording conflicted afterwards inv toRecording answered => ?_)
      have evolved := Evolves.trans _ _ _ toReleased toRecording.evolves
      have knownNow : ReleasedKnown recording.stripe attempt.providerSessionId released := by
        cases released with
        | expired => exact toRecording.evolves.stripe.expired _ _ _ known
        | voided intentId => exact toRecording.evolves.stripe.holdGone _ _ _ known
        | captured => exact toRecording.evolves.stripe.captured _ _ _ known
      obtain ⟨keptAfter, guaranteedAfter, taken, untaken⟩ :=
        recordReleased_spec slot request recording
        afterwards attempt released conflicted inv (evolved.concluded concluded) knownNow answered
      refine ⟨keptAfter, guaranteedAfter, ?_⟩
      cases conflicted with
      | true => exact taken rfl
      | false =>
          change CancelMeets outcome _
          rw [CancelMeets, if_neg conflict]
          have toAfter := Evolves.trans _ _ _ evolved guaranteedAfter.evolves
          refine ⟨toAfter.concluded concluded, ?_⟩
          have frozen := toAfter.frozen _ _ (Db.concluded.shut _ concluded)
          rw [shape] at frozen
          cases same : afterwards.payments with
          | nil =>
              rw [same] at frozen
              cases frozen
          | cons row others =>
              rw [same] at frozen
              cases frozen with
              | cons became _ =>
                  refine allReleased_of_head _ keptAfter row others same ?_
                  rw [became.session]
                  cases released with
                  | expired => exact .inl knownNow
                  | voided intentId => exact .inr knownNow
                  | captured => exact absurd rfl (untaken rfl)

/-! ## Capturing -/

theorem goes_capturePayment : Goes slot .capture past capturePayment CaptureMeets := by
  refine goes_bind slot .capture past _ _ _ (goes_query slot .capture past _ _
    fun now choice inv toNow => ?_)
  cases known : now.db.header with
  | none =>
      rintro ⟨header, present, -⟩
      cases known.symm.trans present
  | some header =>
      cases status : header.status <;> simp only [Option.map_some, status, decideCapture]
      case opened =>
        rintro ⟨found, present, left⟩
        cases known.symm.trans present
        exact left status
      case captured => exact ⟨header, known, status⟩
      case cancelled => exact .inr ⟨header, known, .inl status⟩
      case fenced => exact .inr ⟨header, known, .inr status⟩
      refine goes_bind slot .capture now _ _ _ (goes_query slot .capture now _ _
        fun reading choice' inv toReading => ?_)
      rw [Db.findByOrderId_eq_head reading.db inv.rows]
      cases shape : reading.db.payments with
      | nil => trivial
      | cons read rest =>
          dsimp only [List.head?_cons]
          split
          · rename_i intentId authorized linked
            have listed : read ∈ reading.db.payments := by simp [shape]
            have backed := inv.backed read listed
            rw [Backed, authorized] at backed
            obtain ⟨own, linkedOwn, completed, -⟩ := backed
            cases linkedOwn.symm.trans linked
            have shut : now.db.shut := ⟨header, known, by simp [status]⟩
            have capturable : Capturable reading read intentId :=
              ⟨toReading.evolves.shut shut, ⟨rest, shape⟩, authorized, completed⟩
            refine goes_bind slot .capture reading _ _ _ (goes_call slot .capture reading _ _
              fun asking inv toAsking => ?_)
            obtain ⟨-, stripeEvolved, -, taken, gone⟩ :=
              Stripe.captureIntent_spec intentId asking.stripe inv.sane
            have evolved := evolves_stripe asking _ stripeEvolved
            refine ⟨inv_capture reading asking read intentId inv toAsking.evolves listed authorized
              completed,
              ⟨evolved, fun _ _ _ _ unlisted => unlisted, fun other => absurd rfl other,
                fun _ barred => .inl barred, Db.openedBy_same .capture _ _ rfl,
                fun quiet => absurd quiet (by decide)⟩,
              fun result answered => ?_⟩
            refine goes_transaction slot .capture _ _ _
              fun settling outcome after inv toSettle settled => ?_
            refine settle_spec slot .capture reading settling after read intentId result outcome
              (by simp [Request.concludes]) inv capturable
              (Evolves.trans _ _ _ (Evolves.trans _ _ _ toAsking.evolves evolved) toSettle.evolves)
                ?_ settled
            cases result with
            | captured => exact toSettle.evolves.stripe.intentCaptured _ _ _ (taken answered)
            | notCapturable => exact toSettle.evolves.stripe.intentGone _ _ _ (gone answered)
          · trivial

/-! ## Webhooks -/

theorem goes_logOnly (event : ValidEvent) :
    Goes slot request past (logOnly event) fun _ _ => True := by
  refine goes_bind slot request past _ _ _ (goes_mintOne slot request past _ fun now _ _ _ => ?_)
  refine goes_transaction slot request now _ _ fun logging outcome after inv _ answered => ?_
  obtain ⟨kept, guaranteed⟩ := logged_spec slot request logging after event _ outcome inv
    (fun db outcome after inv _ _ same => by
      cases same
      exact ⟨inv, Guarantee.refl slot request _⟩) answered
  exact ⟨kept, guaranteed, trivial⟩

theorem applyWebhook_ok (db after : Db) (prepared : PreparedAuthorization)
    (outcome : WebhookOutcome)
    (answered : db.applyWebhook prepared = .ok (outcome, after)) :
    ∃ result, db.apply prepared = .ok (result, after) := by
  unfold Db.applyWebhook at answered
  split at answered
  · cases answered
  all_goals
    rename_i applied
    cases answered
    exact ⟨_, applied⟩

theorem goes_completed (event : ValidEvent) (payment : PaymentRow) :
    Goes slot request past (completed event payment) fun _ _ => True := by
  refine goes_bind slot request past _ _ _ (goes_retrieve slot request past _ _
    fun now inv toNow => ?_)
  cases held : heldCharge (now.stripe.retrieveAuthorization payment.providerSessionId) with
  | none => exact goes_logOnly slot request now event
  | some hold =>
      have known := heldCharge_known now.stripe inv.sane _ hold held
      refine goes_bind slot request now _ _ _
        (goes_now slot request now _ fun clocked clock _ toClock => ?_)
      refine goes_bind slot request clocked _ _ _ (goes_mono slot request clocked _ _ _
        (goes_prepare slot request clocked payment hold clock) ?_)
      rintro prepared preparedAt ⟨sameHold, session, toPrepared⟩
      refine goes_bind slot request preparedAt _ _ _ (goes_mintOne slot request preparedAt _
        fun minted _ _ toMinted => ?_)
      refine goes_transaction slot request minted _ _
        fun logging outcome after inv toLogging answered => ?_
      have evolved := Evolves.trans _ _ _ (Evolves.trans _ _ _ toClock.evolves toPrepared.evolves)
        (Evolves.trans _ _ _ toMinted.evolves toLogging.evolves)
      obtain ⟨kept, guaranteed⟩ := logged_spec slot request logging after event _ outcome inv
        (fun db outcome after inv _ _ applied => by
          obtain ⟨result, applied⟩ := applyWebhook_ok db after prepared outcome applied
          exact apply_spec slot request { logging with db } after prepared result inv
            (by rw [session, sameHold]; exact known.lasts _ _ _ _ evolved.stripe) applied) answered
      exact ⟨kept, guaranteed, trivial⟩

theorem goes_expired (event : ValidEvent) (payment : PaymentRow) (listed : Listed past payment)
    (concluded : past.stripe.Expired payment.providerSessionId) :
    Goes slot request past (expired event payment) fun _ _ => True := by
  refine goes_bind slot request past _ _ _ (goes_mintOne slot request past _ fun now _ _ toNow =>
    ?_)
  refine goes_transaction slot request now _ _
    fun logging outcome after before toLogging answered => ?_
  have evolved := Evolves.trans _ _ _ toNow.evolves toLogging.evolves
  obtain ⟨kept, guaranteed⟩ := logged_spec slot request logging after event _ outcome before
    (fun db outcome after inv _ samePayments applied => by
      have session : ∀ row ∈ db.payments, row.id = payment.id →
          logging.stripe.Expired row.providerSessionId := by
        intro row present same
        rw [samePayments] at present
        rw [Listed.session logging payment row before.rows
          (listed.lasts past logging payment evolved) present same]
        exact evolved.stripe.expired _ _ _ concluded
      have spec := expire_spec slot request { logging with db } payment.id inv session
      unfold Db.applyExpired at applied
      split at applied
      · rename_i written
        cases applied
        rw [written] at spec
        exact spec
      · cases applied
        exact ⟨inv, Guarantee.refl slot request _⟩) answered
  exact ⟨kept, guaranteed, trivial⟩

theorem authentic_expired (stripe : Stripe) (event : ValidEvent) (ref : Nat)
    (genuine : authentic stripe event = true) (type : event.type = .expired)
    (session : event.sessionId = some ref) : stripe.Expired ref := by
  rw [authentic, type, session] at genuine
  simp only [beq_iff_eq] at genuine
  obtain ⟨found, known, status⟩ := Option.map_eq_some_iff.mp genuine
  exact ⟨found, known, status⟩

theorem goes_processWebhookEvent (event : ValidEvent) (real : authentic past.stripe event = true) :
    Goes slot request past (processWebhookEvent event) fun _ _ => True := by
  unfold processWebhookEvent
  split
  · exact goes_logOnly slot request past event
  · exact goes_logOnly slot request past event
  rename_i sessionId known notOther
  refine goes_bind slot request past _ _ _ (goes_query slot request past _ _ fun now _ inv toNow =>
    ?_)
  cases found : now.db.findByProviderSessionId sessionId with
  | none => exact goes_logOnly slot request now event
  | some payment =>
      obtain ⟨listed, session⟩ := Db.findByProviderSessionId_some now.db _ payment found
      refine goes_bind slot request now _ _ _ (goes_query slot request now _ _
        fun later _ _ toLater => ?_)
      split
      · exact goes_logOnly slot request later event
      split
      · exact goes_completed slot request later event payment
      · rename_i notCompleted
        have type : event.type = .expired := by
          cases same : event.type with
          | completed => exact absurd same notCompleted
          | expired => rfl
          | other => exact (notOther same).elim
        refine goes_expired slot request later event payment
          ((Listed.of_mem now payment listed).lasts _ _ _ toLater.evolves) ?_
        rw [session]
        exact toLater.evolves.stripe.expired _ _ _ (toNow.evolves.stripe.expired _ _ _
          (authentic_expired past.stripe event sessionId real type known))

/-! ## Reconciliation -/

theorem goes_bump (returns : Unit → Shared → Prop) (meets : ∀ now, returns () now) :
    Goes slot request past bumpUpdatedAt returns :=
  goes_transaction slot request past _ returns fun now _ after inv _ answered => by
    cases answered
    exact ⟨inv, Guarantee.refl slot request now, meets now⟩

/-- A stale payment: a row of the order, and a hold only under a header that is over. -/
def Stale (shared : Shared) (payment : PaymentRow) : Prop :=
  Listed shared payment ∧ (payment.status = .authorized → shared.db.concluded)

theorem Stale.lasts (earlier later : Shared) (payment : PaymentRow)
    (evolved : Evolves earlier later) (stale : Stale earlier payment) : Stale later payment :=
  ⟨stale.1.lasts earlier later payment evolved, evolved.concluded ∘ stale.2⟩

theorem stale_of_found (shared : Shared) (choice : Choice) (payment : PaymentRow)
    (found : payment ∈ shared.db.findStaleTcc choice) : Stale shared payment := by
  obtain ⟨listed, stale⟩ := List.mem_filter.mp found
  refine ⟨Listed.of_mem shared payment listed, fun authorized => .inl ?_⟩
  simp only [Db.isStale, authorized, Bool.and_eq_true, Bool.or_eq_true, beq_iff_eq, reduceCtorEq,
    false_or, true_and] at stale
  rcases stale.1 with cancelled | fenced
  · obtain ⟨header, known, status⟩ := Option.map_eq_some_iff.mp cancelled
    exact ⟨header, known, .inl status⟩
  · obtain ⟨header, known, status⟩ := Option.map_eq_some_iff.mp fenced
    exact ⟨header, known, .inr status⟩

theorem goes_reconcile (payment : PaymentRow) (stale : Stale past payment) :
    Goes slot request past (reconcile payment) fun _ _ => True := by
  unfold reconcile
  split
  · rename_i authorized
    exact goes_bind slot request past _ _ _ (goes_mono slot request past _ _ _
      (goes_cancelPayment slot request past (.inr (stale.2 authorized))) fun _ _ _ => trivial)
  refine goes_bind slot request past _ _ _ (goes_retrieve slot request past _ _
    fun now inv toNow => ?_)
  have listed := stale.1.lasts past now payment toNow.evolves
  have settles : ∀ (later : Shared), Inv later → Rely slot now later →
      ∀ row ∈ later.db.payments, row.id = payment.id →
        row.providerSessionId = payment.providerSessionId :=
    fun later inv toLater row present same => Listed.session later payment row inv.rows
      (listed.lasts now later payment toLater.evolves) present same
  cases held : heldCharge (now.stripe.retrieveAuthorization payment.providerSessionId) with
  | some hold =>
      have known := heldCharge_known now.stripe inv.sane _ hold held
      refine goes_bind slot request now _ _ _
        (goes_now slot request now _ fun later clock _ toLater => ?_)
      refine goes_bind slot request later _ _ _ (goes_mono slot request later _ _ _
        (goes_record slot request later payment hold clock
          (known.lasts _ _ _ _ toLater.evolves.stripe)) fun outcome recorded _ => ?_)
      split
      · trivial
      · exact goes_bind slot request recorded _ _ _ (goes_bump slot request recorded _
          fun _ => trivial)
  | none =>
      dsimp only
      split
      · rename_i gone
        have concluded := retrieve_expired now.stripe payment.providerSessionId gone
        refine goes_bind slot request now _ _ _ (goes_transaction slot request now _ _
          fun later _ after inv toLater answered => ?_)
        cases answered
        obtain ⟨kept, guaranteed⟩ := expire_spec slot request later payment.id inv
          fun row present same => by
            rw [settles later inv toLater row present same]
            exact toLater.evolves.stripe.expired _ _ _ concluded
        exact ⟨kept, guaranteed, trivial⟩
      split
      · rename_i canceled
        obtain ⟨intentId, intent, completed, present, status, -⟩ :=
          retrieve_status now.stripe inv.sane payment.providerSessionId _ canceled.2
        have gone : now.stripe.HoldGone payment.providerSessionId :=
          ⟨intentId, completed, intent, present, by rw [status]; rfl⟩
        refine goes_bind slot request now _ _ _ (goes_transaction slot request now _ _
          fun later _ after inv toLater answered => ?_)
        cases answered
        obtain ⟨kept, guaranteed⟩ := void_spec slot request later payment.id _ .pending inv
          (.inl rfl)
          fun row present same => by
            rw [settles later inv toLater row present same]
            exact toLater.evolves.stripe.holdGone _ _ _ gone
        exact ⟨kept, guaranteed, trivial⟩
      · exact goes_bind slot request now _ _ _ (goes_bump slot request now _ fun _ => trivial)

/-- A failing payment leaves the batch where its state has evolved to. -/
theorem goes_reconcileOne (origin : Shared) (payment : PaymentRow) (stale : Stale past payment)
    (began : Evolves origin past) :
    Goes slot request past ((reconcile payment).orElse fun _ => do
      bumpUpdatedAt.orElse fun _ => pure ()
      pure .failed) fun _ now => Evolves origin now := by
  refine Programs.safe_orElse _ _ past _ _ (Programs.safe_mono _ past _ _ _ _
    (goes_since slot request past origin _ _ began (goes_reconcile slot request past payment stale))
    (fun _ _ ended => ended.2) fun fault now ended => ?_)
  refine goes_bind slot request now _ _ _ (Programs.safe_orElse _ _ now _ _
    (Programs.safe_mono _ now _ _ _ _
      (goes_since slot request now origin _ _ ended.2
        (goes_bump slot request now (fun _ _ => True) fun _ => trivial))
      (fun _ _ bumped => bumped.2) fun _ _ failed => failed.2))

theorem goes_reconcileAll (payments : List PaymentRow) (origin : Shared)
    (stale : ∀ payment ∈ payments, Stale origin payment) (began : Evolves origin past) :
    Goes slot request past (reconcileAll payments) fun _ _ => True := by
  induction payments generalizing past with
  | nil => trivial
  | cons payment rest ih =>
      refine goes_bind slot request past _ _ _ (goes_mono slot request past _ _ _
        (goes_reconcileOne slot request past origin payment
          ((stale payment List.mem_cons_self).lasts origin past payment began) began)
        fun outcome now reached => ?_)
      refine goes_bind slot request now _ _ _ (goes_mono slot request now _ _ _
        (ih now (fun other listed => stale other (List.mem_cons_of_mem _ listed)) reached)
        fun _ _ _ => trivial)

theorem goes_reconcileTccPayments : Goes slot request past reconcileTccPayments fun _ _ => True :=
  goes_bind slot request past _ _ _ (goes_query slot request past _ _ fun now choice _ _ =>
    goes_reconcileAll slot request now _ now
      (fun payment found => stale_of_found now choice payment found) (Evolves.refl now))

/-! ## The participant -/

/-- What a reply says of the state it left in, `since` being the state the request came in. -/
def Returns (request : Request) (since : Shared) (reply : Reply) (now : Shared) : Prop :=
  match request, reply with
  | .openSession .., .session result => since.db.shut → result = .closed
  | .capture, .captured outcome => CaptureMeets outcome now
  | .cancel, .cancelled outcome => CancelMeets outcome now
  | .webhook _, .event _ | .reconcile, .reconciled _ => True
  | _, _ => False

theorem goes_answer (result : OpenSessionResult) (returns : Reply → Shared → Prop)
    (listed : ∀ id session, result = .opened id session →
      ∃ row ∈ past.db.payments, row.providerSessionId = session)
    (meets : ∀ now, returns (.session result) now) :
    Goes slot request past (answer result) returns := by
  cases result with
  | closed => exact meets past
  | opened id session =>
      intro now choice inv relied
      obtain ⟨sane, evolved, captures, hands⟩ := Stripe.handOut_spec session now.stripe inv.sane
      obtain ⟨row, present, same⟩ := listed id session rfl
      obtain ⟨found, here, became⟩ := relied.evolves.row past now row present
      have kept : Inv { now with stripe := now.stripe.handOut session } := by
        refine ⟨inv.rows, inv.header, inv.announced, sane,
          fun other present => (inv.backed other present).lasts _ _ _ evolved, ?_,
          fun other present captured => inv.captured other present (captures _ captured)⟩
        intro ref out
        rcases hands ref out with before | rfl
        · exact inv.handed ref before
        · exact ⟨found, here, became.session.trans same⟩
      exact ⟨kept, ⟨evolves_stripe now _ evolved, fun _ _ _ _ unlisted => unlisted,
        fun _ => captures, fun _ barred => .inl barred, Db.openedBy_same request _ _ rfl,
        fun _ concluded => concluded⟩, meets _⟩

theorem goes_participant (minLeadMs : Int) (admitted : admits past request = true) :
    Goes slot request past (participant minLeadMs slot request) (Returns request past) := by
  cases request with
  | openSession amountMinor currency expiresAt =>
      refine goes_bind slot _ past _ _ _ (goes_mono slot _ past _ _ _
        (goes_openPaymentSession slot _ past minLeadMs amountMinor expiresAt currency rfl) ?_)
      intro result now met
      refine goes_answer slot _ now result _ ?_ fun _ shut => ?_
      · rintro id session rfl
        exact met.2
      · cases result with
        | closed => rfl
        | opened id session => exact absurd shut met.1
  | capture =>
      exact goes_bind slot _ past _ _ _ (goes_mono slot _ past _ _ _
        (goes_capturePayment slot past) fun _ _ met => met)
  | cancel =>
      exact goes_bind slot _ past _ _ _ (goes_mono slot _ past _ _ _
        (goes_cancelPayment slot _ past (.inl rfl)) fun _ _ met => met)
  | webhook event =>
      exact goes_bind slot _ past _ _ _ (goes_mono slot _ past _ _ _
        (goes_processWebhookEvent slot _ past event admitted) fun _ _ met => met)
  | reconcile =>
      exact goes_bind slot _ past _ _ _ (goes_mono slot _ past _ _ _
        (goes_reconcileTccPayments slot _ past) fun _ _ met => met)

end Programs

theorem verified (minLeadMs : Int) :
    Programs.System.Verified (system minLeadMs) Inv Evolves Rely Guarantee Returns where
  refl := Evolves.refl
  trans := Evolves.trans
  rely_refl := Rely.refl
  rely_trans := Rely.trans
  guarantee_rely slot request other now later := Guarantee.rely slot other request now later
  guarantee_evolves _ _ _ _ kept := kept.evolves
  move now change later inv moved := by
    obtain ⟨stripe, changed, rfl⟩ := Option.map_eq_some_iff.mp moved
    have quiet := Stripe.move_spec now.stripe stripe change inv.sane changed
    exact ⟨inv_quiet now stripe inv quiet, evolves_stripe now stripe quiet.evolves,
      fun slot => ⟨evolves_stripe now stripe quiet.evolves, fun _ _ _ _ unlisted => unlisted⟩⟩
  program slot now request _ admitted :=
    goes_participant slot request now minLeadMs admitted

theorem inv_start : Inv start where
  rows := by constructor <;> simp [start, Db.empty]
  header := by constructor <;> simp [start, Db.empty]
  announced := by simp [Announced, start, Db.empty]
  sane := by constructor <;> simp [start]
  backed := by simp [start, Db.empty]
  handed := by simp [Stripe.HandedOut, start]
  captured := by simp [start, Db.empty]

end Commerce.Payments
