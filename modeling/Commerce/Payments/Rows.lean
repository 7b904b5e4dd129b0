import Commerce.Payments.Store
import Mathlib.Data.List.Nodup

/-!
# The attempts of one order

What keeps the `payments` rows of an order in shape: keys and sessions are
distinct, the rows are stamped in the order they went in, and every attempt
but the newest is retired.  Lookups and status updates are read off that shape.
-/

set_option autoImplicit false

namespace Commerce.Payments

/-- The rows are listed newest first, and only the newest may be active. -/
structure Rows (db : Db) : Prop where
  ids : (db.payments.map (·.id)).Nodup
  sessions : (db.payments.map (·.providerSessionId)).Nodup
  stamps : db.payments.Pairwise fun row older => older.createdAt < row.createdAt
  clock : ∀ row ∈ db.payments, row.createdAt < db.clock
  retired : ∀ row ∈ db.payments.tail, row.status.retired = true
  upper : ∀ row ∈ db.payments, toUpperCase row.currency = row.currency

namespace Db

/-! ## Lookups -/

theorem newest_mem (rows : List PaymentRow) (row : PaymentRow) (found : newest rows = some row) :
    row ∈ rows := by
  induction rows generalizing row with
  | nil => cases found
  | cons first rest ih =>
      simp only [newest] at found
      split at found
      · cases found
        exact List.mem_cons_self
      · rename_i best foundRest
        split at found
        · cases found
          exact List.mem_cons_of_mem _ (ih _ foundRest)
        · cases found
          exact List.mem_cons_self

theorem newest_sorted (rows : List PaymentRow)
    (stamps : rows.Pairwise fun row older => older.createdAt < row.createdAt) :
    newest rows = rows.head? := by
  cases rows with
  | nil => rfl
  | cons first rest =>
      simp only [newest, List.head?_cons]
      split
      · rfl
      · rename_i other best
        have older := (List.pairwise_cons.mp stamps).1 other (newest_mem rest other best)
        have behind : newer other first = false := by
          simp only [newer, Bool.or_eq_false_iff, decide_eq_false_iff_not, Bool.and_eq_false_iff,
            beq_eq_false_iff_ne]
          exact ⟨by omega, .inl (by omega)⟩
        rw [behind]
        rfl

theorem findByOrderId_eq_head (db : Db) (rows : Rows db) : db.findByOrderId = db.payments.head? :=
  newest_sorted db.payments rows.stamps

theorem findByProviderSessionId_some (db : Db) (ref : Nat) (row : PaymentRow)
    (found : db.findByProviderSessionId ref = some row) :
    row ∈ db.payments ∧ row.providerSessionId = ref := by
  have listed := newest_mem _ row found
  simpa using List.mem_filter.mp listed

theorem eq_of_id (db : Db) (rows : Rows db) (row other : PaymentRow) (listed : row ∈ db.payments)
    (listedToo : other ∈ db.payments) (same : row.id = other.id) : row = other :=
  List.inj_on_of_nodup_map rows.ids listed listedToo same

theorem eq_of_session (db : Db) (rows : Rows db) (row other : PaymentRow)
    (listed : row ∈ db.payments) (listedToo : other ∈ db.payments)
    (same : row.providerSessionId = other.providerSessionId) : row = other :=
  List.inj_on_of_nodup_map rows.sessions listed listedToo same

theorem findActive_some (db : Db) (rows : Rows db) (active : PaymentRow)
    (found : db.findActiveByOrderIdForUpdate = some active) :
    active.status.retired = false ∧ ∃ rest, db.payments = active :: rest := by
  have live : active.status.retired = false := by
    simpa using List.find?_some found
  have listed := List.mem_of_find?_eq_some found
  refine ⟨live, ?_⟩
  cases shape : db.payments with
  | nil => simp [shape] at listed
  | cons first rest =>
      rw [shape, List.mem_cons] at listed
      rcases listed with rfl | behind
      · exact ⟨rest, rfl⟩
      · have := rows.retired active (by simpa [shape] using behind)
        simp [live] at this

/-- An attempt that is not retired is the newest one. -/
theorem head_of_active (db : Db) (rows : Rows db) (row : PaymentRow) (listed : row ∈ db.payments)
    (live : row.status.retired = false) : ∃ rest, db.payments = row :: rest := by
  cases shape : db.payments with
  | nil => simp [shape] at listed
  | cons first rest =>
      rw [shape, List.mem_cons] at listed
      rcases listed with rfl | behind
      · exact ⟨rest, rfl⟩
      · have := rows.retired row (by simpa [shape] using behind)
        simp [live] at this

/-! ## Status updates -/

theorem updateStatus_cases (db : Db) (rows : Rows db) (id : Nat) (status : PaymentStatus)
    (intentId : Option Nat) (expected : Option PaymentStatus)
    (active : ∀ row ∈ db.payments, picks id expected row = true → row.status.retired = false) :
    (db.updateStatus id status intentId expected = (false, db) ∧
        ∀ row ∈ db.payments, picks id expected row = false) ∨
      ∃ row rest, db.payments = row :: rest ∧ picks id expected row = true ∧
        db.updateStatus id status intentId expected =
          (true, { db with payments := PaymentRow.patch row status intentId :: rest }) := by
  by_cases pick : ∃ row ∈ db.payments, picks id expected row = true
  · obtain ⟨row, listed, picked⟩ := pick
    obtain ⟨rest, shape⟩ := head_of_active db rows row listed (active row listed picked)
    have others : ∀ other ∈ rest, picks id expected other = false := by
      intro other behind
      by_contra pickedToo
      rw [Bool.not_eq_false] at pickedToo
      have live := active other (by simp [shape, behind]) pickedToo
      have old := rows.retired other (by simpa [shape] using behind)
      simp [live] at old
    refine .inr ⟨row, rest, shape, picked, ?_⟩
    simp only [updateStatus, shape, List.any_cons, picked, Bool.true_or, List.map_cons, if_true]
    congr 3
    exact (List.map_congr_left fun other behind => by rw [others other behind]; rfl).trans
      (List.map_id _)
  · have nothing : ∀ row ∈ db.payments, picks id expected row = false := by
      intro row listed
      by_contra picked
      exact pick ⟨row, listed, by simpa using picked⟩
    refine .inl ⟨?_, nothing⟩
    have same : db.payments.map (fun row =>
        if picks id expected row then PaymentRow.patch row status intentId else row) =
          db.payments :=
      (List.map_congr_left fun row listed => by rw [nothing row listed]; rfl).trans (List.map_id _)
    have unpicked : db.payments.any (picks id expected) = false := by
      simpa using nothing
    simp only [updateStatus, same, unpicked]

theorem rows_patch (db : Db) (rows : Rows db) (row : PaymentRow) (rest : List PaymentRow)
    (status : PaymentStatus) (intentId : Option Nat) (shape : db.payments = row :: rest) :
    Rows { db with payments := PaymentRow.patch row status intentId :: rest } := by
  obtain ⟨ids, sessions, stamps, clock, retired, upper⟩ := rows
  rw [shape] at ids sessions stamps clock retired upper
  refine ⟨ids, sessions, ?_, ?_, retired, ?_⟩
  · exact List.pairwise_cons.mpr (List.pairwise_cons.mp stamps)
  · intro other listed
    rcases List.mem_cons.mp listed with rfl | behind
    · exact clock row List.mem_cons_self
    · exact clock other (List.mem_cons_of_mem _ behind)
  · intro other listed
    rcases List.mem_cons.mp listed with rfl | behind
    · exact upper row List.mem_cons_self
    · exact upper other (List.mem_cons_of_mem _ behind)

/-! ## A new attempt -/

theorem create_ok (db after : Db) (payment : Payment) (id : Nat) (row : PaymentRow)
    (created : db.create payment id = .ok (row, after)) :
    (∀ other ∈ db.payments, other.id ≠ id ∧ other.status.retired = true) ∧
      row = { payment with id := id, createdAt := db.clock } ∧
      after = { db with payments := row :: db.payments, clock := db.clock + 1 } := by
  unfold create at created
  split at created
  · cases created
  rename_i newKey
  split at created
  · cases created
  rename_i noneActive
  cases created
  refine ⟨fun other listed => ⟨?_, ?_⟩, rfl, rfl⟩
  · intro same
    exact newKey (List.any_eq_true.mpr ⟨other, listed, by simp [same]⟩)
  · by_contra live
    exact noneActive (List.any_eq_true.mpr ⟨other, listed, by simp [live]⟩)

theorem rows_create (db after : Db) (rows : Rows db) (payment : Payment) (id : Nat)
    (row : PaymentRow) (created : db.create payment id = .ok (row, after))
    (fresh : ∀ other ∈ db.payments, other.providerSessionId ≠ payment.providerSessionId)
    (upper : toUpperCase payment.currency = payment.currency) : Rows after := by
  obtain ⟨others, rfl, rfl⟩ := create_ok db after payment id row created
  refine ⟨?_, ?_, ?_, ?_, fun other listed => (others other listed).2, ?_⟩
  · refine List.nodup_cons.mpr ⟨fun listed => ?_, rows.ids⟩
    obtain ⟨other, present, same⟩ := List.mem_map.mp listed
    exact (others other present).1 same
  · refine List.nodup_cons.mpr ⟨fun listed => ?_, rows.sessions⟩
    obtain ⟨other, present, same⟩ := List.mem_map.mp listed
    exact fresh other present same
  · exact List.pairwise_cons.mpr ⟨rows.clock, rows.stamps⟩
  · intro other listed
    rcases List.mem_cons.mp listed with rfl | present
    · exact Nat.lt_succ_self _
    · exact Nat.lt_succ_of_lt (rows.clock other present)
  · intro other listed
    rcases List.mem_cons.mp listed with rfl | present
    · exact upper
    · exact rows.upper other present

end Db

end Commerce.Payments
