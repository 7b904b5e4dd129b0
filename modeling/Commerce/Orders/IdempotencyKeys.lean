import Commerce.Lib.Decimals
import Commerce.Orders.Repository

/-!
# The idempotency keys

Statements on the key table.  A claim is the `IN_PROGRESS` row of a request;
the unique index on scope and key lets one claim in at a time.
-/

set_option autoImplicit false

namespace Commerce.Orders

theorem userIdempotencyScope_inj (first second : Nat)
    (same : userIdempotencyScope first = userIdempotencyScope second) : first = second := by
  refine Decimals.toString_inj first second ?_
  simpa [userIdempotencyScope] using same

namespace Db

def findByScopeAndKey (db : Db) (scope key : String) : Option IdempotencyRow :=
  db.idempotencyKeys.find? fun row => row.scope == scope && row.key == key

/-- `ON CONFLICT (scope, key) DO NOTHING`: no row comes back when the key is taken. -/
def tryInsertInProgress (db : Db) (id : Nat) (scope key requestHash : String)
    (expiresAt createdAt : Int) : Option IdempotencyRow × Db :=
  if (db.findByScopeAndKey scope key).isSome then (none, db)
  else
    let row : IdempotencyRow :=
      { id := id
        scope := scope
        key := key
        requestHash := requestHash
        completed := false
        responseStatus := none
        responseBody := none
        orderId := none
        expiresAt := expiresAt
        createdAt := createdAt }
    (some row, { db with idempotencyKeys := db.idempotencyKeys ++ [row] })

def dropKeys (db : Db) (doomed : IdempotencyRow → Bool) : Db :=
  { db with idempotencyKeys := db.idempotencyKeys.filter fun row => !doomed row }

def deleteInProgress (db : Db) (claimId : Nat) : Db :=
  db.dropKeys fun row => row.id == claimId && !row.completed

def deleteExpiredInProgress (db : Db) (scope key : String) (cutoff : Int) : Db :=
  db.dropKeys fun row =>
    row.scope == scope && row.key == key && !row.completed && decide (row.createdAt < cutoff)

/-- The TTL sweep; which expired rows a batch holds is up to the database. -/
def deleteExpired (db : Db) (now : Int) (batch : List Nat) : Db :=
  db.dropKeys fun row => decide (row.expiresAt < now) && batch.contains row.id

theorem mem_dropKeys (db : Db) (doomed : IdempotencyRow → Bool) (row : IdempotencyRow)
    (member : row ∈ (db.dropKeys doomed).idempotencyKeys) : row ∈ db.idempotencyKeys :=
  List.mem_of_mem_filter member

theorem mem_findByScopeAndKey (db : Db) (scope key : String) (row : IdempotencyRow)
    (found : db.findByScopeAndKey scope key = some row) :
    row ∈ db.idempotencyKeys ∧ row.scope = scope ∧ row.key = key := by
  refine ⟨List.mem_of_find?_eq_some found, ?_⟩
  simpa using List.find?_some found

theorem mem_tryInsertInProgress (db : Db) (id : Nat) (scope key requestHash : String)
    (expiresAt createdAt : Int) (row : IdempotencyRow)
    (member : row ∈ (db.tryInsertInProgress id scope key requestHash expiresAt
      createdAt).2.idempotencyKeys) :
    row ∈ db.idempotencyKeys ∨ row.completed = false := by
  unfold tryInsertInProgress at member
  split at member
  · exact .inl member
  · rcases List.mem_append.mp member with old | new
    · exact .inl old
    · rw [List.mem_singleton.mp new]
      exact .inr rfl

theorem tryInsertInProgress_claim (db : Db) (id : Nat) (scope key requestHash : String)
    (expiresAt createdAt : Int) (row : IdempotencyRow)
    (inserted : (db.tryInsertInProgress id scope key requestHash expiresAt createdAt).1 =
      some row) : row.completed = false := by
  unfold tryInsertInProgress at inserted
  split at inserted <;> cases inserted
  rfl

@[simp] theorem tryInsertInProgress_orders (db : Db) (id : Nat) (scope key requestHash : String)
    (expiresAt createdAt : Int) :
    (db.tryInsertInProgress id scope key requestHash expiresAt createdAt).2.orders = db.orders := by
  unfold tryInsertInProgress
  split <;> rfl

end Db

end Commerce.Orders
