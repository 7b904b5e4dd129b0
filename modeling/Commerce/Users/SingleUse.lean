import Commerce.Lib.Tables

/-!
# Single-use tokens

The tables of the password-reset and of the email-verification tokens, which
have one shape and one repository each.  Only the hash of a token is stored.  The
`WHERE` of a consumption is its guard, and a sweep collects the rows that no
consumption could match any more.
-/

set_option autoImplicit false

namespace Commerce.Users

structure SingleUseToken where
  id : Nat
  userId : Nat
  tokenHash : String
  expiresAt : Int
  consumedAt : Option Int
  deriving DecidableEq, Repr

namespace SingleUseToken

def Live (row : SingleUseToken) (now : Int) : Prop := row.consumedAt = none ∧ now < row.expiresAt

instance (row : SingleUseToken) (now : Int) : Decidable (row.Live now) :=
  inferInstanceAs (Decidable (_ ∧ _))

def consumed (row : SingleUseToken) (now : Int) : SingleUseToken :=
  { row with consumedAt := some now }

def spentBefore (cutoff : Int) (row : SingleUseToken) : Bool :=
  decide (row.expiresAt < cutoff) || row.consumedAt.any fun at' => decide (at' < cutoff)

end SingleUseToken

namespace SingleUse

def create (tokens : List SingleUseToken) (id userId : Nat) (tokenHash : String)
    (expiresAt : Int) : List SingleUseToken :=
  tokens ++ [⟨id, userId, tokenHash, expiresAt, none⟩]

/-- One conditional update; the user of the row it matched. -/
def consume (tokens : List SingleUseToken) (tokenHash : String) (now : Int) :
    Option Nat × List SingleUseToken :=
  ((tokens.find? fun row => decide (row.tokenHash = tokenHash ∧ row.Live now)).map (·.userId),
    tokens.map fun row =>
      if row.tokenHash = tokenHash ∧ row.Live now then row.consumed now else row)

def invalidateOthersForUser (tokens : List SingleUseToken) (userId : Nat) (keptTokenHash : String)
    (now : Int) : List SingleUseToken :=
  tokens.map fun row =>
    if row.userId = userId ∧ row.consumedAt = none ∧ row.tokenHash ≠ keptTokenHash then
      row.consumed now
    else row

/-- The subquery of `deleteSpentBefore`: any of the spent ids, up to the limit. -/
def selectsSpent (tokens : List SingleUseToken) (cutoff : Int) (limit : Nat) (doomed : List Nat) :
    Bool :=
  decide (doomed.length ≤ limit) && doomed.all fun id =>
    tokens.any fun row => row.id == id && row.spentBefore cutoff

def deleteSpent (tokens : List SingleUseToken) (doomed : List Nat) : List SingleUseToken :=
  tokens.filter fun row => !doomed.contains row.id

/-! ## What the statements keep -/

variable {tokens next : List SingleUseToken}

structure Keeps (tokens next : List SingleUseToken) : Prop where
  rows : ∀ row ∈ next, ∃ before ∈ tokens, row.id = before.id ∧ row.userId = before.userId ∧
    row.tokenHash = before.tokenHash ∧ row.expiresAt = before.expiresAt ∧
      (row.consumedAt = none → before.consumedAt = none)
  hashes : (next.map (·.tokenHash)).Sublist (tokens.map (·.tokenHash))
  ids : (next.map (·.id)).Sublist (tokens.map (·.id))

theorem column_update {α : Type} (chosen : SingleUseToken → Prop) [DecidablePred chosen]
    (now : Int) (tokens : List SingleUseToken) (column : SingleUseToken → α)
    (kept : ∀ row, column (row.consumed now) = column row) :
    (tokens.map fun row => if chosen row then row.consumed now else row).map column =
      tokens.map column := by
  rw [List.map_map]
  refine List.map_congr_left fun row _ => ?_
  simp only [Function.comp_apply]
  split
  · exact kept row
  · rfl

theorem keeps_update (chosen : SingleUseToken → Prop) [DecidablePred chosen] (now : Int)
    (tokens : List SingleUseToken) :
    Keeps tokens (tokens.map fun row => if chosen row then row.consumed now else row) where
  rows := by
    intro row listed
    obtain ⟨before, stored, same⟩ := List.mem_map.mp listed
    refine ⟨before, stored, ?_⟩
    rw [← same]
    split
    · exact ⟨rfl, rfl, rfl, rfl, fun unspent => by cases unspent⟩
    · exact ⟨rfl, rfl, rfl, rfl, id⟩
  hashes := by rw [column_update chosen now tokens (·.tokenHash) fun _ => rfl]
  ids := by rw [column_update chosen now tokens (·.id) fun _ => rfl]

theorem keeps_consume (tokens : List SingleUseToken) (tokenHash : String) (now : Int) :
    Keeps tokens (consume tokens tokenHash now).2 :=
  keeps_update (fun row => row.tokenHash = tokenHash ∧ row.Live now) now tokens

theorem keeps_invalidate (tokens : List SingleUseToken) (userId : Nat) (keptTokenHash : String)
    (now : Int) : Keeps tokens (invalidateOthersForUser tokens userId keptTokenHash now) :=
  keeps_update
    (fun row => row.userId = userId ∧ row.consumedAt = none ∧ row.tokenHash ≠ keptTokenHash) now
    tokens

theorem keeps_delete (tokens : List SingleUseToken) (doomed : List Nat) :
    Keeps tokens (deleteSpent tokens doomed) where
  rows := fun row listed => ⟨row, (List.mem_filter.mp listed).1, rfl, rfl, rfl, rfl, id⟩
  hashes := List.filter_sublist.map _
  ids := List.filter_sublist.map _

/-- What a consumption that answers a user matched. -/
theorem consume_some (tokenHash : String) (now : Int) (userId : Nat)
    (answered : (consume tokens tokenHash now).1 = some userId) :
    ∃ row ∈ tokens, row.tokenHash = tokenHash ∧ row.userId = userId ∧ row.Live now := by
  obtain ⟨row, found, same⟩ := Option.map_eq_some_iff.mp answered
  have matched := List.find?_some found
  rw [decide_eq_true_eq] at matched
  exact ⟨row, List.mem_of_find?_eq_some found, matched.1, same, matched.2⟩

/-- Once a consumption has answered a user, the token is consumed. -/
theorem consume_spends (distinct : (tokens.map (·.tokenHash)).Nodup) (tokenHash : String)
    (now : Int) (userId : Nat) (answered : (consume tokens tokenHash now).1 = some userId) :
    ∀ row ∈ (consume tokens tokenHash now).2, row.tokenHash = tokenHash →
      row.consumedAt ≠ none := by
  obtain ⟨matched, stored, named, -, live⟩ := consume_some tokenHash now userId answered
  intro row listed same
  obtain ⟨before, among, here⟩ := List.mem_map.mp listed
  rw [← here] at same ⊢
  split at same
  · rename_i hit
    rw [if_pos hit]
    exact Option.some_ne_none now
  · rename_i miss
    have one := List.inj_on_of_nodup_map distinct among stored (same.trans named.symm)
    exact absurd ⟨same, one ▸ live⟩ miss

/-- After an invalidation only the kept token of the user may be unconsumed. -/
theorem invalidate_spends (userId : Nat) (keptTokenHash : String) (now : Int) :
    ∀ row ∈ invalidateOthersForUser tokens userId keptTokenHash now, row.userId = userId →
      row.tokenHash ≠ keptTokenHash → row.consumedAt ≠ none := by
  intro row listed owned other
  obtain ⟨before, -, here⟩ := List.mem_map.mp listed
  rw [← here] at owned other ⊢
  split at owned
  · rename_i hit
    rw [if_pos hit]
    exact Option.some_ne_none now
  · rename_i miss
    rw [if_neg miss] at other ⊢
    intro unspent
    exact miss ⟨owned, unspent, other⟩

end SingleUse

end Commerce.Users
