import Commerce.Lib.Results
import Commerce.Lib.Tables

/-!
# Refresh tokens

The repository of the user service: logins open a family with one token,
refreshes replace the family's token by a successor, and a retired token that
comes back ends the family.  Every write but the collection holds the user's
advisory lock, so the writes of one user act one after the other; an error
rolls its transaction back.
-/

set_option autoImplicit false

namespace Commerce.Users

open Tables

inductive Role where
  | admin
  | customer
  deriving DecidableEq, Repr

structure User where
  id : Nat
  passwordHash : String
  role : Role
  tokenEpoch : Int
  deriving DecidableEq, Repr

structure RefreshToken where
  id : Nat
  userId : Nat
  tokenHash : String
  familyId : Nat
  replacedByTokenId : Option Nat
  expiresAt : Int
  revokedAt : Option Int
  deriving DecidableEq, Repr

structure Accounts where
  users : List User
  refreshTokens : List RefreshToken
  deriving DecidableEq, Repr

inductive AccountsError where
  | duplicateKey
  | foreignKey
  | ownerMissing
  deriving DecidableEq, Repr

namespace Accounts

def findUser (accounts : Accounts) (userId : Nat) : Option User :=
  accounts.users.find? fun user => user.id == userId

def findToken (accounts : Accounts) (tokenHash : String) : Option RefreshToken :=
  accounts.refreshTokens.find? fun row => row.tokenHash == tokenHash

/-- The ids and the hashes are unique, and a token belongs to a user. -/
def insertToken (accounts : Accounts) (row : RefreshToken) : Except AccountsError Accounts :=
  if accounts.refreshTokens.any fun other => other.id == row.id || other.tokenHash == row.tokenHash
  then .error .duplicateKey
  else if (accounts.findUser row.userId).isNone then .error .foreignKey
  else .ok { accounts with refreshTokens := accounts.refreshTokens ++ [row] }

/-- `SET revoked_at = now WHERE ... AND revoked_at IS NULL`. -/
def revokeWhere (accounts : Accounts) (chosen : RefreshToken → Bool) (now : Int) : Accounts :=
  { accounts with
    refreshTokens := accounts.refreshTokens.map fun row =>
      if chosen row ∧ row.revokedAt = none then { row with revokedAt := some now } else row }

end Accounts

/-! ## Logging in -/

structure CreateRefreshTokenInput where
  userId : Nat
  tokenHash : String
  familyId : Nat
  expiresAt : Int
  verifiedPasswordHash : String
  deriving DecidableEq, Repr

inductive CreateRefreshTokenOutcome where
  | created (role : Role) (tokenEpoch : Int)
  | credentialsChanged
  deriving DecidableEq, Repr

def create (accounts : Accounts) (input : CreateRefreshTokenInput) (id : Nat) :
    Except AccountsError (CreateRefreshTokenOutcome × Accounts) :=
  match accounts.findUser input.userId with
  | none => .ok (.credentialsChanged, accounts)
  | some owner =>
      if owner.passwordHash ≠ input.verifiedPasswordHash then .ok (.credentialsChanged, accounts)
      else do
        let next ← accounts.insertToken
          ⟨id, input.userId, input.tokenHash, input.familyId, none, input.expiresAt, none⟩
        .ok (.created owner.role owner.tokenEpoch, next)

/-! ## Refreshing -/

structure RefreshTokenOwner where
  userId : Nat
  familyId : Nat
  rotatable : Bool
  deriving DecidableEq, Repr

def findOwner (accounts : Accounts) (tokenHash : String) (now : Int) : Option RefreshTokenOwner :=
  (accounts.findToken tokenHash).map fun row =>
    ⟨row.userId, row.familyId,
      row.revokedAt == none && row.replacedByTokenId == none && row.expiresAt > now⟩

/-- `successorId` is null when the token did not look rotatable before the lock was taken. -/
structure RotateRefreshTokenInput where
  presentedTokenHash : String
  expectedUserId : Nat
  successorId : Option Nat
  newTokenHash : String
  newExpiresAt : Int
  reuseGraceMs : Int
  deriving DecidableEq, Repr

inductive RotateOutcome where
  | rotated (userId : Nat) (role : Role) (tokenEpoch : Int)
  | invalid
  | reuse (userId familyId : Nat) (replaced : Bool)
  | replayed
  deriving DecidableEq, Repr

/-- The readings of the clock a rotation takes, in order. -/
structure RotateClock where
  atGrace : Int
  atExpiry : Int
  atRevoke : Int
  deriving DecidableEq, Repr

def withinGrace (record : RefreshToken) (reuseGraceMs now : Int) : Bool :=
  match record.replacedByTokenId, record.revokedAt with
  | some _, some revokedAt => now - revokedAt ≤ reuseGraceMs
  | _, _ => false

def replaceToken (accounts : Accounts) (record : RefreshToken) (input : RotateRefreshTokenInput)
    (successorId : Nat) (now : Int) : Except AccountsError (RotateOutcome × Accounts) :=
  match accounts.findUser record.userId with
  | none => .error .ownerMissing
  | some owner => do
      let inserted ← accounts.insertToken
        ⟨successorId, record.userId, input.newTokenHash, record.familyId, none, input.newExpiresAt,
          none⟩
      .ok (.rotated record.userId owner.role owner.tokenEpoch,
        { inserted with
          refreshTokens := update (·.id) record.id
            (fun row => { row with revokedAt := some now, replacedByTokenId := some successorId })
            inserted.refreshTokens })

def rotate (accounts : Accounts) (input : RotateRefreshTokenInput) (clock : RotateClock) :
    Except AccountsError (RotateOutcome × Accounts) :=
  match accounts.findToken input.presentedTokenHash with
  | none => .ok (.invalid, accounts)
  | some record =>
      if record.userId ≠ input.expectedUserId then .ok (.invalid, accounts)
      else if withinGrace record input.reuseGraceMs clock.atGrace then .ok (.replayed, accounts)
      else if record.revokedAt ≠ none ∨ record.replacedByTokenId ≠ none then
        .ok (.reuse record.userId record.familyId
            (accounts.refreshTokens.any fun row =>
              row.familyId == record.familyId && row.revokedAt == none),
          accounts.revokeWhere (fun row => row.familyId == record.familyId) clock.atRevoke)
      else if record.expiresAt ≤ clock.atExpiry then
        .ok (.invalid,
          { accounts with
            refreshTokens := update (·.id) record.id
              (fun row => { row with revokedAt := some clock.atRevoke }) accounts.refreshTokens })
      else
        match input.successorId with
        | none => .ok (.invalid, accounts)
        | some successorId => replaceToken accounts record input successorId clock.atRevoke

/-! ## Revoking -/

structure PasswordReplacement where
  newPasswordHash : String
  verifiedPasswordHash : Option String
  deriving DecidableEq, Repr

/-- Bumps the epoch, stores a new hash when one is given, and revokes every live token. -/
def revokeAllForUser (accounts : Accounts) (userId : Nat)
    (replacement : Option PasswordReplacement) (now : Int) : Option Int × Accounts :=
  match accounts.findUser userId with
  | none => (none, accounts)
  | some user =>
      let verified := replacement.bind (·.verifiedPasswordHash)
      if verified = none ∨ verified = some user.passwordHash then
        let written := { user with
          tokenEpoch := user.tokenEpoch + 1
          passwordHash := (replacement.map (·.newPasswordHash)).getD user.passwordHash }
        (some written.tokenEpoch,
          { accounts with
            users := update (·.id) userId (fun _ => written) accounts.users }.revokeWhere
              (fun row => row.userId == userId) now)
      else (none, accounts)

def revokeFamily (accounts : Accounts) (userId familyId : Nat) (now : Int) : Bool × Accounts :=
  (accounts.refreshTokens.any fun row =>
      row.userId == userId && row.familyId == familyId && row.revokedAt == none,
    accounts.revokeWhere (fun row => row.userId == userId && row.familyId == familyId) now)

/-! ## Collecting -/

/-- Expired and never revoked, or revoked long enough ago. -/
def collectable (expiredBefore revokedBefore : Int) (row : RefreshToken) : Bool :=
  match row.revokedAt with
  | none => row.expiresAt < expiredBefore
  | some revokedAt => revokedAt < revokedBefore

/-- The subquery of the collection: any of the collectable ids, up to the limit. -/
def selectsDoomed (accounts : Accounts) (expiredBefore revokedBefore : Int) (limit : Nat)
    (doomed : List Nat) : Bool :=
  decide (doomed.length ≤ limit) && doomed.all fun id =>
    accounts.refreshTokens.any fun row =>
      row.id == id && collectable expiredBefore revokedBefore row

def deleteDoomed (accounts : Accounts) (doomed : List Nat) : Accounts :=
  { accounts with
    refreshTokens := accounts.refreshTokens.filter fun row => !doomed.contains row.id }

end Commerce.Users
