import Commerce.Lib.Runs
import Commerce.Users.Books
import Commerce.Users.SingleUse

/-!
# Account recovery

Signups, logins, password changes and the two kinds of mailed tokens, any number
of requests at a time.  A statement of the database is one step, and a request
may die between two.  The history beside the tables says who did what.

A drawn token and a minted id are new.  The check of a password against a hash
is `verifies`.
-/

set_option autoImplicit false

namespace Commerce.Users.Recovery

open Tables

/-! ## Tables and history -/

inductive Purpose where
  | passwordReset
  | emailVerification
  deriving DecidableEq, Repr

/-- The columns of `users` about the address. -/
structure Contact where
  userId : Nat
  email : String
  emailVerifiedAt : Option Int
  deriving DecidableEq, Repr

inductive Operation where
  | register (email : String)
  | login (email password : String)
  | forgotPassword (email : String)
  | resendVerification (email : String)
  | verifyEmail (tokenHash : String)
  | resetPassword (tokenHash : String)
  | changePassword (userId : Nat) (currentPassword : String)
  deriving DecidableEq, Repr

structure Issue where
  purpose : Purpose
  userId : Nat
  email : String
  tokenHash : String
  expiresAt : Int
  deriving DecidableEq, Repr

/-- A consumption that answered a user. -/
structure Honour where
  slot : Nat
  purpose : Purpose
  userId : Nat
  tokenHash : String
  readAt : Int
  deriving DecidableEq, Repr

structure Replacement where
  slot : Nat
  operation : Operation
  userId : Nat
  replaced : String
  stored : String
  deriving DecidableEq, Repr

/-- A session, with the hash its user had when it was stored. -/
structure Opening where
  operation : Operation
  userId : Nat
  passwordHash : String
  deriving DecidableEq, Repr

structure Mail where
  purpose : Purpose
  email : String
  tokenHash : String
  deriving DecidableEq, Repr

structure Desk where
  accounts : Accounts
  contacts : List Contact
  tokens : Purpose → List SingleUseToken
  minted : List Nat
  drawn : List String
  issued : List Issue
  superseded : List (Purpose × String)
  mailed : List Mail
  honoured : List Honour
  replacements : List Replacement
  opened : List Opening
  /-- The cutoffs of the sweeps. -/
  swept : List Int

def emptyDesk : Desk := ⟨⟨[], []⟩, [], fun _ => [], [], [], [], [], [], [], [], [], []⟩

/-- What the surroundings put into one statement: a clock, a minted id, what is drawn and hashed. -/
structure Choice where
  now : Int
  id : Nat
  familyId : Nat
  tokenHash : String
  passwordHash : String
  deriving DecidableEq, Repr

structure Settings where
  verifies : String → String → Bool
  requireVerifiedEmail : Bool
  ttlMs : Purpose → Int
  refreshTtlMs : Int

namespace Desk

def findByEmail (desk : Desk) (email : String) : Option (Contact × User) :=
  (desk.contacts.find? fun contact => contact.email == email).bind fun contact =>
    (desk.accounts.findUser contact.userId).map fun user => (contact, user)

/-! ## Statements -/

def createUser (desk : Desk) (email : String) (choice : Choice) : Option (Desk × Option Contact) :=
  if desk.contacts.any fun contact => contact.email == email then some (desk, none)
  else if choice.id ∈ desk.minted then none
  else
    let contact : Contact := ⟨choice.id, email, none⟩
    some ({ desk with
      accounts.users := desk.accounts.users ++ [⟨choice.id, choice.passwordHash, .customer, 0⟩]
      contacts := desk.contacts ++ [contact]
      minted := choice.id :: desk.minted }, some contact)

/-- The first statement of `issueAndSend`. -/
def issue (desk : Desk) (purpose : Purpose) (contact : Contact) (ttlMs : Int) (choice : Choice) :
    Option Desk :=
  if choice.id ∈ desk.minted ∨ choice.tokenHash ∈ desk.drawn then none
  else
    some { desk with
      tokens := Function.update desk.tokens purpose
        (SingleUse.create (desk.tokens purpose) choice.id contact.userId choice.tokenHash
          (choice.now + ttlMs))
      minted := choice.id :: desk.minted
      drawn := choice.tokenHash :: desk.drawn
      issued := ⟨purpose, contact.userId, contact.email, choice.tokenHash, choice.now + ttlMs⟩ ::
        desk.issued }

/-- The second statement of `issueAndSend`, and its mail. -/
def supersede (desk : Desk) (purpose : Purpose) (contact : Contact) (tokenHash : String)
    (now : Int) : Desk :=
  { desk with
    tokens := Function.update desk.tokens purpose
      (SingleUse.invalidateOthersForUser (desk.tokens purpose) contact.userId tokenHash now)
    superseded := ((desk.issued.filter fun issue => issue.purpose = purpose ∧
      issue.userId = contact.userId ∧ issue.tokenHash ≠ tokenHash).map fun issue =>
        (purpose, issue.tokenHash)) ++ desk.superseded
    mailed := ⟨purpose, contact.email, tokenHash⟩ :: desk.mailed }

def consume (desk : Desk) (slot : Nat) (purpose : Purpose) (tokenHash : String) (now : Int) :
    Desk × Option Nat :=
  match SingleUse.consume (desk.tokens purpose) tokenHash now with
  | (none, rows) =>
      ({ desk with tokens := Function.update desk.tokens purpose rows }, none)
  | (some userId, rows) =>
      ({ desk with
          tokens := Function.update desk.tokens purpose rows
          honoured := ⟨slot, purpose, userId, tokenHash, now⟩ :: desk.honoured }, some userId)

/-- The first verification wins. -/
def markEmailVerified (desk : Desk) (userId : Nat) (now : Int) : Desk :=
  { desk with
    contacts := desk.contacts.map fun contact =>
      if contact.userId = userId ∧ contact.emailVerifiedAt = none then
        { contact with emailVerifiedAt := some now }
      else contact }

def replacedBy (desk : Desk) (slot : Nat) (operation : Operation) (userId : Nat)
    (replacement : PasswordReplacement) : Option Int → List Replacement
  | some _ =>
      (desk.accounts.findUser userId).toList.map fun user =>
        ⟨slot, operation, userId, user.passwordHash, replacement.newPasswordHash⟩
  | none => []

def replacePassword (desk : Desk) (slot : Nat) (operation : Operation) (userId : Nat)
    (replacement : PasswordReplacement) (now : Int) : Desk × Bool :=
  let answer := revokeAllForUser desk.accounts userId (some replacement) now
  ({ desk with
      accounts := answer.2
      replacements := desk.replacedBy slot operation userId replacement answer.1 ++
        desk.replacements },
    answer.1.isSome)

def openedBy (desk : Desk) (operation : Operation) (userId : Nat) :
    CreateRefreshTokenOutcome → List Opening
  | .created .. =>
      (desk.accounts.findUser userId).toList.map fun user => ⟨operation, userId, user.passwordHash⟩
  | .credentialsChanged => []

def openSession (desk : Desk) (operation : Operation) (input : CreateRefreshTokenInput)
    (id : Nat) : Option (Desk × CreateRefreshTokenOutcome) :=
  match create desk.accounts input id with
  | .error _ => none
  | .ok (outcome, accounts) =>
      some ({ desk with
        accounts
        opened := desk.openedBy operation input.userId outcome ++ desk.opened }, outcome)

def sweep (desk : Desk) (purpose : Purpose) (cutoff : Int) (doomed : List Nat) : Desk :=
  { desk with
    tokens := Function.update desk.tokens purpose
      (SingleUse.deleteSpent (desk.tokens purpose) doomed)
    swept := cutoff :: desk.swept }

end Desk

/-! ## Requests -/

inductive Phase where
  | arrived
  | issuing (purpose : Purpose) (contact : Contact)
  | superseding (purpose : Purpose) (contact : Contact) (tokenHash : String)
  | marking (userId : Nat)
  | replacing (userId : Nat) (replacement : PasswordReplacement)
  | storing (userId : Nat) (verifiedPasswordHash : String)
  | succeeded
  | refused
  /-- The request died or answered an error of the server. -/
  | failed
  deriving DecidableEq, Repr

def Phase.finished : Phase → Bool
  | .succeeded | .refused | .failed => true
  | .arrived | .issuing .. | .superseding .. | .marking _ | .replacing .. | .storing .. => false

structure Process where
  operation : Operation
  phase : Phase
  deriving DecidableEq, Repr

section Requests

variable (settings : Settings)

def begin (desk : Desk) (slot : Nat) (choice : Choice) : Operation → Option (Desk × Phase)
  | .register email =>
      (desk.createUser email choice).map fun answer =>
        (answer.1, match answer.2 with
          | some contact => .issuing .emailVerification contact
          | none => .refused)
  | .login email password =>
      match desk.findByEmail email with
      | none => some (desk, .refused)
      | some (contact, user) =>
          if settings.verifies user.passwordHash password = false then some (desk, .refused)
          else if settings.requireVerifiedEmail ∧ contact.emailVerifiedAt = none then
            some (desk, .refused)
          else some (desk, .storing user.id user.passwordHash)
  | .forgotPassword email =>
      match desk.findByEmail email with
      | none => some (desk, .succeeded)
      | some (contact, _) => some (desk, .issuing .passwordReset contact)
  | .resendVerification email =>
      match desk.findByEmail email with
      | none => some (desk, .succeeded)
      | some (contact, _) =>
          if contact.emailVerifiedAt = none then some (desk, .issuing .emailVerification contact)
          else some (desk, .succeeded)
  | .verifyEmail tokenHash =>
      match desk.consume slot .emailVerification tokenHash choice.now with
      | (next, some userId) => some (next, .marking userId)
      | (next, none) => some (next, .refused)
  | .resetPassword tokenHash =>
      match desk.consume slot .passwordReset tokenHash choice.now with
      | (next, some userId) => some (next, .replacing userId ⟨choice.passwordHash, none⟩)
      | (next, none) => some (next, .refused)
  | .changePassword userId currentPassword =>
      match desk.accounts.findUser userId with
      | none => some (desk, .refused)
      | some user =>
          if settings.verifies user.passwordHash currentPassword then
            some (desk, .replacing user.id ⟨choice.passwordHash, some user.passwordHash⟩)
          else some (desk, .refused)

/-- A reset answers success also when it found no user. -/
def Operation.unreplaced : Operation → Phase
  | .changePassword .. => .refused
  | .register _ | .login .. | .forgotPassword _ | .resendVerification _ | .verifyEmail _
  | .resetPassword _ => .succeeded

def stored : CreateRefreshTokenOutcome → Phase
  | .created .. => .succeeded
  | .credentialsChanged => .refused

def statement (desk : Desk) (slot : Nat) (process : Process) (choice : Choice) :
    Option (Desk × Phase) :=
  match process.phase with
  | .arrived => begin settings desk slot choice process.operation
  | .issuing purpose contact =>
      (desk.issue purpose contact (settings.ttlMs purpose) choice).map fun next =>
        (next, .superseding purpose contact choice.tokenHash)
  | .superseding purpose contact tokenHash =>
      some (desk.supersede purpose contact tokenHash choice.now, .succeeded)
  | .marking userId => some (desk.markEmailVerified userId choice.now, .succeeded)
  | .replacing userId replacement =>
      match desk.replacePassword slot process.operation userId replacement choice.now with
      | (next, true) => some (next, .succeeded)
      | (next, false) => some (next, process.operation.unreplaced)
  | .storing userId verifiedPasswordHash =>
      let input : CreateRefreshTokenInput := ⟨userId, choice.tokenHash, choice.familyId,
        choice.now + settings.refreshTtlMs, verifiedPasswordHash⟩
      match desk.openSession process.operation input choice.id with
      | none => some (desk, .failed)
      | some (next, outcome) => some (next, stored outcome)
  | .succeeded | .refused | .failed => none

/-! ## Any number of requests -/

structure World where
  desk : Desk
  requests : Nat → Option Process

def emptyWorld : World := ⟨emptyDesk, fun _ => none⟩

inductive Event where
  | arrive (slot : Nat) (operation : Operation)
  | turn (slot : Nat) (choice : Choice)
  | fail (slot : Nat)
  | sweep (purpose : Purpose) (cutoff : Int) (limit : Nat) (doomed : List Nat)
  deriving DecidableEq, Repr

def World.goOn (world : World) (desk : Desk) (slot : Nat) (process : Process) (phase : Phase) :
    World :=
  ⟨desk, Function.update world.requests slot (some { process with phase := phase })⟩

def step (world : World) : Event → Option World
  | .arrive slot operation =>
      if (world.requests slot).isSome then none
      else some (world.goOn world.desk slot ⟨operation, .arrived⟩ .arrived)
  | .turn slot choice =>
      (world.requests slot).bind fun process =>
        (statement settings world.desk slot process choice).map fun next =>
          world.goOn next.1 slot process next.2
  | .fail slot =>
      (world.requests slot).bind fun process =>
        if process.phase.finished then none
        else some (world.goOn world.desk slot process .failed)
  | .sweep purpose cutoff limit doomed =>
      if SingleUse.selectsSpent (world.desk.tokens purpose) cutoff limit doomed then
        some { world with desk := world.desk.sweep purpose cutoff doomed }
      else none

end Requests

end Commerce.Users.Recovery
