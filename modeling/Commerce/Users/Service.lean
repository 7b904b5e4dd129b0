import Commerce.Users.Families
import Mathlib.Logic.Function.Basic

/-!
# The user service

Logins, refreshes, revocations, password changes and token verifications over
the accounts and the published session epochs.  A transaction that holds the
user's lock is one statement; everything around it, the bump of the epoch, its
publish and the signing of a token included, is a statement of its own.

The published epochs are never lost.  A new password hash is salted, so it
differs from every hash before it.
-/

set_option autoImplicit false

namespace Commerce.Users.Service

open Tables
open Users (Request Sessions perform)

/-! ## Access tokens and epochs -/

/-- The claims of an access token, with the session it was issued to. -/
structure AccessToken where
  sub : Nat
  role : Role
  epoch : Int
  familyId : Nat
  deriving DecidableEq, Repr

/-- `RAISE_EPOCH`: what is published once `proposed` is. -/
def raiseEpoch (current : Option Int) (proposed : Int) : Int :=
  match current with
  | some epoch => if epoch ≥ proposed then epoch else proposed
  | none => proposed

/-- The verifier's last check. -/
def accepts (token : AccessToken) (currentEpoch : Int) : Bool := !(token.epoch < currentEpoch)

def currentEpoch (accounts : Accounts) (userId : Nat) : Option Int :=
  (accounts.findUser userId).map (·.tokenEpoch)

def bumpUsers (users : List User) (userId : Nat) : List User :=
  update (·.id) userId (fun user => { user with tokenEpoch := user.tokenEpoch + 1 }) users

/-- Which epoch a verifier reads: the user service the stored one, every other service the
published one. -/
inductive EpochReader where
  | stored
  | published
  deriving DecidableEq, Repr

/-! ## Requests -/

inductive Operation where
  | login (userId : Nat)
  | refresh (tokenHash : String)
  | logout (tokenHash : String)
  | logoutAll (userId : Nat)
  | changePassword (userId : Nat)
  | resetPassword (userId : Nat)
  | register (userId : Nat) (role : Role)
  | fillEpoch (userId : Nat)
  | reconcile
  | verify (reader : EpochReader) (token : AccessToken)
  | collect (expiredBefore revokedBefore : Int) (limit : Nat)
  deriving DecidableEq, Repr

inductive Phase where
  | readingUser
  | consumingToken
  | creatingUser
  | storing (user : User)
  | findingOwner
  | rotating (owner : RefreshTokenOwner)
  | signing (token : AccessToken)
  | bumping (userId : Nat)
  | revoking (userId : Nat) (replacement : Option PasswordReplacement)
  | revokingFamily (userId familyId : Nat)
  | readingEpoch (userId : Nat)
  | publishing (userId : Nat) (epoch : Int)
  | readingChanges
  | reconciling (changes : List (Nat × Int))
  | checkingToken
  | lookingUp
  | selecting
  | collecting (doomed : List Nat)
  | succeeded
  | refused
  /-- The request died or answered an error of the server. -/
  | failed
  deriving DecidableEq, Repr

def Phase.finished : Phase → Bool
  | .succeeded | .refused | .failed => true
  | _ => false

def Operation.first : Operation → Phase
  | .login _ | .changePassword _ => .readingUser
  | .refresh _ | .logout _ => .findingOwner
  | .logoutAll userId => .revoking userId none
  | .resetPassword _ => .consumingToken
  | .register .. => .creatingUser
  | .fillEpoch userId => .readingEpoch userId
  | .reconcile => .readingChanges
  | .verify .. => .checkingToken
  | .collect .. => .selecting

def Operation.published : Operation → Int → Phase
  | .verify _ token, current => if accepts token current then .succeeded else .refused
  | .refresh _, _ => .refused
  | _, _ => .succeeded

def Operation.unrevoked : Operation → Phase
  | .changePassword _ => .refused
  | _ => .succeeded

/-! ## The world -/

/-- A theft `rotate` detected: a replaced token came back while its family had a live one. -/
structure Detection where
  slot : Nat
  tokenHash : String
  userId : Nat
  familyId : Nat
  deriving DecidableEq, Repr

/-- A committed `revokeAllForUser`, with the sessions opened before it. -/
structure Revocation where
  slot : Nat
  userId : Nat
  epoch : Int
  families : List Nat
  replacedHash : Option String
  deriving DecidableEq, Repr

structure Process where
  operation : Operation
  phase : Phase
  /-- The detections made before the request arrived. -/
  past : List Detection
  deriving DecidableEq, Repr

/-- The accounts, the published epochs and the requests, and a history of what was done. -/
structure World where
  sessions : Sessions
  published : Nat → Option Int
  requests : Nat → Option Process
  signed : List AccessToken
  hashes : List String
  opened : List (Nat × Nat)
  revocations : List Revocation
  detections : List Detection
  bumped : List Nat

def World.accounts (world : World) : Accounts := world.sessions.accounts

def start (users : List User) : World :=
  { sessions := opened users
    published := fun _ => none
    requests := fun _ => none
    signed := []
    hashes := users.map (·.passwordHash)
    opened := []
    revocations := []
    detections := []
    bumped := [] }

inductive Effect where
  | none
  | run (request : Request)
  | bump (userId : Nat)
  | create (user : User)
  | publish (userId : Nat) (epoch : Int)
  | sign (token : AccessToken)
  | hash (passwordHash : String)
  deriving DecidableEq, Repr

/-- What the surroundings put into one statement: minted ids, drawn tokens, salted hashes, the
clocks, the outcome of a check, and whether a publish was acknowledged. -/
structure Choice where
  passes : Bool
  acknowledged : Bool
  id : Nat
  familyId : Nat
  tokenHash : String
  passwordHash : String
  expiresAt : Int
  clock : RotateClock
  selected : List Nat
  deriving DecidableEq, Repr

def listChanges (accounts : Accounts) (selected : List Nat) : List (Nat × Int) :=
  selected.filterMap fun userId => (currentEpoch accounts userId).map fun epoch => (userId, epoch)

def familyOf (accounts : Accounts) (tokenHash : String) (owner : RefreshTokenOwner) : Nat :=
  ((accounts.findToken tokenHash).map (·.familyId)).getD owner.familyId

section Statements

variable (reuseGraceMs : Int)

def createRequest (user : User) (choice : Choice) : Request :=
  .create
    { userId := user.id
      tokenHash := choice.tokenHash
      familyId := choice.familyId
      expiresAt := choice.expiresAt
      verifiedPasswordHash := user.passwordHash } choice.id

def rotateRequest (tokenHash : String) (owner : RefreshTokenOwner) (choice : Choice) : Request :=
  .rotate
    { presentedTokenHash := tokenHash
      expectedUserId := owner.userId
      successorId := if owner.rotatable then some choice.id else none
      newTokenHash := choice.tokenHash
      newExpiresAt := choice.expiresAt
      reuseGraceMs } choice.clock

def stored (user : User) (familyId : Nat) : Users.Answer → Phase
  | .created (.created role epoch) => .signing ⟨user.id, role, epoch, familyId⟩
  | .created .credentialsChanged => .refused
  | _ => .failed

def rotated (familyId : Nat) : Users.Answer → Phase
  | .rotated (.rotated userId role epoch) => .signing ⟨userId, role, epoch, familyId⟩
  | .rotated (.reuse userId _ true) => .bumping userId
  | .rotated _ => .refused
  | _ => .failed

def revoked (operation : Operation) (userId : Nat) : Users.Answer → Phase
  | .revokedAll (some epoch) => .publishing userId epoch
  | .revokedAll none => operation.unrevoked
  | _ => .failed

/-- One statement of a request: what it writes, and how the request goes on. -/
def statement (world : World) (process : Process) (choice : Choice) : Option (Effect × Phase) :=
  let accounts := world.accounts
  match process.phase, process.operation with
  | .readingUser, .login userId =>
      match accounts.findUser userId with
      | some user => some (.none, if choice.passes then .storing user else .refused)
      | none => some (.none, .refused)
  | .readingUser, .changePassword userId =>
      match accounts.findUser userId with
      | some user =>
          if choice.passes then
            some (.hash choice.passwordHash,
              .revoking user.id (some ⟨choice.passwordHash, some user.passwordHash⟩))
          else some (.none, .refused)
      | none => some (.none, .refused)
  | .consumingToken, .resetPassword userId =>
      if choice.passes then
        some (.hash choice.passwordHash, .revoking userId (some ⟨choice.passwordHash, none⟩))
      else some (.none, .refused)
  | .creatingUser, .register userId role =>
      if choice.passes ∧ accounts.findUser userId = none then
        some (.create ⟨userId, choice.passwordHash, role, 0⟩, .publishing userId 0)
      else some (.none, .refused)
  | .storing user, _ =>
      let request := createRequest user choice
      some (.run request, stored user choice.familyId (perform accounts request).1)
  | .findingOwner, .refresh tokenHash =>
      match findOwner accounts tokenHash choice.clock.atGrace with
      | some owner => some (.none, .rotating owner)
      | none => some (.none, .refused)
  | .findingOwner, .logout tokenHash =>
      match findOwner accounts tokenHash choice.clock.atGrace with
      | some owner => some (.none, .revokingFamily owner.userId owner.familyId)
      | none => some (.none, .succeeded)
  | .rotating owner, .refresh tokenHash =>
      let request := rotateRequest reuseGraceMs tokenHash owner choice
      some (.run request,
        rotated (familyOf accounts tokenHash owner) (perform accounts request).1)
  | .signing token, _ => some (.sign token, .succeeded)
  | .bumping userId, _ =>
      match currentEpoch accounts userId with
      | some epoch => some (.bump userId, .publishing userId (epoch + 1))
      | none => some (.none, .refused)
  | .revoking userId replacement, operation =>
      let request := .revokeAllForUser userId replacement choice.clock.atRevoke
      some (.run request, revoked operation userId (perform accounts request).1)
  | .revokingFamily userId familyId, _ =>
      some (.run (.revokeFamily userId familyId choice.clock.atRevoke), .succeeded)
  | .readingEpoch userId, _ =>
      match currentEpoch accounts userId with
      | some epoch => some (.none, .publishing userId epoch)
      | none => some (.none, .refused)
  | .publishing userId epoch, operation =>
      some (.publish userId epoch,
        if choice.acknowledged then
          operation.published (raiseEpoch (world.published userId) epoch)
        else .publishing userId epoch)
  | .readingChanges, _ => some (.none, .reconciling (listChanges accounts choice.selected))
  | .reconciling ((userId, epoch) :: changes), _ =>
      some (.publish userId epoch,
        if choice.acknowledged then .reconciling changes
        else .reconciling ((userId, epoch) :: changes))
  | .reconciling [], _ => some (.none, if choice.passes then .readingChanges else .succeeded)
  | .checkingToken, .verify _ token =>
      some (.none, if choice.passes ∧ token ∈ world.signed then .lookingUp else .refused)
  | .lookingUp, .verify .stored token =>
      match currentEpoch accounts token.sub with
      | some current => some (.none, if accepts token current then .succeeded else .refused)
      | none => some (.none, .refused)
  | .lookingUp, .verify .published token =>
      match world.published token.sub with
      | some current => some (.none, if accepts token current then .succeeded else .refused)
      | none => some (.none, .readingEpoch token.sub)
  | .selecting, .collect expiredBefore revokedBefore limit =>
      some (.run (.selectDoomed expiredBefore revokedBefore limit choice.selected),
        .collecting choice.selected)
  | .collecting doomed, _ => some (.run (.deleteDoomed doomed), .succeeded)
  | _, _ => none

/-! ## Any number of requests -/

inductive Event where
  | arrive (slot : Nat) (operation : Operation)
  | turn (slot : Nat) (choice : Choice)
  | fail (slot : Nat)
  deriving DecidableEq, Repr

def openedBy : Request → Users.Answer → List (Nat × Nat)
  | .create input _, .created (.created ..) => [(input.userId, input.familyId)]
  | _, _ => []

def revokedBy (world : World) (slot : Nat) : Request → Users.Answer → List Revocation
  | .revokeAllForUser userId replacement _, .revokedAll (some epoch) =>
      [{ slot, userId, epoch
         families := (world.opened.filter fun pair => pair.1 == userId).map (·.2)
         replacedHash := replacement.bind fun _ =>
           (world.accounts.findUser userId).map (·.passwordHash) }]
  | _, _ => []

def detectedBy (accounts : Accounts) (slot : Nat) : Request → Users.Answer → List Detection
  | .rotate input _, .rotated (.reuse userId familyId true) =>
      if (accounts.findToken input.presentedTokenHash).any (·.replacedByTokenId.isSome) then
        [⟨slot, input.presentedTokenHash, userId, familyId⟩]
      else []
  | _, _ => []

def World.run (world : World) (slot : Nat) (request : Request) : Option World :=
  (Users.step world.sessions request).map fun sessions =>
    let answer := (perform world.accounts request).1
    { world with
      sessions
      opened := openedBy request answer ++ world.opened
      revocations := revokedBy world slot request answer ++ world.revocations
      detections := detectedBy world.accounts slot request answer ++ world.detections }

def World.writeUsers (world : World) (users : List User) : World :=
  { world with sessions.accounts.users := users }

def World.apply (world : World) (slot : Nat) : Effect → Option World
  | .none => some world
  | .run request => world.run slot request
  | .bump userId =>
      some { world.writeUsers (bumpUsers world.accounts.users userId) with
        bumped := slot :: world.bumped }
  | .create user =>
      if user.passwordHash ∈ world.hashes then none
      else some { world.writeUsers (world.accounts.users ++ [user]) with
        hashes := user.passwordHash :: world.hashes }
  | .publish userId epoch =>
      some { world with
        published := Function.update world.published userId
          (some (raiseEpoch (world.published userId) epoch)) }
  | .sign token => some { world with signed := token :: world.signed }
  | .hash passwordHash =>
      if passwordHash ∈ world.hashes then none
      else some { world with hashes := passwordHash :: world.hashes }

def World.goOn (world : World) (slot : Nat) (process : Process) (phase : Phase) : World :=
  { world with
    requests := Function.update world.requests slot (some { process with phase := phase }) }

def step (world : World) : Event → Option World
  | .arrive slot operation =>
      if world.requests slot = none then
        some (world.goOn slot ⟨operation, operation.first, world.detections⟩ operation.first)
      else none
  | .turn slot choice => do
      let process ← world.requests slot
      let (effect, phase) ← statement reuseGraceMs world process choice
      let next ← world.apply slot effect
      pure (next.goOn slot process phase)
  | .fail slot => do
      let process ← world.requests slot
      if process.phase.finished then none else pure (world.goOn slot process .failed)

end Statements

end Commerce.Users.Service
