import Commerce.Users.Service

/-!
# Sessions and epochs across statements

A transaction never lowers an epoch, and a token stays with its user and its
session.  A session is opened once, by a login.
-/

set_option autoImplicit false

namespace Commerce.Users.Service

open Tables
open Results
open Users

/-! ## Users -/

theorem findUser_update (accounts : Accounts) (target : Nat) (change : User → User)
    (keeps : ∀ user, user.id = target → (change user).id = target) (userId : Nat) :
    ({ accounts with users := update (·.id) target change accounts.users } : Accounts).findUser
        userId =
      (accounts.findUser userId).map fun user =>
        if user.id = target then change user else user := by
  simp only [Accounts.findUser, update]
  induction accounts.users with
  | nil => rfl
  | cons user rest ih =>
      have same : (if user.id = target then change user else user).id = user.id := by
        split
        · rename_i here
          exact (keeps user here).trans here.symm
        · rfl
      rw [List.map_cons, List.find?_cons, List.find?_cons, same]
      cases user.id == userId with
      | true => rfl
      | false => exact ih

/-- Every user stays, at an epoch at least the old one. -/
def Grows (accounts next : Accounts) : Prop :=
  ∀ userId user, accounts.findUser userId = some user →
    ∃ later, next.findUser userId = some later ∧ user.tokenEpoch ≤ later.tokenEpoch

theorem grows_of_users (accounts next : Accounts) (same : next.users = accounts.users) :
    Grows accounts next := by
  intro userId user found
  refine ⟨user, ?_, Int.le_refl _⟩
  rw [Accounts.findUser, same]
  exact found

def AtMost (accounts : Accounts) (userId : Nat) (epoch : Int) : Prop :=
  ∃ user, accounts.findUser userId = some user ∧ epoch ≤ user.tokenEpoch

theorem AtMost.grows {accounts next : Accounts} {userId : Nat} {epoch : Int}
    (below : AtMost accounts userId epoch) (grows : Grows accounts next) :
    AtMost next userId epoch := by
  obtain ⟨user, found, atMost⟩ := below
  obtain ⟨later, still, raised⟩ := grows userId user found
  exact ⟨later, still, by omega⟩

theorem atMost_currentEpoch (accounts : Accounts) (userId : Nat) (epoch : Int)
    (current : currentEpoch accounts userId = some epoch) : AtMost accounts userId epoch := by
  obtain ⟨user, found, rfl⟩ := Option.map_eq_some_iff.mp current
  exact ⟨user, found, Int.le_refl _⟩

theorem findUser_bump (accounts : Accounts) (target userId : Nat) :
    ({ accounts with users := bumpUsers accounts.users target } : Accounts).findUser userId =
      (accounts.findUser userId).map fun user =>
        if user.id = target then { user with tokenEpoch := user.tokenEpoch + 1 } else user :=
  findUser_update accounts target (fun user => { user with tokenEpoch := user.tokenEpoch + 1 })
    (fun _ same => same) userId

theorem grows_bump (accounts : Accounts) (target : Nat) :
    Grows accounts { accounts with users := bumpUsers accounts.users target } := by
  intro userId user found
  rw [findUser_bump, found]
  refine ⟨_, rfl, ?_⟩
  dsimp only
  split
  · show user.tokenEpoch ≤ user.tokenEpoch + 1
    omega
  · exact Int.le_refl _

theorem findUser_id (accounts : Accounts) (userId : Nat) (user : User)
    (found : accounts.findUser userId = some user) : user.id = userId := by
  simpa using List.find?_some found

theorem grows_append (accounts : Accounts) (user : User) :
    Grows accounts { accounts with users := accounts.users ++ [user] } := by
  intro userId old found
  refine ⟨old, ?_, Int.le_refl _⟩
  simp only [Accounts.findUser, List.find?_append]
  rw [show accounts.users.find? (fun user => user.id == userId) = some old from found]
  rfl

/-! ## Transactions -/

/-- The tokens still belong to users and sessions that had one. -/
def KeepsOwners (rows next : List RefreshToken) : Prop :=
  ∀ row ∈ next, ∃ old ∈ rows, old.userId = row.userId ∧ old.familyId = row.familyId

theorem keepsOwners_map (rows : List RefreshToken) (change : RefreshToken → RefreshToken)
    (keeps : ∀ row, (change row).userId = row.userId ∧ (change row).familyId = row.familyId) :
    KeepsOwners rows (rows.map change) := by
  intro row member
  obtain ⟨old, listed, rfl⟩ := List.mem_map.mp member
  exact ⟨old, listed, (keeps old).1.symm, (keeps old).2.symm⟩

theorem keepsOwners_refl (rows : List RefreshToken) : KeepsOwners rows rows :=
  fun row member => ⟨row, member, rfl, rfl⟩

theorem keepsOwners_revokeWhere (accounts : Accounts) (chosen : RefreshToken → Bool) (now : Int) :
    KeepsOwners accounts.refreshTokens (accounts.revokeWhere chosen now).refreshTokens := by
  refine keepsOwners_map accounts.refreshTokens _ fun row => ?_
  split <;> exact ⟨rfl, rfl⟩

structure RotateFrame (accounts next : Accounts) : Prop where
  users : next.users = accounts.users
  owners : KeepsOwners accounts.refreshTokens next.refreshTokens

theorem replaceToken_frame (accounts next : Accounts) (record : RefreshToken)
    (input : RotateRefreshTokenInput) (successorId : Nat) (now : Int) (outcome : RotateOutcome)
    (listed : record ∈ accounts.refreshTokens)
    (success : replaceToken accounts record input successorId now = .ok (outcome, next)) :
    RotateFrame accounts next ∧
      ∃ owner, accounts.findUser record.userId = some owner ∧
        outcome = .rotated record.userId owner.role owner.tokenEpoch := by
  unfold replaceToken at success
  split at success
  · cases success
  · rename_i owner found
    obtain ⟨inserted, insert, same⟩ := (bind_eq_ok _ _ _).mp success
    cases same
    cases insertToken_ok accounts inserted _ insert
    refine ⟨⟨rfl, ?_⟩, owner, found, rfl⟩
    intro row member
    obtain ⟨before, beforeListed, rfl⟩ := List.mem_map.mp member
    have source : ∃ old ∈ accounts.refreshTokens,
        old.userId = before.userId ∧ old.familyId = before.familyId := by
      rcases List.mem_append.mp beforeListed with old | new
      · exact ⟨before, old, rfl, rfl⟩
      · cases List.mem_singleton.mp new
        exact ⟨record, listed, rfl, rfl⟩
    split
    · exact source
    · exact source

/-- What the answer of a rotation says about the token that was presented. -/
def RotateAnswer (accounts : Accounts) (input : RotateRefreshTokenInput) : RotateOutcome → Prop
  | .rotated userId role tokenEpoch =>
      ∃ record owner, accounts.findToken input.presentedTokenHash = some record ∧ record.Live ∧
        record.userId = userId ∧ accounts.findUser userId = some owner ∧
        owner.role = role ∧ owner.tokenEpoch = tokenEpoch
  | .reuse userId familyId _ =>
      ∃ record, accounts.findToken input.presentedTokenHash = some record ∧
        record.userId = userId ∧ record.familyId = familyId
  | .invalid => True
  | .replayed => True

theorem rotate_frame (accounts next : Accounts) (input : RotateRefreshTokenInput)
    (clock : RotateClock) (outcome : RotateOutcome)
    (success : rotate accounts input clock = .ok (outcome, next)) :
    RotateFrame accounts next ∧ RotateAnswer accounts input outcome := by
  have unchanged : RotateFrame accounts accounts := ⟨rfl, keepsOwners_refl _⟩
  unfold rotate at success
  split at success
  · cases success
    exact ⟨unchanged, trivial⟩
  · rename_i record found
    have listed := (findToken_some accounts _ record found).1
    split_ifs at success with other grace retired expired
    · cases success
      exact ⟨unchanged, trivial⟩
    · cases success
      exact ⟨unchanged, trivial⟩
    · cases success
      exact ⟨⟨rfl, keepsOwners_revokeWhere accounts _ _⟩, record, found, rfl, rfl⟩
    · cases success
      refine ⟨⟨rfl, keepsOwners_map accounts.refreshTokens _ fun row => ?_⟩, trivial⟩
      split <;> exact ⟨rfl, rfl⟩
    · split at success
      · cases success
        exact ⟨unchanged, trivial⟩
      · obtain ⟨frame, owner, owned, rfl⟩ :=
          replaceToken_frame accounts next record input _ _ outcome listed success
        have live : record.Live := by simpa [RefreshToken.Live, not_or] using retired
        exact ⟨frame, record, owner, found, live, rfl, owned, rfl, rfl⟩

theorem create_frame (accounts next : Accounts) (input : CreateRefreshTokenInput) (id : Nat)
    (outcome : CreateRefreshTokenOutcome)
    (success : create accounts input id = .ok (outcome, next)) :
    next.users = accounts.users ∧
      (KeepsOwners accounts.refreshTokens next.refreshTokens ∧ outcome = .credentialsChanged ∨
        ∃ owner row, accounts.findUser input.userId = some owner ∧
          owner.passwordHash = input.verifiedPasswordHash ∧
          outcome = .created owner.role owner.tokenEpoch ∧ row.userId = input.userId ∧
          row.familyId = input.familyId ∧
          next.refreshTokens = accounts.refreshTokens ++ [row]) := by
  unfold create at success
  split at success
  · cases success
    exact ⟨rfl, .inl ⟨keepsOwners_refl _, rfl⟩⟩
  · rename_i owner found
    split_ifs at success with changed
    · cases success
      exact ⟨rfl, .inl ⟨keepsOwners_refl _, rfl⟩⟩
    · obtain ⟨inserted, insert, same⟩ := (bind_eq_ok _ _ _).mp success
      cases same
      cases insertToken_ok accounts _ _ insert
      exact ⟨rfl, .inr ⟨owner, _, found, not_not.mp changed, rfl, rfl, rfl, rfl⟩⟩

theorem revokeAllForUser_cases (accounts : Accounts) (userId : Nat)
    (replacement : Option PasswordReplacement) (now : Int) :
    revokeAllForUser accounts userId replacement now = (none, accounts) ∨
      ∃ user written, accounts.findUser userId = some user ∧ written.id = userId ∧
        written.tokenEpoch = user.tokenEpoch + 1 ∧
        written.passwordHash = (replacement.map (·.newPasswordHash)).getD user.passwordHash ∧
        revokeAllForUser accounts userId replacement now =
          (some written.tokenEpoch,
            { accounts with
              users := update (·.id) userId (fun _ => written) accounts.users }.revokeWhere
                (fun row => row.userId == userId) now) := by
  unfold revokeAllForUser
  split
  · exact .inl rfl
  · rename_i user found
    dsimp only
    split
    · let written : User := { user with
        tokenEpoch := user.tokenEpoch + 1
        passwordHash := (replacement.map (·.newPasswordHash)).getD user.passwordHash }
      exact .inr ⟨user, written, found, findUser_id accounts userId user found, rfl, rfl, rfl⟩
    · exact .inl rfl

theorem findUser_written (accounts : Accounts) (userId : Nat) (written : User)
    (same : written.id = userId) (other : Nat) :
    ({ accounts with users := update (·.id) userId (fun _ => written) accounts.users } :
        Accounts).findUser other =
      (accounts.findUser other).map fun user => if user.id = userId then written else user :=
  findUser_update accounts userId _ (fun _ _ => same) other

/-- Only a statement of its own writes users any other way. -/
def Transacts (request : Request) : Prop := ∀ users, request ≠ .writeUsers users

theorem perform_grows (accounts : Accounts) (request : Request) (transacts : Transacts request) :
    Grows accounts (perform accounts request).2 := by
  cases request with
  | create input id =>
      simp only [perform]
      split
      · rename_i outcome next success
        exact grows_of_users _ _ (create_frame accounts next input id outcome success).1
      · exact grows_of_users _ _ rfl
  | rotate input clock =>
      simp only [perform]
      split
      · rename_i outcome next success
        exact grows_of_users _ _ (rotate_frame accounts next input clock outcome success).1.users
      · exact grows_of_users _ _ rfl
  | revokeAllForUser userId replacement now =>
      simp only [perform]
      rcases revokeAllForUser_cases accounts userId replacement now with
        same | ⟨user, written, found, id, epoch, -, same⟩
      · rw [same]
        exact grows_of_users _ _ rfl
      · rw [same]
        intro other old known
        have after : (({ accounts with
            users := update (·.id) userId (fun _ => written) accounts.users } : Accounts).findUser
              other) = some (if old.id = userId then written else old) := by
          rw [findUser_written accounts userId written id, known]
          rfl
        refine ⟨_, after, ?_⟩
        split
        · rename_i itself
          have same : other = userId := (findUser_id accounts other old known).symm.trans itself
          subst same
          cases Option.some.inj (known.symm.trans found)
          omega
        · exact Int.le_refl _
  | revokeFamily userId familyId now => exact grows_of_users _ _ rfl
  | selectDoomed => exact grows_of_users _ _ rfl
  | deleteDoomed => exact grows_of_users _ _ rfl
  | writeUsers users => exact absurd rfl (transacts users)

/-- Every token is of a session that had one, or of the session just opened. -/
theorem perform_owners (accounts : Accounts) (request : Request) :
    ∀ row ∈ (perform accounts request).2.refreshTokens,
      (∃ old ∈ accounts.refreshTokens, old.userId = row.userId ∧ old.familyId = row.familyId) ∨
        (row.userId, row.familyId) ∈ openedBy request (perform accounts request).1 := by
  have keeps : ∀ next : List RefreshToken, KeepsOwners accounts.refreshTokens next →
      ∀ row ∈ next, (∃ old ∈ accounts.refreshTokens,
          old.userId = row.userId ∧ old.familyId = row.familyId) ∨
        (row.userId, row.familyId) ∈ openedBy request (perform accounts request).1 :=
    fun next owners row member => .inl (owners row member)
  cases request with
  | create input id =>
      simp only [perform] at keeps ⊢
      split
      · rename_i outcome next success
        rcases (create_frame accounts next input id outcome success).2 with
          ⟨owners, -⟩ | ⟨owner, row, -, -, rfl, user, family, rows⟩
        · rw [success] at keeps
          exact keeps _ owners
        · intro found member
          rw [rows] at member
          rcases List.mem_append.mp member with old | new
          · exact .inl ⟨found, old, rfl, rfl⟩
          · cases List.mem_singleton.mp new
            rw [user, family]
            exact .inr (.head _)
      · rename_i error failure
        rw [failure] at keeps
        exact keeps _ (keepsOwners_refl _)
  | rotate input clock =>
      simp only [perform] at keeps ⊢
      split
      · rename_i outcome next success
        rw [success] at keeps
        exact keeps _ (rotate_frame accounts next input clock outcome success).1.owners
      · rename_i error failure
        rw [failure] at keeps
        exact keeps _ (keepsOwners_refl _)
  | revokeAllForUser userId replacement now =>
      refine keeps _ ?_
      simp only [perform]
      rcases revokeAllForUser_cases accounts userId replacement now with
        same | ⟨user, written, -, -, -, -, same⟩
      · rw [same]
        exact keepsOwners_refl _
      · rw [same]
        exact keepsOwners_revokeWhere _ _ _
  | revokeFamily userId familyId now => exact keeps _ (keepsOwners_revokeWhere accounts _ _)
  | selectDoomed => exact keeps _ (keepsOwners_refl _)
  | deleteDoomed doomed =>
      exact keeps _ fun row member => ⟨row, List.mem_of_mem_filter member, rfl, rfl⟩
  | writeUsers => exact keeps _ (keepsOwners_refl _)

end Commerce.Users.Service
