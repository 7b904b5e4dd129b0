import Commerce.Lib.Runs
import Commerce.Users.RefreshTokens

/-!
# Token families

A family has one live token at a time and a token is rotated once.  What was
revoked stays dead, also when the rows that prove it have been collected: a
dead family has no live token a successor could come from.

Logins and refreshes mint their ids and draw their tokens before they write, so
an id, a family or a hash that was handed out is not handed out again.
-/

set_option autoImplicit false

namespace Commerce.Users

open Tables
open Results
open Runs

/-! ## The system -/

structure Issued where
  ids : List Nat
  families : List Nat
  hashes : List String
  deriving DecidableEq, Repr

structure Sessions where
  accounts : Accounts
  doomed : List (List Nat)
  issued : Issued
  deriving DecidableEq, Repr

inductive Request where
  | create (input : CreateRefreshTokenInput) (id : Nat)
  | rotate (input : RotateRefreshTokenInput) (clock : RotateClock)
  | revokeAllForUser (userId : Nat) (replacement : Option PasswordReplacement) (now : Int)
  | revokeFamily (userId familyId : Nat) (now : Int)
  | selectDoomed (expiredBefore revokedBefore : Int) (limit : Nat) (doomed : List Nat)
  | deleteDoomed (doomed : List Nat)
  | writeUsers (users : List User)
  deriving DecidableEq, Repr

inductive Answer where
  | created (outcome : CreateRefreshTokenOutcome)
  | rotated (outcome : RotateOutcome)
  | revokedAll (epoch : Option Int)
  | revokedFamily (any : Bool)
  | done
  | failed (error : AccountsError)
  deriving DecidableEq, Repr

/-- The collection reads without the user lock and deletes later what it read. -/
def perform (accounts : Accounts) : Request → Answer × Accounts
  | .create input id =>
      match create accounts input id with
      | .ok (outcome, next) => (.created outcome, next)
      | .error error => (.failed error, accounts)
  | .rotate input clock =>
      match rotate accounts input clock with
      | .ok (outcome, next) => (.rotated outcome, next)
      | .error error => (.failed error, accounts)
  | .revokeAllForUser userId replacement now =>
      let (epoch, next) := revokeAllForUser accounts userId replacement now
      (.revokedAll epoch, next)
  | .revokeFamily userId familyId now =>
      let (any, next) := revokeFamily accounts userId familyId now
      (.revokedFamily any, next)
  | .selectDoomed .. => (.done, accounts)
  | .deleteDoomed doomed => (.done, deleteDoomed accounts doomed)
  | .writeUsers users => (.done, { accounts with users := users })

/-- What the caller minted and drew is new. -/
def admits (sessions : Sessions) : Request → Bool
  | .create input id =>
      !sessions.issued.ids.contains id && !sessions.issued.families.contains input.familyId &&
        !sessions.issued.hashes.contains input.tokenHash
  | .rotate input _ =>
      input.successorId.all (fun id => !sessions.issued.ids.contains id) &&
        !sessions.issued.hashes.contains input.newTokenHash
  | .selectDoomed expiredBefore revokedBefore limit doomed =>
      selectsDoomed sessions.accounts expiredBefore revokedBefore limit doomed
  | .deleteDoomed doomed => sessions.doomed.contains doomed
  | _ => true

def issue (issued : Issued) : Request → Issued
  | .create input id =>
      ⟨id :: issued.ids, input.familyId :: issued.families, input.tokenHash :: issued.hashes⟩
  | .rotate input _ =>
      { issued with
        ids := input.successorId.toList ++ issued.ids
        hashes := input.newTokenHash :: issued.hashes }
  | _ => issued

def selectedDoomed : Request → List (List Nat)
  | .selectDoomed _ _ _ doomed => [doomed]
  | _ => []

def step (sessions : Sessions) (request : Request) : Option Sessions :=
  if admits sessions request then
    some
      { accounts := (perform sessions.accounts request).2
        doomed := selectedDoomed request ++ sessions.doomed
        issued := issue sessions.issued request }
  else none

def opened (users : List User) : Sessions := ⟨⟨users, []⟩, [], ⟨[], [], []⟩⟩

def RefreshToken.Live (row : RefreshToken) : Prop :=
  row.revokedAt = none ∧ row.replacedByTokenId = none

/-! ## What a request does to the tokens -/

structure Issued.Knows (issued : Issued) (row : RefreshToken) : Prop where
  id : row.id ∈ issued.ids
  hash : row.tokenHash ∈ issued.hashes
  family : row.familyId ∈ issued.families

/-- Every way a request may change the tokens, between what was handed out before it and
after it. -/
inductive Change (issued issued' : Issued) (rows : List RefreshToken) :
    List RefreshToken → Prop where
  | kept : Change issued issued' rows rows
  | revoked (chosen : RefreshToken → Prop) [DecidablePred chosen] (now : Int) :
      Change issued issued' rows
        (rows.map fun row => if chosen row then { row with revokedAt := some now } else row)
  | collected (kept : RefreshToken → Bool) : Change issued issued' rows (rows.filter kept)
  | opened (row : RefreshToken) (freshId : row.id ∉ issued.ids)
      (freshHash : row.tokenHash ∉ issued.hashes) (freshFamily : row.familyId ∉ issued.families)
      (recorded : issued'.Knows row) (unreplaced : row.replacedByTokenId = none) :
      Change issued issued' rows (rows ++ [row])
  | replaced (record successor : RefreshToken) (now : Int) (listed : record ∈ rows)
      (live : record.Live) (freshId : successor.id ∉ issued.ids)
      (freshHash : successor.tokenHash ∉ issued.hashes)
      (sameFamily : successor.familyId = record.familyId)
      (recordedId : successor.id ∈ issued'.ids)
        (recordedHash : successor.tokenHash ∈ issued'.hashes)
      (unreplaced : successor.replacedByTokenId = none) :
      Change issued issued' rows
        (update (·.id) record.id
          (fun row => { row with revokedAt := some now, replacedByTokenId := some successor.id })
          (rows ++ [successor]))

theorem findToken_some (accounts : Accounts) (tokenHash : String) (record : RefreshToken)
    (found : accounts.findToken tokenHash = some record) :
    record ∈ accounts.refreshTokens ∧ record.tokenHash = tokenHash :=
  ⟨List.mem_of_find?_eq_some found, by simpa using List.find?_some found⟩

theorem insertToken_ok (accounts next : Accounts) (row : RefreshToken)
    (success : accounts.insertToken row = .ok next) :
    next = { accounts with refreshTokens := accounts.refreshTokens ++ [row] } := by
  unfold Accounts.insertToken at success
  split_ifs at success
  cases success
  rfl

theorem create_change (accounts next : Accounts) (input : CreateRefreshTokenInput) (id : Nat)
    (outcome : CreateRefreshTokenOutcome) (issued : Issued) (freshId : id ∉ issued.ids)
    (freshHash : input.tokenHash ∉ issued.hashes) (freshFamily : input.familyId ∉ issued.families)
    (success : create accounts input id = .ok (outcome, next)) :
    Change issued (issue issued (.create input id)) accounts.refreshTokens next.refreshTokens := by
  unfold create at success
  split at success
  · cases success
    exact .kept
  · split_ifs at success
    · cases success
      exact .kept
    · obtain ⟨inserted, insert, same⟩ := (bind_eq_ok _ _ _).mp success
      cases same
      rw [insertToken_ok accounts next _ insert]
      exact .opened _ freshId freshHash freshFamily ⟨.head _, .head _, .head _⟩ rfl

theorem rotate_rotated (accounts next : Accounts) (input : RotateRefreshTokenInput)
    (clock : RotateClock) (userId : Nat) (role : Role) (tokenEpoch : Int)
    (success : rotate accounts input clock = .ok (.rotated userId role tokenEpoch, next)) :
    ∃ record successorId, accounts.findToken input.presentedTokenHash = some record ∧
      record.Live ∧ input.successorId = some successorId ∧
      next.refreshTokens = update (·.id) record.id
        (fun row =>
          { row with revokedAt := some clock.atRevoke, replacedByTokenId := some successorId })
        (accounts.refreshTokens ++
          [⟨successorId, record.userId, input.newTokenHash, record.familyId, none,
            input.newExpiresAt, none⟩]) := by
  unfold rotate at success
  split at success
  · cases success
  · rename_i record found
    split_ifs at success with other grace retired expired
    · cases success
    · cases success
    · cases success
    · cases success
    · have live : record.Live := by
        simpa [RefreshToken.Live, not_or] using retired
      split at success
      · cases success
      · rename_i successorId minted
        unfold replaceToken at success
        split at success
        · cases success
        · obtain ⟨inserted, insert, same⟩ := (bind_eq_ok _ _ _).mp success
          cases same
          rw [insertToken_ok accounts inserted _ insert]
          exact ⟨record, successorId, found, live, minted, rfl⟩

/-- Every other answer of a rotation at most revokes. -/
theorem rotate_refused (accounts next : Accounts) (input : RotateRefreshTokenInput)
    (clock : RotateClock) (outcome : RotateOutcome) (issued issued' : Issued)
    (refused : ∀ userId role tokenEpoch, outcome ≠ .rotated userId role tokenEpoch)
    (success : rotate accounts input clock = .ok (outcome, next)) :
    Change issued issued' accounts.refreshTokens next.refreshTokens := by
  unfold rotate at success
  split at success
  · cases success
    exact .kept
  · rename_i record found
    split_ifs at success with other grace retired expired
    · cases success
      exact .kept
    · cases success
      exact .kept
    · cases success
      exact .revoked (fun row => (row.familyId == record.familyId) = true ∧ row.revokedAt = none) _
    · cases success
      exact .revoked (fun row => row.id = record.id) _
    · split at success
      · cases success
        exact .kept
      · unfold replaceToken at success
        split at success
        · cases success
        · obtain ⟨inserted, insert, same⟩ := (bind_eq_ok _ _ _).mp success
          cases same
          exact absurd rfl (refused _ _ _)

theorem rotate_change (accounts next : Accounts) (input : RotateRefreshTokenInput)
    (clock : RotateClock) (outcome : RotateOutcome) (issued : Issued)
    (freshId : ∀ id, input.successorId = some id → id ∉ issued.ids)
    (freshHash : input.newTokenHash ∉ issued.hashes)
    (success : rotate accounts input clock = .ok (outcome, next)) :
    Change issued (issue issued (.rotate input clock)) accounts.refreshTokens
      next.refreshTokens := by
  cases outcome with
  | rotated userId role tokenEpoch =>
      obtain ⟨record, successorId, found, live, minted, rows⟩ :=
        rotate_rotated accounts next input clock userId role tokenEpoch success
      rw [rows]
      have listed := (findToken_some accounts _ record found).1
      exact .replaced record
        ⟨successorId, record.userId, input.newTokenHash, record.familyId, none,
          input.newExpiresAt, none⟩
        clock.atRevoke listed live (freshId successorId minted) freshHash rfl
        (by simp [issue, minted]) (.head _) rfl
  | invalid => exact rotate_refused accounts next input clock _ issued _ (by simp) success
  | reuse => exact rotate_refused accounts next input clock _ issued _ (by simp) success
  | replayed => exact rotate_refused accounts next input clock _ issued _ (by simp) success

theorem revokeWhere_change (accounts : Accounts) (chosen : RefreshToken → Bool) (now : Int)
    (issued issued' : Issued) :
    Change issued issued' accounts.refreshTokens (accounts.revokeWhere chosen now).refreshTokens :=
  .revoked (fun row => chosen row = true ∧ row.revokedAt = none) now

theorem step_change (sessions : Sessions) (request : Request) (next : Sessions)
    (stepped : step sessions request = some next) :
    Change sessions.issued next.issued sessions.accounts.refreshTokens
      next.accounts.refreshTokens := by
  unfold step at stepped
  split_ifs at stepped with admitted
  cases stepped
  cases request with
  | create input id =>
      simp only [admits, Bool.and_eq_true, Bool.not_eq_true', List.contains_eq_mem,
        decide_eq_false_iff_not] at admitted
      obtain ⟨⟨freshId, freshFamily⟩, freshHash⟩ := admitted
      simp only [perform]
      split
      · rename_i outcome next success
        exact create_change _ next input id outcome _ freshId freshHash freshFamily success
      · exact .kept
  | rotate input clock =>
      simp only [admits, Bool.and_eq_true, Bool.not_eq_true', List.contains_eq_mem,
        decide_eq_false_iff_not] at admitted
      obtain ⟨freshId, freshHash⟩ := admitted
      simp only [perform]
      split
      · rename_i outcome next success
        refine rotate_change _ next input clock outcome _ (fun id minted => ?_) freshHash success
        simpa [minted] using freshId
      · exact .kept
  | revokeAllForUser userId replacement now =>
      simp only [perform, revokeAllForUser]
      split
      · exact .kept
      · split
        · exact revokeWhere_change _ _ now _ _
        · exact .kept
  | revokeFamily userId familyId now => exact revokeWhere_change _ _ now _ _
  | selectDoomed => exact .kept
  | deleteDoomed doomed => exact .collected _
  | writeUsers users => exact .kept

/-! ## The invariant -/

/-- The tokens are keyed by id and by hash, were all handed out, and a replaced token is also
revoked; no family has two live ones. -/
structure Families (issued : Issued) (rows : List RefreshToken) : Prop where
  ids : (rows.map (·.id)).Nodup
  hashes : (rows.map (·.tokenHash)).Nodup
  known : ∀ row ∈ rows, issued.Knows row
  stamped : ∀ row ∈ rows, row.replacedByTokenId ≠ none → row.revokedAt ≠ none
  single : ∀ one ∈ rows, ∀ other ∈ rows, one.familyId = other.familyId → one.Live → other.Live →
    one = other

structure Issued.Within (issued issued' : Issued) : Prop where
  ids : issued.ids ⊆ issued'.ids
  families : issued.families ⊆ issued'.families
  hashes : issued.hashes ⊆ issued'.hashes

theorem knows_within (issued issued' : Issued) (row : RefreshToken)
    (within : issued.Within issued') (knows : issued.Knows row) : issued'.Knows row :=
  ⟨within.ids knows.id, within.hashes knows.hash, within.families knows.family⟩

theorem issue_within (issued : Issued) (request : Request) :
    issued.Within (issue issued request) := by
  cases request with
  | create =>
      exact ⟨List.subset_cons_self .., List.subset_cons_self .., List.subset_cons_self ..⟩
  | rotate =>
      exact ⟨List.subset_append_right .., List.Subset.refl _, List.subset_cons_self ..⟩
  | _ => exact ⟨List.Subset.refl _, List.Subset.refl _, List.Subset.refl _⟩

structure Retires (stamp : RefreshToken → RefreshToken) : Prop where
  id : ∀ row, (stamp row).id = row.id
  hash : ∀ row, (stamp row).tokenHash = row.tokenHash
  family : ∀ row, (stamp row).familyId = row.familyId
  revoked : ∀ row, (stamp row).revokedAt ≠ none

def retire (chosen : RefreshToken → Prop) [DecidablePred chosen]
    (stamp : RefreshToken → RefreshToken) (row : RefreshToken) : RefreshToken :=
  if chosen row then stamp row else row

section Retiring

variable (chosen : RefreshToken → Prop) [DecidablePred chosen]
variable (stamp : RefreshToken → RefreshToken) (retires : Retires stamp) (row : RefreshToken)
include retires

theorem retire_id : (retire chosen stamp row).id = row.id := by
  unfold retire
  split
  · exact retires.id row
  · rfl

theorem retire_hash : (retire chosen stamp row).tokenHash = row.tokenHash := by
  unfold retire
  split
  · exact retires.hash row
  · rfl

theorem retire_family : (retire chosen stamp row).familyId = row.familyId := by
  unfold retire
  split
  · exact retires.family row
  · rfl

/-- What is live afterwards was not touched. -/
theorem retire_unrevoked (unrevoked : (retire chosen stamp row).revokedAt = none) :
    ¬ chosen row ∧ retire chosen stamp row = row := by
  have spared : ¬ chosen row := by
    intro picked
    rw [retire, if_pos picked] at unrevoked
    exact retires.revoked row unrevoked
  exact ⟨spared, if_neg spared⟩

theorem families_retire (issued : Issued) (rows : List RefreshToken)
    (inv : Families issued rows) : Families issued (rows.map (retire chosen stamp)) := by
  refine ⟨?_, ?_, ?_, ?_, ?_⟩
  · have same : (rows.map (retire chosen stamp)).map (·.id) = rows.map (·.id) := by
      rw [List.map_map]
      exact List.map_congr_left fun row _ => retire_id chosen stamp retires row
    rw [same]
    exact inv.ids
  · have same : (rows.map (retire chosen stamp)).map (·.tokenHash) = rows.map (·.tokenHash) := by
      rw [List.map_map]
      exact List.map_congr_left fun row _ => retire_hash chosen stamp retires row
    rw [same]
    exact inv.hashes
  · intro row listed
    obtain ⟨before, member, rfl⟩ := List.mem_map.mp listed
    have knows := inv.known before member
    refine ⟨?_, ?_, ?_⟩
    · rw [retire_id chosen stamp retires]
      exact knows.id
    · rw [retire_hash chosen stamp retires]
      exact knows.hash
    · rw [retire_family chosen stamp retires]
      exact knows.family
  · intro row listed replaced unrevoked
    obtain ⟨before, member, rfl⟩ := List.mem_map.mp listed
    have same := (retire_unrevoked chosen stamp retires before unrevoked).2
    rw [same] at replaced unrevoked
    exact inv.stamped before member replaced unrevoked
  · intro one oneListed other otherListed family oneLive otherLive
    obtain ⟨first, firstMember, rfl⟩ := List.mem_map.mp oneListed
    obtain ⟨second, secondMember, rfl⟩ := List.mem_map.mp otherListed
    have sameFirst := (retire_unrevoked chosen stamp retires first oneLive.1).2
    have sameSecond := (retire_unrevoked chosen stamp retires second otherLive.1).2
    rw [sameFirst] at oneLive family ⊢
    rw [sameSecond] at otherLive family ⊢
    exact inv.single first firstMember second secondMember family oneLive otherLive

end Retiring

theorem families_collected (issued : Issued) (rows : List RefreshToken)
    (kept : RefreshToken → Bool) (inv : Families issued rows) :
    Families issued (rows.filter kept) := by
  have listed : ∀ row ∈ rows.filter kept, row ∈ rows := fun row member =>
    List.mem_of_mem_filter member
  refine ⟨?_, ?_, ?_, ?_, ?_⟩
  · exact inv.ids.sublist (List.filter_sublist.map _)
  · exact inv.hashes.sublist (List.filter_sublist.map _)
  · exact fun row member => inv.known row (listed row member)
  · exact fun row member => inv.stamped row (listed row member)
  · exact fun one oneListed other otherListed =>
      inv.single one (listed one oneListed) other (listed other otherListed)

theorem families_append (issued : Issued) (rows : List RefreshToken) (row : RefreshToken)
    (inv : Families issued rows) (freshId : ∀ other ∈ rows, other.id ≠ row.id)
    (freshHash : ∀ other ∈ rows, other.tokenHash ≠ row.tokenHash) (known : issued.Knows row)
    (unreplaced : row.replacedByTokenId = none)
    (alone : ∀ other ∈ rows, other.familyId = row.familyId → ¬ other.Live) :
    Families issued (rows ++ [row]) := by
  refine ⟨?_, ?_, ?_, ?_, ?_⟩
  · rw [List.map_append, List.nodup_append]
    refine ⟨inv.ids, List.nodup_singleton _, ?_⟩
    rintro id listed other member rfl
    obtain ⟨before, beforeListed, rfl⟩ := List.mem_map.mp listed
    exact freshId before beforeListed (by simpa using member)
  · rw [List.map_append, List.nodup_append]
    refine ⟨inv.hashes, List.nodup_singleton _, ?_⟩
    rintro hash listed other member rfl
    obtain ⟨before, beforeListed, rfl⟩ := List.mem_map.mp listed
    exact freshHash before beforeListed (by simpa using member)
  · intro other listed
    rcases List.mem_append.mp listed with before | last
    · exact inv.known other before
    · rw [List.mem_singleton.mp last]
      exact known
  · intro other listed replaced
    rcases List.mem_append.mp listed with before | last
    · exact inv.stamped other before replaced
    · rw [List.mem_singleton.mp last] at replaced
      exact absurd unreplaced replaced
  · intro one oneListed other otherListed family oneLive otherLive
    rcases List.mem_append.mp oneListed with oneBefore | oneLast <;>
      rcases List.mem_append.mp otherListed with otherBefore | otherLast
    · exact inv.single one oneBefore other otherBefore family oneLive otherLive
    · rw [List.mem_singleton.mp otherLast] at family
      exact absurd oneLive (alone one oneBefore family)
    · rw [List.mem_singleton.mp oneLast] at family
      exact absurd otherLive (alone other otherBefore family.symm)
    · rw [List.mem_singleton.mp oneLast, List.mem_singleton.mp otherLast]

def replaceStamp (now : Int) (successorId : Nat) (row : RefreshToken) : RefreshToken :=
  { row with revokedAt := some now, replacedByTokenId := some successorId }

theorem replaceStamp_retires (now : Int) (successorId : Nat) :
    Retires (replaceStamp now successorId) :=
  ⟨fun _ => rfl, fun _ => rfl, fun _ => rfl, fun _ => by simp [replaceStamp]⟩

/-- The successor is another row, so replacing a token is retiring it and adding the successor. -/
theorem replaced_rows (rows : List RefreshToken) (record successor : RefreshToken) (now : Int)
    (different : successor.id ≠ record.id) :
    update (·.id) record.id
        (fun row => { row with revokedAt := some now, replacedByTokenId := some successor.id })
        (rows ++ [successor]) =
      rows.map (retire (fun row => row.id = record.id) (replaceStamp now successor.id)) ++
        [successor] := by
  simp [update, retire, replaceStamp, different]

theorem revokeStamp_retires (now : Int) :
    Retires fun row => { row with revokedAt := some now } :=
  ⟨fun _ => rfl, fun _ => rfl, fun _ => rfl, fun _ => by simp⟩

theorem families_within (issued issued' : Issued) (rows : List RefreshToken)
    (within : issued.Within issued') (inv : Families issued rows) : Families issued' rows :=
  ⟨inv.ids, inv.hashes, fun row listed => knows_within issued issued' row within
    (inv.known row listed), inv.stamped, inv.single⟩

theorem change_families (issued issued' : Issued) (rows next : List RefreshToken)
    (within : issued.Within issued') (inv : Families issued rows)
    (change : Change issued issued' rows next) : Families issued' next := by
  have inv' := families_within issued issued' rows within inv
  cases change with
  | kept => exact inv'
  | revoked chosen now =>
      exact families_retire chosen _ (revokeStamp_retires now) issued' rows inv'
  | collected kept => exact families_collected issued' rows kept inv'
  | opened row freshId freshHash freshFamily recorded unreplaced =>
      refine families_append issued' rows row inv' ?_ ?_ recorded unreplaced ?_
      · exact fun other listed same => freshId (same ▸ (inv.known other listed).id)
      · exact fun other listed same => freshHash (same ▸ (inv.known other listed).hash)
      · exact fun other listed same => absurd (same ▸ (inv.known other listed).family) freshFamily
  | replaced record successor now listed live freshId freshHash sameFamily recordedId recordedHash
      unreplaced =>
      have different : successor.id ≠ record.id := fun same =>
        freshId (same ▸ (inv.known record listed).id)
      rw [replaced_rows rows record successor now different]
      have retires := replaceStamp_retires now successor.id
      have family : successor.familyId ∈ issued'.families :=
        within.families (sameFamily ▸ (inv.known record listed).family)
      refine families_append issued' _ successor
        (families_retire (fun row => row.id = record.id) _ retires issued' rows inv') ?_ ?_
        ⟨recordedId, recordedHash, family⟩ unreplaced ?_
      · intro other member same
        obtain ⟨before, beforeListed, rfl⟩ := List.mem_map.mp member
        rw [retire_id _ _ retires] at same
        exact freshId (same ▸ (inv.known before beforeListed).id)
      · intro other member same
        obtain ⟨before, beforeListed, rfl⟩ := List.mem_map.mp member
        rw [retire_hash _ _ retires] at same
        exact freshHash (same ▸ (inv.known before beforeListed).hash)
      · -- the only live token of the family was the one just replaced
        intro other member same otherLive
        obtain ⟨before, beforeListed, rfl⟩ := List.mem_map.mp member
        obtain ⟨spared, kept⟩ := retire_unrevoked _ _ retires before otherLive.1
        rw [kept] at same otherLive
        have only := inv.single before beforeListed record listed (same.trans sameFamily) otherLive
          live
        exact spared (congrArg RefreshToken.id only)

theorem step_within (sessions : Sessions) (request : Request) (next : Sessions)
    (stepped : step sessions request = some next) : sessions.issued.Within next.issued := by
  unfold step at stepped
  split_ifs at stepped
  cases stepped
  exact issue_within sessions.issued request

theorem step_families (sessions : Sessions) (request : Request) (next : Sessions)
    (inv : Families sessions.issued sessions.accounts.refreshTokens)
    (stepped : step sessions request = some next) :
    Families next.issued next.accounts.refreshTokens :=
  change_families _ _ _ _ (step_within sessions request next stepped) inv
    (step_change sessions request next stepped)

/-! ## What stays dead -/

def Retired (Named : RefreshToken → Prop) (rows : List RefreshToken) : Prop :=
  ∀ row ∈ rows, Named row → row.revokedAt ≠ none

/-- A way of naming tokens that no token still to come falls under, unless the live token it
succeeds does. -/
structure Settled (issued : Issued) (Named : RefreshToken → Prop) : Prop where
  steady : ∀ one other : RefreshToken, one.id = other.id → one.tokenHash = other.tokenHash →
    one.familyId = other.familyId → Named one → Named other
  opens : ∀ row : RefreshToken, row.id ∉ issued.ids → row.tokenHash ∉ issued.hashes →
    row.familyId ∉ issued.families → ¬ Named row
  succeeds : ∀ record successor : RefreshToken, successor.id ∉ issued.ids →
    successor.tokenHash ∉ issued.hashes → successor.familyId = record.familyId →
    Named successor → Named record

theorem settled_within (issued issued' : Issued) (Named : RefreshToken → Prop)
    (within : issued.Within issued') (settled : Settled issued Named) : Settled issued' Named := by
  refine ⟨settled.steady, fun row id hash family => ?_, fun record successor id hash same => ?_⟩
  · exact settled.opens row (fun known => id (within.ids known))
      (fun known => hash (within.hashes known)) fun known => family (within.families known)
  · exact settled.succeeds record successor (fun known => id (within.ids known))
      (fun known => hash (within.hashes known)) same

theorem settled_token (issued : Issued) (row : RefreshToken) (knows : issued.Knows row) :
    Settled issued fun other => other.id = row.id ∨ other.tokenHash = row.tokenHash := by
  refine ⟨?_, ?_, ?_⟩
  · rintro one other id hash - (same | same)
    · exact .inl (id.symm.trans same)
    · exact .inr (hash.symm.trans same)
  · rintro other freshId freshHash - (same | same)
    · exact freshId (same ▸ knows.id)
    · exact freshHash (same ▸ knows.hash)
  · rintro record successor freshId freshHash - (same | same)
    · exact absurd (same ▸ knows.id) freshId
    · exact absurd (same ▸ knows.hash) freshHash

theorem settled_family (issued : Issued) (familyId : Nat) (known : familyId ∈ issued.families) :
    Settled issued fun row => row.familyId = familyId := by
  refine ⟨?_, ?_, ?_⟩
  · exact fun one other _ _ family same => family.symm.trans same
  · exact fun row _ _ fresh same => fresh (same ▸ known)
  · exact fun record successor _ _ family same => family.symm.trans same

theorem retire_retired (Named : RefreshToken → Prop) (chosen : RefreshToken → Prop)
    [DecidablePred chosen] (stamp : RefreshToken → RefreshToken) (retires : Retires stamp)
    (rows : List RefreshToken)
    (retired : Retired Named rows) : Retired Named (rows.map (retire chosen stamp)) := by
  intro row listed named unrevoked
  obtain ⟨before, member, rfl⟩ := List.mem_map.mp listed
  have same := (retire_unrevoked chosen stamp retires before unrevoked).2
  rw [same] at named unrevoked
  exact retired before member named unrevoked

theorem change_retired (Named : RefreshToken → Prop) (issued issued' : Issued)
    (rows next : List RefreshToken) (settled : Settled issued Named)
    (inv : Families issued rows) (retired : Retired Named rows)
    (change : Change issued issued' rows next) : Retired Named next := by
  cases change with
  | kept => exact retired
  | revoked chosen now =>
      exact retire_retired Named chosen _ (revokeStamp_retires now) rows retired
  | collected kept => exact fun row member => retired row (List.mem_of_mem_filter member)
  | opened row freshId freshHash freshFamily recorded unreplaced =>
      intro other member named
      rcases List.mem_append.mp member with before | last
      · exact retired other before named
      · rw [List.mem_singleton.mp last] at named
        exact absurd named (settled.opens row freshId freshHash freshFamily)
  | replaced record successor now listed live freshId freshHash sameFamily _ _ _ =>
      have different : successor.id ≠ record.id := fun same =>
        freshId (same ▸ (inv.known record listed).id)
      rw [replaced_rows rows record successor now different]
      intro other member named
      rcases List.mem_append.mp member with before | last
      · exact retire_retired Named _ _ (replaceStamp_retires now successor.id) rows
          retired other before named
      · -- a successor has a live predecessor, and none of these is live
        rw [List.mem_singleton.mp last] at named
        have precedes := settled.succeeds record successor freshId freshHash sameFamily named
        exact absurd live.1 (retired record listed precedes)

theorem run_retired (Named : RefreshToken → Prop) (events : List Request)
    (sessions later : Sessions) (inv : Families sessions.issued sessions.accounts.refreshTokens)
    (settled : Settled sessions.issued Named)
    (retired : Retired Named sessions.accounts.refreshTokens)
    (ran : run step sessions events = some later) : Retired Named later.accounts.refreshTokens := by
  refine (run_preserves step (fun now => Families now.issued now.accounts.refreshTokens ∧
    Settled now.issued Named ∧ Retired Named now.accounts.refreshTokens) ?_ events sessions later
    ⟨inv, settled, retired⟩ ran).2.2
  rintro now request next ⟨nowInv, nowSettled, nowRetired⟩ stepped
  refine ⟨step_families now request next nowInv stepped,
    settled_within _ _ Named (step_within now request next stepped) nowSettled, ?_⟩
  exact change_retired Named _ _ _ _ nowSettled nowInv nowRetired
    (step_change now request next stepped)

theorem opened_families (users : List User) :
    Families (opened users).issued (opened users).accounts.refreshTokens := by
  constructor <;> simp [opened]

/-! ## The family law -/

/-- The tokens a request has ended, given its answer: the one it rotated, the family whose
retired token came back, the family or the tokens of the user it revoked. -/
def EndedBy : Request → Answer → RefreshToken → Prop
  | .rotate input _, .rotated (.rotated ..), row => row.tokenHash = input.presentedTokenHash
  | .rotate .., .rotated (.reuse _ familyId _), row => row.familyId = familyId
  | .revokeAllForUser userId .., .revokedAll (some _), row => row.userId = userId
  | .revokeFamily userId familyId _, .revokedFamily _, row =>
      row.userId = userId ∧ row.familyId = familyId
  | _, _, _ => False

/-- The token is not live, does not look rotatable, and is not rotated. -/
structure Over (accounts : Accounts) (token : RefreshToken) : Prop where
  dead : ∀ row ∈ accounts.refreshTokens, row.id = token.id → ¬ row.Live
  unrotatable : ∀ now owner, findOwner accounts token.tokenHash now = some owner →
    owner.rotatable = false
  unrotated : ∀ input clock outcome next, input.presentedTokenHash = token.tokenHash →
    rotate accounts input clock = .ok (outcome, next) →
    ∀ userId role tokenEpoch, outcome ≠ .rotated userId role tokenEpoch

def NamesToken (token row : RefreshToken) : Prop :=
  row.id = token.id ∨ row.tokenHash = token.tokenHash

theorem over_of_retired (accounts : Accounts) (token : RefreshToken)
    (retired : Retired (NamesToken token) accounts.refreshTokens) : Over accounts token := by
  refine ⟨?_, ?_, ?_⟩
  · exact fun row listed same live => retired row listed (.inl same) live.1
  · intro now owner looked
    obtain ⟨row, found, rfl⟩ := Option.map_eq_some_iff.mp looked
    obtain ⟨listed, same⟩ := findToken_some accounts _ row found
    have revoked := retired row listed (.inr same)
    simp [revoked]
  · rintro input clock outcome next presents success userId role tokenEpoch rfl
    obtain ⟨record, successorId, found, live, -, -⟩ :=
      rotate_rotated accounts next input clock userId role tokenEpoch success
    obtain ⟨listed, same⟩ := findToken_some accounts _ record found
    exact retired record listed (.inr (same.trans presents)) live.1

theorem named_token (issued : Issued) (rows : List RefreshToken) (token row : RefreshToken)
    (inv : Families issued rows) (tokenListed : token ∈ rows) (listed : row ∈ rows)
    (named : NamesToken token row) : row = token := by
  rcases named with same | same
  · exact eq_of_key (·.id) rows row token inv.ids listed tokenListed same
  · exact eq_of_key (·.tokenHash) rows row token inv.hashes listed tokenListed same

theorem retire_ends (issued : Issued) (rows : List RefreshToken) (token : RefreshToken)
    (chosen : RefreshToken → Prop) [DecidablePred chosen] (stamp : RefreshToken → RefreshToken)
    (retires : Retires stamp) (inv : Families issued rows) (listed : token ∈ rows)
    (ended : chosen token ∨ token.revokedAt ≠ none) :
    Retired (NamesToken token) (rows.map (retire chosen stamp)) := by
  intro row member named unrevoked
  obtain ⟨before, beforeListed, rfl⟩ := List.mem_map.mp member
  obtain ⟨spared, kept⟩ := retire_unrevoked chosen stamp retires before unrevoked
  rw [kept] at named unrevoked
  have same := named_token issued rows token before inv listed beforeListed named
  rcases ended with picked | revoked
  · exact spared (same ▸ picked)
  · exact revoked (same ▸ unrevoked)

theorem revokeWhere_ends (accounts : Accounts) (issued : Issued) (token : RefreshToken)
    (chosen : RefreshToken → Bool) (now : Int) (inv : Families issued accounts.refreshTokens)
    (listed : token ∈ accounts.refreshTokens) (picked : chosen token = true) :
    Retired (NamesToken token) (accounts.revokeWhere chosen now).refreshTokens := by
  refine retire_ends issued accounts.refreshTokens token
    (fun row => chosen row = true ∧ row.revokedAt = none) _ (revokeStamp_retires now) inv listed ?_
  by_cases unrevoked : token.revokedAt = none
  · exact .inl ⟨picked, unrevoked⟩
  · exact .inr unrevoked

theorem replaced_ends (issued : Issued) (rows : List RefreshToken)
    (token successor : RefreshToken) (now : Int) (inv : Families issued rows)
    (listed : token ∈ rows) (freshId : successor.id ∉ issued.ids)
    (freshHash : successor.tokenHash ∉ issued.hashes) :
    Retired (NamesToken token)
      (update (·.id) token.id
        (fun row => { row with revokedAt := some now, replacedByTokenId := some successor.id })
        (rows ++ [successor])) := by
  have known := inv.known token listed
  have different : successor.id ≠ token.id := fun same => freshId (same ▸ known.id)
  rw [replaced_rows rows token successor now different]
  intro row member named
  rcases List.mem_append.mp member with before | last
  · exact retire_ends issued rows token (fun row => row.id = token.id) _
      (replaceStamp_retires now successor.id) inv listed (.inl rfl) row before named
  · rw [List.mem_singleton.mp last] at named
    rcases named with same | same
    · exact absurd same different
    · exact absurd (same ▸ known.hash) freshHash

theorem rotate_reuse (accounts next : Accounts) (input : RotateRefreshTokenInput)
    (clock : RotateClock) (userId familyId : Nat) (replaced : Bool)
    (success : rotate accounts input clock = .ok (.reuse userId familyId replaced, next)) :
    (∃ record ∈ accounts.refreshTokens, record.familyId = familyId) ∧
      next = accounts.revokeWhere (fun row => row.familyId == familyId) clock.atRevoke := by
  unfold rotate at success
  split at success
  · cases success
  · rename_i record found
    split_ifs at success
    · cases success
    · cases success
    · cases success
      exact ⟨⟨record, (findToken_some accounts _ record found).1, rfl⟩, rfl⟩
    · cases success
    · split at success
      · cases success
      · unfold replaceToken at success
        split at success
        · cases success
        · obtain ⟨inserted, insert, same⟩ := (bind_eq_ok _ _ _).mp success
          cases same

/-- Right after the request, every token it ended is revoked. -/
theorem ended_retired (sessions next : Sessions) (request : Request) (token : RefreshToken)
    (inv : Families sessions.issued sessions.accounts.refreshTokens)
    (stepped : step sessions request = some next)
    (listed : token ∈ sessions.accounts.refreshTokens)
    (ended : EndedBy request (perform sessions.accounts request).1 token) :
    Retired (NamesToken token) next.accounts.refreshTokens := by
  unfold step at stepped
  split_ifs at stepped with admitted
  cases stepped
  cases request with
  | rotate input clock =>
      simp only [perform] at ended ⊢
      split at ended
      · rename_i outcome after success
        cases outcome with
        | rotated userId role tokenEpoch =>
            obtain ⟨record, successorId, found, live, minted, rows⟩ :=
              rotate_rotated sessions.accounts after input clock userId role tokenEpoch success
            obtain ⟨recordListed, presented⟩ := findToken_some sessions.accounts _ record found
            have about : token.tokenHash = input.presentedTokenHash := ended
            have same : token = record := eq_of_key (·.tokenHash) _ token record inv.hashes listed
              recordListed (about.trans presented.symm)
            subst same
            simp only [admits, minted, Option.all_some, Bool.and_eq_true, Bool.not_eq_true',
              List.contains_eq_mem, decide_eq_false_iff_not] at admitted
            rw [rows]
            exact replaced_ends sessions.issued sessions.accounts.refreshTokens token
              ⟨successorId, token.userId, input.newTokenHash, token.familyId, none,
                input.newExpiresAt, none⟩
              clock.atRevoke inv listed admitted.1 admitted.2
        | reuse userId familyId replaced =>
            obtain ⟨-, rfl⟩ := rotate_reuse sessions.accounts after input clock userId familyId
              replaced success
            have about : token.familyId = familyId := ended
            exact revokeWhere_ends sessions.accounts sessions.issued token _ _ inv listed
              (by simpa using about)
        | invalid => exact ended.elim
        | replayed => exact ended.elim
      · exact ended.elim
  | revokeAllForUser userId replacement now =>
      simp only [perform, revokeAllForUser] at ended ⊢
      split at ended
      · exact ended.elim
      · split at ended
        · rename_i user found verified
          have about : token.userId = userId := ended
          rw [if_pos verified]
          exact revokeWhere_ends { sessions.accounts with users := _ } sessions.issued token _ now
            inv listed (by simpa using about)
        · exact ended.elim
  | revokeFamily userId familyId now =>
      have about : token.userId = userId ∧ token.familyId = familyId := ended
      exact revokeWhere_ends sessions.accounts sessions.issued token _ now inv listed
        (by simpa using about)
  | create input id =>
      simp only [perform] at ended
      split at ended <;> exact ended.elim
  | selectDoomed => exact ended.elim
  | deleteDoomed => exact ended.elim
  | writeUsers => exact ended.elim

theorem reuse_retired (sessions next : Sessions) (request : Request) (userId familyId : Nat)
    (replaced : Bool) (inv : Families sessions.issued sessions.accounts.refreshTokens)
    (stepped : step sessions request = some next)
    (reuse : (perform sessions.accounts request).1 = .rotated (.reuse userId familyId replaced)) :
    familyId ∈ sessions.issued.families ∧
      Retired (fun row => row.familyId = familyId) next.accounts.refreshTokens := by
  unfold step at stepped
  split_ifs at stepped
  cases stepped
  cases request with
  | rotate input clock =>
      simp only [perform] at reuse ⊢
      split at reuse
      · rename_i outcome after success
        cases reuse
        obtain ⟨⟨record, listed, about⟩, rfl⟩ := rotate_reuse sessions.accounts after input clock
          userId familyId replaced success
        refine ⟨about ▸ (inv.known record listed).family, ?_⟩
        intro row member same unrevoked
        obtain ⟨before, -, rfl⟩ := List.mem_map.mp member
        obtain ⟨spared, kept⟩ := retire_unrevoked
          (fun row => (row.familyId == familyId) = true ∧ row.revokedAt = none) _
          (revokeStamp_retires clock.atRevoke) before unrevoked
        have whole : before.familyId = familyId :=
          (retire_family (fun row => (row.familyId == familyId) = true ∧ row.revokedAt = none) _
            (revokeStamp_retires clock.atRevoke) before).symm.trans same
        have unrevoked' : before.revokedAt = none :=
          (congrArg RefreshToken.revokedAt kept).symm.trans unrevoked
        exact spared ⟨by simpa using whole, unrevoked'⟩
      · cases reuse
  | create input id =>
      simp only [perform] at reuse
      split at reuse <;> cases reuse
  | revokeAllForUser => cases reuse
  | revokeFamily => cases reuse
  | selectDoomed => cases reuse
  | deleteDoomed => cases reuse
  | writeUsers => cases reuse

/-- Whatever the users do and the collection deletes: a family has at most one live token, a
token that was rotated, or whose family or user was revoked, is never live, rotatable or rotated
again, and a family whose retired token came back has no live token ever again. -/
theorem refresh_family_law (users : List User) (events : List Request) (sessions : Sessions)
    (ran : run step (opened users) events = some sessions) :
    (∀ one ∈ sessions.accounts.refreshTokens, ∀ other ∈ sessions.accounts.refreshTokens,
      one.familyId = other.familyId → one.Live → other.Live → one = other) ∧
    ∀ request next more later, step sessions request = some next →
      run step next more = some later →
      (∀ token ∈ sessions.accounts.refreshTokens,
        EndedBy request (perform sessions.accounts request).1 token → Over later.accounts token) ∧
      ∀ userId familyId replaced,
        (perform sessions.accounts request).1 = .rotated (.reuse userId familyId replaced) →
        ∀ row ∈ later.accounts.refreshTokens, row.familyId = familyId → ¬ row.Live := by
  have inv : Families sessions.issued sessions.accounts.refreshTokens :=
    run_preserves step (fun now => Families now.issued now.accounts.refreshTokens) step_families
      events (opened users) sessions (opened_families users) ran
  refine ⟨inv.single, fun request next more later stepped onward => ⟨?_, ?_⟩⟩
  · intro token listed ended
    have nextInv := step_families sessions request next inv stepped
    have settled := settled_within _ _ _ (step_within sessions request next stepped)
      (settled_token sessions.issued token (inv.known token listed))
    have retired := ended_retired sessions next request token inv stepped listed ended
    exact over_of_retired later.accounts token
      (run_retired (NamesToken token) more next later nextInv settled retired onward)
  · intro userId familyId replaced reuse row listed same live
    have nextInv := step_families sessions request next inv stepped
    obtain ⟨known, retired⟩ :=
      reuse_retired sessions next request userId familyId replaced inv stepped reuse
    have settled := settled_within _ _ _ (step_within sessions request next stepped)
      (settled_family sessions.issued familyId known)
    exact run_retired _ more next later nextInv settled retired onward row listed same live.1

/-- A login, two refreshes, and the first token coming back after its grace. -/
def stolenRequests : List Request :=
  [ .create ⟨1, "h1", 50, 1000, "pw"⟩ 10,
    .rotate ⟨"h1", 1, some 11, "h2", 1100, 5⟩ ⟨20, 20, 20⟩,
    .rotate ⟨"h2", 1, some 12, "h3", 1200, 5⟩ ⟨30, 30, 30⟩ ]

def replayedRequest : Request := .rotate ⟨"h1", 1, none, "h4", 1300, 5⟩ ⟨40, 40, 40⟩

def collectedRequests : List Request := [.selectDoomed 0 35 10 [10, 11], .deleteDoomed [10, 11]]

theorem refresh_family_law_stolen :
    ∃ sessions next later token,
      run step (opened [⟨1, "pw", .customer, 0⟩]) stolenRequests = some sessions ∧
      step sessions replayedRequest = some next ∧
      run step next collectedRequests = some later ∧
      later.accounts.refreshTokens.map (·.id) = [12] ∧ token.id = 12 ∧ token.Live ∧
      Over later.accounts token := by
  refine ⟨_, _, _, ⟨12, 1, "h3", 50, none, 1200, none⟩, rfl, rfl, rfl, by decide, rfl,
    ⟨rfl, rfl⟩, ?_⟩
  exact ((refresh_family_law [⟨1, "pw", .customer, 0⟩] stolenRequests _ rfl).2 replayedRequest _
    collectedRequests _ rfl rfl).1 _ (by decide) rfl

end Commerce.Users
