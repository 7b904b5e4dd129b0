import Commerce.Users.Books

/-!
# The invariant of the user service

Every epoch that is published, about to be, or signed into a token is one its
user has reached.  The sessions a revocation found open stay revoked, and what
is signed for them stays behind the epoch of the revocation.
-/

set_option autoImplicit false

namespace Commerce.Users.Service

open Tables
open Users

variable (reuseGraceMs : Int)

/-! ## What a statement does -/

def Phase.plain : Phase → Bool
  | .signing _ | .publishing .. | .reconciling _ | .revoking _ (some _) => false
  | _ => true

def Prunes : Request → Prop
  | .revokeFamily .. | .selectDoomed .. | .deleteDoomed _ => True
  | _ => False

/-- Every statement: what it writes and where it leaves its request. -/
inductive Does (world : World) (process : Process) (choice : Choice) : Effect → Phase → Prop where
  | passes (phase : Phase) (plain : phase.plain = true) : Does world process choice .none phase
  | reads (userId : Nat) (epoch : Int) (current : currentEpoch world.accounts userId = some epoch) :
      Does world process choice .none (.publishing userId epoch)
  | lists :
      Does world process choice .none (.reconciling (listChanges world.accounts choice.selected))
  | hashes (userId : Nat) (verified : Option String) :
      Does world process choice (.hash choice.passwordHash)
        (.revoking userId (some ⟨choice.passwordHash, verified⟩))
  | creates (userId : Nat) (role : Role) (absent : world.accounts.findUser userId = none) :
      Does world process choice (.create ⟨userId, choice.passwordHash, role, 0⟩)
        (.publishing userId 0)
  | prunes (request : Request) (prunes : Prunes request) (phase : Phase)
      (plain : phase.plain = true) : Does world process choice (.run request) phase
  | stores (user : User) :
      Does world process choice (.run (createRequest user choice))
        (stored user choice.familyId (perform world.accounts (createRequest user choice)).1)
  | rotates (tokenHash : String) (owner : RefreshTokenOwner)
      (presents : process.operation = .refresh tokenHash) (here : process.phase = .rotating owner) :
      Does world process choice (.run (rotateRequest reuseGraceMs tokenHash owner choice))
        (rotated (familyOf world.accounts tokenHash owner)
          (perform world.accounts (rotateRequest reuseGraceMs tokenHash owner choice)).1)
  | revokes (userId : Nat) (replacement : Option PasswordReplacement)
      (here : process.phase = .revoking userId replacement) :
      Does world process choice
        (.run (.revokeAllForUser userId replacement choice.clock.atRevoke))
        (revoked process.operation userId (perform world.accounts
          (.revokeAllForUser userId replacement choice.clock.atRevoke)).1)
  | signs (token : AccessToken) (here : process.phase = .signing token) :
      Does world process choice (.sign token) .succeeded
  | bumps (userId : Nat) (epoch : Int) (here : process.phase = .bumping userId)
      (current : currentEpoch world.accounts userId = some epoch) :
      Does world process choice (.bump userId) (.publishing userId (epoch + 1))
  | publishes (userId : Nat) (epoch : Int) (here : process.phase = .publishing userId epoch)
      (phase : Phase) (next : phase = .publishing userId epoch ∨ phase.plain = true) :
      Does world process choice (.publish userId epoch) phase
  | reconciles (userId : Nat) (epoch : Int) (changes rest : List (Nat × Int))
      (here : process.phase = .reconciling ((userId, epoch) :: changes))
      (listed : rest ⊆ (userId, epoch) :: changes) :
      Does world process choice (.publish userId epoch) (.reconciling rest)

theorem published_plain (operation : Operation) (current : Int) :
    (operation.published current).plain = true := by
  cases operation with
  | verify reader token =>
      simp only [Operation.published]
      split <;> rfl
  | _ => rfl

theorem statement_does (world : World) (process : Process) (choice : Choice) (effect : Effect)
    (phase : Phase) (success : statement reuseGraceMs world process choice = some (effect, phase)) :
    Does reuseGraceMs world process choice effect phase := by
  obtain ⟨operation, now, past⟩ := process
  simp only [statement] at success
  split at success
  · split at success <;> cases success
    · split <;> exact .passes _ rfl
    · exact .passes _ rfl
  · split at success
    · split at success <;> cases success
      · exact .hashes _ _
      · exact .passes _ rfl
    · cases success
      exact .passes _ rfl
  · split at success <;> cases success
    · exact .hashes _ _
    · exact .passes _ rfl
  · split at success <;> cases success
    · rename_i fits
      exact .creates _ _ fits.2
    · exact .passes _ rfl
  · cases success
    exact .stores _
  · split at success <;> cases success <;> exact .passes _ rfl
  · split at success <;> cases success <;> exact .passes _ rfl
  · cases success
    exact .rotates _ _ rfl rfl
  · cases success
    exact .signs _ rfl
  · split at success <;> cases success
    · rename_i epoch current
      exact .bumps _ epoch rfl current
    · exact .passes _ rfl
  · cases success
    exact .revokes _ _ rfl
  · cases success
    exact .prunes (.revokeFamily _ _ _) trivial _ rfl
  · split at success <;> cases success
    · rename_i epoch current
      exact .reads _ epoch current
    · exact .passes _ rfl
  · cases success
    refine .publishes _ _ rfl _ ?_
    split
    · exact .inr (published_plain _ _)
    · exact .inl rfl
  · cases success
    exact .lists
  · cases success
    split
    · exact .reconciles _ _ _ _ rfl (List.subset_cons_self _ _)
    · exact .reconciles _ _ _ _ rfl (List.Subset.refl _)
  · cases success
    split <;> exact .passes _ rfl
  · cases success
    split <;> exact .passes _ rfl
  · split at success <;> cases success
    · split <;> exact .passes _ rfl
    · exact .passes _ rfl
  · split at success <;> cases success
    · split <;> exact .passes _ rfl
    · exact .passes _ rfl
  · cases success
    exact .prunes (.selectDoomed _ _ _ _) trivial _ rfl
  · cases success
    exact .prunes (.deleteDoomed _) trivial _ rfl
  · cases success

/-! ## Running a transaction -/

theorem step_performs (sessions next : Sessions) (request : Request)
    (stepped : Users.step sessions request = some next) :
    admits sessions request = true ∧ next.accounts = (perform sessions.accounts request).2 ∧
      next.issued = issue sessions.issued request := by
  unfold Users.step at stepped
  split_ifs at stepped with admitted
  cases stepped
  exact ⟨admitted, rfl, rfl⟩

/-- The sessions opened so far: each token belongs to one, and each was opened once. -/
structure Owned (world : World) : Prop where
  families : Families world.sessions.issued world.accounts.refreshTokens
  tokens : ∀ row ∈ world.accounts.refreshTokens, (row.userId, row.familyId) ∈ world.opened
  issued : ∀ session ∈ world.opened, session.2 ∈ world.sessions.issued.families
  once : (world.opened.map (·.2)).Nodup

theorem Owned.user {world : World} (owned : Owned world) {one other familyId : Nat}
    (first : (one, familyId) ∈ world.opened) (second : (other, familyId) ∈ world.opened) :
    one = other :=
  congrArg Prod.fst (eq_of_key (·.2) world.opened _ _ owned.once first second rfl)

theorem openedBy_cases (accounts : Accounts) (request : Request) (session : Nat × Nat)
    (opens : session ∈ openedBy request (perform accounts request).1) :
    openedBy request (perform accounts request).1 = [session] ∧
      ∃ input id, request = .create input id ∧ session = (input.userId, input.familyId) := by
  cases request with
  | create input id =>
      generalize (perform accounts (.create input id)).1 = answer at opens ⊢
      unfold openedBy at opens ⊢
      split at opens
      · rename_i same
        cases same
        cases List.mem_singleton.mp opens
        exact ⟨rfl, _, _, rfl, rfl⟩
      · cases opens
  | _ => cases opens

theorem openedBy_fresh (sessions : Sessions) (request : Request) (session : Nat × Nat)
    (admitted : admits sessions request = true)
    (opens : session ∈ openedBy request (perform sessions.accounts request).1) :
    session.2 ∉ sessions.issued.families ∧ session.2 ∈
        (issue sessions.issued request).families := by
  obtain ⟨-, input, id, rfl, rfl⟩ := openedBy_cases sessions.accounts request session opens
  simp only [admits, Bool.and_eq_true, Bool.not_eq_true', List.contains_eq_mem,
    decide_eq_false_iff_not] at admitted
  exact ⟨admitted.1.2, .head _⟩

theorem Owned.run {world next : World} {slot : Nat} {request : Request} (owned : Owned world)
    (ran : world.run slot request = some next) : Owned next := by
  obtain ⟨sessions, stepped, rfl⟩ := Option.map_eq_some_iff.mp ran
  obtain ⟨admitted, accounts, issued⟩ := step_performs world.sessions sessions request stepped
  have within := step_within world.sessions request sessions stepped
  refine ⟨step_families _ request _ owned.families stepped, ?_, ?_, ?_⟩
  · intro row member
    have after : row ∈ (perform world.sessions.accounts request).2.refreshTokens :=
      accounts ▸ member
    rcases perform_owners _ request row after with ⟨old, listed, user, family⟩ | opens
    · have known := owned.tokens old listed
      rw [user, family] at known
      exact List.mem_append_right _ known
    · exact List.mem_append_left _ opens
  · intro session member
    rcases List.mem_append.mp member with opens | known
    · have fresh := (openedBy_fresh world.sessions request session admitted opens).2
      exact issued.symm ▸ fresh
    · exact within.families (owned.issued session known)
  · cases opening : openedBy request (perform world.accounts request).1 with
    | nil => simpa [opening] using owned.once
    | cons session rest =>
        have opens : session ∈ openedBy request (perform world.accounts request).1 :=
          opening ▸ List.mem_cons_self
        have alone := (openedBy_cases world.accounts request session opens).1
        have fresh := (openedBy_fresh world.sessions request session admitted opens).1
        dsimp only
        rw [alone, List.map_append]
        refine List.nodup_cons.mpr ⟨fun member => ?_, owned.once⟩
        obtain ⟨known, listed, same⟩ := List.mem_map.mp member
        have issuedBefore := owned.issued known listed
        rw [show known.2 = session.2 from same] at issuedBefore
        exact fresh issuedBefore

/-! ## What every statement preserves -/

/-- The epochs only rise, the sessions stay opened, and a new revocation raised the epoch of its
user. -/
structure Advance (world next : World) : Prop where
  grows : Grows world.accounts next.accounts
  opened : world.opened ⊆ next.opened
  revocations : ∀ revocation ∈ next.revocations, revocation ∈ world.revocations ∨
    ∀ epoch, AtMost world.accounts revocation.userId epoch → epoch < revocation.epoch

/-- A token is of an opened session, at an epoch its user has reached, and behind the epoch of
each revocation that found its session open. -/
structure TokenSound (world : World) (token : AccessToken) : Prop where
  session : (token.sub, token.familyId) ∈ world.opened
  epoch : AtMost world.accounts token.sub token.epoch
  behind : ∀ revocation ∈ world.revocations, revocation.userId = token.sub →
    token.familyId ∈ revocation.families → token.epoch < revocation.epoch

theorem TokenSound.advance {world next : World} {token : AccessToken}
    (sound : TokenSound world token) (advance : Advance world next) : TokenSound next token := by
  refine ⟨advance.opened sound.session, sound.epoch.grows advance.grows, ?_⟩
  intro revocation listed same member
  rcases advance.revocations revocation listed with known | raised
  · exact sound.behind revocation known same member
  · exact raised token.epoch (same ▸ sound.epoch)

def PhaseSound (world : World) : Phase → Prop
  | .signing token => TokenSound world token
  | .publishing userId epoch => AtMost world.accounts userId epoch
  | .reconciling changes => ∀ change ∈ changes, AtMost world.accounts change.1 change.2
  | _ => True

theorem PhaseSound.advance {world next : World} {phase : Phase} (sound : PhaseSound world phase)
    (advance : Advance world next) : PhaseSound next phase := by
  cases phase with
  | signing token => exact TokenSound.advance sound advance
  | publishing userId epoch => exact AtMost.grows sound advance.grows
  | reconciling changes => exact fun change listed => (sound change listed).grows advance.grows
  | _ => trivial

theorem phaseSound_plain (world : World) (phase : Phase) (plain : phase.plain = true) :
    PhaseSound world phase := by
  cases phase with
  | signing | publishing | reconciling => cases plain
  | _ => trivial

/-- The sessions a revocation found open stay revoked. -/
structure RevocationSound (world : World) (revocation : Revocation) : Prop where
  epoch : AtMost world.accounts revocation.userId revocation.epoch
  opened : ∀ familyId ∈ revocation.families, (revocation.userId, familyId) ∈ world.opened
  retired : ∀ familyId ∈ revocation.families,
    Retired (fun row => row.familyId = familyId) world.accounts.refreshTokens

structure Sound (world : World) : Prop extends Owned world where
  signed : ∀ token ∈ world.signed, TokenSound world token
  phases : ∀ slot process, world.requests slot = some process → PhaseSound world process.phase
  revocations : ∀ revocation ∈ world.revocations, RevocationSound world revocation
  published : ∀ userId epoch, world.published userId = some epoch →
    AtMost world.accounts userId epoch

/-! ## Statements that leave the tokens alone -/

structure Quiet (world next : World) : Prop where
  grows : Grows world.accounts next.accounts
  tokens : next.accounts.refreshTokens = world.accounts.refreshTokens
  issued : next.sessions.issued = world.sessions.issued
  opened : next.opened = world.opened
  revocations : next.revocations = world.revocations
  requests : next.requests = world.requests

theorem Quiet.advance {world next : World} (quiet : Quiet world next) : Advance world next :=
  ⟨quiet.grows, quiet.opened ▸ List.Subset.refl _,
    fun _ listed => .inl (quiet.revocations ▸ listed)⟩

theorem Quiet.owned {world next : World} (quiet : Quiet world next) (owned : Owned world) :
    Owned next := by
  obtain ⟨families, tokens, issued, once⟩ := owned
  constructor
  · rw [quiet.issued, quiet.tokens]
    exact families
  · rw [quiet.tokens, quiet.opened]
    exact tokens
  · rw [quiet.issued, quiet.opened]
    exact issued
  · rw [quiet.opened]
    exact once

theorem Sound.quiet {world next : World} (sound : Sound world) (quiet : Quiet world next)
    (signed : ∀ token ∈ next.signed, TokenSound world token)
    (published : ∀ userId epoch, next.published userId = some epoch →
      AtMost world.accounts userId epoch) : Sound next := by
  have advance := quiet.advance
  refine ⟨quiet.owned sound.toOwned, ?_, ?_, ?_, ?_⟩
  · exact fun token listed => (signed token listed).advance advance
  · intro slot process here
    rw [quiet.requests] at here
    exact (sound.phases slot process here).advance advance
  · intro revocation listed
    rw [quiet.revocations] at listed
    obtain ⟨epoch, opened, retired⟩ := sound.revocations revocation listed
    refine ⟨epoch.grows quiet.grows, ?_, ?_⟩
    · rw [quiet.opened]
      exact opened
    · rw [quiet.tokens]
      exact retired
  · exact fun userId epoch known => (published userId epoch known).grows quiet.grows

theorem quiet_of_accounts (world next : World) (sessions : next.sessions = world.sessions)
    (opened : next.opened = world.opened) (revocations : next.revocations = world.revocations)
    (requests : next.requests = world.requests) : Quiet world next := by
  refine ⟨?_, ?_, ?_, opened, revocations, requests⟩
  · refine grows_of_users _ _ ?_
    rw [World.accounts, sessions]
    rfl
  · rw [World.accounts, sessions]
    rfl
  · rw [sessions]

theorem raiseEpoch_cases (current : Option Int) (proposed : Int) :
    (proposed ≤ raiseEpoch current proposed ∧
      ∀ epoch, current = some epoch → epoch ≤ raiseEpoch current proposed) ∧
    (raiseEpoch current proposed = proposed ∨ current = some (raiseEpoch current proposed)) := by
  cases current with
  | none => exact ⟨⟨Int.le_refl _, fun _ none => nomatch none⟩, .inl rfl⟩
  | some epoch =>
      simp only [raiseEpoch]
      split
      · refine ⟨⟨by omega, ?_⟩, .inr rfl⟩
        rintro other ⟨⟩
        exact Int.le_refl _
      · refine ⟨⟨Int.le_refl _, ?_⟩, .inl rfl⟩
        rintro other ⟨⟩
        omega

theorem Sound.publish {world : World} (sound : Sound world) (userId : Nat) (epoch : Int)
    (reached : AtMost world.accounts userId epoch) :
    Sound { world with
      published := Function.update world.published userId
        (some (raiseEpoch (world.published userId) epoch)) } := by
  refine sound.quiet (quiet_of_accounts _ _ rfl rfl rfl rfl) sound.signed ?_
  intro other found known
  by_cases same : other = userId
  · subst same
    simp only [Function.update_self, Option.some.injEq] at known
    subst known
    rcases (raiseEpoch_cases (world.published other) epoch).2 with proposed | kept
    · rw [proposed]
      exact reached
    · exact sound.published other _ kept
  · simp only [Function.update_of_ne same] at known
    exact sound.published other found known

/-! ## Transactions -/

theorem revokedBy_cases (world : World) (slot : Nat) (request : Request) (answer : Users.Answer)
    (revocation : Revocation) (member : revocation ∈ revokedBy world slot request answer) :
    ∃ userId replacement now epoch, request = .revokeAllForUser userId replacement now ∧
      answer = .revokedAll (some epoch) ∧
      revocation =
        ⟨slot, userId, epoch, (world.opened.filter fun pair => pair.1 == userId).map (·.2),
          replacement.bind fun _ => (world.accounts.findUser userId).map (·.passwordHash)⟩ := by
  unfold revokedBy at member
  split at member
  · cases List.mem_singleton.mp member
    exact ⟨_, _, _, _, rfl, rfl, rfl⟩
  · cases member

/-- A revocation that matched a user: the epoch is raised by one and every token is revoked. -/
theorem revokeAll_matched (accounts : Accounts) (userId : Nat)
    (replacement : Option PasswordReplacement) (now epoch : Int)
    (answer : (perform accounts (.revokeAllForUser userId replacement now)).1 =
      .revokedAll (some epoch)) :
    ∃ user written, accounts.findUser userId = some user ∧ epoch = user.tokenEpoch + 1 ∧
      written.tokenEpoch = epoch ∧
      written.passwordHash = (replacement.map (·.newPasswordHash)).getD user.passwordHash ∧
      written.id = userId ∧
      (perform accounts (.revokeAllForUser userId replacement now)).2 =
        { accounts with
          users := update (·.id) userId (fun _ => written) accounts.users }.revokeWhere
            (fun row => row.userId == userId) now := by
  simp only [perform] at answer ⊢
  rcases revokeAllForUser_cases accounts userId replacement now with
    same | ⟨user, written, found, id, raised, hash, same⟩
  · rw [same] at answer
    cases answer
  · rw [same] at answer ⊢
    simp only [Users.Answer.revokedAll.injEq, Option.some.injEq] at answer
    exact ⟨user, written, found, answer ▸ raised, answer, hash, id, rfl⟩

theorem findUser_revoked (accounts : Accounts) (userId : Nat) (written : User) (now : Int)
    (same : written.id = userId) (other : Nat) :
    ({ accounts with users := update (·.id) userId (fun _ => written) accounts.users }.revokeWhere
        (fun row => row.userId == userId) now).findUser other =
      (accounts.findUser other).map fun user => if user.id = userId then written else user :=
  findUser_written accounts userId written same other

theorem run_advance {world next : World} {slot : Nat} {request : Request}
    (transacts : Transacts request) (ran : world.run slot request = some next) :
    Advance world next := by
  obtain ⟨sessions, stepped, rfl⟩ := Option.map_eq_some_iff.mp ran
  have performed := (step_performs world.sessions sessions request stepped).2.1
  refine ⟨?_, List.subset_append_right _ _, ?_⟩
  · have grows := perform_grows world.accounts request transacts
    rw [show (perform world.accounts request).2 = sessions.accounts from performed.symm] at grows
    exact grows
  · intro revocation listed
    rcases List.mem_append.mp listed with new | known
    · refine .inr fun epoch reached => ?_
      obtain ⟨userId, replacement, now, raised, rfl, answer, rfl⟩ :=
        revokedBy_cases world slot request _ revocation new
      obtain ⟨user, written, found, rfl, -⟩ :=
        revokeAll_matched world.accounts userId replacement now raised answer
      obtain ⟨owner, same, atMost⟩ := reached
      cases Option.some.inj (same.symm.trans found)
      exact Int.lt_add_one_of_le atMost
    · exact .inl known

theorem run_retired_family {world next : World} {slot : Nat} {request : Request} {familyId : Nat}
    (owned : Owned world) (userId : Nat) (opened : (userId, familyId) ∈ world.opened)
    (retired : Retired (fun row => row.familyId = familyId) world.accounts.refreshTokens)
    (ran : world.run slot request = some next) :
    Retired (fun row => row.familyId = familyId) next.accounts.refreshTokens := by
  obtain ⟨sessions, stepped, rfl⟩ := Option.map_eq_some_iff.mp ran
  exact change_retired _ _ _ _ _ (settled_family _ familyId (owned.issued _ opened))
    owned.families retired (step_change world.sessions request sessions stepped)

theorem revocation_commits {world next : World} {slot : Nat} {request : Request}
    {revocation : Revocation} (owned : Owned world) (ran : world.run slot request = some next)
    (member : revocation ∈ revokedBy world slot request (perform world.accounts request).1) :
    RevocationSound next revocation := by
  have after := owned.run ran
  obtain ⟨sessions, stepped, rfl⟩ := Option.map_eq_some_iff.mp ran
  have performed := (step_performs world.sessions sessions request stepped).2.1
  obtain ⟨userId, replacement, now, epoch, rfl, answer, rfl⟩ :=
    revokedBy_cases world slot request _ revocation member
  obtain ⟨user, written, found, rfl, epoch, -, id, accounts⟩ :=
    revokeAll_matched world.accounts userId replacement now epoch answer
  have same : sessions.accounts = _ := performed.trans accounts
  have opened : ∀ familyId ∈ (world.opened.filter fun pair => pair.1 == userId).map (·.2),
      (userId, familyId) ∈ world.opened := by
    intro familyId listed
    obtain ⟨⟨owner, family⟩, kept, rfl⟩ := List.mem_map.mp listed
    obtain ⟨known, mine⟩ := List.mem_filter.mp kept
    cases beq_iff_eq.mp mine
    exact known
  refine ⟨⟨written, ?_, Int.le_of_eq epoch.symm⟩, ?_, ?_⟩
  · show sessions.accounts.findUser userId = some written
    rw [same, findUser_revoked world.accounts userId written now id, found]
    simp [findUser_id _ _ _ found]
  · exact fun familyId listed => List.mem_append_right _ (opened familyId listed)
  · intro familyId listed row rowListed sameFamily unrevoked
    have mine : row.userId = userId := by
      have known := after.tokens row rowListed
      rw [show row.familyId = familyId from sameFamily] at known
      exact after.user known (List.mem_append_right _ (opened familyId listed))
    have stamped : row ∈ sessions.accounts.refreshTokens := rowListed
    rw [same] at stamped
    obtain ⟨old, -, changed⟩ := List.mem_map.mp stamped
    split at changed
    · rw [← changed] at unrevoked
      cases unrevoked
    · rename_i spared
      subst changed
      exact spared ⟨by simpa using mine, unrevoked⟩

theorem Sound.run {world next : World} {slot : Nat} {request : Request} (sound : Sound world)
    (transacts : Transacts request) (ran : world.run slot request = some next) : Sound next := by
  have advance := run_advance transacts ran
  have owned := sound.toOwned.run ran
  have kept : next.signed = world.signed ∧ next.requests = world.requests ∧
      next.published = world.published ∧ next.revocations =
        revokedBy world slot request (perform world.accounts request).1 ++ world.revocations := by
    obtain ⟨sessions, -, rfl⟩ := Option.map_eq_some_iff.mp ran
    exact ⟨rfl, rfl, rfl, rfl⟩
  refine ⟨owned, ?_, ?_, ?_, ?_⟩
  · intro token listed
    rw [kept.1] at listed
    exact (sound.signed token listed).advance advance
  · intro other process here
    rw [kept.2.1] at here
    exact (sound.phases other process here).advance advance
  · intro revocation listed
    rw [kept.2.2.2] at listed
    rcases List.mem_append.mp listed with new | known
    · exact revocation_commits sound.toOwned ran new
    · obtain ⟨epoch, opened, retired⟩ := sound.revocations revocation known
      refine ⟨epoch.grows advance.grows, fun familyId member => advance.opened (opened _ member),
        ?_⟩
      exact fun familyId member => run_retired_family sound.toOwned revocation.userId
        (opened familyId member) (retired familyId member) ran
  · intro userId epoch known
    rw [kept.2.2.1] at known
    exact (sound.published userId epoch known).grows advance.grows

theorem run_revocations {world next : World} {slot : Nat} {request : Request}
    (ran : world.run slot request = some next)
    (other : ∀ userId replacement now, request ≠ .revokeAllForUser userId replacement now) :
    next.revocations = world.revocations := by
  obtain ⟨sessions, -, rfl⟩ := Option.map_eq_some_iff.mp ran
  have none : revokedBy world slot request (perform world.accounts request).1 = [] := by
    cases request with
    | revokeAllForUser userId replacement now => exact absurd rfl (other userId replacement now)
    | _ => rfl
  simp [none]

theorem stored_sound {world next : World} {slot : Nat} (sound : Sound world) (user : User)
    (choice : Choice) (ran : world.run slot (createRequest user choice) = some next) :
    PhaseSound next
      (stored user choice.familyId (perform world.accounts (createRequest user choice)).1) := by
  generalize answered : (perform world.accounts (createRequest user choice)).1 = answer
  unfold stored
  split
  · rename_i role epoch
    have revocations := run_revocations ran fun _ _ _ => Users.Request.noConfusion
    obtain ⟨sessions, stepped, rfl⟩ := Option.map_eq_some_iff.mp ran
    obtain ⟨admitted, performed, -⟩ := step_performs world.sessions sessions _ stepped
    have opens : (user.id, choice.familyId) ∈
        openedBy (createRequest user choice) (.created (.created role epoch)) := .head _
    have fresh := openedBy_fresh world.sessions (createRequest user choice) _ admitted
      (answered.symm ▸ opens)
    refine ⟨?_, ?_, ?_⟩
    · exact List.mem_append_left _ (answered.symm ▸ opens)
    · simp only [createRequest, perform] at answered
      split at answered
      · rename_i outcome after success
        cases answered
        obtain ⟨users, ⟨-, other⟩ | ⟨owner, row, found, -, same, -⟩⟩ :=
          create_frame world.accounts after _ choice.id _ success
        · cases other
        · cases same
          have grows := perform_grows world.accounts (createRequest user choice)
            fun _ => Users.Request.noConfusion
          have reached : AtMost world.accounts user.id owner.tokenEpoch :=
            ⟨owner, found, Int.le_refl _⟩
          have later := reached.grows grows
          rw [show (perform world.accounts (createRequest user choice)).2 = sessions.accounts from
            performed.symm] at later
          exact later
      · cases answered
    · intro revocation listed same member
      rw [revocations] at listed
      have known := (sound.revocations revocation listed).opened choice.familyId member
      exact absurd (sound.issued _ known) fresh.1
  · trivial
  · trivial

theorem rotated_sound {world next : World} {slot : Nat} (sound : Sound world) (tokenHash : String)
    (owner : RefreshTokenOwner) (choice : Choice)
    (ran : world.run slot (rotateRequest reuseGraceMs tokenHash owner choice) = some next) :
    PhaseSound next (rotated (familyOf world.accounts tokenHash owner)
      (perform world.accounts (rotateRequest reuseGraceMs tokenHash owner choice)).1) := by
  generalize answered :
    (perform world.accounts (rotateRequest reuseGraceMs tokenHash owner choice)).1 = answer
  unfold rotated
  split
  · rename_i userId role epoch
    have advance := run_advance (fun _ => Users.Request.noConfusion) ran
    have revocations := run_revocations ran fun _ _ _ => Users.Request.noConfusion
    simp only [rotateRequest, perform] at answered
    split at answered
    · rename_i outcome after success
      cases answered
      obtain ⟨-, record, user, found, live, mine, owned, -, epoch⟩ :=
        rotate_frame world.accounts after _ choice.clock _ success
      have family : familyOf world.accounts tokenHash owner = record.familyId := by
        simp only [familyOf]
        rw [show world.accounts.findToken tokenHash = some record from found]
        rfl
      have listed := (findToken_some world.accounts _ record found).1
      refine ⟨?_, ?_, ?_⟩
      · have known := sound.tokens record listed
        rw [mine, ← family] at known
        exact advance.opened known
      · exact AtMost.grows ⟨user, owned, Int.le_of_eq epoch.symm⟩ advance.grows
      · intro revocation known same member
        rw [revocations] at known
        have retired := (sound.revocations revocation known).retired _ member
        exact absurd live.1 (retired record listed family.symm)
    · cases answered
  · trivial
  · trivial
  · trivial

theorem revoked_sound {world next : World} {slot : Nat} (operation : Operation) (userId : Nat)
    (replacement : Option PasswordReplacement) (now : Int)
    (ran : world.run slot (.revokeAllForUser userId replacement now) = some next) :
    PhaseSound next (revoked operation userId
      (perform world.accounts (.revokeAllForUser userId replacement now)).1) := by
  generalize answered :
    (perform world.accounts (.revokeAllForUser userId replacement now)).1 = answer
  unfold revoked
  split
  · rename_i epoch
    obtain ⟨user, written, found, -, same, -, id, accounts⟩ :=
      revokeAll_matched world.accounts userId replacement now epoch answered
    obtain ⟨sessions, stepped, rfl⟩ := Option.map_eq_some_iff.mp ran
    have performed := (step_performs world.sessions sessions _ stepped).2.1
    refine ⟨written, ?_, Int.le_of_eq same.symm⟩
    show sessions.accounts.findUser userId = some written
    rw [performed]
    have after := findUser_revoked world.accounts userId written now id userId
    rw [found] at after
    simp only [Option.map_some, findUser_id _ _ _ found, if_true] at after
    rw [← after]
    exact congrArg (fun accounts => Accounts.findUser accounts userId) accounts
  · unfold Operation.unrevoked
    split <;> trivial
  · trivial

/-! ## One statement -/

theorem apply_sound {world next : World} {slot : Nat} {process : Process} {choice : Choice}
    {effect : Effect} {phase : Phase} (sound : Sound world)
    (carries : PhaseSound world process.phase)
    (does : Does reuseGraceMs world process choice effect phase)
    (applied : world.apply slot effect = some next) : Sound next ∧ PhaseSound next phase := by
  cases does with
  | passes phase plain =>
      cases applied
      exact ⟨sound, phaseSound_plain _ phase plain⟩
  | reads userId epoch current =>
      cases applied
      exact ⟨sound, atMost_currentEpoch world.accounts userId epoch current⟩
  | lists =>
      cases applied
      refine ⟨sound, fun change listed => ?_⟩
      obtain ⟨userId, -, found⟩ := List.mem_filterMap.mp listed
      obtain ⟨epoch, current, rfl⟩ := Option.map_eq_some_iff.mp found
      exact atMost_currentEpoch world.accounts userId epoch current
  | hashes userId verified =>
      simp only [World.apply] at applied
      split at applied <;> cases applied
      refine ⟨sound.quiet ?_ sound.signed sound.published, trivial⟩
      exact quiet_of_accounts _ _ rfl rfl rfl rfl
  | creates userId role absent =>
      simp only [World.apply] at applied
      split at applied <;> cases applied
      let user : User := ⟨userId, choice.passwordHash, role, 0⟩
      have grows := grows_append world.accounts user
      refine ⟨sound.quiet ⟨grows, rfl, rfl, rfl, rfl, rfl⟩ sound.signed sound.published, ?_⟩
      refine ⟨user, ?_, Int.le_refl _⟩
      show (world.accounts.users ++ [user]).find? (fun user => user.id == userId) = some user
      rw [List.find?_append,
        show world.accounts.users.find? (fun user => user.id == userId) = none from absent]
      simp [user]
  | prunes request prunes phase plain =>
      have transacts : Transacts request := by
        rintro users rfl
        exact prunes
      exact ⟨sound.run transacts applied, phaseSound_plain _ phase plain⟩
  | stores user =>
      exact ⟨sound.run (fun _ => Users.Request.noConfusion) applied,
        stored_sound sound user choice applied⟩
  | rotates tokenHash owner presents here =>
      exact ⟨sound.run (fun _ => Users.Request.noConfusion) applied,
        rotated_sound reuseGraceMs sound tokenHash owner choice applied⟩
  | revokes userId replacement here =>
      exact ⟨sound.run (fun _ => Users.Request.noConfusion) applied,
        revoked_sound process.operation userId replacement choice.clock.atRevoke applied⟩
  | signs token here =>
      cases applied
      rw [here] at carries
      have quiet := quiet_of_accounts world { world with signed := token :: world.signed } rfl rfl
        rfl rfl
      refine ⟨sound.quiet quiet ?_ sound.published, trivial⟩
      intro other listed
      rcases List.mem_cons.mp listed with rfl | known
      · exact carries
      · exact sound.signed other known
  | bumps userId epoch here current =>
      cases applied
      have grows := grows_bump world.accounts userId
      refine ⟨sound.quiet ⟨grows, rfl, rfl, rfl, rfl, rfl⟩ sound.signed sound.published, ?_⟩
      obtain ⟨user, found, rfl⟩ := Option.map_eq_some_iff.mp current
      refine ⟨{ user with tokenEpoch := user.tokenEpoch + 1 }, ?_, Int.le_refl _⟩
      have after := findUser_bump world.accounts userId userId
      rw [found, Option.map_some, if_pos (findUser_id _ _ _ found)] at after
      exact after
  | publishes userId epoch here phase goesOn =>
      cases applied
      rw [here] at carries
      refine ⟨sound.publish userId epoch carries, ?_⟩
      rcases goesOn with rfl | plain
      · exact carries
      · exact phaseSound_plain _ phase plain
  | reconciles userId epoch changes rest here listed =>
      cases applied
      rw [here] at carries
      refine ⟨sound.publish userId epoch (carries _ (.head _)), ?_⟩
      exact fun change member => carries change (listed member)

/-! ## Any number of requests -/

inductive Steps (world : World) : Event → World → Prop where
  | arrives (slot : Nat) (operation : Operation) (free : world.requests slot = none) :
      Steps world (.arrive slot operation)
        (world.goOn slot ⟨operation, operation.first, world.detections⟩ operation.first)
  | turns (slot : Nat) (choice : Choice) (process : Process) (effect : Effect) (phase : Phase)
      (next : World) (here : world.requests slot = some process)
      (ran : statement reuseGraceMs world process choice = some (effect, phase))
      (applied : world.apply slot effect = some next) :
      Steps world (.turn slot choice) (next.goOn slot process phase)
  | fails (slot : Nat) (process : Process) (here : world.requests slot = some process)
      (unfinished : process.phase.finished = false) :
      Steps world (.fail slot) (world.goOn slot process .failed)

theorem step_steps (world next : World) (event : Event)
    (stepped : step reuseGraceMs world event = some next) :
    Steps reuseGraceMs world event next := by
  cases event with
  | arrive slot operation =>
      simp only [step] at stepped
      split at stepped <;> cases stepped
      rename_i free
      exact .arrives slot operation free
  | turn slot choice =>
      obtain ⟨process, here, rest⟩ := Option.bind_eq_some_iff.mp stepped
      obtain ⟨⟨effect, phase⟩, ran, rest⟩ := Option.bind_eq_some_iff.mp rest
      obtain ⟨middle, applied, same⟩ := Option.bind_eq_some_iff.mp rest
      cases same
      exact .turns slot choice process effect phase middle here ran applied
  | fail slot =>
      obtain ⟨process, here, rest⟩ := Option.bind_eq_some_iff.mp stepped
      split at rest <;> cases rest
      rename_i unfinished
      exact .fails slot process here (by simpa using unfinished)

theorem Sound.goOn {world : World} (sound : Sound world) (slot : Nat) (process : Process)
    (phase : Phase) (carries : PhaseSound world phase) : Sound (world.goOn slot process phase) := by
  have advance : Advance world (world.goOn slot process phase) :=
    ⟨grows_of_users _ _ rfl, List.Subset.refl _, fun _ listed => .inl listed⟩
  have owned : Owned (world.goOn slot process phase) :=
    ⟨sound.families, sound.tokens, sound.issued, sound.once⟩
  refine ⟨owned, ?_, ?_, ?_, sound.published⟩
  · exact fun token listed => (sound.signed token listed).advance advance
  · intro other found here
    by_cases same : other = slot
    · subst same
      simp only [World.goOn, Function.update_self, Option.some.injEq] at here
      subst here
      exact carries.advance advance
    · simp only [World.goOn, Function.update_of_ne same] at here
      exact (sound.phases other found here).advance advance
  · intro revocation listed
    obtain ⟨epoch, opened, retired⟩ := sound.revocations revocation listed
    exact ⟨epoch, opened, retired⟩

theorem Operation.first_plain (operation : Operation) : operation.first.plain = true := by
  cases operation <;> rfl

theorem sound_step (world : World) (event : Event) (next : World) (sound : Sound world)
    (stepped : step reuseGraceMs world event = some next) : Sound next := by
  cases step_steps reuseGraceMs world next event stepped with
  | arrives slot operation free =>
      exact sound.goOn slot _ _ (phaseSound_plain _ _ operation.first_plain)
  | turns slot choice process effect phase middle here ran applied =>
      have does := statement_does reuseGraceMs world process choice effect phase ran
      obtain ⟨after, carries⟩ :=
        apply_sound reuseGraceMs sound (sound.phases slot process here) does applied
      exact after.goOn slot process phase carries
  | fails slot process here unfinished => exact sound.goOn slot process .failed trivial

theorem sound_start (users : List User) : Sound (start users) := by
  refine ⟨⟨opened_families users, ?_, ?_, List.nodup_nil⟩, ?_, ?_, ?_, ?_⟩
  · exact fun row member => nomatch member
  · exact fun session member => nomatch member
  · exact fun token member => nomatch member
  · exact fun slot process here => nomatch here
  · exact fun revocation member => nomatch member
  · exact fun userId epoch known => nomatch known

theorem sound_run (users : List User) (events : List Event) (world : World)
    (ran : Runs.run (step reuseGraceMs) (start users) events = some world) : Sound world :=
  Runs.run_preserves (step reuseGraceMs) Sound (sound_step reuseGraceMs) events (start users) world
    (sound_start users) ran

end Commerce.Users.Service
