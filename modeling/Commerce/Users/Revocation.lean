import Commerce.Users.Sound

/-!
# Revocation

A revocation that has returned has published its epoch, and published epochs
only rise: what was signed for the sessions it ended is refused by every
verification that starts later.  A replaced password opens no session again.
-/

set_option autoImplicit false

namespace Commerce.Users.Service

open Tables
open Users

variable (reuseGraceMs : Int)

/-! ## The published epochs -/

def Published (world : World) (userId : Nat) (epoch : Int) : Prop :=
  ∃ current, world.published userId = some current ∧ epoch ≤ current

def Raises (world next : World) : Prop :=
  ∀ userId epoch, Published world userId epoch → Published next userId epoch

theorem raises_of_same (world next : World) (same : next.published = world.published) :
    Raises world next := by
  rintro userId epoch ⟨current, known, below⟩
  exact ⟨current, same ▸ known, below⟩

theorem published_publish (world : World) (userId : Nat) (epoch : Int) :
    Published { world with
      published := Function.update world.published userId
        (some (raiseEpoch (world.published userId) epoch)) } userId epoch :=
  ⟨_, Function.update_self _ _ _, (raiseEpoch_cases (world.published userId) epoch).1.1⟩

theorem raises_publish (world : World) (userId : Nat) (epoch : Int) :
    Raises world { world with
      published := Function.update world.published userId
        (some (raiseEpoch (world.published userId) epoch)) } := by
  rintro other found ⟨current, known, below⟩
  by_cases same : other = userId
  · subst same
    have raised := (raiseEpoch_cases (world.published other) epoch).1.2 current known
    exact ⟨_, Function.update_self _ _ _, by omega⟩
  · exact ⟨current, (Function.update_of_ne same _ _).trans known, below⟩

theorem apply_raises {world next : World} {slot : Nat} {effect : Effect}
    (applied : world.apply slot effect = some next) : Raises world next := by
  cases effect with
  | none =>
      cases applied
      exact raises_of_same _ _ rfl
  | run request =>
      obtain ⟨sessions, -, rfl⟩ := Option.map_eq_some_iff.mp applied
      exact raises_of_same _ _ rfl
  | bump userId =>
      cases applied
      exact raises_of_same _ _ rfl
  | create user =>
      simp only [World.apply] at applied
      split at applied <;> cases applied
      exact raises_of_same _ _ rfl
  | publish userId epoch =>
      cases applied
      exact raises_publish world userId epoch
  | sign token =>
      cases applied
      exact raises_of_same _ _ rfl
  | hash passwordHash =>
      simp only [World.apply] at applied
      split at applied <;> cases applied
      exact raises_of_same _ _ rfl

theorem step_raises (world next : World) (event : Event)
    (stepped : step reuseGraceMs world event = some next) : Raises world next := by
  cases step_steps reuseGraceMs world next event stepped with
  | arrives slot operation free => exact raises_of_same _ _ rfl
  | turns slot choice process effect phase middle here ran applied =>
      have raises := apply_raises applied
      exact raises
  | fails slot process here unfinished => exact raises_of_same _ _ rfl

/-! ## A revocation that returned -/

/-- A committed revocation publishes its epoch, has published it, or failed. -/
def Announced (world : World) : Prop :=
  ∀ revocation ∈ world.revocations, ∃ process, world.requests revocation.slot = some process ∧
    (process.phase = .publishing revocation.userId revocation.epoch ∨ process.phase = .failed ∨
      Published world revocation.userId revocation.epoch)

theorem statement_publishing (world : World) (process : Process) (choice : Choice)
    (effect : Effect) (phase : Phase) (userId : Nat) (epoch : Int)
    (here : process.phase = .publishing userId epoch)
    (ran : statement reuseGraceMs world process choice = some (effect, phase)) :
    effect = .publish userId epoch := by
  simp only [statement, here, Option.some.injEq, Prod.mk.injEq] at ran
  exact ran.1.symm

theorem statement_failed (world : World) (process : Process) (choice : Choice)
    (here : process.phase = .failed) : statement reuseGraceMs world process choice = none := by
  simp [statement, here]

theorem apply_revocations {world next : World} {slot : Nat} {effect : Effect}
    (applied : world.apply slot effect = some next) (revocation : Revocation)
    (listed : revocation ∈ next.revocations) :
    revocation ∈ world.revocations ∨ ∃ request, effect = .run request ∧
      revocation ∈ revokedBy world slot request (perform world.accounts request).1 := by
  cases effect with
  | run request =>
      obtain ⟨sessions, -, rfl⟩ := Option.map_eq_some_iff.mp applied
      rcases List.mem_append.mp listed with new | known
      · exact .inr ⟨request, rfl, new⟩
      · exact .inl known
  | create | hash =>
      simp only [World.apply] at applied
      split at applied <;> cases applied
      exact .inl listed
  | none | bump | publish | sign =>
      cases applied
      exact .inl listed

theorem apply_requests {world next : World} {slot : Nat} {effect : Effect}
    (applied : world.apply slot effect = some next) : next.requests = world.requests := by
  cases effect with
  | run request =>
      obtain ⟨sessions, -, rfl⟩ := Option.map_eq_some_iff.mp applied
      rfl
  | create | hash =>
      simp only [World.apply] at applied
      split at applied <;> cases applied
      rfl
  | none | bump | publish | sign =>
      cases applied
      rfl

theorem goOn_requests (world : World) (slot other : Nat) (process : Process) (phase : Phase) :
    (world.goOn slot process phase).requests other =
      if other = slot then some { process with phase := phase } else world.requests other := by
  simp only [World.goOn, Function.update_apply]

/-- The statement of a revocation that matched leaves its request publishing. -/
theorem revoked_publishes (world : World) (process : Process) (choice : Choice) (slot : Nat)
    (request : Request) (phase : Phase) (revocation : Revocation)
    (does : Does reuseGraceMs world process choice (.run request) phase)
    (member : revocation ∈ revokedBy world slot request (perform world.accounts request).1) :
    revocation.slot = slot ∧ phase = .publishing revocation.userId revocation.epoch := by
  obtain ⟨userId, replacement, now, epoch, same, answer, rfl⟩ :=
    revokedBy_cases world slot request _ revocation member
  cases does with
  | prunes _ prunes =>
      subst same
      exact prunes.elim
  | stores user => cases same
  | rotates tokenHash owner => cases same
  | revokes =>
      cases same
      rw [answer]
      exact ⟨rfl, rfl⟩

theorem announced_step (world : World) (event : Event) (next : World)
    (announced : Announced world) (stepped : step reuseGraceMs world event = some next) :
    Announced next := by
  have raises := step_raises reuseGraceMs world next event stepped
  cases step_steps reuseGraceMs world next event stepped with
  | arrives slot operation free =>
      intro revocation listed
      obtain ⟨process, here, state⟩ := announced revocation listed
      have other : revocation.slot ≠ slot := by
        intro same
        rw [same, free] at here
        cases here
      refine ⟨process, ?_, state⟩
      rw [goOn_requests, if_neg other]
      exact here
  | turns slot choice process effect phase middle here ran applied =>
      have does := statement_does reuseGraceMs world process choice effect phase ran
      intro revocation listed
      rcases apply_revocations applied revocation listed with known | ⟨request, rfl, new⟩
      · obtain ⟨found, there, state⟩ := announced revocation known
        by_cases same : revocation.slot = slot
        · have itself : found = process := by
            rw [same, here] at there
            exact (Option.some.inj there).symm
          subst itself
          refine ⟨_, by rw [goOn_requests, if_pos same], .inr (.inr ?_)⟩
          rcases state with publishing | failed | already
          · have publishes :=
              statement_publishing reuseGraceMs world found choice effect phase _ _ publishing ran
            rw [publishes] at applied
            cases applied
            exact published_publish world revocation.userId revocation.epoch
          · rw [statement_failed reuseGraceMs world found choice failed] at ran
            cases ran
          · exact raises _ _ already
        · refine ⟨found, ?_, ?_⟩
          · rw [goOn_requests, if_neg same, apply_requests applied]
            exact there
          · rcases state with publishing | failed | already
            · exact .inl publishing
            · exact .inr (.inl failed)
            · exact .inr (.inr (raises _ _ already))
      · obtain ⟨same, publishing⟩ :=
          revoked_publishes reuseGraceMs world process choice slot request phase revocation does new
        exact ⟨_, by rw [goOn_requests, if_pos same], .inl publishing⟩
  | fails slot process here unfinished =>
      intro revocation listed
      obtain ⟨found, there, state⟩ := announced revocation listed
      by_cases same : revocation.slot = slot
      · exact ⟨_, by rw [goOn_requests, if_pos same], .inr (.inl rfl)⟩
      · refine ⟨found, ?_, state⟩
        rw [goOn_requests, if_neg same]
        exact there

/-! ## Replaced passwords -/

def Phase.pendingHash : Phase → Option String
  | .revoking _ (some replacement) => some replacement.newPasswordHash
  | _ => none

theorem pendingHash_plain (phase : Phase) (plain : phase.plain = true) :
    phase.pendingHash = none := by
  cases phase with
  | revoking userId replacement =>
      cases replacement with
      | none => rfl
      | some => cases plain
  | _ => rfl

structure Unused (world : World) (hash : String) : Prop where
  known : hash ∈ world.hashes
  users : ∀ user ∈ world.accounts.users, user.passwordHash ≠ hash
  replaced : ∀ revocation ∈ world.revocations, revocation.replacedHash ≠ some hash

/-- No user has a hash that was replaced for them, and a hash about to be stored is unused and
that of one request. -/
structure Salted (world : World) : Prop where
  users : ∀ user ∈ world.accounts.users, user.passwordHash ∈ world.hashes
  replaced : ∀ revocation ∈ world.revocations, ∀ hash, revocation.replacedHash = some hash →
    hash ∈ world.hashes ∧ ∀ user ∈ world.accounts.users, user.id = revocation.userId →
      user.passwordHash ≠ hash
  pending : ∀ slot process hash, world.requests slot = some process →
    process.phase.pendingHash = some hash → Unused world hash
  distinct : ∀ one other first second hash, world.requests one = some first →
    world.requests other = some second → first.phase.pendingHash = some hash →
    second.phase.pendingHash = some hash → one = other

def KeepsPending (world next : World) : Prop :=
  ∀ slot process hash, next.requests slot = some process → process.phase.pendingHash = some hash →
    ∃ before, world.requests slot = some before ∧ before.phase.pendingHash = some hash

theorem Salted.keep {world next : World} (salted : Salted world)
    (hashes : world.hashes ⊆ next.hashes)
    (users : ∀ user ∈ next.accounts.users, ∃ old ∈ world.accounts.users,
      old.id = user.id ∧ old.passwordHash = user.passwordHash)
    (revocations : next.revocations = world.revocations) (pending : KeepsPending world next) :
    Salted next := by
  refine ⟨?_, ?_, ?_, ?_⟩
  · intro user listed
    obtain ⟨old, known, -, same⟩ := users user listed
    exact same ▸ hashes (salted.users old known)
  · intro revocation listed hash replaced
    rw [revocations] at listed
    obtain ⟨known, unlike⟩ := salted.replaced revocation listed hash replaced
    refine ⟨hashes known, fun user member mine => ?_⟩
    obtain ⟨old, before, id, same⟩ := users user member
    exact same ▸ unlike old before (id.trans mine)
  · intro slot process hash here about
    obtain ⟨before, there, same⟩ := pending slot process hash here about
    have unused := salted.pending slot before hash there same
    refine ⟨hashes unused.known, fun user member => ?_, ?_⟩
    · obtain ⟨old, known, -, kept⟩ := users user member
      exact kept ▸ unused.users old known
    · rw [revocations]
      exact unused.replaced
  · intro one other first second hash here there about also
    obtain ⟨before, known, same⟩ := pending one first hash here about
    obtain ⟨earlier, listed, kept⟩ := pending other second hash there also
    exact salted.distinct one other before earlier hash known listed same kept

theorem keepsPending_goOn (world next : World) (slot : Nat) (process : Process) (phase : Phase)
    (requests : next.requests = world.requests) (quiet : phase.pendingHash = none) :
    KeepsPending world (next.goOn slot process phase) := by
  intro other found hash here about
  rw [goOn_requests] at here
  split at here
  · cases here
    rw [show ({ process with phase := phase } : Process).phase.pendingHash = none from quiet]
      at about
    cases about
  · rw [requests] at here
    exact ⟨found, here, about⟩

theorem Salted.quiet {world next : World} (salted : Salted world) (slot : Nat) (process : Process)
    (phase : Phase) (hashes : world.hashes ⊆ next.hashes)
    (users : next.accounts.users = world.accounts.users)
    (revocations : next.revocations = world.revocations)
    (requests : next.requests = world.requests) (quiet : phase.pendingHash = none) :
    Salted (next.goOn slot process phase) := by
  refine salted.keep hashes (fun user member => ⟨user, ?_, rfl, rfl⟩) revocations
    (keepsPending_goOn world next slot process phase requests quiet)
  exact users ▸ member

theorem perform_users (accounts : Accounts) (request : Request) (transacts : Transacts request)
    (other : ∀ userId replacement now, request ≠ .revokeAllForUser userId replacement now) :
    (perform accounts request).2.users = accounts.users := by
  cases request with
  | create input id =>
      simp only [perform]
      split
      · rename_i outcome next success
        exact (create_frame accounts next input id outcome success).1
      · rfl
  | rotate input clock =>
      simp only [perform]
      split
      · rename_i outcome next success
        exact (rotate_frame accounts next input clock outcome success).1.users
      · rfl
  | revokeAllForUser userId replacement now => exact absurd rfl (other userId replacement now)
  | revokeFamily | selectDoomed | deleteDoomed => rfl
  | writeUsers users => exact absurd rfl (transacts users)

theorem Salted.run {world next : World} (salted : Salted world) (slot : Nat) (process : Process)
    (request : Request) (phase : Phase) (transacts : Transacts request)
    (other : ∀ userId replacement now, request ≠ .revokeAllForUser userId replacement now)
    (quiet : phase.pendingHash = none) (ran : world.run slot request = some next) :
    Salted (next.goOn slot process phase) := by
  have revocations := run_revocations ran other
  obtain ⟨sessions, stepped, rfl⟩ := Option.map_eq_some_iff.mp ran
  have performed := (step_performs world.sessions sessions request stepped).2.1
  refine salted.quiet slot process phase (List.Subset.refl _) ?_ revocations rfl quiet
  show sessions.accounts.users = world.accounts.users
  rw [performed]
  exact perform_users world.accounts request transacts other

theorem stored_pending (user : User) (familyId : Nat) (answer : Users.Answer) :
    (stored user familyId answer).pendingHash = none := by
  unfold stored
  split <;> rfl

theorem rotated_pending (familyId : Nat) (answer : Users.Answer) :
    (rotated familyId answer).pendingHash = none := by
  unfold rotated
  split <;> rfl

theorem revoked_pending (operation : Operation) (userId : Nat) (answer : Users.Answer) :
    (revoked operation userId answer).pendingHash = none := by
  unfold revoked
  split
  · rfl
  · unfold Operation.unrevoked
    split <;> rfl
  · rfl

/-- The hash a matched revocation stores is no hash of before, or the one the user had. -/
theorem written_hash {world : World} (salted : Salted world) (slot : Nat) (process : Process)
    (userId : Nat) (replacement : Option PasswordReplacement) (user written : User)
    (here : world.requests slot = some process)
    (revoking : process.phase = .revoking userId replacement)
    (hash : written.passwordHash = (replacement.map (·.newPasswordHash)).getD user.passwordHash) :
    replacement = none ∧ written.passwordHash = user.passwordHash ∨
      ∃ replaced, replacement = some replaced ∧
        process.phase.pendingHash = some written.passwordHash ∧
        Unused world written.passwordHash := by
  cases replacement with
  | none => exact .inl ⟨rfl, hash⟩
  | some replaced =>
      have same : written.passwordHash = replaced.newPasswordHash := hash
      have pending : process.phase.pendingHash = some written.passwordHash := by
        rw [revoking, same]
        rfl
      exact .inr ⟨replaced, rfl, pending, salted.pending slot process _ here pending⟩

theorem mem_written (users : List User) (userId : Nat) (written user : User)
    (member : user ∈ update (·.id) userId (fun _ => written) users) :
    user = written ∨ user ∈ users ∧ user.id ≠ userId := by
  obtain ⟨old, listed, rfl⟩ := (mem_update _ _ _ _ _).mp member
  split
  · exact .inl rfl
  · rename_i other
    exact .inr ⟨listed, other⟩

theorem Salted.revokes {world next : World} (salted : Salted world) (slot : Nat)
    (process : Process) (userId : Nat) (replacement : Option PasswordReplacement) (now : Int)
    (phase : Phase) (here : world.requests slot = some process)
    (revoking : process.phase = .revoking userId replacement) (quiet : phase.pendingHash = none)
    (ran : world.run slot (.revokeAllForUser userId replacement now) = some next) :
    Salted (next.goOn slot process phase) := by
  obtain ⟨sessions, stepped, rfl⟩ := Option.map_eq_some_iff.mp ran
  have performed := (step_performs world.sessions sessions _ stepped).2.1
  simp only [perform] at performed
  have run := revokeAllForUser_cases world.accounts userId replacement now
  rcases run with unmatched | ⟨user, written, found, id, -, hash, matched⟩
  · have same : sessions.accounts = world.accounts := performed.trans (congrArg Prod.snd unmatched)
    refine salted.quiet slot process phase (List.Subset.refl _) (congrArg Accounts.users same) ?_
      rfl quiet
    simp [revokedBy, perform, unmatched]
  · have users : sessions.accounts.users =
        update (·.id) userId (fun _ => written) world.accounts.users :=
      congrArg Accounts.users (performed.trans (congrArg Prod.snd matched))
    have owner : user ∈ world.accounts.users := List.mem_of_find?_eq_some found
    have ownerId := findUser_id world.accounts userId user found
    have stores := written_hash salted slot process userId replacement user written here revoking
      hash
    have quietly := keepsPending_goOn world
      { world with
        sessions
        opened := openedBy (.revokeAllForUser userId replacement now)
          (perform world.accounts (.revokeAllForUser userId replacement now)).1 ++ world.opened
        revocations := revokedBy world slot (.revokeAllForUser userId replacement now)
          (perform world.accounts (.revokeAllForUser userId replacement now)).1 ++
            world.revocations
        detections := detectedBy world.accounts slot (.revokeAllForUser userId replacement now)
          (perform world.accounts (.revokeAllForUser userId replacement now)).1 ++
            world.detections } slot process phase rfl quiet
    have replaces : ∀ revocation ∈ revokedBy world slot (.revokeAllForUser userId replacement now)
        (perform world.accounts (.revokeAllForUser userId replacement now)).1, ∀ old,
        revocation.replacedHash = some old →
        revocation.userId = userId ∧ old = user.passwordHash ∧ replacement ≠ none := by
      intro revocation member old replaced
      obtain ⟨_, _, _, _, same, -, rfl⟩ := revokedBy_cases world slot _ _ revocation member
      cases same
      obtain ⟨replaced', some', later⟩ := Option.bind_eq_some_iff.mp replaced
      rw [found] at later
      exact ⟨rfl, (Option.some.inj later).symm, by simp [some']⟩
    refine ⟨?_, ?_, ?_, ?_⟩
    · intro member listed
      have after : member ∈ sessions.accounts.users := listed
      rw [users] at after
      rcases mem_written _ _ _ _ after with rfl | ⟨known, -⟩
      · rcases stores with ⟨-, same⟩ | ⟨-, -, -, unused⟩
        · exact same ▸ salted.users user owner
        · exact unused.known
      · exact salted.users member known
    · intro revocation listed old replaced
      rcases List.mem_append.mp listed with new | known
      · obtain ⟨mine, rfl, replacing⟩ := replaces revocation new old replaced
        refine ⟨salted.users user owner, fun member after same => ?_⟩
        have after : member ∈ sessions.accounts.users := after
        rw [users] at after
        rcases mem_written _ _ _ _ after with rfl | ⟨-, other⟩
        · rcases stores with ⟨none, -⟩ | ⟨-, -, -, unused⟩
          · exact absurd none replacing
          · exact (unused.users user owner).symm
        · exact absurd (same.trans mine) other
      · obtain ⟨used, unlike⟩ := salted.replaced revocation known old replaced
        refine ⟨used, fun member after same => ?_⟩
        have after : member ∈ sessions.accounts.users := after
        rw [users] at after
        rcases mem_written _ _ _ _ after with rfl | ⟨before, -⟩
        · rcases stores with ⟨-, kept⟩ | ⟨-, -, -, unused⟩
          · exact kept ▸ unlike user owner (ownerId.trans (id.symm.trans same))
          · exact fun equal => unused.replaced revocation known (equal ▸ replaced)
        · exact unlike member before same
    · intro other waiting pending there about
      obtain ⟨before, listed, same⟩ := quietly other waiting pending there about
      have unused := salted.pending other before pending listed same
      have distinct : other ≠ slot := by
        rintro rfl
        rw [goOn_requests, if_pos rfl] at there
        cases there
        rw [show ({ process with phase := phase } : Process).phase.pendingHash = none from quiet]
          at about
        cases about
      refine ⟨unused.known, ?_, ?_⟩
      · intro member after
        have after : member ∈ sessions.accounts.users := after
        rw [users] at after
        rcases mem_written _ _ _ _ after with rfl | ⟨known, -⟩
        · rcases stores with ⟨-, kept⟩ | ⟨-, -, mine, -⟩
          · exact kept ▸ unused.users user owner
          · intro equal
            exact distinct (salted.distinct other slot before process pending listed here same
              (equal ▸ mine))
        · exact unused.users member known
      · intro revocation member
        rcases List.mem_append.mp member with new | known
        · intro replaced
          obtain ⟨-, rfl, -⟩ := replaces revocation new _ replaced
          exact unused.users user owner rfl
        · exact unused.replaced revocation known
    · intro one other first second shared here there about also
      obtain ⟨before, known, same⟩ := quietly one first shared here about
      obtain ⟨earlier, listed, kept⟩ := quietly other second shared there also
      exact salted.distinct one other before earlier shared known listed same kept

theorem salted_step (world : World) (event : Event) (next : World) (salted : Salted world)
    (stepped : step reuseGraceMs world event = some next) : Salted next := by
  cases step_steps reuseGraceMs world next event stepped with
  | arrives slot operation free =>
      exact salted.quiet slot _ _ (List.Subset.refl _) rfl rfl rfl
        (pendingHash_plain _ operation.first_plain)
  | fails slot process here unfinished =>
      exact salted.quiet slot process .failed (List.Subset.refl _) rfl rfl rfl rfl
  | turns slot choice process effect phase middle here ran applied =>
      cases statement_does reuseGraceMs world process choice effect phase ran with
      | passes phase plain =>
          cases applied
          exact salted.quiet slot process phase (List.Subset.refl _) rfl rfl rfl
            (pendingHash_plain phase plain)
      | reads | lists =>
          cases applied
          exact salted.quiet slot process _ (List.Subset.refl _) rfl rfl rfl rfl
      | hashes userId verified =>
          simp only [World.apply] at applied
          split at applied <;> cases applied
          rename_i fresh
          refine ⟨?_, ?_, ?_, ?_⟩
          · exact fun user member => List.mem_cons_of_mem _ (salted.users user member)
          · intro revocation listed hash replaced
            obtain ⟨used, unlike⟩ := salted.replaced revocation listed hash replaced
            exact ⟨List.mem_cons_of_mem _ used, unlike⟩
          · intro other waiting pending there about
            rw [goOn_requests] at there
            split at there
            · cases there
              cases about
              refine ⟨.head _, fun user member same => ?_, fun revocation listed replaced => ?_⟩
              · have equal : user.passwordHash = choice.passwordHash := same
                exact fresh (equal ▸ salted.users user member)
              · exact fresh (salted.replaced revocation listed _ replaced).1
            · have unused := salted.pending other waiting pending there about
              exact ⟨List.mem_cons_of_mem _ unused.known, unused.users, unused.replaced⟩
          · intro one other first second shared there listed about also
            rw [goOn_requests] at there listed
            split at there <;> split at listed
            · rename_i same equal
              exact same.trans equal.symm
            · cases there
              cases about
              exact absurd (salted.pending other second _ listed also).known fresh
            · cases listed
              cases also
              exact absurd (salted.pending one first _ there about).known fresh
            · exact salted.distinct one other first second shared there listed about also
      | creates userId role absent =>
          simp only [World.apply] at applied
          split at applied <;> cases applied
          rename_i fresh
          have quietly := keepsPending_goOn world
            { world.writeUsers
                (world.accounts.users ++ [⟨userId, choice.passwordHash, role, 0⟩]) with
              hashes := choice.passwordHash :: world.hashes } slot process (.publishing userId 0)
            rfl rfl
          refine ⟨?_, ?_, ?_, ?_⟩
          · intro user member
            rcases List.mem_append.mp member with old | new
            · exact List.mem_cons_of_mem _ (salted.users user old)
            · cases List.mem_singleton.mp new
              exact .head _
          · intro revocation listed hash replaced
            obtain ⟨used, unlike⟩ := salted.replaced revocation listed hash replaced
            refine ⟨List.mem_cons_of_mem _ used, fun user member mine => ?_⟩
            rcases List.mem_append.mp member with old | new
            · exact unlike user old mine
            · cases List.mem_singleton.mp new
              intro same
              have equal : choice.passwordHash = hash := same
              exact fresh (equal ▸ used)
          · intro other waiting pending there about
            obtain ⟨before, listed, same⟩ := quietly other waiting pending there about
            have unused := salted.pending other before pending listed same
            refine ⟨List.mem_cons_of_mem _ unused.known, fun user member => ?_, unused.replaced⟩
            rcases List.mem_append.mp member with old | new
            · exact unused.users user old
            · cases List.mem_singleton.mp new
              intro same
              have equal : choice.passwordHash = pending := same
              exact fresh (equal ▸ unused.known)
          · intro one other first second shared there listed about also
            obtain ⟨before, known, same⟩ := quietly one first shared there about
            obtain ⟨earlier, found, kept⟩ := quietly other second shared listed also
            exact salted.distinct one other before earlier shared known found same kept
      | prunes request prunes phase plain =>
          refine salted.run slot process request phase ?_ ?_ (pendingHash_plain phase plain) applied
          · rintro users rfl
            exact prunes
          · rintro userId replacement now rfl
            exact prunes
      | stores user =>
          exact salted.run slot process _ _ (fun _ => Users.Request.noConfusion)
            (fun _ _ _ => Users.Request.noConfusion) (stored_pending ..) applied
      | rotates tokenHash owner presents =>
          exact salted.run slot process _ _ (fun _ => Users.Request.noConfusion)
            (fun _ _ _ => Users.Request.noConfusion) (rotated_pending ..) applied
      | revokes userId replacement revoking =>
          exact salted.revokes slot process userId replacement _ _ here revoking
            (revoked_pending ..) applied
      | signs token =>
          cases applied
          exact salted.quiet slot process .succeeded (List.Subset.refl _) rfl rfl rfl rfl
      | bumps userId epoch =>
          cases applied
          refine salted.keep (List.Subset.refl _) (fun user member => ?_) rfl
            (keepsPending_goOn world _ slot process _ rfl rfl)
          obtain ⟨old, listed, rfl⟩ := (mem_update _ _ _ _ _).mp member
          refine ⟨old, listed, ?_⟩
          split <;> exact ⟨rfl, rfl⟩
      | publishes userId epoch _ phase goesOn =>
          cases applied
          refine salted.quiet slot process phase (List.Subset.refl _) rfl rfl rfl ?_
          rcases goesOn with rfl | plain
          · rfl
          · exact pendingHash_plain phase plain
      | reconciles =>
          cases applied
          exact salted.quiet slot process _ (List.Subset.refl _) rfl rfl rfl rfl

theorem salted_start (users : List User) : Salted (start users) := by
  refine ⟨?_, ?_, ?_, ?_⟩
  · exact fun user member => List.mem_map_of_mem member
  · exact fun revocation member => nomatch member
  · exact fun slot process hash here => nomatch here
  · exact fun one other first second hash here => nomatch here

/-! ## Verifications that start later -/

/-- The request of the revocation was answered with success. -/
def Returned (world : World) (revocation : Revocation) : Prop :=
  ∃ process, world.requests revocation.slot = some process ∧ process.phase = .succeeded

theorem returned_published (world : World) (revocation : Revocation) (announced : Announced world)
    (listed : revocation ∈ world.revocations) (returned : Returned world revocation) :
    Published world revocation.userId revocation.epoch := by
  obtain ⟨process, here, state⟩ := announced revocation listed
  obtain ⟨found, there, succeeded⟩ := returned
  cases Option.some.inj (here.symm.trans there)
  rcases state with publishing | failed | already
  · rw [succeeded] at publishing
    cases publishing
  · rw [succeeded] at failed
    cases failed
  · exact already

/-- The later requests that verify a token of an ended session have not accepted it. -/
def Refusing (world : World) (revocation : Revocation) (later : Nat → Prop) : Prop :=
  ∀ slot process reader token, later slot → world.requests slot = some process →
    process.operation = .verify reader token → token.sub = revocation.userId →
    token.familyId ∈ revocation.families →
    process.phase = .checkingToken ∨ (process.phase = .lookingUp ∧ token ∈ world.signed) ∨
      process.phase = .refused ∨ process.phase = .failed

/-- What stays true of a revocation once it has published its epoch. -/
structure Settled (world : World) (revocation : Revocation) (later : Nat → Prop) : Prop where
  sound : Sound world
  salted : Salted world
  listed : revocation ∈ world.revocations
  published : Published world revocation.userId revocation.epoch
  refusing : Refusing world revocation later

theorem apply_grows_history {world next : World} {slot : Nat} {effect : Effect}
    (applied : world.apply slot effect = some next) :
    world.revocations ⊆ next.revocations ∧ world.signed ⊆ next.signed := by
  cases effect with
  | run request =>
      obtain ⟨sessions, -, rfl⟩ := Option.map_eq_some_iff.mp applied
      exact ⟨List.subset_append_right _ _, List.Subset.refl _⟩
  | create | hash =>
      simp only [World.apply] at applied
      split at applied <;> cases applied
      exact ⟨List.Subset.refl _, List.Subset.refl _⟩
  | sign token =>
      cases applied
      exact ⟨List.Subset.refl _, List.subset_cons_self _ _⟩
  | none | bump | publish =>
      cases applied
      exact ⟨List.Subset.refl _, List.Subset.refl _⟩

/-- A verification refuses what is behind the published epoch, and so behind the stored one. -/
theorem statement_refuses (world : World) (revocation : Revocation) (process : Process)
    (reader : EpochReader) (token : AccessToken) (choice : Choice) (effect : Effect) (phase : Phase)
    (sound : Sound world) (listed : revocation ∈ world.revocations)
    (published : Published world revocation.userId revocation.epoch)
    (verifies : process.operation = .verify reader token) (mine : token.sub = revocation.userId)
    (member : token.familyId ∈ revocation.families)
    (state : process.phase = .checkingToken ∨
      (process.phase = .lookingUp ∧ token ∈ world.signed) ∨ process.phase = .refused ∨
        process.phase = .failed)
    (ran : statement reuseGraceMs world process choice = some (effect, phase)) :
    (phase = .lookingUp ∧ token ∈ world.signed) ∨ phase = .refused := by
  rcases state with checking | ⟨looking, signed⟩ | refused | failed
  · simp only [statement, checking, verifies, Option.some.injEq, Prod.mk.injEq] at ran
    rw [← ran.2]
    split
    · rename_i genuine
      exact .inl ⟨rfl, genuine.2⟩
    · exact .inr rfl
  · obtain ⟨current, known, reached⟩ := published
    have behind := (sound.signed token signed).behind revocation listed mine.symm member
    have stale : ∀ epoch, current ≤ epoch → accepts token epoch = false := by
      intro epoch upto
      simp only [accepts, Bool.not_eq_false', decide_eq_true_eq]
      omega
    obtain ⟨user, found, upto⟩ := sound.published revocation.userId current known
    have stored : currentEpoch world.accounts revocation.userId = some user.tokenEpoch := by
      rw [currentEpoch, found, Option.map_some]
    refine .inr ?_
    cases reader with
    | stored =>
        simp only [statement, looking, verifies, mine, stored, stale _ upto, Option.some.injEq,
          Prod.mk.injEq] at ran
        exact ran.2.symm
    | published =>
        simp only [statement, looking, verifies, mine, known, stale _ (Int.le_refl _),
          Option.some.injEq, Prod.mk.injEq] at ran
        exact ran.2.symm
  · simp [statement, refused] at ran
  · simp [statement, failed] at ran

theorem settled_step (revocation : Revocation) (later : Nat → Prop) (world : World)
    (event : Event) (next : World) (settled : Settled world revocation later)
    (stepped : step reuseGraceMs world event = some next) : Settled next revocation later := by
  obtain ⟨sound, salted, listed, published, refusing⟩ := settled
  have raised := step_raises reuseGraceMs world next event stepped _ _ published
  refine ⟨sound_step reuseGraceMs world event next sound stepped,
    salted_step reuseGraceMs world event next salted stepped, ?_, raised, ?_⟩
  · cases step_steps reuseGraceMs world next event stepped with
    | arrives | fails => exact listed
    | turns other choice process effect phase middle here ran applied =>
        exact (apply_grows_history applied).1 listed
  · intro slot found reader token starts there verifies mine member
    cases step_steps reuseGraceMs world next event stepped with
    | arrives other operation free =>
        rw [goOn_requests] at there
        split at there
        · cases there
          have arriving : operation = .verify reader token := verifies
          subst arriving
          exact .inl rfl
        · exact refusing slot found reader token starts there verifies mine member
    | fails other process here unfinished =>
        rw [goOn_requests] at there
        split at there
        · cases there
          exact .inr (.inr (.inr rfl))
        · exact refusing slot found reader token starts there verifies mine member
    | turns other choice process effect phase middle here ran applied =>
        have signs := (apply_grows_history applied).2
        rw [goOn_requests, apply_requests applied] at there
        split at there
        · rename_i same
          cases there
          rcases statement_refuses reuseGraceMs world revocation process reader token choice effect
            phase sound listed published verifies mine member
            (refusing slot process reader token starts (same ▸ here) verifies mine member) ran with
            ⟨looking, signed⟩ | refused
          · exact .inr (.inl ⟨looking, signs signed⟩)
          · exact .inr (.inr (.inl refused))
        · rcases refusing slot found reader token starts there verifies mine member with
            checking | ⟨looking, signed⟩ | rest
          · exact .inl checking
          · exact .inr (.inl ⟨looking, signs signed⟩)
          · exact .inr (.inr rest)

/-! ## The law of revocation -/

/-- The sessions of the revocation are over: no refresh token of one can be rotated, and no login
that verified the replaced password stores another. -/
structure Ended (world : World) (revocation : Revocation) : Prop where
  refreshes : ∀ input clock outcome next record,
    world.accounts.findToken input.presentedTokenHash = some record →
    record.familyId ∈ revocation.families →
    rotate world.accounts input clock = .ok (outcome, next) →
    ∀ userId role tokenEpoch, outcome ≠ .rotated userId role tokenEpoch
  logins : ∀ input id outcome next, input.userId = revocation.userId →
    revocation.replacedHash = some input.verifiedPasswordHash →
    create world.accounts input id = .ok (outcome, next) → outcome = .credentialsChanged

theorem Settled.ended {world : World} {revocation : Revocation} {later : Nat → Prop}
    (settled : Settled world revocation later) : Ended world revocation := by
  refine ⟨?_, ?_⟩
  · rintro input clock outcome next record found member success userId role tokenEpoch rfl
    obtain ⟨-, other, owner, same, live, -⟩ :=
      rotate_frame world.accounts next input clock _ success
    cases Option.some.inj (same.symm.trans found)
    have retired := (settled.sound.revocations revocation settled.listed).retired _ member
    exact retired record (findToken_some world.accounts _ record found).1 rfl live.1
  · intro input id outcome next mine replaced success
    rcases (create_frame world.accounts next input id outcome success).2 with
      ⟨-, refused⟩ | ⟨owner, row, found, verified, -⟩
    · exact refused
    · have unlike := (settled.salted.replaced revocation settled.listed _ replaced).2 owner
        (List.mem_of_find?_eq_some found)
        ((findUser_id world.accounts input.userId owner found).trans mine)
      exact absurd verified unlike

/-- In every run, the published epochs never fall and never pass the stored ones.  Once a
revocation has returned, whatever runs after it, no verification that starts later accepts a
token of a session opened before it, no token of such a session is rotated, and no login with the
replaced password stores a session. -/
theorem revocation_complete (users : List User) (events : List Event) (world : World)
    (ran : Runs.run (step reuseGraceMs) (start users) events = some world) :
    (∀ userId epoch, world.published userId = some epoch →
      ∃ user, world.accounts.findUser userId = some user ∧ epoch ≤ user.tokenEpoch) ∧
    (∀ event next, step reuseGraceMs world event = some next →
      ∀ userId epoch, world.published userId = some epoch →
        ∃ later, next.published userId = some later ∧ epoch ≤ later) ∧
    ∀ revocation ∈ world.revocations, Returned world revocation →
      ∀ more final, Runs.run (step reuseGraceMs) world more = some final →
        Ended final revocation ∧
        ∀ slot process reader token, world.requests slot = none →
          final.requests slot = some process → process.operation = .verify reader token →
          token.sub = revocation.userId → token.familyId ∈ revocation.families →
          process.phase ≠ .succeeded := by
  have sound := sound_run reuseGraceMs users events world ran
  have announced : Announced world :=
    Runs.run_preserves (step reuseGraceMs) Announced (announced_step reuseGraceMs) events
      (start users) world (fun _ member => nomatch member) ran
  have salted : Salted world :=
    Runs.run_preserves (step reuseGraceMs) Salted (salted_step reuseGraceMs) events (start users)
      world (salted_start users) ran
  refine ⟨sound.published, ?_, ?_⟩
  · exact fun event next stepped userId epoch known =>
      step_raises reuseGraceMs world next event stepped userId epoch ⟨epoch, known, Int.le_refl _⟩
  · intro revocation listed returned more final onward
    have published := returned_published world revocation announced listed returned
    have settled : Settled final revocation fun slot => world.requests slot = none := by
      refine Runs.run_preserves (step reuseGraceMs) (fun now => Settled now revocation _)
        (settled_step reuseGraceMs revocation _) more world final ?_ onward
      refine ⟨sound, salted, listed, published, fun slot process reader token free here => ?_⟩
      rw [free] at here
      cases here
    refine ⟨settled.ended, ?_⟩
    intro slot process reader token free here verifies mine member succeeded
    rcases settled.refusing slot process reader token free here verifies mine member with
      state | ⟨state, -⟩ | state | state <;>
    · rw [succeeded] at state
      cases state

def choiceAt (now : Int) : Choice :=
  { passes := true
    acknowledged := true
    id := 10
    familyId := 50
    tokenHash := "h1"
    passwordHash := "new"
    expiresAt := 1000
    clock := ⟨now, now, now⟩
    selected := [] }

def firstToken : AccessToken := ⟨1, .customer, 0, 50⟩

def endedSession : List Event :=
  [ .arrive 0 (.login 1), .turn 0 (choiceAt 10), .turn 0 (choiceAt 11), .turn 0 (choiceAt 12),
    .arrive 1 (.logoutAll 1), .turn 1 (choiceAt 20), .turn 1 (choiceAt 21) ]

/-- The token of the ended session is verified, in another service and in the user service. -/
def verifiedLater : List Event :=
  [ .arrive 2 (.verify .published firstToken), .turn 2 (choiceAt 30), .turn 2 (choiceAt 31),
    .arrive 3 (.verify .stored firstToken), .turn 3 (choiceAt 32), .turn 3 (choiceAt 33) ]

theorem revocation_complete_logout :
    ∃ world final, Runs.run (step 5) (start [⟨1, "pw", .customer, 0⟩]) endedSession = some world ∧
      world.revocations = [⟨1, 1, 1, [50], none⟩] ∧ Returned world ⟨1, 1, 1, [50], none⟩ ∧
      Runs.run (step 5) world verifiedLater = some final ∧ firstToken ∈ world.signed ∧
      final.requests 2 = some ⟨.verify .published firstToken, .refused, []⟩ ∧
      final.requests 3 = some ⟨.verify .stored firstToken, .refused, []⟩ ∧
      Ended final ⟨1, 1, 1, [50], none⟩ := by
  refine ⟨_, _, rfl, rfl, ⟨_, rfl, rfl⟩, rfl, .head _, rfl, rfl, ?_⟩
  exact ((revocation_complete 5 [⟨1, "pw", .customer, 0⟩] endedSession _ rfl).2.2 _ (.head _)
    ⟨_, rfl, rfl⟩ verifiedLater _ rfl).1

end Commerce.Users.Service
