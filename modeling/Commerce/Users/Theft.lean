import Commerce.Users.Revocation

/-!
# Detected theft

A refresh that finds a replaced token revokes the family in one commit and
bumps the epoch in another.  A later presentation of the token finds nothing
left to revoke and bumps nothing: the access tokens of the family are dead when
it completes if the bump of the detection was committed by then.
-/

set_option autoImplicit false

namespace Commerce.Users.Service

open Tables
open Users

variable (reuseGraceMs : Int)

/-! ## Sessions without a live token -/

/-- Nothing is signed for a session without a live token. -/
theorem signing_other {world next : World} {slot : Nat} {process : Process} {choice : Choice}
    {effect : Effect} {token : AccessToken} (sound : Sound world) (familyId userId : Nat)
    (opened : (userId, familyId) ∈ world.opened)
    (retired : Retired (fun row => row.familyId = familyId) world.accounts.refreshTokens)
    (does : Does reuseGraceMs world process choice effect (.signing token))
    (applied : world.apply slot effect = some next) : token.familyId ≠ familyId := by
  generalize after : Phase.signing token = phase at does
  cases does with
  | passes | prunes =>
      rename_i plain
      rw [← after] at plain
      cases plain
  | stores user =>
      generalize answered : (perform world.accounts (createRequest user choice)).1 = answer at after
      obtain ⟨sessions, stepped, -⟩ := Option.map_eq_some_iff.mp applied
      have admitted := (step_performs world.sessions sessions _ stepped).1
      unfold stored at after
      split at after <;> cases after
      rename_i role epoch
      have opens : (user.id, choice.familyId) ∈ openedBy (createRequest user choice)
          (perform world.accounts (createRequest user choice)).1 := by
        rw [answered]
        exact .head _
      have fresh := (openedBy_fresh world.sessions _ _ admitted opens).1
      intro same
      have equal : choice.familyId = familyId := same
      have known := sound.issued _ opened
      exact fresh (equal ▸ known)
  | rotates tokenHash owner =>
      generalize answered : (perform world.accounts
        (rotateRequest reuseGraceMs tokenHash owner choice)).1 = answer at after
      unfold rotated at after
      split at after <;> cases after
      simp only [rotateRequest, perform] at answered
      split at answered
      · rename_i outcome later success
        cases answered
        obtain ⟨-, record, user, found, live, -⟩ :=
          rotate_frame world.accounts later _ choice.clock _ success
        have family : familyOf world.accounts tokenHash owner = record.familyId := by
          simp only [familyOf]
          rw [show world.accounts.findToken tokenHash = some record from found]
          rfl
        intro same
        have listed := (findToken_some world.accounts _ record found).1
        exact retired record listed (family.symm.trans same) live.1
      · cases answered
  | revokes userId replacement =>
      unfold revoked at after
      split at after
      · cases after
      · unfold Operation.unrevoked at after
        split at after <;> cases after
      · cases after
  | publishes userId epoch here phase goesOn =>
      rcases goesOn with rfl | plain
      · cases after
      · rw [← after] at plain
        cases plain
  | reads | lists | hashes | creates | signs | bumps | reconciles => cases after

/-! ## Detections -/

def Phase.late : Phase → Bool
  | .publishing .. | .succeeded | .refused | .failed => true
  | _ => false

/-- A request whose bump is committed only has its publish and its answer left. -/
def BumpedLate (world : World) : Prop :=
  ∀ slot ∈ world.bumped, ∃ process, world.requests slot = some process ∧ process.phase.late = true

theorem statement_late (world : World) (process : Process) (choice : Choice) (effect : Effect)
    (phase : Phase) (late : process.phase.late = true)
    (ran : statement reuseGraceMs world process choice = some (effect, phase)) :
    phase.late = true := by
  obtain ⟨operation, now, past⟩ := process
  cases now with
  | publishing userId epoch =>
      simp only [statement, Option.some.injEq, Prod.mk.injEq] at ran
      rw [← ran.2]
      split
      · cases operation with
        | verify reader token =>
            simp only [Operation.published]
            split <;> rfl
        | _ => rfl
      · rfl
  | succeeded | refused | failed => cases ran
  | _ => cases late

theorem apply_bumped {world next : World} {slot : Nat} {effect : Effect}
    (applied : world.apply slot effect = some next) :
    next.bumped = world.bumped ∨
      ∃ userId, effect = .bump userId ∧ next.bumped = slot :: world.bumped := by
  cases effect with
  | run request =>
      obtain ⟨sessions, -, rfl⟩ := Option.map_eq_some_iff.mp applied
      exact .inl rfl
  | create | hash =>
      simp only [World.apply] at applied
      split at applied <;> cases applied
      exact .inl rfl
  | bump userId =>
      cases applied
      exact .inr ⟨userId, rfl, rfl⟩
  | none | publish | sign =>
      cases applied
      exact .inl rfl

theorem bumpedLate_step (world : World) (event : Event) (next : World) (late : BumpedLate world)
    (stepped : step reuseGraceMs world event = some next) : BumpedLate next := by
  intro bumped member
  cases step_steps reuseGraceMs world next event stepped with
  | arrives slot operation free =>
      obtain ⟨process, here, past⟩ := late bumped member
      have other : bumped ≠ slot := by
        rintro rfl
        rw [free] at here
        cases here
      exact ⟨process, by rw [goOn_requests, if_neg other]; exact here, past⟩
  | fails slot process here unfinished =>
      obtain ⟨found, there, past⟩ := late bumped member
      by_cases same : bumped = slot
      · exact ⟨_, by rw [goOn_requests, if_pos same], rfl⟩
      · exact ⟨found, by rw [goOn_requests, if_neg same]; exact there, past⟩
  | turns slot choice process effect phase middle here ran applied =>
      by_cases same : bumped = slot
      · refine ⟨_, by rw [goOn_requests, if_pos same], ?_⟩
        rcases apply_bumped applied with kept | ⟨userId, rfl, grown⟩
        · have before : slot ∈ world.bumped := by
            rw [← kept, ← same]
            exact member
          obtain ⟨found, there, past⟩ := late slot before
          rw [here, Option.some.injEq] at there
          rw [← there] at past
          exact statement_late reuseGraceMs world process choice effect phase past ran
        · cases statement_does reuseGraceMs world process choice _ phase ran with
          | bumps => rfl
      · have before : bumped ∈ world.bumped := by
          have after : bumped ∈ middle.bumped := member
          rcases apply_bumped applied with kept | ⟨userId, rfl, grown⟩
          · exact kept ▸ after
          · rw [grown] at after
            exact (List.mem_cons.mp after).resolve_left same
        obtain ⟨found, there, past⟩ := late bumped before
        refine ⟨found, ?_, past⟩
        rw [goOn_requests, if_neg same, apply_requests applied]
        exact there

def Behind (world : World) (userId : Nat) (token : AccessToken) : Prop :=
  ∃ user, world.accounts.findUser userId = some user ∧ token.epoch < user.tokenEpoch

theorem Behind.grows {world next : World} {userId : Nat} {token : AccessToken}
    (behind : Behind world userId token) (grows : Grows world.accounts next.accounts) :
    Behind next userId token := by
  obtain ⟨user, found, below⟩ := behind
  obtain ⟨later, still, raised⟩ := grows userId user found
  exact ⟨later, still, by omega⟩

def Issues (world : World) (token : AccessToken) : Prop :=
  token ∈ world.signed ∨
    ∃ slot process, world.requests slot = some process ∧ process.phase = .signing token

/-- A detected family stays without a live token; its request is about to bump the epoch, has
failed, or has left every token of the family behind. -/
structure DetectionSound (world : World) (detection : Detection) : Prop where
  opened : (detection.userId, detection.familyId) ∈ world.opened
  retired : Retired (fun row => row.familyId = detection.familyId) world.accounts.refreshTokens
  request : detection.slot ∉ world.bumped → ∃ process,
    world.requests detection.slot = some process ∧
      (process.phase = .bumping detection.userId ∨ process.phase.finished = true)
  behind : detection.slot ∈ world.bumped → ∀ token, Issues world token →
    token.familyId = detection.familyId → Behind world detection.userId token

def Detected (world : World) : Prop :=
  ∀ detection ∈ world.detections, DetectionSound world detection

theorem statement_finished (world : World) (process : Process) (choice : Choice)
    (finished : process.phase.finished = true) :
    statement reuseGraceMs world process choice = none := by
  obtain ⟨operation, now, past⟩ := process
  cases now with
  | succeeded | refused | failed => rfl
  | _ => cases finished

theorem statement_bumping (world : World) (process : Process) (choice : Choice) (effect : Effect)
    (phase : Phase) (userId : Nat) (here : process.phase = .bumping userId)
    (ran : statement reuseGraceMs world process choice = some (effect, phase)) :
    effect = .bump userId ∨ phase.finished = true := by
  simp only [statement, here] at ran
  split at ran <;> cases ran
  · exact .inl rfl
  · exact .inr rfl

theorem detectedBy_cases (accounts : Accounts) (slot : Nat) (request : Request)
    (answer : Users.Answer) (detection : Detection)
    (member : detection ∈ detectedBy accounts slot request answer) :
    ∃ input clock, request = .rotate input clock ∧
      answer = .rotated (.reuse detection.userId detection.familyId true) ∧
      detection.slot = slot ∧ detection.tokenHash = input.presentedTokenHash := by
  unfold detectedBy at member
  split at member
  · split at member
    · cases List.mem_singleton.mp member
      exact ⟨_, _, rfl, rfl, rfl, rfl⟩
    · cases member
  · cases member

theorem apply_detections {world next : World} {slot : Nat} {effect : Effect}
    (applied : world.apply slot effect = some next) (detection : Detection)
    (listed : detection ∈ next.detections) :
    detection ∈ world.detections ∨ ∃ request, effect = .run request ∧
      detection ∈ detectedBy world.accounts slot request (perform world.accounts request).1 := by
  cases effect with
  | run request =>
      obtain ⟨sessions, -, rfl⟩ := Option.map_eq_some_iff.mp applied
      rcases List.mem_append.mp listed with new | known
      · exact .inr ⟨request, rfl, new⟩
      · exact .inl known
  | create | hash =>
      simp only [World.apply] at applied
      split at applied <;> cases applied
      exact .inl listed
  | none | bump | publish | sign =>
      cases applied
      exact .inl listed

theorem apply_advance {world next : World} {slot : Nat} {process : Process} {choice : Choice}
    {effect : Effect} {phase : Phase} (does : Does reuseGraceMs world process choice effect phase)
    (applied : world.apply slot effect = some next) :
    Grows world.accounts next.accounts ∧ world.opened ⊆ next.opened := by
  have same : ∀ after : World, after.sessions = world.sessions → after.opened = world.opened →
      Grows world.accounts after.accounts ∧ world.opened ⊆ after.opened := by
    intro after sessions opened
    refine ⟨grows_of_users _ _ ?_, opened ▸ List.Subset.refl _⟩
    rw [World.accounts, sessions]
    rfl
  have transaction : ∀ request, Transacts request → world.run slot request = some next →
      Grows world.accounts next.accounts ∧ world.opened ⊆ next.opened :=
    fun request transacts ran => ⟨(run_advance transacts ran).grows,
      (run_advance transacts ran).opened⟩
  cases does with
  | passes | reads | lists | signs | publishes | reconciles =>
      cases applied
      exact same _ rfl rfl
  | hashes =>
      simp only [World.apply] at applied
      split at applied <;> cases applied
      exact same _ rfl rfl
  | creates userId role absent =>
      simp only [World.apply] at applied
      split at applied <;> cases applied
      exact ⟨grows_append world.accounts _, List.Subset.refl _⟩
  | bumps userId =>
      cases applied
      exact ⟨grows_bump world.accounts userId, List.Subset.refl _⟩
  | prunes request prunes =>
      refine transaction request ?_ applied
      rintro users rfl
      exact prunes
  | stores => exact transaction _ (fun _ => Users.Request.noConfusion) applied
  | rotates => exact transaction _ (fun _ => Users.Request.noConfusion) applied
  | revokes => exact transaction _ (fun _ => Users.Request.noConfusion) applied

/-- A family without a live token stays so, whatever a statement writes. -/
theorem apply_retired {world next : World} {slot : Nat} {effect : Effect} {familyId userId : Nat}
    (owned : Owned world) (opened : (userId, familyId) ∈ world.opened)
    (retired : Retired (fun row => row.familyId = familyId) world.accounts.refreshTokens)
    (applied : world.apply slot effect = some next) :
    Retired (fun row => row.familyId = familyId) next.accounts.refreshTokens := by
  cases effect with
  | run request => exact run_retired_family owned userId opened retired applied
  | create | hash =>
      simp only [World.apply] at applied
      split at applied <;> cases applied
      exact retired
  | none | bump | publish | sign =>
      cases applied
      exact retired

/-- What a statement issues was issued before, or is what it leaves its request signing. -/
theorem issues_goOn {world next : World} {slot : Nat} {process : Process} {choice : Choice}
    {effect : Effect} {phase : Phase} {token : AccessToken}
    (here : world.requests slot = some process)
    (does : Does reuseGraceMs world process choice effect phase)
    (applied : world.apply slot effect = some next)
    (issues : Issues (next.goOn slot process phase) token) :
    Issues world token ∨ phase = .signing token := by
  rcases issues with signed | ⟨other, found, there, signing⟩
  · have before : token ∈ world.signed ∨ process.phase = .signing token := by
      have after : token ∈ next.signed := signed
      cases effect with
      | run request =>
          obtain ⟨sessions, -, rfl⟩ := Option.map_eq_some_iff.mp applied
          exact .inl after
      | create | hash =>
          simp only [World.apply] at applied
          split at applied <;> cases applied
          exact .inl after
      | sign written =>
          cases does with
          | signs _ waiting =>
              cases applied
              rcases List.mem_cons.mp after with rfl | known
              · exact .inr waiting
              · exact .inl known
      | none | bump | publish =>
          cases applied
          exact .inl after
    rcases before with known | waiting
    · exact .inl (.inl known)
    · exact .inl (.inr ⟨slot, process, here, waiting⟩)
  · rw [goOn_requests, apply_requests applied] at there
    split at there
    · cases there
      exact .inr signing
    · exact .inl (.inr ⟨other, found, there, signing⟩)

/-- The bump of a user leaves every token issued to them behind. -/
theorem behind_bump {world : World} (slot : Nat) (sound : Sound world) (userId familyId : Nat)
    (opened : (userId, familyId) ∈ world.opened) (token : AccessToken)
    (issued : Issues world token) (family : token.familyId = familyId) :
    Behind { world.writeUsers (bumpUsers world.accounts.users userId) with
      bumped := slot :: world.bumped } userId token := by
  have tokenSound : TokenSound world token := by
    rcases issued with signed | ⟨other, found, there, signing⟩
    · exact sound.signed token signed
    · have carries := sound.phases other found there
      rw [signing] at carries
      exact carries
  have session := tokenSound.session
  rw [family] at session
  have mine : token.sub = userId := sound.user session opened
  obtain ⟨user, found, below⟩ := tokenSound.epoch
  rw [mine] at found
  refine ⟨{ user with tokenEpoch := user.tokenEpoch + 1 }, ?_, Int.lt_add_one_of_le below⟩
  have after := findUser_bump world.accounts userId userId
  rw [found, Option.map_some, if_pos (findUser_id _ _ _ found)] at after
  exact after

theorem detected_turn (world middle : World) (slot : Nat) (choice : Choice) (process : Process)
    (effect : Effect) (phase : Phase) (sound : Sound world) (late : BumpedLate world)
    (detected : Detected world) (here : world.requests slot = some process)
    (ran : statement reuseGraceMs world process choice = some (effect, phase))
    (applied : world.apply slot effect = some middle) :
    Detected (middle.goOn slot process phase) := by
  have does := statement_does reuseGraceMs world process choice effect phase ran
  obtain ⟨grows, opens⟩ := apply_advance reuseGraceMs does applied
  intro detection listed
  rcases apply_detections applied detection listed with known | ⟨request, rfl, new⟩
  · obtain ⟨opened, retired, request, behind⟩ := detected detection known
    have dead := apply_retired sound.toOwned opened retired applied
    refine ⟨opens opened, dead, ?_, ?_⟩
    · intro waiting
      have before : detection.slot ∉ world.bumped := by
        rcases apply_bumped applied with kept | ⟨userId, rfl, grown⟩
        · exact kept ▸ waiting
        · exact fun member => waiting (grown ▸ List.mem_cons_of_mem _ member)
      obtain ⟨found, there, state⟩ := request before
      by_cases same : detection.slot = slot
      · rw [same, here, Option.some.injEq] at there
        subst there
        refine ⟨_, by rw [goOn_requests, if_pos same], .inr ?_⟩
        rcases state with bumping | finished
        · rcases statement_bumping reuseGraceMs world process choice effect phase _ bumping ran with
            rfl | finished
          · cases applied
            exact absurd (same ▸ List.mem_cons_self) waiting
          · exact finished
        · rw [statement_finished reuseGraceMs world process choice finished] at ran
          cases ran
      · refine ⟨found, ?_, state⟩
        rw [goOn_requests, if_neg same, apply_requests applied]
        exact there
    · intro bumped token issues family
      have issued : Issues world token := by
        rcases issues_goOn reuseGraceMs here does applied issues with before | rfl
        · exact before
        · exact absurd family
            (signing_other reuseGraceMs sound detection.familyId detection.userId opened
              retired does
              applied)
      rcases apply_bumped applied with kept | ⟨userId, rfl, grown⟩
      · have before : detection.slot ∈ world.bumped := kept ▸ bumped
        exact (behind before token issued family).grows grows
      · by_cases before : detection.slot ∈ world.bumped
        · exact (behind before token issued family).grows grows
        · -- the request of the detection runs its own bump
          have same : detection.slot = slot := by
            have after : detection.slot ∈ middle.bumped := bumped
            rw [grown] at after
            exact (List.mem_cons.mp after).resolve_right before
          obtain ⟨found, there, state⟩ := request before
          rw [same, here, Option.some.injEq] at there
          subst there
          cases does with
          | bumps _ _ bumping =>
              rcases state with waiting | finished
              · rw [bumping] at waiting
                cases waiting
                cases applied
                exact behind_bump slot sound detection.userId detection.familyId opened token issued
                  family
              · rw [bumping] at finished
                cases finished
  · obtain ⟨input, clock, rfl, answer, rfl, -⟩ :=
      detectedBy_cases world.accounts slot request _ detection new
    have unbumped : detection.slot ∉ middle.bumped := by
      intro member
      have before : detection.slot ∈ world.bumped := by
        obtain ⟨sessions, -, rfl⟩ := Option.map_eq_some_iff.mp applied
        exact member
      obtain ⟨found, there, past⟩ := late _ before
      rw [here, Option.some.injEq] at there
      subst there
      generalize same : Request.rotate input clock = request at does
      cases does with
      | rotates tokenHash owner presents rotating =>
          rw [rotating] at past
          cases past
      | prunes _ prunes =>
          subst same
          exact prunes.elim
      | stores => cases same
      | revokes => cases same
    obtain ⟨sessions, stepped, rfl⟩ := Option.map_eq_some_iff.mp applied
    have dead := (reuse_retired world.sessions sessions _ _ _ true sound.families stepped answer).2
    refine ⟨?_, dead, fun _ => ?_, fun member => absurd member unbumped⟩
    · simp only [perform] at answer
      split at answer
      · rename_i outcome after success
        cases answer
        obtain ⟨-, record, found, user, family⟩ :=
          rotate_frame world.accounts after input clock _ success
        have known := sound.tokens record (findToken_some world.accounts _ record found).1
        rw [user, family] at known
        exact List.mem_append_right _ known
      · cases answer
    · refine ⟨_, by rw [goOn_requests, if_pos rfl], .inl ?_⟩
      generalize same : Request.rotate input clock = request at does answer
      cases does with
      | rotates tokenHash owner presents rotating =>
          rw [answer]
          rfl
      | prunes _ prunes =>
          subst same
          exact prunes.elim
      | stores => cases same
      | revokes => cases same

theorem detected_quiet (world : World) (slot : Nat) (process : Process) (phase : Phase)
    (detected : Detected world) (unsigned : ∀ token, phase ≠ .signing token)
    (request : ∀ detection ∈ world.detections, detection.slot = slot →
      detection.slot ∉ world.bumped → phase.finished = true) :
    Detected (world.goOn slot process phase) := by
  intro detection listed
  obtain ⟨opened, retired, waiting, behind⟩ := detected detection listed
  refine ⟨opened, retired, ?_, ?_⟩
  · intro unbumped
    by_cases same : detection.slot = slot
    · exact ⟨_, by rw [goOn_requests, if_pos same], .inr (request detection listed same unbumped)⟩
    · obtain ⟨found, there, state⟩ := waiting unbumped
      refine ⟨found, ?_, state⟩
      rw [goOn_requests, if_neg same]
      exact there
  · intro bumped token issues family
    refine behind bumped token ?_ family
    rcases issues with signed | ⟨other, found, there, signing⟩
    · exact .inl signed
    · rw [goOn_requests] at there
      split at there
      · cases there
        exact absurd signing (unsigned token)
      · exact .inr ⟨other, found, there, signing⟩

theorem detected_step (world : World) (event : Event) (next : World) (sound : Sound world)
    (late : BumpedLate world) (detected : Detected world)
    (stepped : step reuseGraceMs world event = some next) : Detected next := by
  cases step_steps reuseGraceMs world next event stepped with
  | arrives slot operation free =>
      refine detected_quiet world slot _ operation.first detected ?_ ?_
      · cases operation <;> exact fun _ => Phase.noConfusion
      · rintro detection listed same unbumped
        obtain ⟨process, here, -⟩ := (detected detection listed).request unbumped
        rw [same, free] at here
        cases here
  | fails slot process here unfinished =>
      exact detected_quiet world slot process .failed detected (fun _ => Phase.noConfusion)
        fun _ _ _ _ => rfl
  | turns slot choice process effect phase middle here ran applied =>
      exact detected_turn reuseGraceMs world middle slot choice process effect phase sound late
        detected here ran applied

/-! ## Later presentations -/

def Phase.answered : Phase → Bool
  | .succeeded | .refused => true
  | _ => false

/-- A statement that answers a presentation of a token runs after the bumps of the thefts
detected on that token before it arrived. -/
def bumpsFirst (world : World) : Event → Bool
  | .turn slot choice =>
      match world.requests slot with
      | none => true
      | some process =>
          match statement reuseGraceMs world process choice with
          | none => true
          | some (_, phase) =>
              !phase.answered || process.past.all fun detection =>
                process.operation != .refresh detection.tokenHash ||
                  world.bumped.contains detection.slot
  | _ => true

def BumpsFirst (world : World) (event : Event) : Prop := bumpsFirst reuseGraceMs world event = true

instance (world : World) (event : Event) : Decidable (BumpsFirst reuseGraceMs world event) :=
  inferInstanceAs (Decidable (bumpsFirst reuseGraceMs world event = true))

/-- What a request found detected when it arrived is still known, and an answered presentation
has the bumps behind it. -/
structure AnsweredAfter (world : World) : Prop where
  past : ∀ slot process, world.requests slot = some process → process.past ⊆ world.detections
  bumped : ∀ slot process, world.requests slot = some process → process.phase.answered = true →
    ∀ detection ∈ process.past, process.operation = .refresh detection.tokenHash →
      detection.slot ∈ world.bumped

theorem apply_keeps {world next : World} {slot : Nat} {effect : Effect}
    (applied : world.apply slot effect = some next) :
    world.detections ⊆ next.detections ∧ world.bumped ⊆ next.bumped := by
  cases effect with
  | run request =>
      obtain ⟨sessions, -, rfl⟩ := Option.map_eq_some_iff.mp applied
      exact ⟨List.subset_append_right _ _, List.Subset.refl _⟩
  | create | hash =>
      simp only [World.apply] at applied
      split at applied <;> cases applied
      exact ⟨List.Subset.refl _, List.Subset.refl _⟩
  | bump userId =>
      cases applied
      exact ⟨List.Subset.refl _, List.subset_cons_self _ _⟩
  | none | publish | sign =>
      cases applied
      exact ⟨List.Subset.refl _, List.Subset.refl _⟩

theorem answeredAfter_step (world : World) (event : Event) (next : World)
    (after : AnsweredAfter world) (prompt : BumpsFirst reuseGraceMs world event)
    (stepped : step reuseGraceMs world event = some next) : AnsweredAfter next := by
  cases step_steps reuseGraceMs world next event stepped with
  | arrives slot operation free =>
      refine ⟨?_, ?_⟩ <;> intro other found there
      · rw [goOn_requests] at there
        split at there
        · cases there
          exact List.Subset.refl _
        · exact after.past other found there
      · rw [goOn_requests] at there
        split at there
        · cases there
          intro answered
          cases operation <;> cases answered
        · exact after.bumped other found there
  | fails slot process here unfinished =>
      refine ⟨?_, ?_⟩ <;> intro other found there
      · rw [goOn_requests] at there
        split at there
        · cases there
          exact after.past slot process here
        · exact after.past other found there
      · rw [goOn_requests] at there
        split at there
        · cases there
          exact fun answered => nomatch answered
        · exact after.bumped other found there
  | turns slot choice process effect phase middle here ran applied =>
      obtain ⟨detections, bumps⟩ := apply_keeps applied
      refine ⟨?_, ?_⟩ <;> intro other found there
      · rw [goOn_requests, apply_requests applied] at there
        split at there
        · cases there
          exact List.Subset.trans (after.past slot process here) detections
        · exact List.Subset.trans (after.past other found there) detections
      · rw [goOn_requests, apply_requests applied] at there
        split at there
        · cases there
          intro answered detection member presents
          have ended : phase.answered = true := answered
          have waited := prompt
          simp only [BumpsFirst, bumpsFirst, here, ran, ended, Bool.not_true, Bool.false_or,
            List.all_eq_true, Bool.or_eq_true, bne_iff_ne, List.contains_eq_mem,
            decide_eq_true_eq] at waited
          have presented : process.operation = .refresh detection.tokenHash := presents
          exact bumps ((waited detection member).resolve_left fun other => other presented)
        · intro answered detection member presents
          exact bumps (after.bumped other found there answered detection member presents)

/-- In every run in which a presentation of a token is only answered after the bumps of the
thefts detected on it before: once it is answered, the epoch of the user is above that of every
access token of the family. -/
theorem theft_ends_family (users : List User) (events : List Event) (world : World)
    (ran : Runs.run (step reuseGraceMs) (start users) events = some world)
    (prompt : Runs.Along (step reuseGraceMs) (BumpsFirst reuseGraceMs) (start users) events) :
    ∀ slot process detection, world.requests slot = some process →
      process.operation = .refresh detection.tokenHash → process.phase.answered = true →
      detection ∈ process.past → ∀ token ∈ world.signed, token.familyId = detection.familyId →
      ∃ user, world.accounts.findUser detection.userId = some user ∧
        token.epoch < user.tokenEpoch := by
  let Inv : World → Prop := fun world =>
    Sound world ∧ BumpedLate world ∧ Detected world ∧ AnsweredAfter world
  have kept : ∀ world event next, Inv world → BumpsFirst reuseGraceMs world event →
      step reuseGraceMs world event = some next → Inv next := by
    rintro world event next ⟨sound, late, detected, after⟩ meets stepped
    exact ⟨sound_step reuseGraceMs world event next sound stepped,
      bumpedLate_step reuseGraceMs world event next late stepped,
      detected_step reuseGraceMs world event next sound late detected stepped,
      answeredAfter_step reuseGraceMs world event next after meets stepped⟩
  have initial : Inv (start users) :=
    ⟨sound_start users, fun _ member => (nomatch member), fun _ member => (nomatch member),
      fun _ _ here => (nomatch here), fun _ _ here => (nomatch here)⟩
  obtain ⟨-, -, detected, after⟩ := Runs.run_preserves_along (step reuseGraceMs)
    (BumpsFirst reuseGraceMs) Inv kept events (start users) world initial prompt ran
  intro slot process detection here presents answered member token signed family
  have bumped := after.bumped slot process here answered detection member presents
  have known := after.past slot process here member
  exact (detected detection known).behind bumped token (.inl signed) family

/-! ## A bump that is lost -/

def refreshChoice (now : Int) (id : Nat) (tokenHash : String) : Choice :=
  { choiceAt now with id, tokenHash }

def stolenToken : List Event :=
  [ .arrive 0 (.login 1), .turn 0 (choiceAt 10), .turn 0 (choiceAt 11), .turn 0 (choiceAt 12),
    .arrive 1 (.refresh "h1"), .turn 1 (refreshChoice 20 11 "h2"),
    .turn 1 (refreshChoice 21 11 "h2"), .turn 1 (refreshChoice 22 11 "h2"),
    .arrive 2 (.refresh "h1"), .turn 2 (refreshChoice 90 12 "h3"),
    .turn 2 (refreshChoice 91 12 "h3") ]

def presentedAgain : List Event :=
  [ .arrive 3 (.refresh "h1"), .turn 3 (refreshChoice 95 13 "h4"),
    .turn 3 (refreshChoice 96 13 "h4") ]

theorem theft_ends_family_bumped :
    ∃ world, Runs.run (step 5) (start [⟨1, "pw", .customer, 0⟩])
        (stolenToken ++ .turn 2 (choiceAt 92) :: .turn 2 (choiceAt 93) :: presentedAgain) =
          some world ∧
      firstToken ∈ world.signed ∧
      ∃ user, world.accounts.findUser 1 = some user ∧ firstToken.epoch < user.tokenEpoch := by
  refine ⟨_, rfl, by decide, ?_⟩
  exact theft_ends_family 5 [⟨1, "pw", .customer, 0⟩]
    (stolenToken ++ .turn 2 (choiceAt 92) :: .turn 2 (choiceAt 93) :: presentedAgain) _ rfl
    (by decide +kernel) 3 ⟨.refresh "h1", .refused, [⟨2, "h1", 1, 50⟩]⟩ ⟨2, "h1", 1, 50⟩ rfl rfl rfl
    (.head _) firstToken (by decide) rfl

/-- The detecting request dies before its bump.  The retry finds the family revoked, bumps nothing
and is answered: the token of the family is as good as before. -/
theorem lost_bump_spares_token :
    ∃ world, Runs.run (step 5) (start [⟨1, "pw", .customer, 0⟩])
        (stolenToken ++ .fail 2 :: presentedAgain) = some world ∧
      world.requests 3 = some ⟨.refresh "h1", .refused, [⟨2, "h1", 1, 50⟩]⟩ ∧
      firstToken ∈ world.signed ∧ firstToken.familyId = 50 ∧
      world.accounts.findUser 1 = some ⟨1, "pw", .customer, 0⟩ ∧ ¬ firstToken.epoch < 0 :=
  ⟨_, rfl, rfl, by decide, rfl, rfl, by decide⟩

end Commerce.Users.Service
