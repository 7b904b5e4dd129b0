import Commerce.Users.Rightful

/-!
# What becomes of a token

A token that a later mail superseded is never honoured.  The sweeps take rows
that no consumption could match any more, so no request can tell a run with
sweeps from the same run without them.
-/

set_option autoImplicit false

namespace Commerce.Users.Recovery

open Tables SingleUse

variable {settings : Settings}

/-! ## Superseded tokens -/

variable {desk next : Desk}

structure Remembers (desk next : Desk) : Prop where
  superseded : ∀ pair ∈ desk.superseded, pair ∈ next.superseded
  honoured : ∀ honour ∈ next.honoured, honour ∈ desk.honoured ∨
    ∃ row ∈ desk.tokens honour.purpose, row.tokenHash = honour.tokenHash ∧ row.consumedAt = none

theorem Remembers.same (superseded : next.superseded = desk.superseded)
    (honoured : next.honoured = desk.honoured) : Remembers desk next :=
  ⟨fun _ listed => superseded ▸ listed, fun _ listed => .inl (honoured ▸ listed)⟩

def Operation.reads : Operation → Bool
  | .login .. | .forgotPassword _ | .resendVerification _ | .changePassword .. => true
  | .register _ | .verifyEmail _ | .resetPassword _ => false

theorem begin_reads (slot : Nat) (operation : Operation) (choice : Choice) (phase : Phase)
    (reads : operation.reads = true)
    (begun : begin settings desk slot choice operation = some (next, phase)) :
    next = desk ∧ ∀ other : Desk, other.contacts = desk.contacts → other.accounts = desk.accounts →
      begin settings other slot choice operation = some (other, phase) := by
  have finds : ∀ (other : Desk) (email : String), other.contacts = desk.contacts →
      other.accounts = desk.accounts → other.findByEmail email = desk.findByEmail email := by
    intro other email contacts accounts
    rw [Desk.findByEmail, contacts, accounts]
    rfl
  cases operation with
  | login email password =>
      cases found : desk.findByEmail email with
      | none =>
          simp only [begin, found] at begun
          cases begun
          refine ⟨rfl, fun other contacts accounts => ?_⟩
          simp only [begin, finds other email contacts accounts, found]
      | some known =>
          obtain ⟨contact, user⟩ := known
          simp only [begin, found] at begun
          split at begun
          · rename_i wrong
            cases begun
            refine ⟨rfl, fun other contacts accounts => ?_⟩
            simp only [begin, finds other email contacts accounts, found, if_pos wrong]
          · rename_i passes
            split at begun
            · rename_i refused
              cases begun
              refine ⟨rfl, fun other contacts accounts => ?_⟩
              simp only [begin, finds other email contacts accounts, found, if_neg passes,
                if_pos refused]
            · rename_i allowed
              cases begun
              refine ⟨rfl, fun other contacts accounts => ?_⟩
              simp only [begin, finds other email contacts accounts, found, if_neg passes,
                if_neg allowed]
  | forgotPassword email =>
      cases found : desk.findByEmail email with
      | none =>
          simp only [begin, found] at begun
          cases begun
          refine ⟨rfl, fun other contacts accounts => ?_⟩
          simp only [begin, finds other email contacts accounts, found]
      | some known =>
          simp only [begin, found] at begun
          cases begun
          refine ⟨rfl, fun other contacts accounts => ?_⟩
          simp only [begin, finds other email contacts accounts, found]
  | resendVerification email =>
      cases found : desk.findByEmail email with
      | none =>
          simp only [begin, found] at begun
          cases begun
          refine ⟨rfl, fun other contacts accounts => ?_⟩
          simp only [begin, finds other email contacts accounts, found]
      | some known =>
          obtain ⟨contact, user⟩ := known
          simp only [begin, found] at begun
          split at begun
          · rename_i unverified
            cases begun
            refine ⟨rfl, fun other contacts accounts => ?_⟩
            simp only [begin, finds other email contacts accounts, found, if_pos unverified]
          · rename_i verified
            cases begun
            refine ⟨rfl, fun other contacts accounts => ?_⟩
            simp only [begin, finds other email contacts accounts, found, if_neg verified]
  | changePassword userId currentPassword =>
      cases found : desk.accounts.findUser userId with
      | none =>
          simp only [begin, found] at begun
          cases begun
          refine ⟨rfl, fun other contacts accounts => ?_⟩
          simp only [begin, accounts, found]
      | some user =>
          simp only [begin, found] at begun
          split at begun
          · rename_i passes
            cases begun
            refine ⟨rfl, fun other contacts accounts => ?_⟩
            simp only [begin, accounts, found, if_pos passes]
          · rename_i wrong
            cases begun
            refine ⟨rfl, fun other contacts accounts => ?_⟩
            simp only [begin, accounts, found, if_neg wrong]
  | register email => cases reads
  | verifyEmail tokenHash => cases reads
  | resetPassword tokenHash => cases reads

/-- The pair was superseded, and what was honoured of it is what had been honoured before. -/
structure Retired (settings : Settings) (past : Desk) (pair : Purpose × String) (world : World) :
    Prop where
  sound : Sound settings world
  superseded : pair ∈ world.desk.superseded
  honoured : ∀ honour ∈ world.desk.honoured, honour.purpose = pair.1 →
    honour.tokenHash = pair.2 → honour ∈ past.honoured

def Dead (cutoffs : List Int) (row : SingleUseToken) : Prop :=
  row.consumedAt ≠ none ∨ ∃ cutoff ∈ cutoffs, row.expiresAt < cutoff

/-- The second table, less some dead rows. -/
inductive Thinned (cutoffs : List Int) : List SingleUseToken → List SingleUseToken → Prop
  | nil : Thinned cutoffs [] []
  | keep {rows full : List SingleUseToken} (row : SingleUseToken)
    (thin : Thinned cutoffs rows full) :
      Thinned cutoffs (row :: rows) (row :: full)
  | drop {rows full : List SingleUseToken} (row : SingleUseToken) (dead : Dead cutoffs row)
      (thin : Thinned cutoffs rows full) : Thinned cutoffs rows (row :: full)

variable {cutoffs : List Int} {rows full : List SingleUseToken}

theorem Dead.of_consumed (row : SingleUseToken) (now : Int) : Dead cutoffs (row.consumed now) :=
  .inl (Option.some_ne_none now)

/-- No consumption at a clock past the cutoffs matches a dead row. -/
theorem Dead.not_live {row : SingleUseToken} (dead : Dead cutoffs row) (now : Int)
    (current : ∀ cutoff ∈ cutoffs, cutoff ≤ now) : ¬ row.Live now := by
  rintro ⟨unspent, unexpired⟩
  rcases dead with spent | ⟨cutoff, listed, before⟩
  · exact spent unspent
  · have late := current cutoff listed
    omega

theorem Thinned.append (thin : Thinned cutoffs rows full) (row : SingleUseToken) :
    Thinned cutoffs (rows ++ [row]) (full ++ [row]) := by
  induction thin with
  | nil => exact .keep row .nil
  | keep first _ ih => exact .keep first ih
  | drop first dead _ ih => exact .drop first dead ih

theorem Thinned.later (thin : Thinned cutoffs rows full) (cutoff : Int) :
    Thinned (cutoff :: cutoffs) rows full := by
  induction thin with
  | nil => exact .nil
  | keep row _ ih => exact .keep row ih
  | drop row dead _ ih =>
      refine .drop row ?_ ih
      rcases dead with spent | ⟨before, listed, expired⟩
      · exact .inl spent
      · exact .inr ⟨before, List.mem_cons_of_mem _ listed, expired⟩

theorem Thinned.update (thin : Thinned cutoffs rows full) (chosen : SingleUseToken → Prop)
    [DecidablePred chosen] (now : Int) :
    Thinned cutoffs (rows.map fun row => if chosen row then row.consumed now else row)
      (full.map fun row => if chosen row then row.consumed now else row) := by
  induction thin with
  | nil => exact .nil
  | keep row _ ih => exact .keep _ ih
  | drop row dead _ ih =>
      rw [List.map_cons]
      split
      · exact .drop _ (Dead.of_consumed row now) ih
      · exact .drop row dead ih

theorem Thinned.consume (thin : Thinned cutoffs rows full) (tokenHash : String) (now : Int)
    (current : ∀ cutoff ∈ cutoffs, cutoff ≤ now) :
    (SingleUse.consume rows tokenHash now).1 = (SingleUse.consume full tokenHash now).1 := by
  simp only [SingleUse.consume]
  induction thin with
  | nil => rfl
  | keep row _ ih =>
      simp only [List.find?_cons]
      split
      · rfl
      · exact ih
  | drop row dead _ ih =>
      have unmatched : decide (row.tokenHash = tokenHash ∧ row.Live now) = false :=
        decide_eq_false fun matched => dead.not_live now current matched.2
      rw [List.find?_cons, unmatched]
      exact ih

theorem Thinned.delete {cutoff : Int} (thin : Thinned (cutoff :: cutoffs) rows full)
    (doomed : List Nat) (dead : ∀ row ∈ rows, row.id ∈ doomed → row.spentBefore cutoff = true) :
    Thinned (cutoff :: cutoffs) (deleteSpent rows doomed) full := by
  have spent : ∀ row : SingleUseToken, row.spentBefore cutoff = true →
      Dead (cutoff :: cutoffs) row := by
    intro row spent
    rw [SingleUseToken.spentBefore, Bool.or_eq_true, decide_eq_true_eq] at spent
    rcases spent with expired | consumed
    · exact .inr ⟨cutoff, List.mem_cons_self, expired⟩
    · obtain ⟨at', stored, -⟩ := Option.any_eq_true _ _ |>.mp consumed
      exact .inl fun unspent => by rw [unspent] at stored; cases stored
  induction thin with
  | nil => exact .nil
  | keep row _ ih =>
      have rest := ih fun other listed => dead other (List.mem_cons_of_mem _ listed)
      rw [deleteSpent, List.filter_cons]
      split
      · exact .keep row rest
      · rename_i gone
        rw [Bool.not_eq_true, Bool.not_eq_false', List.contains_iff_mem] at gone
        exact .drop row (spent row (dead row List.mem_cons_self gone)) rest
  | drop row doomedRow _ ih => exact .drop row doomedRow (ih dead)

theorem selected_spent (numbered : (rows.map (·.id)).Nodup) (cutoff : Int) (limit : Nat)
    (doomed : List Nat) (selected : selectsSpent rows cutoff limit doomed = true) :
    ∀ row ∈ rows, row.id ∈ doomed → row.spentBefore cutoff = true := by
  intro row listed member
  rw [selectsSpent, Bool.and_eq_true, List.all_eq_true] at selected
  obtain ⟨found, stored, named⟩ := List.any_eq_true.mp (selected.2 row.id member)
  rw [Bool.and_eq_true, beq_iff_eq] at named
  exact List.inj_on_of_nodup_map numbered stored listed named.1 ▸ named.2

/-! ## A desk without its sweeps -/

/-- The desk with other rows in the tables of the tokens, and no sweep so far. -/
def Desk.unswept (desk : Desk) (tokens : Purpose → List SingleUseToken) : Desk :=
  { desk with tokens := tokens, swept := [] }

def Desk.Thins (desk : Desk) (tokens : Purpose → List SingleUseToken) : Prop :=
  ∀ purpose, Thinned desk.swept (desk.tokens purpose) (tokens purpose)

/-- The statement answers the same on the unswept desk, and leaves it the unswept next one. -/
structure Mirrors {α : Type} (desk next : Desk) (answer : α)
    (unswept : (Purpose → List SingleUseToken) → Option (Desk × α)) : Prop where
  cutoffs : next.swept = desk.swept
  mirrored : ∀ tokens, desk.Thins tokens → ∃ after, next.Thins after ∧
    unswept tokens = some (next.unswept after, answer)

theorem Desk.Thins.update {tokens : Purpose → List SingleUseToken} (thins : desk.Thins tokens)
    (purpose : Purpose) (changed : Desk) (swept : changed.swept = desk.swept)
    (stored : changed.tokens = Function.update desk.tokens purpose rows)
    (thin : Thinned desk.swept rows full) :
    changed.Thins (Function.update tokens purpose full) := by
  intro other
  rw [swept, stored]
  by_cases same : other = purpose
  · rw [same, Function.update_self, Function.update_self]
    exact thin
  · rw [Function.update_of_ne same, Function.update_of_ne same]
    exact thins other

theorem Desk.Thins.same {tokens : Purpose → List SingleUseToken} (thins : desk.Thins tokens)
    (swept : next.swept = desk.swept) (stored : next.tokens = desk.tokens) : next.Thins tokens := by
  intro purpose
  rw [swept, stored]
  exact thins purpose

theorem mirrors_issue (purpose : Purpose) (contact : Contact) (ttlMs : Int) (choice : Choice)
    (phase : Phase) (issued : desk.issue purpose contact ttlMs choice = some next) :
    Mirrors desk next phase fun tokens =>
      ((desk.unswept tokens).issue purpose contact ttlMs choice).map fun after =>
          (after, phase) := by
  unfold Desk.issue at issued
  split at issued
  · cases issued
  · rename_i fresh
    cases issued
    refine ⟨rfl, fun tokens thins => ?_⟩
    refine ⟨_, thins.update purpose _ rfl rfl ((thins purpose).append _), ?_⟩
    unfold Desk.issue
    exact congrArg (Option.map _) (if_neg fresh)

theorem mirrors_supersede (purpose : Purpose) (contact : Contact) (tokenHash : String)
    (now : Int) (phase : Phase) :
    Mirrors desk (desk.supersede purpose contact tokenHash now) phase fun tokens =>
      some ((desk.unswept tokens).supersede purpose contact tokenHash now, phase) :=
  ⟨rfl, fun _ thins => ⟨_, thins.update purpose _ rfl rfl
    ((thins purpose).update (fun row => row.userId = contact.userId ∧ row.consumedAt = none ∧
      row.tokenHash ≠ tokenHash) now), rfl⟩⟩

theorem mirrors_consume (slot : Nat) (purpose : Purpose) (tokenHash : String) (now : Int)
    (answer : Option Nat) (current : ∀ cutoff ∈ desk.swept, cutoff ≤ now)
    (consumed : desk.consume slot purpose tokenHash now = (next, answer)) :
    Mirrors desk next answer fun tokens =>
      some ((desk.unswept tokens).consume slot purpose tokenHash now) := by
  have alike : ∀ tokens, desk.Thins tokens →
      (SingleUse.consume (tokens purpose) tokenHash now).1 =
          (SingleUse.consume (desk.tokens purpose) tokenHash now).1 ∧
        Thinned desk.swept (SingleUse.consume (desk.tokens purpose) tokenHash now).2
          (SingleUse.consume (tokens purpose) tokenHash now).2 := fun tokens thins =>
    ⟨((thins purpose).consume tokenHash now current).symm,
      (thins purpose).update (fun row => row.tokenHash = tokenHash ∧ row.Live now) now⟩
  unfold Desk.consume at consumed
  split at consumed
  · rename_i rows answered
    cases consumed
    refine ⟨rfl, fun tokens thins => ?_⟩
    obtain ⟨same, thin⟩ := alike tokens thins
    rw [answered] at same thin
    refine ⟨_, thins.update purpose _ rfl rfl thin, congrArg some ?_⟩
    have full : SingleUse.consume ((desk.unswept tokens).tokens purpose) tokenHash now =
      (none, (SingleUse.consume (tokens purpose) tokenHash now).2) := Prod.ext same rfl
    rw [Desk.consume, full]
    rfl
  · rename_i userId rows answered
    cases consumed
    refine ⟨rfl, fun tokens thins => ?_⟩
    obtain ⟨same, thin⟩ := alike tokens thins
    rw [answered] at same thin
    refine ⟨_, thins.update purpose _ rfl rfl thin, congrArg some ?_⟩
    have full : SingleUse.consume ((desk.unswept tokens).tokens purpose) tokenHash now =
      (some userId, (SingleUse.consume (tokens purpose) tokenHash now).2) := Prod.ext same rfl
    rw [Desk.consume, full]
    rfl

theorem Mirrors.follow {α β : Type} {answer : α}
    {unswept : (Purpose → List SingleUseToken) → Option (Desk × α)}
    (mirrors : Mirrors desk next answer unswept) (result : β)
    (other : (Purpose → List SingleUseToken) → Option (Desk × β))
    (same : ∀ tokens after, unswept tokens = some (next.unswept after, answer) →
      other tokens = some (next.unswept after, result)) : Mirrors desk next result other := by
  refine ⟨mirrors.cutoffs, fun tokens thins => ?_⟩
  obtain ⟨after, thinner, equal⟩ := mirrors.mirrored tokens thins
  exact ⟨after, thinner, same tokens after equal⟩

/-- A statement that neither reads nor writes the tables of the tokens. -/
theorem mirrors_beside {α : Type} (answer : α)
    (unswept : (Purpose → List SingleUseToken) → Option (Desk × α))
    (swept : next.swept = desk.swept) (stored : next.tokens = desk.tokens)
    (same : ∀ tokens, unswept tokens = some (next.unswept tokens, answer)) :
    Mirrors desk next answer unswept :=
  ⟨swept, fun tokens thins => ⟨tokens, thins.same swept stored, same tokens⟩⟩

theorem begin_mirrors (slot : Nat) (operation : Operation) (choice : Choice) (phase : Phase)
    (current : ∀ cutoff ∈ desk.swept, cutoff ≤ choice.now)
    (begun : begin settings desk slot choice operation = some (next, phase)) :
    Mirrors desk next phase fun tokens =>
      begin settings (desk.unswept tokens) slot choice operation := by
  cases operation with
  | register email =>
      obtain ⟨⟨stored, contact⟩, created, same⟩ := Option.map_eq_some_iff.mp begun
      unfold Desk.createUser at created
      split at created
      · rename_i taken
        cases created
        cases same
        refine mirrors_beside _ _ rfl rfl fun tokens => ?_
        simp only [begin, Desk.createUser, Desk.unswept, taken]
        rfl
      · rename_i untaken
        split at created
        · cases created
        · rename_i fresh
          cases created
          cases same
          refine mirrors_beside _ _ rfl rfl fun tokens => ?_
          simp only [begin, Desk.createUser, Desk.unswept, untaken, fresh]
          rfl
  | login email password =>
      obtain ⟨rfl, alike⟩ := begin_reads slot _ choice phase rfl begun
      exact mirrors_beside _ _ rfl rfl fun tokens => alike (next.unswept tokens) rfl rfl
  | forgotPassword email =>
      obtain ⟨rfl, alike⟩ := begin_reads slot _ choice phase rfl begun
      exact mirrors_beside _ _ rfl rfl fun tokens => alike (next.unswept tokens) rfl rfl
  | resendVerification email =>
      obtain ⟨rfl, alike⟩ := begin_reads slot _ choice phase rfl begun
      exact mirrors_beside _ _ rfl rfl fun tokens => alike (next.unswept tokens) rfl rfl
  | verifyEmail tokenHash =>
      simp only [begin] at begun
      split at begun
      · rename_i consumed
        cases begun
        refine (mirrors_consume slot _ tokenHash choice.now _ current consumed).follow _ _ ?_
        intro tokens after same
        simp only [begin, Option.some.inj same]
      · rename_i consumed
        cases begun
        refine (mirrors_consume slot _ tokenHash choice.now _ current consumed).follow _ _ ?_
        intro tokens after same
        simp only [begin, Option.some.inj same]
  | resetPassword tokenHash =>
      simp only [begin] at begun
      split at begun
      · rename_i consumed
        cases begun
        refine (mirrors_consume slot _ tokenHash choice.now _ current consumed).follow _ _ ?_
        intro tokens after same
        simp only [begin, Option.some.inj same]
      · rename_i consumed
        cases begun
        refine (mirrors_consume slot _ tokenHash choice.now _ current consumed).follow _ _ ?_
        intro tokens after same
        simp only [begin, Option.some.inj same]
  | changePassword userId currentPassword =>
      obtain ⟨rfl, alike⟩ := begin_reads slot _ choice phase rfl begun
      exact mirrors_beside _ _ rfl rfl fun tokens => alike (next.unswept tokens) rfl rfl

theorem replacePassword_unswept (tokens : Purpose → List SingleUseToken) (slot : Nat)
    (operation : Operation) (userId : Nat) (replacement : PasswordReplacement) (now : Int) :
    (desk.unswept tokens).replacePassword slot operation userId replacement now =
      ((desk.replacePassword slot operation userId replacement now).1.unswept tokens,
        (desk.replacePassword slot operation userId replacement now).2) := rfl

theorem statement_mirrors (slot : Nat) (process : Process) (choice : Choice) (phase : Phase)
    (current : ∀ cutoff ∈ desk.swept, cutoff ≤ choice.now)
    (stated : statement settings desk slot process choice = some (next, phase)) :
    Mirrors desk next phase fun tokens =>
      statement settings (desk.unswept tokens) slot process choice := by
  obtain ⟨operation, before⟩ := process
  cases before with
  | arrived => exact begin_mirrors slot operation choice phase current stated
  | issuing purpose contact =>
      obtain ⟨issued, made, same⟩ := Option.map_eq_some_iff.mp stated
      cases same
      exact mirrors_issue purpose contact _ choice _ made
  | superseding purpose contact tokenHash =>
      cases stated
      exact mirrors_supersede purpose contact tokenHash choice.now _
  | marking userId =>
      cases stated
      exact mirrors_beside _ _ rfl rfl fun _ => rfl
  | replacing userId replacement =>
      simp only [statement] at stated
      split at stated
      · rename_i replaced
        cases stated
        refine mirrors_beside _ _ ?_ ?_ fun tokens => ?_
        · exact congrArg (fun answer => answer.1.swept) replaced.symm
        · exact congrArg (fun answer => answer.1.tokens) replaced.symm
        · simp only [statement, replacePassword_unswept, replaced]
      · rename_i unreplaced
        cases stated
        refine mirrors_beside _ _ ?_ ?_ fun tokens => ?_
        · exact congrArg (fun answer => answer.1.swept) unreplaced.symm
        · exact congrArg (fun answer => answer.1.tokens) unreplaced.symm
        · simp only [statement, replacePassword_unswept, unreplaced]
  | storing userId verifiedPasswordHash =>
      simp only [statement] at stated
      unfold Desk.openSession at stated
      split at stated
      · rename_i stopped
        split at stopped
        · rename_i failed
          cases stated
          refine mirrors_beside _ _ rfl rfl fun tokens => ?_
          simp only [statement, Desk.openSession, Desk.unswept, failed]
        · cases stopped
      · rename_i stored
        split at stored
        · cases stored
        · rename_i created
          cases stored
          cases stated
          refine mirrors_beside _ _ rfl rfl fun tokens => ?_
          simp only [statement, Desk.openSession, Desk.unswept, created]
          rfl
  | succeeded => cases stated
  | refused => cases stated
  | failed => cases stated

/-! ## Worlds -/

def Event.clock : Event → Option Int
  | .turn _ choice => some choice.now
  | .arrive .. | .fail _ | .sweep .. => none

def Event.sweeps : Event → Bool
  | .sweep .. => true
  | .arrive .. | .turn .. | .fail _ => false

/-- The clocks differ by less than the grace of the sweeps: no statement runs before a cutoff. -/
def Current (world : World) (event : Event) : Prop :=
  ∀ now ∈ event.clock, ∀ cutoff ∈ world.desk.swept, cutoff ≤ now

instance (world : World) (event : Event) : Decidable (Current world event) :=
  inferInstanceAs (Decidable (∀ now ∈ event.clock, ∀ cutoff ∈ world.desk.swept, cutoff ≤ now))

def World.Shadows (world full : World) : Prop :=
  ∃ tokens, world.desk.Thins tokens ∧ full = ⟨world.desk.unswept tokens, world.requests⟩

variable (settings)

theorem step_shadows (world full next : World) (event : Event) (shadows : world.Shadows full)
    (current : Current world event) (stays : event.sweeps = false)
    (stepped : step settings world event = some next) :
    ∃ after, step settings full event = some after ∧ next.Shadows after := by
  obtain ⟨tokens, thins, rfl⟩ := shadows
  cases event with
  | arrive slot operation =>
      simp only [step] at stepped ⊢
      split at stepped
      · cases stepped
      · rename_i vacant
        cases stepped
        exact ⟨_, if_neg vacant, tokens, thins, rfl⟩
  | turn slot choice =>
      obtain ⟨process, requested, stepped⟩ := Option.bind_eq_some_iff.mp stepped
      obtain ⟨⟨desk, phase⟩, stated, rfl⟩ := Option.map_eq_some_iff.mp stepped
      obtain ⟨-, mirrored⟩ :=
        statement_mirrors slot process choice phase (current choice.now rfl) stated
      obtain ⟨after, thinner, same⟩ := mirrored tokens thins
      refine ⟨_, ?_, after, thinner, rfl⟩
      simp only [step]
      rw [requested, Option.bind_some, same]
      rfl
  | fail slot =>
      obtain ⟨process, requested, stepped⟩ := Option.bind_eq_some_iff.mp stepped
      split at stepped
      · cases stepped
      · rename_i pending
        cases stepped
        refine ⟨_, ?_, tokens, thins, rfl⟩
        simp only [step]
        rw [requested, Option.bind_some, if_neg pending]
        rfl
  | sweep purpose cutoff limit doomed => cases stays

/-- A sweep moves the tables only, by dead rows. -/
theorem sweep_shadows (world full next : World) (event : Event) (sound : Sound settings world)
    (shadows : world.Shadows full) (sweeps : event.sweeps = true)
    (stepped : step settings world event = some next) : next.Shadows full := by
  obtain ⟨tokens, thins, rfl⟩ := shadows
  cases event with
  | sweep purpose cutoff limit doomed =>
      simp only [step] at stepped
      split at stepped
      · rename_i selected
        cases stepped
        refine ⟨tokens, fun other => ?_, rfl⟩
        have later := (thins other).later cutoff
        simp only [Desk.sweep]
        by_cases same : other = purpose
        · subst same
          rw [Function.update_self]
          exact later.delete doomed
            (selected_spent (sound.books.numbered other) cutoff limit doomed selected)
        · rw [Function.update_of_ne same]
          exact later
      · cases stepped
  | arrive slot operation => cases sweeps
  | turn slot choice => cases sweeps
  | fail slot => cases sweeps

theorem run_shadows (events : List Event) (world full final : World)
    (sound : Sound settings world) (shadows : world.Shadows full)
    (current : Runs.Along (step settings) Current world events)
    (ran : Runs.run (step settings) world events = some final) :
    ∃ after, Runs.run (step settings) full (events.filter fun event => !event.sweeps) = some after ∧
      final.Shadows after := by
  induction events generalizing world full with
  | nil =>
      cases ran
      exact ⟨full, rfl, shadows⟩
  | cons event rest ih =>
      obtain ⟨next, stepped, remaining⟩ := Runs.run_cons_eq_some _ _ _ _ _ ran
      have kept := step_sound settings world next event sound stepped
      obtain ⟨here, later⟩ := current
      rw [List.filter_cons]
      cases sweeps : event.sweeps with
      | true =>
          exact ih next full kept
            (sweep_shadows settings world full next event sound shadows sweeps stepped)
            (later next stepped) remaining
      | false =>
          obtain ⟨middle, mirrored, follows⟩ :=
            step_shadows settings world full next event shadows here sweeps stepped
          obtain ⟨after, run, behind⟩ := ih next middle kept follows (later next stepped) remaining
          refine ⟨after, ?_, behind⟩
          rw [Bool.not_false, if_pos rfl, Runs.run_cons, mirrored]
          exact run

theorem thins_refl (desk : Desk) : desk.Thins desk.tokens := by
  intro purpose
  generalize desk.tokens purpose = rows
  induction rows with
  | nil => exact .nil
  | cons row _ ih => exact .keep row ih

/-- Without its sweeps a run answers every request alike and leaves every other table alike. -/
theorem sweeps_change_nothing (events : List Event) (final : World)
    (current : Runs.Along (step settings) Current emptyWorld events)
    (ran : Runs.run (step settings) emptyWorld events = some final) :
    ∃ full, Runs.run (step settings) emptyWorld (events.filter fun event => !event.sweeps) =
        some full ∧ full.requests = final.requests ∧
      full.desk = final.desk.unswept full.desk.tokens := by
  obtain ⟨full, run, tokens, -, rfl⟩ := run_shadows settings events emptyWorld emptyWorld final
    (sound_empty settings) ⟨emptyWorld.desk.tokens, thins_refl emptyWorld.desk, rfl⟩ current ran
  exact ⟨_, run, rfl, rfl⟩

def sweptRun : List Event :=
  recoveryRun ++ [.arrive 8 (.resetPassword "r"), .turn 8 ⟨22, 0, 0, "", "#five"⟩]

theorem sweeps_change_nothing_swept : ∃ final full,
    Runs.run (step shopSettings) emptyWorld sweptRun = some final ∧
      Runs.run (step shopSettings) emptyWorld (sweptRun.filter fun event => !event.sweeps) =
        some full ∧ full.requests = final.requests := by
  have runs : (Runs.run (step shopSettings) emptyWorld sweptRun).isSome = true := by
    decide +kernel
  obtain ⟨final, ran⟩ := Option.isSome_iff_exists.mp runs
  obtain ⟨full, run, same, -⟩ := sweeps_change_nothing shopSettings sweptRun final
    (by decide +kernel) ran
  exact ⟨final, full, ran, run, same⟩

end Commerce.Users.Recovery
