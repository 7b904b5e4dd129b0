import Commerce.Lib.Runs
import Mathlib.Logic.Function.Basic

/-!
# Programs that act on shared state

A program is a tree of atomic actions on a state other programs also change.
Each action sees the state of the moment and a choice (what the environment
answers, whether it fails) and leaves a new state.  Programs run concurrently,
one action at a time, in any order.

The proof rule is rely/guarantee reasoning.  `Safe` says that a program keeps
an invariant and its guarantee at every action, as long as whatever happens
between two actions stays within its rely, and that its result meets a
postcondition.  What a program learnt at one action is known at the next as a
fact about a past state the present one evolved from.
-/

set_option autoImplicit false

namespace Programs

variable {σ κ ε α β ι ρ μ : Type}

/-- One action is `effect` on the state; `next` is how the program goes on. -/
inductive Program (σ κ ε α : Type) where
  | done (result : α)
  | failed (error : ε)
  | act (effect : σ → κ → σ) (next : σ → κ → Program σ κ ε α)

namespace Program

def bind : Program σ κ ε α → (α → Program σ κ ε β) → Program σ κ ε β
  | .done result, rest => rest result
  | .failed error, _ => .failed error
  | .act effect next, rest => .act effect fun state choice => (next state choice).bind rest

instance : Monad (Program σ κ ε) where
  pure := .done
  bind := bind

def orElse : Program σ κ ε α → (ε → Program σ κ ε α) → Program σ κ ε α
  | .done result, _ => .done result
  | .failed error, handler => handler error
  | .act effect next, handler => .act effect fun state choice => (next state choice).orElse handler

def run : Program σ κ ε α → σ → (Nat → κ) → Except ε α × σ
  | .done result, state, _ => (.ok result, state)
  | .failed error, state, _ => (.error error, state)
  | .act effect next, state, choices =>
      (next state (choices 0)).run (effect state (choices 0)) fun turn => choices (turn + 1)

def ofExcept : Except ε α → Program σ κ ε α
  | .ok result => .done result
  | .error error => .failed error

def atomic (action : σ → κ → Except ε α × σ) : Program σ κ ε α :=
  .act (fun state choice => (action state choice).2)
    fun state choice => ofExcept (action state choice).1

end Program

/-! ## Rely/guarantee -/

section RelyGuarantee

variable (inv : σ → Prop) (rely guarantee : σ → σ → Prop)

/--
The program may go on from any state that `past` evolved into: each of its
actions keeps the invariant and its guarantee, and it ends in its postcondition.
-/
def Safe : σ → Program σ κ ε α → (α → σ → Prop) → (ε → σ → Prop) → Prop
  | past, .done result, returns, _ => returns result past
  | past, .failed error, _, throws => throws error past
  | past, .act effect next, returns, throws =>
      ∀ now choice, inv now → rely past now →
        inv (effect now choice) ∧ guarantee now (effect now choice) ∧
          Safe (effect now choice) (next now choice) returns throws

variable {inv rely guarantee}

theorem safe_mono (program : Program σ κ ε α) (past : σ)
    (returns returns' : α → σ → Prop) (throws throws' : ε → σ → Prop)
    (safe : Safe inv rely guarantee past program returns throws)
    (weaker : ∀ result now, returns result now → returns' result now)
    (weaker' : ∀ error now, throws error now → throws' error now) :
    Safe inv rely guarantee past program returns' throws' := by
  induction program generalizing past with
  | done result => exact weaker result past safe
  | failed error => exact weaker' error past safe
  | act effect next ih =>
      intro now choice holds since
      obtain ⟨kept, moved, later⟩ := safe now choice holds since
      exact ⟨kept, moved, ih now choice _ later⟩

theorem safe_bind (first : Program σ κ ε α) (rest : α → Program σ κ ε β) (past : σ)
    (returns : β → σ → Prop) (throws : ε → σ → Prop)
    (safe : Safe inv rely guarantee past first
      (fun result now => Safe inv rely guarantee now (rest result) returns throws) throws) :
    Safe inv rely guarantee past (first >>= rest) returns throws := by
  change Safe inv rely guarantee past (first.bind rest) returns throws
  induction first generalizing past with
  | done result => exact safe
  | failed error => exact safe
  | act effect next ih =>
      intro now choice holds since
      obtain ⟨kept, moved, later⟩ := safe now choice holds since
      exact ⟨kept, moved, ih now choice _ later⟩

theorem safe_orElse (body : Program σ κ ε α) (handler : ε → Program σ κ ε α) (past : σ)
    (returns : α → σ → Prop) (throws : ε → σ → Prop)
    (safe : Safe inv rely guarantee past body returns
      (fun error now => Safe inv rely guarantee now (handler error) returns throws)) :
    Safe inv rely guarantee past (body.orElse handler) returns throws := by
  induction body generalizing past with
  | done result => exact safe
  | failed error => exact safe
  | act effect next ih =>
      intro now choice holds since
      obtain ⟨kept, moved, later⟩ := safe now choice holds since
      exact ⟨kept, moved, ih now choice _ later⟩

/-- What a program ends in evolved from the state it went on from. -/
theorem safe_since (evolves : σ → σ → Prop)
    (trans : ∀ past now later, evolves past now → evolves now later → evolves past later)
    (relied : ∀ past now, rely past now → evolves past now)
    (guaranteed : ∀ past now, guarantee past now → evolves past now)
    (program : Program σ κ ε α) (origin past : σ) (began : evolves origin past)
    (returns : α → σ → Prop) (throws : ε → σ → Prop)
    (safe : Safe inv rely guarantee past program returns throws) :
    Safe inv rely guarantee past program (fun result now => returns result now ∧ evolves origin now)
      (fun error now => throws error now ∧ evolves origin now) := by
  induction program generalizing past with
  | done result => exact ⟨safe, began⟩
  | failed error => exact ⟨safe, began⟩
  | act effect next ih =>
      intro now choice holds since
      obtain ⟨kept, moved, later⟩ := safe now choice holds since
      have reached := trans _ _ _ began (trans _ _ _ (relied _ _ since) (guaranteed _ _ moved))
      exact ⟨kept, moved, ih now choice _ reached later⟩

theorem safe_atomic (action : σ → κ → Except ε α × σ) (past : σ)
    (returns : α → σ → Prop) (throws : ε → σ → Prop)
    (safe : ∀ now choice answer after, inv now → rely past now →
      action now choice = (answer, after) →
      inv after ∧ guarantee now after ∧
        Safe inv rely guarantee after (Program.ofExcept (σ := σ) (κ := κ) answer) returns throws) :
    Safe inv rely guarantee past (Program.atomic action) returns throws := by
  intro now choice holds since
  exact safe now choice _ _ holds since rfl

/-- An invariant that the rely keeps need not be assumed of what happens in between. -/
theorem safe_established (stable : ∀ past now, inv past → rely past now → inv now)
    (program : Program σ κ ε α) (past : σ) (returns : α → σ → Prop) (throws : ε → σ → Prop)
    (holds : inv past) (safe : Safe inv rely guarantee past program returns throws) :
    Safe (fun _ => True) rely guarantee past program
      (fun result now => returns result now ∧ inv now)
      (fun error now => throws error now ∧ inv now) := by
  induction program generalizing past with
  | done result => exact ⟨safe, holds⟩
  | failed error => exact ⟨safe, holds⟩
  | act effect next ih =>
      intro now choice _ since
      obtain ⟨kept, moved, later⟩ := safe now choice (stable past now holds since) since
      exact ⟨trivial, moved, ih now choice _ kept later⟩

/-- What is safe among others is safe alone. -/
theorem run_of_safe (alone : ∀ now, rely now now) (program : Program σ κ ε α) (state : σ)
    (choices : Nat → κ) (returns : α → σ → Prop) (throws : ε → σ → Prop) (holds : inv state)
    (safe : Safe inv rely guarantee state program returns throws) :
    inv (program.run state choices).2 ∧
      ((∃ result, (program.run state choices).1 = .ok result ∧
          returns result (program.run state choices).2) ∨
        ∃ error, (program.run state choices).1 = .error error ∧
          throws error (program.run state choices).2) := by
  induction program generalizing state choices with
  | done result => exact ⟨holds, .inl ⟨result, rfl, safe⟩⟩
  | failed error => exact ⟨holds, .inr ⟨error, rfl, safe⟩⟩
  | act effect next ih =>
      obtain ⟨kept, -, later⟩ := safe state (choices 0) holds (alone state)
      exact ih state (choices 0) _ _ kept later

end RelyGuarantee

/-! ## Concurrent programs -/

structure Thread (σ κ ε α ρ : Type) where
  request : ρ
  since : σ
  program : Program σ κ ε α

structure World (σ κ ε α ι ρ : Type) where
  shared : σ
  threads : ι → Option (Thread σ κ ε α ρ)

def World.result (world : World σ κ ε α ι ρ) (slot : ι) : Option (ρ × Option α) :=
  (world.threads slot).map fun thread =>
    (thread.request,
      match thread.program with
      | .done result => some result
      | .failed _ | .act .. => none)

theorem World.result_some (world : World σ κ ε α ι ρ) (slot : ι) (request : ρ) (result : α)
    (done : world.result slot = some (request, some result)) :
    ∃ since, world.threads slot = some ⟨request, since, .done result⟩ := by
  obtain ⟨⟨asked, since, program⟩, present, same⟩ := Option.map_eq_some_iff.mp done
  cases program <;> cases same
  exact ⟨since, present⟩

theorem World.result_request (world : World σ κ ε α ι ρ) (slot : ι) (request : ρ)
    (result : Option α) (thread : Thread σ κ ε α ρ) (present : world.threads slot = some thread)
    (known : world.result slot = some (request, result)) : thread.request = request := by
  rw [World.result, present] at known
  exact congrArg Prod.fst (Option.some.inj known)

inductive Event (ι ρ κ μ : Type) where
  | start (slot : ι) (request : ρ)
  | step (slot : ι) (choice : κ)
  | move (change : μ)

/-- What runs: the program of a request, when one may start, and what else moves the state. -/
structure System (σ κ ε α ι ρ μ : Type) where
  program : ι → ρ → Program σ κ ε α
  admits : σ → ρ → Bool
  move : σ → μ → Option σ

namespace System

variable [DecidableEq ι] (system : System σ κ ε α ι ρ μ)

/-- One event: a program starts in a free slot, takes its next action, or the environment moves. -/
def step (world : World σ κ ε α ι ρ) : Event ι ρ κ μ → Option (World σ κ ε α ι ρ)
  | .start slot request =>
      match world.threads slot, system.admits world.shared request with
      | none, true =>
          some ⟨world.shared, Function.update world.threads slot
            (some ⟨request, world.shared, system.program slot request⟩)⟩
      | _, _ => none
  | .step slot choice =>
      match world.threads slot with
      | some ⟨request, since, .act effect next⟩ =>
          some ⟨effect world.shared choice, Function.update world.threads slot
            (some ⟨request, since, next world.shared choice⟩)⟩
      | _ => none
  | .move change => (system.move world.shared change).map fun shared => { world with shared }

def idle (shared : σ) : World σ κ ε α ι ρ := ⟨shared, fun _ => none⟩

theorem step_start (world next : World σ κ ε α ι ρ) (slot : ι) (request : ρ)
    (stepped : system.step world (.start slot request) = some next) :
    world.threads slot = none ∧ system.admits world.shared request = true ∧
      next = ⟨world.shared, Function.update world.threads slot
        (some ⟨request, world.shared, system.program slot request⟩)⟩ := by
  simp only [step] at stepped
  split at stepped
  · rename_i free admitted
    exact ⟨free, admitted, (Option.some.inj stepped).symm⟩
  · cases stepped

theorem step_step (world next : World σ κ ε α ι ρ) (slot : ι) (choice : κ)
    (stepped : system.step world (.step slot choice) = some next) :
    ∃ request since effect after, world.threads slot = some ⟨request, since, .act effect after⟩ ∧
      next = ⟨effect world.shared choice, Function.update world.threads slot
        (some ⟨request, since, after world.shared choice⟩)⟩ := by
  simp only [step] at stepped
  split at stepped
  · rename_i request since effect after busy
    exact ⟨request, since, effect, after, busy, (Option.some.inj stepped).symm⟩
  · cases stepped

theorem step_move (world next : World σ κ ε α ι ρ) (change : μ)
    (stepped : system.step world (.move change) = some next) :
    ∃ shared, system.move world.shared change = some shared ∧ next = { world with shared } := by
  obtain ⟨shared, moved, same⟩ := Option.map_eq_some_iff.mp stepped
  exact ⟨shared, moved, same.symm⟩

theorem step_thread (world next : World σ κ ε α ι ρ) (event : Event ι ρ κ μ) (slot : ι)
    (thread : Thread σ κ ε α ρ) (present : world.threads slot = some thread)
    (stepped : system.step world event = some next) :
    next.threads slot = some thread ∨
      ∃ effect after choice, thread.program = .act effect after ∧ event = .step slot choice ∧
        next = ⟨effect world.shared choice, Function.update world.threads slot
          (some ⟨thread.request, thread.since, after world.shared choice⟩)⟩ := by
  cases event with
  | start other request =>
      obtain ⟨free, -, rfl⟩ := step_start system world next other request stepped
      have different : slot ≠ other := by
        rintro rfl
        cases free.symm.trans present
      exact .inl ((Function.update_of_ne different ..).trans present)
  | step other choice =>
      obtain ⟨request, since, effect, after, busy, rfl⟩ :=
        step_step system world next other choice stepped
      by_cases same : slot = other
      · subst same
        cases busy.symm.trans present
        exact .inr ⟨effect, after, choice, rfl, rfl, rfl⟩
      · exact .inl ((Function.update_of_ne same ..).trans present)
  | move change =>
      obtain ⟨shared, -, rfl⟩ := step_move system world next change stepped
      exact .inl present

/--
What has to be shown of a system's programs.  `rely slot` is what the program
in a slot may count on, `guarantee slot request` what it keeps to, `evolves`
what every change of the state is part of.
-/
structure Verified (system : System σ κ ε α ι ρ μ) (inv : σ → Prop) (evolves : σ → σ → Prop)
    (rely : ι → σ → σ → Prop) (guarantee : ι → ρ → σ → σ → Prop)
    (returns : ρ → σ → α → σ → Prop) : Prop where
  refl : ∀ now, evolves now now
  trans : ∀ past now later, evolves past now → evolves now later → evolves past later
  rely_refl : ∀ slot now, rely slot now now
  rely_trans : ∀ slot past now later, rely slot past now → rely slot now later →
    rely slot past later
  guarantee_rely : ∀ slot request other now later, slot ≠ other →
    guarantee slot request now later → rely other now later
  guarantee_evolves : ∀ slot request now later, guarantee slot request now later →
    evolves now later
  move : ∀ now change later, inv now → system.move now change = some later →
    inv later ∧ evolves now later ∧ ∀ slot, rely slot now later
  program : ∀ slot now request, inv now → system.admits now request = true →
    Safe inv (rely slot) (guarantee slot request) now (system.program slot request)
      (returns request now) fun _ _ => True

/-- The program may go on from now, and what it relies on began after `origin`. -/
def Ready (inv : σ → Prop) (evolves : σ → σ → Prop) (rely : ι → σ → σ → Prop)
    (guarantee : ι → ρ → σ → σ → Prop) (returns : ρ → σ → α → σ → Prop) (origin now : σ)
    (slot : ι) (thread : Thread σ κ ε α ρ) : Prop :=
  ∃ past, evolves origin past ∧ rely slot past now ∧ evolves past now ∧
    Safe inv (rely slot) (guarantee slot thread.request) past thread.program
      (returns thread.request thread.since) fun _ _ => True

structure Sound (inv : σ → Prop) (evolves : σ → σ → Prop) (rely : ι → σ → σ → Prop)
    (guarantee : ι → ρ → σ → σ → Prop) (returns : ρ → σ → α → σ → Prop)
    (world : World σ κ ε α ι ρ) : Prop where
  holds : inv world.shared
  ready : ∀ slot thread, world.threads slot = some thread →
    Ready inv evolves rely guarantee returns thread.since world.shared slot thread

variable {system} {inv : σ → Prop} {evolves : σ → σ → Prop} {rely : ι → σ → σ → Prop}
  {guarantee : ι → ρ → σ → σ → Prop} {returns : ρ → σ → α → σ → Prop}

omit [DecidableEq ι] in
theorem sound_idle (shared : σ) (holds : inv shared) :
    Sound inv evolves rely guarantee returns (idle shared : World σ κ ε α ι ρ) :=
  ⟨holds, fun _ _ absent => nomatch absent⟩

omit [DecidableEq ι] in
/-- A program that did not act may still go on after a change within its rely. -/
theorem Verified.ready_after (verified : Verified system inv evolves rely guarantee returns)
    (origin now later : σ) (slot : ι) (thread : Thread σ κ ε α ρ) (relied : rely slot now later)
    (evolved : evolves now later)
    (ready : Ready inv evolves rely guarantee returns origin now slot thread) :
    Ready inv evolves rely guarantee returns origin later slot thread := by
  obtain ⟨past, began, upTo, reached, safe⟩ := ready
  exact ⟨past, began, verified.rely_trans slot past now later upTo relied,
    verified.trans past now later reached evolved, safe⟩

omit [DecidableEq ι] in
/-- The step of the program in a slot: the state it leaves, and how the program goes on. -/
theorem Verified.acted (verified : Verified system inv evolves rely guarantee returns)
    (origin now : σ) (slot : ι) (request : ρ) (since : σ) (effect : σ → κ → σ)
    (after : σ → κ → Program σ κ ε α) (choice : κ) (holds : inv now)
    (ready : Ready inv evolves rely guarantee returns origin now slot
      ⟨request, since, .act effect after⟩) :
    inv (effect now choice) ∧ guarantee slot request now (effect now choice) ∧
      Ready inv evolves rely guarantee returns origin (effect now choice) slot
        ⟨request, since, after now choice⟩ := by
  obtain ⟨past, began, upTo, reached, safe⟩ := ready
  obtain ⟨kept, guaranteed, later⟩ := safe now choice holds upTo
  have evolved := verified.guarantee_evolves slot request _ _ guaranteed
  exact ⟨kept, guaranteed, effect now choice,
    verified.trans _ _ _ (verified.trans _ _ _ began reached) evolved, verified.rely_refl slot _,
    verified.refl _, later⟩

omit [DecidableEq ι] in
theorem Ready.acted_returned (origin now : σ) (slot : ι) (request : ρ) (since : σ)
    (effect : σ → κ → σ) (after : σ → κ → Program σ κ ε α) (choice : κ) (result : α)
    (holds : inv now)
    (ready : Ready inv evolves rely guarantee returns origin now slot
      ⟨request, since, .act effect after⟩) (ended : after now choice = .done result) :
    returns request since result (effect now choice) := by
  obtain ⟨past, -, upTo, -, safe⟩ := ready
  obtain ⟨-, -, later⟩ := safe now choice holds upTo
  rw [ended] at later
  exact later

/-- One event keeps a verified system sound, and the state only evolves. -/
theorem Verified.step_sound (verified : Verified system inv evolves rely guarantee returns)
    (world : World σ κ ε α ι ρ) (event : Event ι ρ κ μ) (next : World σ κ ε α ι ρ)
    (sound : Sound inv evolves rely guarantee returns world)
    (stepped : system.step world event = some next) :
    Sound inv evolves rely guarantee returns next ∧ evolves world.shared next.shared := by
  cases event with
  | start slot request =>
      obtain ⟨-, admitted, rfl⟩ := step_start system world next slot request stepped
      refine ⟨⟨sound.holds, fun other thread present => ?_⟩, verified.refl _⟩
      by_cases same : other = slot
      · subst same
        cases (Function.update_self other _ world.threads).symm.trans present
        exact ⟨world.shared, verified.refl _, verified.rely_refl other _, verified.refl _,
          verified.program other _ request sound.holds admitted⟩
      · exact sound.ready other thread ((Function.update_of_ne same ..).symm.trans present)
  | step slot choice =>
      obtain ⟨request, since, effect, after, busy, rfl⟩ :=
        step_step system world next slot choice stepped
      obtain ⟨kept, guaranteed, goesOn⟩ := verified.acted since world.shared slot request since
        effect after choice sound.holds (sound.ready slot _ busy)
      have evolved := verified.guarantee_evolves slot request _ _ guaranteed
      refine ⟨⟨kept, fun other thread present => ?_⟩, evolved⟩
      by_cases same : other = slot
      · subst same
        cases (Function.update_self other _ world.threads).symm.trans present
        exact goesOn
      · exact verified.ready_after _ _ _ other thread
          (verified.guarantee_rely slot request other _ _ (Ne.symm same) guaranteed) evolved
          (sound.ready other thread ((Function.update_of_ne same ..).symm.trans present))
  | move change =>
      obtain ⟨shared, moved, rfl⟩ := step_move system world next change stepped
      obtain ⟨kept, evolved, relied⟩ := verified.move _ change _ sound.holds moved
      exact ⟨⟨kept, fun other thread present => verified.ready_after _ _ _ other thread
        (relied other) evolved (sound.ready other thread present)⟩, evolved⟩

/-- A verified system is sound after every run, and the state only evolves along it. -/
theorem Verified.run_sound (verified : Verified system inv evolves rely guarantee returns)
    (events : List (Event ι ρ κ μ)) (world final : World σ κ ε α ι ρ)
    (sound : Sound inv evolves rely guarantee returns world)
    (success : Runs.run system.step world events = some final) :
    Sound inv evolves rely guarantee returns final ∧ evolves world.shared final.shared := by
  refine Runs.run_preserves system.step
    (fun now => Sound inv evolves rely guarantee returns now ∧ evolves world.shared now.shared)
    ?_ events world final ⟨sound, verified.refl _⟩ success
  rintro now event next ⟨nowSound, upTo⟩ stepped
  obtain ⟨nextSound, evolved⟩ := verified.step_sound now event next nowSound stepped
  exact ⟨nextSound, verified.trans _ _ _ upTo evolved⟩

/-- Whatever origin a thread is ready from, it stays ready from it along a run. -/
theorem Verified.run_ready (verified : Verified system inv evolves rely guarantee returns)
    (events : List (Event ι ρ κ μ)) (world final : World σ κ ε α ι ρ) (slot : ι)
    (thread found : Thread σ κ ε α ρ) (origin : σ)
    (sound : Sound inv evolves rely guarantee returns world)
    (present : world.threads slot = some thread)
    (ready : Ready inv evolves rely guarantee returns origin world.shared slot thread)
    (success : Runs.run system.step world events = some final)
    (here : final.threads slot = some found) :
    found.request = thread.request ∧ found.since = thread.since ∧
      Ready inv evolves rely guarantee returns origin final.shared slot found := by
  have kept := Runs.run_preserves system.step
    (fun now => Sound inv evolves rely guarantee returns now ∧ ∃ mine,
      now.threads slot = some mine ∧ mine.request = thread.request ∧ mine.since = thread.since ∧
        Ready inv evolves rely guarantee returns origin now.shared slot mine)
    ?_ events world final ⟨sound, thread, present, rfl, rfl, ready⟩ success
  · obtain ⟨-, mine, known, request, since, stillReady⟩ := kept
    cases known.symm.trans here
    exact ⟨request, since, stillReady⟩
  · rintro now event next ⟨nowSound, mine, known, request, since, nowReady⟩ stepped
    obtain ⟨nextSound, evolved⟩ := verified.step_sound now event next nowSound stepped
    refine ⟨nextSound, ?_⟩
    cases event with
    | start other asked =>
        obtain ⟨free, -, rfl⟩ := step_start system now next other asked stepped
        have different : slot ≠ other := by
          rintro rfl
          cases free.symm.trans known
        exact ⟨mine, (Function.update_of_ne different ..).trans known, request, since, nowReady⟩
    | step other choice =>
        obtain ⟨asked, began, effect, after, busy, rfl⟩ :=
          step_step system now next other choice stepped
        by_cases own : other = slot
        · subst own
          cases known.symm.trans busy
          exact ⟨_, Function.update_self .., request, since,
            (verified.acted origin now.shared other asked began effect after choice nowSound.holds
              nowReady).2.2⟩
        · obtain ⟨-, guaranteed, -⟩ := verified.acted began now.shared other asked began effect
            after choice nowSound.holds (nowSound.ready other _ busy)
          exact ⟨mine, (Function.update_of_ne (Ne.symm own) ..).trans known, request, since,
            verified.ready_after origin _ _ slot mine
              (verified.guarantee_rely other asked slot _ _ own guaranteed) evolved nowReady⟩
    | move change =>
        obtain ⟨shared, moved, rfl⟩ := step_move system now next change stepped
        obtain ⟨-, -, relied⟩ := verified.move _ change _ nowSound.holds moved
        exact ⟨mine, known, request, since,
          verified.ready_after origin _ _ slot mine (relied slot) evolved nowReady⟩

omit [DecidableEq ι] in
theorem Ready.returned (origin now : σ) (slot : ι) (request : ρ) (since : σ) (result : α)
    (ready : Ready inv evolves rely guarantee returns origin now slot
      (⟨request, since, .done result⟩ : Thread σ κ ε α ρ)) :
    ∃ past, evolves origin past ∧ evolves past now ∧ returns request since result past := by
  obtain ⟨past, began, -, reached, meets⟩ := ready
  exact ⟨past, began, reached, meets⟩

theorem Verified.run_started (verified : Verified system inv evolves rely guarantee returns)
    (events : List (Event ι ρ κ μ)) (world final : World σ κ ε α ι ρ) (slot : ι)
    (thread : Thread σ κ ε α ρ) (sound : Sound inv evolves rely guarantee returns world)
    (free : world.threads slot = none)
    (success : Runs.run system.step world events = some final)
    (present : final.threads slot = some thread) : evolves world.shared thread.since := by
  have kept := Runs.run_preserves system.step
    (fun now => (Sound inv evolves rely guarantee returns now ∧ evolves world.shared now.shared) ∧
      ∀ found, now.threads slot = some found → evolves world.shared found.since)
    ?_ events world final
    ⟨⟨sound, verified.refl _⟩, fun found here => nomatch free.symm.trans here⟩ success
  · exact kept.2 thread present
  · rintro now event next ⟨⟨nowSound, upTo⟩, started⟩ stepped
    obtain ⟨nextSound, evolved⟩ := verified.step_sound now event next nowSound stepped
    refine ⟨⟨nextSound, verified.trans _ _ _ upTo evolved⟩, fun found here => ?_⟩
    cases event with
    | start other request =>
        obtain ⟨-, -, rfl⟩ := step_start system now next other request stepped
        by_cases same : slot = other
        · subst same
          cases (Function.update_self slot _ now.threads).symm.trans here
          exact upTo
        · exact started found ((Function.update_of_ne same ..).symm.trans here)
    | step other choice =>
        obtain ⟨request, since, effect, after, busy, rfl⟩ :=
          step_step system now next other choice stepped
        by_cases same : slot = other
        · subst same
          cases (Function.update_self slot _ now.threads).symm.trans here
          exact started ⟨request, since, .act effect after⟩ busy
        · exact started found ((Function.update_of_ne same ..).symm.trans here)
    | move change =>
        obtain ⟨shared, -, rfl⟩ := step_move system now next change stepped
        exact started found here

/-- A state change that only one kind of request makes was made by a thread of that kind. -/
theorem Verified.run_changed (verified : Verified system inv evolves rely guarantee returns)
    (Changed : σ → Prop) (kind : ρ → Prop)
    (moves : ∀ now change later, inv now → system.move now change = some later → Changed later →
      Changed now)
    (others : ∀ slot request now later, ¬ kind request → inv now → inv later →
      guarantee slot request now later → Changed later → Changed now)
    (events : List (Event ι ρ κ μ)) (world final : World σ κ ε α ι ρ)
    (sound : Sound inv evolves rely guarantee returns world) (unchanged : ¬ Changed world.shared)
    (success : Runs.run system.step world events = some final) (changed : Changed final.shared) :
    ∃ before slot choice after now next thread,
      events = before ++ .step slot choice :: after ∧
      Runs.run system.step world before = some now ∧ ¬ Changed now.shared ∧
      system.step now (.step slot choice) = some next ∧ Changed next.shared ∧
      Runs.run system.step next after = some final ∧
      next.threads slot = some thread ∧ kind thread.request ∧
      Ready inv evolves rely guarantee returns next.shared next.shared slot thread := by
  obtain ⟨before, event, after, now, next, rfl, upTo, still, stepped, now', rest⟩ :=
    Runs.run_first_change system.step (fun now => Changed now.shared) events world final unchanged
      success changed
  obtain ⟨nowSound, -⟩ := verified.run_sound before world now sound upTo
  obtain ⟨nextSound, -⟩ := verified.step_sound now event next nowSound stepped
  cases event with
  | start slot request =>
      obtain ⟨-, -, rfl⟩ := step_start system now next slot request stepped
      exact absurd now' still
  | step slot choice =>
      obtain ⟨request, since, effect, more, busy, rfl⟩ :=
        step_step system now next slot choice stepped
      obtain ⟨past, -, upToNow, -, safe⟩ := nowSound.ready slot _ busy
      obtain ⟨kept, guaranteed, later⟩ := safe now.shared choice nowSound.holds upToNow
      refine ⟨before, slot, choice, after, now, _, _, rfl, upTo, still, stepped, now', rest,
        Function.update_self .., ?_, _, verified.refl _, verified.rely_refl slot _,
        verified.refl _, later⟩
      by_contra foreign
      exact still (others slot request _ _ foreign nowSound.holds kept guaranteed now')
  | move change =>
      obtain ⟨shared, moved, rfl⟩ := step_move system now next change stepped
      exact absurd (moves _ change _ nowSound.holds moved now') still

/-! ## Retries -/

/-- The request of a slot was answered, by its program or by one started once that had stopped. -/
def Answered (system : System σ κ ε α ι ρ μ) (origin : World σ κ ε α ι ρ)
    (events : List (Event ι ρ κ μ)) (world : World σ κ ε α ι ρ) (slot : ι) (request : ρ) : Prop :=
  (∃ since result, world.threads slot = some ⟨request, since, .done result⟩) ∨
    ∃ before after stopped retry since result, events = before ++ after ∧
      Runs.run system.step origin before = some stopped ∧
      (∀ choice, Event.step slot choice ∉ after) ∧ stopped.threads retry = none ∧
      world.threads retry = some ⟨request, since, .done result⟩

theorem run_free (events : List (Event ι ρ κ μ)) (world final : World σ κ ε α ι ρ) (slot : ι)
    (free : world.threads slot = none) (idle : ∀ request, Event.start slot request ∉ events)
    (success : Runs.run system.step world events = some final) : final.threads slot = none := by
  induction events generalizing world with
  | nil =>
      cases Option.some.inj success
      exact free
  | cons event rest ih =>
      obtain ⟨next, stepped, remaining⟩ := Runs.run_cons_eq_some _ _ _ _ _ success
      refine ih next ?_ (fun request listed => idle request (List.mem_cons_of_mem _ listed))
        remaining
      cases event with
      | start other request =>
          obtain ⟨-, -, rfl⟩ := step_start system world next other request stepped
          have different : slot ≠ other := by
            rintro rfl
            exact idle request List.mem_cons_self
          exact (Function.update_of_ne different ..).trans free
      | step other choice =>
          obtain ⟨request, since, effect, after, busy, rfl⟩ :=
            step_step system world next other choice stepped
          have different : slot ≠ other := by
            rintro rfl
            cases free.symm.trans busy
          exact (Function.update_of_ne different ..).trans free
      | move change =>
          obtain ⟨shared, -, rfl⟩ := step_move system world next change stepped
          exact free

theorem run_thread (events : List (Event ι ρ κ μ)) (world final : World σ κ ε α ι ρ) (slot : ι)
    (thread : Thread σ κ ε α ρ) (present : world.threads slot = some thread)
    (success : Runs.run system.step world events = some final) :
    ∃ found, final.threads slot = some found ∧ found.request = thread.request := by
  refine Runs.run_preserves system.step
    (fun now => ∃ found, now.threads slot = some found ∧ found.request = thread.request) ?_ events
    world final ⟨thread, present, rfl⟩ success
  rintro now event next ⟨found, here, request⟩ stepped
  rcases step_thread system now next event slot found here stepped with kept | acted
  · exact ⟨found, kept, request⟩
  · obtain ⟨effect, after, choice, -, -, rfl⟩ := acted
    exact ⟨_, Function.update_self .., request⟩

/-- A request answered after one of its program's steps is answered from a state after that step. -/
theorem Verified.run_answered (verified : Verified system inv evolves rely guarantee returns)
    (before after : List (Event ι ρ κ μ)) (origin now next final : World σ κ ε α ι ρ) (slot : ι)
    (choice : κ) (thread : Thread σ κ ε α ρ)
    (sound : Sound inv evolves rely guarantee returns origin)
    (upTo : Runs.run system.step origin before = some now)
    (stepped : system.step now (.step slot choice) = some next)
    (rest : Runs.run system.step next after = some final)
    (present : next.threads slot = some thread)
    (ready : Ready inv evolves rely guarantee returns next.shared next.shared slot thread)
    (answered : Answered system origin (before ++ .step slot choice :: after) final slot
      thread.request) :
    ∃ past since result, evolves next.shared past ∧ evolves past final.shared ∧
      returns thread.request since result past := by
  obtain ⟨nowSound, -⟩ := verified.run_sound before origin now sound upTo
  obtain ⟨nextSound, -⟩ := verified.step_sound now _ next nowSound stepped
  obtain ⟨finalSound, -⟩ := verified.run_sound after next final nextSound rest
  rcases answered with ⟨since, result, ended⟩ | retried
  · obtain ⟨request, -, still⟩ := verified.run_ready after next final slot thread _ next.shared
      nextSound present ready rest ended
    obtain ⟨past, began, reached, meets⟩ := Ready.returned _ _ _ _ _ _ still
    exact ⟨past, since, result, began, reached, meets⟩
  · obtain ⟨first, second, stopped, retry, since, result, split, upToStopped, silent, free,
      ended⟩ :=
      retried
    -- The step is not among those after the program had stopped.
    obtain ⟨between, rfl, rfl⟩ : ∃ between, first = before ++ .step slot choice :: between ∧
        after = between ++ second := by
      rcases List.append_eq_append_iff.mp split with ⟨middle, same, tail⟩ | ⟨middle, same, tail⟩
      · cases middle with
        | nil =>
            have inside : Event.step slot choice ∈ second := by
              rw [List.nil_append] at tail
              simp [← tail]
            exact absurd inside (silent choice)
        | cons event between =>
            cases tail
            exact ⟨between, same, rfl⟩
      · have inside : Event.step slot choice ∈ second := by simp [tail]
        exact absurd inside (silent choice)
    have reached : Runs.run system.step next between = some stopped := by
      rw [Runs.run_append, upTo, Option.bind_some, Runs.run_cons, stepped, Option.bind_some]
        at upToStopped
      exact upToStopped
    obtain ⟨stoppedSound, evolved⟩ := verified.run_sound between next stopped nextSound reached
    have later : Runs.run system.step stopped second = some final := by
      rw [Runs.run_append, reached, Option.bind_some] at rest
      exact rest
    have started := verified.run_started second stopped final retry _ stoppedSound free later ended
    obtain ⟨past, began, toFinal, meets⟩ := Ready.returned _ _ _ _ _ _
      (finalSound.ready retry _ ended)
    exact ⟨past, since, result, verified.trans _ _ _ evolved (verified.trans _ _ _ started began),
      toFinal, meets⟩

end System

end Programs
