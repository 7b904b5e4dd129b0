import Commerce.Users.Reconciler

/-!
# What a clean pass has published

A row stays ahead of the cursor of a pass until the pass reads it, unless a
write gives it a stamp the pass has already gone by.  Where no write does so, a
completed pass has published every bump committed before it started, but those
no token is left to be refused for.
-/

set_option autoImplicit false

namespace Commerce.Users.Reconciler

open Users.Service (raiseEpoch raiseEpoch_cases)

variable (accessTtl : Int)

/-! ## Pages of the users table -/

instance : Std.Total upTo := by
  refine ⟨fun one other => ?_⟩
  unfold upTo
  omega

instance : IsTrans UserRow upTo := by
  refine ⟨fun one other third first second => ?_⟩
  unfold upTo at *
  omega

def UserRow.cursor (row : UserRow) : Cursor := ⟨row.updatedAt, row.id⟩

theorem passedBy_iff (cursor : Cursor) (row : UserRow) :
    cursor.passedBy row = true ↔ cursor.updatedAt < row.updatedAt ∨
      cursor.updatedAt = row.updatedAt ∧ cursor.userId < row.id := by
  simp [Cursor.passedBy]

theorem eq_of_id {rows : List UserRow} (keyed : (rows.map (·.id)).Nodup) {one other : UserRow}
    (first : one ∈ rows) (second : other ∈ rows) (same : one.id = other.id) : one = other :=
  Tables.eq_of_key (·.id) rows one other keyed first second same

/-- Reading a page: what was ahead is on it, or ahead of the cursor it leaves. -/
theorem read_cases (pass : Pass) (rows : List UserRow) (keyed : (rows.map (·.id)).Nodup)
    (more : pass.more = true) (row : UserRow) (listed : row ∈ rows)
    (ahead : beyond pass.since pass.after row = true) :
    row.change ∈ (pass.read rows).pending ∨
      (pass.read rows).more = true ∧ beyond pass.since (pass.read rows).after row = true := by
  let page := Pages.page upTo (beyond pass.since pass.after) pageSize rows
  have pending : (pass.read rows).pending = page.map UserRow.change := by
    simp only [Pass.read]
    split <;> rfl
  have lengths : (listChanges rows pass.since pass.after pageSize).length = page.length :=
    List.length_map _
  rw [pending]
  by_cases short : page.length < pageSize
  · exact .inl (List.mem_map_of_mem (Pages.mem_page_of_short upTo _ _ rows row short listed ahead))
  · obtain ⟨last, ends⟩ : ∃ last, page.getLast? = some last := by
      cases found : page.getLast? with
      | some last => exact ⟨last, rfl⟩
      | none =>
          rw [List.getLast?_eq_none_iff.mp found] at short
          exact absurd (by decide : 0 < pageSize) short
    have after : (pass.read rows).after = some last.cursor ∧ (pass.read rows).more = true := by
      simp only [Pass.read, lengths, if_neg short, more, and_true]
      rw [listChanges, List.getLast?_map, ends]
      rfl
    rcases Pages.mem_page_or_past upTo _ _ rows row last listed ahead ends with early | late
    · exact .inl (List.mem_map_of_mem early)
    · by_cases itself : row = last
      · exact .inl (List.mem_map_of_mem (itself ▸ List.mem_of_getLast? ends))
      · refine .inr ⟨after.2, ?_⟩
        have lastListed := (Pages.mem_page upTo _ _ rows last (List.mem_of_getLast? ends)).1
        have different : last.id ≠ row.id := fun same =>
          itself (eq_of_id keyed listed lastListed same.symm)
        rw [after.1]
        refine (passedBy_iff _ _).mpr ?_
        rcases late with before | ⟨same, below⟩
        · exact .inl before
        · refine .inr ⟨same, ?_⟩
          show last.id < row.id
          omega

/-! ## The invariant -/

def Published (world : World) (bump : Bump) : Prop :=
  ∃ current, world.published bump.userId = some current ∧ bump.epoch ≤ current

/-- The bump needs no publish by the pass: it has one, or every token minted before it has
expired. -/
def Carried (world : World) (bump : Bump) (startedAt : Int) : Prop :=
  Published world bump ∨ bump.committedAt + firstPassLookback accessTtl < startedAt

/-- The pass is about to publish the user's epoch, or to read it. -/
def Waiting (world : World) (pass : Pass) (bump : Bump) : Prop :=
  (∃ change ∈ pass.pending, change.userId = bump.userId ∧ bump.epoch ≤ change.epoch) ∨
    (pass.more = true ∧
      ∃ row ∈ world.rows, row.id = bump.userId ∧ beyond pass.since pass.after row = true)

structure PassSound (world : World) (pass : Pass) : Prop where
  started : pass.startedAt ≤ world.now
  since : pass.since ≤ pass.startedAt - overlap
  known : ∀ bump ∈ world.bumps, bump ∈ pass.known ∨ pass.startedAt ≤ bump.committedAt
  bumps : ∀ bump ∈ pass.known, bump ∈ world.bumps ∧
    (Carried accessTtl world bump pass.startedAt ∨ Waiting world pass bump)

structure Reached (world : World) (bump : Bump) : Prop where
  row : ∃ row ∈ world.rows, row.id = bump.userId ∧ bump.epoch ≤ row.epoch ∧
    bump.committedAt - overlap ≤ row.updatedAt
  past : bump.committedAt ≤ world.now

structure Kept (world : World) : Prop where
  keyed : (world.rows.map (·.id)).Nodup
  bumps : ∀ bump ∈ world.bumps, Reached world bump
  clean : ∀ watermark, world.watermark = some watermark → watermark ≤ world.now ∧
    ∀ bump ∈ world.bumps,
      watermark ≤ bump.committedAt ∨ Carried accessTtl world bump watermark
  pass : ∀ pass, world.pass = some pass → PassSound accessTtl world pass
  completed : ∀ pass ∈ world.completed, ∀ bump ∈ pass.known,
    Carried accessTtl world bump pass.startedAt

/-! ## Publishing -/

theorem published_raise (world : World) (userId : Nat) (epoch : Int) (bump : Bump)
    (published : Published world bump) : Published (world.publish userId epoch) bump := by
  obtain ⟨current, known, below⟩ := published
  by_cases same : bump.userId = userId
  · subst same
    have raised := (raiseEpoch_cases (world.published bump.userId) epoch).1.2 current known
    exact ⟨_, Function.update_self _ _ _, by omega⟩
  · exact ⟨current, (Function.update_of_ne same _ _).trans known, below⟩

theorem published_here (world : World) (change : EpochChange) (bump : Bump)
    (same : change.userId = bump.userId) (below : bump.epoch ≤ change.epoch) :
    Published (world.publish change.userId change.epoch) bump := by
  have raised := (raiseEpoch_cases (world.published change.userId) change.epoch).1.1
  refine ⟨raiseEpoch (world.published change.userId) change.epoch, ?_, by omega⟩
  rw [← same]
  exact Function.update_self _ _ _

theorem Carried.mono {world next : World} {bump : Bump} {startedAt : Int}
    (carried : Carried accessTtl world bump startedAt)
    (raises : Published world bump → Published next bump) :
    Carried accessTtl next bump startedAt := by
  rcases carried with published | old
  · exact .inl (raises published)
  · exact .inr old

theorem Kept.raise {world next : World} (kept : Kept accessTtl world)
    (raises : ∀ bump, Published world bump → Published next bump)
    (now : next.now = world.now) (rows : next.rows = world.rows)
    (bumps : next.bumps = world.bumps) (watermark : next.watermark = world.watermark)
    (completed : next.completed = world.completed)
    (pass : ∀ pass, next.pass = some pass → PassSound accessTtl next pass) :
    Kept accessTtl next := by
  refine ⟨rows ▸ kept.keyed, ?_, ?_, pass, ?_⟩
  · intro bump listed
    rw [bumps] at listed
    obtain ⟨row, past⟩ := kept.bumps bump listed
    exact ⟨rows ▸ row, now ▸ past⟩
  · intro mark known
    rw [watermark] at known
    obtain ⟨below, clean⟩ := kept.clean mark known
    rw [now, bumps]
    refine ⟨below, fun bump listed => ?_⟩
    rcases clean bump listed with later | carried
    · exact .inl later
    · exact .inr (carried.mono accessTtl (raises bump))
  · intro done listed bump known
    rw [completed] at listed
    exact (kept.completed done listed bump known).mono accessTtl (raises bump)

/-! ## Starting and reading -/

theorem lookback_pos : 0 < firstPassLookback accessTtl := by
  unfold firstPassLookback minFirstPassLookback
  omega

/-- What a bump has to do with a pass that starts now. -/
theorem started_waits (world : World) (bump : Bump) (pass : Pass) (kept : Kept accessTtl world)
    (listed : bump ∈ world.bumps) (startedAt : pass.startedAt = world.now)
    (since : pass.since = world.since accessTtl) (after : pass.after = none)
    (more : pass.more = true) :
    Carried accessTtl world bump pass.startedAt ∨ Waiting world pass bump := by
  obtain ⟨⟨row, rowListed, id, -, fresh⟩, past⟩ := kept.bumps bump listed
  have waits : world.since accessTtl ≤ bump.committedAt - overlap → Waiting world pass bump := by
    intro covered
    refine .inr ⟨more, row, rowListed, id, ?_⟩
    rw [after, since]
    simp only [beyond, decide_eq_true_eq]
    omega
  cases watermark : world.watermark with
  | none =>
      have from_ : world.since accessTtl = world.now - firstPassLookback accessTtl - overlap := by
        simp [World.since, watermark]
      by_cases old : bump.committedAt + firstPassLookback accessTtl < world.now
      · exact .inl (.inr (startedAt ▸ old))
      · refine .inr (waits ?_)
        omega
  | some mark =>
      have from_ : world.since accessTtl = mark - overlap := by simp [World.since, watermark]
      obtain ⟨below, clean⟩ := kept.clean mark watermark
      rcases clean bump listed with later | published | old
      · refine .inr (waits ?_)
        omega
      · exact .inl (.inl published)
      · refine .inl (.inr ?_)
        omega

theorem since_before (world : World) (kept : Kept accessTtl world) :
    world.since accessTtl ≤ world.now - overlap := by
  have positive := lookback_pos accessTtl
  cases watermark : world.watermark with
  | none =>
      simp only [World.since, watermark, Option.getD_none]
      omega
  | some mark =>
      have below := (kept.clean mark watermark).1
      simp only [World.since, watermark, Option.getD_some]
      omega

theorem read_fields (pass : Pass) (rows : List UserRow) :
    (pass.read rows).startedAt = pass.startedAt ∧ (pass.read rows).since = pass.since ∧
      (pass.read rows).known = pass.known := by
  simp only [Pass.read]
  split <;> exact ⟨rfl, rfl, rfl⟩

theorem read_sound (world : World) (pass : Pass) (kept : Kept accessTtl world)
    (sound : PassSound accessTtl world pass) (drained : pass.pending = [])
    (more : pass.more = true) :
    PassSound accessTtl { world with pass := some (pass.read world.rows) }
      (pass.read world.rows) := by
  obtain ⟨startedAt, since, known⟩ := read_fields pass world.rows
  refine ⟨startedAt ▸ sound.started, ?_, ?_, ?_⟩
  · rw [startedAt, since]
    exact sound.since
  · rw [startedAt, known]
    exact sound.known
  · rw [startedAt, known]
    intro bump member
    obtain ⟨listed, state⟩ := sound.bumps bump member
    refine ⟨listed, ?_⟩
    rcases state with carried | ⟨change, waits, -⟩ | ⟨-, row, rowListed, id, ahead⟩
    · exact .inl carried
    · rw [drained] at waits
      cases waits
    · obtain ⟨⟨found, foundListed, same, below, -⟩, -⟩ := kept.bumps bump listed
      cases eq_of_id kept.keyed foundListed rowListed (same.trans id.symm)
      rcases read_cases pass world.rows kept.keyed more row rowListed ahead with
        onPage | ⟨still, beyondCursor⟩
      · exact .inr (.inl ⟨row.change, onPage, id, below⟩)
      · rw [← since] at beyondCursor
        exact .inr (.inr ⟨still, row, rowListed, id, beyondCursor⟩)

theorem publishNext_sound (world : World) (pass : Pass) (change : EpochChange)
    (rest : List EpochChange) (sound : PassSound accessTtl world pass)
    (pending : pass.pending = change :: rest) :
    PassSound accessTtl
      { world.publish change.userId change.epoch with
        pass := some { pass with pending := rest } } { pass with pending := rest } := by
  refine ⟨sound.started, sound.since, sound.known, ?_⟩
  intro bump member
  obtain ⟨listed, state⟩ := sound.bumps bump member
  refine ⟨listed, ?_⟩
  rcases state with carried | ⟨found, waits, same, below⟩ | ahead
  · exact .inl (carried.mono accessTtl (published_raise world _ _ bump))
  · rw [pending] at waits
    rcases List.mem_cons.mp waits with rfl | later
    · exact .inl (.inl (published_here world found bump same below))
    · exact .inr (.inl ⟨found, later, same, below⟩)
  · exact .inr (.inr ahead)

/-! ## Writes -/

def isPublished (world : World) (row : UserRow) : Bool :=
  match world.published row.id with
  | some current => decide (row.epoch ≤ current)
  | none => false

/-- A write leaves a row with an unpublished epoch ahead of the cursor of a paging pass. -/
def staysAhead (world : World) : Event → Bool
  | .write userId stamp _ =>
      match world.pass with
      | some pass =>
          match pass.after with
          | some cursor =>
              !pass.more || world.rows.all fun row =>
                row.id != userId || !cursor.passedBy row || isPublished world row ||
                  cursor.passedBy { row with updatedAt := stamp }
          | none => true
      | none => true
  | _ => true

def StaysAhead (world : World) (event : Event) : Prop := staysAhead world event = true

instance (world : World) (event : Event) : Decidable (StaysAhead world event) :=
  inferInstanceAs (Decidable (staysAhead world event = true))

theorem published_of_isPublished (world : World) (row : UserRow) (bump : Bump)
    (published : isPublished world row = true) (id : row.id = bump.userId)
    (below : bump.epoch ≤ row.epoch) : Published world bump := by
  unfold isPublished at published
  split at published
  · rename_i current known
    have reached := of_decide_eq_true published
    exact ⟨current, id ▸ known, by omega⟩
  · cases published

/-- A row that waits for the pass still does after a write, or its epoch is published. -/
theorem write_waits (world : World) (pass : Pass) (userId : Nat) (stamp : Int) (bumps : Bool)
    (bump : Bump) (row : UserRow) (here : world.pass = some pass)
    (ahead : StaysAhead world (.write userId stamp bumps)) (listed : row ∈ world.rows)
    (id : row.id = bump.userId) (below : bump.epoch ≤ row.epoch) (covered : pass.since ≤ stamp)
    (more : pass.more = true) (waits : beyond pass.since pass.after row = true) :
    Published world bump ∨
      beyond pass.since pass.after (if row.id = userId then writeRow bumps stamp row else row) =
        true := by
  by_cases target : row.id = userId
  · rw [if_pos target]
    cases after : pass.after with
    | none => exact .inr (decide_eq_true covered)
    | some cursor =>
        rw [after] at waits
        simp only [StaysAhead, staysAhead, here, after, more, Bool.not_true, Bool.false_or,
          List.all_eq_true, Bool.or_eq_true, bne_iff_ne, Bool.not_eq_true'] at ahead
        rcases ahead row listed with ((other | behind) | published) | stays
        · exact absurd target other
        · rw [show cursor.passedBy row = true from waits] at behind
          cases behind
        · exact .inl (published_of_isPublished world row bump published id below)
        · exact .inr stays
  · rw [if_neg target]
    exact .inr waits

theorem kept_write (world : World) (userId : Nat) (stamp : Int) (bumps : Bool) (row : UserRow)
    (kept : Kept accessTtl world) (ahead : StaysAhead world (.write userId stamp bumps))
    (found : (world.rows.find? fun row => row.id == userId) = some row)
    (fresh : world.now - overlap ≤ stamp) :
    Kept accessTtl { world with
      rows := Tables.update (·.id) userId (writeRow bumps stamp) world.rows
      bumps := (if bumps then [⟨userId, row.epoch + 1, world.now⟩] else []) ++ world.bumps } := by
  have rowListed := List.mem_of_find?_eq_some found
  have rowId : row.id = userId := by simpa using List.find?_some found
  have written : ∀ old ∈ world.rows,
      (if old.id = userId then writeRow bumps stamp old else old) ∈
        Tables.update (·.id) userId (writeRow bumps stamp) world.rows :=
    fun old listed => List.mem_map_of_mem listed
  have newBump : ∀ bump ∈ (if bumps then [⟨userId, row.epoch + 1, world.now⟩] else [] : List Bump),
      bumps = true ∧ bump = ⟨userId, row.epoch + 1, world.now⟩ := by
    intro bump member
    split at member
    · rename_i bumping
      exact ⟨bumping, List.mem_singleton.mp member⟩
    · cases member
  refine ⟨?_, ?_, ?_, ?_, kept.completed⟩
  · rw [Tables.map_key_update (·.id) userId (writeRow bumps stamp) world.rows fun _ => rfl]
    exact kept.keyed
  · intro bump listed
    rcases List.mem_append.mp listed with new | known
    · obtain ⟨bumping, rfl⟩ := newBump bump new
      refine ⟨⟨_, written row rowListed, ?_⟩, Int.le_refl _⟩
      rw [if_pos rowId]
      refine ⟨rowId, ?_, fresh⟩
      simp [writeRow, bumping]
    · obtain ⟨⟨old, oldListed, id, below, stamped⟩, past⟩ := kept.bumps bump known
      refine ⟨⟨_, written old oldListed, ?_⟩, past⟩
      split
      · refine ⟨id, ?_, ?_⟩
        · simp only [writeRow]
          split <;> omega
        · show bump.committedAt - overlap ≤ stamp
          omega
      · exact ⟨id, below, stamped⟩
  · intro mark known
    obtain ⟨below, clean⟩ := kept.clean mark known
    refine ⟨below, fun bump listed => ?_⟩
    rcases List.mem_append.mp listed with new | old
    · obtain ⟨-, rfl⟩ := newBump bump new
      exact .inl below
    · exact clean bump old
  · intro pass here
    have sound := kept.pass pass here
    refine ⟨sound.started, sound.since, ?_, ?_⟩
    · intro bump listed
      rcases List.mem_append.mp listed with new | old
      · obtain ⟨-, rfl⟩ := newBump bump new
        exact .inr sound.started
      · exact sound.known bump old
    · intro bump member
      obtain ⟨listed, state⟩ := sound.bumps bump member
      refine ⟨List.mem_append_right _ listed, ?_⟩
      rcases state with carried | waits | ⟨more, old, oldListed, id, waits⟩
      · exact .inl carried
      · exact .inr (.inl waits)
      · obtain ⟨⟨reached, reachedListed, same, below, -⟩, -⟩ := kept.bumps bump listed
        cases eq_of_id kept.keyed reachedListed oldListed (same.trans id.symm)
        have covered : pass.since ≤ stamp := by
          have since := sound.since
          have started := sound.started
          omega
        rcases write_waits world pass userId stamp bumps bump old here ahead oldListed id below
          covered more waits with published | still
        · exact .inl (.inl published)
        · refine .inr (.inr ⟨more, _, written old oldListed, ?_, still⟩)
          split <;> exact id

/-! ## Every step -/

theorem kept_step (world : World) (event : Event) (next : World) (kept : Kept accessTtl world)
    (ahead : StaysAhead world event) (stepped : step accessTtl world event = some next) :
    Kept accessTtl next := by
  cases event with
  | tick elapsed =>
      cases stepped
      refine ⟨kept.keyed, ?_, ?_, ?_, kept.completed⟩
      · intro bump listed
        obtain ⟨row, past⟩ := kept.bumps bump listed
        refine ⟨row, ?_⟩
        show bump.committedAt ≤ world.now + elapsed
        omega
      · intro mark known
        obtain ⟨below, clean⟩ := kept.clean mark known
        refine ⟨?_, clean⟩
        show mark ≤ world.now + elapsed
        omega
      · intro pass here
        have sound := kept.pass pass here
        refine ⟨?_, sound.since, sound.known, sound.bumps⟩
        have started := sound.started
        show pass.startedAt ≤ world.now + elapsed
        omega
  | register userId stamp =>
      simp only [step] at stepped
      split at stepped <;> cases stepped
      rename_i admitted
      refine ⟨?_, ?_, kept.clean, ?_, kept.completed⟩
      · rw [List.map_append]
        refine List.Nodup.append kept.keyed (List.nodup_singleton _) ?_
        rw [List.map_singleton, List.disjoint_singleton]
        exact admitted.2
      · intro bump listed
        obtain ⟨⟨row, rowListed, rest⟩, past⟩ := kept.bumps bump listed
        exact ⟨⟨row, List.mem_append_left _ rowListed, rest⟩, past⟩
      · intro pass here
        have sound := kept.pass pass here
        refine ⟨sound.started, sound.since, sound.known, fun bump member => ?_⟩
        obtain ⟨listed, state⟩ := sound.bumps bump member
        refine ⟨listed, ?_⟩
        rcases state with carried | waits | ⟨more, row, rowListed, rest⟩
        · exact .inl carried
        · exact .inr (.inl waits)
        · exact .inr (.inr ⟨more, row, List.mem_append_left _ rowListed, rest⟩)
  | write userId stamp bumps =>
      simp only [step] at stepped
      split at stepped
      · cases stepped
      · rename_i row found
        split at stepped <;> cases stepped
        rename_i stamps
        simp only [World.stamps, Bool.and_eq_true, decide_eq_true_eq] at stamps
        exact kept_write accessTtl world userId stamp bumps row kept ahead found stamps.1
  | publish userId epoch =>
      simp only [step] at stepped
      split at stepped <;> cases stepped
      refine kept.raise accessTtl (published_raise world userId epoch) rfl rfl rfl rfl rfl ?_
      intro pass here
      have sound := kept.pass pass here
      refine ⟨sound.started, sound.since, sound.known, fun bump member => ?_⟩
      obtain ⟨listed, state⟩ := sound.bumps bump member
      refine ⟨listed, ?_⟩
      rcases state with carried | waits
      · exact .inl (carried.mono accessTtl (published_raise world userId epoch bump))
      · exact .inr waits
  | startPass =>
      simp only [step] at stepped
      split at stepped <;> cases stepped
      refine kept.raise accessTtl (fun _ => id) rfl rfl rfl rfl rfl ?_
      rintro pass ⟨⟩
      refine ⟨Int.le_refl _, since_before accessTtl world kept, fun bump listed => .inl listed, ?_⟩
      intro bump listed
      exact ⟨listed, started_waits accessTtl world bump _ kept listed rfl rfl rfl rfl⟩
  | readPage =>
      simp only [step] at stepped
      split at stepped
      · rename_i pass here
        split at stepped <;> cases stepped
        rename_i reads
        refine kept.raise accessTtl (fun _ => id) rfl rfl rfl rfl rfl ?_
        rintro after ⟨⟩
        exact read_sound accessTtl world pass kept (kept.pass pass here) reads.1 reads.2
      · cases stepped
  | publishNext =>
      simp only [step] at stepped
      split at stepped
      · rename_i pass here
        split at stepped
        · cases stepped
        · rename_i change rest pending
          cases stepped
          refine kept.raise accessTtl (published_raise world _ _) rfl rfl rfl rfl rfl ?_
          rintro after ⟨⟩
          exact publishNext_sound accessTtl world pass change rest (kept.pass pass here) pending
      · cases stepped
  | abortPass =>
      simp only [step] at stepped
      split at stepped <;> cases stepped
      exact kept.raise accessTtl (fun _ => id) rfl rfl rfl rfl rfl fun _ absent => by cases absent
  | finishPass =>
      simp only [step] at stepped
      split at stepped
      · rename_i pass here
        split at stepped <;> cases stepped
        rename_i drained
        have sound := kept.pass pass here
        have carried : ∀ bump ∈ pass.known, Carried accessTtl world bump pass.startedAt := by
          intro bump member
          rcases (sound.bumps bump member).2 with carried | ⟨change, waits, -⟩ | ⟨more, -⟩
          · exact carried
          · rw [drained.1] at waits
            cases waits
          · rw [drained.2] at more
            cases more
        refine ⟨kept.keyed, ?_, ?_, (fun _ absent => by cases absent), ?_⟩
        · intro bump listed
          obtain ⟨row, past⟩ := kept.bumps bump listed
          exact ⟨row, past⟩
        · rintro mark ⟨⟩
          refine ⟨sound.started, fun bump listed => ?_⟩
          rcases sound.known bump listed with known | later
          · exact .inr (carried bump known)
          · exact .inl later
        · intro done listed
          rcases List.mem_cons.mp listed with rfl | earlier
          · exact carried
          · exact kept.completed done earlier
      · cases stepped
  | restart =>
      cases stepped
      refine ⟨kept.keyed, fun bump listed => ?_, (fun _ absent => by cases absent),
        (fun _ absent => by cases absent), kept.completed⟩
      obtain ⟨row, past⟩ := kept.bumps bump listed
      exact ⟨row, past⟩

theorem kept_start (table : Table) (now : Int) : Kept accessTtl (start table now) :=
  ⟨table.keyed, fun _ member => (nomatch member), fun _ none => (nomatch none),
    fun _ none => (nomatch none), fun _ member => (nomatch member)⟩

/-- In every run whose writes leave the unpublished rows ahead of the cursor of a paging pass: a
bump committed before a completed pass started is published, or is older than the first pass looks
back, and then every access token minted before it had expired. -/
theorem clean_pass_publishes (table : Table) (now : Int) (events : List Event) (world : World)
    (ran : Runs.run (step accessTtl) (start table now) events = some world)
    (ahead : Runs.Along (step accessTtl) StaysAhead (start table now) events) :
    ∀ pass ∈ world.completed, ∀ bump ∈ pass.known, Published world bump ∨
      (bump.committedAt + firstPassLookback accessTtl < pass.startedAt ∧
        ∀ mintedAt, mintedAt ≤ bump.committedAt → mintedAt + accessTtl < pass.startedAt) := by
  have kept := Runs.run_preserves_along (step accessTtl) StaysAhead (Kept accessTtl)
    (kept_step accessTtl) events (start table now) world (kept_start accessTtl table now) ahead ran
  intro pass listed bump known
  rcases kept.completed pass listed bump known with published | old
  · exact .inl published
  · refine .inr ⟨old, fun mintedAt before => ?_⟩
    have covers : accessTtl ≤ firstPassLookback accessTtl := Int.le_max_right _ _
    omega

def passing : List Event :=
  [.write 7 95000000 true, .tick 5, .startPass, .readPage, .publishNext, .finishPass]

def oneUser : Table := ⟨[⟨7, 0, 90000000⟩], by decide⟩

theorem clean_pass_publishes_one :
    ∃ world, Runs.run (step 300000000) (start oneUser 100000000) passing = some world ∧
      world.completed.map (·.known) = [[⟨7, 1, 100000000⟩]] ∧
      ∀ pass ∈ world.completed, ∀ bump ∈ pass.known, Published world bump ∨
        (bump.committedAt + firstPassLookback 300000000 < pass.startedAt ∧
          ∀ mintedAt, mintedAt ≤ bump.committedAt → mintedAt + 300000000 < pass.startedAt) :=
  ⟨_, rfl, rfl,
    clean_pass_publishes 300000000 oneUser 100000000 passing _ rfl (by decide +kernel)⟩

/-- As many users as a page has rows, and one more, changed one after the other. -/
def fullPage : Table :=
  { rows := (List.range (pageSize + 1)).map fun index => ⟨index, 0, 90000000 + index⟩
    keyed := by
      rw [List.map_map]
      exact List.nodup_range.map_on fun one _ other _ same => same }

/-- The last user's bump commits unpublished and a pass starts.  While it publishes its first page,
a second change of that user commits, with a stamp twenty seconds old. -/
def restamped : List Event :=
  [.write pageSize 100000000 true, .startPass, .readPage, .write pageSize 80000000 false] ++
    List.replicate pageSize .publishNext ++ [.readPage, .finishPass]

theorem restamped_facts :
    (Runs.run (step 300000000) (start fullPage 100000000) restamped).map (fun world =>
        (world.published pageSize, world.completed.map fun pass => (pass.startedAt, pass.known))) =
      some (none, [(100000000, [⟨pageSize, 1, 100000000⟩])]) := by
  decide +kernel

/-- The first pass that starts after the bump committed completes without having read it. -/
theorem restamped_row_missed :
    ∃ world pass bump, Runs.run (step 300000000) (start fullPage 100000000) restamped = some world ∧
      pass ∈ world.completed ∧ bump ∈ pass.known ∧ ¬ Published world bump ∧
      ¬ bump.committedAt + firstPassLookback 300000000 < pass.startedAt := by
  obtain ⟨world, ran, facts⟩ := Option.map_eq_some_iff.mp restamped_facts
  obtain ⟨published, completed⟩ := Prod.mk.inj facts
  obtain ⟨pass, rest, passes⟩ : ∃ pass rest, world.completed = pass :: rest := by
    cases listed : world.completed with
    | nil =>
        rw [listed] at completed
        cases completed
    | cons pass rest => exact ⟨pass, rest, rfl⟩
  rw [passes] at completed
  obtain ⟨startedAt, known⟩ := Prod.mk.inj (List.cons.inj completed).1
  refine ⟨world, pass, ⟨pageSize, 1, 100000000⟩, ran, passes ▸ .head _, known ▸ .head _, ?_, ?_⟩
  · rintro ⟨current, there, -⟩
    rw [show world.published pageSize = none from published] at there
    cases there
  · rw [show pass.startedAt = 100000000 from startedAt]
    decide

end Commerce.Users.Reconciler
