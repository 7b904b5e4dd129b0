import Commerce.Users.Recovery

/-!
# Who may change an account

A mailed token is honoured once, before it expires and for the user it was mailed
to; a password is replaced with such a token or by a request that named the very
password it replaced; an address counts as verified, and with
`requireVerifiedEmail` a session opens, only after a token mailed to it came
back.
-/

set_option autoImplicit false

namespace Commerce.Users.Recovery

open Tables SingleUse

variable (settings : Settings)

/-! ## The law -/

/-- Each password of a user replaced the one stored before it, newest first. -/
def Chained : List Replacement → Prop
  | [] => True
  | replacement :: older =>
      (∀ before, older.find? (·.userId == replacement.userId) = some before →
        replacement.replaced = before.stored) ∧ Chained older

def Contact.Of (contact : Contact) (userId : Nat) (email : String) : Prop :=
  contact.userId = userId ∧ contact.email = email

def Desk.Honours (desk : Desk) (purpose : Purpose) (userId : Nat) : Prop :=
  ∃ honour ∈ desk.honoured, honour.purpose = purpose ∧ honour.userId = userId

def Desk.Has (desk : Desk) (userId : Nat) (email : String) : Prop :=
  ∃ contact ∈ desk.contacts, contact.Of userId email

/-- What allowed a replacement. -/
def Desk.Allows (desk : Desk) (replacement : Replacement) : Prop :=
  (∃ currentPassword, replacement.operation = .changePassword replacement.userId currentPassword ∧
    settings.verifies replacement.replaced currentPassword = true) ∨
  ∃ honour ∈ desk.honoured, honour.slot = replacement.slot ∧ honour.purpose = .passwordReset ∧
    honour.userId = replacement.userId ∧ replacement.operation = .resetPassword honour.tokenHash

/-- What allowed a session. -/
def Desk.Admits (desk : Desk) (opening : Opening) : Prop :=
  ∃ email password, opening.operation = .login email password ∧ desk.Has opening.userId email ∧
    settings.verifies opening.passwordHash password = true ∧
      (settings.requireVerifiedEmail = true → desk.Honours .emailVerification opening.userId)

structure Law (desk : Desk) : Prop where
  /-- A token is honoured once, a request honours one token and replaces one password. -/
  tokensOnce : (desk.honoured.map fun honour => (honour.purpose, honour.tokenHash)).Nodup
  requestsOnce : (desk.honoured.map (·.slot)).Nodup
  replacementsOnce : (desk.replacements.map (·.slot)).Nodup
  rightful : ∀ honour ∈ desk.honoured, ∃ issue ∈ desk.issued, issue.purpose = honour.purpose ∧
    issue.tokenHash = honour.tokenHash ∧ issue.userId = honour.userId ∧
      honour.readAt < issue.expiresAt
  hashesOnce : (desk.issued.map (·.tokenHash)).Nodup
  addressed : ∀ issue ∈ desk.issued, desk.Has issue.userId issue.email
  mailed : ∀ mail ∈ desk.mailed, ∃ issue ∈ desk.issued, issue.purpose = mail.purpose ∧
    issue.tokenHash = mail.tokenHash ∧ issue.email = mail.email
  addresses : (desk.contacts.map (·.email)).Nodup
  allowed : ∀ replacement ∈ desk.replacements, desk.Allows settings replacement
  chained : Chained desk.replacements
  current : ∀ userId user last, desk.accounts.findUser userId = some user →
    desk.replacements.find? (·.userId == userId) = some last → user.passwordHash = last.stored
  verified : ∀ contact ∈ desk.contacts, contact.emailVerifiedAt ≠ none →
    desk.Honours .emailVerification contact.userId
  admitted : ∀ opening ∈ desk.opened, desk.Admits settings opening

/-! ## The invariant -/

structure Books (desk : Desk) : Prop where
  law : Law settings desk
  issues : ∀ purpose, ∀ row ∈ desk.tokens purpose, ∃ issue ∈ desk.issued,
    issue.purpose = purpose ∧ issue.tokenHash = row.tokenHash ∧ issue.userId = row.userId ∧
      issue.expiresAt = row.expiresAt
  distinct : ∀ purpose, ((desk.tokens purpose).map (·.tokenHash)).Nodup
  numbered : ∀ purpose, ((desk.tokens purpose).map (·.id)).Nodup
  identified : ∀ purpose, ∀ row ∈ desk.tokens purpose, row.id ∈ desk.minted
  drawn : ∀ issue ∈ desk.issued, issue.tokenHash ∈ desk.drawn
  spent : ∀ honour ∈ desk.honoured, ∀ row ∈ desk.tokens honour.purpose,
    row.tokenHash = honour.tokenHash → row.consumedAt ≠ none
  superseded : ∀ pair ∈ desk.superseded, pair.2 ∈ desk.drawn ∧ ∀ row ∈ desk.tokens pair.1,
    row.tokenHash = pair.2 → row.consumedAt ≠ none
  known : ∀ replacement ∈ desk.replacements, replacement.userId ∈ desk.minted
  minted : ∀ user ∈ desk.accounts.users, user.id ∈ desk.minted

def Process.Fits (desk : Desk) (slot : Nat) (process : Process) : Prop :=
  match process.phase with
  | .issuing _ contact => desk.Has contact.userId contact.email
  | .superseding purpose contact tokenHash => ∃ issue ∈ desk.issued, issue.purpose = purpose ∧
      issue.tokenHash = tokenHash ∧ issue.email = contact.email
  | .marking userId => desk.Honours .emailVerification userId
  | .replacing userId replacement =>
      (∀ verified, replacement.verifiedPasswordHash = some verified → ∃ currentPassword,
        process.operation = .changePassword userId currentPassword ∧
          settings.verifies verified currentPassword = true) ∧
      (replacement.verifiedPasswordHash = none → ∃ honour ∈ desk.honoured, honour.slot = slot ∧
        honour.purpose = .passwordReset ∧ honour.userId = userId ∧
          process.operation = .resetPassword honour.tokenHash)
  | .storing userId verifiedPasswordHash => ∃ email password,
      process.operation = .login email password ∧ desk.Has userId email ∧
        settings.verifies verifiedPasswordHash password = true ∧
          (settings.requireVerifiedEmail = true → desk.Honours .emailVerification userId)
  | .arrived | .succeeded | .refused | .failed => True

structure Sound (world : World) : Prop where
  books : Books settings world.desk
  fits : ∀ slot process, world.requests slot = some process →
    process.Fits settings world.desk slot
  honoured : ∀ honour ∈ world.desk.honoured, ∃ process,
    world.requests honour.slot = some process ∧ process.phase ≠ .arrived
  replaced : ∀ replacement ∈ world.desk.replacements, ∃ process,
    world.requests replacement.slot = some process ∧ process.phase.finished = true

/-- What later statements never take back. -/
structure Grows (desk next : Desk) : Prop where
  contacts : ∀ userId email, desk.Has userId email → next.Has userId email
  issued : ∀ issue ∈ desk.issued, issue ∈ next.issued
  honoured : ∀ honour ∈ desk.honoured, honour ∈ next.honoured

variable {desk next : Desk}

theorem Grows.refl (desk : Desk) : Grows desk desk :=
  ⟨fun _ _ has => has, fun _ member => member, fun _ member => member⟩

theorem Grows.honours (grows : Grows desk next) {purpose : Purpose} {userId : Nat}
    (honours : desk.Honours purpose userId) : next.Honours purpose userId := by
  obtain ⟨honour, listed, named⟩ := honours
  exact ⟨honour, grows.honoured honour listed, named⟩

theorem Grows.allows (grows : Grows desk next) {replacement : Replacement}
    (allows : desk.Allows settings replacement) : next.Allows settings replacement := by
  rcases allows with change | ⟨honour, listed, named⟩
  · exact .inl change
  · exact .inr ⟨honour, grows.honoured honour listed, named⟩

theorem Grows.admits (grows : Grows desk next) {opening : Opening}
    (admits : desk.Admits settings opening) : next.Admits settings opening := by
  obtain ⟨email, password, asked, has, verified, required⟩ := admits
  exact ⟨email, password, asked, grows.contacts _ _ has, verified, fun on =>
    grows.honours (required on)⟩

theorem Grows.fits (grows : Grows desk next) (slot : Nat) (process : Process)
    (fits : process.Fits settings desk slot) : process.Fits settings next slot := by
  obtain ⟨operation, phase⟩ := process
  cases phase with
  | issuing purpose contact => exact grows.contacts _ _ fits
  | superseding purpose contact tokenHash =>
      obtain ⟨issue, listed, named⟩ := fits
      exact ⟨issue, grows.issued issue listed, named⟩
  | marking userId => exact grows.honours fits
  | replacing userId replacement =>
      refine ⟨fits.1, fun unverified => ?_⟩
      obtain ⟨honour, listed, named⟩ := fits.2 unverified
      exact ⟨honour, grows.honoured honour listed, named⟩
  | storing userId verified =>
      obtain ⟨email, password, asked, has, checked, required⟩ := fits
      exact ⟨email, password, asked, grows.contacts _ _ has, checked, fun on =>
        grows.honours (required on)⟩
  | arrived => trivial
  | succeeded => trivial
  | refused => trivial
  | failed => trivial

/-! ## What the statements keep -/

theorem rows_update (tokens : Purpose → List SingleUseToken) (purpose other : Purpose)
    (rows : List SingleUseToken) (P : List SingleUseToken → Prop) (changed : P rows)
    (kept : other ≠ purpose → P (tokens other)) :
    P (Function.update tokens purpose rows other) := by
  by_cases same : other = purpose
  · rw [same, Function.update_self]
    exact changed
  · rw [Function.update_of_ne same]
    exact kept same

theorem mem_rows_update {tokens : Purpose → List SingleUseToken} {purpose other : Purpose}
    {rows : List SingleUseToken} {row : SingleUseToken}
    (listed : row ∈ Function.update tokens purpose rows other) :
    other = purpose ∧ row ∈ rows ∨ other ≠ purpose ∧ row ∈ tokens other := by
  by_cases same : other = purpose
  · rw [same, Function.update_self] at listed
    exact .inl ⟨same, listed⟩
  · rw [Function.update_of_ne same] at listed
    exact .inr ⟨same, listed⟩

/-- A row of a table after an insert into one. -/
theorem mem_rows_create {tokens : Purpose → List SingleUseToken} {purpose other : Purpose}
    {id userId : Nat} {tokenHash : String} {expiresAt : Int} {row : SingleUseToken}
    (listed : row ∈ Function.update tokens purpose
      (SingleUse.create (tokens purpose) id userId tokenHash expiresAt) other) :
    other = purpose ∧ row = ⟨id, userId, tokenHash, expiresAt, none⟩ ∨ row ∈ tokens other := by
  rcases mem_rows_update listed with ⟨rfl, changed⟩ | ⟨-, old⟩
  · rcases List.mem_append.mp changed with old | new
    · exact .inr old
    · exact .inl ⟨rfl, List.mem_singleton.mp new⟩
  · exact .inr old

section Statements

variable {settings}

/-- The law does not read the tables of the tokens. -/
theorem Law.beside (law : Law settings desk) (tokens : Purpose → List SingleUseToken)
    (swept : List Int) : Law settings { desk with tokens := tokens, swept := swept } :=
  ⟨law.tokensOnce, law.requestsOnce, law.replacementsOnce, law.rightful, law.hashesOnce,
    law.addressed, law.mailed, law.addresses, law.allowed, law.chained, law.current, law.verified,
    law.admitted⟩

theorem Books.keeps (books : Books settings desk) (purpose : Purpose) (rows : List SingleUseToken)
    (keeps : Keeps (desk.tokens purpose) rows) :
    Books settings { desk with tokens := Function.update desk.tokens purpose rows } where
  law := books.law.beside _ _
  issues := by
    intro other row listed
    rcases mem_rows_update listed with ⟨rfl, new⟩ | ⟨-, old⟩
    · obtain ⟨before, stored, -, owner, hash, expiry, -⟩ := keeps.rows row new
      rw [owner, hash, expiry]
      exact books.issues other before stored
    · exact books.issues other row old
  distinct := fun other => rows_update _ _ _ _ (fun rows => (rows.map (·.tokenHash)).Nodup)
    ((books.distinct purpose).sublist keeps.hashes) fun _ => books.distinct other
  numbered := fun other => rows_update _ _ _ _ (fun rows => (rows.map (·.id)).Nodup)
    ((books.numbered purpose).sublist keeps.ids) fun _ => books.numbered other
  identified := by
    intro other row listed
    rcases mem_rows_update listed with ⟨rfl, new⟩ | ⟨-, old⟩
    · obtain ⟨before, stored, same, -⟩ := keeps.rows row new
      rw [same]
      exact books.identified other before stored
    · exact books.identified other row old
  drawn := books.drawn
  spent := by
    intro honour listed row stored named
    rcases mem_rows_update stored with ⟨same, new⟩ | ⟨-, old⟩
    · obtain ⟨before, among, -, -, hash, -, kept⟩ := keeps.rows row new
      intro unspent
      exact books.spent honour listed before (same ▸ among) (hash.symm.trans named) (kept unspent)
    · exact books.spent honour listed row old named
  superseded := by
    intro pair listed
    obtain ⟨known, dead⟩ := books.superseded pair listed
    refine ⟨known, fun row stored named => ?_⟩
    rcases mem_rows_update stored with ⟨same, new⟩ | ⟨-, old⟩
    · obtain ⟨before, among, -, -, hash, -, kept⟩ := keeps.rows row new
      intro unspent
      exact dead before (same ▸ among) (hash.symm.trans named) (kept unspent)
    · exact dead row old named
  known := books.known
  minted := books.minted

theorem Books.sweep (books : Books settings desk) (purpose : Purpose) (cutoff : Int)
    (doomed : List Nat) : Books settings (desk.sweep purpose cutoff doomed) := by
  have swept := books.keeps purpose _ (keeps_delete (desk.tokens purpose) doomed)
  exact ⟨books.law.beside _ _, swept.issues, swept.distinct, swept.numbered, swept.identified,
    swept.drawn, swept.spent, swept.superseded, swept.known, swept.minted⟩

theorem Books.issue (books : Books settings desk) (purpose : Purpose) (contact : Contact)
    (ttlMs : Int) (choice : Choice) (has : desk.Has contact.userId contact.email)
    (issued : desk.issue purpose contact ttlMs choice = some next) :
    Books settings next ∧ Grows desk next ∧ ∃ issue ∈ next.issued, issue.purpose = purpose ∧
      issue.tokenHash = choice.tokenHash ∧ issue.email = contact.email := by
  unfold Desk.issue at issued
  split at issued
  · cases issued
  · rename_i fresh
    rw [not_or] at fresh
    cases issued
    have undrawn : ∀ issue ∈ desk.issued, issue.tokenHash ≠ choice.tokenHash := by
      intro issue listed same
      exact fresh.2 (same ▸ books.drawn issue listed)
    have unstored : ∀ row ∈ desk.tokens purpose, row.tokenHash ≠ choice.tokenHash := by
      intro row stored same
      obtain ⟨issue, listed, -, hash, -⟩ := books.issues purpose row stored
      exact undrawn issue listed (hash.trans same)
    have law := books.law
    refine ⟨?_, ⟨fun _ _ has => has, fun _ => List.mem_cons_of_mem _, fun _ => id⟩,
      _, List.mem_cons_self, rfl, rfl, rfl⟩
    refine
      { law := { law with
          rightful := fun honour listed => ?_
          hashesOnce := ?_
          addressed := ?_
          mailed := fun mail listed => ?_ }
        issues := ?_
        distinct := fun other => ?_
        numbered := fun other => ?_
        identified := ?_
        drawn := ?_
        spent := fun honour listed row stored named => ?_
        superseded := fun pair listed => ?_
        known := fun replacement listed => List.mem_cons_of_mem _ (books.known replacement listed)
        minted := fun user listed => List.mem_cons_of_mem _ (books.minted user listed) }
    · obtain ⟨issue, known, named⟩ := law.rightful honour listed
      exact ⟨issue, List.mem_cons_of_mem _ known, named⟩
    · refine List.nodup_cons.mpr ⟨fun member => ?_, law.hashesOnce⟩
      obtain ⟨issue, listed, same⟩ := List.mem_map.mp member
      exact undrawn issue listed same
    · intro issue listed
      rcases List.mem_cons.mp listed with new | old
      · rw [new]
        exact has
      · exact law.addressed issue old
    · obtain ⟨issue, known, named⟩ := law.mailed mail listed
      exact ⟨issue, List.mem_cons_of_mem _ known, named⟩
    · intro other row listed
      rcases mem_rows_create listed with ⟨rfl, new⟩ | old
      · rw [new]
        exact ⟨_, List.mem_cons_self, rfl, rfl, rfl, rfl⟩
      · obtain ⟨issue, known, named⟩ := books.issues other row old
        exact ⟨issue, List.mem_cons_of_mem _ known, named⟩
    · refine rows_update _ _ _ _ (fun rows => (rows.map (·.tokenHash)).Nodup) ?_
        fun _ => books.distinct other
      rw [SingleUse.create, List.map_append]
      refine List.nodup_append.mpr ⟨books.distinct purpose, List.nodup_singleton _, ?_⟩
      intro first among second last same
      obtain ⟨row, stored, rfl⟩ := List.mem_map.mp among
      exact unstored row stored (same.trans (List.mem_singleton.mp last))
    · refine rows_update _ _ _ _ (fun rows => (rows.map (·.id)).Nodup) ?_
        fun _ => books.numbered other
      rw [SingleUse.create, List.map_append]
      refine List.nodup_append.mpr ⟨books.numbered purpose, List.nodup_singleton _, ?_⟩
      intro first among second last same
      obtain ⟨row, stored, rfl⟩ := List.mem_map.mp among
      have known := books.identified purpose row stored
      rw [same, List.mem_singleton.mp last] at known
      exact fresh.1 known
    · intro other row listed
      rcases mem_rows_create listed with ⟨-, new⟩ | old
      · rw [new]
        exact List.mem_cons_self
      · exact List.mem_cons_of_mem _ (books.identified other row old)
    · intro issue listed
      rcases List.mem_cons.mp listed with new | old
      · rw [new]
        exact List.mem_cons_self
      · exact List.mem_cons_of_mem _ (books.drawn issue old)
    · rcases mem_rows_create stored with ⟨-, new⟩ | old
      · rw [new] at named
        obtain ⟨issue, known, -, hash, -⟩ := law.rightful honour listed
        exact absurd (hash.trans named.symm) (undrawn issue known)
      · exact books.spent honour listed row old named
    · obtain ⟨known, dead⟩ := books.superseded pair listed
      refine ⟨List.mem_cons_of_mem _ known, fun row stored named => ?_⟩
      rcases mem_rows_create stored with ⟨-, new⟩ | old
      · rw [new] at named
        have drawn : choice.tokenHash ∈ desk.drawn := Eq.subst named.symm known
        exact absurd drawn fresh.2
      · exact dead row old named

theorem Books.supersede (books : Books settings desk) (purpose : Purpose) (contact : Contact)
    (tokenHash : String) (now : Int)
    (issued : ∃ issue ∈ desk.issued, issue.purpose = purpose ∧ issue.tokenHash = tokenHash ∧
      issue.email = contact.email) :
    Books settings (desk.supersede purpose contact tokenHash now) := by
  have kept := books.keeps purpose _
    (keeps_invalidate (desk.tokens purpose) contact.userId tokenHash now)
  have law := kept.law
  refine
    { law := { law with mailed := ?_ }
      issues := kept.issues
      distinct := kept.distinct
      numbered := kept.numbered
      identified := kept.identified
      drawn := kept.drawn
      spent := kept.spent
      superseded := ?_
      known := kept.known
      minted := kept.minted }
  · intro mail listed
    rcases List.mem_cons.mp listed with new | old
    · rw [new]
      exact issued
    · exact books.law.mailed mail old
  · intro pair listed
    rcases List.mem_append.mp listed with new | old
    · obtain ⟨issue, chosen, rfl⟩ := List.mem_map.mp new
      obtain ⟨known, chosen⟩ := List.mem_filter.mp chosen
      rw [decide_eq_true_eq] at chosen
      obtain ⟨-, owned, other⟩ := chosen
      refine ⟨books.drawn issue known, fun row stored named => ?_⟩
      -- The row was issued under this hash, so it is the row of this user.
      obtain ⟨source, listed, -, hash, owner, -⟩ := kept.issues purpose row stored
      have one := List.inj_on_of_nodup_map books.law.hashesOnce listed known (hash.trans named)
      rcases mem_rows_update stored with ⟨-, changed⟩ | ⟨apart, -⟩
      · exact invalidate_spends contact.userId tokenHash now row changed
          (owner.symm.trans (one ▸ owned)) (named ▸ other)
      · exact absurd rfl apart
    · exact kept.superseded pair old

/-- What a request consumed was issued to the user it answers, and is consumed from then on. -/
theorem Books.consume (books : Books settings desk) (slot : Nat) (purpose : Purpose)
    (tokenHash : String) (now : Int) (answer : Option Nat)
    (idle : ∀ honour ∈ desk.honoured, honour.slot ≠ slot)
    (consumed : desk.consume slot purpose tokenHash now = (next, answer)) :
    Books settings next ∧ Grows desk next ∧ ∀ userId, answer = some userId →
      ⟨slot, purpose, userId, tokenHash, now⟩ ∈ next.honoured := by
  have keeps := keeps_consume (desk.tokens purpose) tokenHash now
  have law := books.law
  unfold Desk.consume at consumed
  split at consumed
  · rename_i rows answered
    rw [answered] at keeps
    cases consumed
    refine ⟨books.keeps purpose rows keeps, ⟨fun _ _ has => has, fun _ => id, fun _ => id⟩, ?_⟩
    intro userId same
    cases same
  · rename_i userId rows answered
    obtain ⟨row, stored, named, owned, live⟩ :=
      consume_some tokenHash now userId (congrArg Prod.fst answered)
    have spends := consume_spends (books.distinct purpose) tokenHash now userId
      (congrArg Prod.fst answered)
    rw [answered] at keeps spends
    cases consumed
    have kept := books.keeps purpose rows keeps
    have grows : Grows desk { desk with
        tokens := Function.update desk.tokens purpose rows
        honoured := ⟨slot, purpose, userId, tokenHash, now⟩ :: desk.honoured } :=
      ⟨fun _ _ has => has, fun _ => id, fun _ => List.mem_cons_of_mem _⟩
    refine ⟨?_, grows, fun other same => ?_⟩
    · refine
        { law := { law with
            tokensOnce := List.nodup_cons.mpr ⟨fun member => ?_, law.tokensOnce⟩
            requestsOnce := List.nodup_cons.mpr ⟨fun member => ?_, law.requestsOnce⟩
            rightful := fun honour listed => ?_
            allowed := fun replacement listed =>
              grows.allows settings (law.allowed replacement listed)
            verified := fun contact listed stamped =>
              grows.honours (law.verified contact listed stamped)
            admitted := fun opening listed =>
              grows.admits settings (law.admitted opening listed) }
          issues := kept.issues
          distinct := kept.distinct
          numbered := kept.numbered
          identified := kept.identified
          drawn := kept.drawn
          spent := fun honour listed => ?_
          superseded := kept.superseded
          known := kept.known
          minted := kept.minted }
      · obtain ⟨honour, listed, same⟩ := List.mem_map.mp member
        obtain ⟨purposes, hashes⟩ := Prod.mk.inj same
        exact books.spent honour listed row (purposes ▸ stored) (named.trans hashes.symm) live.1
      · obtain ⟨honour, listed, same⟩ := List.mem_map.mp member
        exact idle honour listed same
      · rcases List.mem_cons.mp listed with new | old
        · obtain ⟨issue, known, aim, hash, owner, expiry⟩ := books.issues purpose row stored
          rw [new]
          exact ⟨issue, known, aim, hash.trans named, owner.trans owned, expiry ▸ live.2⟩
        · exact law.rightful honour old
      · rcases List.mem_cons.mp listed with new | old
        · rw [new]
          intro other among same
          rcases mem_rows_update among with ⟨-, changed⟩ | ⟨apart, -⟩
          · exact spends other changed same
          · exact absurd rfl apart
        · exact kept.spent honour old
    · cases same
      exact List.mem_cons_self

theorem Books.markEmailVerified (books : Books settings desk) (userId : Nat) (now : Int)
    (honours : desk.Honours .emailVerification userId) :
    Books settings (desk.markEmailVerified userId now) ∧
      Grows desk (desk.markEmailVerified userId now) := by
  have law := books.law
  have emails : (desk.markEmailVerified userId now).contacts.map (·.email) =
      desk.contacts.map (·.email) := by
    rw [Desk.markEmailVerified, List.map_map]
    refine List.map_congr_left fun contact _ => ?_
    simp only [Function.comp_apply]
    split <;> rfl
  have grows : Grows desk (desk.markEmailVerified userId now) := by
    refine ⟨fun user email has => ?_, fun _ => id, fun _ => id⟩
    obtain ⟨contact, listed, owner, address⟩ := has
    refine ⟨_, List.mem_map_of_mem listed, ?_⟩
    split <;> exact ⟨owner, address⟩
  refine ⟨?_, grows⟩
  exact
    { law := { law with
        addressed := fun issue listed => grows.contacts _ _ (law.addressed issue listed)
        addresses := emails ▸ law.addresses
        verified := by
          intro contact listed stamped
          obtain ⟨before, stored, same⟩ := List.mem_map.mp listed
          rw [← same] at stamped ⊢
          split at stamped
          · rename_i marked
            rw [if_pos marked, marked.1]
            exact honours
          · rename_i unmarked
            rw [if_neg unmarked]
            exact law.verified before stored stamped
        admitted := fun opening listed => grows.admits settings (law.admitted opening listed) }
      issues := books.issues
      distinct := books.distinct
      numbered := books.numbered
      identified := books.identified
      drawn := books.drawn
      spent := books.spent
      superseded := books.superseded
      known := books.known
      minted := books.minted }

theorem Books.createUser (books : Books settings desk) (email : String) (choice : Choice)
    (contact : Option Contact) (created : desk.createUser email choice = some (next, contact)) :
    Books settings next ∧ Grows desk next ∧
      ∀ stored, contact = some stored → next.Has stored.userId stored.email := by
  unfold Desk.createUser at created
  split at created
  · cases created
    exact ⟨books, Grows.refl desk, fun stored same => by cases same⟩
  · rename_i untaken
    split at created
    · cases created
    · rename_i fresh
      cases created
      have law := books.law
      refine ⟨?_, ⟨fun user address has => ?_, fun _ => id, fun _ => id⟩, fun stored same => ?_⟩
      · refine
          { law := { law with
              addressed := ?_
              addresses := ?_
              current := ?_
              verified := ?_
              admitted := ?_ }
            issues := books.issues
            distinct := books.distinct
            numbered := books.numbered
            identified := fun other row listed =>
              List.mem_cons_of_mem _ (books.identified other row listed)
            drawn := books.drawn
            spent := books.spent
            superseded := books.superseded
            known := fun replacement listed =>
              List.mem_cons_of_mem _ (books.known replacement listed)
            minted := ?_ }
        · intro issue listed
          obtain ⟨contact, known, named⟩ := law.addressed issue listed
          exact ⟨contact, List.mem_append_left _ known, named⟩
        · rw [List.map_append]
          refine List.nodup_append.mpr ⟨law.addresses, List.nodup_singleton _, ?_⟩
          intro first among second last same
          obtain ⟨contact, known, rfl⟩ := List.mem_map.mp among
          refine untaken (List.any_eq_true.mpr ⟨contact, known, ?_⟩)
          exact beq_iff_eq.mpr (same.trans (List.mem_singleton.mp last))
        · intro userId user last found stored
          rw [Accounts.findUser, List.find?_append] at found
          cases old : desk.accounts.findUser userId with
          | some before =>
              rw [Accounts.findUser] at old
              rw [old, Option.some_or] at found
              cases found
              exact law.current userId _ last old stored
          | none =>
              rw [Accounts.findUser] at old
              rw [old, Option.none_or] at found
              have same := List.find?_some found
              have here := List.mem_singleton.mp (List.mem_of_find?_eq_some found)
              have known := books.known last (List.mem_of_find?_eq_some stored)
              have owner := List.find?_some stored
              rw [beq_iff_eq] at same owner
              rw [owner, ← same, here] at known
              exact absurd known fresh
        · intro contact listed stamped
          rcases List.mem_append.mp listed with old | new
          · exact law.verified contact old stamped
          · rw [List.mem_singleton.mp new] at stamped
            exact absurd rfl stamped
        · intro opening listed
          obtain ⟨address, password, asked, ⟨contact, known, named⟩, rest⟩ :=
            law.admitted opening listed
          exact ⟨address, password, asked, ⟨contact, List.mem_append_left _ known, named⟩, rest⟩
        · intro user listed
          rcases List.mem_append.mp listed with old | new
          · exact List.mem_cons_of_mem _ (books.minted user old)
          · rw [List.mem_singleton.mp new]
            exact List.mem_cons_self
      · obtain ⟨contact, known, named⟩ := has
        exact ⟨contact, List.mem_append_left _ known, named⟩
      · cases same
        exact ⟨_, List.mem_append_right _ (List.mem_singleton_self _), rfl, rfl⟩

theorem revokeAllForUser_replaces (accounts : Accounts) (userId : Nat)
    (replacement : PasswordReplacement) (now : Int) :
    revokeAllForUser accounts userId (some replacement) now = (none, accounts) ∨
      ∃ user epoch written, accounts.findUser userId = some user ∧
        (∀ verified, replacement.verifiedPasswordHash = some verified →
          verified = user.passwordHash) ∧
        revokeAllForUser accounts userId (some replacement) now = (some epoch, written) ∧
        written.users = update (·.id) userId (fun _ => { user with
          tokenEpoch := user.tokenEpoch + 1
          passwordHash := replacement.newPasswordHash }) accounts.users := by
  unfold revokeAllForUser
  split
  · exact .inl rfl
  · rename_i user found
    dsimp only
    split
    · rename_i verified
      refine .inr ⟨user, _, _, found, fun hash same => ?_, rfl, rfl⟩
      rw [Option.bind_some, same] at verified
      exact Option.some.inj (verified.resolve_left (Option.some_ne_none hash))
    · exact .inl rfl

theorem Books.replacePassword (books : Books settings desk) (slot : Nat) (operation : Operation)
    (userId : Nat) (replacement : PasswordReplacement) (now : Int) (replaced : Bool)
    (fits : Process.Fits settings desk slot ⟨operation, .replacing userId replacement⟩)
    (idle : ∀ other ∈ desk.replacements, other.slot ≠ slot)
    (written : desk.replacePassword slot operation userId replacement now = (next, replaced)) :
    Books settings next ∧ Grows desk next := by
  have law := books.law
  obtain ⟨changes, resets⟩ := fits
  unfold Desk.replacePassword at written
  rcases revokeAllForUser_replaces desk.accounts userId replacement now with
    same | ⟨user, epoch, accounts, found, verified, same, users⟩
  · rw [same] at written
    cases written
    exact ⟨books, Grows.refl desk⟩
  · rw [same] at written
    simp only [Desk.replacedBy, found, Option.toList_some, List.map_cons, List.map_nil,
      List.cons_append, List.nil_append] at written
    cases written
    have named := Service.findUser_id desk.accounts userId user found
    have known : userId ∈ desk.minted :=
      named ▸ books.minted user (List.mem_of_find?_eq_some found)
    have after : ∀ other, accounts.findUser other =
        (desk.accounts.findUser other).map fun before => if before.id = userId then
          { user with
            tokenEpoch := user.tokenEpoch + 1
            passwordHash := replacement.newPasswordHash }
        else before := by
      intro other
      rw [Accounts.findUser, users]
      exact Service.findUser_update desk.accounts userId (fun _ => { user with
        tokenEpoch := user.tokenEpoch + 1
        passwordHash := replacement.newPasswordHash }) (fun _ _ => named) other
    have grows : Grows desk { desk with
        accounts := accounts
        replacements := ⟨slot, operation, userId, user.passwordHash,
          replacement.newPasswordHash⟩ :: desk.replacements } :=
      ⟨fun _ _ has => has, fun _ => id, fun _ => id⟩
    refine ⟨?_, grows⟩
    refine
      { law := { law with
          replacementsOnce := List.nodup_cons.mpr ⟨fun member => ?_, law.replacementsOnce⟩
          allowed := fun other listed => ?_
          chained := ⟨fun before latest => law.current userId user before found latest,
            law.chained⟩
          current := ?_
          admitted := fun opening listed =>
            grows.admits settings (law.admitted opening listed) }
        issues := books.issues
        distinct := books.distinct
        numbered := books.numbered
        identified := books.identified
        drawn := books.drawn
        spent := books.spent
        superseded := books.superseded
        known := fun other listed => ?_
        minted := fun other listed => ?_ }
    · obtain ⟨other, listed, same⟩ := List.mem_map.mp member
      exact idle other listed same
    · rcases List.mem_cons.mp listed with new | old
      · rw [new]
        cases hash : replacement.verifiedPasswordHash with
        | some checked =>
            obtain ⟨currentPassword, asked, passes⟩ := changes checked hash
            rw [verified checked hash] at passes
            exact .inl ⟨currentPassword, asked, passes⟩
        | none => exact .inr (resets hash)
      · exact grows.allows settings (law.allowed other old)
    · intro other stored last present latest
      rw [after other] at present
      obtain ⟨before, was, same⟩ := Option.map_eq_some_iff.mp present
      have owner := Service.findUser_id desk.accounts other before was
      rw [List.find?_cons] at latest
      split at latest
      · rename_i hit
        cases latest
        rw [beq_iff_eq] at hit
        rw [if_pos (owner.trans hit.symm)] at same
        rw [← same]
      · rename_i miss
        rw [beq_eq_false_iff_ne] at miss
        rw [if_neg (owner ▸ miss.symm)] at same
        rw [← same]
        exact law.current other before last was latest
    · rcases List.mem_cons.mp listed with new | old
      · rw [new]
        exact known
      · exact books.known other old
    · rw [users] at listed
      obtain ⟨before, stored, same⟩ := (mem_update ..).mp listed
      rw [← same]
      split
      · exact named ▸ known
      · exact books.minted before stored

theorem Books.openSession (books : Books settings desk) (operation : Operation)
    (input : CreateRefreshTokenInput) (id slot : Nat) (outcome : CreateRefreshTokenOutcome)
    (fits : Process.Fits settings desk slot
      ⟨operation, .storing input.userId input.verifiedPasswordHash⟩)
    (stored : desk.openSession operation input id = some (next, outcome)) :
    Books settings next ∧ Grows desk next := by
  have law := books.law
  unfold Desk.openSession at stored
  split at stored
  · cases stored
  · rename_i answer accounts created
    cases stored
    obtain ⟨users, kept⟩ := Service.create_frame desk.accounts accounts input id outcome created
    have grows : Grows desk { desk with
        accounts := accounts
        opened := desk.openedBy operation input.userId outcome ++ desk.opened } :=
      ⟨fun _ _ has => has, fun _ member => member, fun _ member => member⟩
    refine ⟨?_, grows⟩
    exact
      { law := { law with
          current := by
            intro userId user last found
            rw [Accounts.findUser, users] at found
            exact law.current userId user last found
          admitted := by
            intro opening listed
            rcases List.mem_append.mp listed with new | old
            · rcases kept with ⟨-, refused⟩ | ⟨owner, row, found, verified, answer, -⟩
              · rw [refused] at new
                exact absurd new List.not_mem_nil
              · rw [answer, Desk.openedBy, found] at new
                rw [List.mem_singleton.mp new]
                obtain ⟨email, password, asked, has, passes, required⟩ := fits
                have current : settings.verifies owner.passwordHash password = true :=
                  verified.symm ▸ passes
                exact ⟨email, password, asked, has, current, required⟩
            · exact grows.admits settings (law.admitted opening old) }
        issues := books.issues
        distinct := books.distinct
        numbered := books.numbered
        identified := books.identified
        drawn := books.drawn
        spent := books.spent
        superseded := books.superseded
        known := books.known
        minted := fun user listed => books.minted user (users ▸ listed) }

/-! ## Runs -/

structure Stepped (settings : Settings) (desk next : Desk) (slot : Nat) (process : Process) : Prop
    where
  books : Books settings next
  grows : Grows desk next
  fits : process.Fits settings next slot
  begun : process.phase ≠ .arrived
  honoured : ∀ honour ∈ next.honoured, honour ∈ desk.honoured ∨ honour.slot = slot
  replaced : ∀ replacement ∈ next.replacements, replacement ∈ desk.replacements ∨
    replacement.slot = slot ∧ process.phase.finished = true

theorem stepped_reading (books : Books settings desk) (slot : Nat) (process : Process)
    (fits : process.Fits settings desk slot) (begun : process.phase ≠ .arrived) :
    Stepped settings desk desk slot process :=
  ⟨books, Grows.refl desk, fits, begun, fun _ => .inl, fun _ => .inl⟩

theorem findByEmail_has (email : String) (contact : Contact) (user : User)
    (found : desk.findByEmail email = some (contact, user)) :
    contact ∈ desk.contacts ∧ contact.email = email ∧ user.id = contact.userId := by
  obtain ⟨stored, here, rest⟩ := Option.bind_eq_some_iff.mp found
  obtain ⟨owner, known, same⟩ := Option.map_eq_some_iff.mp rest
  cases same
  have address := List.find?_some here
  rw [beq_iff_eq] at address
  exact ⟨List.mem_of_find?_eq_some here, address,
    Service.findUser_id desk.accounts _ _ known⟩

theorem consume_others (slot : Nat) (purpose : Purpose) (tokenHash : String) (now : Int)
    (answer : Option Nat) (consumed : desk.consume slot purpose tokenHash now = (next, answer)) :
    (∀ honour ∈ next.honoured, honour ∈ desk.honoured ∨ honour.slot = slot) ∧
      next.replacements = desk.replacements := by
  unfold Desk.consume at consumed
  split at consumed
  · cases consumed
    exact ⟨fun _ => .inl, rfl⟩
  · cases consumed
    refine ⟨fun honour listed => ?_, rfl⟩
    rcases List.mem_cons.mp listed with new | old
    · exact .inr (new ▸ rfl)
    · exact .inl old

theorem createUser_others (email : String) (choice : Choice) (contact : Option Contact)
    (created : desk.createUser email choice = some (next, contact)) :
    next.honoured = desk.honoured ∧ next.replacements = desk.replacements := by
  unfold Desk.createUser at created
  split at created
  · cases created
    exact ⟨rfl, rfl⟩
  · split at created <;> cases created
    exact ⟨rfl, rfl⟩

theorem begin_stepped (books : Books settings desk) (slot : Nat) (operation : Operation)
    (choice : Choice) (phase : Phase) (idle : ∀ honour ∈ desk.honoured, honour.slot ≠ slot)
    (begun : begin settings desk slot choice operation = some (next, phase)) :
    Stepped settings desk next slot ⟨operation, phase⟩ := by
  cases operation with
  | register email =>
      obtain ⟨⟨stored, contact⟩, created, same⟩ := Option.map_eq_some_iff.mp begun
      obtain ⟨kept, grows, has⟩ := books.createUser email choice contact created
      obtain ⟨honoured, replaced⟩ := createUser_others email choice contact created
      cases contact with
      | none =>
          cases same
          exact ⟨kept, grows, trivial, by simp, fun _ listed => .inl (honoured ▸ listed),
            fun _ listed => .inl (replaced ▸ listed)⟩
      | some contact =>
          cases same
          exact ⟨kept, grows, has contact rfl, by simp, fun _ listed => .inl (honoured ▸ listed),
            fun _ listed => .inl (replaced ▸ listed)⟩
  | login email password =>
      simp only [begin] at begun
      split at begun
      · cases begun
        exact stepped_reading books slot _ trivial (by simp)
      · rename_i contact user found
        obtain ⟨listed, address, owner⟩ := findByEmail_has email contact user found
        split at begun
        · cases begun
          exact stepped_reading books slot _ trivial (by simp)
        · rename_i passes
          rw [Bool.not_eq_false] at passes
          split at begun
          · cases begun
            exact stepped_reading books slot _ trivial (by simp)
          · rename_i allowed
            cases begun
            refine stepped_reading books slot _ ⟨email, password, rfl,
              ⟨contact, listed, owner.symm, address⟩, passes, fun required => ?_⟩ (by simp)
            rw [owner]
            exact books.law.verified contact listed fun unverified => allowed ⟨required, unverified⟩
  | forgotPassword email =>
      simp only [begin] at begun
      split at begun
      · cases begun
        exact stepped_reading books slot _ trivial (by simp)
      · rename_i contact user found
        cases begun
        obtain ⟨listed, -, -⟩ := findByEmail_has email contact user found
        exact stepped_reading books slot _ ⟨contact, listed, rfl, rfl⟩ (by simp)
  | resendVerification email =>
      simp only [begin] at begun
      split at begun
      · cases begun
        exact stepped_reading books slot _ trivial (by simp)
      · rename_i contact user found
        obtain ⟨listed, -, -⟩ := findByEmail_has email contact user found
        split at begun
        · cases begun
          exact stepped_reading books slot _ ⟨contact, listed, rfl, rfl⟩ (by simp)
        · cases begun
          exact stepped_reading books slot _ trivial (by simp)
  | verifyEmail tokenHash =>
      simp only [begin] at begun
      split at begun
      · rename_i stored userId consumed
        cases begun
        obtain ⟨kept, grows, honours⟩ :=
          books.consume slot .emailVerification tokenHash choice.now _ idle consumed
        obtain ⟨honoured, replaced⟩ := consume_others slot _ tokenHash choice.now _ consumed
        exact ⟨kept, grows, ⟨_, honours userId rfl, rfl, rfl⟩, by simp, honoured,
          fun _ listed => .inl (replaced ▸ listed)⟩
      · rename_i stored consumed
        cases begun
        obtain ⟨kept, grows, -⟩ :=
          books.consume slot .emailVerification tokenHash choice.now _ idle consumed
        obtain ⟨honoured, replaced⟩ := consume_others slot _ tokenHash choice.now _ consumed
        exact ⟨kept, grows, trivial, by simp, honoured, fun _ listed => .inl (replaced ▸ listed)⟩
  | resetPassword tokenHash =>
      simp only [begin] at begun
      split at begun
      · rename_i stored userId consumed
        cases begun
        obtain ⟨kept, grows, honours⟩ :=
          books.consume slot .passwordReset tokenHash choice.now _ idle consumed
        obtain ⟨honoured, replaced⟩ := consume_others slot _ tokenHash choice.now _ consumed
        refine ⟨kept, grows, ⟨fun verified same => ?_, fun _ => ?_⟩, by simp, honoured,
          fun _ listed => .inl (replaced ▸ listed)⟩
        · cases same
        · exact ⟨_, honours userId rfl, rfl, rfl, rfl, rfl⟩
      · rename_i stored consumed
        cases begun
        obtain ⟨kept, grows, -⟩ :=
          books.consume slot .passwordReset tokenHash choice.now _ idle consumed
        obtain ⟨honoured, replaced⟩ := consume_others slot _ tokenHash choice.now _ consumed
        exact ⟨kept, grows, trivial, by simp, honoured, fun _ listed => .inl (replaced ▸ listed)⟩
  | changePassword userId currentPassword =>
      simp only [begin] at begun
      split at begun
      · cases begun
        exact stepped_reading books slot _ trivial (by simp)
      · rename_i user found
        split at begun
        · rename_i passes
          cases begun
          refine stepped_reading books slot _ ⟨fun verified same => ?_, fun unverified => ?_⟩
            (by simp)
          · cases same
            rw [Service.findUser_id desk.accounts userId user found]
            exact ⟨currentPassword, rfl, passes⟩
          · cases unverified
        · cases begun
          exact stepped_reading books slot _ trivial (by simp)

theorem replacedBy_slot (slot : Nat) (operation : Operation) (userId : Nat)
    (replacement : PasswordReplacement) (epoch : Option Int) (other : Replacement)
    (listed : other ∈ desk.replacedBy slot operation userId replacement epoch) :
    other.slot = slot := by
  cases epoch with
  | none => cases listed
  | some _ =>
      obtain ⟨user, -, rfl⟩ := List.mem_map.mp listed
      rfl

theorem statement_stepped (books : Books settings desk) (slot : Nat) (process : Process)
    (choice : Choice) (phase : Phase) (fits : process.Fits settings desk slot)
    (idle : process.phase = .arrived → ∀ honour ∈ desk.honoured, honour.slot ≠ slot)
    (unfinished : process.phase.finished = false →
      ∀ replacement ∈ desk.replacements, replacement.slot ≠ slot)
    (stepped : statement settings desk slot process choice = some (next, phase)) :
    Stepped settings desk next slot { process with phase := phase } := by
  obtain ⟨operation, current⟩ := process
  cases current with
  | arrived => exact begin_stepped books slot operation choice phase (idle rfl) stepped
  | issuing purpose contact =>
      obtain ⟨issued, made, same⟩ := Option.map_eq_some_iff.mp stepped
      cases same
      obtain ⟨kept, grows, known⟩ := books.issue purpose contact _ choice fits made
      have others : next.honoured = desk.honoured ∧ next.replacements = desk.replacements := by
        unfold Desk.issue at made
        split at made <;> cases made
        exact ⟨rfl, rfl⟩
      exact ⟨kept, grows, known, by simp, fun _ listed => .inl (others.1 ▸ listed),
        fun _ listed => .inl (others.2 ▸ listed)⟩
  | superseding purpose contact tokenHash =>
      cases stepped
      exact ⟨books.supersede purpose contact tokenHash choice.now fits,
        ⟨fun _ _ has => has, fun _ => id, fun _ => id⟩, trivial, by simp, fun _ => .inl,
        fun _ => .inl⟩
  | marking userId =>
      cases stepped
      obtain ⟨kept, grows⟩ := books.markEmailVerified userId choice.now fits
      exact ⟨kept, grows, trivial, by simp, fun _ => .inl, fun _ => .inl⟩
  | replacing userId replacement =>
      have others : ∀ replaced, desk.replacePassword slot operation userId replacement choice.now =
          (next, replaced) → next.honoured = desk.honoured ∧ ∀ other ∈ next.replacements,
            other ∈ desk.replacements ∨ other.slot = slot := by
        intro replaced written
        unfold Desk.replacePassword at written
        cases written
        refine ⟨rfl, fun other listed => ?_⟩
        rcases List.mem_append.mp listed with new | old
        · exact .inr (replacedBy_slot slot operation userId replacement _ other new)
        · exact .inl old
      simp only [statement] at stepped
      split at stepped
      · rename_i written
        cases stepped
        obtain ⟨kept, grows⟩ := books.replacePassword slot operation userId replacement choice.now
          true fits (unfinished rfl) written
        obtain ⟨honoured, replaced⟩ := others true written
        exact ⟨kept, grows, trivial, by simp, fun _ listed => .inl (honoured ▸ listed),
          fun other listed => (replaced other listed).imp_right fun same => ⟨same, rfl⟩⟩
      · rename_i written
        cases stepped
        obtain ⟨kept, grows⟩ := books.replacePassword slot operation userId replacement choice.now
          false fits (unfinished rfl) written
        obtain ⟨honoured, replaced⟩ := others false written
        refine ⟨kept, grows, ?_, ?_, fun _ listed => .inl (honoured ▸ listed),
          fun other listed => (replaced other listed).imp_right fun same => ⟨same, ?_⟩⟩
        · cases operation <;> trivial
        · cases operation <;> simp [Operation.unreplaced]
        · cases operation <;> rfl
  | storing userId verifiedPasswordHash =>
      simp only [statement] at stepped
      split at stepped
      · cases stepped
        exact stepped_reading books slot _ trivial (by simp)
      · rename_i outcome stored
        cases stepped
        obtain ⟨kept, grows⟩ := books.openSession operation _ choice.id slot outcome fits stored
        have others : next.honoured = desk.honoured ∧ next.replacements = desk.replacements := by
          unfold Desk.openSession at stored
          split at stored <;> cases stored
          exact ⟨rfl, rfl⟩
        refine ⟨kept, grows, ?_, ?_, fun _ listed => .inl (others.1 ▸ listed),
          fun _ listed => .inl (others.2 ▸ listed)⟩
        · cases outcome <;> trivial
        · cases outcome <;> simp [Recovery.stored]
  | succeeded => cases stepped
  | refused => cases stepped
  | failed => cases stepped

end Statements

@[simp] theorem goOn_self (world : World) (desk : Desk) (slot : Nat) (process : Process)
    (phase : Phase) : (world.goOn desk slot process phase).requests slot =
      some { process with phase := phase } := Function.update_self ..

theorem goOn_of_ne (world : World) (desk : Desk) (slot : Nat) (process : Process) (phase : Phase)
    (other : Nat) (apart : other ≠ slot) :
    (world.goOn desk slot process phase).requests other = world.requests other :=
  Function.update_of_ne apart ..

theorem sound_goOn (world : World) (sound : Sound settings world) (next : Desk) (slot : Nat)
    (process : Process) (phase : Phase) (pending : ∀ before, world.requests slot = some before →
      before.phase.finished = false)
    (stepped : Stepped settings world.desk next slot { process with phase := phase }) :
    Sound settings (world.goOn next slot process phase) where
  books := stepped.books
  fits := by
    intro other found same
    by_cases here : other = slot
    · subst here
      rw [goOn_self] at same
      cases same
      exact stepped.fits
    · rw [goOn_of_ne _ _ _ _ _ _ here] at same
      exact stepped.grows.fits settings other found (sound.fits other found same)
  honoured := by
    intro honour listed
    by_cases here : honour.slot = slot
    · exact ⟨_, here ▸ goOn_self .., stepped.begun⟩
    · obtain ⟨found, same, begun⟩ :=
        sound.honoured honour ((stepped.honoured honour listed).resolve_right here)
      exact ⟨found, (goOn_of_ne _ _ _ _ _ _ here).trans same, begun⟩
  replaced := by
    intro replacement listed
    rcases stepped.replaced replacement listed with old | ⟨here, finished⟩
    · obtain ⟨found, same, finished⟩ := sound.replaced replacement old
      by_cases here : replacement.slot = slot
      · rw [pending found (here ▸ same)] at finished
        cases finished
      · exact ⟨found, (goOn_of_ne _ _ _ _ _ _ here).trans same, finished⟩
    · exact ⟨_, here ▸ goOn_self .., finished⟩

theorem sound_arrive (world : World) (sound : Sound settings world) (slot : Nat)
    (operation : Operation) (vacant : world.requests slot = none) :
    Sound settings (world.goOn world.desk slot ⟨operation, .arrived⟩ .arrived) where
  books := sound.books
  fits := by
    intro other found same
    by_cases here : other = slot
    · subst here
      rw [goOn_self] at same
      cases same
      trivial
    · rw [goOn_of_ne _ _ _ _ _ _ here] at same
      exact sound.fits other found same
  honoured := by
    intro honour listed
    obtain ⟨found, same, begun⟩ := sound.honoured honour listed
    have here : honour.slot ≠ slot := by
      intro equal
      rw [equal, vacant] at same
      cases same
    exact ⟨found, (goOn_of_ne _ _ _ _ _ _ here).trans same, begun⟩
  replaced := by
    intro replacement listed
    obtain ⟨found, same, finished⟩ := sound.replaced replacement listed
    have here : replacement.slot ≠ slot := by
      intro equal
      rw [equal, vacant] at same
      cases same
    exact ⟨found, (goOn_of_ne _ _ _ _ _ _ here).trans same, finished⟩

theorem step_sound (world next : World) (event : Event) (sound : Sound settings world)
    (stepped : step settings world event = some next) : Sound settings next := by
  cases event with
  | arrive slot operation =>
      simp only [step] at stepped
      split at stepped
      · cases stepped
      · rename_i vacant
        cases stepped
        rw [Bool.not_eq_true, Option.isSome_eq_false_iff, Option.isNone_iff_eq_none] at vacant
        exact sound_arrive settings world sound slot operation vacant
  | turn slot choice =>
      obtain ⟨process, requested, stepped⟩ := Option.bind_eq_some_iff.mp stepped
      obtain ⟨⟨desk, phase⟩, stated, rfl⟩ := Option.map_eq_some_iff.mp stepped
      have pending : process.phase.finished = false := by
        obtain ⟨operation, current⟩ := process
        cases current <;> first | rfl | cases stated
      refine sound_goOn settings world sound desk slot process phase (fun before same => ?_)
        (statement_stepped sound.books slot process choice phase
          (sound.fits slot process requested) (fun arrived honour listed same => ?_)
          (fun _ replacement listed same => ?_) stated)
      · rw [requested] at same
        cases same
        exact pending
      · obtain ⟨found, here, begun⟩ := sound.honoured honour listed
        rw [same, requested] at here
        cases here
        exact begun arrived
      · obtain ⟨found, here, finished⟩ := sound.replaced replacement listed
        rw [same, requested] at here
        cases here
        rw [pending] at finished
        cases finished
  | fail slot =>
      obtain ⟨process, requested, stepped⟩ := Option.bind_eq_some_iff.mp stepped
      split at stepped
      · cases stepped
      · rename_i pending
        cases stepped
        rw [Bool.not_eq_true] at pending
        refine sound_goOn settings world sound world.desk slot process .failed
          (fun before same => ?_)
          (stepped_reading sound.books slot _ trivial (by simp))
        rw [requested] at same
        cases same
        exact pending
  | sweep purpose cutoff limit doomed =>
      simp only [step] at stepped
      split at stepped
      · cases stepped
        exact
          { books := sound.books.sweep purpose cutoff doomed
            fits := sound.fits
            honoured := sound.honoured
            replaced := sound.replaced }
      · cases stepped

theorem sound_empty : Sound settings emptyWorld where
  books :=
    { law := by constructor <;> simp [emptyWorld, emptyDesk, Chained]
      issues := by simp [emptyWorld, emptyDesk]
      distinct := by simp [emptyWorld, emptyDesk]
      numbered := by simp [emptyWorld, emptyDesk]
      identified := by simp [emptyWorld, emptyDesk]
      drawn := by simp [emptyWorld, emptyDesk]
      spent := by simp [emptyWorld, emptyDesk]
      superseded := by simp [emptyWorld, emptyDesk]
      known := by simp [emptyWorld, emptyDesk]
      minted := by simp [emptyWorld, emptyDesk] }
  fits := by
    intro slot process requested
    cases requested
  honoured := fun _ listed => absurd listed List.not_mem_nil
  replaced := fun _ listed => absurd listed List.not_mem_nil

theorem run_sound (events : List Event) (world final : World) (sound : Sound settings world)
    (ran : Runs.run (step settings) world events = some final) : Sound settings final :=
  Runs.run_preserves (step settings) (Sound settings)
    (fun before event after held => step_sound settings before after event held)
    events world final sound ran

/-- In every run the account desk keeps its law. -/
theorem accounts_change_by_right (events : List Event) (final : World)
    (ran : Runs.run (step settings) emptyWorld events = some final) : Law settings final.desk :=
  (run_sound settings events emptyWorld final (sound_empty settings) ran).books.law

def shopSettings : Settings :=
  ⟨fun passwordHash password => passwordHash == "#" ++ password, true, fun _ => 60, 600⟩

/-- Two reset mails go out; the second token resets the password while a change that has read the
old one is under way. -/
def recoveryRun : List Event := [
  .arrive 0 (.register "ann@shop"), .turn 0 ⟨0, 1, 0, "", "#one"⟩, .turn 0 ⟨0, 2, 0, "v", ""⟩,
  .turn 0 ⟨0, 0, 0, "", ""⟩,
  .arrive 1 (.verifyEmail "v"), .turn 1 ⟨5, 0, 0, "", ""⟩, .turn 1 ⟨5, 0, 0, "", ""⟩,
  .arrive 2 (.forgotPassword "ann@shop"), .arrive 3 (.forgotPassword "ann@shop"),
  .turn 2 ⟨10, 0, 0, "", ""⟩, .turn 3 ⟨10, 0, 0, "", ""⟩, .turn 2 ⟨11, 3, 0, "r", ""⟩,
  .turn 2 ⟨12, 0, 0, "", ""⟩, .turn 3 ⟨13, 4, 0, "s", ""⟩, .turn 3 ⟨14, 0, 0, "", ""⟩,
  .arrive 4 (.changePassword 1 "one"), .turn 4 ⟨15, 0, 0, "", "#three"⟩,
  .arrive 5 (.resetPassword "r"), .turn 5 ⟨16, 0, 0, "", "#four"⟩,
  .arrive 6 (.resetPassword "s"), .turn 6 ⟨17, 0, 0, "", "#two"⟩, .turn 6 ⟨18, 0, 0, "", ""⟩,
  .turn 4 ⟨19, 0, 0, "", ""⟩,
  .arrive 7 (.login "ann@shop" "two"), .turn 7 ⟨20, 0, 0, "", ""⟩, .turn 7 ⟨21, 5, 6, "t", ""⟩,
  .sweep .passwordReset 15 8 [3]]

theorem accounts_change_by_right_recovery : ∃ final,
    Runs.run (step shopSettings) emptyWorld recoveryRun = some final ∧
      final.desk.replacements.map (·.stored) = ["#two"] ∧ Law shopSettings final.desk := by
  have once : ((Runs.run (step shopSettings) emptyWorld recoveryRun).any fun final =>
      final.desk.replacements.map (·.stored) == ["#two"]) = true := by decide +kernel
  cases ran : Runs.run (step shopSettings) emptyWorld recoveryRun with
  | none =>
      rw [ran] at once
      cases once
  | some final =>
      rw [ran, Option.any_some, beq_iff_eq] at once
      exact ⟨final, rfl, once, accounts_change_by_right shopSettings recoveryRun final ran⟩

end Commerce.Users.Recovery
