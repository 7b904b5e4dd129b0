import Commerce.Lib.Decimals
import Commerce.Lib.Runs
import Mathlib.Logic.Function.Basic

/-!
# The catalog cache

Reads of the catalog go through Redis under keys that carry a generation
counter, and an admin write raises the counter after its commit.  Any number of
processes read, rebuild, refresh and write; each call of Redis and each end of a
source read is a step.  What a read of the source returns is marked with the
number of commits the database had when it began.
-/

set_option autoImplicit false

namespace Commerce.Catalog

/-! ## Keys -/

structure FindManyActiveCriteria where
  page : Nat
  pageSize : Nat
  categorySlug : Option String
  q : Option String
  deriving DecidableEq, Repr

structure Fingerprint where
  page : Nat
  pageSize : Nat
  categorySlug : String
  q : String
  deriving DecidableEq, Repr

inductive Query where
  | list (criteria : FindManyActiveCriteria)
  | detail (idOrSlug : String)
  deriving DecidableEq, Repr

/-- The serializer and the truncated hash of the keys. -/
structure Hashing where
  stringify : Fingerprint → String
  digestOf : String → String

def cacheNamespace : String := "catalog:v3"

def catalogCacheVersionKey : String := cacheNamespace ++ ":ver"

def Hashing.listDigestOf (hashing : Hashing) (criteria : FindManyActiveCriteria) : String :=
  hashing.digestOf (hashing.stringify
    ⟨criteria.page, criteria.pageSize, criteria.categorySlug.getD "", criteria.q.getD ""⟩)

def productDetailKey (hashing : Hashing) (version : Nat) (idOrSlug : String) : String :=
  cacheNamespace ++ ":" ++ toString version ++ ":product:" ++ hashing.digestOf idOrSlug

def productListKey (hashing : Hashing) (version : Nat) (criteria : FindManyActiveCriteria) :
    String :=
  cacheNamespace ++ ":" ++ toString version ++ ":list:" ++ hashing.listDigestOf criteria

def productDetailReadKey (hashing : Hashing) (idOrSlug : String) : String :=
  cacheNamespace ++ ":unversioned:product:" ++ hashing.digestOf idOrSlug

def productListReadKey (hashing : Hashing) (criteria : FindManyActiveCriteria) : String :=
  cacheNamespace ++ ":unversioned:list:" ++ hashing.listDigestOf criteria

def productKey (hashing : Hashing) (version : Nat) : Query → String
  | .list criteria => productListKey hashing version criteria
  | .detail idOrSlug => productDetailKey hashing version idOrSlug

/-- The name of a source read when the generation is unreadable. -/
def productReadKey (hashing : Hashing) : Query → String
  | .list criteria => productListReadKey hashing criteria
  | .detail idOrSlug => productDetailReadKey hashing idOrSlug

def lockKeyFor (key : String) : String := key ++ ":lock"

/-! ## Redis -/

structure TtlPolicy where
  softTtlMs : Nat
  staleWindowMs : Nat
  jitterMs : Nat
  leaseMs : Nat
  waitMs : Nat
  deriving DecidableEq, Repr

def computeHardTtlMs (policy : TtlPolicy) (draw : Nat) : Nat :=
  policy.softTtlMs + policy.staleWindowMs +
    if policy.jitterMs = 0 then 0 else draw % policy.jitterMs

structure SourceRead (α : Type) where
  value : Option α
  readAt : Nat
  deriving DecidableEq, Repr

structure CacheEnvelope (α : Type) where
  data : α
  readAt : Nat
  freshUntil : Int
  deriving DecidableEq, Repr

def CacheEnvelope.answer {α : Type} (envelope : CacheEnvelope α) : SourceRead α :=
  ⟨some envelope.data, envelope.readAt⟩

def isFresh {α : Type} (envelope : CacheEnvelope α) (now : Int) : Bool :=
  decide (now < envelope.freshUntil)

inductive RedisValue (α : Type) where
  | counter (value : Nat)
  | envelope (envelope : CacheEnvelope α)
  | token (token : Nat)
  deriving DecidableEq, Repr

structure Stored (α : Type) where
  value : RedisValue α
  expiresAt : Option Int
  deriving DecidableEq, Repr

/-! ## Requests -/

inductive Entity where
  | category
  | product
  | sku
  deriving DecidableEq, Repr

def Entity.patchFields : Entity → List String
  | .category => ["name", "slug", "parentId"]
  | .product => ["name", "slug", "description", "status", "categoryId"]
  | .sku => ["sku", "name"]

/-- A field of an update with its value; `none` is `undefined`. -/
abbrev UpdateData := List (String × Option String)

def patchOf (entity : Entity) (data : UpdateData) : List (String × String) :=
  entity.patchFields.filterMap fun field => ((data.lookup field).bind id).map (field, ·)

def hasPatch (data : UpdateData) : Bool := data.any (·.2.isSome)

inductive AdminWrite where
  /-- A category, a product, a SKU, an image or a price is written. -/
  | create
  | update (entity : Entity) (data : UpdateData)
  /-- A product or a SKU is archived, or images are detached or reordered. -/
  | change
  | archiveCategoryIfEmpty
  deriving DecidableEq, Repr

def AdminWrite.commits (found : Bool) : AdminWrite → Bool
  | .create => true
  | .update entity data => !(patchOf entity data).isEmpty && found
  | .change | .archiveCategoryIfEmpty => found

def AdminWrite.answered (found : Bool) : AdminWrite → Bool
  | .create => true
  | .update .. | .change | .archiveCategoryIfEmpty => found

/-- Whether the write raises the generation: `invalidatingWrite` and its `mutates`. -/
def AdminWrite.invalidates (found : Bool) (write : AdminWrite) : Bool :=
  (match write with
    | .update _ data => hasPatch data
    | .create | .change | .archiveCategoryIfEmpty => true) && write.answered found

inductive Operation where
  | read (query : Query)
  | write (write : AdminWrite)
  deriving DecidableEq, Repr

inductive Phase (α : Type) where
  | readingCounter
  | lookingUp (key : String)
  | acquiring (key : String)
  | rechecking (key : String) (token : Nat)
  /-- `readThroughShared`; `held` is the lock of a caller that stores what it reads. -/
  | sharing (key : String) (held : Option Nat)
  | awaiting (key : String) (read : Nat) (held : Option Nat)
  | waiting (key : String) (deadline : Int)
  | checkingHolder (key : String) (deadline : Int)
  | refreshing (key : String)
  | refreshRechecking (key : String) (token : Nat)
  | rebuilding (key : String) (token : Nat)
  | fetching (key : String) (token readAt : Nat)
  | storing (key : String) (token : Nat) (data : α) (readAt : Nat) (answers : Bool)
  | releasing (key : String) (token : Nat) (answer : Option (SourceRead α))
  | answering (answer : SourceRead α)
  | writing
  | bumping (commit : Option Nat)
  | finished
  | failed
  deriving DecidableEq, Repr

/-- A request in one server process, with the writes that had returned when it began. -/
structure Process (α : Type) where
  server : Nat
  operation : Operation
  after : List Nat
  phase : Phase α
  deriving DecidableEq, Repr

inductive ReadStatus (α : Type) where
  | begun
  | fetching (readAt : Nat)
  | settled (result : Option (SourceRead α))
  | closed (result : Option (SourceRead α))
  deriving DecidableEq, Repr

structure SharedRead (α : Type) where
  server : Nat
  key : String
  status : ReadStatus α
  deriving DecidableEq, Repr

structure Answer (α : Type) where
  query : Operation
  after : List Nat
  read : SourceRead α
  deriving DecidableEq, Repr

structure Bump where
  commit : Nat
  version : Nat
  deriving DecidableEq, Repr

structure World (α : Type) where
  redis : String → Option (Stored α)
  redisNow : Int
  commits : Nat
  requests : Nat → Option (Process α)
  localReads : Nat → String → Option Nat
  reads : Nat → Option (SharedRead α)
  nextRead : Nat
  bumps : List Bump
  returned : List Nat
  answers : List (Answer α)

section Steps

variable {α : Type} (hashing : Hashing) (policy : TtlPolicy)

def start : World α :=
  { redis := fun _ => none
    redisNow := 0
    commits := 0
    requests := fun _ => none
    localReads := fun _ _ => none
    reads := fun _ => none
    nextRead := 0
    bumps := []
    returned := []
    answers := [] }

/-- `GET`: an expired key is gone. -/
def World.get (world : World α) (key : String) : Option (RedisValue α) :=
  match world.redis key with
  | some stored =>
      if stored.expiresAt.all fun expiresAt => decide (world.redisNow < expiresAt) then
        some stored.value
      else none
  | none => none

def World.set (world : World α) (key : String) (value : RedisValue α) (ttl : Nat) : World α :=
  { world with
    redis := Function.update world.redis key (some ⟨value, some (world.redisNow + ttl)⟩) }

def World.release (world : World α) (key : String) (token : Nat) : World α :=
  match world.get (lockKeyFor key) with
  | some (.token held) =>
      if held = token then
        { world with redis := Function.update world.redis (lockKeyFor key) none }
      else world
  | _ => world

def World.counter (world : World α) : Nat :=
  match world.get catalogCacheVersionKey with
  | some (.counter value) => value
  | _ => 0

/-- `INCR` after a commit, if the write made one. -/
def World.bump (world : World α) (commit : Option Nat) : World α :=
  { world with
    redis := Function.update world.redis catalogCacheVersionKey
      (some ⟨.counter (world.counter + 1), none⟩)
    bumps := (commit.map fun commit => ⟨commit, world.counter + 1⟩).toList ++ world.bumps }

def World.answer (world : World α) (process : Process α) (read : SourceRead α) : World α :=
  { world with answers := ⟨process.operation, process.after, read⟩ :: world.answers }

def World.beginRead (world : World α) (server : Nat) (key : String) : World α :=
  { world with
    reads := Function.update world.reads world.nextRead (some ⟨server, key, .begun⟩)
    localReads := Function.update world.localReads server
      (Function.update (world.localReads server) key (some world.nextRead))
    nextRead := world.nextRead + 1 }

def World.returns (world : World α) (commit : Option Nat) : World α :=
  { world with returned := commit.toList ++ world.returned }

/-- What the surroundings put into one step: whether Redis answers, the clock of the process, what
the source finds, a token, a draw, and whether payloads are coded. -/
structure Choice (α : Type) where
  redisAnswers : Bool
  now : Int
  found : Option α
  sourceFails : Bool
  rowFound : Bool
  token : Nat
  draw : Nat
  encodes : Bool
  decodes : Bool
  deriving DecidableEq, Repr

/-- `toEnvelope`: a payload that does not decode is absent. -/
def toEnvelope (choice : Choice α) : RedisValue α → Option (CacheEnvelope α)
  | .envelope envelope => if choice.decodes then some envelope else none
  | .counter _ | .token _ => none

def World.acquire (world : World α) (key : String) (choice : Choice α) : Option (World α) :=
  match world.get (lockKeyFor key) with
  | some _ => none
  | none => some (world.set (lockKeyFor key) (.token choice.token) policy.leaseMs)

def World.readFreshEnvelope (world : World α) (key : String) (choice : Choice α) :
    Option (CacheEnvelope α) :=
  if choice.redisAnswers then
    ((world.get key).bind (toEnvelope choice)).filter fun envelope => isFresh envelope choice.now
  else none

/-- What follows the read of a rebuild: an absent value is not stored. -/
def afterRebuild (key : String) (token : Nat) (answers : Bool) (read : SourceRead α) : Phase α :=
  match read.value with
  | some data => .storing key token data read.readAt answers
  | none => .releasing key token (if answers then some read else none)

def turn (world : World α) (process : Process α) (choice : Choice α) :
    Option (World α × Phase α) :=
  match process.phase, process.operation with
  | .readingCounter, .read query =>
      if choice.redisAnswers then
        some (world, .lookingUp (productKey hashing world.counter query))
      else some (world, .sharing (productReadKey hashing query) none)
  | .lookingUp key, _ =>
      if choice.redisAnswers then
        match (world.get key).bind (toEnvelope choice) with
        | some envelope =>
            if isFresh envelope choice.now then some (world, .answering envelope.answer)
            else some (world.answer process envelope.answer, .refreshing key)
        | none => some (world, .acquiring key)
      else some (world, .sharing key none)
  | .acquiring key, _ =>
      if choice.redisAnswers then
        match world.acquire policy key choice with
        | some locked => some (locked, .rechecking key choice.token)
        | none => some (world, .waiting key (choice.now + policy.waitMs))
      else some (world, .sharing key none)
  | .rechecking key token, _ =>
      match world.readFreshEnvelope key choice with
      | some envelope => some (world, .releasing key token (some envelope.answer))
      | none => some (world, .sharing key (some token))
  | .sharing key held, _ =>
      match world.localReads process.server key with
      | some read => some (world, .awaiting key read held)
      | none => some (world.beginRead process.server key, .awaiting key world.nextRead held)
  | .awaiting key read held, _ =>
      match world.reads read with
      | some ⟨_, _, .closed (some result)⟩ =>
          match held with
          | some token => some (world, afterRebuild key token true result)
          | none => some (world, .answering result)
      | some ⟨_, _, .closed none⟩ =>
          match held with
          | some token => some (world, .releasing key token none)
          | none => some (world, .failed)
      | _ => none
  | .waiting key deadline, _ =>
      if choice.redisAnswers then
        match world.get key with
        | some value =>
            match toEnvelope choice value with
            | some envelope => some (world, .answering envelope.answer)
            | none => some (world, .sharing key none)
        | none => some (world, .checkingHolder key deadline)
      else some (world, .sharing key none)
  | .checkingHolder key deadline, _ =>
      if choice.redisAnswers && (world.get (lockKeyFor key)).isSome &&
          decide (choice.now < deadline)
      then some (world, .waiting key deadline)
      else some (world, .sharing key none)
  | .refreshing key, _ =>
      if choice.redisAnswers then
        match world.acquire policy key choice with
        | some locked => some (locked, .refreshRechecking key choice.token)
        | none => some (world, .finished)
      else some (world, .finished)
  | .refreshRechecking key token, _ =>
      match world.readFreshEnvelope key choice with
      | some _ => some (world, .releasing key token none)
      | none => some (world, .rebuilding key token)
  | .rebuilding key token, _ => some (world, .fetching key token world.commits)
  | .fetching key token readAt, _ =>
      if choice.sourceFails then some (world, .releasing key token none)
      else some (world, afterRebuild key token false ⟨choice.found, readAt⟩)
  | .storing key token data readAt answers, _ =>
      let answer := if answers then some ⟨some data, readAt⟩ else none
      if choice.redisAnswers && choice.encodes then
        some (world.set key (.envelope ⟨data, readAt, choice.now + policy.softTtlMs⟩)
          (computeHardTtlMs policy choice.draw), .releasing key token answer)
      else some (world, .releasing key token answer)
  | .releasing key token answer, _ =>
      let next := match answer with
        | some read => Phase.answering read
        | none => .finished
      if choice.redisAnswers then some (world.release key token, next) else some (world, next)
  | .answering read, _ => some (world.answer process read, .finished)
  | .writing, .write write =>
      let commit := if write.commits choice.rowFound then some (world.commits + 1) else none
      let committed := { world with commits := world.commits + commit.toList.length }
      if write.invalidates choice.rowFound then some (committed, .bumping commit)
      else some (committed.returns commit, .finished)
  | .bumping commit, _ =>
      -- a failed bump is only logged
      if choice.redisAnswers then some ((world.bump commit).returns commit, .finished)
      else some (world.returns commit, .finished)
  | _, _ => none

def World.progress (world : World α) (read : Nat) (shared : SharedRead α) (choice : Choice α) :
    Option (World α) :=
  let become (status : ReadStatus α) : World α :=
    { world with
      reads := Function.update world.reads read (some { shared with status := status }) }
  match shared.status with
  | .begun => some (become (.fetching world.commits))
  | .fetching readAt =>
      some (become (.settled
        (if choice.sourceFails then none else some ⟨choice.found, readAt⟩)))
  | .settled result =>
      some { become (.closed result) with
        localReads := Function.update world.localReads shared.server
          (Function.update (world.localReads shared.server) shared.key none) }
  | .closed _ => none

inductive Event (α : Type) where
  | arrive (slot server : Nat) (operation : Operation)
  | turn (slot : Nat) (choice : Choice α)
  | progress (read : Nat) (choice : Choice α)
  /-- A request is abandoned: its process dies or a call throws. -/
  | fail (slot : Nat)
  /-- Time passes in Redis. -/
  | tick (ms : Nat)
  /-- Redis loses the generation counter. -/
  | loseCounter
  deriving DecidableEq, Repr

def Operation.first : Operation → Phase α
  | .read _ => .readingCounter
  | .write _ => .writing

def World.goOn (world : World α) (slot : Nat) (process : Process α) (phase : Phase α) : World α :=
  { world with
    requests := Function.update world.requests slot (some { process with phase := phase }) }

def step (world : World α) : Event α → Option (World α)
  | .arrive slot server operation =>
      if (world.requests slot).isNone then
        some (world.goOn slot ⟨server, operation, world.returned, operation.first⟩ operation.first)
      else none
  | .turn slot choice => do
      let process ← world.requests slot
      let (next, phase) ← turn hashing policy world process choice
      pure (next.goOn slot process phase)
  | .progress read choice => do
      let shared ← world.reads read
      world.progress read shared choice
  | .fail slot => do
      let process ← world.requests slot
      pure (world.goOn slot process .failed)
  | .tick ms => some { world with redisNow := world.redisNow + ms }
  | .loseCounter =>
      some { world with redis := Function.update world.redis catalogCacheVersionKey none }

end Steps

end Commerce.Catalog
