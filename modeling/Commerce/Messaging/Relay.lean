import Commerce.Lib.Pages
import Commerce.Lib.Tables
import Commerce.Messaging.Delivery

/-!
# The ticks of the outbox relay

A tick publishes the oldest unpublished rows.  It gives up at the third refusal
and charges the rows refused so far only once another row got through.  A row
keeps its place in the order whatever it was charged.
-/

set_option autoImplicit false

namespace Commerce.Messaging.Relay

/-! ## The outbox -/

structure OutboxRow where
  id : Nat
  aggregateType : String
  aggregateId : Nat
  eventType : String
  /-- JSON. -/
  payload : String
  traceparent : Option String
  attempts : Nat
  /-- Microseconds. -/
  createdAt : Int
  publishedAt : Option Int
  deriving DecidableEq, Repr

structure QueueSpec where
  name : String
  /-- The attempts an event's job is added with, where it overrides them. -/
  jobOptionsFor : String → Nat → Option Nat

structure Envelope where
  outboxId : Nat
  aggregateType : String
  aggregateId : Nat
  eventType : String
  payload : String
  occurredAt : String
  traceparent : Option String
  deriving DecidableEq, Repr

structure OutboxRelay where
  /-- The entries of `options.routes`. -/
  routes : List (String × QueueSpec)
  orderPaidAttempts : Nat
  /-- Whether the process opened the queue of this name. -/
  opened : String → Bool
  /-- What `add` of a queue answers, by the queue, the event, the job, its id and its attempts. -/
  add : String → String → Envelope → String → Option Nat → Except String Unit
  /-- The header of a span under the context a stored header stands for. -/
  injectTraceContext : Option String → Option String
  /-- Milliseconds. -/
  toISOString : Int → String

namespace OutboxRelay

def routeOf (relay : OutboxRelay) (eventType : String) : Option QueueSpec :=
  relay.routes.lookup eventType

def routedTypes (relay : OutboxRelay) : List String := relay.routes.map (·.1)

theorem routeOf_isSome (relay : OutboxRelay) (eventType : String) :
    (relay.routeOf eventType).isSome = relay.routedTypes.contains eventType := by
  rw [routeOf, routedTypes]
  induction relay.routes with
  | nil => rfl
  | cons entry rest ih =>
      rw [List.map_cons, List.contains_cons, List.lookup_cons]
      cases eventType == entry.1 with
      | true => rfl
      | false => simpa using ih

def envelope (relay : OutboxRelay) (row : OutboxRow) : Envelope where
  outboxId := row.id
  aggregateType := row.aggregateType
  aggregateId := row.aggregateId
  eventType := row.eventType
  payload := row.payload
  occurredAt := relay.toISOString (row.createdAt / 1000)
  traceparent := (relay.injectTraceContext (row.traceparent.filter (· != ""))).or row.traceparent

def publish (relay : OutboxRelay) (row : OutboxRow) (route : QueueSpec) : Except String Unit :=
  if relay.opened route.name then
    relay.add route.name row.eventType (relay.envelope row) (jobIdFor row.id)
      (route.jobOptionsFor row.eventType relay.orderPaidAttempts)
  else .error s!"queue {route.name} is routed but was never opened"

end OutboxRelay

/-- `ORDER BY created_at, id`. -/
def upTo (one other : OutboxRow) : Prop :=
  one.createdAt < other.createdAt ∨ one.createdAt = other.createdAt ∧ one.id ≤ other.id

instance : DecidableRel upTo := fun _ _ => inferInstanceAs (Decidable (_ ∨ _ ∧ _))

def lockUnpublished (rows : List OutboxRow) (held : List Nat) (scope : OutboxRow → Bool)
    (limit : Nat) : List OutboxRow :=
  Pages.page upTo (fun row => row.publishedAt.isNone && !held.contains row.id && scope row) limit
    rows

def markPublished (now : Int) (rows : List OutboxRow) (row : OutboxRow) : List OutboxRow :=
  Tables.update (·.id) row.id (fun stored => { stored with publishedAt := some now }) rows

def charge (rows charged : List OutboxRow) : List OutboxRow :=
  charged.foldl (fun rows row =>
    Tables.update (·.id) row.id (fun stored => { stored with attempts := row.attempts + 1 }) rows)
      rows

/-! ## One tick -/

def maxRefusalsPerTick : Nat := 3

structure Tick where
  rows : List OutboxRow
  refused : List OutboxRow
  unrouted : List OutboxRow
  published : Nat
  deriving DecidableEq, Repr

def publishAll (relay : OutboxRelay) (now : Int) : Tick → List OutboxRow → Tick
  | tick, [] => tick
  | tick, row :: rest =>
      match relay.routeOf row.eventType with
      | none => publishAll relay now { tick with unrouted := tick.unrouted ++ [row] } rest
      | some route =>
          match relay.publish row route with
          | .error _ =>
              let tick := { tick with refused := tick.refused ++ [row] }
              if maxRefusalsPerTick ≤ tick.refused.length then tick
              else publishAll relay now tick rest
          | .ok _ =>
              publishAll relay now
                { tick with
                  rows := markPublished now tick.rows row
                  published := tick.published + 1 }
                rest

structure RelayTickSummary where
  published : Nat
  failed : Nat
  deriving DecidableEq, Repr

/-- The rows a tick locks: those with a route, and with what room they leave the rest. -/
def lockedRows (relay : OutboxRelay) (held : List Nat) (batchSize : Nat) (rows : List OutboxRow) :
    List OutboxRow :=
  let routed := lockUnpublished rows held (relay.routedTypes.contains ·.eventType) batchSize
  let stray :=
    if routed.length < batchSize then
      lockUnpublished rows held (!relay.routedTypes.contains ·.eventType)
      (batchSize - routed.length)
    else []
  routed ++ stray

def runOnce (relay : OutboxRelay) (connected : Bool) (held : List Nat) (now : Int)
    (batchSize : Nat) (rows : List OutboxRow) : RelayTickSummary × List OutboxRow :=
  if !connected then (⟨0, 0⟩, rows)
  else
    let tick := publishAll relay now ⟨rows, [], [], 0⟩ (lockedRows relay held batchSize rows)
    let rows := charge tick.rows tick.unrouted
    let rows := if 0 < tick.published then charge rows tick.refused else rows
    (⟨tick.published, tick.refused.length + tick.unrouted.length⟩, rows)

/-! ## What a tick gets to -/

namespace OutboxRelay

def answer (relay : OutboxRelay) (row : OutboxRow) : Option (Except String Unit) :=
  (relay.routeOf row.eventType).map (relay.publish row)

def takes (relay : OutboxRelay) (row : OutboxRow) : Bool :=
  match relay.answer row with
  | some (.ok _) => true
  | _ => false

def refuses (relay : OutboxRelay) (row : OutboxRow) : Bool :=
  match relay.answer row with
  | some (.error _) => true
  | _ => false

def strays (relay : OutboxRelay) (row : OutboxRow) : Bool := (relay.answer row).isNone

theorem strays_eq (relay : OutboxRelay) (row : OutboxRow) :
    relay.strays row = !relay.routedTypes.contains row.eventType := by
  rw [← routeOf_isSome, strays, answer]
  cases relay.routeOf row.eventType <;> rfl

theorem verdict (relay : OutboxRelay) (row : OutboxRow) :
    (relay.takes row = true ∧ relay.refuses row = false ∧ relay.strays row = false) ∨
    (relay.takes row = false ∧ relay.refuses row = true ∧ relay.strays row = false) ∨
    (relay.takes row = false ∧ relay.refuses row = false ∧ relay.strays row = true) := by
  rw [takes, refuses, strays]
  cases relay.answer row with
  | none => exact .inr (.inr ⟨rfl, rfl, rfl⟩)
  | some answer =>
      cases answer with
      | ok done => exact .inl ⟨rfl, rfl, rfl⟩
      | error reason => exact .inr (.inl ⟨rfl, rfl, rfl⟩)

end OutboxRelay

/-- The rows a tick gets to when it ends at the refusal number `left`. -/
def reached (relay : OutboxRelay) : Nat → List OutboxRow → List OutboxRow
  | _, [] => []
  | left, row :: rest =>
      if relay.refuses row then
        if left ≤ 1 then [row] else row :: reached relay (left - 1) rest
      else row :: reached relay left rest

theorem reached_sublist (relay : OutboxRelay) (left : Nat) (rows : List OutboxRow) :
    (reached relay left rows).Sublist rows := by
  induction rows generalizing left with
  | nil => exact List.Sublist.refl _
  | cons row rest ih =>
      rw [reached]
      split
      · split
        · exact List.Sublist.cons_cons row (List.nil_sublist rest)
        · exact List.Sublist.cons_cons row (ih _)
      · exact List.Sublist.cons_cons row (ih left)

theorem mem_reached_iff (relay : OutboxRelay) (left : Nat) (room : 0 < left)
    (before after : List OutboxRow) (row : OutboxRow) (fresh : row ∉ before) :
    row ∈ reached relay left (before ++ row :: after) ↔
      (before.filter relay.refuses).length < left := by
  induction before generalizing left with
  | nil =>
      have here : row ∈ reached relay left (row :: after) := by
        rw [reached]
        split
        · split <;> exact List.mem_cons_self
        · exact List.mem_cons_self
      simpa using ⟨fun _ => room, fun _ => here⟩
  | cons first rest ih =>
      obtain ⟨other, freshRest⟩ := not_or.mp (List.mem_cons.not.mp fresh)
      rw [List.cons_append, reached, List.filter_cons]
      cases refused : relay.refuses first with
      | false =>
          simp only [Bool.false_eq_true, if_false, List.mem_cons, other, false_or]
          exact ih left room freshRest
      | true =>
          simp only [if_true, List.length_cons]
          by_cases last : left ≤ 1
          · rw [if_pos last, List.mem_singleton]
            exact ⟨fun same => absurd same other, fun few => by omega⟩
          · rw [if_neg last, List.mem_cons, or_iff_right other,
              ih (left - 1) (by omega) freshRest]
            omega

theorem publishAll_eq (relay : OutboxRelay) (now : Int) (page : List OutboxRow) (tick : Tick)
    (left : Nat) (budget : tick.refused.length + left = maxRefusalsPerTick) (room : 0 < left) :
    publishAll relay now tick page =
      { rows := ((reached relay left page).filter relay.takes).foldl (markPublished now) tick.rows
        refused := tick.refused ++ (reached relay left page).filter relay.refuses
        unrouted := tick.unrouted ++ (reached relay left page).filter relay.strays
        published := tick.published + ((reached relay left page).filter relay.takes).length } := by
  induction page generalizing tick left with
  | nil => simp [publishAll, reached]
  | cons row rest ih =>
      rw [publishAll, reached]
      cases routed : relay.routeOf row.eventType with
      | none =>
          have answered : relay.answer row = none := by rw [OutboxRelay.answer, routed]; rfl
          dsimp only
          rw [ih { tick with unrouted := tick.unrouted ++ [row] } left budget room]
          simp [OutboxRelay.takes, OutboxRelay.refuses, OutboxRelay.strays, answered]
      | some route =>
          dsimp only
          cases sent : relay.publish row route with
          | ok done =>
              have answered : relay.answer row = some (.ok done) := by
                rw [OutboxRelay.answer, routed, Option.map_some, sent]
              dsimp only
              rw [ih ⟨markPublished now tick.rows row, tick.refused, tick.unrouted,
                tick.published + 1⟩ left budget room]
              simp [OutboxRelay.takes, OutboxRelay.refuses, OutboxRelay.strays, answered,
                Nat.add_assoc, Nat.add_comm 1]
          | error reason =>
              have answered : relay.answer row = some (.error reason) := by
                rw [OutboxRelay.answer, routed, Option.map_some, sent]
              have refused : relay.refuses row = true := by rw [OutboxRelay.refuses, answered]
              dsimp only
              rw [if_pos refused]
              by_cases last : left ≤ 1
              · rw [if_pos (by rw [List.length_append, List.length_singleton]; omega), if_pos last]
                simp [OutboxRelay.takes, OutboxRelay.refuses, OutboxRelay.strays, answered]
              · rw [if_neg (by rw [List.length_append, List.length_singleton]; omega), if_neg last,
                  ih _ (left - 1) (by rw [List.length_append, List.length_singleton]; omega)
                    (by omega)]
                simp [OutboxRelay.takes, OutboxRelay.refuses, OutboxRelay.strays, answered]

/-! ## The rows after a tick -/

theorem markPublished_eq (now : Int) (sent rows : List OutboxRow)
    (keyed : (rows.map (·.id)).Nodup) (stored : ∀ row ∈ sent, row ∈ rows) (once : sent.Nodup) :
    sent.foldl (markPublished now) rows =
      rows.map fun row => if row ∈ sent then { row with publishedAt := some now } else row :=
  Tables.foldl_update OutboxRow.id (fun _ (row : OutboxRow) => { row with publishedAt := some now })
    (fun _ _ => rfl) sent rows keyed stored once

theorem charge_eq (settle : OutboxRow → OutboxRow) (settles : ∀ row, (settle row).id = row.id)
    (rows charged : List OutboxRow) (keyed : (rows.map (·.id)).Nodup)
    (stored : ∀ row ∈ charged, row ∈ rows) (once : charged.Nodup)
    (untouched : ∀ row ∈ charged, settle row = row) :
    charge (rows.map settle) charged =
      rows.map fun row =>
        if row ∈ charged then { row with attempts := row.attempts + 1 } else settle row :=
  Tables.foldl_update_map OutboxRow.id
    (fun (read row : OutboxRow) => { row with attempts := read.attempts + 1 }) (fun _ _ => rfl)
    settle settles charged rows keyed stored once untouched

/-- What a tick makes of a row, by the rows it gets to. -/
def settledRow (relay : OutboxRelay) (now : Int) (visited : List OutboxRow) (row : OutboxRow) :
    OutboxRow :=
  if row ∈ visited then
    if relay.takes row then { row with publishedAt := some now }
    else if relay.strays row || visited.any relay.takes then
      { row with attempts := row.attempts + 1 }
    else row
  else row

theorem settledRow_id (relay : OutboxRelay) (now : Int) (visited : List OutboxRow)
    (row : OutboxRow) : (settledRow relay now visited row).id = row.id := by
  simp only [settledRow]
  split_ifs <;> rfl

theorem mem_lockUnpublished {rows : List OutboxRow} {held : List Nat} {scope : OutboxRow → Bool}
    {limit : Nat} {row : OutboxRow} (listed : row ∈ lockUnpublished rows held scope limit) :
    row ∈ rows ∧ scope row = true := by
  obtain ⟨stored, chosen⟩ := Pages.mem_page upTo _ limit rows row listed
  exact ⟨stored, (Bool.and_eq_true_iff.mp chosen).2⟩

theorem lockedRows_stored (relay : OutboxRelay) (held : List Nat) (batchSize : Nat)
    (rows : List OutboxRow) (row : OutboxRow)
    (listed : row ∈ lockedRows relay held batchSize rows) :
    row ∈ rows := by
  rcases List.mem_append.mp listed with routed | stray
  · exact (mem_lockUnpublished routed).1
  · split at stray
    · exact (mem_lockUnpublished stray).1
    · cases stray

theorem lockedRows_nodup (relay : OutboxRelay) (held : List Nat) (batchSize : Nat)
    (rows : List OutboxRow) (distinct : rows.Nodup) :
    (lockedRows relay held batchSize rows).Nodup := by
  refine List.nodup_append.mpr ⟨Pages.nodup_page _ _ _ _ distinct, ?_, ?_⟩
  · split
    · exact Pages.nodup_page _ _ _ _ distinct
    · exact List.nodup_nil
  · intro row routed other stray same
    subst same
    have isRouted := (mem_lockUnpublished routed).2
    split at stray
    · have isStray := (mem_lockUnpublished stray).2
      rw [isRouted] at isStray
      cases isStray
    · cases stray

def visitedRows (relay : OutboxRelay) (held : List Nat) (batchSize : Nat) (rows : List OutboxRow) :
    List OutboxRow :=
  reached relay maxRefusalsPerTick (lockedRows relay held batchSize rows)

theorem runOnce_rows (relay : OutboxRelay) (held : List Nat) (now : Int) (batchSize : Nat)
    (rows : List OutboxRow) (keyed : (rows.map (·.id)).Nodup) :
    (runOnce relay true held now batchSize rows).2 =
      rows.map (settledRow relay now (visitedRows relay held batchSize rows)) := by
  have distinct : rows.Nodup := List.Nodup.of_map _ keyed
  have within := reached_sublist relay maxRefusalsPerTick (lockedRows relay held batchSize rows)
  have once : (visitedRows relay held batchSize rows).Nodup :=
    (lockedRows_nodup relay held batchSize rows distinct).sublist within
  have stored : ∀ row ∈ visitedRows relay held batchSize rows, row ∈ rows := fun row member =>
    lockedRows_stored relay held batchSize rows row (within.subset member)
  have looped := publishAll_eq relay now (lockedRows relay held batchSize rows) ⟨rows, [], [], 0⟩
    maxRefusalsPerTick rfl (by decide)
  rw [← visitedRows] at looped
  rw [runOnce, if_neg (by decide)]
  dsimp only
  rw [looped]
  generalize visitedRows relay held batchSize rows = visited at *
  simp only [List.nil_append, Nat.zero_add]
  have picked : ∀ p : OutboxRow → Bool, (∀ row ∈ visited.filter p, row ∈ rows) ∧
      (visited.filter p).Nodup := fun p =>
    ⟨fun row member => stored row (List.mem_of_mem_filter member), once.sublist List.filter_sublist⟩
  have sentOne : (visited.any relay.takes = true) ↔ 0 < (visited.filter relay.takes).length := by
    rw [List.any_eq_true, List.length_pos_iff_exists_mem]
    exact exists_congr fun row => List.mem_filter.symm
  have chargedRow : ∀ row, ∀ p q : OutboxRow → Bool,
      (if row ∈ visited.filter p then { row with attempts := row.attempts + 1 }
        else if row ∈ visited.filter q then { row with publishedAt := some now } else row).id =
      row.id := by
    intro row p q
    split_ifs <;> rfl
  -- What was sent, then the strays, then what was refused: no row is in two of the three.
  rw [markPublished_eq now _ rows keyed (picked _).1 (picked _).2,
    charge_eq _ (fun row => by split_ifs <;> rfl) rows _ keyed (picked _).1 (picked _).2]
  · split
    · next proven =>
        rw [charge_eq _ (fun row => chargedRow row _ _) rows _ keyed (picked _).1 (picked _).2]
        · refine List.map_congr_left fun row _ => ?_
          by_cases visitedRow : row ∈ visited <;>
            rcases relay.verdict row with ⟨taken, refused, stray⟩ | ⟨taken, refused, stray⟩ |
              ⟨taken, refused, stray⟩ <;>
            simp [settledRow, visitedRow, taken, refused, stray, sentOne.mpr proven]
        · intro row member
          have refused := (List.mem_filter.mp member).2
          rcases relay.verdict row with ⟨-, kept, -⟩ | ⟨taken, -, stray⟩ | ⟨-, kept, -⟩
          · rw [refused] at kept; cases kept
          · simp [taken, stray]
          · rw [refused] at kept; cases kept
    · next unproven =>
        have noneSent : visited.any relay.takes = false := by
          simpa using mt sentOne.mp unproven
        refine List.map_congr_left fun row _ => ?_
        by_cases visitedRow : row ∈ visited <;>
          rcases relay.verdict row with ⟨taken, refused, stray⟩ | ⟨taken, refused, stray⟩ |
            ⟨taken, refused, stray⟩ <;>
          simp [settledRow, visitedRow, taken, stray, noneSent]
  · intro row member
    have stray := (List.mem_filter.mp member).2
    rcases relay.verdict row with ⟨-, -, kept⟩ | ⟨-, -, kept⟩ | ⟨taken, -, -⟩
    · rw [stray] at kept; cases kept
    · rw [stray] at kept; cases kept
    · simp [taken]

/-! ## A row's place in the backlog -/

instance : Std.Total upTo where
  total one other := by
    simp only [upTo]
    omega

instance : IsTrans OutboxRow upTo where
  trans one other third := by
    simp only [upTo]
    omega

theorem upTo_apart (rows : List OutboxRow) (keyed : (rows.map (·.id)).Nodup) :
    ∀ one ∈ rows, ∀ other ∈ rows, upTo one other → upTo other one → one = other := by
  intro one memOne other memOther forth back
  refine Tables.eq_of_key (·.id) rows one other keyed memOne memOther ?_
  simp only [upTo] at forth back
  omega

/-- An unpublished row that has a route and that no other instance holds. -/
def waits (relay : OutboxRelay) (held : List Nat) (row : OutboxRow) : Bool :=
  row.publishedAt.isNone && !held.contains row.id && relay.routedTypes.contains row.eventType

def accepted (relay : OutboxRelay) (held : List Nat) (row : OutboxRow) : Bool :=
  waits relay held row && relay.takes row

def refusedAhead (relay : OutboxRelay) (held : List Nat) (rows : List OutboxRow)
    (row : OutboxRow) : List OutboxRow :=
  (Pages.ahead upTo (waits relay held) rows row).filter relay.refuses

theorem strays_of_waits {relay : OutboxRelay} {held : List Nat} {row : OutboxRow}
    (waiting : waits relay held row = true) : relay.strays row = false := by
  have routed := (Bool.and_eq_true_iff.mp waiting).2
  rw [relay.strays_eq, routed]
  rfl

theorem mem_lockedRows {relay : OutboxRelay} {held : List Nat} {batchSize : Nat}
    {rows : List OutboxRow} {row : OutboxRow}
    (listed : row ∈ lockedRows relay held batchSize rows) :
    row.publishedAt = none ∧
      (row ∈ Pages.page upTo (waits relay held) batchSize rows ∨ relay.strays row = true) := by
  rcases List.mem_append.mp listed with routed | stray
  · have chosen := (Pages.mem_page upTo _ batchSize rows row routed).2
    simp only [Bool.and_eq_true, Option.isNone_iff_eq_none] at chosen
    exact ⟨chosen.1.1, .inl routed⟩
  · split at stray
    · have chosen := (Pages.mem_page upTo _ _ rows row stray).2
      simp only [Bool.and_eq_true, Option.isNone_iff_eq_none] at chosen
      exact ⟨chosen.1.1, .inr (relay.strays_eq row ▸ chosen.2)⟩
    · cases stray

/-- A tick gets to a waiting row when the batch reaches it and fewer than three refusals come
before it. -/
theorem mem_visitedRows_iff (relay : OutboxRelay) (held : List Nat) (batchSize : Nat)
    (rows : List OutboxRow) (keyed : (rows.map (·.id)).Nodup) (row : OutboxRow)
    (listed : row ∈ rows) (waiting : waits relay held row = true) :
    row ∈ visitedRows relay held batchSize rows ↔
      (Pages.ahead upTo (waits relay held) rows row).length < batchSize ∧
        (refusedAhead relay held rows row).length < maxRefusalsPerTick := by
  have distinct : rows.Nodup := List.Nodup.of_map _ keyed
  have apart := upTo_apart rows keyed
  obtain ⟨before, after, split, place⟩ :=
    Pages.sorted_split upTo (waits relay held) rows row distinct apart listed waiting
  have once := (List.perm_insertionSort upTo (rows.filter (waits relay held))).nodup_iff.mpr
    (distinct.sublist List.filter_sublist)
  rw [split] at once
  have fresh : row ∉ before := fun early =>
    (List.nodup_append.mp once).2.2 row early row List.mem_cons_self rfl
  by_cases near : (Pages.ahead upTo (waits relay held) rows row).length < batchSize
  · obtain ⟨more, room⟩ := Nat.exists_eq_add_of_lt near
    rw [← place.length_eq] at room
    have routed : lockUnpublished rows held (relay.routedTypes.contains ·.eventType) batchSize =
        before ++ row :: after.take more := by
      change ((rows.filter (waits relay held)).insertionSort upTo).take batchSize = _
      rw [split, room, Nat.add_assoc, List.take_append, List.take_of_length_le (by omega),
        Nat.add_sub_cancel_left, List.take_succ_cons]
    rw [visitedRows, lockedRows, routed, List.append_assoc, List.cons_append,
      mem_reached_iff relay maxRefusalsPerTick (by decide) before _ row fresh,
      (place.filter relay.refuses).length_eq]
    exact ⟨fun few => ⟨near, few⟩, And.right⟩
  · refine ⟨fun visited => absurd visited ?_, fun both => absurd both.1 near⟩
    intro visited
    have locked := (reached_sublist _ _ _).subset visited
    rcases (mem_lockedRows locked).2 with onPage | stray
    · exact near ((Pages.mem_page_iff upTo _ batchSize rows row distinct apart listed waiting).mp
        onPage)
    · rw [strays_of_waits waiting] at stray
      cases stray

theorem length_refusedAhead_le (relay : OutboxRelay) (held : List Nat) (rows : List OutboxRow)
    (row : OutboxRow) :
    (refusedAhead relay held rows row).length ≤
      (Pages.ahead upTo (waits relay held) rows row).length :=
  List.length_filter_le _ _

theorem first_taken (relay : OutboxRelay) (before after : List OutboxRow) (row : OutboxRow)
    (taken : relay.takes row = true) :
    ∃ front first rest, before ++ row :: after = front ++ first :: rest ∧
      relay.takes first = true ∧ (∀ other ∈ front, relay.takes other = false) ∧
      (front.filter relay.refuses).length ≤ (before.filter relay.refuses).length := by
  induction before with
  | nil => exact ⟨[], row, after, rfl, taken, by simp, by simp⟩
  | cons head tail ih =>
      cases takesHead : relay.takes head with
      | true => exact ⟨[], head, tail ++ row :: after, rfl, takesHead, by simp, by simp⟩
      | false =>
          obtain ⟨front, first, rest, split, takesFirst, none, fewer⟩ := ih
          refine ⟨head :: front, first, rest, ?_, takesFirst, ?_, ?_⟩
          · rw [List.cons_append, split, List.cons_append]
          · simpa using ⟨takesHead, none⟩
          · rw [List.filter_cons, List.filter_cons]
            split
            · simpa using fewer
            · exact fewer

theorem first_accepted (relay : OutboxRelay) (held : List Nat) (rows : List OutboxRow)
    (keyed : (rows.map (·.id)).Nodup) (row : OutboxRow) (listed : row ∈ rows)
    (isAccepted : accepted relay held row = true) :
    ∃ first ∈ rows, accepted relay held first = true ∧
      (Pages.ahead upTo (waits relay held) rows first).length ≤
        (refusedAhead relay held rows row).length := by
  obtain ⟨waiting, taken⟩ := Bool.and_eq_true_iff.mp isAccepted
  have distinct : rows.Nodup := List.Nodup.of_map _ keyed
  have apart := upTo_apart rows keyed
  obtain ⟨before, after, split, place⟩ :=
    Pages.sorted_split upTo (waits relay held) rows row distinct apart listed waiting
  obtain ⟨front, first, rest, again, takesFirst, untaken, fewer⟩ :=
    first_taken relay before after row taken
  have chosen : ∀ other ∈ front ++ first :: rest, other ∈ rows ∧ waits relay held other = true := by
    intro other member
    rw [← again, ← split] at member
    exact List.mem_filter.mp ((List.mem_insertionSort upTo).mp member)
  obtain ⟨firstListed, firstWaits⟩ := chosen first (List.mem_append_right _ List.mem_cons_self)
  have firstPlace := Pages.perm_ahead upTo (waits relay held) rows first distinct apart firstListed
    front rest (split.trans again)
  have allRefused : front.filter relay.refuses = front := by
    refine List.filter_eq_self.mpr fun other member => ?_
    have routed := strays_of_waits (chosen other (List.mem_append_left _ member)).2
    rcases relay.verdict other with ⟨takesOther, -, -⟩ | ⟨-, refused, -⟩ | ⟨-, -, stray⟩
    · rw [untaken other member] at takesOther; cases takesOther
    · exact refused
    · rw [routed] at stray; cases stray
  refine ⟨first, firstListed, Bool.and_eq_true_iff.mpr ⟨firstWaits, takesFirst⟩, ?_⟩
  rw [allRefused] at fewer
  rw [← firstPlace.length_eq]
  exact fewer.trans (place.filter relay.refuses).length_eq.le

/-! ## Progress -/

def isPublished (rows : List OutboxRow) (id : Nat) : Bool :=
  rows.any fun row => row.id == id && row.publishedAt.isSome

/-- The queue would take the row, and the refused rows before it neither end the tick nor fill the
batch. -/
def Reachable (relay : OutboxRelay) (held : List Nat) (batchSize : Nat) (rows : List OutboxRow)
    (row : OutboxRow) : Prop :=
  (refusedAhead relay held rows row).length < min maxRefusalsPerTick batchSize

instance (relay : OutboxRelay) (held : List Nat) (batchSize : Nat) (rows : List OutboxRow)
    (row : OutboxRow) : Decidable (Reachable relay held batchSize rows row) :=
  inferInstanceAs (Decidable (_ < _))

/-- A connected tick publishes a row the queue takes, or charges the refused rows before one. -/
def Progresses (relay : OutboxRelay) (held : List Nat) (now : Int) (batchSize : Nat)
    (rows : List OutboxRow) : Prop :=
  let after := (runOnce relay true held now batchSize rows).2
  (∃ row ∈ rows, accepted relay held row = true ∧ isPublished after row.id = true) ∨
  ∃ row ∈ rows, accepted relay held row = true ∧ refusedAhead relay held rows row ≠ [] ∧
    ∀ refused ∈ refusedAhead relay held rows row,
      ∃ charged ∈ after, charged.id = refused.id ∧ charged.attempts = refused.attempts + 1

theorem isPublished_tick_iff (relay : OutboxRelay) (held : List Nat) (now : Int) (batchSize : Nat)
    (rows : List OutboxRow) (keyed : (rows.map (·.id)).Nodup) (row : OutboxRow)
    (listed : row ∈ rows) (isAccepted : accepted relay held row = true) :
    isPublished (runOnce relay true held now batchSize rows).2 row.id = true ↔
      row ∈ visitedRows relay held batchSize rows := by
  obtain ⟨waiting, taken⟩ := Bool.and_eq_true_iff.mp isAccepted
  have unpublished : row.publishedAt = none := by
    simp only [waits, Bool.and_eq_true, Option.isNone_iff_eq_none] at waiting
    exact waiting.1.1
  rw [runOnce_rows relay held now batchSize rows keyed, isPublished, List.any_map, List.any_eq_true]
  constructor
  · rintro ⟨other, memOther, published⟩
    simp only [Function.comp_apply, settledRow_id, Bool.and_eq_true, beq_iff_eq] at published
    obtain rfl := Tables.eq_of_key (·.id) rows other row keyed memOther listed published.1
    by_contra unvisited
    rw [settledRow, if_neg unvisited, unpublished] at published
    cases published.2
  · intro visited
    refine ⟨row, listed, ?_⟩
    simp [settledRow, visited, taken]

theorem visitedRows_taken (relay : OutboxRelay) (held : List Nat) (batchSize : Nat)
    (rows : List OutboxRow) (row : OutboxRow)
    (visited : row ∈ visitedRows relay held batchSize rows)
    (taken : relay.takes row = true) : row ∈ rows ∧ accepted relay held row = true := by
  have locked := (reached_sublist _ _ _).subset visited
  refine ⟨lockedRows_stored relay held batchSize rows row locked, ?_⟩
  rcases (mem_lockedRows locked).2 with onPage | stray
  · exact Bool.and_eq_true_iff.mpr ⟨(Pages.mem_page upTo _ batchSize rows row onPage).2, taken⟩
  · rcases relay.verdict row with ⟨-, -, routed⟩ | ⟨-, -, routed⟩ | ⟨refused, -, -⟩
    · rw [stray] at routed; cases routed
    · rw [stray] at routed; cases routed
    · rw [taken] at refused; cases refused

/-- A tick gets to a row the queue takes exactly when the refusals leave it one to get to. -/
theorem visits_taken_iff (relay : OutboxRelay) (held : List Nat) (batchSize : Nat)
    (rows : List OutboxRow) (keyed : (rows.map (·.id)).Nodup) :
    (∃ row ∈ visitedRows relay held batchSize rows, relay.takes row = true) ↔
      ∃ row ∈ rows, accepted relay held row = true ∧ Reachable relay held batchSize rows row := by
  constructor
  · rintro ⟨row, visited, taken⟩
    obtain ⟨listed, isAccepted⟩ := visitedRows_taken relay held batchSize rows row visited taken
    have waiting := (Bool.and_eq_true_iff.mp isAccepted).1
    obtain ⟨near, few⟩ :=
      (mem_visitedRows_iff relay held batchSize rows keyed row listed waiting).mp visited
    have within := length_refusedAhead_le relay held rows row
    exact ⟨row, listed, isAccepted, by rw [Reachable]; omega⟩
  · rintro ⟨row, listed, isAccepted, reachable⟩
    obtain ⟨first, firstListed, firstAccepted, within⟩ :=
      first_accepted relay held rows keyed row listed isAccepted
    obtain ⟨waiting, taken⟩ := Bool.and_eq_true_iff.mp firstAccepted
    have fewer := length_refusedAhead_le relay held rows first
    rw [Reachable] at reachable
    exact ⟨first, (mem_visitedRows_iff relay held batchSize rows keyed first firstListed
      waiting).mpr
      ⟨by omega, by omega⟩, taken⟩

theorem progresses_iff (relay : OutboxRelay) (held : List Nat) (now : Int) (batchSize : Nat)
    (rows : List OutboxRow) (keyed : (rows.map (·.id)).Nodup) :
    Progresses relay held now batchSize rows ↔
      ∃ row ∈ rows, accepted relay held row = true ∧ Reachable relay held batchSize rows row := by
  rw [← visits_taken_iff relay held batchSize rows keyed]
  constructor
  · rintro (⟨row, listed, isAccepted, published⟩ | ⟨row, listed, isAccepted, blocked, charged⟩)
    · have visited := (isPublished_tick_iff relay held now batchSize rows keyed row listed
        isAccepted).mp published
      exact ⟨row, visited, (Bool.and_eq_true_iff.mp isAccepted).2⟩
    · obtain ⟨refused, member⟩ := List.exists_mem_of_ne_nil _ blocked
      obtain ⟨after, stored, sameId, raised⟩ := charged refused member
      obtain ⟨isAhead, isRefused⟩ := List.mem_filter.mp member
      obtain ⟨refusedListed, chosen⟩ := List.mem_filter.mp isAhead
      rw [runOnce_rows relay held now batchSize rows keyed] at stored
      obtain ⟨original, originalListed, rfl⟩ := List.mem_map.mp stored
      rw [settledRow_id] at sameId
      obtain rfl := Tables.eq_of_key (·.id) rows original refused keyed originalListed refusedListed
        sameId
      rcases relay.verdict original with ⟨-, kept, -⟩ | ⟨taken, -, stray⟩ | ⟨-, kept, -⟩
      · rw [isRefused] at kept; cases kept
      · rw [settledRow] at raised
        split at raised
        · rw [taken, stray, if_neg (by decide), Bool.false_or] at raised
          split at raised
          · next proven => exact List.any_eq_true.mp proven
          · omega
        · omega
      · rw [isRefused] at kept; cases kept
  · rintro ⟨row, visited, taken⟩
    obtain ⟨listed, isAccepted⟩ := visitedRows_taken relay held batchSize rows row visited taken
    exact .inl ⟨row, listed, isAccepted,
      (isPublished_tick_iff relay held now batchSize rows keyed row listed isAccepted).mpr visited⟩

/-! ## Runs of ticks -/

inductive Event where
  | tick (connected : Bool) (now : Int)
  /-- A transaction of the service writes a row. -/
  | append (row : OutboxRow)

def step (relay : OutboxRelay) (batchSize : Nat) (rows : List OutboxRow) : Event → List OutboxRow
  | .tick connected now => (runOnce relay connected [] now batchSize rows).2
  | .append row => if row.id ∈ rows.map (·.id) then rows else rows ++ [row]

def outboxAfter (relay : OutboxRelay) (batchSize : Nat) (rows : List OutboxRow)
    (events : List Event) : List OutboxRow :=
  events.foldl (step relay batchSize) rows

theorem step_keyed (relay : OutboxRelay) (batchSize : Nat) (rows : List OutboxRow) (event : Event)
    (keyed : (rows.map (·.id)).Nodup) : ((step relay batchSize rows event).map (·.id)).Nodup := by
  cases event with
  | tick connected now =>
      rw [step]
      cases connected with
      | false => exact keyed
      | true =>
          rw [runOnce_rows relay [] now batchSize rows keyed, List.map_map]
          have same : rows.map (OutboxRow.id ∘ settledRow relay now
            (visitedRows relay [] batchSize rows)) =
              rows.map (·.id) := List.map_congr_left fun row _ => settledRow_id relay now _ row
          rw [same]
          exact keyed
  | append row =>
      rw [step]
      split
      · exact keyed
      · next fresh =>
          rw [List.map_append, List.map_singleton]
          exact List.nodup_append.mpr ⟨keyed, List.nodup_singleton _, by
            rintro id member other single rfl
            exact fresh (List.mem_singleton.mp single ▸ member)⟩

theorem refused_settledRow (relay : OutboxRelay) (now : Int) (visited : List OutboxRow)
    (row other : OutboxRow) :
    (relay.refuses (settledRow relay now visited other) &&
        (waits relay [] (settledRow relay now visited other) &&
          !decide (upTo row (settledRow relay now visited other)))) =
      (relay.refuses other && (waits relay [] other && !decide (upTo row other))) := by
  rcases relay.verdict other with ⟨taken, kept, -⟩ | ⟨taken, refused, stray⟩ | ⟨taken, kept, -⟩
  · have after : relay.refuses (settledRow relay now visited other) = relay.refuses other := by
      simp only [settledRow]
      split_ifs <;> rfl
    rw [after, kept, Bool.false_and, Bool.false_and]
  · simp only [settledRow, taken]
    split_ifs <;> first | rfl | contradiction
  · have after : relay.refuses (settledRow relay now visited other) = relay.refuses other := by
      simp only [settledRow]
      split_ifs <;> rfl
    rw [after, kept, Bool.false_and, Bool.false_and]

theorem refusedAhead_tick (relay : OutboxRelay) (connected : Bool) (now : Int) (batchSize : Nat)
    (rows : List OutboxRow) (keyed : (rows.map (·.id)).Nodup) (row : OutboxRow) :
    (refusedAhead relay [] (runOnce relay connected [] now batchSize rows).2 row).length =
      (refusedAhead relay [] rows row).length := by
  cases connected with
  | false => rfl
  | true =>
      rw [runOnce_rows relay [] now batchSize rows keyed]
      simp only [refusedAhead, Pages.ahead, List.filter_filter, ← List.countP_eq_length_filter,
        List.countP_map]
      refine List.countP_congr fun other _ => ?_
      rw [Function.comp_apply, refused_settledRow]

theorem refusedAhead_append (relay : OutboxRelay) (rows : List OutboxRow) (row fresh : OutboxRow) :
    (refusedAhead relay [] rows row).length ≤
      (refusedAhead relay [] (rows ++ [fresh]) row).length := by
  rw [refusedAhead, refusedAhead, Pages.ahead, Pages.ahead, List.filter_append, List.filter_append,
    List.length_append]
  exact Nat.le_add_right _ _

theorem unvisited_kept (relay : OutboxRelay) (held : List Nat) (now : Int) (batchSize : Nat)
    (rows : List OutboxRow) (keyed : (rows.map (·.id)).Nodup) (row : OutboxRow)
    (listed : row ∈ rows)
    (unvisited : row ∉ visitedRows relay held batchSize rows) :
    row ∈ (runOnce relay true held now batchSize rows).2 := by
  rw [runOnce_rows relay held now batchSize rows keyed]
  exact List.mem_map.mpr ⟨row, listed, if_neg unvisited⟩

theorem isPublished_iff_of_listed (rows : List OutboxRow) (keyed : (rows.map (·.id)).Nodup)
    (row : OutboxRow) (listed : row ∈ rows) :
    isPublished rows row.id = row.publishedAt.isSome := by
  rw [isPublished, Bool.eq_iff_iff, List.any_eq_true]
  constructor
  · rintro ⟨other, memOther, published⟩
    rw [Bool.and_eq_true, beq_iff_eq] at published
    obtain rfl := Tables.eq_of_key (·.id) rows other row keyed memOther listed published.1
    exact published.2
  · intro published
    exact ⟨row, listed, by simp [published]⟩

/-- Enough refused rows before a row keep it from being published, whatever is written meanwhile. -/
theorem blocked_run (relay : OutboxRelay) (batchSize : Nat) (row : OutboxRow)
    (isAccepted : accepted relay [] row = true) (events : List Event) (rows : List OutboxRow)
    (keyed : (rows.map (·.id)).Nodup) (listed : row ∈ rows)
    (blocked : ¬ Reachable relay [] batchSize rows row) :
    isPublished (outboxAfter relay batchSize rows events) row.id = false := by
  have waiting := (Bool.and_eq_true_iff.mp isAccepted).1
  induction events generalizing rows with
  | nil =>
      rw [outboxAfter, List.foldl_nil, isPublished_iff_of_listed rows keyed row listed]
      simp only [waits, Bool.and_eq_true, Option.isNone_iff_eq_none] at waiting
      rw [waiting.1.1]
      rfl
  | cons event rest ih =>
      refine ih (step relay batchSize rows event) (step_keyed relay batchSize rows event keyed) ?_
        ?_
      · cases event with
        | tick connected now =>
            cases connected with
            | false => exact listed
            | true =>
                refine unvisited_kept relay [] now batchSize rows keyed row listed fun visited => ?_
                have both := (mem_visitedRows_iff relay [] batchSize rows keyed row listed
                  waiting).mp visited
                have within := length_refusedAhead_le relay [] rows row
                rw [Reachable] at blocked
                omega
        | append fresh =>
            rw [step]
            split
            · exact listed
            · exact List.mem_append_left _ listed
      · rw [Reachable] at blocked ⊢
        cases event with
        | tick connected now =>
            rw [step, refusedAhead_tick relay connected now batchSize rows keyed row]
            exact blocked
        | append fresh =>
            rw [step]
            split
            · exact blocked
            · have more := refusedAhead_append relay rows row fresh
              omega

theorem settledRow_published (relay : OutboxRelay) (held : List Nat) (now : Int) (batchSize : Nat)
    (rows : List OutboxRow) (row : OutboxRow) (published : row.publishedAt.isSome = true) :
    settledRow relay now (visitedRows relay held batchSize rows) row = row := by
  refine if_neg fun visited => ?_
  have unpublished := (mem_lockedRows ((reached_sublist _ _ _).subset visited)).1
  rw [unpublished] at published
  cases published

theorem published_kept (relay : OutboxRelay) (batchSize : Nat) (id : Nat) (nows : List Int)
    (rows : List OutboxRow) (keyed : (rows.map (·.id)).Nodup)
    (published : isPublished rows id = true) :
    isPublished (outboxAfter relay batchSize rows (nows.map (.tick true))) id = true := by
  induction nows generalizing rows with
  | nil => exact published
  | cons now rest ih =>
      refine ih _ (step_keyed relay batchSize rows (.tick true now) keyed) ?_
      obtain ⟨row, listed, both⟩ := List.any_eq_true.mp published
      obtain ⟨sameId, done⟩ := Bool.and_eq_true_iff.mp both
      rw [step, runOnce_rows relay [] now batchSize rows keyed]
      refine List.any_eq_true.mpr ⟨row, List.mem_map.mpr ⟨row, listed, ?_⟩, both⟩
      exact settledRow_published relay [] now batchSize rows row done

def remaining (relay : OutboxRelay) (rows : List OutboxRow) : Nat :=
  rows.countP (accepted relay [])

theorem accepted_of_settledRow (relay : OutboxRelay) (now : Int) (visited : List OutboxRow)
    (row : OutboxRow) (after : accepted relay [] (settledRow relay now visited row) = true) :
    accepted relay [] row = true := by
  rw [settledRow] at after
  split_ifs at after
  · simp [accepted, waits] at after
  · exact after
  · exact after
  · exact after

/-- A tick that publishes a row leaves fewer to publish. -/
theorem remaining_lt (relay : OutboxRelay) (now : Int) (batchSize : Nat) (rows : List OutboxRow)
    (keyed : (rows.map (·.id)).Nodup) (row : OutboxRow)
    (visited : row ∈ visitedRows relay [] batchSize rows) (taken : relay.takes row = true) :
    remaining relay (runOnce relay true [] now batchSize rows).2 < remaining relay rows := by
  obtain ⟨listed, isAccepted⟩ := visitedRows_taken relay [] batchSize rows row visited taken
  rw [runOnce_rows relay [] now batchSize rows keyed, remaining, remaining, List.countP_map]
  generalize visitedRows relay [] batchSize rows = seen at visited
  have gone : accepted relay [] (settledRow relay now seen row) = false := by
    simp [settledRow, visited, taken, accepted, waits]
  clear keyed
  induction rows with
  | nil => cases listed
  | cons head tail ih =>
      have fewer : tail.countP (accepted relay [] ∘ settledRow relay now seen) ≤
          tail.countP (accepted relay []) :=
        List.countP_mono_left fun other _ => accepted_of_settledRow relay now seen other
      rw [List.countP_cons, List.countP_cons]
      rcases List.mem_cons.mp listed with rfl | later
      · rw [Function.comp_apply, gone, isAccepted]
        simp only [Bool.false_eq_true, if_false, if_true]
        omega
      · have rest := ih later
        by_cases still : accepted relay [] (settledRow relay now seen head) = true
        · rw [Function.comp_apply, if_pos still,
            if_pos (accepted_of_settledRow relay now seen head still)]
          omega
        · rw [Function.comp_apply, if_neg still]
          omega

/-- With fewer refused rows before it, a row is published within as many ticks as there are rows to
publish. -/
theorem reachable_run (relay : OutboxRelay) (batchSize : Nat) (row : OutboxRow)
    (isAccepted : accepted relay [] row = true) (nows : List Int) (rows : List OutboxRow)
    (keyed : (rows.map (·.id)).Nodup) (listed : row ∈ rows)
    (reachable : Reachable relay [] batchSize rows row)
    (enough : remaining relay rows ≤ nows.length) :
    isPublished (outboxAfter relay batchSize rows (nows.map (.tick true))) row.id = true := by
  induction nows generalizing rows with
  | nil =>
      have unsent : 0 < remaining relay rows := List.countP_pos_iff.mpr ⟨row, listed, isAccepted⟩
      rw [List.length_nil] at enough
      omega
  | cons now rest ih =>
      rw [List.map_cons, outboxAfter, List.foldl_cons]
      have keyedNext := step_keyed relay batchSize rows (.tick true now) keyed
      by_cases visited : row ∈ visitedRows relay [] batchSize rows
      · have published := (isPublished_tick_iff relay [] now batchSize rows keyed row listed
          isAccepted).mpr visited
        exact published_kept relay batchSize row.id rest _ keyedNext published
      · obtain ⟨first, firstVisited, taken⟩ := (visits_taken_iff relay [] batchSize rows keyed).mpr
          ⟨row, listed, isAccepted, reachable⟩
        have fewer := remaining_lt relay now batchSize rows keyed first firstVisited taken
        rw [List.length_cons] at enough
        refine ih _ keyedNext (unvisited_kept relay [] now batchSize rows keyed row listed visited)
          ?_ ?_
        · rw [Reachable, step, refusedAhead_tick relay true now batchSize rows keyed row]
          exact reachable
        · rw [step]
          omega

/-- A tick makes progress exactly when the queue takes a row with fewer refused rows before it than
end a tick or fill a batch.  A row is published, soon or at all, exactly when it is such a row. -/
theorem progress_exact (relay : OutboxRelay) (batchSize : Nat) (rows : List OutboxRow)
    (keyed : (rows.map (·.id)).Nodup) :
    (∀ held now, Progresses relay held now batchSize rows ↔
      ∃ row ∈ rows, accepted relay held row = true ∧ Reachable relay held batchSize rows row) ∧
    ∀ row ∈ rows, accepted relay [] row = true →
      ((∀ nows : List Int, rows.length ≤ nows.length →
          isPublished (outboxAfter relay batchSize rows (nows.map (.tick true))) row.id = true) ↔
        Reachable relay [] batchSize rows row) ∧
      ((∃ events, isPublished (outboxAfter relay batchSize rows events) row.id = true) ↔
        Reachable relay [] batchSize rows row) := by
  refine ⟨fun held now => progresses_iff relay held now batchSize rows keyed, ?_⟩
  intro row listed isAccepted
  have within : remaining relay rows ≤ rows.length := List.countP_le_length
  have soon : Reachable relay [] batchSize rows row → ∀ nows : List Int,
      rows.length ≤ nows.length →
      isPublished (outboxAfter relay batchSize rows (nows.map (.tick true))) row.id = true :=
    fun reachable nows enough =>
      reachable_run relay batchSize row isAccepted nows rows keyed listed reachable
        (within.trans enough)
  have ever : ∀ events, isPublished (outboxAfter relay batchSize rows events) row.id = true →
      Reachable relay [] batchSize rows row := by
    intro events published
    by_contra blocked
    rw [blocked_run relay batchSize row isAccepted events rows keyed listed blocked] at published
    cases published
  have ticks := List.length_replicate (n := rows.length) (a := (0 : Int))
  exact ⟨⟨fun always => ever _ (always _ ticks.ge), soon⟩,
    fun ⟨events, published⟩ => ever events published,
    fun reachable => ⟨_, soon reachable _ ticks.ge⟩⟩

/-! ### Three rows too large for Redis -/

def orderEvents : QueueSpec where
  name := "order-events"
  jobOptionsFor eventType attempts := if eventType = "order.paid" then some attempts else none

def boundedRelay : OutboxRelay where
  routes := [("order.placed", orderEvents), ("order.paid", orderEvents)]
  orderPaidAttempts := 8
  opened queue := queue == "order-events"
  add _ _ job _ _ :=
    if 8 < job.payload.length then .error "Protocol error: invalid bulk length" else .ok ()
  injectTraceContext header := header
  toISOString ms := toString ms

def orderRow (id : Nat) (payload : String) : OutboxRow where
  id := id
  aggregateType := "order"
  aggregateId := 300000
  eventType := "order.paid"
  payload := payload
  traceparent := none
  attempts := 0
  createdAt := 1000
  publishedAt := none

def backlogOf (large : Nat) : List OutboxRow :=
  (List.range large).map (fun place => orderRow (262144 + place) "[1,2,3,4,5]") ++
    [orderRow 262200 "[]"]

theorem large_rows_starve :
    ∃ row ∈ backlogOf 3, accepted boundedRelay [] row = true ∧
      ¬ Progresses boundedRelay [] 5000 100 (backlogOf 3) ∧
      (runOnce boundedRelay true [] 5000 100 (backlogOf 3)).2 = backlogOf 3 ∧
      ∀ events, isPublished (outboxAfter boundedRelay 100 (backlogOf 3) events) row.id = false := by
  have keyed : ((backlogOf 3).map (·.id)).Nodup := by decide +kernel
  have listed : orderRow 262200 "[]" ∈ backlogOf 3 := List.mem_append_right _ List.mem_cons_self
  refine ⟨_, listed, by decide +kernel, ?_, by decide +kernel, fun events => ?_⟩
  · rw [progresses_iff boundedRelay [] 5000 100 (backlogOf 3) keyed]
    decide +kernel
  · exact blocked_run boundedRelay 100 _ (by decide +kernel) events (backlogOf 3) keyed listed
      (by decide +kernel)

theorem progress_exact_behind_two :
    Progresses boundedRelay [] 5000 100 (backlogOf 2) ∧
      isPublished (outboxAfter boundedRelay 100 (backlogOf 2)
        ([5000, 6000, 7000].map (.tick true))) 262200 = true := by
  have keyed : ((backlogOf 2).map (·.id)).Nodup := by decide +kernel
  have listed : orderRow 262200 "[]" ∈ backlogOf 2 := List.mem_append_right _ List.mem_cons_self
  obtain ⟨ticks, runs⟩ := progress_exact boundedRelay 100 (backlogOf 2) keyed
  exact ⟨(ticks [] 5000).mpr ⟨_, listed, by decide +kernel, by decide +kernel⟩,
    (runs _ listed (by decide +kernel)).1.mpr (by decide +kernel) [5000, 6000, 7000] (by decide)⟩

end Commerce.Messaging.Relay
