import Mathlib.Data.List.Sort
import Commerce.Lib.JsonValues

/-!
# The hash of a request

A request's body is hashed as JSON whose keys are sorted at every depth, so that
a retry with its fields in another order has the hash of the first try.  The
sorted copy is made by assignments, and an assignment to `__proto__` sets the
prototype of the copy instead of a member.
-/

set_option autoImplicit false

namespace Commerce.Orders

open JsonText

universe u v

section Copy

variable {β : Type u} {γ : Type v}

def protoKey : Text := ascii "__proto__"

/-- The integer keys come first among an object's own keys, in ascending order. -/
def arrayIndex? (key : Text) : Option Nat :=
  let index := key.foldl (fun index unit => index * 10 + (unit.val - 0x30)) 0
  if key ≠ [] ∧ key.all isDigitUnit ∧ (key.head? ≠ some 0x30 ∨ key.length = 1) ∧
      index < 4294967295 then
    some index
  else none

/-- `acc[key] = value` on an object made by `{}`, by the own keys of `acc` in their order. -/
def assign (acc : List (Text × β)) (key : Text) (value : β) : List (Text × β) :=
  if key = protoKey then acc
  else if acc.any fun member => member.1 == key then
    acc.map fun member => if member.1 = key then (key, value) else member
  else
    match arrayIndex? key with
    | none => acc ++ [(key, value)]
    | some index =>
        let lower (member : Text × β) : Bool :=
          (arrayIndex? member.1).any fun other => other < index
        acc.takeWhile lower ++ (key, value) :: acc.dropWhile lower

/-- The order of `Object.keys(source).sort()`: by code units. -/
def KeyOrder (first second : Text × β) : Prop := first.1 ≤ second.1

instance : DecidableRel (KeyOrder (β := β)) := fun first second =>
  inferInstanceAs (Decidable (first.1 ≤ second.1))

instance : Std.Total (KeyOrder (β := β)) := ⟨fun first second => le_total first.1 second.1⟩

instance : IsTrans (Text × β) KeyOrder := ⟨fun _ _ _ first second => le_trans first second⟩

def copySorted (members : List (Text × β)) : List (Text × β) :=
  (members.insertionSort KeyOrder).foldl (fun acc member => assign acc member.1 member.2) []

example : (copySorted [(ascii "10", 1), (ascii "b", 2), (ascii "9", 3)]).map Prod.fst =
    [ascii "9", ascii "10", ascii "b"] := by
  decide +kernel

end Copy

mutual

def sortDeep : Json → Json
  | .array items => .array (sortItems items)
  | .object members => .object (copySorted (sortMembers members))
  | value => value

def sortItems : List Json → List Json
  | [] => []
  | item :: items => sortDeep item :: sortItems items

def sortMembers : List (Text × Json) → List (Text × Json)
  | [] => []
  | (key, value) :: members => (key, sortDeep value) :: sortMembers members

end

def canonicalJson (value : Json) : Text := (sortDeep value).print

/-- A missing body is hashed as `null`. -/
def computeRequestHash (sha256Hex : Text → Text) (method path scope : Text)
    (body : Option Json) : Text :=
  let bar : Text := ascii "|"
  sha256Hex (method ++ bar ++ path ++ bar ++ scope ++ bar ++ canonicalJson (body.getD .null))

/-! ## The copy -/

section Copy

variable {β : Type u} {γ : Type v}

def assignable (members : List (Text × β)) : List (Text × β) :=
  members.filter fun member => decide (member.1 ≠ protoKey)

theorem assign_proto (acc : List (Text × β)) (value : β) : assign acc protoKey value = acc := by
  rw [assign, if_pos rfl]

theorem assign_perm (acc : List (Text × β)) (key : Text) (value : β) (settable : key ≠ protoKey)
    (fresh : key ∉ acc.map Prod.fst) : (assign acc key value).Perm ((key, value) :: acc) := by
  have absent : ¬ (acc.any fun member => member.1 == key) = true := by
    intro present
    obtain ⟨member, listed, same⟩ := List.any_eq_true.mp present
    exact fresh (List.mem_map.mpr ⟨member, listed, by simpa using same⟩)
  rw [assign, if_neg settable, if_neg absent]
  split
  · exact List.perm_append_singleton _ _
  · refine List.perm_middle.trans (List.Perm.cons _ ?_)
    rw [List.takeWhile_append_dropWhile]

theorem assign_map (change : β → γ) (acc : List (Text × β)) (key : Text) (value : β) :
    assign (acc.map (Prod.map id change)) key (change value) =
      (assign acc key value).map (Prod.map id change) := by
  have keys : ((acc.map (Prod.map id change)).any fun member => member.1 == key) =
      acc.any fun member => member.1 == key := by
    rw [List.any_map]
    rfl
  simp only [assign, keys]
  split
  · rfl
  · split
    · rw [List.map_map, List.map_map]
      refine List.map_congr_left fun member _ => ?_
      simp only [Function.comp, Prod.map_fst, id]
      split <;> rfl
    · split
      · rw [List.map_append]
        rfl
      · rw [List.takeWhile_map, List.dropWhile_map, List.map_append, List.map_cons]
        rfl

theorem copy_perm (members acc : List (Text × β))
    (distinct : ((acc ++ members).map Prod.fst).Nodup) :
    (members.foldl (fun acc member => assign acc member.1 member.2) acc).Perm
      (acc ++ assignable members) := by
  induction members generalizing acc with
  | nil => simp [assignable]
  | cons member members ih =>
      obtain ⟨key, value⟩ := member
      simp only [List.foldl_cons]
      by_cases proto : key = protoKey
      · subst proto
        rw [assign_proto]
        have fewer : ((acc ++ members).map Prod.fst).Nodup := by
          refine distinct.sublist (List.Sublist.map _ ?_)
          exact List.Sublist.append_left (List.sublist_cons_self _ _) acc
        refine (ih acc fewer).trans ?_
        simp [assignable]
      · have fresh : key ∉ acc.map Prod.fst := by
          intro present
          rw [List.map_append, List.nodup_append] at distinct
          exact distinct.2.2 key present key (by simp) rfl
        have placed := assign_perm acc key value proto fresh
        have moved : (assign acc key value ++ members).Perm (acc ++ (key, value) :: members) :=
          (placed.append_right members).trans List.perm_middle.symm
        have still := (moved.map Prod.fst).nodup_iff.mpr distinct
        refine (ih _ still).trans ((placed.append_right _).trans ?_)
        have kept : assignable ((key, value) :: members) = (key, value) :: assignable members := by
          simp [assignable, proto]
        rw [kept]
        exact List.perm_middle.symm

theorem copySorted_perm (members : List (Text × β)) (distinct : (members.map Prod.fst).Nodup) :
    (copySorted members).Perm (assignable members) := by
  have sorted := List.perm_insertionSort KeyOrder members
  have nodup := (sorted.map Prod.fst).nodup_iff.mpr distinct
  exact (copy_perm _ [] nodup).trans (sorted.filter _)

theorem copySorted_map (change : β → γ) (members : List (Text × β)) :
    copySorted (members.map (Prod.map id change)) =
      (copySorted members).map (Prod.map id change) := by
  have fold (members acc : List (Text × β)) :
      (members.map (Prod.map id change)).foldl (fun acc member => assign acc member.1 member.2)
          (acc.map (Prod.map id change)) =
        (members.foldl (fun acc member => assign acc member.1 member.2) acc).map
          (Prod.map id change) := by
    induction members generalizing acc with
    | nil => rfl
    | cons member members ih =>
        simp only [List.map_cons, List.foldl_cons, Prod.map_fst, Prod.map_snd, id, assign_map, ih]
  have sorted := List.map_insertionSort KeyOrder KeyOrder (Prod.map id change) members
    fun first _ second _ => Iff.rfl
  rw [copySorted, ← sorted]
  exact fold _ []

/-- The copy is made of the members that can be assigned alone. -/
theorem copy_assignable (members acc : List (Text × β)) :
    (assignable members).foldl (fun acc member => assign acc member.1 member.2) acc =
      members.foldl (fun acc member => assign acc member.1 member.2) acc := by
  induction members generalizing acc with
  | nil => rfl
  | cons member members ih =>
      by_cases proto : member.1 = protoKey
      · have dropped : assignable (member :: members) = assignable members := by
          simp [assignable, proto]
        rw [dropped, ih, List.foldl_cons, proto, assign_proto]
      · have kept : assignable (member :: members) = member :: assignable members := by
          simp [assignable, proto]
        rw [kept, List.foldl_cons, List.foldl_cons, ih]

/-- Which members can be assigned decides the copy, not their order. -/
theorem copySorted_congr (members others : List (Text × β))
    (distinct : (members.map Prod.fst).Nodup)
    (same : (assignable members).Perm (assignable others)) :
    copySorted members = copySorted others := by
  have sorted (members : List (Text × β)) :
      (assignable (members.insertionSort KeyOrder)).Pairwise KeyOrder :=
    (List.pairwise_insertionSort KeyOrder members).filter _
  have perm (members : List (Text × β)) :
      (assignable (members.insertionSort KeyOrder)).Perm (assignable members) :=
    (List.perm_insertionSort KeyOrder members).filter _
  have joined : (assignable (members.insertionSort KeyOrder)).Perm
      (assignable (others.insertionSort KeyOrder)) :=
    (perm members).trans (same.trans (perm others).symm)
  have keys : ((assignable (members.insertionSort KeyOrder)).map Prod.fst).Nodup := by
    refine ((perm members).map Prod.fst).nodup_iff.mpr (distinct.sublist ?_)
    exact List.filter_sublist.map _
  have antisymm : ∀ first second, first ∈ assignable (members.insertionSort KeyOrder) →
      second ∈ assignable (others.insertionSort KeyOrder) → KeyOrder first second →
      KeyOrder second first → first = second := by
    intro first second listed found low high
    exact List.inj_on_of_nodup_map keys listed (joined.mem_iff.mpr found) (le_antisymm low high)
  have equal := joined.eq_of_pairwise antisymm (sorted members) (sorted others)
  rw [copySorted, copySorted, ← copy_assignable, equal, copy_assignable]

end Copy

/-! ## What the canonical text keeps -/

mutual

/-- A value without the members named `__proto__`, its infinite numbers read as `null`. -/
def kept : Json → Json
  | .number (.infinite _) => .null
  | .array items => .array (keptItems items)
  | .object members => .object (keptMembers members)
  | value => value

def keptItems : List Json → List Json
  | [] => []
  | item :: items => kept item :: keptItems items

def keptMembers : List (Text × Json) → List (Text × Json)
  | [] => []
  | (key, value) :: members =>
      if key = protoKey then keptMembers members else (key, kept value) :: keptMembers members

end

def form (value : Json) : Json := (sortDeep value).plain

theorem sortMembers_eq (members : List (Text × Json)) :
    sortMembers members = members.map (Prod.map id sortDeep) := by
  induction members with
  | nil => rfl
  | cons member members ih =>
      rw [sortMembers, ih]
      rfl

theorem keptMembers_eq (members : List (Text × Json)) :
    keptMembers members = (assignable members).map (Prod.map id kept) := by
  induction members with
  | nil => rfl
  | cons member members ih =>
      obtain ⟨key, value⟩ := member
      rw [keptMembers]
      split
      · rename_i proto
        rw [ih]
        simp [assignable, proto]
      · rename_i settable
        rw [ih]
        simp [assignable, settable]

theorem form_object (members : List (Text × Json)) :
    form (.object members) = .object (copySorted (members.map (Prod.map id form))) := by
  rw [form, sortDeep, Json.plain, plainMembers_eq, sortMembers_eq, ← copySorted_map, List.map_map]
  rfl

theorem assignable_map {β : Type u} {γ : Type v} (change : β → γ) (members : List (Text × β)) :
    assignable (members.map (Prod.map id change)) =
      (assignable members).map (Prod.map id change) := by
  rw [assignable, List.filter_map]
  rfl

/-- The text is read one way, so equal texts are equal forms. -/
theorem canonicalJson_eq_iff (first second : Json) :
    canonicalJson first = canonicalJson second ↔ form first = form second := by
  constructor
  · intro same
    have ends : Follows [] := by
      intro unit member
      cases member
    have read := Json.print_append_inj (sortDeep first) (sortDeep second) [] [] ends ends
      (congrArg (· ++ []) same)
    exact read.1
  · intro same
    rw [canonicalJson, canonicalJson, ← Json.print_plain, ← Json.print_plain (sortDeep second)]
    exact congrArg Json.print same

theorem others_split (target : List (Text × Json)) (key : Text)
    (others before after : List (Text × Json)) (other : Json) (well : WellFormedMembers others)
    (split : others = before ++ (key, other) :: after) :
    (target.Perm (others.map (Prod.map id form)) ↔
        target.Perm ((key, form other) :: (before ++ after).map (Prod.map id form))) ∧
      other.WellFormed ∧ WellFormedMembers (before ++ after) := by
  rw [wellFormedMembers_iff] at well ⊢
  rw [split] at well ⊢
  refine ⟨?_, well (key, other) (by simp), fun member listed => ?_⟩
  · rw [List.map_append, List.map_cons, List.map_append]
    exact ⟨fun perm => perm.trans List.perm_middle, fun perm => perm.trans List.perm_middle.symm⟩
  · refine well member ?_
    rcases List.mem_append.mp listed with early | late
    · exact List.mem_append_left _ early
    · exact List.mem_append_right _ (List.mem_cons_of_mem _ late)

mutual

/-- The forms are equal exactly when what is kept is the same up to the order of the keys. -/
theorem form_eq_iff : ∀ (first second : Json), first.WellFormed → second.WellFormed →
    (form first = form second ↔ (kept first).Same (kept second))
  | .null, second, _, _ => by
      cases second with
      | number other => cases other <;> simp [form, sortDeep, Json.plain, kept, Json.Same]
      | _ => simp [form, sortDeep, Json.plain, kept, Json.Same]
  | .bool value, second, _, _ => by
      cases second with
      | number other => cases other <;> simp [form, sortDeep, Json.plain, kept, Json.Same]
      | _ => simp [form, sortDeep, Json.plain, kept, Json.Same]
  | .number value, second, _, _ => by
      cases value <;> cases second with
      | number other =>
          cases other <;> simp [form, sortDeep, Json.plain, kept, Json.Same, Number.plain]
      | _ => simp [form, sortDeep, Json.plain, kept, Json.Same]
  | .string value, second, _, _ => by
      cases second with
      | number other => cases other <;> simp [form, sortDeep, Json.plain, kept, Json.Same]
      | _ => simp [form, sortDeep, Json.plain, kept, Json.Same]
  | .array items, second, well, otherWell => by
      cases second with
      | number other => cases other <;> simp [form, sortDeep, Json.plain, kept, Json.Same]
      | array others =>
          rw [Json.WellFormed] at well otherWell
          have each := formItems_eq_iff items others well otherWell
          simpa only [form, sortDeep, Json.plain, kept, Json.Same, Json.array.injEq] using each
      | _ => simp [form, sortDeep, Json.plain, kept, Json.Same]
  | .object members, second, well, otherWell => by
      cases second with
      | number other => cases other <;> simp [form, sortDeep, Json.plain, kept, Json.Same]
      | object others =>
          rw [Json.WellFormed] at well otherWell
          have wellOthers : WellFormedMembers (assignable others) := by
            rw [wellFormedMembers_iff] at otherWell ⊢
            intro member listed
            exact otherWell.2 member (List.mem_of_mem_filter listed)
          have each := formMembers_perm_iff members (assignable others) well.2 wellOthers
          rw [← keptMembers_eq] at each
          rw [form_object, form_object, kept, kept, Json.Same, Json.object.injEq, ← each,
            ← assignable_map]
          have keys (members : List (Text × Json)) :
              (members.map (Prod.map id form)).map Prod.fst = members.map Prod.fst := by
            rw [List.map_map]
            rfl
          constructor
          · intro same
            have one := copySorted_perm (members.map (Prod.map id form))
              (by rw [keys]; exact well.1)
            have two := copySorted_perm (others.map (Prod.map id form))
              (by rw [keys]; exact otherWell.1)
            rw [same] at one
            exact one.symm.trans two
          · exact copySorted_congr _ _ (by rw [keys]; exact well.1)
      | _ => simp [form, sortDeep, Json.plain, kept, Json.Same]

theorem formItems_eq_iff : ∀ (items others : List Json), WellFormedItems items →
    WellFormedItems others →
    (plainItems (sortItems items) = plainItems (sortItems others) ↔
      SameItems (keptItems items) (keptItems others))
  | [], others, _, _ => by
      cases others <;> simp [sortItems, plainItems, keptItems, SameItems]
  | item :: items, others, well, otherWell => by
      cases others with
      | nil => simp [sortItems, plainItems, keptItems, SameItems]
      | cons other others =>
          rw [WellFormedItems] at well otherWell
          have head := form_eq_iff item other well.1 otherWell.1
          have tail := formItems_eq_iff items others well.2 otherWell.2
          simp only [form] at head
          simp only [sortItems, plainItems, keptItems, SameItems, List.cons.injEq, head, tail]
          constructor
          · rintro ⟨same, rest⟩
            exact ⟨_, _, ⟨rfl, rfl⟩, same, rest⟩
          · rintro ⟨_, _, ⟨rfl, rfl⟩, same, rest⟩
            exact ⟨same, rest⟩

theorem formMembers_perm_iff : ∀ (members others : List (Text × Json)), WellFormedMembers members →
    WellFormedMembers others →
    ((assignable (members.map (Prod.map id form))).Perm (others.map (Prod.map id form)) ↔
      SameMembers (keptMembers members) (others.map (Prod.map id kept)))
  | [], others, _, _ => by
      simp [assignable, keptMembers, SameMembers]
  | (key, value) :: members, others, well, otherWell => by
      rw [WellFormedMembers] at well
      rw [keptMembers]
      split
      · rename_i proto
        have dropped : assignable (((key, value) :: members).map (Prod.map id form)) =
            assignable (members.map (Prod.map id form)) := by
          simp [assignable, proto]
        rw [dropped]
        exact formMembers_perm_iff members others well.2 otherWell
      · rename_i settable
        have placed : assignable (((key, value) :: members).map (Prod.map id form)) =
            (key, form value) :: assignable (members.map (Prod.map id form)) := by
          simp [assignable, settable]
        rw [placed, SameMembers]
        constructor
        · intro perm
          have listed := perm.mem_iff.mp List.mem_cons_self
          obtain ⟨⟨found, other⟩, member, same⟩ := List.mem_map.mp listed
          obtain ⟨rfl, forms⟩ := Prod.mk.inj same
          obtain ⟨before, after, split⟩ := List.append_of_mem member
          obtain ⟨moved, wellOther, wellRest⟩ :=
            others_split _ _ others before after other otherWell split
          have behind := moved.mp perm
          rw [← show form other = form value from forms] at behind
          refine ⟨before.map (Prod.map id kept), kept other, after.map (Prod.map id kept), ?_, ?_,
            ?_⟩
          · rw [split, List.map_append]
            rfl
          · exact (form_eq_iff value other well.1 wellOther).mp forms.symm
          · rw [← List.map_append]
            exact (formMembers_perm_iff members (before ++ after) well.2 wellRest).mp
              behind.cons_inv
        · rintro ⟨before, other, after, split, same, rest⟩
          obtain ⟨front, behind, parts, rfl, cut⟩ := List.map_eq_append_iff.mp split
          obtain ⟨⟨found, source⟩, back, rfl, head, rfl⟩ := List.map_eq_cons_iff.mp cut
          obtain ⟨rfl, rfl⟩ := Prod.mk.inj head
          obtain ⟨moved, wellOther, wellRest⟩ :=
            others_split _ _ others front back source otherWell parts
          refine moved.mpr ?_
          rw [(form_eq_iff value source well.1 wellOther).mpr same]
          rw [← List.map_append] at rest
          exact ((formMembers_perm_iff members (front ++ back) well.2 wellRest).mpr rest).cons _

end

mutual

theorem same_kept : ∀ (first second : Json), first.Same second → (kept first).Same (kept second)
  | .null, second, same => by
      cases second with
      | null => trivial
      | _ => simp [Json.Same] at same
  | .bool value, second, same => by
      cases second with
      | bool other => exact same
      | _ => simp [Json.Same] at same
  | .number value, second, same => by
      cases second with
      | number other =>
          cases value <;> cases other <;>
            simp_all [kept, Json.Same, Number.plain]
      | _ => simp [Json.Same] at same
  | .string value, second, same => by
      cases second with
      | string other => exact same
      | _ => simp [Json.Same] at same
  | .array items, second, same => by
      cases second with
      | array others => exact sameItems_kept items others same
      | _ => simp [Json.Same] at same
  | .object members, second, same => by
      cases second with
      | object others => exact sameMembers_kept members others same
      | _ => simp [Json.Same] at same

theorem sameItems_kept : ∀ (items others : List Json), SameItems items others →
    SameItems (keptItems items) (keptItems others)
  | [], others, same => by
      rw [SameItems] at same
      rw [same]
      rfl
  | item :: items, others, same => by
      rw [SameItems] at same
      obtain ⟨other, rest, rfl, head, tail⟩ := same
      rw [keptItems, keptItems, SameItems]
      exact ⟨_, _, rfl, same_kept item other head, sameItems_kept items rest tail⟩

theorem sameMembers_kept : ∀ (members others : List (Text × Json)), SameMembers members others →
    SameMembers (keptMembers members) (keptMembers others)
  | [], others, same => by
      rw [SameMembers] at same
      rw [same]
      rfl
  | (key, value) :: members, others, same => by
      rw [SameMembers] at same
      obtain ⟨before, other, after, rfl, head, tail⟩ := same
      have rest := sameMembers_kept members (before ++ after) tail
      simp only [keptMembers_eq (before ++ _), assignable, List.filter_append, List.map_append]
        at rest ⊢
      rw [keptMembers]
      split
      · rename_i proto
        rw [List.filter_cons_of_neg (by simp [proto])]
        exact rest
      · rename_i settable
        rw [List.filter_cons_of_pos (by simp [settable]), SameMembers]
        exact ⟨_, kept other, _, rfl, same_kept value other head, rest⟩

end

/-- A retry that reorders fields keeps its hash. -/
theorem computeRequestHash_of_same (sha256Hex : Text → Text) (method path scope : Text)
    (first second : Json) (firstWell : first.WellFormed) (secondWell : second.WellFormed)
    (same : first.Same second) :
    computeRequestHash sha256Hex method path scope (some first) =
      computeRequestHash sha256Hex method path scope (some second) := by
  have forms := (form_eq_iff first second firstWell secondWell).mpr (same_kept first second same)
  have texts := (canonicalJson_eq_iff first second).mpr forms
  rw [computeRequestHash, computeRequestHash, Option.getD_some, Option.getD_some, texts]

/-- Two values told apart by nothing but members named `__proto__` and infinite numbers. -/
def DifferInDropped (first second : Json) : Prop :=
  (kept first).Same (kept second) ∧ ¬ first.Same second

/-- Canonical texts are equal exactly when the values are, up to the order of their keys, but for
values that differ in nothing the copy and the text keep. -/
theorem canonicalJson_exact (first second : Json) (firstWell : first.WellFormed)
    (secondWell : second.WellFormed) :
    (canonicalJson first = canonicalJson second ↔ first.Same second) ↔
      ¬ DifferInDropped first second := by
  have texts : canonicalJson first = canonicalJson second ↔ (kept first).Same (kept second) :=
    (canonicalJson_eq_iff first second).trans (form_eq_iff first second firstWell secondWell)
  rw [texts, DifferInDropped, not_and_not_right]
  exact ⟨fun exact' => exact'.mp, fun apart => ⟨apart, same_kept first second⟩⟩

def digitNumber (digit : Fin 10) (nonzero : some digit ≠ some 0) : Json :=
  .number (.finite false
    { digits := [digit], point := 1, present := by simp, leads := nonzero, ends := nonzero })

def swappedBody : Json :=
  .object [(ascii "b", .array [digitNumber 2 (by decide)]), (ascii "a", digitNumber 1 (by decide))]

def orderedBody : Json :=
  .object [(ascii "a", digitNumber 1 (by decide)), (ascii "b", .array [digitNumber 2 (by decide)])]

theorem swappedBody_same : swappedBody.Same orderedBody :=
  ⟨[(ascii "a", digitNumber 1 (by decide))], .array [digitNumber 2 (by decide)], [], rfl,
    ⟨_, [], rfl, rfl, rfl⟩, [], digitNumber 1 (by decide), [], rfl, rfl, rfl⟩

theorem canonicalJson_exact_swapped :
    canonicalJson swappedBody = canonicalJson orderedBody ∧
      canonicalJson swappedBody = ascii "\x7b\"a\":1,\"b\":[2]\x7d" := by
  have exact' := canonicalJson_exact swappedBody orderedBody
    ⟨by decide, ⟨trivial, trivial⟩, trivial, trivial⟩
    ⟨by decide, trivial, ⟨trivial, trivial⟩, trivial⟩
  exact ⟨(exact'.mpr fun differ => differ.2 swappedBody_same).mpr swappedBody_same,
    by decide +kernel⟩

def protoBody : Json := .object [(protoKey, digitNumber 1 (by decide))]

/-- `JSON.parse` of a body with a member named `__proto__` has the text of the empty body. -/
theorem proto_member_collides :
    protoBody.WellFormed ∧ canonicalJson protoBody = canonicalJson (.object []) ∧
      ¬ protoBody.Same (.object []) := by
  refine ⟨⟨by decide, trivial, trivial⟩, by decide +kernel, ?_⟩
  rintro ⟨before, other, after, split, -⟩
  simp at split

end Commerce.Orders
