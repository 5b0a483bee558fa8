import Mathlib.Algebra.Group.Action.Defs
import Mathlib.Algebra.Order.BigOperators.Group.Finset
import Mathlib.Data.Nat.SuccPred
import MessageMachine.Proofs.FieldAccess

/-!
# Chains of shapes

A class is given a new shape only when a field is written a value that its storage does not accept.
Such a generalization is a strict step: an unwritten field is specialized, or a specialized one
turns into a reference.  Each field takes at most two of these steps and a field in the overflow
takes none, so that the number of shapes that a class goes through is bounded by the number of its
inline fields.

The shapes of all classes share one arena, in which they are told apart by their owner.  The shapes
with one owner are linked by their successors in the order of their versions, and the last one is
the current shape of the class.
-/

namespace MessageMachine

namespace Storage

/-- The strict steps that the storage of a field can take. -/
inductive Step : Storage → Storage → Prop
  | specializeInteger : Step .unwritten .integer
  | specializeDouble : Step .unwritten .double
  | specializeReference : Step .unwritten .reference
  | generalizeInteger : Step .integer .reference
  | generalizeDouble : Step .double .reference

/-- A storage that does not accept a value takes a strict step for it. -/
theorem step_generalize {storage : Storage} {index : Nat} {value : Value}
    (suits : storage.Suits index) (rejected : storage.accepts value = false) :
    storage.Step (storage.generalize index value) := by
  cases storage with
  | unwritten =>
      have inside : ¬ inlineFields ≤ index := fun outside => by cases suits.mpr outside
      unfold generalize forValue
      rw [if_neg inside]
      cases value with
      | integer number => exact .specializeInteger
      | double number => exact .specializeDouble
      | _ => exact .specializeReference
  | integer => exact .generalizeInteger
  | double => exact .generalizeDouble
  | reference | overflow => cases rejected

/-- How many steps a storage is away from where it started, at most. -/
def rank : Storage → Nat
  | .unwritten => 0
  | .integer => 1
  | .double => 1
  | .reference => 2
  | .overflow => 0

theorem rank_le (storage : Storage) : storage.rank ≤ 2 := by
  cases storage <;> decide

theorem Step.rank_lt {before after : Storage} (step : before.Step after) :
    before.rank < after.rank := by
  cases step <;> decide

theorem Step.ne_overflow {before after : Storage} (step : before.Step after) :
    before ≠ .overflow := by
  cases step <;> decide

end Storage

namespace Shape

/-- One shape follows another one if the storage of exactly one field differs, by a strict step. -/
def Follows (older newer : Shape) : Prop :=
  ∃ (index : Nat) (before after : Storage), older.storages[index]? = some before ∧
    newer.storages[index]? = some after ∧ before.Step after ∧
      ∀ other : Nat, other ≠ index → newer.storages[other]? = older.storages[other]?

/-- The rank of a field in a shape. -/
def rankAt (shape : Shape) (index : Nat) : Nat :=
  (shape.storages[index]?.map Storage.rank).getD 0

/-- The sum of the ranks of the first fields. -/
def rank (shape : Shape) (count : Nat) : Nat :=
  ∑ index ∈ Finset.range count, shape.rankAt index

theorem rank_le (shape : Shape) (count : Nat) : shape.rank count ≤ 2 * count := by
  have each : ∀ index ∈ Finset.range count, shape.rankAt index ≤ 2 := by
    intro index _
    unfold rankAt
    cases shape.storages[index]? with
    | none => exact Nat.zero_le 2
    | some storage => exact storage.rank_le
  calc
    shape.rank count ≤ (Finset.range count).card • 2 := Finset.sum_le_card_nsmul _ _ 2 each
    _ = 2 * count := by rw [Finset.card_range, smul_eq_mul, Nat.mul_comm]

/-- A shape that follows another one has a higher rank, since overflowing fields take no steps. -/
theorem Follows.rank_lt {older newer : Shape} (follows : older.Follows newer)
    (suits : ∀ (index : Nat) storage, older.storages[index]? = some storage →
      storage.Suits index) :
    older.rank (min older.storages.size inlineFields) <
      newer.rank (min older.storages.size inlineFields) := by
  obtain ⟨index, before, after, had, has, step, others⟩ := follows
  have inside := (Array.getElem?_eq_some_iff.mp had).1
  have inline : index < inlineFields := by
    by_contra outside
    exact step.ne_overflow ((suits index before had).mpr (Nat.le_of_not_lt outside))
  refine Finset.sum_lt_sum (fun other _ => ?_) ⟨index, ?_, ?_⟩
  · by_cases same : other = index
    · subst same
      simp only [rankAt, had, has, Option.map_some, Option.getD_some]
      exact Nat.le_of_lt step.rank_lt
    · simp only [rankAt, others other same, Nat.le_refl]
  · exact Finset.mem_range.mpr (Nat.lt_min.mpr ⟨inside, inline⟩)
  · simp only [rankAt, had, has, Option.map_some, Option.getD_some]
    exact step.rank_lt

/-- Storing one field in a stricter way makes the next shape. -/
theorem follows_derive {shape : Shape} {id : ShapeRef} {index : Nat} {before after : Storage}
    (had : shape.storages[index]? = some before) (step : before.Step after) :
    shape.Follows (shape.derive id index after) := by
  have inside := (Array.getElem?_eq_some_iff.mp had).1
  refine ⟨index, before, after, had, ?_, step, fun other different => ?_⟩
  · rw [storages_derive, Array.getElem?_setIfInBounds_self_of_lt inside]
  · rw [storages_derive, Array.getElem?_setIfInBounds_ne (Ne.symm different)]

end Shape

namespace Image

/-- The shapes of a class, from the first one to the current one. -/
structure Chain (image : Image) (ref : ClassRef) (chain : List ShapeRef) : Prop where
  /-- The chain holds the shapes that the class owns and no others. -/
  members : ∀ shape, shape ∈ chain ↔
    image.shapes.Has shape ∧ (image.shapeAt shape).owner = ref
  versions : ∀ place shape, chain[place]? = some shape →
    (image.shapeAt shape).version = place
  successors : ∀ place shape, chain[place]? = some shape →
    (image.shapeAt shape).successor = chain[place + 1]?
  current : chain.getLast? = some (image.classAt ref).shape
  /-- The locations of a shape are those of the fields in order, made out to that shape. -/
  stamped : ∀ shape ∈ chain, (image.shapeAt shape).Stamped shape
  widths : ∀ shape ∈ chain,
    (image.shapeAt shape).storages.size = (image.classAt ref).fields.length
  suits : ∀ shape ∈ chain, ∀ (index : Nat) storage,
    (image.shapeAt shape).storages[index]? = some storage → storage.Suits index
  follows : ∀ place older newer, chain[place]? = some older → chain[place + 1]? = some newer →
    (image.shapeAt older).Follows (image.shapeAt newer)

namespace Chain

variable {image before after : Image} {ref : ClassRef} {chain : List ShapeRef}

theorem current_mem (chained : image.Chain ref chain) : (image.classAt ref).shape ∈ chain :=
  List.mem_of_getLast? chained.current

/-- No shape occurs twice, since its version says where it stands. -/
theorem place_unique (chained : image.Chain ref chain) {place other : Nat} {shape : ShapeRef}
    (here : chain[place]? = some shape) (there : chain[other]? = some shape) : place = other :=
  (chained.versions place shape here).symm.trans (chained.versions other shape there)

/-- The version of the current shape tells how long the chain is. -/
theorem length_eq (chained : image.Chain ref chain) :
    chain.length = (image.shapeAt (image.classAt ref).shape).version + 1 := by
  have last := chained.current
  have nonempty := List.length_pos_of_mem chained.current_mem
  rw [List.getLast?_eq_getElem?] at last
  rw [chained.versions _ _ last]
  omega

/-- Every shape of the chain has a location for each field of the class and no others.  The location
carries the index of the field and the shape itself, and is in the overflow for the later fields. -/
theorem location? (chained : image.Chain ref chain) {shape : ShapeRef} (member : shape ∈ chain)
    (index : Nat) :
    (index < (image.classAt ref).fields.length ∧ ∃ storage,
      (image.shapeAt shape).location? index = some { storage, index, shape } ∧
        (storage = .overflow ↔ inlineFields ≤ index)) ∨
    ((image.classAt ref).fields.length ≤ index ∧
      (image.shapeAt shape).location? index = none) := by
  rw [← chained.widths shape member, (chained.stamped shape member).location?_eq]
  by_cases inside : index < (image.shapeAt shape).storages.size
  · have found := Array.getElem?_eq_getElem inside
    refine Or.inl ⟨inside, _, ?_, chained.suits shape member index _ found⟩
    rw [found]
    rfl
  · have outside := Nat.le_of_not_lt inside
    refine Or.inr ⟨outside, ?_⟩
    rw [Array.getElem?_eq_none outside]
    rfl

/-- The rank of a shape is at least its place in the chain. -/
theorem place_le_rank (chained : image.Chain ref chain) {place : Nat} {shape : ShapeRef}
    (found : chain[place]? = some shape) :
    place ≤ (image.shapeAt shape).rank (min (image.classAt ref).fields.length inlineFields) := by
  induction place generalizing shape with
  | zero => exact Nat.zero_le _
  | succ place inductionHypothesis =>
      have inside : place < chain.length :=
        Nat.lt_of_succ_lt (List.getElem?_eq_some_iff.mp found).1
      have older := List.getElem?_eq_getElem inside
      have member := List.mem_of_getElem? older
      have higher := (chained.follows place _ shape older found).rank_lt (chained.suits _ member)
      rw [chained.widths _ member] at higher
      exact Nat.lt_of_le_of_lt (inductionHypothesis older) higher

/-- A class goes through at most two shapes for each of its inline fields, after the first one. -/
theorem length_le (chained : image.Chain ref chain) :
    chain.length ≤ 2 * min (image.classAt ref).fields.length inlineFields + 1 := by
  have last := chained.current
  rw [List.getLast?_eq_getElem?] at last
  have high := (chained.place_le_rank last).trans (Shape.rank_le _ _)
  omega

/-- A change that leaves alone what the chain is made of. -/
theorem frame (chained : before.Chain ref chain)
    (members : ∀ shape, after.shapes.Has shape ∧ (after.shapeAt shape).owner = ref ↔
      before.shapes.Has shape ∧ (before.shapeAt shape).owner = ref)
    (kept : ∀ shape, before.shapes.Has shape → (before.shapeAt shape).owner = ref →
      after.shapeAt shape = before.shapeAt shape)
    (shape : (after.classAt ref).shape = (before.classAt ref).shape)
    (fields : (after.classAt ref).fields = (before.classAt ref).fields) :
    after.Chain ref chain := by
  have same : ∀ shape ∈ chain, after.shapeAt shape = before.shapeAt shape := fun shape member =>
    kept shape ((chained.members shape).mp member).1 ((chained.members shape).mp member).2
  exact {
    members := fun shape => (chained.members shape).trans (members shape).symm
    versions := fun place shape found => by
      rw [same shape (List.mem_of_getElem? found)]
      exact chained.versions place shape found
    successors := fun place shape found => by
      rw [same shape (List.mem_of_getElem? found)]
      exact chained.successors place shape found
    current := by
      rw [shape]
      exact chained.current
    stamped := fun shape member => by
      rw [same shape member]
      exact chained.stamped shape member
    widths := fun shape member => by
      rw [same shape member, fields]
      exact chained.widths shape member
    suits := fun shape member => by
      rw [same shape member]
      exact chained.suits shape member
    follows := fun place older newer foundOlder foundNewer => by
      rw [same older (List.mem_of_getElem? foundOlder),
        same newer (List.mem_of_getElem? foundNewer)]
      exact chained.follows place older newer foundOlder foundNewer }

end Chain

/-- A class whose only shape is its first one. -/
theorem Chain.single {image : Image} {ref : ClassRef} {first : ShapeRef}
    (members : ∀ shape, image.shapes.Has shape ∧ (image.shapeAt shape).owner = ref ↔
      shape = first)
    (version : (image.shapeAt first).version = 0)
    (successor : (image.shapeAt first).successor = none)
    (shaped : image.Shaped ref) (current : (image.classAt ref).shape = first) :
    image.Chain ref [first] := by
  have only : ∀ (place : Nat) shape, [first][place]? = some shape → place = 0 ∧ shape = first := by
    intro place shape found
    cases place with
    | zero => exact ⟨rfl, (Option.some.inj found).symm⟩
    | succ place => cases found
  subst current
  exact {
    members := fun shape => List.mem_singleton.trans (members shape).symm
    versions := fun place shape found => by
      obtain ⟨rfl, rfl⟩ := only place shape found
      exact version
    successors := fun place shape found => by
      obtain ⟨rfl, rfl⟩ := only place shape found
      exact successor
    current := rfl
    stamped := fun shape member => by
      cases List.mem_singleton.mp member
      exact shaped.stamped
    widths := fun shape member => by
      cases List.mem_singleton.mp member
      exact shaped.width
    suits := fun shape member => by
      cases List.mem_singleton.mp member
      exact shaped.suits
    follows := fun place older newer _ found => by
      cases (only (place + 1) newer found).1 }

namespace Chain

variable {image : Image} {ref : ClassRef} {chain : List ShapeRef} {index : Nat}
  {before storage : Storage}

/-- A place of a chain that was made longer is one that there was, or the end. -/
theorem place_cases {next : ShapeRef} {place : Nat} {shape : ShapeRef}
    (found : (chain ++ [next])[place]? = some shape) :
    chain[place]? = some shape ∨ place = chain.length ∧ shape = next := by
  rcases Nat.lt_trichotomy place chain.length with earlier | same | later
  · exact Or.inl ((List.getElem?_append_left earlier).symm.trans found)
  · rw [same, List.getElem?_concat_length] at found
    exact Or.inr ⟨same, (Option.some.inj found).symm⟩
  · rw [List.getElem?_eq_none (by simpa using later)] at found
    cases found

/-- A shape of a chain is still followed by what followed it when the class is given a new shape,
and the current one by the new one. -/
theorem successor_generalize (chained : image.Chain ref chain) {place : Nat} {shape : ShapeRef}
    (found : chain[place]? = some shape) :
    ((image.generalize ref index storage).shapeAt shape).successor =
      (chain ++ [image.shapes.next])[place + 1]? := by
  have has := ((chained.members shape).mp (List.mem_of_getElem? found)).1
  have within := (List.getElem?_eq_some_iff.mp found).1
  have last := chained.current
  rw [List.getLast?_eq_getElem?] at last
  rw [shapeAt_generalize, if_neg has.ne_next]
  by_cases replaced : shape = (image.classAt ref).shape
  · subst replaced
    have atLast := chained.place_unique found last
    rw [if_pos ⟨rfl, has⟩, show place + 1 = chain.length by omega, List.getElem?_concat_length]
  · have notLast : place ≠ chain.length - 1 := by
      rintro rfl
      exact replaced (Option.some.inj (found.symm.trans last))
    rw [if_neg (fun same => replaced same.1), chained.successors place shape found,
      List.getElem?_append_left (by omega)]

/-- Giving a class a new shape, by a strict step of one field, makes its chain longer by one. -/
theorem generalize (chained : image.Chain ref chain) (known : image.classes.Has ref)
    (had : (image.shapeAt (image.classAt ref).shape).storages[index]? = some before)
    (step : before.Step storage) (suits : storage.Suits index) :
    (image.generalize ref index storage).Chain ref (chain ++ [image.shapes.next]) := by
  have reshaped := image.reshaped_generalize ref index storage
  obtain ⟨hasCurrent, ownsCurrent⟩ := (chained.members _).mp chained.current_mem
  have inside := (Array.getElem?_eq_some_iff.mp had).1
  have last := chained.current
  rw [List.getLast?_eq_getElem?] at last
  have newest : (image.generalize ref index storage).shapeAt image.shapes.next =
      (image.shapeAt (image.classAt ref).shape).derive image.shapes.next index storage := by
    rw [shapeAt_generalize, if_pos rfl]
  have hasOld := fun shape member => ((chained.members shape).mp member).1
  have kept := fun shape member => reshaped.storages (hasOld shape member)
  exact {
    members := fun shape => by
      rw [List.mem_append, List.mem_singleton, has_generalize, chained.members]
      constructor
      · rintro (⟨has, owner⟩ | rfl)
        · exact ⟨Or.inl has, (reshaped.owner has).trans owner⟩
        · exact ⟨Or.inr rfl, by rw [newest]; exact ownsCurrent⟩
      · rintro ⟨has | new, owner⟩
        · exact Or.inl ⟨has, (reshaped.owner has).symm.trans owner⟩
        · exact Or.inr new
    versions := fun place shape found => by
      rcases place_cases found with old | ⟨rfl, rfl⟩
      · obtain ⟨successor, same⟩ := reshaped.older shape (hasOld shape (List.mem_of_getElem? old))
        rw [same]
        exact chained.versions place shape old
      · rw [newest, chained.length_eq]
        rfl
    successors := fun place shape found => by
      rcases place_cases found with old | ⟨rfl, rfl⟩
      · exact chained.successor_generalize old
      · rw [newest, List.getElem?_eq_none (by simp)]
        rfl
    current := by
      rw [List.getLast?_concat, reshaped.current known]
    stamped := fun shape member => by
      rcases List.mem_append.mp member with old | new
      · exact reshaped.stamped (hasOld shape old) (chained.stamped shape old)
      · cases List.mem_singleton.mp new
        exact reshaped.stampedNext (chained.stamped _ chained.current_mem)
    widths := fun shape member => by
      rw [reshaped.fields]
      rcases List.mem_append.mp member with old | new
      · rw [kept shape old]
        exact chained.widths shape old
      · cases List.mem_singleton.mp new
        rw [reshaped.storagesNext, Array.size_setIfInBounds]
        exact chained.widths _ chained.current_mem
    suits := fun shape member place stored found => by
      rcases List.mem_append.mp member with old | new
      · rw [kept shape old] at found
        exact chained.suits shape old place stored found
      · cases List.mem_singleton.mp new
        rw [reshaped.storagesNext] at found
        by_cases same : index = place
        · subst same
          rw [Array.getElem?_setIfInBounds_self_of_lt inside] at found
          cases found
          exact suits
        · rw [Array.getElem?_setIfInBounds_ne same] at found
          exact chained.suits _ chained.current_mem place stored found
    follows := fun place older newer foundOlder foundNewer => by
      rcases place_cases foundOlder with oldOlder | ⟨rfl, -⟩
      · have same := kept older (List.mem_of_getElem? oldOlder)
        rcases place_cases foundNewer with oldNewer | ⟨atEnd, rfl⟩
        · have sameToo := kept newer (List.mem_of_getElem? oldNewer)
          simpa only [Shape.Follows, same, sameToo] using
            chained.follows place older newer oldOlder oldNewer
        · have atLast : place = chain.length - 1 := by omega
          rw [atLast, last] at oldOlder
          cases oldOlder
          rw [newest]
          simpa only [Shape.Follows, same] using Shape.follows_derive had step
      · rw [List.getElem?_eq_none (by simp)] at foundNewer
        cases foundNewer }

end Chain

end Image

end MessageMachine
