import MessageMachine.Proofs.Persistence
import MessageMachine.Proofs.ShapeEvolution

/-!
# The storage of a field is a join

Instances of a class are written in any order, some of them laid out for shapes that were replaced
long ago, and by way of sites that remember where they wrote last.  None of this has a part in how
the class stores a field in the end.  Storages are ordered: unwritten below integer and double, and
these below reference.  What a value asks for is one of them, and the storage of a field is the
least one that is above everything the values written to it have asked for.

An action that writes raises the storage of one field of one class, the one that the instance
belongs to.  All other actions leave the storages of all classes as they are, and a class that is
registered starts with nothing written.
-/

namespace MessageMachine

namespace Storage

/-- How a field is stored once a value was written to it. -/
def admitting (storage : Storage) (index : Nat) (value : Value) : Storage :=
  if storage.accepts value then storage else storage.generalize index value

/-- Whether a storage inside an instance is the least one above some others. -/
structure IsJoin (kinds : List Storage) (join : Storage) : Prop where
  inside : join ≠ .overflow
  upper : ∀ kind ∈ kinds, kind.Widens join
  least : ∀ bound, bound ≠ .overflow → (∀ kind ∈ kinds, kind.Widens bound) → join.Widens bound

/-- Storages that turn into each other are the same. -/
theorem Widens.antisymm {first second : Storage} (forth : first.Widens second)
    (back : second.Widens first) : first = second := by
  cases first <;> cases second <;> simp_all [Widens]

/-- A wider storage goes on accepting what the narrower one does. -/
theorem Widens.accepts {before after : Storage} (widens : before.Widens after) {value : Value}
    (accepts : before.accepts value = true) : after.accepts value = true := by
  cases before with
  | unwritten => cases value <;> cases accepts
  | integer => rcases widens with rfl | rfl <;> cases value <;> first | rfl | cases accepts
  | double => rcases widens with rfl | rfl <;> cases value <;> first | rfl | cases accepts
  | reference => rw [show after = .reference from widens]; rfl
  | overflow => rw [show after = .overflow from widens]; rfl

namespace IsJoin

variable {kinds : List Storage} {join : Storage}

/-- There is one join only, and it depends on which storages there are, not on their order. -/
theorem unique {others : List Storage} {other : Storage} (isJoin : IsJoin kinds join)
    (isJoinToo : IsJoin others other) (same : ∀ kind, kind ∈ others ↔ kind ∈ kinds) :
    other = join :=
  Widens.antisymm
    (isJoinToo.least join isJoin.inside fun kind member =>
      isJoin.upper kind ((same kind).mp member))
    (isJoin.least other isJoinToo.inside fun kind member =>
      isJoinToo.upper kind ((same kind).mpr member))

/-- Before anything is written, nothing is the join of nothing. -/
theorem nil : IsJoin [] .unwritten where
  inside := nofun
  upper := nofun
  least := fun _ inside _ => inside

/-- What a field turns into for a value is the least storage above what it was and what the value
asks for. -/
theorem admitting_least {storage : Storage} {index : Nat} (inside : storage ≠ .overflow)
    (inline : index < inlineFields) (value : Value) :
    storage.admitting index value ≠ .overflow ∧ storage.Widens (storage.admitting index value) ∧
      (forValue index value).Widens (storage.admitting index value) ∧
      ∀ bound, storage.Widens bound → (forValue index value).Widens bound →
        (storage.admitting index value).Widens bound := by
  have early : ¬ inlineFields ≤ index := Nat.not_le_of_lt inline
  cases storage with
  | overflow => exact absurd rfl inside
  | _ =>
      cases value <;>
        simp +contextual [Storage.admitting, accepts, generalize, forValue, Widens, early]

theorem extend (isJoin : IsJoin kinds join) {index : Nat} (inline : index < inlineFields)
    (value : Value) :
    IsJoin (kinds ++ [forValue index value]) (join.admitting index value) := by
  obtain ⟨inside, wider, above, least⟩ := admitting_least isJoin.inside inline value
  refine {
    inside := inside
    upper := fun kind member => ?_
    least := fun bound boundInside bounds => ?_ }
  · rcases List.mem_append.mp member with old | new
    · exact (isJoin.upper kind old).trans wider
    · rw [List.mem_singleton.mp new]
      exact above
  · refine least bound (isJoin.least bound boundInside fun kind member => ?_) ?_
    · exact bounds kind (List.mem_append_left _ member)
    · exact bounds _ (List.mem_append_right _ (List.mem_singleton.mpr rfl))

end IsJoin

end Storage

namespace Image

/-- How a class stores a field at the moment. -/
def storageAt? (image : Image) (ref : ClassRef) (index : Nat) : Option Storage :=
  (image.shapeAt (image.classAt ref).shape).storages[index]?

/-- Whether all classes go on storing their fields as they do. -/
def SameStorages (before after : Image) : Prop :=
  ∀ ref, before.classes.Has ref → ∀ index, after.storageAt? ref index = before.storageAt? ref index

/-- Whether one field of one class has come to admit a value, and no other field of any class is
stored differently. -/
def Admits (before : Image) (owner : ClassRef) (index : Nat) (value : Value) (after : Image) :
    Prop :=
  ∀ ref, before.classes.Has ref → ∀ place, after.storageAt? ref place =
    if ref = owner ∧ place = index then
      (before.storageAt? ref place).map (·.admitting index value)
    else before.storageAt? ref place

variable {before between after image : Image}

theorem SameStorages.of_shape
    (shape : ∀ ref, (after.classAt ref).shape = (before.classAt ref).shape)
    (shapes : after.shapes = before.shapes) : before.SameStorages after := by
  intro ref _ index
  rw [storageAt?, shape, shapeAt, shapes]
  rfl

theorem SameStorages.of_eq (classes : after.classes = before.classes)
    (shapes : after.shapes = before.shapes) : before.SameStorages after :=
  .of_shape (fun ref => by rw [classAt, classes, ← classAt]) shapes

theorem SameStorages.trans_admits (earlier : before.SameStorages between)
    (count : between.classes.size = before.classes.size) {owner : ClassRef} {index : Nat}
    {value : Value} (later : between.Admits owner index value after) :
    before.Admits owner index value after := by
  intro ref known place
  rw [later ref (Nat.lt_of_lt_of_eq known count.symm) place, earlier ref known place]

/-- Where a value is admitted already, nothing changes. -/
theorem SameStorages.admits (same : before.SameStorages after) {owner : ClassRef} {index : Nat}
    {value : Value}
    (accepted : ∀ storage, before.storageAt? owner index = some storage →
      storage.accepts value = true) : before.Admits owner index value after := by
  intro ref known place
  rw [same ref known place]
  split
  · next changed =>
      obtain ⟨rfl, rfl⟩ := changed
      cases found : before.storageAt? ref place with
      | none => rfl
      | some storage =>
          rw [Option.map_some, Storage.admitting, if_pos (accepted storage found)]
  · rfl

/-- Giving a class a new shape changes how it stores one field. -/
theorem storageAt?_generalize (laid : image.Laid) {owner ref : ClassRef} (index : Nat)
    (storage : Storage) (known : image.classes.Has owner) (knownToo : image.classes.Has ref)
    (place : Nat) :
    (image.generalize owner index storage).storageAt? ref place =
      if ref = owner ∧ place = index then (image.storageAt? ref place).map fun _ => storage
      else image.storageAt? ref place := by
  have reshaped := image.reshaped_generalize owner index storage
  by_cases own : ref = owner
  · subst own
    rw [storageAt?, reshaped.current known, reshaped.storagesNext, Array.getElem?_setIfInBounds]
    by_cases same : place = index
    · subst same
      by_cases inside : place < (image.shapeAt (image.classAt ref).shape).storages.size
      · simp [storageAt?, inside]
      · simp [storageAt?, inside]
    · simp [storageAt?, same, Ne.symm same]
  · rw [if_neg fun same => own same.1]
    rcases reshaped.classes ref with same | ⟨contrary, -⟩
    · rw [storageAt?, same, reshaped.storages (laid.classes ref knownToo).known]
      rfl
    · exact absurd contrary own

/-- Bringing an instance up to date touches neither classes nor shapes. -/
theorem tables_revalidate (image : Image) (ref : ObjectRef) :
    (image.revalidate ref).classes = image.classes ∧
      (image.revalidate ref).shapes = image.shapes := by
  rcases image.revalidate_cases ref with ⟨-, same⟩ | ⟨-, journal, same⟩
  · rw [same]
    exact ⟨rfl, rfl⟩
  · rw [same]
    exact ⟨rfl, rfl⟩

theorem tables_writeLocated? {ref : ObjectRef} {index : Nat} {value : Value}
    {location : Location} (written : image.writeLocated? ref index value = some (location, after)) :
    after.classes = image.classes ∧ after.shapes = image.shapes := by
  unfold writeLocated? at written
  dsimp only at written
  split at written
  · cases written
  · split at written
    · cases written
      exact ⟨rfl, rfl⟩
    · cases written

/-- Where an instance is up to date, it is laid out the way its class stores its fields. -/
theorem storageAt?_owner {ref : ObjectRef}
    (current : (image.objectAt ref).shape = (image.classAt (image.objectAt ref).owner).shape)
    (index : Nat) :
    image.storageAt? (image.objectAt ref).owner index =
      (image.locate? (image.objectAt ref) index).map Location.storage := by
  rw [storageAt?, ← current, Shape.getElem?_storages]
  rfl

/-- A rejected value changes how the class stores the field, and whatever is done to the instance
afterwards changes nothing more. -/
theorem Laid.admits_generalize (laid : image.Laid) {owner : ClassRef} {index : Nat} {value : Value}
    {storage : Storage} (known : image.classes.Has owner)
    (stored : image.storageAt? owner index = some storage)
    (rejected : storage.accepts value = false)
    (same : (image.generalize owner index (storage.generalize index value)).SameStorages after) :
    image.Admits owner index value after := by
  intro ref knownToo place
  have present : (image.generalize owner index
      (storage.generalize index value)).classes.Has ref := by
    simp only [Arena.Has, (image.reshaped_generalize owner index _).classCount]
    exact knownToo
  rw [same ref present, storageAt?_generalize laid index _ known knownToo]
  split
  · next changed =>
      obtain ⟨rfl, rfl⟩ := changed
      rw [stored, Option.map_some, Option.map_some, Storage.admitting, if_neg (by simp [rejected])]
  · rfl

theorem Laid.admits_writeInstance (laid : image.Laid) {ref : ObjectRef}
    (known : image.heap.objects.Has ref) (index : Nat) (value : Value) :
    image.Admits (image.objectAt ref).owner index value
      (image.writeInstance ref index value).2 := by
  have updated := laid.revalidate known
  unfold Image.writeInstance
  dsimp only
  rw [← updated.owner]
  generalize image.revalidate ref = now at updated
  refine SameStorages.trans_admits (.of_eq updated.classes updated.shapes)
    (congrArg Arena.size updated.classes) ?_
  have owned := (updated.steady.laid.objects ref updated.known).owner
  have stored := now.storageAt?_owner updated.shape index
  cases located : now.locate? (now.objectAt ref) index with
  | none =>
      refine SameStorages.admits (.of_eq rfl rfl) fun storage found => ?_
      rw [stored, located] at found
      cases found
  | some location =>
      rw [located, Option.map_some] at stored
      have accepts := Instance.isSome_write? (now.objectAt ref) location value
      dsimp only
      cases written : (now.objectAt ref).write? location value with
      | some store =>
          rw [written] at accepts
          refine SameStorages.admits (.of_eq rfl rfl) fun storage found => ?_
          cases stored.symm.trans found
          exact accepts.symm
      | none =>
          rw [written] at accepts
          refine updated.steady.laid.admits_generalize owned stored accepts.symm ?_
          obtain ⟨classes, shapes⟩ := (now.generalize (now.objectAt ref).owner index
            (location.storage.generalize index value)).tables_revalidate ref
          dsimp only
          split
          · next result =>
              obtain ⟨classesToo, shapesToo⟩ := tables_writeLocated? result
              exact .of_eq (classesToo.trans classes) (shapesToo.trans shapes)
          · exact .of_eq classes shapes

/-- A location that a site remembers for an instance accepts no more than the class does. -/
theorem Laid.admits_writeFieldAt (laid : image.Laid) {site : FieldSiteRef} {ref : ObjectRef}
    (known : image.heap.objects.Has ref) {index : Nat} (accesses : image.AccessesField site index)
    (value : Value) :
    image.Admits (image.objectAt ref).owner index value
      (image.writeFieldAt site (.object ref) index value).2 := by
  have houses := laid.objects ref known
  unfold Image.writeFieldAt
  dsimp only
  split
  · next store written =>
      obtain ⟨location, remembered, accepted⟩ := Option.bind_eq_some_iff.mp written
      have located := laid.locate?_of_remembered? accesses remembered
      have accepts := Instance.isSome_write? (image.objectAt ref) location value
      rw [accepted] at accepts
      refine SameStorages.admits (.of_eq rfl rfl) fun storage found => ?_
      rw [houses.locate?_eq] at located
      obtain ⟨before, had, rfl⟩ := Option.map_eq_some_iff.mp located
      exact (houses.widens index before storage had found).accepts accepts.symm
  · have admits := laid.admits_writeInstance known index value
    split
    · next result =>
        rw [result] at admits
        exact admits
    · next result =>
        rw [result] at admits
        exact admits

/-- Reading leaves classes and shapes alone. -/
theorem tables_readField (image : Image) (receiver : Value) (index : Nat) :
    (image.readField receiver index).2.classes = image.classes ∧
      (image.readField receiver index).2.shapes = image.shapes := by
  cases receiver with
  | object ref => exact image.tables_revalidate ref
  | _ => exact ⟨rfl, rfl⟩

theorem tables_readFieldAt (image : Image) (site : FieldSiteRef) (receiver : Value)
    (index : Nat) :
    (image.readFieldAt site receiver index).2.classes = image.classes ∧
      (image.readFieldAt site receiver index).2.shapes = image.shapes := by
  cases receiver with
  | object ref =>
      unfold readFieldAt
      dsimp only
      split
      · exact ⟨rfl, rfl⟩
      · split <;> exact image.tables_revalidate ref
  | _ => exact image.tables_readField _ index

/-- The fields of class objects are plain variables, and other values have none. -/
theorem sameStorages_writeField (image : Image) {receiver : Value}
    (other : ∀ ref, receiver ≠ .object ref) (index : Nat) (value : Value) :
    image.SameStorages (image.writeField receiver index value).2 := by
  cases receiver with
  | object ref => exact absurd rfl (other ref)
  | classObject ref =>
      unfold writeField
      dsimp only
      split
      · refine .of_shape (fun type => ?_) rfl
        rw [classAt_modifyClass]
        split <;> rfl
      · exact .of_eq rfl rfl
  | _ => exact .of_eq rfl rfl

end Image

/-- What an action writes to a field of an instance, with the class of the instance. -/
def Action.fills (image : Image) (action : Action) : Option (ClassRef × Nat × Value) :=
  match action.assigns with
  | some (.object ref, index, value) => some ((image.objectAt ref).owner, index, value)
  | _ => none

namespace Action

open Image

variable {image : Image} {action : Action}

/-- An action that fills no field of an instance changes no storage of a class. -/
theorem sameStorages_perform (laid : image.Laid) (still : action.fills image = none) :
    image.SameStorages (action.perform image) := by
  cases action with
  | readField receiver index =>
      obtain ⟨classes, shapes⟩ := image.tables_readField receiver index
      exact .of_eq classes shapes
  | readFieldAt site receiver index =>
      obtain ⟨classes, shapes⟩ := image.tables_readFieldAt site receiver index
      exact .of_eq classes shapes
  | writeField receiver index value =>
      refine image.sameStorages_writeField (fun ref same => ?_) index value
      subst same
      cases still
  | writeFieldAt site receiver index value =>
      cases receiver with
      | object ref => cases still
      | _ => exact image.sameStorages_writeField (fun _ contrary => by cases contrary) index value
  | resolve site selector receiver =>
      obtain ⟨calls, journal, -, result⟩ := image.lookupAt_eq site selector receiver
      exact .of_eq (by rw [perform, result]) (by rw [perform, result])
  | resolveSuper site origin selector =>
      obtain ⟨calls, -, result⟩ := image.lookupSuperAt_eq site origin selector
      exact .of_eq (by rw [perform, result]) (by rw [perform, result])
  | install holder selector behavior =>
      have classes := image.classAt_install_cases holder selector behavior
      obtain ⟨journal, installed⟩ := image.addMethod_eq holder selector behavior
      refine .of_shape (fun ref => ?_) (by rw [perform, installed])
      rcases classes ref with same | ⟨-, same⟩ <;> rw [same]
  | remove holder selector =>
      refine .of_shape (fun ref => ?_) rfl
      rcases image.classAt_remove_cases holder selector ref with same | same <;> rw [same]
  | register name superclass fields classFields =>
      intro ref known index
      have shape := image.shapeAt_register name superclass fields classFields
        (laid.classes ref known).known
      rw [storageAt?, image.classAt_register_of_has name superclass fields classFields known,
        shape.2]
      rfl
  | _ => exact .of_eq rfl rfl

/-- An action that fills a field raises the storage that the class has for it, and no other. -/
theorem admits_perform (laid : image.Laid) (allowed : action.Allowed image) {owner : ClassRef}
    {index : Nat} {value : Value} (fills : action.fills image = some (owner, index, value)) :
    image.Admits owner index value (action.perform image) := by
  cases action with
  | writeField receiver index value =>
      cases receiver with
      | object ref =>
          cases fills
          have admits := laid.admits_writeInstance allowed.1 index value
          simp only [perform, Image.writeField]
          exact admits
      | _ => cases fills
  | writeFieldAt site receiver index value =>
      cases receiver with
      | object ref =>
          cases fills
          exact laid.admits_writeFieldAt allowed.1 allowed.2.2 value
      | _ => cases fills
  | _ => cases fills

/-- An action changes no storage of a class that it fills no field of. -/
theorem storageAt?_of_foreign (laid : image.Laid) (allowed : action.Allowed image) {ref : ClassRef}
    (known : image.classes.Has ref)
    (foreign : ∀ owner index value, action.fills image = some (owner, index, value) → owner ≠ ref)
    (index : Nat) : (action.perform image).storageAt? ref index = image.storageAt? ref index := by
  cases fills : action.fills image with
  | none => exact sameStorages_perform laid fills ref known index
  | some filled =>
      obtain ⟨owner, place, value⟩ := filled
      rw [admits_perform laid allowed fills ref known index]
      exact if_neg fun same => foreign owner place value fills same.1.symm

/-- A class that an action brings into existence has nothing written to its inline fields. -/
theorem storageAt?_new {ref : ClassRef} (present : (action.perform image).classes.Has ref)
    (new : ¬ image.classes.Has ref) {index : Nat} (inline : index < inlineFields)
    {storage : Storage} (stored : (action.perform image).storageAt? ref index = some storage) :
    storage = .unwritten := by
  have first : ∀ id owner count, (Shape.initial id owner count).storages[index]? = some storage →
      storage = .unwritten := by
    intro id owner count found
    simp only [Shape.storages_initial, List.getElem?_toArray, List.getElem?_map] at found
    obtain ⟨place, same, rfl⟩ := Option.map_eq_some_iff.mp found
    obtain ⟨-, rfl⟩ := List.getElem?_eq_some_iff.mp same
    rw [List.getElem_range, Storage.initial, if_pos inline]
  rcases (growth_perform image action).classes with
    ⟨name, superclass, fields, classFields, rfl⟩ | same
  · rcases ((image.has_register name superclass fields classFields ref).mp
      present).resolve_left new with rfl | rfl
    · rw [storageAt?, classAt_register_metaclass, newMetaclass, shapeAt_register_metaclass]
        at stored
      exact first _ _ _ stored
    · rw [storageAt?, classAt_register_class, newClass, shapeAt_register_class] at stored
      exact first _ _ _ stored
  · exact absurd (Nat.lt_of_lt_of_eq present same) new

end Action

namespace Image

/-- The values that a history has written to a field of the instances of a class.  An instance
belongs to one class for good. -/
def written (image : Image) (actions : List Action) (owner : ClassRef) (index : Nat) :
    List Value :=
  actions.filterMap fun action =>
    match action.fills image with
    | some (other, place, value) => if other = owner ∧ place = index then some value else none
    | none => none

/-- The storages that these values ask for. -/
def writtenKinds (image : Image) (actions : List Action) (owner : ClassRef) (index : Nat) :
    List Storage :=
  (image.written actions owner index).map (Storage.forValue index)

theorem mem_writtenKinds {image : Image} {actions : List Action} {owner : ClassRef} {index : Nat}
    {kind : Storage} :
    kind ∈ image.writtenKinds actions owner index ↔ ∃ action ∈ actions, ∃ target value,
      action.assigns = some (.object target, index, value) ∧
        (image.objectAt target).owner = owner ∧ Storage.forValue index value = kind := by
  simp only [writtenKinds, written, List.mem_map, List.mem_filterMap]
  constructor
  · rintro ⟨value, ⟨action, member, found⟩, asked⟩
    refine ⟨action, member, ?_⟩
    unfold Action.fills at found
    split at found
    · next filled =>
        split at filled
        · next target _ _ assigned =>
            cases filled
            split at found
            · next same =>
                cases found
                obtain ⟨rfl, rfl⟩ := same
                exact ⟨target, value, assigned, rfl, asked⟩
            · cases found
        · cases filled
    · cases found
  · rintro ⟨action, member, target, value, assigned, rfl, asked⟩
    refine ⟨value, ⟨action, member, ?_⟩, asked⟩
    simp only [Action.fills, assigned, and_self, if_true]

/-- What a history has written so far, and the storages that have come of it. -/
structure Joined (actions : List Action) (image : Image) : Prop where
  receivers : ∀ action ∈ actions, ∀ receiver index value,
    action.assigns = some (receiver, index, value) → receiver.Exists image
  joins : ∀ ref, image.classes.Has ref → ∀ index < inlineFields, ∀ storage,
    image.storageAt? ref index = some storage →
    Storage.IsJoin (image.writtenKinds actions ref index) storage

/-- What an action fills depends on the class of an instance, which stays the same. -/
theorem fills_perform {image : Image} {action other : Action} (allowed : action.Allowed image)
    (known : ∀ receiver index value, other.assigns = some (receiver, index, value) →
      receiver.Exists image) :
    other.fills (action.perform image) = other.fills image := by
  unfold Action.fills
  cases assigned : other.assigns with
  | none => rfl
  | some assignment =>
      obtain ⟨receiver, index, value⟩ := assignment
      cases receiver with
      | object ref =>
          dsimp only
          rw [(Action.retains_perform allowed).owners ref (known _ _ _ assigned)]
      | _ => rfl

/-- What an allowed action writes to exists. -/
theorem exists_of_assigns {image : Image} {action : Action} (allowed : action.Allowed image)
    {receiver : Value} {index : Nat} {value : Value}
    (assigned : action.assigns = some (receiver, index, value)) : receiver.Exists image := by
  cases action with
  | writeField | writeFieldAt =>
      cases assigned
      exact allowed.1
  | _ => cases assigned

theorem writtenKinds_append (image : Image) (earlier later : List Action) (owner : ClassRef)
    (index : Nat) :
    image.writtenKinds (earlier ++ later) owner index =
      image.writtenKinds earlier owner index ++ image.writtenKinds later owner index := by
  simp only [writtenKinds, written, List.filterMap_append, List.map_append]

theorem writtenKinds_of_none {image : Image} {action : Action} (fills : action.fills image = none)
    (ref : ClassRef) (index : Nat) : image.writtenKinds [action] ref index = [] := by
  simp only [writtenKinds, written, List.filterMap_cons, fills, List.filterMap_nil, List.map_nil]

/-- What a single action writes. -/
theorem writtenKinds_of_some {image : Image} {action : Action} {owner : ClassRef} {place : Nat}
    {value : Value} (fills : action.fills image = some (owner, place, value)) (ref : ClassRef)
    (index : Nat) :
    image.writtenKinds [action] ref index =
      if ref = owner ∧ index = place then [Storage.forValue place value] else [] := by
  simp only [writtenKinds, written, List.filterMap_cons, fills, List.filterMap_nil]
  by_cases same : owner = ref ∧ place = index
  · simp [same]
  · have other : ¬ (ref = owner ∧ index = place) := fun contrary =>
      same ⟨contrary.1.symm, contrary.2.symm⟩
    rw [if_neg same, if_neg other]
    rfl

/-- Nothing was written to instances of a class that does not exist. -/
theorem writtenKinds_of_not_has {image : Image} (formed : image.WellFormed)
    {actions : List Action}
    (receivers : ∀ action ∈ actions, ∀ receiver index value,
      action.assigns = some (receiver, index, value) → receiver.Exists image)
    {ref : ClassRef} (absent : ¬ image.classes.Has ref) (index : Nat) :
    image.writtenKinds actions ref index = [] := by
  refine List.map_eq_nil_iff.mpr (List.filterMap_eq_nil_iff.mpr fun action member => ?_)
  unfold Action.fills
  cases assigned : action.assigns with
  | none => rfl
  | some assignment =>
      obtain ⟨receiver, place, value⟩ := assignment
      have known := receivers action member _ _ _ assigned
      cases receiver with
      | object target =>
          have owner : image.classes.Has (image.objectAt target).owner :=
            formed.within.owners target known
          have other : ¬ ((image.objectAt target).owner = ref ∧ place = index) := fun same =>
            absent (same.1 ▸ owner)
          exact if_neg other
      | _ => rfl

namespace Joined

variable {actions : List Action} {image : Image} (joined : Joined actions image)
include joined

theorem receivers_append {action : Action} (allowed : action.Allowed image) :
    ∀ other ∈ actions ++ [action], ∀ receiver index value,
      other.assigns = some (receiver, index, value) → receiver.Exists image := by
  intro other member receiver index value assigned
  rcases List.mem_append.mp member with old | new
  · exact joined.receivers other old receiver index value assigned
  · rw [List.mem_singleton.mp new] at assigned
    exact exists_of_assigns allowed assigned

/-- What was written stays what it is. -/
theorem writtenKinds_perform {action : Action} (allowed : action.Allowed image)
    (owner : ClassRef) (index : Nat) :
    (action.perform image).writtenKinds (actions ++ [action]) owner index =
      image.writtenKinds (actions ++ [action]) owner index :=
  congrArg (List.map (Storage.forValue index)) (List.filterMap_congr fun other member => by
    rw [fills_perform allowed (joined.receivers_append allowed other member)])

theorem act (laid : image.Laid) (formed : image.WellFormed) {action : Action}
    (allowed : action.Allowed image) : Joined (actions ++ [action]) (action.perform image) where
  receivers := fun other member receiver index value assigned =>
    (joined.receivers_append allowed other member receiver index value assigned).mono
      (Action.extends_perform allowed)
  joins := fun ref present index inline storage stored => by
    rw [joined.writtenKinds_perform allowed]
    by_cases old : image.classes.Has ref
    · rw [writtenKinds_append]
      cases fills : action.fills image with
      | none =>
          rw [Action.sameStorages_perform laid fills ref old] at stored
          rw [writtenKinds_of_none fills, List.append_nil]
          exact joined.joins ref old index inline storage stored
      | some filled =>
          obtain ⟨owner, place, value⟩ := filled
          rw [Action.admits_perform laid allowed fills ref old] at stored
          rw [writtenKinds_of_some fills]
          by_cases same : ref = owner ∧ index = place
          · rw [if_pos same] at stored
            obtain ⟨before, had, rfl⟩ := Option.map_eq_some_iff.mp stored
            rw [if_pos same, ← same.2]
            exact (joined.joins ref old index inline before had).extend inline value
          · rw [if_neg same] at stored
            rw [if_neg same, List.append_nil]
            exact joined.joins ref old index inline storage stored
    · rw [writtenKinds_of_not_has formed (joined.receivers_append allowed) old,
        Action.storageAt?_new present old inline stored]
      exact .nil

end Joined

/-- What every run comes to: the storages are the joins of what was written. -/
theorem Reaches.joined {platform : Platform} {settings : Settings} {listening : Bool}
    {actions : List Action} {image : Image}
    (history : (initial platform settings listening).Reaches actions image) :
    Joined actions image := by
  induction history with
  | start =>
      obtain ⟨laid, fieldless⟩ := laid_initial platform settings listening
      refine ⟨nofun, fun ref known index _ storage stored => ?_⟩
      have inside := (Array.getElem?_eq_some_iff.mp stored).1
      rw [(laid.classes ref known).width, fieldless.2 ref] at inside
      cases inside
  | act action earlier allowed inductionHypothesis =>
      exact inductionHypothesis.act earlier.faithful.laid earlier.faithful.formed allowed

theorem Reaches.isJoin {platform : Platform} {settings : Settings} {listening : Bool}
    {actions : List Action} {image : Image}
    (history : (initial platform settings listening).Reaches actions image)
    {ref : ClassRef} (known : image.classes.Has ref) {index : Nat}
    (inside : index < (image.classAt ref).fields.length) (inline : index < inlineFields) :
    ∃ storage, image.storageAt? ref index = some storage ∧
      Storage.IsJoin (image.writtenKinds actions ref index) storage := by
  have width := (history.faithful.laid.classes ref known).width
  have stored := Array.getElem?_eq_getElem (Nat.lt_of_lt_of_eq inside width.symm)
  exact ⟨_, stored, history.joined.joins ref known index inline _ stored⟩

section Accesses

variable {image : Image} (laid : image.Laid) (access : Access) (machine : Machine)
  (receiver : Value)
include laid

/-- A read changes no storage, whichever way it takes. -/
theorem Laid.sameStorages_read :
    image.SameStorages (access.read machine image receiver).2 := by
  have direct : ∀ index, image.SameStorages (image.readField receiver index).2 := fun index =>
    @Action.sameStorages_perform image (.readField receiver index) laid rfl
  cases access with
  | direct index => exact direct index
  | atSite site index =>
      exact @Action.sameStorages_perform image (.readFieldAt site receiver index) laid rfl
  | byPosition position =>
      rw [Access.read_byPosition]
      cases (Access.byPosition position).index? image.platform with
      | none => exact .of_eq rfl rfl
      | some index => exact direct index

/-- A write to something that is no instance of a class changes no storage of the class. -/
theorem Laid.storageAt?_write_of_foreign {value : Value} (known : receiver.Exists image)
    (incoming : value.Exists image) (usable : access.Usable image) {ref : ClassRef}
    (present : image.classes.Has ref)
    (foreign : ∀ target, receiver = .object target → (image.objectAt target).owner ≠ ref)
    (index : Nat) :
    (access.write machine image receiver value).2.storageAt? ref index =
      image.storageAt? ref index := by
  have elsewhere : ∀ action : Action, (∃ place, action.assigns = some (receiver, place, value)) →
      action.Allowed image →
      (action.perform image).storageAt? ref index = image.storageAt? ref index := by
    rintro action ⟨place, assigned⟩ allowed
    refine Action.storageAt?_of_foreign laid allowed present (fun owner place other fills => ?_)
      index
    rw [Action.fills, assigned] at fills
    cases receiver with
    | object target =>
        cases fills
        exact foreign target rfl
    | _ => cases fills
  have direct : ∀ place, (image.writeField receiver place value).2.storageAt? ref index =
      image.storageAt? ref index := fun place =>
    elsewhere (.writeField receiver place value) ⟨place, rfl⟩ ⟨known, incoming⟩
  cases access with
  | direct place => exact direct place
  | atSite site place =>
      exact elsewhere (.writeFieldAt site receiver place value) ⟨place, rfl⟩
        ⟨known, incoming, usable⟩
  | byPosition position =>
      rw [Access.write_byPosition]
      cases (Access.byPosition position).index? image.platform with
      | none => rfl
      | some place => exact direct place

end Accesses

end Image

open Image in
/-- How a class stores a field inside its instances is the join of what the values ask for that were
ever written to that field of its instances, in whatever order, to whatever instance and in
whatever way.  If the same kinds of values are written to a field in two runs, the field is stored
in the same way after both.  A read changes no storage, and a write to something that is no instance
of a class changes no storage of that class. -/
theorem storages_are_joins {platform : Platform} {settings : Settings} {listening : Bool}
    {actions : List Action} {image : Image}
    (history : (Image.initial platform settings listening).Reaches actions image) :
    (∀ ref, image.classes.Has ref → ∀ index < (image.classAt ref).fields.length,
      index < inlineFields → ∃ storage, image.storageAt? ref index = some storage ∧
        Storage.IsJoin (image.writtenKinds actions ref index) storage) ∧
    (∀ platformToo settingsToo listeningToo actionsToo other,
      (Image.initial platformToo settingsToo listeningToo).Reaches actionsToo other →
      ∀ ref refToo index, image.classes.Has ref → other.classes.Has refToo →
      index < (image.classAt ref).fields.length → index < (other.classAt refToo).fields.length →
      index < inlineFields →
      (∀ kind, kind ∈ other.writtenKinds actionsToo refToo index ↔
        kind ∈ image.writtenKinds actions ref index) →
      other.storageAt? refToo index = image.storageAt? ref index) ∧
    (∀ (access : Access) machine (receiver : Value), receiver.Exists image → access.Usable image →
      image.SameStorages (access.read machine image receiver).2) ∧
    ∀ (access : Access) machine (receiver value : Value), receiver.Exists image →
      value.Exists image → access.Usable image → ∀ ref, image.classes.Has ref →
      (∀ target, receiver = .object target → (image.objectAt target).owner ≠ ref) →
      ∀ index, (access.write machine image receiver value).2.storageAt? ref index =
        image.storageAt? ref index := by
  have laid := history.faithful.laid
  refine ⟨fun ref known index inside inline => history.isJoin known inside inline, ?_,
    fun access machine receiver _ _ => laid.sameStorages_read access machine receiver,
    fun access machine receiver value known incoming usable ref present foreign index =>
      laid.storageAt?_write_of_foreign access machine receiver known incoming usable present
        foreign index⟩
  intro platformToo settingsToo listeningToo actionsToo other historyToo ref refToo index known
    knownToo inside insideToo inline same
  obtain ⟨storage, stored, isJoin⟩ := history.isJoin known inside inline
  obtain ⟨storageToo, storedToo, isJoinToo⟩ := historyToo.isJoin knownToo insideToo inline
  rw [stored, storedToo, isJoin.unique isJoinToo same]

/-- Two instances of a class and one of a subclass are made and written to. -/
def mixedHistory : List Action :=
  [.register "Point" ⟨1⟩ ["x"] [], .register "Pixel" ⟨37⟩ [] [], .instantiate ⟨37⟩,
    .instantiate ⟨37⟩, .instantiate ⟨39⟩, .writeField (.object ⟨0⟩) 0 (.integer 7),
    .writeField (.object ⟨2⟩) 0 (.string "here"), .writeField (.object ⟨1⟩) 0 (.double .infinity)]

/-- The class has seen an integer and a double, so that it stores the field as a reference.  What
was written to the instance of the subclass has no part in that. -/
theorem storages_are_joins_mixed :
    ∃ image, (Image.initial .plain .standard false).Reaches mixedHistory image ∧
      image.writtenKinds mixedHistory ⟨37⟩ 0 = [.integer, .double] ∧
      image.storageAt? ⟨37⟩ 0 = some .reference := by
  let start := Image.initial .plain .standard false
  let first := Action.perform start (.register "Point" ⟨1⟩ ["x"] [])
  let second := Action.perform first (.register "Pixel" ⟨37⟩ [] [])
  let third := Action.perform second (.instantiate ⟨37⟩)
  let fourth := Action.perform third (.instantiate ⟨37⟩)
  let fifth := Action.perform fourth (.instantiate ⟨39⟩)
  let sixth := Action.perform fifth (.writeField (.object ⟨0⟩) 0 (.integer 7))
  let seventh := Action.perform sixth (.writeField (.object ⟨2⟩) 0 (.string "here"))
  let image := Action.perform seventh (.writeField (.object ⟨1⟩) 0 (.double .infinity))
  obtain ⟨root, point, pointStill, pointAgain, pixel, one, three, two⟩ :
      start.classes.Has ⟨1⟩ ∧ first.classes.Has ⟨37⟩ ∧ second.classes.Has ⟨37⟩ ∧
      third.classes.Has ⟨37⟩ ∧ fourth.classes.Has ⟨39⟩ ∧ fifth.heap.objects.Has ⟨0⟩ ∧
      sixth.heap.objects.Has ⟨2⟩ ∧ seventh.heap.objects.Has ⟨1⟩ := by
    decide +kernel
  have written : (Action.writeField (.object ⟨0⟩) 0 (.integer 7)).Allowed fifth := ⟨one, trivial⟩
  have writtenBelow : (Action.writeField (.object ⟨2⟩) 0 (.string "here")).Allowed sixth :=
    ⟨three, trivial⟩
  have writtenToo : (Action.writeField (.object ⟨1⟩) 0 (.double .infinity)).Allowed seventh :=
    ⟨two, trivial⟩
  have made := ((((Image.Reaches.start.act (.register "Point" ⟨1⟩ ["x"] []) root).act
    (.register "Pixel" ⟨37⟩ [] []) point).act (.instantiate ⟨37⟩) pointStill).act
    (.instantiate ⟨37⟩) pointAgain).act (.instantiate ⟨39⟩) pixel
  have history : start.Reaches mixedHistory image :=
    ((made.act _ written).act _ writtenBelow).act _ writtenToo
  obtain ⟨known, inside, kinds⟩ : image.classes.Has ⟨37⟩ ∧
      0 < (image.classAt ⟨37⟩).fields.length ∧
      image.writtenKinds mixedHistory ⟨37⟩ 0 = [.integer, .double] := by
    decide +kernel
  obtain ⟨storage, stored, isJoin⟩ :=
    (storages_are_joins history).1 ⟨37⟩ known 0 inside (by decide)
  rw [kinds] at isJoin
  have integral : Storage.Widens .integer storage := isJoin.upper _ (by simp)
  have fractional : Storage.Widens .double storage := isJoin.upper _ (by simp)
  have both : storage = .reference := by
    rcases integral with rfl | rfl
    · rcases fractional with contrary | contrary <;> cases contrary
    · rfl
  exact ⟨image, history, kinds, both ▸ stored⟩

end MessageMachine
