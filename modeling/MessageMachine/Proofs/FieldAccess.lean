import MessageMachine.Proofs.Foundation
import MessageMachine.Proofs.Layout

/-!
# Access to fields

What a field of an object or a class object holds does not depend on how the object is laid out at
the moment.  Shapes are never changed once they exist, up to the note about their successor, so that
an instance can always be read through the shape it was laid out for.  Bringing it up to date keeps
every value, giving a class a new shape touches no instance, and a location that a site remembers is
the one that its shape has for the field of the site.
-/

namespace MessageMachine

namespace Image

/-- The number of fields of an object or a class object. -/
def fieldCount (image : Image) : Value → Nat
  | .object ref => (image.classAt (image.objectAt ref).owner).fields.length
  | .classObject ref => (image.classAt (image.classAt ref).instanceOf).fields.length
  | _ => 0

/-- The value of a field, read from an instance as it is laid out. -/
def valueIn (image : Image) (store : Instance) (index : Nat) : Value :=
  ((image.locate? store index).map store.read).getD .nil

/-- The value of a field of an object or a class object. -/
def fieldOf (image : Image) : Value → Nat → Value
  | .object ref, index => image.valueIn (image.objectAt ref) index
  | .classObject ref, index => (image.classAt ref).values[index]?.getD .nil
  | _, _ => .nil

/-- The current shape of a class has a suitable storage for every field. -/
structure Shaped (image : Image) (ref : ClassRef) : Prop where
  known : image.shapes.Has (image.classAt ref).shape
  stamped : (image.shapeAt (image.classAt ref).shape).Stamped (image.classAt ref).shape
  width : (image.shapeAt (image.classAt ref).shape).storages.size =
    (image.classAt ref).fields.length
  suits : ∀ (index : Nat) storage,
    (image.shapeAt (image.classAt ref).shape).storages[index]? = some storage →
      storage.Suits index

/-- An instance is laid out for a shape that its class has or once had. -/
structure Houses (image : Image) (store : Instance) : Prop where
  owner : image.classes.Has store.owner
  known : image.shapes.Has store.shape
  stamped : (image.shapeAt store.shape).Stamped store.shape
  width : (image.shapeAt store.shape).storages.size = (image.classAt store.owner).fields.length
  fits : ∀ (index : Nat) storage, (image.shapeAt store.shape).storages[index]? = some storage →
    store.Fits index storage
  widens : ∀ (index : Nat) before after,
    (image.shapeAt store.shape).storages[index]? = some before →
      (image.shapeAt (image.classAt store.owner).shape).storages[index]? = some after →
        before.Widens after

/-- The storage of all objects is in order, and so is what field sites remember. -/
structure Laid (image : Image) : Prop where
  classes : ∀ ref, image.classes.Has ref → image.Shaped ref
  objects : ∀ ref, image.heap.objects.Has ref → image.Houses (image.objectAt ref)
  sites : ∀ site index, image.AccessesField site index → ∀ location,
    image.sites.fields.get site = some location →
      image.shapes.Has location.shape ∧
        (image.shapeAt location.shape).location? index = some location
  classValues : ∀ ref, image.classes.Has ref →
    (image.classAt ref).values.size = (image.classAt (image.classAt ref).instanceOf).fields.length
  metaclass : (image.classAt image.core.metaclass).fields.length = 0

/-- Two images agree on the fields of everything that exists in the first one. -/
structure SameFields (before after : Image) : Prop where
  count : ∀ receiver : Value, receiver.Exists before →
    after.fieldCount receiver = before.fieldCount receiver
  value : ∀ receiver : Value, receiver.Exists before → ∀ index,
    after.fieldOf receiver index = before.fieldOf receiver index

theorem SameFields.refl (image : Image) : image.SameFields image where
  count := fun _ _ => rfl
  value := fun _ _ _ => rfl

theorem SameFields.trans {before between after : Image} (earlier : before.SameFields between)
    (extended : before.Extends between) (later : between.SameFields after) :
    before.SameFields after where
  count := fun receiver known =>
    (later.count receiver (known.mono extended)).trans (earlier.count receiver known)
  value := fun receiver known index =>
    (later.value receiver (known.mono extended) index).trans (earlier.value receiver known index)

theorem Houses.locate?_eq {image : Image} {store : Instance} (houses : image.Houses store)
    (index : Nat) :
    image.locate? store index = (image.shapeAt store.shape).storages[index]?.map fun storage =>
      { storage, index, shape := store.shape } :=
  houses.stamped.location?_eq index

/-- An instance has a location for each field of its class, and for no other. -/
theorem Houses.locate? {image : Image} {store : Instance} (houses : image.Houses store)
    (index : Nat) :
    (index < (image.classAt store.owner).fields.length ∧
      ∃ storage, (image.shapeAt store.shape).storages[index]? = some storage ∧
        store.Fits index storage ∧
        image.locate? store index = some ⟨storage, index, store.shape⟩) ∨
    (¬ index < (image.classAt store.owner).fields.length ∧ image.locate? store index = none) := by
  rw [← houses.width, houses.locate?_eq]
  by_cases inside : index < (image.shapeAt store.shape).storages.size
  · have found := Array.getElem?_eq_getElem inside
    refine Or.inl ⟨inside, _, found, houses.fits index _ found, ?_⟩
    rw [found]
    rfl
  · refine Or.inr ⟨inside, ?_⟩
    rw [Array.getElem?_eq_none (Nat.le_of_not_lt inside)]
    rfl

/-- The platform, the settings and the journal have no part in the storage of objects. -/
theorem Laid.rebased {image : Image} (laid : image.Laid) (platform : Platform)
    (settings : Settings) (journal : Journal) :
    (image.rebased platform settings journal).Laid where
  classes := fun ref known => { laid.classes ref known with }
  objects := fun ref known => { laid.objects ref known with }
  sites := laid.sites
  classValues := laid.classValues
  metaclass := laid.metaclass

theorem objectAt_setObject (image : Image) (ref other : ObjectRef) (store : Instance) :
    (image.setObject ref store).objectAt other =
      if other = ref ∧ image.heap.objects.Has other then store else image.objectAt other :=
  Arena.get_set _ _ _ _

/-- Replacing the storage of an object by one that is in order keeps everything in order. -/
theorem Laid.setObject {image : Image} (laid : image.Laid) (ref : ObjectRef) {store : Instance}
    (houses : image.Houses store) : (image.setObject ref store).Laid where
  classes := fun other known => { laid.classes other known with }
  objects := fun other known => by
    rw [objectAt_setObject]
    split
    · exact { houses with }
    · exact { laid.objects other ((Arena.has_set _ _ _ _).mp known) with }
  sites := laid.sites
  classValues := laid.classValues
  metaclass := laid.metaclass

/-- Replacing the storage of an object by one with the same owner changes the fields of no other
object. -/
theorem sameFields_setObject {image : Image} {ref : ObjectRef} {store : Instance}
    (owner : store.owner = (image.objectAt ref).owner)
    (same : ∀ index, image.valueIn store index = image.fieldOf (.object ref) index) :
    image.SameFields (image.setObject ref store) where
  count := by
    intro receiver known
    cases receiver with
    | object other =>
        simp only [fieldCount, objectAt_setObject]
        split
        · next changed => rw [changed.1, owner]; rfl
        · rfl
    | _ => rfl
  value := by
    intro receiver known index
    cases receiver with
    | object other =>
        simp only [fieldOf, objectAt_setObject]
        split
        · next changed => rw [changed.1]; exact same index
        · rfl
    | _ => rfl

/-- The storage of an object after it was brought up to date. -/
theorem Houses.migrate {image : Image} {store : Instance} (houses : image.Houses store)
    (shaped : image.Shaped store.owner) :
    let current := (image.classAt store.owner).shape
    let migrated := store.migrate (image.shapeAt store.shape) (image.shapeAt current)
    image.Houses migrated ∧ migrated.owner = store.owner ∧
      ∀ index, image.valueIn migrated index = image.valueIn store index := by
  intro current migrated
  have movable : Instance.Movable (image.shapeAt store.shape) (image.shapeAt current)
      (List.range (image.shapeAt store.shape).storages.size) store :=
    fun index _ before storage hadBefore hasNow =>
      ⟨houses.fits index before hadBefore, houses.widens index before storage hadBefore hasNow⟩
  have moved := Instance.moved_migrate (houses.stamped.id.symm ▸ houses.stamped)
    (shaped.stamped.id.symm ▸ shaped.stamped) movable
  have sameWidth : (image.shapeAt current).storages.size =
      (image.shapeAt store.shape).storages.size := shaped.width.trans houses.width.symm
  have owner : migrated.owner = store.owner := moved.owner
  have shape : migrated.shape = current := shaped.stamped.id
  have older : ∀ (index : Nat) storage, (image.shapeAt current).storages[index]? = some storage →
      ∃ before, (image.shapeAt store.shape).storages[index]? = some before := by
    intro index storage found
    have inside := (Array.getElem?_eq_some_iff.mp found).1
    exact ⟨_, Array.getElem?_eq_getElem (sameWidth ▸ inside)⟩
  have housed : image.Houses migrated := {
    owner := owner ▸ houses.owner
    known := shape.symm ▸ shaped.known
    stamped := shape.symm ▸ shaped.stamped
    width := by
      rw [shape, owner]
      exact shaped.width
    fits := by
      rw [shape]
      intro index storage found
      obtain ⟨before, hadBefore⟩ := older index storage found
      have inside := (Array.getElem?_eq_some_iff.mp hadBefore).1
      exact moved.fits index (List.mem_range.mpr inside) before storage hadBefore found
    widens := by
      rw [shape, owner]
      intro index before storage hadBefore hasNow
      cases hadBefore.symm.trans hasNow
      exact .refl before }
  refine ⟨housed, owner, fun index => ?_⟩
  simp only [valueIn, housed.locate?_eq, houses.locate?_eq, shape]
  cases found : (image.shapeAt current).storages[index]? with
  | none =>
      have outside := Array.getElem?_eq_none_iff.mp found
      rw [Array.getElem?_eq_none (sameWidth ▸ outside)]
      rfl
  | some storage =>
      obtain ⟨before, hadBefore⟩ := older index storage found
      have inside := (Array.getElem?_eq_some_iff.mp hadBefore).1
      rw [hadBefore]
      exact moved.reads index (List.mem_range.mpr inside) before storage hadBefore found

/-- An image after an access that left every value alone. -/
structure Steady (before after : Image) : Prop where
  laid : after.Laid
  same : before.SameFields after
  extended : before.Extends after

theorem Steady.trans {before between after : Image} (earlier : before.Steady between)
    (later : between.Steady after) : before.Steady after where
  laid := later.laid
  same := earlier.same.trans earlier.extended later.same
  extended := earlier.extended.trans later.extended

/-- An image after an object was brought up to date: it is laid out for the current shape of its
class, and neither classes nor shapes have changed. -/
structure UpToDate (image : Image) (ref : ObjectRef) (after : Image) : Prop where
  steady : image.Steady after
  known : after.heap.objects.Has ref
  owner : (after.objectAt ref).owner = (image.objectAt ref).owner
  shape : (after.objectAt ref).shape = (after.classAt (after.objectAt ref).owner).shape
  classes : after.classes = image.classes
  shapes : after.shapes = image.shapes

/-- Bringing an object up to date changes no field. -/
theorem Laid.revalidate {image : Image} (laid : image.Laid) {ref : ObjectRef}
    (known : image.heap.objects.Has ref) : image.UpToDate ref (image.revalidate ref) := by
  have anything : ∀ value : Value, value.IsPlain → value.IsNormal → True := fun _ _ _ => trivial
  have extended := (revalidate_tended anything image ref).extended
  have present := Nat.lt_of_lt_of_le known extended.objects
  rcases image.revalidate_cases ref with ⟨current, unchanged⟩ | ⟨-, journal, changed⟩
  · rw [unchanged] at extended present ⊢
    exact {
      steady := ⟨laid, .refl image, extended⟩
      known := present
      owner := rfl
      shape := current
      classes := rfl
      shapes := rfl }
  · have houses := laid.objects ref known
    obtain ⟨migratedHouses, sameOwner, sameValues⟩ := houses.migrate (laid.classes _ houses.owner)
    have result := objectAt_setObject image ref ref ((image.objectAt ref).migrate
      (image.shapeAt (image.objectAt ref).shape)
      (image.shapeAt (image.classAt (image.objectAt ref).owner).shape))
    rw [if_pos ⟨rfl, known⟩] at result
    have owner := (congrArg Instance.owner result).trans sameOwner
    have shape := congrArg Instance.shape result
    rw [changed] at extended present ⊢
    exact {
      steady := {
        laid := (laid.setObject ref migratedHouses).rebased image.platform image.settings journal
        same := { sameFields_setObject sameOwner sameValues with }
        extended := extended }
      known := present
      owner := owner
      shape := (shape.trans (laid.classes _ houses.owner).stamped.id).trans
        (congrArg (fun owner => (image.classAt owner).shape) owner.symm)
      classes := rfl
      shapes := rfl }

section Generalization

variable (image : Image) (ref : ClassRef) (index : Nat) (storage : Storage)

theorem has_generalize (shape : ShapeRef) :
    (image.generalize ref index storage).shapes.Has shape ↔
      image.shapes.Has shape ∨ shape = image.shapes.next := by
  obtain ⟨journal, result⟩ := image.generalize_eq ref index storage
  rw [result, Arena.has_push, Arena.has_modify]
  simp only [Arena.next, Arena.size_modify]

/-- The shapes after a class was given a new one: the new shape, the one that it replaces, and the
others as they were. -/
theorem shapeAt_generalize (shape : ShapeRef) :
    (image.generalize ref index storage).shapeAt shape =
      if shape = image.shapes.next then
        (image.shapeAt (image.classAt ref).shape).derive image.shapes.next index storage
      else if shape = (image.classAt ref).shape ∧ image.shapes.Has shape then
        { image.shapeAt shape with successor := some image.shapes.next }
      else image.shapeAt shape := by
  obtain ⟨journal, result⟩ := image.generalize_eq ref index storage
  rw [result]
  simp only [shapeAt, Arena.get_push, Arena.get_modify, Arena.next, Arena.size_modify]
  rfl

end Generalization

/-- What giving a class a new shape amounts to: of the shapes that exist only a successor changes,
and the class keeps everything but its shape. -/
structure Reshaped (image : Image) (ref : ClassRef) (latest : Array Storage) (after : Image) :
    Prop where
  heap : after.heap = image.heap
  sites : after.sites = image.sites
  methods : after.methods = image.methods
  core : after.core = image.core
  classCount : after.classes.size = image.classes.size
  known : ∀ shape, image.shapes.Has shape → after.shapes.Has shape
  older : ∀ shape, image.shapes.Has shape → ∃ successor,
    after.shapeAt shape = { image.shapeAt shape with successor }
  knownNext : after.shapes.Has image.shapes.next
  storagesNext : (after.shapeAt image.shapes.next).storages = latest
  stampedNext : (image.shapeAt (image.classAt ref).shape).Stamped (image.classAt ref).shape →
    (after.shapeAt image.shapes.next).Stamped image.shapes.next
  classes : ∀ other, after.classAt other = image.classAt other ∨
    other = ref ∧ after.classAt other = { image.classAt other with shape := image.shapes.next }
  current : image.classes.Has ref → (after.classAt ref).shape = image.shapes.next

theorem reshaped_generalize (image : Image) (ref : ClassRef) (index : Nat) (storage : Storage) :
    image.Reshaped ref
      ((image.shapeAt (image.classAt ref).shape).storages.setIfInBounds index storage)
      (image.generalize ref index storage) := by
  have newest := image.shapeAt_generalize ref index storage image.shapes.next
  rw [if_pos rfl] at newest
  have older := image.shapeAt_generalize ref index storage
  obtain ⟨journal, result⟩ := image.generalize_eq ref index storage
  rw [result] at newest older ⊢
  exact {
    heap := rfl
    sites := rfl
    methods := rfl
    core := rfl
    classCount := Arena.size_modify _ _ _
    known := fun shape known =>
      (Arena.has_push _ _ _).mpr (Or.inl ((Arena.has_modify _ _ _ _).mpr known))
    older := fun shape known => by
      rw [older, if_neg known.ne_next]
      split
      · exact ⟨_, rfl⟩
      · exact ⟨_, rfl⟩
    knownNext := (Arena.has_push _ _ _).mpr (Or.inr (by simp only [Arena.next, Arena.size_modify]))
    storagesNext := by
      rw [newest, Shape.storages_derive]
    stampedNext := fun stamped => by
      rw [newest]
      exact stamped.derive _ _ _
    classes := fun other => by
      simp only [classAt, Arena.get_modify]
      split
      · next same => exact Or.inr ⟨same.1, rfl⟩
      · exact Or.inl rfl
    current := fun known => by
      simp only [classAt, Arena.get_modify]
      rw [if_pos ⟨trivial, known⟩] }

namespace Reshaped

variable {image after : Image} {ref : ClassRef} {latest : Array Storage}

theorem storages (reshaped : image.Reshaped ref latest after) {shape : ShapeRef}
    (known : image.shapes.Has shape) :
    (after.shapeAt shape).storages = (image.shapeAt shape).storages := by
  obtain ⟨successor, same⟩ := reshaped.older shape known
  rw [same]
  rfl

theorem owner (reshaped : image.Reshaped ref latest after) {shape : ShapeRef}
    (known : image.shapes.Has shape) :
    (after.shapeAt shape).owner = (image.shapeAt shape).owner := by
  obtain ⟨successor, same⟩ := reshaped.older shape known
  rw [same]

theorem location? (reshaped : image.Reshaped ref latest after) {shape : ShapeRef}
    (known : image.shapes.Has shape) (index : Nat) :
    (after.shapeAt shape).location? index = (image.shapeAt shape).location? index := by
  obtain ⟨successor, same⟩ := reshaped.older shape known
  rw [same]
  rfl

theorem stamped (reshaped : image.Reshaped ref latest after) {shape : ShapeRef}
    (known : image.shapes.Has shape) (stamped : (image.shapeAt shape).Stamped shape) :
    (after.shapeAt shape).Stamped shape := by
  obtain ⟨successor, same⟩ := reshaped.older shape known
  rw [same]
  exact { stamped with }

theorem fields (reshaped : image.Reshaped ref latest after) (other : ClassRef) :
    (after.classAt other).fields = (image.classAt other).fields := by
  rcases reshaped.classes other with same | ⟨-, same⟩ <;> rw [same]

theorem values (reshaped : image.Reshaped ref latest after) (other : ClassRef) :
    (after.classAt other).values = (image.classAt other).values := by
  rcases reshaped.classes other with same | ⟨-, same⟩ <;> rw [same]

theorem instanceOf (reshaped : image.Reshaped ref latest after) (other : ClassRef) :
    (after.classAt other).instanceOf = (image.classAt other).instanceOf := by
  rcases reshaped.classes other with same | ⟨-, same⟩ <;> rw [same]

theorem objectAt (reshaped : image.Reshaped ref latest after) (other : ObjectRef) :
    after.objectAt other = image.objectAt other := by
  simp only [Image.objectAt, reshaped.heap]

/-- Fields are read through the shapes that instances are laid out for, which have not changed. -/
theorem valueIn (reshaped : image.Reshaped ref latest after) {store : Instance}
    (known : image.shapes.Has store.shape) (index : Nat) :
    after.valueIn store index = image.valueIn store index := by
  simp only [Image.valueIn, Image.locate?, reshaped.location? known]

theorem sameFields (reshaped : image.Reshaped ref latest after) (laid : image.Laid) :
    image.SameFields after where
  count := by
    intro receiver known
    cases receiver with
    | object other => simp only [fieldCount, reshaped.objectAt, reshaped.fields]
    | classObject other => simp only [fieldCount, reshaped.instanceOf, reshaped.fields]
    | _ => rfl
  value := by
    intro receiver known index
    cases receiver with
    | object other =>
        simp only [fieldOf, reshaped.objectAt]
        exact reshaped.valueIn (laid.objects other known).known index
    | classObject other => simp only [fieldOf, reshaped.values]
    | _ => rfl

/-- The storage of a field in a shape that stores one field in a wider way, compared with the one it
had. -/
theorem wider {index : Nat} {before storage : Storage} (laid : image.Laid)
    (known : image.classes.Has ref)
    (had : (image.shapeAt (image.classAt ref).shape).storages[index]? = some before)
    (widens : before.Widens storage) (suits : storage.Suits index) (place : Nat) (new : Storage)
    (found : ((image.shapeAt (image.classAt ref).shape).storages.setIfInBounds
      index storage)[place]? = some new) :
    ∃ old, (image.shapeAt (image.classAt ref).shape).storages[place]? = some old ∧
      old.Widens new ∧ new.Suits place := by
  by_cases same : index = place
  · subst same
    rw [Array.getElem?_setIfInBounds_self_of_lt (Array.getElem?_eq_some_iff.mp had).1] at found
    cases found
    exact ⟨before, had, widens, suits⟩
  · rw [Array.getElem?_setIfInBounds_ne same] at found
    exact ⟨new, found, .refl new, (laid.classes ref known).suits place new found⟩

/-- If the new shape stores one field in a wider way and all others as before, then everything stays
in order. -/
theorem laid {index : Nat} {before storage : Storage}
    (reshaped : image.Reshaped ref
      ((image.shapeAt (image.classAt ref).shape).storages.setIfInBounds index storage) after)
    (laid : image.Laid) (known : image.classes.Has ref)
    (had : (image.shapeAt (image.classAt ref).shape).storages[index]? = some before)
    (widens : before.Widens storage) (suits : storage.Suits index) : after.Laid := by
  have shaped := laid.classes ref known
  have wider := wider laid known had widens suits
  exact {
    classes := fun other present => by
      have older := laid.classes other (Nat.lt_of_lt_of_eq present reshaped.classCount)
      rcases reshaped.classes other with same | ⟨rfl, same⟩
      · exact {
          known := by rw [same]; exact reshaped.known _ older.known
          stamped := by rw [same]; exact reshaped.stamped older.known older.stamped
          width := by rw [same, reshaped.storages older.known]; exact older.width
          suits := by rw [same, reshaped.storages older.known]; exact older.suits }
      · exact {
          known := by rw [same]; exact reshaped.knownNext
          stamped := by rw [same]; exact reshaped.stampedNext shaped.stamped
          width := by
            rw [same]
            simp only [reshaped.storagesNext, Array.size_setIfInBounds]
            exact shaped.width
          suits := by
            rw [same]
            simp only [reshaped.storagesNext]
            intro place new found
            obtain ⟨old, -, -, suitable⟩ := wider place new found
            exact suitable }
    objects := fun other present => by
      rw [reshaped.heap] at present
      rw [reshaped.objectAt]
      have older := laid.objects other present
      exact {
        owner := Nat.lt_of_lt_of_eq older.owner reshaped.classCount.symm
        known := reshaped.known _ older.known
        stamped := reshaped.stamped older.known older.stamped
        width := by rw [reshaped.storages older.known, reshaped.fields]; exact older.width
        fits := by rw [reshaped.storages older.known]; exact older.fits
        widens := by
          rw [reshaped.storages older.known]
          rcases reshaped.classes (image.objectAt other).owner with same | ⟨owned, same⟩
          · rw [same, reshaped.storages (laid.classes _ older.owner).known]
            exact older.widens
          · rw [same]
            simp only [reshaped.storagesNext]
            intro place first last hadFirst hasLast
            obtain ⟨old, hadOld, wide, -⟩ := wider place last hasLast
            rw [← owned] at hadOld
            exact (older.widens place first old hadFirst hadOld).trans wide }
    sites := fun site place accesses location remembered => by
      have older := laid.sites site place (by
        simpa only [AccessesField, Outlines, methodAt, reshaped.methods] using accesses) location
        (by simpa only [reshaped.sites] using remembered)
      exact ⟨reshaped.known _ older.1, (reshaped.location? older.1 place).trans older.2⟩
    classValues := fun other present => by
      rw [reshaped.values, reshaped.instanceOf, reshaped.fields]
      exact laid.classValues other (Nat.lt_of_lt_of_eq present reshaped.classCount)
    metaclass := by
      rw [reshaped.core, reshaped.fields]
      exact laid.metaclass }

end Reshaped

/-- An image after a field was assigned: that field holds the value and every other one what it held
before. -/
structure Assigned (before : Image) (receiver : Value) (index : Nat) (value : Value)
    (after : Image) : Prop where
  laid : after.Laid
  extended : before.Extends after
  count : ∀ other : Value, other.Exists before → after.fieldCount other = before.fieldCount other
  value : ∀ other : Value, other.Exists before → ∀ place, after.fieldOf other place =
    if other = receiver ∧ place = index then value else before.fieldOf other place

section Assignment

variable {before between after : Image} {receiver : Value} {index : Nat} {value : Value}

theorem Steady.assigned (earlier : before.Steady between)
    (later : between.Assigned receiver index value after) :
    before.Assigned receiver index value after where
  laid := later.laid
  extended := earlier.extended.trans later.extended
  count := fun other known =>
    (later.count other (known.mono earlier.extended)).trans (earlier.same.count other known)
  value := fun other known place => by
    rw [later.value other (known.mono earlier.extended), earlier.same.value other known]

theorem Assigned.steady (earlier : before.Assigned receiver index value between)
    (later : between.Steady after) : before.Assigned receiver index value after where
  laid := later.laid
  extended := earlier.extended.trans later.extended
  count := fun other known =>
    (later.same.count other (known.mono earlier.extended)).trans (earlier.count other known)
  value := fun other known place =>
    (later.same.value other (known.mono earlier.extended) place).trans
      (earlier.value other known place)

end Assignment

namespace Houses

variable {image : Image} {store written : Instance} {location : Location} {value : Value}
  (houses : image.Houses store) (updated : store.Updated location value written)
include houses updated

/-- Where another field is written, a field stays as it is. -/
theorem intact {place : Nat} {other : Storage} (different : place ≠ location.index)
    (stored : (image.shapeAt store.shape).storages[place]? = some other) :
    written.Fits place other ∧
      written.read ⟨other, place, written.shape⟩ = store.read ⟨other, place, store.shape⟩ := by
  have older := houses.fits place other stored
  have agrees := updated.others place different
  rw [updated.shape]
  exact ⟨agrees.fits older, agrees.read older.suits⟩

/-- An instance is laid out after a field was written as it was before. -/
theorem of_updated
    (stored : (image.shapeAt store.shape).storages[location.index]? = some location.storage) :
    image.Houses written where
  owner := updated.owner ▸ houses.owner
  known := updated.shape ▸ houses.known
  stamped := updated.shape ▸ houses.stamped
  width := by rw [updated.shape, updated.owner]; exact houses.width
  fits := by
    rw [updated.shape]
    intro place other has
    by_cases same : place = location.index
    · subst same
      cases stored.symm.trans has
      exact updated.fits
    · exact (houses.intact updated same has).1
  widens := by rw [updated.shape, updated.owner]; exact houses.widens

theorem valueIn_updated
    (stored : (image.shapeAt store.shape).storages[location.index]? = some location.storage)
    (here : location.shape = store.shape) (place : Nat) :
    image.valueIn written place =
      if place = location.index then value else image.valueIn store place := by
  simp only [valueIn, (houses.of_updated updated stored).locate?_eq, houses.locate?_eq]
  by_cases same : place = location.index
  · subst same
    rw [if_pos rfl, updated.shape, stored, ← here]
    exact updated.reads
  · rw [if_neg same, updated.shape]
    cases has : (image.shapeAt store.shape).storages[place]? with
    | none => rfl
    | some other =>
        have kept := (houses.intact updated same has).2
        rw [updated.shape] at kept
        exact kept

end Houses

/-- A write that an instance accepts where it is laid out. -/
theorem Laid.assign {image : Image} (laid : image.Laid) {ref : ObjectRef} {index : Nat}
    {value : Value} {location : Location} {written : Instance}
    (known : image.heap.objects.Has ref)
    (located : image.locate? (image.objectAt ref) index = some location)
    (accepted : (image.objectAt ref).write? location value = some written) :
    image.Assigned (.object ref) index value (image.setObject ref written) ∧
      image.locate? written index = some location ∧ written.owner = (image.objectAt ref).owner := by
  have houses := laid.objects ref known
  obtain ⟨-, storage, stored, fits, found⟩ | ⟨-, absent⟩ := houses.locate? index
  · cases located.symm.trans found
    have updated := Instance.updated_write? fits accepted
    refine ⟨{
      laid := laid.setObject ref (houses.of_updated updated stored)
      extended := { Extends.refl image with objects := Nat.le_of_eq (Arena.size_set _ _ _).symm }
      count := ?_
      value := ?_ }, ?_, updated.owner⟩
    · intro other present
      cases other with
      | object other =>
          simp only [fieldCount, objectAt_setObject]
          split
          · next changed => rw [changed.1, updated.owner]; rfl
          · rfl
      | _ => rfl
    · intro other present place
      cases other with
      | object other =>
          simp only [fieldOf, objectAt_setObject]
          by_cases same : other = ref
          · subst same
            rw [if_pos ⟨rfl, known⟩]
            change image.valueIn written place = _
            simpa using houses.valueIn_updated updated stored rfl place
          · rw [if_neg (fun changed => same changed.1), if_neg (by simp [same])]
            rfl
      | _ => rw [if_neg (by simp)]; rfl
    · rw [(houses.of_updated updated stored).locate?_eq, updated.shape, stored]
      rfl
  · rw [absent] at located
    cases located

theorem Reshaped.steady {image after : Image} {ref : ClassRef} {index : Nat}
    {before storage : Storage}
    (reshaped : image.Reshaped ref
      ((image.shapeAt (image.classAt ref).shape).storages.setIfInBounds index storage) after)
    (laid : image.Laid) (known : image.classes.Has ref)
    (had : (image.shapeAt (image.classAt ref).shape).storages[index]? = some before)
    (widens : before.Widens storage) (suits : storage.Suits index)
    (extended : image.Extends after) : image.Steady after where
  laid := reshaped.laid laid known had widens suits
  same := reshaped.sameFields laid
  extended := extended

/-- After the storage of a field was generalized for a value, the value is accepted. -/
theorem Laid.writeGeneralized {image : Image} (laid : image.Laid) {ref : ObjectRef} {index : Nat}
    {storage : Storage} (known : image.heap.objects.Has ref)
    (current : (image.objectAt ref).shape = (image.classAt (image.objectAt ref).owner).shape)
    (stored : (image.shapeAt (image.objectAt ref).shape).storages[index]? = some storage)
    (suits : storage.Suits index) (value : Value) :
    ∃ location after,
      ((image.generalize (image.objectAt ref).owner index
        (storage.generalize index value)).revalidate ref).writeLocated? ref index value =
          some (location, after) ∧
        image.Assigned (.object ref) index value after ∧
        after.locate? (after.objectAt ref) index = some location ∧
        after.heap.objects.Has ref := by
  have owned := (laid.objects ref known).owner
  have reshaped := image.reshaped_generalize (image.objectAt ref).owner index
    (storage.generalize index value)
  have extended := (generalize_tended (fun _ => True) image (image.objectAt ref).owner index
    (storage.generalize index value)).extended
  obtain ⟨widens, suitsNow⟩ := Storage.widens_generalize suits value
  rw [current] at stored
  have steady := reshaped.steady laid owned stored widens suitsNow extended
  have knownThen := Nat.lt_of_lt_of_le known extended.objects
  have updated := steady.laid.revalidate knownThen
  -- The object is now laid out for the shape that the class was just given.
  have shape : (((image.generalize (image.objectAt ref).owner index
      (storage.generalize index value)).revalidate ref).objectAt ref).shape =
        image.shapes.next := by
    rw [updated.shape, updated.owner, reshaped.objectAt]
    simp only [classAt, updated.classes]
    exact reshaped.current owned
  have storedNow : (((image.generalize (image.objectAt ref).owner index
      (storage.generalize index value)).revalidate ref).shapeAt
        image.shapes.next).storages[index]? = some (storage.generalize index value) := by
    simp only [shapeAt, updated.shapes]
    have latest := reshaped.storagesNext
    simp only [shapeAt] at latest stored
    rw [latest]
    exact Array.getElem?_setIfInBounds_self_of_lt (Array.getElem?_eq_some_iff.mp stored).1
  generalize (image.generalize (image.objectAt ref).owner index
    (storage.generalize index value)).revalidate ref = now at updated shape storedNow
  have located : now.locate? (now.objectAt ref) index =
      some ⟨storage.generalize index value, index, image.shapes.next⟩ := by
    rw [(updated.steady.laid.objects ref updated.known).locate?_eq, shape, storedNow]
    rfl
  have accepts := Instance.isSome_write? (now.objectAt ref)
    ⟨storage.generalize index value, index, image.shapes.next⟩ value
  rw [Storage.accepts_generalize] at accepts
  obtain ⟨written, accepted⟩ := Option.isSome_iff_exists.mp accepts
  obtain ⟨assigned, locatedNow, -⟩ := updated.steady.laid.assign updated.known located accepted
  refine ⟨⟨storage.generalize index value, index, image.shapes.next⟩, now.setObject ref written,
    ?_, (steady.trans updated.steady).assigned assigned, ?_,
    Nat.lt_of_lt_of_le updated.known assigned.extended.objects⟩
  · simp only [writeLocated?, located, accepted]
  · rw [objectAt_setObject, if_pos ⟨rfl, updated.known⟩]
    exact locatedNow

/-- Writing a field of an object succeeds exactly if there is such a field, and assigns it. -/
theorem Laid.writeInstance {image : Image} (laid : image.Laid) {ref : ObjectRef}
    (known : image.heap.objects.Has ref) (index : Nat) (value : Value) :
    (index < image.fieldCount (.object ref) ∧ ∃ location after,
      image.writeInstance ref index value = (some location, after) ∧
        image.Assigned (.object ref) index value after ∧
        after.locate? (after.objectAt ref) index = some location ∧
        after.heap.objects.Has ref) ∨
    (¬ index < image.fieldCount (.object ref) ∧ ∃ after,
      image.writeInstance ref index value = (none, after) ∧ image.Steady after) := by
  have updated := laid.revalidate known
  have count := (updated.steady.same.count (.object ref) known).symm
  unfold Image.writeInstance
  dsimp only
  generalize image.revalidate ref = now at updated count
  have houses := updated.steady.laid.objects ref updated.known
  rw [count]
  obtain ⟨inside, storage, stored, fits, found⟩ | ⟨outside, absent⟩ := houses.locate? index
  · refine Or.inl ⟨inside, ?_⟩
    simp only [found]
    cases accepted : (now.objectAt ref).write? ⟨storage, index, (now.objectAt ref).shape⟩ value with
    | some written =>
        obtain ⟨assigned, locatedNow, -⟩ :=
          updated.steady.laid.assign updated.known found accepted
        refine ⟨_, _, rfl, updated.steady.assigned assigned, ?_,
          Nat.lt_of_lt_of_le updated.known assigned.extended.objects⟩
        rw [objectAt_setObject, if_pos ⟨rfl, updated.known⟩]
        exact locatedNow
    | none =>
        obtain ⟨location, after, success, assigned, located, present⟩ :=
          updated.steady.laid.writeGeneralized updated.known updated.shape stored fits.suits value
        simp only [success]
        exact ⟨location, after, rfl, updated.steady.assigned assigned, located, present⟩
  · refine Or.inr ⟨outside, ?_⟩
    simp only [absent]
    exact ⟨_, rfl, updated.steady⟩

theorem Laid.steady {image : Image} (laid : image.Laid) : image.Steady image where
  laid := laid
  same := .refl image
  extended := .refl image

/-- What a read answers: the value of the field, if there is such a field. -/
def Reads (image : Image) (receiver : Value) (index : Nat) (result : Option Value × Image) :
    Prop :=
  result.1 =
      (if index < image.fieldCount receiver then some (image.fieldOf receiver index) else none) ∧
    image.Steady result.2

/-- What a write does: it assigns the field, if there is such a field. -/
def Writes (image : Image) (receiver : Value) (index : Nat) (value : Value)
    (result : Bool × Image) : Prop :=
  (index < image.fieldCount receiver ∧ result.1 = true ∧
      image.Assigned receiver index value result.2) ∨
    (¬ index < image.fieldCount receiver ∧ result.1 = false ∧ image.Steady result.2)

/-- What is read from an instance where its shape has the field. -/
theorem Houses.read {image : Image} {store : Instance} (houses : image.Houses store)
    (index : Nat) :
    (image.locate? store index).map store.read =
      if index < (image.classAt store.owner).fields.length then some (image.valueIn store index)
      else none := by
  obtain ⟨inside, storage, -, -, found⟩ | ⟨outside, absent⟩ := houses.locate? index
  · rw [if_pos inside, valueIn, found]
    rfl
  · rw [if_neg outside, absent]
    rfl

theorem Laid.readField {image : Image} (laid : image.Laid) {receiver : Value}
    (known : receiver.Exists image) (index : Nat) :
    image.Reads receiver index (image.readField receiver index) := by
  cases receiver with
  | object ref =>
      have updated := laid.revalidate known
      refine ⟨?_, updated.steady⟩
      rw [← updated.steady.same.count _ known, ← updated.steady.same.value _ known]
      exact (updated.steady.laid.objects ref updated.known).read index
  | classObject ref =>
      refine ⟨?_, laid.steady⟩
      have width := laid.classValues ref known
      simp only [Image.readField, fieldCount, fieldOf, ← width]
      by_cases inside : index < (image.classAt ref).values.size
      · rw [if_pos inside, Array.getElem?_eq_getElem inside]
        rfl
      · rw [if_neg inside, Array.getElem?_eq_none (Nat.le_of_not_lt inside)]
  | _ => exact ⟨rfl, laid.steady⟩

/-- Two images agree on how objects are laid out, and sites remember no more in the second one. -/
structure SameLayout (before after : Image) : Prop where
  shapes : after.shapes = before.shapes
  objects : after.heap.objects = before.heap.objects
  core : after.core = before.core
  classCount : after.classes.size = before.classes.size
  fields : ∀ ref, (after.classAt ref).fields = (before.classAt ref).fields
  shape : ∀ ref, (after.classAt ref).shape = (before.classAt ref).shape
  instanceOf : ∀ ref, (after.classAt ref).instanceOf = (before.classAt ref).instanceOf
  valueCount : ∀ ref, (after.classAt ref).values.size = (before.classAt ref).values.size
  sites : ∀ site index, after.AccessesField site index → ∀ location,
    after.sites.fields.get site = some location →
      before.AccessesField site index ∧ before.sites.fields.get site = some location

theorem SameLayout.refl (image : Image) : image.SameLayout image where
  shapes := rfl
  objects := rfl
  core := rfl
  classCount := rfl
  fields := fun _ => rfl
  shape := fun _ => rfl
  instanceOf := fun _ => rfl
  valueCount := fun _ => rfl
  sites := fun _ _ accesses _ remembered => ⟨accesses, remembered⟩

namespace SameLayout

variable {before after : Image}

theorem objectAt (same : before.SameLayout after) (ref : ObjectRef) :
    after.objectAt ref = before.objectAt ref := by
  simp only [Image.objectAt, same.objects]

theorem shapeAt (same : before.SameLayout after) (ref : ShapeRef) :
    after.shapeAt ref = before.shapeAt ref := by
  simp only [Image.shapeAt, same.shapes]

theorem laid (same : before.SameLayout after) (laid : before.Laid) : after.Laid where
  classes := fun ref known => by
    have older := laid.classes ref (Nat.lt_of_lt_of_eq known same.classCount)
    exact {
      known := by rw [same.shapes, same.shape]; exact older.known
      stamped := by rw [same.shapeAt, same.shape]; exact older.stamped
      width := by rw [same.shapeAt, same.shape, same.fields]; exact older.width
      suits := by rw [same.shapeAt, same.shape]; exact older.suits }
  objects := fun ref known => by
    rw [same.objects] at known
    have older := laid.objects ref known
    rw [same.objectAt]
    exact {
      owner := Nat.lt_of_lt_of_eq older.owner same.classCount.symm
      known := by rw [same.shapes]; exact older.known
      stamped := by rw [same.shapeAt]; exact older.stamped
      width := by rw [same.shapeAt, same.fields]; exact older.width
      fits := by rw [same.shapeAt]; exact older.fits
      widens := by rw [same.shapeAt, same.shape, same.shapeAt]; exact older.widens }
  sites := fun site index accesses location remembered => by
    obtain ⟨accessed, known⟩ := same.sites site index accesses location remembered
    rw [same.shapes, same.shapeAt]
    exact laid.sites site index accessed location known
  classValues := fun ref known => by
    rw [same.valueCount, same.instanceOf, same.fields]
    exact laid.classValues ref (Nat.lt_of_lt_of_eq known same.classCount)
  metaclass := by
    rw [same.core, same.fields]
    exact laid.metaclass

theorem fieldCount (same : before.SameLayout after) (receiver : Value) :
    after.fieldCount receiver = before.fieldCount receiver := by
  cases receiver with
  | object ref => simp only [Image.fieldCount, same.objectAt, same.fields]
  | classObject ref => simp only [Image.fieldCount, same.instanceOf, same.fields]
  | _ => rfl

theorem fieldOf_object (same : before.SameLayout after) (ref : ObjectRef) (index : Nat) :
    after.fieldOf (.object ref) index = before.fieldOf (.object ref) index := by
  simp only [Image.fieldOf, valueIn, locate?, same.objectAt, same.shapeAt]

/-- With the values of class objects the same as well, an image is as it was. -/
theorem steady (same : before.SameLayout after) (laid : before.Laid)
    (values : ∀ ref, (after.classAt ref).values = (before.classAt ref).values)
    (extended : before.Extends after) : before.Steady after where
  laid := same.laid laid
  same := {
    count := fun receiver _ => same.fieldCount receiver
    value := fun receiver _ index => by
      cases receiver with
      | object ref => exact same.fieldOf_object ref index
      | classObject ref => simp only [Image.fieldOf, values]
      | _ => rfl }
  extended := extended

end SameLayout

/-- Assigning a field of a class object. -/
theorem Laid.assignClass {image : Image} (laid : image.Laid) {ref : ClassRef} {index : Nat}
    (known : image.classes.Has ref) (inside : index < (image.classAt ref).values.size)
    (value : Value) :
    image.Assigned (.classObject ref) index value (image.modifyClass ref fun type =>
      { type with values := type.values.setIfInBounds index value }) := by
  have classes := image.classAt_modifyClass ref fun type =>
    { type with values := type.values.setIfInBounds index value }
  have same : image.SameLayout (image.modifyClass ref fun type =>
      { type with values := type.values.setIfInBounds index value }) :=
    { SameLayout.refl image with
      classCount := Arena.size_modify _ _ _
      fields := fun other => by rw [classes]; split <;> rfl
      shape := fun other => by rw [classes]; split <;> rfl
      instanceOf := fun other => by rw [classes]; split <;> rfl
      valueCount := fun other => by
        rw [classes]
        split
        · exact Array.size_setIfInBounds
        · rfl }
  exact {
    laid := same.laid laid
    extended := { Extends.refl image with classes := Nat.le_of_eq (Arena.size_modify _ _ _).symm }
    count := fun other _ => same.fieldCount other
    value := fun other _ place => by
      cases other with
      | object other =>
          rw [if_neg (by simp)]
          exact same.fieldOf_object other place
      | classObject other =>
          simp only [fieldOf, classes]
          by_cases changed : other = ref
          · subst changed
            rw [if_pos ⟨rfl, known⟩]
            by_cases here : place = index
            · subst here
              rw [if_pos ⟨rfl, rfl⟩]
              simp only [Array.getElem?_setIfInBounds_self_of_lt inside, Option.getD_some]
            · rw [if_neg (fun both => here both.2)]
              simp only [Array.getElem?_setIfInBounds_ne (Ne.symm here)]
          · rw [if_neg (fun both => changed both.1), if_neg (by simp [changed])]
      | _ => rw [if_neg (by simp)]; rfl }

theorem Laid.writeField {image : Image} (laid : image.Laid) {receiver : Value}
    (known : receiver.Exists image) (index : Nat) (value : Value) :
    image.Writes receiver index value (image.writeField receiver index value) := by
  cases receiver with
  | object ref =>
      obtain ⟨inside, location, after, result, assigned, -⟩ | ⟨outside, after, result, steady⟩ :=
        laid.writeInstance known index value
      · refine Or.inl ⟨inside, ?_⟩
        simp only [Image.writeField, result]
        exact ⟨rfl, assigned⟩
      · refine Or.inr ⟨outside, ?_⟩
        simp only [Image.writeField, result]
        exact ⟨rfl, steady⟩
  | classObject ref =>
      have width := laid.classValues ref known
      simp only [Writes, Image.writeField, fieldCount, ← width]
      by_cases inside : index < (image.classAt ref).values.size
      · simp only [if_pos inside]
        exact Or.inl ⟨inside, trivial, laid.assignClass known inside value⟩
      · simp only [if_neg inside]
        exact Or.inr ⟨inside, trivial, laid.steady⟩
  | _ => exact Or.inr ⟨Nat.not_lt_zero index, rfl, laid.steady⟩

/-- A site of a field accesses that field only. -/
theorem WellFormed.field_unique {image : Image} (formed : image.WellFormed) {site : FieldSiteRef}
    {index other : Nat} (accesses : image.AccessesField site index)
    (accessesToo : image.AccessesField site other) : index = other := by
  rcases accesses with outlined | outlined <;> rcases accessesToo with outlinedToo | outlinedToo <;>
    cases formed.fieldsApart _ _ site outlined outlinedToo rfl rfl <;> rfl

/-- A location that a site remembers for an instance is the one that the instance has for the field
of the site. -/
theorem Laid.locate?_of_remembered? {image : Image} (laid : image.Laid) {site : FieldSiteRef}
    {index : Nat} {store : Instance} {location : Location}
    (accesses : image.AccessesField site index)
    (remembered : image.remembered? site store = some location) :
    image.locate? store index = some location := by
  unfold remembered? at remembered
  split at remembered
  · next found =>
      split at remembered
      · next valid =>
          cases remembered
          obtain ⟨-, located⟩ := laid.sites site index accesses _ found
          rw [valid.1] at located
          exact located
      · cases remembered
  · cases remembered

/-- Letting a site remember the location of its field. -/
theorem Laid.setFieldSite {image : Image} (laid : image.Laid) (formed : image.WellFormed)
    {site : FieldSiteRef} {index : Nat} {store : Instance} {location : Location}
    (accesses : image.AccessesField site index) (houses : image.Houses store)
    (located : image.locate? store index = some location) :
    image.Steady (image.setFieldSite site location) where
  laid := {
    classes := fun ref present => { laid.classes ref present with }
    objects := fun ref present => { laid.objects ref present with }
    sites := fun other place accessesToo held remembered => by
      change image.AccessesField other place at accessesToo
      simp only [Image.setFieldSite, Arena.get_set] at remembered
      split at remembered
      · next same =>
          cases remembered
          rw [same.1] at accessesToo
          cases formed.field_unique accesses accessesToo
          have shape : location.shape = store.shape := by
            rw [houses.locate?_eq] at located
            obtain ⟨storage, -, rfl⟩ := Option.map_eq_some_iff.mp located
            rfl
          exact ⟨shape ▸ houses.known, by rw [shape]; exact located⟩
      · exact laid.sites other place accessesToo held remembered
    classValues := laid.classValues
    metaclass := laid.metaclass }
  same := { SameFields.refl image with }
  extended := { Extends.refl image with fields := Nat.le_of_eq (Arena.size_set _ _ _).symm }

theorem Laid.readFieldAt {image : Image} (laid : image.Laid) (formed : image.WellFormed)
    {receiver : Value} (known : receiver.Exists image) {site : FieldSiteRef} {index : Nat}
    (accesses : image.AccessesField site index) :
    image.Reads receiver index (image.readFieldAt site receiver index) := by
  cases receiver with
  | object ref =>
      unfold Image.readFieldAt
      dsimp only
      cases remembered : image.remembered? site (image.objectAt ref) with
      | some location =>
          have located := laid.locate?_of_remembered? accesses remembered
          have read := (laid.objects ref known).read index
          rw [located] at read
          exact ⟨read, laid.steady⟩
      | none =>
          have updated := laid.revalidate known
          have plain : ∀ value : Value, value.IsPlain → value.IsNormal → value.Exists image :=
            fun value plain _ => plain.exists image
          have tended := revalidate_tended plain image ref
          have formedNow := formed.of_methods tended.extended (tended.within formed.within)
            tended.methods
          have accessesNow : (image.revalidate ref).AccessesField site index :=
            accesses.imp (·.mono tended.extended) (·.mono tended.extended)
          rw [Reads, ← updated.steady.same.count _ known, ← updated.steady.same.value _ known]
          have houses := updated.steady.laid.objects ref updated.known
          have read := houses.read index
          dsimp only
          cases located : (image.revalidate ref).locate? ((image.revalidate ref).objectAt ref)
              index with
          | none =>
              rw [located] at read
              exact ⟨read, updated.steady⟩
          | some location =>
              rw [located] at read
              exact ⟨read, updated.steady.trans (updated.steady.laid.setFieldSite formedNow
                accessesNow houses located)⟩
  | _ => exact laid.readField known index

theorem Laid.writeFieldAt {image : Image} (laid : image.Laid) (formed : image.WellFormed)
    {receiver value : Value} (known : receiver.Exists image) (incoming : value.Exists image)
    {site : FieldSiteRef} {index : Nat} (accesses : image.AccessesField site index) :
    image.Writes receiver index value (image.writeFieldAt site receiver index value) := by
  cases receiver with
  | object ref =>
      unfold Image.writeFieldAt
      dsimp only
      cases accepted : (image.remembered? site (image.objectAt ref)).bind
          fun location => (image.objectAt ref).write? location value with
      | some written =>
          obtain ⟨location, remembered, success⟩ := Option.bind_eq_some_iff.mp accepted
          have located := laid.locate?_of_remembered? accesses remembered
          have inside : index < image.fieldCount (.object ref) := by
            obtain ⟨inside, -⟩ | ⟨-, absent⟩ := (laid.objects ref known).locate? index
            · exact inside
            · rw [located] at absent
              cases absent
          exact Or.inl ⟨inside, rfl, (laid.assign known located success).1⟩
      | none =>
          have plain : ∀ value : Value, value.IsPlain → value.IsNormal → value.Exists image :=
            fun value plain _ => plain.exists image
          have tended := writeInstance_tended plain image ref index incoming
          obtain ⟨inside, location, after, result, assigned, located, present⟩ |
            ⟨outside, after, result, steady⟩ := laid.writeInstance known index value
          · rw [result] at tended
            have formedNow := formed.of_methods tended.extended (tended.within formed.within)
              tended.methods
            have accessesNow : after.AccessesField site index :=
              accesses.imp (·.mono tended.extended) (·.mono tended.extended)
            refine Or.inl ⟨inside, ?_⟩
            simp only [result]
            exact ⟨trivial, assigned.steady (assigned.laid.setFieldSite formedNow accessesNow
              (assigned.laid.objects ref present) located)⟩
          · refine Or.inr ⟨outside, ?_⟩
            simp only [result]
            exact ⟨trivial, steady⟩
  | _ => exact laid.writeField known index value

end Image

end MessageMachine
