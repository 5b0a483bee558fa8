import MessageMachine.Machine.Activation
import MessageMachine.Proofs.FieldAccess

/-!
# The storage of objects is a map

However objects are laid out, and in whatever order instances are made, migrated, read and written,
a field holds what was last written to it, and nil as long as nothing was.  The history of an image
is the list of the actions that led to it from the initial one.  Each action either assigns one
field or none, and what comes into existence has nothing but nil in its fields.

Fields are reached in three ways: directly, by way of a site in prepared code, and by position from
within a program.  All of them refer to the same map.
-/

namespace MessageMachine

/-- The assignment that an action attempts: the receiver, the index of the field and the value. -/
def Action.assigns : Action → Option (Value × Nat × Value)
  | .writeField receiver index value => some (receiver, index, value)
  | .writeFieldAt _ receiver index value => some (receiver, index, value)
  | _ => none

/-- The value last written to a field in a sequence of actions, if any was. -/
def lastWritten (actions : List Action) (receiver : Value) (index : Nat) : Option Value :=
  actions.foldl
    (fun held action =>
      match action.assigns with
      | some (other, place, value) =>
          if receiver = other ∧ index = place then some value else held
      | none => held)
    none

/-- One more action overrides what was written before only if it assigns the same field. -/
theorem lastWritten_append (actions : List Action) (action : Action) (receiver : Value)
    (index : Nat) :
    lastWritten (actions ++ [action]) receiver index =
      match action.assigns with
      | some (other, place, value) =>
          if receiver = other ∧ index = place then some value
          else lastWritten actions receiver index
      | none => lastWritten actions receiver index := by
  simp only [lastWritten, List.foldl_append, List.foldl_cons, List.foldl_nil]

/-- A fresh instance is laid out for its shape. -/
theorem Instance.fits_ofShape {owner : ClassRef} {shape : Shape} {index : Nat}
    {storage : Storage} (stored : shape.storages[index]? = some storage)
    (suits : storage.Suits index) : (ofShape owner shape).Fits index storage where
  suits := suits
  spill := by
    intro spilled
    have inside := (Array.getElem?_eq_some_iff.mp stored).1
    have outside := suits.mp spilled
    rw [Shape.size_storages] at inside
    simp only [ofShape, Array.size_replicate]
    omega
  scalar := by
    intro _ _
    simp only [scalar?, ofShape, Vector.getElem?_replicate]
    split <;> rfl
  reference := by
    intro _
    simp only [ofShape, Vector.getElem?_replicate]
    split <;> rfl

/-- A fresh instance reads as nil everywhere. -/
theorem Instance.read_ofShape (owner : ClassRef) (shape : Shape) (location : Location) :
    (ofShape owner shape).read location = .nil := by
  have word : (ofShape owner shape).scalar? location.index = none := by
    simp only [scalar?, ofShape, Vector.getElem?_replicate]
    split <;> rfl
  unfold read
  cases location.storage with
  | unwritten => rfl
  | integer => simp only [word]
  | double => simp only [word]
  | reference =>
      simp only [ofShape, Vector.getElem?_replicate]
      split <;> rfl
  | overflow =>
      simp only [ofShape, Array.getElem?_replicate]
      split <;> rfl

namespace Image

theorem objectAt_instantiate (image : Image) (owner : ClassRef) (ref : ObjectRef) :
    (image.instantiate owner).2.objectAt ref =
      if ref = image.heap.objects.next then
        .ofShape owner (image.shapeAt (image.classAt owner).shape)
      else image.objectAt ref :=
  Arena.get_push _ _ _

theorem Laid.instantiate {image : Image} (laid : image.Laid) {owner : ClassRef}
    (known : image.classes.Has owner) : image.Steady (image.instantiate owner).2 := by
  have shaped := laid.classes owner known
  have fresh : image.Houses (.ofShape owner (image.shapeAt (image.classAt owner).shape)) := by
    have shape : (Instance.ofShape owner (image.shapeAt (image.classAt owner).shape)).shape =
        (image.classAt owner).shape := shaped.stamped.id
    exact {
      owner := known
      known := shape.symm ▸ shaped.known
      stamped := shape.symm ▸ shaped.stamped
      width := by
        rw [shape]
        exact shaped.width
      fits := by
        rw [shape]
        exact fun index storage stored =>
          Instance.fits_ofShape stored (shaped.suits index storage stored)
      widens := by
        rw [shape]
        intro index before after had has
        cases had.symm.trans has
        exact .refl before }
  have older : ∀ ref, image.heap.objects.Has ref →
      (image.instantiate owner).2.objectAt ref = image.objectAt ref := by
    intro ref present
    rw [objectAt_instantiate, if_neg present.ne_next]
  exact {
    laid := {
      classes := fun ref present => { laid.classes ref present with }
      objects := fun ref present => by
        rw [objectAt_instantiate]
        split
        · exact { fresh with }
        · next different =>
            exact { laid.objects ref (((Arena.has_push _ _ _).mp present).resolve_right
              different) with }
      sites := laid.sites
      classValues := laid.classValues
      metaclass := laid.metaclass }
    same := {
      count := fun receiver present => by
        cases receiver with
        | object ref =>
            simp only [fieldCount, older ref present]
            rfl
        | _ => rfl
      value := fun receiver present index => by
        cases receiver with
        | object ref =>
            simp only [fieldOf, older ref present]
            rfl
        | _ => rfl }
    extended := { Extends.refl image with objects := by simp [Image.instantiate] } }

/-- A new method uses sites that remember nothing yet. -/
theorem Laid.install {image : Image} (laid : image.Laid) {holder : ClassRef}
    {selector : Selector} {behavior : Behavior}
    (allowed : (Action.install holder selector behavior).Allowed image) :
    image.Steady ((Action.install holder selector behavior).perform image) := by
  have extended := Action.extends_perform allowed
  have classes := image.classAt_install_cases holder selector behavior
  have sites : ∀ site index,
      ((Action.install holder selector behavior).perform image).AccessesField site index →
        image.AccessesField site index ∨ image.sites.fields.get site = none := by
    intro site index accesses
    rcases accesses with outlined | outlined <;> rcases outlines_install outlined with old | new
    · exact Or.inl (Or.inl old)
    · exact Or.inr (allowed.2.fieldsUnused _ new site rfl).1
    · exact Or.inl (Or.inr old)
    · exact Or.inr (allowed.2.fieldsUnused _ new site rfl).1
  obtain ⟨journal, installed⟩ := image.addMethod_eq holder selector behavior
  simp only [Action.perform, installed] at extended classes sites ⊢
  refine SameLayout.steady { SameLayout.refl image with
    classCount := Arena.size_modify _ _ _
    fields := fun ref => ?_
    shape := fun ref => ?_
    instanceOf := fun ref => ?_
    valueCount := fun ref => ?_
    sites := fun site index accesses location remembered => ?_ } laid (fun ref => ?_) extended
  case refine_5 =>
    rcases sites site index accesses with known | unused
    · exact ⟨known, remembered⟩
    · cases remembered.symm.trans unused
  all_goals rcases classes ref with same | ⟨-, same⟩ <;> rw [same]

theorem Shaped.initial {image : Image} {ref : ClassRef} (owner : ClassRef)
    (known : image.shapes.Has (image.classAt ref).shape)
    (first : image.shapeAt (image.classAt ref).shape =
      .initial (image.classAt ref).shape owner (image.classAt ref).fields.length) :
    image.Shaped ref where
  known := known
  stamped := by
    rw [first]
    exact Shape.stamped_initial _ _ _
  width := by
    rw [first]
    simp [Shape.storages_initial]
  suits := by
    intro index storage stored
    rw [first] at stored
    simp only [Shape.storages_initial, List.getElem?_toArray, List.getElem?_map] at stored
    obtain ⟨place, found, rfl⟩ := Option.map_eq_some_iff.mp stored
    obtain ⟨-, rfl⟩ := List.getElem?_eq_some_iff.mp found
    simpa using Storage.suits_initial index

section Registration

variable (image : Image) (name : String) (superclass : ClassRef) (fields classFields : List String)

/-- Shapes that exist stay as they are when a class is registered. -/
theorem shapeAt_register {shape : ShapeRef} (known : image.shapes.Has shape) :
    ((Action.register name superclass fields classFields).perform image).shapes.Has shape ∧
      ((Action.register name superclass fields classFields).perform image).shapeAt shape =
        image.shapeAt shape := by
  simp only [Action.perform, registerPair_eq, shapeAt]
  have present := (Arena.has_push image.shapes (.initial image.shapes.next image.classes.next
    (image.newMetaclass name superclass classFields).fields.length) shape).mpr (Or.inl known)
  exact ⟨(Arena.has_push _ _ _).mpr (Or.inl present),
    (Arena.get_push_of_has _ present).trans (Arena.get_push_of_has _ known)⟩

/-- A class that was just registered has a shape with nothing written. -/
theorem shaped_register {ref : ClassRef}
    (new : ref = image.classes.next ∨ ref = ⟨image.classes.size + 1⟩) :
    ((Action.register name superclass fields classFields).perform image).Shaped ref := by
  have apart : image.shapes.size ≠ image.shapes.size + 1 := by omega
  rcases new with rfl | rfl
  · refine Shaped.initial image.classes.next ?_ ?_ <;> rw [classAt_register_metaclass]
    · simp [Action.perform, registerPair_eq, newMetaclass]
    · simp only [Action.perform, registerPair_eq, shapeAt, newMetaclass, Arena.get_push,
        Arena.next, Arena.size_push, Ref.mk.injEq, apart, if_true, if_false]
  · refine Shaped.initial ⟨image.classes.size + 1⟩ ?_ ?_ <;> rw [classAt_register_class]
    · simp [Action.perform, registerPair_eq, newClass, Arena.next]
    · simp only [Action.perform, registerPair_eq, shapeAt, newClass, Arena.get_push, Arena.next,
        Arena.size_push, if_true]

end Registration

theorem Laid.register {image : Image} (laid : image.Laid) (formed : image.WellFormed)
    {name : String} {superclass : ClassRef} {fields classFields : List String}
    (known : image.classes.Has superclass) :
    image.Steady ((Action.register name superclass fields classFields).perform image) := by
  have extended := Action.extends_perform
    (show (Action.register name superclass fields classFields).Allowed image from known)
  have classes := image.classAt_register_cases name superclass fields classFields
  have has := image.has_register name superclass fields classFields
  have kept := fun {ref} => @classAt_register_of_has image name superclass fields classFields ref
  have shapes := fun {shape} => @shapeAt_register image name superclass fields classFields shape
  have heap : ((Action.register name superclass fields classFields).perform image).heap =
      image.heap := rfl
  have metaclass : image.classes.Has image.core.metaclass :=
    formed.within.core _ (by simp [CoreClasses.inOrder])
  have objects : ∀ ref, ((Action.register name superclass fields classFields).perform
      image).objectAt ref = image.objectAt ref := fun _ => rfl
  exact {
    laid := {
      classes := fun ref present => by
        rcases (has ref).mp present with old | new
        · have older := laid.classes ref old
          exact {
            known := by rw [kept old]; exact (shapes older.known).1
            stamped := by rw [kept old, (shapes older.known).2]; exact older.stamped
            width := by rw [kept old, (shapes older.known).2]; exact older.width
            suits := by rw [kept old, (shapes older.known).2]; exact older.suits }
        · exact image.shaped_register name superclass fields classFields new
      objects := fun ref present => by
        have older := laid.objects ref present
        have current := laid.classes _ older.owner
        rw [objects]
        exact {
          owner := (has _).mpr (Or.inl older.owner)
          known := (shapes older.known).1
          stamped := by rw [(shapes older.known).2]; exact older.stamped
          width := by rw [(shapes older.known).2, kept older.owner]; exact older.width
          fits := by rw [(shapes older.known).2]; exact older.fits
          widens := by
            rw [(shapes older.known).2, kept older.owner, (shapes current.known).2]
            exact older.widens }
      sites := fun site index accesses location remembered => by
        have older := laid.sites site index accesses location remembered
        refine ⟨(shapes older.1).1, ?_⟩
        rw [(shapes older.1).2]
        exact older.2
      classValues := fun ref present => by
        rcases (has ref).mp present with old | rfl | rfl
        · have instanceOf := formed.within.metaclasses ref old
          rw [kept old, kept instanceOf]
          exact laid.classValues ref old
        · rw [classAt_register_metaclass]
          exact ((congrArg (fun type : Class => type.fields.length) (kept metaclass)).trans
            laid.metaclass).symm
        · rw [classAt_register_class]
          simp only [newClass, classAt_register_metaclass, Array.size_replicate]
      metaclass := by
        have same : ((Action.register name superclass fields classFields).perform image).core =
          image.core := rfl
        rw [same, kept metaclass]
        exact laid.metaclass }
    same := {
      count := fun receiver present => by
        cases receiver with
        | object ref => simp only [fieldCount, objects, kept (laid.objects ref present).owner]
        | classObject ref =>
            simp only [fieldCount, kept present, kept (formed.within.metaclasses ref present)]
        | _ => rfl
      value := fun receiver present index => by
        cases receiver with
        | object ref =>
            simp only [fieldOf, valueIn, locate?, objects,
              (shapes (laid.objects ref present).known).2]
        | classObject ref => simp only [fieldOf, kept present]
        | _ => rfl }
    extended := extended }

end Image

namespace Action

open Image

variable {image : Image} {action : Action}

/-- An action that assigns no field leaves all fields alone. -/
theorem steady_perform (laid : image.Laid) (formed : image.WellFormed)
    (allowed : action.Allowed image) (nothing : action.assigns = none) :
    image.Steady (action.perform image) := by
  have extended := extends_perform allowed
  have same := SameLayout.refl image
  cases action with
  | noteDown journal => exact SameLayout.steady { same with } laid (fun _ => rfl) extended
  | meet names => exact SameLayout.steady { same with } laid (fun _ => rfl) extended
  | draw bound => exact SameLayout.steady { same with } laid (fun _ => rfl) extended
  | makeArray elements => exact SameLayout.steady { same with } laid (fun _ => rfl) extended
  | setElement ref place value => exact SameLayout.steady { same with } laid (fun _ => rfl) extended
  | makeBlock closure => exact SameLayout.steady { same with } laid (fun _ => rfl) extended
  | enter frame => exact SameLayout.steady { same with } laid (fun _ => rfl) extended
  | setSlot frame kind index value =>
      exact SameLayout.steady { same with } laid (fun _ => rfl) extended
  | leave frame => exact SameLayout.steady { same with } laid (fun _ => rfl) extended
  | settle site => exact SameLayout.steady { same with } laid (fun _ => rfl) extended
  | bind name value => exact SameLayout.steady { same with } laid (fun _ => rfl) extended
  | instantiate owner => exact laid.instantiate allowed
  | readField receiver index => exact (laid.readField allowed index).2
  | readFieldAt site receiver index => exact (laid.readFieldAt formed allowed.1 allowed.2).2
  | writeField receiver index value => cases nothing
  | writeFieldAt site receiver index value => cases nothing
  | resolve site selector receiver =>
      obtain ⟨calls, journal, -, result⟩ := image.lookupAt_eq site selector receiver
      rw [perform, result] at extended ⊢
      exact SameLayout.steady { same with } laid (fun _ => rfl) extended
  | resolveSuper site origin selector =>
      obtain ⟨calls, -, result⟩ := image.lookupSuperAt_eq site origin selector
      rw [perform, result] at extended ⊢
      exact SameLayout.steady { same with } laid (fun _ => rfl) extended
  | allocate sites =>
      refine SameLayout.steady { same with sites := ?_ } laid (fun _ => rfl) extended
      intro site index accesses location remembered
      exact ⟨accesses, (allowed.fields site).symm.trans remembered⟩
  | install holder selector behavior => exact laid.install allowed
  | remove holder selector =>
      have classes := image.classAt_remove_cases holder selector
      refine SameLayout.steady { same with
        classCount := by simp [perform, removeMethod, modifyClass]
        fields := fun ref => ?_
        shape := fun ref => ?_
        instanceOf := fun ref => ?_
        valueCount := fun ref => ?_ } laid (fun ref => ?_) extended <;>
        rcases classes ref with unchanged | unchanged <;> rw [unchanged]
  | register name superclass fields classFields => exact laid.register formed allowed

/-- What an action does to the fields: it assigns the one that it names, if there is such a field,
and no other. -/
theorem effect_perform (laid : image.Laid) (formed : image.WellFormed)
    (allowed : action.Allowed image) :
    (action.assigns = none ∧ image.Steady (action.perform image)) ∨
      ∃ receiver index value, action.assigns = some (receiver, index, value) ∧
        receiver.Exists image ∧
        ((index < image.fieldCount receiver ∧
            image.Assigned receiver index value (action.perform image)) ∨
          (¬ index < image.fieldCount receiver ∧ image.Steady (action.perform image))) := by
  have written : ∀ receiver index value result, image.Writes receiver index value result →
      (index < image.fieldCount receiver ∧ image.Assigned receiver index value result.2) ∨
        (¬ index < image.fieldCount receiver ∧ image.Steady result.2) := by
    rintro receiver index value result (⟨inside, -, assigned⟩ | ⟨outside, -, steady⟩)
    · exact Or.inl ⟨inside, assigned⟩
    · exact Or.inr ⟨outside, steady⟩
  cases assigned : action.assigns with
  | none => exact Or.inl ⟨rfl, steady_perform laid formed allowed assigned⟩
  | some assignment =>
      right
      cases action with
      | writeField receiver index value =>
          cases assigned
          exact ⟨receiver, index, value, rfl, allowed.1,
            written _ _ _ _ (laid.writeField allowed.1 index value)⟩
      | writeFieldAt site receiver index value =>
          cases assigned
          exact ⟨receiver, index, value, rfl, allowed.1,
            written _ _ _ _ (laid.writeFieldAt formed allowed.1 allowed.2.1 allowed.2.2)⟩
      | _ => cases assigned

theorem laid_perform (laid : image.Laid) (formed : image.WellFormed)
    (allowed : action.Allowed image) : (action.perform image).Laid := by
  rcases effect_perform laid formed allowed with
    ⟨-, steady⟩ | ⟨receiver, index, value, -, -, ⟨-, assigned⟩ | ⟨-, steady⟩⟩
  · exact steady.laid
  · exact assigned.laid
  · exact steady.laid

/-- What an action brings into existence has nothing but nil in its fields. -/
theorem fieldOf_new {receiver : Value} (present : receiver.Exists (action.perform image))
    (new : ¬ receiver.Exists image) (index : Nat) :
    (action.perform image).fieldOf receiver index = .nil := by
  cases receiver with
  | object ref =>
      rcases (growth_perform image action).objects with ⟨owner, rfl⟩ | same
      · have next := ((Arena.has_push _ _ _).mp present).resolve_left new
        change ((image.instantiate owner).2).fieldOf (.object ref) index = .nil
        simp only [fieldOf, objectAt_instantiate, if_pos next, valueIn]
        cases (image.instantiate owner).2.locate? _ index with
        | none => rfl
        | some location => exact Instance.read_ofShape _ _ location
      · exact absurd (Nat.lt_of_lt_of_eq present same) new
  | classObject ref =>
      rcases (growth_perform image action).classes with
        ⟨name, superclass, fields, classFields, rfl⟩ | same
      · rcases ((image.has_register name superclass fields classFields ref).mp
          present).resolve_left new with rfl | rfl
        · simp only [fieldOf, classAt_register_metaclass]
          rfl
        · simp only [fieldOf, classAt_register_class, newClass, Array.getElem?_replicate]
          split <;> rfl
      · exact absurd (Nat.lt_of_lt_of_eq present same) new
  | _ => rfl

end Action

namespace Image

theorem size_shapes_founded : (founded .plain .standard false).shapes.size = 36 := by
  decide +kernel

/-- A shape without fields has no location to be made out wrongly. -/
theorem Bare.stamped {image : Image} {ref : ClassRef} (bare : image.Bare ref) :
    (image.shapeAt ⟨ref.index⟩).Stamped ⟨ref.index⟩ where
  id := bare.id
  location := by
    intro index location found
    have inside := (Array.getElem?_eq_some_iff.mp found).1
    rw [← Shape.size_storages, bare.storages] at inside
    cases inside

theorem laid_founded : (founded .plain .standard false).Laid := by
  have vacant := vacant_founded
  have bare := fun {ref} => @bare_of_has ref
  have shape : ∀ {ref : ClassRef}, (founded .plain .standard false).classes.Has ref →
      ((founded .plain .standard false).classAt ref).shape = ⟨ref.index⟩ := by
    intro ref known
    have same := (bare known).shape
    generalize ((founded .plain .standard false).classAt ref).shape = shape at same
    cases shape
    cases same
    rfl
  exact {
    classes := fun ref known => by
      refine {
        known := ?_
        stamped := ?_
        width := ?_
        suits := fun index storage stored => ?_ }
      · rw [shape known]
        exact Nat.lt_of_lt_of_eq (Nat.lt_of_lt_of_eq known size_classes_founded)
          size_shapes_founded.symm
      · rw [shape known]
        exact (bare known).stamped
      · rw [shape known, (bare known).storages, (bare known).fields]
      · have inside := (Array.getElem?_eq_some_iff.mp stored).1
        rw [shape known, (bare known).storages] at inside
        cases inside
    objects := fun ref known => absurd known (Arena.not_has_of_size_eq_zero vacant.objects ref)
    sites := fun site index accesses => by
      rcases accesses with ⟨ref, member⟩ | ⟨ref, member⟩ <;>
        exact absurd (has_of_mem_outline member)
          (Arena.not_has_of_size_eq_zero vacant.methods ref)
    classValues := fun ref known => by
      rw [(bare known).values, (bare (bare known).metaclass).fields]
    metaclass := (bare (core_founded _ (by simp [CoreClasses.inOrder]))).fields }

/-- Nothing in an image has fields yet. -/
def Fieldless (image : Image) : Prop :=
  image.heap.objects.size = 0 ∧ ∀ ref, (image.classAt ref).fields.length = 0

theorem fieldless_founded : (founded .plain .standard false).Fieldless := by
  refine ⟨vacant_founded.objects, fun ref => ?_⟩
  by_cases known : (founded .plain .standard false).classes.Has ref
  · exact (bare_of_has known).fields
  · rw [classAt, Arena.get_of_not_has known]
    rfl

theorem laid_initial (platform : Platform) (settings : Settings) (listening : Bool) :
    (initial platform settings listening).Laid ∧
      (initial platform settings listening).Fieldless := by
  have start : (founded platform settings listening).Laid ∧
      (founded platform settings listening).Fieldless := by
    rw [founded_eq]
    exact ⟨laid_founded.rebased _ _ _, fieldless_founded⟩
  have keeps : Keeps fun image => image.Laid ∧ image.Fieldless := by
    intro image action founding allowed formed ⟨laid, noObjects, fieldless⟩
    refine ⟨Action.laid_perform laid formed allowed, ?_⟩
    cases action with
    | noteDown journal => exact ⟨noObjects, fieldless⟩
    | bind name value => exact ⟨noObjects, fieldless⟩
    | install holder selector behavior =>
        have classes := image.classAt_install_cases holder selector behavior
        rcases (Action.growth_perform image (.install holder selector behavior)).objects with
          ⟨owner, impossible⟩ | same
        · cases impossible
        · refine ⟨same.trans noObjects, fun ref => ?_⟩
          rcases classes ref with unchanged | ⟨-, unchanged⟩ <;> rw [unchanged] <;>
            exact fieldless ref
    | _ => cases founding
  exact (initial_induction platform settings listening start keeps).2

/-- The fields of an image hold what a history wrote to them. -/
structure Faithful (actions : List Action) (image : Image) : Prop where
  formed : image.WellFormed
  laid : image.Laid
  /-- Only what exists was written to. -/
  known : ∀ (receiver : Value) index, lastWritten actions receiver index ≠ none →
    receiver.Exists image
  value : ∀ receiver : Value, receiver.Exists image → ∀ index < image.fieldCount receiver,
    image.fieldOf receiver index = (lastWritten actions receiver index).getD .nil

/-- Nothing was written to an image without fields. -/
theorem Fieldless.faithful {image : Image} (fieldless : image.Fieldless)
    (formed : image.WellFormed) (laid : image.Laid) : image.Faithful [] where
  formed := formed
  laid := laid
  known := fun _ _ written => absurd rfl written
  value := by
    intro receiver present index inside
    have count : image.fieldCount receiver = 0 := by
      cases receiver with
      | object ref => exact fieldless.2 _
      | classObject ref => exact fieldless.2 _
      | _ => rfl
    rw [count] at inside
    cases inside

/-- One more action keeps a history faithful. -/
theorem Faithful.act {image : Image} {actions : List Action} {action : Action}
    (faithful : image.Faithful actions) (allowed : action.Allowed image) :
    (action.perform image).Faithful (actions ++ [action]) := by
  have extended := Action.extends_perform allowed
  have effect := Action.effect_perform faithful.laid faithful.formed allowed
  -- What is new was never written to, and has nothing but nil in its fields.
  have unwritten : ∀ (receiver : Value) index, ¬ receiver.Exists image →
      lastWritten (actions ++ [action]) receiver index = none := by
    intro receiver index new
    have before : lastWritten actions receiver index = none := by
      by_cases written : lastWritten actions receiver index = none
      · exact written
      · exact absurd (faithful.known receiver index written) new
    rw [lastWritten_append]
    rcases effect with ⟨assigns, -⟩ | ⟨other, place, value, assigns, present, -⟩
    · rw [assigns]
      exact before
    · have different : ¬ (receiver = other ∧ index = place) := fun same => new (same.1 ▸ present)
      rw [assigns]
      exact (if_neg different).trans before
  exact {
    formed := Action.wellFormed_perform faithful.formed allowed
    laid := Action.laid_perform faithful.laid faithful.formed allowed
    known := fun receiver index written => by
      by_cases present : receiver.Exists image
      · exact present.mono extended
      · exact absurd (unwritten receiver index present) written
    value := fun receiver present index inside => by
      by_cases old : receiver.Exists image
      · rw [lastWritten_append]
        rcases effect with ⟨assigns, steady⟩ |
          ⟨other, place, value, assigns, -, ⟨within, assigned⟩ | ⟨beyond, steady⟩⟩
        · rw [steady.same.count receiver old] at inside
          rw [assigns, steady.same.value receiver old]
          exact faithful.value receiver old index inside
        · rw [assigned.count receiver old] at inside
          rw [assigns, assigned.value receiver old]
          by_cases same : receiver = other ∧ index = place
          · simp only [if_pos same, Option.getD_some]
          · simp only [if_neg same]
            exact faithful.value receiver old index inside
        · rw [steady.same.count receiver old] at inside
          have different : ¬ (receiver = other ∧ index = place) := by
            rintro ⟨rfl, rfl⟩
            exact beyond inside
          rw [assigns, steady.same.value receiver old]
          simp only [if_neg different]
          exact faithful.value receiver old index inside
      · rw [unwritten receiver index old]
        exact Action.fieldOf_new present old index }

theorem Reaches.faithful {platform : Platform} {settings : Settings} {listening : Bool}
    {actions : List Action} {image : Image}
    (history : (initial platform settings listening).Reaches actions image) :
    image.Faithful actions := by
  induction history with
  | start =>
      obtain ⟨laid, fieldless⟩ := laid_initial platform settings listening
      exact fieldless.faithful (wellFormed_initial platform settings listening) laid
  | act action _ allowed inductionHypothesis => exact inductionHypothesis.act allowed

end Image

namespace Image

/-- Where no field has changed, reads answer the same. -/
theorem Steady.readField {before after : Image} (steady : before.Steady after)
    (laid : before.Laid) {receiver : Value} (known : receiver.Exists before) (index : Nat) :
    (after.readField receiver index).1 = (before.readField receiver index).1 := by
  rw [(steady.laid.readField (known.mono steady.extended) index).1,
    (laid.readField known index).1, steady.same.count receiver known,
    steady.same.value receiver known]

/-- After an assignment, reads answer the value assigned or what they answered before. -/
theorem Assigned.readField {before after : Image} {receiver value : Value} {index : Nat}
    (assigned : before.Assigned receiver index value after) (laid : before.Laid)
    (inside : index < before.fieldCount receiver) {other : Value} (known : other.Exists before)
    (place : Nat) :
    (after.readField other place).1 =
      if other = receiver ∧ place = index then some value
      else (before.readField other place).1 := by
  rw [(assigned.laid.readField (known.mono assigned.extended) place).1,
    (laid.readField known place).1, assigned.count other known, assigned.value other known]
  by_cases same : other = receiver ∧ place = index
  · obtain ⟨rfl, rfl⟩ := same
    simp [inside]
  · simp only [if_neg same]

end Image

/-- A way to reach a field. -/
inductive Access
  | direct (index : Nat)
  /-- By way of a site in prepared code. -/
  | atSite (site : FieldSiteRef) (index : Nat)
  /-- From within a program, by a position that counts from one. -/
  | byPosition (position : Int64)

namespace Access

/-- The index that an access asks for; positions below one ask for none. -/
def index? (platform : Platform) : Access → Option Nat
  | .direct index => some index
  | .atSite _ index => some index
  | .byPosition position => (platform.difference? position 1).bind place?

/-- A site is used by the nodes that it belongs to only. -/
def Usable (image : Image) : Access → Prop
  | .atSite site index => image.AccessesField site index
  | _ => True

/-- Whether an access comes back to the program.  By position it does not if the machine stops over
the subtraction of one, nor if the complaint about a missing field would go on forever. -/
def Returns (image : Image) (receiver : Value) : Access → Prop
  | .byPosition position =>
      (image.platform.difference? position 1).isSome ∧ (image.text? receiver).isSome
  | _ => True

instance (image : Image) (receiver : Value) (access : Access) :
    Decidable (access.Returns image receiver) :=
  match access with
  | .direct _ => inferInstanceAs (Decidable True)
  | .atSite _ _ => inferInstanceAs (Decidable True)
  | .byPosition position => inferInstanceAs
      (Decidable ((image.platform.difference? position 1).isSome ∧ (image.text? receiver).isSome))

/-- Only arrays may be without a text. -/
theorem isSome_text?_of_fielded {image : Image} {receiver : Value}
    (fielded : ∀ ref, receiver ≠ .array ref) : (image.text? receiver).isSome = true := by
  cases receiver with
  | array ref => exact absurd rfl (fielded ref)
  | _ => simp only [Image.text?, Image.textWithin, Option.isSome_some]

/-- On an object or a class object every access returns, but for the access by the least position on
a machine that stops over it. -/
theorem returns_iff {image : Image} {receiver : Value} (fielded : ∀ ref, receiver ≠ .array ref)
    (access : Access) :
    access.Returns image receiver ↔
      ¬(image.platform.checksOverflow = true ∧ access = .byPosition Int64.minValue) := by
  cases access with
  | direct index => simp [Returns]
  | atSite site index => simp [Returns]
  | byPosition position =>
      simp only [Returns, isSome_text?_of_fielded fielded, and_true, byPosition.injEq]
      exact image.platform.isSome_difference?_one_iff position

/-- The field of a receiver that an access reaches. -/
def field? (image : Image) (receiver : Value) (access : Access) : Option Nat :=
  (access.index? image.platform).filter fun index => index < image.fieldCount receiver

theorem lt_of_field? {image : Image} {receiver : Value} {access : Access} {index : Nat}
    (reached : access.field? image receiver = some index) : index < image.fieldCount receiver :=
  of_decide_eq_true (Option.filter_eq_some_iff.mp reached).2

/-- An access to a field that there is returns. -/
theorem returns_of_field? {image : Image} {receiver : Value} {access : Access} {index : Nat}
    (reached : access.field? image receiver = some index) : access.Returns image receiver := by
  have inside := lt_of_field? reached
  cases access with
  | direct place => trivial
  | atSite site place => trivial
  | byPosition position =>
      obtain ⟨asked, -⟩ := Option.filter_eq_some_iff.mp reached
      obtain ⟨offset, subtracted, -⟩ := Option.bind_eq_some_iff.mp asked
      refine ⟨by rw [subtracted, Option.isSome_some], isSome_text?_of_fielded fun ref same => ?_⟩
      rw [same] at inside
      exact Nat.not_lt_zero index inside

/-- Read a field.  There is an answer only if the access returns, namely the value, or none if there
is no such field. -/
def read (machine : Machine) (image : Image) (receiver : Value) :
    Access → Option (Option Value) × Image
  | .direct index => (image.readField receiver index).map some id
  | .atSite site index => (image.readFieldAt site receiver index).map some id
  | .byPosition position =>
      match ObjectOperation.run machine .fieldAt [receiver, .integer position] image with
      | .ok value image => (some (some value), image)
      | .error (.failed _) image => (some none, image)
      | .error _ image => (none, image)

/-- Write a field.  There is an answer only if the access returns, namely whether there is such a
field. -/
def write (machine : Machine) (image : Image) (receiver value : Value) :
    Access → Option Bool × Image
  | .direct index => (image.writeField receiver index value).map some id
  | .atSite site index => (image.writeFieldAt site receiver index value).map some id
  | .byPosition position =>
      match ObjectOperation.run machine .fieldAtPut [receiver, .integer position, value] image with
      | .ok _ image => (some true, image)
      | .error (.failed _) image => (some false, image)
      | .error _ image => (none, image)

/-- A refusal is a failure, unless it goes on forever. -/
theorem refuseField_eq (primitive : Primitive) (receiver : Value) (position : Int64)
    (image : Image) :
    ∃ exception, primitive.refuseField receiver position image =
      .error (if (image.text? receiver).isSome then .failed exception else .exhausted) image := by
  unfold Primitive.refuseField
  rw [Eval.get_bind, Eval.ofOption_bind]
  cases image.text? receiver with
  | none => exact ⟨⟨.unimplemented "", #[]⟩, rfl⟩
  | some text => exact ⟨_, rfl⟩

/-- An access to a field does not change whether its receiver has a text. -/
theorem isSome_text?_readField (image : Image) (receiver : Value) (index : Nat) :
    ((image.readField receiver index).2.text? receiver).isSome = (image.text? receiver).isSome := by
  cases receiver with
  | array ref => rfl
  | _ => simp only [Image.text?, Image.textWithin, Option.isSome_some]

theorem isSome_text?_writeField (image : Image) (receiver : Value) (index : Nat) (value : Value) :
    ((image.writeField receiver index value).2.text? receiver).isSome =
      (image.text? receiver).isSome := by
  cases receiver with
  | array ref => rfl
  | _ => simp only [Image.text?, Image.textWithin, Option.isSome_some]

/-- What has fields has a text. -/
theorem isSome_text?_of_readField {image : Image} {receiver : Value} {index : Nat} {value : Value}
    (found : (image.readField receiver index).1 = some value) :
    (image.text? receiver).isSome :=
  isSome_text?_of_fielded fun ref same => by
    rw [same] at found
    cases found

theorem isSome_text?_of_writeField {image : Image} {receiver value : Value} {index : Nat}
    (written : (image.writeField receiver index value).1 = true) :
    (image.text? receiver).isSome :=
  isSome_text?_of_fielded fun ref same => by
    rw [same] at written
    cases written

/-- Reading by position is reading directly, for positions that stand for an index, as far as there
is an answer at all. -/
theorem read_byPosition (machine : Machine) (image : Image) (receiver : Value)
    (position : Int64) :
    (byPosition position).read machine image receiver =
      let reading := ((byPosition position).index? image.platform).elim (none, image)
        (image.readField receiver)
      (if (byPosition position).Returns image receiver then some reading.1 else none,
        reading.2) := by
  unfold read ObjectOperation.run
  dsimp only
  rw [Eval.difference_bind]
  cases subtracted : image.platform.difference? position 1 with
  | none => simp [index?, Returns, subtracted]
  | some offset =>
      simp only [index?, Returns, subtracted, Option.bind_some, Option.isSome_some, true_and]
      rw [Eval.modifyGet_bind]
      cases place? offset with
      | none =>
          obtain ⟨exception, refused⟩ :=
            refuseField_eq (.object .fieldAt) receiver position image
          dsimp only
          rw [refused]
          cases image.text? receiver <;> rfl
      | some index =>
          dsimp only [Option.elim]
          cases found : (image.readField receiver index).1 with
          | some value =>
              simp only [isSome_text?_of_readField found, if_true]
              rfl
          | none =>
              obtain ⟨exception, refused⟩ := refuseField_eq (.object .fieldAt) receiver position
                (image.readField receiver index).2
              dsimp only
              rw [refused, isSome_text?_readField]
              cases image.text? receiver <;> rfl

/-- Writing by position is writing directly, for positions that stand for an index, as far as there
is an answer at all. -/
theorem write_byPosition (machine : Machine) (image : Image) (receiver value : Value)
    (position : Int64) :
    (byPosition position).write machine image receiver value =
      let writing := ((byPosition position).index? image.platform).elim (false, image)
        fun index => image.writeField receiver index value
      (if (byPosition position).Returns image receiver then some writing.1 else none,
        writing.2) := by
  unfold write ObjectOperation.run
  dsimp only
  rw [Eval.difference_bind]
  cases subtracted : image.platform.difference? position 1 with
  | none => simp [index?, Returns, subtracted]
  | some offset =>
      simp only [index?, Returns, subtracted, Option.bind_some, Option.isSome_some, true_and]
      rw [Eval.modifyGet_bind]
      cases place? offset with
      | none =>
          obtain ⟨exception, refused⟩ :=
            refuseField_eq (.object .fieldAtPut) receiver position image
          simp only [Bool.false_eq_true, if_false]
          rw [refused]
          cases image.text? receiver <;> rfl
      | some index =>
          dsimp only [Option.elim]
          cases written : (image.writeField receiver index value).1 with
          | true =>
              simp only [isSome_text?_of_writeField written, if_true]
              rfl
          | false =>
              obtain ⟨exception, refused⟩ := refuseField_eq (.object .fieldAtPut) receiver position
                (image.writeField receiver index value).2
              simp only [Bool.false_eq_true, if_false]
              rw [refused, isSome_text?_writeField]
              cases image.text? receiver <;> rfl

variable {image : Image} {receiver : Value} {access : Access}

/-- What an access reads. -/
theorem read_spec (machine : Machine) (laid : image.Laid) (formed : image.WellFormed)
    (known : receiver.Exists image) (usable : access.Usable image) :
    (access.read machine image receiver).1 =
        (if access.Returns image receiver then
          some ((access.field? image receiver).map (image.fieldOf receiver))
        else none) ∧
      image.Steady (access.read machine image receiver).2 := by
  have reached : ∀ index result, image.Reads receiver index result →
      result.1 = (Option.filter (fun index => decide (index < image.fieldCount receiver))
        (some index)).map (image.fieldOf receiver) ∧ image.Steady result.2 := by
    rintro index result ⟨value, steady⟩
    refine ⟨value.trans ?_, steady⟩
    by_cases inside : index < image.fieldCount receiver <;> simp [Option.filter, inside]
  cases access with
  | direct index =>
      obtain ⟨value, steady⟩ := reached index _ (laid.readField known index)
      exact ⟨congrArg some value, steady⟩
  | atSite site index =>
      obtain ⟨value, steady⟩ := reached index _ (laid.readFieldAt formed known usable)
      exact ⟨congrArg some value, steady⟩
  | byPosition position =>
      rw [read_byPosition]
      simp only [field?]
      cases (byPosition position).index? image.platform with
      | none => exact ⟨rfl, laid.steady⟩
      | some index =>
          obtain ⟨value, steady⟩ := reached index _ (laid.readField known index)
          refine ⟨?_, steady⟩
          simp only [Option.elim]
          rw [value]

/-- What an access writes. -/
theorem write_spec (machine : Machine) (laid : image.Laid) (formed : image.WellFormed)
    (known : receiver.Exists image) {value : Value} (incoming : value.Exists image)
    (usable : access.Usable image) :
    (access.write machine image receiver value).1 =
        (if access.Returns image receiver then some (access.field? image receiver).isSome
        else none) ∧
      ((∃ index, access.field? image receiver = some index ∧
          image.Assigned receiver index value (access.write machine image receiver value).2) ∨
        (access.field? image receiver = none ∧
          image.Steady (access.write machine image receiver value).2)) := by
  have reached : ∀ index result, image.Writes receiver index value result →
      result.1 = (Option.filter (fun index => decide (index < image.fieldCount receiver))
          (some index)).isSome ∧
        ((∃ place, Option.filter (fun index => decide (index < image.fieldCount receiver))
            (some index) = some place ∧ image.Assigned receiver place value result.2) ∨
          (Option.filter (fun index => decide (index < image.fieldCount receiver))
            (some index) = none ∧ image.Steady result.2)) := by
    rintro index result (⟨inside, success, assigned⟩ | ⟨outside, failure, steady⟩)
    · exact ⟨by simp [Option.filter, inside, success],
        Or.inl ⟨index, by simp [Option.filter, inside], assigned⟩⟩
    · have unreached : Option.filter (fun index => decide (index < image.fieldCount receiver))
          (some index) = none := by simpa [Option.filter] using outside
      exact ⟨by rw [unreached, failure, Option.isSome_none], Or.inr ⟨unreached, steady⟩⟩
  cases access with
  | direct index =>
      obtain ⟨success, effect⟩ := reached index _ (laid.writeField known index value)
      exact ⟨congrArg some success, effect⟩
  | atSite site index =>
      obtain ⟨success, effect⟩ := reached index _ (laid.writeFieldAt formed known incoming usable)
      exact ⟨congrArg some success, effect⟩
  | byPosition position =>
      rw [write_byPosition]
      simp only [field?]
      cases (byPosition position).index? image.platform with
      | none => exact ⟨rfl, Or.inr ⟨rfl, laid.steady⟩⟩
      | some index =>
          obtain ⟨success, effect⟩ := reached index _ (laid.writeField known index value)
          refine ⟨?_, effect⟩
          simp only [Option.elim]
          rw [success]

/-- The action that a write by an access amounts to. -/
def action (platform : Platform) (receiver value : Value) : Access → Option Action
  | .direct index => some (.writeField receiver index value)
  | .atSite site index => some (.writeFieldAt site receiver index value)
  | .byPosition position => ((byPosition position).index? platform).map fun index =>
      .writeField receiver index value

/-- A write by an access is an allowed action, or does nothing. -/
theorem reaches_write {start : Image} {actions : List Action} (machine : Machine)
    (history : start.Reaches actions image) (known : receiver.Exists image) {value : Value}
    (incoming : value.Exists image) (usable : access.Usable image) :
    start.Reaches (actions ++ (access.action image.platform receiver value).toList)
      (access.write machine image receiver value).2 := by
  cases access with
  | direct index => exact history.trans (.single ⟨known, incoming⟩)
  | atSite site index => exact history.trans (.single ⟨known, incoming, usable⟩)
  | byPosition position =>
      rw [write_byPosition]
      simp only [action]
      cases (byPosition position).index? image.platform with
      | none => simpa using history
      | some index => exact history.trans (.single ⟨known, incoming⟩)

end Access

/-- In every image that a machine can reach, fields are a map.  A read answers what was last written
to the field, or nil if nothing was, and changes no field.  A write succeeds exactly if there is
such a field, makes that field read as the value written, changes no other field of any object or
class object, and becomes a part of the history.  An access to a field that there is returns.  To an
object or class object every access does, but for the one by the least position on a machine that
stops over the subtraction of one, and that one changes no field either. -/
theorem storage_refines_map {platform : Platform} {settings : Settings} {listening : Bool}
    {actions : List Action} {image : Image}
    (history : (Image.initial platform settings listening).Reaches actions image)
    (machine : Machine) {receiver : Value} (known : receiver.Exists image) (access : Access)
    (usable : access.Usable image) :
    ((access.field? image receiver).isSome → access.Returns image receiver) ∧
      ((∀ ref, receiver ≠ .array ref) → (access.Returns image receiver ↔
        ¬(image.platform.checksOverflow = true ∧ access = .byPosition Int64.minValue))) ∧
      (access.read machine image receiver).1 =
        (if access.Returns image receiver then
          some ((access.field? image receiver).map
            fun index => (lastWritten actions receiver index).getD .nil)
        else none) ∧
      (∀ other : Value, other.Exists image → ∀ index,
        ((access.read machine image receiver).2.readField other index).1 =
          (image.readField other index).1) ∧
      ∀ value : Value, value.Exists image →
        (access.write machine image receiver value).1 =
          (if access.Returns image receiver then some (access.field? image receiver).isSome
          else none) ∧
        (∀ other : Value, other.Exists image → ∀ index,
          ((access.write machine image receiver value).2.readField other index).1 =
            if other = receiver ∧ access.field? image receiver = some index then some value
            else (image.readField other index).1) ∧
        (Image.initial platform settings listening).Reaches
          (actions ++ (access.action image.platform receiver value).toList)
          (access.write machine image receiver value).2 := by
  have faithful := history.faithful
  have laid := faithful.laid
  obtain ⟨answer, steady⟩ := access.read_spec machine laid faithful.formed known usable
  refine ⟨fun field => ?_, access.returns_iff, ?_, fun other present =>
    steady.readField laid present, ?_⟩
  · obtain ⟨index, reached⟩ := Option.isSome_iff_exists.mp field
    exact Access.returns_of_field? reached
  · rw [answer]
    cases reached : access.field? image receiver with
    | none => rfl
    | some index =>
        have inside := Access.lt_of_field? reached
        simp only [Option.map_some, faithful.value receiver known index inside]
  · intro value incoming
    have extended := access.reaches_write machine history known incoming usable
    obtain ⟨success, effect⟩ :=
      access.write_spec machine laid faithful.formed known incoming usable
    refine ⟨success, fun other present index => ?_, extended⟩
    rcases effect with ⟨place, reached, assigned⟩ | ⟨reached, steady⟩
    · rw [reached, assigned.readField laid (Access.lt_of_field? reached) present index]
      simp only [Option.some.injEq, eq_comm]
    · rw [reached, steady.readField laid present index]
      simp only [reduceCtorEq, and_false, if_false]

/-- Two instances of a class, of which the first one is still laid out for integers when the field
is generalized for the second one. -/
theorem storage_refines_map_stale :
    ∃ image, (Image.initial .plain .standard false).Reaches
        [.register "Point" ⟨1⟩ ["x"] [], .instantiate ⟨37⟩, .instantiate ⟨37⟩,
          .writeField (.object ⟨0⟩) 0 (.integer 7),
          .writeField (.object ⟨1⟩) 0 (.double ⟨0x7ff8000000000001⟩)]
        image ∧
      ((Access.byPosition 1).read (Machine.ofBudget 0) image (.object ⟨0⟩)).1 =
        some (some (.integer 7)) := by
  let start := Image.initial .plain .standard false
  let first := Action.perform start (.register "Point" ⟨1⟩ ["x"] [])
  let second := Action.perform first (.instantiate ⟨37⟩)
  let third := Action.perform second (.instantiate ⟨37⟩)
  let fourth := Action.perform third (.writeField (.object ⟨0⟩) 0 (.integer 7))
  let fifth := Action.perform fourth (.writeField (.object ⟨1⟩) 0 (.double ⟨0x7ff8000000000001⟩))
  have root : start.classes.Has ⟨1⟩ := by decide +kernel
  have owner : first.classes.Has ⟨37⟩ := by decide +kernel
  have ownerStill : second.classes.Has ⟨37⟩ := by decide +kernel
  have stale : third.heap.objects.Has ⟨0⟩ := by decide +kernel
  have fresh : fourth.heap.objects.Has ⟨1⟩ := by decide +kernel
  have staleStill : fifth.heap.objects.Has ⟨0⟩ := by decide +kernel
  have written : (Action.writeField (.object ⟨0⟩) 0 (.integer 7)).Allowed third := ⟨stale, trivial⟩
  have writtenToo :
      (Action.writeField (.object ⟨1⟩) 0 (.double ⟨0x7ff8000000000001⟩)).Allowed fourth :=
    ⟨fresh, trivial⟩
  have known : Value.Exists fifth (.object ⟨0⟩) := staleStill
  have made := ((Image.Reaches.start.act (.register "Point" ⟨1⟩ ["x"] []) root).act
    (.instantiate ⟨37⟩) owner).act (.instantiate ⟨37⟩) ownerStill
  have history := (made.act _ written).act _ writtenToo
  refine ⟨fifth, history, ?_⟩
  rw [(storage_refines_map history (Machine.ofBudget 0) known (.byPosition 1) trivial).2.2.1]
  decide +kernel

end MessageMachine
