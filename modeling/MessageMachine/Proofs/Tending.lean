import MessageMachine.Proofs.Existence

/-!
# What access to a field leaves alone

Reading or writing a field may migrate an instance, give a class a new shape and refresh the
location that a field site remembers.  All of that is bookkeeping: classes keep everything but their
shape and the values of their own fields, objects keep their owner, and no other part of the image
is touched.  Nor does any value come from nowhere.  Whatever holds of plain data in normal form, of
the stored values and of the value written goes on holding of all stored values.
-/

namespace MessageMachine

namespace Instance

variable {good : Value → Prop} {store : Instance}

/-- What is read from an instance is stored there or plain. -/
theorem All.read (all : store.All good)
    (plain : ∀ value, value.IsPlain → value.IsNormal → good value) (location : Location) :
    good (store.read location) := by
  unfold Instance.read
  split
  · exact plain _ trivial trivial
  · split <;> exact plain _ trivial trivial
  · split <;> exact plain _ trivial trivial
  · cases found : store.references[location.index]? with
    | none => exact plain _ trivial trivial
    | some value => exact all.references _ _ found
  · cases found : store.overflow[location.index - inlineFields]? with
    | none => exact plain _ trivial trivial
    | some value => exact all.overflow _ _ found

theorem All.setScalar (all : store.All good) (index : Nat) (word : Option UInt64) :
    (store.setScalar index word).All good where
  references := all.references
  overflow := all.overflow

theorem All.setReference (all : store.All good) (index : Nat) {value : Value}
    (incoming : good value) : (store.setReference index value).All good where
  references := by
    intro other held found
    simp only [Instance.setReference, Vector.getElem?_setIfInBounds] at found
    split at found
    · split at found
      · cases found
        exact incoming
      · cases found
    · exact all.references _ _ found
  overflow := all.overflow

theorem All.setOverflow (all : store.All good) (index : Nat) {value : Value}
    (incoming : good value) : (store.setOverflow index value).All good where
  references := all.references
  overflow := by
    intro other held found
    simp only [Instance.setOverflow, Array.getElem?_setIfInBounds] at found
    split at found
    · split at found
      · cases found
        exact incoming
      · cases found
    · exact all.overflow _ _ found

theorem All.write? (all : store.All good) {location : Location} {value : Value}
    {written : Instance} (incoming : good value)
    (success : store.write? location value = some written) : written.All good := by
  unfold Instance.write? at success
  split at success <;> cases success
  · exact all.setScalar _ _
  · exact all.setScalar _ _
  · exact all.setReference _ incoming
  · exact all.setOverflow _ incoming

theorem All.clear (all : store.All good)
    (plain : ∀ value, value.IsPlain → value.IsNormal → good value) (location : Location) :
    (store.clear location).All good := by
  unfold Instance.clear
  split
  · exact all
  · exact all.setScalar _ _
  · exact all.setScalar _ _
  · exact all.setReference _ (plain _ trivial trivial)
  · exact all.setOverflow _ (plain _ trivial trivial)

theorem All.relocate (all : store.All good)
    (plain : ∀ value, value.IsPlain → value.IsNormal → good value) (old new : Location) :
    (store.relocate old new).All good := by
  unfold Instance.relocate
  have cleared := all.clear plain old
  by_cases same : old.storage = new.storage
  · rw [if_pos same]
    exact all
  · rw [if_neg same]
    dsimp only
    by_cases empty : store.read old = .nil
    · rw [if_pos empty]
      exact cleared
    · rw [if_neg empty]
      cases moved : (store.clear old).write? new (store.read old) with
      | none => exact cleared
      | some written => exact cleared.write? (all.read plain old) moved

theorem All.migrate (all : store.All good)
    (plain : ∀ value, value.IsPlain → value.IsNormal → good value) (old new : Shape) :
    (store.migrate old new).All good := by
  have moved : ∀ (pairs : List (Location × Location)) (start : Instance), start.All good →
      (pairs.foldl (fun store pair => store.relocate pair.1 pair.2) start).All good := by
    intro pairs
    induction pairs with
    | nil => exact fun start begin => begin
    | cons pair rest inductionHypothesis =>
        intro start begin
        exact inductionHypothesis _ (begin.relocate plain pair.1 pair.2)
  have result := moved (old.locations.toList.zip new.locations.toList) store all
  exact { references := result.references, overflow := result.overflow }

/-- Moving fields about does not change whose storage this is. -/
theorem owner_relocate (store : Instance) (old new : Location) :
    (store.relocate old new).owner = store.owner := by
  have written : ∀ (store : Instance) (location : Location) (value : Value),
      ((store.write? location value).getD store).owner = store.owner := by
    intro store location value
    unfold Instance.write?
    split <;> rfl
  have cleared : (store.clear old).owner = store.owner := by
    unfold Instance.clear
    split <;> rfl
  unfold Instance.relocate
  split
  · rfl
  · dsimp only
    split
    · exact cleared
    · exact (written _ _ _).trans cleared

theorem owner_migrate (store : Instance) (old new : Shape) :
    (store.migrate old new).owner = store.owner := by
  have moved : ∀ (pairs : List (Location × Location)) (start : Instance),
      (pairs.foldl (fun store pair => store.relocate pair.1 pair.2) start).owner =
        start.owner := by
    intro pairs
    induction pairs with
    | nil => exact fun start => rfl
    | cons pair rest inductionHypothesis =>
        intro start
        exact (inductionHypothesis _).trans (owner_relocate _ _ _)
  exact moved _ store

theorem owner_write? {store : Instance} {location : Location} {value : Value}
    {written : Instance} (success : store.write? location value = some written) :
    written.owner = store.owner := by
  unfold Instance.write? at success
  split at success <;> cases success <;> rfl

end Instance

/-- A class without its shape and the values of its own fields. -/
def Class.bare (type : Class) : Class :=
  { type with values := #[], shape := default }

namespace Image

/-- Noting an event changes at most the journal. -/
theorem note_eq (image : Image) (describe : Image → Event) :
    image.note describe = { image with journal := (image.note describe).journal } := by
  unfold note
  split <;> rfl

/-- The ways in which an instance is brought up to date. -/
theorem revalidate_cases (image : Image) (ref : ObjectRef) :
    ((image.objectAt ref).shape = (image.classAt (image.objectAt ref).owner).shape ∧
      image.revalidate ref = image) ∨
    ((image.objectAt ref).shape ≠ (image.classAt (image.objectAt ref).owner).shape ∧
      ∃ journal, image.revalidate ref =
        { image.setObject ref ((image.objectAt ref).migrate
            (image.shapeAt (image.objectAt ref).shape)
            (image.shapeAt (image.classAt (image.objectAt ref).owner).shape)) with journal }) := by
  unfold revalidate
  dsimp only
  split
  · next current => exact Or.inl ⟨current, rfl⟩
  · next stale =>
      exact Or.inr ⟨stale, _, congrArg (fun noted => Image.setObject noted ref _) (note_eq image _)⟩

/-- What giving a class a new shape does, apart from the journal. -/
theorem generalize_eq (image : Image) (ref : ClassRef) (index : Nat) (storage : Storage) :
    ∃ journal, image.generalize ref index storage =
      { image with
        shapes := (image.shapes.modify (image.classAt ref).shape fun shape =>
          { shape with successor := some image.shapes.next }).push
            ((image.shapeAt (image.classAt ref).shape).derive image.shapes.next index storage)
        classes := image.classes.modify ref fun type => { type with shape := image.shapes.next }
        journal } := by
  unfold Image.generalize
  dsimp only
  exact ⟨_, note_eq _ _⟩

/-- What holds of every value stored in a field. -/
structure Contains (good : Value → Prop) (image : Image) : Prop where
  classValues : ∀ ref, ∀ value ∈ (image.classAt ref).values, good value
  objects : ∀ ref, (image.objectAt ref).All good

/-- The change from one image to another is a matter of field storage, and brings in good values
only. -/
structure Tended (good : Value → Prop) (before after : Image) : Prop where
  settings : after.settings = before.settings
  core : after.core = before.core
  globals : after.globals = before.globals
  methods : after.methods = before.methods
  arrays : after.heap.arrays = before.heap.arrays
  blocks : after.heap.blocks = before.heap.blocks
  frames : after.heap.frames = before.heap.frames
  calls : after.sites.calls = before.sites.calls
  controls : after.sites.controls = before.sites.controls
  version : after.sites.version = before.sites.version
  fieldSites : after.sites.fields.size = before.sites.fields.size
  platform : after.platform = before.platform
  interner : after.interner = before.interner
  drawn : after.drawn = before.drawn
  objectCount : after.heap.objects.size = before.heap.objects.size
  owners : ∀ ref, (after.objectAt ref).owner = (before.objectAt ref).owner
  classCount : after.classes.size = before.classes.size
  classes : ∀ ref, (after.classAt ref).bare = (before.classAt ref).bare
  contains : before.Contains good → after.Contains good

/-- Changing a class changes no other one. -/
theorem classAt_modifyClass (image : Image) (ref : ClassRef) (change : Class → Class)
    (other : ClassRef) :
    (image.modifyClass ref change).classAt other =
      if other = ref ∧ image.classes.Has other then change (image.classAt other)
      else image.classAt other :=
  Arena.get_modify _ _ _ _

namespace Tended

variable {good : Value → Prop}

theorem refl (good : Value → Prop) (image : Image) : Tended good image image where
  settings := rfl
  core := rfl
  globals := rfl
  methods := rfl
  arrays := rfl
  blocks := rfl
  frames := rfl
  calls := rfl
  controls := rfl
  version := rfl
  fieldSites := rfl
  platform := rfl
  interner := rfl
  drawn := rfl
  objectCount := rfl
  owners := fun _ => rfl
  classCount := rfl
  classes := fun _ => rfl
  contains := id

theorem trans {before between after : Image} (earlier : Tended good before between)
    (later : Tended good between after) : Tended good before after where
  settings := later.settings.trans earlier.settings
  core := later.core.trans earlier.core
  globals := later.globals.trans earlier.globals
  methods := later.methods.trans earlier.methods
  arrays := later.arrays.trans earlier.arrays
  blocks := later.blocks.trans earlier.blocks
  frames := later.frames.trans earlier.frames
  calls := later.calls.trans earlier.calls
  controls := later.controls.trans earlier.controls
  version := later.version.trans earlier.version
  fieldSites := later.fieldSites.trans earlier.fieldSites
  platform := later.platform.trans earlier.platform
  interner := later.interner.trans earlier.interner
  drawn := later.drawn.trans earlier.drawn
  objectCount := later.objectCount.trans earlier.objectCount
  owners := fun ref => (later.owners ref).trans (earlier.owners ref)
  classCount := later.classCount.trans earlier.classCount
  classes := fun ref => (later.classes ref).trans (earlier.classes ref)
  contains := fun start => later.contains (earlier.contains start)

/-- Noting an event touches nothing but the journal. -/
theorem note (good : Value → Prop) (image : Image) (describe : Image → Event) :
    Tended good image (image.note describe) := by
  unfold Image.note
  split
  · exact { refl good image with contains := fun start => ⟨start.classValues, start.objects⟩ }
  · exact refl good image

theorem setObject {image : Image} {ref : ObjectRef} {store : Instance}
    (owner : store.owner = (image.objectAt ref).owner)
    (contents : image.Contains good → store.All good) :
    Tended good image (image.setObject ref store) :=
  { refl good image with
    objectCount := Arena.size_set _ _ _
    owners := by
      intro other
      simp only [objectAt, Image.setObject, Arena.get_set]
      split
      · next same => exact owner.trans (by rw [same.1]; rfl)
      · rfl
    contains := fun start => {
      classValues := start.classValues
      objects := by
        intro other
        simp only [objectAt, Image.setObject, Arena.get_set]
        split
        · exact contents start
        · exact start.objects other } }

theorem modifyClass {image : Image} {ref : ClassRef} {change : Class → Class}
    (bare : ∀ type, (change type).bare = type.bare)
    (values : ∀ type : Class, (∀ value ∈ type.values, good value) →
      ∀ value ∈ (change type).values, good value) :
    Tended good image (image.modifyClass ref change) :=
  { refl good image with
    classCount := Arena.size_modify _ _ _
    classes := by
      intro other
      rw [classAt_modifyClass]
      split
      · exact bare _
      · rfl
    contains := fun start => {
      objects := start.objects
      classValues := by
        intro other
        rw [classAt_modifyClass]
        split
        · exact values _ (start.classValues other)
        · exact start.classValues other } }

theorem setShapes (good : Value → Prop) (image : Image) (shapes : Arena .shapes Shape) :
    Tended good image { image with shapes } :=
  { refl good image with contains := fun start => ⟨start.classValues, start.objects⟩ }

theorem setFieldSite (good : Value → Prop) (image : Image) (site : FieldSiteRef)
    (location : Location) :
    Tended good image (image.setFieldSite site location) :=
  { refl good image with
    fieldSites := Arena.size_set _ _ _
    contains := fun start => ⟨start.classValues, start.objects⟩ }

end Tended

section Access

variable {good : Value → Prop}
  (plain : ∀ value : Value, value.IsPlain → value.IsNormal → good value)
include plain

theorem revalidate_tended (image : Image) (ref : ObjectRef) :
    Tended good image (image.revalidate ref) := by
  unfold revalidate
  dsimp only
  split
  · exact .refl good image
  · refine (Tended.note good image _).trans (Tended.setObject ?_ ?_)
    · rw [Instance.owner_migrate]
      exact ((Tended.note good image _).owners ref).symm
    · intro start
      -- The migration starts from the storage in the image before the note was made.
      have before : (image.objectAt ref).All good := by
        have same := start.objects ref
        unfold Image.note at same
        split at same <;> exact same
      exact before.migrate plain _ _

omit plain in
theorem generalize_tended (good : Value → Prop) (image : Image) (ref : ClassRef) (index : Nat)
    (storage : Storage) :
    Tended good image (image.generalize ref index storage) := by
  have widened : ∀ (shapes : Arena .shapes Shape) (next : ShapeRef),
      Tended good image
        (({ image with shapes }).modifyClass ref fun type => { type with shape := next }) :=
    fun shapes next => (Tended.setShapes good image shapes).trans
      (Tended.modifyClass (fun _ => rfl) (fun _ held => held))
  unfold Image.generalize
  dsimp only
  refine Tended.trans ?_ (Tended.note good _ _)
  exact widened _ _

omit plain in
theorem writeLocated?_tended {image : Image} {ref : ObjectRef} {index : Nat} {value : Value}
    {location : Location} {after : Image} (incoming : good value)
    (success : image.writeLocated? ref index value = some (location, after)) :
    Tended good image after := by
  unfold writeLocated? at success
  dsimp only at success
  split at success
  · cases success
  · split at success
    · next written accepted =>
        cases success
        exact Tended.setObject (Instance.owner_write? accepted)
          (fun start => (start.objects ref).write? incoming accepted)
    · cases success

theorem writeInstance_tended (image : Image) (ref : ObjectRef) (index : Nat) {value : Value}
    (incoming : good value) : Tended good image (image.writeInstance ref index value).2 := by
  have started := revalidate_tended plain image ref
  unfold writeInstance
  dsimp only
  split
  · exact started
  · split
    · next written accepted =>
        exact started.trans (Tended.setObject (Instance.owner_write? accepted)
          (fun start => (start.objects ref).write? incoming accepted))
    · next location _ _ _ =>
      have widened := (generalize_tended good (image.revalidate ref)
        ((image.revalidate ref).objectAt ref).owner index
        (location.storage.generalize index value)).trans (revalidate_tended plain _ ref)
      split
      · next location after written =>
          exact (started.trans widened).trans (writeLocated?_tended incoming written)
      · exact started.trans widened

theorem readField_tended (image : Image) (receiver : Value) (index : Nat) :
    Tended good image (image.readField receiver index).2 := by
  unfold readField
  split
  · exact revalidate_tended plain image _
  · exact .refl good image
  · exact .refl good image

theorem writeField_tended (image : Image) (receiver : Value) (index : Nat) {value : Value}
    (incoming : good value) : Tended good image (image.writeField receiver index value).2 := by
  unfold writeField
  split
  · exact writeInstance_tended plain image _ index incoming
  · split
    · refine Tended.modifyClass (fun _ => rfl) ?_
      intro type held other member
      rcases Array.mem_or_eq_of_mem_setIfInBounds member with old | new
      · exact held other old
      · exact new ▸ incoming
    · exact .refl good image
  · exact .refl good image

theorem readFieldAt_tended (image : Image) (site : FieldSiteRef) (receiver : Value) (index : Nat) :
    Tended good image (image.readFieldAt site receiver index).2 := by
  unfold readFieldAt
  split
  · next ref =>
      dsimp only
      split
      · exact .refl good image
      · have started := revalidate_tended plain image ref
        split
        · exact started.trans (Tended.setFieldSite good _ site _)
        · exact started
  · exact readField_tended plain image receiver index

theorem writeFieldAt_tended (image : Image) (site : FieldSiteRef) (receiver : Value) (index : Nat)
    {value : Value} (incoming : good value) :
    Tended good image (image.writeFieldAt site receiver index value).2 := by
  unfold writeFieldAt
  split
  · next ref =>
      dsimp only
      split
      · next written accepted =>
          obtain ⟨location, -, success⟩ := Option.bind_eq_some_iff.mp accepted
          exact Tended.setObject (Instance.owner_write? success)
            (fun start => (start.objects ref).write? incoming success)
      · have started := writeInstance_tended plain image ref index incoming
        split
        · next location after written =>
            rw [written] at started
            exact started.trans (Tended.setFieldSite good _ site _)
        · next after written =>
            rw [written] at started
            exact started
  · exact writeField_tended plain image receiver index incoming

/-- What a field holds is good. -/
theorem readField_good {image : Image} {receiver : Value} {index : Nat} {value : Value}
    (contents : image.Contains good) (found : (image.readField receiver index).1 = some value) :
    good value := by
  unfold readField at found
  split at found
  · next ref =>
      obtain ⟨location, -, same⟩ := Option.map_eq_some_iff.mp found
      have current := (revalidate_tended plain image ref).contains contents
      exact same ▸ (current.objects ref).read plain location
  · next ref => exact contents.classValues ref _ (Array.mem_of_getElem? found)
  · cases found

theorem readFieldAt_good {image : Image} {site : FieldSiteRef} {receiver : Value} {index : Nat}
    {value : Value} (contents : image.Contains good)
    (found : (image.readFieldAt site receiver index).1 = some value) : good value := by
  unfold readFieldAt at found
  split at found
  · next ref =>
      dsimp only at found
      split at found
      · cases found
        exact (contents.objects ref).read plain _
      · have current := (revalidate_tended plain image ref).contains contents
        split at found
        · cases found
          exact (current.objects ref).read plain _
        · cases found
  · exact readField_good plain contents found

end Access

end Image

end MessageMachine
