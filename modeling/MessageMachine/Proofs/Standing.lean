import MessageMachine.Proofs.Persistence

/-!
# What classes are left as

Whatever a machine does to its image, the classes that there are stand as they did: they keep their
superclasses, their fields, their metaclasses and the number of values that they have as objects.
Field accesses give them other shapes and write those values, installations and removals change
their dictionaries, and that is all.  None of this depends on what an action refers to.
-/

namespace MessageMachine

namespace Image

section Access

variable (image : Image)

theorem classAt_setObject (ref : ObjectRef) (store : Instance) (type : ClassRef) :
    (image.setObject ref store).classAt type = image.classAt type :=
  rfl

/-- Bringing an instance up to date has nothing to do with class objects. -/
theorem classAt_revalidate (ref : ObjectRef) (type : ClassRef) :
    (image.revalidate ref).classAt type = image.classAt type := by
  rcases image.revalidate_cases ref with ⟨-, same⟩ | ⟨-, journal, same⟩
  · rw [same]
  · rw [same]
    rfl

theorem values_generalize (ref : ClassRef) (index : Nat) (storage : Storage) (type : ClassRef) :
    ((image.generalize ref index storage).classAt type).values = (image.classAt type).values := by
  obtain ⟨journal, result⟩ := image.generalize_eq ref index storage
  simp only [result, classAt, Arena.get_modify]
  split <;> rfl

theorem classAt_writeLocated? {ref : ObjectRef} {index : Nat} {value : Value} {location : Location}
    {after : Image} (written : image.writeLocated? ref index value = some (location, after))
    (type : ClassRef) : after.classAt type = image.classAt type := by
  unfold writeLocated? at written
  dsimp only at written
  split at written
  · cases written
  · split at written
    · cases written
      rfl
    · cases written

theorem values_writeInstance (ref : ObjectRef) (index : Nat) (value : Value) (type : ClassRef) :
    ((image.writeInstance ref index value).2.classAt type).values =
      (image.classAt type).values := by
  unfold writeInstance
  dsimp only
  split
  · rw [classAt_revalidate]
  · split
    · rw [classAt_setObject, classAt_revalidate]
    · next location _ _ _ =>
      have widened : (((((image.revalidate ref).generalize
          ((image.revalidate ref).objectAt ref).owner index
          (location.storage.generalize index value)).revalidate ref).classAt type).values) =
          (image.classAt type).values := by
        rw [classAt_revalidate, values_generalize, classAt_revalidate]
      split
      · next written => rw [classAt_writeLocated? _ written, widened]
      · rw [widened]

/-- The fields of a class object are written, but none is added or taken away. -/
theorem size_values_writeField (receiver : Value) (index : Nat) (value : Value)
    (type : ClassRef) :
    ((image.writeField receiver index value).2.classAt type).values.size =
      (image.classAt type).values.size := by
  unfold writeField
  split
  · next ref =>
      have values := image.values_writeInstance ref index value type
      generalize image.writeInstance ref index value = result at values ⊢
      exact congrArg Array.size values
  · split
    · rw [classAt_modifyClass]
      split
      · exact Array.size_setIfInBounds
      · rfl
    · rfl
  · rfl

theorem size_values_writeFieldAt (site : FieldSiteRef) (receiver : Value) (index : Nat)
    (value : Value) (type : ClassRef) :
    ((image.writeFieldAt site receiver index value).2.classAt type).values.size =
      (image.classAt type).values.size := by
  unfold writeFieldAt
  split
  · next ref =>
      dsimp only
      split
      · rfl
      · have values := image.values_writeInstance ref index value type
        split <;>
        · next written =>
            rw [written] at values
            exact congrArg Array.size values
  · exact image.size_values_writeField receiver index value type

theorem classAt_readField (receiver : Value) (index : Nat) (type : ClassRef) :
    (image.readField receiver index).2.classAt type = image.classAt type := by
  unfold readField
  split
  · exact image.classAt_revalidate _ type
  · rfl
  · rfl

theorem classAt_readFieldAt (site : FieldSiteRef) (receiver : Value) (index : Nat)
    (type : ClassRef) :
    (image.readFieldAt site receiver index).2.classAt type = image.classAt type := by
  unfold readFieldAt
  split
  · next ref =>
      dsimp only
      split
      · rfl
      · split <;> exact image.classAt_revalidate ref type
  · exact image.classAt_readField receiver index type

end Access

/-- Whether the classes of an image are still there in another one, and the same but for their
dictionaries, their shapes and what their own fields hold. -/
structure SameStanding (before after : Image) : Prop where
  core : after.core = before.core
  natures : ∀ ref, before.classes.Has ref →
    (after.classAt ref).nature = (before.classAt ref).nature
  values : ∀ ref, before.classes.Has ref →
    (after.classAt ref).values.size = (before.classAt ref).values.size

namespace SameStanding

variable {before after : Image}

theorem of_eq (classes : ∀ ref, before.classes.Has ref → after.classAt ref = before.classAt ref)
    (core : after.core = before.core) : before.SameStanding after where
  core := core
  natures := fun ref known => by rw [classes ref known]
  values := fun ref known => by rw [classes ref known]

theorem of_tended {good : Value → Prop} (tended : Tended good before after)
    (values : ∀ ref, (after.classAt ref).values.size = (before.classAt ref).values.size) :
    before.SameStanding after where
  core := tended.core
  natures := fun ref _ => Class.nature_of_bare (tended.classes ref)
  values := fun ref _ => values ref

variable (same : before.SameStanding after) {ref : ClassRef} (known : before.classes.Has ref)
include same known

theorem superclass : (after.classAt ref).superclass = (before.classAt ref).superclass :=
  have nature := congrArg Class.superclass (same.natures ref known)
  nature

theorem fields : (after.classAt ref).fields = (before.classAt ref).fields :=
  have nature := congrArg Class.fields (same.natures ref known)
  nature

theorem instanceOf : (after.classAt ref).instanceOf = (before.classAt ref).instanceOf :=
  have nature := congrArg Class.instanceOf (same.natures ref known)
  nature

theorem isMetaclass : (after.classAt ref).isMetaclass = (before.classAt ref).isMetaclass :=
  have nature := congrArg Class.isMetaclass (same.natures ref known)
  nature

end SameStanding

end Image

open Image

/-- Every action lets the classes stand as they do. -/
theorem Action.sameStanding_perform (image : Image) (action : Action) :
    image.SameStanding (action.perform image) := by
  have anything : ∀ value : Value, value.IsPlain → value.IsNormal → True :=
    fun _ _ _ => trivial
  cases action with
  | register name superclass fields classFields =>
      exact .of_eq (fun _ known =>
        image.classAt_register_of_has name superclass fields classFields known) rfl
  | install holder selector behavior =>
      obtain ⟨journal, installed⟩ := image.addMethod_eq holder selector behavior
      refine ⟨by rw [perform, installed], fun ref _ => ?_, fun ref _ => ?_⟩
      all_goals
        rcases image.classAt_install_cases holder selector behavior ref with same | ⟨-, same⟩ <;>
          simp only [same, Class.nature]
  | remove holder selector =>
      refine ⟨rfl, fun ref _ => ?_, fun ref _ => ?_⟩
      all_goals
        rcases image.classAt_remove_cases holder selector ref with same | same <;>
          simp only [same, Class.nature]
  | readField receiver index =>
      exact .of_eq (fun ref _ => image.classAt_readField receiver index ref)
        (Image.readField_tended anything image receiver index).core
  | writeField receiver index value =>
      exact .of_tended (Image.writeField_tended anything image receiver index trivial)
        (image.size_values_writeField receiver index value)
  | readFieldAt site receiver index =>
      exact .of_eq (fun ref _ => image.classAt_readFieldAt site receiver index ref)
        (Image.readFieldAt_tended anything image site receiver index).core
  | writeFieldAt site receiver index value =>
      exact .of_tended (Image.writeFieldAt_tended anything image site receiver index trivial)
        (image.size_values_writeFieldAt site receiver index value)
  | resolve site selector receiver =>
      obtain ⟨calls, journal, -, result⟩ := image.lookupAt_eq site selector receiver
      rw [perform, result]
      exact .of_eq (fun _ _ => rfl) rfl
  | resolveSuper site origin selector =>
      obtain ⟨calls, -, result⟩ := image.lookupSuperAt_eq site origin selector
      rw [perform, result]
      exact .of_eq (fun _ _ => rfl) rfl
  | _ => exact .of_eq (fun _ _ => rfl) rfl

/-- Only an installation brings entries into a dictionary. -/
theorem Action.entries_of_not_installs (image : Image) {action : Action}
    (unchanged : action.installs = false) (ref : ClassRef) {entry : Selector × MethodRef}
    (member : entry ∈ ((action.perform image).classAt ref).methods.entries) :
    entry ∈ (image.classAt ref).methods.entries := by
  have anything : ∀ value : Value, value.IsPlain → value.IsNormal → True :=
    fun _ _ _ => trivial
  have tended : ∀ {after : Image}, Tended (fun _ => True) image after →
      entry ∈ (after.classAt ref).methods.entries → entry ∈ (image.classAt ref).methods.entries :=
    fun tended member => tended.dictionary ref ▸ member
  cases action with
  | install holder selector behavior => cases unchanged
  | remove holder selector =>
      rcases image.classAt_remove_cases holder selector ref with same | same
      · rwa [same] at member
      · rw [same] at member
        exact (List.mem_filter.mp member).1
  | register name superclass fields classFields =>
      rcases image.classAt_register_cases name superclass fields classFields ref with
        ⟨-, same⟩ | ⟨-, new⟩ | ⟨-, new⟩
      · rwa [same] at member
      · rw [new] at member
        cases member
      · rw [new] at member
        cases member
  | readField receiver index =>
      exact tended (Image.readField_tended anything image receiver index) member
  | writeField receiver index value =>
      exact tended (Image.writeField_tended anything image receiver index trivial) member
  | readFieldAt site receiver index =>
      exact tended (Image.readFieldAt_tended anything image site receiver index) member
  | writeFieldAt site receiver index value =>
      exact tended (Image.writeFieldAt_tended anything image site receiver index trivial) member
  | resolve site selector receiver =>
      obtain ⟨calls, journal, -, result⟩ := image.lookupAt_eq site selector receiver
      rwa [perform, result] at member
  | resolveSuper site origin selector =>
      obtain ⟨calls, -, result⟩ := image.lookupSuperAt_eq site origin selector
      rwa [perform, result] at member
  | _ => exact member

end MessageMachine
