import MessageMachine.Proofs.Action

/-!
# Allowed actions keep images well-formed

Every action takes an image to a later one, and an allowed action brings in no reference that
dangles.  Most actions leave the methods alone, so that the nodes of the image are the same before
and after; only the installation of a method brings in new nodes, on sites of their own.
-/

namespace MessageMachine

namespace Image

/-- The ways in which a send is resolved at its site: the site remembers the target, or there is no
target, or a full lookup finds one and the site remembers it from then on. -/
theorem lookupAt_cases (image : Image) (site : CallSiteRef) (selector : Selector)
    (receiver : Value) :
    (∃ target,
      (image.sites.calls.get site).target? (image.guardOf receiver) image.sites.version =
        some target ∧
      image.lookupAt site selector receiver = (some target, image)) ∨
    (image.lookupFor receiver selector = none ∧
      image.lookupAt site selector receiver = (none, image)) ∨
    ∃ target journal, image.lookupFor receiver selector = some target ∧
      image.lookupAt site selector receiver =
        (some target, { image.setCallSite site ((image.sites.calls.get site).record
          { guard := image.guardOf receiver, target, version := image.sites.version }
          image.settings.cacheSize) with journal }) := by
  unfold lookupAt
  dsimp only
  split
  · next target hit => exact Or.inl ⟨target, hit, rfl⟩
  · split
    · next absent => exact Or.inr (Or.inl ⟨absent, rfl⟩)
    · next target found => exact Or.inr (Or.inr ⟨target, _, found, congrArg _ (note_eq _ _)⟩)

/-- The ways in which a send to super is resolved at its site. -/
theorem lookupSuperAt_cases (image : Image) (site : CallSiteRef) (origin : ClassRef)
    (selector : Selector) :
    (∃ entry, image.sites.calls.get site = .monomorphic entry ∧
      entry.version = image.sites.version ∧
      image.lookupSuperAt site origin selector = (some entry.target, image)) ∨
    (image.lookup origin selector = none ∧
      image.lookupSuperAt site origin selector = (none, image)) ∨
    ∃ target, image.lookup origin selector = some target ∧
      image.lookupSuperAt site origin selector =
        (some target, image.setCallSite site (.monomorphic
          { guard := .classObject origin, target, version := image.sites.version })) := by
  by_cases fresh : ∃ entry, image.sites.calls.get site = .monomorphic entry ∧
      entry.version = image.sites.version
  · obtain ⟨entry, cache, current⟩ := fresh
    refine Or.inl ⟨entry, cache, current, ?_⟩
    simp only [lookupSuperAt, cache, if_pos current]
  · have stale : ∀ entry, image.sites.calls.get site = .monomorphic entry →
        entry.version ≠ image.sites.version :=
      fun entry cache current => fresh ⟨entry, cache, current⟩
    refine Or.inr ?_
    unfold lookupSuperAt
    cases found : image.lookup origin selector with
    | none =>
        refine Or.inl ⟨rfl, ?_⟩
        cases cache : image.sites.calls.get site with
        | monomorphic entry => simp only [if_neg (stale entry cache)]
        | uninitialized => rfl
        | polymorphic entries => rfl
        | megamorphic => rfl
    | some target =>
        refine Or.inr ⟨target, rfl, ?_⟩
        cases cache : image.sites.calls.get site with
        | monomorphic entry => simp only [if_neg (stale entry cache)]
        | uninitialized => rfl
        | polymorphic entries => rfl
        | megamorphic => rfl

/-- Resolving a send changes what send sites remember and the journal, and nothing else. -/
theorem lookupAt_eq (image : Image) (site : CallSiteRef) (selector : Selector)
    (receiver : Value) :
    ∃ calls journal, calls.size = image.sites.calls.size ∧
      (image.lookupAt site selector receiver).2 =
        { image with sites := { image.sites with calls }, journal } := by
  rcases image.lookupAt_cases site selector receiver with
    ⟨target, -, result⟩ | ⟨-, result⟩ | ⟨target, journal, -, result⟩
  · exact ⟨_, _, rfl, by rw [result]⟩
  · exact ⟨_, _, rfl, by rw [result]⟩
  · exact ⟨_, journal, Arena.size_set _ _ _, by rw [result]; rfl⟩

theorem lookupSuperAt_eq (image : Image) (site : CallSiteRef) (origin : ClassRef)
    (selector : Selector) :
    ∃ calls, calls.size = image.sites.calls.size ∧
      (image.lookupSuperAt site origin selector).2 =
        { image with sites := { image.sites with calls } } := by
  rcases image.lookupSuperAt_cases site origin selector with
    ⟨entry, -, -, result⟩ | ⟨-, result⟩ | ⟨target, -, result⟩
  · exact ⟨_, rfl, by rw [result]⟩
  · exact ⟨_, rfl, by rw [result]⟩
  · exact ⟨_, Arena.size_set _ _ _, by rw [result]; rfl⟩

/-- What an installation does, apart from the journal. -/
theorem addMethod_eq (image : Image) (holder : ClassRef) (selector : Selector)
    (behavior : Behavior) :
    ∃ journal, image.addMethod holder selector behavior =
      { image with
        methods := image.methods.push { holder, selector, behavior }
        classes := image.classes.modify holder fun type =>
          { type with methods := type.methods.insert selector image.methods.next }
        sites := { image.sites with version := image.sites.version + 1 }
        interner := (image.interner.intern selector).2
        journal } := by
  unfold addMethod
  dsimp only
  split
  · exact ⟨_, note_eq _ _⟩
  · exact ⟨image.journal, rfl⟩

namespace Tended

variable {good : Value → Prop} {before after : Image}

theorem extended (tended : Tended good before after) : before.Extends after where
  arrays := Nat.le_of_eq (congrArg Arena.size tended.arrays).symm
  objects := Nat.le_of_eq tended.objectCount.symm
  blocks := Nat.le_of_eq (congrArg Arena.size tended.blocks).symm
  frames := Nat.le_of_eq (congrArg Arena.size tended.frames).symm
  classes := Nat.le_of_eq tended.classCount.symm
  methods := Nat.le_of_eq (congrArg Arena.size tended.methods).symm
  calls := Nat.le_of_eq (congrArg Arena.size tended.calls).symm
  fields := Nat.le_of_eq tended.fieldSites.symm
  bodies := fun ref _ => congrArg (Arena.get · ref) tended.methods

theorem superclass (tended : Tended good before after) (ref : ClassRef) :
    (after.classAt ref).superclass = (before.classAt ref).superclass :=
  have same := congrArg Class.superclass (tended.classes ref)
  same

theorem instanceOf (tended : Tended good before after) (ref : ClassRef) :
    (after.classAt ref).instanceOf = (before.classAt ref).instanceOf :=
  have same := congrArg Class.instanceOf (tended.classes ref)
  same

theorem dictionary (tended : Tended good before after) (ref : ClassRef) :
    (after.classAt ref).methods = (before.classAt ref).methods :=
  have same := congrArg Class.methods (tended.classes ref)
  same

end Tended

end Image

namespace Action

/-- The tending that reading a field amounts to. -/
theorem readField_tended (image : Image) (receiver : Value) (index : Nat) :
    Image.Tended (·.Exists image) image (perform image (.readField receiver index)) :=
  Image.readField_tended (fun _ plain _ => plain.exists image) image receiver index

theorem readFieldAt_tended (image : Image) (site : FieldSiteRef) (receiver : Value)
    (index : Nat) :
    Image.Tended (·.Exists image) image (perform image (.readFieldAt site receiver index)) :=
  Image.readFieldAt_tended (fun _ plain _ => plain.exists image) image site receiver index

theorem writeField_tended {image : Image} {value : Value} (known : value.Exists image)
    (receiver : Value) (index : Nat) :
    Image.Tended (·.Exists image) image (perform image (.writeField receiver index value)) :=
  Image.writeField_tended (fun _ plain _ => plain.exists image) image receiver index known

theorem writeFieldAt_tended {image : Image} {value : Value} (known : value.Exists image)
    (site : FieldSiteRef) (receiver : Value) (index : Nat) :
    Image.Tended (·.Exists image) image
      (perform image (.writeFieldAt site receiver index value)) :=
  Image.writeFieldAt_tended (fun _ plain _ => plain.exists image) image site receiver index known

/-- Every action takes an image to a later one. -/
theorem extends_perform {image : Image} {action : Action} (allowed : action.Allowed image) :
    image.Extends (action.perform image) := by
  have same := Image.Extends.refl image
  have anything : ∀ value : Value, value.IsPlain → value.IsNormal → True :=
    fun _ _ _ => trivial
  cases action with
  | noteDown journal => exact { same with }
  | meet names => exact { same with }
  | draw bound => exact { same with }
  | makeArray elements => exact { same with arrays := by simp [perform, Image.addArray] }
  | setElement ref place value =>
      exact { same with arrays := by simp [perform, Image.setElement] }
  | makeBlock closure => exact { same with blocks := by simp [perform, Image.addBlock] }
  | instantiate owner => exact { same with objects := by simp [perform, Image.instantiate] }
  | enter frame => exact { same with frames := by simp [perform, Image.addFrame] }
  | setSlot frame kind index value =>
      exact { same with frames := by simp [perform, Image.changeFrame] }
  | leave frame => exact { same with frames := by simp [perform, Image.changeFrame] }
  | readField receiver index => exact (readField_tended image receiver index).extended
  | writeField receiver index value =>
      exact (Image.writeField_tended anything image receiver index trivial).extended
  | readFieldAt site receiver index =>
      exact (readFieldAt_tended image site receiver index).extended
  | writeFieldAt site receiver index value =>
      exact (Image.writeFieldAt_tended anything image site receiver index trivial).extended
  | resolve site selector receiver =>
      obtain ⟨calls, journal, count, result⟩ := image.lookupAt_eq site selector receiver
      rw [perform, result]
      exact { same with calls := Nat.le_of_eq count.symm }
  | resolveSuper site origin selector =>
      obtain ⟨calls, count, result⟩ := image.lookupSuperAt_eq site origin selector
      rw [perform, result]
      exact { same with calls := Nat.le_of_eq count.symm }
  | settle site => exact { same with }
  | bind name value => exact { same with }
  | allocate draft => exact { same with calls := allowed.callCount, fields := allowed.fieldCount }
  | install holder selector behavior =>
      obtain ⟨journal, installed⟩ := image.addMethod_eq holder selector behavior
      simp only [perform, installed]
      exact { same with
        methods := by simp
        classes := by simp
        bodies := fun ref old => Arena.get_push_of_has _ old }
  | remove holder selector =>
      exact { same with classes := by simp [perform, Image.removeMethod, Image.modifyClass] }
  | register name superclass fields classFields =>
      exact { same with
        classes := by
          simp [perform, Image.registerPair, Image.registerClass]
          omega }

end Action

namespace Image

/-- Tending to fields lets nothing dangle. -/
theorem Tended.within {before after : Image} (tended : Tended (·.Exists before) before after)
    (inside : Within before before) : Within after after := by
  have extended := tended.extended
  have contained := tended.contains ⟨inside.classValues, inside.contents⟩
  have outside := inside.mono extended
  exact {
    core := by
      rw [tended.core]
      exact outside.core
    globals := by
      rw [tended.globals]
      exact outside.globals
    superclasses := fun ref parent found =>
      outside.superclasses ref parent ((tended.superclass ref).symm.trans found)
    metaclasses := fun ref old => by
      rw [tended.instanceOf]
      exact outside.metaclasses ref (Nat.lt_of_lt_of_eq old tended.classCount)
    dictionaries := fun ref => by
      rw [tended.dictionary]
      exact outside.dictionaries ref
    classValues := fun ref value member =>
      (contained.classValues ref value member).mono extended
    holders := fun ref old => by
      rw [methodAt, tended.methods]
      rw [tended.methods] at old
      exact outside.holders ref old
    elements := fun ref => by
      rw [arrayAt, tended.arrays]
      exact outside.elements ref
    owners := fun ref old => by
      rw [tended.owners]
      exact outside.owners ref (Nat.lt_of_lt_of_eq old tended.objectCount)
    contents := fun ref => {
      references := fun index value found =>
        ((contained.objects ref).references index value found).mono extended
      overflow := fun index value found =>
        ((contained.objects ref).overflow index value found).mono extended }
    bodies := fun ref => by
      rw [blockAt, tended.blocks]
      exact outside.bodies ref
    frames := fun ref => by
      rw [frameAt, tended.frames]
      exact outside.frames ref }

end Image

namespace Frame

theorem All.setSlot {good : Value → Prop} {frame : Frame} (all : frame.All good)
    (kind : SlotKind) (index : Nat) {value : Value} (incoming : good value) :
    (frame.setSlot kind index value).All good := by
  have kept : ∀ slots : Array Value, (∀ held ∈ slots, good held) →
      ∀ held ∈ slots.setIfInBounds index value, good held := by
    intro slots good held member
    rcases Array.mem_or_eq_of_mem_setIfInBounds member with old | new
    · exact good held old
    · exact new ▸ incoming
  cases kind with
  | argument => exact { all with arguments := kept _ all.arguments }
  | temporary => exact { all with temporaries := kept _ all.temporaries }

end Frame

namespace Instance

/-- A fresh instance stores nothing but nil. -/
theorem all_ofShape {good : Value → Prop} (plain : good .nil) (owner : ClassRef)
    (shape : Shape) : (ofShape owner shape).All good where
  references := fun index value found => by
    simp only [ofShape] at found
    cases (Vector.mem_replicate.mp (Vector.mem_of_getElem? found)).2
    exact plain
  overflow := fun index value found => by
    simp only [ofShape] at found
    cases (Array.mem_replicate.mp (Array.mem_of_getElem? found)).2
    exact plain

end Instance

namespace Image

/-- The metaclass that a registration adds. -/
def newMetaclass (image : Image) (name : String) (superclass : ClassRef)
    (classFields : List String) : Class where
  name := name ++ " class"
  instanceOf := image.core.metaclass
  superclass := some (image.classAt superclass).instanceOf
  fields := (image.classAt (image.classAt superclass).instanceOf).fields ++ classFields
  values := #[]
  methods := .empty
  shape := image.shapes.next
  isMetaclass := true

/-- The class that a registration adds. -/
def newClass (image : Image) (name : String) (superclass : ClassRef)
    (fields classFields : List String) : Class where
  name
  instanceOf := image.classes.next
  superclass := some superclass
  fields := (image.classAt superclass).fields ++ fields
  values := Array.replicate (image.newMetaclass name superclass classFields).fields.length .nil
  methods := .empty
  shape := ⟨image.shapes.size + 1⟩
  isMetaclass := false

section Registration

variable (image : Image) (name : String) (superclass : ClassRef) (fields classFields : List String)

/-- A registration adds a metaclass, a class and their shapes, and changes nothing else. -/
theorem registerPair_eq :
    image.registerPair name (some superclass) (some image.core.metaclass) fields classFields =
      (⟨image.classes.size + 1⟩,
        { image with
          shapes := (image.shapes.push (.initial image.shapes.next image.classes.next
              (image.newMetaclass name superclass classFields).fields.length)).push
            (.initial ⟨image.shapes.size + 1⟩ ⟨image.classes.size + 1⟩
              (image.newClass name superclass fields classFields).fields.length)
          classes := (image.classes.push (image.newMetaclass name superclass classFields)).push
            (image.newClass name superclass fields classFields) }) := by
  simp only [registerPair, registerClass, newMetaclass, newClass, Arena.next, Arena.size_push,
    Option.map_some, Option.getD_some]

theorem classAt_register_cases (ref : ClassRef) :
    (¬ (ref = image.classes.next ∨ ref = ⟨image.classes.size + 1⟩) ∧
        ((Action.register name superclass fields classFields).perform image).classAt ref =
          image.classAt ref) ∨
      (ref = image.classes.next ∧
        ((Action.register name superclass fields classFields).perform image).classAt ref =
          image.newMetaclass name superclass classFields) ∨
      (ref = ⟨image.classes.size + 1⟩ ∧
        ((Action.register name superclass fields classFields).perform image).classAt ref =
          image.newClass name superclass fields classFields) := by
  simp only [Action.perform, registerPair_eq, classAt, Arena.get_push, Arena.next,
    Arena.size_push]
  by_cases last : ref = ⟨image.classes.size + 1⟩
  · exact Or.inr (Or.inr ⟨last, if_pos last⟩)
  · rw [if_neg last]
    by_cases first : ref = ⟨image.classes.size⟩
    · exact Or.inr (Or.inl ⟨first, if_pos first⟩)
    · exact Or.inl ⟨not_or.mpr ⟨first, last⟩, if_neg first⟩

/-- What existed before a registration, the new metaclass and the new class exist after it. -/
theorem has_register (ref : ClassRef) :
    ((Action.register name superclass fields classFields).perform image).classes.Has ref ↔
      image.classes.Has ref ∨ ref = image.classes.next ∨ ref = ⟨image.classes.size + 1⟩ := by
  obtain ⟨index⟩ := ref
  simp only [Action.perform, registerPair_eq, Arena.has_push, Arena.next, Arena.size_push]
  exact or_assoc

theorem classAt_register_metaclass :
    ((Action.register name superclass fields classFields).perform image).classAt
      image.classes.next = image.newMetaclass name superclass classFields := by
  have apart : image.classes.size ≠ image.classes.size + 1 := by omega
  simp only [Action.perform, registerPair_eq, classAt, Arena.get_push, Arena.next,
    Arena.size_push, Ref.mk.injEq, apart, if_true, if_false]

theorem classAt_register_class :
    ((Action.register name superclass fields classFields).perform image).classAt
      ⟨image.classes.size + 1⟩ = image.newClass name superclass fields classFields := by
  simp only [Action.perform, registerPair_eq, classAt, Arena.get_push, Arena.next,
    Arena.size_push, if_true]

theorem classAt_register_of_has {ref : ClassRef} (known : image.classes.Has ref) :
    ((Action.register name superclass fields classFields).perform image).classAt ref =
      image.classAt ref := by
  simp only [Action.perform, registerPair_eq, classAt]
  rw [Arena.get_push_of_has _ ((Arena.has_push _ _ _).mpr (Or.inl known)),
    Arena.get_push_of_has _ known]

end Registration

/-- A class after the installation of a method is what it was, but for its dictionary. -/
theorem classAt_install_cases (image : Image) (holder : ClassRef) (selector : Selector)
    (behavior : Behavior) (ref : ClassRef) :
    ((Action.install holder selector behavior).perform image).classAt ref = image.classAt ref ∨
      (ref = holder ∧
        ((Action.install holder selector behavior).perform image).classAt ref =
          { image.classAt ref with
            methods := (image.classAt ref).methods.insert selector image.methods.next }) := by
  obtain ⟨journal, installed⟩ := image.addMethod_eq holder selector behavior
  simp only [Action.perform, installed, classAt, Arena.get_modify]
  split
  · next same => exact Or.inr ⟨same.1, rfl⟩
  · exact Or.inl rfl

/-- A class after the removal of a method is what it was, but for its dictionary. -/
theorem classAt_remove_cases (image : Image) (holder : ClassRef) (selector : Selector)
    (ref : ClassRef) :
    ((Action.remove holder selector).perform image).classAt ref = image.classAt ref ∨
      ((Action.remove holder selector).perform image).classAt ref =
        { image.classAt ref with methods := (image.classAt ref).methods.erase selector } := by
  simp only [Action.perform, removeMethod, modifyClass, classAt, Arena.get_modify]
  split
  · exact Or.inr rfl
  · exact Or.inl rfl

end Image

/-- Whether a class refers to existing things, its metaclass apart. -/
structure Class.Within (scope : Image) (type : Class) : Prop where
  superclass : ∀ parent, type.superclass = some parent → scope.classes.Has parent
  dictionary : ∀ method ∈ type.methods.values, scope.methods.Has method
  values : ∀ value ∈ type.values, value.Exists scope

namespace Image.Within

variable {scope image : Image}

theorem ofClass (inside : Within scope image) (ref : ClassRef) :
    (image.classAt ref).Within scope where
  superclass := inside.superclasses ref
  dictionary := inside.dictionaries ref
  values := inside.classValues ref

/-- Classes may be exchanged for others that refer to existing things. -/
theorem withClasses (inside : Within scope image) {classes : Arena .classes Class}
    (types : ∀ ref, (classes.get ref).Within scope)
    (metaclasses : ∀ ref, classes.Has ref → scope.classes.Has (classes.get ref).instanceOf) :
    Within scope { image with classes } :=
  { inside with
    superclasses := fun ref => (types ref).superclass
    metaclasses
    dictionaries := fun ref => (types ref).dictionary
    classValues := fun ref => (types ref).values }

end Image.Within

namespace Action

variable {image : Image}

theorem within_install {holder : ClassRef} {selector : Selector} {behavior : Behavior}
    (inside : image.Within image) (allowed : (install holder selector behavior).Allowed image) :
    Image.Within ((install holder selector behavior).perform image)
      ((install holder selector behavior).perform image) := by
  have outside := inside.mono (extends_perform allowed)
  have classes := image.classAt_install_cases holder selector behavior
  obtain ⟨journal, installed⟩ := image.addMethod_eq holder selector behavior
  generalize done : (install holder selector behavior).perform image = after at outside classes ⊢
  rw [perform, installed] at done
  have types : ∀ ref, (after.classAt ref).Within after := by
    intro ref
    have old := outside.ofClass ref
    rcases classes ref with same | ⟨-, same⟩ <;> rw [same]
    · exact old
    · refine { old with dictionary := fun method member => ?_ }
      rcases Dictionary.mem_values_insert member with new | there
      · subst done
        exact (Arena.has_push _ _ _).mpr (Or.inr new)
      · exact old.dictionary method there
  have metaclasses : ∀ ref, image.classes.Has ref →
      after.classes.Has (after.classAt ref).instanceOf := by
    intro ref known
    rcases classes ref with same | ⟨-, same⟩ <;> rw [same] <;> exact outside.metaclasses ref known
  subst done
  refine { outside.withClasses types fun ref known => ?_ with holders := fun ref old => ?_ }
  · exact metaclasses ref ((Arena.has_modify _ _ _ _).mp known)
  · rw [Arena.has_push] at old
    simp only [Image.methodAt, Arena.get_push]
    split
    · exact (Arena.has_modify _ _ _ _).mpr allowed.1
    · next different => exact outside.holders ref (old.resolve_right different)

theorem within_remove {holder : ClassRef} {selector : Selector} (inside : image.Within image)
    (allowed : (remove holder selector).Allowed image) :
    Image.Within ((remove holder selector).perform image)
      ((remove holder selector).perform image) := by
  have outside := inside.mono (extends_perform allowed)
  have classes := image.classAt_remove_cases holder selector
  refine outside.withClasses (fun ref => ?_) fun ref known => ?_
  · have old := outside.ofClass ref
    change Class.Within _ (((remove holder selector).perform image).classAt ref)
    rcases classes ref with same | same <;> rw [same]
    · exact old
    · exact { old with
        dictionary := fun method member =>
          old.dictionary method (Dictionary.mem_values_erase member) }
  · have known := (Arena.has_modify _ _ _ _).mp known
    change Arena.Has _ (((remove holder selector).perform image).classAt ref).instanceOf
    rcases classes ref with same | same <;> rw [same] <;> exact outside.metaclasses ref known

theorem within_register {name : String} {superclass : ClassRef} {fields classFields : List String}
    (inside : image.Within image)
    (allowed : (register name superclass fields classFields).Allowed image) :
    Image.Within ((register name superclass fields classFields).perform image)
      ((register name superclass fields classFields).perform image) := by
  have outside := inside.mono (extends_perform allowed)
  have classes := image.classAt_register_cases name superclass fields classFields
  have has := image.has_register name superclass fields classFields
  -- The class of metaclasses, the superclass and its metaclass exist already.
  have metaclass : image.classes.Has image.core.metaclass :=
    inside.core _ (by simp [CoreClasses.inOrder])
  have superMetaclass := inside.metaclasses superclass allowed
  generalize done : (register name superclass fields classFields).perform image = after
    at outside classes has ⊢
  have types : ∀ ref, (after.classAt ref).Within after := by
    intro ref
    rcases classes ref with ⟨-, same⟩ | ⟨-, same⟩ | ⟨-, same⟩ <;> rw [same]
    · exact outside.ofClass ref
    · refine ⟨fun parent found => ?_, fun _ member => absurd member List.not_mem_nil,
        fun _ member => absurd member (Array.not_mem_empty _)⟩
      cases found
      exact (has _).mpr (Or.inl superMetaclass)
    · refine ⟨fun parent found => ?_, fun _ member => absurd member List.not_mem_nil,
        fun value member => ?_⟩
      · cases found
        exact (has _).mpr (Or.inl allowed)
      · cases (Array.mem_replicate.mp member).2
        trivial
  have metaclasses : ∀ ref, after.classes.Has ref →
      after.classes.Has (after.classAt ref).instanceOf := by
    intro ref known
    rcases classes ref with ⟨older, same⟩ | ⟨-, same⟩ | ⟨-, same⟩ <;> rw [same]
    · exact outside.metaclasses ref (((has ref).mp known).resolve_right older)
    · exact (has _).mpr (Or.inl metaclass)
    · exact (has _).mpr (Or.inr (Or.inl rfl))
  subst done
  exact { outside.withClasses types metaclasses with }

/-- After an allowed action everything still refers to existing things. -/
theorem within_perform {action : Action} (inside : image.Within image)
    (allowed : action.Allowed image) :
    (action.perform image).Within (action.perform image) := by
  have extended := extends_perform allowed
  have outside := inside.mono extended
  cases action with
  | noteDown journal => exact { outside with }
  | meet names => exact { outside with }
  | draw bound => exact { outside with }
  | makeArray elements =>
      refine { outside with elements := fun ref => ?_ }
      simp only [perform, Image.arrayAt, Image.addArray, Arena.get_push]
      split
      · exact fun value member => (allowed value member).mono extended
      · exact outside.elements ref
  | setElement ref place value =>
      refine { outside with elements := fun other => ?_ }
      simp only [perform, Image.arrayAt, Image.setElement, Arena.get_modify]
      split
      · intro held member
        rcases Array.mem_or_eq_of_mem_setIfInBounds member with old | new
        · exact outside.elements other held old
        · exact new ▸ allowed.mono extended
      · exact outside.elements other
  | makeBlock closure =>
      refine { outside with bodies := fun ref => ?_ }
      simp only [perform, Image.blockAt, Image.addBlock, Arena.get_push]
      split
      · exact fun node member => (allowed node member).mono extended
      · exact outside.bodies ref
  | instantiate owner =>
      refine { outside with owners := fun ref old => ?_, contents := fun ref => ?_ }
      · simp only [perform, Image.objectAt, Image.instantiate, Arena.get_push]
        simp only [perform, Image.instantiate, Arena.has_push] at old
        split
        · exact Nat.lt_of_lt_of_le allowed extended.classes
        · next different => exact outside.owners ref (old.resolve_right different)
      · simp only [perform, Image.objectAt, Image.instantiate, Arena.get_push]
        split
        · exact Instance.all_ofShape trivial _ _
        · exact outside.contents ref
  | enter frame =>
      refine { outside with frames := fun ref => ?_ }
      simp only [perform, Image.frameAt, Image.addFrame, Arena.get_push]
      split
      · exact {
          receiver := Value.Exists.mono allowed.receiver extended
          arguments := fun value member => (allowed.arguments value member).mono extended
          temporaries := fun value member => (allowed.temporaries value member).mono extended }
      · exact outside.frames ref
  | setSlot frame kind index value =>
      refine { outside with frames := fun ref => ?_ }
      simp only [perform, Image.frameAt, Image.changeFrame, Arena.get_modify]
      split
      · exact (outside.frames ref).setSlot kind index (allowed.mono extended)
      · exact outside.frames ref
  | leave frame =>
      refine { outside with frames := fun ref => ?_ }
      simp only [perform, Image.frameAt, Image.changeFrame, Arena.get_modify]
      split
      · exact { outside.frames ref with }
      · exact outside.frames ref
  | readField receiver index => exact (readField_tended image receiver index).within inside
  | writeField receiver index value =>
      exact (writeField_tended allowed.2 receiver index).within inside
  | readFieldAt site receiver index =>
      exact (readFieldAt_tended image site receiver index).within inside
  | writeFieldAt site receiver index value =>
      exact (writeFieldAt_tended allowed.2.1 site receiver index).within inside
  | resolve site selector receiver =>
      obtain ⟨calls, journal, -, result⟩ := image.lookupAt_eq site selector receiver
      rw [perform, result] at outside ⊢
      exact { outside with }
  | resolveSuper site origin selector =>
      obtain ⟨calls, -, result⟩ := image.lookupSuperAt_eq site origin selector
      rw [perform, result] at outside ⊢
      exact { outside with }
  | settle site => exact { outside with }
  | bind name value =>
      refine { outside with globals := fun held member => ?_ }
      rcases Dictionary.mem_values_insert member with new | old
      · exact new ▸ allowed.mono extended
      · exact outside.globals held old
  | allocate draft => exact { outside with }
  | install holder selector behavior => exact within_install inside allowed
  | remove holder selector => exact within_remove inside allowed
  | register name superclass fields classFields => exact within_register inside allowed

end Action

namespace Image

/-- Where methods stay what they are, the nodes of the image are the same. -/
theorem WellFormed.of_methods {before after : Image} (formed : before.WellFormed)
    (extended : before.Extends after) (inside : after.Within after)
    (methods : after.methods = before.methods) : after.WellFormed := by
  have nodes : ∀ node, after.Outlines node → before.Outlines node := by
    intro node outlined
    simp only [Outlines, methodAt, methods] at outlined ⊢
    exact outlined
  exact {
    within := inside
    placed := fun node outlined => (formed.placed node (nodes node outlined)).mono extended
    callsApart := fun node other site outlined outlinedToo =>
      formed.callsApart node other site (nodes node outlined) (nodes other outlinedToo)
    fieldsApart := fun node other site outlined outlinedToo =>
      formed.fieldsApart node other site (nodes node outlined) (nodes other outlinedToo) }

/-- The nodes of an image after the installation of a method are the ones it had before and those
of the method. -/
theorem outlines_install {image : Image} {holder : ClassRef} {selector : Selector}
    {behavior : Behavior} {node : OutlineNode}
    (outlined : ((Action.install holder selector behavior).perform image).Outlines node) :
    image.Outlines node ∨
      node ∈ Code.outlineAll ({ holder, selector, behavior } : Method).body := by
  obtain ⟨journal, installed⟩ := image.addMethod_eq holder selector behavior
  obtain ⟨ref, member⟩ := outlined
  simp only [Action.perform, installed, methodAt, Arena.get_push] at member
  split at member
  · exact Or.inr member
  · exact Or.inl ⟨ref, member⟩

/-- The installation of a method on fresh sites keeps nodes apart. -/
theorem WellFormed.install {image : Image} {holder : ClassRef} {selector : Selector}
    {behavior : Behavior} (formed : image.WellFormed)
    (allowed : (Action.install holder selector behavior).Allowed image) :
    ((Action.install holder selector behavior).perform image).WellFormed := by
  have extended := Action.extends_perform allowed
  obtain ⟨known, fresh⟩ := allowed
  exact {
    within := Action.within_perform formed.within ⟨known, fresh⟩
    placed := by
      intro node outlined
      rcases outlines_install outlined with old | new
      · exact (formed.placed node old).mono extended
      · exact (fresh.placed node new).mono extended
    callsApart := by
      intro node other site outlined outlinedToo first second
      rcases outlines_install outlined with old | new <;>
        rcases outlines_install outlinedToo with oldToo | newToo
      · exact formed.callsApart node other site old oldToo first second
      · exact absurd first ((fresh.callsUnused other newToo site second).2 node old)
      · exact absurd second ((fresh.callsUnused node new site first).2 other oldToo)
      · exact fresh.callsApart node new other newToo site first second
    fieldsApart := by
      intro node other site outlined outlinedToo first second
      rcases outlines_install outlined with old | new <;>
        rcases outlines_install outlinedToo with oldToo | newToo
      · exact formed.fieldsApart node other site old oldToo first second
      · exact absurd first ((fresh.fieldsUnused other newToo site second).2 node old)
      · exact absurd second ((fresh.fieldsUnused node new site first).2 other oldToo)
      · exact fresh.fieldsApart node new other newToo site first second }

end Image

namespace Action

/-- How methods, objects and classes come into existence: by installation, instantiation and
registration, and in no other way. -/
structure Growth (image : Image) (action : Action) : Prop where
  methods : (∃ holder selector behavior, action = .install holder selector behavior) ∨
    (action.perform image).methods = image.methods
  objects : (∃ owner, action = .instantiate owner) ∨
    (action.perform image).heap.objects.size = image.heap.objects.size
  classes : (∃ name superclass fields classFields,
      action = .register name superclass fields classFields) ∨
    (action.perform image).classes.size = image.classes.size

theorem growth_of_tended {good : Value → Prop} {image : Image} {action : Action}
    (tended : Image.Tended good image (action.perform image)) : action.Growth image where
  methods := Or.inr tended.methods
  objects := Or.inr tended.objectCount
  classes := Or.inr tended.classCount

theorem growth_of_eq {image : Image} {action : Action}
    (methods : (action.perform image).methods = image.methods)
    (heap : (action.perform image).heap = image.heap)
    (classes : (action.perform image).classes = image.classes) : action.Growth image where
  methods := Or.inr methods
  objects := Or.inr (by rw [heap])
  classes := Or.inr (by rw [classes])

theorem growth_perform (image : Image) (action : Action) : action.Growth image := by
  have anything : ∀ value : Value, value.IsPlain → value.IsNormal → True :=
    fun _ _ _ => trivial
  cases action with
  | install holder selector behavior =>
      obtain ⟨journal, installed⟩ := image.addMethod_eq holder selector behavior
      exact {
        methods := Or.inl ⟨_, _, _, rfl⟩
        objects := Or.inr (by rw [perform, installed])
        classes := Or.inr (by
          rw [perform, installed]
          exact Arena.size_modify _ _ _) }
  | instantiate owner => exact ⟨Or.inr rfl, Or.inl ⟨owner, rfl⟩, Or.inr rfl⟩
  | register name superclass fields classFields =>
      exact ⟨Or.inr rfl, Or.inr rfl, Or.inl ⟨_, _, _, _, rfl⟩⟩
  | readField receiver index => exact growth_of_tended (readField_tended image receiver index)
  | writeField receiver index value =>
      exact growth_of_tended (Image.writeField_tended anything image receiver index trivial)
  | readFieldAt site receiver index =>
      exact growth_of_tended (readFieldAt_tended image site receiver index)
  | writeFieldAt site receiver index value =>
      exact growth_of_tended (Image.writeFieldAt_tended anything image site receiver index trivial)
  | resolve site selector receiver =>
      obtain ⟨calls, journal, -, result⟩ := image.lookupAt_eq site selector receiver
      exact growth_of_eq (by rw [perform, result]) (by rw [perform, result])
        (by rw [perform, result])
  | resolveSuper site origin selector =>
      obtain ⟨calls, -, result⟩ := image.lookupSuperAt_eq site origin selector
      exact growth_of_eq (by rw [perform, result]) (by rw [perform, result])
        (by rw [perform, result])
  | remove holder selector => exact ⟨Or.inr rfl, Or.inr rfl, Or.inr (Arena.size_modify _ _ _)⟩
  | _ => exact ⟨Or.inr rfl, Or.inr rfl, Or.inr rfl⟩

/-- An allowed action keeps an image well-formed. -/
theorem wellFormed_perform {image : Image} {action : Action} (formed : image.WellFormed)
    (allowed : action.Allowed image) : (action.perform image).WellFormed := by
  rcases (growth_perform image action).methods with ⟨holder, selector, behavior, rfl⟩ | methods
  · exact formed.install allowed
  · exact formed.of_methods (extends_perform allowed) (within_perform formed.within allowed)
      methods

end Action

namespace Image.Reaches

variable {start image : Image} {actions : List Action}

theorem wellFormed (reached : start.Reaches actions image) (formed : start.WellFormed) :
    image.WellFormed := by
  induction reached with
  | start => exact formed
  | act action _ allowed inductionHypothesis =>
      exact Action.wellFormed_perform inductionHypothesis allowed

/-- A history leads to a later image. -/
theorem extended (reached : start.Reaches actions image) : start.Extends image := by
  induction reached with
  | start => exact .refl start
  | act action _ allowed inductionHypothesis =>
      exact inductionHypothesis.trans (Action.extends_perform allowed)

end Image.Reaches

end MessageMachine
