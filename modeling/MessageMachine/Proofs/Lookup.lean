import MessageMachine.Proofs.Foundation

/-!
# Lookups that stay the same

The method that a class answers a selector with is found along its lineage, and the lineage of a
class ends at the root before the number of classes is used up.  A lookup therefore stays the same
as long as the classes that exist keep their superclasses and their dictionaries, no matter how many
classes are registered besides.

Receivers of one category have one class.  That class is named by the category itself, so that what
was found for one receiver holds for every other receiver of its category.
-/

namespace MessageMachine

namespace Image

/-- The class of the receivers of a category. -/
def guardClass (image : Image) : Guard → ClassRef
  | .nil => image.core.nil
  | .truth => image.core.trueClass
  | .falsity => image.core.falseClass
  | .integer => image.core.integer
  | .double => image.core.double
  | .string => image.core.string
  | .symbol => image.core.symbol
  | .array => image.core.array
  | .block parameters => image.core.blockOf parameters
  | .method => image.core.method
  | .primitive => image.core.primitive
  | .classObject ref => (image.classAt ref).instanceOf
  | .object owner => owner

/-- The category of a receiver decides its class. -/
theorem classOf_eq_guardClass (image : Image) (receiver : Value) :
    image.classOf receiver = image.guardClass (image.guardOf receiver) := by
  cases receiver with
  | boolean truth => cases truth <;> rfl
  | method ref =>
      simp only [classOf, guardOf]
      split <;> rfl
  | _ => rfl

/-- Whether the classes that a category refers to exist. -/
def GuardKnown (image : Image) : Guard → Prop
  | .classObject ref => image.classes.Has ref
  | .object owner => image.classes.Has owner
  | _ => True

theorem guardKnown_guardOf {image : Image} (formed : image.WellFormed) {receiver : Value}
    (known : receiver.Exists image) : image.GuardKnown (image.guardOf receiver) := by
  cases receiver with
  | boolean truth => cases truth <;> trivial
  | object ref => exact formed.within.owners ref known
  | classObject ref => exact known
  | method ref =>
      simp only [guardOf]
      split <;> trivial
  | _ => trivial

theorem has_guardClass {image : Image} (formed : image.WellFormed) {guard : Guard}
    (known : image.GuardKnown guard) : image.classes.Has (image.guardClass guard) := by
  have core : ∀ ref ∈ image.core.inOrder, image.classes.Has ref := formed.within.core
  cases guard with
  | classObject ref => exact formed.within.metaclasses ref known
  | object owner => exact known
  | block parameters =>
      apply core
      match parameters with
      | 0 => simp [guardClass, CoreClasses.blockOf, CoreClasses.inOrder]
      | 1 => simp [guardClass, CoreClasses.blockOf, CoreClasses.inOrder]
      | _ + 2 => simp [guardClass, CoreClasses.blockOf, CoreClasses.inOrder]
  | _ =>
      apply core
      simp [guardClass, CoreClasses.inOrder]

/-- The class of an existing receiver exists. -/
theorem has_classOf {image : Image} (formed : image.WellFormed) {receiver : Value}
    (known : receiver.Exists image) : image.classes.Has (image.classOf receiver) := by
  rw [classOf_eq_guardClass]
  exact has_guardClass formed (guardKnown_guardOf formed known)

/-- The lineage of every class ends. -/
def Rooted (image : Image) : Prop :=
  ∀ ref, image.classes.Has ref → image.endsWithin image.classes.size ref = true

/-- More steps than needed make no difference. -/
theorem endsWithin_mono {image : Image} {steps more : Nat} {ref : ClassRef}
    (ends : image.endsWithin steps ref = true) (enough : steps ≤ more) :
    image.endsWithin more ref = true ∧
      image.lineageWithin more ref = image.lineageWithin steps ref := by
  induction steps generalizing more ref with
  | zero => cases ends
  | succ steps inductionHypothesis =>
      obtain ⟨fewer, rfl⟩ : ∃ fewer, more = fewer + 1 := ⟨more - 1, by omega⟩
      simp only [endsWithin, lineageWithin] at ends ⊢
      cases parent : (image.classAt ref).superclass with
      | none => exact ⟨rfl, rfl⟩
      | some above =>
          simp only [parent] at ends
          obtain ⟨later, same⟩ := inductionHypothesis ends (Nat.le_of_succ_le_succ enough)
          exact ⟨later, congrArg (ref :: ·) same⟩

/-- Lineages depend on superclasses only. -/
theorem lineageWithin_of_superclass {before after : Image}
    (same : ∀ type, (after.classAt type).superclass = (before.classAt type).superclass)
    (steps : Nat) (ref : ClassRef) :
    after.lineageWithin steps ref = before.lineageWithin steps ref := by
  induction steps generalizing ref with
  | zero => rfl
  | succ steps inductionHypothesis => simp only [lineageWithin, same, inductionHypothesis]

/-- A lookup depends on the classes only. -/
theorem lookup_of_classes {before after : Image} (classes : after.classes = before.classes)
    (ref : ClassRef) (selector : Selector) :
    after.lookup ref selector = before.lookup ref selector := by
  have same : ∀ type, after.classAt type = before.classAt type := fun type => by
    rw [classAt, classes, ← classAt]
  simp only [lookup, lineage, classes, same,
    lineageWithin_of_superclass fun type => congrArg Class.superclass (same type)]

/-- What the classes of existing receivers and the lookups in existing classes depend on. -/
structure SameRegistry (before after : Image) : Prop where
  count : before.classes.size ≤ after.classes.size
  core : after.core = before.core
  instanceOf : ∀ ref, before.classes.Has ref →
    (after.classAt ref).instanceOf = (before.classAt ref).instanceOf
  superclass : ∀ ref, before.classes.Has ref →
    (after.classAt ref).superclass = (before.classAt ref).superclass
  methods : ∀ ref, before.classes.Has ref →
    (after.classAt ref).methods = (before.classAt ref).methods

/-- Along a lineage everything exists. -/
theorem lineageWithin_congr {before after : Image} (formed : before.WellFormed)
    (superclass : ∀ ref, before.classes.Has ref →
      (after.classAt ref).superclass = (before.classAt ref).superclass)
    (steps : Nat) {ref : ClassRef} (known : before.classes.Has ref) :
    after.lineageWithin steps ref = before.lineageWithin steps ref ∧
      after.endsWithin steps ref = before.endsWithin steps ref ∧
      ∀ ancestor ∈ before.lineageWithin steps ref, before.classes.Has ancestor := by
  induction steps generalizing ref with
  | zero => exact ⟨rfl, rfl, fun _ member => by cases member⟩
  | succ steps inductionHypothesis =>
      simp only [lineageWithin, endsWithin, superclass ref known]
      cases parent : (before.classAt ref).superclass with
      | none =>
          refine ⟨rfl, rfl, fun ancestor member => ?_⟩
          cases List.mem_singleton.mp member
          exact known
      | some above =>
          obtain ⟨lineage, ends, all⟩ :=
            inductionHypothesis (formed.within.superclasses ref above parent)
          refine ⟨congrArg (ref :: ·) lineage, ends, fun ancestor member => ?_⟩
          rcases List.mem_cons.mp member with rfl | member
          · exact known
          · exact all ancestor member

/-- Where superclasses stay the same, lineages go on ending. -/
theorem Rooted.ends {before after : Image} (rooted : before.Rooted) (formed : before.WellFormed)
    (superclass : ∀ ref, before.classes.Has ref →
      (after.classAt ref).superclass = (before.classAt ref).superclass)
    {steps : Nat} (enough : before.classes.size ≤ steps) {ref : ClassRef}
    (known : before.classes.Has ref) : after.endsWithin steps ref = true := by
  obtain ⟨-, ends, -⟩ := lineageWithin_congr formed superclass steps known
  rw [ends]
  exact (endsWithin_mono (rooted ref known) enough).1

namespace SameRegistry

variable {before after : Image}

/-- Lookups in existing classes stay the same. -/
theorem lookup (same : before.SameRegistry after) (formed : before.WellFormed)
    (rooted : before.Rooted) {ref : ClassRef} (known : before.classes.Has ref)
    (selector : Selector) : after.lookup ref selector = before.lookup ref selector := by
  have ends := rooted ref known
  obtain ⟨lineage, -, all⟩ :=
    lineageWithin_congr formed same.superclass after.classes.size known
  obtain ⟨-, enough⟩ := endsWithin_mono ends same.count
  have members : ∀ ancestor ∈ before.lineage ref, before.classes.Has ancestor := by
    intro ancestor member
    apply all
    rw [enough]
    exact member
  simp only [Image.lookup, Image.lineage, lineage, enough]
  have dictionaries : ∀ ancestors : List ClassRef,
      (∀ ancestor ∈ ancestors, before.classes.Has ancestor) →
      (ancestors.findSome? fun ancestor => (after.classAt ancestor).methods.find? selector) =
        ancestors.findSome? fun ancestor => (before.classAt ancestor).methods.find? selector := by
    intro ancestors present
    induction ancestors with
    | nil => rfl
    | cons ancestor rest inductionHypothesis =>
        simp only [List.findSome?_cons, same.methods ancestor (present ancestor List.mem_cons_self),
          inductionHypothesis fun other member => present other (List.mem_cons_of_mem _ member)]
  exact dictionaries _ members

/-- The class of a known category stays the same. -/
theorem guardClass (same : before.SameRegistry after) {guard : Guard}
    (known : before.GuardKnown guard) : after.guardClass guard = before.guardClass guard := by
  cases guard with
  | classObject ref => exact same.instanceOf ref known
  | _ => simp only [Image.guardClass, same.core]

theorem guardKnown (same : before.SameRegistry after) {guard : Guard}
    (known : before.GuardKnown guard) : after.GuardKnown guard := by
  cases guard with
  | classObject ref => exact Nat.lt_of_lt_of_le known same.count
  | object owner => exact Nat.lt_of_lt_of_le known same.count
  | _ => trivial

theorem of_eq (classes : after.classes = before.classes) (core : after.core = before.core) :
    before.SameRegistry after where
  count := Nat.le_of_eq (congrArg Arena.size classes).symm
  core := core
  instanceOf := fun ref _ => by rw [classAt, classes, ← classAt]
  superclass := fun ref _ => by rw [classAt, classes, ← classAt]
  methods := fun ref _ => by rw [classAt, classes, ← classAt]

end SameRegistry

end Image

namespace Action

/-- Whether an action installs a method. -/
def installs : Action → Bool
  | .install _ _ _ => true
  | _ => false

/-- Whether an action takes a method out of a dictionary. -/
def removes : Action → Bool
  | .remove _ _ => true
  | _ => false

variable {image : Image} {action : Action}

theorem methods_of_not_installs (image : Image) (unchanged : action.installs = false) :
    (action.perform image).methods = image.methods := by
  rcases (growth_perform image action).methods with ⟨_, _, _, rfl⟩ | same
  · cases unchanged
  · exact same

/-- Only installing and removing methods changes what existing classes answer. -/
theorem sameRegistry_perform (allowed : action.Allowed image) (kept : action.removes = false)
    (unchanged : action.installs = false) : image.SameRegistry (action.perform image) := by
  have tended : ∀ {good : Value → Prop} {after : Image}, Image.Tended good image after →
      image.SameRegistry after := fun tended => {
    count := Nat.le_of_eq tended.classCount.symm
    core := tended.core
    instanceOf := fun ref _ => tended.instanceOf ref
    superclass := fun ref _ => tended.superclass ref
    methods := fun ref _ => tended.dictionary ref }
  cases action with
  | install holder selector behavior => cases unchanged
  | remove holder selector => cases kept
  | readField receiver index => exact tended (readField_tended image receiver index)
  | writeField receiver index value => exact tended (writeField_tended allowed.2 receiver index)
  | readFieldAt site receiver index => exact tended (readFieldAt_tended image site receiver index)
  | writeFieldAt site receiver index value =>
      exact tended (writeFieldAt_tended allowed.2.1 site receiver index)
  | resolve site selector receiver =>
      obtain ⟨calls, journal, -, result⟩ := image.lookupAt_eq site selector receiver
      exact .of_eq (by rw [perform, result]) (by rw [perform, result])
  | resolveSuper site origin selector =>
      obtain ⟨calls, -, result⟩ := image.lookupSuperAt_eq site origin selector
      exact .of_eq (by rw [perform, result]) (by rw [perform, result])
  | register name superclass fields classFields =>
      have same := fun {ref} =>
        @Image.classAt_register_of_has image name superclass fields classFields ref
      exact {
        count := (extends_perform allowed).classes
        core := rfl
        instanceOf := fun ref known => by rw [same known]
        superclass := fun ref known => by rw [same known]
        methods := fun ref known => by rw [same known] }
  | _ => exact .of_eq rfl rfl

end Action

namespace Image

theorem rooted_founded (platform : Platform) (settings : Settings) (listening : Bool) :
    (founded platform settings listening).Rooted := by
  have rooted : (founded .plain .standard false).Rooted := fun _ known => (bare_of_has known).ends
  rw [founded_eq]
  exact fun ref known => rooted.ends wellFormed_founded (fun _ _ => rfl) (Nat.le_refl _) known

/-- The lineage of a class that was just registered ends, since that of its superclass does. -/
theorem Rooted.register {image : Image} (rooted : image.Rooted) (formed : image.WellFormed)
    {name : String} {superclass : ClassRef} {fields classFields : List String}
    (known : image.classes.Has superclass) :
    ((Action.register name superclass fields classFields).perform image).Rooted := by
  have size : ((Action.register name superclass fields classFields).perform image).classes.size =
      image.classes.size + 2 := by
    simp [Action.perform, registerPair_eq]
  have ends : ∀ {ref : ClassRef}, image.classes.Has ref →
      ((Action.register name superclass fields classFields).perform image).endsWithin
        (image.classes.size + 1) ref = true :=
    rooted.ends formed
      (fun ref old => congrArg Class.superclass
        (image.classAt_register_of_has name superclass fields classFields old))
      (Nat.le_succ image.classes.size)
  intro ref present
  rw [size]
  rcases (image.has_register name superclass fields classFields ref).mp present with
    old | rfl | rfl
  · exact (endsWithin_mono (ends old) (Nat.le_succ _)).1
  · simp only [endsWithin, classAt_register_metaclass]
    exact ends (formed.within.metaclasses superclass known)
  · simp only [endsWithin, classAt_register_class]
    exact ends known

/-- Every allowed action keeps lineages finite. -/
theorem Rooted.perform {image : Image} {action : Action} (rooted : image.Rooted)
    (formed : image.WellFormed) (allowed : action.Allowed image) :
    (action.perform image).Rooted := by
  have kept : (action.perform image).classes.size = image.classes.size →
      (∀ ref, image.classes.Has ref →
        ((action.perform image).classAt ref).superclass = (image.classAt ref).superclass) →
      (action.perform image).Rooted := by
    intro size superclass ref present
    exact rooted.ends formed superclass (Nat.le_of_eq size.symm)
      (Nat.lt_of_lt_of_eq present size)
  rcases (Action.growth_perform image action).classes with
    ⟨name, superclass, fields, classFields, rfl⟩ | size
  · exact rooted.register formed allowed
  · by_cases installs : action.installs = true
    · cases action with
      | install holder selector behavior =>
          refine kept size fun ref _ => ?_
          rcases image.classAt_install_cases holder selector behavior ref with
            same | ⟨-, same⟩ <;> rw [same]
      | _ => cases installs
    · by_cases removes : action.removes = true
      · cases action with
        | remove holder selector =>
            refine kept size fun ref _ => ?_
            rcases image.classAt_remove_cases holder selector ref with same | same <;> rw [same]
        | _ => cases removes
      · exact kept size (Action.sameRegistry_perform allowed (by simpa using removes)
          (by simpa using installs)).superclass

end Image

end MessageMachine
