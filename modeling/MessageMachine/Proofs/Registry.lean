import Mathlib.Data.List.Nodup
import MessageMachine.Proofs.Invariance
import MessageMachine.Proofs.Soundness
import MessageMachine.Proofs.Standing

/-!
# The registry of classes

Every class leads up to the root by way of its superclasses, has the fields of its superclass
followed by its own, and holds methods that are its own.  A class that is not a metaclass has a
metaclass to itself, and the metaclasses inherit from each other the way their classes do.

No numbering of the classes explains why the way up ends: the metaclass of the root inherits from
the class of classes, which is registered later, and a definition may inherit from whatever class a
global name is bound to, be it a metaclass.  What explains it is that a registration leaves the ways
up alone that there are, and puts two classes at the lower end of them.
-/

namespace MessageMachine

/-- The fields that a definition declares, for its class or for the metaclass. -/
def Source.ClassDefinition.declared (definition : Source.ClassDefinition) (isMetaclass : Bool) :
    List String :=
  if isMetaclass then definition.classFields else definition.fields

/-- The fields that are declared for a class itself, or for a metaclass.  Core classes declare none.
Every other class is registered while a class definition is served, be it flawed or not. -/
inductive Session.Declares (session : Session) (ref : ClassRef) (isMetaclass : Bool) :
    List String → Prop
  | core : session.start.classes.Has ref → Declares session ref isMetaclass []
  | defined {definition : Source.ClassDefinition} {image : Image} :
      session.Serves (.defineClass definition) image → ¬ image.classes.Has ref →
      ((Request.defineClass definition).serve (.ofBudget session.budget) image).2.classes.Has ref →
      Declares session ref isMetaclass (definition.declared isMetaclass)

namespace Image

/-- The fields that a class has from its superclass. -/
def inheritedFields (image : Image) (ref : ClassRef) : List String :=
  ((image.classAt ref).superclass.map fun parent => (image.classAt parent).fields).getD []

/-- The class of the superclass of a class, and of the root the class of classes. -/
def classAbove (image : Image) (ref : ClassRef) : ClassRef :=
  ((image.classAt ref).superclass.map fun parent =>
    (image.classAt parent).instanceOf).getD image.core.classClass

/-- A lookup that follows the superclasses for as long as there are any, and what it comes to. -/
inductive Seeks (image : Image) (selector : Selector) : ClassRef → Option MethodRef → Prop
  | held {ref : ClassRef} {method : MethodRef} :
      (image.classAt ref).methods.find? selector = some method →
      Seeks image selector ref (some method)
  | inherited {ref parent : ClassRef} {found : Option MethodRef} :
      (image.classAt ref).methods.find? selector = none →
      (image.classAt ref).superclass = some parent → Seeks image selector parent found →
      Seeks image selector ref found
  | missing {ref : ClassRef} : (image.classAt ref).methods.find? selector = none →
      (image.classAt ref).superclass = none → Seeks image selector ref none

/-- Whether a class has a metaclass to itself, which is where it has to be. -/
structure Paired (image : Image) (ref : ClassRef) : Prop where
  known : image.classes.Has (image.classAt ref).instanceOf
  isMetaclass : (image.classAt (image.classAt ref).instanceOf).isMetaclass = true
  alone : ∀ other, image.classes.Has other →
    (image.classAt other).instanceOf = (image.classAt ref).instanceOf → other = ref
  instanceOf : (image.classAt (image.classAt ref).instanceOf).instanceOf = image.core.metaclass
  superclass : (image.classAt (image.classAt ref).instanceOf).superclass =
    some (image.classAbove ref)
  values : (image.classAt ref).values.size =
    (image.classAt (image.classAt ref).instanceOf).fields.length

/-- Whether a class is in order, given what fields are declared. -/
structure Orderly (declares : ClassRef → Bool → List String → Prop) (image : Image)
    (ref : ClassRef) : Prop where
  ends : image.Descends ref image.core.object
  root : (image.classAt ref).superclass = none ↔ ref = image.core.object
  lookups : ∀ selector, image.Seeks selector ref (image.lookup ref selector)
  fields : ∃ own, declares ref (image.classAt ref).isMetaclass own ∧
    (image.classAt ref).fields = image.inheritedFields ref ++ own
  distinct : (image.classAt ref).fields.Nodup
  paired : (image.classAt ref).isMetaclass = false → image.Paired ref
  methods : ∀ selector method, (selector, method) ∈ (image.classAt ref).methods.entries →
    (image.methodAt method).holder = ref ∧ (image.methodAt method).selector = selector

/-- The way a class is coupled with its metaclass: they are registered one after the other. -/
structure Coupled (image : Image) (ref : ClassRef) : Prop where
  adjacent : (image.classAt ref).instanceOf.index + 1 = ref.index
  isMetaclass : (image.classAt (image.classAt ref).instanceOf).isMetaclass = true
  superclass : (image.classAt (image.classAt ref).instanceOf).superclass =
    some (image.classAbove ref)
  values : (image.classAt ref).values.size =
    (image.classAt (image.classAt ref).instanceOf).fields.length

/-- What a registration sees to for a class, which has nothing to do with dictionaries. -/
structure Enrolled (declares : ClassRef → Bool → List String → Prop) (image : Image)
    (ref : ClassRef) : Prop where
  root : (image.classAt ref).superclass = none ↔ ref = image.core.object
  fields : ∃ own, declares ref (image.classAt ref).isMetaclass own ∧
    (image.classAt ref).fields = image.inheritedFields ref ++ own
  distinct : (image.classAt ref).fields.Nodup
  metaclass : (image.classAt ref).isMetaclass = true →
    (image.classAt ref).instanceOf = image.core.metaclass
  coupled : (image.classAt ref).isMetaclass = false → image.Coupled ref

/-- Whether all classes of an image are enrolled, and the way up from them ends. -/
structure Registry (declares : ClassRef → Bool → List String → Prop) (image : Image) : Prop where
  rooted : image.Rooted
  superclasses : ∀ ref parent, image.classes.Has ref →
    (image.classAt ref).superclass = some parent → image.classes.Has parent
  metaclass : image.classes.Has image.core.metaclass ∧
    (image.classAt image.core.metaclass).isMetaclass = false
  enrolled : ∀ ref, image.classes.Has ref → image.Enrolled declares ref

/-- Whether the methods in the dictionaries are where they belong. -/
def Filed (image : Image) : Prop :=
  ∀ ref selector method, (selector, method) ∈ (image.classAt ref).methods.entries →
    image.methods.Has method ∧ (image.methodAt method).holder = ref ∧
      (image.methodAt method).selector = selector

section Order

variable {declares : ClassRef → Bool → List String → Prop} {image : Image}

/-- A way up that ends does so at the root. -/
theorem Registry.descends (registry : image.Registry declares) {steps : Nat} {ref : ClassRef}
    (known : image.classes.Has ref) (ends : image.endsWithin steps ref = true) :
    image.Descends ref image.core.object := by
  induction steps generalizing ref with
  | zero => cases ends
  | succ steps inductionHypothesis =>
      simp only [endsWithin] at ends
      cases found : (image.classAt ref).superclass with
      | none =>
          rw [(registry.enrolled ref known).root.mp found]
          exact .refl
      | some parent =>
          simp only [found] at ends
          exact .head ⟨known, found⟩
            (inductionHypothesis (registry.superclasses ref parent known found) ends)

/-- Where the way up ends, nothing is lost by bounding the lookup. -/
theorem seeks_of_endsWithin {steps : Nat} {ref : ClassRef} (selector : Selector)
    (ends : image.endsWithin steps ref = true) :
    image.Seeks selector ref ((image.lineageWithin steps ref).findSome? fun ancestor =>
      (image.classAt ancestor).methods.find? selector) := by
  induction steps generalizing ref with
  | zero => cases ends
  | succ steps inductionHypothesis =>
      simp only [endsWithin] at ends
      simp only [lineageWithin]
      cases found : (image.classAt ref).superclass with
      | none =>
          simp only [List.findSome?_cons, List.findSome?_nil]
          cases held : (image.classAt ref).methods.find? selector with
          | none => exact .missing held found
          | some method => exact .held held
      | some parent =>
          simp only [found] at ends
          simp only [List.findSome?_cons]
          cases held : (image.classAt ref).methods.find? selector with
          | none => exact .inherited held found (inductionHypothesis ends)
          | some method => exact .held held

/-- The metaclass of a class that is none itself is there. -/
theorem Coupled.known {ref : ClassRef} (coupled : image.Coupled ref)
    (known : image.classes.Has ref) : image.classes.Has (image.classAt ref).instanceOf := by
  have adjacent := coupled.adjacent
  simp only [Arena.Has] at known ⊢
  omega

/-- A class that is registered right after its metaclass is the only one of that metaclass, since
metaclasses are instances of a class that is none. -/
theorem Registry.paired (registry : image.Registry declares) {ref : ClassRef}
    (known : image.classes.Has ref) (plain : (image.classAt ref).isMetaclass = false) :
    image.Paired ref := by
  have coupled := (registry.enrolled ref known).coupled plain
  have present := coupled.known known
  refine {
    known := present
    isMetaclass := coupled.isMetaclass
    alone := fun other knownToo same => ?_
    instanceOf := (registry.enrolled _ present).metaclass coupled.isMetaclass
    superclass := coupled.superclass
    values := coupled.values }
  have enrolled := registry.enrolled other knownToo
  cases kind : (image.classAt other).isMetaclass with
  | true =>
      have contrary := coupled.isMetaclass
      rw [← same, enrolled.metaclass kind, registry.metaclass.2] at contrary
      cases contrary
  | false =>
      have adjacent := (enrolled.coupled kind).adjacent
      rw [same, coupled.adjacent] at adjacent
      obtain ⟨index⟩ := ref
      obtain ⟨indexToo⟩ := other
      exact congrArg Ref.mk adjacent.symm

/-- Every class of a registry is in order. -/
theorem Registry.orderly (registry : image.Registry declares) (filed : image.Filed)
    {ref : ClassRef} (known : image.classes.Has ref) : image.Orderly declares ref where
  ends := registry.descends known (registry.rooted ref known)
  root := (registry.enrolled ref known).root
  lookups := fun selector => seeks_of_endsWithin selector (registry.rooted ref known)
  fields := (registry.enrolled ref known).fields
  distinct := (registry.enrolled ref known).distinct
  paired := registry.paired known
  methods := fun selector method member => (filed ref selector method member).2

end Order

section Carrying

variable {declares : ClassRef → Bool → List String → Prop} {before after : Image}
  (registry : before.Registry declares) (same : before.SameStanding after) {ref : ClassRef}
  (known : before.classes.Has ref)
include registry same known

theorem Registry.inheritedFields : after.inheritedFields ref = before.inheritedFields ref := by
  simp only [Image.inheritedFields, same.superclass known]
  cases found : (before.classAt ref).superclass with
  | none => rfl
  | some parent =>
      simp only [Option.map_some, same.fields (registry.superclasses ref parent known found)]

theorem Registry.classAbove : after.classAbove ref = before.classAbove ref := by
  simp only [Image.classAbove, same.superclass known, same.core]
  cases found : (before.classAt ref).superclass with
  | none => rfl
  | some parent =>
      simp only [Option.map_some, same.instanceOf (registry.superclasses ref parent known found)]

theorem Registry.endsWithin (steps : Nat) :
    after.endsWithin steps ref = before.endsWithin steps ref := by
  induction steps generalizing ref with
  | zero => rfl
  | succ steps inductionHypothesis =>
      simp only [Image.endsWithin, same.superclass known]
      cases found : (before.classAt ref).superclass with
      | none => rfl
      | some parent => exact inductionHypothesis (registry.superclasses ref parent known found)

/-- A class that is enrolled stays so. -/
theorem Registry.carry : after.Enrolled declares ref := by
  obtain ⟨root, fields, distinct, metaclass, coupled⟩ := registry.enrolled ref known
  refine {
    root := by rwa [same.superclass known, same.core]
    fields := by
      rwa [same.isMetaclass known, same.fields known, registry.inheritedFields same known]
    distinct := by rwa [same.fields known]
    metaclass := by rwa [same.isMetaclass known, same.instanceOf known, same.core]
    coupled := fun plain => ?_ }
  rw [same.isMetaclass known] at plain
  obtain ⟨adjacent, isMetaclass, superclass, values⟩ := coupled plain
  have present := (coupled plain).known known
  exact {
    adjacent := by rwa [same.instanceOf known]
    isMetaclass := by rwa [same.instanceOf known, same.isMetaclass present]
    superclass := by
      rwa [same.instanceOf known, same.superclass present, registry.classAbove same known]
    values := by rwa [same.values ref known, same.instanceOf known, same.fields present] }

end Carrying

end Image

open Image

/-- Methods stay where they belong, whatever is done. -/
theorem Image.Filed.perform {image : Image} (filed : image.Filed) (action : Action) :
    (action.perform image).Filed := by
  intro ref selector method member
  cases installs : action.installs with
  | false =>
      rw [methodAt, Action.methods_of_not_installs image installs, ← methodAt]
      exact filed ref selector method (Action.entries_of_not_installs image installs ref member)
  | true =>
      cases action with
      | install holder name behavior =>
          have cases' := image.classAt_install_cases holder name behavior ref
          obtain ⟨journal, installed⟩ := image.addMethod_eq holder name behavior
          -- A method that was in the dictionary is older than the one that is installed.
          have old : (selector, method) ∈ (image.classAt ref).methods.entries →
              (image.methods.push { holder, selector := name, behavior }).Has method ∧
              ((image.methods.push { holder, selector := name, behavior }).get method).holder =
                ref ∧
              ((image.methods.push { holder, selector := name, behavior }).get method).selector =
                selector := by
            intro member
            obtain ⟨known, right⟩ := filed ref selector method member
            rw [Arena.get_push_of_has _ known]
            exact ⟨(Arena.has_push _ _ _).mpr (Or.inl known), right⟩
          simp only [Action.perform, installed] at member cases' ⊢
          rcases cases' with same | ⟨own, same⟩
          · rw [same] at member
            exact old member
          · rw [same] at member
            rcases Dictionary.mem_entries_insert member with new | earlier
            · cases new
              rw [methodAt, Arena.get_push_next]
              exact ⟨(Arena.has_push _ _ _).mpr (Or.inr rfl), own.symm, rfl⟩
            · exact old earlier
      | _ => cases installs

namespace Image

/-- Fields of which none is repeated are distinct from each other and from those known before. -/
theorem nodup_of_repeatedField? {known declared : List String} (distinct : known.Nodup)
    (fresh : repeatedField? known declared = none) : (known ++ declared).Nodup := by
  induction declared generalizing known with
  | nil => simpa using distinct
  | cons field rest inductionHypothesis =>
      simp only [repeatedField?] at fresh
      split at fresh
      · cases fresh
      · next absent =>
          have more := inductionHypothesis (List.nodup_cons.mpr ⟨absent, distinct⟩) fresh
          exact List.nodup_middle.mpr more

variable {declares : ClassRef → Bool → List String → Prop}

/-- What is declared may be said in other words. -/
theorem Registry.imp {other : ClassRef → Bool → List String → Prop} {image : Image}
    (registry : image.Registry declares)
    (implies : ∀ ref isMetaclass own, image.classes.Has ref → declares ref isMetaclass own →
      other ref isMetaclass own) : image.Registry other where
  rooted := registry.rooted
  superclasses := registry.superclasses
  metaclass := registry.metaclass
  enrolled := fun ref known =>
    have enrolled := registry.enrolled ref known
    { enrolled with
      fields := enrolled.fields.imp fun own declared =>
        ⟨implies ref _ own known declared.1, declared.2⟩ }

/-- Where no class is added, a registry stays one. -/
theorem Registry.of_sameStanding {before after : Image} (registry : before.Registry declares)
    (same : before.SameStanding after) (count : after.classes.size = before.classes.size) :
    after.Registry declares := by
  have has : ∀ {ref}, after.classes.Has ref ↔ before.classes.Has ref := by
    intro ref
    rw [Arena.Has, count]
    exact Iff.rfl
  refine {
    rooted := fun ref known => ?_
    superclasses := fun ref parent known found => ?_
    metaclass := ?_
    enrolled := fun ref known => registry.carry same (has.mp known) }
  · rw [count, registry.endsWithin same (has.mp known)]
    exact registry.rooted ref (has.mp known)
  · rw [same.superclass (has.mp known)] at found
    exact has.mpr (registry.superclasses ref parent (has.mp known) found)
  · rw [same.core, same.isMetaclass registry.metaclass.1]
    exact ⟨has.mpr registry.metaclass.1, registry.metaclass.2⟩

theorem Registry.perform {image : Image} (registry : image.Registry declares) {action : Action}
    (other : action.registers = false) : (action.perform image).Registry declares := by
  refine registry.of_sameStanding (Action.sameStanding_perform image action) ?_
  rcases (Action.growth_perform image action).classes with ⟨_, _, _, _, rfl⟩ | size
  · cases other
  · exact size

theorem lasting_registry (declares : ClassRef → Bool → List String → Prop) :
    Lasting fun image => image.Registry declares ∧ image.Filed :=
  fun _ action other holds => ⟨holds.1.perform other, holds.2.perform action⟩

section Registration

variable {image : Image} {name : String} {superclass : ClassRef} {fields classFields : List String}
  (registry : image.Registry declares) (formed : image.WellFormed)
  (known : image.classes.Has superclass)
include registry formed known

/-- The metaclass that is registered for a class. -/
theorem Registry.enrolled_metaclass
    (fresh : repeatedField? (image.classAt (image.classAt superclass).instanceOf).fields
      classFields = none)
    (declared : declares image.classes.next true classFields) :
    ((Action.register name superclass fields classFields).perform image).Enrolled declares
      image.classes.next := by
  have same := Action.sameStanding_perform image (.register name superclass fields classFields)
  have above := formed.within.metaclasses superclass known
  have found := image.classAt_register_metaclass name superclass fields classFields
  have root : image.classes.Has image.core.object :=
    formed.within.core _ (by simp [CoreClasses.inOrder])
  refine {
    root := ⟨fun none => ?_, fun contrary => ?_⟩
    fields := ⟨classFields, ?_, ?_⟩
    distinct := ?_
    metaclass := fun _ => ?_
    coupled := fun plain => ?_ }
  · rw [found] at none
    cases none
  · rw [same.core] at contrary
    exact absurd (contrary ▸ root) image.classes.not_has_next
  · rw [found]
    exact declared
  · simp only [Image.inheritedFields, found, newMetaclass, Option.map_some, Option.getD_some,
      same.fields above]
  · rw [found]
    exact nodup_of_repeatedField? (registry.enrolled _ above).distinct fresh
  · rw [found, same.core]
    rfl
  · rw [found] at plain
    cases plain

/-- The class itself, which comes right after its metaclass. -/
theorem Registry.enrolled_class
    (fresh : repeatedField? (image.classAt superclass).fields fields = none)
    (declared : declares ⟨image.classes.size + 1⟩ false fields) :
    ((Action.register name superclass fields classFields).perform image).Enrolled declares
      ⟨image.classes.size + 1⟩ := by
  have same := Action.sameStanding_perform image (.register name superclass fields classFields)
  have found := image.classAt_register_class name superclass fields classFields
  have below := image.classAt_register_metaclass name superclass fields classFields
  have root : image.classes.Has image.core.object :=
    formed.within.core _ (by simp [CoreClasses.inOrder])
  have instanceOf : (((Action.register name superclass fields classFields).perform image).classAt
      ⟨image.classes.size + 1⟩).instanceOf = image.classes.next := by
    rw [found]
    rfl
  refine {
    root := ⟨fun none => ?_, fun contrary => ?_⟩
    fields := ⟨fields, ?_, ?_⟩
    distinct := ?_
    metaclass := fun isMetaclass => ?_
    coupled := fun _ => {
      adjacent := ?_
      isMetaclass := ?_
      superclass := ?_
      values := ?_ } }
  · rw [found] at none
    cases none
  · rw [same.core] at contrary
    have inside : image.classes.Has ⟨image.classes.size + 1⟩ := contrary ▸ root
    exact absurd inside (by simp [Arena.Has])
  · rw [found]
    exact declared
  · simp only [Image.inheritedFields, found, newClass, Option.map_some, Option.getD_some,
      same.fields known]
  · rw [found]
    exact nodup_of_repeatedField? (registry.enrolled _ known).distinct fresh
  · rw [found] at isMetaclass
    cases isMetaclass
  · rw [instanceOf]
    rfl
  · rw [instanceOf, below]
    rfl
  · rw [instanceOf, below]
    simp only [Image.classAbove, found, newClass, newMetaclass, Option.map_some, Option.getD_some,
      same.instanceOf known]
  · rw [instanceOf, below, found]
    exact Array.size_replicate

/-- A class and its metaclass can be registered below any class, if no field is repeated. -/
theorem Registry.register
    (fresh : repeatedField? (image.classAt superclass).fields fields = none)
    (freshToo : repeatedField? (image.classAt (image.classAt superclass).instanceOf).fields
      classFields = none)
    (declared : declares image.classes.next true classFields)
    (declaredToo : declares ⟨image.classes.size + 1⟩ false fields) :
    ((Action.register name superclass fields classFields).perform image).Registry declares := by
  have same := Action.sameStanding_perform image (.register name superclass fields classFields)
  have has := image.has_register name superclass fields classFields
  have allowed : (Action.register name superclass fields classFields).Allowed image := known
  have after := Action.wellFormed_perform formed allowed
  refine {
    rooted := registry.rooted.register formed known
    superclasses := fun ref parent _ found => after.within.superclasses ref parent found
    metaclass := ?_
    enrolled := fun ref present => ?_ }
  · rw [same.core, same.isMetaclass registry.metaclass.1]
    exact ⟨(has _).mpr (Or.inl registry.metaclass.1), registry.metaclass.2⟩
  · rcases (has ref).mp present with old | rfl | rfl
    · exact registry.carry same old
    · exact registry.enrolled_metaclass formed known freshToo declared
    · exact registry.enrolled_class formed known fresh declaredToo

end Registration

section Initial

/-- The knot that is tied between the roots. -/
theorem knot_founded :
    (founded .plain .standard false).classes.Has (founded .plain .standard false).core.metaclass ∧
      ((founded .plain .standard false).classAt
        (founded .plain .standard false).core.metaclass).isMetaclass = false ∧
      ∀ index : Fin 36,
        (((founded .plain .standard false).classAt ⟨index⟩).superclass = none ↔
          (⟨index⟩ : ClassRef) = (founded .plain .standard false).core.object) ∧
        (((founded .plain .standard false).classAt ⟨index⟩).isMetaclass = true →
          ((founded .plain .standard false).classAt ⟨index⟩).instanceOf =
            (founded .plain .standard false).core.metaclass) ∧
        (((founded .plain .standard false).classAt ⟨index⟩).isMetaclass = false →
          ((founded .plain .standard false).classAt ⟨index⟩).instanceOf.index + 1 = index ∧
          ((founded .plain .standard false).classAt
            ((founded .plain .standard false).classAt ⟨index⟩).instanceOf).isMetaclass = true ∧
          ((founded .plain .standard false).classAt
            ((founded .plain .standard false).classAt ⟨index⟩).instanceOf).superclass =
              some ((founded .plain .standard false).classAbove ⟨index⟩)) := by
  decide +kernel

/-- The core classes are in order before they hold any methods. -/
theorem registry_founded : (founded .plain .standard false).Registry fun _ _ own => own = [] := by
  obtain ⟨known, plain, knot⟩ := knot_founded
  have fieldless : ∀ {ref}, (founded .plain .standard false).classes.Has ref →
      ((founded .plain .standard false).classAt ref).fields = [] := fun known =>
    List.eq_nil_of_length_eq_zero (bare_of_has known).fields
  refine {
    rooted := rooted_founded .plain .standard false
    superclasses := fun ref parent known found => (bare_of_has known).superclass parent found
    metaclass := ⟨known, plain⟩
    enrolled := fun ref known => ?_ }
  obtain ⟨root, metaclass, coupled⟩ :=
    knot ⟨ref.index, Nat.lt_of_lt_of_eq known size_classes_founded⟩
  have bare := bare_of_has known
  refine {
    root := root
    fields := ⟨[], rfl, ?_⟩
    distinct := by rw [fieldless known]; exact List.nodup_nil
    metaclass := metaclass
    coupled := fun plain => {
      adjacent := (coupled plain).1
      isMetaclass := (coupled plain).2.1
      superclass := (coupled plain).2.2
      values := by rw [bare.values, (bare_of_has bare.metaclass).fields] } }
  rw [fieldless known, inheritedFields]
  cases found : ((founded .plain .standard false).classAt ref).superclass with
  | none => rfl
  | some parent =>
      rw [Option.map_some, Option.getD_some, fieldless (bare.superclass parent found)]
      rfl

theorem filed_founded : (founded .plain .standard false).Filed := by
  intro ref selector method member
  have value : method ∈ ((founded .plain .standard false).classAt ref).methods.values :=
    List.mem_map.mpr ⟨_, member, rfl⟩
  rw [methods_founded] at value
  cases value

/-- The core classes are in order when a session starts, and have no fields. -/
theorem registry_initial (platform : Platform) (settings : Settings) (listening : Bool) :
    (initial platform settings listening).Registry (fun _ _ own => own = []) ∧
      (initial platform settings listening).Filed := by
  have start : (founded platform settings listening).Registry (fun _ _ own => own = []) ∧
      (founded platform settings listening).Filed := by
    rw [founded_eq]
    exact ⟨registry_founded.of_sameStanding (.of_eq (fun _ _ => rfl) rfl) rfl, filed_founded⟩
  have keeps : Keeps fun image => image.Registry (fun _ _ own => own = []) ∧ image.Filed := by
    intro image action founding _ _ holds
    have other : action.registers = false := by
      cases action <;> first | rfl | exact founding.elim
    exact lasting_registry _ image action other holds
  exact (initial_induction platform settings listening start keeps).2

end Initial

end Image

/-- What is declared, with the fields of a definition that is being worked on counted in. -/
def Source.ClassDefinition.Adding (definition : Source.ClassDefinition) (image : Image)
    (declares : ClassRef → Bool → List String → Prop) (ref : ClassRef) (isMetaclass : Bool)
    (own : List String) : Prop :=
  declares ref isMetaclass own ∨ ¬ image.classes.Has ref ∧ own = definition.declared isMetaclass

/-- A class definition leaves the classes in order, whether it turns out to be flawed or not. -/
theorem Image.Registry.define {declares : ClassRef → Bool → List String → Prop} {image : Image}
    (registry : image.Registry declares) (filed : image.Filed) (formed : image.WellFormed)
    (definition : Source.ClassDefinition) :
    (Defining.left (defineClass definition image)).Registry (definition.Adding image declares) ∧
      (Defining.left (defineClass definition image)).Filed := by
  have begun := registry.imp fun _ _ _ _ declared =>
    (Or.inl declared : definition.Adding image declares _ _ _)
  refine defineClass_leaves ((lasting_registry _).withstands fun _ => True) ⟨begun, filed⟩
    definition (fun _ _ => trivial) fun found fresh freshToo => ?_
  have known := (findSuperclass_builds formed definition).good found
  refine ⟨begun.register formed known fresh freshToo ?_ ?_, filed.perform _⟩
  · exact Or.inr ⟨image.classes.not_has_next, rfl⟩
  · exact Or.inr ⟨by simp [Arena.Has], rfl⟩

section Session

variable {session : Session}

/-- In a session of admissible requests, everything that is served in is well-formed. -/
theorem Session.wellFormed_of_serves (formed : session.start.WellFormed)
    (admissible : ∀ {request image}, session.Serves request image → request.Admissible image)
    {request : Request} {image : Image} (serves : session.Serves request image) :
    image.WellFormed := by
  refine (serves_induction formed fun {request image} serves formed => ?_).1 serves
  obtain ⟨actions, reached⟩ := Request.serve_reaches formed (admissible serves) session.budget
  exact reached.wellFormed formed

theorem Session.always_registry (formed : session.start.WellFormed)
    (registry : session.start.Registry session.Declares) (filed : session.start.Filed)
    (admissible : ∀ {request image}, session.Serves request image → request.Admissible image) :
    session.Always fun image => image.Registry session.Declares ∧ image.Filed := by
  refine always_of_lasting (lasting_registry _) ⟨registry, filed⟩
    fun {definition image} serves holds => ?_
  have defined := holds.1.define holds.2 (wellFormed_of_serves formed admissible serves) definition
  rw [← Response.ofDefining_snd Response.defined] at defined
  refine ⟨defined.1.imp fun ref isMetaclass own known declared => ?_, defined.2⟩
  rcases declared with old | ⟨absent, rfl⟩
  · exact old
  · exact .defined serves absent known

section Succession

variable {machine : Machine} {requests : List Request} {start image imageToo : Image}
  {request other : Request}
  (grows : ∀ {request image}, Request.Serves machine requests start request image →
    image.classes.size ≤ (request.serve machine image).2.classes.size)
include grows

theorem Request.Serves.size_classes (serves : Serves machine requests start request image) :
    start.classes.size ≤ image.classes.size := by
  induction serves with
  | head => exact Nat.le_refl _
  | tail _ inductionHypothesis =>
      exact Nat.le_trans (grows .head) (inductionHypothesis fun later => grows (.tail later))

/-- Of two requests that are served, one is over before the other one is begun, unless they are the
same. -/
theorem Request.Serves.apart (first : Serves machine requests start request image)
    (second : Serves machine requests start other imageToo) :
    (other = request ∧ imageToo = image) ∨
      (request.serve machine image).2.classes.size ≤ imageToo.classes.size ∨
      (other.serve machine imageToo).2.classes.size ≤ image.classes.size := by
  induction first with
  | head =>
      cases second with
      | head => exact Or.inl ⟨rfl, rfl⟩
      | tail second => exact Or.inr (Or.inl (second.size_classes fun later => grows (.tail later)))
  | tail first inductionHypothesis =>
      cases second with
      | head => exact Or.inr (Or.inr (first.size_classes fun later => grows (.tail later)))
      | tail second => exact inductionHypothesis (fun later => grows (.tail later)) second

end Succession

/-- A class is registered by one definition only. -/
theorem Session.Declares.unique
    (grows : ∀ {request image}, session.Serves request image →
      image.classes.size ≤ (request.serve (.ofBudget session.budget) image).2.classes.size)
    {ref : ClassRef} {isMetaclass : Bool} {own other : List String}
    (declares : session.Declares ref isMetaclass own)
    (declaresToo : session.Declares ref isMetaclass other) : other = own := by
  cases declares with
  | core known =>
      cases declaresToo with
      | core => rfl
      | defined serves absent =>
          exact absurd (Nat.lt_of_lt_of_le known (serves.size_classes grows)) absent
  | defined serves absent registered =>
      cases declaresToo with
      | core known => exact absurd (Nat.lt_of_lt_of_le known (serves.size_classes grows)) absent
      | defined servesToo absentToo registeredToo =>
          rcases serves.apart grows servesToo with ⟨same, -⟩ | earlier | later
          · cases same
            rfl
          · exact absurd (Nat.lt_of_lt_of_le registered earlier) absentToo
          · exact absurd (Nat.lt_of_lt_of_le registeredToo later) absent

end Session

/-- The classes are in order at every moment of a session: before and after each request, whether it
fails or not, and all the while something is evaluated.  The way up from every class ends at the
root, the only class without a superclass, so that every lookup comes to an end and finds what it
finds without a bound on its steps.  A class has the fields of its superclass followed by those that
are declared for it, by one definition, and no two of them are the same.  If it is no metaclass, it
has a metaclass to itself, which is an instance of the class of metaclasses, inherits from the
metaclass of the superclass and has a field for every value of the class object.  The methods in its
dictionary are its own, each one under its own selector. -/
theorem classes_always_orderly {platform : Platform} {settings : Settings} {listening : Bool}
    {budget : Nat} {requests : List Request}
    (admissible : Request.Throughout (.ofBudget budget)
      (fun image request => request.Admissible image) requests
      (.initial platform settings listening)) :
    ((Session.fresh platform settings listening budget requests).Always fun image =>
      ∀ ref, image.classes.Has ref →
        image.Orderly (Session.fresh platform settings listening budget requests).Declares ref) ∧
    ∀ ref isMetaclass own other,
      (Session.fresh platform settings listening budget requests).Declares ref isMetaclass own →
      (Session.fresh platform settings listening budget requests).Declares ref isMetaclass other →
      other = own := by
  have formed := wellFormed_initial platform settings listening
  obtain ⟨registry, filed⟩ := registry_initial platform settings listening
  rw [← Session.start_fresh platform settings listening budget requests] at formed registry filed
  have declared := registry.imp fun ref isMetaclass own present none =>
    (none ▸ .core present :
      (Session.fresh platform settings listening budget requests).Declares ref isMetaclass own)
  refine ⟨?_, fun ref isMetaclass own other => Session.Declares.unique fun serves => ?_⟩
  · exact (Session.always_registry formed declared filed admissible.of_fresh).imp
      fun image holds ref present => holds.1.orderly holds.2 present
  · obtain ⟨actions, reached⟩ := Request.serve_reaches
      (Session.wellFormed_of_serves formed admissible.of_fresh serves)
      (admissible.of_fresh serves) budget
    exact reached.extended.classes

/-- A class with a field on either side. -/
def shapeClass : Source.ClassDefinition where
  name := "Shape"
  superclass := none
  fields := ["width"]
  methods := [{
    selector := "width", parameters := 0, body := .expressions 0 [.read (.field 0)] }]
  classFields := ["count"]
  classMethods := []

/-- A class whose superclass is whatever class the name is bound to. -/
def makerClass : Source.ClassDefinition where
  name := "Maker"
  superclass := some "Kind"
  fields := ["made"]
  methods := []
  classFields := ["first"]
  classMethods := []

/-- A class with a field that it inherits already. -/
def repeatingClass : Source.ClassDefinition :=
  { makerClass with fields := ["count"] }

/-- A class with a method that reads a field that is not there. -/
def flawedClass : Source.ClassDefinition :=
  { shapeClass with
    superclass := some "Shape"
    fields := ["height"]
    classFields := []
    methods := [{
      selector := "depth", parameters := 0, body := .expressions 0 [.read (.field 2)] }] }

/-- The name that a class inherits from is bound to a metaclass, and for the second definition of
the class to another class.  In between there are definitions that fail, one before its classes are
registered and one after that. -/
def remakingRequests : List Request :=
  [.defineClass shapeClass, .setGlobal "Kind" (.classObject ⟨36⟩), .defineClass makerClass,
    .defineClass repeatingClass, .defineClass flawedClass, .setGlobal "Kind" (.classObject ⟨37⟩),
    .defineClass makerClass]

def remakingSession : Session :=
  .fresh .plain .standard false 0 remakingRequests

theorem remakingSession_admissible :
    Request.Throughout (.ofBudget 0) (fun image request => request.Admissible image)
      remakingRequests (.initial .plain .standard false) := by
  decide +kernel

/-- In the end there are four more pairs of classes.  The one below a metaclass has a metaclass
below the class of metaclasses, and the fields of the metaclass in front of its own. -/
theorem classes_always_orderly_remaking :
    let image := remakingSession.outcome.2
    image.classes.size = 44 ∧
    (∀ ref, image.classes.Has ref → image.Orderly remakingSession.Declares ref) ∧
    (image.classAt ⟨36⟩).isMetaclass = true ∧
    (image.classAt ⟨39⟩).superclass = some ⟨36⟩ ∧
    (image.classAt ⟨39⟩).fields = ["count", "made"] ∧
    image.Paired ⟨39⟩ ∧ image.classAbove ⟨39⟩ = image.core.metaclass := by
  intro image
  have always : remakingSession.Always fun image =>
      ∀ ref, image.classes.Has ref → image.Orderly remakingSession.Declares ref :=
    (classes_always_orderly remakingSession_admissible).1
  obtain ⟨size, above, superclass, plain, fields, classAbove⟩ : image.classes.size = 44 ∧
      (image.classAt ⟨36⟩).isMetaclass = true ∧ (image.classAt ⟨39⟩).superclass = some ⟨36⟩ ∧
      (image.classAt ⟨39⟩).isMetaclass = false ∧
      (image.classAt ⟨39⟩).fields = ["count", "made"] ∧
      image.classAbove ⟨39⟩ = image.core.metaclass := by
    decide +kernel
  have known : image.classes.Has ⟨39⟩ := by
    rw [Arena.Has, size]
    decide
  exact ⟨size, always.ended, above, superclass, fields, (always.ended ⟨39⟩ known).paired plain,
    classAbove⟩

end MessageMachine
