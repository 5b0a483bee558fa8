import MessageMachine.Proofs.Development
import MessageMachine.Proofs.Dispatch
import MessageMachine.Proofs.Seating
import MessageMachine.Proofs.Storage

/-!
# Coherent images

In a coherent image everything that can be run suits the values that it is run with.  Subclasses
have the fields of their superclasses, methods suit the classes that hold them, send sites remember
methods of ancestors only, and blocks have kept hold of what they need.

Coherence is not about methods that are forced on a receiver.  A method that is found by a lookup,
however it is remembered, is held by an ancestor of the class of the receiver.
-/

namespace MessageMachine

/-- The name of the class of blocks with a number of parameters. -/
def blockClassName : Nat → String
  | 0 => "Block1"
  | 1 => "Block2"
  | _ => "Block3"

namespace Image

/-- What inheritance comes to: a class has at least as many fields as its superclass, core classes
have none, and the classes of blocks have the ancestors that they had to begin with. -/
structure Hierarchical (image : Image) : Prop where
  fields : ∀ ref parent, (image.classAt ref).superclass = some parent →
    (image.classAt parent).fields.length ≤ (image.classAt ref).fields.length
  core : ∀ ref ∈ image.core.inOrder, (image.classAt ref).fields.length = 0
  blocks : ∀ parameters ancestor, image.Descends (image.core.blockOf parameters) ancestor →
    (image.classAt ancestor).name ∈ [blockClassName parameters, "Block", "Object"]

/-- Whether a class holds or inherits a method. -/
structure Inherits (image : Image) (ref : ClassRef) (method : MethodRef) : Prop where
  known : image.methods.Has method
  descends : image.Descends ref (image.methodAt method).holder

end Image

/-- Whether what a method does suits the class that holds it.  The operations that call a block
belong to the class of blocks with as many parameters. -/
def Behavior.Belongs (image : Image) (holder : ClassRef) : Behavior → Prop
  | .defined routine => ∀ code ∈ routine.body, code.Suits (image.classAt holder).fields.length
      (image.classAt holder).superclass
      [{ parameters := routine.parameters, temporaries := routine.temporaries }]
  | .primitive (.block operation) =>
      (image.classAt holder).name = (Primitive.block operation).home
  | _ => True

namespace Image

/-- Whether the methods of classes are their own, and suit them. -/
structure Staffed (image : Image) : Prop where
  dictionaries : ∀ ref, ∀ method ∈ (image.classAt ref).methods.values,
    (image.methodAt method).holder = ref
  behaviors : ∀ ref, (image.methodAt ref).behavior.Belongs image (image.methodAt ref).holder

/-- Whether send sites remember inherited methods only. -/
structure Mindful (image : Image) : Prop where
  sends : ∀ site selector, image.Sends site selector →
    ∀ entry ∈ (image.sites.calls.get site).entries,
      image.GuardKnown entry.guard ∧ image.Inherits (image.guardClass entry.guard) entry.target
  supers : ∀ site origin selector, image.SendsSuper site origin selector →
    ∀ entry ∈ (image.sites.calls.get site).entries, image.Inherits origin entry.target

/-- Everything that can be run suits what it is run with. -/
structure Coherent (image : Image) : Prop where
  formed : image.WellFormed
  laid : image.Laid
  hierarchy : image.Hierarchical
  staff : image.Staffed
  caches : image.Mindful
  blocks : ∀ ref, image.heap.blocks.Has ref → image.Furnishes (image.blockAt ref)

variable {image before after : Image} {action : Action}

theorem superclass_of_not_has {ref : ClassRef} (absent : ¬ image.classes.Has ref) :
    (image.classAt ref).superclass = none := by
  rw [classAt, Arena.get_of_not_has absent]
  rfl

/-- The classes that a registration adds have the fields of their superclasses. -/
theorem Hierarchical.register (hierarchy : image.Hierarchical) (formed : image.WellFormed)
    {name : String} {superclass : ClassRef} {fields classFields : List String}
    (allowed : (Action.register name superclass fields classFields).Allowed image)
    {ref parent : ClassRef}
    (found : (((Action.register name superclass fields classFields).perform image).classAt
      ref).superclass = some parent) :
    (((Action.register name superclass fields classFields).perform image).classAt
        parent).fields.length ≤
      (((Action.register name superclass fields classFields).perform image).classAt
        ref).fields.length := by
  have retains := Action.retains_perform allowed
  rcases image.classAt_register_cases name superclass fields classFields ref with
    ⟨-, same⟩ | ⟨-, new⟩ | ⟨-, new⟩
  · rw [same] at found ⊢
    rw [retains.fieldNames (formed.within.superclasses ref parent found)]
    exact hierarchy.fields ref parent found
  · rw [new] at found ⊢
    cases found
    rw [retains.fieldNames (formed.within.metaclasses superclass allowed)]
    simp [newMetaclass]
  · rw [new] at found ⊢
    cases found
    rw [retains.fieldNames allowed]
    simp [newClass]

/-- Every allowed action keeps the hierarchy of classes in order. -/
theorem Hierarchical.perform (hierarchy : image.Hierarchical) (formed : image.WellFormed)
    (allowed : action.Allowed image) : (action.perform image).Hierarchical := by
  have retains := Action.retains_perform allowed
  refine ⟨fun ref parent found => ?_, fun ref member => ?_, fun parameters ancestor descends => ?_⟩
  · rcases (Action.growth_perform image action).classes with
      ⟨name, superclass, fields, classFields, rfl⟩ | size
    · exact hierarchy.register formed allowed found
    · by_cases known : image.classes.Has ref
      · rw [retains.superclass known] at found
        rw [retains.fieldNames known,
          retains.fieldNames (formed.within.superclasses ref parent found)]
        exact hierarchy.fields ref parent found
      · have absent : ¬ (action.perform image).classes.Has ref := by
          rw [Arena.Has, size]
          exact known
        cases (superclass_of_not_has absent).symm.trans found
  · rw [retains.core] at member
    rw [retains.fieldNames (formed.within.core ref member)]
    exact hierarchy.core ref member
  · rw [retains.core] at descends
    have known : image.classes.Has (image.core.blockOf parameters) :=
      has_guardClass formed (show image.GuardKnown (.block parameters) from trivial)
    obtain ⟨earlier, present⟩ := retains.descended formed known descends
    rw [retains.name present]
    exact hierarchy.blocks parameters ancestor earlier

/-- An ancestor has no more fields. -/
theorem Hierarchical.fields_le (hierarchy : image.Hierarchical) {ref ancestor : ClassRef}
    (descends : image.Descends ref ancestor) :
    (image.classAt ancestor).fields.length ≤ (image.classAt ref).fields.length := by
  induction descends with
  | refl => exact Nat.le_refl _
  | tail _ step inductionHypothesis =>
      exact Nat.le_trans (hierarchy.fields _ _ step.2) inductionHypothesis

theorem Inherits.mono {ref : ClassRef} {method : MethodRef} (inherits : before.Inherits ref method)
    (retains : before.Retains after) : after.Inherits ref method where
  known := Nat.lt_of_lt_of_le inherits.known retains.extended.methods
  descends := by
    rw [retains.extended.bodies method inherits.known]
    exact retains.descends inherits.descends

end Image

theorem Behavior.Belongs.mono {before after : Image} {holder : ClassRef} {behavior : Behavior}
    (belongs : behavior.Belongs before holder) (retains : before.Retains after)
    (known : before.classes.Has holder) : behavior.Belongs after holder := by
  unfold Behavior.Belongs at belongs ⊢
  split
  · rw [retains.fieldNames known, retains.superclass known]
    exact belongs
  · rw [retains.name known]
    exact belongs
  · trivial

namespace Image

variable {image before after : Image} {action : Action}

/-- Where no method is installed, methods go on suiting their classes. -/
theorem Staffed.carry (staff : before.Staffed) (formed : before.WellFormed)
    (retains : before.Retains after) (methods : after.methods = before.methods)
    (dictionaries : ∀ ref, ∀ method ∈ (after.classAt ref).methods.values,
      method ∈ (before.classAt ref).methods.values) : after.Staffed := by
  have same : ∀ ref, after.methodAt ref = before.methodAt ref := fun ref => by
    rw [methodAt, methods, ← methodAt]
  refine ⟨fun ref method member => ?_, fun ref => ?_⟩
  · rw [same]
    exact staff.dictionaries ref method (dictionaries ref method member)
  · rw [same]
    by_cases known : before.methods.Has ref
    · exact (staff.behaviors ref).mono retains (formed.within.holders ref known)
    · rw [methodAt, Arena.get_of_not_has known]
      trivial

/-- An action that installs nothing brings nothing into the dictionaries. -/
theorem dictionaries_of_not_installs (allowed : action.Allowed image)
    (unchanged : action.installs = false) (ref : ClassRef) {method : MethodRef}
    (member : method ∈ ((action.perform image).classAt ref).methods.values) :
    method ∈ (image.classAt ref).methods.values := by
  cases removes : action.removes with
  | true =>
      cases action with
      | remove holder selector =>
          rcases image.classAt_remove_cases holder selector ref with same | changed
          · rwa [same] at member
          · rw [changed] at member
            exact Dictionary.mem_values_erase member
      | _ => cases removes
  | false =>
      have registry := Action.sameRegistry_perform allowed removes unchanged
      by_cases known : image.classes.Has ref
      · rwa [registry.methods ref known] at member
      · rcases (Action.growth_perform image action).classes with
          ⟨name, superclass, fields, classFields, rfl⟩ | size
        · rcases image.classAt_register_cases name superclass fields classFields ref with
            ⟨-, same⟩ | ⟨-, new⟩ | ⟨-, new⟩
          · rwa [same] at member
          · rw [new] at member
            cases member
          · rw [new] at member
            cases member
        · have absent : ¬ (action.perform image).classes.Has ref := by
            rw [Arena.Has, size]
            exact known
          rw [classAt, Arena.get_of_not_has absent] at member
          cases member

/-- A method that suits its class can be installed. -/
theorem Staffed.install (staff : image.Staffed) (formed : image.WellFormed) {holder : ClassRef}
    {selector : Selector} {behavior : Behavior}
    (allowed : (Action.install holder selector behavior).Allowed image)
    (belongs : behavior.Belongs image holder) :
    ((Action.install holder selector behavior).perform image).Staffed := by
  have retains := Action.retains_perform allowed
  have classes := image.classAt_install_cases holder selector behavior
  obtain ⟨journal, installed⟩ := image.addMethod_eq holder selector behavior
  have found : ∀ ref, ((Action.install holder selector behavior).perform image).methodAt ref =
      if ref = image.methods.next then { holder, selector, behavior } else image.methodAt ref := by
    intro ref
    simp only [Action.perform, installed, methodAt, Arena.get_push]
  have old : ∀ ref, ∀ method ∈ (image.classAt ref).methods.values,
      (((Action.install holder selector behavior).perform image).methodAt method).holder = ref := by
    intro ref method member
    rw [retains.extended.bodies method (formed.within.dictionaries ref method member)]
    exact staff.dictionaries ref method member
  refine ⟨fun ref method member => ?_, fun ref => ?_⟩
  · rcases classes ref with same | ⟨own, changed⟩
    · rw [same] at member
      exact old ref method member
    · rw [changed] at member
      rcases Dictionary.mem_values_insert member with rfl | earlier
      · rw [found, if_pos rfl]
        exact own.symm
      · exact old ref method earlier
  · rw [found]
    split
    · exact belongs.mono retains allowed.1
    · by_cases known : image.methods.Has ref
      · exact (staff.behaviors ref).mono retains (formed.within.holders ref known)
      · rw [methodAt, Arena.get_of_not_has known]
        trivial

/-- What a lookup finds is inherited. -/
theorem Staffed.inherits_of_lookup (staff : image.Staffed) (formed : image.WellFormed)
    {ref : ClassRef} (known : image.classes.Has ref) {selector : Selector} {method : MethodRef}
    (found : image.lookup ref selector = some method) : image.Inherits ref method := by
  obtain ⟨ancestor, member, held⟩ := List.exists_of_findSome?_eq_some found
  have entry := Dictionary.mem_values_of_find? held
  refine ⟨formed.within.dictionaries ancestor method entry, ?_⟩
  rw [staff.dictionaries ancestor method entry]
  exact descends_of_mem_lineageWithin formed known member

theorem Retains.guardKnown (retains : before.Retains after) {guard : Guard}
    (known : before.GuardKnown guard) : after.GuardKnown guard := by
  cases guard with
  | classObject ref => exact Nat.lt_of_lt_of_le known retains.extended.classes
  | object owner => exact Nat.lt_of_lt_of_le known retains.extended.classes
  | _ => trivial

theorem Retains.guardClass (retains : before.Retains after) {guard : Guard}
    (known : before.GuardKnown guard) : after.guardClass guard = before.guardClass guard := by
  cases guard with
  | classObject ref =>
      have same := congrArg Class.instanceOf (retains.natures ref known)
      exact same
  | _ => simp only [Image.guardClass, retains.core]

/-- What is remembered goes on to be right. -/
theorem Retains.remembered (retains : before.Retains after) {guard : Guard} {target : MethodRef}
    (known : before.GuardKnown guard)
    (inherits : before.Inherits (before.guardClass guard) target) :
    after.GuardKnown guard ∧ after.Inherits (after.guardClass guard) target := by
  refine ⟨retains.guardKnown known, ?_⟩
  rw [retains.guardClass known]
  exact inherits.mono retains

/-- Where no method is installed, send sites go on remembering inherited methods. -/
theorem Mindful.carry (mindful : before.Mindful) (formed : before.WellFormed)
    (staff : before.Staffed) (retains : before.Retains after)
    (methods : after.methods = before.methods)
    (recorded : ∀ site, ∀ entry ∈ (after.sites.calls.get site).entries,
      entry ∈ (before.sites.calls.get site).entries ∨
        (entry.version = before.sites.version ∧ before.Answers site entry)) : after.Mindful := by
  have nodes : ∀ node, after.Outlines node → before.Outlines node := by
    intro node outlined
    simpa only [Outlines, methodAt, methods] using outlined
  refine ⟨fun site selector sends entry member => ?_,
    fun site origin selector sends entry member => ?_⟩
  · have sent : before.Sends site selector := by
      rcases sends with outlined | ⟨control, message, outlined⟩
      · exact Or.inl (nodes _ outlined)
      · exact Or.inr ⟨control, message, nodes _ outlined⟩
    rcases recorded site entry member with old | ⟨-, new⟩
    · obtain ⟨known, inherits⟩ := mindful.sends site selector sent entry old
      exact retains.remembered known inherits
    · rcases new with ⟨other, -, known, found⟩ | ⟨origin, other, sentSuper, -⟩
      · exact retains.remembered known
          (staff.inherits_of_lookup formed (has_guardClass formed known) found)
      · exact absurd sentSuper (formed.not_sendsSuper sent)
  · have sent : before.SendsSuper site origin selector := nodes _ sends
    rcases recorded site entry member with old | ⟨-, new⟩
    · exact (mindful.supers site origin selector sent entry old).mono retains
    · rcases new with ⟨other, sentToo, -, -⟩ | ⟨otherOrigin, other, sentToo, found⟩
      · exact absurd sent (formed.not_sendsSuper sentToo)
      · obtain ⟨rfl, rfl⟩ := formed.sendSuper_unique sent sentToo
        have known := (formed.placed _ sent).origin origin rfl
        exact (staff.inherits_of_lookup formed known found).mono retains

/-- The sites of a method that is installed remember nothing yet. -/
theorem Mindful.install (mindful : image.Mindful) {holder : ClassRef} {selector : Selector}
    {behavior : Behavior} (allowed : (Action.install holder selector behavior).Allowed image) :
    ((Action.install holder selector behavior).perform image).Mindful := by
  have retains := Action.retains_perform allowed
  have outlined := fun {node} => @outlines_install image holder selector behavior node
  have unused := allowed.2.callsUnused
  obtain ⟨journal, installed⟩ := image.addMethod_eq holder selector behavior
  simp only [Action.perform, installed] at retains outlined ⊢
  refine ⟨fun site other sends entry member => ?_, fun site origin other sends entry member => ?_⟩
  · have sent : image.Sends site other ∨ image.sites.calls.get site = .uninitialized := by
      rcases sends with node | ⟨control, message, node⟩
      · rcases outlined node with old | new
        · exact Or.inl (Or.inl old)
        · exact Or.inr (unused _ new site rfl).1
      · rcases outlined node with old | new
        · exact Or.inl (Or.inr ⟨control, message, old⟩)
        · exact Or.inr (unused _ new site rfl).1
    rcases sent with sent | none
    · obtain ⟨known, inherits⟩ := mindful.sends site other sent entry member
      exact retains.remembered known inherits
    · simp only [none] at member
      cases member
  · rcases outlined sends with old | new
    · exact (mindful.supers site origin other old entry member).mono retains
    · simp only [(unused _ new site rfl).1] at member
      cases member

/-- Blocks come into existence by being made. -/
theorem blocks_perform (image : Image) (action : Action) :
    (∃ closure, action = .makeBlock closure) ∨
      (action.perform image).heap.blocks = image.heap.blocks := by
  cases action with
  | makeBlock closure => exact Or.inl ⟨closure, rfl⟩
  | enter | setSlot | leave => exact Or.inr rfl
  | install holder selector behavior =>
      obtain ⟨journal, installed⟩ := image.addMethod_eq holder selector behavior
      right
      rw [Action.perform, installed]
  | noteDown | meet | draw | makeArray | setElement | instantiate | readField | writeField
  | readFieldAt | writeFieldAt | resolve | resolveSuper | settle | bind | allocate | remove
  | register =>
      right
      exact (Action.IsSimple.perform (by trivial) image).2.1

/-- A block that an action adds is the one that it makes. -/
theorem made_of_perform {image : Image} {action : Action} {ref : BlockRef}
    (known : (action.perform image).heap.blocks.Has ref) (new : ¬ image.heap.blocks.Has ref) :
    ∃ closure, action = .makeBlock closure ∧ (action.perform image).blockAt ref = closure := by
  rcases blocks_perform image action with ⟨closure, rfl⟩ | same
  · obtain rfl := ((Arena.has_push _ _ _).mp known).resolve_left new
    exact ⟨closure, rfl, Arena.get_push_next _ _⟩
  · rw [same] at known
    exact absurd known new

end Image

/-- Whether what an action brings in suits what it is brought into. -/
def Action.Suitable (image : Image) : Action → Prop
  | .makeBlock closure => image.Furnishes closure
  | .install holder _ behavior => behavior.Belongs image holder
  | _ => True

/-- Allowed actions that install what belongs there keep methods where they belong, and send sites
go on remembering inherited ones. -/
theorem Image.Staffed.perform {image : Image} {action : Action} (staff : image.Staffed)
    (formed : image.WellFormed) (caches : image.Mindful) (allowed : action.Allowed image)
    (belongs : ∀ holder selector behavior, action = .install holder selector behavior →
      behavior.Belongs image holder) :
    (action.perform image).Staffed ∧ (action.perform image).Mindful := by
  cases installs : action.installs with
  | true =>
      cases action with
      | install holder selector behavior =>
          exact ⟨staff.install formed allowed (belongs holder selector behavior rfl),
            caches.install allowed⟩
      | _ => cases installs
  | false =>
      have retains := Action.retains_perform allowed
      have methods := Action.methods_of_not_installs image installs
      exact ⟨staff.carry formed retains methods fun ref _ member =>
          dictionaries_of_not_installs allowed installs ref member,
        caches.carry formed staff retains methods (recorded_perform formed allowed installs).2⟩

/-- Allowed actions that bring in suitable things keep an image coherent. -/
theorem Image.Coherent.perform {image : Image} {action : Action} (coherent : image.Coherent)
    (allowed : action.Allowed image) (suitable : action.Suitable image) :
    (action.perform image).Coherent := by
  obtain ⟨formed, laid, hierarchy, staff, caches, blocks⟩ := coherent
  have retains := Action.retains_perform allowed
  have staffAfter := staff.perform formed caches allowed fun holder selector behavior same => by
    subst same
    exact suitable
  refine {
    formed := Action.wellFormed_perform formed allowed
    laid := Action.laid_perform laid formed allowed
    hierarchy := hierarchy.perform formed allowed
    staff := staffAfter.1
    caches := staffAfter.2
    blocks := fun ref known => ?_ }
  -- A block that there was is the same still; a new one is as suitable as it was said to be.
  by_cases old : image.heap.blocks.Has ref
  · rw [retains.blocks ref old]
    exact (blocks ref old).mono retains
  · obtain ⟨closure, rfl, made⟩ := made_of_perform known old
    rw [made]
    exact suitable.mono retains

namespace Primitive

/-- An operation of blocks is installed on the class that it is named after. -/
theorem home_of_mem_ofInstances {name : String} {operation : BlockOperation}
    (member : Primitive.block operation ∈ ofInstances name) :
    name = (Primitive.block operation).home := by
  unfold ofInstances at member
  split at member <;> simp at member
  case h_9 => rcases member with rfl | rfl | rfl <;> rfl
  all_goals
    subst member
    rfl

theorem not_mem_ofClass {name : String} {operation : BlockOperation} :
    Primitive.block operation ∉ ofClass name := by
  unfold ofClass
  split <;> simp

end Primitive

namespace Image

theorem belongs_of_mem_ofInstances {image : Image} {holder : ClassRef} {primitive : Primitive}
    (member : primitive ∈ Primitive.ofInstances (image.classAt holder).name) :
    (Behavior.primitive primitive).Belongs image holder := by
  cases primitive with
  | block operation => exact Primitive.home_of_mem_ofInstances member
  | _ => trivial

theorem belongs_of_mem_ofClass {image : Image} {holder : ClassRef} {name : String}
    {primitive : Primitive} (member : primitive ∈ Primitive.ofClass name) :
    (Behavior.primitive primitive).Belongs image holder := by
  cases primitive with
  | block operation => exact absurd member Primitive.not_mem_ofClass
  | _ => trivial

/-- An operation that a declaration is bound to belongs to the class. -/
theorem belongs_of_find? {image : Image} {holder : ClassRef} {selector : Selector}
    {primitive : Primitive}
    (found : Primitive.find? (image.classAt holder).baseName (image.classAt holder).isMetaclass
      selector = some primitive) : (Behavior.primitive primitive).Belongs image holder := by
  have member := List.mem_of_find?_eq_some found
  split at member
  · exact belongs_of_mem_ofClass member
  · next plain =>
      have name : (image.classAt holder).baseName = (image.classAt holder).name := by
        simp only [Class.baseName, plain, Bool.false_and, Bool.false_eq_true, if_false]
      rw [name] at member
      exact belongs_of_mem_ofInstances member

section Initial

/-- An image on the way to the initial one. -/
structure Equips (start image : Image) : Prop where
  formed : image.WellFormed
  staff : image.Staffed
  retains : start.Retains image

variable {start image : Image}

theorem Equips.act (equips : start.Equips image) {action : Action}
    (allowed : action.Allowed image) (unchanged : action.installs = false) :
    start.Equips (action.perform image) where
  formed := Action.wellFormed_perform equips.formed allowed
  staff := equips.staff.carry equips.formed (Action.retains_perform allowed)
    (Action.methods_of_not_installs image unchanged)
    fun ref _ member => dictionaries_of_not_installs allowed unchanged ref member
  retains := equips.retains.trans (Action.retains_perform allowed)

theorem Equips.installAll (equips : start.Equips image) {holder : ClassRef}
    (known : start.classes.Has holder) (primitives : List Primitive)
    (belong : ∀ primitive ∈ primitives, (Behavior.primitive primitive).Belongs start holder) :
    start.Equips (primitives.foldl
      (fun image primitive => image.addMethod holder primitive.selector (.primitive primitive))
      image) := by
  induction primitives generalizing image with
  | nil => exact equips
  | cons primitive rest inductionHypothesis =>
      have allowed : (Action.install holder primitive.selector (.primitive primitive)).Allowed
          image :=
        ⟨Nat.lt_of_lt_of_le known equips.retains.extended.classes, image.fresh_nil⟩
      have belongs := (belong primitive List.mem_cons_self).mono equips.retains known
      refine inductionHypothesis ?_ fun other member => belong other (List.mem_cons_of_mem _ member)
      exact {
        formed := Action.wellFormed_perform equips.formed allowed
        staff := equips.staff.install equips.formed allowed belongs
        retains := equips.retains.trans (Action.retains_perform allowed) }

theorem Equips.installPrimitives (equips : start.Equips image) (formed : start.WellFormed)
    {ref : ClassRef} (known : start.classes.Has ref) :
    start.Equips (image.installPrimitives ref) := by
  have name := equips.retains.name known
  have metaclass : (image.classAt ref).instanceOf = (start.classAt ref).instanceOf :=
    equips.retains.classOf (show (Value.classObject ref).Exists start from known)
  unfold Image.installPrimitives
  dsimp only
  rw [name, metaclass]
  have instances := equips.installAll known (Primitive.ofInstances (start.classAt ref).name)
    fun _ member => belongs_of_mem_ofInstances member
  exact instances.installAll (formed.within.metaclasses ref known)
    (Primitive.ofClass (start.classAt ref).name) fun _ member => belongs_of_mem_ofClass member

theorem Equips.installCore (equips : start.Equips image) (formed : start.WellFormed)
    (refs : List ClassRef) (known : ∀ ref ∈ refs, start.classes.Has ref) :
    start.Equips
      (refs.foldl (fun image ref => (image.installPrimitives ref).nameClass ref) image) := by
  induction refs generalizing image with
  | nil => exact equips
  | cons ref rest inductionHypothesis =>
      have present := known ref List.mem_cons_self
      have installed := equips.installPrimitives formed present
      have allowed : (Action.bind ((image.installPrimitives ref).className ref)
          (.classObject ref)).Allowed (image.installPrimitives ref) :=
        Nat.lt_of_lt_of_le present installed.retains.extended.classes
      exact inductionHypothesis (installed.act allowed rfl)
        fun other member => known other (List.mem_cons_of_mem _ member)

theorem staffed_founded : (founded .plain .standard false).Staffed where
  dictionaries := fun ref method member => by
    rw [methods_founded] at member
    cases member
  behaviors := fun ref => by
    rw [methodAt, Arena.get_of_size_eq_zero vacant_founded.methods]
    trivial

/-- The operations of the initial image are where they belong. -/
theorem staffed_initial (platform : Platform) (settings : Settings) (listening : Bool) :
    (initial platform settings listening).Staffed := by
  have formed : (founded platform settings listening).WellFormed :=
    founded_eq platform settings listening ▸ wellFormed_founded.rebased _ _ _
  have staff : (founded platform settings listening).Staffed := by
    rw [founded_eq]
    exact { staffed_founded with }
  have begun : (founded platform settings listening).Equips (founded platform settings listening) :=
    ⟨formed, staff, .refl _⟩
  have installed := begun.installCore formed (founded platform settings listening).core.inOrder
    formed.within.core
  rw [initial_eq, note_eq_perform]
  have bound := ((installed.act (show (Action.bind "nil" .nil).Allowed _ from trivial) rfl).act
    (show (Action.bind "true" (.boolean true)).Allowed _ from trivial) rfl).act
    (show (Action.bind "false" (.boolean false)).Allowed _ from trivial) rfl
  exact (bound.act (show (Action.noteDown _).Allowed _ from trivial) rfl).staff

/-- The ancestors of a class with two classes above it. -/
theorem mem_of_descends {first second third ancestor : ClassRef}
    (above : (image.classAt first).superclass = some second)
    (further : (image.classAt second).superclass = some third)
    (last : (image.classAt third).superclass = none) (descends : image.Descends first ancestor) :
    ancestor = first ∨ ancestor = second ∨ ancestor = third := by
  induction descends with
  | refl => exact Or.inl rfl
  | tail _ step inductionHypothesis =>
      rcases inductionHypothesis with rfl | rfl | rfl
      · cases above.symm.trans step.2
        exact Or.inr (Or.inl rfl)
      · cases further.symm.trans step.2
        exact Or.inr (Or.inr rfl)
      · cases last.symm.trans step.2

/-- The classes of blocks are a subclass each of one class below the root. -/
theorem blockClasses_founded : ∀ parameters : Fin 3,
    ((founded .plain .standard false).classAt
        ((founded .plain .standard false).core.blockOf parameters)).superclass =
        some (founded .plain .standard false).core.block ∧
      ((founded .plain .standard false).classAt
          ((founded .plain .standard false).core.blockOf parameters)).name =
        blockClassName parameters := by
  decide +kernel

theorem blockAncestors_founded :
    let core := (founded .plain .standard false).core
    ((founded .plain .standard false).classAt core.block).superclass = some core.object ∧
      ((founded .plain .standard false).classAt core.block).name = "Block" ∧
      ((founded .plain .standard false).classAt core.object).superclass = none ∧
      ((founded .plain .standard false).classAt core.object).name = "Object" := by
  decide +kernel

theorem hierarchical_founded : (founded .plain .standard false).Hierarchical where
  fields := fun ref parent _ => by
    rw [fieldless_founded.2 parent]
    exact Nat.zero_le _
  core := fun ref _ => fieldless_founded.2 ref
  blocks := fun parameters ancestor descends => by
    have few : ∃ index : Fin 3, (founded .plain .standard false).core.blockOf parameters =
        (founded .plain .standard false).core.blockOf index ∧
        blockClassName parameters = blockClassName index :=
      match parameters with
      | 0 => ⟨0, rfl, rfl⟩
      | 1 => ⟨1, rfl, rfl⟩
      | _ + 2 => ⟨2, rfl, rfl⟩
    obtain ⟨index, sameClass, sameName⟩ := few
    obtain ⟨above, name⟩ := blockClasses_founded index
    obtain ⟨further, nameToo, last, nameLast⟩ := blockAncestors_founded
    rw [sameClass] at descends
    rw [sameName]
    rcases mem_of_descends above further last descends with rfl | rfl | rfl
    · simp [name]
    · simp [nameToo]
    · simp [nameLast]

theorem hierarchical_initial (platform : Platform) (settings : Settings) (listening : Bool) :
    (initial platform settings listening).Hierarchical := by
  have start : (founded platform settings listening).Hierarchical := by
    rw [founded_eq]
    exact { hierarchical_founded with }
  have keeps : Keeps Hierarchical := fun _ _ _ allowed formed hierarchy =>
    hierarchy.perform formed allowed
  exact (initial_induction platform settings listening start keeps).2

/-- Where there is no code, send sites remember nothing. -/
theorem Codeless.mindful (codeless : image.Codeless) : image.Mindful := by
  have none : ∀ node, ¬ image.Outlines node := by
    rintro node ⟨ref, member⟩
    rw [Method.body_of_bodiless (codeless.methods ref)] at member
    cases member
  refine ⟨fun _ _ sends => ?_, fun _ _ _ outlined => absurd outlined (none _)⟩
  rcases sends with outlined | ⟨_, _, outlined⟩
  · exact absurd outlined (none _)
  · exact absurd outlined (none _)

theorem Codeless.furnishes (codeless : image.Codeless) (ref : BlockRef)
    (known : image.heap.blocks.Has ref) : image.Furnishes (image.blockAt ref) :=
  absurd known (Arena.not_has_of_size_eq_zero codeless.blocks ref)

theorem coherent_initial (platform : Platform) (settings : Settings) (listening : Bool) :
    (initial platform settings listening).Coherent where
  formed := wellFormed_initial platform settings listening
  laid := (laid_initial platform settings listening).1
  hierarchy := hierarchical_initial platform settings listening
  staff := staffed_initial platform settings listening
  caches := (codeless_initial platform settings listening).mindful
  blocks := (codeless_initial platform settings listening).furnishes

end Initial

end Image

end MessageMachine
