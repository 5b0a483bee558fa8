import MessageMachine.Proofs.Registry

/-!
# Definitions are atomic

A definition that turns out to be flawed has already done a part of its work: names were met, sites
were allotted, and for a class two classes were registered and some of their methods installed.  All
of that is added beside what was there before, and nothing leads to it.  A class definition that
succeeds changes the meaning of a single global name.

What a definition may add is one relation to the image that the definition started from.  It is kept
by the registration, by each installation in a class that is not older than the definition, and by
each allotment of sites, so that it holds at whatever point a flaw is found.
-/

namespace MessageMachine

namespace Sites.Allotted

variable {before after : Sites}

/-- Allotments do not look at the version of the dictionaries. -/
theorem dated (allotted : before.Allotted after) (version : UInt32) :
    Sites.Allotted { before with version } { after with version } := by
  induction allotted with
  | nothing => exact .nothing
  | call _ inductionHypothesis => exact .call inductionHypothesis
  | field _ inductionHypothesis => exact .field inductionHypothesis
  | control _ inductionHypothesis => exact .control inductionHypothesis

end Sites.Allotted

/-- Whether a journal goes on from another one. -/
structure Journal.Continues (before after : Journal) : Prop where
  listening : after.listening = before.listening
  events : before.events.toList <+: after.events.toList

namespace Journal.Continues

variable {before between after : Journal}

theorem refl (journal : Journal) : journal.Continues journal where
  listening := rfl
  events := List.prefix_refl _

theorem trans (earlier : before.Continues between) (later : between.Continues after) :
    before.Continues after where
  listening := later.listening.trans earlier.listening
  events := earlier.events.trans later.events

end Journal.Continues

namespace Image

/-- Noting an event continues the journal. -/
theorem continues_note (image : Image) (describe : Image → Event) :
    image.journal.Continues (image.note describe).journal := by
  unfold note
  split
  · exact ⟨rfl, by simp⟩
  · exact .refl _

/-- What an image is like when nothing but pairs of classes, methods of theirs, sites, names and
events were added to it.  The version of the dictionaries counts the methods. -/
structure Enlarged (start : Image) (pairs count : Nat) (after : Image) : Prop where
  platform : after.platform = start.platform
  settings : after.settings = start.settings
  core : after.core = start.core
  globals : after.globals = start.globals
  heap : after.heap = start.heap
  names : ∃ names, after.interner = start.interner.internAll names
  drawn : after.drawn = start.drawn
  classes : ∀ ref, start.classes.Has ref → after.classAt ref = start.classAt ref
  classCount : after.classes.size = start.classes.size + 2 * pairs
  shapes : ∀ ref, start.shapes.Has ref → after.shapeAt ref = start.shapeAt ref
  shapeCount : after.shapes.size = start.shapes.size + 2 * pairs
  methods : ∀ ref, start.methods.Has ref → after.methodAt ref = start.methodAt ref
  methodCount : after.methods.size = start.methods.size + count
  holders : ∀ ref, after.methods.Has ref → ¬ start.methods.Has ref →
    ¬ start.classes.Has (after.methodAt ref).holder
  sites : start.sites.Allotted { after.sites with version := start.sites.version }
  version : after.sites.version = start.sites.version + .ofNat count
  journal : start.journal.Continues after.journal

namespace Enlarged

variable {start image : Image} {pairs count : Nat}

theorem refl (start : Image) : start.Enlarged 0 0 start where
  platform := rfl
  settings := rfl
  core := rfl
  globals := rfl
  heap := rfl
  names := ⟨[], rfl⟩
  drawn := rfl
  classes := fun _ _ => rfl
  classCount := rfl
  shapes := fun _ _ => rfl
  shapeCount := rfl
  methods := fun _ _ => rfl
  methodCount := rfl
  holders := fun _ known unknown => absurd known unknown
  sites := .nothing
  version := (UInt32.add_zero _).symm
  journal := .refl _

theorem allot (enlarged : start.Enlarged pairs count image) {sites : Sites}
    (allotted : image.sites.Allotted sites) :
    start.Enlarged pairs count { image with sites } :=
  { enlarged with
    sites := enlarged.sites.trans (allotted.dated start.sites.version)
    version := allotted.grown.version.trans enlarged.version }

theorem meetAll (enlarged : start.Enlarged pairs count image) (names : List String) :
    start.Enlarged pairs count (image.meetAll names) := by
  obtain ⟨met, same⟩ := enlarged.names
  refine { enlarged with names := ⟨met ++ names, ?_⟩ }
  simp only [Image.meetAll, same, Interner.internAll, List.foldl_append]

theorem resume (enlarged : start.Enlarged pairs count image) {journal : Journal}
    (continues : image.journal.Continues journal) :
    start.Enlarged pairs count { image with journal } :=
  { enlarged with journal := enlarged.journal.trans continues }

theorem note (enlarged : start.Enlarged pairs count image) (describe : Image → Event) :
    start.Enlarged pairs count (image.note describe) := by
  rw [note_eq]
  exact enlarged.resume (image.continues_note describe)

/-- A method for a class that is new leaves the older classes and methods alone. -/
theorem install (enlarged : start.Enlarged pairs count image) {holder : ClassRef}
    (new : ¬ start.classes.Has holder) (selector : Selector) (behavior : Behavior) :
    start.Enlarged pairs (count + 1) (image.addMethod holder selector behavior) := by
  have met := enlarged.meetAll [selector]
  have added : start.Enlarged pairs (count + 1) { image.meet selector with
      methods := image.methods.push { holder, selector, behavior }
      classes := image.classes.modify holder fun type =>
        { type with methods := type.methods.insert selector image.methods.next }
      sites := { image.sites with version := image.sites.version + 1 } } := {
    met with
    classes := fun ref known => by
      have other : ¬ (ref = holder ∧ image.classes.Has ref) := fun same => new (same.1 ▸ known)
      rw [classAt, Arena.get_modify, if_neg other]
      exact enlarged.classes ref known
    classCount := (Arena.size_modify _ _ _).trans enlarged.classCount
    methods := fun ref known => by
      have kept : image.methods.Has ref := by
        simp only [Arena.Has, enlarged.methodCount] at known ⊢
        omega
      rw [methodAt, Arena.get_push_of_has _ kept]
      exact enlarged.methods ref known
    methodCount := by
      simp only [Arena.size_push, enlarged.methodCount]
      omega
    holders := fun ref known unknown => by
      simp only [methodAt, Arena.get_push]
      split
      · exact new
      · next other =>
          exact enlarged.holders ref (((Arena.has_push _ _ _).mp known).resolve_right other) unknown
    version := by
      simp only [enlarged.version, UInt32.ofNat_add]
      exact UInt32.add_assoc _ _ _ }
  unfold addMethod
  dsimp only [modifyClass]
  split
  · exact added.note _
  · exact added

theorem register (start : Image) (name : String) (superclass : ClassRef)
    (fields classFields : List String) :
    start.Enlarged 1 0 ((Action.register name superclass fields classFields).perform start) := {
  refl start with
  classes := fun _ known => start.classAt_register_of_has name superclass fields classFields known
  classCount := by simp [Action.perform, registerPair_eq]
  shapes := fun _ known => (start.shapeAt_register name superclass fields classFields known).2
  shapeCount := by simp [Action.perform, registerPair_eq] }

theorem sameRegistry (enlarged : start.Enlarged pairs count image) : start.SameRegistry image where
  count := by
    have size := enlarged.classCount
    omega
  core := enlarged.core
  instanceOf := fun ref known => by rw [enlarged.classes ref known]
  superclass := fun ref known => by rw [enlarged.classes ref known]
  methods := fun ref known => by rw [enlarged.classes ref known]

theorem classOf (enlarged : start.Enlarged pairs count image) {value : Value}
    (known : value.Exists start) : image.classOf value = start.classOf value := by
  cases value with
  | boolean truth => cases truth <;> simp only [Image.classOf, enlarged.core]
  | block ref => simp only [Image.classOf, enlarged.core, blockAt, enlarged.heap]
  | object ref => simp only [Image.classOf, objectAt, enlarged.heap]
  | classObject ref => simp only [Image.classOf, enlarged.classes ref known]
  | method ref => simp only [Image.classOf, enlarged.core, enlarged.methods ref known]
  | _ => simp only [Image.classOf, enlarged.core]

end Enlarged

/-- What the method does that a definition gives a class. -/
inductive Produces (image : Image) (holder : ClassRef) (definition : Source.MethodDefinition) :
    Behavior → Prop
  | declared {primitive : Primitive} : definition.body = .primitive →
      Primitive.find? (image.classAt holder).baseName (image.classAt holder).isMetaclass
        definition.selector = some primitive →
      Produces image holder definition (.primitive primitive)
  | missed : definition.body = .primitive →
      Primitive.find? (image.classAt holder).baseName (image.classAt holder).isMetaclass
        definition.selector = none →
      Produces image holder definition
        (.missing ((image.classAt holder).name ++ ">>#" ++ definition.selector))
  | prepared {routine : Routine} {draft : Draft} :
      definition.prepare (image.surroundings holder definition.selector) image.draft =
        .ok routine draft →
      Produces image holder definition (.defined routine)

/-- What was prepared from an image leaves it with more sites and names. -/
theorem adopt_of_extended {image : Image} {draft : Draft} (extended : image.draft.Extended draft) :
    ∃ names, image.adopt draft = { image.meetAll names with sites := draft.toSites } := by
  obtain ⟨names, same⟩ := extended.names
  exact ⟨names, by rw [adopt, same]; rfl⟩

/-- The ways in which the installation of a method ends: with a flaw of its body, after which the
sites stay that were allotted for it and the names that were met, or with a method in the dictionary
of the class. -/
inductive Installation (image : Image) (holder : ClassRef)
    (definition : Source.MethodDefinition) : EStateM.Result Flaw Image Unit → Prop
  | flawed {flaw : Flaw} {sites : Sites} (names : List String) : image.sites.Allotted sites →
      Installation image holder definition (.error flaw { image.meetAll names with sites })
  | installed {behavior : Behavior} {sites : Sites} {journal : Journal} (names : List String) :
      image.Produces holder definition behavior → image.sites.Allotted sites →
      image.journal.Continues journal →
      Installation image holder definition
        (.ok () ({ image.meetAll names with sites, journal }.addMethod holder definition.selector
          behavior))

theorem installMethod_ends (image : Image) (holder : ClassRef)
    (definition : Source.MethodDefinition) :
    image.Installation holder definition (installMethod holder definition image) := by
  unfold installMethod
  cases body : definition.body with
  | primitive =>
      dsimp only
      cases found : Primitive.find? (image.classAt holder).baseName
          (image.classAt holder).isMetaclass definition.selector with
      | some primitive =>
          rw [Defining.get_bind]
          simp only [found]
          exact .installed [] (.declared body found) .nothing (.refl _)
      | none =>
          rw [Defining.get_bind]
          simp only [found, Bind.bind, EStateM.bind]
          have ended := Installation.installed [] (.missed body found) .nothing
            (image.continues_note fun _ => .operationMissing
              ((image.classAt holder).name ++ ">>#" ++ definition.selector))
          change image.Installation holder definition (.ok () ((image.note _).addMethod ..))
          rw [note_eq]
          exact ended
  | expressions temporaries expressions =>
      have extended := definition.prepare_extends (image.surroundings holder definition.selector)
        image.draft
      simp only [Bind.bind, EStateM.bind, prepareMethod]
      cases result : definition.prepare (image.surroundings holder definition.selector)
          image.draft with
      | error flaw draft =>
          rw [result] at extended
          obtain ⟨names, left⟩ := adopt_of_extended extended
          change image.Installation holder definition (.error flaw (image.adopt draft))
          rw [left]
          exact .flawed names extended.sites
      | ok routine draft =>
          rw [result] at extended
          obtain ⟨names, left⟩ := adopt_of_extended extended
          change image.Installation holder definition (.ok () ((image.adopt draft).addMethod ..))
          rw [left]
          exact .installed names (.prepared result) extended.sites (.refl _)

end Image

/-- How work on definitions ends, with an answer or with a flaw. -/
def Defining.Ends {Answer : Type} (flawed : Image → Prop) (good : Answer → Image → Prop)
    (work : Defining Answer) (image : Image) : Prop :=
  match work image with
  | .ok answer after => good answer after
  | .error _ after => flawed after

namespace Defining.Ends

variable {Answer Next : Type} {flawed : Image → Prop} {good : Answer → Image → Prop}
  {goodNext : Next → Image → Prop} {work : Defining Answer} {next : Answer → Defining Next}
  {image : Image}

/-- One piece of work after the other. -/
theorem bind (first : Defining.Ends flawed good work image)
    (second : ∀ answer after, good answer after →
      Defining.Ends flawed goodNext (next answer) after) :
    Defining.Ends flawed goodNext (work >>= next) image := by
  unfold Defining.Ends at first
  cases result : work image with
  | error flaw after =>
      rw [result] at first
      simp only [Defining.Ends, Bind.bind, EStateM.bind, result]
      exact first
  | ok answer after =>
      rw [result] at first
      have rest := second answer after first
      simp only [Defining.Ends, Bind.bind, EStateM.bind, result] at rest ⊢
      exact rest

theorem get_bind {next : Image → Defining Next}
    (second : Defining.Ends flawed goodNext (next image) image) :
    Defining.Ends flawed goodNext (get >>= next) image :=
  second

theorem modifyGet {change : Image → Answer × Image}
    (known : good (change image).1 (change image).2) :
    Defining.Ends flawed good (MonadState.modifyGet change) image :=
  known

theorem imp {flawedToo : Image → Prop} {goodToo : Answer → Image → Prop}
    (ends : Defining.Ends flawed good work image)
    (worse : ∀ after, flawed after → flawedToo after)
    (better : ∀ answer after, good answer after → goodToo answer after) :
    Defining.Ends flawedToo goodToo work image := by
  unfold Defining.Ends at ends ⊢
  cases result : work image with
  | error flaw after =>
      rw [result] at ends
      exact worse after ends
  | ok answer after =>
      rw [result] at ends
      exact better answer after ends

theorem of_leaves {left : Image → Prop} (leaves : Defining.Leaves left image work) :
    Defining.Ends left (fun _ => left) work image := by
  unfold Defining.Ends
  unfold Defining.Leaves at leaves
  cases result : work image with
  | error flaw after =>
      rw [result] at leaves
      exact leaves
  | ok answer after =>
      rw [result] at leaves
      exact leaves

end Defining.Ends

namespace Image

section Outcomes

open Defining

variable {start image : Image} {pairs count : Nat}

/-- A method of a class that is new is added, or nothing but its sites and names. -/
theorem Enlarged.installMethod (enlarged : start.Enlarged pairs count image) {holder : ClassRef}
    (new : ¬ start.classes.Has holder) (definition : Source.MethodDefinition) :
    Ends (start.Enlarged pairs count) (fun _ => start.Enlarged pairs (count + 1))
      (installMethod holder definition) image := by
  have ending := image.installMethod_ends holder definition
  unfold Ends
  generalize Image.installMethod holder definition image = result at ending
  cases ending with
  | flawed names allotted => exact (enlarged.meetAll names).allot allotted
  | installed names _ allotted continues =>
      exact (((enlarged.meetAll names).allot allotted).resume continues).install new _ _

/-- Of several methods, those before the first flaw are added. -/
theorem Enlarged.installMethods (enlarged : start.Enlarged pairs count image) {holder : ClassRef}
    (new : ¬ start.classes.Has holder) (definitions : List Source.MethodDefinition) :
    Ends (fun after => ∃ fewer < count + definitions.length, start.Enlarged pairs fewer after)
      (fun _ => start.Enlarged pairs (count + definitions.length))
      (installMethods holder definitions) image := by
  induction definitions generalizing count image with
  | nil => exact enlarged
  | cons definition rest inductionHypothesis =>
      have total : count + (definition :: rest).length = count + 1 + rest.length := by
        simp only [List.length_cons]
        omega
      rw [total]
      refine Ends.bind ((enlarged.installMethod new definition).imp (fun after flawed => ?_)
        fun _ _ installed => installed) fun _ after installed => inductionHypothesis installed
      exact ⟨count, by omega, flawed⟩

/-- What a class definition with a flaw leaves: everything as it was, or a pair of classes without
some of the methods. -/
def Abandoned (start : Image) (definition : Source.ClassDefinition) (after : Image) : Prop :=
  after = start ∨
    ∃ fewer < definition.classMethods.length + definition.methods.length,
      start.Enlarged 1 fewer after

/-- What a class definition without a flaw leaves: a pair of classes with all of the methods, the
second of which the name stands for. -/
structure Named (start : Image) (definition : Source.ClassDefinition) (after : Image) : Prop where
  globals : after.globals =
    start.globals.insert definition.name (.classObject ⟨start.classes.size + 1⟩)
  enlarged : start.Enlarged 1 (definition.classMethods.length + definition.methods.length)
    { after with globals := start.globals }

variable {definition : Source.ClassDefinition} {superclass : ClassRef}

/-- A definition that is abandoned before its classes are registered leaves nothing. -/
theorem Abandoned.of_leaves {Answer : Type} {work : Defining Answer}
    (leaves : Leaves (fun after => start = after) start work) :
    Ends (start.Abandoned definition) (fun _ after => start = after) work start :=
  (Ends.of_leaves leaves).imp (fun _ same => Or.inl same.symm) fun _ _ same => same

theorem registerPair_ends :
    Ends (start.Abandoned definition)
      (fun ref after => ref = ⟨start.classes.size + 1⟩ ∧ start.Enlarged 1 0 after ∧
        (after.classAt ref).instanceOf = start.classes.next)
      (MonadState.modifyGet fun image => image.registerPair definition.name (some superclass)
        (some image.core.metaclass) definition.fields definition.classFields) start := by
  refine .modifyGet ?_
  have own := congrArg Prod.fst (start.registerPair_eq definition.name superclass
    definition.fields definition.classFields)
  refine ⟨own, .register start definition.name superclass definition.fields
    definition.classFields, ?_⟩
  rw [own]
  exact congrArg Class.instanceOf (start.classAt_register_class definition.name superclass
    definition.fields definition.classFields)

/-- From the registration on there is a new pair of classes, whatever comes of their methods. -/
theorem Enlarged.installMethods_ends (enlarged : start.Enlarged 1 count image) {holder : ClassRef}
    (new : ¬ start.classes.Has holder) {methods : List Source.MethodDefinition}
    (among : count + methods.length ≤
      definition.classMethods.length + definition.methods.length) :
    Ends (start.Abandoned definition) (fun _ => start.Enlarged 1 (count + methods.length))
      (Image.installMethods holder methods) image := by
  refine (enlarged.installMethods new methods).imp ?_ fun _ _ enlarged => enlarged
  rintro after ⟨fewer, less, enlarged⟩
  exact Or.inr ⟨fewer, Nat.lt_of_lt_of_le less among, enlarged⟩

theorem Enlarged.setGlobal_ends {flawed : Image → Prop}
    (enlarged : start.Enlarged 1
      (definition.classMethods.length + definition.methods.length) image) :
    Ends flawed (fun _ => start.Named definition) (MonadState.modifyGet fun image =>
      image.setGlobal definition.name (.classObject ⟨start.classes.size + 1⟩)) image := by
  refine .modifyGet ⟨?_, { enlarged.meetAll [definition.name] with globals := rfl }⟩
  simp only [setGlobal, enlarged.globals]

theorem Named.note_ends {flawed : Image → Prop} (named : start.Named definition image)
    (describe : Image → Event) :
    Ends flawed (fun _ : Unit => start.Named definition)
      (modify fun image => image.note describe) image := by
  change start.Named definition (image.note describe)
  rw [note_eq]
  exact ⟨named.globals, named.enlarged.resume (image.continues_note describe)⟩

/-- A class definition without a flaw adds a pair of classes with their methods, and binds its name.
One with a flaw is abandoned on the way. -/
theorem defineClass_ends (start : Image) (definition : Source.ClassDefinition) :
    Ends (start.Abandoned definition)
      (fun ref after => ref = ⟨start.classes.size + 1⟩ ∧ start.Named definition after)
      (defineClass definition) start := by
  have metaclassNew : ¬ start.classes.Has start.classes.next := start.classes.not_has_next
  have classNew : ¬ start.classes.Has ⟨start.classes.size + 1⟩ := by simp [Arena.Has]
  unfold defineClass
  refine Ends.bind (Abandoned.of_leaves (findSuperclass_leaves rfl definition)) ?_
  rintro superclass _ rfl
  refine .get_bind (Ends.bind (Abandoned.of_leaves (checkFields_leaves rfl _ _ _)) ?_)
  rintro _ _ rfl
  refine Ends.bind (Abandoned.of_leaves (checkFields_leaves rfl _ _ _)) ?_
  rintro _ _ rfl
  refine Ends.bind registerPair_ends ?_
  rintro ref image ⟨rfl, enlarged, instanceOf⟩
  refine .get_bind ?_
  rw [instanceOf]
  refine Ends.bind (enlarged.installMethods_ends metaclassNew (by omega))
    fun _ image enlarged => ?_
  refine Ends.bind (enlarged.installMethods_ends classNew (by omega)) fun _ image enlarged => ?_
  rw [Nat.zero_add] at enlarged
  refine Ends.bind enlarged.setGlobal_ends fun previous image named => ?_
  split
  · exact (named.note_ends _).bind fun _ _ named =>
      (named.note_ends _).bind fun _ _ named => ⟨rfl, named⟩
  · exact (named.note_ends _).bind fun _ _ named => ⟨rfl, named⟩

end Outcomes

end Image

/-- Whether a value is the receiver of a frame or in one of its slots. -/
def Frame.Mentions (frame : Frame) (value : Value) : Prop :=
  value = frame.receiver ∨ value ∈ frame.arguments ∨ value ∈ frame.temporaries

namespace Image

/-- What can be got at in an image: the values of global names, the core classes, and whatever these
refer to in turn, be it in a field, in code or in the activation that a block was made in. -/
inductive Accessible (image : Image) : Value → Prop
  | global {name : String} {value : Value} : image.globals.find? name = some value →
      Accessible image value
  | core {ref : ClassRef} : ref ∈ image.core.inOrder → Accessible image (.classObject ref)
  | classOf {value : Value} : Accessible image value →
      Accessible image (.classObject (image.classOf value))
  | superclass {ref parent : ClassRef} : Accessible image (.classObject ref) →
      (image.classAt ref).superclass = some parent → Accessible image (.classObject parent)
  | classValue {ref : ClassRef} {value : Value} : Accessible image (.classObject ref) →
      value ∈ (image.classAt ref).values → Accessible image value
  | method {ref : ClassRef} {method : MethodRef} : Accessible image (.classObject ref) →
      method ∈ (image.classAt ref).methods.values → Accessible image (.method method)
  | holder {method : MethodRef} : Accessible image (.method method) →
      Accessible image (.classObject (image.methodAt method).holder)
  | origin {method : MethodRef} {node : OutlineNode} {origin : ClassRef} :
      Accessible image (.method method) →
      node ∈ Code.outlineAll (image.methodAt method).body → node.origin? = some origin →
      Accessible image (.classObject origin)
  | element {ref : ArrayRef} {value : Value} : Accessible image (.array ref) →
      value ∈ image.arrayAt ref → Accessible image value
  | reference {ref : ObjectRef} {index : Nat} {value : Value} : Accessible image (.object ref) →
      (image.objectAt ref).references[index]? = some value → Accessible image value
  | overflow {ref : ObjectRef} {index : Nat} {value : Value} : Accessible image (.object ref) →
      (image.objectAt ref).overflow[index]? = some value → Accessible image value
  | blockOrigin {ref : BlockRef} {node : OutlineNode} {origin : ClassRef} :
      Accessible image (.block ref) → node ∈ Code.outlineAll (image.blockAt ref).body →
      node.origin? = some origin → Accessible image (.classObject origin)
  | captured {ref : BlockRef} {home frame : FrameRef} {levels : Nat} {value : Value} :
      Accessible image (.block ref) → (image.blockAt ref).captured = some home →
      image.enclosing? home levels = some frame → (image.frameAt frame).Mentions value →
      Accessible image value

/-- As long as no global name leads to what was added, nothing does. -/
theorem Enlarged.exists_of_accessible {start image : Image} {pairs count : Nat}
    (enlarged : start.Enlarged pairs count image) (formed : start.WellFormed) {value : Value}
    (accessible : image.Accessible value) : value.Exists start := by
  have within := formed.within
  induction accessible with
  | global found =>
      rw [enlarged.globals] at found
      exact within.globals _ (Dictionary.mem_values_of_find? found)
  | core member =>
      rw [enlarged.core] at member
      exact within.core _ member
  | classOf _ known =>
      rw [enlarged.classOf known]
      exact has_classOf formed known
  | superclass _ found known =>
      rw [enlarged.classes _ known] at found
      exact within.superclasses _ _ found
  | classValue _ member known =>
      rw [enlarged.classes _ known] at member
      exact within.classValues _ _ member
  | method _ member known =>
      rw [enlarged.classes _ known] at member
      exact within.dictionaries _ _ member
  | holder _ known =>
      rw [enlarged.methods _ known]
      exact within.holders _ known
  | origin _ member found known =>
      rw [enlarged.methods _ known] at member
      exact (formed.placed _ ⟨_, member⟩).origin _ found
  | element _ member _ =>
      rw [arrayAt, enlarged.heap] at member
      exact within.elements _ _ member
  | reference _ found _ =>
      rw [objectAt, enlarged.heap] at found
      exact (within.contents _).references _ _ found
  | overflow _ found _ =>
      rw [objectAt, enlarged.heap] at found
      exact (within.contents _).overflow _ _ found
  | blockOrigin _ member found _ =>
      rw [blockAt, enlarged.heap] at member
      exact (formed.placed _ (within.bodies _ _ member)).origin _ found
  | captured _ _ _ mentioned _ =>
      rw [frameAt, enlarged.heap] at mentioned
      rcases mentioned with rfl | argument | temporary
      · exact (within.frames _).receiver
      · exact (within.frames _).arguments _ argument
      · exact (within.frames _).temporaries _ temporary

/-- Whether classes and values that exist behave afterwards as they did before. -/
structure Unaltered (before after : Image) : Prop where
  lookup : ∀ ref, before.classes.Has ref → ∀ selector,
    after.lookup ref selector = before.lookup ref selector
  classOf : ∀ value : Value, value.Exists before → after.classOf value = before.classOf value
  lookupFor : ∀ value : Value, value.Exists before → ∀ selector,
    after.lookupFor value selector = before.lookupFor value selector
  readField : ∀ value : Value, value.Exists before → ∀ index,
    (after.readField value index).1 = (before.readField value index).1

/-- Lineages go on ending along a history. -/
theorem Reaches.rooted {start image : Image} {actions : List Action}
    (reached : start.Reaches actions image) (formed : start.WellFormed) (rooted : start.Rooted) :
    image.Rooted := by
  induction reached with
  | start => exact rooted
  | act action earlier allowed inductionHypothesis =>
      exact inductionHypothesis.perform (earlier.wellFormed formed) allowed

/-- Definitions change no field of what exists. -/
theorem Built.steady {start image : Image} (built : start.Built image) (formed : start.WellFormed)
    (laid : start.Laid) : start.Steady image := by
  induction built with
  | start => exact laid.steady
  | act earlier definition inductionHypothesis =>
      refine inductionHypothesis.trans (Action.steady_perform inductionHypothesis.laid
        (earlier.wellFormed formed) definition.allowed ?_)
      cases definition <;> rfl

theorem Unaltered.of_enlarged {platform : Platform} {settings : Settings} {listening : Bool}
    {actions : List Action} {image after : Image}
    (history : (initial platform settings listening).Reaches actions image)
    {pairs count : Nat}
    (enlarged : image.Enlarged pairs count { after with globals := image.globals })
    (built : image.Built after) : image.Unaltered after := by
  have faithful := history.faithful
  have rooted := history.rooted (wellFormed_initial platform settings listening)
    (registry_initial platform settings listening).1.rooted
  have same : image.SameRegistry after := { enlarged.sameRegistry with }
  have classOf : ∀ value : Value, value.Exists image →
      after.classOf value = image.classOf value := fun value known =>
    (show after.classOf value = ({ after with globals := image.globals } : Image).classOf value by
      cases value with
      | boolean truth => cases truth <;> rfl
      | _ => rfl).trans (enlarged.classOf known)
  exact {
    lookup := fun ref known selector => same.lookup faithful.formed rooted known selector
    classOf := classOf
    lookupFor := fun value known selector => by
      rw [Image.lookupFor, classOf value known]
      exact same.lookup faithful.formed rooted (has_classOf faithful.formed known) selector
    readField := fun value known index =>
      (built.steady faithful.formed faithful.laid).readField faithful.laid known index }

end Image

open Image in
/-- Definitions are atomic.  When the installation of a method fails, names were met, sites were
allotted and nothing else has changed, not even the version of the dictionaries.  When the
definition of a class fails, either nothing has changed at all, or a pair of classes was added, with
names, with sites and with some of their methods, as many as the version of the dictionaries has
grown by; what can be got at is what existed before, the new pair not included.  When the definition
of a class succeeds, only its global name means something else than before.  In all three cases the
classes that existed find the methods that they found, and the values that existed keep their
classes and their fields. -/
theorem definitions_are_atomic {platform : Platform} {settings : Settings} {listening : Bool}
    {actions : List Action} {image : Image}
    (history : (Image.initial platform settings listening).Reaches actions image) :
    (∀ holder definition flaw after,
      installMethod holder definition image = .error flaw after →
        (∃ names sites, image.sites.Allotted sites ∧
          after = { image.meetAll names with sites }) ∧
        image.Unaltered after) ∧
    (∀ definition flaw after, defineClass definition image = .error flaw after →
        (after = image ∨
          ∃ count < definition.classMethods.length + definition.methods.length,
            image.Enlarged 1 count after) ∧
        (∀ value, after.Accessible value → value.Exists image) ∧
        image.Unaltered after) ∧
    ∀ definition ref after, defineClass definition image = .ok ref after →
        ref = ⟨image.classes.size + 1⟩ ∧
        after.globals = image.globals.insert definition.name (.classObject ref) ∧
        image.Enlarged 1 (definition.classMethods.length + definition.methods.length)
          { after with globals := image.globals } ∧
        image.Unaltered after := by
  have formed := history.faithful.formed
  refine ⟨fun holder definition flaw after failed => ?_, fun definition flaw after failed => ?_,
    fun definition ref after success => ?_⟩
  · have ending := image.installMethod_ends holder definition
    rw [failed] at ending
    cases ending with
    | @flawed flaw sites names allotted =>
        have enlarged := ((Enlarged.refl image).meetAll names).allot allotted
        have built : image.Built { image.meetAll names with sites } := .single <|
          @Definition.allocated image
            { sites with interner := image.interner.internAll names, callSites := #[] }
            allotted.grown
        exact ⟨⟨names, _, allotted, rfl⟩, .of_enlarged history { enlarged with globals := rfl }
          built⟩
  · have ends := image.defineClass_ends definition
    have built := (defineClass_builds formed definition).built
    rw [Defining.Ends, failed] at ends
    rw [failed] at built
    have enlarged : ∃ pairs count, image.Enlarged pairs count after := by
      rcases ends with same | ⟨count, -, enlarged⟩
      · exact ⟨0, 0, same ▸ .refl image⟩
      · exact ⟨1, count, enlarged⟩
    obtain ⟨pairs, count, enlarged⟩ := enlarged
    exact ⟨ends, fun value accessible => enlarged.exists_of_accessible formed accessible,
      .of_enlarged history { enlarged with globals := rfl } built⟩
  · have ends := image.defineClass_ends definition
    have built := (defineClass_builds formed definition).built
    rw [Defining.Ends, success] at ends
    rw [success] at built
    obtain ⟨rfl, globals, enlarged⟩ := ends
    exact ⟨rfl, globals, enlarged, .of_enlarged history enlarged built⟩

/-- A class of objects with one field, which they answer. -/
def pointClass : Source.ClassDefinition where
  name := "Point"
  superclass := none
  fields := ["x"]
  methods := [{
    selector := "x", parameters := 0
    body := .expressions 0 [.answer (.read (.field 0)) .absent] }]
  classFields := []
  classMethods := []

/-- The same class, with another method that reads a field that is not there. -/
def flawedPointClass : Source.ClassDefinition :=
  { pointClass with
    methods := pointClass.methods ++ [{
      selector := "y", parameters := 0, body := .expressions 0 [.read (.field 1)] }] }

/-- A class with an instance is defined once more, first with a flaw and then without one.  The
flawed definition leaves a pair of classes behind that nothing leads to; after the other one the
instance is still what it was. -/
theorem definitions_are_atomic_again :
    ∃ image, (Image.initial .plain .standard false).Reaches
        [.register "Point" ⟨1⟩ ["x"] [], .bind "Point" (.classObject ⟨37⟩), .instantiate ⟨37⟩,
          .writeField (.object ⟨0⟩) 0 (.integer 7)]
        image ∧
      (∃ flaw after, Image.defineClass flawedPointClass image = .error flaw after ∧
        after.classes.size = image.classes.size + 2 ∧ ¬ after.Accessible (.classObject ⟨39⟩)) ∧
      ∃ after, Image.defineClass pointClass image = .ok ⟨39⟩ after ∧
        after.globals.find? "Point" = some (.classObject ⟨39⟩) ∧
        after.classOf (.object ⟨0⟩) = ⟨37⟩ ∧
        (after.readField (.object ⟨0⟩) 0).1 = some (.integer 7) := by
  let start := Image.initial .plain .standard false
  let first := Action.perform start (.register "Point" ⟨1⟩ ["x"] [])
  let second := Action.perform first (.bind "Point" (.classObject ⟨37⟩))
  let third := Action.perform second (.instantiate ⟨37⟩)
  let image := Action.perform third (.writeField (.object ⟨0⟩) 0 (.integer 7))
  have root : start.classes.Has ⟨1⟩ := by decide +kernel
  have bound : (Value.classObject ⟨37⟩).Exists first := by decide +kernel
  have owner : second.classes.Has ⟨37⟩ := by decide +kernel
  have made : (Value.object ⟨0⟩).Exists third := by decide +kernel
  have kept : (Value.object ⟨0⟩).Exists image := by decide +kernel
  have history := (((Image.Reaches.start.act (.register "Point" ⟨1⟩ ["x"] []) root).act
    (.bind "Point" (.classObject ⟨37⟩)) bound).act (.instantiate ⟨37⟩) owner).act
    (.writeField (.object ⟨0⟩) 0 (.integer 7)) ⟨made, trivial⟩
  obtain ⟨-, failing, succeeding⟩ := definitions_are_atomic history
  have old : image.classOf (.object ⟨0⟩) = ⟨37⟩ ∧
      (image.readField (.object ⟨0⟩) 0).1 = some (.integer 7) ∧ image.classes.size = 38 := by
    decide +kernel
  refine ⟨image, history, ?_, ?_⟩
  · cases result : Image.defineClass flawedPointClass image with
    | ok ref after =>
        have flawed : EStateM.run' (Image.defineClass flawedPointClass) image = none := by
          decide +kernel
        rw [Defining.run'_eq, result] at flawed
        cases flawed
    | error flaw after =>
        have size : (Defining.left (Image.defineClass flawedPointClass image)).classes.size =
            image.classes.size + 2 := by
          decide +kernel
        rw [result] at size
        refine ⟨flaw, after, rfl, size, fun accessible => ?_⟩
        have known : image.classes.Has ⟨39⟩ :=
          (failing flawedPointClass flaw after result).2.1 _ accessible
        simp only [Arena.Has, old.2.2] at known
        omega
  · cases result : Image.defineClass pointClass image with
    | error flaw after =>
        have sound : EStateM.run' (Image.defineClass pointClass) image = some ⟨39⟩ := by
          decide +kernel
        rw [Defining.run'_eq, result] at sound
        cases sound
    | ok ref after =>
        obtain ⟨new, globals, -, unaltered⟩ := succeeding pointClass ref after result
        rw [old.2.2] at new
        subst new
        refine ⟨after, rfl, ?_, ?_, ?_⟩
        · rw [globals]
          exact Dictionary.find?_insert_same _ _ _
        · rw [unaltered.classOf _ kept, old.1]
        · rw [unaltered.readField _ kept, old.2.1]

end MessageMachine
