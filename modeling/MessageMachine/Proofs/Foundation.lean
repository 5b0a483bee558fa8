import MessageMachine.Proofs.WellFormedness

/-!
# The image that every run starts from

The core classes are registered and tied together before anything is installed or named.  That
founded image is a closed term, so that what it looks like is found by computation.  From there on
the initial image is built by allowed actions: installing primitive operations, binding names and
noting an event.  An invariant therefore holds of the initial image if it holds of the founded one
and these actions keep it.
-/

namespace MessageMachine

/-- Whether a behavior has no code of its own. -/
def Behavior.Bodiless : Behavior → Prop
  | .defined _ => False
  | _ => True

theorem Method.body_of_bodiless {method : Method} (bodiless : method.behavior.Bodiless) :
    method.body = [] := by
  obtain ⟨holder, selector, behavior⟩ := method
  cases behavior with
  | defined routine => exact bodiless.elim
  | primitive operation => rfl
  | missing title => rfl

/-- Whether an action is one of those that build the initial image. -/
def Action.Founding : Action → Prop
  | .install _ _ (.primitive _) => True
  | .bind _ value => value.IsNormal
  | .noteDown _ => True
  | _ => False

namespace Image

/-- The image with the core classes in place, before anything is installed or named. -/
def founded (platform : Platform) (settings : Settings) (listening : Bool) : Image :=
  let (core, image) := registerCore.run (Image.empty platform settings listening)
  { image.tieRoots core with core }

/-- Whether the lineage of a class ends within a number of steps. -/
def endsWithin (image : Image) : Nat → ClassRef → Bool
  | 0, _ => false
  | steps + 1, ref =>
      match (image.classAt ref).superclass with
      | some superclass => image.endsWithin steps superclass
      | none => true

/-- What the classes of the founded image have in common. -/
structure Bare (image : Image) (ref : ClassRef) : Prop where
  superclass : ∀ parent ∈ (image.classAt ref).superclass, image.classes.Has parent
  metaclass : image.classes.Has (image.classAt ref).instanceOf
  methods : (image.classAt ref).methods.values.length = 0
  values : (image.classAt ref).values.size = 0
  fields : (image.classAt ref).fields.length = 0
  shape : (image.classAt ref).shape.index = ref.index
  id : (image.shapeAt ⟨ref.index⟩).id = ⟨ref.index⟩
  storages : (image.shapeAt ⟨ref.index⟩).storages.size = 0
  current : (image.shapeAt ⟨ref.index⟩).successor = none
  ends : image.endsWithin image.classes.size ref

/-- An image on another platform, with other settings and another journal. -/
def rebased (image : Image) (platform : Platform) (settings : Settings) (journal : Journal) :
    Image :=
  { image with platform, settings, journal }

/-- Whether a construction pays no attention to the platform, the settings and the journal. -/
def Rebases {Answer : Type} (construction : StateM Image Answer) : Prop :=
  ∀ image platform settings journal, construction (image.rebased platform settings journal) =
    ((construction image).1, (construction image).2.rebased platform settings journal)

namespace Rebases

theorem pure {Answer : Type} (answer : Answer) : Rebases (Pure.pure answer) :=
  fun _ _ _ _ => rfl

theorem bind {First Second : Type} {first : StateM Image First}
    {second : First → StateM Image Second} (before : Rebases first)
    (after : ∀ answer, Rebases (second answer)) : Rebases (first >>= second) := by
  intro image platform settings journal
  change second (first (image.rebased platform settings journal)).1
    (first (image.rebased platform settings journal)).2 = _
  rw [before]
  exact after _ _ _ _ _

theorem registerPair (name : String) (superclass metaclassClass : Option ClassRef)
    (fields classFields : List String) :
    Rebases (modifyGet fun image =>
      image.registerPair name superclass metaclassClass fields classFields) :=
  fun _ _ _ _ => rfl

theorem registerCore : Rebases Image.registerCore := by
  have roots : Rebases registerRoots :=
    bind (registerPair _ _ _ _ _) fun _ => bind (registerPair _ _ _ _ _) fun _ =>
      bind (registerPair _ _ _ _ _) fun _ => pure _
  refine bind roots fun _ => ?_
  -- The other fifteen pairs are registered one after the other.
  repeat refine bind (registerPair _ _ _ _ _) fun _ => ?_
  exact pure _

end Rebases

/-- The platform, the settings and the journal have no part in the foundation. -/
theorem founded_eq (platform : Platform) (settings : Settings) (listening : Bool) :
    founded platform settings listening =
      (founded .plain .standard false).rebased platform settings
        { listening, events := #[] } := by
  have started : Image.empty platform settings listening =
      (Image.empty .plain .standard false).rebased platform settings
        { listening, events := #[] } := rfl
  simp only [founded, StateT.run, started, Rebases.registerCore _ _ _ _]
  rfl

theorem size_classes_founded : (founded .plain .standard false).classes.size = 36 := by
  decide +kernel

instance (image : Image) (ref : ClassRef) : Decidable (image.Bare ref) :=
  decidable_of_iff
    ((∀ parent ∈ (image.classAt ref).superclass, image.classes.Has parent) ∧
      image.classes.Has (image.classAt ref).instanceOf ∧
      (image.classAt ref).methods.values.length = 0 ∧
      (image.classAt ref).values.size = 0 ∧
      (image.classAt ref).fields.length = 0 ∧
      (image.classAt ref).shape.index = ref.index ∧
      (image.shapeAt ⟨ref.index⟩).id = ⟨ref.index⟩ ∧
      (image.shapeAt ⟨ref.index⟩).storages.size = 0 ∧
      (image.shapeAt ⟨ref.index⟩).successor = none ∧
      image.endsWithin image.classes.size ref)
    ⟨fun ⟨superclass, metaclass, methods, values, fields, shape, id, storages, current, ends⟩ =>
      ⟨superclass, metaclass, methods, values, fields, shape, id, storages, current, ends⟩,
    fun ⟨superclass, metaclass, methods, values, fields, shape, id, storages, current, ends⟩ =>
      ⟨superclass, metaclass, methods, values, fields, shape, id, storages, current, ends⟩⟩

theorem bare_founded : ∀ index : Fin 36, (founded .plain .standard false).Bare ⟨index⟩ := by
  decide +kernel

/-- Apart from classes and shapes there is nothing in an image. -/
structure Vacant (image : Image) : Prop where
  globals : image.globals.values.length = 0
  methods : image.methods.size = 0
  arrays : image.heap.arrays.size = 0
  objects : image.heap.objects.size = 0
  blocks : image.heap.blocks.size = 0
  frames : image.heap.frames.size = 0
  calls : image.sites.calls.size = 0
  fields : image.sites.fields.size = 0
  controls : image.sites.controls.size = 0
  version : image.sites.version = 0

theorem vacant_founded : (founded .plain .standard false).Vacant := by
  constructor <;> decide +kernel

theorem core_founded :
    ∀ ref ∈ (founded .plain .standard false).core.inOrder,
      (founded .plain .standard false).classes.Has ref := by
  decide +kernel

/-- A class of the founded image is bare, wherever it stands. -/
theorem bare_of_has {ref : ClassRef} (known : (founded .plain .standard false).classes.Has ref) :
    (founded .plain .standard false).Bare ref :=
  bare_founded ⟨ref.index, Nat.lt_of_lt_of_eq known size_classes_founded⟩

/-- There are no methods in the dictionaries of the founded image. -/
theorem methods_founded (ref : ClassRef) :
    ((founded .plain .standard false).classAt ref).methods.values = [] := by
  by_cases known : (founded .plain .standard false).classes.Has ref
  · exact List.eq_nil_of_length_eq_zero (bare_of_has known).methods
  · rw [classAt, Arena.get_of_not_has known]
    rfl

/-- The class objects of the founded image have no variables. -/
theorem values_founded (ref : ClassRef) :
    ((founded .plain .standard false).classAt ref).values = #[] := by
  by_cases known : (founded .plain .standard false).classes.Has ref
  · exact Array.eq_empty_of_size_eq_zero (bare_of_has known).values
  · rw [classAt, Arena.get_of_not_has known]
    rfl

theorem wellFormed_founded : (founded .plain .standard false).WellFormed := by
  have vacant := vacant_founded
  have nodes : ∀ node, ¬ (founded .plain .standard false).Outlines node := by
    intro node ⟨ref, member⟩
    exact Arena.not_has_of_size_eq_zero vacant.methods ref (has_of_mem_outline member)
  exact {
    within := {
      core := core_founded
      globals := fun value member => by
        rw [List.eq_nil_of_length_eq_zero vacant.globals] at member
        cases member
      superclasses := fun ref parent found => by
        by_cases known : (founded .plain .standard false).classes.Has ref
        · exact (bare_of_has known).superclass parent found
        · rw [classAt, Arena.get_of_not_has known] at found
          cases found
      metaclasses := fun ref known => (bare_of_has known).metaclass
      dictionaries := fun ref method member => by
        rw [methods_founded] at member
        cases member
      classValues := fun ref value member => by
        rw [values_founded] at member
        cases Array.not_mem_empty _ member
      holders := fun ref known => absurd known (Arena.not_has_of_size_eq_zero vacant.methods ref)
      elements := fun ref value member => by
        rw [arrayAt, Arena.get_of_size_eq_zero vacant.arrays] at member
        cases Array.not_mem_empty _ member
      owners := fun ref known => absurd known (Arena.not_has_of_size_eq_zero vacant.objects ref)
      contents := fun ref => by
        rw [objectAt, Arena.get_of_size_eq_zero vacant.objects]
        exact Instance.all_ofShape trivial _ _
      bodies := fun ref node member => by
        rw [blockAt, Arena.get_of_size_eq_zero vacant.blocks] at member
        cases member
      frames := fun ref => by
        rw [frameAt, Arena.get_of_size_eq_zero vacant.frames]
        exact {
          receiver := trivial
          arguments := fun value member => by cases Array.not_mem_empty _ member
          temporaries := fun value member => by cases Array.not_mem_empty _ member } }
    placed := fun node outlined => absurd outlined (nodes node)
    callsApart := fun node _ _ outlined => absurd outlined (nodes node)
    fieldsApart := fun node _ _ outlined => absurd outlined (nodes node) }

theorem WellFormed.rebased {image : Image} (formed : image.WellFormed) (platform : Platform)
    (settings : Settings) (journal : Journal) :
    (image.rebased platform settings journal).WellFormed where
  within := { formed.within with }
  placed := fun node outlined => { formed.placed node outlined with }
  callsApart := formed.callsApart
  fieldsApart := formed.fieldsApart

/-- Noting an event is an action of its own. -/
theorem note_eq_perform (image : Image) (describe : Image → Event) :
    image.note describe = (Action.noteDown (image.note describe).journal).perform image :=
  note_eq image describe

/-- A method without a body brings in no nodes. -/
theorem fresh_nil (image : Image) : image.Fresh [] where
  placed := fun node member => by cases member
  callsUnused := fun node member => by cases member
  fieldsUnused := fun node member => by cases member
  callsApart := fun node member => by cases member
  fieldsApart := fun node member => by cases member

section Initial

variable {good : Image → Prop}

/-- Whether an image on the way to the initial one is well-formed, satisfies an invariant and has
the given classes. -/
structure Raised (good : Image → Prop) (known : List ClassRef) (image : Image) : Prop where
  formed : image.WellFormed
  holds : good image
  known : ∀ ref ∈ known, image.classes.Has ref

/-- Whether the actions that build the initial image keep an invariant. -/
def Keeps (good : Image → Prop) : Prop :=
  ∀ (image : Image) (action : Action), action.Founding → action.Allowed image →
    image.WellFormed → good image → good (action.perform image)

variable {known : List ClassRef} {image : Image}

theorem Raised.act (raised : Raised good known image) (keeps : Keeps good) (action : Action)
    (founding : action.Founding) (allowed : action.Allowed image) :
    Raised good known (action.perform image) where
  formed := Action.wellFormed_perform raised.formed allowed
  holds := keeps image action founding allowed raised.formed raised.holds
  known := fun ref member =>
    Nat.lt_of_lt_of_le (raised.known ref member) (Action.extends_perform allowed).classes

theorem Raised.installAll (keeps : Keeps good) {holder : ClassRef}
    (primitives : List Primitive) (raised : Raised good known image)
    (has : image.classes.Has holder) :
    Raised good known (primitives.foldl
        (fun image primitive => image.addMethod holder primitive.selector (.primitive primitive))
        image) ∧
      image.Extends (primitives.foldl
        (fun image primitive => image.addMethod holder primitive.selector (.primitive primitive))
        image) := by
  induction primitives generalizing image with
  | nil => exact ⟨raised, .refl image⟩
  | cons primitive rest inductionHypothesis =>
      let action := Action.install holder primitive.selector (.primitive primitive)
      have allowed : action.Allowed image := ⟨has, image.fresh_nil⟩
      have extended := Action.extends_perform allowed
      have later := inductionHypothesis (raised.act keeps action trivial allowed)
        (Nat.lt_of_lt_of_le has extended.classes)
      exact ⟨later.1, extended.trans later.2⟩

theorem Raised.installPrimitives (keeps : Keeps good) {ref : ClassRef}
    (raised : Raised good known image) (has : image.classes.Has ref) :
    Raised good known (image.installPrimitives ref) := by
  have first := Raised.installAll keeps (Primitive.ofInstances (image.classAt ref).name) raised has
  have metaclass := raised.formed.within.metaclasses ref has
  exact (Raised.installAll keeps (Primitive.ofClass (image.classAt ref).name) first.1
    (Nat.lt_of_lt_of_le metaclass first.2.classes)).1

theorem Raised.installCore (keeps : Keeps good) (refs : List ClassRef)
    (members : ∀ ref ∈ refs, ref ∈ known) (raised : Raised good known image) :
    Raised good known
      (refs.foldl (fun image ref => (image.installPrimitives ref).nameClass ref) image) := by
  induction refs generalizing image with
  | nil => exact raised
  | cons ref rest inductionHypothesis =>
      have member := members ref List.mem_cons_self
      have installed := raised.installPrimitives keeps (raised.known ref member)
      exact inductionHypothesis (fun other later => members other (List.mem_cons_of_mem _ later))
        (installed.act keeps (.bind _ _) trivial (installed.known ref member))

/-- The founded image with every core class given its operations and its name. -/
def equipped (platform : Platform) (settings : Settings) (listening : Bool) : Image :=
  (founded platform settings listening).core.inOrder.foldl
    (fun image ref => (image.installPrimitives ref).nameClass ref)
    (founded platform settings listening)

theorem initial_eq (platform : Platform) (settings : Settings) (listening : Bool) :
    initial platform settings listening =
      ((((equipped platform settings listening).setGlobal "nil" .nil).2.setGlobal "true"
        (.boolean true)).2.setGlobal "false" (.boolean false)).2.note
          fun image => .initialized image.classes.size image.settings :=
  rfl

/-- What holds of the founded image and is kept while the initial one is built holds of the initial
image. -/
theorem initial_induction (platform : Platform) (settings : Settings) (listening : Bool)
    (start : good (founded platform settings listening)) (keeps : Keeps good) :
    (initial platform settings listening).WellFormed ∧
      good (initial platform settings listening) := by
  have begun : Raised good (founded platform settings listening).core.inOrder
      (founded platform settings listening) := {
    formed := founded_eq platform settings listening ▸ wellFormed_founded.rebased _ _ _
    holds := start
    known := founded_eq platform settings listening ▸ core_founded }
  have installed : Raised good _ (equipped platform settings listening) :=
    begun.installCore keeps _ (fun _ member => member)
  have bound := ((installed.act keeps (.bind "nil" .nil) trivial trivial).act keeps
    (.bind "true" (.boolean true)) trivial trivial).act keeps
    (.bind "false" (.boolean false)) trivial trivial
  rw [initial_eq, note_eq_perform]
  exact ⟨(bound.act keeps (.noteDown _) trivial trivial).formed,
    (bound.act keeps (.noteDown _) trivial trivial).holds⟩

theorem wellFormed_initial (platform : Platform) (settings : Settings) (listening : Bool) :
    (initial platform settings listening).WellFormed := by
  have keeps : Keeps fun _ => True := fun _ _ _ _ _ _ => trivial
  exact (initial_induction platform settings listening trivial keeps).1

/-- Whether an image has no code yet: no method has a body, and there are neither blocks nor frames
nor sites. -/
structure Codeless (image : Image) : Prop where
  methods : ∀ ref, (image.methodAt ref).behavior.Bodiless
  blocks : image.heap.blocks.size = 0
  frames : image.heap.frames.size = 0
  calls : image.sites.calls.size = 0
  fields : image.sites.fields.size = 0
  controls : image.sites.controls.size = 0

theorem codeless_initial (platform : Platform) (settings : Settings) (listening : Bool) :
    (initial platform settings listening).Codeless := by
  have start : (founded platform settings listening).Codeless := by
    rw [founded_eq]
    have vacant := vacant_founded
    exact {
      methods := fun ref => by
        change ((founded .plain .standard false).methodAt ref).behavior.Bodiless
        rw [methodAt, Arena.get_of_size_eq_zero vacant.methods]
        trivial
      blocks := vacant.blocks
      frames := vacant.frames
      calls := vacant.calls
      fields := vacant.fields
      controls := vacant.controls }
  have keeps : Keeps Codeless := by
    intro image action founding _ _ codeless
    cases action with
    | noteDown journal => exact { codeless with }
    | bind name value => exact { codeless with }
    | install holder selector behavior =>
        cases behavior with
        | primitive operation =>
            rw [Action.perform]
            obtain ⟨journal, result⟩ := image.addMethod_eq holder selector (.primitive operation)
            rw [result]
            refine { codeless with methods := fun ref => ?_ }
            simp only [methodAt, Arena.get_push]
            split
            · trivial
            · exact codeless.methods ref
        | _ => cases founding
    | _ => cases founding
  exact (initial_induction platform settings listening start keeps).2

theorem settings_initial (platform : Platform) (settings : Settings) (listening : Bool) :
    (initial platform settings listening).settings = settings := by
  have start : (founded platform settings listening).settings = settings := by
    rw [founded_eq]
    rfl
  have keeps : Keeps fun image => image.settings = settings := by
    intro image action founding _ _ same
    cases action with
    | noteDown journal => exact same
    | bind name value => exact same
    | install holder selector behavior =>
        rw [Action.perform]
        obtain ⟨journal, result⟩ := image.addMethod_eq holder selector behavior
        rw [result]
        exact same
    | _ => cases founding
  exact (initial_induction platform settings listening start keeps).2

end Initial

end Image

end MessageMachine
