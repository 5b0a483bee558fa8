import MessageMachine.Proofs.Development
import MessageMachine.Proofs.Preparation

/-!
# Definitions as sequences of actions

Defining a class or a method comes to a few kinds of actions, and each of them is taken on certain
conditions: an operation is bound to a class that it is found for, and code comes out of a
preparation for the class that gets it.  What is kept by actions on these conditions is kept by
definitions, whether they turn out to be flawed or not.
-/

namespace MessageMachine

/-- The actions that definitions consist of, with the conditions they are taken on. -/
inductive Definition (image : Image) : Action → Prop
  | noted (journal : Journal) : Definition image (.noteDown journal)
  | bound {name : String} {value : Value} : value.Exists image → Definition image (.bind name value)
  | registered {name : String} {superclass : ClassRef} {fields classFields : List String} :
      image.classes.Has superclass →
      Definition image (.register name superclass fields classFields)
  | allocated {draft : Draft} : image.sites.Grown draft → Definition image (.allocate draft)
  | declared {holder : ClassRef} {selector : Selector} {primitive : Primitive} :
      image.classes.Has holder →
      Primitive.find? (image.classAt holder).baseName (image.classAt holder).isMetaclass selector =
        some primitive →
      Definition image (.install holder selector (.primitive primitive))
  | missed {holder : ClassRef} {selector : Selector} {title : String} : image.classes.Has holder →
      Definition image (.install holder selector (.missing title))
  | prepared {holder : ClassRef} {definition : Source.MethodDefinition} {routine : Routine}
      {draft after : Draft} : image.classes.Has holder → image.Fresh routine.body →
      definition.prepare (image.surroundings holder definition.selector) draft =
        .ok routine after →
      Definition image (.install holder definition.selector (.defined routine))

theorem Definition.allowed {image : Image} {action : Action}
    (definition : Definition image action) : action.Allowed image := by
  cases definition with
  | noted journal => trivial
  | bound known => exact known
  | registered known => exact known
  | allocated grown => exact grown
  | declared known _ => exact ⟨known, image.fresh_nil⟩
  | missed known => exact ⟨known, image.fresh_nil⟩
  | prepared known fresh _ => exact ⟨known, fresh⟩

namespace Image

/-- The images that definitions lead to. -/
inductive Built (start : Image) : Image → Prop
  | start : Built start start
  | act {image : Image} {action : Action} : Built start image → Definition image action →
      Built start (action.perform image)

namespace Built

variable {start between image : Image}

theorem single {action : Action} (definition : Definition image action) :
    image.Built (action.perform image) :=
  .act .start definition

theorem trans (first : start.Built between) (second : between.Built image) : start.Built image := by
  induction second with
  | start => exact first
  | act _ definition inductionHypothesis => exact .act inductionHypothesis definition

/-- What definitional actions keep is kept. -/
theorem induction {good : Image → Prop} (built : start.Built image) (begun : good start)
    (step : ∀ {image action}, Definition image action → good image → good (action.perform image)) :
    good image := by
  induction built with
  | start => exact begun
  | act _ definition inductionHypothesis => exact step definition inductionHypothesis

theorem wellFormed (built : start.Built image) (formed : start.WellFormed) : image.WellFormed :=
  built.induction formed fun definition formed =>
    Action.wellFormed_perform formed definition.allowed

theorem extended (built : start.Built image) : start.Extends image := by
  induction built with
  | start => exact .refl start
  | act _ definition inductionHypothesis =>
      exact inductionHypothesis.trans (Action.extends_perform definition.allowed)

end Built

end Image

/-- Whether work on definitions comes to definitional actions, and what is answered is good. -/
structure Defining.Builds {Answer : Type} (good : Image → Answer → Prop) (image : Image)
    (work : Defining Answer) : Prop where
  built : image.Built (Defining.left (work image))
  good : ∀ {answer after}, work image = .ok answer after → good after answer

namespace Defining.Builds

variable {Answer Next : Type} {good : Image → Answer → Prop} {goodNext : Image → Next → Prop}
  {image : Image} {work : Defining Answer} {next : Answer → Defining Next}

theorem pure {answer : Answer} (known : good image answer) :
    Defining.Builds good image (Pure.pure answer) where
  built := .start
  good := fun success => by
    cases success
    exact known

theorem throw (flaw : Flaw) :
    Defining.Builds good image (MonadExcept.throw flaw : Defining Answer) where
  built := .start
  good := nofun

theorem modifyGet {change : Image → Answer × Image} (built : image.Built (change image).2)
    (known : good (change image).2 (change image).1) :
    Defining.Builds good image (MonadState.modifyGet change) where
  built := built
  good := fun success => by
    cases success
    exact known

theorem get_bind {next : Image → Defining Next}
    (builds : Defining.Builds goodNext image (next image)) :
    Defining.Builds goodNext image (get >>= next) where
  built := builds.built
  good := builds.good

/-- One piece of work after the other. -/
theorem bind (first : Defining.Builds good image work)
    (second : ∀ {answer after}, work image = .ok answer after → image.Built after →
      good after answer → Defining.Builds goodNext after (next answer)) :
    Defining.Builds goodNext image (work >>= next) := by
  have built := first.built
  cases result : work image with
  | error flaw after =>
      have same : (work >>= next) image = .error flaw after := by
        simp only [Bind.bind, EStateM.bind, result]
      rw [result] at built
      constructor
      · rw [same]
        exact built
      · intro answer final success
        cases same.symm.trans success
  | ok answer between =>
      have same : (work >>= next) image = next answer between := by
        simp only [Bind.bind, EStateM.bind, result]
      rw [result] at built
      have rest := second result built (first.good result)
      constructor
      · rw [same]
        exact built.trans rest.built
      · intro other final success
        exact rest.good (same.symm.trans success)

end Defining.Builds

namespace Image

variable {image : Image}

theorem note_builds (describe : Image → Event) :
    Defining.Builds (fun _ _ => True) image (modify fun image => image.note describe) := by
  refine .modifyGet ?_ trivial
  have noted := Built.single (.noted (image.note describe).journal : Definition image _)
  rw [← note_eq_perform] at noted
  exact noted

theorem install_builds {holder : ClassRef} {selector : Selector} {behavior : Behavior}
    (definition : Definition image (.install holder selector behavior)) :
    Defining.Builds (fun _ _ => True) image
      (modify fun image => image.addMethod holder selector behavior) :=
  .modifyGet (.single definition) trivial

/-- Preparing a method allocates its sites.  Then it can be installed. -/
theorem prepareMethod_builds (formed : image.WellFormed) {holder : ClassRef}
    (known : image.classes.Has holder) (definition : Source.MethodDefinition) :
    Defining.Builds (fun after routine =>
        Definition after (.install holder definition.selector (.defined routine)))
      image (prepareMethod holder definition) := by
  have grown := definition.prepare_grows (image.surroundings holder definition.selector) image.draft
  unfold prepareMethod
  cases success : definition.prepare (image.surroundings holder definition.selector)
      image.draft with
  | error flaw draft =>
      rw [success] at grown
      refine ⟨?_, fun failed => ?_⟩
      · rw [success]
        exact .single (.allocated grown)
      · rw [success] at failed
        cases failed
  | ok routine draft =>
      rw [success] at grown
      refine ⟨?_, fun prepared => ?_⟩
      · rw [success]
        exact .single (.allocated grown)
      · rw [success] at prepared
        cases prepared
        refine .prepared known ?_ success
        obtain ⟨temporaries, body, codes, -, -, preparedAll, rfl⟩ :=
          Source.MethodDefinition.prepared_of_prepare success
        exact .of_furnishes formed grown (fun origin found =>
          formed.within.superclasses holder origin found)
          (Source.Expression.prepareAll_furnishes body preparedAll)

theorem installMethod_builds (formed : image.WellFormed) {holder : ClassRef}
    (known : image.classes.Has holder) (definition : Source.MethodDefinition) :
    Defining.Builds (fun _ _ => True) image (installMethod holder definition) := by
  unfold installMethod
  split
  · refine .get_bind ?_
    dsimp only
    split
    · next found => exact install_builds (.declared known found)
    · refine .bind (note_builds _) fun _ built _ => ?_
      exact install_builds (.missed (Nat.lt_of_lt_of_le known built.extended.classes))
  · refine .bind (prepareMethod_builds formed known definition) fun _ _ prepared => ?_
    exact install_builds prepared

theorem installMethods_builds (formed : image.WellFormed) {holder : ClassRef}
    (known : image.classes.Has holder) (definitions : List Source.MethodDefinition) :
    Defining.Builds (fun _ _ => True) image (installMethods holder definitions) := by
  induction definitions generalizing image with
  | nil => exact .pure trivial
  | cons definition rest inductionHypothesis =>
      refine .bind (installMethod_builds formed known definition) fun _ built _ => ?_
      exact inductionHypothesis (built.wellFormed formed)
        (Nat.lt_of_lt_of_le known built.extended.classes)

theorem checkFields_builds (className : String) (inherited declared : List String) :
    Defining.Builds (fun _ _ => True) image (checkFields className inherited declared) := by
  unfold checkFields
  split
  · exact .throw _
  · exact .pure trivial

theorem findSuperclass_builds (formed : image.WellFormed) (definition : Source.ClassDefinition) :
    Defining.Builds (fun after ref => after.classes.Has ref) image (findSuperclass definition) := by
  unfold findSuperclass
  refine .get_bind ?_
  split
  · refine .pure (formed.within.core _ ?_)
    simp [CoreClasses.inOrder]
  · split
    · next found => exact .pure (formed.within.globals _ (Dictionary.mem_values_of_find? found))
    · exact .throw _
    · exact .throw _

theorem register_builds {superclass : ClassRef} (known : image.classes.Has superclass)
    (name : String) (fields classFields : List String) :
    Defining.Builds (fun after ref => after.classes.Has ref) image (modifyGet fun image =>
      image.registerPair name (some superclass) (some image.core.metaclass) fields
        classFields) := by
  refine .modifyGet (.single (.registered known)) ?_
  have present := (image.has_register name superclass fields classFields
    ⟨image.classes.size + 1⟩).mpr (Or.inr (Or.inr rfl))
  rw [registerPair_eq]
  simpa only [Action.perform, registerPair_eq] using present

/-- Defining a class comes to definitional actions. -/
theorem defineClass_builds (formed : image.WellFormed) (definition : Source.ClassDefinition) :
    Defining.Builds (fun _ _ => True) image (defineClass definition) := by
  unfold defineClass
  refine .bind (findSuperclass_builds formed definition) fun {superclass image} _ built known => ?_
  have formed := built.wellFormed formed
  refine .get_bind ?_
  refine .bind (checkFields_builds _ _ _) fun {_ image} _ built _ => ?_
  have formed := built.wellFormed formed
  have known := Nat.lt_of_lt_of_le known built.extended.classes
  refine .bind (checkFields_builds _ _ _) fun {_ image} _ built _ => ?_
  have formed := built.wellFormed formed
  have known := Nat.lt_of_lt_of_le known built.extended.classes
  refine .bind (register_builds known _ _ _) fun {ref image} _ built present => ?_
  have formed := built.wellFormed formed
  refine .get_bind ?_
  refine .bind (installMethods_builds formed (formed.within.metaclasses ref present) _)
    fun {_ image} _ built _ => ?_
  have formed := built.wellFormed formed
  have present := Nat.lt_of_lt_of_le present built.extended.classes
  refine .bind (installMethods_builds formed present _) fun {_ image} _ built _ => ?_
  have present := Nat.lt_of_lt_of_le present built.extended.classes
  have named : Defining.Builds (fun _ _ => True) image
      (modifyGet fun image => image.setGlobal definition.name (.classObject ref)) :=
    .modifyGet (.single (.bound (show (Value.classObject ref).Exists image from present))) trivial
  refine .bind named fun {previous image} _ _ _ => ?_
  have ending : ∀ {image : Image}, Defining.Builds (fun _ _ => True) image (do
      modify fun image => image.note fun image =>
        let type := image.classAt ref
        .classDefined definition.name type.fields.length type.methods.size
      return ref) :=
    .bind (note_builds _) fun _ _ _ => .pure trivial
  split
  · exact .bind (note_builds _) fun _ _ _ => ending
  · exact ending

end Image

end MessageMachine
