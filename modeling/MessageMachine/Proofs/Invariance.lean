import MessageMachine.Proofs.Definitions
import MessageMachine.Proofs.Discipline.Sessions
import MessageMachine.Proofs.Session

/-!
# Invariants of sessions

Classes come into an image by registration and by nothing else.  What every other action keeps lasts
through evaluations and through all requests but class definitions, and it lasts through a class
definition if it survives the registration.  Such an invariant holds at every moment of a session,
however the requests turn out.
-/

namespace MessageMachine

/-- Whether an action registers a class and its metaclass. -/
def Action.registers : Action → Bool
  | .register _ _ _ _ => true
  | _ => false

/-- Whether nothing but a registration can put an end to what holds of an image. -/
def Image.Lasting (good : Image → Prop) : Prop :=
  ∀ (image : Image) (action : Action), action.registers = false → good image →
    good (action.perform image)

/-- Whether no evaluation can put an end to what holds of an image. -/
def Image.Enduring (good : Image → Prop) : Prop :=
  ∀ (image : Image) (action : Action), action.Internal → good image → good (action.perform image)

/-- Evaluations register no classes. -/
theorem Image.Lasting.enduring {good : Image → Prop} (lasting : Image.Lasting good) :
    Image.Enduring good := by
  intro image action internal holds
  refine lasting image action ?_ holds
  cases action <;> first | exact internal.elim | rfl

/-- The actions that the definition of certain methods consists of, registrations apart. -/
inductive Action.Defines (accepted : Source.MethodDefinition → Prop) : Action → Prop
  | note (journal : Journal) : Defines accepted (.noteDown journal)
  | allocate (draft : Draft) : Defines accepted (.allocate draft)
  | name (name : String) (ref : ClassRef) : Defines accepted (.bind name (.classObject ref))
  | declare (holder : ClassRef) (selector : Selector) {behavior : Behavior} : behavior.Bodiless →
      Defines accepted (.install holder selector behavior)
  | method (holder : ClassRef) {definition : Source.MethodDefinition} {routine : Routine}
      {surroundings : Surroundings} {draft after : Draft} : accepted definition →
      definition.prepare surroundings draft = .ok routine after →
      Defines accepted (.install holder definition.selector (.defined routine))

/-- Whether the definition of certain methods cannot put an end to what holds of an image. -/
def Image.Withstands (accepted : Source.MethodDefinition → Prop) (good : Image → Prop) : Prop :=
  ∀ ⦃image : Image⦄ ⦃action : Action⦄, action.Defines accepted → good image →
    good (action.perform image)

theorem Image.Lasting.withstands {good : Image → Prop} (lasting : Image.Lasting good)
    (accepted : Source.MethodDefinition → Prop) : Image.Withstands accepted good := by
  intro image action defines holds
  refine lasting image action ?_ holds
  cases defines <;> rfl

/-- What holds at every moment of a session: before and after each request, when an activation is
begun and when it is over, and when an expression is evaluated. -/
structure Session.Always (session : Session) (good : Image → Prop) : Prop where
  served : ∀ {request image}, session.Serves request image → good image
  ended : good session.outcome.2
  begun : ∀ {running below}, session.Underway (running :: below) → good running.image
  finished : ∀ {running below}, session.Underway (running :: below) →
    good (Eval.left running.result)
  evaluated : ∀ {running below}, session.Underway (running :: below) →
    ∀ {frame code image}, running.Evaluates frame code image → good image

theorem Session.Always.imp {session : Session} {good other : Image → Prop}
    (always : session.Always good) (implies : ∀ image, good image → other image) :
    session.Always other where
  served := fun serves => implies _ (always.served serves)
  ended := implies _ always.ended
  begun := fun moment => implies _ (always.begun moment)
  finished := fun moment => implies _ (always.finished moment)
  evaluated := fun moment _ _ _ evaluates => implies _ (always.evaluated moment evaluates)

namespace Discipline

/-- Keeping what lasts.  Nothing is asked of values, escapes, expressions and activations. -/
def keeping (good : Image → Prop) : Discipline where
  Holds := good
  Later := fun _ _ => True
  Good := fun _ _ => True
  Fine := fun _ _ => True
  Fits := fun _ _ _ => True
  Runs := fun _ _ => True
  Begun := fun _ => True
  Here := fun _ _ _ => True
  Given := fun _ _ _ _ => True

variable {good : Image → Prop}

theorem keeping_act (enduring : Image.Enduring good) {image : Image} (action : Action)
    (internal : action.Internal) (holds : good image) :
    (keeping good).Steps image (action.perform image) :=
  ⟨enduring image action internal holds, trivial⟩

theorem keeping_laws (enduring : Image.Enduring good) : (keeping good).Laws where
  toOrder := ⟨fun _ => trivial, fun _ _ => trivial⟩
  toValues := .of_any _ fun _ _ => trivial
  toEscapes := .of_any _ (fun _ _ => trivial) fun _ _ => trivial
  toPrograms := {
    carry := fun _ _ => trivial
    parts := fun _ _ _ => trivial
    literal := fun _ _ _ => trivial
    read := fun _ _ _ => trivial
    write := fun holds _ _ _ => keeping_act enduring (.setSlot _ _ _ _) trivial holds
    unwritten := fun _ _ _ => trivial
    readField := fun holds _ =>
      ⟨keeping_act enduring (.readFieldAt _ _ _) trivial holds, fun _ => trivial⟩
    writeField := fun holds _ _ _ =>
      ⟨keeping_act enduring (.writeFieldAt _ _ _ _) trivial holds, fun _ => trivial⟩
    block := fun holds _ _ => keeping_act enduring (.makeBlock _) trivial holds
    answer := fun _ _ _ _ => trivial
    resolve := fun holds _ _ _ _ =>
      ⟨keeping_act enduring (.resolve _ _ _) trivial holds, fun _ _ _ _ => trivial⟩
    resolveSuper := fun _ _ _ holds _ =>
      ⟨keeping_act enduring (.resolveSuper _ _ _) trivial holds, fun _ _ _ _ => trivial⟩ }
  toActivations := {
    found := fun _ _ _ _ _ _ => trivial
    called := fun _ _ _ _ _ => trivial
    arguments := fun _ _ _ => trivial
    accompanied := fun _ _ _ => trivial
    calls := fun _ _ _ => trivial
    puts := fun holds _ _ place => keeping_act enduring (.setElement _ place _) trivial holds
    assigns := fun holds _ _ _ _ => keeping_act enduring (.writeField _ _ _) trivial holds
    nested := fun _ _ => trivial
    here := fun _ _ => trivial
    given := fun _ _ _ => trivial
    enter := fun {_ _ _ frame _} holds _ _ _ =>
      ⟨(keeping_act enduring (.enter frame) trivial holds).1, fun _ _ => trivial⟩
    leave := fun {_ image _ _ _} _ _ _ _ holds =>
      ⟨⟨(keeping_act enduring (.leave image.heap.frames.next) trivial holds).1, trivial⟩,
        fun _ _ => trivial, fun _ _ _ => trivial⟩ }
  act := fun {image action} holds may => by
    refine keeping_act enduring action ?_ holds
    cases action <;> first | exact may.elim | trivial

end Discipline

/-- Whether something holds of the image that work on definitions leaves, flawed or not. -/
def Defining.Leaves {Answer : Type} (good : Image → Prop) (image : Image)
    (work : Defining Answer) : Prop :=
  good (Defining.left (work image))

namespace Defining.Leaves

variable {Answer Next : Type} {accepted : Source.MethodDefinition → Prop} {good : Image → Prop}
  {image : Image} {work : Defining Answer} {next : Answer → Defining Next}

/-- One piece of work after the other. -/
theorem bind (first : Defining.Leaves good image work)
    (second : ∀ {answer after}, work image = .ok answer after → good after →
      Defining.Leaves good after (next answer)) : Defining.Leaves good image (work >>= next) := by
  unfold Defining.Leaves at first ⊢
  simp only [Bind.bind, EStateM.bind]
  cases result : work image with
  | error flaw after =>
      rw [result] at first
      exact first
  | ok answer between =>
      rw [result] at first
      exact second result first

theorem get_bind {next : Image → Defining Next} (second : Defining.Leaves good image (next image)) :
    Defining.Leaves good image (get >>= next) :=
  second

theorem act (withstands : Image.Withstands accepted good) (holds : good image)
    {change : Image → Answer × Image} {action : Action} (defines : action.Defines accepted)
    (same : (change image).2 = action.perform image) :
    Defining.Leaves good image (MonadState.modifyGet change) := by
  have kept := withstands defines holds
  rw [← same] at kept
  exact kept

theorem note (withstands : Image.Withstands accepted good) (holds : good image)
    (describe : Image → Event) :
    Defining.Leaves good image (modify fun image => image.note describe) :=
  act withstands holds (.note _) (image.note_eq_perform describe)

theorem install (withstands : Image.Withstands accepted good) (holds : good image)
    {holder : ClassRef} {selector : Selector} {behavior : Behavior}
    (defines : Action.Defines accepted (.install holder selector behavior)) :
    Defining.Leaves good image (modify fun image => image.addMethod holder selector behavior) :=
  act withstands holds defines rfl

end Defining.Leaves

namespace Image

open Defining

variable {accepted : Source.MethodDefinition → Prop} {good : Image → Prop}
  (withstands : Withstands accepted good) {image : Image} (holds : good image)
include withstands holds

theorem prepareMethod_leaves (holder : ClassRef) (definition : Source.MethodDefinition) :
    Leaves good image (prepareMethod holder definition) := by
  unfold Leaves prepareMethod
  split
  · next draft _ => exact withstands (.allocate draft) holds
  · next draft _ => exact withstands (.allocate draft) holds

theorem installMethod_leaves (holder : ClassRef) {definition : Source.MethodDefinition}
    (fair : accepted definition) : Leaves good image (installMethod holder definition) := by
  unfold installMethod
  split
  · refine .get_bind ?_
    dsimp only
    split
    · exact .install withstands holds (.declare holder _ trivial)
    · refine .bind (.note withstands holds _) fun _ holds => ?_
      exact .install withstands holds (.declare holder _ trivial)
  · refine .bind (prepareMethod_leaves withstands holds holder definition) fun success holds => ?_
    obtain ⟨surroundings, draft, after, prepared⟩ := exists_prepare_of_prepareMethod success
    exact .install withstands holds (.method holder fair prepared)

theorem installMethods_leave (holder : ClassRef) {definitions : List Source.MethodDefinition}
    (fair : ∀ definition ∈ definitions, accepted definition) :
    Leaves good image (installMethods holder definitions) := by
  induction definitions generalizing image with
  | nil => exact holds
  | cons definition rest inductionHypothesis =>
      refine .bind (installMethod_leaves withstands holds holder
        (fair definition List.mem_cons_self)) fun _ holds => ?_
      exact inductionHypothesis holds fun other member =>
        fair other (List.mem_cons_of_mem definition member)

omit withstands in
theorem findSuperclass_leaves (definition : Source.ClassDefinition) :
    Leaves good image (findSuperclass definition) := by
  unfold findSuperclass
  refine .get_bind ?_
  split
  · exact holds
  · split <;> exact holds

omit withstands in
theorem checkFields_leaves (className : String) (inherited declared : List String) :
    Leaves good image (checkFields className inherited declared) := by
  unfold checkFields
  split <;> exact holds

omit withstands holds in
/-- Finding the superclass changes nothing. -/
theorem eq_of_findSuperclass {definition : Source.ClassDefinition} {superclass : ClassRef}
    {after : Image} (found : findSuperclass definition image = .ok superclass after) :
    after = image := by
  have same : Leaves (image = ·) image (findSuperclass definition) :=
    findSuperclass_leaves rfl definition
  rw [Leaves, found] at same
  exact same.symm

omit withstands holds in
/-- Looking for repeated fields changes nothing either, and succeeds if there are none. -/
theorem eq_of_checkFields {className : String} {inherited declared : List String} {after : Image}
    (checked : checkFields className inherited declared image = .ok () after) :
    after = image ∧ repeatedField? inherited declared = none := by
  have same : Leaves (image = ·) image (checkFields className inherited declared) :=
    checkFields_leaves rfl className inherited declared
  rw [Leaves, checked] at same
  refine ⟨same.symm, ?_⟩
  unfold checkFields at checked
  cases repeated : repeatedField? inherited declared with
  | none => rfl
  | some field =>
      rw [repeated] at checked
      cases checked

/-- What withstands the definition of its methods is left by a class definition if it survives the
registration.  The classes are registered once the superclass is found and no field is repeated, on
neither side. -/
theorem defineClass_leaves (definition : Source.ClassDefinition)
    (fair : ∀ method ∈ definition.methods ++ definition.classMethods, accepted method)
    (registered : ∀ {superclass}, findSuperclass definition image = .ok superclass image →
      repeatedField? (image.classAt superclass).fields definition.fields = none →
      repeatedField? (image.classAt (image.classAt superclass).instanceOf).fields
        definition.classFields = none →
      good ((Action.register definition.name superclass definition.fields
        definition.classFields).perform image)) :
    Leaves good image (defineClass definition) := by
  unfold defineClass
  refine .bind (findSuperclass_leaves holds definition) fun {superclass _} found _ => ?_
  cases eq_of_findSuperclass found
  refine .get_bind ?_
  refine .bind (checkFields_leaves holds _ _ _) fun checked _ => ?_
  obtain ⟨rfl, fresh⟩ := eq_of_checkFields checked
  refine .bind (checkFields_leaves holds _ _ _) fun checked _ => ?_
  obtain ⟨rfl, freshToo⟩ := eq_of_checkFields checked
  have registers := registered found fresh freshToo
  refine .bind (show Leaves good _ _ from registers) fun {ref image} _ holds => ?_
  refine .get_bind ?_
  refine .bind (installMethods_leave withstands holds _ fun method member =>
    fair method (List.mem_append_right _ member)) fun _ holds => ?_
  refine .bind (installMethods_leave withstands holds ref fun method member =>
    fair method (List.mem_append_left _ member)) fun _ holds => ?_
  refine .bind (.act withstands holds (.name definition.name ref) rfl)
    fun {previous image} _ holds => ?_
  have ending : ∀ {image : Image}, good image → Leaves good image (do
      modify fun image => image.note fun image =>
        let type := image.classAt ref
        .classDefined definition.name type.fields.length type.methods.size
      return ref) :=
    fun holds => .bind (.note withstands holds _) fun _ holds => holds
  split
  · exact .bind (.note withstands holds _) fun _ holds => ending holds
  · exact ending holds

end Image

namespace Request

/-- The action that a request comes to, if it runs nothing and defines nothing. -/
def action? (image : Image) : Request → Option Action
  | .removeMethod holder selector => some (.remove holder selector)
  | .instantiate owner => some (.instantiate owner)
  | .makeArray elements => some (.makeArray elements.toArray)
  | .detach block => some (.makeBlock { image.blockAt block with captured := none })
  | .setGlobal name value => some (.bind name value)
  | .readField receiver index => some (.readField receiver index)
  | .writeField receiver index value => some (.writeField receiver index value)
  | .meet name => some (.meet [name])
  | _ => none

variable {machine : Machine} {request : Request} {image : Image} {action : Action}

theorem serve_of_action? (found : request.action? image = some action) :
    (request.serve machine image).2 = action.perform image := by
  cases request <;> cases found <;> rfl

/-- The action refers to existing things if the request does. -/
theorem allowed_of_action? (formed : image.WellFormed) (admissible : request.Admissible image)
    (found : request.action? image = some action) : action.Allowed image := by
  cases request with
  | makeArray elements =>
      cases found
      exact fun value member => admissible value (List.mem_toArray.mp member)
  | detach block =>
      cases found
      exact formed.within.bodies block
  | removeMethod | meet =>
      cases found
      trivial
  | instantiate | setGlobal | readField | writeField =>
      cases found
      exact admissible
  | _ => cases found

/-- A request that runs nothing comes to an action, or it is a definition. -/
theorem action_or_built (formed : image.WellFormed) (admissible : request.Admissible image)
    (still : request.evaluation? = none) :
    (∃ action, request.action? image = some action) ∨
      image.Built (request.serve machine image).2 := by
  cases request with
  | defineClass definition =>
      rw [serve, Response.ofDefining_snd]
      exact Or.inr (Image.defineClass_builds formed definition).built
  | installMethod holder definition =>
      rw [serve, Response.ofDefining_snd]
      exact Or.inr (Image.installMethod_builds formed admissible definition).built
  | prepareMethod holder definition =>
      rw [serve, Response.ofDefining_snd]
      exact Or.inr (Image.prepareMethod_builds formed admissible definition).built
  | send | invoke | deliver | activate => cases still
  | _ => exact Or.inl ⟨_, rfl⟩

/-- What lasts is kept by requests that run nothing, class definitions apart. -/
theorem serve_of_lasting {good : Image → Prop} (lasting : Image.Lasting good)
    (still : request.evaluation? = none)
    (other : ∀ definition, request ≠ .defineClass definition) (holds : good image) :
    good (request.serve machine image).2 := by
  have act : ∀ action, request.action? image = some action → action.registers = false →
      good (request.serve machine image).2 := by
    intro action found registers
    rw [serve_of_action? found]
    exact lasting image action registers holds
  cases request with
  | defineClass definition => exact absurd rfl (other definition)
  | installMethod holder definition =>
      rw [serve, Response.ofDefining_snd]
      exact Image.installMethod_leaves (lasting.withstands fun _ => True) holds holder trivial
  | prepareMethod holder definition =>
      rw [serve, Response.ofDefining_snd]
      exact Image.prepareMethod_leaves (lasting.withstands fun _ => True) holds holder definition
  | send | invoke | deliver | activate => cases still
  | _ => exact act _ rfl rfl

open Discipline in
/-- What no evaluation puts an end to is kept by the requests that are evaluated. -/
theorem serve_of_enduring {good : Image → Prop} (enduring : Image.Enduring good) (budget : Nat)
    {request : Request} {image : Image} {body : Machine → Eval Value}
    (evaluation : request.evaluation? = some body) (holds : good image) :
    good (request.serve (.ofBudget budget) image).2 := by
  have laws := keeping_laws enduring
  have trusts : (keeping good).Trusts (.ofBudget budget) image body :=
    fun _ _ _ holds _ _ => faithful laws budget holds trivial trivial
  have evaluates : (keeping good).Evaluates (.ofBudget budget) image body :=
    request_keeps_of_any laws (fun _ _ => trivial) (fun _ _ => trivial) holds evaluation
  rw [serve_of_evaluation evaluation]
  exact (evaluates trusts).yields.left_holds

end Request

open Discipline

/-- What a discipline says of images holds at every moment of a session whose requests keep to
it. -/
theorem Discipline.always {D : Discipline} {session : Session} (laws : D.Laws)
    (begun : ∀ {running below}, session.Underway (running :: below) → D.Begun running)
    (start : D.Holds session.start)
    (still : ∀ {request image}, session.Serves request image → request.evaluation? = none →
      D.Holds image → D.Holds (request.serve (.ofBudget session.budget) image).2)
    (evaluates : ∀ {request image body}, session.Serves request image →
      request.evaluation? = some body → D.Holds image →
      D.Evaluates (.ofBudget session.budget) image body) : session.Always D.Holds := by
  have hosts : D.Hosts session := .of_requests laws begun start still evaluates
  have along := session.serves_induction start fun {request image} serves holds => by
    cases evaluation : request.evaluation? with
    | none => exact still serves evaluation holds
    | some body =>
        rw [Request.serve_of_evaluation evaluation]
        exact (hosts.obeys laws serves evaluation).yields.left_holds
  refine ⟨along.1, along.2, fun moment => ?_, fun moment => ?_, fun moment _ _ _ evaluates => ?_⟩
  · exact (hosts.underway laws moment).1
  · exact (hosts.yields laws moment).left_holds
  · cases evaluates with
    | intro opened visits => exact (hosts.visit laws moment opened visits).ready.holds

/-- What lasts, and is kept by the class definitions of a session, holds at every moment of it. -/
theorem Session.always_of_lasting {session : Session} {good : Image → Prop}
    (lasting : Image.Lasting good) (start : good session.start)
    (defined : ∀ {definition image}, session.Serves (.defineClass definition) image → good image →
      good ((Request.defineClass definition).serve (.ofBudget session.budget) image).2) :
    session.Always good := by
  have laws := keeping_laws lasting.enduring
  refine Discipline.always laws (fun _ => trivial) start ?_ fun _ evaluation holds =>
    request_keeps_of_any laws (fun _ _ => trivial) (fun _ _ => trivial) holds evaluation
  intro request image serves still holds
  by_cases definition : ∃ definition, request = .defineClass definition
  · obtain ⟨definition, rfl⟩ := definition
    exact defined serves holds
  · exact Request.serve_of_lasting lasting still (not_exists.mp definition) holds

/-- A request that mentions existing things only is served by allowed actions. -/
theorem Request.serve_reaches {image : Image} (formed : image.WellFormed) {request : Request}
    (admissible : request.Admissible image) (budget : Nat) :
    ∃ actions, image.Reaches actions (request.serve (.ofBudget budget) image).2 := by
  have served := Correspondence.Hosting.serve_served
    (@Correspondence.Diagonal.hosting_laws image True formed) Correspondence.Diagonal.laws
    (Correspondence.Diagonal.partners budget) ⟨rfl, [], .start, List.forall_mem_nil _⟩ trivial
    admissible fun _ => trivial
  obtain ⟨-, actions, reached, -⟩ := served.link id
  exact ⟨actions, reached⟩

end MessageMachine
