import MessageMachine.Proofs.Moments

/-!
# What definitions leave alone

Defining classes and methods, and whatever else a host asks for without running anything, leaves
frames and blocks alone and brings in no methods but prepared ones.  Nor do the simple actions of an
evaluation touch methods, blocks or frames.
-/

namespace MessageMachine

/-- Whether the code of a method, if it has any, came out of preparation. -/
def Method.IsPrepared (method : Method) : Prop :=
  ∀ routine, method.behavior = .defined routine →
    ∃ definition : Source.MethodDefinition, ∃ surroundings draft after,
      definition.prepare surroundings draft = .ok routine after

/-- Whether an action has to do with neither methods nor blocks nor frames. -/
def Action.IsSimple : Action → Prop
  | .makeBlock _ => False
  | .enter _ => False
  | .setSlot _ _ _ _ => False
  | .leave _ => False
  | .install _ _ _ => False
  | _ => True

namespace Image

/-- Whether an image differs from another one by definitions, and by what is not run. -/
structure Develops (before after : Image) : Prop where
  blocks : after.heap.blocks = before.heap.blocks
  frames : after.heap.frames = before.heap.frames
  methods : ∀ ref, after.methodAt ref = before.methodAt ref ∨ (after.methodAt ref).IsPrepared

namespace Develops

variable {before between after : Image}

theorem of_eq (methods : after.methods = before.methods)
    (blocks : after.heap.blocks = before.heap.blocks)
    (frames : after.heap.frames = before.heap.frames) : before.Develops after where
  blocks := blocks
  frames := frames
  methods := fun ref => Or.inl (by rw [methodAt, methods, ← methodAt])

theorem refl (image : Image) : image.Develops image :=
  .of_eq rfl rfl rfl

theorem trans (first : before.Develops between) (second : between.Develops after) :
    before.Develops after where
  blocks := second.blocks.trans first.blocks
  frames := second.frames.trans first.frames
  methods := fun ref => by
    rcases second.methods ref with same | prepared
    · rw [same]
      exact first.methods ref
    · exact Or.inr prepared

theorem note (image : Image) (describe : Image → Event) :
    image.Develops (image.note describe) := by
  rw [note_eq]
  exact .of_eq rfl rfl rfl

theorem addMethod (image : Image) (holder : ClassRef) (selector : Selector) {behavior : Behavior}
    (prepared : ({ holder, selector, behavior } : Method).IsPrepared) :
    image.Develops (image.addMethod holder selector behavior) := by
  obtain ⟨journal, installed⟩ := image.addMethod_eq holder selector behavior
  rw [installed]
  refine ⟨rfl, rfl, fun ref => ?_⟩
  simp only [methodAt, Arena.get_push]
  split
  · exact Or.inr prepared
  · exact Or.inl rfl

end Develops

end Image

/-- A simple action leaves methods, blocks and frames alone. -/
theorem Action.IsSimple.perform {action : Action} (simple : action.IsSimple) (image : Image) :
    (action.perform image).methods = image.methods ∧
      (action.perform image).heap.blocks = image.heap.blocks ∧
      (action.perform image).heap.frames = image.heap.frames := by
  have anything : ∀ value : Value, value.IsPlain → value.IsNormal → True :=
    fun _ _ _ => trivial
  have tending : ∀ {after}, Image.Tended (fun _ => True) image after →
      after.methods = image.methods ∧ after.heap.blocks = image.heap.blocks ∧
        after.heap.frames = image.heap.frames :=
    fun tended => ⟨tended.methods, tended.blocks, tended.frames⟩
  cases action with
  | readField receiver index => exact tending (Image.readField_tended anything image receiver index)
  | writeField receiver index value =>
      exact tending (Image.writeField_tended anything image receiver index trivial)
  | readFieldAt site receiver index =>
      exact tending (Image.readFieldAt_tended anything image site receiver index)
  | writeFieldAt site receiver index value =>
      exact tending (Image.writeFieldAt_tended anything image site receiver index trivial)
  | resolve site selector receiver =>
      obtain ⟨calls, journal, -, result⟩ := image.lookupAt_eq site selector receiver
      rw [Action.perform, result]
      exact ⟨rfl, rfl, rfl⟩
  | resolveSuper site origin selector =>
      obtain ⟨calls, -, result⟩ := image.lookupSuperAt_eq site origin selector
      rw [Action.perform, result]
      exact ⟨rfl, rfl, rfl⟩
  | makeBlock | enter | setSlot | leave | install => exact simple.elim
  | _ => exact ⟨rfl, rfl, rfl⟩

theorem Action.IsSimple.develops {action : Action} (simple : action.IsSimple) (image : Image) :
    image.Develops (action.perform image) :=
  have same := simple.perform image
  .of_eq same.1 same.2.1 same.2.2

/-- The image that a definition leaves, flawed or not. -/
def Defining.left {Answer : Type} : EStateM.Result Flaw Image Answer → Image
  | .ok _ image => image
  | .error _ image => image

/-- Whether work on definitions succeeds can be read off its result. -/
theorem Defining.run'_eq {Answer : Type} (work : Defining Answer) (image : Image) :
    work.run' image =
      match work image with
      | .ok answer _ => some answer
      | .error _ _ => none := by
  delta EStateM.run' EStateM.run
  cases work image <;> rfl

/-- What comes after a look at the image goes on from it. -/
theorem Defining.get_bind {Next : Type} (next : Image → Defining Next) (image : Image) :
    (get >>= next) image = next image image :=
  rfl

/-- What a definition leaves is left by the request for it. -/
theorem Response.ofDefining_snd {Answer : Type} (respond : Answer → Response)
    (result : EStateM.Result Flaw Image Answer) :
    (Response.ofDefining respond result).2 = Defining.left result := by
  cases result <;> rfl

/-- Whether work on definitions leaves frames and blocks alone and brings in prepared methods
only. -/
def Defining.Develops {Answer : Type} (work : Defining Answer) : Prop :=
  ∀ image : Image, image.Develops (Defining.left (work image))

namespace Defining.Develops

variable {Answer Next : Type} {work : Defining Answer} {next : Answer → Defining Next}

theorem pure (answer : Answer) : Defining.Develops (Pure.pure answer) :=
  fun image => .refl image

theorem throw (flaw : Flaw) : Defining.Develops (MonadExcept.throw flaw : Defining Answer) :=
  fun image => .refl image

theorem modifyGet {change : Image → Answer × Image}
    (developed : ∀ image : Image, image.Develops (change image).2) :
    Defining.Develops (MonadState.modifyGet change) :=
  fun image => developed image

theorem note (describe : Image → Event) :
    Defining.Develops (modify fun image => image.note describe) :=
  fun image => .note image describe

/-- One piece of work after the other, knowing what the first one answered. -/
theorem bind_of_eq (first : Defining.Develops work)
    (second : ∀ {answer image after}, work image = .ok answer after →
      Defining.Develops (next answer)) : Defining.Develops (work >>= next) := by
  intro image
  have begun := first image
  simp only [Bind.bind, EStateM.bind]
  cases result : work image with
  | error flaw after =>
      rw [result] at begun
      exact begun
  | ok answer between =>
      rw [result] at begun
      exact begun.trans (second result between)

theorem bind (first : Defining.Develops work) (second : ∀ answer, Defining.Develops (next answer)) :
    Defining.Develops (work >>= next) :=
  bind_of_eq first fun {answer} _ _ _ => second answer

theorem get_bind {next : Image → Defining Next} (second : ∀ image, Defining.Develops (next image)) :
    Defining.Develops (get >>= next) :=
  fun image => second image image

end Defining.Develops

namespace Image

theorem prepareMethod_develops (holder : ClassRef) (definition : Source.MethodDefinition) :
    Defining.Develops (prepareMethod holder definition) := by
  intro image
  unfold prepareMethod
  cases definition.prepare (image.surroundings holder definition.selector) image.draft with
  | ok routine draft => exact .of_eq rfl rfl rfl
  | error flaw draft => exact .of_eq rfl rfl rfl

/-- Preparing a method for a class is preparing its definition. -/
theorem exists_prepare_of_prepareMethod {holder : ClassRef} {definition : Source.MethodDefinition}
    {routine : Routine} {image after : Image}
    (success : prepareMethod holder definition image = .ok routine after) :
    ∃ surroundings draft draftAfter,
      definition.prepare surroundings draft = .ok routine draftAfter := by
  unfold prepareMethod at success
  cases prepared : definition.prepare (image.surroundings holder definition.selector)
      image.draft with
  | error flaw draft =>
      rw [prepared] at success
      cases success
  | ok other draft =>
      rw [prepared] at success
      cases success
      exact ⟨_, _, _, prepared⟩

/-- What preparation answers is a prepared routine. -/
theorem isPrepared_of_prepareMethod {holder : ClassRef} {definition : Source.MethodDefinition}
    {routine : Routine} {image after : Image}
    (success : prepareMethod holder definition image = .ok routine after) (selector : Selector) :
    ({ holder, selector, behavior := .defined routine } : Method).IsPrepared := by
  intro found same
  cases same
  exact ⟨definition, exists_prepare_of_prepareMethod success⟩

theorem installMethod_develops (holder : ClassRef) (definition : Source.MethodDefinition) :
    Defining.Develops (installMethod holder definition) := by
  have bodiless : ∀ {behavior : Behavior}, behavior.Bodiless →
      ({ holder, selector := definition.selector, behavior } : Method).IsPrepared := by
    intro behavior bodiless routine same
    cases same
    exact bodiless.elim
  unfold installMethod
  split
  · refine .get_bind fun image => ?_
    dsimp only
    split
    · exact .modifyGet fun image => .addMethod image holder _ (bodiless trivial)
    · refine .bind (.note _) fun _ => ?_
      exact .modifyGet fun image => .addMethod image holder _ (bodiless trivial)
  · refine .bind_of_eq (prepareMethod_develops holder definition) fun success => ?_
    exact .modifyGet fun image =>
      .addMethod image holder _ (isPrepared_of_prepareMethod success _)

theorem installMethods_develop (holder : ClassRef) (definitions : List Source.MethodDefinition) :
    Defining.Develops (installMethods holder definitions) := by
  induction definitions with
  | nil => exact .pure ()
  | cons definition rest inductionHypothesis =>
      exact .bind (installMethod_develops holder definition) fun _ => inductionHypothesis

theorem checkFields_develops (className : String) (inherited declared : List String) :
    Defining.Develops (checkFields className inherited declared) := by
  unfold checkFields
  split
  · exact .throw _
  · exact .pure _

theorem findSuperclass_develops (definition : Source.ClassDefinition) :
    Defining.Develops (findSuperclass definition) := by
  unfold findSuperclass
  refine .get_bind fun image => ?_
  split
  · exact .pure _
  · split
    · exact .pure _
    · exact .throw _
    · exact .throw _

theorem defineClass_develops (definition : Source.ClassDefinition) :
    Defining.Develops (defineClass definition) := by
  unfold defineClass
  refine .bind (findSuperclass_develops definition) fun superclass => ?_
  refine .get_bind fun image => ?_
  refine .bind (checkFields_develops _ _ _) fun _ => ?_
  refine .bind (checkFields_develops _ _ _) fun _ => ?_
  refine .bind (.modifyGet fun image => ?_) fun ref => ?_
  · rw [registerPair_eq]
    exact .of_eq rfl rfl rfl
  refine .get_bind fun image => ?_
  refine .bind (installMethods_develop _ _) fun _ => ?_
  refine .bind (installMethods_develop _ _) fun _ => ?_
  refine .bind (.modifyGet fun image => .of_eq rfl rfl rfl) fun previous => ?_
  have ending : Defining.Develops (do
      modify fun image => image.note fun image =>
        let type := image.classAt ref
        .classDefined definition.name type.fields.length type.methods.size
      return ref) :=
    .bind (.note _) fun _ => .pure _
  split
  · exact .bind (.note _) fun _ => ending
  · exact ending

end Image

/-- Whether a request makes a block that has lost its frame. -/
def Request.Detaches : Request → Prop
  | .detach _ => True
  | _ => False

instance (request : Request) : Decidable request.Detaches :=
  match request with
  | .detach _ => .isTrue trivial
  | .defineClass _ => .isFalse id
  | .installMethod _ _ => .isFalse id
  | .prepareMethod _ _ => .isFalse id
  | .removeMethod _ _ => .isFalse id
  | .instantiate _ => .isFalse id
  | .makeArray _ => .isFalse id
  | .send _ _ _ => .isFalse id
  | .invoke _ _ _ => .isFalse id
  | .deliver _ _ => .isFalse id
  | .activate _ => .isFalse id
  | .meet _ => .isFalse id
  | .setGlobal _ _ => .isFalse id
  | .readField _ _ => .isFalse id
  | .writeField _ _ _ => .isFalse id

namespace Request

variable {machine : Machine} {request : Request}

/-- Requests that run nothing and take no frame from a block. -/
theorem serve_develops (still : request.evaluation? = none) (keeping : ¬ request.Detaches)
    (image : Image) : image.Develops (request.serve machine image).2 := by
  cases request with
  | defineClass definition =>
      have developed := Image.defineClass_develops definition image
      rwa [← Response.ofDefining_snd] at developed
  | installMethod holder definition =>
      have developed := Image.installMethod_develops holder definition image
      rwa [← Response.ofDefining_snd] at developed
  | prepareMethod holder definition =>
      have developed := Image.prepareMethod_develops holder definition image
      rwa [← Response.ofDefining_snd] at developed
  | readField receiver index =>
      have simple : (Action.readField receiver index).IsSimple := trivial
      exact simple.develops image
  | writeField receiver index value =>
      have simple : (Action.writeField receiver index value).IsSimple := trivial
      exact simple.develops image
  | detach block => exact absurd trivial keeping
  | send | invoke | deliver | activate => cases still
  | _ => exact .of_eq rfl rfl rfl

/-- Requests that run nothing leave the frames alone. -/
theorem serve_frames (still : request.evaluation? = none) (image : Image) :
    (request.serve machine image).2.heap.frames = image.heap.frames := by
  by_cases detaches : request.Detaches
  · cases request <;> first | exact detaches.elim | rfl
  · exact (serve_develops still detaches image).frames

end Request

end MessageMachine
