import MessageMachine.Proofs.Correspondence.Activations

/-!
# Serving a host side by side

A host asks both machines for the same.  Requests that run something are covered by the
correspondence of evaluations; here definitions are added, which change what programs there are.
What a correspondence has to show for them is what one registration, one binding, one installation
and one preparation come to.

Requests mention things that exist: a host gets hold of a value only by being told of it.
-/

namespace MessageMachine

namespace Request

/-- Whether a request mentions existing things only. -/
def Admissible (image : Image) : Request → Prop
  | .defineClass _ => True
  | .installMethod holder _ => image.classes.Has holder
  | .prepareMethod holder _ => image.classes.Has holder
  | .removeMethod holder _ => image.classes.Has holder
  | .instantiate owner => image.classes.Has owner
  | .makeArray elements => Value.AllExist image elements
  | .detach block => image.heap.blocks.Has block
  | .send _ receiver operands => Value.AllExist image (receiver :: operands)
  | .invoke _ receiver operands => Value.AllExist image (receiver :: operands)
  | .deliver _ arguments => Value.AllExist image arguments
  | .activate activation => activation.Known image
  | .meet _ => True
  | .setGlobal _ value => value.Exists image
  | .readField receiver _ => receiver.Exists image
  | .writeField receiver _ value => receiver.Exists image ∧ value.Exists image

instance (image : Image) (request : Request) : Decidable (request.Admissible image) :=
  match request with
  | .defineClass _ => .isTrue trivial
  | .installMethod holder _ => inferInstanceAs (Decidable (image.classes.Has holder))
  | .prepareMethod holder _ => inferInstanceAs (Decidable (image.classes.Has holder))
  | .removeMethod holder _ => inferInstanceAs (Decidable (image.classes.Has holder))
  | .instantiate owner => inferInstanceAs (Decidable (image.classes.Has owner))
  | .makeArray elements => inferInstanceAs (Decidable (Value.AllExist image elements))
  | .detach block => inferInstanceAs (Decidable (image.heap.blocks.Has block))
  | .send _ receiver operands =>
      inferInstanceAs (Decidable (Value.AllExist image (receiver :: operands)))
  | .invoke _ receiver operands =>
      inferInstanceAs (Decidable (Value.AllExist image (receiver :: operands)))
  | .deliver _ arguments => inferInstanceAs (Decidable (Value.AllExist image arguments))
  | .activate activation => inferInstanceAs (Decidable (activation.Known image))
  | .meet _ => .isTrue trivial
  | .setGlobal _ value => inferInstanceAs (Decidable (value.Exists image))
  | .readField receiver _ => inferInstanceAs (Decidable (receiver.Exists image))
  | .writeField receiver _ value =>
      inferInstanceAs (Decidable (receiver.Exists image ∧ value.Exists image))

/-- Whether a request takes a method out of a dictionary. -/
def removes : Request → Bool
  | .removeMethod _ _ => true
  | _ => false

/-- Whether a condition holds of each request of a session, in the image that it is served in. -/
def Throughout (machine : Machine) (condition : Image → Request → Prop) :
    List Request → Image → Prop
  | [], _ => True
  | request :: rest, image =>
      condition image request ∧ Throughout machine condition rest (request.serve machine image).2

instance Throughout.decidable (machine : Machine) (condition : Image → Request → Prop)
    [∀ image request, Decidable (condition image request)] :
    ∀ requests image, Decidable (Throughout machine condition requests image)
  | [], _ => .isTrue trivial
  | request :: rest, image =>
      have := Throughout.decidable machine condition rest (request.serve machine image).2
      inferInstanceAs (Decidable (condition image request ∧
        Throughout machine condition rest (request.serve machine image).2))

end Request

/-- What is so of all answers and of all flaws is so of the response to a definition. -/
theorem Response.ofDefining_fst {motive : Response → Prop} {Answer : Type}
    {respond : Answer → Response} (answered : ∀ answer, motive (respond answer))
    (flawed : ∀ flaw, motive (.flawed flaw)) (result : EStateM.Result Flaw Image Answer) :
    motive (Response.ofDefining respond result).1 := by
  cases result with
  | ok answer image => exact answered answer
  | error flaw image => exact flawed flaw

/-- Whether a response shows a routine. -/
def Response.showsRoutine : Response → Bool
  | .prepared _ => true
  | _ => false

theorem Response.showsRoutine_ofOption (value : Option Value) :
    (Response.ofOption value).showsRoutine = false := by
  cases value <;> rfl

namespace Correspondence

/-- Two machines that serve the same host. -/
structure Hosting where
  /-- Whether two images can be served side by side. -/
  Link : Image → Image → Prop
  /-- What a host has to leave intact for evaluations to agree. -/
  Ready : Image → Prop
  /-- Whether two routines are told apart by the correspondence only. -/
  Similar : Routine → Routine → Prop
  /-- Whether methods may be taken out of dictionaries. -/
  removes : Prop

namespace Hosting

variable (H : Hosting)

/-- Preparations of a method that agree, and whose results may be installed. -/
inductive Preparations (holder : ClassRef) (selector : Selector) :
    EStateM.Result Flaw Image Routine → EStateM.Result Flaw Image Routine → Prop
  | ok {routine other : Routine} {after afterToo : Image} : H.Similar routine other →
      H.Link after afterToo → after.classes.Has holder →
      H.Link (after.addMethod holder selector (.defined routine))
        (afterToo.addMethod holder selector (.defined other)) →
      Preparations holder selector (.ok routine after) (.ok other afterToo)
  | error {flaw : Flaw} {after afterToo : Image} : H.Link after afterToo →
      Preparations holder selector (.error flaw after) (.error flaw afterToo)

/-- What two machines that serve the same host have to satisfy. -/
structure Laws (C : Correspondence) : Prop where
  alike : ∀ {image other}, H.Link image other → image.Resembles other
  formed : ∀ {image other}, H.Link image other → image.WellFormed
  staged : ∀ {image other}, H.Link image other → H.Ready image →
    ∃ stage, C.first stage = image ∧ C.second stage = other
  linked : ∀ {stage after}, H.Link (C.first stage) (C.second stage) → C.Later stage after →
    H.Link (C.first after) (C.second after)
  noted : ∀ {image other}, H.Link image other → ∀ describe,
    H.Link (image.note describe) (other.note describe)
  bound : ∀ {image other}, H.Link image other → ∀ name {value : Value}, value.Exists image →
    H.Link (image.setGlobal name value).2 (other.setGlobal name value).2
  registered : ∀ {image other}, H.Link image other → ∀ name {superclass} fields classFields,
    image.classes.Has superclass →
    H.Link ((Action.register name superclass fields classFields).perform image)
      ((Action.register name superclass fields classFields).perform other)
  installed : ∀ {image other}, H.Link image other → ∀ {holder} selector {behavior : Behavior},
    image.classes.Has holder → behavior.Bodiless →
    H.Link (image.addMethod holder selector behavior) (other.addMethod holder selector behavior)
  prepared : ∀ {image other}, H.Link image other → ∀ {holder} definition,
    image.classes.Has holder →
    H.Preparations holder definition.selector (Image.prepareMethod holder definition image)
      (Image.prepareMethod holder definition other)
  detached : ∀ {image other}, H.Link image other → ∀ {block}, image.heap.blocks.Has block →
    H.Link (image.detach block).2 (other.detach block).2
  removed : H.removes → ∀ {image other}, H.Link image other → ∀ holder selector,
    H.Link (image.removeMethod holder selector).2 (other.removeMethod holder selector).2

/-- Definitions that agree.  Classes that exist go on existing. -/
inductive Defined {Answer : Type} (good : Image → Answer → Prop) (image : Image) :
    EStateM.Result Flaw Image Answer → EStateM.Result Flaw Image Answer → Prop
  | ok {answer : Answer} {after afterToo : Image} : H.Link after afterToo →
      image.classes.size ≤ after.classes.size → good after answer →
      Defined good image (.ok answer after) (.ok answer afterToo)
  | error {flaw : Flaw} {after afterToo : Image} : H.Link after afterToo →
      Defined good image (.error flaw after) (.error flaw afterToo)

/-- Definitions that agree when they are made side by side. -/
def Defines {Answer : Type} (good : Image → Answer → Prop) (image other : Image)
    (definition definitionToo : Defining Answer) : Prop :=
  H.Defined good image (definition image) (definitionToo other)

namespace Defines

variable {H} {Answer Next : Type} {good : Image → Answer → Prop} {goodNext : Image → Next → Prop}
  {image other : Image}

theorem pure (link : H.Link image other) {answer : Answer} (known : good image answer) :
    H.Defines good image other (Pure.pure answer) (Pure.pure answer) :=
  .ok link (Nat.le_refl _) known

theorem throw (link : H.Link image other) (flaw : Flaw) :
    H.Defines good image other (MonadExcept.throw flaw) (MonadExcept.throw flaw) :=
  .error link

theorem bind {definition definitionToo : Defining Answer} {next nextToo : Answer → Defining Next}
    (defined : H.Defines good image other definition definitionToo)
    (continued : ∀ after afterToo, H.Link after afterToo →
      image.classes.size ≤ after.classes.size → ∀ answer, good after answer →
      H.Defines goodNext after afterToo (next answer) (nextToo answer)) :
    H.Defines goodNext image other (definition >>= next) (definitionToo >>= nextToo) := by
  unfold Defines at defined ⊢
  simp only [Bind.bind, EStateM.bind]
  generalize definition image = result at defined
  generalize definitionToo other = resultToo at defined
  cases defined with
  | error link => exact .error link
  | @ok answer after afterToo link kept known =>
      have defined := continued after afterToo link kept answer known
      unfold Defines at defined
      dsimp only
      generalize next answer after = final at defined
      generalize nextToo answer afterToo = finalToo at defined
      cases defined with
      | error link => exact .error link
      | ok link keptToo known => exact .ok link (Nat.le_trans kept keptToo) known

/-- Both machines look at their images. -/
theorem get {next nextToo : Image → Defining Answer}
    (defined : H.Defines good image other (next image) (nextToo other)) :
    H.Defines good image other (MonadState.get >>= next) (MonadState.get >>= nextToo) :=
  defined

theorem modifyGet {change : Image → Answer × Image} (same : (change other).1 = (change image).1)
    (link : H.Link (change image).2 (change other).2)
    (kept : image.classes.size ≤ (change image).2.classes.size)
    (known : good (change image).2 (change image).1) :
    H.Defines good image other (MonadState.modifyGet change) (MonadState.modifyGet change) := by
  change H.Defined good image (.ok (change image).1 (change image).2)
    (.ok (change other).1 (change other).2)
  rw [same]
  exact .ok link kept known

theorem modify {change changeToo : Image → Image} (link : H.Link (change image) (changeToo other))
    (kept : image.classes.size ≤ (change image).classes.size) :
    H.Defines (fun _ _ => True) image other (MonadState.modifyGet fun image => ((), change image))
      (MonadState.modifyGet fun image => ((), changeToo image)) :=
  .ok link kept trivial

end Defines

theorem size_classes_note (image : Image) (describe : Image → Event) :
    (image.note describe).classes.size = image.classes.size := by
  rw [Image.note_eq]

theorem size_classes_addMethod (image : Image) (holder : ClassRef) (selector : Selector)
    (behavior : Behavior) :
    (image.addMethod holder selector behavior).classes.size = image.classes.size := by
  obtain ⟨journal, result⟩ := image.addMethod_eq holder selector behavior
  rw [result]
  exact Arena.size_modify _ _ _

section Definitions

variable {H} {C : Correspondence} (laws : H.Laws C) {image other : Image}
include laws

theorem note_defines (link : H.Link image other) (describe : Image → Event) :
    H.Defines (fun _ _ => True) image other (modify fun image => image.note describe)
      (modify fun image => image.note describe) :=
  .modify (laws.noted link describe) (Nat.le_of_eq (size_classes_note _ _).symm)

theorem install_defines (link : H.Link image other) {holder : ClassRef}
    (known : image.classes.Has holder) (selector : Selector) {behavior : Behavior}
    (bodiless : behavior.Bodiless) :
    H.Defines (fun _ _ => True) image other
      (modify fun image => image.addMethod holder selector behavior)
      (modify fun image => image.addMethod holder selector behavior) :=
  .modify (laws.installed link selector known bodiless)
    (Nat.le_of_eq (size_classes_addMethod _ _ _ _).symm)

theorem installMethod_defines (link : H.Link image other) {holder : ClassRef}
    (known : image.classes.Has holder) (definition : Source.MethodDefinition) :
    H.Defines (fun _ _ => True) image other (Image.installMethod holder definition)
      (Image.installMethod holder definition) := by
  unfold Image.installMethod
  split
  · refine Defines.get ?_
    dsimp only
    rw [(laws.alike link).classAt]
    split
    · exact install_defines laws link known _ trivial
    · refine Defines.bind (note_defines laws link _) fun after afterToo link kept _ _ => ?_
      exact install_defines laws link (Nat.lt_of_lt_of_le known kept) _ trivial
  · have prepared := laws.prepared link definition known
    unfold Defines
    simp only [Bind.bind, EStateM.bind]
    have count : ∀ routine after, Image.prepareMethod holder definition image = .ok routine after →
        after.classes = image.classes := by
      intro routine after success
      unfold Image.prepareMethod at success
      split at success
      · cases success
        rfl
      · cases success
    cases first : Image.prepareMethod holder definition image with
    | error flaw after =>
        rw [first] at prepared
        generalize Image.prepareMethod holder definition other = result at prepared
        cases prepared with
        | error link => exact .error link
    | ok routine after =>
        have same := count routine after first
        rw [first] at prepared
        generalize Image.prepareMethod holder definition other = result at prepared
        cases prepared with
        | ok similar link kept installed =>
            refine .ok installed (Nat.le_of_eq ?_) trivial
            rw [size_classes_addMethod, same]

theorem installMethods_defines (definitions : List Source.MethodDefinition) {image other : Image}
    (link : H.Link image other) {holder : ClassRef} (known : image.classes.Has holder) :
    H.Defines (fun _ _ => True) image other (Image.installMethods holder definitions)
      (Image.installMethods holder definitions) := by
  induction definitions generalizing image other with
  | nil => exact .pure link trivial
  | cons definition rest inductionHypothesis =>
      refine Defines.bind (installMethod_defines laws link known definition)
        fun after afterToo link kept _ _ => ?_
      exact inductionHypothesis link (Nat.lt_of_lt_of_le known kept)

omit laws in
theorem checkFields_defines (link : H.Link image other) (className : String)
    (inherited declared : List String) :
    H.Defines (fun _ _ => True) image other (Image.checkFields className inherited declared)
      (Image.checkFields className inherited declared) := by
  unfold Image.checkFields
  split
  · exact .throw link _
  · exact .pure link trivial

theorem findSuperclass_defines (link : H.Link image other)
    (definition : Source.ClassDefinition) :
    H.Defines (fun image ref => image.classes.Has ref) image other
      (Image.findSuperclass definition) (Image.findSuperclass definition) := by
  have alike := laws.alike link
  have formed := laws.formed link
  refine Defines.get ?_
  cases definition.superclass with
  | none =>
      dsimp only
      rw [alike.core]
      exact .pure link (formed.within.core _ (by simp [CoreClasses.inOrder]))
  | some name =>
      dsimp only
      rw [alike.global?]
      cases found : image.global? name with
      | none => exact .throw link _
      | some value =>
          cases value with
          | classObject ref => exact .pure link (formed.exists_of_global? found)
          | _ => exact .throw link _

theorem register_defines (link : H.Link image other) {superclass : ClassRef}
    (known : image.classes.Has superclass) (name : String) (fields classFields : List String) :
    H.Defines (fun image ref => image.classes.Has ref) image other
      (modifyGet fun image => image.registerPair name (some superclass)
        (some image.core.metaclass) fields classFields)
      (modifyGet fun image => image.registerPair name (some superclass)
        (some image.core.metaclass) fields classFields) := by
  refine .modifyGet ?_ (laws.registered link name fields classFields known) ?_ ?_
  · rw [Image.registerPair_eq, Image.registerPair_eq, (laws.alike link).classes]
  · exact (@Action.extends_perform image (.register name superclass fields classFields)
      known).classes
  · rw [Image.registerPair_eq]
    exact (Arena.has_push _ _ _).mpr (Or.inr (by simp [Arena.next]))

theorem defineClass_defines (link : H.Link image other) (definition : Source.ClassDefinition) :
    H.Defines (fun _ _ => True) image other (Image.defineClass definition)
      (Image.defineClass definition) := by
  refine Defines.bind (findSuperclass_defines laws link definition)
    fun image other link _ superclass known => ?_
  have alike := laws.alike link
  refine Defines.get ?_
  dsimp only
  rw [alike.classAt, alike.classAt]
  refine Defines.bind (checkFields_defines link _ _ _) fun image other link kept _ _ => ?_
  refine Defines.bind (checkFields_defines link _ _ _) fun image other link keptToo _ _ => ?_
  have known := Nat.lt_of_lt_of_le known (Nat.le_trans kept keptToo)
  refine Defines.bind (register_defines laws link known _ _ _)
    fun image other link _ ref present => ?_
  refine Defines.get ?_
  rw [(laws.alike link).classAt]
  refine Defines.bind (installMethods_defines laws _ link
    ((laws.formed link).within.metaclasses ref present)) fun image other link kept _ _ => ?_
  have present := Nat.lt_of_lt_of_le present kept
  refine Defines.bind (installMethods_defines laws _ link present)
    fun image other link kept _ _ => ?_
  have present := Nat.lt_of_lt_of_le present kept
  have bound : H.Defines (fun _ _ => True) image other
      (modifyGet fun image => image.setGlobal definition.name (.classObject ref))
      (modifyGet fun image => image.setGlobal definition.name (.classObject ref)) := by
    refine .modifyGet ?_ (laws.bound link definition.name present) (Nat.le_refl _) trivial
    simp only [Image.setGlobal, (laws.alike link).globals]
  refine Defines.bind bound fun image other link kept previous _ => ?_
  have announced : ∀ {image other}, H.Link image other →
      H.Defines (fun _ _ => True) image other
        (do
          modify fun image => image.note fun image =>
            let type := image.classAt ref
            .classDefined definition.name type.fields.length type.methods.size
          return ref)
        (do
          modify fun image => image.note fun image =>
            let type := image.classAt ref
            .classDefined definition.name type.fields.length type.methods.size
          return ref) := fun link =>
    Defines.bind (note_defines laws link _) fun _ _ link _ _ _ => .pure link trivial
  split
  · exact Defines.bind (note_defines laws link _) fun _ _ link _ _ _ => announced link
  · exact announced link

end Definitions

/-- Responses that agree, with the images after them.  Where the correspondence is lenient, nothing
is said about a request that uses up the budget of the first machine. -/
inductive Served (C : Correspondence) : Response × Image → Response × Image → Prop
  | same {response : Response} {after afterToo : Image} : response.showsRoutine = false →
      H.Link after afterToo → Served C (response, after) (response, afterToo)
  | prepared {routine other : Routine} {after afterToo : Image} : H.Similar routine other →
      H.Link after afterToo → Served C (.prepared routine, after) (.prepared other, afterToo)
  | tired {after : Image} {result : Response × Image} : C.lenient →
      Served C (.escaped .exhausted, after) result

theorem Served.link {H : Hosting} {C : Correspondence} (strict : ¬ C.lenient)
    {result other : Response × Image} (served : H.Served C result other) :
    H.Link result.2 other.2 := by
  cases served with
  | same _ link => exact link
  | prepared _ link => exact link
  | tired lenient => exact absurd lenient strict

/-- Whether a request can be served side by side: it mentions existing things only, methods are
taken out of dictionaries only if that is allowed for, and what evaluations rely on is intact. -/
def Serves (image : Image) (request : Request) : Prop :=
  request.Admissible image ∧ (request.removes = true → H.removes) ∧ H.Ready image

/-- Responses that agree. -/
def Answers (response other : Response) : Prop :=
  (response.showsRoutine = false ∧ other = response) ∨
    ∃ routine routineToo, response = .prepared routine ∧ other = .prepared routineToo ∧
      H.Similar routine routineToo

section Requests

variable {H} {C : Correspondence} {image imageToo : Image}

theorem Defined.served {Answer : Type} {good : Image → Answer → Prop}
    {respond : Answer → Response} (plain : ∀ answer, (respond answer).showsRoutine = false)
    {result other : EStateM.Result Flaw Image Answer}
    (defined : H.Defined good image result other) :
    H.Served C (Response.ofDefining respond result) (Response.ofDefining respond other) := by
  cases defined with
  | ok link _ _ => exact .same (plain _) link
  | error link => exact .same rfl link

variable (hosting : H.Laws C)
include hosting

theorem agrees_served {good : Image → Value → Prop} {fine : Image → Escape → Prop}
    {stage : C.Stage} (link : H.Link (C.first stage) (C.second stage))
    {result other : EStateM.Result Escape Image Value}
    (agreed : C.Agrees good fine stage result other) :
    H.Served C (Response.ofEval result) (Response.ofEval other) := by
  cases agreed with
  | ok later _ => exact .same rfl (hosting.linked link later)
  | error later _ => exact .same rfl (hosting.linked link later)
  | tired lenient => exact .tired lenient

/-- An action that is taken in step keeps two images side by side. -/
theorem performed (laws : C.Laws) {stage : C.Stage}
    (link : H.Link (C.first stage) (C.second stage)) (action : Action) (common : action.Common)
    (allowed : action.Allowed (C.first stage)) :
    H.Link (action.perform (C.first stage)) (action.perform (C.second stage)) := by
  obtain ⟨after, reached⟩ := laws.act stage common allowed
  rw [← reached.first, ← reached.second]
  exact hosting.linked link reached.later

/-- One request is served alike. -/
theorem serve_served (laws : C.Laws) {machine other : Machine}
    (partners : C.Partners machine other) {request : Request} (link : H.Link image imageToo)
    (ready : H.Ready image) (admissible : request.Admissible image)
    (allowed : request.removes = true → H.removes) :
    H.Served C (request.serve machine image) (request.serve other imageToo) := by
  cases request with
  | defineClass definition =>
      exact (defineClass_defines hosting link definition).served fun _ => rfl
  | installMethod holder definition =>
      exact (installMethod_defines hosting link admissible definition).served fun _ => rfl
  | prepareMethod holder definition =>
      have prepared := hosting.prepared link definition admissible
      simp only [Request.serve]
      generalize Image.prepareMethod holder definition image = result at prepared
      generalize Image.prepareMethod holder definition imageToo = resultToo at prepared
      cases prepared with
      | ok similar link _ _ => exact .prepared similar link
      | error link => exact .same rfl link
  | removeMethod holder selector =>
      have removed := hosting.removed (allowed rfl) link holder selector
      simp only [Request.serve, Image.removeMethod] at removed ⊢
      rw [(hosting.alike link).classAt]
      exact .same rfl removed
  | detach block =>
      have detached := hosting.detached link admissible
      simp only [Request.serve, Image.detach] at detached ⊢
      rw [(hosting.alike link).nextBlock]
      exact .same rfl detached
  | setGlobal name value =>
      have bound := hosting.bound link name admissible
      simp only [Request.serve, Image.setGlobal] at bound ⊢
      rw [(hosting.alike link).globals]
      rw [(hosting.alike link).globals] at bound
      exact .same (Response.showsRoutine_ofOption _) bound
  | instantiate owner =>
      obtain ⟨stage, rfl, rfl⟩ := hosting.staged link ready
      exact agrees_served hosting link (laws.makeObject admissible : C.Operates _ _ _)
  | makeArray elements =>
      obtain ⟨stage, rfl, rfl⟩ := hosting.staged link ready
      exact agrees_served hosting link (laws.makeArray
        fun value member => admissible value (List.mem_toArray.mp member) : C.Operates _ _ _)
  | send selector receiver operands =>
      obtain ⟨stage, rfl, rfl⟩ := hosting.staged link ready
      refine agrees_served hosting link (complete_evaluates laws ?_)
      exact Matches.bind laws (laws.meet selector) fun after later _ _ =>
        send_evaluates laws partners selector (laws.monoAll later admissible)
  | invoke method receiver operands =>
      obtain ⟨stage, rfl, rfl⟩ := hosting.staged link ready
      exact agrees_served hosting link
        (complete_evaluates laws (partners.method method admissible))
  | deliver selector arguments =>
      obtain ⟨stage, rfl, rfl⟩ := hosting.staged link ready
      exact agrees_served hosting link (send_evaluates laws partners selector admissible)
  | activate activation =>
      obtain ⟨stage, rfl, rfl⟩ := hosting.staged link ready
      exact agrees_served hosting link (partners.activate admissible)
  | meet name =>
      obtain ⟨stage, rfl, rfl⟩ := hosting.staged link ready
      exact .same rfl (performed hosting laws link (.meet [name]) trivial trivial)
  | readField receiver index =>
      obtain ⟨stage, rfl, rfl⟩ := hosting.staged link ready
      have shared := performed hosting laws link (.readField receiver index) trivial admissible
      simp only [Request.serve, (hosting.alike link).readField]
      exact .same (Response.showsRoutine_ofOption _) shared
  | writeField receiver index value =>
      obtain ⟨stage, rfl, rfl⟩ := hosting.staged link ready
      have shared := performed hosting laws link (.writeField receiver index value) trivial
        admissible
      simp only [Request.serve, (hosting.alike link).writeField]
      refine .same ?_ shared
      split <;> rfl

/-- A session is served alike.  Where the correspondence is lenient, none of its requests may use up
the budget of the first machine. -/
theorem serveAll_served (laws : C.Laws) {machine other : Machine}
    (partners : C.Partners machine other) (requests : List Request) (link : H.Link image imageToo)
    (serves : Request.Throughout machine H.Serves requests image)
    (finished : C.lenient → ∀ response ∈ (Request.serveAll machine requests image).1,
      response ≠ .escaped .exhausted) :
    List.Forall₂ H.Answers (Request.serveAll machine requests image).1
        (Request.serveAll other requests imageToo).1 ∧
      H.Link (Request.serveAll machine requests image).2
        (Request.serveAll other requests imageToo).2 := by
  induction requests generalizing image imageToo with
  | nil => exact ⟨.nil, link⟩
  | cons request rest inductionHypothesis =>
      obtain ⟨⟨admissible, allowed, ready⟩, later⟩ := serves
      have served := serve_served hosting laws partners link ready admissible allowed
      simp only [Request.serveAll] at finished ⊢
      generalize request.serve machine image = result at served later finished
      generalize request.serve other imageToo = resultToo at served
      cases served with
      | tired lenient => exact absurd rfl (finished lenient _ List.mem_cons_self)
      | same plain link =>
          obtain ⟨responses, final⟩ := inductionHypothesis link later
            fun lenient response member => finished lenient response (List.mem_cons_of_mem _ member)
          exact ⟨.cons (Or.inl ⟨plain, rfl⟩) responses, final⟩
      | prepared similar link =>
          obtain ⟨responses, final⟩ := inductionHypothesis link later
            fun lenient response member => finished lenient response (List.mem_cons_of_mem _ member)
          exact ⟨.cons (Or.inr ⟨_, _, rfl, rfl, similar⟩) responses, final⟩

end Requests

end Hosting

end Correspondence

end MessageMachine
