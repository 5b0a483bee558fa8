import Mathlib.Data.List.Forall2
import MessageMachine.Machine.Activation
import MessageMachine.Proofs.Correspondence.Resemblance

/-!
# Two ways of running a program

A correspondence is a way of running two machines side by side.  Its stages are the pairs of images
that they can be in at the same time, and its laws say that each step of an evaluation takes a
stage to a later stage.  What two evaluations have in common is then said once: started in one
stage, they answer the same or escape with the same, and leave the images of a later stage.

A correspondence may be lenient about the budget of the first machine.  Nothing is said then about
an evaluation that uses it up, and where the first machine does get through, the second one does.
-/

namespace MessageMachine

/-- Whether the values that an escape carries exist. -/
def Escape.Known (image : Image) : Escape → Prop
  | .unwinding value _ => value.Exists image
  | _ => True

/-- Whether the values that an escape carries exist, and it is not the report of an operation that
its arguments are of the wrong kinds.  Such reports end at the invocation of the operation. -/
def Escape.Settled (image : Image) : Escape → Prop
  | .unwinding value _ => value.Exists image
  | .failed exception => ∀ operation, exception.failure ≠ .typeMismatch operation
  | .exhausted => True
  | .stopped => True

theorem Escape.Settled.known {image : Image} {escape : Escape} (settled : escape.Settled image) :
    escape.Known image := by
  cases escape <;> trivial

/-- Whether all of some values exist. -/
def Value.AllExist (image : Image) (values : List Value) : Prop :=
  ∀ value ∈ values, value.Exists image

instance (image : Image) (values : List Value) : Decidable (Value.AllExist image values) :=
  inferInstanceAs (Decidable (∀ value ∈ values, value.Exists image))

namespace Value.AllExist

variable {image : Image} {value : Value} {values : List Value}

theorem nil (image : Image) : Value.AllExist image [] :=
  fun _ member => by cases member

theorem cons (known : value.Exists image) (allKnown : Value.AllExist image values) :
    Value.AllExist image (value :: values) :=
  List.forall_mem_cons.mpr ⟨known, allKnown⟩

theorem head (allKnown : Value.AllExist image (value :: values)) : value.Exists image :=
  allKnown value List.mem_cons_self

theorem tail (allKnown : Value.AllExist image (value :: values)) : Value.AllExist image values :=
  (List.forall_mem_cons.mp allKnown).2

theorem mono {before after : Image} {values : List Value}
    (known : Value.AllExist before values) (later : before.Extends after) :
    Value.AllExist after values :=
  fun value member => (known value member).mono later

end Value.AllExist

/-- Whether the values that an activation mentions exist.  A method that does not exist has no
implementation, and invoking it fails. -/
def Activation.Known (image : Image) : Activation → Prop
  | .method _ arguments => Value.AllExist image arguments
  | .block ref arguments => image.heap.blocks.Has ref ∧ Value.AllExist image arguments

instance (image : Image) (activation : Activation) : Decidable (activation.Known image) :=
  match activation with
  | .method _ arguments => inferInstanceAs (Decidable (Value.AllExist image arguments))
  | .block ref arguments =>
      inferInstanceAs (Decidable (image.heap.blocks.Has ref ∧ Value.AllExist image arguments))

/-- The frame for a call of a block. -/
def Image.blockFrame (image : Image) (ref : BlockRef) (arguments : List Value) : Frame :=
  let closure := image.blockAt ref
  let receiver := match closure.captured with
    | some parent => (image.frameAt parent).receiver
    | none => .nil
  .ofBlock closure.captured receiver arguments closure.temporaries

theorem Frame.all_ofMethod {good : Value → Prop} (plain : good .nil) (method : MethodRef)
    {receiver : Value} (known : good receiver) {operands : List Value}
    (allKnown : ∀ value ∈ operands, good value) (temporaries : Nat) :
    (Frame.ofMethod method receiver operands temporaries).All good where
  receiver := known
  arguments := fun value member => allKnown value (List.mem_toArray.mp member)
  temporaries := fun value member => by
    rw [(Array.mem_replicate.mp member).2]
    exact plain

/-- The frame of a block holds nothing but the arguments, nil and the receiver of another frame. -/
theorem Image.all_blockFrame {good : Value → Prop} (plain : good .nil) {image : Image}
    (receivers : ∀ ref, good (image.frameAt ref).receiver) (ref : BlockRef)
    {arguments : List Value} (allKnown : ∀ value ∈ arguments, good value) :
    (image.blockFrame ref arguments).All good where
  receiver := by
    unfold Image.blockFrame Frame.ofBlock
    dsimp only
    split
    · exact receivers _
    · exact plain
  arguments := fun value member => allKnown value (List.mem_toArray.mp member)
  temporaries := fun value member => by
    rw [(Array.mem_replicate.mp member).2]
    exact plain

/-- What the frame of a block holds exists. -/
theorem Image.WellFormed.all_blockFrame {image : Image} (formed : image.WellFormed)
    (ref : BlockRef) {arguments : List Value} (allKnown : Value.AllExist image arguments) :
    (image.blockFrame ref arguments).All (·.Exists image) :=
  Image.all_blockFrame trivial (fun ref => (formed.within.frames ref).receiver) ref allKnown

/-- Two machines side by side. -/
structure Correspondence where
  /-- What the two images can be at the same time. -/
  Stage : Type
  first : Stage → Image
  second : Stage → Image
  /-- Whether a stage comes after another one. -/
  Later : Stage → Stage → Prop
  /-- Whether two expressions do the same in a frame. -/
  Fits : Stage → FrameRef → Code → Code → Prop
  /-- Whether nothing is said about evaluations that use up the budget of the first machine. -/
  lenient : Prop

namespace Correspondence

variable (C : Correspondence)

/-- A stage in which both images took a step. -/
structure Reached (stage : C.Stage) (first second : Image) (after : C.Stage) : Prop where
  later : C.Later stage after
  first : C.first after = first
  second : C.second after = second

/-- Whether both machines take a frame to have the same receiver. -/
def SameReceiver (stage : C.Stage) (frame : FrameRef) : Prop :=
  ((C.second stage).frameAt frame).receiver = ((C.first stage).frameAt frame).receiver

/-- Expressions that do the same step by step.  There is a case for each kind of expression, and two
for a control message on one side that is an ordinary send on the other side. -/
inductive Paired (stage : C.Stage) (frame : FrameRef) : Code → Code → Prop
  | self : C.SameReceiver stage frame → Paired stage frame .self .self
  | read {slot : Slot} :
      (C.second stage).slot? frame slot = (C.first stage).slot? frame slot →
      Paired stage frame (.read slot) (.read slot)
  | write {slot : Slot} {value other : Code} :
      (C.second stage).slotHome? frame slot = (C.first stage).slotHome? frame slot →
      C.Fits stage frame value other →
      Paired stage frame (.write slot value) (.write slot other)
  | readField {site : FieldSiteRef} {index : Nat} : C.SameReceiver stage frame →
      (C.first stage).AccessesField site index →
      Paired stage frame (.readField site index) (.readField site index)
  | writeField {site : FieldSiteRef} {index : Nat} {value other : Code} :
      C.SameReceiver stage frame →
      (C.first stage).AccessesField site index →
      C.Fits stage frame value other →
      Paired stage frame (.writeField site index value) (.writeField site index other)
  | global {name : String} : C.SameReceiver stage frame →
      Paired stage frame (.global name) (.global name)
  | literal {datum : Datum} : Paired stage frame (.literal datum) (.literal datum)
  | block {parameters temporaries : Nat} {captures capturesToo : Bool} {body other : List Code} :
      (∃ after, C.Reached stage
        ((C.first stage).addBlock
          { captured := if captures then some frame else none, parameters, temporaries, body })
        ((C.second stage).addBlock
          { captured := if capturesToo then some frame else none, parameters, temporaries,
            body := other }) after) →
      Paired stage frame (.block parameters temporaries captures body)
        (.block parameters temporaries capturesToo other)
  | send {site : CallSiteRef} {selector : Selector} {receiver receiverToo : Code}
      {operands operandsToo : List Code} :
      (C.first stage).Sends site selector →
      C.Fits stage frame receiver receiverToo →
      List.Forall₂ (C.Fits stage frame) operands operandsToo →
      Paired stage frame (.send site selector receiver operands)
        (.send site selector receiverToo operandsToo)
  | superSend {site : CallSiteRef} {origin : ClassRef} {selector : Selector}
      {operands operandsToo : List Code} : C.SameReceiver stage frame →
      (C.first stage).SendsSuper site origin selector →
      List.Forall₂ (C.Fits stage frame) operands operandsToo →
      Paired stage frame (.superSend site origin selector operands)
        (.superSend site origin selector operandsToo)
  | control {controlSite : ControlSiteRef} {message : ControlMessage} {site : CallSiteRef}
      {selector : Selector} {receiver receiverToo : Code} {operands operandsToo : List Code} :
      (C.second stage).sites.controls.get controlSite =
        (C.first stage).sites.controls.get controlSite →
      (C.first stage).Sends site selector →
      C.Fits stage frame receiver receiverToo →
      List.Forall₂ (C.Fits stage frame) operands operandsToo →
      Paired stage frame (.control controlSite message site selector receiver operands)
        (.control controlSite message site selector receiverToo operandsToo)
  | specialized {controlSite : ControlSiteRef} {message : ControlMessage} {site : CallSiteRef}
      {selector : Selector} {receiver receiverToo : Code} {operands operandsToo : List Code} :
      C.Fits stage frame receiver receiverToo →
      List.Forall₂ (C.Fits stage frame) operands operandsToo →
      Paired stage frame (.control controlSite message site selector receiver operands)
        (.send site selector receiverToo operandsToo)
  | generalized {controlSite : ControlSiteRef} {message : ControlMessage} {site : CallSiteRef}
      {selector : Selector} {receiver receiverToo : Code} {operands operandsToo : List Code} :
      C.Fits stage frame receiver receiverToo →
      List.Forall₂ (C.Fits stage frame) operands operandsToo →
      Paired stage frame (.send site selector receiver operands)
        (.control controlSite message site selector receiverToo operandsToo)
  | answer {value other : Code} {span : Span} :
      (C.second stage).outermost frame = (C.first stage).outermost frame →
      C.Fits stage frame value other →
      Paired stage frame (.answer value span) (.answer other span)

/-- What a correspondence has to satisfy for two machines to stay side by side. -/
structure Laws : Prop where
  refl : ∀ stage, C.Later stage stage
  trans : ∀ {stage between after}, C.Later stage between → C.Later between after →
    C.Later stage after
  alike : ∀ stage, (C.first stage).Resembles (C.second stage)
  formed : ∀ stage, (C.first stage).WellFormed
  extended : ∀ {stage after}, C.Later stage after → (C.first stage).Extends (C.first after)
  carry : ∀ {stage after frame code other}, C.Later stage after →
    C.Fits stage frame code other → C.Fits after frame code other
  paired : ∀ {stage frame code other}, C.Fits stage frame code other →
    C.Paired stage frame code other
  act : ∀ stage {action : Action}, action.Common → action.Allowed (C.first stage) →
    ∃ after, C.Reached stage (action.perform (C.first stage)) (action.perform (C.second stage))
      after
  noted : ∀ stage describe,
    ∃ after, C.Reached stage ((C.first stage).note describe) ((C.second stage).note describe) after
  resolve : ∀ stage site selector receiver, receiver.Exists (C.first stage) →
    (C.first stage).Sends site selector →
    ((C.second stage).lookupAt site selector receiver).1 =
      ((C.first stage).lookupAt site selector receiver).1
  resolveSuper : ∀ stage site origin selector,
    (C.first stage).SendsSuper site origin selector →
    ((C.second stage).lookupSuperAt site origin selector).1 =
      ((C.first stage).lookupSuperAt site origin selector).1
  enterMethod : ∀ stage {ref : MethodRef} {routine other : Routine} {receiver : Value}
    {operands : List Value},
    ((C.first stage).methodAt ref).behavior = .defined routine →
    ((C.second stage).methodAt ref).behavior = .defined other →
    receiver.Exists (C.first stage) → Value.AllExist (C.first stage) operands →
    ∃ after, C.Reached stage
      ((C.first stage).addFrame (.ofMethod ref receiver operands routine.temporaries))
      ((C.second stage).addFrame (.ofMethod ref receiver operands other.temporaries)) after ∧
      List.Forall₂ (C.Fits after (C.first stage).heap.frames.next) routine.body other.body
  enterBlock : ∀ stage {ref : BlockRef} {arguments : List Value},
    (C.first stage).heap.blocks.Has ref → Value.AllExist (C.first stage) arguments →
    ∃ after, C.Reached stage
      ((C.first stage).addFrame ((C.first stage).blockFrame ref arguments))
      ((C.second stage).addFrame ((C.second stage).blockFrame ref arguments)) after ∧
      List.Forall₂ (C.Fits after (C.first stage).heap.frames.next)
        ((C.first stage).blockAt ref).body ((C.second stage).blockAt ref).body

/-- Results that agree: the same answer or the same escape, in the images of a later stage. -/
inductive Agrees {Answer : Type} (good : Image → Answer → Prop) (fine : Image → Escape → Prop)
    (stage : C.Stage) :
    EStateM.Result Escape Image Answer → EStateM.Result Escape Image Answer → Prop
  | ok {after : C.Stage} {answer : Answer} : C.Later stage after → good (C.first after) answer →
      Agrees good fine stage (.ok answer (C.first after)) (.ok answer (C.second after))
  | error {after : C.Stage} {escape : Escape} : C.Later stage after →
      fine (C.first after) escape →
      Agrees good fine stage (.error escape (C.first after)) (.error escape (C.second after))
  | tired {image : Image} {result : EStateM.Result Escape Image Answer} : C.lenient →
      Agrees good fine stage (.error .exhausted image) result

/-- Evaluations that agree when they are started side by side. -/
def Matches {Answer : Type} (good : Image → Answer → Prop) (fine : Image → Escape → Prop)
    (stage : C.Stage) (body other : Eval Answer) : Prop :=
  C.Agrees good fine stage (body (C.first stage)) (other (C.second stage))

/-- Evaluations of code that agree. -/
abbrev Evaluates (stage : C.Stage) (body other : Eval Value) : Prop :=
  C.Matches Value.Exists Escape.Settled stage body other

/-- Operations that agree.  They may report arguments of the wrong kinds. -/
abbrev Operates (stage : C.Stage) (body other : Eval Value) : Prop :=
  C.Matches Value.Exists Escape.Known stage body other

variable {C}
variable {Answer Next : Type} {good : Image → Answer → Prop} {goodNext : Image → Next → Prop}
  {fine : Image → Escape → Prop} {stage : C.Stage}

/-- Agreement in a later stage is agreement in an earlier one. -/
theorem Agrees.later (laws : C.Laws) {after : C.Stage} (later : C.Later stage after)
    {result other : EStateM.Result Escape Image Answer}
    (agreed : C.Agrees good fine after result other) : C.Agrees good fine stage result other := by
  cases agreed with
  | ok further known => exact .ok (laws.trans later further) known
  | error further known => exact .error (laws.trans later further) known
  | tired lenient => exact .tired lenient

namespace Matches

theorem pure (laws : C.Laws) {answer : Answer} (known : good (C.first stage) answer) :
    C.Matches good fine stage (Pure.pure answer) (Pure.pure answer) :=
  .ok (laws.refl stage) known

theorem throw (laws : C.Laws) {escape : Escape} (known : fine (C.first stage) escape) :
    C.Matches good fine stage (MonadExcept.throw escape) (MonadExcept.throw escape) :=
  .error (laws.refl stage) known

theorem bind (laws : C.Laws) {body other : Eval Answer} {next nextToo : Answer → Eval Next}
    (matched : C.Matches good fine stage body other)
    (continued : ∀ after, C.Later stage after → ∀ answer, good (C.first after) answer →
      C.Matches goodNext fine after (next answer) (nextToo answer)) :
    C.Matches goodNext fine stage (body >>= next) (other >>= nextToo) := by
  unfold Matches at matched ⊢
  simp only [Bind.bind, EStateM.bind]
  generalize body (C.first stage) = result at matched
  generalize other (C.second stage) = resultToo at matched
  cases matched with
  | @ok after answer later known =>
      exact Agrees.later laws later (continued after later answer known)
  | error later known => exact .error later known
  | tired lenient => exact .tired lenient

/-- Both machines look at their images. -/
theorem get {next nextToo : Image → Eval Answer}
    (matched : C.Matches good fine stage (next (C.first stage)) (nextToo (C.second stage))) :
    C.Matches good fine stage (MonadState.get >>= next) (MonadState.get >>= nextToo) :=
  matched

/-- Both machines take a step that answers the same. -/
theorem modifyGet {change changeToo : Image → Answer × Image} {after : C.Stage}
    (reached : C.Reached stage (change (C.first stage)).2 (changeToo (C.second stage)).2 after)
    (same : (changeToo (C.second stage)).1 = (change (C.first stage)).1)
    (known : good (C.first after) (change (C.first stage)).1) :
    C.Matches good fine stage (MonadState.modifyGet change)
      (MonadState.modifyGet changeToo) := by
  change C.Agrees good fine stage
    (.ok (change (C.first stage)).1 (change (C.first stage)).2)
    (.ok (changeToo (C.second stage)).1 (changeToo (C.second stage)).2)
  rw [same, ← reached.first, ← reached.second]
  exact .ok reached.later known

theorem weaken {weaker : Image → Escape → Prop} {body other : Eval Answer}
    (matched : C.Matches good fine stage body other)
    (weakened : ∀ image escape, fine image escape → weaker image escape) :
    C.Matches good weaker stage body other := by
  unfold Matches at matched ⊢
  generalize body (C.first stage) = result at matched
  generalize other (C.second stage) = resultToo at matched
  cases matched with
  | ok later known => exact .ok later known
  | error later known => exact .error later (weakened _ _ known)
  | tired lenient => exact .tired lenient

end Matches

end Correspondence

end MessageMachine
