import MessageMachine.Machine.Host
import MessageMachine.Proofs.Correspondence.Operations

/-!
# Running activations side by side

A step of interpreters agrees: methods and blocks are run in frames of their own, returns are taken
up where they belong, failures collect the methods that they leave, and operations that find their
arguments to be of the wrong kinds are answered by a message.  With every budget less by one inside
a step, what is left for a correspondence is an induction over its budgets.
-/

namespace MessageMachine

theorem Escape.Settled.mono {before after : Image} {escape : Escape}
    (settled : escape.Settled before) (later : before.Extends after) : escape.Settled after := by
  cases escape with
  | unwinding value home => exact Value.Exists.mono settled later
  | failed exception => exact settled
  | exhausted | stopped => trivial

namespace Correspondence

variable {C : Correspondence} {stage : C.Stage}

/-- An evaluation in a frame of its own leaves the frame when it has a value. -/
theorem withFrame_ok {frame : Frame} {body : FrameRef → Eval Value} {image after : Image}
    {value : Value}
    (evaluated : body image.heap.frames.next (image.addFrame frame) = .ok value after) :
    Eval.withFrame frame body image =
      .ok value ((Action.leave image.heap.frames.next).perform after) := by
  change body image.heap.frames.next { image with heap := _ } = _ at evaluated
  unfold Eval.withFrame
  dsimp only
  rw [evaluated]
  rfl

/-- An evaluation in a frame of its own leaves the frame when it escapes. -/
theorem withFrame_error {frame : Frame} {body : FrameRef → Eval Value} {image after : Image}
    {escape : Escape}
    (evaluated : body image.heap.frames.next (image.addFrame frame) = .error escape after) :
    Eval.withFrame frame body image =
      .error escape ((Action.leave image.heap.frames.next).perform after) := by
  change body image.heap.frames.next { image with heap := _ } = _ at evaluated
  unfold Eval.withFrame
  dsimp only
  rw [evaluated]
  rfl

/-- Evaluations in frames of their own. -/
theorem withFrame_evaluates (laws : C.Laws) {frame frameToo : Frame} {entered : C.Stage}
    {body bodyToo : FrameRef → Eval Value}
    (reached : C.Reached stage ((C.first stage).addFrame frame)
      ((C.second stage).addFrame frameToo) entered)
    (evaluated : C.Evaluates entered (body (C.first stage).heap.frames.next)
      (bodyToo (C.first stage).heap.frames.next)) :
    C.Evaluates stage (Eval.withFrame frame body) (Eval.withFrame frameToo bodyToo) := by
  have ending : ∀ after : C.Stage, ∃ final, C.Reached after
      ((Action.leave (C.first stage).heap.frames.next).perform (C.first after))
      ((Action.leave (C.first stage).heap.frames.next).perform (C.second after)) final :=
    fun after => laws.act after trivial trivial
  have frames := (laws.alike stage).nextFrame
  unfold Evaluates Matches at evaluated ⊢
  rw [reached.first, reached.second] at evaluated
  generalize first : body _ _ = result at evaluated
  generalize second : bodyToo _ _ = resultToo at evaluated
  rw [← frames] at second
  cases evaluated with
  | @ok after value later known =>
      obtain ⟨final, left⟩ := ending after
      rw [withFrame_ok first, withFrame_ok second, frames, ← left.first, ← left.second]
      exact .ok (laws.trans reached.later (laws.trans later left.later))
        (laws.mono left.later known)
  | @error after escape later settled =>
      obtain ⟨final, left⟩ := ending after
      rw [withFrame_error first, withFrame_error second, frames, ← left.first, ← left.second]
      exact .error (laws.trans reached.later (laws.trans later left.later))
        (settled.mono (laws.extended left.later))
  | tired lenient =>
      rw [withFrame_error first]
      exact .tired lenient

theorem catchReturn_evaluates {home : FrameRef} {body bodyToo : Eval Value}
    (evaluated : C.Evaluates stage body bodyToo) :
    C.Evaluates stage (Eval.catchReturn home body) (Eval.catchReturn home bodyToo) := by
  unfold Evaluates Matches at evaluated ⊢
  unfold Eval.catchReturn
  generalize body (C.first stage) = result at evaluated
  generalize bodyToo (C.second stage) = resultToo at evaluated
  cases evaluated with
  | ok later known => exact .ok later known
  | @error after escape later settled =>
      cases escape with
      | unwinding value target =>
          dsimp only
          split
          · exact .ok later settled
          · exact .error later settled
      | failed exception => exact .error later settled
      | exhausted | stopped => exact .error later settled
  | tired lenient => exact .tired lenient

theorem traced_evaluates {method : MethodRef} {body bodyToo : Eval Value}
    (evaluated : C.Evaluates stage body bodyToo) :
    C.Evaluates stage (Eval.traced method body) (Eval.traced method bodyToo) := by
  unfold Evaluates Matches at evaluated ⊢
  unfold Eval.traced
  generalize body (C.first stage) = result at evaluated
  generalize bodyToo (C.second stage) = resultToo at evaluated
  cases evaluated with
  | ok later known => exact .ok later known
  | @error after escape later settled =>
      cases escape with
      | unwinding value target => exact .error later settled
      | failed exception => exact .error later settled
      | exhausted | stopped => exact .error later settled
  | tired lenient => exact .tired lenient

/-- A return that reaches the host has escaped on both sides. -/
theorem complete_evaluates (laws : C.Laws) {body other : Eval Value}
    (evaluated : C.Evaluates stage body other) :
    C.Evaluates stage (Eval.complete body) (Eval.complete other) := by
  unfold Evaluates Matches at evaluated ⊢
  unfold Eval.complete
  generalize body (C.first stage) = result at evaluated
  generalize other (C.second stage) = resultToo at evaluated
  cases evaluated with
  | ok later known => exact .ok later known
  | @error after escape later settled =>
      cases escape with
      | unwinding value home =>
          dsimp only
          rw [(laws.alike after).frameName]
          exact .error later fun _ => Failure.noConfusion
      | failed exception => exact .error later settled
      | exhausted | stopped => exact .error later settled
  | tired lenient => exact .tired lenient

section Machines

variable {machine other : Machine} (laws : C.Laws)
include laws

theorem runPrimitive_evaluates (partners : C.Partners machine other) (primitive : Primitive)
    (selector : Selector) {arguments : List Value}
    (allKnown : Value.AllExist (C.first stage) arguments) :
    C.Evaluates stage (machine.runPrimitive primitive selector arguments)
      (other.runPrimitive primitive selector arguments) := by
  have operated := primitive_operates laws partners primitive allKnown
  unfold Evaluates Matches
  unfold Operates Matches at operated
  unfold Machine.runPrimitive
  generalize primitive.run machine arguments (C.first stage) = result at operated
  generalize primitive.run other arguments (C.second stage) = resultToo at operated
  cases operated with
  | ok later known => exact .ok later known
  | @error after escape later fine =>
      cases escape with
      | unwinding value target => exact .error later fine
      | exhausted | stopped => exact .error later trivial
      | failed exception =>
          obtain ⟨failure, backtrace⟩ := exception
          cases failure with
          | typeMismatch operation =>
              refine Agrees.later laws later ?_
              refine Matches.bind laws (laws.note _) fun noted further _ _ => ?_
              exact notUnderstoodBy_evaluates laws partners selector
                (laws.monoAll (laws.trans later further) allKnown)
          | _ => exact .error later fun _ => Failure.noConfusion
  | tired lenient => exact .tired lenient

variable (interpreters : C.Interpreters machine other)
include interpreters

theorem runRoutine_evaluates {ref : MethodRef} {routine routineToo : Routine} {receiver : Value}
    {operands : List Value}
    (behavior : ((C.first stage).methodAt ref).behavior = .defined routine)
    (behaviorToo : ((C.second stage).methodAt ref).behavior = .defined routineToo)
    (known : receiver.Exists (C.first stage))
    (allKnown : Value.AllExist (C.first stage) operands) :
    C.Evaluates stage (machine.runRoutine ref routine receiver operands)
      (other.runRoutine ref routineToo receiver operands) := by
  obtain ⟨entered, reached, fit⟩ := laws.enterMethod stage behavior behaviorToo known allKnown
  refine traced_evaluates (withFrame_evaluates laws reached (catchReturn_evaluates ?_))
  refine Matches.bind laws (body_evaluates laws interpreters fit) fun after later _ _ => ?_
  exact Matches.pure laws (laws.mono (laws.trans reached.later later) known)

theorem invoke_evaluates (ref : MethodRef) {arguments : List Value}
    (allKnown : Value.AllExist (C.first stage) arguments) :
    C.Evaluates stage (machine.invoke ref arguments) (other.invoke ref arguments) := by
  have alike := laws.alike stage
  refine Matches.get ?_
  dsimp only
  have kinds := (alike.methods ref).behavior
  rw [(alike.methods ref).selector, alike.methodName]
  generalize first : ((C.first stage).methodAt ref).behavior = behavior at kinds
  generalize second : ((C.second stage).methodAt ref).behavior = behaviorToo at kinds
  cases kinds with
  | missing title => exact laws.fail fun _ => Failure.noConfusion
  | primitive operation =>
      exact runPrimitive_evaluates laws interpreters.toPartners operation _ allKnown
  | defined parameters _ =>
      cases arguments with
      | nil => exact laws.fail fun _ => Failure.noConfusion
      | cons receiver operands =>
          dsimp only
          rw [parameters]
          split
          · exact runRoutine_evaluates laws interpreters first second allKnown.head allKnown.tail
          · exact laws.fail fun _ => Failure.noConfusion

theorem call_evaluates {ref : BlockRef} {arguments : List Value}
    (known : (C.first stage).heap.blocks.Has ref)
    (allKnown : Value.AllExist (C.first stage) arguments) :
    C.Evaluates stage (machine.call ref arguments) (other.call ref arguments) := by
  obtain ⟨entered, reached, fit⟩ := laws.enterBlock stage known allKnown
  refine Matches.get ?_
  exact withFrame_evaluates laws reached (body_evaluates laws interpreters fit)

/-- A step of interpreters agrees. -/
theorem step_evaluates {activation : Activation} (known : activation.Known (C.first stage)) :
    C.Evaluates stage (machine.step activation) (other.step activation) := by
  cases activation with
  | method ref arguments => exact invoke_evaluates laws interpreters ref known
  | block ref arguments => exact call_evaluates laws interpreters known.1 known.2

end Machines

/-- Where control messages stand on both sides or on none, machines with the same budget evaluate
code alike. -/
theorem interpreters_of_unmixed (laws : C.Laws)
    (specialized : ∀ {stage frame controlSite message site selector code codeToo codes codesToo},
      ¬ C.Fits stage frame (.control controlSite message site selector code codes)
        (.send site selector codeToo codesToo))
    (generalized : ∀ {stage frame controlSite message site selector code codeToo codes codesToo},
      ¬ C.Fits stage frame (.send site selector code codes)
        (.control controlSite message site selector codeToo codesToo))
    (budget : Nat) : C.Interpreters (.ofBudget budget) (.ofBudget budget) := by
  induction budget with
  | zero =>
      exact {
        activate := fun _ => Matches.throw laws trivial
        patience := Or.inl rfl
        specialized := fun fits => absurd fits specialized
        generalized := fun fits => absurd fits generalized }
  | succ budget inductionHypothesis =>
      exact {
        activate := fun known => step_evaluates laws inductionHypothesis known
        patience := Or.inl rfl
        specialized := fun fits => absurd fits specialized
        generalized := fun fits => absurd fits generalized }

end Correspondence

end MessageMachine
