import MessageMachine.Proofs.Discipline.Operations

/-!
# Activations under a discipline

An activation with code of its own enters a frame, evaluates its body there, leaves the frame and
makes its result out of that of the body.  An activation of an operation runs it, and tells the
receiver if the arguments were of the wrong kinds.  Both keep to a discipline; over whole runs this
is an induction on the budget.
-/

namespace MessageMachine

/-- What an activation makes of the result of its body when it leaves its frame. -/
def Activation.conclude (activation : Activation) (home : FrameRef) :
    EStateM.Result Escape Image Value → EStateM.Result Escape Image Value
  | .ok value after =>
      match activation with
      | .method _ (receiver :: _) => .ok receiver ((Action.leave home).perform after)
      | _ => .ok value ((Action.leave home).perform after)
  | .error escape after =>
      match activation, escape with
      | .method _ _, .unwinding value target =>
          if target = home then .ok value ((Action.leave home).perform after)
          else .error (.unwinding value target) ((Action.leave home).perform after)
      | .method ref _, .failed exception =>
          .error (.failed { exception with backtrace := exception.backtrace.push ref })
            ((Action.leave home).perform after)
      | _, escape => .error escape ((Action.leave home).perform after)

theorem Activation.left_conclude (activation : Activation) (home : FrameRef)
    (result : EStateM.Result Escape Image Value) :
    Eval.left (activation.conclude home result) =
      (Action.leave home).perform (Eval.left result) := by
  unfold Activation.conclude
  split
  · split <;> rfl
  · split
    · split <;> rfl
    · rfl
    · rfl

/-- However an evaluation in a frame of its own ends, the frame is left. -/
theorem withFrame_eq (frame : Frame) (body : FrameRef → Eval Value) (image : Image) :
    Eval.withFrame frame body image =
      match body image.heap.frames.next (image.addFrame frame) with
      | .ok value after => .ok value ((Action.leave image.heap.frames.next).perform after)
      | .error escape after =>
          .error escape ((Action.leave image.heap.frames.next).perform after) := by
  cases evaluated : body image.heap.frames.next (image.addFrame frame) with
  | ok value after => exact Correspondence.withFrame_ok evaluated
  | error escape after => exact Correspondence.withFrame_error evaluated

theorem runRoutine_eq (machine : Machine) (ref : MethodRef) (routine : Routine) (receiver : Value)
    (operands : List Value) (image : Image) :
    machine.runRoutine ref routine receiver operands image =
      (Activation.method ref (receiver :: operands)).conclude image.heap.frames.next
        (Code.evaluateBody machine image.heap.frames.next routine.body
          (image.addFrame (.ofMethod ref receiver operands routine.temporaries))) := by
  unfold Machine.runRoutine Eval.traced
  simp only [withFrame_eq, Eval.catchReturn, Bind.bind, EStateM.bind]
  cases Code.evaluateBody machine image.heap.frames.next routine.body
      (image.addFrame (.ofMethod ref receiver operands routine.temporaries)) with
  | ok value after => rfl
  | error escape after =>
      cases escape with
      | unwinding value target =>
          by_cases same : target = image.heap.frames.next
          · simp only [Activation.conclude, if_pos same]
          · simp only [Activation.conclude, if_neg same]
      | failed exception => rfl
      | exhausted | stopped => rfl

/-- What becomes of an activation that is run in a frame. -/
theorem step_eq_conclude {activation : Activation} {image : Image} {frame : Frame}
    {body : List Code} (opened : activation.opening? image = some (frame, body))
    (machine : Machine) :
    machine.step activation image = activation.conclude image.heap.frames.next
      (Code.evaluateBody machine image.heap.frames.next body (image.addFrame frame)) := by
  cases Activation.opens_of_opening opened with
  | @method ref receiver operands routine behavior count =>
      change machine.invoke ref (receiver :: operands) image = _
      unfold Machine.invoke
      rw [Eval.get_bind]
      simp only [behavior, if_pos count]
      exact runRoutine_eq machine ref routine receiver operands image
  | @block ref arguments =>
      change Eval.withFrame (image.blockFrame ref arguments)
        (fun frame => Code.evaluateBody machine frame (image.blockAt ref).body) image = _
      rw [withFrame_eq]
      cases Code.evaluateBody machine image.heap.frames.next (image.blockAt ref).body
          (image.addFrame (image.blockFrame ref arguments)) with
      | ok value after => rfl
      | error escape after => rfl

/-- The activations that are not run in a frame. -/
inductive Activation.Frameless (image : Image) : Activation → Prop
  | missing {ref : MethodRef} {arguments : List Value} {title : String} :
      (image.methodAt ref).behavior = .missing title → Frameless image (.method ref arguments)
  | operation {ref : MethodRef} {arguments : List Value} {primitive : Primitive} :
      (image.methodAt ref).behavior = .primitive primitive →
      Frameless image (.method ref arguments)
  | alone {ref : MethodRef} {routine : Routine} :
      (image.methodAt ref).behavior = .defined routine → Frameless image (.method ref [])
  | miscounted {ref : MethodRef} {routine : Routine} {receiver : Value} {operands : List Value} :
      (image.methodAt ref).behavior = .defined routine → operands.length ≠ routine.parameters →
      Frameless image (.method ref (receiver :: operands))

theorem Activation.frameless_of_not_opening {activation : Activation} {image : Image}
    (closed : activation.opening? image = none) : activation.Frameless image := by
  cases activation with
  | block ref arguments => cases closed
  | method ref arguments =>
      cases behavior : (image.methodAt ref).behavior with
      | missing title => exact .missing behavior
      | primitive primitive => exact .operation behavior
      | defined routine =>
          cases arguments with
          | nil => exact .alone behavior
          | cons receiver operands =>
              simp only [Activation.opening?, behavior] at closed
              split at closed
              · cases closed
              · next apart => exact .miscounted behavior apart

/-- The result of an operation, with a report of arguments of the wrong kinds made an answer. -/
def Eval.attempted :
    EStateM.Result Escape Image Value → EStateM.Result Escape Image (Value ⊕ String)
  | .error (.failed { failure := .typeMismatch operation, backtrace := _ }) image =>
      .ok (.inr operation) image
  | .error escape image => .error escape image
  | .ok value image => .ok (.inl value) image

theorem Eval.attempted_of_passes {escape : Escape} {image : Image} (passes : escape.Passes) :
    Eval.attempted (.error escape image) = .error escape image := by
  unfold Eval.attempted
  split
  · next operation _ _ same =>
      cases same
      exact absurd rfl (passes operation)
  · next same =>
      cases same
      rfl
  · next same => cases same

theorem Eval.left_attempted (result : EStateM.Result Escape Image Value) :
    Eval.left (Eval.attempted result) = Eval.left result := by
  unfold Eval.attempted
  split <;> rfl

theorem Eval.failed_of_attempted {result : EStateM.Result Escape Image Value}
    {exception : Exception} {after : Image}
    (failed : Eval.attempted result = .error (.failed exception) after) :
    result = .error (.failed exception) after := by
  unfold Eval.attempted at failed
  split at failed
  · cases failed
  · cases failed
    rfl
  · cases failed

theorem runPrimitive_eq (machine : Machine) (primitive : Primitive) (selector : Selector)
    (arguments : List Value) :
    machine.runPrimitive primitive selector arguments = (do
      match ← (fun image => Eval.attempted (primitive.run machine arguments image)) with
      | .inl value => return value
      | .inr operation =>
          Eval.note fun _ => .typesRejected operation
          machine.notUnderstoodBy selector arguments : Eval Value) := by
  funext image
  simp only [Machine.runPrimitive, Bind.bind, EStateM.bind]
  cases primitive.run machine arguments image with
  | ok value after => rfl
  | error escape after =>
      cases escape with
      | failed exception =>
          obtain ⟨failure, backtrace⟩ := exception
          cases failure <;> rfl
      | _ => rfl

namespace Discipline

variable {D : Discipline} {start : Image}

section Machines

variable {machine : Machine} (laws : D.Laws) (holds : D.Holds start)
include laws holds

theorem runPrimitive_keeps (primitive : Primitive) (selector : Selector) {arguments : List Value}
    (accompanied : arguments = [] → ∀ after fault,
      D.Fine after (.failed { failure := .internal fault, backtrace := #[] }))
    (allKnown : D.AllGood start arguments)
    (calls : ∀ activation, primitive.Calls start arguments activation → D.Runs start activation)
    (puts : ∀ ref value, primitive.Puts arguments ref value →
      ∀ place, D.Steps start ((Action.setElement ref place value).perform start))
    (assigns : ∀ receiver place value, primitive.Assigns start arguments receiver place value →
      D.Steps start ((Action.writeField receiver place value).perform start)) :
    D.Evaluates machine start fun machine =>
      machine.runPrimitive primitive selector arguments := by
  simp only [runPrimitive_eq]
  have attempted : D.Keeps (fun image answer => ∀ value, answer = .inl value → D.Good image value)
      machine start fun machine image =>
        Eval.attempted (primitive.run machine arguments image) := by
    refine Keeps.adapt (fun _ _ => Eval.attempted_of_passes) Eval.left_attempted
      (fun _ _ _ => Eval.failed_of_attempted) ?_
      (primitive_keeps laws holds primitive allKnown calls puts assigns)
    intro result yielded
    cases yielded with
    | ok holdsAfter later known =>
        exact .ok holdsAfter later fun value same => by cases same; exact known
    | @error escape after holdsAfter later fine =>
        unfold Eval.attempted
        split
        · next same =>
            cases same
            exact .ok holdsAfter later fun value other => by cases other
        · next same =>
            cases same
            exact .error holdsAfter later fine
        · next same => cases same
  refine Keeps.bind laws.toOrder attempted fun after answer holdsAfter later known => ?_
  cases answer with
  | inl value => exact Keeps.pure laws.toOrder holdsAfter (known value rfl)
  | inr operation =>
      refine Keeps.bind laws.toOrder (laws.note holdsAfter _) fun noted _ holdsNoted further _ => ?_
      exact notUnderstoodBy_keeps laws holdsNoted selector accompanied
        (laws.keepAll (laws.trans later further) allKnown)

end Machines

section Running

variable (laws : D.Laws) {budget : Nat} {activation : Activation} {image : Image}
include laws

/-- Leaving a frame keeps to a discipline. -/
theorem conclude_yields {frame : Frame} {body : List Code} (holds : D.Holds image)
    (runs : D.Runs image activation) (opened : activation.opening? image = some (frame, body))
    {result : EStateM.Result Escape Image Value}
    (yielded : D.Yields D.Good (image.addFrame frame) result) :
    D.Yields D.Good image (activation.conclude image.heap.frames.next result) := by
  cases yielded with
  | @ok value after holdsAfter later known =>
      obtain ⟨stepped, good, -⟩ := laws.leave holds runs opened later holdsAfter
      unfold Activation.conclude
      dsimp only
      split
      · exact .ok stepped.1 stepped.2 (laws.keep stepped.2 (laws.arguments runs).head)
      · exact .ok stepped.1 stepped.2 (good value known)
  | @error escape after holdsAfter later fine =>
      obtain ⟨stepped, good, fineThen⟩ := laws.leave holds runs opened later holdsAfter
      unfold Activation.conclude
      dsimp only
      split
      · next value target =>
          split
          · exact .ok stepped.1 stepped.2 (good value (laws.unwound fine))
          · next apart =>
              refine .error stepped.1 stepped.2 (fineThen _ fine fun _ other same => ?_)
              exact apart (Escape.unwinding.inj same).2
      · refine .error stepped.1 stepped.2 (laws.traced _ (fineThen _ fine fun _ other same => ?_))
        cases same
      · next notUnwinding _ =>
          refine .error stepped.1 stepped.2 (fineThen _ fine fun method other same => ?_)
          cases activation with
          | method ref arguments => exact notUnwinding ref arguments other _ rfl same
          | block ref arguments => cases method

/-- Whether the activations that the discipline is about keep to it within a budget. -/
def Faithful (D : Discipline) (budget : Nat) : Prop :=
  ∀ {activation image}, D.Holds image → D.Runs image activation →
    D.Begun ⟨budget, activation, image⟩ → D.Yields D.Good image (activation.run budget image)

/-- The body of an activation is ready to be evaluated in its frame. -/
theorem body_ready {frame : Frame} {body : List Code} (holds : D.Holds image)
    (runs : D.Runs image activation) (begun : D.Begun ⟨budget + 1, activation, image⟩)
    (opened : activation.opening? image = some (frame, body)) :
    D.Ready (.ofBudget budget) image.heap.frames.next body (image.addFrame frame) where
  holds := (laws.enter holds runs begun opened).1
  fits := (laws.enter holds runs begun opened).2
  here := fun _ _ visits => laws.here begun (.intro opened visits)
  given := fun _ _ _ _ visits evaluated => laws.given begun (.intro opened visits) evaluated

theorem body_trusts (faithful : D.Faithful budget) {frame : Frame} {body : List Code}
    (begun : D.Begun ⟨budget + 1, activation, image⟩)
    (opened : activation.opening? image = some (frame, body)) :
    D.Trusts (.ofBudget budget) (image.addFrame frame) fun machine =>
      Code.evaluateBody machine image.heap.frames.next body :=
  fun _ _ asks holds _ runs => faithful holds runs (laws.nested begun (.code opened asks))

theorem body_obeys (faithful : D.Faithful budget) {frame : Frame} {body : List Code}
    (holds : D.Holds image) (runs : D.Runs image activation)
    (begun : D.Begun ⟨budget + 1, activation, image⟩)
    (opened : activation.opening? image = some (frame, body)) :
    D.Obeys D.Good (.ofBudget budget) (image.addFrame frame) fun machine =>
      Code.evaluateBody machine image.heap.frames.next body :=
  body_keeps laws (body_ready laws holds runs begun opened)
    (body_trusts laws faithful begun opened)

theorem operation_obeys (faithful : D.Faithful budget) {ref : MethodRef} {arguments : List Value}
    {primitive : Primitive} (holds : D.Holds image)
    (runs : D.Runs image (.method ref arguments))
    (begun : D.Begun ⟨budget + 1, .method ref arguments, image⟩)
    (behavior : (image.methodAt ref).behavior = .primitive primitive) :
    D.Obeys D.Good (.ofBudget budget) image fun machine =>
      machine.runPrimitive primitive (image.methodAt ref).selector arguments := by
  have performs : D.Performs image primitive arguments := ⟨budget, ref, begun, runs, behavior⟩
  have allKnown := laws.arguments runs
  refine runPrimitive_keeps laws holds primitive _ ?_ allKnown ?_ ?_ ?_ ?_
  · intro alone
    subst alone
    exact laws.accompanied runs
  · intro activation calls
    exact laws.calls holds performs calls
  · intro other value puts
    exact laws.puts holds performs puts
  · intro receiver place value assigns
    exact laws.assigns holds performs assigns (allKnown receiver assigns.receiver_mem)
      (allKnown value assigns.value_mem)
  · intro asked there asks holdsThere _ runsThere
    exact faithful holdsThere runsThere (laws.nested begun (.operation rfl behavior asks))

/-- Activations keep to a discipline, within every budget. -/
theorem faithful (budget : Nat) : D.Faithful budget := by
  induction budget with
  | zero =>
      intro activation image holds _ _
      exact .error holds (laws.refl image) (laws.exhausted image)
  | succ budget inductionHypothesis =>
      intro activation image holds runs begun
      change D.Yields D.Good image ((Machine.ofBudget budget).step activation image)
      cases opened : activation.opening? image with
      | some opening =>
          rw [step_eq_conclude opened]
          exact conclude_yields laws holds runs opened
            (body_obeys laws inductionHypothesis holds runs begun opened).yields
      | none =>
          have failing : ∀ {failure : Failure}, (∀ fault, failure ≠ .internal fault) →
              D.Yields D.Good image (Eval.fail failure image) := fun ordinary =>
            .error holds (laws.refl image) (laws.failed image #[] ordinary)
          have invoked : ∀ ref arguments, (Machine.ofBudget budget).step (.method ref arguments)
              image = (Machine.ofBudget budget).invoke ref arguments image := fun _ _ => rfl
          cases Activation.frameless_of_not_opening opened with
          | missing behavior =>
              rw [invoked, Machine.invoke, Eval.get_bind]
              simp only [behavior]
              exact failing fun _ => Failure.noConfusion
          | operation behavior =>
              rw [invoked, Machine.invoke, Eval.get_bind]
              simp only [behavior]
              exact (operation_obeys laws inductionHypothesis holds runs begun behavior).yields
          | alone behavior =>
              rw [invoked, Machine.invoke, Eval.get_bind]
              simp only [behavior]
              exact .error holds (laws.refl image) (laws.accompanied runs image _)
          | miscounted behavior apart =>
              rw [invoked, Machine.invoke, Eval.get_bind]
              simp only [behavior, if_neg apart]
              exact failing fun _ => Failure.noConfusion

end Running

end Discipline

end MessageMachine
