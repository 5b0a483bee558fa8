import MessageMachine.Proofs.Session

/-!
# Mismatches stay where they arise

An operation that gets arguments of the wrong kinds reports a mismatch, and the invocation that
asked for the operation turns the report into a message to the receiver.  Operations also send
messages and call blocks, and hand on what these end with.  Two things therefore go together: no
evaluation ends with a mismatch, and a mismatch that an operation ends with is its own, made before
the operation has done anything.  The message to the receiver then starts from the image that the
operation started from.

Neither depends on what the image looks like, so that the induction is on the budget alone.
-/

namespace MessageMachine

/-- Whether an escape reports arguments of the wrong kinds. -/
def Escape.IsMismatch : Escape → Prop
  | .failed exception => ∃ operation, exception.failure = .typeMismatch operation
  | _ => False

/-- Whether a response reports arguments of the wrong kinds. -/
def Response.IsMismatch : Response → Prop
  | .escaped escape => escape.IsMismatch
  | _ => False

namespace Eval

variable {Answer Next : Type}

/-- Whether an evaluation never ends with a mismatch, whatever image it is begun in. -/
def Settles (body : Eval Answer) : Prop :=
  ∀ image escape after, body image = .error escape after → ¬ escape.IsMismatch

/-- Whether an evaluation ends with a mismatch only by reporting it at once, in the name of one
operation. -/
def ReportsAtOnce (primitive : Primitive) (body : Eval Answer) : Prop :=
  ∀ image escape after, body image = .error escape after → escape.IsMismatch →
    after = image ∧
      escape = .failed { failure := .typeMismatch primitive.title, backtrace := #[] }

namespace Settles

theorem pure (answer : Answer) : Settles (Pure.pure answer) := by
  intro image escape after ended
  cases ended

theorem throw {escape : Escape} (other : ¬ escape.IsMismatch) :
    Settles (MonadExcept.throw escape : Eval Answer) := by
  intro image escape after ended
  cases ended
  exact other

theorem fail {failure : Failure} (other : ∀ operation, failure ≠ .typeMismatch operation) :
    Settles (Eval.fail failure : Eval Answer) :=
  throw fun ⟨operation, same⟩ => other operation same

theorem modifyGet (change : Image → Answer × Image) : Settles (MonadState.modifyGet change) := by
  intro image escape after ended
  cases ended

theorem note (describe : Image → Event) : Settles (Eval.note describe) :=
  modifyGet _

theorem bind {body : Eval Answer} {next : Answer → Eval Next} (first : Settles body)
    (second : ∀ answer, Settles (next answer)) : Settles (body >>= next) := by
  intro image escape after ended
  simp only [Bind.bind, EStateM.bind] at ended
  cases result : body image with
  | ok answer between =>
      rw [result] at ended
      exact second answer between escape after ended
  | error other between =>
      rw [result] at ended
      cases ended
      exact first image escape after result

/-- An evaluation that looks at the image. -/
theorem get {next : Image → Eval Answer} (second : ∀ image, Settles (next image)) :
    Settles (MonadState.get >>= next) :=
  fun image => second image image

theorem meet (name : String) : Settles (Eval.meet name) :=
  modifyGet _

/-- A subtraction of words at most stops the machine. -/
theorem difference (left right : Int64) : Settles (Eval.difference left right) := by
  refine .get fun image => ?_
  split
  · exact .pure _
  · exact .throw id

theorem ofOption (found : Option Answer) : Settles (Eval.ofOption found) := by
  cases found with
  | some answer => exact .pure answer
  | none => exact .throw id

/-- What never ends with a mismatch reports none. -/
theorem reports {body : Eval Answer} (settles : Settles body) (primitive : Primitive) :
    ReportsAtOnce primitive body :=
  fun image escape after ended mismatch => absurd mismatch (settles image escape after ended)

end Settles

namespace ReportsAtOnce

variable {primitive : Primitive}

theorem mismatch (primitive : Primitive) : ReportsAtOnce primitive primitive.mismatch := by
  intro image escape after ended _
  cases ended
  exact ⟨rfl, rfl⟩

/-- Looking at the image is not doing anything. -/
theorem get {next : Image → Eval Answer} (reports : ∀ image, ReportsAtOnce primitive (next image)) :
    ReportsAtOnce primitive (MonadState.get >>= next) :=
  fun image => reports image image

/-- A subtraction of words leaves the image alone. -/
theorem difference {left right : Int64} {next : Int64 → Eval Answer}
    (reports : ∀ result, ReportsAtOnce primitive (next result)) :
    ReportsAtOnce primitive (Eval.difference left right >>= next) := by
  intro image escape after ended mismatch
  rw [Eval.difference_bind] at ended
  split at ended
  · exact reports _ image escape after ended mismatch
  · cases ended
    exact mismatch.elim

end ReportsAtOnce

end Eval

open Eval

theorem Primitive.refuse_settles (primitive : Primitive) (refusal : Refusal) :
    Settles (primitive.refuse refusal) :=
  .fail fun _ => Failure.noConfusion

theorem Primitive.refuseField_settles (primitive : Primitive) (receiver : Value) (index : Int64) :
    Settles (primitive.refuseField receiver index) :=
  .get fun _ => .bind (.ofOption _) fun _ => primitive.refuse_settles _

theorem Primitive.conclude_reports (primitive : Primitive) (reply : Reply) :
    ReportsAtOnce primitive (primitive.conclude reply) := by
  cases reply with
  | answer value => exact (Settles.pure value).reports primitive
  | refuse refusal => exact (primitive.refuse_settles refusal).reports primitive
  | mismatch => exact .mismatch primitive

/-- A machine whose activations never end with a mismatch. -/
def Machine.Settled (machine : Machine) : Prop :=
  ∀ activation, Settles (machine.activate activation)

section Machines

variable {machine : Machine} (settled : machine.Settled)
include settled

namespace Machine

theorem notUnderstood_settles (receiver : Value) (selector : Selector) (operands : List Value) :
    Settles (machine.notUnderstood receiver selector operands) := by
  refine .bind (.meet _) fun _ => .get fun image => ?_
  split
  · exact .fail fun _ => Failure.noConfusion
  · exact .bind (.note _) fun _ => .bind (.modifyGet _) fun _ => settled _

theorem notUnderstoodBy_settles (selector : Selector) (arguments : List Value) :
    Settles (machine.notUnderstoodBy selector arguments) := by
  cases arguments with
  | nil => exact .fail fun _ => Failure.noConfusion
  | cons receiver operands => exact notUnderstood_settles settled receiver selector operands

theorem dispatch_settles (found : Option MethodRef) (selector : Selector)
    (arguments : List Value) : Settles (machine.dispatch found selector arguments) := by
  cases found with
  | none => exact notUnderstoodBy_settles settled selector arguments
  | some method => exact settled _

theorem send_settles (selector : Selector) (arguments : List Value) :
    Settles (machine.send selector arguments) := by
  cases arguments with
  | nil => exact .fail fun _ => Failure.noConfusion
  | cons receiver operands => exact .get fun _ => dispatch_settles settled _ selector _

theorem reportGlobal_settles (receiver : Value) (name : String) :
    Settles (machine.reportGlobal receiver name) := by
  refine .bind (.meet _) fun _ => .get fun image => ?_
  split
  · exact settled _
  · exact .fail fun _ => Failure.noConfusion

theorem sendAt_settles (site : CallSiteRef) (selector : Selector) (receiver : Value)
    (operands : List Value) : Settles (machine.sendAt site selector receiver operands) :=
  .bind (.modifyGet _) fun found => dispatch_settles settled found selector _

theorem sendSuperAt_settles (site : CallSiteRef) (origin : ClassRef) (selector : Selector)
    (receiver : Value) (operands : List Value) :
    Settles (machine.sendSuperAt site origin selector receiver operands) :=
  .bind (.modifyGet _) fun found => dispatch_settles settled found selector _

theorem loop_settles (condition body : BlockRef) (expected : Bool) (rounds : Nat) :
    Settles (machine.loop condition body expected rounds) := by
  induction rounds with
  | zero => exact .throw id
  | succ rounds inductionHypothesis =>
      refine .bind (settled _) fun answer => ?_
      split
      · split
        · exact .bind (settled _) fun _ => inductionHypothesis
        · exact .pure _
      · exact .pure _

theorem branch_settles (value : Value) : Settles (machine.branch value) := by
  unfold Machine.branch
  split
  · refine .get fun image => ?_
    split
    · exact settled _
    · exact .pure _
  · exact .pure _

end Machine

theorem ControlMessage.run?_settles (message : ControlMessage) (image : Image) (receiver : Value)
    (operands : List Value) {run : Eval Value}
    (runs : message.run? machine image receiver operands = some run) : Settles run := by
  unfold ControlMessage.run? at runs
  dsimp only at runs
  split at runs
  -- Conditionals run one of their blocks or answer nil, and loops run both of theirs.
  case h_7 => cases runs
  all_goals
    split at runs
    case isFalse => cases runs
  case h_1.isTrue truth _ _ =>
    cases runs
    cases truth
    · exact .pure _
    · exact settled _
  case h_2.isTrue truth _ _ =>
    cases runs
    cases truth
    · exact settled _
    · exact .pure _
  case h_3.isTrue =>
    cases runs
    exact settled _
  case h_4.isTrue =>
    cases runs
    exact settled _
  case h_5.isTrue =>
    cases runs
    exact Machine.loop_settles settled _ _ _ _
  case h_6.isTrue =>
    cases runs
    exact Machine.loop_settles settled _ _ _ _

theorem Machine.controlAt_settles (controlSite : ControlSiteRef) (message : ControlMessage)
    (site : CallSiteRef) (selector : Selector) (receiver : Value) (operands : List Value) :
    Settles (machine.controlAt controlSite message site selector receiver operands) := by
  refine .get fun image => ?_
  split
  · exact Machine.sendAt_settles settled site selector receiver operands
  · split
    · next run runs =>
        exact ControlMessage.run?_settles settled message image receiver operands runs
    · exact .bind (.modifyGet _) fun _ => .bind (.note _) fun _ =>
        Machine.sendAt_settles settled site selector receiver operands

end Machines

mutual

theorem Datum.evaluate_settles (datum : Datum) : Settles datum.evaluate := by
  cases datum with
  | array items =>
      rw [Datum.evaluate]
      exact .bind (Datum.evaluateAll_settles items) fun _ => .modifyGet _
  | symbol | string | double | integer | big =>
      rw [Datum.evaluate]
      exact .pure _

theorem Datum.evaluateAll_settles (items : List Datum) : Settles (Datum.evaluateAll items) := by
  cases items with
  | nil =>
      rw [Datum.evaluateAll]
      exact .pure _
  | cons item rest =>
      rw [Datum.evaluateAll]
      exact .bind (Datum.evaluate_settles item) fun _ =>
        .bind (Datum.evaluateAll_settles rest) fun _ => .pure _

end

mutual

theorem Code.evaluate_settles {machine : Machine} (settled : machine.Settled) (frame : FrameRef)
    (code : Code) : Settles (code.evaluate machine frame) := by
  cases code with
  | self =>
      rw [Code.evaluate]
      exact .get fun _ => .pure _
  | read slot =>
      rw [Code.evaluate]
      refine .get fun image => ?_
      split
      · exact .pure _
      · exact .fail fun _ => Failure.noConfusion
  | write slot value =>
      rw [Code.evaluate]
      refine .bind (Code.evaluate_settles settled frame value) fun written => .get fun image => ?_
      split
      · exact .bind (.modifyGet _) fun _ => .pure _
      · exact .fail fun _ => Failure.noConfusion
  | readField site index =>
      rw [Code.evaluate]
      refine .get fun image => .bind (.modifyGet _) fun found => ?_
      split
      · exact .pure _
      · exact .fail fun _ => Failure.noConfusion
  | writeField site index value =>
      rw [Code.evaluate]
      refine .bind (Code.evaluate_settles settled frame value) fun written => .get fun image =>
        .bind (.modifyGet _) fun done => ?_
      split
      · exact .pure _
      · exact .fail fun _ => Failure.noConfusion
  | global name =>
      rw [Code.evaluate]
      refine .get fun image => ?_
      split
      · exact .pure _
      · exact .get fun _ => Machine.reportGlobal_settles settled _ name
  | literal datum =>
      rw [Code.evaluate]
      exact Datum.evaluate_settles datum
  | block parameters temporaries captures body =>
      rw [Code.evaluate]
      exact .modifyGet _
  | send site selector receiver operands =>
      rw [Code.evaluate]
      exact .bind (Code.evaluate_settles settled frame receiver) fun _ =>
        .bind (Code.evaluateAll_settles settled frame operands) fun _ =>
          Machine.sendAt_settles settled site selector _ _
  | superSend site origin selector operands =>
      rw [Code.evaluate]
      exact .get fun _ => .bind (Code.evaluateAll_settles settled frame operands) fun _ =>
        Machine.sendSuperAt_settles settled site origin selector _ _
  | control controlSite message site selector receiver operands =>
      rw [Code.evaluate]
      exact .bind (Code.evaluate_settles settled frame receiver) fun _ =>
        .bind (Code.evaluateAll_settles settled frame operands) fun _ =>
          Machine.controlAt_settles settled controlSite message site selector _ _
  | answer value span =>
      rw [Code.evaluate]
      refine .bind (Code.evaluate_settles settled frame value) fun answered => .get fun image => ?_
      dsimp only
      split
      · exact .throw id
      · exact .bind (.note _) fun _ => .fail fun _ => Failure.noConfusion

theorem Code.evaluateAll_settles {machine : Machine} (settled : machine.Settled)
    (frame : FrameRef) (codes : List Code) : Settles (Code.evaluateAll machine frame codes) := by
  cases codes with
  | nil =>
      rw [Code.evaluateAll]
      exact .pure _
  | cons code rest =>
      rw [Code.evaluateAll]
      exact .bind (Code.evaluate_settles settled frame code) fun _ =>
        .bind (Code.evaluateAll_settles settled frame rest) fun _ => .pure _

end

section Machines

variable {machine : Machine} (settled : machine.Settled)
include settled

theorem Code.evaluateBody_settles (frame : FrameRef) (body : List Code) :
    Settles (Code.evaluateBody machine frame body) :=
  .bind (Code.evaluateAll_settles settled frame body) fun _ => .pure _

theorem ObjectOperation.run_reports (operation : ObjectOperation) (arguments : List Value) :
    ReportsAtOnce (.object operation) (operation.run machine arguments) := by
  unfold ObjectOperation.run
  dsimp only
  split
  case h_1 => exact (Settles.get fun _ => .pure _).reports _
  case h_2 => exact (Settles.get fun _ => .bind (.ofOption _) fun _ => .pure _).reports _
  case h_3 | h_4 => exact (Machine.send_settles settled _ _).reports _
  case h_5 => exact (Settles.get fun _ => Machine.send_settles settled _ _).reports _
  case h_6 =>
    refine (Settles.get fun image => ?_).reports _
    split
    · exact settled _
    · exact Machine.notUnderstood_settles settled _ _ _
  case h_7 =>
    refine (Settles.bind (.difference _ _) fun _ => .bind (.modifyGet _) fun value => ?_).reports _
    split
    · exact .pure _
    · exact Primitive.refuseField_settles _ _ _
  case h_8 =>
    refine (Settles.bind (.difference _ _) fun _ => .bind (.modifyGet _) fun written =>
      ?_).reports _
    split
    · exact .pure _
    · exact Primitive.refuseField_settles _ _ _
  case h_9 =>
    refine (Settles.get fun _ => .bind (.ofOption _) fun _ => ?_).reports _
    exact .fail fun _ => Failure.noConfusion
  case h_10 => exact (Settles.pure _).reports _
  case h_11 => exact .mismatch _

theorem BooleanOperation.run_reports (operation : BooleanOperation) (arguments : List Value) :
    ReportsAtOnce (.boolean operation) (operation.run machine arguments) := by
  unfold BooleanOperation.run
  split
  case h_1 | h_2 | h_6 | h_7 =>
    refine Settles.reports ?_ _
    split
    all_goals first | exact .pure _ | exact Machine.branch_settles settled _
  case h_3 | h_4 => exact (Machine.branch_settles settled _).reports _
  case h_5 => exact (Settles.pure _).reports _
  case h_8 => exact .mismatch _

/-- A loop looks at the parameters of its blocks, and only then runs them. -/
theorem BlockOperation.runLoop_reports (operation : BlockOperation) (expected : Bool)
    (condition body : BlockRef) :
    ReportsAtOnce (.block operation) (operation.runLoop machine expected condition body) := by
  refine .get fun image => ?_
  split
  · exact (Machine.loop_settles settled _ _ _ _).reports _
  · exact .mismatch _

theorem BlockOperation.run_reports (operation : BlockOperation) (arguments : List Value) :
    ReportsAtOnce (.block operation) (operation.run machine arguments) := by
  unfold BlockOperation.run
  split
  case h_1 => exact (Settles.get fun _ => .pure _).reports _
  case h_2 | h_3 => exact BlockOperation.runLoop_reports settled _ _ _ _
  case h_4 | h_5 | h_6 => exact (settled _).reports _
  case h_7 => exact .mismatch _

theorem MethodOperation.run_reports (operation : MethodOperation) (arguments : List Value) :
    ReportsAtOnce (.method operation) (operation.run machine arguments) := by
  unfold MethodOperation.run
  split
  case h_1 | h_2 => exact (Settles.get fun _ => .pure _).reports _
  case h_3 => exact (Settles.get fun _ => settled _).reports _
  case h_4 => exact .mismatch _

end Machines

theorem ClassOperation.run_reports (operation : ClassOperation) (arguments : List Value) :
    ReportsAtOnce (.classObject operation) (operation.run arguments) := by
  unfold ClassOperation.run
  split
  case h_1 => exact (Settles.modifyGet _).reports _
  case h_2 => exact (Settles.get fun _ => .bind (.meet _) fun _ => .pure _).reports _
  case h_3 =>
    exact (Settles.get fun _ => .bind (.modifyGet _) fun _ => .modifyGet _).reports _
  case h_4 => exact (Settles.get fun _ => .modifyGet _).reports _
  case h_5 =>
    refine (Settles.get fun image => ?_).reports _
    split
    all_goals exact .pure _
  case h_6 => exact .mismatch _

theorem IntegerOperation.random_reports (arguments : List Value) :
    ReportsAtOnce (.integer .atRandom) (IntegerOperation.random arguments) := by
  unfold IntegerOperation.random
  split
  · split
    · exact (Settles.bind (.modifyGet _) fun _ => .pure _).reports _
    · exact (Primitive.refuse_settles _ _).reports _
  · exact (Primitive.refuse_settles _ _).reports _
  · exact .mismatch _

theorem IntegerOperation.run_reports (operation : IntegerOperation) (arguments : List Value) :
    ReportsAtOnce (.integer operation) (operation.run arguments) := by
  unfold IntegerOperation.run
  split
  · exact IntegerOperation.random_reports arguments
  · exact Primitive.conclude_reports _ _

theorem Eval.offset?_settles (index : Int64) (length : Nat) :
    Settles (Eval.offset? index length) :=
  .bind (.difference _ _) fun _ => .pure _

theorem ArrayOperation.run_reports (operation : ArrayOperation) (arguments : List Value) :
    ReportsAtOnce (.array operation) (operation.run arguments) := by
  unfold ArrayOperation.run
  dsimp only
  split
  case h_1 =>
    refine (Settles.get fun image => .bind (Eval.offset?_settles _ _) fun _ => ?_).reports _
    split
    · exact .pure _
    · exact Primitive.refuse_settles _ _
  case h_2 =>
    refine (Settles.get fun image => .bind (Eval.offset?_settles _ _) fun _ => ?_).reports _
    split
    · exact .bind (.modifyGet _) fun _ => .pure _
    · exact Primitive.refuse_settles _ _
  case h_3 => exact (Settles.get fun _ => .pure _).reports _
  case h_4 => exact .mismatch _

theorem StringOperation.run_reports (operation : StringOperation) (arguments : List Value) :
    ReportsAtOnce (.string operation) (operation.run arguments) := by
  unfold StringOperation.run
  dsimp only
  split
  case h_1 => exact (Settles.bind (.meet _) fun _ => .pure _).reports _
  case h_2 => exact (Settles.pure _).reports _
  case h_3 => exact .difference fun _ => Primitive.conclude_reports _ _
  case h_4 => exact Primitive.conclude_reports _ _

theorem FactoryOperation.run_reports (operation : FactoryOperation) (arguments : List Value) :
    ReportsAtOnce (.factory operation) (operation.run arguments) := by
  unfold FactoryOperation.run
  dsimp only
  split
  case h_1 =>
    split
    · exact .mismatch _
    · split
      · exact (Settles.pure _).reports _
      · exact (Primitive.refuse_settles _ _).reports _
  case h_2 =>
    split
    · exact (Settles.pure _).reports _
    · exact (Primitive.refuse_settles _ _).reports _
  case h_3 => exact (Settles.pure _).reports _
  case h_4 =>
    split
    · exact (Primitive.refuse_settles _ _).reports _
    · exact (Settles.modifyGet _).reports _
  case h_5 => exact .mismatch _

section Machines

variable {machine : Machine} (settled : machine.Settled)
include settled

/-- Whatever its arguments, an operation ends with a mismatch only by reporting its own, at once. -/
theorem Primitive.run_reports (primitive : Primitive) (arguments : List Value) :
    ReportsAtOnce primitive (primitive.run machine arguments) := by
  cases primitive with
  | object operation => exact operation.run_reports settled arguments
  | classObject operation => exact operation.run_reports arguments
  | boolean operation => exact operation.run_reports settled arguments
  | integer operation => exact operation.run_reports arguments
  | double operation => exact Primitive.conclude_reports _ _
  | array operation => exact operation.run_reports arguments
  | string operation => exact operation.run_reports arguments
  | symbolAsString => exact Primitive.conclude_reports _ _
  | block operation => exact operation.run_reports settled arguments
  | method operation => exact operation.run_reports settled arguments
  | factory operation => exact operation.run_reports arguments

end Machines

namespace Eval.Settles

theorem withFrame {frame : Frame} {body : FrameRef → Eval Value}
    (settles : ∀ ref, Settles (body ref)) : Settles (Eval.withFrame frame body) := by
  intro image escape after ended
  simp only [Eval.withFrame] at ended
  split at ended
  · cases ended
  · next inner between innerEnded =>
    cases ended
    exact settles _ _ _ _ innerEnded

theorem catchReturn {home : FrameRef} {body : Eval Value} (settles : Settles body) :
    Settles (Eval.catchReturn home body) := by
  intro image escape after ended
  simp only [Eval.catchReturn] at ended
  split at ended
  · split at ended
    · cases ended
    · cases ended
      exact id
  · exact settles image escape after ended

/-- The backtrace of a failure does not matter. -/
theorem traced {method : MethodRef} {body : Eval Value} (settles : Settles body) :
    Settles (Eval.traced method body) := by
  intro image escape after ended
  simp only [Eval.traced] at ended
  split at ended
  · next exception _ innerEnded =>
    cases ended
    exact settles image (.failed exception) _ innerEnded
  · exact settles image escape after ended

theorem complete {body : Eval Value} (settles : Settles body) : Settles body.complete := by
  intro image escape after ended
  simp only [Eval.complete] at ended
  split at ended
  · exact fail (fun _ => Failure.noConfusion) _ _ _ ended
  · exact settles image escape after ended

end Eval.Settles

section Machines

variable {machine : Machine} (settled : machine.Settled)
include settled

namespace Machine

/-- The mismatch of an operation becomes a message to the receiver, and there is no other. -/
theorem runPrimitive_settles (primitive : Primitive) (selector : Selector)
    (arguments : List Value) : Settles (machine.runPrimitive primitive selector arguments) := by
  intro image escape after ended
  simp only [Machine.runPrimitive] at ended
  split at ended
  · exact Settles.bind (.note _) (fun _ => notUnderstoodBy_settles settled _ _) _ _ _ ended
  · next noMismatch =>
    cases escape with
    | unwinding | exhausted | stopped => exact id
    | failed exception =>
        rintro ⟨operation, same⟩
        obtain ⟨failure, backtrace⟩ := exception
        cases same
        exact noMismatch _ _ _ ended

theorem runRoutine_settles (method : MethodRef) (routine : Routine) (receiver : Value)
    (operands : List Value) : Settles (machine.runRoutine method routine receiver operands) :=
  .traced <| .withFrame fun frame => .catchReturn <|
    .bind (Code.evaluateBody_settles settled frame routine.body) fun _ => .pure _

theorem invoke_settles (ref : MethodRef) (arguments : List Value) :
    Settles (machine.invoke ref arguments) := by
  refine .get fun image => ?_
  dsimp only
  split
  · exact .fail fun _ => Failure.noConfusion
  · exact runPrimitive_settles settled _ _ _
  · split
    · exact .fail fun _ => Failure.noConfusion
    · split
      · exact runRoutine_settles settled _ _ _ _
      · exact .fail fun _ => Failure.noConfusion

theorem call_settles (ref : BlockRef) (arguments : List Value) :
    Settles (machine.call ref arguments) :=
  .get fun _ => .withFrame fun frame => Code.evaluateBody_settles settled frame _

theorem step_settles (activation : Activation) : Settles (machine.step activation) := by
  cases activation with
  | method ref arguments => exact invoke_settles settled ref arguments
  | block ref arguments => exact call_settles settled ref arguments

end Machine

end Machines

/-- One unit of budget pays for one nested activation. -/
theorem Activation.run_settles (budget : Nat) (activation : Activation) :
    Settles (activation.run budget) := by
  induction budget generalizing activation with
  | zero => exact .throw id
  | succ budget inductionHypothesis =>
      have settled : (Machine.ofBudget budget).Settled := inductionHypothesis
      exact Machine.step_settles settled activation

theorem Machine.settled_ofBudget (budget : Nat) : (Machine.ofBudget budget).Settled :=
  Activation.run_settles budget

namespace Response

theorem ofEval_fst_not_isMismatch {body : Eval Value} (settles : Settles body) (image : Image) :
    ¬ (Response.ofEval (body image)).1.IsMismatch := by
  cases result : body image with
  | ok value after => exact id
  | error escape after => exact settles image escape after result

theorem ofOption_not_isMismatch (value : Option Value) :
    ¬ (Response.ofOption value).IsMismatch := by
  cases value with
  | none => exact id
  | some value => exact id

end Response

/-- A host is never told of a mismatch. -/
theorem Request.serve_fst_not_isMismatch {machine : Machine} (settled : machine.Settled)
    (request : Request) (image : Image) : ¬ (request.serve machine image).1.IsMismatch := by
  cases request with
  | defineClass | installMethod | prepareMethod =>
      exact Response.ofDefining_fst (motive := (¬ ·.IsMismatch)) (fun _ => id) (fun _ => id) _
  | removeMethod | detach | meet => exact id
  | instantiate | makeArray => exact Response.ofEval_fst_not_isMismatch (.modifyGet _) image
  | send selector receiver operands =>
      exact Response.ofEval_fst_not_isMismatch
        (.complete (.bind (.meet _) fun _ => Machine.send_settles settled _ _)) image
  | invoke method receiver operands =>
      exact Response.ofEval_fst_not_isMismatch (.complete (settled _)) image
  | deliver selector arguments =>
      exact Response.ofEval_fst_not_isMismatch (Machine.send_settles settled _ _) image
  | activate activation => exact Response.ofEval_fst_not_isMismatch (settled _) image
  | setGlobal | readField => exact Response.ofOption_not_isMismatch _
  | writeField receiver index value =>
      simp only [Request.serve]
      split
      all_goals exact id

/-- What follows a mismatch: the selector of the report is met, and from then on the receiver is
told that it does not understand the message, with an array of the operands as they were given. -/
def Machine.Reproaches (machine : Machine) (image : Image) (selector : Selector) (receiver : Value)
    (operands : List Value) (result : EStateM.Result Escape Image Value) : Prop :=
  ∃ journal, result =
    match image.lookupFor receiver Machine.misunderstanding with
    | none =>
        .error (.failed {
          failure := .lookupFailure (image.className (image.classOf receiver)) misunderstanding
          backtrace := #[] }) { image.meet misunderstanding with journal }
    | some handler =>
        machine.activate
          (.method handler [receiver, .symbol selector, .array image.heap.arrays.next])
          (({ image.meet misunderstanding with journal } : Image).addArray operands.toArray)

/-- What comes after noting an event goes on from the image with the event in its journal. -/
theorem Eval.note_bind {Next : Type} (describe : Image → Event) (next : Unit → Eval Next)
    (image : Image) : (Eval.note describe >>= next) image = next () (image.note describe) :=
  rfl

theorem Machine.notUnderstood_reproaches (machine : Machine) (image : Image) (journal : Journal)
    (selector : Selector) (receiver : Value) (operands : List Value) :
    machine.Reproaches image selector receiver operands
      (machine.notUnderstood receiver selector operands { image with journal }) := by
  have same : ({ image with journal } : Image).meetAll [misunderstanding] =
      { image.meet misunderstanding with journal } := rfl
  have lookup : ({ image.meet misunderstanding with journal } : Image).lookupFor receiver
      misunderstanding = image.lookupFor receiver misunderstanding :=
    Image.lookup_of_classes (by rfl) _ _
  rw [Machine.notUnderstood, Eval.meet_bind, Eval.get_bind, same, lookup]
  cases found : image.lookupFor receiver misunderstanding with
  | none => exact ⟨journal, by rw [found]; rfl⟩
  | some handler =>
      refine ⟨(({ image.meet misunderstanding with journal } : Image).note fun image =>
        .notUnderstood (image.text? receiver) selector).journal, ?_⟩
      dsimp only
      rw [found, Eval.note_bind, Image.note_eq, Eval.makeArray, Eval.modifyGet_bind]
      rfl

/-- An operation that reports a mismatch leads to the message that reports it. -/
theorem Machine.invoke_reproaches {machine : Machine} {primitive : Primitive} {ref : MethodRef}
    {receiver : Value} {operands : List Value} {image : Image}
    (performs : (image.methodAt ref).behavior = .primitive primitive)
    (reported : primitive.run machine (receiver :: operands) image =
      .error (.failed { failure := .typeMismatch primitive.title, backtrace := #[] }) image) :
    machine.Reproaches image (image.methodAt ref).selector receiver operands
      (machine.invoke ref (receiver :: operands) image) := by
  rw [Machine.invoke, Eval.get_bind]
  dsimp only
  rw [performs]
  dsimp only [Machine.runPrimitive]
  rw [reported]
  dsimp only
  rw [Eval.note_bind, Image.note_eq]
  exact machine.notUnderstood_reproaches image _ _ receiver operands

/-- No evaluation ends with a mismatch, and no host is told of one.  An operation that ends with a
mismatch has changed nothing, whatever its arguments; it reports itself, and its invocation goes on
from the image that it started from, by telling the receiver that the message is not understood. -/
theorem mismatches_stay_inside (budget : Nat) :
    (∀ frame code, Settles (Code.evaluate (.ofBudget budget) frame code)) ∧
    (∀ frame body, Settles (Code.evaluateBody (.ofBudget budget) frame body)) ∧
    (∀ ref arguments, Settles ((Machine.ofBudget budget).invoke ref arguments)) ∧
    (∀ ref arguments, Settles ((Machine.ofBudget budget).call ref arguments)) ∧
    (∀ selector arguments, Settles ((Machine.ofBudget budget).send selector arguments)) ∧
    (∀ site selector receiver operands,
      Settles ((Machine.ofBudget budget).sendAt site selector receiver operands)) ∧
    (∀ site origin selector receiver operands,
      Settles ((Machine.ofBudget budget).sendSuperAt site origin selector receiver operands)) ∧
    (∀ request image, ¬ (Request.serve (.ofBudget budget) request image).1.IsMismatch) ∧
    ∀ primitive arguments image escape after,
      Primitive.run (.ofBudget budget) primitive arguments image = .error escape after →
      escape.IsMismatch →
        after = image ∧
        escape = .failed { failure := .typeMismatch primitive.title, backtrace := #[] } ∧
        ∀ ref receiver operands, arguments = receiver :: operands →
          (image.methodAt ref).behavior = .primitive primitive →
            (Machine.ofBudget budget).Reproaches image (image.methodAt ref).selector receiver
              operands ((Machine.ofBudget budget).invoke ref arguments image) := by
  have settled := Machine.settled_ofBudget budget
  refine ⟨Code.evaluate_settles settled, Code.evaluateBody_settles settled,
    Machine.invoke_settles settled, Machine.call_settles settled, Machine.send_settles settled,
    Machine.sendAt_settles settled, Machine.sendSuperAt_settles settled,
    Request.serve_fst_not_isMismatch settled, ?_⟩
  intro primitive arguments image escape after ended mismatch
  obtain ⟨rfl, rfl⟩ := primitive.run_reports settled arguments image escape after ended mismatch
  refine ⟨rfl, rfl, ?_⟩
  rintro ref receiver operands rfl performs
  exact Machine.invoke_reproaches performs ended

/-- The method that adds integers, in a machine that has just been set up. -/
def sumRef : MethodRef :=
  ⟨28⟩

/-- Whether a behavior is the addition of integers. -/
def Behavior.isSum : Behavior → Bool
  | .primitive (.integer .plus) => true
  | _ => false

theorem behavior_sumRef :
    ((Image.initial .plain .standard false).methodAt sumRef).behavior =
      .primitive (.integer .plus) := by
  have found : ((Image.initial .plain .standard false).methodAt sumRef).behavior.isSum = true := by
    decide +kernel
  unfold Behavior.isSum at found
  split at found
  · next same => exact same
  · cases found

/-- A number does not understand how to add a string to itself. -/
theorem mismatches_stay_inside_sum :
    Primitive.run (.ofBudget 1) (.integer .plus) [.integer 3, .string "x"]
      (Image.initial .plain .standard false) =
        .error (.failed { failure := .typeMismatch "Integer>>#+", backtrace := #[] })
          (Image.initial .plain .standard false) ∧
    (Machine.ofBudget 1).Reproaches (Image.initial .plain .standard false) "+" (.integer 3)
      [.string "x"]
      ((Machine.ofBudget 1).invoke sumRef [.integer 3, .string "x"]
        (Image.initial .plain .standard false)) := by
  refine ⟨rfl, ?_⟩
  obtain ⟨-, -, -, -, -, -, -, -, contained⟩ := mismatches_stay_inside 1
  obtain ⟨-, -, reproaches⟩ := contained (.integer .plus) [.integer 3, .string "x"]
    (Image.initial .plain .standard false) _ _ rfl ⟨_, rfl⟩
  have named : ((Image.initial .plain .standard false).methodAt sumRef).selector = "+" := by
    decide +kernel
  rw [← named]
  exact reproaches sumRef (.integer 3) [.string "x"] rfl behavior_sumRef

end MessageMachine
