import MessageMachine.Primitive.Collection
import MessageMachine.Primitive.Control
import MessageMachine.Primitive.Double
import MessageMachine.Primitive.Reflection
import MessageMachine.Primitive.String

/-!
# Activations

What it means to run a method or a block, and the machine itself: it runs an activation by way of a
machine with one unit of budget less, so that the budget bounds both how deeply activations nest and
how long each loop runs.
-/

namespace MessageMachine

/-- Run a primitive operation. -/
def Primitive.run (machine : Machine) (primitive : Primitive) (arguments : List Value) :
    Eval Value :=
  match primitive with
  | .object operation => operation.run machine arguments
  | .classObject operation => operation.run arguments
  | .boolean operation => operation.run machine arguments
  | .integer operation => operation.run arguments
  | .double operation => primitive.conclude (operation.reply arguments)
  | .array operation => operation.run arguments
  | .string operation => operation.run arguments
  | .symbolAsString => primitive.conclude (symbolTextReply arguments)
  | .block operation => operation.run machine arguments
  | .method operation => operation.run machine arguments
  | .factory operation => operation.run arguments

namespace Machine

/-- Run the prepared code of a method.  A body that ends without a return answers the receiver. -/
def runRoutine (machine : Machine) (method : MethodRef) (routine : Routine) (receiver : Value)
    (operands : List Value) : Eval Value :=
  Eval.traced method <|
    Eval.withFrame (.ofMethod method receiver operands routine.temporaries) fun frame =>
      Eval.catchReturn frame do
        let _ ← Code.evaluateBody machine frame routine.body
        return receiver

/-- Run a primitive method.  If the operation finds the arguments to be of the wrong kinds, the
receiver is told that it does not understand the message. -/
def runPrimitive (machine : Machine) (primitive : Primitive) (selector : Selector)
    (arguments : List Value) : Eval Value := fun image =>
  match primitive.run machine arguments image with
  | .error (.failed { failure := .typeMismatch operation, backtrace := _ }) image =>
      (do
        Eval.note fun _ => .typesRejected operation
        machine.notUnderstoodBy selector arguments : Eval Value) image
  | result => result

/-- Invoke a method. -/
def invoke (machine : Machine) (ref : MethodRef) (arguments : List Value) : Eval Value := do
  let image ← get
  let method := image.methodAt ref
  match method.behavior with
  | .missing title => Eval.fail (.unimplemented title)
  | .primitive primitive => machine.runPrimitive primitive method.selector arguments
  | .defined routine =>
      match arguments with
      | [] => Eval.fail (.internal .invocationWithoutReceiver)
      | receiver :: operands =>
          if operands.length = routine.parameters then
            machine.runRoutine ref routine receiver operands
          else
            Eval.fail (.refused (image.methodName ref)
              (.argumentCount routine.parameters operands.length))

/-- Call a block. -/
def call (machine : Machine) (ref : BlockRef) (arguments : List Value) : Eval Value := do
  let image ← get
  let closure := image.blockAt ref
  let receiver := match closure.captured with
    | some parent => (image.frameAt parent).receiver
    | none => .nil
  Eval.withFrame (.ofBlock closure.captured receiver arguments closure.temporaries) fun frame =>
    Code.evaluateBody machine frame closure.body

/-- Run an activation by way of a machine for the activations inside it. -/
def step (machine : Machine) : Activation → Eval Value
  | .method ref arguments => machine.invoke ref arguments
  | .block ref arguments => machine.call ref arguments

end Machine

/-- Run an activation within a budget. -/
def Activation.run : Nat → Activation → Eval Value
  | 0, _ => throw .exhausted
  | budget + 1, activation =>
      Machine.step { activate := Activation.run budget, patience := budget } activation

/-- The machine with a given budget. -/
def Machine.ofBudget (budget : Nat) : Machine where
  activate := Activation.run budget
  patience := budget

end MessageMachine
