import MessageMachine.Machine.Fields

/-!
# Evaluations

An evaluation changes the image and ends with a value, or leaves early: with a value on its way to
the method activation that returns it, with a failure, because the given budget is used up, or
because the machine stops for good.
Running a method or a block is called an activation.  Evaluations never run activations themselves;
they ask a machine to, so that everything but the machine is plain recursion over code.
-/

namespace MessageMachine

/-- How an evaluation leaves early. -/
inductive Escape
  /-- A value on its way to the activation of a frame, which returns it. -/
  | unwinding (value : Value) (home : FrameRef)
  | failed (exception : Exception)
  /-- The budget of activations or loop rounds is used up, or none would be enough. -/
  | exhausted
  /-- The machine has stopped. -/
  | stopped

/-- Computations that change the image and may leave early. -/
abbrev Eval := EStateM Escape Image

/-- What can be run. -/
inductive Activation
  /-- A method, with its receiver as the first argument. -/
  | method (method : MethodRef) (arguments : List Value)
  | block (block : BlockRef) (arguments : List Value)

/-- What evaluations ask for: to run an activation, and how many rounds a loop may take. -/
structure Machine where
  activate : Activation → Eval Value
  patience : Nat

namespace Eval

/-- Fail, from here. -/
def fail {Answer : Type} (failure : Failure) : Eval Answer :=
  throw (.failed { failure, backtrace := #[] })

/-- Note an event in the journal. -/
@[inline] def note (describe : Image → Event) : Eval Unit :=
  modify fun image => image.note describe

/-- Meet a name. -/
def meet (name : String) : Eval Unit :=
  modify fun image => image.meet name

/-- The difference of two words.  If it is not a word, the machine stops or goes on with what is
left of it, as the platform has it. -/
def difference (left right : Int64) : Eval Int64 := do
  match (← get).platform.difference? left right with
  | some result => return result
  | none => throw .stopped

/-- What it takes forever to compute is beyond every budget. -/
def ofOption {Answer : Type} : Option Answer → Eval Answer
  | some answer => return answer
  | none => throw .exhausted

/-- Make an array. -/
def makeArray (values : Array Value) : Eval Value :=
  modifyGet fun image =>
    (.array image.heap.arrays.next,
      { image with heap := { image.heap with arrays := image.heap.arrays.push values } })

/-- Make a block. -/
def makeBlock (closure : Closure) : Eval Value :=
  modifyGet fun image =>
    (.block image.heap.blocks.next,
      { image with heap := { image.heap with blocks := image.heap.blocks.push closure } })

/-- Make an instance of a class. -/
def makeObject (ref : ClassRef) : Eval Value :=
  modifyGet fun image =>
    let (object, image) := image.instantiate ref
    (.object object, image)

/-- Change a frame. -/
def modifyFrame (ref : FrameRef) (change : Frame → Frame) : Eval Unit :=
  modify fun image =>
    { image with heap := { image.heap with frames := image.heap.frames.modify ref change } }

/-- Evaluate something in a fresh frame.  However that ends, the activation of the frame is over
then. -/
def withFrame (frame : Frame) (body : FrameRef → Eval Value) : Eval Value := fun image =>
  let ref := image.heap.frames.next
  let image := { image with heap := { image.heap with frames := image.heap.frames.push frame } }
  match body ref image with
  | .ok value image => (do modifyFrame ref Frame.terminate; return value : Eval Value) image
  | .error escape image =>
      (do modifyFrame ref Frame.terminate; throw escape : Eval Value) image

/-- Take up a value on its way to a frame. -/
def catchReturn (home : FrameRef) (body : Eval Value) : Eval Value := fun image =>
  match body image with
  | .error (.unwinding value target) image =>
      if target = home then .ok value image else .error (.unwinding value target) image
  | result => result

/-- Add a method to the backtrace of a failure that leaves it. -/
def traced (method : MethodRef) (body : Eval Value) : Eval Value := fun image =>
  match body image with
  | .error (.failed exception) image =>
      .error (.failed { exception with backtrace := exception.backtrace.push method }) image
  | result => result

end Eval

end MessageMachine
