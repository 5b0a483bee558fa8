import MessageMachine.Machine.Activation
import MessageMachine.Machine.Bootstrap

/-!
# Requests of a host

What a program that embeds the machine can ask for, and what it is told.  A session is a list of
requests served one after the other; a request that fails is reported and the session goes on with
the image as it was left.  A host stands outside every method activation, so that a return that
reaches it has escaped.
-/

namespace MessageMachine

/-- Treat a return that reaches the host as escaped. -/
def Eval.complete (body : Eval Value) : Eval Value := fun image =>
  match body image with
  | .error (.unwinding _ home) image =>
      Eval.fail (.escapedReturn (image.frameName home) Span.absent) image
  | result => result

/-- What a host can ask for. -/
inductive Request
  | defineClass (definition : Source.ClassDefinition)
  | installMethod (holder : ClassRef) (definition : Source.MethodDefinition)
  /-- Prepare a method without installing it. -/
  | prepareMethod (holder : ClassRef) (definition : Source.MethodDefinition)
  /-- Take a method out of the dictionary of a class, behind the back of the send sites. -/
  | removeMethod (holder : ClassRef) (selector : Selector)
  | instantiate (owner : ClassRef)
  | makeArray (elements : List Value)
  /-- Make a block with the body of another one, but without the frame that it captured. -/
  | detach (block : BlockRef)
  | send (selector : Selector) (receiver : Value) (operands : List Value)
  | invoke (method : MethodRef) (receiver : Value) (operands : List Value)
  /-- Send a message to the first of some arguments, with returns not treated as escaped. -/
  | deliver (selector : Selector) (arguments : List Value)
  /-- Run an activation, with returns not treated as escaped. -/
  | activate (activation : Activation)
  /-- Meet a name, to hand it over as a symbol or as a selector. -/
  | meet (name : String)
  | setGlobal (name : String) (value : Value)
  | readField (receiver : Value) (index : Nat)
  | writeField (receiver : Value) (index : Nat) (value : Value)

/-- What a host is told. -/
inductive Response
  | done
  | answer (value : Value)
  /-- There is nothing of the kind that was asked for. -/
  | absent
  | removed (found : Bool)
  | defined (ref : ClassRef)
  | prepared (routine : Routine)
  | escaped (escape : Escape)
  | flawed (flaw : Flaw)

namespace Response

/-- The response to a request that asks for something which need not exist. -/
def ofOption : Option Value → Response
  | some value => .answer value
  | none => .absent

/-- The response to a definition. -/
def ofDefining {Answer : Type} (respond : Answer → Response) :
    EStateM.Result Flaw Image Answer → Response × Image
  | .ok result image => (respond result, image)
  | .error flaw image => (.flawed flaw, image)

/-- The response to an evaluation. -/
def ofEval : EStateM.Result Escape Image Value → Response × Image
  | .ok value image => (.answer value, image)
  | .error escape image => (.escaped escape, image)

end Response

namespace Image

/-- A block with the same body as another one, without the frame that it captured. -/
def detach (image : Image) (ref : BlockRef) : BlockRef × Image :=
  let closure := { image.blockAt ref with captured := none }
  (image.heap.blocks.next,
    { image with heap := { image.heap with blocks := image.heap.blocks.push closure } })

/-- Take the events noted so far out of the journal. -/
def takeEvents (image : Image) : List Event × Image :=
  (image.journal.events.toList, { image with journal := { image.journal with events := #[] } })

end Image

namespace Request

/-- Serve one request. -/
def serve (machine : Machine) (request : Request) (image : Image) : Response × Image :=
  match request with
  | .defineClass definition => Response.ofDefining .defined (Image.defineClass definition image)
  | .installMethod holder definition =>
      Response.ofDefining (fun _ => .done) (Image.installMethod holder definition image)
  | .prepareMethod holder definition =>
      Response.ofDefining .prepared (Image.prepareMethod holder definition image)
  | .removeMethod holder selector =>
      let (found, image) := image.removeMethod holder selector
      (.removed found, image)
  | .instantiate owner => Response.ofEval (Eval.makeObject owner image)
  | .makeArray elements => Response.ofEval (Eval.makeArray elements.toArray image)
  | .detach block =>
      let (detached, image) := image.detach block
      (.answer (.block detached), image)
  | .send selector receiver operands =>
      let sending : Eval Value := do
        Eval.meet selector
        machine.send selector (receiver :: operands)
      Response.ofEval (Eval.complete sending image)
  | .invoke method receiver operands =>
      let activation := Activation.method method (receiver :: operands)
      Response.ofEval (Eval.complete (machine.activate activation) image)
  | .deliver selector arguments => Response.ofEval (machine.send selector arguments image)
  | .activate activation => Response.ofEval (machine.activate activation image)
  | .meet name => (.done, image.meet name)
  | .setGlobal name value =>
      let (previous, image) := image.setGlobal name value
      (.ofOption previous, image)
  | .readField receiver index =>
      let (value, image) := image.readField receiver index
      (.ofOption value, image)
  | .writeField receiver index value =>
      let (written, image) := image.writeField receiver index value
      (if written then .done else .absent, image)

/-- Serve requests one after the other. -/
def serveAll (machine : Machine) : List Request → Image → List Response × Image
  | [], image => ([], image)
  | request :: rest, image =>
      let (response, image) := request.serve machine image
      let (responses, image) := serveAll machine rest image
      (response :: responses, image)

end Request

end MessageMachine
