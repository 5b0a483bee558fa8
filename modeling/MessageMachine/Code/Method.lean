import MessageMachine.Code.Primitive
import MessageMachine.Code.Tree

/-!
# Methods

A method belongs to the class that holds it, is found under its selector, and either runs prepared
code, is bound to a primitive operation, or was declared primitive without such an operation.
-/

namespace MessageMachine

/-- What a method does when it is invoked. -/
inductive Behavior
  | defined (routine : Routine)
  | primitive (operation : Primitive)
  /-- Declared as primitive, but the machine has no such operation. -/
  | missing (title : String)

/-- A method of a class. -/
structure Method where
  holder : ClassRef
  selector : Selector
  behavior : Behavior

instance : Inhabited Method :=
  ⟨{ holder := default, selector := "", behavior := .missing "" }⟩

namespace Method

/-- Whether a method is bound to a primitive operation. -/
def isPrimitive (method : Method) : Bool :=
  match method.behavior with
  | .primitive _ => true
  | _ => false

/-- The sites of the sends in the body of a method. -/
def callSites (method : Method) : List CallSiteRef :=
  match method.behavior with
  | .defined routine => routine.callSites
  | _ => []

/-- The body of a method. -/
def body (method : Method) : List Code :=
  match method.behavior with
  | .defined routine => routine.body
  | _ => []

end Method

end MessageMachine
