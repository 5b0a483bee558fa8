import MessageMachine.Primitive.Reply
import MessageMachine.Text.Digest

/-!
# Operations of objects, classes and methods

What every object understands, and the operations through which a program looks at classes and
methods, sends messages by name and reaches fields by position.
-/

namespace MessageMachine

/-- The hash code of a value.  What lies in memory has the code of its address, classes and symbols
have that of their number, and all other values that of their text, closed by a byte that occurs in
no text. -/
def Image.hashcode? (image : Image) : Value → Option Int64
  | .object ref => some (Digest.code (Digest.addressBytes (image.platform.address ref)))
  | .array ref => some (Digest.code (Digest.addressBytes (image.platform.address ref)))
  | .block ref => some (Digest.code (Digest.addressBytes (image.platform.address ref)))
  | .method ref => some (Digest.code (Digest.addressBytes (image.platform.address ref)))
  | .classObject ref => some (Digest.code (Digest.identifierBytes ref.index))
  | .symbol name => some (Digest.code (Digest.identifierBytes (image.interner.number name)))
  | value => (image.text? value).map fun text =>
      Digest.code (Digest.textBytes text ++ [0xff])

/-- Refuse access to a field that a receiver does not have. -/
def Primitive.refuseField (primitive : Primitive) (receiver : Value) (index : Int64) :
    Eval Value := do
  let text ← Eval.ofOption ((← get).text? receiver)
  primitive.refuse (.noField text index)

/-- Run an operation that every object understands. -/
def ObjectOperation.run (machine : Machine) (operation : ObjectOperation)
    (arguments : List Value) : Eval Value := do
  let primitive := Primitive.object operation
  match operation, arguments with
  | .classOf, value :: _ => return .classObject ((← get).classOf value)
  | .hashcode, value :: _ => return .integer (← Eval.ofOption ((← get).hashcode? value))
  | .perform, receiver :: .symbol selector :: _ => machine.send selector [receiver]
  | .performWith, receiver :: .symbol selector :: operand :: _ =>
      machine.send selector [receiver, operand]
  | .performWithArguments, receiver :: .symbol selector :: .array operands :: _ =>
      machine.send selector (receiver :: ((← get).arrayAt operands).toList)
  | .performInSuperclass, receiver :: .symbol selector :: .classObject origin :: _ =>
      match (← get).lookup origin selector with
      | some method => machine.activate (.method method [receiver])
      | none => machine.notUnderstood receiver selector []
  | .fieldAt, receiver :: .integer index :: _ =>
      let position ← Eval.difference index 1
      let value ← modifyGet fun image =>
        match place? position with
        | some place => image.readField receiver place
        | none => (none, image)
      match value with
      | some value => return value
      | none => primitive.refuseField receiver index
  | .fieldAtPut, receiver :: .integer index :: value :: _ =>
      let position ← Eval.difference index 1
      let written ← modifyGet fun image =>
        match place? position with
        | some place => image.writeField receiver place value
        | none => (false, image)
      if written then return value
      else primitive.refuseField receiver index
  | .notUnderstood, receiver :: .symbol selector :: _ :: _ =>
      let text ← Eval.ofOption ((← get).text? receiver)
      Eval.fail (.notUnderstood text selector)
  | .identical, left :: right :: _ => return .boolean (left.same right)
  | _, _ => primitive.mismatch

/-- Run an operation of class objects. -/
def ClassOperation.run (operation : ClassOperation) (arguments : List Value) : Eval Value := do
  match operation, arguments with
  | .new, .classObject ref :: _ => Eval.makeObject ref
  | .name, .classObject ref :: _ => do
      let name := (← get).className ref
      Eval.meet name
      return .symbol name
  | .fields, .classObject ref :: _ => do
      let fields := ((← get).classAt ref).fields
      modify fun image => image.meetAll fields
      Eval.makeArray (fields.map .symbol).toArray
  | .methods, .classObject ref :: _ =>
      Eval.makeArray (((← get).classAt ref).methods.values.map .method).toArray
  | .superclass, .classObject ref :: _ =>
      match ((← get).classAt ref).superclass with
      | some parent => return .classObject parent
      | none => return .nil
  | _, _ => (Primitive.classObject operation).mismatch

/-- Run an operation of methods. -/
def MethodOperation.run (machine : Machine) (operation : MethodOperation)
    (arguments : List Value) : Eval Value := do
  match operation, arguments with
  | .holder, .method ref :: _ => return .classObject ((← get).methodAt ref).holder
  | .signature, .method ref :: _ => return .symbol ((← get).methodAt ref).selector
  | .invokeOnWith, .method ref :: receiver :: .array operands :: _ =>
      machine.activate (.method ref (receiver :: ((← get).arrayAt operands).toList))
  | _, _ => (Primitive.method operation).mismatch

end MessageMachine
