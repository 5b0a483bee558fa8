import MessageMachine.Primitive.Reply

/-!
# Operations of arrays, and of the core class objects

Positions in arrays count from one.
-/

namespace MessageMachine

/-- The place of a position that counts from one, among a number of elements. -/
def Eval.offset? (index : Int64) (length : Nat) : Eval (Option Nat) := do
  return (place? (← Eval.difference index 1)).filter (· < length)

/-- Run an operation of arrays. -/
def ArrayOperation.run (operation : ArrayOperation) (arguments : List Value) : Eval Value := do
  let primitive := Primitive.array operation
  match operation, arguments with
  | .at, .array ref :: .integer index :: _ =>
      let elements := (← get).arrayAt ref
      match ← Eval.offset? index elements.size with
      | some place => return elements[place]?.getD .nil
      | none => primitive.refuse (.outOfBounds index elements.size)
  | .atPut, .array ref :: .integer index :: value :: _ =>
      let length := ((← get).arrayAt ref).size
      match ← Eval.offset? index length with
      | some place =>
          modify fun image =>
            let arrays := image.heap.arrays.modify ref fun elements =>
              elements.setIfInBounds place value
            { image with heap := { image.heap with arrays } }
          return .array ref
      | none => primitive.refuse (.outOfBounds index length)
  | .length, .array ref :: _ => return .ofInt ((← get).arrayAt ref).size
  | _, _ => primitive.mismatch

/-- Run an operation of a core class object. -/
def FactoryOperation.run (operation : FactoryOperation) (arguments : List Value) :
    Eval Value := do
  let primitive := Primitive.factory operation
  match operation, arguments with
  | .integerFromString, _ :: value :: _ =>
      match value.characters? with
      | none => primitive.mismatch
      | some text =>
          match Integer.read text with
          | .ok number => return .ofInt number
          | .error error => primitive.refuse (.notAnInteger error)
  | .doubleFromString, _ :: .string text :: _ =>
      match Double.read text with
      | .ok number => return .double number
      | .error error => primitive.refuse (.notADouble error)
  | .positiveInfinity, _ => return .double Double.infinity
  | .newArray, _ :: .integer length :: _ =>
      if length < 0 then primitive.refuse .negativeLength
      else Eval.makeArray (Array.replicate length.toInt.toNat .nil)
  | _, _ => primitive.mismatch

end MessageMachine
