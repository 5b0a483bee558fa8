import MessageMachine.Memory.Arena

/-!
# Receiver categories

A guard is a cheap test that two receivers have the same class, and hence the same methods.  Both
forms of an integer share a category, blocks are told apart by their number of parameters, and
every class object is a category of its own.
-/

namespace MessageMachine

/-- The category of a receiver. -/
inductive Guard
  | nil
  | truth
  | falsity
  | integer
  | double
  | string
  | symbol
  | array
  | block (parameters : Nat)
  | method
  | primitive
  | classObject (ref : ClassRef)
  | object (owner : ClassRef)
deriving DecidableEq, Repr

namespace Guard

/-- The text of a category, given how classes are named. -/
def text (nameOf : ClassRef → String) : Guard → String
  | .nil => "Nil"
  | .truth => "True"
  | .falsity => "False"
  | .integer => "Integer"
  | .double => "Double"
  | .string => "String"
  | .symbol => "Symbol"
  | .array => "Array"
  | .block parameters => "Block(" ++ toString parameters ++ ")"
  | .method => "Method"
  | .primitive => "Primitive"
  | .classObject ref => "Class(" ++ nameOf ref ++ ")"
  | .object owner => "Instance(" ++ nameOf owner ++ ")"

end Guard

end MessageMachine
