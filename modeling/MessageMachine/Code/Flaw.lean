import MessageMachine.Language.Source
import MessageMachine.Number.Integer

/-!
# Flaws of definitions

What can be wrong with a class or method definition, as causes, and their wording.
-/

namespace MessageMachine

/-- The largest number of parameters of a block. -/
def blockParameterLimit : Nat :=
  2

/-- What can be wrong with the body of a method. -/
inductive BodyFlaw
  | operandCount (selector : Selector) (given expected : Nat)
  | noSuperclass (method selector : Selector) (className : String)
  | blockParameters (parameters : Nat)
  | bigLiteral (digits : String) (error : Integer.ReadingError)
  | fieldOutOfRange (index : Nat) (className : String) (fields : Nat)
  | beyondMethod (slot : Slot)
  | slotOutOfRange (slot : Slot) (available : Nat)
deriving DecidableEq

/-- The wording of a flaw. -/
def BodyFlaw.message : BodyFlaw → String
  | .operandCount selector given expected =>
      "message #" ++ selector ++ " sent with " ++ toString given ++ " arguments, expected " ++
        toString expected
  | .noSuperclass method selector className =>
      "'" ++ method ++ "' sends #" ++ selector ++ " to super, but '" ++ className ++
        "' has no superclass"
  | .blockParameters parameters =>
      "blocks can have at most " ++ toString blockParameterLimit ++
        " parameters, found one with " ++ toString parameters
  | .bigLiteral digits error =>
      "invalid big integer literal '" ++ digits ++ "': " ++ error.message
  | .fieldOutOfRange index className fields =>
      "field #" ++ toString index ++ " out of range ('" ++ className ++ "' has " ++
        toString fields ++ " fields)"
  | .beyondMethod slot => slot.text ++ " refers past the enclosing method"
  | .slotOutOfRange slot available =>
      slot.text ++ " out of range (only " ++ toString available ++ " in scope)"

/-- What can be wrong with a definition. -/
inductive Flaw
  | superclassNotAClass (className superclass : String)
  | superclassUndefined (className superclass : String)
  | repeatedField (className field : String)
  | noBody (selector : Selector)
  | parameterCount (selector : Selector) (expected declared : Nat)
  | inBody (selector : Selector) (flaw : BodyFlaw)
deriving DecidableEq

/-- The wording of a flaw. -/
def Flaw.message : Flaw → String
  | .superclassNotAClass className superclass =>
      className ++ ": superclass '" ++ superclass ++ "' is not a class"
  | .superclassUndefined className superclass =>
      className ++ ": superclass '" ++ superclass ++ "' is not defined"
  | .repeatedField className field =>
      className ++ ": the field named '" ++ field ++ "' is already defined in this class"
  | .noBody selector => "'" ++ selector ++ "' is a primitive, it has no body to compile"
  | .parameterCount selector expected declared =>
      "'" ++ selector ++ "' expects " ++ toString expected ++ " parameters, but " ++
        toString declared ++ " are declared"
  | .inBody selector flaw =>
      "could not compile method '" ++ selector ++ "': " ++ flaw.message

end MessageMachine
