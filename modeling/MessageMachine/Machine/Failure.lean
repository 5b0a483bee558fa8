import MessageMachine.Language.Source
import MessageMachine.Memory.Arena
import MessageMachine.Number.DoubleText

/-!
# Failures

The ways in which an evaluation can go wrong, as causes.  Their wording is fixed here and nowhere
else.
-/

namespace MessageMachine

/-- Why an operation refused arguments of the right kinds. -/
inductive Refusal
  | divisionByZero
  | negativeShift
  | negativeRoot
  | emptyRange
  | rangeTooBig
  | notAnInteger (error : Integer.ReadingError)
  | notADouble (error : Double.ReadingError)
  | notIntegral
  | notRoundable
  | outOfBounds (index : Int64) (length : Nat)
  | negativeLength
  | noField (receiver : String) (index : Int64)
  | argumentCount (expected given : Nat)
deriving DecidableEq

/-- The wording of a refusal. -/
def Refusal.message : Refusal → String
  | .divisionByZero => "division by zero"
  | .negativeShift => "negative shift amount"
  | .negativeRoot => "square root of a negative number"
  | .emptyRange => "the range to pick a random value from is empty"
  | .rangeTooBig => "the range is too big to pick a random value from"
  | .notAnInteger error => error.message
  | .notADouble error => error.message
  | .notIntegral => "non-finite `Double` has no integer value"
  | .notRoundable => "non-finite `Double` cannot be rounded"
  | .outOfBounds index length =>
      "index " ++ Integer.text index.toInt ++ " out of bounds (length is " ++ toString length ++
        ")"
  | .negativeLength => "out of range integral type conversion attempted"
  | .noField receiver index =>
      "'" ++ receiver ++ "' has no field #" ++ Integer.text index.toInt
  | .argumentCount expected given =>
      "expected " ++ toString expected ++ " arguments, got " ++ toString given

/-- Ways in which code can fail to fit the activation it runs in. -/
inductive Fault
  | invocationWithoutReceiver
  | sendWithoutReceiver
  | fieldNotRead (index : Nat)
  | fieldNotWritten (index : Nat)
  | slotNotRead (slot : Slot)
  | slotNotWritten (slot : Slot)
deriving DecidableEq

/-- The wording of a fault. -/
def Fault.message : Fault → String
  | .invocationWithoutReceiver => "missing receiver for invocation"
  | .sendWithoutReceiver => "message send without a receiver"
  | .fieldNotRead index => "no field #" ++ toString index ++ " to read"
  | .fieldNotWritten index => "no field #" ++ toString index ++ " to write to"
  | .slotNotRead slot => "variable " ++ slot.text ++ " not found"
  | .slotNotWritten slot => "variable " ++ slot.text ++ " not found to assign to"

/-- The ways in which an evaluation can fail. -/
inductive Failure
  /-- An operation got arguments of the wrong kinds.  The invocation that asked for the operation
  answers this by telling the receiver that the message is not understood. -/
  | typeMismatch (operation : String)
  | notUnderstood (receiver : String) (selector : Selector)
  /-- A return to a method activation that had already ended. -/
  | escapedReturn (method : String) (span : Span)
  /-- Not even the message that reports misunderstandings is understood. -/
  | lookupFailure (className : String) (selector : Selector)
  | unknownGlobal (name : String)
  | unimplemented (operation : String)
  | refused (operation : String) (refusal : Refusal)
  | internal (fault : Fault)
deriving DecidableEq

/-- The wording of a failure. -/
def Failure.message : Failure → String
  | .typeMismatch operation => "'" ++ operation ++ "': wrong argument types"
  | .notUnderstood receiver selector =>
      "message not understood: '" ++ receiver ++ "' does not understand #" ++ selector
  | .escapedReturn method span =>
      "non-local return from '" ++ method ++ "' (at " ++ span.text ++
        ") escaped its method activation"
  | .lookupFailure className selector =>
      "could not find #" ++ selector ++ " anywhere in the class chain of '" ++ className ++
        "' (broken bootstrap)"
  | .unknownGlobal name => "unknown global '" ++ name ++ "'"
  | .unimplemented operation => "unimplemented primitive: " ++ operation
  | .refused operation refusal => "'" ++ operation ++ "': " ++ refusal.message
  | .internal fault => "internal error: " ++ fault.message

/-- A failure on its way out, with the methods it has left so far, innermost first. -/
structure Exception where
  failure : Failure
  backtrace : Array MethodRef

end MessageMachine
