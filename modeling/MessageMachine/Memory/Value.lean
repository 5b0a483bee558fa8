import MessageMachine.Memory.Arena
import MessageMachine.Number.Double
import MessageMachine.Number.Integer

/-!
# Values

A value is plain data or a reference.  Numbers, texts, booleans and nil are compared by what they
are; arrays, blocks, objects, classes and methods by which they are.  An integer is held as a word
or as a big integer; results of arithmetic use a word whenever it fits, but a big integer that
enters from outside may be of any size.
-/

namespace MessageMachine

/-- The values of the machine. -/
inductive Value
  | nil
  | boolean (truth : Bool)
  | integer (number : Int64)
  | big (number : Int)
  | double (number : Double)
  | symbol (text : String)
  | string (text : String)
  | array (ref : ArrayRef)
  | block (ref : BlockRef)
  | object (ref : ObjectRef)
  | classObject (ref : ClassRef)
  | method (ref : MethodRef)
deriving DecidableEq, Inhabited

/-- Numbers irrespective of how they are held. -/
inductive Number
  | integer (number : Int)
  | double (number : Double)
deriving DecidableEq

namespace Number

/-- A number as a double. -/
def toDouble : Number → Double
  | .integer number => Double.ofInt number
  | .double number => number

/-- The order of two numbers: exact between integers, as doubles otherwise. -/
def compare? : Number → Number → Option Ordering
  | .integer left, .integer right => some (compare left right)
  | left, right => Double.compare? left.toDouble right.toDouble

end Number

namespace Value

/-- An integer in normal form: a word if it fits, a big integer otherwise. -/
def ofInt (number : Int) : Value :=
  if Integer.fitsWord number then .integer (Int64.ofInt number) else .big number

/-- The integer that a value holds, in either form. -/
def integral? : Value → Option Int
  | .integer number => some number.toInt
  | .big number => some number
  | _ => none

/-- The normal form of an integer holds that integer. -/
theorem integral?_ofInt (number : Int) : (ofInt number).integral? = some number := by
  unfold ofInt
  split
  · next fits =>
      have bounds := (Integer.fitsWord_iff number).mp fits
      simp only [integral?, Option.some.injEq]
      exact Int64.toInt_ofInt_of_le bounds.1 bounds.2
  · rfl

/-- Whether a value is in normal form.  Only big integers may fail to be: those that would fit into
a word. -/
def IsNormal : Value → Prop
  | .big number => Integer.fitsWord number = false
  | _ => True

theorem isNormal_ofInt (number : Int) : (ofInt number).IsNormal := by
  unfold ofInt
  split
  · trivial
  · next tooLarge => exact Bool.eq_false_iff.mpr tooLarge

/-- The number that a value holds. -/
def number? : Value → Option Number
  | .integer number => some (.integer number.toInt)
  | .big number => some (.integer number)
  | .double number => some (.double number)
  | _ => none

/-- The characters of a string or a symbol. -/
def characters? : Value → Option String
  | .string text => some text
  | .symbol text => some text
  | _ => none

/-- Whether two values are the same.  The two forms of an integer are never the same, and doubles
are the same when they are equal as numbers. -/
def same : Value → Value → Bool
  | .double left, .double right => Double.compare? left right == some .eq
  | left, right => decide (left = right)

end Value

end MessageMachine
