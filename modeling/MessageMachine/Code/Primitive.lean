import MessageMachine.Language.Selector

/-!
# The primitive operations

The operations that the machine itself provides, grouped by the core class whose instances they
serve, with the selectors that they are installed under.  A method declared as primitive is bound
to the operation of its class and selector.
-/

namespace MessageMachine

/-- Operations that every object understands. -/
inductive ObjectOperation
  | classOf
  | hashcode
  | perform
  | performWith
  | performWithArguments
  | performInSuperclass
  | fieldAt
  | fieldAtPut
  | notUnderstood
  | identical
deriving DecidableEq, Repr

/-- Operations of class objects. -/
inductive ClassOperation
  | new
  | name
  | fields
  | methods
  | superclass
deriving DecidableEq, Repr

/-- Operations of booleans. -/
inductive BooleanOperation
  | ifTrue
  | ifFalse
  | ifTrueIfFalse
  | ifFalseIfTrue
  | not
  | and
  | or
deriving DecidableEq, Repr

/-- Operations of integers. -/
inductive IntegerOperation
  | less
  | lessOrEqual
  | greater
  | greaterOrEqual
  | equal
  | unequal
  | plus
  | minus
  | times
  | quotient
  | ratio
  | modulo
  | remainder
  | conjunction
  | shiftLeft
  | shiftRight
  | exclusiveDisjunction
  | absolute
  | root
  | asString
  | asDouble
  | atRandom
deriving DecidableEq, Repr

/-- Operations of doubles. -/
inductive DoubleOperation
  | plus
  | minus
  | times
  | ratio
  | modulo
  | equal
  | less
  | lessOrEqual
  | greater
  | greaterOrEqual
  | root
  | round
  | asString
  | asInteger
deriving DecidableEq, Repr

/-- Operations of arrays. -/
inductive ArrayOperation
  | at
  | atPut
  | length
deriving DecidableEq, Repr

/-- Operations of strings and symbols. -/
inductive StringOperation
  | length
  | hashcode
  | isLetters
  | isDigits
  | asSymbol
  | concatenate
  | substring
  | equal
deriving DecidableEq, Repr

/-- Operations of blocks. -/
inductive BlockOperation
  | parameterCount
  | whileTrue
  | whileFalse
  | value
  | valueWith
  | valueWithWith
deriving DecidableEq, Repr

/-- Operations of methods. -/
inductive MethodOperation
  | holder
  | signature
  | invokeOnWith
deriving DecidableEq, Repr

/-- Operations of the class objects of core classes. -/
inductive FactoryOperation
  | integerFromString
  | doubleFromString
  | positiveInfinity
  | newArray
deriving DecidableEq, Repr

/-- The operations of the machine. -/
inductive Primitive
  | object (operation : ObjectOperation)
  | classObject (operation : ClassOperation)
  | boolean (operation : BooleanOperation)
  | integer (operation : IntegerOperation)
  | double (operation : DoubleOperation)
  | array (operation : ArrayOperation)
  | string (operation : StringOperation)
  /-- The text of a symbol. -/
  | symbolAsString
  | block (operation : BlockOperation)
  | method (operation : MethodOperation)
  | factory (operation : FactoryOperation)
deriving DecidableEq, Repr

/-- The selector of an operation. -/
def ObjectOperation.selector : ObjectOperation → Selector
  | .classOf => "class"
  | .hashcode => "hashcode"
  | .perform => "perform:"
  | .performWith => "perform:with:"
  | .performWithArguments => "perform:withArguments:"
  | .performInSuperclass => "perform:inSuperclass:"
  | .fieldAt => "instVarAt:"
  | .fieldAtPut => "instVarAt:put:"
  | .notUnderstood => "doesNotUnderstand:arguments:"
  | .identical => "=="

/-- The selector of an operation. -/
def ClassOperation.selector : ClassOperation → Selector
  | .new => "new"
  | .name => "name"
  | .fields => "fields"
  | .methods => "methods"
  | .superclass => "superclass"

/-- The selector of an operation. -/
def BooleanOperation.selector : BooleanOperation → Selector
  | .ifTrue => "ifTrue:"
  | .ifFalse => "ifFalse:"
  | .ifTrueIfFalse => "ifTrue:ifFalse:"
  | .ifFalseIfTrue => "ifFalse:ifTrue:"
  | .not => "not"
  | .and => "&"
  | .or => "|"

/-- The selector of an operation. -/
def IntegerOperation.selector : IntegerOperation → Selector
  | .less => "<"
  | .lessOrEqual => "<="
  | .greater => ">"
  | .greaterOrEqual => ">="
  | .equal => "="
  | .unequal => "<>"
  | .plus => "+"
  | .minus => "-"
  | .times => "*"
  | .quotient => "/"
  | .ratio => "//"
  | .modulo => "%"
  | .remainder => "rem:"
  | .conjunction => "&"
  | .shiftLeft => "<<"
  | .shiftRight => ">>>"
  | .exclusiveDisjunction => "bitXor:"
  | .absolute => "abs"
  | .root => "sqrt"
  | .asString => "asString"
  | .asDouble => "asDouble"
  | .atRandom => "atRandom"

/-- The selector of an operation. -/
def DoubleOperation.selector : DoubleOperation → Selector
  | .plus => "+"
  | .minus => "-"
  | .times => "*"
  | .ratio => "//"
  | .modulo => "%"
  | .equal => "="
  | .less => "<"
  | .lessOrEqual => "<="
  | .greater => ">"
  | .greaterOrEqual => ">="
  | .root => "sqrt"
  | .round => "round"
  | .asString => "asString"
  | .asInteger => "asInteger"

/-- The selector of an operation. -/
def ArrayOperation.selector : ArrayOperation → Selector
  | .at => "at:"
  | .atPut => "at:put:"
  | .length => "length"

/-- The selector of an operation. -/
def StringOperation.selector : StringOperation → Selector
  | .length => "length"
  | .hashcode => "hashcode"
  | .isLetters => "isLetters"
  | .isDigits => "isDigits"
  | .asSymbol => "asSymbol"
  | .concatenate => "concatenate:"
  | .substring => "primSubstringFrom:to:"
  | .equal => "="

/-- The selector of an operation. -/
def BlockOperation.selector : BlockOperation → Selector
  | .parameterCount => "numArgs"
  | .whileTrue => "whileTrue:"
  | .whileFalse => "whileFalse:"
  | .value => "value"
  | .valueWith => "value:"
  | .valueWithWith => "value:with:"

/-- The selector of an operation. -/
def MethodOperation.selector : MethodOperation → Selector
  | .holder => "holder"
  | .signature => "signature"
  | .invokeOnWith => "invokeOn:with:"

/-- The selector of an operation. -/
def FactoryOperation.selector : FactoryOperation → Selector
  | .integerFromString => "fromString:"
  | .doubleFromString => "fromString:"
  | .positiveInfinity => "PositiveInfinity"
  | .newArray => "new:"

namespace Primitive

/-- The selector that an operation is installed under. -/
def selector : Primitive → Selector
  | .object operation => operation.selector
  | .classObject operation => operation.selector
  | .boolean operation => operation.selector
  | .integer operation => operation.selector
  | .double operation => operation.selector
  | .array operation => operation.selector
  | .string operation => operation.selector
  | .symbolAsString => "asString"
  | .block operation => operation.selector
  | .method operation => operation.selector
  | .factory operation => operation.selector

/-- The class that an operation is named after. -/
def home : Primitive → String
  | .object _ => "Object"
  | .classObject _ => "Class"
  | .boolean _ => "Boolean"
  | .integer _ => "Integer"
  | .double _ => "Double"
  | .array _ => "Array"
  | .string _ => "String"
  | .symbolAsString => "Symbol"
  | .block .value => "Block1"
  | .block .valueWith => "Block2"
  | .block .valueWithWith => "Block3"
  | .block _ => "Block"
  | .method _ => "Method"
  | .factory .integerFromString => "Integer"
  | .factory .doubleFromString => "Double"
  | .factory .positiveInfinity => "Double"
  | .factory .newArray => "Array"

/-- The name of an operation in messages. -/
def title (primitive : Primitive) : String :=
  primitive.home ++ ">>#" ++ primitive.selector

/-- The operations installed on the instances of a core class, in order. -/
def ofInstances : String → List Primitive
  | "Object" =>
      [.classOf, .hashcode, .perform, .performWith, .performWithArguments, .performInSuperclass,
        .fieldAt, .fieldAtPut, .notUnderstood, .identical].map .object
  | "Class" => [.new, .name, .fields, .methods, .superclass].map .classObject
  | "Boolean" =>
      [.ifTrue, .ifFalse, .ifTrueIfFalse, .ifFalseIfTrue, .not, .and, .or].map .boolean
  | "Integer" =>
      [.less, .lessOrEqual, .greater, .greaterOrEqual, .equal, .unequal, .plus, .minus, .times,
        .quotient, .ratio, .modulo, .remainder, .conjunction, .shiftLeft, .shiftRight,
        .exclusiveDisjunction, .absolute, .root, .asString, .asDouble, .atRandom].map .integer
  | "Double" =>
      [.plus, .minus, .times, .ratio, .modulo, .equal, .less, .lessOrEqual, .greater,
        .greaterOrEqual, .root, .round, .asString, .asInteger].map .double
  | "Array" => [.at, .atPut, .length].map .array
  | "String" =>
      [.length, .hashcode, .isLetters, .isDigits, .asSymbol, .concatenate, .substring,
        .equal].map .string
  | "Symbol" => [.symbolAsString]
  | "Block" => [.parameterCount, .whileTrue, .whileFalse].map .block
  | "Block1" => [.block .value]
  | "Block2" => [.block .valueWith]
  | "Block3" => [.block .valueWithWith]
  | "Method" => [.holder, .signature, .invokeOnWith].map .method
  | "Primitive" => [.holder, .signature, .invokeOnWith].map .method
  | _ => []

/-- The operations installed on a core class itself, in order. -/
def ofClass : String → List Primitive
  | "Integer" => [.factory .integerFromString]
  | "Double" => [.factory .doubleFromString, .factory .positiveInfinity]
  | "Array" => [.factory .newArray]
  | _ => []

/-- The operation for a selector on one side of a class with a given name. -/
def find? (className : String) (classSide : Bool) (selector : Selector) : Option Primitive :=
  (if classSide then ofClass className else ofInstances className).find? fun primitive =>
    primitive.selector == selector

end Primitive

end MessageMachine
