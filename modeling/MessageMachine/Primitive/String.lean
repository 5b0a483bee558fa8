import MessageMachine.Primitive.Reply
import MessageMachine.Text.Digest

/-!
# Operations of strings and symbols

Symbols are read like strings.  Characters are code points, and positions count from one.
-/

namespace MessageMachine

namespace StringOperation

/-- Whether a text has characters, all of one class. -/
def consistsOf (family : CharacterClass) (text : String) : Bool :=
  !text.toList.isEmpty && text.toList.all family.contains

/-- The characters from one place up to another one. -/
def slice (text : String) (first last : Nat) : String :=
  String.ofList ((text.toList.drop first).take (last - first))

/-- An operation on the characters of a string or symbol. -/
def onText (operation : String → Value) (value : Value) : Reply :=
  match value.characters? with
  | some text => .answer (operation text)
  | none => .mismatch

/-- The characters of a value from one position up to another one, both counted from zero. -/
def excerpt (value : Value) (first last : Int64) : Reply :=
  match place? first, place? last with
  | some first, some last => onText (fun text => .string (slice text first last)) value
  | _, _ => .mismatch

/-- The reply of an operation to its arguments, where nothing but the arguments matters. -/
def reply (operation : StringOperation) (arguments : List Value) : Reply :=
  match operation, arguments with
  | .length, value :: _ => onText (fun text => .ofInt text.length) value
  | .hashcode, value :: _ =>
      onText (fun text => .integer (Digest.code (Digest.textBytes text))) value
  | .isLetters, value :: _ =>
      onText (fun text => .boolean (consistsOf CharacterClass.alphabetic text)) value
  | .isDigits, value :: _ =>
      onText (fun text => .boolean (consistsOf CharacterClass.numeric text)) value
  | .concatenate, left :: right :: _ =>
      match left.characters?, right.characters? with
      | some left, some right => .answer (.string (left ++ right))
      | _, _ => .mismatch
  | .equal, left :: right :: _ =>
      match left.characters?, right.characters? with
      | some left, some right => .truth (left == right)
      | _, _ => .truth false
  | _, _ => .mismatch

/-- Run an operation of strings and symbols. -/
def run (operation : StringOperation) (arguments : List Value) : Eval Value := do
  let primitive := Primitive.string operation
  match operation, arguments with
  | .asSymbol, .string text :: _ =>
      Eval.meet text
      return .symbol text
  | .asSymbol, .symbol text :: _ => return .symbol text
  | .substring, value :: .integer first :: .integer last :: _ =>
      let start ← Eval.difference first 1
      primitive.conclude (excerpt value start last)
  | operation, arguments => primitive.conclude (operation.reply arguments)

end StringOperation

/-- The reply to a request for the text of a symbol. -/
def symbolTextReply : List Value → Reply
  | .symbol text :: _ => .answer (.string text)
  | _ => .mismatch

end MessageMachine
