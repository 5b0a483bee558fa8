import Std.Data.HashMap

/-!
# Interning

An interner numbers texts in the order in which it first meets them.  Texts and numbers correspond
one to one, so that names are told apart by their texts everywhere else; what is left for the
numbers are the hash codes of symbols.
-/

namespace MessageMachine

/-- Texts, numbered in order of first appearance. -/
structure Interner where
  /-- The text of each number. -/
  texts : Array String
  /-- The number of each text. -/
  numbers : Std.HashMap String Nat

namespace Interner

/-- The interner that has met no text. -/
def empty : Interner where
  texts := #[]
  numbers := ∅

/-- The number of texts met so far. -/
def size (interner : Interner) : Nat :=
  interner.texts.size

/-- The number of a text, if it was met before. -/
def number? (interner : Interner) (text : String) : Option Nat :=
  interner.numbers[text]?

/-- The text of a number. -/
def text? (interner : Interner) (number : Nat) : Option String :=
  interner.texts[number]?

/-- Meet a text: answer its number, which is the next free one if the text is new. -/
def intern (interner : Interner) (text : String) : Nat × Interner :=
  match interner.number? text with
  | some number => (number, interner)
  | none =>
      (interner.size, {
        texts := interner.texts.push text
        numbers := interner.numbers.insert text interner.size })

/-- Meet texts, one after the other. -/
def internAll (interner : Interner) (texts : List String) : Interner :=
  texts.foldl (fun interner text => (interner.intern text).2) interner

/-- The number that a text has, or would be given. -/
def number (interner : Interner) (text : String) : Nat :=
  (interner.intern text).1

end Interner

end MessageMachine
