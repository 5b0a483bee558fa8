import MessageMachine.Number.Shortest

/-!
# Texts of doubles

Doubles are written with their shortest digits, always positionally: no exponent, no fraction for
integral doubles, a minus sign also for negative zero.  They are read from a decimal with an
optional fraction and exponent, or from the names of the infinities and of undefined results.
-/

namespace MessageMachine

namespace Double

/-- The positional text of a decimal. -/
def Decimal.positional (decimal : Decimal) : List Char :=
  let digits := Integer.digits decimal.digits
  if 0 ≤ decimal.exponent then digits ++ List.replicate decimal.exponent.toNat '0'
  else
    let places := (-decimal.exponent).toNat
    if digits.length ≤ places then
      '0' :: '.' :: List.replicate (places - digits.length) '0' ++ digits
    else
      digits.take (digits.length - places) ++ '.' :: digits.drop (digits.length - places)

/-- The text of a double. -/
def text (value : Double) : String :=
  match decode value with
  | .nan => "NaN"
  | .infinite negative => if negative then "-inf" else "inf"
  | .finite negative mantissa exponent =>
      let absolute :=
        if mantissa = 0 then ['0'] else (shortest mantissa exponent).positional
      String.ofList (if negative then '-' :: absolute else absolute)

/-- Why a text is not a double. -/
inductive ReadingError
  /-- The text is empty. -/
  | empty
  /-- The text is not of the form of a double. -/
  | invalid
deriving DecidableEq, Repr

/-- The wording of a reading error. -/
def ReadingError.message : ReadingError → String
  | .empty => "cannot parse float from empty string"
  | .invalid => "invalid float literal"

/-- Whether a character is a decimal digit. -/
def isDigit (character : Char) : Bool :=
  (Integer.digitValue? character).isSome

/-- The number written by some digits. -/
def digitsValue (digits : List Char) : Nat :=
  digits.foldl (fun number digit => 10 * number + (Integer.digitValue? digit).getD 0) 0

/-- Digits of an exponent are counted while the exponent is below this number.  Such an exponent
is already far outside the range of the format. -/
def exponentLimit : Nat :=
  65536

/-- The exponent written by some digits.  Digits after the limit is reached are ignored. -/
def exponentValue (digits : List Char) : Nat :=
  digits.foldl
    (fun exponent digit =>
      if exponent < exponentLimit then 10 * exponent + (Integer.digitValue? digit).getD 0
      else exponent)
    0

/-- Read an exponent, if there is one, up to the end of the text. -/
def readExponent? : List Char → Option Int
  | [] => some 0
  | mark :: rest =>
      if mark = 'e' ∨ mark = 'E' then
        let (negative, digits) :=
          match rest with
          | '-' :: digits => (true, digits)
          | '+' :: digits => (false, digits)
          | digits => (false, digits)
        if digits.isEmpty || !digits.all isDigit then none
        else some (signed negative (exponentValue digits))
      else none

/-- Read a decimal without a sign: digits with an optional point among or around them, at least
one digit, then an optional exponent. -/
def readDecimal? (characters : List Char) : Option Decimal :=
  let whole := characters.takeWhile isDigit
  let afterWhole := characters.dropWhile isDigit
  let (fraction, rest) :=
    match afterWhole with
    | '.' :: afterPoint => (afterPoint.takeWhile isDigit, afterPoint.dropWhile isDigit)
    | _ => ([], afterWhole)
  if whole.isEmpty && fraction.isEmpty then none
  else
    (readExponent? rest).map fun exponent =>
      { digits := digitsValue (whole ++ fraction), exponent := exponent - fraction.length }

/-- The double nearest to a decimal.  Decimals far outside the range of the format are decided by
the length of their digits, without computing the power of ten.  A number whose leading bit has
exponent `e` lies below `10 ^ ((e + 4) / 3)` and not below `10 ^ (3 * e / 10)`. -/
def ofDecimal (negative : Bool) (decimal : Decimal) : Double :=
  let leading := decimal.digits.log2
  if decimal.digits = 0 ∨ ((leading + 4) / 3 : Nat) + decimal.exponent < -400 then
    ofMagnitude negative 0
  else if 400 < (3 * leading / 10 : Nat) + decimal.exponent then
    ofMagnitude negative infinityBits
  else if 0 ≤ decimal.exponent then
    ofRatio negative (decimal.digits * powerOfTen decimal.exponent.toNat) 1
  else ofRatio negative decimal.digits (powerOfTen (-decimal.exponent).toNat)

/-- Read what follows the sign of a double.  Names are read in either case. -/
def readUnsigned (negative : Bool) (characters : List Char) : Except ReadingError Double :=
  match readDecimal? characters with
  | some decimal => .ok (ofDecimal negative decimal)
  | none =>
      let name := characters.map Char.toLower
      if name = "inf".toList ∨ name = "infinity".toList then
        .ok (ofMagnitude negative infinityBits)
      else if name = "nan".toList then .ok (if negative then notANumber.negate else notANumber)
      else .error .invalid

/-- Read a double. -/
def read (text : String) : Except ReadingError Double :=
  match text.toList with
  | [] => .error .empty
  | '-' :: rest => readUnsigned true rest
  | '+' :: rest => readUnsigned false rest
  | characters => readUnsigned false characters

end Double

end MessageMachine
