import MessageMachine.Number.Power

/-!
# Doubles as exact numbers

A double is the 64 bits of the binary format, so that every pattern that is not a number is a
double of its own.  Sums, products, quotients and roots are the operations of `Float` on these
bits.  Which pattern stands for an undefined result is left open where these operations are
defined; here it is always the quiet one without a sign.  Everything that leaves the format
(comparison, conversion to and from integers, rounding to an integer, remainders) is computed
exactly on the decoded number `± mantissa · 2 ^ exponent`, and one rounding, `ofRatio`, brings a
quotient of naturals back.
-/

namespace MessageMachine

/-- A double, by its bits. -/
structure Double where
  bits : UInt64
deriving DecidableEq, Inhabited

namespace Double

/-- An operation of the format on two doubles. -/
def combine (operation : Float → Float → Float) (left right : Double) : Double :=
  ⟨(operation (Float.ofBits left.bits) (Float.ofBits right.bits)).toBits⟩

instance : Add Double :=
  ⟨combine (· + ·)⟩

instance : Sub Double :=
  ⟨combine (· - ·)⟩

instance : Mul Double :=
  ⟨combine (· * ·)⟩

instance : Div Double :=
  ⟨combine (· / ·)⟩

/-- The square root of a double. -/
def sqrt (value : Double) : Double :=
  ⟨(Float.ofBits value.bits).sqrt.toBits⟩

/-- What the bits of a double denote. -/
inductive Decoded
  /-- Not a number. -/
  | nan
  /-- An infinity. -/
  | infinite (negative : Bool)
  /-- The number `± mantissa · 2 ^ exponent`; zero keeps its sign. -/
  | finite (negative : Bool) (mantissa : Nat) (exponent : Int)
deriving DecidableEq, Repr

/-- Whether the sign bit is set. -/
def isNegative (value : Double) : Bool :=
  decide (powerOfTwo 63 ≤ value.bits.toNat)

/-- The bits without the sign. -/
def magnitudeBits (value : Double) : Nat :=
  value.bits.toNat % powerOfTwo 63

/-- The bits of positive infinity; larger magnitudes are not numbers. -/
def infinityBits : Nat :=
  0x7ff0000000000000

/-- Whether a double is not a number. -/
def isNaN (value : Double) : Bool :=
  decide (infinityBits < magnitudeBits value)

/-- Decode a double. -/
def decode (value : Double) : Decoded :=
  let magnitude := magnitudeBits value
  if infinityBits < magnitude then .nan
  else if magnitude = infinityBits then .infinite (isNegative value)
  else if magnitude < powerOfTwo 52 then .finite (isNegative value) magnitude (-1074)
  else
    .finite (isNegative value) (magnitude % powerOfTwo 52 + powerOfTwo 52)
      ((magnitude / powerOfTwo 52 : Nat) - 1075)

/-- Positive infinity. -/
def infinity : Double :=
  ⟨0x7ff0000000000000⟩

/-- The double that stands for undefined results. -/
def notANumber : Double :=
  ⟨0x7ff8000000000000⟩

/-- The double with the other sign. -/
def negate (value : Double) : Double :=
  ⟨value.bits ^^^ 0x8000000000000000⟩

/-- The double with a given sign and magnitude, where magnitudes past the largest finite one are
infinite. -/
def ofMagnitude (negative : Bool) (magnitude : Nat) : Double :=
  let bounded := min magnitude infinityBits
  ⟨(if negative then bounded + powerOfTwo 63 else bounded).toUInt64⟩

/-- A natural quotient rounded to the nearest natural, halves to the even one. -/
def roundQuotient (numerator denominator : Nat) : Nat :=
  let quotient := numerator / denominator
  let twice := 2 * (numerator % denominator)
  if twice < denominator then quotient
  else if denominator < twice then quotient + 1
  else quotient + quotient % 2

/-- The exponent of the leading bit of a positive quotient: the `e` such that the quotient lies
between `2 ^ e` and `2 ^ (e + 1)`. -/
def leadingExponent (numerator denominator : Nat) : Int :=
  let guess : Int := numerator.log2 - denominator.log2
  let reached :=
    if 0 ≤ guess then decide (denominator * powerOfTwo guess.toNat ≤ numerator)
    else decide (denominator ≤ numerator * powerOfTwo (-guess).toNat)
  if reached then guess else guess - 1

/-- The double nearest to `± numerator / denominator`, ties going to the even mantissa.  The unit
in the last place is 52 bits below the leading bit, but never below the smallest unit of the
format; counting such units also numbers the doubles in order, so a mantissa that rounds up to the
next power of two needs no correction. -/
def ofRatio (negative : Bool) (numerator denominator : Nat) : Double :=
  if numerator = 0 then ofMagnitude negative 0
  else
    let unit := max (leadingExponent numerator denominator - 52) (-1074)
    let mantissa :=
      if 0 ≤ unit then roundQuotient numerator (denominator * powerOfTwo unit.toNat)
      else roundQuotient (numerator * powerOfTwo (-unit).toNat) denominator
    ofMagnitude negative ((unit + 1074).toNat * powerOfTwo 52 + mantissa)

/-- The double `± mantissa · 2 ^ exponent`, rounded if it has to be. -/
def ofBinary (negative : Bool) (mantissa : Nat) (exponent : Int) : Double :=
  if 0 ≤ exponent then ofRatio negative (mantissa * powerOfTwo exponent.toNat) 1
  else ofRatio negative mantissa (powerOfTwo (-exponent).toNat)

/-- The number of binary digits of a positive number. -/
def bitLength (number : Nat) : Nat :=
  number.log2 + 1

/-- Whether anything is noticed below the leading 64 bits of a number.  The number is seen as
digits of 64 bits each.  Of every digit that reaches below the leading word, as many low bits are
looked at as the leading digit has bits.  In the highest such digit these are all the bits that
the word leaves out; bits further up in the digits after it go unnoticed. -/
def noticesRemainder (number : Nat) : Bool :=
  let width := (bitLength number - 1) % 64 + 1
  (List.range ((bitLength number - 64 + 63) / 64)).any fun index =>
    number / powerOfTwo (64 * index) % powerOfTwo width != 0

/-- The leading 64 bits of a number of more than 64 bits.  The last of them is set if a remainder
is noticed below them, so that a half that is not exact does not round as a half. -/
def leadingWord (number : Nat) : Nat :=
  number / powerOfTwo (bitLength number - 64) ||| (noticesRemainder number).toNat

/-- The double of an integer.  Up to 64 bits, it is the nearest one.  A longer number is rounded
from its leading word alone, and one of more than 1024 bits is beyond the largest double. -/
def ofInt (number : Int) : Double :=
  let negative := decide (number < 0)
  let absolute := number.natAbs
  if bitLength absolute ≤ 64 then ofRatio negative absolute 1
  else if bitLength absolute ≤ 1024 then
    ofBinary negative (leadingWord absolute) (bitLength absolute - 64 : Nat)
  else ofMagnitude negative infinityBits

/-- An integer with a given sign and absolute value. -/
def signed (negative : Bool) (absolute : Nat) : Int :=
  if negative then -absolute else absolute

/-- The largest natural number not above `mantissa · 2 ^ exponent`. -/
def floorBinary (mantissa : Nat) (exponent : Int) : Nat :=
  if 0 ≤ exponent then mantissa * powerOfTwo exponent.toNat
  else mantissa / powerOfTwo (-exponent).toNat

/-- The smallest natural number not below `mantissa · 2 ^ exponent`. -/
def ceilBinary (mantissa : Nat) (exponent : Int) : Nat :=
  if 0 ≤ exponent then mantissa * powerOfTwo exponent.toNat
  else (mantissa + powerOfTwo (-exponent).toNat - 1) / powerOfTwo (-exponent).toNat

/-- The natural number nearest to `mantissa · 2 ^ exponent`, halves going up. -/
def nearestBinary (mantissa : Nat) (exponent : Int) : Nat :=
  (floorBinary mantissa (exponent + 1) + 1) / 2

/-- The integer part of a finite double. -/
def truncate? (value : Double) : Option Int :=
  match decode value with
  | .finite negative mantissa exponent => some (signed negative (floorBinary mantissa exponent))
  | _ => none

/-- The integer nearest to a finite double, halves going away from zero. -/
def round? (value : Double) : Option Int :=
  match decode value with
  | .finite negative mantissa exponent => some (signed negative (nearestBinary mantissa exponent))
  | _ => none

/-- The largest integral double not above a double; infinities and undefined results stay. -/
def floor (value : Double) : Double :=
  match decode value with
  | .finite negative mantissa exponent =>
      let absolute :=
        if negative then ceilBinary mantissa exponent else floorBinary mantissa exponent
      ofRatio negative absolute 1
  | _ => value

/-- The remainder of a division truncated towards zero.  It has the sign of the dividend and is
exact. -/
def remainder (dividend divisor : Double) : Double :=
  match decode dividend, decode divisor with
  | .finite _ _ _, .infinite _ => dividend
  | .finite negative mantissa exponent, .finite _ mantissa' exponent' =>
      if mantissa' = 0 then notANumber
      else
        let common := min exponent exponent'
        let left := mantissa * powerOfTwo (exponent - common).toNat
        let right := mantissa' * powerOfTwo (exponent' - common).toNat
        ofBinary negative (left % right) common
  | _, _ => notANumber

/-- The position of a double among all doubles; both zeros have position zero. -/
def position (value : Double) : Int :=
  signed (isNegative value) (magnitudeBits value)

/-- The order of two doubles as numbers.  Doubles that are not numbers are unordered. -/
def compare? (left right : Double) : Option Ordering :=
  if isNaN left || isNaN right then none
  else some (compare (position left) (position right))

/-- No magnitude is made into what is not a number. -/
theorem isNaN_ofMagnitude (negative : Bool) (magnitude : Nat) :
    isNaN (ofMagnitude negative magnitude) = false := by
  have bounded : min magnitude infinityBits ≤ infinityBits := Nat.min_le_right _ _
  have word : powerOfTwo 63 = 2 ^ 63 := by decide
  unfold ofMagnitude isNaN magnitudeBits
  dsimp only
  generalize min magnitude infinityBits = least at bounded
  simp only [infinityBits, word] at bounded ⊢
  have small : (if negative then least + 2 ^ 63 else least) < 2 ^ 64 := by
    split <;> omega
  refine decide_eq_false (Nat.not_lt.mpr ?_)
  rw [Nat.toUInt64_eq, UInt64.toNat_ofNat_of_lt' small]
  split <;> omega

theorem isNaN_ofRatio (negative : Bool) (numerator denominator : Nat) :
    isNaN (ofRatio negative numerator denominator) = false := by
  unfold ofRatio
  split
  · exact isNaN_ofMagnitude negative 0
  · exact isNaN_ofMagnitude negative _

/-- The double of an integer is a number. -/
theorem isNaN_ofInt (number : Int) : isNaN (ofInt number) = false := by
  unfold ofInt ofBinary
  dsimp only
  split
  · exact isNaN_ofRatio _ _ _
  · split
    · split
      · exact isNaN_ofRatio _ _ _
      · exact isNaN_ofRatio _ _ _
    · exact isNaN_ofMagnitude _ _

end Double

end MessageMachine
