/-!
# Digests of byte sequences

Hash codes are 64-bit keyed digests: four words of state absorb the message eight bytes at a time,
with one mixing round per word and three closing rounds, both key words being zero.  The digest
depends on the bytes alone, not on how they were split into pieces, so texts and identifiers are
digested by listing their bytes.
-/

namespace MessageMachine

namespace Digest

/-- The four words of digest state. -/
structure State where
  first : UInt64
  second : UInt64
  third : UInt64
  fourth : UInt64

/-- The state before any byte is absorbed, for a zero key. -/
def State.start : State where
  first := 0x736f6d6570736575
  second := 0x646f72616e646f6d
  third := 0x6c7967656e657261
  fourth := 0x7465646279746573

/-- Rotate a word to the left. -/
def rotate (word : UInt64) (amount : UInt64) : UInt64 :=
  (word <<< amount) ||| (word >>> (64 - amount))

/-- One mixing round over the four words. -/
def State.mix (state : State) : State :=
  let first := state.first + state.second
  let second := rotate state.second 13 ^^^ first
  let first := rotate first 32
  let third := state.third + state.fourth
  let fourth := rotate state.fourth 16 ^^^ third
  let first := first + fourth
  let fourth := rotate fourth 21 ^^^ first
  let third := third + second
  let second := rotate second 17 ^^^ third
  let third := rotate third 32
  { first, second, third, fourth }

/-- Absorb one word of message. -/
def State.absorb (state : State) (word : UInt64) : State :=
  let mixed := { state with fourth := state.fourth ^^^ word }.mix
  { mixed with first := mixed.first ^^^ word }

/-- The word whose bytes, least significant first, are the given ones. -/
def littleEndian : List UInt8 → UInt64
  | [] => 0
  | byte :: bytes => byte.toUInt64 ||| (littleEndian bytes <<< 8)

/-- Absorb all complete words of a message, handing back the bytes that do not fill a word. -/
def State.absorbWords : State → List UInt8 → State × List UInt8
  | state, a :: b :: c :: d :: e :: f :: g :: h :: rest =>
      (state.absorb (littleEndian [a, b, c, d, e, f, g, h])).absorbWords rest
  | state, rest => (state, rest)

/-- The digest of a byte sequence.  The closing word carries the leftover bytes and, in its top
byte, the length of the whole message. -/
def ofBytes (bytes : List UInt8) : UInt64 :=
  let (state, rest) := State.start.absorbWords bytes
  let closing := littleEndian rest ||| (bytes.length.toUInt64 <<< 56)
  let state := state.absorb closing
  let state := { state with third := state.third ^^^ 0xff }.mix.mix.mix
  state.first ^^^ state.second ^^^ state.third ^^^ state.fourth

/-- A digest as a hash code: one bit is dropped, so that it is a non-negative 64-bit integer. -/
def code (bytes : List UInt8) : Int64 :=
  (ofBytes bytes >>> 1).toInt64

/-- The bytes of a text in UTF-8. -/
def textBytes (text : String) : List UInt8 :=
  text.toUTF8.toList

/-- The four bytes of an identifier, least significant first. -/
def identifierBytes (identifier : Nat) : List UInt8 :=
  [identifier.toUInt8, (identifier >>> 8).toUInt8, (identifier >>> 16).toUInt8,
    (identifier >>> 24).toUInt8]

/-- The eight bytes of an address, least significant first. -/
def addressBytes (address : UInt64) : List UInt8 :=
  [address.toUInt8, (address >>> 8).toUInt8, (address >>> 16).toUInt8, (address >>> 24).toUInt8,
    (address >>> 32).toUInt8, (address >>> 40).toUInt8, (address >>> 48).toUInt8,
    (address >>> 56).toUInt8]

end Digest

end MessageMachine
