/-!
# Character classes

A character class is a set of code points given by closed ranges.  The letters, digits and blanks
that decide how a selector or a symbol is read are such sets; each has its table in a module of
its own, and this module fixes what membership in a table means.
-/

namespace MessageMachine

/-- A set of code points, written as closed ranges `(first, last)`. -/
structure CharacterClass where
  ranges : List (Nat × Nat)

namespace CharacterClass

/-- A character belongs to the class when its code point lies in one of the ranges. -/
def contains (family : CharacterClass) (character : Char) : Bool :=
  family.ranges.any fun range => range.1 ≤ character.toNat && character.toNat ≤ range.2

/-- Membership, read as a statement about the ranges. -/
theorem contains_iff (family : CharacterClass) (character : Char) :
    family.contains character = true ↔
      ∃ range ∈ family.ranges, range.1 ≤ character.toNat ∧ character.toNat ≤ range.2 := by
  simp [contains]

end CharacterClass

end MessageMachine
