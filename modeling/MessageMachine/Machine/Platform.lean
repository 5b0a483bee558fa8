import MessageMachine.Memory.Arena
import MessageMachine.Number.Word

/-!
# The platform

Three things come to a machine from outside: the random numbers, the addresses at which things lie
in memory, and what becomes of a subtraction of words whose result is not a word.  They are the
same on every run on one platform, and nothing but what is said here is known about them.
-/

namespace MessageMachine

/-- What the surroundings of a machine decide. -/
structure Platform where
  /-- The random number below a bound, after numbers below other bounds were drawn, the latest
  first. -/
  random : List Int64 → Int64 → Int64
  random_mem : ∀ (drawn : List Int64) (bound : Int64), 0 < bound →
    0 ≤ random drawn bound ∧ random drawn bound < bound
  /-- The address of a thing.  It stays the same for as long as the thing exists. -/
  address : {region : Region} → Ref region → UInt64
  /-- Whether the machine stops at a subtraction that leaves the words, instead of going on with
  the number that is left of the result in 64 bits. -/
  checksOverflow : Bool

namespace Platform

/-- The platform on which random numbers are always zero, things lie eight bytes apart, and
subtractions wrap around. -/
def plain : Platform where
  random := fun _ _ => 0
  random_mem := fun _ _ positive => ⟨Int64.le_refl 0, positive⟩
  address := fun ref => (8 * ref.index).toUInt64
  checksOverflow := false

instance : Inhabited Platform :=
  ⟨plain⟩

/-- The difference of two words, unless the machine stops there. -/
def difference? (platform : Platform) (left right : Int64) : Option Int64 :=
  match Word.difference? left right with
  | some result => some result
  | none => if platform.checksOverflow then none else some (left - right)

/-- Only a result that is not a word is a matter of the platform. -/
theorem difference?_of_word (platform : Platform) {left right result : Int64}
    (inside : Word.difference? left right = some result) :
    platform.difference? left right = some result := by
  rw [difference?, inside]

/-- A machine never stops over the subtraction of one, but for the least word. -/
theorem isSome_difference?_one_iff (platform : Platform) (word : Int64) :
    (platform.difference? word 1).isSome ↔
      ¬(platform.checksOverflow = true ∧ word = Int64.minValue) := by
  cases found : Word.difference? word 1 with
  | none =>
      have least : word = Int64.minValue := Word.difference?_one_eq_none_iff.mp found
      rw [difference?, found]
      simp [least]
  | some result =>
      have notLeast : word ≠ Int64.minValue := fun same => by
        rw [Word.difference?_one_eq_none_iff.mpr same] at found
        cases found
      simp [platform.difference?_of_word found, notLeast]

end Platform

end MessageMachine
