import MessageMachine.Proofs.Arithmetic
import MessageMachine.Proofs.Control
import MessageMachine.Proofs.Mismatch
import MessageMachine.Proofs.Moments

/-!
# Comparing numbers from both sides

To compare two numbers, one of them is sent a message with the other, and it is up to the class of
the receiver what becomes of it.  The mirror image of the message, sent to the other number, is to
come to the same.  Both classes order numbers alike, and turning the numbers around turns the order
around.  They part where there is no order: a double answers that the comparison does not hold,
while an integer takes a double that is not a number for a wrong argument, and does not understand
the message.  So a comparison and its mirror image come to the same unless one of the numbers is an
integer and the other is not a number; for equality they always do.
-/

namespace MessageMachine

/-- The comparisons that integers and doubles share. -/
inductive Comparison
  | less
  | lessOrEqual
  | greater
  | greaterOrEqual
  | equal
deriving DecidableEq

namespace Comparison

/-- All comparisons. -/
def all : List Comparison :=
  [.less, .lessOrEqual, .greater, .greaterOrEqual, .equal]

theorem mem_all (comparison : Comparison) : comparison ∈ all := by
  cases comparison <;> decide

/-- The message that asks for a comparison. -/
def selector : Comparison → Selector
  | .less => "<"
  | .lessOrEqual => "<="
  | .greater => ">"
  | .greaterOrEqual => ">="
  | .equal => "="

/-- The comparison that holds with the sides exchanged. -/
def mirrored : Comparison → Comparison
  | .less => .greater
  | .lessOrEqual => .greaterOrEqual
  | .greater => .less
  | .greaterOrEqual => .lessOrEqual
  | .equal => .equal

/-- Whether a comparison admits an order. -/
def admits : Comparison → Ordering → Bool
  | .less => Ordering.isLT
  | .lessOrEqual => Ordering.isLE
  | .greater => Ordering.isGT
  | .greaterOrEqual => Ordering.isGE
  | .equal => Ordering.isEq

/-- The operation of integers. -/
def onIntegers : Comparison → IntegerOperation
  | .less => .less
  | .lessOrEqual => .lessOrEqual
  | .greater => .greater
  | .greaterOrEqual => .greaterOrEqual
  | .equal => .equal

/-- The operation of doubles. -/
def onDoubles : Comparison → DoubleOperation
  | .less => .less
  | .lessOrEqual => .lessOrEqual
  | .greater => .greater
  | .greaterOrEqual => .greaterOrEqual
  | .equal => .equal

/-- The operation of the class of a number. -/
def operation (comparison : Comparison) : Number → Primitive
  | .integer _ => .integer comparison.onIntegers
  | .double _ => .double comparison.onDoubles

theorem mirrored_admits (comparison : Comparison) (ordering : Ordering) :
    comparison.mirrored.admits ordering.swap = comparison.admits ordering := by
  cases comparison <;> cases ordering <;> rfl

theorem mirrored_mirrored (comparison : Comparison) :
    comparison.mirrored.mirrored = comparison := by
  cases comparison <;> rfl

theorem mirrored_eq_equal {comparison : Comparison} :
    comparison.mirrored = .equal ↔ comparison = .equal := by
  cases comparison <;> simp [mirrored]

end Comparison

/-! ## The order of numbers -/

theorem Double.compare?_swap (left right : Double) :
    compare? right left = (compare? left right).map Ordering.swap := by
  simp only [compare?, Bool.or_comm (isNaN right)]
  split
  · rfl
  · rw [Option.map_some, Int.compare_swap]

namespace Number

/-- Whether one of two numbers is an integer and the other is not a number. -/
def clash : Number → Number → Bool
  | .integer _, .double number => Double.isNaN number
  | .double number, .integer _ => Double.isNaN number
  | _, _ => false

theorem compare?_swap (left right : Number) :
    right.compare? left = (left.compare? right).map Ordering.swap := by
  cases left with
  | integer =>
      cases right with
      | integer => simp only [compare?, Option.map_some, Int.compare_swap]
      | double => exact Double.compare?_swap _ _
  | double =>
      cases right with
      | integer => exact Double.compare?_swap _ _
      | double => exact Double.compare?_swap _ _

theorem clash_comm (left right : Number) : left.clash right = right.clash left := by
  cases left <;> cases right <;> rfl

/-- An integer has its place among all numbers but those that are none. -/
theorem compare?_integer_eq_none_iff (number : Int) (other : Number) :
    (Number.integer number).compare? other = none ↔ (Number.integer number).clash other = true := by
  cases other with
  | integer => simp [compare?, clash]
  | double =>
      simp only [compare?, toDouble, Double.compare?, Double.isNaN_ofInt, clash, Bool.false_or]
      split <;> simp_all

end Number

namespace Comparison

/-- Whether a comparison holds of two numbers. -/
def holds (comparison : Comparison) (left right : Number) : Bool :=
  (left.compare? right).any comparison.admits

theorem mirrored_holds (comparison : Comparison) (left right : Number) :
    comparison.mirrored.holds right left = comparison.holds left right := by
  rw [holds, holds, Number.compare?_swap left right]
  cases left.compare? right with
  | none => rfl
  | some ordering => exact comparison.mirrored_admits ordering

/-! ## The replies of the two classes -/

section Replies

variable {left right : Value} {number other : Number}
variable (leftHolds : left.number? = some number) (rightHolds : right.number? = some other)
include leftHolds rightHolds

theorem equalNumbers_eq :
    IntegerOperation.equalNumbers left right = equal.holds number other := by
  simp only [IntegerOperation.equalNumbers, leftHolds, rightHolds, holds]
  cases number.compare? other with
  | none => rfl
  | some ordering => cases ordering <;> rfl

theorem reply_onIntegers (comparison : Comparison) :
    comparison.onIntegers.reply [left, right] =
      if comparison ≠ .equal ∧ number.compare? other = none then .mismatch
      else .truth (comparison.holds number other) := by
  cases comparison with
  | equal =>
      rw [if_neg (by simp), ← equalNumbers_eq leftHolds rightHolds]
      rfl
  | less | lessOrEqual | greater | greaterOrEqual =>
      simp only [onIntegers, IntegerOperation.reply, IntegerOperation.unary,
        IntegerOperation.binary, IntegerOperation.comparison, leftHolds, rightHolds, holds]
      cases number.compare? other <;> rfl

/-- What has no order compares as false, so that doubles can be compared with all numbers. -/
theorem reply_onDoubles (comparison : Comparison) :
    comparison.onDoubles.reply [left, right] = .truth (comparison.holds number other) := by
  cases comparison with
  | equal =>
      rw [← equalNumbers_eq leftHolds rightHolds]
      rfl
  | less | lessOrEqual | greater | greaterOrEqual =>
      simp only [onDoubles, DoubleOperation.reply, DoubleOperation.unary, DoubleOperation.binary,
        DoubleOperation.comparison, leftHolds, rightHolds, holds, Option.bind_some]
      cases number.compare? other <;> rfl

end Replies

end Comparison

/-! ## Sending a comparison -/

/-- Whether integers and doubles answer comparisons with the operations that they come with, and an
integer reports what it does not understand. -/
structure Image.ComparesNumbers (image : Image) : Prop where
  integers : ∀ comparison : Comparison,
    image.Binds image.core.integer comparison.selector (.integer comparison.onIntegers)
  doubles : ∀ comparison : Comparison,
    image.Binds image.core.double comparison.selector (.double comparison.onDoubles)
  /-- The method that an integer answers a comparison with is known by the name of it. -/
  named : ∀ (comparison : Comparison) (method : MethodRef),
    image.lookup image.core.integer comparison.selector = some method →
      (image.methodAt method).selector = comparison.selector
  reports : image.Binds image.core.integer Machine.misunderstanding (.object .notUnderstood)

theorem Image.comparesNumbers_iff (image : Image) :
    image.ComparesNumbers ↔
      (∀ comparison ∈ Comparison.all,
        image.Binds image.core.integer comparison.selector (.integer comparison.onIntegers) ∧
        image.Binds image.core.double comparison.selector (.double comparison.onDoubles) ∧
        ∀ method, image.lookup image.core.integer comparison.selector = some method →
          (image.methodAt method).selector = comparison.selector) ∧
      image.Binds image.core.integer Machine.misunderstanding (.object .notUnderstood) := by
  constructor
  · rintro ⟨integers, doubles, named, reports⟩
    exact ⟨fun comparison _ => ⟨integers comparison, doubles comparison, named comparison⟩, reports⟩
  · rintro ⟨comparisons, reports⟩
    exact {
      integers comparison := (comparisons comparison comparison.mem_all).1
      doubles comparison := (comparisons comparison comparison.mem_all).2.1
      named comparison := (comparisons comparison comparison.mem_all).2.2
      reports }

instance (image : Image) : Decidable image.ComparesNumbers :=
  decidable_of_iff _ image.comparesNumbers_iff.symm

namespace Image

/-- Meeting a name changes no lookup. -/
theorem Binds.meet {image : Image} {type : ClassRef} {selector : Selector} {operation : Primitive}
    (binds : image.Binds type selector operation) (name : String) :
    (image.meet name).Binds type selector operation := by
  obtain ⟨method, found, behavior⟩ := binds
  exact ⟨method, (lookup_of_classes (by rfl) type selector).trans found, behavior⟩

theorem ComparesNumbers.meet {image : Image} (compares : image.ComparesNumbers) (name : String) :
    (image.meet name).ComparesNumbers where
  integers := fun comparison => (compares.integers comparison).meet name
  doubles := fun comparison => (compares.doubles comparison).meet name
  named := fun comparison method found =>
    compares.named comparison method ((lookup_of_classes (by rfl) _ _).symm.trans found)
  reports := compares.reports.meet name

end Image

/-- A host meets a selector before it sends it. -/
theorem Request.serve_send (machine : Machine) (selector : Selector) (receiver : Value)
    (operands : List Value) (image : Image) :
    (Request.send selector receiver operands).serve machine image =
      Response.ofEval
        (Eval.complete (machine.send selector (receiver :: operands)) (image.meet selector)) :=
  rfl

namespace Machine

variable {image : Image} {receiver : Value} {selector : Selector} {method : MethodRef}
variable {operation : Primitive} {operands : List Value}

/-- A message that is answered with an operation runs it. -/
theorem send_primitive (found : image.lookupFor receiver selector = some method)
    (behavior : (image.methodAt method).behavior = .primitive operation) (budget : Nat) :
    (ofBudget (budget + 1)).send selector (receiver :: operands) image =
      (ofBudget budget).runPrimitive operation (image.methodAt method).selector
        (receiver :: operands) image :=
  (send_of_lookupFor _ found operands).trans (activate_primitive behavior)

end Machine

namespace Comparison

variable {image : Image} {left right : Value} {number other : Number} {comparison : Comparison}

/-- A comparison is answered with the operation of the class of the number. -/
theorem binds (compares : image.ComparesNumbers) (comparison : Comparison)
    (holds : left.number? = some number) :
    image.Binds (image.classOf left) comparison.selector (comparison.operation number) := by
  cases left <;> cases holds
  case integer | big => exact compares.integers comparison
  case double => exact compares.doubles comparison

theorem serve_of_truth (compares : image.ComparesNumbers) (holds : left.number? = some number)
    {truth : Bool} (budget : Nat)
    (ran : ∀ image, Primitive.run (.ofBudget budget) (comparison.operation number) [left, right]
      image = .ok (.boolean truth) image) :
    (Request.send comparison.selector left [right]).serve (.ofBudget (budget + 1)) image =
      (.answer (.boolean truth), image.meet comparison.selector) := by
  obtain ⟨method, found, behavior⟩ := binds (compares.meet comparison.selector) comparison holds
  have sent := (Machine.send_primitive found behavior budget).trans
    (Machine.runPrimitive_ok (ran _))
  rw [Request.serve_send, Eval.complete, sent]
  rfl

/-- A double answers every comparison with a number. -/
theorem serve_of_double {double : Double} (compares : image.ComparesNumbers)
    (leftHolds : left.number? = some (.double double)) (rightHolds : right.number? = some other)
    (comparison : Comparison) (budget : Nat) :
    (Request.send comparison.selector left [right]).serve (.ofBudget (budget + 1)) image =
      (.answer (.boolean (comparison.holds (.double double) other)),
        image.meet comparison.selector) := by
  refine serve_of_truth compares leftHolds budget fun image => ?_
  change (Primitive.double _).conclude (comparison.onDoubles.reply _) image = _
  rw [reply_onDoubles leftHolds rightHolds]
  rfl

theorem onIntegers_settled (comparison : Comparison) : comparison.onIntegers ≠ .atRandom := by
  cases comparison <;> decide

variable {integer : Int}

/-- An integer answers every comparison with a number that it has an order with, and always whether
it is equal. -/
theorem serve_of_integer (compares : image.ComparesNumbers)
    (leftHolds : left.number? = some (.integer integer)) (rightHolds : right.number? = some other)
    (ordered : comparison = .equal ∨ (Number.integer integer).clash other = false)
    (budget : Nat) :
    (Request.send comparison.selector left [right]).serve (.ofBudget (budget + 1)) image =
      (.answer (.boolean (comparison.holds (.integer integer) other)),
        image.meet comparison.selector) := by
  have replies : ¬ (comparison ≠ .equal ∧ (Number.integer integer).compare? other = none) := by
    rw [Number.compare?_integer_eq_none_iff]
    rintro ⟨unequal, clash⟩
    rcases ordered with equal | free
    · exact unequal equal
    · exact absurd (clash.symm.trans free) (by decide)
  refine serve_of_truth compares leftHolds budget fun image => ?_
  rw [operation, IntegerOperation.run_eq_conclude comparison.onIntegers_settled,
    reply_onIntegers leftHolds rightHolds, if_neg replies]
  rfl

/-- An integer that is told that it does not understand a message fails. -/
theorem activate_reports (holds : left.number? = some (.integer integer)) {selector : Selector}
    {arguments : Value} {handler : MethodRef} (budget : Nat)
    (behavior : (image.methodAt handler).behavior = .primitive (.object .notUnderstood)) :
    (Machine.ofBudget (budget + 1)).activate
        (.method handler [left, .symbol selector, arguments]) image =
      .error (.failed {
        failure := .notUnderstood (Integer.text integer) selector
        backtrace := #[] }) image := by
  rw [Machine.activate_primitive behavior]
  unfold Machine.runPrimitive
  cases left <;> cases holds <;> rfl

/-- An integer does not understand how to be compared with what is not a number. -/
theorem serve_of_clash (compares : image.ComparesNumbers)
    (leftHolds : left.number? = some (.integer integer)) (rightHolds : right.number? = some other)
    (unequal : comparison ≠ .equal) (clash : (Number.integer integer).clash other = true)
    (budget : Nat) :
    ((Request.send comparison.selector left [right]).serve (.ofBudget (budget + 2)) image).1 =
      .escaped (.failed {
        failure := .notUnderstood (Integer.text integer) comparison.selector
        backtrace := #[] }) := by
  have compares := compares.meet comparison.selector
  rw [Request.serve_send]
  generalize image.meet comparison.selector = image at compares
  obtain ⟨method, found, behavior⟩ := binds compares comparison leftHolds
  obtain ⟨handler, reports, reporting⟩ := compares.reports
  have mismatch : Primitive.run (.ofBudget (budget + 1)) (comparison.operation (.integer integer))
      [left, right] image =
        .error (.failed {
          failure := .typeMismatch (comparison.operation (.integer integer)).title
          backtrace := #[] }) image := by
    have replies : comparison ≠ .equal ∧ (Number.integer integer).compare? other = none :=
      ⟨unequal, (Number.compare?_integer_eq_none_iff integer other).mpr clash⟩
    rw [operation, IntegerOperation.run_eq_conclude comparison.onIntegers_settled,
      reply_onIntegers leftHolds rightHolds, if_pos replies]
    rfl
  obtain ⟨journal, reproached⟩ := Machine.invoke_reproaches behavior mismatch
  have owner : image.classOf left = image.core.integer := by
    cases left <;> cases leftHolds <;> rfl
  rw [owner] at found
  rw [compares.named comparison method found, Image.lookupFor, owner, reports] at reproached
  have failed := reproached.trans (activate_reports leftHolds budget reporting)
  have sent := (Machine.ofBudget (budget + 2)).send_of_lookupFor
    (by rw [Image.lookupFor, owner, found]) [right]
  rw [Eval.complete, sent.trans failed]
  rfl

end Comparison

/-! ## Both sides -/

namespace Comparison

/-- Whether a comparison and its mirror image come to the same, sent to the two numbers in turn. -/
def Mirrors (comparison : Comparison) (machine : Machine) (image : Image) (left right : Value) :
    Prop :=
  ((Request.send comparison.selector left [right]).serve machine image).1 =
    ((Request.send comparison.mirrored.selector right [left]).serve machine image).1

/-- Whether both are answered with a truth value, and nothing is changed but that the host has met
the selector. -/
def BothAnswer (comparison : Comparison) (machine : Machine) (image : Image) (left right : Value)
    (truth : Bool) : Prop :=
  (Request.send comparison.selector left [right]).serve machine image =
      (.answer (.boolean truth), image.meet comparison.selector) ∧
    (Request.send comparison.mirrored.selector right [left]).serve machine image =
      (.answer (.boolean truth), image.meet comparison.mirrored.selector)

/-- Whether the comparison fails because an integer does not understand it, while its mirror image
is answered with false, and changes nothing but that the host has met the selector. -/
def Parts (comparison : Comparison) (machine : Machine) (image : Image) (left right : Value)
    (integer : Int) : Prop :=
  ((Request.send comparison.selector left [right]).serve machine image).1 =
      .escaped (.failed {
        failure := .notUnderstood (Integer.text integer) comparison.selector
        backtrace := #[] }) ∧
    (Request.send comparison.mirrored.selector right [left]).serve machine image =
      (.answer (.boolean false), image.meet comparison.mirrored.selector)

section Sides

variable {image : Image} {left right : Value} {number other : Number} {comparison : Comparison}
variable (compares : image.ComparesNumbers)
include compares

/-- A comparison that has an answer has the one that it should have. -/
theorem serve_of_ordered (leftHolds : left.number? = some number)
    (rightHolds : right.number? = some other)
    (ordered : comparison = .equal ∨ number.clash other = false) (budget : Nat) :
    (Request.send comparison.selector left [right]).serve (.ofBudget (budget + 1)) image =
      (.answer (.boolean (comparison.holds number other)), image.meet comparison.selector) := by
  cases number with
  | integer => exact serve_of_integer compares leftHolds rightHolds ordered budget
  | double => exact serve_of_double compares leftHolds rightHolds comparison budget

theorem bothAnswer_of_ordered (leftHolds : left.number? = some number)
    (rightHolds : right.number? = some other)
    (ordered : comparison = .equal ∨ number.clash other = false) (budget : Nat) :
    comparison.BothAnswer (.ofBudget (budget + 1)) image left right
      (comparison.holds number other) := by
  have around : comparison.mirrored = .equal ∨ other.clash number = false := by
    rwa [mirrored_eq_equal, Number.clash_comm]
  refine ⟨serve_of_ordered compares leftHolds rightHolds ordered budget, ?_⟩
  rw [← mirrored_holds]
  exact serve_of_ordered compares rightHolds leftHolds around budget

theorem parts_of_clash {integer : Int} {double : Double}
    (leftHolds : left.number? = some (.integer integer))
    (rightHolds : right.number? = some (.double double)) (unequal : comparison ≠ .equal)
    (undefined : Double.isNaN double = true) (budget : Nat) :
    comparison.Parts (.ofBudget (budget + 2)) image left right integer := by
  refine ⟨serve_of_clash compares leftHolds rightHolds unequal undefined budget, ?_⟩
  have unordered := (Number.compare?_integer_eq_none_iff integer (.double double)).mpr undefined
  rw [serve_of_double compares rightHolds leftHolds, mirrored_holds, holds, unordered]
  rfl

omit compares in
/-- An answer and a failure are not the same. -/
theorem Parts.not_mirrors {machine : Machine} {integer : Int}
    (parts : comparison.Parts machine image left right integer) :
    ¬ comparison.Mirrors machine image left right := by
  intro mirrors
  rw [Mirrors, parts.1, parts.2] at mirrors
  cases mirrors

omit compares in
theorem Mirrors.mirrored {machine : Machine}
    (mirrors : comparison.Mirrors machine image left right) :
    comparison.mirrored.Mirrors machine image right left := by
  rw [Mirrors, mirrored_mirrored]
  exact mirrors.symm

theorem not_mirrors_of_clash (leftHolds : left.number? = some number)
    (rightHolds : right.number? = some other) (unequal : comparison ≠ .equal)
    (clash : number.clash other = true) (budget : Nat) :
    ¬ comparison.Mirrors (.ofBudget (budget + 2)) image left right := by
  intro mirrors
  cases number with
  | integer integer =>
      cases other with
      | integer => cases clash
      | double double =>
          exact (parts_of_clash compares leftHolds rightHolds unequal clash budget).not_mirrors
            mirrors
  | double double =>
      cases other with
      | integer integer =>
          have unequalToo : comparison.mirrored ≠ .equal := unequal ∘ mirrored_eq_equal.mp
          exact (parts_of_clash compares rightHolds leftHolds unequalToo clash budget).not_mirrors
            mirrors.mirrored
      | double => cases clash

end Sides

end Comparison

/-- Where integers and doubles answer comparisons with the operations that they come with, a
comparison and its mirror image come to the same, unless one of the two numbers is an integer and
the other is not a number, and the comparison is not that for equality.  When they come to the same,
both answer whether the comparison holds and change nothing but that the selector is met.  When they
do not, the integer fails because it does not understand the message, and the double answers that
the comparison does not hold. -/
theorem comparisons_mirror {image : Image} (compares : image.ComparesNumbers)
    {left right : Value} {number other : Number} (leftHolds : left.number? = some number)
    (rightHolds : right.number? = some other) (comparison : Comparison) (budget : Nat) :
    (comparison.Mirrors (.ofBudget (budget + 2)) image left right ↔
      comparison = .equal ∨ number.clash other = false) ∧
    (comparison = .equal ∨ number.clash other = false →
      comparison.BothAnswer (.ofBudget (budget + 2)) image left right
        (comparison.holds number other)) ∧
    (comparison ≠ .equal → ∀ integer double, number = .integer integer → other = .double double →
      Double.isNaN double = true →
        comparison.Parts (.ofBudget (budget + 2)) image left right integer) := by
  have bothAnswer : comparison = .equal ∨ number.clash other = false →
      comparison.BothAnswer (.ofBudget (budget + 2)) image left right
        (comparison.holds number other) := fun ordered =>
    Comparison.bothAnswer_of_ordered compares leftHolds rightHolds ordered (budget + 1)
  refine ⟨⟨?_, ?_⟩, bothAnswer, ?_⟩
  · intro mirrors
    by_contra clashes
    rw [not_or, Bool.not_eq_false] at clashes
    exact Comparison.not_mirrors_of_clash compares leftHolds rightHolds clashes.1 clashes.2 budget
      mirrors
  · intro ordered
    obtain ⟨sent, returned⟩ := bothAnswer ordered
    rw [Comparison.Mirrors, sent, returned]
  · rintro unequal integer double rfl rfl undefined
    exact Comparison.parts_of_clash compares leftHolds rightHolds unequal undefined budget

theorem initial_comparesNumbers : (Image.initial .plain .standard false).ComparesNumbers := by
  decide +kernel

/-- In a machine that has just been set up, every word is less than infinity, also when infinity is
asked. -/
theorem comparisons_mirror_infinity :
    Comparison.less.BothAnswer (.ofBudget 2) (.initial .plain .standard false)
      (.integer Int64.maxValue) (.double Double.infinity) true := by
  have mirror := @comparisons_mirror _ initial_comparesNumbers (.integer Int64.maxValue)
    (.double Double.infinity) _ _ rfl rfl .less 0
  have ordered : Comparison.less.holds (.integer Int64.maxValue.toInt) (.double Double.infinity) =
      true := by decide +kernel
  rw [← ordered]
  exact mirror.2.1 (.inr (by decide +kernel))

/-- In a machine that has just been set up, `1` does not understand that it should be less than what
is not a number, while this answers that it is not greater than `1`. -/
theorem comparison_with_undefined_parts :
    Comparison.less.Parts (.ofBudget 2) (.initial .plain .standard false) (.integer 1)
        (.double Double.notANumber) 1 ∧
      ¬ Comparison.less.Mirrors (.ofBudget 2) (.initial .plain .standard false) (.integer 1)
        (.double Double.notANumber) := by
  have parts : Comparison.less.Parts (.ofBudget 2) (.initial .plain .standard false) (.integer 1)
      (.double Double.notANumber) 1 :=
    Comparison.parts_of_clash initial_comparesNumbers rfl rfl (by decide) (by decide +kernel) 0
  exact ⟨parts, parts.not_mirrors⟩

end MessageMachine
