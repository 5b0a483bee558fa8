import MessageMachine.Proofs.Arithmetic
import MessageMachine.Primitive.Collection

/-!
# Reading back the texts of integers

An integer is written in one way, and read from many: a sign may stand before the digits, of which
there is at least one, leading zeros count for nothing, and there may be underscores anywhere after
the first digit.  What these texts spell is fixed here without the reader.  The reader accepts
exactly the texts that spell an integer, and the one that an integer is written as is among those
that spell it.  So nothing is lost on the way from an integer to its text and back, nor on the way
from a text to the integer and to the text of that.
-/

namespace MessageMachine

namespace Integer

/-! ## Writing -/

theorem digitsOnto_eq (number : Nat) (rest : List Char) :
    digitsOnto number rest = Nat.toDigits 10 number ++ rest := by
  have character : ∀ digit < 10, digitCharacter digit = Nat.digitChar digit := by decide
  induction number, rest using digitsOnto.induct with
  | case1 number rest single =>
      rw [digitsOnto, if_pos single, Nat.toDigits_of_lt_base single, character number single]
      rfl
  | case2 number rest several inductionHypothesis =>
      have written := @Nat.toDigits_eq_if 10 number (by decide)
      rw [if_neg several] at written
      rw [digitsOnto, if_neg several, inductionHypothesis, written,
        character _ (Nat.mod_lt number (by decide)), List.append_assoc]
      rfl

/-- An integer is written as mathematics does. -/
theorem toList_text (number : Int) :
    (text number).toList =
      if number < 0 then '-' :: Nat.toDigits 10 number.natAbs
      else Nat.toDigits 10 number.natAbs := by
  have written : digits number.natAbs = Nat.toDigits 10 number.natAbs := by
    rw [digits, digitsOnto_eq, List.append_nil]
  unfold text
  split <;> rw [String.toList_ofList, written]

/-! ## Reading -/

/-- Whether some characters spell a natural number: they start with a digit, there are only digits
and underscores among them, and the digits are those of the number, after any number of zeros. -/
structure SpellsNatural (characters : List Char) (number : Nat) : Prop where
  first : characters.head?.any Char.isDigit = true
  others : ∀ character ∈ characters, character.isDigit = true ∨ character = '_'
  value : Nat.ofDigitChars 10 (characters.filter Char.isDigit) 0 = number

/-- Whether some characters spell an integer: a natural number with at most one sign before it. -/
inductive Spells : List Char → Int → Prop
  | unsigned {characters : List Char} {number : Nat} :
      SpellsNatural characters number → Spells characters number
  | positive {characters : List Char} {number : Nat} :
      SpellsNatural characters number → Spells ('+' :: characters) number
  | negative {characters : List Char} {number : Nat} :
      SpellsNatural characters number → Spells ('-' :: characters) (-number)

theorem digitValue?_eq (character : Char) :
    digitValue? character =
      if character.isDigit then some (character.toNat - '0'.toNat) else none := by
  have same : character.isDigit = true ↔ '0' ≤ character ∧ character ≤ '9' := by
    simp only [Char.isDigit, Bool.and_eq_true, decide_eq_true_eq, Char.le_def, ge_iff_le]
  simp only [digitValue?, same]
  rfl

/-- Digits are read on from a number, and underscores are passed over. -/
theorem readDigits_eq_ok_iff (characters : List Char) (number result : Nat) :
    readDigits number characters = .ok result ↔
      (∀ character ∈ characters, character.isDigit = true ∨ character = '_') ∧
        Nat.ofDigitChars 10 (characters.filter Char.isDigit) number = result := by
  induction number, characters using readDigits.induct with
  | case1 number => simp [readDigits]
  | case2 number rest inductionHypothesis =>
      rw [readDigits, inductionHypothesis, List.forall_mem_cons]
      simp
  | case3 number character rest notSeparator digit known inductionHypothesis =>
      rw [digitValue?_eq] at known
      obtain ⟨isDigit, value⟩ := Option.ite_none_right_eq_some.mp known
      obtain rfl := Option.some.inj value
      rw [readDigits.eq_3 _ _ _ notSeparator, digitValue?_eq, if_pos isDigit]
      simp only [inductionHypothesis, List.forall_mem_cons, List.filter_cons_of_pos isDigit,
        Nat.ofDigitChars_cons, isDigit, true_or, true_and]
  | case4 number character rest notSeparator unknown =>
      rw [readDigits.eq_3 _ _ _ notSeparator, unknown]
      rw [digitValue?_eq, ite_eq_right_iff] at unknown
      refine iff_of_false (by simp) ?_
      rintro ⟨allowed, -⟩
      rcases allowed character List.mem_cons_self with isDigit | rfl
      · cases unknown isDigit
      · exact notSeparator rfl

theorem SpellsNatural.isDigit_first {first : Char} {rest : List Char} {number : Nat}
    (spells : SpellsNatural (first :: rest) number) : first.isDigit = true :=
  spells.first

theorem readUnsigned_eq_ok_iff (characters : List Char) (number : Nat) :
    readUnsigned characters = .ok number ↔ SpellsNatural characters number := by
  cases characters with
  | nil => exact iff_of_false (by simp [readUnsigned]) fun spells => absurd spells.first (by decide)
  | cons first rest =>
      by_cases separator : first = '_'
      · subst separator
        exact iff_of_false (by simp [readUnsigned]) fun spells =>
          absurd spells.isDigit_first (by decide)
      · rw [readUnsigned.eq_3 _ (by simp) (fun _ same => separator (List.cons.inj same).1),
          readDigits_eq_ok_iff]
        constructor
        · rintro ⟨others, value⟩
          exact ⟨(others first List.mem_cons_self).resolve_right separator, others, value⟩
        · exact fun spells => ⟨spells.others, spells.value⟩

/-- What a reader of signed numbers makes of the number after the sign. -/
theorem signed_eq_ok_iff (characters : List Char) (sign : Int → Int) (number : Int) :
    ((do let natural ← readUnsigned characters; pure (natural : Int)).map sign : Except _ _) =
      .ok number ↔ ∃ natural : Nat, SpellsNatural characters natural ∧ sign natural = number := by
  simp only [← readUnsigned_eq_ok_iff]
  cases readUnsigned characters <;> simp [Except.map, bind, Except.bind, pure, Except.pure]

/-- The reader accepts what spells an integer, and nothing else. -/
theorem read_eq_ok_iff (text : String) (number : Int) :
    read text = .ok number ↔ Spells text.toList number := by
  unfold read
  split
  · next rest given =>
      rw [given, signed_eq_ok_iff]
      constructor
      · rintro ⟨natural, spells, rfl⟩
        exact .negative spells
      · rintro (spells | _ | spells)
        · exact absurd spells.isDigit_first (by decide)
        · exact ⟨_, spells, rfl⟩
  · next rest given =>
      rw [given, signed_eq_ok_iff]
      constructor
      · rintro ⟨natural, spells, rfl⟩
        exact .positive spells
      · rintro (spells | spells | _)
        · exact absurd spells.isDigit_first (by decide)
        · exact ⟨_, spells, rfl⟩
  · next notNegative notPositive =>
      rw [signed_eq_ok_iff]
      generalize text.toList = characters at notNegative notPositive ⊢
      constructor
      · rintro ⟨natural, spells, rfl⟩
        exact .unsigned spells
      · rintro (spells | spells | spells)
        · exact ⟨_, spells, rfl⟩
        · exact absurd rfl (notPositive _)
        · exact absurd rfl (notNegative _)

theorem spellsNatural_toDigits (number : Nat) : SpellsNatural (Nat.toDigits 10 number) number := by
  have digits : ∀ character ∈ Nat.toDigits 10 number, character.isDigit = true :=
    fun character member => Nat.isDigit_of_mem_toDigits (by decide) (by decide) member
  refine ⟨?_, fun character member => .inl (digits character member), ?_⟩
  · obtain ⟨first, rest, shape⟩ := List.exists_cons_of_ne_nil (@Nat.toDigits_ne_nil number 10)
    rw [shape] at digits ⊢
    exact digits first List.mem_cons_self
  · rw [List.filter_eq_self.mpr digits, Nat.ofDigitChars_ten_toDigits]

/-- The text of an integer spells it. -/
theorem spells_text (number : Int) : Spells (text number).toList number := by
  rw [toList_text]
  split
  · next negative =>
      have spells := Spells.negative (spellsNatural_toDigits number.natAbs)
      rwa [Int.ofNat_natAbs_of_nonpos negative.le, Int.neg_neg] at spells
  · next nonnegative =>
      have spells := Spells.unsigned (spellsNatural_toDigits number.natAbs)
      rwa [Int.natAbs_of_nonneg (Int.not_lt.mp nonnegative)] at spells

end Integer

/-! ## The operations -/

/-- Whether an integer is given a text, in every image and on every machine. -/
def Value.PrintsAs (value : Value) (text : String) : Prop :=
  ∀ machine image, (Primitive.integer .asString).run machine [value] image =
    .ok (.string text) image

/-- Whether what is given is read as an integer, in normal form: whatever receives the message, in
every image and on every machine. -/
def Value.ReadsAs (given : Value) (number : Int) : Prop :=
  ∃ value : Value, value.Represents number ∧ ∀ receiver machine image,
    (Primitive.factory .integerFromString).run machine [receiver, given] image = .ok value image

section Operations

variable {value given receiver : Value} {number : Int} {text : String} {machine : Machine}
variable {image : Image}

theorem Value.printsAs_text (holds : value.integral? = some number) :
    value.PrintsAs (Integer.text number) := by
  intro machine image
  rw [IntegerOperation.run_eq_conclude (by decide)]
  simp only [IntegerOperation.reply, IntegerOperation.unary, IntegerOperation.onIntegral, holds]
  rfl

theorem FactoryOperation.run_of_read (characters : given.characters? = some text)
    (accepted : Integer.read text = .ok number) :
    (Primitive.factory .integerFromString).run machine [receiver, given] image =
      .ok (.ofInt number) image := by
  change FactoryOperation.run .integerFromString [receiver, given] image = _
  simp only [FactoryOperation.run, characters, accepted]
  rfl

/-- What is read is a string or a symbol that spells an integer, and the integer is answered. -/
theorem FactoryOperation.of_run {answer : Value} {after : Image}
    (answered : (Primitive.factory .integerFromString).run machine [receiver, given] image =
      .ok answer after) :
    after = image ∧ ∃ text number, given.characters? = some text ∧
      Integer.read text = .ok number ∧ answer = .ofInt number := by
  change FactoryOperation.run .integerFromString [receiver, given] image = _ at answered
  cases characters : given.characters? with
  | none =>
      simp only [FactoryOperation.run, characters] at answered
      cases answered
  | some text =>
      cases accepted : Integer.read text with
      | error error =>
          simp only [FactoryOperation.run, characters, accepted] at answered
          cases answered
      | ok number =>
          simp only [FactoryOperation.run, characters, accepted] at answered
          cases answered
          exact ⟨rfl, text, number, rfl, accepted, rfl⟩

/-- A value is read as the integer that its text spells. -/
theorem Value.readsAs_iff :
    given.ReadsAs number ↔
      ∃ text, given.characters? = some text ∧ Integer.Spells text.toList number := by
  constructor
  · rintro ⟨value, represents, runs⟩
    obtain ⟨-, text, read, characters, accepted, answer⟩ :=
      FactoryOperation.of_run (runs .nil (.ofBudget 0) (.empty .plain .standard false))
    rw [represents.eq_ofInt, ofInt_inj] at answer
    subst answer
    exact ⟨text, characters, (Integer.read_eq_ok_iff text number).mp accepted⟩
  · rintro ⟨text, characters, spells⟩
    have accepted := (Integer.read_eq_ok_iff text number).mpr spells
    exact ⟨_, represents_ofInt number, fun _ _ _ =>
      FactoryOperation.run_of_read characters accepted⟩

end Operations

/-- The texts of integers read back.  An integer is written in decimal, however it is held, and from
its text, be it a string or the symbol with it, the same integer is read, in normal form.  What is
read at all is what spells an integer.  If something is read, then the answer is in normal form, and
reading the text of the answer gives the same answer again. -/
theorem integer_texts_read_back :
    (∀ (value : Value) (number : Int), value.integral? = some number →
      value.PrintsAs (Integer.text number) ∧
        (Value.string (Integer.text number)).ReadsAs number ∧
        (Value.symbol (Integer.text number)).ReadsAs number) ∧
    (∀ (given : Value) (number : Int), given.ReadsAs number ↔
      ∃ text, given.characters? = some text ∧ Integer.Spells text.toList number) ∧
    ∀ (receiver given answer : Value) (machine : Machine) (image after : Image),
      (Primitive.factory .integerFromString).run machine [receiver, given] image =
          .ok answer after →
        after = image ∧ ∃ (number : Int) (printed : String),
          given.ReadsAs number ∧ answer.Represents number ∧ answer.PrintsAs printed ∧
            ∀ again ∈ [Value.string printed, .symbol printed], ∀ machine image,
              (Primitive.factory .integerFromString).run machine [receiver, again] image =
                .ok answer image := by
  refine ⟨?_, fun given number => Value.readsAs_iff, ?_⟩
  · intro value number holds
    have spells := Integer.spells_text number
    exact ⟨Value.printsAs_text holds, Value.readsAs_iff.mpr ⟨_, rfl, spells⟩,
      Value.readsAs_iff.mpr ⟨_, rfl, spells⟩⟩
  · intro receiver given answer machine image after answered
    obtain ⟨unchanged, text, number, characters, accepted, rfl⟩ :=
      FactoryOperation.of_run answered
    have spells := (Integer.read_eq_ok_iff text number).mp accepted
    have printed := (Integer.read_eq_ok_iff _ number).mpr (Integer.spells_text number)
    refine ⟨unchanged, number, Integer.text number,
      Value.readsAs_iff.mpr ⟨text, characters, spells⟩, Value.represents_ofInt number,
      Value.printsAs_text (Value.integral?_ofInt number), ?_⟩
    intro again form machine image
    simp only [List.mem_cons, List.not_mem_nil, or_false] at form
    rcases form with rfl | rfl
    · exact FactoryOperation.run_of_read rfl printed
    · exact FactoryOperation.run_of_read rfl printed

/-- A sign, a zero and an underscore do not keep a text from being read, and the smallest number
above the words is read as a big integer. -/
theorem integer_texts_read_back_above_words :
    (Value.big 9223372036854775808).Represents 9223372036854775808 ∧
      (Value.symbol "+0_9223372036854775808").ReadsAs 9223372036854775808 := by
  have allowed : ("0_9223372036854775808".toList.all fun character =>
      character.isDigit || decide (character = '_')) = true := by decide
  have spellsNatural :
      Integer.SpellsNatural "0_9223372036854775808".toList 9223372036854775808 := {
    first := by decide
    others := by simpa only [List.all_eq_true, Bool.or_eq_true, decide_eq_true_eq] using allowed
    value := by decide }
  have spells : Integer.Spells "+0_9223372036854775808".toList 9223372036854775808 :=
    .positive spellsNatural
  exact ⟨⟨rfl, by simp⟩, (integer_texts_read_back.2.1 _ _).mpr ⟨_, rfl, spells⟩⟩

end MessageMachine
