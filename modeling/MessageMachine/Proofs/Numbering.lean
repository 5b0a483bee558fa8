import Mathlib.Data.List.Induction
import Mathlib.Data.List.ReduceOption
import MessageMachine.Language.Interner

/-!
# The numbering of texts

An interner keeps a table and a map that have to stay inverse to each other.  Both are read off one
list here, the texts in the order in which they were first interned: a number is a position in that
list.  One lemma says what a call does to the list, and an induction over the calls carries it to
every interner that calls can make out of the empty one.
-/

namespace MessageMachine

namespace Interner

/-- A call on an interner. -/
inductive Call where
  /-- Meet a text. -/
  | intern (text : String)
  /-- Ask for the number of a text without meeting it. -/
  | find (text : String)
  deriving DecidableEq, Repr

namespace Call

/-- The number that a call answers, and the interner after the call. -/
def serve (interner : Interner) : Call → Option Nat × Interner
  | intern text => ((interner.intern text).1, (interner.intern text).2)
  | find text => (interner.number? text, interner)

/-- The text that a call interns. -/
def interned? : Call → Option String
  | intern text => some text
  | find _ => none

end Call

/-- The interner after a sequence of calls. -/
def after (interner : Interner) : List Call → Interner
  | [] => interner
  | call :: rest => after (call.serve interner).2 rest

/-- What a sequence of calls answers, call by call. -/
def answers (interner : Interner) : List Call → List (Option Nat)
  | [] => []
  | call :: rest => (call.serve interner).1 :: answers (call.serve interner).2 rest

/-- The texts that a sequence of calls interns, in the order in which it first does so. -/
def met (calls : List Call) : List String :=
  (calls.filterMap Call.interned?).eraseDups

theorem after_append (interner : Interner) (calls later : List Call) :
    interner.after (calls ++ later) = (interner.after calls).after later := by
  induction calls generalizing interner with
  | nil => rfl
  | cons call rest inductionHypothesis => exact inductionHypothesis _

theorem answers_append (interner : Interner) (calls later : List Call) :
    interner.answers (calls ++ later) =
      interner.answers calls ++ (interner.after calls).answers later := by
  induction calls generalizing interner with
  | nil => rfl
  | cons call rest inductionHypothesis =>
      simp only [List.cons_append, answers, after, inductionHypothesis]

/-!
## The list of the texts
-/

theorem mem_met {calls : List Call} {text : String} :
    text ∈ met calls ↔ Call.intern text ∈ calls := by
  rw [met, List.mem_eraseDups, List.mem_filterMap]
  constructor
  · rintro ⟨call, member, interns⟩
    cases call with
    | intern other =>
        cases interns
        exact member
    | find other => cases interns
  · intro member
    exact ⟨.intern text, member, rfl⟩

/-- A list without repetitions is extended by what is not in it yet. -/
theorem eraseDups_concat {α : Type} [DecidableEq α] (earlier : List α) (last : α) :
    (earlier ++ [last]).eraseDups =
      if last ∈ earlier then earlier.eraseDups else earlier.eraseDups ++ [last] := by
  rw [List.eraseDups_append]
  by_cases member : last ∈ earlier
  · simp [member, List.removeAll]
  · simp [member, List.removeAll, List.eraseDups_cons]

theorem met_find (calls : List Call) (text : String) :
    met (calls ++ [.find text]) = met calls := by
  simp only [met, List.filterMap_append, List.filterMap_cons, List.filterMap_nil, Call.interned?,
    List.append_nil]

theorem met_intern (calls : List Call) (text : String) :
    met (calls ++ [.intern text]) =
      if text ∈ met calls then met calls else met calls ++ [text] := by
  simp only [met, List.filterMap_append, List.filterMap_cons, List.filterMap_nil, Call.interned?,
    eraseDups_concat, List.mem_eraseDups]

/-- Later calls only add texts at the end. -/
theorem met_prefix (calls later : List Call) : met calls <+: met (calls ++ later) := by
  rw [met, met, List.filterMap_append, List.eraseDups_append]
  exact List.prefix_append _ _

/-!
## The numbers are the positions
-/

/-- The interner numbers the texts of a list by their positions in it: the table holds the texts,
and the map leads back from a text to its one position. -/
structure Numbers (interner : Interner) (texts : List String) : Prop where
  listed : interner.texts.toList = texts
  inverse (text : String) (number : Nat) :
    interner.number? text = some number ↔ texts[number]? = some text

theorem numbers_empty : empty.Numbers [] where
  listed := rfl
  inverse text number := by simp [empty, number?]

namespace Numbers

variable {interner : Interner} {texts : List String}

theorem size (numbers : interner.Numbers texts) : interner.size = texts.length := by
  rw [Interner.size, ← numbers.listed, Array.length_toList]

theorem text? (numbers : interner.Numbers texts) (number : Nat) :
    interner.text? number = texts[number]? := by
  rw [Interner.text?, ← numbers.listed, Array.getElem?_toList]

theorem number?_eq_none (numbers : interner.Numbers texts) {text : String} :
    interner.number? text = none ↔ text ∉ texts := by
  rw [Option.eq_none_iff_forall_ne_some, List.mem_iff_getElem?, not_exists]
  exact forall_congr' fun number => not_congr (numbers.inverse text number)

/-- Interning a text that is listed changes nothing and answers the position of the text. -/
theorem intern_of_mem (numbers : interner.Numbers texts) {text : String} (member : text ∈ texts) :
    (interner.intern text).2 = interner ∧ texts[(interner.intern text).1]? = some text := by
  cases found : interner.number? text with
  | none => exact absurd member (numbers.number?_eq_none.mp found)
  | some number =>
      rw [intern, found]
      exact ⟨rfl, (numbers.inverse text number).mp found⟩

/-- Interning a text that is not listed yet puts it at the end. -/
theorem intern_of_not_mem (numbers : interner.Numbers texts) {text : String}
    (new : text ∉ texts) :
    (interner.intern text).1 = texts.length ∧
      (interner.intern text).2.Numbers (texts ++ [text]) := by
  rw [intern, numbers.number?_eq_none.mpr new]
  refine ⟨numbers.size, ?_, ?_⟩
  · simp only [Array.toList_push, numbers.listed]
  · intro other number
    have before := numbers.inverse other number
    rw [number?] at before
    simp only [number?, Std.HashMap.getElem?_insert, beq_iff_eq, numbers.size]
    by_cases same : text = other
    · subst same
      have absent : texts[number]? ≠ some text := fun stands => new (List.mem_of_getElem? stands)
      rw [if_pos rfl, List.getElem?_append]
      grind
    · rw [if_neg same, before, List.getElem?_append]
      grind

end Numbers

/-- What one more call does to the texts that an interner numbers. -/
theorem Numbers.serve {interner : Interner} {calls : List Call}
    (numbers : interner.Numbers (met calls)) (call : Call) :
    (call.serve interner).2.Numbers (met (calls ++ [call])) := by
  cases call with
  | find text =>
      rw [met_find]
      exact numbers
  | intern text =>
      rw [met_intern]
      by_cases member : text ∈ met calls
      · rw [if_pos member, Call.serve, (numbers.intern_of_mem member).1]
        exact numbers
      · rw [if_neg member]
        exact (numbers.intern_of_not_mem member).2

/-- After any calls on the empty interner the numbers are the positions of the texts in the order
of first interning. -/
theorem numbers_after (calls : List Call) : (empty.after calls).Numbers (met calls) := by
  induction calls using List.reverseRecOn with
  | nil => exact numbers_empty
  | append_singleton earlier call inductionHypothesis =>
      rw [after_append]
      exact inductionHypothesis.serve call

/-- The number that a call of `intern` answers is the position of its text afterwards. -/
theorem stands_intern (calls : List Call) (text : String) :
    (met (calls ++ [.intern text]))[((empty.after calls).intern text).1]? = some text := by
  have numbers := numbers_after calls
  rw [met_intern]
  by_cases member : text ∈ met calls
  · rw [if_pos member]
    exact (numbers.intern_of_mem member).2
  · rw [if_neg member, (numbers.intern_of_not_mem member).1, List.getElem?_concat_length]

/-!
## The numbers that are handed out
-/

/-- The numbers answered by a sequence of calls on the empty interner, without repetitions, count
up from zero. -/
theorem eraseDups_answers (calls : List Call) :
    (empty.answers calls).reduceOption.eraseDups = List.range (met calls).length := by
  induction calls using List.reverseRecOn with
  | nil => rfl
  | append_singleton earlier call inductionHypothesis =>
      have numbers := numbers_after earlier
      have known (number : Nat) :
          number ∈ (empty.answers earlier).reduceOption ↔ number < (met earlier).length := by
        rw [← List.mem_eraseDups, inductionHypothesis, List.mem_range]
      rw [answers_append, List.reduceOption_append, answers, answers, List.reduceOption_singleton]
      cases call with
      | find text =>
          rw [met_find, Call.serve]
          cases found : (empty.after earlier).number? text with
          | none => rwa [Option.toList_none, List.append_nil]
          | some number =>
              have stands := (numbers.inverse text number).mp found
              have old := (known number).mpr (List.getElem?_eq_some_iff.mp stands).1
              rw [Option.toList_some, eraseDups_concat, if_pos old, inductionHypothesis]
      | intern text =>
          rw [met_intern, Call.serve, Option.toList_some, eraseDups_concat]
          by_cases member : text ∈ met earlier
          · have stands := (numbers.intern_of_mem member).2
            have old := (known _).mpr (List.getElem?_eq_some_iff.mp stands).1
            rw [if_pos member, if_pos old, inductionHypothesis]
          · have next := (numbers.intern_of_not_mem member).1
            have fresh := mt (known (met earlier).length).mp (Nat.lt_irrefl _)
            rw [if_neg member, next, if_neg fresh, inductionHypothesis, List.length_append,
              List.length_singleton, List.range_succ]

/-- Calls that only ask can be left out. -/
theorem after_filter (interner : Interner) (calls : List Call) :
    interner.after (calls.filter fun call => call.interned?.isSome) = interner.after calls := by
  induction calls generalizing interner with
  | nil => rfl
  | cons call rest inductionHypothesis =>
      cases call with
      | intern text => exact inductionHypothesis _
      | find text => exact inductionHypothesis _

/-!
## Stability
-/

/-- What a sequence of calls makes of the empty interner, and what any later calls leave of it. -/
structure Stable (calls later : List Call) : Prop where
  /-- The numbers answered are those below the number of texts, first answered in this order. -/
  counted : (empty.answers calls).reduceOption.eraseDups = List.range (empty.after calls).size
  /-- The texts stand under their numbers in the order in which they were first interned. -/
  ordered : (empty.after calls).texts.toList = met calls
  /-- A number that interning answers is that of the text, then and after all later calls. -/
  recovered (text : String) :
    (((empty.after calls).intern text).2.after later).text? ((empty.after calls).intern text).1 =
      some text
  /-- Texts have one number exactly when they are equal, whatever is called between the two. -/
  distinguished (text other : String) :
    ((empty.after calls).intern text).1 =
        ((((empty.after calls).intern text).2.after later).intern other).1 ↔
      text = other
  /-- Asking for a text answers the number that interning answers, if the text was interned before,
  and nothing otherwise. -/
  found (text : String) (number : Nat) :
    (empty.after calls).number? text = some number ↔
      Call.intern text ∈ calls ∧ ((empty.after calls).intern text).1 = number
  /-- The interner is that of the calls that intern: asking changes nothing. -/
  unmoved : empty.after (calls.filter fun call => call.interned?.isSome) = empty.after calls
  /-- No later call changes the number of a text. -/
  number_kept (text : String) (number : Nat) :
    (empty.after calls).number? text = some number →
      ((empty.after calls).after later).number? text = some number
  /-- No later call changes the text of a number. -/
  text_kept (number : Nat) (text : String) :
    (empty.after calls).text? number = some text →
      ((empty.after calls).after later).text? number = some text
  /-- While there are no more texts than words of 32 bits, every number is told by a word. -/
  worded : (empty.after calls).size ≤ UInt32.size → ∀ (text : String) (number : Nat),
    (empty.after calls).number? text = some number →
      (empty.after calls).text? (UInt32.ofNat number).toNat = some text

/-- A text that stands under a number goes on to do so. -/
theorem stands_later {calls : List Call} {number : Nat} {text : String} (later : List Call)
    (stands : (met calls)[number]? = some text) :
    (met (calls ++ later))[number]? = some text := by
  rcases met_prefix calls later with ⟨added, extended⟩
  rw [← extended, List.getElem?_append_left (List.getElem?_eq_some_iff.mp stands).1]
  exact stands

/-- The numbering of an interner is stable: between the texts that were interned and the numbers
below their count it is one to one, and calls only extend it. -/
theorem numbering_stable (calls later : List Call) : Stable calls later := by
  have numbers := numbers_after calls
  have afterLater := numbers_after (calls ++ later)
  have interned (text : String) :
      ((empty.after calls).intern text).2 = empty.after (calls ++ [.intern text]) := by
    rw [after_append]
    rfl
  constructor
  case counted => rw [eraseDups_answers, numbers.size]
  case ordered => exact numbers.listed
  case recovered =>
    intro text
    rw [interned, ← after_append, (numbers_after _).text?]
    exact stands_later later (stands_intern calls text)
  case distinguished =>
    intro text other
    have first := stands_later (later ++ [.intern other]) (stands_intern calls text)
    have second := stands_intern (calls ++ [.intern text] ++ later) other
    rw [List.append_assoc _ later] at second
    rw [interned, ← after_append]
    have final := numbers_after (calls ++ [.intern text] ++ (later ++ [.intern other]))
    constructor
    · intro same
      rw [same] at first
      exact Option.some.inj (first.symm.trans second)
    · rintro rfl
      exact Option.some.inj
        (((final.inverse _ _).mpr first).symm.trans ((final.inverse _ _).mpr second))
  case found =>
    intro text number
    rw [numbers.inverse]
    constructor
    · intro stands
      have member := List.mem_of_getElem? stands
      have again := (numbers.intern_of_mem member).2
      refine ⟨mem_met.mp member, ?_⟩
      exact Option.some.inj
        (((numbers.inverse _ _).mpr again).symm.trans ((numbers.inverse _ _).mpr stands))
    · rintro ⟨member, rfl⟩
      exact (numbers.intern_of_mem (mem_met.mpr member)).2
  case unmoved => exact after_filter empty calls
  case number_kept =>
    intro text number
    rw [← after_append, numbers.inverse, afterLater.inverse]
    exact stands_later later
  case text_kept =>
    intro number text
    rw [← after_append, numbers.text?, afterLater.text?]
    exact stands_later later
  case worded =>
    intro few text number
    rw [numbers.inverse, numbers.text?]
    rw [numbers.size] at few
    intro stands
    have inside := (List.getElem?_eq_some_iff.mp stands).1
    have fits : number < UInt32.size := Nat.lt_of_lt_of_le inside few
    rw [UInt32.toNat_ofNat_of_lt' fits]
    exact stands

end Interner

end MessageMachine
