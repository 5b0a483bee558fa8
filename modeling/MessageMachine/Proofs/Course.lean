import MessageMachine.Proofs.Discipline.Evaluation

/-!
# The course of an evaluation

The expressions of a body are evaluated one after the other, and so are the parts of an expression
before the expression itself does anything.  The number of an expression in the body, followed by
the number of a part, and so on, is the place of what is evaluated, and the order of the places is
the order in which they are come to.  Once an expression has escaped, no place that follows is come
to.
-/

namespace MessageMachine

namespace Code

/-- The expression at a place, and the image in which it is evaluated, if it is. -/
def visit? (machine : Machine) (frame : FrameRef) :
    List Nat → List Code → Image → Option (Code × Image)
  | [], _, _ => none
  | number :: deeper, codes, image =>
      match codes[number]?, evaluateAll machine frame (codes.take number) image with
      | some code, .ok _ between =>
          if deeper = [] then some (code, between)
          else visit? machine frame deeper code.parts between
      | _, _ => none

/-- Whether a place follows another one, and is not a place within it. -/
inductive Follows : List Nat → List Nat → Prop
  | here {number later : Nat} {deeper deeperToo : List Nat} : number < later →
      Follows (later :: deeper) (number :: deeperToo)
  | deeper {number : Nat} {place other : List Nat} : Follows place other →
      Follows (number :: place) (number :: other)

variable {machine : Machine} {frame : FrameRef} {codes : List Code} {code part : Code}
  {image between final left : Image} {escape : Escape}

theorem visit?_cons {number : Nat} {deeper : List Nat} :
    visit? machine frame (number :: deeper) codes image = some (part, final) ↔
      ∃ earlier code later values between, codes = earlier ++ code :: later ∧
        earlier.length = number ∧
        evaluateAll machine frame earlier image = .ok values between ∧
        (deeper = [] ∧ code = part ∧ between = final ∨
          visit? machine frame deeper code.parts between = some (part, final)) := by
  constructor
  · intro visited
    rw [visit?] at visited
    split at visited
    · next code values between found evaluated =>
        obtain ⟨known, same⟩ := List.getElem?_eq_some_iff.mp found
        refine ⟨codes.take number, code, codes.drop (number + 1), values, between, ?_, ?_,
          evaluated, ?_⟩
        · rw [← same, ← List.drop_eq_getElem_cons known, List.take_append_drop]
        · exact List.length_take_of_le (Nat.le_of_lt known)
        · split at visited
          · next alone =>
              cases visited
              exact Or.inl ⟨alone, rfl, rfl⟩
          · exact Or.inr visited
    · cases visited
  · rintro ⟨earlier, code, later, values, between, rfl, rfl, evaluated, inside⟩
    have found : (earlier ++ code :: later)[earlier.length]? = some code := by simp
    rw [visit?, found, List.take_left, evaluated]
    rcases inside with ⟨rfl, rfl, rfl⟩ | visited
    · rfl
    · cases deeper with
      | nil => cases visited
      | cons next rest => exact visited

/-- What is evaluated is evaluated at some place. -/
theorem visits_iff :
    Visits machine frame codes image part final ↔
      ∃ place, visit? machine frame place codes image = some (part, final) := by
  constructor
  · intro visits
    induction visits with
    | here evaluated =>
        exact ⟨_, visit?_cons.mpr
          ⟨_, _, _, _, _, rfl, rfl, evaluated, Or.inl ⟨rfl, rfl, rfl⟩⟩⟩
    | inside evaluated _ inductionHypothesis =>
        obtain ⟨place, visited⟩ := inductionHypothesis
        exact ⟨_, visit?_cons.mpr ⟨_, _, _, _, _, rfl, rfl, evaluated, Or.inr visited⟩⟩
  · rintro ⟨place, visited⟩
    induction place generalizing codes image with
    | nil => cases visited
    | cons number deeper inductionHypothesis =>
        obtain ⟨earlier, code, later, values, between, rfl, -, evaluated, inside⟩ :=
          visit?_cons.mp visited
        rcases inside with ⟨-, rfl, rfl⟩ | visited
        · exact .here evaluated
        · exact .inside evaluated (inductionHypothesis visited)

/-- Where a part escapes, the expression does. -/
theorem escape_of_part {place : List Nat}
    (visited : visit? machine frame place code.parts image = some (part, final))
    (escaped : part.evaluate machine frame final = .error escape left) :
    code.evaluate machine frame image = .error escape left := by
  rw [evaluate_eq]
  simp only [Bind.bind, EStateM.bind, (visits_iff.mpr ⟨place, visited⟩).escape escaped]

/-- Where expressions escape, one of them does. -/
theorem exists_visit_of_escape
    (escaped : evaluateAll machine frame codes image = .error escape left) :
    ∃ number part final, visit? machine frame [number] codes image = some (part, final) ∧
      part.evaluate machine frame final = .error escape left := by
  induction codes generalizing image with
  | nil => cases escaped
  | cons code rest inductionHypothesis =>
      cases evaluated : code.evaluate machine frame image with
      | error sooner there =>
          have visits : Visits machine frame (code :: rest) image code image := .first
          cases (visits.escape evaluated).symm.trans escaped
          exact ⟨0, code, image,
            visit?_cons.mpr ⟨[], code, rest, [], image, rfl, rfl, rfl, Or.inl ⟨rfl, rfl, rfl⟩⟩,
            evaluated⟩
      | ok value between =>
          have later : evaluateAll machine frame rest between = .error escape left := by
            simp only [evaluateAll, Bind.bind, EStateM.bind, evaluated] at escaped
            split at escaped
            · cases escaped
            · next same =>
                cases escaped
                exact same
          obtain ⟨number, part, final, visited, escapedThere⟩ := inductionHypothesis later
          obtain ⟨earlier, outer, after, values, there, rfl, rfl, evaluatedThem, inside⟩ :=
            visit?_cons.mp visited
          refine ⟨_, part, final, visit?_cons.mpr
            ⟨code :: earlier, outer, after, value :: values, there, rfl, rfl, ?_, inside⟩,
            escapedThere⟩
          simp only [evaluateAll, Bind.bind, EStateM.bind, evaluated, evaluatedThem]
          rfl

/-- Some expressions come after others only if the expression between them is among them. -/
theorem exists_between {earlier later earlierToo laterToo : List Code} {code other : Code}
    (same : earlier ++ code :: later = earlierToo ++ other :: laterToo)
    (less : earlier.length < earlierToo.length) :
    ∃ between, earlierToo = earlier ++ code :: between := by
  have inside : earlier ++ [code] <+: earlierToo ++ other :: laterToo :=
    ⟨later, by rw [List.append_assoc, List.singleton_append, same]⟩
  have short : (earlier ++ [code]).length ≤ earlierToo.length := by
    rw [List.length_append, List.length_singleton]
    exact less
  rcases List.prefix_of_prefix_length_le inside (List.prefix_append _ _) short with ⟨between, whole⟩
  exact ⟨between, by rw [← whole, List.append_assoc, List.singleton_append]⟩

/-- Nothing is evaluated at a place that follows one where an expression escaped. -/
theorem visit?_of_follows {place later : List Nat}
    (visited : visit? machine frame place codes image = some (code, between))
    (escaped : code.evaluate machine frame between = .error escape left)
    (follows : Follows later place) : visit? machine frame later codes image = none := by
  rw [Option.eq_none_iff_forall_ne_some]
  rintro ⟨other, there⟩ visitedToo
  induction follows generalizing codes image with
  | @here number further _ deeper less =>
      obtain ⟨earlier, outer, rest, values, start, rfl, rfl, evaluated, inside⟩ :=
        visit?_cons.mp visited
      have outerEscapes : outer.evaluate machine frame start = .error escape left := by
        rcases inside with ⟨-, rfl, rfl⟩ | visitedInside
        · exact escaped
        · exact escape_of_part visitedInside escaped
      obtain ⟨earlierToo, outerToo, restToo, valuesToo, startToo, same, rfl, evaluatedToo, -⟩ :=
        visit?_cons.mp visitedToo
      -- To come to the later place, one has to get past the expression that escapes.
      obtain ⟨between, rfl⟩ := exists_between same less
      have visits : Visits machine frame (earlier ++ outer :: between) image outer start :=
        .here evaluated
      cases (visits.escape outerEscapes).symm.trans evaluatedToo
  | @deeper number place other follows inductionHypothesis =>
      obtain ⟨earlier, outer, rest, values, start, rfl, rfl, evaluated, inside⟩ :=
        visit?_cons.mp visited
      obtain ⟨earlierToo, outerToo, restToo, valuesToo, startToo, same, length, evaluatedToo,
        insideToo⟩ := visit?_cons.mp visitedToo
      obtain ⟨rfl, tails⟩ := List.append_inj same length.symm
      cases tails
      cases evaluated.symm.trans evaluatedToo
      rcases inside with ⟨rfl, -, -⟩ | visitedInside
      · cases follows
      · rcases insideToo with ⟨rfl, -, -⟩ | visitedInsideToo
        · cases follows
        · exact inductionHypothesis visitedInside visitedInsideToo

end Code

namespace Running

/-- Whether an expression is evaluated in the frame of an activation, at which place and in which
image. -/
inductive EvaluatesAt : Running → List Nat → FrameRef → Code → Image → Prop
  | intro {budget : Nat} {activation : Activation} {begun image : Image} {frame : Frame}
      {body : List Code} {place : List Nat} {code : Code} :
      activation.opening? begun = some (frame, body) →
      Code.visit? (.ofBudget budget) begun.heap.frames.next place body (begun.addFrame frame) =
        some (code, image) →
      EvaluatesAt ⟨budget + 1, activation, begun⟩ place begun.heap.frames.next code image

theorem evaluates_iff {running : Running} {frame : FrameRef} {code : Code} {image : Image} :
    running.Evaluates frame code image ↔ ∃ place, running.EvaluatesAt place frame code image := by
  constructor
  · rintro ⟨opened, visits⟩
    obtain ⟨place, visited⟩ := Code.visits_iff.mp visits
    exact ⟨place, .intro opened visited⟩
  · rintro ⟨place, opened, visited⟩
    exact .intro opened (Code.visits_iff.mpr ⟨place, visited⟩)

/-- The machine that an activation asks. -/
def machine (running : Running) : Machine :=
  .ofBudget (running.budget - 1)

end Running

end MessageMachine
