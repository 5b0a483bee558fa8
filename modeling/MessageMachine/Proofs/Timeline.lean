import MessageMachine.Proofs.Course
import MessageMachine.Proofs.Identity
import MessageMachine.Proofs.Succession

/-!
# The timeline of a session

An expression is evaluated at a moment: under a stack of activations, and at a place in the code of
the topmost one.  Of two moments one is over before the other begins, or it lies within the other,
either among the parts of the expression or in an activation that the expression asks for.
-/

namespace MessageMachine

namespace Code

variable {machine : Machine} {frame : FrameRef} {codes : List Code} {code : Code}
  {image between : Image}

/-- A place further inside is a place among the parts. -/
theorem visit?_append {place deeper : List Nat} (further : deeper ≠ [])
    (visited : visit? machine frame place codes image = some (code, between)) :
    visit? machine frame (place ++ deeper) codes image =
      visit? machine frame deeper code.parts between := by
  induction place generalizing codes image with
  | nil => cases visited
  | cons number rest inductionHypothesis =>
      rcases visit?_cons.mp visited with
        ⟨earlier, outer, later, values, start, rfl, rfl, evaluated, inside⟩
      have found : (earlier ++ outer :: later)[earlier.length]? = some outer := by simp
      rw [List.cons_append, visit?, found, List.take_left, evaluated]
      dsimp only
      rw [if_neg (List.append_ne_nil_of_right_ne_nil rest further)]
      rcases inside with ⟨rfl, rfl, rfl⟩ | visitedInside
      · rfl
      · exact inductionHypothesis visitedInside

/-- Two places are the same, or one follows the other, or one is further inside than the other. -/
theorem compare_places (place other : List Nat) :
    place = other ∨ Follows other place ∨ Follows place other ∨
      (∃ number deeper, other = place ++ number :: deeper) ∨
      ∃ number deeper, place = other ++ number :: deeper := by
  induction place generalizing other with
  | nil =>
      cases other with
      | nil => exact Or.inl rfl
      | cons number deeper => exact Or.inr (Or.inr (Or.inr (Or.inl ⟨number, deeper, rfl⟩)))
  | cons first rest inductionHypothesis =>
      cases other with
      | nil => exact Or.inr (Or.inr (Or.inr (Or.inr ⟨first, rest, rfl⟩)))
      | cons second restToo =>
          rcases Nat.lt_trichotomy first second with less | rfl | greater
          · exact Or.inr (Or.inl (.here less))
          · rcases inductionHypothesis restToo with rfl | follows | follows | further | further
            · exact Or.inl rfl
            · exact Or.inr (Or.inl (.deeper follows))
            · exact Or.inr (Or.inr (Or.inl (.deeper follows)))
            · rcases further with ⟨number, deeper, rfl⟩
              exact Or.inr (Or.inr (Or.inr (Or.inl ⟨number, deeper, rfl⟩)))
            · rcases further with ⟨number, deeper, rfl⟩
              exact Or.inr (Or.inr (Or.inr (Or.inr ⟨number, deeper, rfl⟩)))
          · exact Or.inr (Or.inr (Or.inl (.here greater)))

end Code

namespace Discipline

variable {D : Discipline} {machine : Machine} {start image there : Image} {frame : FrameRef}
  {codes : List Code} {code : Code} {activation : Activation}

/-- What an evaluation asks for, its beginning asks for or its rest. -/
theorem Obeys.asks_of_bind {Answer Next : Type} {good : Image → Answer → Prop}
    {body : Machine → Eval Answer} {next : Answer → Machine → Eval Next}
    (begun : D.Obeys good machine start body)
    (asks : Asks (fun machine => body machine >>= fun answer => next answer machine) machine start
      activation there) :
    Asks body machine start activation there ∨
      ∃ answer between, body machine start = .ok answer between ∧
        Asks (next answer) machine between activation there := by
  rcases begun.asks_or_ignores activation there with asked | ignores
  · exact Or.inl asked
  · cases result : body machine start with
    | ok answer between => exact Or.inr ⟨answer, between, rfl, asks.of_bind ignores result⟩
    | error escape left =>
        refine absurd (fun other agrees => ?_) asks.not_ignores
        simp only [Bind.bind, EStateM.bind, ignores other agrees, result]

/-- Nothing is asked for by an answer that is there already. -/
theorem not_asks_pure {Answer : Type} {answer : Answer} :
    ¬ Asks (fun _ => (pure answer : Eval Answer)) machine start activation there :=
  fun asks => asks.not_ignores fun _ _ => rfl

section Courses

variable (laws : D.Laws) (ready : D.Ready machine frame codes start)
  (trusts : D.Trusts machine start fun machine => Code.evaluateAll machine frame codes)
include laws ready trusts

/-- What follows an expression is come to when the expression is over. -/
theorem later_of_follows {place further : List Nat} {other : Code}
    (visited : Code.visit? machine frame place codes start = some (code, image))
    (visitedToo : Code.visit? machine frame further codes start = some (other, there))
    (follows : Code.Follows further place) :
    D.Later (Eval.left (code.evaluate machine frame image)) there := by
  induction follows generalizing codes start with
  | here less =>
      rcases Code.visit?_cons.mp visited with
        ⟨earlier, outer, rest, values, begun, rfl, rfl, evaluated, inside⟩
      rcases Code.visit?_cons.mp visitedToo with
        ⟨earlierToo, outerToo, restToo, valuesToo, begunToo, same, rfl, evaluatedToo, insideToo⟩
      rw [same] at ready trusts
      have visitToo := Visit.around laws evaluatedToo ready trusts
      have whole : D.Trusts machine start fun machine => do
          let values ← Code.evaluateAll machine frame earlierToo
          let others ← Code.evaluateAll machine frame (outerToo :: restToo)
          return values ++ others :=
        trusts.congr fun _ _ => by rw [Code.evaluateAll_append]
      -- The later place is come to past everything up to it, which the earlier place is a part of.
      have before : D.Later (Eval.left (code.evaluate machine frame image)) begunToo := by
        rcases Code.exists_between same less with ⟨between, split⟩
        have visits : Code.Visits machine frame earlierToo start code image :=
          Code.visits_iff.mpr ⟨_, Code.visit?_cons.mpr
            ⟨earlier, outer, between, values, begun, split, rfl, evaluated, inside⟩⟩
        have rest := (visit_of_visits laws visits ready.earlier whole.first).rest
        rw [evaluatedToo] at rest
        exact rest
      rcases insideToo with ⟨-, -, rfl⟩ | visitedInside
      · exact before
      · have inner := visit_of_visits laws (Code.visits_iff.mpr ⟨_, visitedInside⟩)
          (visitToo.ready.parts laws) visitToo.trusts_finish.first
        exact laws.trans before inner.later
  | deeper follows inductionHypothesis =>
      rcases Code.visit?_cons.mp visited with
        ⟨earlier, outer, rest, values, begun, rfl, rfl, evaluated, inside⟩
      rcases Code.visit?_cons.mp visitedToo with
        ⟨earlierToo, outerToo, restToo, valuesToo, begunToo, same, length, evaluatedToo, insideToo⟩
      rcases List.append_inj same length.symm with ⟨rfl, tails⟩
      cases tails
      cases evaluated.symm.trans evaluatedToo
      have visit := Visit.around laws evaluated ready trusts
      rcases inside with ⟨rfl, -, -⟩ | visitedInside
      · cases follows
      · rcases insideToo with ⟨rfl, -, -⟩ | visitedInsideToo
        · cases follows
        · exact inductionHypothesis (visit.ready.parts laws) visit.trusts_finish.first
            visitedInside visitedInsideToo

end Courses

/-- Whether an activation that is asked for is over before an expression is evaluated, or is asked
for by the expression, or only after it. -/
def Placed (D : Discipline) (machine : Machine) (frame : FrameRef) (code : Code) (image : Image)
    (activation : Activation) (there : Image) : Prop :=
  D.Later (Eval.left (machine.activate activation there)) image ∨
    Asks (fun machine => code.evaluate machine frame) machine image activation there ∨
    D.Later (Eval.left (code.evaluate machine frame image)) there

section Asking

variable (laws : D.Laws)
include laws

/-- What is asked for while expressions are evaluated, seen from one that comes after others. -/
theorem placed_around {earlier later : List Code} {values : List Value}
    (evaluated : Code.evaluateAll machine frame earlier start = .ok values image)
    (ready : D.Ready machine frame (earlier ++ code :: later) start)
    (trusts : D.Trusts machine start fun machine =>
      Code.evaluateAll machine frame (earlier ++ code :: later))
    (asks : Asks (fun machine => Code.evaluateAll machine frame (earlier ++ code :: later)) machine
      start activation there) :
    D.Placed machine frame code image activation there := by
  have visit := Visit.around laws evaluated ready trusts
  simp only [Code.evaluateAll_around] at asks trusts
  have begun := codes_keep laws ready.earlier trusts.first
  have obeys := code_keeps laws visit.ready visit.trusts
  rcases begun.asks_of_bind asks with asked | ⟨_, _, evaluatedToo, asks⟩
  · have rest := (begun.warrant asked).rest
    rw [evaluated] at rest
    exact Or.inl rest
  · cases evaluated.symm.trans evaluatedToo
    have trustsThere := trusts.rest laws.toOrder begun evaluated
    rcases obeys.asks_of_bind asks with asked | ⟨value, after, evaluatedIt, asks⟩
    · exact Or.inr (Or.inl asked)
    · have yielded := obeys.yields
      rw [evaluatedIt] at yielded
      cases yielded with
      | ok holds laterThere known =>
          have readyThere := (ready.after laws evaluated visit.ready.holds visit.later).tail laws
            evaluatedIt holds laterThere
          have remaining := codes_keep laws readyThere
            (trustsThere.rest laws.toOrder obeys evaluatedIt).first
          rcases remaining.asks_of_bind asks with asked | ⟨_, _, _, asks⟩
          · have later := (remaining.warrant asked).later
            rw [← show Eval.left (code.evaluate machine frame image) = after from
              congrArg Eval.left evaluatedIt] at later
            exact Or.inr (Or.inr later)
          · exact absurd asks not_asks_pure

/-- What is asked for while expressions are evaluated, seen from one that is evaluated on the
way. -/
theorem placed_of_visits (visits : Code.Visits machine frame codes start code image)
    (ready : D.Ready machine frame codes start)
    (trusts : D.Trusts machine start fun machine => Code.evaluateAll machine frame codes)
    (asks : Asks (fun machine => Code.evaluateAll machine frame codes) machine start activation
      there) :
    D.Placed machine frame code image activation there := by
  induction visits with
  | here evaluated => exact placed_around laws evaluated ready trusts asks
  | @inside earlier later outer part values start between final evaluated visits
      inductionHypothesis =>
      have visit := Visit.around laws evaluated ready trusts
      have readyParts := visit.ready.parts laws
      have inner := visit_of_visits laws visits readyParts visit.trusts_finish.first
      rcases placed_around laws evaluated ready trusts asks with before | asked | after
      · exact Or.inl (laws.trans before inner.later)
      · have asked : Asks (fun machine =>
            Code.evaluateAll machine frame outer.parts >>= fun values =>
              outer.finish machine frame (between.frameAt frame).receiver values) machine between
            activation there := by
          intro other agrees escape left passes escaped
          dsimp only
          rw [← Code.evaluate_eq]
          exact asked other agrees escape left passes escaped
        rcases (visit.parts laws).asks_of_bind asked with
          asked | ⟨values, after, evaluatedIt, asked⟩
        · exact inductionHypothesis readyParts visit.trusts_finish.first asked
        · have rest := inner.rest
          rw [evaluatedIt] at rest
          exact Or.inr (Or.inr (laws.trans rest
            ((visit.finish laws evaluatedIt).warrant asked).later))
      · exact Or.inr (Or.inr (laws.trans inner.rest
          (laws.trans (visit.later_of_parts laws) after)))

end Asking

end Discipline

/-- A moment of a session at which an expression is evaluated. -/
structure Session.Moment (session : Session) where
  running : Running
  below : List Running
  place : List Nat
  frame : FrameRef
  code : Code
  image : Image
  underway : session.Underway (running :: below)
  evaluates : running.EvaluatesAt place frame code image

namespace Session.Moment

variable {session : Session}

/-- The activations that are running, topmost first. -/
def stack (moment : session.Moment) : List Running :=
  moment.running :: moment.below

/-- What the expression comes to. -/
def result (moment : session.Moment) : EStateM.Result Escape Image Value :=
  moment.code.evaluate moment.running.machine moment.frame moment.image

/-- The image that the expression leaves. -/
def after (moment : session.Moment) : Image :=
  Eval.left moment.result

/-- Whether an expression is evaluated in the course of another one. -/
inductive Encloses (outer inner : session.Moment) : Prop
  | part {number : Nat} {deeper : List Nat} : inner.stack = outer.stack →
      inner.place = outer.place ++ number :: deeper → Encloses outer inner
  | asked {next : Running} : next :: outer.stack <:+ inner.stack →
      Asks (fun machine => outer.code.evaluate machine outer.frame) outer.running.machine
        outer.image next.activation next.image →
      Encloses outer inner

/-- Whether an expression is evaluated in one go: it has no parts, and asks for nothing. -/
structure Immediate (moment : session.Moment) : Prop where
  parts : moment.code.parts = []
  asks : ∀ activation image,
    ¬ Asks (fun machine => moment.code.evaluate machine moment.frame) moment.running.machine
      moment.image activation image

/-- The stack and the place tell which moment it is. -/
theorem eq_of_place {moment other : session.Moment} (stack : moment.stack = other.stack)
    (place : moment.place = other.place) : moment = other := by
  rcases moment with ⟨running, below, here, frame, code, image, underway, opened, visited⟩
  rcases other with ⟨runningToo, belowToo, hereToo, frameToo, codeToo, imageToo, underwayToo,
    evaluatesToo⟩
  cases stack
  cases place
  cases evaluatesToo with
  | intro openedToo visitedToo =>
      cases opened.symm.trans openedToo
      cases visited.symm.trans visitedToo
      rfl

/-- Nothing is evaluated in the course of an expression that is evaluated in one go. -/
theorem Immediate.not_encloses {moment other : session.Moment} (immediate : moment.Immediate) :
    ¬ moment.Encloses other := by
  intro encloses
  cases encloses with
  | @part number deeper stack further =>
      rcases moment with ⟨_, below, place, _, code, image, underway, opened, visited⟩
      rcases other with ⟨_, _, _, _, codeToo, imageToo, underwayToo, evaluatesToo⟩
      cases stack
      cases further
      cases evaluatesToo with
      | intro openedToo visitedToo =>
          cases opened.symm.trans openedToo
          have inside :=
            (Code.visit?_append (List.cons_ne_nil number deeper) visited).symm.trans visitedToo
          rw [show code.parts = [] from immediate.parts] at inside
          rcases Code.visit?_cons.mp inside with ⟨earlier, outer, later, _, _, split, -⟩
          exact List.append_ne_nil_of_right_ne_nil earlier (List.cons_ne_nil outer later) split.symm
  | asked _ asks => exact immediate.asks _ _ asks

end Session.Moment

theorem Code.left_evaluateBody (machine : Machine) (frame : FrameRef) (body : List Code)
    (image : Image) :
    Eval.left (Code.evaluateBody machine frame body image) =
      Eval.left (Code.evaluateAll machine frame body image) := by
  simp only [Code.evaluateBody, Bind.bind, EStateM.bind]
  cases Code.evaluateAll machine frame body image <;> rfl

namespace Discipline.Clock

open Session

variable {D : Discipline} {session : Session} {Earlier : Image → Image → Prop}
  (clock : D.Clock session Earlier) (laws : D.Laws) (hosts : D.Hosts session)
include clock laws hosts

/-- An expression is evaluated while the activation is run whose code it belongs to. -/
theorem during_running (moment : session.Moment) :
    Earlier moment.running.image moment.image ∧ Earlier moment.after moment.running.left := by
  rcases moment with ⟨_, below, place, _, code, image, underway, opened, visited⟩
  have visit := hosts.visit laws underway opened (Code.visits_iff.mpr ⟨place, visited⟩)
  obtain ⟨holds, runs⟩ := hosts.underway laws underway
  constructor
  · exact clock.trans (clock.enter holds runs opened) (clock.later visit.later)
  · refine clock.trans (clock.later visit.rest) ?_
    rw [← Code.left_evaluateBody]
    exact clock.left_step opened

/-- What is evaluated in the course of an expression is begun after it and over before it. -/
theorem during_of_encloses {outer inner : session.Moment} (encloses : outer.Encloses inner) :
    Earlier outer.image inner.image ∧ Earlier inner.after outer.after := by
  cases encloses with
  | @part number deeper stack further =>
      rcases outer with ⟨_, below, place, _, code, image, underway, opened, visited⟩
      rcases inner with ⟨_, _, _, _, codeToo, imageToo, underwayToo, evaluatesToo⟩
      cases stack
      cases further
      cases evaluatesToo with
      | intro openedToo visitedToo =>
          cases opened.symm.trans openedToo
          have visitedInside :=
            (Code.visit?_append (List.cons_ne_nil number deeper) visited).symm.trans visitedToo
          have visit := hosts.visit laws underway opened (Code.visits_iff.mpr ⟨place, visited⟩)
          have inner := visit_of_visits laws (Code.visits_iff.mpr ⟨_, visitedInside⟩)
            (visit.ready.parts laws) visit.trusts_finish.first
          constructor
          · exact clock.later inner.later
          · exact clock.trans (clock.later inner.rest) (clock.later (visit.later_of_parts laws))
  | @asked next suffix asks =>
      have during := clock.during_of_suffix laws hosts inner.underway suffix
      have within := clock.during_running laws hosts inner
      have above := underway_of_suffix inner.underway suffix
      rcases outer with ⟨_, below, place, _, code, image, underway, opened, visited⟩
      have visit := hosts.visit laws underway opened (Code.visits_iff.mpr ⟨place, visited⟩)
      have warrants := (code_keeps laws visit.ready visit.trusts).warrant asks
      cases above with
      | nested =>
          constructor
          · exact clock.trans (clock.later warrants.later)
              (clock.trans during.begun within.1)
          · exact clock.trans within.2 (clock.trans during.finished (clock.later warrants.rest))

/-- Of two moments of one activation the later one comes when the earlier one is over. -/
theorem later_of_places {moment other : session.Moment} (stack : moment.stack = other.stack)
    (follows : Code.Follows other.place moment.place) : Earlier moment.after other.image := by
  rcases moment with ⟨_, below, place, _, code, image, underway, opened, visited⟩
  rcases other with ⟨_, _, placeToo, _, codeToo, imageToo, underwayToo, evaluatesToo⟩
  cases stack
  cases evaluatesToo with
  | intro openedToo visitedToo =>
      cases opened.symm.trans openedToo
      exact clock.later (later_of_follows laws (hosts.codes_ready laws underway opened)
        (hosts.codes_trust laws underway opened) visited visitedToo follows)

/-- The moments of one activation. -/
theorem order_of_stack {moment other : session.Moment} (stack : moment.stack = other.stack) :
    moment = other ∨ Earlier moment.after other.image ∨ Earlier other.after moment.image ∨
      moment.Encloses other ∨ other.Encloses moment := by
  rcases Code.compare_places moment.place other.place with
    same | follows | follows | ⟨number, deeper, further⟩ | ⟨number, deeper, further⟩
  · exact Or.inl (Moment.eq_of_place stack same)
  · exact Or.inr (Or.inl (clock.later_of_places laws hosts stack follows))
  · exact Or.inr (Or.inr (Or.inl (clock.later_of_places laws hosts stack.symm follows)))
  · exact Or.inr (Or.inr (Or.inr (Or.inl (.part stack.symm further))))
  · exact Or.inr (Or.inr (Or.inr (Or.inr (.part stack further))))

/-- What is asked for by the activation of a moment, seen from the moment. -/
theorem placed_of_next {moment : session.Moment} {next : Running}
    (above : session.Underway (next :: moment.stack)) :
    Earlier next.left moment.image ∨
      Asks (fun machine => moment.code.evaluate machine moment.frame) moment.running.machine
        moment.image next.activation next.image ∨
      Earlier moment.after next.image := by
  rcases moment with ⟨_, below, place, _, code, image, underway, opened, visited⟩
  cases above with
  | nested _ asks =>
      cases asks with
      | code openedToo asks =>
          cases opened.symm.trans openedToo
          have ready := hosts.codes_ready laws underway opened
          have trusts := hosts.codes_trust laws underway opened
          rcases (codes_keep laws ready trusts).asks_of_bind asks with asks | ⟨_, _, _, asks⟩
          · have visits := Code.visits_iff.mpr ⟨place, visited⟩
            exact (placed_of_visits laws visits ready trusts asks).imp clock.later
              (Or.imp_right clock.later)
          · exact absurd asks not_asks_pure
      | operation method behavior _ =>
          subst method
          cases (Activation.opening?_of_primitive behavior).symm.trans opened

/-- A moment of an activation, and one above another activation that was asked for by it. -/
theorem order_of_next {moment other : session.Moment} {next : Running}
    (suffix : next :: moment.stack <:+ other.stack) :
    Earlier moment.after other.image ∨ Earlier other.after moment.image ∨
      moment.Encloses other := by
  have during := clock.during_of_suffix laws hosts other.underway suffix
  have within := clock.during_running laws hosts other
  rcases clock.placed_of_next laws hosts (underway_of_suffix other.underway suffix) with
    before | asked | after
  · exact Or.inr (Or.inl (clock.trans within.2 (clock.trans during.finished before)))
  · exact Or.inr (Or.inr (.asked suffix asked))
  · exact Or.inl (clock.trans after (clock.trans during.begun within.1))

/-- Of two moments one is over before the other begins, or lies within the other. -/
theorem order_of_moments (moment other : session.Moment) :
    moment = other ∨ Earlier moment.after other.image ∨ Earlier other.after moment.image ∨
      moment.Encloses other ∨ other.Encloses moment := by
  have within := clock.during_running laws hosts moment
  have withinToo := clock.during_running laws hosts other
  rcases clock.comparable laws hosts moment.underway other.underway with
    suffix | suffix | before | after
  · rcases eq_or_next_of_suffix suffix with same | ⟨next, suffix⟩
    · exact clock.order_of_stack laws hosts same
    · rcases clock.order_of_next laws hosts suffix with before | after | encloses
      · exact Or.inr (Or.inl before)
      · exact Or.inr (Or.inr (Or.inl after))
      · exact Or.inr (Or.inr (Or.inr (Or.inl encloses)))
  · rcases eq_or_next_of_suffix suffix with same | ⟨next, suffix⟩
    · exact clock.order_of_stack laws hosts same.symm
    · rcases clock.order_of_next laws hosts suffix with after | before | encloses
      · exact Or.inr (Or.inr (Or.inl after))
      · exact Or.inr (Or.inl before)
      · exact Or.inr (Or.inr (Or.inr (Or.inr encloses)))
  · exact Or.inr (Or.inl (clock.trans within.2 (clock.trans before withinToo.1)))
  · exact Or.inr (Or.inr (Or.inl (clock.trans withinToo.2 (clock.trans after within.1))))

/-- What an expression leaves comes after the image in which it is evaluated. -/
theorem later_after (moment : session.Moment) : Earlier moment.image moment.after := by
  rcases moment with ⟨_, below, place, _, code, image, underway, opened, visited⟩
  have visit := hosts.visit laws underway opened (Code.visits_iff.mpr ⟨place, visited⟩)
  exact clock.later (code_keeps laws visit.ready visit.trusts).yields.left_later

theorem later_left {running : Running} {below : List Running}
    (underway : session.Underway (running :: below)) : Earlier running.image running.left :=
  clock.later (hosts.yields laws underway).left_later

/-- A request has been served before an expression is evaluated, or is served after it, or all the
while. -/
theorem order_of_request (moment : session.Moment) {request : Request} {served : Image}
    (serves : session.Serves request served) :
    Earlier (request.serve (.ofBudget session.budget) served).2 moment.image ∨
      Earlier moment.after served ∨
      Earlier served moment.image ∧
        Earlier moment.after (request.serve (.ofBudget session.budget) served).2 := by
  have within := clock.during_running laws hosts moment
  rcases clock.during_request laws hosts moment.underway with
    ⟨own, servedToo, servesToo, begun, finished⟩
  rcases clock.ordered_of_serves id serves servesToo with ⟨rfl, rfl⟩ | before | after
  · exact Or.inr (Or.inr ⟨clock.trans begun within.1, clock.trans within.2 finished⟩)
  · exact Or.inl (clock.trans before (clock.trans begun within.1))
  · exact Or.inr (Or.inl (clock.trans within.2 (clock.trans finished after)))

section Immediate

variable {moment : session.Moment} (immediate : moment.Immediate)
include immediate

/-- An activation is over before an expression is evaluated in one go, or begun after it, or run all
the while. -/
theorem order_of_running {running : Running} {below : List Running}
    (underway : session.Underway (running :: below)) :
    Earlier running.left moment.image ∨ Earlier moment.after running.image ∨
      Earlier running.image moment.image ∧ Earlier moment.after running.left := by
  have within := clock.during_running laws hosts moment
  rcases clock.comparable laws hosts moment.underway underway with suffix | suffix | before | after
  · rcases eq_or_next_of_suffix suffix with same | ⟨next, suffix⟩
    · cases (List.cons.inj same).1
      exact Or.inr (Or.inr within)
    · have during := clock.during_of_suffix laws hosts underway suffix
      rcases clock.placed_of_next laws hosts (underway_of_suffix underway suffix) with
        before | asked | after
      · exact Or.inl (clock.trans during.finished before)
      · exact absurd asked (immediate.asks _ _)
      · exact Or.inr (Or.inl (clock.trans after during.begun))
  · have during := clock.during_of_suffix laws hosts moment.underway suffix
    exact Or.inr (Or.inr ⟨clock.trans during.begun within.1, clock.trans within.2 during.finished⟩)
  · exact Or.inr (Or.inl (clock.trans within.2 before))
  · exact Or.inl (clock.trans after within.1)

/-- What another expression leaves is left before an expression is evaluated in one go, or after
it. -/
theorem order_of_after (other : session.Moment) :
    Earlier other.after moment.image ∨ Earlier moment.after other.after := by
  rcases clock.order_of_moments laws hosts moment other with
    rfl | before | after | encloses | encloses
  · exact Or.inr (clock.refl _)
  · exact Or.inr (clock.trans before (clock.later_after laws hosts other))
  · exact Or.inl after
  · exact absurd encloses immediate.not_encloses
  · exact Or.inr (clock.during_of_encloses laws hosts encloses).2

/-- The images that a session goes through come before an expression is evaluated in one go, or
after it. -/
theorem order_of_shows {image : Image} (shows' : session.Shows image) :
    Earlier image moment.image ∨ Earlier moment.after image := by
  cases shows' with
  | served serves =>
      rcases clock.order_of_request laws hosts moment serves with before | after | during
      · exact Or.inl (clock.trans (clock.serve serves) before)
      · exact Or.inr after
      · exact Or.inl during.1
  | ended =>
      rcases clock.during_request laws hosts moment.underway with ⟨_, _, serves, -, finished⟩
      have within := clock.during_running laws hosts moment
      exact Or.inr (clock.trans within.2 (clock.trans finished (clock.over_of_serves id serves)))
  | begun underway =>
      rcases clock.order_of_running laws hosts immediate underway with before | after | during
      · exact Or.inl (clock.trans (clock.later_left laws hosts underway) before)
      · exact Or.inr after
      · exact Or.inl during.1
  | finished underway =>
      rcases clock.order_of_running laws hosts immediate underway with before | after | during
      · exact Or.inl before
      · exact Or.inr (clock.trans after (clock.later_left laws hosts underway))
      · exact Or.inr during.2
  | evaluated underway evaluates =>
      rcases Running.evaluates_iff.mp evaluates with ⟨place, evaluates⟩
      let other : session.Moment := ⟨_, _, place, _, _, _, underway, evaluates⟩
      rcases clock.order_of_moments laws hosts moment other with
        same | after | before | encloses | encloses
      · exact Or.inl (same ▸ clock.refl _)
      · exact Or.inr after
      · exact Or.inl (clock.trans (clock.later_after laws hosts other) before)
      · exact absurd encloses immediate.not_encloses
      · exact Or.inl (clock.during_of_encloses laws hosts encloses).1

end Immediate

end Discipline.Clock

end MessageMachine
