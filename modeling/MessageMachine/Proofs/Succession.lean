import MessageMachine.Proofs.Discipline.Sessions

/-!
# The succession of activations

The activations of a session come one after the other or one inside the other.  Which of two images
comes first is told by a clock, an order that no evaluation and no request turns back.  The number
of frames is a clock, and so is the growth of the heap.
-/

namespace MessageMachine

/-- An order of images that a session follows. -/
structure Discipline.Clock (D : Discipline) (session : Session)
    (Earlier : Image → Image → Prop) : Prop where
  refl : ∀ image, Earlier image image
  trans : ∀ {image between after}, Earlier image between → Earlier between after →
    Earlier image after
  later : ∀ {image after}, D.Later image after → Earlier image after
  enter : ∀ {activation : Activation} {image : Image} {frame body}, D.Holds image →
    D.Runs image activation → activation.opening? image = some (frame, body) →
    Earlier image (image.addFrame frame)
  leave : ∀ (image : Image) (ref : FrameRef), Earlier image ((Action.leave ref).perform image)
  serve : ∀ {request image}, session.Serves request image →
    Earlier image (request.serve (.ofBudget session.budget) image).2

namespace Running

/-- The image that an activation leaves. -/
def left (running : Running) : Image :=
  Eval.left running.result

variable (Earlier : Image → Image → Prop)

/-- Whether an activation is run while another one is. -/
structure During (inner outer : Running) : Prop where
  begun : Earlier outer.image inner.image
  finished : Earlier inner.left outer.left

/-- Whether an activation is over in an image, and did not escape. -/
structure Past (running : Running) (image : Image) : Prop where
  subsides : Eval.Subsides running.result
  finished : Earlier running.left image

end Running

namespace Session

variable {session : Session} {running : Running} {below : List Running}

/-- The part of a stack below an activation was underway when the activation was begun. -/
theorem underway_of_suffix {stack : List Running} (moment : session.Underway stack)
    (suffix : running :: below <:+ stack) : session.Underway (running :: below) := by
  induction moment with
  | first serves evaluation asks =>
      rcases List.suffix_cons_iff.mp suffix with same | shorter
      · rw [same]
        exact .first serves evaluation asks
      · cases List.suffix_nil.mp shorter
  | nested moment asks inductionHypothesis =>
      rcases List.suffix_cons_iff.mp suffix with same | shorter
      · rw [same]
        exact .nested moment asks
      · exact inductionHypothesis shorter

theorem eq_or_next_of_suffix {stack whole : List Running} (suffix : stack <:+ whole) :
    stack = whole ∨ ∃ next, next :: stack <:+ whole := by
  obtain ⟨above, rfl⟩ := suffix
  rcases List.eq_nil_or_concat above with rfl | ⟨higher, next, rfl⟩
  · exact Or.inl rfl
  · exact Or.inr ⟨next, higher, by simp⟩

end Session

/-- The activations that an evaluation asks for come one after the other. -/
theorem Discipline.Obeys.past_of_asks {D : Discipline} {Earlier : Image → Image → Prop}
    {Answer : Type} {good : Image → Answer → Prop} {budget : Nat} {start image imageToo : Image}
    {body : Machine → Eval Answer} {activation another : Activation}
    (obeys : D.Obeys good (.ofBudget budget) start body)
    (later : ∀ {image after}, D.Later image after → Earlier image after)
    (asks : Asks body (.ofBudget budget) start activation image)
    (asksToo : Asks body (.ofBudget budget) start another imageToo) :
    let running : Running := ⟨budget, activation, image⟩
    let other : Running := ⟨budget, another, imageToo⟩
    running = other ∨ running.Past Earlier other.image ∨ other.Past Earlier running.image := by
  rcases obeys.ordered asks asksToo with ⟨rfl, rfl⟩ | ended | ended
  · exact Or.inl rfl
  · exact Or.inr (Or.inl ⟨ended.1, later ended.2⟩)
  · exact Or.inr (Or.inr ⟨ended.1, later ended.2⟩)

namespace Discipline.Clock

open Session

variable {D : Discipline} {session : Session} {Earlier : Image → Image → Prop}
  (clock : D.Clock session Earlier)
include clock

section Serving

variable {requests : List Request} {image : Image}
  (inside : ∀ {request served},
    Request.Serves (.ofBudget session.budget) requests image request served →
    session.Serves request served)
  {request other : Request} {served servedToo : Image}
include inside

theorem later_of_serves
    (serves : Request.Serves (.ofBudget session.budget) requests image request served) :
    Earlier image served := by
  induction serves with
  | head => exact clock.refl _
  | tail _ inductionHypothesis =>
      exact clock.trans (clock.serve (inside .head))
        (inductionHypothesis fun serves => inside (.tail serves))

theorem later_of_serveAll :
    Earlier image (Request.serveAll (.ofBudget session.budget) requests image).2 := by
  induction requests generalizing image with
  | nil => exact clock.refl image
  | cons first rest inductionHypothesis =>
      exact clock.trans (clock.serve (inside .head))
        (inductionHypothesis fun serves => inside (.tail serves))

theorem over_of_serves
    (serves : Request.Serves (.ofBudget session.budget) requests image request served) :
    Earlier (request.serve (.ofBudget session.budget) served).2
      (Request.serveAll (.ofBudget session.budget) requests image).2 := by
  induction serves with
  | head => exact clock.later_of_serveAll fun serves => inside (.tail serves)
  | tail _ inductionHypothesis => exact inductionHypothesis fun serves => inside (.tail serves)

theorem ordered_of_serves
    (serves : Request.Serves (.ofBudget session.budget) requests image request served)
    (servesToo : Request.Serves (.ofBudget session.budget) requests image other servedToo) :
    request = other ∧ served = servedToo ∨
      Earlier (request.serve (.ofBudget session.budget) served).2 servedToo ∨
      Earlier (other.serve (.ofBudget session.budget) servedToo).2 served := by
  induction serves with
  | head =>
      cases servesToo with
      | head => exact Or.inl ⟨rfl, rfl⟩
      | tail later =>
          exact Or.inr (Or.inl (clock.later_of_serves (fun serves => inside (.tail serves)) later))
  | tail later inductionHypothesis =>
      cases servesToo with
      | head =>
          exact Or.inr (Or.inr (clock.later_of_serves (fun serves => inside (.tail serves)) later))
      | tail laterToo => exact inductionHypothesis (fun serves => inside (.tail serves)) laterToo

end Serving

/-- What an activation that is run in a frame leaves comes after what its body leaves. -/
theorem left_step {budget : Nat} {activation : Activation} {begun : Image} {frame : Frame}
    {body : List Code} (opened : activation.opening? begun = some (frame, body)) :
    Earlier
      (Eval.left (Code.evaluateBody (.ofBudget budget) begun.heap.frames.next body
        (begun.addFrame frame)))
      (Running.left ⟨budget + 1, activation, begun⟩) := by
  change Earlier _ (Eval.left ((Machine.ofBudget budget).step activation begun))
  rw [step_eq_conclude opened, Activation.left_conclude]
  exact clock.leave _ _

section Stacks

variable (laws : D.Laws) (hosts : D.Hosts session) {running other outer next : Running}
  {below belowToo : List Running}
include laws hosts

/-- An activation is run while the one that asked for it is. -/
theorem during_of_nested (moment : session.Underway (other :: running :: below)) :
    other.During Earlier running := by
  cases moment with
  | @nested budget activation asked begun image _ moment asks =>
      cases asks with
      | @code frame body _ _ opened asks =>
          have warrants := (hosts.body_obeys laws moment opened).warrant asks
          obtain ⟨holds, runs⟩ := hosts.underway laws moment
          constructor
          · exact clock.trans (clock.enter holds runs opened) (clock.later warrants.later)
          · exact clock.trans (clock.later warrants.rest) (clock.left_step opened)
      | operation method behavior asks =>
          subst method
          have warrants := (hosts.operation_obeys laws moment behavior).warrant asks
          constructor
          · exact clock.later warrants.later
          · change Earlier _ (Eval.left ((Machine.ofBudget budget).invoke _ _ begun))
            rw [Machine.invoke, Eval.get_bind]
            simp only [behavior]
            exact clock.later warrants.rest

/-- The activations that one activation asks for come one after the other. -/
theorem ordered_of_nested (moment : session.Underway (running :: outer :: below))
    (momentToo : session.Underway (other :: outer :: below)) :
    running = other ∨ running.Past Earlier other.image ∨ other.Past Earlier running.image := by
  cases moment with
  | nested moment asks =>
      cases momentToo with
      | nested _ asksToo =>
          cases asks with
          | code opened asks =>
              cases asksToo with
              | code openedToo asksToo =>
                  cases opened.symm.trans openedToo
                  exact (hosts.body_obeys laws moment opened).past_of_asks clock.later asks asksToo
              | operation method behavior _ =>
                  subst method
                  cases (Activation.opening?_of_primitive behavior).symm.trans opened
          | operation method behavior asks =>
              subst method
              cases asksToo with
              | code openedToo _ =>
                  cases (Activation.opening?_of_primitive behavior).symm.trans openedToo
              | operation method behaviorToo asksToo =>
                  cases method
                  cases behavior.symm.trans behaviorToo
                  exact (hosts.operation_obeys laws moment behavior).past_of_asks clock.later asks
                    asksToo

/-- The activations that one activation or one host asks for come one after the other. -/
theorem apart_of_siblings (moment : session.Underway (running :: below))
    (momentToo : session.Underway (other :: below)) :
    running = other ∨ Earlier running.left other.image ∨ Earlier other.left running.image := by
  cases below with
  | cons outer rest =>
      exact (clock.ordered_of_nested laws hosts moment momentToo).imp_right
        (Or.imp Running.Past.finished Running.Past.finished)
  | nil =>
      cases moment with
      | first serves evaluation asks =>
          cases momentToo with
          | first servesToo evaluationToo asksToo =>
              have obeys := hosts.obeys laws serves evaluation
              have obeysToo := hosts.obeys laws servesToo evaluationToo
              rcases clock.ordered_of_serves id serves servesToo with ⟨rfl, rfl⟩ | before | after
              · cases evaluation.symm.trans evaluationToo
                exact (obeys.past_of_asks clock.later asks asksToo).imp_right
                  (Or.imp Running.Past.finished Running.Past.finished)
              · rw [Request.serve_of_evaluation evaluation] at before
                exact Or.inr (Or.inl (clock.trans (clock.later (obeys.warrant asks).rest)
                  (clock.trans before (clock.later (obeysToo.warrant asksToo).later))))
              · rw [Request.serve_of_evaluation evaluationToo] at after
                exact Or.inr (Or.inr (clock.trans (clock.later (obeysToo.warrant asksToo).rest)
                  (clock.trans after (clock.later (obeys.warrant asks).later))))

/-- An activation is run while the request is served that it is run for. -/
theorem during_request (moment : session.Underway (running :: below)) :
    ∃ request served, session.Serves request served ∧ Earlier served running.image ∧
      Earlier running.left (request.serve (.ofBudget session.budget) served).2 := by
  induction below generalizing running with
  | nil =>
      cases moment with
      | @first request body served image activation serves evaluation asks =>
          have warrants := (hosts.obeys laws serves evaluation).warrant asks
          refine ⟨request, served, serves, clock.later warrants.later, ?_⟩
          rw [Request.serve_of_evaluation evaluation]
          exact clock.later warrants.rest
  | cons outer rest inductionHypothesis =>
      have during := clock.during_of_nested laws hosts moment
      rcases inductionHypothesis (underway_of_suffix moment (List.suffix_cons _ _)) with
        ⟨request, served, serves, begun, finished⟩
      exact ⟨request, served, serves, clock.trans begun during.begun,
        clock.trans during.finished finished⟩

/-- The activations on a stack are run one inside the other. -/
theorem during_of_suffix (moment : session.Underway (other :: belowToo))
    (suffix : running :: below <:+ other :: belowToo) : other.During Earlier running := by
  induction belowToo generalizing other with
  | nil =>
      rcases List.suffix_cons_iff.mp suffix with same | shorter
      · cases same
        exact ⟨clock.refl _, clock.refl _⟩
      · cases List.suffix_nil.mp shorter
  | cons next rest inductionHypothesis =>
      rcases List.suffix_cons_iff.mp suffix with same | shorter
      · cases same
        exact ⟨clock.refl _, clock.refl _⟩
      · have step := clock.during_of_nested laws hosts moment
        have rest := inductionHypothesis
          (underway_of_suffix moment (List.suffix_cons other (next :: rest))) shorter
        exact ⟨clock.trans rest.begun step.begun, clock.trans step.finished rest.finished⟩

/-- The activation that stands in the place of another one on a second stack decides. -/
theorem comparable_of_place (moment : session.Underway (running :: below))
    (momentToo : session.Underway (other :: belowToo))
    (suffix : next :: below <:+ other :: belowToo) :
    running :: below <:+ other :: belowToo ∨
      Earlier running.left other.image ∨ Earlier other.left running.image := by
  have during := clock.during_of_suffix laws hosts momentToo suffix
  rcases clock.apart_of_siblings laws hosts moment (underway_of_suffix momentToo suffix) with
    rfl | before | after
  · exact Or.inl suffix
  · exact Or.inr (Or.inl (clock.trans before during.begun))
  · exact Or.inr (Or.inr (clock.trans during.finished after))

/-- One of two stacks is on top of the other, or the topmost activation of one of them is over when
that of the other is begun. -/
theorem comparable (moment : session.Underway (running :: below))
    (momentToo : session.Underway (other :: belowToo)) :
    running :: below <:+ other :: belowToo ∨ other :: belowToo <:+ running :: below ∨
      Earlier running.left other.image ∨ Earlier other.left running.image := by
  induction below generalizing running with
  | nil =>
      have split : other :: belowToo =
          (other :: belowToo).dropLast ++ [(other :: belowToo).getLast (List.cons_ne_nil _ _)] :=
        (List.dropLast_append_getLast _).symm
      exact (clock.comparable_of_place laws hosts moment momentToo ⟨_, split.symm⟩).imp_right
        Or.inr
  | cons parent rest inductionHypothesis =>
      have earlier := underway_of_suffix moment (List.suffix_cons running (parent :: rest))
      have during := clock.during_of_nested laws hosts moment
      rcases inductionHypothesis earlier with suffix | suffix | before | after
      · rcases eq_or_next_of_suffix suffix with same | ⟨next, suffix⟩
        · rw [← same]
          exact Or.inr (Or.inl (List.suffix_cons _ _))
        · exact (clock.comparable_of_place laws hosts moment momentToo suffix).imp_right Or.inr
      · exact Or.inr (Or.inl (suffix.trans (List.suffix_cons _ _)))
      · exact Or.inr (Or.inr (Or.inl (clock.trans during.finished before)))
      · exact Or.inr (Or.inr (Or.inr (clock.trans after during.begun)))

end Stacks

end Discipline.Clock

end MessageMachine
