import MessageMachine.Proofs.Course
import MessageMachine.Proofs.Failing

/-!
# Backtraces

A failure that a host is told of arose at one moment.  Activations were on the stack then, and the
backtrace lists the methods among them, the topmost one first.  From that moment on the stack was
left, one activation after the other, and nothing else was done.
-/

namespace MessageMachine

open Discipline

namespace Image

theorem size_leaveAll (image : Image) (frames : List FrameRef) :
    (image.leaveAll frames).heap.frames.size = image.heap.frames.size := by
  induction frames generalizing image with
  | nil => rfl
  | cons frame rest inductionHypothesis =>
      exact (inductionHypothesis _).trans (Session.size_leave image frame)

theorem methodName_leaveAll (image : Image) (frames : List FrameRef) :
    (image.leaveAll frames).methodName = image.methodName := by
  induction frames generalizing image with
  | nil => rfl
  | cons frame rest inductionHypothesis => exact inductionHypothesis _

end Image

/-- A failure that has left some activations since it arose.  Leaving their frames is all that was
done since then, and their methods are all that was noted down. -/
def Failure.afterLeaving (failure : Failure) (raised : Image) (above : List Running) :
    EStateM.Result Escape Image Value :=
  .error (.failed { failure, backtrace := (above.filterMap Running.method?).toArray })
    (raised.leaveAll (above.filterMap Running.frame?))

theorem Failure.afterLeaving_eq (failure : Failure) (raised : Image) (above : List Running) :
    failure.afterLeaving raised above =
      .error (.failed (Exception.past { failure, backtrace := #[] }
        (above.filterMap Running.method?))) (raised.leaveAll (above.filterMap Running.frame?)) := by
  simp only [afterLeaving, Exception.past, Array.empty_append]

namespace Request

variable {machine : Machine} {request : Request} {image after : Image} {exception : Exception}
  {body : Machine → Eval Value}

/-- A host is told of a failure as it is. -/
theorem serve_of_failed (evaluation : request.evaluation? = some body)
    (failed : body machine image = .error (.failed exception) after) :
    request.serve machine image = (.escaped (.failed exception), after) := by
  cases request <;> cases evaluation
  case send | invoke => simp only [serve, Eval.complete, failed, Response.ofEval]
  case deliver | activate => simp only [serve, failed, Response.ofEval]

theorem result_of_ofEval {result : EStateM.Result Escape Image Value} {escape : Escape}
    (told : Response.ofEval result = (.escaped escape, after)) : result = .error escape after := by
  cases result with
  | ok value image => cases told
  | error sooner image =>
      cases told
      rfl

/-- A failure that a host is told of was one before, or is a return that reached the host. -/
theorem failed_of_complete {evaluated : Eval Value}
    (failed : Eval.complete evaluated image = .error (.failed exception) after) :
    evaluated image = .error (.failed exception) after ∨ exception.backtrace = #[] := by
  unfold Eval.complete at failed
  split at failed
  · cases failed
    exact Or.inr rfl
  · exact Or.inl failed

/-- Hosts are told of failures only when something is evaluated for them. -/
theorem failed_of_serve
    (failed : request.serve machine image = (.escaped (.failed exception), after)) :
    ∃ body, request.evaluation? = some body ∧
      (body machine image = .error (.failed exception) after ∨ exception.backtrace = #[]) := by
  cases request with
  | send | invoke => exact ⟨_, rfl, failed_of_complete (result_of_ofEval failed)⟩
  | deliver | activate => exact ⟨_, rfl, Or.inl (result_of_ofEval failed)⟩
  | defineClass | installMethod | prepareMethod =>
      simp only [serve, Response.ofDefining] at failed
      split at failed <;> cases failed
  | instantiate | makeArray | removeMethod | detach | meet => cases failed
  | setGlobal | readField =>
      simp only [serve, Response.ofOption] at failed
      split at failed <;> cases failed
  | writeField =>
      simp only [serve] at failed
      split at failed <;> cases failed

/-- The moments at which failures arise while a request is served: in the work of an activation that
asked for nothing that failed, with the stack below it, or, if no activation fails, outside of all
activations. -/
inductive Raises (budget : Nat) (image : Image) (request : Request) :
    List Running → Failure → Image → Prop
  | outside {failure : Failure} {raised : Image} :
      request.serve (.ofBudget budget) image =
        (.escaped (.failed { failure, backtrace := #[] }), raised) →
      (∀ other, (Session.once budget image request).Underway [other] → ¬ other.Fails) →
      Raises budget image request [] failure raised
  | inside {running : Running} {below : List Running} {failure : Failure} {raised : Image} :
      (Session.once budget image request).Underway (running :: below) →
      running.work = .error (.failed { failure, backtrace := #[] }) raised →
      (∀ other, (Session.once budget image request).Underway (other :: running :: below) →
        ¬ other.Fails) →
      Raises budget image request (running :: below) failure raised

/-- Whether nothing of a program is evaluated any more while a request is served, once a failure has
arisen with some activations on the stack. -/
structure Abandons (budget : Nat) (image : Image) (request : Request) (stack : List Running)
    (failure : Failure) (raised : Image) : Prop where
  /-- The frames of all activations are there, and those are live that are on the stack: no
  activation is begun later, and all others are over. -/
  entered : ∀ {running below frame},
    (Session.once budget image request).Underway (running :: below) →
    running.frame? = some frame →
    raised.heap.frames.Has frame ∧
      ((raised.frameAt frame).live = true ↔ running :: below <:+ stack)
  /-- The activations of the stack come to nothing but the failure. -/
  passed : ∀ {above rest record}, stack = above ++ record :: rest →
    record.result = failure.afterLeaving raised (above ++ [record])
  /-- In each of their frames, the evaluation of an expression is broken off. -/
  broken : ∀ {above rest record frame}, stack = above ++ record :: rest →
    record.frame? = some frame →
    ∃ place code between, record.EvaluatesAt place frame code between ∧
      code.evaluate record.machine frame between = failure.afterLeaving raised above
  /-- The expressions that are not broken off have come to a value. -/
  settled : ∀ {above rest record place frame code between}, stack = above ++ record :: rest →
    record.EvaluatesAt place frame code between →
    (∃ value after, code.evaluate record.machine frame between = .ok value after) ∨
      code.evaluate record.machine frame between = failure.afterLeaving raised above
  /-- Nothing is evaluated that follows an expression which is broken off. -/
  last : ∀ {above rest record place later frame code between},
    stack = above ++ record :: rest → record.EvaluatesAt place frame code between →
    code.evaluate record.machine frame between = failure.afterLeaving raised above →
    Code.Follows later place → ∀ other there, ¬ record.EvaluatesAt later frame other there

end Request

namespace Session

variable {budget : Nat} {image raised : Image} {request : Request} {running : Running}
  {below stack : List Running} {exception : Exception} {failure : Failure}

/-- A failure on its way down the stack is told to the host. -/
theorem serve_of_underway (moment : (once budget image request).Underway (running :: below))
    (failed : running.work = .error (.failed exception) raised) :
    request.serve (.ofBudget budget) image =
      (.escaped (.failed (exception.past ((running :: below).filterMap Running.method?))),
        raised.leaveAll ((running :: below).filterMap Running.frame?)) := by
  have split : running :: below = (running :: below).dropLast ++
      [(running :: below).getLast (List.cons_ne_nil _ _)] :=
    (List.dropLast_append_getLast _).symm
  have handed := result_of_underway moment failed split
  rw [← split] at handed
  have lowest := underway_of_suffix moment ⟨_, split.symm⟩
  generalize (running :: below).getLast (List.cons_ne_nil _ _) = last at lowest handed
  cases lowest with
  | first serves evaluation asks =>
      obtain ⟨rfl, rfl⟩ := eq_of_serves_once serves
      exact Request.serve_of_failed evaluation
        (asks.escape (Running.passes_of_failed handed) handed)

/-- All that becomes of a failure that arises is that the stack is left. -/
theorem serve_of_raises (raises : request.Raises budget image stack failure raised) :
    request.serve (.ofBudget budget) image =
      (.escaped (.failed (Exception.past { failure, backtrace := #[] }
        (stack.filterMap Running.method?))), raised.leaveAll (stack.filterMap Running.frame?)) := by
  cases raises with
  | outside served _ =>
      rw [List.filterMap_nil, Exception.past_nil]
      exact served
  | inside moment failed _ => exact serve_of_underway moment failed

theorem exists_raises_of_fails
    (moment : (once budget image request).Underway (running :: below)) (fails : running.Fails) :
    ∃ stack failure raised, request.Raises budget image stack failure raised := by
  -- Activations that are asked for have less budget, so that the way up to the failure ends.
  generalize patience : running.budget = allowed
  induction allowed generalizing running below with
  | zero =>
      obtain ⟨_, activation, begun⟩ := running
      cases patience
      obtain ⟨exception, after, failed⟩ := fails
      cases failed
  | succ fewer inductionHypothesis =>
      by_cases inside : ∃ other,
          (once budget image request).Underway (other :: running :: below) ∧ other.Fails
      · obtain ⟨other, higher, failsToo⟩ := inside
        refine inductionHypothesis higher failsToo ?_
        cases higher with
        | nested _ _ => exact Nat.succ.inj patience
      · obtain ⟨exception, after, failed⟩ := fails
        obtain ⟨⟨failure, backtrace⟩, raised, failed, -⟩ :=
          Running.result_eq_failed_iff.mp failed
        obtain rfl := (origin moment failed).resolve_left inside
        exact ⟨_, failure, raised, .inside moment failed fun other higher failsToo =>
          inside ⟨other, higher, failsToo⟩⟩

/-- Every failure that a host is told of arose at some moment. -/
theorem exists_raises
    (failed : request.serve (.ofBudget budget) image = (.escaped (.failed exception), raised)) :
    ∃ stack failure raised, request.Raises budget image stack failure raised := by
  by_cases inside : ∃ other, (once budget image request).Underway [other] ∧ other.Fails
  · obtain ⟨other, moment, fails⟩ := inside
    exact exists_raises_of_fails moment fails
  · have fresh : exception.backtrace = #[] := by
      obtain ⟨body, evaluation, failedThere | fresh⟩ := Request.failed_of_serve failed
      · have obeys := (liveness_hosts (once budget image request)).obeys liveness_laws .head
          evaluation
        refine (obeys.origin failedThere).resolve_left ?_
        rintro ⟨activation, begun, asks, failed⟩
        exact inside ⟨_, .first .head evaluation asks, exception, raised, failed⟩
      · exact fresh
    obtain ⟨failure, backtrace⟩ := exception
    subst fresh
    exact ⟨[], failure, raised, .outside failed fun other moment fails =>
      inside ⟨other, moment, fails⟩⟩

theorem fails_of_raises
    (raises : request.Raises budget image (running :: below) failure raised) :
    (once budget image request).Underway (running :: below) ∧ running.Fails := by
  cases raises with
  | inside moment failed _ =>
      exact ⟨moment, _, _, Running.result_eq_failed_iff.mpr ⟨_, _, failed, rfl, rfl⟩⟩

theorem underway_of_raises (raises : request.Raises budget image stack failure raised)
    (suffix : running :: below <:+ stack) :
    (once budget image request).Underway (running :: below) := by
  cases raises with
  | outside _ _ => cases List.suffix_nil.mp suffix
  | inside moment _ _ => exact underway_of_suffix moment suffix

/-- Nothing that fails is on top of the stack on which a failure arose. -/
theorem eq_of_suffix_of_raises {other : List Running} {failureToo : Failure} {raisedToo : Image}
    (raises : request.Raises budget image stack failure raised)
    (raisesToo : request.Raises budget image other failureToo raisedToo)
    (suffix : stack <:+ other) : stack = other := by
  refine (eq_or_next_of_suffix suffix).resolve_right ?_
  rintro ⟨next, higher⟩
  cases other with
  | nil => cases List.suffix_nil.mp higher
  | cons top rest =>
      obtain ⟨moment, fails⟩ := fails_of_raises raisesToo
      have momentToo := underway_of_suffix moment higher
      have failsToo := fails_of_mem moment fails (higher.subset List.mem_cons_self)
      cases raises with
      | outside _ alone => exact alone next momentToo failsToo
      | inside _ _ alone => exact alone next momentToo failsToo

theorem stack_unique {other : List Running} {failureToo : Failure} {raisedToo : Image}
    (raises : request.Raises budget image stack failure raised)
    (raisesToo : request.Raises budget image other failureToo raisedToo) : other = stack := by
  cases stack with
  | nil => exact (eq_of_suffix_of_raises raises raisesToo (List.nil_suffix)).symm
  | cons running below =>
      cases other with
      | nil => exact eq_of_suffix_of_raises raisesToo raises (List.nil_suffix)
      | cons top rest =>
          obtain ⟨moment, fails⟩ := fails_of_raises raises
          obtain ⟨momentToo, failsToo⟩ := fails_of_raises raisesToo
          cases placed moment momentToo failsToo with
          | within suffix => exact (eq_of_suffix_of_raises raises raisesToo suffix).symm
          | above suffix =>
              exact eq_of_suffix_of_raises raisesToo raises
                ((List.suffix_cons _ _).trans suffix)
          | before member _ precedes =>
              exact absurd precedes (fails_of_mem moment fails member).not_precedes

/-- A failure arises at one moment. -/
theorem raises_unique {other : List Running} {failureToo : Failure} {raisedToo : Image}
    (raises : request.Raises budget image stack failure raised)
    (raisesToo : request.Raises budget image other failureToo raisedToo) :
    other = stack ∧ failureToo = failure ∧ raisedToo = raised := by
  obtain rfl := stack_unique raises raisesToo
  cases raises with
  | outside served _ =>
      cases raisesToo with
      | outside servedToo _ =>
          cases served.symm.trans servedToo
          exact ⟨rfl, rfl, rfl⟩
  | inside _ failed _ =>
      cases raisesToo with
      | inside _ failedToo _ =>
          cases failed.symm.trans failedToo
          exact ⟨rfl, rfl, rfl⟩

/-- The frames in which expressions are evaluated for a request are all new. -/
theorem opens_of_underway (moment : (once budget image request).Underway (running :: below)) :
    image.heap.frames.size ≤ running.opens := by
  rcases (frames_clock _).during_request liveness_laws (liveness_hosts _) moment with
    ⟨_, _, serves, begun, -⟩
  obtain ⟨rfl, rfl⟩ := eq_of_serves_once serves
  exact begun

theorem closes_of_underway (moment : (once budget image request).Underway (running :: below)) :
    running.closes ≤ (request.serve (.ofBudget budget) image).2.heap.frames.size := by
  rcases (frames_clock _).during_request liveness_laws (liveness_hosts _) moment with
    ⟨_, _, serves, -, finished⟩
  obtain ⟨rfl, rfl⟩ := eq_of_serves_once serves
  exact finished

/-- When a failure arises, the live frames are those of the activations on the stack, and those that
are live to begin with. -/
theorem live_of_raises (raises : request.Raises budget image stack failure raised)
    (ref : FrameRef) :
    (raised.frameAt ref).live = true ↔
      ref ∈ stack.filterMap Running.frame? ∨ (image.frameAt ref).live = true := by
  cases raises with
  | outside served _ =>
      have kept := Request.keepsLiveness_serve budget request image
      rw [served] at kept
      simp [kept.live ref]
  | @inside running below _ _ moment failed _ =>
      have ended := Running.live_of_work running ref
      rw [failed, Eval.left_error] at ended
      rw [ended, live_iff_below_or_start moment ref]
      simp only [List.mem_filterMap, List.exists_mem_cons_iff, or_assoc]
      rfl

/-- When a failure arises, there are all the frames in which anything is evaluated, and they are
live if they are on the stack. -/
theorem frame_of_raises (raises : request.Raises budget image stack failure raised)
    (moment : (once budget image request).Underway (running :: below)) {frame : FrameRef}
    (own : running.frame? = some frame) :
    raised.heap.frames.Has frame ∧
      ((raised.frameAt frame).live = true ↔ running :: below <:+ stack) := by
  obtain ⟨opens, closes⟩ := opens_lt_closes own
  constructor
  · have bound := closes_of_underway moment
    rw [serve_of_raises raises, Image.size_leaveAll] at bound
    rw [Arena.Has]
    omega
  · rw [live_of_raises raises, List.mem_filterMap]
    constructor
    · rintro (⟨record, member, same⟩ | early)
      · obtain ⟨front, back, rfl⟩ := List.append_of_mem member
        have whole := underway_of_raises raises (List.suffix_append front (record :: back))
        rw [eq_of_frame? moment whole own same]
        exact List.suffix_append front _
      · have late := opens_of_underway moment
        rw [Image.live_of_not_has] at early
        · cases early
        · rw [Arena.Has]
          omega
    · exact fun suffix => Or.inl ⟨running, suffix.subset List.mem_cons_self, own⟩

theorem work_of_raises (raises : request.Raises budget image stack failure raised)
    {above rest : List Running} {record : Running} (split : stack = above ++ record :: rest) :
    record.work = failure.afterLeaving raised above := by
  rw [Failure.afterLeaving_eq]
  cases raises with
  | outside _ _ => cases List.append_eq_nil_iff.mp split.symm |>.2
  | inside moment failed _ => exact work_of_underway moment failed split

theorem broken_of_raises (raises : request.Raises budget image stack failure raised)
    {above rest : List Running} {record : Running} (split : stack = above ++ record :: rest)
    {frame : FrameRef} (own : record.frame? = some frame) :
    ∃ place code between, record.EvaluatesAt place frame code between ∧
      code.evaluate record.machine frame between = failure.afterLeaving raised above := by
  have worked := work_of_raises raises split
  obtain ⟨allowed, activation, begun⟩ := record
  cases allowed with
  | zero => cases own
  | succ fewer =>
      obtain ⟨⟨entered, body⟩, opened, rfl⟩ := Option.map_eq_some_iff.mp own
      obtain ⟨number, code, between, visited, escaped⟩ :=
        Code.exists_visit_of_escape (Running.evaluateAll_of_work opened worked)
      exact ⟨[number], code, between, .intro opened visited, escaped⟩

theorem settled_of_raises (raises : request.Raises budget image stack failure raised)
    {above rest : List Running} {record : Running} (split : stack = above ++ record :: rest)
    {place : List Nat} {frame : FrameRef} {code : Code} {between : Image}
    (evaluates : record.EvaluatesAt place frame code between) :
    (∃ value after, code.evaluate record.machine frame between = .ok value after) ∨
      code.evaluate record.machine frame between = failure.afterLeaving raised above := by
  have worked := work_of_raises raises split
  cases Running.evaluates_iff.mpr ⟨place, evaluates⟩ with
  | @intro fewer _ begun _ _ _ _ opened visits =>
      change (∃ value after, code.evaluate (.ofBudget fewer) _ between = .ok value after) ∨
        code.evaluate (.ofBudget fewer) _ between = _
      cases evaluated : code.evaluate (.ofBudget fewer) begun.heap.frames.next between with
      | ok value after => exact Or.inl ⟨value, after, rfl⟩
      | error escape left =>
          cases (visits.escape evaluated).symm.trans (Running.evaluateAll_of_work opened worked)
          exact Or.inr rfl

/-- From the moment at which a failure arises, nothing is evaluated any more. -/
theorem abandons_of_raises (raises : request.Raises budget image stack failure raised) :
    request.Abandons budget image stack failure raised where
  entered := fun moment own => frame_of_raises raises moment own
  passed := fun {above rest record} split => by
    rw [Failure.afterLeaving_eq]
    cases raises with
    | outside _ _ => cases List.append_eq_nil_iff.mp split.symm |>.2
    | inside moment failed _ => exact result_of_underway moment failed split
  broken := fun split own => broken_of_raises raises split own
  settled := fun split evaluates => settled_of_raises raises split evaluates
  last := fun _ evaluates escaped follows other there evaluatesToo => by
    cases evaluates with
    | intro opened visited =>
        cases evaluatesToo with
        | intro openedToo visitedToo =>
            cases opened.symm.trans openedToo
            cases (Code.visit?_of_follows visited escaped follows).symm.trans visitedToo

end Session

/-- Backtraces are exact.  If a host is told of a failure, the failure arose at exactly one moment.
The backtrace lists the methods of the activations that were on the stack then, the topmost one
first: blocks, operations and methods with the wrong number of arguments do not appear, and a method
appears as often as it was on the stack.  The names are those that the methods had at that moment.
From then on the frames on the stack are left, and nothing else happens to the image; no expression
is evaluated any more. -/
theorem backtraces_exact {budget : Nat} {request : Request} {image final : Image}
    {exception : Exception}
    (failed : request.serve (.ofBudget budget) image = (.escaped (.failed exception), final)) :
    ∃ stack raised,
      (∀ other failure there, request.Raises budget image other failure there ↔
        other = stack ∧ failure = exception.failure ∧ there = raised) ∧
      exception.backtrace.toList = stack.filterMap Running.method? ∧
      exception.backtrace.toList.map final.methodName =
        (stack.filterMap Running.method?).map raised.methodName ∧
      final = raised.leaveAll (stack.filterMap Running.frame?) ∧
      request.Abandons budget image stack exception.failure raised := by
  obtain ⟨stack, failure, raised, raises⟩ := Session.exists_raises failed
  have served := Session.serve_of_raises raises
  rw [failed] at served
  obtain ⟨told, rfl⟩ := Prod.mk.inj served
  obtain rfl := Escape.failed.inj (Response.escaped.inj told)
  have listed : (Exception.past { failure, backtrace := #[] }
      (stack.filterMap Running.method?)).backtrace.toList = stack.filterMap Running.method? := by
    simp only [Exception.past, Array.empty_append]
  refine ⟨stack, raised, fun other failureToo there => ⟨?_, ?_⟩, listed, ?_, rfl,
    Session.abandons_of_raises raises⟩
  · exact Session.raises_unique raises
  · rintro ⟨rfl, rfl, rfl⟩
    exact raises
  · rw [listed, Image.methodName_leaveAll]

/-- A class with a method that calls itself once and then divides by zero, both from within blocks.
-/
def fallingClass : Source.ClassDefinition where
  name := "Fall"
  superclass := none
  fields := []
  methods := []
  classFields := []
  classMethods := [{
    selector := "fall:"
    parameters := 1
    body := .expressions 0 [
      .send (.read (.slot ⟨.argument, 0, 0⟩)) "ifTrue:ifFalse:" [
        .block 0 0 [.send .self "fall:" [.global "false"]],
        .block 0 0 [.send (.literal (.integer 1)) "/" [.literal (.integer 0)]]]] }]

def fallingImage : Image :=
  ((Request.defineClass fallingClass).serve (.ofBudget 5) (.initial .plain .standard false)).2

def fallingRequest : Request :=
  .send "fall:" (.classObject ⟨37⟩) [.boolean true]

/-- The failure that a host is told of, and the methods that it left. -/
def Response.report? : Response → Option (Failure × List MethodRef)
  | .escaped (.failed exception) => some (exception.failure, exception.backtrace.toList)
  | _ => none

theorem Response.eq_of_report? {response : Response} {failure : Failure}
    {methods : List MethodRef} (told : response.report? = some (failure, methods)) :
    response = .escaped (.failed { failure, backtrace := methods.toArray }) := by
  unfold report? at told
  split at told
  · cases told
    simp only [Array.toArray_toList]
  · cases told

/-- The method was on the stack twice when the division failed, and nothing but that failed. -/
theorem backtraces_exact_falling :
    ∃ stack raised,
      (∀ other failure there, fallingRequest.Raises 5 fallingImage other failure there ↔
        other = stack ∧ failure = .refused "Integer>>#/" .divisionByZero ∧ there = raised) ∧
      stack.filterMap Running.method? = [⟨86⟩, ⟨86⟩] ∧
      raised.methodName ⟨86⟩ = "Fall class>>#fall:" ∧
      fallingRequest.Abandons 5 fallingImage stack (.refused "Integer>>#/" .divisionByZero)
        raised := by
  have told : (fallingRequest.serve (.ofBudget 5) fallingImage).1.report? =
      some (.refused "Integer>>#/" .divisionByZero, [⟨86⟩, ⟨86⟩]) := by decide +kernel
  have named : (fallingRequest.serve (.ofBudget 5) fallingImage).2.methodName ⟨86⟩ =
      "Fall class>>#fall:" := by decide +kernel
  generalize served : fallingRequest.serve (.ofBudget 5) fallingImage = answer at told named
  obtain ⟨response, final⟩ := answer
  obtain rfl := Response.eq_of_report? told
  obtain ⟨stack, raised, once, listed, names, -, abandons⟩ := backtraces_exact served
  dsimp only at listed
  refine ⟨stack, raised, once, listed.symm, ?_, abandons⟩
  rw [← listed] at names
  exact (List.cons.inj names).1.symm.trans named

end MessageMachine
