import Mathlib.Data.List.Induction
import MessageMachine.Proofs.Homes

/-!
# Returns reach their home

A return is an escape to the frame of its home.  It passes through whatever is between: through the
bodies of methods and blocks, operations, loops and sends, leaving frame after frame and doing
nothing else, until it comes to the activation that the frame belongs to.  If there is no such
activation on the stack, the frame is not live, and the return is reported as escaped.
-/

namespace MessageMachine

open Discipline

namespace Image

/-- Leave frames one after the other. -/
def leaveAll (image : Image) (frames : List FrameRef) : Image :=
  frames.foldl (fun image frame => (Action.leave frame).perform image) image

theorem leaveAll_append (image : Image) (first second : List FrameRef) :
    image.leaveAll (first ++ second) = (image.leaveAll first).leaveAll second :=
  List.foldl_append

end Image

namespace Running

/-- What an activation makes of a return that comes up to it. -/
def unwound (running : Running) (value : Value) (home : FrameRef) (left : Image) :
    EStateM.Result Escape Image Value :=
  if running.frame? = some home then .ok value (left.leaveAll running.frame?.toList)
  else .error (.unwinding value home) (left.leaveAll running.frame?.toList)

variable {budget : Nat} {activation : Activation} {begun left : Image} {value : Value}
  {home : FrameRef}

/-- A return out of the body of an activation. -/
theorem result_of_body {frame : Frame} {body : List Code}
    (opened : activation.opening? begun = some (frame, body))
    (escaped : Code.evaluateBody (.ofBudget budget) begun.heap.frames.next body
      (begun.addFrame frame) = .error (.unwinding value home) left)
    (kind : begun.heap.frames.next = home → activation.isMethod = true) :
    Running.result ⟨budget + 1, activation, begun⟩ =
      Running.unwound ⟨budget + 1, activation, begun⟩ value home left := by
  have own : Running.frame? ⟨budget + 1, activation, begun⟩ = some begun.heap.frames.next := by
    simp only [Running.frame?, opened, Option.map_some]
  change (Machine.ofBudget budget).step activation begun = _
  rw [step_eq_conclude opened, escaped, unwound, own]
  by_cases same : home = begun.heap.frames.next
  · subst same
    rw [if_pos rfl]
    cases activation with
    | method ref arguments => simp only [Activation.conclude, if_pos]; rfl
    | block ref arguments => cases kind rfl
  · have apart : ¬ some begun.heap.frames.next = some home := fun equal =>
      same (Option.some.inj equal).symm
    rw [if_neg apart]
    cases activation with
    | method ref arguments => simp only [Activation.conclude, if_neg same]; rfl
    | block ref arguments => rfl

/-- A return out of an operation. -/
theorem result_of_operation {ref : MethodRef} {arguments : List Value} {primitive : Primitive}
    (behavior : (begun.methodAt ref).behavior = .primitive primitive)
    (escaped : (Machine.ofBudget budget).runPrimitive primitive (begun.methodAt ref).selector
      arguments begun = .error (.unwinding value home) left) :
    Running.result ⟨budget + 1, .method ref arguments, begun⟩ =
      Running.unwound ⟨budget + 1, .method ref arguments, begun⟩ value home left := by
  have none : Running.frame? ⟨budget + 1, .method ref arguments, begun⟩ = none := by
    simp only [Running.frame?, Activation.opening?_of_primitive behavior, Option.map_none]
  change (Machine.ofBudget budget).invoke ref arguments begun = _
  rw [unwound, none, Machine.invoke, Eval.get_bind]
  simp only [behavior, escaped]
  rfl

end Running

namespace Session

variable {session : Session} {running other : Running} {below : List Running} {value : Value}
  {home : FrameRef} {left : Image}

/-- A return goes on from an activation to the one that asked for it. -/
theorem unwound_of_nested (moment : session.Underway (other :: running :: below))
    (kind : running.frame? = some home → running.activation.isMethod = true)
    (escaped : other.result = .error (.unwinding value home) left) :
    running.result = running.unwound value home left := by
  cases moment with
  | @nested budget activation asked begun image _ moment asks =>
      cases asks with
      | @code frame body _ _ opened asks =>
          have own : Running.frame? ⟨budget + 1, activation, begun⟩ =
              some begun.heap.frames.next := by
            simp only [Running.frame?, opened, Option.map_some]
          exact Running.result_of_body opened (asks.escape trivial escaped)
            fun same => kind (own.trans (congrArg some same))
      | operation method behavior asks =>
          cases method
          exact Running.result_of_operation behavior (asks.escape trivial escaped)

/-- A return is what it was on its way through all activations that it is not meant for. -/
theorem unwound_of_underway (moment : session.Underway (running :: below))
    (escaped : running.result = running.unwound value home left)
    (kind : ∀ record ∈ running :: below, record.frame? = some home →
      record.activation.isMethod = true)
    {above : List Running} {record : Running} {rest : List Running}
    (split : running :: below = above ++ record :: rest)
    (unmeant : ∀ passed ∈ above, passed.frame? ≠ some home) :
    record.result = record.unwound value home (left.leaveAll (above.filterMap Running.frame?)) := by
  induction above using List.reverseRecOn generalizing record rest with
  | nil =>
      cases split
      exact escaped
  | append_singleton above passed inductionHypothesis =>
      rw [List.append_assoc] at split
      have before := inductionHypothesis split fun earlier member =>
        unmeant earlier (List.mem_append_left _ member)
      have member : passed ∈ above ++ [passed] := List.mem_append_right _ List.mem_cons_self
      rw [Running.unwound, if_neg (unmeant passed member)] at before
      have stack : session.Underway (passed :: record :: rest) :=
        underway_of_suffix moment ⟨above, split.symm⟩
      have inside : record ∈ running :: below := by
        rw [split]
        simp
      rw [unwound_of_nested stack (kind record inside) before, List.filterMap_append,
        Image.leaveAll_append]
      rfl

/-- Stacks on which an activation with a given frame stands, if it stands there, at one place. -/
theorem unmeant_of_split (moment : session.Underway (running :: below)) {above rest : List Running}
    (split : running :: below = above ++ other :: rest) (own : other.frame? = some home)
    {passed : Running} (member : passed ∈ above) : passed.frame? ≠ some home := by
  intro ownToo
  obtain ⟨front, back, rfl⟩ := List.append_of_mem member
  have split' : front ++ passed :: (back ++ other :: rest) = running :: below := by
    rw [split, List.append_assoc, List.cons_append]
  have higher : session.Underway (passed :: (back ++ other :: rest)) :=
    underway_of_suffix moment ⟨front, split'⟩
  have lower : session.Underway (other :: rest) :=
    underway_of_suffix moment ⟨front ++ passed :: back, split.symm⟩
  have same := congrArg List.length (eq_of_frame? higher lower ownToo own)
  simp only [List.length_cons, List.length_append] at same
  omega

/-- The activation with the frame of a home is the home. -/
theorem eq_home_of_mem {homeRunning : Running} (moment : session.Underway (running :: below))
    (at' : session.Home other homeRunning) (own : homeRunning.frame? = some home)
    {record : Running} (member : record ∈ running :: below) (ownToo : record.frame? = some home) :
    record = homeRunning := by
  obtain ⟨front, back, split⟩ := List.append_of_mem member
  obtain ⟨rest, lower⟩ := at'.underway
  have higher : session.Underway (record :: back) := underway_of_suffix moment ⟨front, split.symm⟩
  exact (List.cons.inj (eq_of_frame? higher lower ownToo own)).1

theorem homing_hosts (start : session.start.Homely session)
    (kept : ∀ request ∈ session.requests, ¬ request.Detaches) :
    (homing session).Hosts session := by
  refine .of_requests (homing_laws session) (fun moment => ⟨_, moment⟩) start
    (fun {request image} serves still homely => ?_) fun _ evaluation homely => ?_
  · exact homely.of_develops (Request.serve_develops still (kept request serves.mem) image)
  · exact request_keeps_of_any (homing_laws session) (fun _ _ => trivial) (fun _ _ => trivial)
      homely evaluation

end Session

/-- A return whose home is still running. -/
theorem Code.evaluate_answer_of_live {machine : Machine} {frame : FrameRef} {code : Code}
    {span : Span} {image after : Image} {value : Value}
    (evaluated : code.evaluate machine frame image = .ok value after)
    (live : (after.frameAt (after.outermost frame)).live = true) :
    (Code.answer code span).evaluate machine frame image =
      .error (.unwinding value (after.outermost frame)) after := by
  simp only [Code.evaluate, Bind.bind, EStateM.bind, evaluated]
  change (ite ((after.frameAt (after.outermost frame)).live = true) _ _ : Eval Value) after = _
  rw [if_pos live]
  rfl

/-- A return whose home is over. -/
theorem Code.evaluate_answer_of_dead {machine : Machine} {frame : FrameRef} {code : Code}
    {span : Span} {image after : Image} {value : Value}
    (evaluated : code.evaluate machine frame image = .ok value after)
    (dead : (after.frameAt (after.outermost frame)).live = false) :
    (Code.answer code span).evaluate machine frame image =
      .error (.failed {
        failure := .escapedReturn (after.frameName (after.outermost frame)) span
        backtrace := #[] })
        (after.note fun _ => .returnEscaped (after.frameName (after.outermost frame)) span) := by
  simp only [Code.evaluate, Bind.bind, EStateM.bind, evaluated]
  change (ite ((after.frameAt (after.outermost frame)).live = true) _ _ : Eval Value) after = _
  rw [if_neg (Bool.not_eq_true _ ▸ dead)]
  rfl

/-- Whether an expression stands in some code, however deep in expressions and blocks. -/
inductive Code.Encloses : List Code → Code → Prop
  | here {codes : List Code} {code : Code} : code ∈ codes → Encloses codes code
  | part {codes : List Code} {outer code : Code} : outer ∈ codes → Encloses outer.parts code →
      Encloses codes code
  | block {codes body : List Code} {code : Code} {parameters temporaries : Nat} {captures : Bool} :
      Code.block parameters temporaries captures body ∈ codes → Encloses body code →
      Encloses codes code

namespace Code

theorem Encloses.within {codes body : List Code} {code : Code} {parameters temporaries : Nat}
    {captures : Bool} (outside : Encloses codes (.block parameters temporaries captures body))
    (inside : Encloses body code) : Encloses codes code := by
  generalize same : Code.block parameters temporaries captures body = block at outside
  induction outside with
  | here member => exact .block (same ▸ member) inside
  | part member _ inductionHypothesis => exact .part member (inductionHypothesis same)
  | block member _ inductionHypothesis => exact .block member (inductionHypothesis same)

/-- What is evaluated is what is written. -/
theorem Visits.encloses {machine : Machine} {frame : FrameRef} {codes : List Code} {code : Code}
    {image final : Image} (visits : Visits machine frame codes image code final) :
    Encloses codes code := by
  induction visits with
  | here _ => exact .here (by simp)
  | @inside _ _ outer _ _ _ _ _ _ _ inductionHypothesis =>
      exact @Encloses.part _ outer _ (by simp) inductionHypothesis

end Code

/-- What an activation evaluates is written in the method of its home. -/
theorem Session.Home.encloses {session : Session} {running home : Running}
    (at' : session.Home running home) {frame : FrameRef} {code : Code} {image : Image}
    (evaluates : running.Evaluates frame code image) :
    ∃ opened body, home.activation.opening? home.image = some (opened, body) ∧
      Code.Encloses body code := by
  induction at' generalizing frame code image with
  | method _ _ =>
      cases evaluates with
      | intro opened visits => exact ⟨_, _, opened, visits.encloses⟩
  | block block closure _ makes _ _ inductionHypothesis =>
      obtain ⟨opened, body, opens, outside⟩ := inductionHypothesis makes
      refine ⟨opened, body, opens, outside.within ?_⟩
      cases evaluates with
      | intro openedToo visits =>
          dsimp only at block closure
          subst block
          cases openedToo
          have inside := visits.encloses
          rwa [closure] at inside

/-- How a return passes the activations above its home and is taken up there.  Nothing becomes of
the image on the way but that frames are left. -/
structure Returns (value : Value) (target : FrameRef) (image : Image) (above : List Running)
    (home : Running) : Prop where
  passed : ∀ {front back : List Running} {running : Running}, above = front ++ running :: back →
    running.result = .error (.unwinding value target)
      (image.leaveAll ((front ++ [running]).filterMap Running.frame?))
  taken : home.result =
    .ok value (image.leaveAll ((above ++ [home]).filterMap Running.frame?))

theorem Image.leaveAll_filterMap (image : Image) (above : List Running) (running : Running) :
    (image.leaveAll (above.filterMap Running.frame?)).leaveAll running.frame?.toList =
      image.leaveAll ((above ++ [running]).filterMap Running.frame?) := by
  rw [← Image.leaveAll_append, List.filterMap_append]
  cases found : running.frame? <;> simp [found]

namespace Session

variable {session : Session} {running home : Running} {below : List Running} {frame : FrameRef}
  {inner : Code} {span : Span} {image after : Image} {value : Value} {fewer : Nat}

/-- Where an expression that needs the activation it was written for is evaluated, the frames lead
to the home. -/
theorem leadsHome_of_evaluates (hosts : (homing session).Hosts session)
    (moment : session.Underway (running :: below)) (patience : running.budget = fewer + 1)
    (evaluates : running.Evaluates frame (.answer inner span) image)
    (evaluated : inner.evaluate (.ofBudget fewer) frame image = .ok value after) :
    after.LeadsHome session running frame := by
  have own := evaluates.frame?_eq
  cases evaluates with
  | intro opened visits =>
      cases patience
      have visit := hosts.visit (homing_laws session) moment opened visits
      obtain ⟨found, under, momentToo, leadsHome⟩ :=
        (visit.ready.fits _ List.mem_cons_self).2 fun _ => rfl
      cases eq_of_frame? momentToo moment leadsHome.own own
      have obeys := visit.parts (homing_laws session)
      have later := obeys.yields.left_later
      simp only [Code.parts, Code.evaluateAll_alone evaluated] at later
      exact leadsHome.mono later

/-- A return to an activation on the stack is what becomes of it. -/
theorem returns_of_underway {target : FrameRef} {above rest : List Running}
    (moment : session.Underway (running :: below)) (patience : running.budget = fewer + 1)
    (evaluates : running.Evaluates frame (.answer inner span) image)
    (escaped : (Code.answer inner span).evaluate (.ofBudget fewer) frame image =
      .error (.unwinding value target) after)
    (at' : session.Home running home) (method : home.activation.isMethod = true)
    (own : home.frame? = some target) (split : running :: below = above ++ home :: rest) :
    Returns value target after above home := by
  have kind : ∀ record ∈ running :: below, record.frame? = some target →
      record.activation.isMethod = true := by
    intro record member same
    rw [eq_home_of_mem moment at' own member same]
    exact method
  have first : running.result = running.unwound value target after := by
    have kindHere := kind running List.mem_cons_self
    have ownHere := evaluates.frame?_eq
    cases evaluates with
    | intro opened visits =>
        cases patience
        refine Running.result_of_body opened ?_ fun same => kindHere (same ▸ ownHere)
        simp only [Code.evaluateBody, Bind.bind, EStateM.bind, visits.escape escaped]
  constructor
  · intro front back passed inside
    have splitToo : running :: below = front ++ passed :: (back ++ home :: rest) := by
      rw [split, inside, List.append_assoc, List.cons_append]
    have unmeant : ∀ record ∈ above, record.frame? ≠ some target := fun record member =>
      unmeant_of_split moment split own member
    have unwound := unwound_of_underway moment first kind splitToo fun record member =>
      unmeant record (inside ▸ List.mem_append_left _ member)
    rw [Running.unwound, if_neg (unmeant passed (by simp [inside])),
      Image.leaveAll_filterMap] at unwound
    exact unwound
  · have unwound := unwound_of_underway moment first kind split fun record member =>
      unmeant_of_split moment split own member
    rwa [Running.unwound, if_pos own, Image.leaveAll_filterMap] at unwound

/-- The frame of a home is live as long as the home is on the stack. -/
theorem live_iff_mem {target : FrameRef} (start : session.start.Quiet)
    (moment : session.Underway (running :: below))
    (evaluates : running.Evaluates frame (.answer inner span) image)
    (evaluated : inner.evaluate (.ofBudget fewer) frame image = .ok value after)
    (at' : session.Home running home) (own : home.frame? = some target) :
    (after.frameAt target).live = true ↔ home ∈ running :: below := by
  have kept := keepsLiveness_evaluate fewer image frame inner
  rw [evaluated, Eval.left_ok] at kept
  rw [kept.live, live_iff_stack start moment evaluates, List.mem_filterMap]
  constructor
  · rintro ⟨record, member, same⟩
    rwa [← eq_home_of_mem moment at' own member same]
  · intro member
    exact ⟨home, member, own⟩

/-- No return gets past the activations of a request. -/
theorem not_unwinding_of_serves (hosts : (homing session).Hosts session)
    (start : session.start.Quiet) {request : Request} {body : Machine → Eval Value}
    (serves : session.Serves request image) (evaluation : request.evaluation? = some body)
    (target : FrameRef) (left : Image) :
    body (.ofBudget session.budget) image ≠ .error (.unwinding value target) left := by
  intro escaped
  have yielded := (hosts.obeys (homing_laws session) serves evaluation).yields
  have kept := Request.keepsLiveness_serve session.budget request image
  rw [Request.serve_of_evaluation evaluation] at kept
  rw [escaped] at yielded kept
  cases yielded with
  | error _ _ bound =>
      have live : (left.frameAt target).live = true := bound.1
      cases (kept.quiet (quiet_of_serves start serves) target).symm.trans live

theorem homely_fresh (platform : Platform) (settings : Settings) (listening : Bool) (budget : Nat)
    (requests : List Request) (session : Session) :
    (fresh platform settings listening budget requests).start.Homely session := by
  rw [start_fresh]
  exact .of_codeless (Image.codeless_initial platform settings listening)

end Session

/-- A return reaches exactly its home.  Whenever a return is evaluated in a session, and its value
has been, the frame that it goes to is the one of its home: of the activation of the method in whose
code it is written, which is the activation that evaluates it or the one that made the block, or the
block around the block.  If the home is on the stack, the value is what the home comes to, and the
activations above it come to nothing but the return.  If the home is over, the return is reported as
escaped from the method of the home.  No return gets out of what is evaluated for a request. -/
theorem return_reaches_home {platform : Platform} {settings : Settings} {listening : Bool}
    {budget : Nat} {requests : List Request} (kept : ∀ request ∈ requests, ¬ request.Detaches) :
    (∀ {running : Running} {below : List Running} {fewer : Nat} {frame : FrameRef} {inner : Code}
        {span : Span} {image after : Image} {value : Value},
      (Session.fresh platform settings listening budget requests).Underway (running :: below) →
      running.budget = fewer + 1 → running.Evaluates frame (.answer inner span) image →
      inner.evaluate (.ofBudget fewer) frame image = .ok value after →
      ∃ home method arguments target,
        (∀ other, (Session.fresh platform settings listening budget requests).Home running other ↔
          other = home) ∧
        home.activation = .method method arguments ∧
        (∃ opened body, home.activation.opening? home.image = some (opened, body) ∧
          Code.Encloses body (.answer inner span)) ∧
        home.frame? = some target ∧ after.outermost frame = target ∧
        (after.frameAt target).method = some method ∧
        (∀ above rest, running :: below = above ++ home :: rest →
          (Code.answer inner span).evaluate (.ofBudget fewer) frame image =
            .error (.unwinding value target) after ∧
          Returns value target after above home) ∧
        (home ∉ running :: below →
          (Code.answer inner span).evaluate (.ofBudget fewer) frame image =
            .error (.failed {
              failure := .escapedReturn (after.methodName method) span
              backtrace := #[] })
              (after.note fun _ => .returnEscaped (after.methodName method) span))) ∧
    ∀ {request : Request} {image : Image} {body : Machine → Eval Value},
      (Session.fresh platform settings listening budget requests).Serves request image →
      request.evaluation? = some body →
      ∀ value target left,
        body (.ofBudget budget) image ≠ .error (.unwinding value target) left := by
  have quiet := Session.quiet_fresh platform settings listening budget requests
  have hosts := Session.homing_hosts
    (Session.homely_fresh platform settings listening budget requests _) kept
  constructor
  · intro running below fewer frame inner span image after value moment patience evaluates evaluated
    cases Session.leadsHome_of_evaluates hosts moment patience evaluates evaluated with
    | @intro home method arguments target own at' activation homeOwn leads named =>
        have outermost := leads.outermost
        have live := Session.live_iff_mem quiet moment evaluates evaluated at' homeOwn
        refine ⟨home, method, arguments, target, fun other => ⟨fun atToo => atToo.unique at', ?_⟩,
          activation, at'.encloses evaluates, homeOwn, outermost, named, ?_, ?_⟩
        · rintro rfl
          exact at'
        · intro above rest split
          have member : home ∈ running :: below := by simp [split]
          have escaped : (Code.answer inner span).evaluate (.ofBudget fewer) frame image =
              .error (.unwinding value target) after := by
            rw [← outermost]
            exact Code.evaluate_answer_of_live evaluated (outermost ▸ live.mpr member)
          have isMethod : home.activation.isMethod = true := by rw [activation]; rfl
          exact ⟨escaped, Session.returns_of_underway moment patience evaluates escaped at' isMethod
            homeOwn split⟩
        · intro absent
          have dead : (after.frameAt (after.outermost frame)).live = false := by
            rw [outermost, ← Bool.not_eq_true, live]
            exact absent
          have name : after.frameName (after.outermost frame) = after.methodName method := by
            simp only [outermost, Image.frameName, named]
          rw [← name]
          exact Code.evaluate_answer_of_dead evaluated dead
  · intro request image body serves evaluation value target left
    exact Session.not_unwinding_of_serves hosts quiet serves evaluation target left

/-- A class with a method that returns a block that returns. -/
def returningClass : Source.ClassDefinition where
  name := "Return"
  superclass := none
  fields := []
  methods := []
  classFields := []
  classMethods := [{
    selector := "make"
    parameters := 0
    body := .expressions 0 [.answer (.block 0 0 [.answer .self ⟨3, 7⟩]) ⟨1, 8⟩] }]

/-- The block is run when its method is over. -/
def returningRequests : List Request :=
  [.defineClass returningClass, .send "make" (.classObject ⟨37⟩) [], .activate (.block ⟨0⟩ [])]

def returningSession : Session :=
  .fresh .plain .standard false 2 returningRequests

/-- The image in which the block is run. -/
def returningImage : Image :=
  ((Request.send "make" (.classObject ⟨37⟩) []).serve (.ofBudget 2)
    ((Request.defineClass returningClass).serve (.ofBudget 2)
      (.initial .plain .standard false)).2).2

theorem returningSession_underway :
    returningSession.Underway [⟨2, .block ⟨0⟩ [], returningImage⟩] := by
  have serves : returningSession.Serves (.activate (.block ⟨0⟩ [])) returningImage := by
    unfold returningSession returningRequests returningImage Session.Serves
    simp only [Session.fresh]
    exact .tail (.tail .head)
  exact .first serves rfl (.activate _ _)

/-- Whether a body does nothing but return the receiver. -/
def returnsReceiver : List Code → Bool
  | [.answer .self ⟨3, 7⟩] => true
  | _ => false

theorem returningImage_body :
    (returningImage.blockAt ⟨0⟩).body = [.answer .self ⟨3, 7⟩] := by
  have shape : returnsReceiver (returningImage.blockAt ⟨0⟩).body = true := by decide +kernel
  generalize (returningImage.blockAt ⟨0⟩).body = body at shape ⊢
  unfold returnsReceiver at shape
  split at shape
  · rfl
  · cases shape

/-- The return of the block has nowhere to go. -/
theorem return_reaches_home_escaped :
    let image := returningImage.addFrame (returningImage.blockFrame ⟨0⟩ [])
    ∃ method after, (Code.answer .self ⟨3, 7⟩).evaluate (.ofBudget 1)
        returningImage.heap.frames.next image =
      .error (.failed {
        failure := .escapedReturn (image.methodName method) ⟨3, 7⟩, backtrace := #[] }) after := by
  intro image
  have kept : ∀ request ∈ returningRequests, ¬ request.Detaches := by decide
  have evaluates : Running.Evaluates ⟨2, .block ⟨0⟩ [], returningImage⟩
      returningImage.heap.frames.next (.answer .self ⟨3, 7⟩) image := by
    refine .intro rfl ?_
    rw [returningImage_body]
    exact .first
  have evaluated : Code.self.evaluate (.ofBudget 1) returningImage.heap.frames.next image =
      .ok (image.frameAt returningImage.heap.frames.next).receiver image := by
    simp only [Code.evaluate]
    rfl
  obtain ⟨home, method, arguments, target, -, activation, -, -, -, -, -, escaped⟩ :=
    (return_reaches_home kept).1 returningSession_underway rfl evaluates evaluated
  refine ⟨method, _, escaped ?_⟩
  intro member
  cases List.mem_singleton.mp member
  cases activation

end MessageMachine
