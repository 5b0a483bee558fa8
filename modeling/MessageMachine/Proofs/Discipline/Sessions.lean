import MessageMachine.Proofs.Discipline.Activations

/-!
# Sessions under a discipline

If a discipline holds of the images in which the requests of a session are served, and if what is
evaluated for them keeps to it, then it holds at every moment of the session: when an activation is
begun, however deep in the stack, and when an expression is evaluated in the frame of the topmost
one.
-/

namespace MessageMachine

namespace Request

variable {machine : Machine} {image : Image}

/-- What a request that is evaluated leaves. -/
theorem serve_of_evaluation {request : Request} {body : Machine → Eval Value}
    (evaluation : request.evaluation? = some body) :
    (request.serve machine image).2 = Eval.left (body machine image) := by
  have ended : ∀ result : EStateM.Result Escape Image Value,
      (Response.ofEval result).2 = Eval.left result := fun result => by cases result <;> rfl
  have completed : ∀ evaluated : Eval Value,
      Eval.left (Eval.complete evaluated image) = Eval.left (evaluated image) := by
    intro evaluated
    unfold Eval.complete
    split
    · next same => rw [same]; rfl
    · rfl
  cases request <;> cases evaluation
  case send => exact (ended _).trans (completed _)
  case invoke => exact (ended _).trans (completed _)
  case deliver => exact ended _
  case activate => exact ended _

theorem Serves.mem {requests : List Request} {start served : Image} {request : Request}
    (serves : Serves machine requests start request served) : request ∈ requests := by
  induction serves with
  | head => exact List.mem_cons_self
  | tail _ inductionHypothesis => exact List.mem_cons_of_mem _ inductionHypothesis

end Request

namespace Session

variable {session : Session} {good : Image → Prop}

/-- What holds to begin with and is kept by every request holds of the images in which requests are
served, and in the end. -/
theorem serves_induction (start : good session.start)
    (step : ∀ {request image}, session.Serves request image → good image →
      good (request.serve (.ofBudget session.budget) image).2) :
    (∀ {request image}, session.Serves request image → good image) ∧ good session.outcome.2 := by
  have along : ∀ (requests : List Request) (image : Image), good image →
      (∀ {request served}, Request.Serves (.ofBudget session.budget) requests image request served →
        session.Serves request served) →
      (∀ {request served}, Request.Serves (.ofBudget session.budget) requests image request served →
        good served) ∧ good (Request.serveAll (.ofBudget session.budget) requests image).2 := by
    intro requests
    induction requests with
    | nil =>
        intro image holds _
        refine ⟨fun serves => ?_, holds⟩
        cases serves
    | cons first rest inductionHypothesis =>
        intro image holds inside
        have next := inductionHypothesis _ (step (inside .head) holds)
          fun serves => inside (.tail serves)
        refine ⟨fun serves => ?_, next.2⟩
        cases serves with
        | head => exact holds
        | tail serves => exact next.1 serves
  exact along session.requests session.start start id

end Session

namespace Discipline

/-- Whether the requests of a session keep to a discipline. -/
structure Hosts (D : Discipline) (session : Session) : Prop where
  begun : ∀ {running below}, session.Underway (running :: below) → D.Begun running
  evaluates : ∀ {request image body}, session.Serves request image →
    request.evaluation? = some body → D.Evaluates (.ofBudget session.budget) image body

variable {D : Discipline} {session : Session} (laws : D.Laws)
include laws

/-- Where nothing is asked of values and activations, every request can be evaluated. -/
theorem request_keeps_of_any (any : ∀ image value, D.Good image value)
    (every : ∀ image activation, D.Runs image activation) {machine : Machine} {request : Request}
    {image : Image} {body : Machine → Eval Value} (holds : D.Holds image)
    (evaluation : request.evaluation? = some body) : D.Evaluates machine image body := by
  cases request with
  | send selector receiver operands =>
      cases evaluation
      refine Keeps.bind laws.toOrder (laws.meet holds selector) fun met _ holdsMet _ _ => ?_
      exact send_keeps laws holdsMet selector fun value _ => any met value
  | invoke method receiver operands =>
      cases evaluation
      exact Keeps.activate laws.toOrder holds (every image _)
  | deliver selector arguments =>
      cases evaluation
      cases arguments with
      | nil =>
          have alone : D.Runs image (.method default []) := every image _
          exact Keeps.throw laws.toOrder holds rfl (laws.accompanied alone image _)
      | cons receiver operands =>
          exact send_keeps laws holds selector fun value _ => any image value
  | activate activation =>
      cases evaluation
      exact Keeps.activate laws.toOrder holds (every image activation)
  | _ => cases evaluation

/-- What is evaluated for a request keeps to a discipline. -/
theorem request_obeys
    (begun : ∀ {running below}, session.Underway (running :: below) → D.Begun running)
    {request : Request} {image : Image} {body : Machine → Eval Value}
    (serves : session.Serves request image) (evaluation : request.evaluation? = some body)
    (kept : D.Evaluates (.ofBudget session.budget) image body) :
    D.Obeys D.Good (.ofBudget session.budget) image body :=
  kept fun _ _ asks holds _ runs =>
    faithful laws session.budget holds runs (begun (.first serves evaluation asks))

namespace Hosts

/-- Where every request keeps to a discipline, the session does. -/
theorem of_requests
    (begun : ∀ {running below}, session.Underway (running :: below) → D.Begun running)
    (start : D.Holds session.start)
    (still : ∀ {request image}, session.Serves request image → request.evaluation? = none →
      D.Holds image → D.Holds (request.serve (.ofBudget session.budget) image).2)
    (evaluates : ∀ {request image body}, session.Serves request image →
      request.evaluation? = some body → D.Holds image →
      D.Evaluates (.ofBudget session.budget) image body) : D.Hosts session := by
  have holds : ∀ {request image}, session.Serves request image → D.Holds image := by
    refine (session.serves_induction start fun {request image} serves holds => ?_).1
    cases evaluation : request.evaluation? with
    | none => exact still serves evaluation holds
    | some body =>
        rw [Request.serve_of_evaluation evaluation]
        exact (request_obeys laws begun serves evaluation
          (evaluates serves evaluation holds)).yields.left_holds
  exact ⟨begun, fun serves evaluation => evaluates serves evaluation (holds serves)⟩

variable (hosts : D.Hosts session)
include hosts

theorem obeys {request : Request} {image : Image} {body : Machine → Eval Value}
    (serves : session.Serves request image) (evaluation : request.evaluation? = some body) :
    D.Obeys D.Good (.ofBudget session.budget) image body :=
  request_obeys laws hosts.begun serves evaluation (hosts.evaluates serves evaluation)

/-- The activations of a session are begun in images where the discipline holds. -/
theorem underway {running : Running} {below : List Running}
    (moment : session.Underway (running :: below)) :
    D.Holds running.image ∧ D.Runs running.image running.activation := by
  generalize same : running :: below = stack at moment
  induction moment generalizing running below with
  | first serves evaluation asks =>
      cases same
      have warrants := (hosts.obeys laws serves evaluation).warrant asks
      exact ⟨warrants.holds, warrants.runs⟩
  | @nested budget activation asked begun image below moment asks inductionHypothesis =>
      cases same
      obtain ⟨holds, runs⟩ := inductionHypothesis rfl
      have started := hosts.begun moment
      cases asks with
      | code opened asks =>
          have warrants := (body_obeys laws (faithful laws budget) holds runs started
            opened).warrant asks
          exact ⟨warrants.holds, warrants.runs⟩
      | operation method behavior asks =>
          subst method
          have warrants := (operation_obeys laws (faithful laws budget) holds runs started
            behavior).warrant asks
          exact ⟨warrants.holds, warrants.runs⟩

/-- What an activation comes to. -/
theorem yields {running : Running} {below : List Running}
    (moment : session.Underway (running :: below)) :
    D.Yields D.Good running.image running.result := by
  obtain ⟨holds, runs⟩ := hosts.underway laws moment
  exact faithful laws running.budget holds runs (hosts.begun moment)

section Stack

variable {budget : Nat} {activation : Activation} {begun : Image} {below : List Running}
  (moment : session.Underway (⟨budget + 1, activation, begun⟩ :: below))
include moment

theorem body_obeys {frame : Frame} {body : List Code}
    (opened : activation.opening? begun = some (frame, body)) :
    D.Obeys D.Good (.ofBudget budget) (begun.addFrame frame) fun machine =>
      Code.evaluateBody machine begun.heap.frames.next body := by
  obtain ⟨holds, runs⟩ := hosts.underway laws moment
  exact Discipline.body_obeys laws (faithful laws budget) holds runs (hosts.begun moment) opened

/-- The body of an activation is ready to be evaluated, in the frame of the activation. -/
theorem codes_ready {frame : Frame} {body : List Code}
    (opened : activation.opening? begun = some (frame, body)) :
    D.Ready (.ofBudget budget) begun.heap.frames.next body (begun.addFrame frame) := by
  obtain ⟨holds, runs⟩ := hosts.underway laws moment
  exact body_ready laws holds runs (hosts.begun moment) opened

theorem codes_trust {frame : Frame} {body : List Code}
    (opened : activation.opening? begun = some (frame, body)) :
    D.Trusts (.ofBudget budget) (begun.addFrame frame) fun machine =>
      Code.evaluateAll machine begun.heap.frames.next body :=
  (body_trusts laws (faithful laws budget) (hosts.begun moment) opened).first

/-- An expression that is evaluated in the frame of an activation. -/
theorem visit {frame : Frame} {body : List Code} {code : Code} {image : Image}
    (opened : activation.opening? begun = some (frame, body))
    (visits : Code.Visits (.ofBudget budget) begun.heap.frames.next body (begun.addFrame frame) code
      image) :
    D.Visit (.ofBudget budget) begun.heap.frames.next body (begun.addFrame frame) code image :=
  visit_of_visits laws visits (hosts.codes_ready laws moment opened)
    (hosts.codes_trust laws moment opened)

end Stack

theorem operation_obeys {budget : Nat} {ref : MethodRef} {arguments : List Value} {begun : Image}
    {below : List Running} {primitive : Primitive}
    (moment : session.Underway (⟨budget + 1, .method ref arguments, begun⟩ :: below))
    (behavior : (begun.methodAt ref).behavior = .primitive primitive) :
    D.Obeys D.Good (.ofBudget budget) begun fun machine =>
      machine.runPrimitive primitive (begun.methodAt ref).selector arguments := by
  obtain ⟨holds, runs⟩ := hosts.underway laws moment
  exact Discipline.operation_obeys laws (faithful laws budget) holds runs (hosts.begun moment)
    behavior

end Hosts

end Discipline

end MessageMachine
