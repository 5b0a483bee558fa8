import MessageMachine.Machine.Host
import MessageMachine.Proofs.Correspondence.Activations

/-!
# Moments of a session

An evaluation is a function from images to results, so that what happens on the way does not show.
It can be found out by exchanging the machine.  An evaluation asks for an activation in an image if
it ends in whatever way that activation escapes, on every machine that is the same otherwise.

From this come the moments of a session: the stacks of activations that are running, each of them
asked for by the one below it, and the evaluations of expressions in the frame of the topmost one.
-/

namespace MessageMachine

/-- The image that an evaluation leaves, however it ends. -/
def Eval.left {Answer : Type} : EStateM.Result Escape Image Answer → Image
  | .ok _ image => image
  | .error _ image => image

@[simp] theorem Eval.left_ok {Answer : Type} (answer : Answer) (image : Image) :
    Eval.left (.ok answer image) = image :=
  rfl

@[simp] theorem Eval.left_error {Answer : Type} (escape : Escape) (image : Image) :
    Eval.left (.error escape image : EStateM.Result Escape Image Answer) = image :=
  rfl

/-- Whether an escape is not a report of arguments of the wrong kinds.  Such reports end at the
invocation of an operation; nothing takes up another escape but the activation it is on its way
to. -/
def Escape.Passes : Escape → Prop
  | .failed exception => ∀ operation, exception.failure ≠ .typeMismatch operation
  | _ => True

/-- Whether an escape has left no method yet. -/
def Escape.Fresh : Escape → Prop
  | .failed exception => exception.backtrace = #[]
  | _ => True

/-- Whether an evaluation came to a value, or else only reported arguments of the wrong kinds. -/
def Eval.Subsides {Answer : Type} (result : EStateM.Result Escape Image Answer) : Prop :=
  ∀ escape left, result = .error escape left → ¬ escape.Passes

/-- Machines that differ at most in what they make of one activation in one image. -/
structure Machine.AgreesBut (machine other : Machine) (activation : Activation) (image : Image) :
    Prop where
  patience : other.patience = machine.patience
  activate : ∀ different start, ¬ (different = activation ∧ start = image) →
    other.activate different start = machine.activate different start

theorem Machine.AgreesBut.refl (machine : Machine) (activation : Activation) (image : Image) :
    machine.AgreesBut machine activation image :=
  ⟨rfl, fun _ _ _ => rfl⟩

section Asking

variable {Answer Next : Type}

/-- Whether an evaluation asks its machine for an activation in an image. -/
def Asks (body : Machine → Eval Answer) (machine : Machine) (start : Image)
    (activation : Activation) (image : Image) : Prop :=
  ∀ other, machine.AgreesBut other activation image → ∀ escape left, escape.Passes →
    other.activate activation image = .error escape left → body other start = .error escape left

/-- Whether an evaluation does not depend on what its machine makes of an activation in an image. -/
def Ignores (body : Machine → Eval Answer) (machine : Machine) (start : Image)
    (activation : Activation) (image : Image) : Prop :=
  ∀ other, machine.AgreesBut other activation image → body other start = body machine start

variable {body : Machine → Eval Answer} {next : Answer → Machine → Eval Next} {machine : Machine}
  {start image : Image} {activation : Activation}

/-- An escape from an activation is one from the evaluation that asked for it. -/
theorem Asks.escape (asks : Asks body machine start activation image) {escape : Escape}
    {left : Image} (passes : escape.Passes)
    (escaped : machine.activate activation image = .error escape left) :
    body machine start = .error escape left :=
  asks machine (.refl machine activation image) escape left passes escaped

/-- An evaluation that comes to an answer asks for nothing that escapes. -/
theorem Asks.subsides (asks : Asks body machine start activation image) {answer : Answer}
    {between : Image} (result : body machine start = .ok answer between) :
    Eval.Subsides (machine.activate activation image) := by
  intro escape left escaped passes
  cases result.symm.trans (asks.escape passes escaped)

/-- What is asked for makes a difference. -/
theorem Asks.not_ignores (asks : Asks body machine start activation image) :
    ¬ Ignores body machine start activation image := by
  classical
  intro ignores
  -- Two machines that leave different images when they are asked for the activation.
  let other : Image → Machine := fun left => {
    activate := fun different image' =>
      if different = activation ∧ image' = image then .error .exhausted left
      else machine.activate different image'
    patience := machine.patience }
  have agrees : ∀ left, machine.AgreesBut (other left) activation image := fun left =>
    ⟨rfl, fun different image' apart => if_neg apart⟩
  have escaped : ∀ left, body machine start = .error .exhausted left := by
    intro left
    rw [← ignores (other left) (agrees left)]
    exact asks (other left) (agrees left) .exhausted left trivial (if_pos ⟨rfl, rfl⟩)
  have same : start = { start with drawn := 1 :: start.drawn } := by
    have equal := (escaped start).symm.trans (escaped { start with drawn := 1 :: start.drawn })
    injection equal
  exact List.cons_ne_self 1 start.drawn (congrArg Image.drawn same).symm

theorem Asks.activate (activation : Activation) (start : Image) :
    Asks (fun machine => machine.activate activation) machine start activation start :=
  fun _ _ _ _ _ escaped => escaped

theorem Ignores.activate {asked : Activation} (apart : ¬ (asked = activation ∧ start = image)) :
    Ignores (fun machine => machine.activate asked) machine start activation image :=
  fun _ agrees => agrees.activate asked start apart

/-- Nothing is asked for by running an activation but this activation. -/
theorem Asks.eq_of_activate {asked : Activation}
    (asks : Asks (fun machine => machine.activate asked) machine start activation image) :
    asked = activation ∧ start = image := by
  by_contra apart
  exact asks.not_ignores (.activate apart)

theorem Asks.bind (asks : Asks body machine start activation image) :
    Asks (fun machine => body machine >>= fun answer => next answer machine) machine start
      activation image := by
  intro other agrees escape left passes escaped
  simp only [Bind.bind, EStateM.bind, asks other agrees escape left passes escaped]

/-- A send runs the method that is found. -/
theorem Machine.send_of_lookupFor (machine : Machine) {selector : Selector} {receiver : Value}
    {method : MethodRef} (found : start.lookupFor receiver selector = some method)
    (operands : List Value) :
    machine.send selector (receiver :: operands) start =
      machine.activate (.method method (receiver :: operands)) start := by
  change machine.dispatch (start.lookupFor receiver selector) selector (receiver :: operands)
    start = _
  rw [found]
  rfl

theorem Asks.send {selector : Selector} {receiver : Value} {method : MethodRef}
    (found : start.lookupFor receiver selector = some method) (operands : List Value) :
    Asks (fun machine => machine.send selector (receiver :: operands)) machine start
      (.method method (receiver :: operands)) start :=
  fun other _ _ _ _ escaped => (other.send_of_lookupFor found operands).trans escaped

theorem Asks.eq_of_send {selector : Selector} {receiver : Value} {method : MethodRef}
    {operands : List Value} (found : start.lookupFor receiver selector = some method)
    (asks : Asks (fun machine => machine.send selector (receiver :: operands)) machine start
      activation image) :
    .method method (receiver :: operands) = activation ∧ start = image := by
  have runs : Asks (fun machine => machine.activate (.method method (receiver :: operands)))
      machine start activation image := fun other agrees escape left passes escaped =>
    (other.send_of_lookupFor found operands).symm.trans
      (asks other agrees escape left passes escaped)
  exact runs.eq_of_activate

/-- What is asked for after a name was met is asked for from the image with the name. -/
theorem asks_meet_iff {name : String} :
    Asks (fun machine => do Eval.meet name; body machine) machine start activation image ↔
      Asks body machine (start.meet name) activation image :=
  Iff.rfl

/-- What is asked for after the beginning of an evaluation, which does not depend on it. -/
theorem Asks.bind_next {answer : Answer} {between : Image}
    (ignores : Ignores body machine start activation image)
    (begun : body machine start = .ok answer between)
    (asks : Asks (next answer) machine between activation image) :
    Asks (fun machine => body machine >>= fun answer => next answer machine) machine start
      activation image := by
  intro other agrees escape left passes escaped
  simp only [Bind.bind, EStateM.bind, ignores other agrees, begun]
  exact asks other agrees escape left passes escaped

/-- What the beginning of an evaluation does not depend on is asked for by the rest of it. -/
theorem Asks.of_bind {answer : Answer} {between : Image}
    (ignores : Ignores body machine start activation image)
    (begun : body machine start = .ok answer between)
    (asks : Asks (fun machine => body machine >>= fun answer => next answer machine) machine start
      activation image) :
    Asks (next answer) machine between activation image := by
  intro other agrees escape left passes escaped
  have whole := asks other agrees escape left passes escaped
  simpa only [Bind.bind, EStateM.bind, ignores other agrees, begun] using whole

end Asking

namespace Activation

/-- The frame that an activation is run in and the code that is evaluated there, if it is a block or
a defined method with the right number of arguments. -/
def opening? (image : Image) : Activation → Option (Frame × List Code)
  | .method _ [] => none
  | .method ref (receiver :: operands) =>
      match (image.methodAt ref).behavior with
      | .defined routine =>
          if operands.length = routine.parameters then
            some (.ofMethod ref receiver operands routine.temporaries, routine.body)
          else none
      | _ => none
  | .block ref arguments => some (image.blockFrame ref arguments, (image.blockAt ref).body)

/-- The two ways of being run in a frame. -/
inductive Opens (image : Image) : Activation → Frame → List Code → Prop
  | method {ref : MethodRef} {receiver : Value} {operands : List Value} {routine : Routine} :
      (image.methodAt ref).behavior = .defined routine → operands.length = routine.parameters →
      Opens image (.method ref (receiver :: operands))
        (.ofMethod ref receiver operands routine.temporaries) routine.body
  | block {ref : BlockRef} {arguments : List Value} :
      Opens image (.block ref arguments) (image.blockFrame ref arguments) (image.blockAt ref).body

theorem opens_of_opening {activation : Activation} {image : Image} {frame : Frame}
    {body : List Code} (opened : activation.opening? image = some (frame, body)) :
    activation.Opens image frame body := by
  cases activation with
  | block ref arguments =>
      cases opened
      exact .block
  | method ref arguments =>
      cases arguments with
      | nil => cases opened
      | cons receiver operands =>
          simp only [opening?] at opened
          split at opened
          · next behavior =>
              split at opened
              · next count =>
                  cases opened
                  exact .method behavior count
              · cases opened
          · cases opened

theorem opening?_of_primitive {image : Image} {ref : MethodRef} {arguments : List Value}
    {primitive : Primitive} (behavior : (image.methodAt ref).behavior = .primitive primitive) :
    (Activation.method ref arguments).opening? image = none := by
  cases arguments with
  | nil => rfl
  | cons receiver operands => simp only [opening?, behavior]

/-- Whether an activation asks for another one. -/
inductive Asks (machine : Machine) (image : Image) (activation : Activation) :
    Activation → Image → Prop
  | code {frame : Frame} {body : List Code} {asked : Activation} {between : Image} :
      activation.opening? image = some (frame, body) →
      MessageMachine.Asks (fun machine => Code.evaluateBody machine image.heap.frames.next body)
        machine (image.addFrame frame) asked between →
      Asks machine image activation asked between
  | operation {ref : MethodRef} {arguments : List Value} {primitive : Primitive}
      {asked : Activation} {between : Image} :
      activation = .method ref arguments →
      (image.methodAt ref).behavior = .primitive primitive →
      MessageMachine.Asks (fun machine =>
        machine.runPrimitive primitive (image.methodAt ref).selector arguments)
        machine image asked between →
      Asks machine image activation asked between

end Activation

/-- An activation that was begun: the budget it has, and the image it was begun in. -/
structure Running where
  budget : Nat
  activation : Activation
  image : Image

namespace Running

/-- What an activation comes to. -/
def result (running : Running) : EStateM.Result Escape Image Value :=
  running.activation.run running.budget running.image

/-- The frame of an activation, if it gets one. -/
def frame? : Running → Option FrameRef
  | ⟨0, _, _⟩ => none
  | ⟨_ + 1, activation, image⟩ =>
      (activation.opening? image).map fun _ => image.heap.frames.next

end Running

/-- The expressions that a frame evaluates one after the other, before an expression itself does
anything. -/
def Code.parts : Code → List Code
  | .write _ value => [value]
  | .writeField _ _ value => [value]
  | .send _ _ receiver operands => receiver :: operands
  | .superSend _ _ _ operands => operands
  | .control _ _ _ _ receiver operands => receiver :: operands
  | .answer value _ => [value]
  | _ => []

/-- Whether an expression is evaluated, and in which image, while some expressions are. -/
inductive Code.Visits (machine : Machine) (frame : FrameRef) :
    List Code → Image → Code → Image → Prop
  | here {earlier later : List Code} {code : Code} {values : List Value} {image between : Image} :
      Code.evaluateAll machine frame earlier image = .ok values between →
      Visits machine frame (earlier ++ code :: later) image code between
  | inside {earlier later : List Code} {code part : Code} {values : List Value}
      {image between final : Image} :
      Code.evaluateAll machine frame earlier image = .ok values between →
      Visits machine frame code.parts between part final →
      Visits machine frame (earlier ++ code :: later) image part final

/-- Whether an expression is evaluated in the frame of an activation, and in which image. -/
inductive Running.Evaluates : Running → FrameRef → Code → Image → Prop
  | intro {budget : Nat} {activation : Activation} {begun image : Image} {frame : Frame}
      {body : List Code} {code : Code} :
      activation.opening? begun = some (frame, body) →
      Code.Visits (.ofBudget budget) begun.heap.frames.next body (begun.addFrame frame) code
        image →
      Evaluates ⟨budget + 1, activation, begun⟩ begun.heap.frames.next code image

/-- The requests of a host, with what they are served from. -/
structure Session where
  budget : Nat
  start : Image
  requests : List Request

namespace Request

/-- What is evaluated for a request, if anything is. -/
def evaluation? : Request → Option (Machine → Eval Value)
  | .send selector receiver operands =>
      some fun machine => do
        Eval.meet selector
        machine.send selector (receiver :: operands)
  | .invoke method receiver operands =>
      some fun machine => machine.activate (.method method (receiver :: operands))
  | .deliver selector arguments => some fun machine => machine.send selector arguments
  | .activate activation => some fun machine => machine.activate activation
  | _ => none

/-- Whether a request is served, and in which image, when some requests are. -/
inductive Serves (machine : Machine) : List Request → Image → Request → Image → Prop
  | head {request : Request} {rest : List Request} {image : Image} :
      Serves machine (request :: rest) image request image
  | tail {first request : Request} {rest : List Request} {image served : Image} :
      Serves machine rest (first.serve machine image).2 request served →
      Serves machine (first :: rest) image request served

end Request

namespace Session

/-- A session with a new machine. -/
def fresh (platform : Platform) (settings : Settings) (listening : Bool) (budget : Nat)
    (requests : List Request) : Session where
  budget
  start := .initial platform settings listening
  requests

theorem start_fresh (platform : Platform) (settings : Settings) (listening : Bool) (budget : Nat)
    (requests : List Request) :
    (fresh platform settings listening budget requests).start =
      .initial platform settings listening := by
  simp only [fresh]

/-- The responses to a session, and the image it leaves. -/
def outcome (session : Session) : List Response × Image :=
  Request.serveAll (.ofBudget session.budget) session.requests session.start

/-- Whether a request is served in a session, and in which image. -/
def Serves (session : Session) (request : Request) (image : Image) : Prop :=
  Request.Serves (.ofBudget session.budget) session.requests session.start request image

/-- The stacks of running activations in a session, topmost first.  Each activation was asked for by
the one below it, and the first one for a request. -/
inductive Underway (session : Session) : List Running → Prop
  | first {request : Request} {body : Machine → Eval Value} {served image : Image}
      {activation : Activation} :
      session.Serves request served → request.evaluation? = some body →
      Asks body (.ofBudget session.budget) served activation image →
      Underway session [⟨session.budget, activation, image⟩]
  | nested {budget : Nat} {activation asked : Activation} {begun image : Image}
      {below : List Running} :
      Underway session (⟨budget + 1, activation, begun⟩ :: below) →
      activation.Asks (.ofBudget budget) begun asked image →
      Underway session (⟨budget, asked, image⟩ :: ⟨budget + 1, activation, begun⟩ :: below)

end Session

end MessageMachine
