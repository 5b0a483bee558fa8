import MessageMachine.Proofs.Matching

/-!
# Sessions in which all code is prepared

A host that defines classes and methods, makes objects, reads and writes their fields and sends
messages can bring no code into an image but by having it prepared.  So every image it is served in
is coherent, and what is evaluated for it keeps to the discipline of running code where it suits.
No evaluation then ends in a report that code does not match its activation.
-/

namespace MessageMachine

/-- The requests of a host that leaves it to the machine to find methods. -/
def Request.isOrdinary : Request → Bool
  | .defineClass _ => true
  | .installMethod _ _ => true
  | .instantiate _ => true
  | .send _ _ _ => true
  | .meet _ => true
  | .readField _ _ => true
  | .writeField _ _ _ => true
  | _ => false

/-- Whether a result reports that code does not match its activation. -/
def Escape.IsInternal : Escape → Prop
  | .failed exception => ∃ fault, exception.failure = .internal fault
  | _ => False

def Response.IsInternal : Response → Prop
  | .escaped escape => escape.IsInternal
  | _ => False

theorem Escape.Proper.not_isInternal {image : Image} {escape : Escape}
    (proper : escape.Proper image) : ¬ escape.IsInternal := by
  cases escape with
  | failed exception =>
      rintro ⟨fault, internal⟩
      exact proper fault internal
  | unwinding value home => exact id
  | exhausted | stopped => exact id

/-- Whether an expression finds the slot or the field that it reads or writes, once the value is
there that it is to write. -/
def Code.Finds (machine : Machine) (frame : FrameRef) (image : Image) : Code → Prop
  | .read slot => ∃ value, image.slot? frame slot = some value
  | .write slot value => ∀ written between,
      value.evaluate machine frame image = .ok written between →
      ∃ home, between.slotHome? frame slot = some home
  | .readField site index =>
      ∃ value, (image.readFieldAt site (image.frameAt frame).receiver index).1 = some value
  | .writeField site index value => ∀ written between,
      value.evaluate machine frame image = .ok written between →
      (between.writeFieldAt site (between.frameAt frame).receiver index written).1 = true
  | _ => True

/-- The actions of definitions bring in what suits. -/
theorem Definition.suitable {image : Image} {action : Action}
    (definition : Definition image action) : action.Suitable image := by
  cases definition with
  | declared _ found => exact Image.belongs_of_find? found
  | prepared _ _ success => exact Source.MethodDefinition.suits_of_prepare success
  | noted | bound | registered | allocated | missed => trivial

theorem Image.Built.coherent {start image : Image} (built : start.Built image)
    (coherent : start.Coherent) : image.Coherent :=
  built.induction coherent fun definition coherent =>
    coherent.perform definition.allowed definition.suitable

theorem Session.coherent_fresh (platform : Platform) (settings : Settings) (listening : Bool)
    (budget : Nat) (requests : List Request) :
    (fresh platform settings listening budget requests).start.Coherent := by
  rw [start_fresh]
  exact Image.coherent_initial platform settings listening

namespace Request

variable {machine : Machine} {requests : List Request} {start image : Image} {request : Request}

theorem Throughout.of_serves {condition : Image → Request → Prop}
    (throughout : Throughout machine condition requests start)
    (serves : Serves machine requests start request image) : condition image request := by
  induction serves with
  | head => exact throughout.1
  | tail _ inductionHypothesis => exact inductionHypothesis throughout.2

/-- What is known of the requests of a session with a new machine. -/
theorem Throughout.of_fresh {condition : Image → Request → Prop} {platform : Platform}
    {settings : Settings} {listening : Bool} {budget : Nat}
    (throughout : Throughout (.ofBudget budget) condition requests
      (.initial platform settings listening))
    (serves : (Session.fresh platform settings listening budget requests).Serves request image) :
    condition image request := by
  rw [Session.Serves, Session.start_fresh] at serves
  exact throughout.of_serves serves

/-- Every response is one to a request that is served. -/
theorem exists_serves_of_mem {response : Response}
    (member : response ∈ (serveAll machine requests start).1) :
    ∃ request image, Serves machine requests start request image ∧
      (request.serve machine image).1 = response := by
  induction requests generalizing start with
  | nil => cases member
  | cons first rest inductionHypothesis =>
      simp only [serveAll] at member
      rcases List.mem_cons.mp member with rfl | later
      · exact ⟨first, start, .head, rfl⟩
      · obtain ⟨request, image, serves, responds⟩ := inductionHypothesis later
        exact ⟨request, image, .tail serves, responds⟩

/-- Ordinary requests that run nothing keep an image coherent. -/
theorem coherent_serve (ordinary : request.isOrdinary = true)
    (admissible : request.Admissible image) (still : request.evaluation? = none)
    (coherent : image.Coherent) :
    (request.serve machine image).2.Coherent := by
  cases request with
  | defineClass definition =>
      have built := (Image.defineClass_builds coherent.formed definition).built
      rw [← Response.ofDefining_snd] at built
      exact built.coherent coherent
  | installMethod holder definition =>
      have built := (Image.installMethod_builds coherent.formed admissible definition).built
      rw [← Response.ofDefining_snd] at built
      exact built.coherent coherent
  | instantiate owner =>
      have allowed : (Action.instantiate owner).Allowed image := admissible
      exact coherent.perform allowed trivial
  | readField receiver index =>
      have allowed : (Action.readField receiver index).Allowed image := admissible
      exact coherent.perform allowed trivial
  | writeField receiver index value =>
      have allowed : (Action.writeField receiver index value).Allowed image := admissible
      exact coherent.perform allowed trivial
  | meet name =>
      have allowed : (Action.meet [name]).Allowed image := trivial
      exact coherent.perform allowed trivial
  | send => cases still
  | _ => cases ordinary

/-- Ordinary requests that run nothing report nothing of the kind. -/
theorem not_isInternal_serve (ordinary : request.isOrdinary = true)
    (still : request.evaluation? = none) :
    ¬ (request.serve machine image).1.IsInternal := by
  cases request with
  | defineClass | installMethod =>
      exact Response.ofDefining_fst (motive := (¬ ·.IsInternal)) (fun _ => id) (fun _ => id) _
  | instantiate | meet => exact id
  | readField receiver index =>
      simp only [serve]
      generalize (image.readField receiver index).1 = value
      cases value <;> exact id
  | writeField receiver index value =>
      simp only [serve]
      split <;> exact id
  | send => cases still
  | _ => cases ordinary

end Request

namespace Discipline

variable {session : Session}

/-- What is evaluated for an ordinary request keeps to the discipline. -/
theorem matching_evaluates (laws : (matching session).Laws) {machine : Machine} {request : Request}
    {image : Image} {body : Machine → Eval Value} (ordinary : request.isOrdinary = true)
    (admissible : request.Admissible image) (evaluation : request.evaluation? = some body)
    (coherent : image.Coherent) : (matching session).Evaluates machine image body := by
  cases request with
  | send selector receiver operands =>
      cases evaluation
      refine Keeps.bind laws.toOrder (laws.meet coherent selector) fun _ _ coherentMet later _ => ?_
      exact send_keeps laws coherentMet selector (laws.keepAll later admissible)
  | invoke | deliver | activate => cases ordinary
  | _ => cases evaluation

/-- Ordinary requests keep to the discipline. -/
theorem matching_hosts (laws : (matching session).Laws) (begun : session.start.Coherent)
    (ordinary : ∀ request ∈ session.requests, request.isOrdinary = true)
    (admissible : ∀ {request image}, session.Serves request image → request.Admissible image) :
    (matching session).Hosts session := by
  refine .of_requests laws (fun moment => ⟨_, moment⟩) begun
    (fun serves still coherent => ?_) fun serves evaluation coherent => ?_
  · exact Request.coherent_serve (ordinary _ serves.mem) (admissible serves) still coherent
  · exact matching_evaluates laws (ordinary _ serves.mem) (admissible serves) evaluation coherent

/-- Results that keep to the discipline are no reports that code does not match. -/
theorem not_isInternal_of_yields {start : Image} {result : EStateM.Result Escape Image Value}
    (yielded : (matching session).Yields (matching session).Good start result) {escape : Escape}
    {after : Image} (escaped : result = .error escape after) : ¬ escape.IsInternal := by
  subst escaped
  cases yielded with
  | error _ _ proper => exact Escape.Proper.not_isInternal proper

/-- A return that reaches the host is no such report either. -/
theorem not_isInternal_complete {body : Eval Value} {image : Image}
    (kept : ∀ escape after, body image = .error escape after → ¬ escape.IsInternal) :
    ¬ (Response.ofEval (Eval.complete body image)).1.IsInternal := by
  unfold Eval.complete
  split
  · rintro ⟨fault, internal⟩
    cases internal
  · cases result : body image with
    | ok value after => exact id
    | error escape after => exact kept escape after result

/-- The response to a request that keeps to the discipline. -/
theorem not_isInternal_response {machine : Machine} {request : Request} {image : Image}
    {body : Machine → Eval Value} (ordinary : request.isOrdinary = true)
    (evaluation : request.evaluation? = some body)
    (obeys : (matching session).Obeys (matching session).Good machine image body) :
    ¬ (request.serve machine image).1.IsInternal := by
  cases request with
  | send selector receiver operands =>
      cases evaluation
      exact not_isInternal_complete fun _ _ ended => not_isInternal_of_yields obeys.yields ended
  | invoke | deliver | activate => cases ordinary
  | _ => cases evaluation

/-- An expression that suits its frame finds what it reads or writes. -/
theorem finds_of_visit (laws : (matching session).Laws) {machine : Machine} {frame : FrameRef}
    {codes : List Code} {start image : Image} {code : Code}
    (visit : (matching session).Visit machine frame codes start code image) :
    code.Finds machine frame image := by
  have coherent : image.Coherent := visit.ready.holds
  have fits : image.Accommodates frame code := visit.ready.fits code List.mem_cons_self
  -- What is written is evaluated first, and the frame keeps its slots meanwhile.
  have parts := (visit.parts laws).yields
  cases code with
  | read slot => exact fits.read
  | readField site index => exact (coherent.readField fits).2
  | write slot value =>
      intro written between evaluated
      rw [Code.parts, Code.evaluateAll_alone evaluated] at parts
      cases parts with
      | ok _ retains _ => exact (fits.mono retains).write
  | writeField site index value =>
      intro written between evaluated
      rw [Code.parts, Code.evaluateAll_alone evaluated] at parts
      cases parts with
      | ok coherent retains covers =>
          have known : written.Exists between := covers.1 written List.mem_cons_self
          exact (Image.Coherent.writeField coherent (fits.mono retains) known).2
  | _ => trivial

end Discipline

open Discipline

section Session

variable {platform : Platform} {settings : Settings} {listening : Bool} {budget : Nat}
  {requests : List Request}

/-- Prepared code never mismatches its activations.  Suppose that a host does nothing but define
classes, install methods, make objects, read and write fields and send messages, and that neither of
the operations is run that get around lookups.  Then no response is the report of an internal error,
no activation ends in one, however deep in the stack, and no expression does that is evaluated in
the frame of an activation.  Every slot and every field that an expression reads or writes is found.

This covers blocks that are called after the method that made them is over, methods that are
inherited or found by way of the superclass, and methods of classes as objects: all of these are
activations of the session. -/
theorem prepared_code_matches (ordinary : ∀ request ∈ requests, request.isOrdinary = true)
    (admissible : Request.Throughout (.ofBudget budget)
      (fun image request => request.Admissible image) requests
      (.initial platform settings listening))
    (avoids : ∀ running below,
      (Session.fresh platform settings listening budget requests).Underway (running :: below) →
        ¬ running.Forces) :
    (∀ response ∈ (Session.fresh platform settings listening budget requests).outcome.1,
      ¬ response.IsInternal) ∧
    ∀ running below,
      (Session.fresh platform settings listening budget requests).Underway (running :: below) →
      (∀ escape after, running.result = .error escape after → ¬ escape.IsInternal) ∧
      ∀ fewer frame code image, running.budget = fewer + 1 → running.Evaluates frame code image →
        (∀ escape after, code.evaluate (.ofBudget fewer) frame image = .error escape after →
          ¬ escape.IsInternal) ∧
        code.Finds (.ofBudget fewer) frame image := by
  have laws := matching_laws avoids
  have begun := Session.coherent_fresh platform settings listening budget requests
  have hosts := matching_hosts laws begun ordinary admissible.of_fresh
  refine ⟨fun response member => ?_, fun running below moment => ⟨fun escape after ended => ?_, ?_⟩⟩
  · obtain ⟨request, image, serves, rfl⟩ := Request.exists_serves_of_mem member
    cases evaluation : request.evaluation? with
    | none => exact Request.not_isInternal_serve (ordinary _ serves.mem) evaluation
    | some body =>
        exact not_isInternal_response (ordinary _ serves.mem) evaluation
          (hosts.obeys laws serves evaluation)
  · exact not_isInternal_of_yields (hosts.yields laws moment) ended
  · intro fewer frame code image patience evaluates
    cases evaluates with
    | @intro budget activation begun image frame body code opened visits =>
        cases patience
        have visit := hosts.visit laws moment opened visits
        have obeys := code_keeps laws visit.ready visit.trusts
        exact ⟨fun escape after ended => not_isInternal_of_yields obeys.yields ended,
          finds_of_visit laws visit⟩

end Session

/-- A class with a method that answers a block.  The block keeps the argument of the method in a
field. -/
def keepingClass : Source.ClassDefinition where
  name := "Keeper"
  superclass := none
  fields := ["kept"]
  methods := [{
    selector := "keep:"
    parameters := 1
    body := .expressions 0
      [.answer (.block 0 0 [.write (.field 0) (.read (.slot ⟨.argument, 1, 0⟩))]) ⟨1, 8⟩] }]
  classFields := []
  classMethods := []

/-- A class that inherits the method. -/
def heirClass : Source.ClassDefinition where
  name := "Heir"
  superclass := some "Keeper"
  fields := ["other"]
  methods := []
  classFields := []
  classMethods := []

/-- The block is called when its method is over. -/
def keepingRequests : List Request :=
  [.defineClass keepingClass, .defineClass heirClass, .instantiate ⟨39⟩,
    .send "keep:" (.object ⟨0⟩) [.integer 3], .send "value" (.block ⟨0⟩) []]

def keepingSession : Session :=
  .fresh .plain .standard false 2 keepingRequests

/-- The image in which the first message is sent. -/
def heirImage : Image :=
  ((Request.instantiate ⟨39⟩).serve (.ofBudget 2)
    ((Request.defineClass heirClass).serve (.ofBudget 2)
      ((Request.defineClass keepingClass).serve (.ofBudget 2)
        (.initial .plain .standard false)).2).2).2

/-- The image in which the method is run. -/
def keepingImage : Image :=
  heirImage.meet "keep:"

/-- The image in which the block is called. -/
def callingImage : Image :=
  ((Request.send "keep:" (.object ⟨0⟩) [.integer 3]).serve (.ofBudget 2) heirImage).2.meet "value"

theorem keepingSession_serves {request : Request} {image : Image} {body : Machine → Eval Value}
    (serves : keepingSession.Serves request image) (evaluation : request.evaluation? = some body) :
    request = .send "keep:" (.object ⟨0⟩) [.integer 3] ∧ image.meet "keep:" = keepingImage ∨
      request = .send "value" (.block ⟨0⟩) [] ∧ image.meet "value" = callingImage := by
  unfold keepingSession keepingRequests Session.Serves at serves
  simp only [Session.fresh] at serves
  cases serves with
  | head => cases evaluation
  | tail serves =>
      cases serves with
      | head => cases evaluation
      | tail serves =>
          cases serves with
          | head => cases evaluation
          | tail serves =>
              cases serves with
              | head => exact Or.inl ⟨rfl, rfl⟩
              | tail serves =>
                  cases serves with
                  | head => exact Or.inr ⟨rfl, rfl⟩
                  | tail serves => cases serves

/-- What is found out about the method: which one it is, and that it does nothing but answer a
block. -/
def answersBlock : Option MethodRef → Option (Frame × List Code) → Bool
  | some ⟨86⟩, some (_, [.answer (.block 0 0 true _) _]) => true
  | _, _ => false

theorem keepingImage_method :
    keepingImage.lookupFor (.object ⟨0⟩) "keep:" = some ⟨86⟩ ∧
      ∃ frame code span,
        (Activation.method ⟨86⟩ [.object ⟨0⟩, .integer 3]).opening? keepingImage =
          some (frame, [.answer (.block 0 0 true code) span]) := by
  have shape : answersBlock (keepingImage.lookupFor (.object ⟨0⟩) "keep:")
      ((Activation.method ⟨86⟩ [.object ⟨0⟩, .integer 3]).opening? keepingImage) = true := by
    decide +kernel
  generalize keepingImage.lookupFor (.object ⟨0⟩) "keep:" = found,
    (Activation.method ⟨86⟩ [.object ⟨0⟩, .integer 3]).opening? keepingImage = opening at shape ⊢
  unfold answersBlock at shape
  split at shape
  · exact ⟨rfl, _, _, _, rfl⟩
  · cases shape

/-- What is found out about the block: which operation calls it, that it has a value, and that it
does nothing but keep the argument. -/
def keepsArgument : Option MethodRef → Behavior → EStateM.Result Escape Image Value →
    List Code → Bool
  | some ⟨83⟩, .primitive (.block .value), .ok _ _,
      [.writeField _ 0 (.read ⟨.argument, 1, 0⟩)] => true
  | _, _, _, _ => false

theorem callingImage_block :
    callingImage.lookupFor (.block ⟨0⟩) "value" = some ⟨83⟩ ∧
      (callingImage.methodAt ⟨83⟩).behavior = .primitive (.block .value) ∧
      (∃ value after,
        (Machine.ofBudget 1).activate (.block ⟨0⟩ []) callingImage = .ok value after) ∧
      ∃ site,
        (callingImage.blockAt ⟨0⟩).body = [.writeField site 0 (.read ⟨.argument, 1, 0⟩)] := by
  have shape : keepsArgument (callingImage.lookupFor (.block ⟨0⟩) "value")
      (callingImage.methodAt ⟨83⟩).behavior
      ((Machine.ofBudget 1).activate (.block ⟨0⟩ []) callingImage)
      (callingImage.blockAt ⟨0⟩).body = true := by decide +kernel
  generalize callingImage.lookupFor (.block ⟨0⟩) "value" = found,
    (callingImage.methodAt ⟨83⟩).behavior = behavior,
    (Machine.ofBudget 1).activate (.block ⟨0⟩ []) callingImage = result,
    (callingImage.blockAt ⟨0⟩).body = body at shape ⊢
  unfold keepsArgument at shape
  split at shape
  · exact ⟨rfl, rfl, ⟨_, _, rfl⟩, _, rfl⟩
  · cases shape

/-- Calling a block asks for the block. -/
theorem Asks.value {machine : Machine} {start : Image} (selector : Selector) (block : BlockRef) :
    Asks (fun machine => machine.runPrimitive (.block .value) selector [.block block]) machine start
      (.block block []) start := by
  intro other _ escape left passes escaped
  have run : (Primitive.block .value).run other [.block block] start = .error escape left := escaped
  dsimp only
  rw [runPrimitive_eq]
  simp only [Bind.bind, EStateM.bind, run, Eval.attempted_of_passes passes]

/-- If the block has a value, nothing else is asked for. -/
theorem Asks.eq_of_value {machine : Machine} {start after image : Image} {selector : Selector}
    {block : BlockRef} {value : Value} {activation : Activation}
    (answers : machine.activate (.block block []) start = .ok value after)
    (asks : Asks (fun machine => machine.runPrimitive (.block .value) selector [.block block])
      machine start activation image) : .block block [] = activation ∧ start = image := by
  have called : ∀ other : Machine, other.activate (.block block []) start = .ok value after →
      other.runPrimitive (.block .value) selector [.block block] start = .ok value after := by
    intro other answers
    have run : (Primitive.block .value).run other [.block block] start = .ok value after := answers
    rw [runPrimitive_eq]
    simp only [Bind.bind, EStateM.bind, run, Eval.attempted]
    rfl
  by_contra apart
  refine asks.not_ignores fun other agrees => ?_
  have same := (agrees.activate (.block block []) start apart).trans answers
  exact (called other same).trans (called machine answers).symm

theorem keepingSession_underway {stack : List Running} (moment : keepingSession.Underway stack) :
    stack = [⟨2, .method ⟨86⟩ [.object ⟨0⟩, .integer 3], keepingImage⟩] ∨
      stack = [⟨2, .method ⟨83⟩ [.block ⟨0⟩], callingImage⟩] ∨
      stack = [⟨1, .block ⟨0⟩ [], callingImage⟩, ⟨2, .method ⟨83⟩ [.block ⟨0⟩], callingImage⟩] := by
  obtain ⟨keeping, frame, code, span, opened⟩ := keepingImage_method
  obtain ⟨calling, behavior, ⟨value, after, answers⟩, site, body⟩ := callingImage_block
  induction moment with
  | first serves evaluation asks =>
      rcases keepingSession_serves serves evaluation with ⟨same, there⟩ | ⟨same, there⟩
      · subst same
        cases evaluation
        rw [asks_meet_iff, there] at asks
        obtain ⟨rfl, rfl⟩ := asks.eq_of_send keeping
        exact Or.inl rfl
      · subst same
        cases evaluation
        rw [asks_meet_iff, there] at asks
        obtain ⟨rfl, rfl⟩ := asks.eq_of_send calling
        exact Or.inr (Or.inl rfl)
  | @nested budget activation asked begun image below _ asks inductionHypothesis =>
      -- Neither the method nor the block sends anything; only the operation asks for the block.
      rcases inductionHypothesis with same | same | same
      · cases same
        cases asks with
        | code openedToo asks =>
            cases opened.symm.trans openedToo
            refine absurd (fun _ _ => ?_) asks.not_ignores
            simp only [Code.evaluateBody, Code.evaluateAll, Code.evaluate]
        | operation method behaviorToo asks =>
            cases method
            cases opened.symm.trans (Activation.opening?_of_primitive behaviorToo)
      · cases same
        cases asks with
        | code openedToo _ =>
            cases openedToo.symm.trans (Activation.opening?_of_primitive behavior)
        | operation method behaviorToo asks =>
            cases method
            cases behavior.symm.trans behaviorToo
            obtain ⟨rfl, rfl⟩ := Asks.eq_of_value answers asks
            exact Or.inr (Or.inr rfl)
      · cases same
        cases asks with
        | code openedToo asks =>
            rw [Activation.opening?, body] at openedToo
            cases openedToo
            refine absurd (fun _ _ => ?_) asks.not_ignores
            simp only [Code.evaluateBody, Code.evaluateAll, Code.evaluate]
        | operation method _ _ => cases method

theorem keepingSession_avoids (running : Running) (below : List Running)
    (moment : keepingSession.Underway (running :: below)) : ¬ running.Forces := by
  rintro ⟨-, ref, arguments, activation, forces⟩
  obtain ⟨-, _, _, _, opened⟩ := keepingImage_method
  obtain ⟨-, calls, -⟩ := callingImage_block
  rcases keepingSession_underway moment with same | same | same
  · cases same
    cases activation
    rcases forces with behavior | behavior
    · cases opened.symm.trans (Activation.opening?_of_primitive behavior)
    · cases opened.symm.trans (Activation.opening?_of_primitive behavior)
  · cases same
    cases activation
    dsimp only at forces
    rw [calls] at forces
    rcases forces with forced | forced
    · cases forced
    · cases forced
  · cases same
    cases activation

theorem keepingSession_calls : keepingSession.Underway
    [⟨1, .block ⟨0⟩ [], callingImage⟩, ⟨2, .method ⟨83⟩ [.block ⟨0⟩], callingImage⟩] := by
  obtain ⟨found, behavior, -⟩ := callingImage_block
  have serves : keepingSession.Serves (.send "value" (.block ⟨0⟩) [])
      ((Request.send "keep:" (.object ⟨0⟩) [.integer 3]).serve (.ofBudget 2) heirImage).2 := by
    unfold keepingSession keepingRequests heirImage Session.Serves
    simp only [Session.fresh]
    exact .tail (.tail (.tail (.tail .head)))
  exact .nested (.first serves rfl (asks_meet_iff.mpr (.send found [])))
    (.operation rfl behavior (.value _ _))

/-- The block finds the argument of a method that is over, and a field that its receiver has by
inheritance. -/
theorem prepared_code_matches_outliving :
    let image := callingImage.addFrame (callingImage.blockFrame ⟨0⟩ [])
    let frame := callingImage.heap.frames.next
    (∀ response ∈ keepingSession.outcome.1, ¬ response.IsInternal) ∧
      (Code.read ⟨.argument, 1, 0⟩).Finds (.ofBudget 0) frame image ∧
      ∃ site, (callingImage.blockAt ⟨0⟩).body = [.writeField site 0 (.read ⟨.argument, 1, 0⟩)] ∧
        (Code.writeField site 0 (.read ⟨.argument, 1, 0⟩)).Finds (.ofBudget 0) frame image := by
  intro image frame
  have ordinary : ∀ request ∈ keepingRequests, request.isOrdinary = true := by decide
  have admissible : Request.Throughout (.ofBudget 2)
      (fun image request => request.Admissible image) keepingRequests
      (.initial .plain .standard false) := by decide +kernel
  obtain ⟨-, -, -, site, body⟩ := callingImage_block
  have evaluates : Running.Evaluates ⟨1, .block ⟨0⟩ [], callingImage⟩ frame
      (.writeField site 0 (.read ⟨.argument, 1, 0⟩)) image := by
    refine .intro rfl ?_
    rw [body]
    exact .first
  have inside : Running.Evaluates ⟨1, .block ⟨0⟩ [], callingImage⟩ frame
      (.read ⟨.argument, 1, 0⟩) image := by
    refine .intro rfl ?_
    rw [body]
    exact .within .first
  have matched := prepared_code_matches ordinary admissible keepingSession_avoids
  have finds := (matched.2 _ _ keepingSession_calls).2
  exact ⟨matched.1, (finds 0 _ _ _ rfl inside).2, site, body, (finds 0 _ _ _ rfl evaluates).2⟩

end MessageMachine
