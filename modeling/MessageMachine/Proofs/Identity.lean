import MessageMachine.Proofs.Arithmetic
import MessageMachine.Proofs.Normality

/-!
# Identity of integers

A big integer that fits into a word would be another value than the word, although the two are equal
as numbers.  Operations answer integers in normal form, but big integers also come from the literals
of programs and from the host.  As long as none of these fits into a word, none that does is ever
held or passed on, whatever the program does.  This is a discipline about values.  Where it is kept,
identity of integers is equality.
-/

namespace MessageMachine

namespace Value

/-- A value in normal form is the one way of holding its integer. -/
theorem IsNormal.eq_ofInt {value : Value} {number : Int} (normal : value.IsNormal)
    (holds : value.integral? = some number) : value = ofInt number := by
  cases value with
  | integer word =>
      cases holds
      exact (ofInt_toInt word).symm
  | big large =>
      cases holds
      rw [ofInt, if_neg (Bool.eq_false_iff.mp normal)]
  | _ => cases holds

/-- Integers in normal form are the same if they are equal. -/
theorem same_eq_decide {left right : Value} {first second : Int} (normal : left.IsNormal)
    (normalToo : right.IsNormal) (holds : left.integral? = some first)
    (holdsToo : right.integral? = some second) : left.same right = decide (first = second) := by
  have alike : left = right ↔ first = second := by
    constructor
    · rintro rfl
      exact Option.some.inj (holds.symm.trans holdsToo)
    · rintro rfl
      exact (normal.eq_ofInt holds).trans (normalToo.eq_ofInt holdsToo).symm
  have plain : left.same right = decide (left = right) := by
    unfold same
    split
    · cases holds
    · rfl
  rw [plain]
  exact decide_eq_decide.mpr alike

end Value

/-- What an activation is given. -/
def Activation.arguments : Activation → List Value
  | .method _ arguments => arguments
  | .block _ arguments => arguments

namespace Discipline

/-- The discipline of keeping integers in normal form. -/
def normal : Discipline where
  Holds := Image.Normal
  Later := fun _ _ => True
  Good := fun _ value => value.IsNormal
  Fine := fun _ escape => ∀ value home, escape = .unwinding value home → value.IsNormal
  Fits := fun _ _ code => Code.AllNormal [code]
  Runs := fun _ activation => ∀ value ∈ activation.arguments, value.IsNormal
  Begun := fun _ => True
  Here := fun _ _ _ => True
  Given := fun _ _ _ _ => True

section Laws

variable {image : Image}

theorem normal_act (holds : image.Normal) (action : Action) (brings : action.BringsNormal) :
    normal.Steps image (action.perform image) :=
  ⟨holds.perform brings, trivial⟩

theorem normal_values : normal.Values where
  keep := fun _ known => known
  plain := fun _ _ known => known
  receiver := fun holds ref => (holds.frames ref).receiver
  slot := fun {image _ slot _} holds found => by
    unfold Image.slot? at found
    split at found
    · next home _ =>
        unfold Frame.slot? at found
        split at found
        · exact (holds.frames home).arguments _ (Array.mem_of_getElem? found)
        · exact (holds.frames home).temporaries _ (Array.mem_of_getElem? found)
    · cases found
  global := fun holds found => holds.globals _ (Dictionary.mem_values_of_find? found)
  element := fun holds member => holds.elements _ _ member
  field := fun holds found => Image.readField_good (fun _ _ known => known) holds.contents found
  fieldAt := fun holds found =>
    Image.readFieldAt_good (fun _ _ known => known) holds.contents found
  classOf := fun _ _ => trivial
  superclass := fun _ _ => trivial
  entry := fun _ _ => trivial
  holder := fun _ _ => trivial
  array := fun _ _ => trivial
  object := fun _ _ => trivial
  closure := fun _ _ => trivial

/-- The arguments of the activations that operations ask for are at hand. -/
theorem normal_calls (holds : image.Normal) {primitive : Primitive} {arguments : List Value}
    {activation : Activation} (known : ∀ value ∈ arguments, value.IsNormal)
    (calls : primitive.Calls image arguments activation) :
    ∀ value ∈ activation.arguments, value.IsNormal := by
  intro value member
  cases calls with
  | value => cases member
  | valueWith | valueWithWith | inSuperclass =>
      exact known value (by grind [Activation.arguments])
  | @invoked _ _ operands _ =>
      rcases List.mem_cons.mp member with rfl | element
      · exact known _ (by simp)
      · exact holds.elements operands value (Array.mem_toList_iff.mp element)

theorem normal_enter {activation : Activation} {frame : Frame} {body : List Code}
    (holds : image.Normal) (known : ∀ value ∈ activation.arguments, value.IsNormal)
    (opened : activation.opening? image = some (frame, body)) :
    (image.addFrame frame).Normal ∧ Code.AllNormal body := by
  cases Activation.opens_of_opening opened with
  | @method ref receiver operands routine behavior count =>
      have all := holds.methods ref
      simp only [Method.body, behavior] at all
      have brings : (Action.enter (.ofMethod ref receiver operands
          routine.temporaries)).BringsNormal :=
        Frame.all_ofMethod trivial ref (known receiver List.mem_cons_self)
          (fun value member => known value (List.mem_cons_of_mem _ member)) routine.temporaries
      exact ⟨holds.perform brings, all⟩
  | @block ref arguments =>
      have brings : (Action.enter (image.blockFrame ref arguments)).BringsNormal :=
        Image.all_blockFrame trivial (fun frame => (holds.frames frame).receiver) ref known
      exact ⟨holds.perform brings, holds.blocks ref⟩

theorem normal_laws : normal.Laws where
  toOrder := ⟨fun _ => trivial, fun _ _ => trivial⟩
  toValues := normal_values
  toEscapes := {
    exhausted := fun _ _ _ same => by cases same
    failed := fun _ _ _ _ _ same => by cases same
    traced := fun _ _ _ _ same => by cases same
    stopped := fun _ _ _ same => by cases same
    unwound := fun fine => fine _ _ rfl }
  toPrograms := {
    carry := fun _ fits => fits
    parts := fun fits _ member => Code.AllNormal.parts fits member
    literal := fun fits => fits _ (.here List.mem_cons_self)
    read := fun _ _ _ _ _ same => by cases same
    write := fun holds _ known _ => normal_act holds (.setSlot _ _ _ _) known
    unwritten := fun _ _ _ _ _ same => by cases same
    readField := fun holds _ =>
      ⟨normal_act holds (.readFieldAt _ _ _) trivial, fun _ _ _ same => by cases same⟩
    writeField := fun holds _ known _ =>
      ⟨normal_act holds (.writeFieldAt _ _ _ _) known, fun _ _ _ same => by cases same⟩
    block := fun holds fits _ => normal_act holds (.makeBlock _) (Code.AllNormal.inside fits)
    answer := fun _ _ known _ _ _ same => by cases same; exact known
    resolve := fun holds _ _ known _ =>
      ⟨normal_act holds (.resolve _ _ _) trivial,
        fun _ _ _ allKnown => List.forall_mem_cons.mpr ⟨known, allKnown⟩⟩
    resolveSuper := fun {_ _ frame _ _ _ _} earlier _ _ holds _ =>
      ⟨normal_act holds (.resolveSuper _ _ _) trivial, fun _ _ _ allKnown =>
        List.forall_mem_cons.mpr ⟨(earlier.frames frame).receiver, allKnown⟩⟩ }
  toActivations := {
    found := fun _ known _ _ _ allKnown => List.forall_mem_cons.mpr ⟨known, allKnown⟩
    called := fun _ _ _ _ _ _ member => by cases member
    arguments := fun known => known
    accompanied := fun _ _ _ _ _ same => by cases same
    calls := fun holds ⟨_, _, _, known, _⟩ calls => normal_calls holds known calls
    puts := fun {_ _ _ ref value} holds ⟨_, _, _, known, _⟩ puts place =>
      normal_act holds (.setElement ref place value) (known value puts.mem)
    assigns := fun {_ _ _ receiver place value} holds _ _ _ known =>
      normal_act holds (.writeField receiver place value) known
    nested := fun _ _ => trivial
    here := fun _ _ => trivial
    given := fun _ _ _ => trivial
    enter := fun holds known _ opened =>
      ⟨(normal_enter holds known opened).1, fun _ member =>
        (normal_enter holds known opened).2.single member⟩
    leave := fun {_ image _ _ _} _ _ _ _ holds =>
      ⟨normal_act holds (.leave image.heap.frames.next) trivial, fun _ known => known,
        fun _ fine _ => fine⟩ }
  act := fun {image action} holds may => by
    refine normal_act holds action ?_
    cases action <;> first | exact may.elim | exact may | exact may.2 | trivial

end Laws

end Discipline

/-- The value that an evaluation comes to or has on its way. -/
def Eval.carried? : EStateM.Result Escape Image Value → Option Value
  | .ok value _ => some value
  | .error (.unwinding value _) _ => some value
  | .error _ _ => none

/-- The value that a host is told. -/
def Response.carried? : Response → Option Value
  | .answer value => some value
  | .escaped (.unwinding value _) => some value
  | _ => none

/-- What an evaluation that keeps to a discipline comes to or has on its way is good. -/
theorem Discipline.Yields.carried {D : Discipline} (laws : D.Laws) {start : Image}
    {result : EStateM.Result Escape Image Value} (yields : D.Yields D.Good start result)
    {value : Value} (carried : Eval.carried? result = some value) :
    D.Good (Eval.left result) value := by
  cases yields with
  | ok _ _ known =>
      cases carried
      exact known
  | @error escape _ _ _ fine =>
      cases escape with
      | unwinding other home =>
          cases carried
          exact laws.unwound fine
      | _ => cases carried

namespace Request

/-- Whether what a host passes in is in normal form: the values and the trees to be installed. -/
def IsNormal : Request → Prop
  | .defineClass definition =>
      ∀ method ∈ definition.methods ++ definition.classMethods, method.IsNormal
  | .installMethod _ definition => definition.IsNormal
  | .makeArray elements => ∀ value ∈ elements, value.IsNormal
  | .send _ receiver operands => ∀ value ∈ receiver :: operands, value.IsNormal
  | .invoke _ receiver operands => ∀ value ∈ receiver :: operands, value.IsNormal
  | .deliver _ arguments => ∀ value ∈ arguments, value.IsNormal
  | .activate activation => ∀ value ∈ activation.arguments, value.IsNormal
  | .setGlobal _ value => value.IsNormal
  | .writeField _ _ value => value.IsNormal
  | _ => True

variable {machine : Machine} {request : Request} {image : Image}

/-- What a host is told of an evaluation is what the evaluation came to. -/
theorem carried_of_evaluation {body : Machine → Eval Value}
    (evaluation : request.evaluation? = some body) {value : Value}
    (carried : (request.serve machine image).1.carried? = some value) :
    Eval.carried? (body machine image) = some value := by
  have ended : ∀ result : EStateM.Result Escape Image Value,
      (Response.ofEval result).1.carried? = Eval.carried? result := by
    intro result
    cases result with
    | ok value after => rfl
    | error escape after => cases escape <;> rfl
  have completed : ∀ evaluated : Eval Value,
      Eval.carried? (Eval.complete evaluated image) = some value →
      Eval.carried? (evaluated image) = some value := by
    intro evaluated found
    unfold Eval.complete at found
    split at found
    · cases found
    · exact found
  cases request <;> cases evaluation
  case send => exact completed _ ((ended _).symm.trans carried)
  case invoke => exact completed _ ((ended _).symm.trans carried)
  case deliver => exact (ended _).symm.trans carried
  case activate => exact (ended _).symm.trans carried

/-- A request in normal form that runs nothing leaves an image in normal form. -/
theorem IsNormal.serve (given : request.IsNormal) (still : request.evaluation? = none)
    (holds : image.Normal) : (request.serve machine image).2.Normal := by
  have act : ∀ action : Action, action.BringsNormal → (action.perform image).Normal :=
    fun _ brings => holds.perform brings
  cases request with
  | defineClass definition =>
      rw [Request.serve, Response.ofDefining_snd]
      exact Image.defineClass_leaves Image.normal_withstands holds definition given
        fun _ _ _ => act (.register _ _ _ _) trivial
  | installMethod holder definition =>
      rw [Request.serve, Response.ofDefining_snd]
      exact Image.installMethod_leaves Image.normal_withstands holds holder given
  | prepareMethod holder definition =>
      rw [Request.serve, Response.ofDefining_snd]
      exact Image.prepareMethod_leaves Image.normal_withstands holds holder definition
  | removeMethod holder selector => exact act (.remove holder selector) trivial
  | instantiate owner => exact act (.instantiate owner) trivial
  | makeArray elements =>
      exact act (.makeArray elements.toArray) fun value member =>
        given value (List.mem_toArray.mp member)
  | detach block => exact act (.makeBlock _) (holds.blocks block)
  | setGlobal name value => exact act (.bind name value) given
  | readField receiver index => exact act (.readField receiver index) trivial
  | writeField receiver index value => exact act (.writeField receiver index value) given
  | meet name => exact act (.meet [name]) trivial
  | send | invoke | deliver | activate => cases still

/-- What a host is told when nothing is run is something new or was held in the image. -/
theorem carried_of_still (still : request.evaluation? = none) {value : Value}
    (carried : (request.serve machine image).1.carried? = some value) :
    value.Exists (request.serve machine image).2 ∧ value.IsNormal ∨
      (∃ name, image.global? name = some value) ∨
      ∃ receiver index, (image.readField receiver index).1 = some value := by
  have optional : ∀ found : Option Value, (Response.ofOption found).carried? = some value →
      found = some value := by
    intro found same
    cases found <;> cases same
    rfl
  have silent : none ≠ some value := (Option.some_ne_none value).symm
  cases request with
  | defineClass | installMethod | prepareMethod =>
      refine absurd carried (Response.ofDefining_fst (motive := (·.carried? ≠ some value))
        (fun _ => ?_) (fun _ => ?_) _)
      · exact silent
      · exact silent
  | removeMethod | meet => cases carried
  | instantiate | makeArray | detach =>
      cases carried
      exact Or.inl ⟨(Arena.has_push _ _ _).mpr (Or.inr rfl), trivial⟩
  | setGlobal name given => exact Or.inr (Or.inl ⟨name, optional _ carried⟩)
  | readField receiver index => exact Or.inr (Or.inr ⟨receiver, index, optional _ carried⟩)
  | writeField receiver index given =>
      simp only [Request.serve] at carried
      split at carried <;> cases carried
  | send | invoke | deliver | activate => cases still

/-- What a host is told when nothing is run is in normal form if everything in the image is. -/
theorem isNormal_of_still (still : request.evaluation? = none) (holds : image.Normal)
    {value : Value} (carried : (request.serve machine image).1.carried? = some value) :
    value.IsNormal := by
  rcases carried_of_still still carried with ⟨-, normal⟩ | ⟨name, found⟩ | ⟨receiver, index, found⟩
  · exact normal
  · exact Discipline.normal_values.global holds found
  · exact Discipline.normal_values.field holds found

/-- Requests in normal form keep to the discipline. -/
theorem IsNormal.evaluates (given : request.IsNormal) {body : Machine → Eval Value}
    (evaluation : request.evaluation? = some body) (holds : image.Normal) :
    Discipline.normal.Evaluates machine image body := by
  have laws := Discipline.normal_laws
  cases request with
  | send selector receiver operands =>
      cases evaluation
      exact Discipline.Keeps.bind laws.toOrder (laws.meet holds selector) fun _ _ holdsToo _ _ =>
        Discipline.send_keeps laws holdsToo selector given
  | invoke method receiver operands =>
      cases evaluation
      exact Discipline.Keeps.activate laws.toOrder holds given
  | deliver selector arguments =>
      cases evaluation
      cases arguments with
      | nil =>
          refine Discipline.Keeps.throw laws.toOrder holds rfl fun value home same => ?_
          cases same
      | cons receiver operands => exact Discipline.send_keeps laws holds selector given
  | activate activation =>
      cases evaluation
      exact Discipline.Keeps.activate laws.toOrder holds given
  | _ => cases evaluation

end Request

namespace Image

/-- The values that are held in an image: by globals, in arrays, in the fields of classes and
objects, in frames, and in the literals of code. -/
inductive Stores (image : Image) : Value → Prop
  | global {value : Value} : value ∈ image.globals.values → Stores image value
  | element {ref : ArrayRef} {value : Value} : value ∈ image.arrayAt ref → Stores image value
  | classField {ref : ClassRef} {value : Value} : value ∈ (image.classAt ref).values →
      Stores image value
  | reference {ref : ObjectRef} {index : Nat} {value : Value} :
      (image.objectAt ref).references[index]? = some value → Stores image value
  | overflow {ref : ObjectRef} {index : Nat} {value : Value} :
      (image.objectAt ref).overflow[index]? = some value → Stores image value
  | receiver (ref : FrameRef) : Stores image (image.frameAt ref).receiver
  | argument {ref : FrameRef} {value : Value} : value ∈ (image.frameAt ref).arguments →
      Stores image value
  | temporary {ref : FrameRef} {value : Value} : value ∈ (image.frameAt ref).temporaries →
      Stores image value
  | methodLiteral {ref : MethodRef} {datum : Datum} {number : Int} :
      Code.Encloses (image.methodAt ref).body (.literal datum) → number ∈ datum.bigNumbers →
      Stores image (.big number)
  | blockLiteral {ref : BlockRef} {datum : Datum} {number : Int} :
      Code.Encloses (image.blockAt ref).body (.literal datum) → number ∈ datum.bigNumbers →
      Stores image (.big number)

theorem Normal.stores {image : Image} (normal : image.Normal) {value : Value}
    (stores : image.Stores value) : value.IsNormal := by
  cases stores with
  | global member => exact normal.globals _ member
  | element member => exact normal.elements _ _ member
  | classField member => exact normal.contents.classValues _ _ member
  | reference found => exact (normal.contents.objects _).references _ _ found
  | overflow found => exact (normal.contents.objects _).overflow _ _ found
  | receiver ref => exact (normal.frames ref).receiver
  | argument member => exact (normal.frames _).arguments _ member
  | temporary member => exact (normal.frames _).temporaries _ member
  | methodLiteral encloses member => exact normal.methods _ _ encloses _ member
  | blockLiteral encloses member => exact normal.blocks _ _ encloses _ member

end Image

namespace Session

/-- The images that a session goes through. -/
inductive Shows (session : Session) : Image → Prop
  | served {request : Request} {image : Image} : session.Serves request image → Shows session image
  | ended : Shows session session.outcome.2
  | begun {running : Running} {below : List Running} : session.Underway (running :: below) →
      Shows session running.image
  | finished {running : Running} {below : List Running} : session.Underway (running :: below) →
      Shows session (Eval.left running.result)
  | evaluated {running : Running} {below : List Running} {frame : FrameRef} {code : Code}
      {image : Image} : session.Underway (running :: below) →
      running.Evaluates frame code image → Shows session image

/-- The values that turn up in a session: what its images hold, what activations are given, what
expressions and activations come to, and what the host is told. -/
inductive Meets (session : Session) : Value → Prop
  | stored {image : Image} {value : Value} : session.Shows image → image.Stores value →
      Meets session value
  | argument {running : Running} {below : List Running} {value : Value} :
      session.Underway (running :: below) → value ∈ running.activation.arguments →
      Meets session value
  | evaluated {running : Running} {below : List Running} {fewer : Nat} {frame : FrameRef}
      {code : Code} {image : Image} {value : Value} : session.Underway (running :: below) →
      running.budget = fewer + 1 → running.Evaluates frame code image →
      Eval.carried? (code.evaluate (.ofBudget fewer) frame image) = some value →
      Meets session value
  | result {running : Running} {below : List Running} {value : Value} :
      session.Underway (running :: below) → Eval.carried? running.result = some value →
      Meets session value
  | response {request : Request} {image : Image} {value : Value} :
      session.Serves request image →
      (request.serve (.ofBudget session.budget) image).1.carried? = some value →
      Meets session value

variable {session : Session}

theorem Always.shows {good : Image → Prop} (always : session.Always good) {image : Image}
    (shows' : session.Shows image) : good image := by
  cases shows' with
  | served serves => exact always.served serves
  | ended => exact always.ended
  | begun moment => exact always.begun moment
  | finished moment => exact always.finished moment
  | evaluated moment evaluates => exact always.evaluated moment evaluates

/-- In a session that starts out in normal form, and whose requests are, every value is. -/
theorem isNormal_of_meets (start : session.start.Normal)
    (given : ∀ request ∈ session.requests, request.IsNormal) {value : Value}
    (meets : session.Meets value) : value.IsNormal := by
  have laws := Discipline.normal_laws
  have still : ∀ {request image}, session.Serves request image → request.evaluation? = none →
      image.Normal → (request.serve (.ofBudget session.budget) image).2.Normal :=
    fun serves still holds => (given _ serves.mem).serve still holds
  have evaluates : ∀ {request image body}, session.Serves request image →
      request.evaluation? = some body → image.Normal →
      Discipline.normal.Evaluates (.ofBudget session.budget) image body :=
    fun serves evaluation holds => (given _ serves.mem).evaluates evaluation holds
  have hosts : Discipline.normal.Hosts session :=
    .of_requests laws (fun _ => trivial) start still evaluates
  have always : session.Always Image.Normal :=
    Discipline.always laws (fun _ => trivial) start still evaluates
  cases meets with
  | stored shows' stores => exact (always.shows shows').stores stores
  | argument moment member => exact (hosts.underway laws moment).2 value member
  | evaluated moment patience evaluated carried =>
      cases evaluated with
      | intro opened visits =>
          cases patience
          have visit := hosts.visit laws moment opened visits
          have obeys := Discipline.code_keeps laws visit.ready visit.trusts
          exact obeys.yields.carried laws carried
  | result moment carried => exact (hosts.yields laws moment).carried laws carried
  | @response request image value serves carried =>
      cases evaluation : request.evaluation? with
      | none => exact Request.isNormal_of_still evaluation (always.served serves) carried
      | some body =>
          exact (hosts.obeys laws serves evaluation).yields.carried laws
            (Request.carried_of_evaluation evaluation carried)

end Session

/-- Big integers are out of the range of words, throughout every session of a new machine.  Let no
big integer within that range be written in a method that is installed or be passed in by the host.
Then none is held in an image of the session, be it in a global, a field, an array, a frame or a
literal, and none is given to an activation, comes out of an expression or of an activation, or is
told to the host.  Therefore two integers that turn up in the session are identical exactly if they
are equal, and the operations for the one and for the other give the same answer. -/
theorem integers_stay_normal {platform : Platform} {settings : Settings} {listening : Bool}
    {budget : Nat} {requests : List Request} (given : ∀ request ∈ requests, request.IsNormal) :
    let session := Session.fresh platform settings listening budget requests
    (∀ number, session.Meets (.big number) → number < -2 ^ 63 ∨ 2 ^ 63 ≤ number) ∧
    ∀ left right a b, session.Meets left → session.Meets right →
      left.integral? = some a → right.integral? = some b →
      ∃ truth : Bool, (truth = true ↔ a = b) ∧ ∀ machine image,
        (Primitive.object .identical).run machine [left, right] image =
          .ok (.boolean truth) image ∧
        (Primitive.integer .equal).run machine [left, right] image =
          .ok (.boolean truth) image := by
  intro session
  have normal : ∀ {value}, session.Meets value → value.IsNormal := fun meets => by
    refine Session.isNormal_of_meets ?_ given meets
    rw [Session.start_fresh]
    exact Image.normal_initial platform settings listening
  refine ⟨fun number meets => ?_, fun left right a b meets meetsToo holds holdsToo => ?_⟩
  · have outside := (Integer.fitsWord_iff number).not.mp (Bool.eq_false_iff.mp (normal meets))
    omega
  · refine ⟨decide (a = b), decide_eq_true_iff, fun machine image => ⟨?_, ?_⟩⟩
    · rw [← Value.same_eq_decide (normal meets) (normal meetsToo) holds holdsToo]
      rfl
    · rw [← IntegerOperation.equalNumbers_eq holds holdsToo]
      rfl

/-- A class with a method that subtracts one from the smallest big integer. -/
def lesseningClass : Source.ClassDefinition where
  name := "Lessening"
  superclass := none
  fields := []
  methods := []
  classFields := []
  classMethods := [{
    selector := "run"
    parameters := 0
    body := .expressions 0 [.answer
      (.send (.literal (.big "9223372036854775808")) "-" [.literal (.integer 1)]) ⟨0, 9⟩] }]

/-- The host passes in the same big integer. -/
def lesseningRequests : List Request :=
  [.defineClass lesseningClass, .setGlobal "Bound" (.big 9223372036854775808),
    .send "run" (.classObject ⟨37⟩) []]

theorem lesseningClass_normal : (Request.defineClass lesseningClass).IsNormal := by
  intro method member
  cases List.mem_singleton.mp member
  intro temporaries body given scopes value stands digits number has found
  cases given
  -- There are two literals, and only the receiver of the message has digits.
  have literal : value = .big "9223372036854775808" ∨ value = .integer 1 := by
    cases stands with
    | here member => cases List.mem_singleton.mp member
    | block member => cases List.mem_singleton.mp member
    | part member stands =>
        cases List.mem_singleton.mp member
        cases stands with
        | here member => cases List.mem_singleton.mp member
        | block member => cases List.mem_singleton.mp member
        | part member stands =>
            cases List.mem_singleton.mp member
            cases stands with
            | here member => simpa [Source.Expression.parts] using member
            | block member => simp [Source.Expression.parts] at member
            | part member stands =>
                simp only [Source.Expression.parts, List.mem_cons, List.not_mem_nil,
                  or_false] at member
                rcases member with rfl | rfl <;> cases stands <;> contradiction
  rcases literal with rfl | rfl
  · cases has
    have read : Integer.read "9223372036854775808" = .ok 9223372036854775808 := by decide +kernel
    cases read.symm.trans found
    rfl
  · cases has

/-- The difference that the method answers is a word, and not the integer of the host. -/
theorem integers_stay_normal_lessening :
    let session := Session.fresh .plain .standard false 3 lesseningRequests
    session.Meets (.integer 9223372036854775807) ∧ session.Meets (.big 9223372036854775808) ∧
    ∀ machine image,
      (Primitive.object .identical).run machine
        [.integer 9223372036854775807, .big 9223372036854775808] image =
          .ok (.boolean false) image ∧
      (Primitive.integer .equal).run machine
        [.integer 9223372036854775807, .big 9223372036854775808] image =
          .ok (.boolean false) image := by
  intro session
  have given : ∀ request ∈ lesseningRequests, request.IsNormal := by
    simp only [lesseningRequests, List.forall_mem_cons]
    refine ⟨lesseningClass_normal, rfl, ?_, List.forall_mem_nil _⟩
    exact fun value member => by cases List.mem_singleton.mp member; trivial
  have difference : session.Meets (.integer 9223372036854775807) := by
    have serves : session.Serves (.send "run" (.classObject ⟨37⟩) []) _ := .tail (.tail .head)
    exact .response serves (by decide +kernel)
  have bound : session.Meets (.big 9223372036854775808) :=
    .stored .ended (.global (by decide +kernel))
  obtain ⟨truth, means, same⟩ :=
    (integers_stay_normal given).2 _ _ _ _ difference bound rfl rfl
  have apart : truth = false :=
    Bool.eq_false_iff.mpr fun equal => absurd (means.mp equal) (by decide)
  rw [apart] at same
  exact ⟨difference, bound, same⟩

end MessageMachine
